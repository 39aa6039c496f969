import Mathlib.Data.List.Pairwise
import Mathlib.Tactic.Lemma
import Mathlib.Tactic.SplitIfs
import ArrayBench.Bench.Settings
import ArrayBench.Proofs.Step

/-!
Faults of settings.

Settings are examined for one fault after the other, and the first one found is reported. Whether
the sizes of a sweep ascend is only looked at from one size to the next, but the order of numbers is
transitive, so in an ascending sweep every size is below all that come after it.
-/

namespace ArrayBench

def SettingsError.all : List SettingsError :=
  [noWarmup, noIterations, noVectorLen, noRows, noCols, noSweep, zeroSweepPoint, unorderedSweep]

lemma SettingsError.mem_all (e : SettingsError) : e ∈ all := by
  cases e <;> decide

namespace Settings

structure Valid (s : Settings) : Prop where
  warmup : 0 < s.schedule.warmup
  iterations : 0 < s.schedule.iterations
  vectorLen : 0 < s.vectorLen
  rows : 0 < s.rows
  cols : 0 < s.cols
  sweep : s.sweepSizes ≠ []
  positive : ∀ n ∈ s.sweepSizes, 0 < n
  ascending : ∀ (i j : Nat) (hi : i < s.sweepSizes.length) (hj : j < s.sweepSizes.length),
    i < j → s.sweepSizes[i] < s.sweepSizes[j]

def Has (s : Settings) : SettingsError → Prop
  | .noWarmup => s.schedule.warmup = 0
  | .noIterations => s.schedule.iterations = 0
  | .noVectorLen => s.vectorLen = 0
  | .noRows => s.rows = 0
  | .noCols => s.cols = 0
  | .noSweep => s.sweepSizes = []
  | .zeroSweepPoint => 0 ∈ s.sweepSizes
  | .unorderedSweep => ¬ s.sweepSizes.Pairwise (· < ·)

instance (s : Settings) : DecidablePred s.Has := fun
  | .noWarmup => inferInstanceAs (Decidable (_ = _))
  | .noIterations => inferInstanceAs (Decidable (_ = _))
  | .noVectorLen => inferInstanceAs (Decidable (_ = _))
  | .noRows => inferInstanceAs (Decidable (_ = _))
  | .noCols => inferInstanceAs (Decidable (_ = _))
  | .noSweep => inferInstanceAs (Decidable (_ = _))
  | .zeroSweepPoint => inferInstanceAs (Decidable (_ ∈ _))
  | .unorderedSweep => inferInstanceAs (Decidable (¬ _))

/-- The settings have the fault, and none that they are examined for before it. -/
def FirstFault (s : Settings) (e : SettingsError) : Prop :=
  ∃ before after, SettingsError.all = before ++ e :: after ∧ (∀ f ∈ before, ¬ s.Has f) ∧ s.Has e

lemma valid_iff {s : Settings} : s.Valid ↔ ∀ e, ¬ s.Has e := by
  constructor
  · intro h e he
    cases e with
    | noWarmup => exact Nat.ne_of_gt h.warmup he
    | noIterations => exact Nat.ne_of_gt h.iterations he
    | noVectorLen => exact Nat.ne_of_gt h.vectorLen he
    | noRows => exact Nat.ne_of_gt h.rows he
    | noCols => exact Nat.ne_of_gt h.cols he
    | noSweep => exact h.sweep he
    | zeroSweepPoint => exact Nat.lt_irrefl 0 (h.positive 0 he)
    | unorderedSweep => exact he (List.pairwise_iff_getElem.mpr h.ascending)
  · intro h
    have hpositive : ∀ n ∈ s.sweepSizes, n ≠ 0 := by
      rintro n hn rfl
      exact h .zeroSweepPoint hn
    exact
      { warmup := Nat.pos_of_ne_zero (h .noWarmup)
        iterations := Nat.pos_of_ne_zero (h .noIterations)
        vectorLen := Nat.pos_of_ne_zero (h .noVectorLen)
        rows := Nat.pos_of_ne_zero (h .noRows)
        cols := Nat.pos_of_ne_zero (h .noCols)
        sweep := h .noSweep
        positive := fun n hn => Nat.pos_of_ne_zero (hpositive n hn)
        ascending := List.pairwise_iff_getElem.mp (not_not.mp (h .unorderedSweep)) }

/-! ### Reports -/

def report (s : Settings) : List SettingsError → Except BenchError Unit
  | [] => .ok ()
  | e :: es => if s.Has e then .error (.settings e) else s.report es

lemma report_eq_ok {s : Settings} {es : List SettingsError} :
    s.report es = .ok () ↔ ∀ e ∈ es, ¬ s.Has e := by
  induction es with
  | nil => simp [report]
  | cons e es ih =>
    rw [report, List.forall_mem_cons, ← ih]
    split_ifs with he <;> simp [he]

lemma report_eq_error {s : Settings} {es : List SettingsError} {b : BenchError} :
    s.report es = .error b ↔ ∃ e, b = .settings e ∧
      ∃ before after, es = before ++ e :: after ∧ (∀ f ∈ before, ¬ s.Has f) ∧ s.Has e := by
  induction es with
  | nil => simp [report]
  | cons e es ih =>
    -- a fault at the head is the first one; without it the first one is in the tail
    rw [report]
    split_ifs with he
    · constructor
      · rintro ⟨⟩
        exact ⟨e, rfl, [], es, rfl, by simp, he⟩
      · rintro ⟨f, rfl, before, after, heq, hbefore, -⟩
        cases before with
        | nil =>
          obtain ⟨rfl, -⟩ := List.cons.inj heq
          rfl
        | cons g before =>
          obtain ⟨rfl, -⟩ := List.cons.inj heq
          exact absurd he (hbefore e List.mem_cons_self)
    · rw [ih]
      constructor
      · rintro ⟨f, rfl, before, after, rfl, hbefore, hf⟩
        exact ⟨f, rfl, e :: before, after, rfl, List.forall_mem_cons.mpr ⟨he, hbefore⟩, hf⟩
      · rintro ⟨f, rfl, before, after, heq, hbefore, hf⟩
        cases before with
        | nil =>
          obtain ⟨rfl, -⟩ := List.cons.inj heq
          exact absurd hf he
        | cons g before =>
          obtain ⟨-, rfl⟩ := List.cons.inj heq
          exact ⟨f, rfl, before, after, rfl, fun k hk => hbefore k (List.mem_cons_of_mem _ hk), hf⟩

lemma report_append (s : Settings) (es fs : List SettingsError) :
    s.report (es ++ fs) = (do s.report es; s.report fs) := by
  induction es with
  | nil => rfl
  | cons e es ih =>
    rw [List.cons_append, report, report, ih]
    split_ifs <;> rfl

/-! ### The check -/

/-- The order is looked at from each size to the next. -/
lemma ascending_iff_isChain (sizes : List Nat) :
    Settings.ascending sizes = true ↔ sizes.IsChain (· < ·) := by
  fun_induction Settings.ascending sizes with
  | case1 a b rest ih => simp [ih]
  | case2 sizes h =>
    match sizes, h with
    | [], _ => simp
    | [a], _ => simp
    | a :: b :: rest, h => exact absurd rfl (h a b rest)

lemma ascending_iff (sizes : List Nat) :
    Settings.ascending sizes = true ↔ sizes.Pairwise (· < ·) := by
  rw [ascending_iff_isChain, List.isChain_iff_pairwise]

lemma check_eq (s : Settings) : s.check = s.report SettingsError.all := by
  have hsweep : (!Settings.ascending s.sweepSizes) = true ↔
      ¬ s.sweepSizes.Pairwise (· < ·) := by
    rw [Bool.not_eq_true', ← ascending_iff, Bool.not_eq_true]
  have hschedule : s.report [.noWarmup, .noIterations] = s.schedule.check := rfl
  have hall : SettingsError.all = [.noWarmup, .noIterations] ++
      [.noVectorLen, .noRows, .noCols, .noSweep, .zeroSweepPoint, .unorderedSweep] := rfl
  rw [hall, report_append, hschedule]
  refine congrArg (s.schedule.check >>= ·) (funext fun _ => ?_)
  simp only [hsweep, throw, throwThe, MonadExceptOf.throw, pure, Except.pure, bind, Except.bind]
  rfl

structure ChecksInOrder (s : Settings) : Prop where
  ok_iff : s.check = .ok () ↔ s.Valid
  error_iff : ∀ b, s.check = .error b ↔ ∃ e, b = .settings e ∧ s.FirstFault e
  /-- The settings that are named, in the order of the faults. -/
  fields : SettingsError.all.map SettingsError.field =
    ["schedule.warmup", "schedule.iterations", "vector_len", "rows", "cols", "sweep_sizes",
      "sweep_sizes", "sweep_sizes"]

/-- **Settings pass exactly if they are valid**, with sweeps in which every size is below all that
come after it. Other settings are refused for their first fault. -/
theorem checks_in_order (s : Settings) : s.ChecksInOrder where
  ok_iff := by
    rw [check_eq, report_eq_ok, valid_iff]
    exact ⟨fun h e => h e e.mem_all, fun h e _ => h e⟩
  error_iff b := by
    rw [check_eq]
    exact report_eq_error
  fields := rfl

/-- No columns and a falling sweep: the columns are looked at first. -/
example : (Settings.mk ⟨1, 1⟩ 5 2 0 [20, 10]).check = .error (.settings .noCols) := rfl

end Settings

end ArrayBench
