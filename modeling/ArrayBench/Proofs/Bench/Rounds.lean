import ArrayBench.Bench.Workload
import ArrayBench.Proofs.Step

/-!
The steps of a timing loop.

A timing loop performs a list of actions that is known beforehand, up to the first that fails. So
what it does is a trail: the actions performed, the failure if there is one, and the state at the
end. To see that a computation performs no other actions it is run on the traced workload, which
keeps a list of everything that it is asked to do.
-/

namespace ArrayBench

inductive Action where
  | reset
  | buffered
  | allocating
deriving DecidableEq, Repr

def Action.ofForm : Form → Action
  | .allocating => .allocating
  | _ => .buffered

namespace Schedule

/-- One round: the call, after a reset if there is one. -/
def round (reset : ResetPolicy) (call : Action) : List Action :=
  match reset with
  | .never => [call]
  | .beforeEachCall => [.reset, call]

def loop (s : Schedule) (reset : ResetPolicy) (call : Action) : List Action :=
  (List.replicate (s.warmup + s.iterations) (round reset call)).flatten

def mean (s : Schedule) (clock : Clock) : ResetPolicy → Float
  | .never => meanMicros (clock 0) s.iterations
  | .beforeEachCall => meanMicros ((List.range s.iterations).map clock).sum s.iterations

lemma rounds_add {ε σ : Type} (m n : Nat) (x : Step ε σ Unit) :
    rounds (m + n) x = (do rounds m x; rounds n x) := by
  induction m with
  | zero => rw [Nat.zero_add, rounds, pure_bind]
  | succ m ih => rw [Nat.succ_add, rounds, rounds, bind_assoc, ih]

lemma mem_loop {s : Schedule} {reset : ResetPolicy} {call a : Action}
    (h : a ∈ s.loop reset call) : a = .reset ∨ a = call := by
  obtain ⟨r, hr, ha⟩ := List.mem_flatten.mp h
  obtain rfl := (List.mem_replicate.mp hr).2
  cases reset with
  | never => exact Or.inr (List.mem_singleton.mp ha)
  | beforeEachCall => simpa [round] using ha

end Schedule

/-- The actions performed up to the first failure, the failure, and the state at the end. -/
structure Trail (σ : Type) where
  performed : List Action
  failure : Option ArrayError
  state : σ

def Trail.result {σ α : Type} (o : Trail σ) (v : α) : EStateM.Result ArrayError σ α :=
  match o.failure with
  | none => .ok v o.state
  | some e => .error e o.state

namespace Workload

variable {σ : Type}

def perform (w : Workload σ) : Action → Step ArrayError σ Unit
  | .reset => w.reset
  | .buffered => w.buffered
  | .allocating => w.allocating

lemma perform_ofForm (w : Workload σ) (form : Form) : w.perform (.ofForm form) = w.call form := by
  cases form <;> rfl

/-- Performs actions one after the other, up to the first that fails. -/
def follow (w : Workload σ) : List Action → σ → Trail σ
  | [], s => ⟨[], none, s⟩
  | a :: as, s =>
    match w.perform a s with
    | .ok _ t =>
      let o := w.follow as t
      ⟨a :: o.performed, o.failure, o.state⟩
    | .error e t => ⟨[a], some e, t⟩

lemma follow_cons_ok {w : Workload σ} {a : Action} {s t : σ} {v : Unit}
    (h : w.perform a s = .ok v t) (as : List Action) :
    w.follow (a :: as) s =
      let o := w.follow as t
      ⟨a :: o.performed, o.failure, o.state⟩ := by
  rw [follow, h]

lemma follow_cons_error {w : Workload σ} {a : Action} {s t : σ} {e : ArrayError}
    (h : w.perform a s = .error e t) (as : List Action) :
    w.follow (a :: as) s = ⟨[a], some e, t⟩ := by
  rw [follow, h]

def trail (w : Workload σ) (s : Schedule) (reset : ResetPolicy) (call : Action) (t : σ) : Trail σ :=
  w.follow (s.loop reset call) t

lemma performed_prefix (w : Workload σ) (as : List Action) (s : σ) :
    (w.follow as s).performed <+: as := by
  induction as generalizing s with
  | nil => exact List.prefix_refl []
  | cons a as ih =>
    cases h : w.perform a s with
    | ok v t =>
      rw [follow_cons_ok h]
      exact List.cons_prefix_cons.mpr ⟨rfl, ih t⟩
    | error e t =>
      rw [follow_cons_error h]
      exact List.cons_prefix_cons.mpr ⟨rfl, List.nil_prefix⟩

/-- A loop performs nothing but resets and calls in its own form. -/
lemma eq_of_mem_performed {w : Workload σ} {s : Schedule} {reset : ResetPolicy} {call a : Action}
    {t : σ} (h : a ∈ (w.trail s reset call t).performed) : a = .reset ∨ a = call :=
  Schedule.mem_loop ((w.performed_prefix _ t).subset h)

/-! ### Loops are trails -/

lemma forM_perform (w : Workload σ) (as : List Action) (s : σ) :
    as.forM w.perform s = (w.follow as s).result () := by
  induction as generalizing s with
  | nil => rfl
  | cons a as ih =>
    change (w.perform a >>= fun _ => as.forM w.perform) s = _
    cases h : w.perform a s with
    | ok v t =>
      rw [Step.bind_of_ok h, ih, follow_cons_ok h]
      rfl
    | error e t =>
      rw [Step.bind_of_error h, follow_cons_error h]
      rfl

lemma forM_append_perform (w : Workload σ) (as bs : List Action) :
    (as ++ bs).forM w.perform = (do as.forM w.perform; bs.forM w.perform) := List.forM_append

lemma rounds_forM {as : List Action} {w : Workload σ} {x : Step ArrayError σ Unit}
    (hx : x = as.forM w.perform) (n : Nat) :
    Schedule.rounds n x = (List.replicate n as).flatten.forM w.perform := by
  induction n with
  | zero => rfl
  | succ n ih =>
    rw [List.replicate_succ, List.flatten_cons, forM_append_perform, ← hx, ← ih]
    rfl

/-- The warmup and the timed rounds together are one list of actions. -/
lemma rounds_follow {reset : ResetPolicy} {call : Action} {w : Workload σ}
    {x : Step ArrayError σ Unit} (hx : x = (Schedule.round reset call).forM w.perform)
    (s : Schedule) (v : Float) (t : σ) :
    (do
      Schedule.rounds s.warmup x
      Schedule.rounds s.iterations x
      return v : Step ArrayError σ Float) t = (w.trail s reset call t).result v := by
  -- the warmup and the timed rounds are one loop over the actions
  have hloop : (do Schedule.rounds s.warmup x; Schedule.rounds s.iterations x) =
      (s.loop reset call).forM w.perform := by
    rw [← Schedule.rounds_add, rounds_forM hx]
    rfl
  rw [← bind_assoc, hloop]
  have htrail := forM_perform w (s.loop reset call) t
  unfold Trail.result at htrail
  unfold trail Trail.result
  split at htrail
  · rw [Step.bind_of_ok htrail]
    rfl
  · rw [Step.bind_of_error htrail]

lemma time_follow (w : Workload σ) (s : Schedule) (clock : Clock) (reset : ResetPolicy)
    (form : Form) (t : σ) :
    w.time s clock reset form t =
      (w.trail s reset (.ofForm form) t).result (s.mean clock reset) := by
  cases reset with
  | never =>
    refine rounds_follow ?_ s _ t
    rw [Schedule.round, ← perform_ofForm]
    exact (bind_pure_unit).symm
  | beforeEachCall =>
    refine rounds_follow ?_ s _ t
    rw [Schedule.round, ← perform_ofForm]
    exact congrArg (w.reset >>= ·) (funext fun _ => bind_pure_unit.symm)

/-! ### Tracing -/

def noted (w : Workload σ) (a : Action) : Step ArrayError (σ × List Action) Unit :=
  fun (s, before) =>
    match w.perform a s with
    | .ok v t => .ok v (t, before ++ [a])
    | .error e t => .error e (t, before ++ [a])

/-- The workload that keeps a list of what it performs. -/
def traced (w : Workload σ) : Workload (σ × List Action) where
  buffered := w.noted .buffered
  allocating := w.noted .allocating
  reset := w.noted .reset

lemma perform_traced (w : Workload σ) (a : Action) : w.traced.perform a = w.noted a := by
  cases a <;> rfl

lemma follow_traced (w : Workload σ) (as : List Action) (s : σ) (before : List Action) :
    w.traced.follow as (s, before) =
      let o := w.follow as s
      ⟨o.performed, o.failure, (o.state, before ++ o.performed)⟩ := by
  induction as generalizing s before with
  | nil => simp [follow]
  | cons a as ih =>
    rw [follow, follow, perform_traced, noted]
    cases h : w.perform a s with
    | ok v t => simp [ih]
    | error e t => rfl

lemma trail_traced (w : Workload σ) (s : Schedule) (reset : ResetPolicy) (call : Action) (t : σ)
    (before : List Action) :
    w.traced.trail s reset call (t, before) =
      let o := w.trail s reset call t
      ⟨o.performed, o.failure, (o.state, before ++ o.performed)⟩ :=
  follow_traced w _ t before

end Workload

end ArrayBench
