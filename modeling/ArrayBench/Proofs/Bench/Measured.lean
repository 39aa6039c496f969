import Mathlib.Data.List.Forall2
import ArrayBench.Bench.Section
import ArrayBench.Proofs.Bench.Rounds

/-!
What measurements are made of.

Whatever the backend does on the way, a case that is measured comes back with its own operation,
type, geometry and schedule, and with the mean of the stretches that the clock gives for it. The
rest of a measurement is derived from these.
-/

namespace ArrayBench

lemma exists_of_mem_forall₂ {α β : Type} {R : α → β → Prop} {as : List α} {bs : List β}
    (h : List.Forall₂ R as bs) {b : β} (hb : b ∈ bs) : ∃ a ∈ as, R a b := by
  induction h with
  | nil => cases hb
  | cons hR _ ih =>
    rcases List.mem_cons.mp hb with rfl | hb
    · exact ⟨_, List.mem_cons_self, hR⟩
    · obtain ⟨a, ha, hRa⟩ := ih hb
      exact ⟨a, List.mem_cons_of_mem _ ha, hRa⟩

/-! ### Values that steps return -/

namespace Step

variable {ε δ σ τ : Type} {α β : Type} {P : α → Prop} {Q : β → Prop}

/-- If the step succeeds, `P` holds of its value. -/
def Returns (x : Step ε σ α) (P : α → Prop) : Prop := ∀ s v t, x s = .ok v t → P v

lemma returns_pure {v : α} (h : P v) : (pure v : Step ε σ α).Returns P := by
  rintro s w t hw
  cases hw
  exact h

lemma returns_throw (e : ε) (P : α → Prop) : (throw e : Step ε σ α).Returns P := nofun

lemma Returns.bind {x : Step ε σ α} {f : α → Step ε σ β} (hx : x.Returns P)
    (hf : ∀ v, P v → (f v).Returns Q) : (x >>= f).Returns Q := by
  intro s w u hw
  cases hxs : x s with
  | ok v t =>
    rw [bind_of_ok hxs] at hw
    exact hf v (hx s v t hxs) t w u hw
  | error e t =>
    rw [bind_of_error hxs] at hw
    cases hw

lemma returns_bind {x : Step ε σ α} {f : α → Step ε σ β} (hf : ∀ v, (f v).Returns Q) :
    (x >>= f).Returns Q := by
  have hx : x.Returns fun _ => True := fun _ _ _ _ => trivial
  exact hx.bind fun v _ => hf v

lemma returns_lift {x : Except ε α} (h : ∀ v, x = .ok v → P v) :
    (liftM x : Step ε σ α).Returns P := by
  intro s v t hv
  cases x with
  | ok w =>
    cases hv
    exact h v rfl
  | error e => cases hv

lemma Returns.mapError {x : Step ε σ α} (h : x.Returns P) (f : ε → δ) :
    (x.mapError f).Returns P := by
  intro s v t hv
  unfold Step.mapError at hv
  cases hx : x s with
  | ok w u =>
    rw [hx] at hv
    cases hv
    exact h s v t hx
  | error e u =>
    rw [hx] at hv
    cases hv

lemma Returns.attempt {x : Step ε σ α} (h : x.Returns P) :
    (x.attempt : Step δ σ (Except ε α)).Returns fun r => ∀ v, r = .ok v → P v := by
  intro s r t hr v hv
  subst hv
  unfold Step.attempt at hr
  cases hx : x s with
  | ok w u =>
    rw [hx] at hr
    cases hr
    exact h s v t hx
  | error e u =>
    rw [hx] at hr
    cases hr

lemma Returns.zoom {x : Step ε σ α} (h : x.Returns P) (part : τ → σ × (σ → τ)) :
    (x.zoom part).Returns P := by
  intro s v t hv
  unfold Step.zoom at hv
  cases hx : x (part s).1 with
  | ok w u =>
    simp only [hx] at hv
    cases hv
    exact h _ v u hx
  | error e u =>
    simp only [hx] at hv
    cases hv

/-- The values that a loop collects are related to its items one by one. -/
lemma returns_mapM {ι : Type} {is : List ι} {f : ι → Step ε σ α} {R : ι → α → Prop}
    (h : ∀ i ∈ is, (f i).Returns (R i)) : (is.mapM f).Returns (List.Forall₂ R is) := by
  induction is with
  | nil => exact returns_pure .nil
  | cons i is ih =>
    rw [List.mapM_cons]
    refine (h i (by simp)).bind fun v hv => ?_
    refine (ih fun j hj => h j (by simp [hj])).bind fun vs hvs => ?_
    exact returns_pure (.cons hv hvs)

lemma returns_mapM_forall {ι : Type} {is : List ι} {f : ι → Step ε σ α}
    (h : ∀ i ∈ is, (f i).Returns P) : (is.mapM f).Returns fun vs => ∀ v ∈ vs, P v := by
  intro s vs t hvs v hv
  obtain ⟨i, -, hP⟩ := exists_of_mem_forall₂ (returns_mapM h s vs t hvs) hv
  exact hP

end Step

open Step (Returns returns_pure returns_throw returns_bind returns_lift)

/-! ### Times -/

namespace Workload

variable {σ : Type} (w : Workload σ) (s : Schedule) (clock : Clock) (reset : ResetPolicy)

lemma time_returns (form : Form) :
    (w.time s clock reset form).Returns (· = s.mean clock reset) := by
  cases reset with
  | never => exact returns_bind fun _ => returns_bind fun _ => returns_pure rfl
  | beforeEachCall => exact returns_bind fun _ => returns_bind fun _ => returns_pure rfl

lemma attempt_returns : (w.attempt s clock reset).Returns fun r =>
    ∀ micros, r = .completed micros → micros = s.mean clock reset := by
  refine (w.time_returns s clock reset .buffered).attempt.bind fun r hr => ?_
  cases r with
  | ok micros =>
    refine returns_pure fun micros' h => ?_
    cases h
    exact hr micros rfl
  | error e =>
    dsimp only
    split
    · exact returns_pure nofun
    · exact returns_throw _ _

lemma measure_returns (note : Note → σ → σ) (op : Operation) (d : DType) (dispatch : Dispatch) :
    (w.measure s clock note op d dispatch).Returns (·.micros = s.mean clock dispatch.reset) := by
  have htime := fun form => (w.time_returns s clock dispatch.reset form).mapError BenchError.array
  unfold Workload.measure
  split
  · exact (htime .allocating).bind fun micros h => returns_pure h
  · refine (w.attempt_returns s clock dispatch.reset).bind fun r hr => ?_
    cases r with
    | completed micros => exact returns_pure (hr micros rfl)
    | rejected reason =>
      dsimp only
      split
      · exact returns_bind fun _ => (htime .allocating).bind fun micros h => returns_pure h
      · exact returns_throw _ _

end Workload

/-! ### Cases -/

def Harness.Measures {σ : Type} (h : Harness σ) (c : Case) (m : Measurement) : Prop :=
  ∃ dispatch timed fallback, c.op.dispatch c.dtype = .ok dispatch ∧
    m = .make c (c.schedule.mean (h.clock timed) dispatch.reset) fallback

variable {σ : Type} (h : Harness σ)

lemma Harness.Measures.case {c : Case} {m : Measurement} (hm : h.Measures c m) : m.case = c := by
  obtain ⟨dispatch, timed, fallback, -, rfl⟩ := hm
  rfl

lemma Harness.run_returns (c : Case) : (h.run c).Returns (h.Measures c) := by
  refine (returns_lift fun dispatch hd => hd).bind fun dispatch hd => ?_
  refine returns_bind fun _ => returns_bind fun prepared => returns_bind fun session => ?_
  have hmeasure := (prepared.workload h.backend).measure_returns c.schedule
    (h.clock session.timed) (fun n t => (t.1.note n, t.2)) c.op c.dtype dispatch
  refine (hmeasure.zoom _).bind fun timing htiming => returns_bind fun _ => returns_pure ?_
  exact ⟨dispatch, session.timed, timing.usedFallback, hd, by rw [htiming]⟩

lemma Case.make_eq_ok {op : Operation} {d : DType} {g : Geometry} {s : Schedule} {c : Case}
    (hc : Case.make op d g s = .ok c) : c = ⟨op, d, g, s⟩ := by
  obtain ⟨_, -, hc⟩ := exceptBind_eq_ok.mp hc
  split_ifs at hc
  · cases hc
  · exact (Except.ok.inj hc).symm

lemma Panel.measure_returns (op : Operation) (d : DType) (g : Geometry) (s : Schedule) :
    (Panel.measure h op d g s).Returns (h.Measures ⟨op, d, g, s⟩) := by
  refine (returns_lift fun c hc => Case.make_eq_ok hc).bind fun c hc => ?_
  subst hc
  exact h.run_returns _

lemma Panel.case_returns {op : Operation} {d : DType} {g : Geometry} {s : Schedule}
    {P : Case → Prop} (hP : P ⟨op, d, g, s⟩) :
    (Panel.measure h op d g s).Returns fun m => P m.case := by
  intro session m session' hm
  rwa [(Panel.measure_returns h op d g s session m session' hm).case]

end ArrayBench
