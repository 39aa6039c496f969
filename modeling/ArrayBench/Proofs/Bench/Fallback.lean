import ArrayBench.Proofs.Bench.Rounds
import ArrayBench.Proofs.Cpu.Refusals

/-!
When the allocating form is timed instead of the buffered one.

The buffered loop decides. If it runs to the end its time is the result, and if it fails for
anything but the element type of the buffer that failure is. A buffer refused for its element type
is a failure of its own, unless the catalog has announced it. Only then is the allocating loop run,
all of it, on the state that the buffered one has left behind. An operation without a buffered form
has its allocating loop timed at once.
-/

namespace ArrayBench

def Trail.verdict {σ : Type} (o : Trail σ) (v : Timing) : Except BenchError Timing :=
  match o.failure with
  | none => .ok v
  | some e => .error (.array e)

namespace Workload

variable {σ : Type} (w : Workload σ) (s : Schedule) (clock : Clock) (note : Note → σ → σ)
  (op : Operation) (d : DType) (dispatch : Dispatch)

/-! ### The ways through a measurement -/

lemma time_verdict (reset : ResetPolicy) (form : Form) (usedFallback : Bool) (t : σ) :
    (do
      let micros ← (w.time s clock reset form).mapError .array
      return ⟨micros, usedFallback⟩ : Step BenchError σ Timing) t =
      let o := w.trail s reset (.ofForm form) t
      ending (o.verdict ⟨s.mean clock reset, usedFallback⟩) o.state := by
  have htime := time_follow w s clock reset form t
  simp only [bind, EStateM.bind, Step.mapError, htime, Trail.result, Trail.verdict]
  cases (w.trail s reset (.ofForm form) t).failure <;> rfl

variable {w s clock note op d dispatch} {t : σ}

lemma attempt_completed {reset : ResetPolicy}
    (h : (w.trail s reset .buffered t).failure = none) :
    w.attempt s clock reset t =
      .ok (.completed (s.mean clock reset)) (w.trail s reset .buffered t).state := by
  have htime := time_follow w s clock reset .buffered t
  simp only [Action.ofForm, Trail.result, h] at htime
  simp only [attempt, bind, EStateM.bind, Step.attempt, htime]
  rfl

lemma attempt_rejected {reset : ResetPolicy} {e : ArrayError} {r : Rejection}
    (h : (w.trail s reset .buffered t).failure = some e) (hr : Rejects e r) :
    w.attempt s clock reset t =
      .ok (.rejected r) (w.trail s reset .buffered t).state := by
  have htime := time_follow w s clock reset .buffered t
  simp only [Action.ofForm, Trail.result, h] at htime
  simp only [attempt, bind, EStateM.bind, Step.attempt, htime, Rejection.of?_eq_some.mpr hr]
  rfl

lemma attempt_failed {reset : ResetPolicy} {e : ArrayError}
    (h : (w.trail s reset .buffered t).failure = some e) (hr : ∀ r, ¬ Rejects e r) :
    w.attempt s clock reset t =
      .error (.array e) (w.trail s reset .buffered t).state := by
  have htime := time_follow w s clock reset .buffered t
  simp only [Action.ofForm, Trail.result, h] at htime
  simp only [attempt, bind, EStateM.bind, Step.attempt, htime, Rejection.of?_eq_none hr]
  rfl

lemma measure_unbuffered (hop : op.buffered = false) :
    w.measure s clock note op d dispatch t =
      let o := w.trail s dispatch.reset .allocating t
      ending (o.verdict ⟨s.mean clock dispatch.reset, false⟩) o.state := by
  have hverdict := time_verdict w s clock dispatch.reset .allocating false t
  rw [measure, hop]
  exact hverdict

lemma measure_buffered (hop : op.buffered = true) :
    w.measure s clock note op d dispatch = (w.attempt s clock dispatch.reset >>= fun
      | .completed micros => return ⟨micros, false⟩
      | .rejected reason =>
        if dispatch.mayDiffer then do
          modify (note (.rejected op d reason))
          let micros ← (w.time s clock dispatch.reset .allocating).mapError .array
          return ⟨micros, true⟩
        else throw (.unanticipatedRejection op.name d reason)) := by
  rw [measure, hop]
  rfl

lemma measure_completed (hop : op.buffered = true)
    (h : (w.trail s dispatch.reset .buffered t).failure = none) :
    w.measure s clock note op d dispatch t =
      .ok ⟨s.mean clock dispatch.reset, false⟩
        (w.trail s dispatch.reset .buffered t).state := by
  rw [measure_buffered hop, Step.bind_of_ok (attempt_completed h)]
  rfl

lemma measure_failed {e : ArrayError} (hop : op.buffered = true)
    (h : (w.trail s dispatch.reset .buffered t).failure = some e)
    (hr : ∀ r, ¬ Rejects e r) :
    w.measure s clock note op d dispatch t =
      .error (.array e) (w.trail s dispatch.reset .buffered t).state := by
  rw [measure_buffered hop, Step.bind_of_error (attempt_failed h hr)]

lemma measure_unanticipated {e : ArrayError} {r : Rejection} (hop : op.buffered = true)
    (h : (w.trail s dispatch.reset .buffered t).failure = some e) (hr : Rejects e r)
    (hdiffer : dispatch.mayDiffer = false) :
    w.measure s clock note op d dispatch t =
      .error (.unanticipatedRejection op.name d r)
        (w.trail s dispatch.reset .buffered t).state := by
  rw [measure_buffered hop, Step.bind_of_ok (attempt_rejected h hr), hdiffer]
  rfl

lemma measure_fallback {e : ArrayError} {r : Rejection} (hop : op.buffered = true)
    (h : (w.trail s dispatch.reset .buffered t).failure = some e) (hr : Rejects e r)
    (hdiffer : dispatch.mayDiffer = true) :
    w.measure s clock note op d dispatch t =
      let u := note (.rejected op d r) (w.trail s dispatch.reset .buffered t).state
      let o := w.trail s dispatch.reset .allocating u
      ending (o.verdict ⟨s.mean clock dispatch.reset, true⟩) o.state := by
  have hverdict := time_verdict w s clock dispatch.reset .allocating true
    (note (.rejected op d r) (w.trail s dispatch.reset .buffered t).state)
  rw [measure_buffered hop, Step.bind_of_ok (attempt_rejected h hr), hdiffer]
  exact hverdict

/-! ### The policy -/

variable (w s clock note op d dispatch t)

/-- The measurement comes to `v` in the state `u`, and the actions in `done` are performed, in this
order and no others. -/
structure Measures (v : Except BenchError Timing) (u : σ) (performed : List Action) : Prop where
  result : w.measure s clock note op d dispatch t = ending v u
  actions : w.traced.measure s clock (fun n x => (note n x.1, x.2)) op d dispatch (t, []) =
    ending v (u, performed)

/-- How a measurement goes, given how its loops would go. -/
structure FollowsPolicy : Prop where
  /-- Without a buffered form the allocating loop is the only one. -/
  unbuffered : op.buffered = false →
    let only := w.trail s dispatch.reset .allocating t
    w.Measures s clock note op d dispatch t (only.verdict ⟨s.mean clock dispatch.reset, false⟩)
      only.state only.performed
  completed : op.buffered = true →
    let first := w.trail s dispatch.reset .buffered t
    first.failure = none →
    w.Measures s clock note op d dispatch t (.ok ⟨s.mean clock dispatch.reset, false⟩)
      first.state first.performed
  failed : op.buffered = true →
    let first := w.trail s dispatch.reset .buffered t
    ∀ e, first.failure = some e → (∀ r, ¬ Rejects e r) →
    w.Measures s clock note op d dispatch t (.error (.array e)) first.state first.performed
  unanticipated : op.buffered = true →
    let first := w.trail s dispatch.reset .buffered t
    ∀ e r, first.failure = some e → Rejects e r → dispatch.mayDiffer = false →
    w.Measures s clock note op d dispatch t (.error (.unanticipatedRejection op.name d r))
      first.state first.performed
  /-- No action of the buffered loop is an allocating call. -/
  buffered : .allocating ∉ (w.trail s dispatch.reset .buffered t).performed
  /-- The allocating loop is run from its first round, after all that the buffered one has done. -/
  fallback : op.buffered = true →
    let first := w.trail s dispatch.reset .buffered t
    ∀ e r, first.failure = some e → Rejects e r → dispatch.mayDiffer = true →
    let second := w.trail s dispatch.reset .allocating (note (.rejected op d r) first.state)
    w.Measures s clock note op d dispatch t (second.verdict ⟨s.mean clock dispatch.reset, true⟩)
      second.state (first.performed ++ second.performed)

lemma failure_traced (reset : ResetPolicy) (call : Action) :
    (w.traced.trail s reset call (t, [])).failure = (w.trail s reset call t).failure := by
  rw [trail_traced]

/-- **Fallback policy**: whatever the steps of a workload do and wherever they fail, a measurement
performs the actions of the policy up to the failure, and gives the result of the policy. -/
theorem measure_follows_policy : w.FollowsPolicy s clock note op d dispatch t where
  unbuffered hop := by
    refine ⟨measure_unbuffered hop, ?_⟩
    rw [measure_unbuffered hop, trail_traced]
    rfl
  completed hop h := by
    have htraced := (failure_traced w s t dispatch.reset .buffered).trans h
    refine ⟨measure_completed hop h, ?_⟩
    rw [measure_completed hop htraced, trail_traced]
    rfl
  failed hop e h hr := by
    have htraced := (failure_traced w s t dispatch.reset .buffered).trans h
    refine ⟨measure_failed hop h hr, ?_⟩
    rw [measure_failed hop htraced hr, trail_traced]
    rfl
  unanticipated hop e r h hr hdiffer := by
    have htraced := (failure_traced w s t dispatch.reset .buffered).trans h
    refine ⟨measure_unanticipated hop h hr hdiffer, ?_⟩
    rw [measure_unanticipated hop htraced hr hdiffer, trail_traced]
    rfl
  buffered hmem := by
    rcases eq_of_mem_performed hmem with h | h <;> cases h
  fallback hop e r h hr hdiffer := by
    have htraced := (failure_traced w s t dispatch.reset .buffered).trans h
    refine ⟨measure_fallback hop h hr hdiffer, ?_⟩
    rw [measure_fallback hop htraced hr hdiffer, trail_traced]
    simp only []
    rw [trail_traced]
    rfl

end Workload

end ArrayBench
