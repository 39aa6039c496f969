import ArrayBench.Proofs.Bench.Fallback

/-!
What is kept up during a measurement.

A call may use up what it needs, as long as a reset before the next call brings it back. Then every
call of the measurement finds what it needs: in the warmup and in the timed rounds, in the buffered
loop and in the allocating one that follows it, and however many calls have failed. Along the way
the calls are counted, and a measurement that succeeds has made one in each of its rounds.
-/

namespace ArrayBench

variable {σ : Type}

lemma Step.state_of_ending {ε α : Type} {x : Step ε σ α} {s t : σ} {v : Except ε α}
    (h : x s = ending v t) : x.state s = t := by
  rw [state, h]
  cases v <;> rfl

/-- What a call leaves behind. One more call is counted if it has succeeded. -/
def Counted (kept : Nat → σ → Prop) (n : Nat) : EStateM.Result ArrayError σ Unit → Prop
  | .ok _ u => kept (n + 1) u
  | .error _ u => ∃ k, kept k u

lemma Counted.of_state {kept : Nat → σ → Prop} {n : Nat} {x : Step ArrayError σ Unit} {t : σ}
    (h : kept (n + 1) (x.state t)) : Counted kept n (x t) := by
  unfold Step.state at h
  cases hx : x t with
  | ok v u =>
    rw [hx] at h
    exact h
  | error e u =>
    rw [hx] at h
    exact ⟨_, h⟩

namespace Trail

/-- At the end of a trail at least `n` calls are counted, unless it has failed. -/
def Reaches (kept : Nat → σ → Prop) (n : Nat) (o : Trail σ) : Prop :=
  ∃ k, kept k o.state ∧ (o.failure = none → n ≤ k)

lemma failure_of_verdict {o : Trail σ} {v v' : Timing} {t u : σ}
    (h : ending (o.verdict v) t = .ok v' u) : o.failure = none := by
  unfold verdict at h
  cases hfailure : o.failure with
  | none => rfl
  | some e =>
    rw [hfailure] at h
    cases h

end Trail

namespace Workload

/-- From `kept n`, which holds between rounds after `n` calls, the reset of a round leads to
`ready n`, and the call leads back. -/
structure Keeps (w : Workload σ) (reset : ResetPolicy) (kept ready : Nat → σ → Prop) : Prop where
  reset : ∀ n t, kept n t → match reset with
    | .never => ready n t
    | .beforeEachCall => ∃ u, w.reset t = .ok () u ∧ ready n u
  buffered : ∀ n t, ready n t → Counted kept n (w.buffered t)
  allocating : ∀ n t, ready n t → Counted kept n (w.allocating t)

/-- What the calls keep is kept, if there is nothing to reset. -/
lemma keeps_of_calls {w : Workload σ} {kept : Nat → σ → Prop} (hreset : w.reset = pure ())
    (hbuffered : ∀ n t, kept n t → Counted kept n (w.buffered t))
    (hallocating : ∀ n t, kept n t → Counted kept n (w.allocating t)) (reset : ResetPolicy) :
    w.Keeps reset kept kept where
  reset n t ht := by
    cases reset with
    | never => exact ht
    | beforeEachCall => exact ⟨t, by rw [hreset]; rfl, ht⟩
  buffered := hbuffered
  allocating := hallocating

lemma keeps_allocatingOnly {x : Step ArrayError σ Unit} {kept : Nat → σ → Prop}
    (hx : ∀ n t, kept n t → kept (n + 1) (x.state t)) (reset : ResetPolicy) :
    (allocatingOnly x).Keeps reset kept kept := by
  refine keeps_of_calls rfl (fun n t ht => ?_) (fun n t ht => .of_state (hx n t ht)) reset
  exact ⟨n, ht⟩

namespace Keeps

variable {w : Workload σ} {reset : ResetPolicy} {kept ready : Nat → σ → Prop} {n m : Nat} {t : σ}

lemma perform (h : w.Keeps reset kept ready) (form : Form) (ht : ready n t) :
    Counted kept n (w.perform (.ofForm form) t) := by
  cases form with
  | allocating => exact h.allocating n t ht
  | buffered => exact h.buffered n t ht
  | inPlace => exact h.buffered n t ht

lemma follow_call (h : w.Keeps reset kept ready) (form : Form) {rest : List Action}
    (hrest : ∀ u, kept (n + 1) u → (w.follow rest u).Reaches kept m) (ht : ready n t) :
    (w.follow (.ofForm form :: rest) t).Reaches kept m := by
  have hcall := h.perform form ht
  cases hstep : w.perform (.ofForm form) t with
  | ok v u =>
    rw [hstep] at hcall
    rw [follow_cons_ok hstep]
    exact hrest u hcall
  | error e u =>
    rw [hstep] at hcall
    rw [follow_cons_error hstep]
    obtain ⟨k, hk⟩ := hcall
    exact ⟨k, hk, nofun⟩

lemma follow_round (h : w.Keeps reset kept ready) (form : Form) {rest : List Action}
    (hrest : ∀ u, kept (n + 1) u → (w.follow rest u).Reaches kept m) (ht : kept n t) :
    (w.follow (Schedule.round reset (.ofForm form) ++ rest) t).Reaches kept m := by
  have hready := h.reset n t ht
  cases reset with
  | never => exact h.follow_call form hrest hready
  | beforeEachCall =>
    obtain ⟨u, hreset, hu⟩ := hready
    have hfirst : w.perform .reset t = .ok () u := hreset
    rw [Schedule.round, List.cons_append, List.singleton_append, follow_cons_ok hfirst]
    exact h.follow_call form hrest hu

lemma trail (h : w.Keeps reset kept ready) (s : Schedule) (form : Form) (ht : kept n t) :
    (w.trail s reset (.ofForm form) t).Reaches kept (n + (s.warmup + s.iterations)) := by
  unfold Workload.trail Schedule.loop
  induction s.warmup + s.iterations generalizing n t with
  | zero => exact ⟨n, ht, fun _ => Nat.le_refl n⟩
  | succ r ih =>
    rw [List.replicate_succ, List.flatten_cons, ← Nat.succ_add_eq_add_succ]
    exact h.follow_round form (fun u hu => ih hu) ht

lemma measure {dispatch : Dispatch} (h : w.Keeps dispatch.reset kept ready) {note : Note → σ → σ}
    (hnote : ∀ n x u, kept n u → kept n (note x u)) (s : Schedule) (clock : Clock)
    (op : Operation) (d : DType) (ht : kept 0 t) :
    ∃ k, kept k ((w.measure s clock note op d dispatch).state t) ∧
      ∀ v u, w.measure s clock note op d dispatch t = .ok v u → s.warmup + s.iterations ≤ k := by
  obtain ⟨k, hk, hfirst⟩ := h.trail s .buffered ht
  rw [Nat.zero_add] at hfirst
  -- the buffered loop may be over early, but its calls are kept when the allocating one starts
  cases hop : op.buffered with
  | false =>
    obtain ⟨k, hk, honly⟩ := h.trail s .allocating ht
    rw [Nat.zero_add] at honly
    rw [Step.state_of_ending (measure_unbuffered hop), measure_unbuffered hop]
    exact ⟨k, hk, fun v u hv => honly (Trail.failure_of_verdict hv)⟩
  | true =>
    cases hfailure : (w.trail s dispatch.reset .buffered t).failure with
    | none =>
      rw [Step.state, measure_completed hop hfailure]
      exact ⟨k, hk, fun _ _ _ => hfirst hfailure⟩
    | some e =>
      by_cases hr : ∃ r, Rejects e r
      · obtain ⟨r, hr⟩ := hr
        cases hdiffer : dispatch.mayDiffer with
        | false =>
          rw [Step.state, measure_unanticipated hop hfailure hr hdiffer]
          exact ⟨k, hk, nofun⟩
        | true =>
          obtain ⟨k', hk', hsecond⟩ := h.trail s .allocating (hnote k (.rejected op d r) _ hk)
          rw [Step.state_of_ending (measure_fallback hop hfailure hr hdiffer),
            measure_fallback hop hfailure hr hdiffer]
          refine ⟨k', hk', fun v u hv => ?_⟩
          have hcount := hsecond (Trail.failure_of_verdict hv)
          omega
      · rw [Step.state, measure_failed hop hfailure fun r hre => hr ⟨r, hre⟩]
        exact ⟨k, hk, nofun⟩

end Keeps

end Workload

end ArrayBench
