import ArrayBench.Proofs.Bench.Fallback

/-!
Workloads whose calls always come out the same.

The outcome of a call may depend on the state, but for the workloads of the benchmark it only
depends on what no call changes. So a timing loop either runs to the end or fails in its first
round, and the calls that a measurement makes are known beforehand.
-/

namespace ArrayBench

variable {σ τ : Type}

/-- Calls of the given forms, one after the other, where `next` says what a call does to a state. -/
inductive Calls (next : Form → σ → σ → Prop) : List Form → σ → σ → Prop
  | nil (s : σ) : Calls next [] s s
  | cons {f : Form} {fs : List Form} {s t u : σ} (h : next f s t) (h' : Calls next fs t u) :
    Calls next (f :: fs) s u

lemma Calls.append {next : Form → σ → σ → Prop} {fs gs : List Form} {s t u : σ}
    (h : Calls next fs s t) (h' : Calls next gs t u) : Calls next (fs ++ gs) s u := by
  induction h with
  | nil s => exact h'
  | cons hnext _ ih => exact .cons hnext (ih h')

variable (inv : τ → Prop) (view : τ → σ) (next : Form → σ → σ → Prop)

/-- In every state of interest the step comes to `fate`, with the calls in `fs` on the part of the
state in `view`, and leaves a state of interest. -/
def Settled (fs : List Form) (fate : Except ArrayError Unit) (x : Step ArrayError τ Unit) : Prop :=
  ∀ s, inv s → ∃ t, inv t ∧ Calls next fs (view s) (view t) ∧ x s = ending fate t

/-- A workload with settled steps: resets make no call and succeed, a buffered call is one call of
form `form`, and an allocating call is one allocating call. -/
structure Workload.Steady (w : Workload τ) (form : Form)
    (buffered allocating : Except ArrayError Unit) : Prop where
  reset : Settled inv view next [] (.ok ()) w.reset
  buffered : Settled inv view next [form] buffered w.buffered
  allocating : Settled inv view next [.allocating] allocating w.allocating

namespace Workload

variable {inv view next} {w : Workload τ} {f : Form} {e : ArrayError} {t : τ}

section Loops

variable {s : Schedule} {reset : ResetPolicy} {call : Action}

/-! ### Loops -/

variable (reset call) in
lemma follow_round (hreset : Settled inv view next [] (.ok ()) w.reset) (ht : inv t)
    (rest : List Action) :
    ∃ u, inv u ∧ Calls next [] (view t) (view u) ∧
      (w.follow (Schedule.round reset call ++ rest) t).failure =
        (w.follow (call :: rest) u).failure ∧
      (w.follow (Schedule.round reset call ++ rest) t).state =
        (w.follow (call :: rest) u).state := by
  cases reset with
  | never => exact ⟨t, ht, .nil _, rfl, rfl⟩
  | beforeEachCall =>
    obtain ⟨u, hu, hcalls, heq⟩ := hreset t ht
    have hfirst : w.perform .reset t = .ok () u := heq
    refine ⟨u, hu, hcalls, ?_⟩
    rw [Schedule.round, List.cons_append, List.singleton_append, follow_cons_ok hfirst]
    exact ⟨rfl, rfl⟩

lemma follow_round_of_ok (hreset : Settled inv view next [] (.ok ()) w.reset)
    (hcall : Settled inv view next [f] (.ok ()) (w.perform call)) (ht : inv t)
    (rest : List Action) :
    ∃ u, inv u ∧ Calls next [f] (view t) (view u) ∧
      (w.follow (Schedule.round reset call ++ rest) t).failure = (w.follow rest u).failure ∧
      (w.follow (Schedule.round reset call ++ rest) t).state = (w.follow rest u).state := by
  obtain ⟨t', ht', hnone, hfailure, hstate⟩ :=
    follow_round reset call hreset ht rest
  obtain ⟨u, hu, hcalls, heq⟩ := hcall t' ht'
  refine ⟨u, hu, hnone.append hcalls, ?_⟩
  rw [hfailure, hstate, follow_cons_ok heq]
  exact ⟨rfl, rfl⟩

lemma follow_round_of_error (hreset : Settled inv view next [] (.ok ()) w.reset)
    (hcall : Settled inv view next [f] (.error e) (w.perform call)) (ht : inv t)
    (rest : List Action) :
    ∃ u, inv u ∧ Calls next [f] (view t) (view u) ∧
      (w.follow (Schedule.round reset call ++ rest) t).failure = some e ∧
      (w.follow (Schedule.round reset call ++ rest) t).state = u := by
  obtain ⟨t', ht', hnone, hfailure, hstate⟩ :=
    follow_round reset call hreset ht rest
  obtain ⟨u, hu, hcalls, heq⟩ := hcall t' ht'
  refine ⟨u, hu, hnone.append hcalls, ?_⟩
  rw [hfailure, hstate, follow_cons_error heq]
  exact ⟨rfl, rfl⟩

variable (s reset call)

/-- If calls succeed, all the rounds are run. -/
lemma trail_of_ok (hreset : Settled inv view next [] (.ok ()) w.reset)
    (hcall : Settled inv view next [f] (.ok ()) (w.perform call)) (ht : inv t) :
    (w.trail s reset call t).failure = none ∧ inv (w.trail s reset call t).state ∧
      Calls next (List.replicate (s.warmup + s.iterations) f) (view t)
        (view (w.trail s reset call t).state) := by
  unfold trail Schedule.loop
  induction s.warmup + s.iterations generalizing t with
  | zero => exact ⟨rfl, ht, .nil _⟩
  | succ n ih =>
    rw [List.replicate_succ, List.flatten_cons]
    obtain ⟨u, hu, hcalls, hfailure, hstate⟩ := follow_round_of_ok hreset hcall ht
      (List.replicate n (Schedule.round reset call)).flatten
    obtain ⟨hnone, hinv, hrest⟩ := ih hu
    rw [hfailure, hstate]
    exact ⟨hnone, hinv, hcalls.append hrest⟩

lemma trail_of_error (hs : 0 < s.warmup + s.iterations)
    (hreset : Settled inv view next [] (.ok ()) w.reset)
    (hcall : Settled inv view next [f] (.error e) (w.perform call)) (ht : inv t) :
    (w.trail s reset call t).failure = some e ∧ inv (w.trail s reset call t).state ∧
      Calls next [f] (view t) (view (w.trail s reset call t).state) := by
  unfold trail Schedule.loop
  obtain ⟨n, hn⟩ := Nat.exists_eq_succ_of_ne_zero (Nat.ne_of_gt hs)
  rw [hn, List.replicate_succ, List.flatten_cons]
  obtain ⟨u, hu, hcalls, hfailure, hstate⟩ := follow_round_of_error hreset hcall ht
    (List.replicate n (Schedule.round reset call)).flatten
  rw [hstate]
  exact ⟨hfailure, hu, hcalls⟩

end Loops

/-! ### Measurements -/

variable (view next) in
def Succeeds (x : Step BenchError τ Timing) (t : τ) (usedFallback : Bool) (fs : List Form) : Prop :=
  ∃ micros u, x t = .ok ⟨micros, usedFallback⟩ u ∧ Calls next fs (view t) (view u)

def Fails (x : Step BenchError τ Timing) (t : τ) : Prop := ∃ e u, x t = .error e u

variable {s : Schedule} {clock : Clock} {note : Note → τ → τ} {op : Operation} {d : DType}
  {dispatch : Dispatch} {buffered allocating : Except ArrayError Unit}

lemma succeeds_unbuffered (hreset : Settled inv view next [] (.ok ()) w.reset)
    (hcall : Settled inv view next [.allocating] (.ok ()) w.allocating) (ht : inv t)
    (hop : op.buffered = false) :
    Succeeds view next (w.measure s clock note op d dispatch) t false
      (List.replicate (s.warmup + s.iterations) .allocating) := by
  obtain ⟨hnone, -, hcalls⟩ := trail_of_ok s dispatch.reset .allocating hreset hcall ht
  refine ⟨s.mean clock dispatch.reset, _, ?_, hcalls⟩
  rw [measure_unbuffered hop]
  simp only [Trail.verdict, hnone, ending]

lemma fails_unbuffered (hs : 0 < s.warmup + s.iterations)
    (hreset : Settled inv view next [] (.ok ()) w.reset)
    (hcall : Settled inv view next [.allocating] (.error e) w.allocating) (ht : inv t)
    (hop : op.buffered = false) :
    Fails (w.measure s clock note op d dispatch) t := by
  obtain ⟨hsome, -⟩ := trail_of_error s dispatch.reset .allocating hs hreset hcall ht
  rw [Fails, measure_unbuffered hop]
  simp only [Trail.verdict, hsome, ending]
  exact ⟨_, _, rfl⟩

namespace Steady

lemma succeeds_buffered (hw : w.Steady inv view next f (.ok ()) allocating) (ht : inv t)
    (hop : op.buffered = true) :
    Succeeds view next (w.measure s clock note op d dispatch) t false
      (List.replicate (s.warmup + s.iterations) f) := by
  obtain ⟨hnone, -, hcalls⟩ := trail_of_ok s dispatch.reset .buffered hw.reset hw.buffered ht
  exact ⟨_, _, measure_completed hop hnone, hcalls⟩

lemma fails_buffered (hs : 0 < s.warmup + s.iterations)
    (hw : w.Steady inv view next f (.error e) allocating) (ht : inv t)
    (hop : op.buffered = true) (hdiffer : dispatch.mayDiffer = false) :
    Fails (w.measure s clock note op d dispatch) t := by
  obtain ⟨hsome, -⟩ := trail_of_error s dispatch.reset .buffered hs hw.reset hw.buffered ht
  by_cases hr : ∃ r, Rejects e r
  · obtain ⟨r, hr⟩ := hr
    exact ⟨_, _, measure_unanticipated hop hsome hr hdiffer⟩
  · exact ⟨_, _, measure_failed hop hsome fun r h => hr ⟨r, h⟩⟩

variable {r : Rejection} (hnote : ∀ n t, inv t → inv (note n t) ∧ view (note n t) = view t)

include hnote

lemma succeeds_fallback (hs : 0 < s.warmup + s.iterations)
    (hw : w.Steady inv view next f (.error e) (.ok ())) (ht : inv t) (hop : op.buffered = true)
    (hr : Rejects e r) (hdiffer : dispatch.mayDiffer = true) :
    Succeeds view next (w.measure s clock note op d dispatch) t true
      (f :: List.replicate (s.warmup + s.iterations) .allocating) := by
  obtain ⟨hsome, hinv, hfirst⟩ :=
    trail_of_error s dispatch.reset .buffered hs hw.reset hw.buffered ht
  obtain ⟨hinv', hview⟩ := hnote (.rejected op d r) _ hinv
  obtain ⟨hnone, -, hcalls⟩ := trail_of_ok s dispatch.reset .allocating hw.reset hw.allocating hinv'
  rw [hview] at hcalls
  refine ⟨s.mean clock dispatch.reset, _, ?_, hfirst.append hcalls⟩
  rw [measure_fallback hop hsome hr hdiffer]
  simp only [Trail.verdict, hnone, ending]

lemma fails_fallback {e' : ArrayError} (hs : 0 < s.warmup + s.iterations)
    (hw : w.Steady inv view next f (.error e) (.error e')) (ht : inv t) (hop : op.buffered = true)
    (hr : Rejects e r) (hdiffer : dispatch.mayDiffer = true) :
    Fails (w.measure s clock note op d dispatch) t := by
  obtain ⟨hsome, hinv, -⟩ := trail_of_error s dispatch.reset .buffered hs hw.reset hw.buffered ht
  obtain ⟨hinv', -⟩ := hnote (.rejected op d r) _ hinv
  obtain ⟨hsome', -⟩ := trail_of_error s dispatch.reset .allocating hs hw.reset hw.allocating hinv'
  rw [Fails, measure_fallback hop hsome hr hdiffer]
  simp only [Trail.verdict, hsome', ending]
  exact ⟨_, _, rfl⟩

end Steady

end Workload

end ArrayBench
