import ArrayBench.Proofs.Bench.NoDrift

/-!
What a run asks of a backend.

A run on a recorder goes as it would on the backend inside, whatever that backend does and wherever
it fails, and the calls that are noted down are those of the case: the kernel and the operands that
the case is prepared with, in the form that the catalog gives it or in the allocating one. The two
runs are followed side by side, one call after the other.
-/

namespace ArrayBench

/-! ### Steps side by side -/

section Matched

variable {ε σ τ : Type} {α : Type} {R : σ → τ → Prop}

/-- The two steps come to the same, in related states. -/
def Step.MatchedAt (R : σ → τ → Prop) (x : Step ε σ α) (y : Step ε τ α) (s : σ) (t : τ) : Prop :=
  ∃ v s' t', R s' t' ∧ x s = ending v s' ∧ y t = ending v t'

lemma Trail.verdict_congr {o : Trail σ} {o' : Trail τ} (h : o.failure = o'.failure) (v : Timing) :
    o.verdict v = o'.verdict v := by
  rw [verdict, h, verdict]

namespace Workload

/-- From related states, whatever one of the workloads is asked to do goes as with the other. -/
def Matched (R : σ → τ → Prop) (w : Workload σ) (w' : Workload τ) : Prop :=
  ∀ a s t, R s t → Step.MatchedAt R (w.perform a) (w'.perform a) s t

variable {w : Workload σ} {w' : Workload τ}

lemma Matched.follow (h : Matched R w w') (as : List Action) {s : σ} {t : τ} (hst : R s t) :
    (w.follow as s).failure = (w'.follow as t).failure ∧
      R (w.follow as s).state (w'.follow as t).state := by
  induction as generalizing s t with
  | nil => exact ⟨rfl, hst⟩
  | cons a as ih =>
    obtain ⟨v, s', t', hst', hx, hy⟩ := h a s t hst
    cases v with
    | ok v =>
      rw [follow_cons_ok hx, follow_cons_ok hy]
      exact ih hst'
    | error e =>
      rw [follow_cons_error hx, follow_cons_error hy]
      exact ⟨rfl, hst'⟩

/-- Whole measurements go alike too: which way they take only depends on the first failure. -/
lemma Matched.measure (h : Matched R w w') {note : Note → σ → σ} {note' : Note → τ → τ}
    (hnote : ∀ n s t, R s t → R (note n s) (note' n t)) (s : Schedule) (clock : Clock)
    (op : Operation) (d : DType) (dispatch : Dispatch) {x : σ} {y : τ} (hxy : R x y) :
    Step.MatchedAt R (w.measure s clock note op d dispatch)
      (w'.measure s clock note' op d dispatch) x y := by
  cases hop : op.buffered with
  | false =>
    obtain ⟨hfailure, hstate⟩ := h.follow (s.loop dispatch.reset .allocating) hxy
    refine ⟨_, _, _, hstate, measure_unbuffered hop, ?_⟩
    rw [measure_unbuffered hop]
    exact congrArg (ending · _) (Trail.verdict_congr hfailure _).symm
  | true =>
    obtain ⟨hfailure, hstate⟩ := h.follow (s.loop dispatch.reset .buffered) hxy
    cases hfirst : (w.trail s dispatch.reset .buffered x).failure with
    | none =>
      exact ⟨.ok _, _, _, hstate, measure_completed hop hfirst,
        measure_completed hop (hfailure.symm.trans hfirst)⟩
    | some e =>
      have hfirst' := hfailure.symm.trans hfirst
      -- the failure is the same on both sides, and with it all that is decided by it
      by_cases hr : ∃ r, Rejects e r
      · obtain ⟨r, hr⟩ := hr
        cases hdiffer : dispatch.mayDiffer with
        | false =>
          exact ⟨.error _, _, _, hstate, measure_unanticipated hop hfirst hr hdiffer,
            measure_unanticipated hop hfirst' hr hdiffer⟩
        | true =>
          have hnoted := hnote (.rejected op d r) _ _ hstate
          obtain ⟨hsecond, hend⟩ := h.follow (s.loop dispatch.reset .allocating) hnoted
          refine ⟨_, _, _, hend, measure_fallback hop hfirst hr hdiffer, ?_⟩
          rw [measure_fallback hop hfirst' hr hdiffer]
          exact congrArg (ending · _) (Trail.verdict_congr hsecond _).symm
      · have hr' := fun r hre => hr ⟨r, hre⟩
        exact ⟨.error _, _, _, hstate, measure_failed hop hfirst hr',
          measure_failed hop hfirst' hr'⟩

end Workload

end Matched

/-! ### Recorders -/

section Recorder

variable {σ : Type} {α : Type}

/-- The session with a recorder around the backend. It has noted down `es`, and no fault waits. -/
def Session.recorded (s : Session σ) (es : List Event) : Session (σ × Record) :=
  { backend := (s.backend, ⟨es.toArray, []⟩), timed := s.timed, log := s.log }

def Harness.recorded (h : Harness σ) : Harness (σ × Record) :=
  { backend := h.backend.recording, clock := h.clock, limit := h.limit }

lemma Record.push_events (es : List Event) (e : Event) :
    push ⟨es.toArray, []⟩ e = ⟨(es ++ [e]).toArray, []⟩ := by
  rw [push, List.push_toArray]

end Recorder

/-! ### Prepared calls -/

namespace Prepared

def kernel : Prepared → Kernel
  | call c _ => c.kernel
  | change ch _ _ => ch.kernel
  | sum _ => .sum
  | sumAxis k _ => .sumAxis k

def form : Prepared → Form
  | call _ _ => .buffered
  | change _ _ _ => .inPlace
  | sum _ => .allocating
  | sumAxis _ _ => .allocating

/-- The operands of a call. The target of a change is as the calls before have left it. -/
def Takes : Prepared → List Value → Prop
  | call c _, vs => vs = c.args
  | change ch _ _, vs => ∃ a : NdArray, vs = .array a :: ch.args
  | sum a, vs => vs = [.array a]
  | sumAxis _ a, vs => vs = [.array a]

/-- One of the calls that the steps of a prepared call make. -/
structure Asks (p : Prepared) (e : Event) : Prop where
  kernel : e.kernel = p.kernel
  form : e.form = p.form ∨ e.form = .allocating
  operands : p.Takes e.operands

/-- The run on the recorder beside the one on the backend inside. Since `base` it has noted down
calls of `p` only. -/
def Beside {σ : Type} (p : Prepared) (base : List Event) (s : Session (σ × Record) × NdArray)
    (t : Session σ × NdArray) : Prop :=
  ∃ es, (∀ e ∈ es, p.Asks e) ∧ s = (t.1.recorded (base ++ es), t.2)

section Steps

variable {σ : Type} {p : Prepared} {base : List Event} {s : Session (σ × Record) × NdArray}
  {t : Session σ × NdArray}

/-- One more call of `p`. The backend and the array may have changed in it. -/
lemma beside_push {es : List Event} {e : Event} (hes : ∀ e ∈ es, p.Asks e) (he : p.Asks e)
    (t : Session σ × NdArray) :
    p.Beside base (t.1.recorded (base ++ es ++ [e]), t.2) t := by
  refine ⟨es ++ [e], fun e' he' => ?_, by rw [List.append_assoc]⟩
  rcases List.mem_append.mp he' with he' | he'
  · exact hes e' he'
  · rwa [List.mem_singleton.mp he']

lemma beside_note (n : Note) (s : Session (σ × Record) × NdArray) (t : Session σ × NdArray)
    (h : p.Beside base s t) :
    p.Beside base (Harness.noteBeside n s) (Harness.noteBeside n t) := by
  obtain ⟨es, hes, rfl⟩ := h
  exact ⟨es, hes, rfl⟩

lemma matched_compute {α : Type} {k : Kernel} {d : DType} {args : List Value}
    {result : α → σ → Value} (x : Step ArrayError σ α) (h : p.Beside base s t)
    (hasks : ∀ e : Event, e.kernel = k → e.form = .allocating → e.args = args → p.Asks e) :
    Step.MatchedAt (p.Beside base) (onBackend (Backend.observe k .allocating d args result x))
      (onBackend x) s t := by
  obtain ⟨es, hes, rfl⟩ := h
  obtain ⟨v, u, hx⟩ := x.exists_ending t.1.backend
  obtain ⟨e, hk, hform, hargs, heq⟩ :=
    Backend.observe_push k .allocating d args result (r := ⟨_, []⟩) rfl hx
  rw [Record.push_events] at heq
  exact ⟨_, _, ({ t.1 with backend := u }, t.2), beside_push hes (hasks e hk hform hargs) _,
    onBackend_ending heq t.2, onBackend_ending hx t.2⟩

lemma matched_write {k : Kernel} {form : Form} {d : NdArray → DType} {args : List Value}
    (x : Step ArrayError (σ × NdArray) Unit) (h : p.Beside base s t)
    (hasks : ∀ e : Event, e.kernel = k → e.form = form → e.args = args ++ [.array t.2] →
      p.Asks e) :
    Step.MatchedAt (p.Beside base) (onBoth (Backend.observeWrite k form d args x)) (onBoth x)
      s t := by
  obtain ⟨es, hes, rfl⟩ := h
  obtain ⟨v, ⟨u, b⟩, hx⟩ := x.exists_ending (t.1.backend, t.2)
  obtain ⟨e, hk, hform, hargs, heq⟩ :=
    Backend.observeWrite_push k form d args (r := ⟨_, []⟩) rfl hx
  rw [Record.push_events] at heq
  exact ⟨_, _, ({ t.1 with backend := u }, b), beside_push hes (hasks e hk hform hargs) _,
    onBoth_ending heq, onBoth_ending hx⟩

lemma matched_array (u : Update) (h : p.Beside base s t) :
    Step.MatchedAt (p.Beside base) u.onSnd u.onSnd s t := by
  obtain ⟨es, hes, rfl⟩ := h
  obtain ⟨v, b, hu⟩ := u.exists_ending t.2
  refine ⟨v, _, (t.1, b), ⟨es, hes, rfl⟩, ?_, ?_⟩
  · rw [Backend.onSnd_apply, hu]
    cases v <;> rfl
  · rw [Backend.onSnd_apply, hu]
    cases v <;> rfl

lemma kernel_call (ch : Change) (a : NdArray) : (ch.call a).kernel = ch.kernel := by
  cases ch <;> rfl

/-- Every step of a prepared call goes as with the backend inside, and asks for that call only. -/
lemma matched_workload (b : Backend σ) (p : Prepared) (base : List Event) :
    Workload.Matched (p.Beside base) (p.workload b.recording) (p.workload b) := by
  intro action s t h
  cases p with
  | call c out =>
    cases action with
    | reset => exact ⟨.ok (), s, t, h, rfl, rfl⟩
    | buffered =>
      refine matched_write (d := fun _ => Backend.leadType c) (b.computeInto c) h
        fun e hk hform hargs => ⟨hk, Or.inl hform, ?_⟩
      rw [Event.operands, hform, hargs]
      exact List.dropLast_concat
    | allocating =>
      refine matched_compute (b.compute c) h fun e hk hform hargs => ⟨hk, Or.inr hform, ?_⟩
      rw [Event.operands, hform]
      exact hargs
  | change ch target fill =>
    cases action with
    | reset => exact matched_array (NdArray.fill fill) h
    | buffered =>
      refine matched_write (b.change ch) h fun e hk hform hargs => ⟨hk, Or.inl hform, t.2, ?_⟩
      rw [Event.operands, hform, hargs]
      simp
    | allocating =>
      -- the call is made on the target as it is by now, which both runs agree on
      have hcall : Step.MatchedAt ((change ch target fill).Beside base)
          (onBackend (b.recording.compute (ch.call t.2))) (onBackend (b.compute (ch.call t.2)))
          s t := by
        refine matched_compute _ h fun e hk hform hargs => ⟨?_, Or.inr hform, t.2, ?_⟩
        · exact hk.trans (kernel_call ch t.2)
        · rw [Event.operands, hform]
          exact hargs.trans (args_call ch t.2)
      obtain ⟨es, hes, rfl⟩ := h
      exact hcall
  | sum a =>
    cases action with
    | reset => exact ⟨.ok (), s, t, h, rfl, rfl⟩
    | buffered => exact ⟨.error .noBufferedForm, s, t, h, rfl, rfl⟩
    | allocating =>
      refine matched_compute (b.sum a) h fun e hk hform hargs => ⟨hk, Or.inl hform, ?_⟩
      rw [Event.operands, hform]
      exact hargs
  | sumAxis k a =>
    cases action with
    | reset => exact ⟨.ok (), s, t, h, rfl, rfl⟩
    | buffered => exact ⟨.error .noBufferedForm, s, t, h, rfl, rfl⟩
    | allocating =>
      refine matched_compute (b.sumAxis a k) h fun e hk hform hargs => ⟨hk, Or.inl hform, ?_⟩
      rw [Event.operands, hform]
      exact hargs

end Steps

end Prepared

/-! ### Cases -/

/-- One of the calls that a case comes down to. The target of an in-place call is as the calls
before have left it, the other operands are as they are allocated. -/
structure Case.Asks (c : Case) (e : Event) : Prop where
  kernel : e.kernel = c.op.kernelFor c.dtype
  form : e.form = c.op.form ∨ e.form = .allocating
  operands : ∃ a : NdArray, e.operands = .array a :: c.operands.tail
  allocated : c.op.inPlace = false → e.operands = c.operands

namespace Case

lemma inPlace_of_matmul {op : Operation} (hop : op ∈ Operation.catalog) {d : DType}
    (hk : op.kernelFor d = .matmul) : op.inPlace = false := by
  have hkernel : op.kernel = .matmul := by
    unfold Operation.kernelFor at hk
    split_ifs at hk
    exact hk
  rcases Operation.catalog_cases hop with ⟨b, rfl⟩ | ⟨b, inPlace, rfl⟩ | ⟨u, inPlace, rfl⟩ |
    ⟨inPlace, rfl⟩ | rfl | ⟨k, rfl⟩ | rfl
  · rfl
  · cases hkernel
  · cases hkernel
  · cases hkernel
  · rfl
  · rfl
  · rfl

lemma kernel_form_of_build {c : Case} {p : Prepared} (hop : c.op ∈ Operation.catalog)
    (hp : Prepared.build c (c.op.resolve c.dtype) = .ok p) :
    p.kernel = c.op.kernelFor c.dtype ∧ (p.form = c.op.form ∨ p.form = .allocating) := by
  have hkernel := ofKernel_of_build hp
  unfold Prepared.ofKernel at hkernel
  unfold Operation.form
  -- sums are only made anew, and the catalog has no matrix product in place
  split at hkernel
  · rename_i hk _
    split_ifs at hkernel with hinPlace <;> obtain rfl := Option.some.inj hkernel
    · exact ⟨hk.symm, Or.inl (if_pos hinPlace).symm⟩
    · exact ⟨hk.symm, Or.inl (if_neg hinPlace).symm⟩
  · rename_i hk _
    split_ifs at hkernel with hinPlace <;> obtain rfl := Option.some.inj hkernel
    · exact ⟨hk.symm, Or.inl (if_pos hinPlace).symm⟩
    · exact ⟨hk.symm, Or.inl (if_neg hinPlace).symm⟩
  · rename_i hk _
    split_ifs at hkernel with hinPlace <;> obtain rfl := Option.some.inj hkernel
    · exact ⟨hk.symm, Or.inl (if_pos hinPlace).symm⟩
    · exact ⟨hk.symm, Or.inl (if_neg hinPlace).symm⟩
  · rename_i hk _
    obtain rfl := Option.some.inj hkernel
    exact ⟨hk.symm, Or.inr rfl⟩
  · rename_i hk _
    obtain rfl := Option.some.inj hkernel
    exact ⟨hk.symm, Or.inr rfl⟩
  · rename_i hk _
    obtain rfl := Option.some.inj hkernel
    exact ⟨hk.symm, Or.inl (by rw [inPlace_of_matmul hop hk]; rfl)⟩
  · cases hkernel

lemma asks_of_prepared {c : Case} {p : Prepared} (hop : c.op ∈ Operation.catalog)
    (hp : Prepared.build c (c.op.resolve c.dtype) = .ok p) {e : Event} (he : p.Asks e) :
    c.Asks e := by
  obtain ⟨hkernel, hform⟩ := kernel_form_of_build hop hp
  obtain ⟨x, rest, hoperands, hcases⟩ := build_cases hp
  have htakes := he.operands
  have hfirst : (∃ a : NdArray, e.operands = .array a :: rest) ∧
      (c.op.inPlace = false → e.operands = c.operands) := by
    rcases hcases with ⟨C, rfl, -, hargs⟩ | ⟨ch, rfl, -, hinPlace, rfl⟩ | ⟨rfl, rfl⟩ |
      ⟨k, rfl, rfl⟩
    · have hsame : e.operands = c.operands := Eq.trans htakes hargs
      exact ⟨⟨_, hsame.trans hoperands⟩, fun _ => hsame⟩
    -- the target of a change is the first operand, as the calls before have left it
    · exact ⟨htakes, fun hnot => absurd (hinPlace.symm.trans hnot) nofun⟩
    · exact ⟨⟨_, htakes⟩, fun _ => Eq.trans htakes hoperands.symm⟩
    · exact ⟨⟨_, htakes⟩, fun _ => Eq.trans htakes hoperands.symm⟩
  refine ⟨he.kernel.trans hkernel, ?_, by rw [hoperands, List.tail_cons]; exact hfirst.1, hfirst.2⟩
  rcases he.form with h | h
  · rw [h]
    exact hform
  · exact Or.inr h

end Case

namespace Harness

variable {σ : Type}

lemma checkBytes_recorded (h : Harness σ) (c : Case) (k : Kernel) :
    h.recorded.checkBytes c k = h.checkBytes c k := by
  unfold checkBytes
  rfl

/-- A run on a recorder comes to the same as on the backend inside, and the calls that it adds are
calls of the case. -/
lemma run_recorded (h : Harness σ) (c : Case) (s : Session σ) (base : List Event) :
    ∃ es v t, (∀ e ∈ es, c.Asks e) ∧ h.run c s = ending v t ∧
      h.recorded.run c (s.recorded base) = ending v (t.recorded (base ++ es)) := by
  have hrefused : ∀ e : BenchError, h.run c s = .error e s →
      h.recorded.run c (s.recorded base) = .error e (s.recorded base) →
      ∃ es v t, (∀ e ∈ es, c.Asks e) ∧ h.run c s = ending v t ∧
        h.recorded.run c (s.recorded base) = ending v (t.recorded (base ++ es)) :=
    fun e hrun hrecorded => ⟨[], .error e, s, List.forall_mem_nil _, hrun, by
      rw [List.append_nil]
      exact hrecorded⟩
  -- what is refused beforehand does not reach the backend, so that nothing is noted down
  by_cases hop : c.op ∈ Operation.catalog
  · have hd := Operation.dispatch_of_mem hop c.dtype
    cases hcheck : h.checkBytes c (c.op.resolve c.dtype).kernel with
    | error e =>
      refine hrefused e ?_ ?_
      · rw [run, hd, Step.ok_bind, hcheck, Step.error_bind]
      · rw [run, hd, Step.ok_bind, checkBytes_recorded, hcheck, Step.error_bind]
    | ok u =>
      cases hp : Prepared.build c (c.op.resolve c.dtype) with
      | error e =>
        refine hrefused e ?_ ?_
        · rw [run, hd, Step.ok_bind, hcheck, Step.ok_bind, hp, Step.error_bind]
        · rw [run, hd, Step.ok_bind, checkBytes_recorded, hcheck, Step.ok_bind, hp, Step.error_bind]
      | ok p =>
        -- from here on both measurements go alike, step by step
        have hstart : p.Beside base (s.recorded base, p.array) (s, p.array) :=
          ⟨[], List.forall_mem_nil _, by rw [List.append_nil]⟩
        have hmatched : Workload.Matched (p.Beside base) (p.workload h.recorded.backend)
            (p.workload h.backend) := p.matched_workload h.backend base
        have hclock : h.recorded.clock (s.recorded base).timed = h.clock s.timed := rfl
        obtain ⟨v, _, u, ⟨es, hes, rfl⟩, hrecorded, hplain⟩ :=
          hmatched.measure Prepared.beside_note c.schedule (h.clock s.timed) c.op c.dtype
            (c.op.resolve c.dtype) hstart
        rw [← hclock] at hrecorded
        have hasks : ∀ e ∈ es, c.Asks e := fun e he => Case.asks_of_prepared hop hp (hes e he)
        have hcheck' := (h.checkBytes_recorded c (c.op.resolve c.dtype).kernel).trans hcheck
        cases v with
        | ok timing =>
          exact ⟨es, .ok _, _, hasks, run_of_timing hcheck hd hp hplain,
            run_of_timing hcheck' hd hp hrecorded⟩
        | error e =>
          exact ⟨es, .error e, _, hasks, run_of_error hcheck hd hp hplain,
            run_of_error hcheck' hd hp hrecorded⟩
  · have hd : c.op.dispatch c.dtype = .error (.unsupported c.op.name c.dtype) := if_neg hop
    refine hrefused (.unsupported c.op.name c.dtype) ?_ ?_
    · rw [run, hd, Step.error_bind]
    · rw [run, hd, Step.error_bind]

end Harness

end ArrayBench
