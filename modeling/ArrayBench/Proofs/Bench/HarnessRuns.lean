import ArrayBench.Proofs.Bench.Catalog
import ArrayBench.Proofs.Cpu.Atomic
import ArrayBench.Proofs.Bench.Prepared

/-!
How the run of a case goes.

A run looks its operation up, prepares the call and measures it, so it succeeds exactly if the
measurement does, and the backend has then got the calls of the measurement. With steady calls that
comes down to the checks of one call.
-/

namespace ArrayBench

open Prepared (Between SettledCall view)
open Workload (Succeeds Fails)

namespace Harness

variable {σ : Type}

/-! ### Runs -/

section Run

variable {h : Harness σ} {c : Case} {dispatch : Dispatch} {p : Prepared} {s : Session σ}

def noteBeside (n : Note) (t : Session σ × NdArray) : Session σ × NdArray := (t.1.note n, t.2)

def timedSession (c : Case) (m : Measurement) (s : Session σ) : Session σ :=
  { s with timed := s.timed + 1 }.note
    (.measured c.op c.dtype c.geometry.text m.micros m.metrics.mops m.usedFallback)

lemma run_of_timing (hbytes : h.checkBytes c dispatch.kernel = .ok ())
    (hd : c.op.dispatch c.dtype = .ok dispatch)
    (hp : Prepared.build c dispatch = .ok p) {timing : Timing} {u : Session σ × NdArray}
    (hm : (p.workload h.backend).measure c.schedule (h.clock s.timed) noteBeside c.op c.dtype
      dispatch (s, p.array) = .ok timing u) :
    h.run c s = .ok (.make c timing.micros timing.usedFallback)
      (timedSession c (.make c timing.micros timing.usedFallback) u.1) := by
  have hwith : withArray p.array ((p.workload h.backend).measure c.schedule (h.clock s.timed)
      noteBeside c.op c.dtype dispatch) s = .ok timing u.1 := by
    simp only [withArray, Step.zoom, hm]
  rw [run, hd, Step.ok_bind, hbytes, Step.ok_bind, hp, Step.ok_bind, Step.get_bind]
  exact (Step.bind_of_ok hwith _).trans rfl

lemma run_of_ok (hbytes : h.checkBytes c dispatch.kernel = .ok ())
    (hd : c.op.dispatch c.dtype = .ok dispatch)
    (hp : Prepared.build c dispatch = .ok p) {timing : Timing} {u : Session σ × NdArray}
    (hm : (p.workload h.backend).measure c.schedule (h.clock s.timed) noteBeside c.op c.dtype
      dispatch (s, p.array) = .ok timing u) :
    ∃ t, h.run c s = .ok (Measurement.make c timing.micros timing.usedFallback) t ∧
      t.backend = u.1.backend :=
  ⟨_, run_of_timing hbytes hd hp hm, rfl⟩

lemma run_of_error (hbytes : h.checkBytes c dispatch.kernel = .ok ())
    (hd : c.op.dispatch c.dtype = .ok dispatch)
    (hp : Prepared.build c dispatch = .ok p) {e : BenchError} {u : Session σ × NdArray}
    (hm : (p.workload h.backend).measure c.schedule (h.clock s.timed) noteBeside c.op c.dtype
      dispatch (s, p.array) = .error e u) :
    h.run c s = .error e u.1 := by
  have hwith : withArray p.array ((p.workload h.backend).measure c.schedule (h.clock s.timed)
      noteBeside c.op c.dtype dispatch) s = .error e u.1 := by
    simp only [withArray, Step.zoom, hm]
  rw [run, hd, Step.ok_bind, hbytes, Step.ok_bind, hp, Step.ok_bind, Step.get_bind]
  exact Step.bind_of_error hwith _

lemma checkBytes_of_none (hlimit : h.limit = none) (k : Kernel) : h.checkBytes c k = .ok () := by
  rw [checkBytes, hlimit]

/-- A run only reaches the backend through its measurement, and not at all if the case is refused
beforehand. -/
lemma run_backend (h : Harness σ) (c : Case) (s : Session σ) :
    (∃ e, h.run c s = .error e s) ∨
      ∃ p, c.op ∈ Operation.catalog ∧ Prepared.build c (c.op.resolve c.dtype) = .ok p ∧
        ((h.run c).state s).backend = (((p.workload h.backend).measure c.schedule
          (h.clock s.timed) noteBeside c.op c.dtype (c.op.resolve c.dtype)).state
            (s, p.array)).1.backend ∧
        ∀ m t, h.run c s = .ok m t → ∃ timing u, (p.workload h.backend).measure c.schedule
          (h.clock s.timed) noteBeside c.op c.dtype (c.op.resolve c.dtype) (s, p.array) =
            .ok timing u := by
  -- three ways to be refused beforehand: the operation, the sizes of the arrays, their number
  by_cases hop : c.op ∈ Operation.catalog
  · have hd := Operation.dispatch_of_mem hop c.dtype
    cases hbytes : h.checkBytes c (c.op.resolve c.dtype).kernel with
    | error e =>
      left
      rw [run, hd, Step.ok_bind, hbytes, Step.error_bind]
      exact ⟨_, rfl⟩
    | ok u =>
      cases hp : Prepared.build c (c.op.resolve c.dtype) with
      | error e =>
        left
        rw [run, hd, Step.ok_bind, hbytes, Step.ok_bind, hp, Step.error_bind]
        exact ⟨_, rfl⟩
      | ok p =>
        right
        refine ⟨p, hop, rfl, ?_⟩
        cases hm : (p.workload h.backend).measure c.schedule (h.clock s.timed) noteBeside c.op
          c.dtype (c.op.resolve c.dtype) (s, p.array) with
        | ok timing t =>
          obtain ⟨t', hrun, hbackend⟩ := run_of_ok hbytes hd hp hm
          rw [Step.state, hrun, Step.state, hm]
          exact ⟨hbackend, fun _ _ _ => ⟨timing, t, rfl⟩⟩
        | error e t =>
          rw [Step.state, run_of_error hbytes hd hp hm, Step.state, hm]
          refine ⟨rfl, fun m t' hok => ?_⟩
          cases hok
  · left
    have hd : c.op.dispatch c.dtype = .error (.unsupported c.op.name c.dtype) := if_neg hop
    rw [run, hd, Step.error_bind]
    exact ⟨_, rfl⟩

end Run

/-- The case runs to the end exactly if it is accepted, and then with the calls in `fs`. -/
structure Fares (h : Harness σ) (next : Form → σ → σ → Prop) (c : Case) (s : Session σ)
    (accepted : Prop) (usedFallback : Bool) (fs : List Form) : Prop where
  succeeds : accepted →
    ∃ m t, h.run c s = .ok m t ∧ m.usedFallback = usedFallback ∧ Calls next fs s.backend t.backend
  fails : ¬ accepted → ∃ e t, h.run c s = .error e t

lemma Fares.congr {h : Harness σ} {next : Form → σ → σ → Prop} {c : Case} {s : Session σ}
    {accepted accepted' : Prop} {usedFallback : Bool} {fs : List Form}
    (hf : h.Fares next c s accepted usedFallback fs) (ha : accepted ↔ accepted') :
    h.Fares next c s accepted' usedFallback fs :=
  ⟨fun h' => hf.succeeds (ha.mpr h'), fun h' => hf.fails fun h'' => h' (ha.mp h'')⟩

section Fares

variable {h : Harness σ} {live : σ → Prop} {next : Form → σ → σ → Prop} {c : Case} {p : Prepared}
  {s : Session σ} {f : Form} {buffered allocating : Except ArrayError Unit}

lemma noteBeside_between {a : NdArray} (n : Note) (t : Session σ × NdArray)
    (ht : Between live a t) : Between live a (noteBeside n t) ∧ view (noteBeside n t) = view t :=
  ⟨ht, rfl⟩

lemma run_of_succeeds (hlimit : h.limit = none) (hop : c.op ∈ Operation.catalog)
    (hp : Prepared.build c (c.op.resolve c.dtype) = .ok p) {usedFallback : Bool} {fs : List Form}
    (hm : Succeeds view next ((p.workload h.backend).measure c.schedule (h.clock s.timed)
      noteBeside c.op c.dtype (c.op.resolve c.dtype)) (s, p.array) usedFallback fs) :
    ∃ m t, h.run c s = .ok m t ∧ m.usedFallback = usedFallback ∧
      Calls next fs s.backend t.backend := by
  obtain ⟨micros, u, hmeasure, hcalls⟩ := hm
  obtain ⟨t, hrun, hback⟩ :=
    run_of_ok (checkBytes_of_none hlimit _) (Operation.dispatch_of_mem hop c.dtype) hp hmeasure
  exact ⟨_, t, hrun, rfl, hback ▸ hcalls⟩

lemma run_of_fails (hlimit : h.limit = none) (hop : c.op ∈ Operation.catalog)
    (hp : Prepared.build c (c.op.resolve c.dtype) = .ok p)
    (hm : Fails ((p.workload h.backend).measure c.schedule (h.clock s.timed) noteBeside c.op
      c.dtype (c.op.resolve c.dtype)) (s, p.array)) :
    ∃ e t, h.run c s = .error e t := by
  obtain ⟨e, u, hmeasure⟩ := hm
  exact ⟨e, _, run_of_error (checkBytes_of_none hlimit _) (Operation.dispatch_of_mem hop c.dtype)
    hp hmeasure⟩

/-- A case with a buffered form goes by its buffered calls, unless their buffer is refused and the
entry says that it may be. -/
lemma fares_of_steady (hlimit : h.limit = none) (hop : c.op ∈ Operation.catalog)
    (hn : 0 < c.schedule.warmup + c.schedule.iterations) (hs : live s.backend)
    (hp : Prepared.build c (c.op.resolve c.dtype) = .ok p)
    (hw : (p.workload h.backend).Steady (Between live p.array) view next c.op.form buffered
      allocating)
    (hbuffered : c.op.buffered = true)
    (hdiffer : c.op.mayDiffer c.dtype = true → ∃ e j, buffered = .error e ∧ Rejects e j) :
    h.Fares next c s
      (if c.op.mayDiffer c.dtype then allocating = .ok () else buffered = .ok ())
      (c.op.mayDiffer c.dtype)
      (c.op.calls c.dtype (c.schedule.warmup + c.schedule.iterations)) := by
  have hbetween : Between live p.array (s, p.array) := ⟨hs, .refl _⟩
  unfold Operation.calls
  rw [if_pos hbuffered]
  -- the buffered calls decide alone, unless the catalog lets the buffer be refused
  cases hd : c.op.mayDiffer c.dtype with
  | false =>
    rw [if_neg Bool.false_ne_true, if_neg Bool.false_ne_true]
    cases buffered with
    | ok u =>
      exact ⟨fun _ => run_of_succeeds hlimit hop hp (hw.succeeds_buffered hbetween hbuffered),
        fun hne => absurd rfl hne⟩
    | error e =>
      exact ⟨nofun, fun _ => run_of_fails hlimit hop hp
        (hw.fails_buffered hn hbetween hbuffered hd)⟩
  | true =>
    rw [if_pos rfl, if_pos rfl]
    obtain ⟨e, j, rfl, hj⟩ := hdiffer hd
    cases allocating with
    | ok u =>
      exact ⟨fun _ => run_of_succeeds hlimit hop hp
        (hw.succeeds_fallback noteBeside_between hn hbetween hbuffered hj hd),
        fun hne => absurd rfl hne⟩
    | error e' =>
      exact ⟨nofun, fun _ => run_of_fails hlimit hop hp
        (hw.fails_fallback noteBeside_between hn hbetween hbuffered hj hd)⟩

lemma fares_of_settled (hlimit : h.limit = none) (hop : c.op ∈ Operation.catalog)
    (hn : 0 < c.schedule.warmup + c.schedule.iterations) (hs : live s.backend)
    (hp : Prepared.build c (c.op.resolve c.dtype) = .ok p)
    (hreset : SettledCall live next p.array [] (.ok ()) (p.workload h.backend).reset)
    (hcall : SettledCall live next p.array [.allocating] allocating
      (p.workload h.backend).allocating)
    (hbuffered : c.op.buffered = false) :
    h.Fares next c s (allocating = .ok ()) false
      (c.op.calls c.dtype (c.schedule.warmup + c.schedule.iterations)) := by
  have hbetween : Between live p.array (s, p.array) := ⟨hs, .refl _⟩
  unfold Operation.calls
  rw [hbuffered, if_neg Bool.false_ne_true]
  cases allocating with
  | ok u =>
    exact ⟨fun _ => run_of_succeeds hlimit hop hp
      (Workload.succeeds_unbuffered hreset hcall hbetween hbuffered),
      fun hne => absurd rfl hne⟩
  | error e =>
    exact ⟨nofun, fun _ => run_of_fails hlimit hop hp
      (Workload.fails_unbuffered hn hreset hcall hbetween hbuffered)⟩

end Fares

end Harness

end ArrayBench
