import ArrayBench.Proofs.Bench.Acceptance
import ArrayBench.Proofs.Bench.Repeats

/-!
Runs without drift.

A run prepares one call and measures it, so all the calls that reach the backend are repetitions of
that one. Entries of the catalog that change their operand are marked to have it filled again before
each call, and the loop that follows a refused buffer starts where the buffered one has ended.
-/

namespace ArrayBench

/-! ### Cases -/

namespace Case

open Prepared (operand)

/-- The values that the first and the second array operand are filled with. -/
def fill (c : Case) : Float × Float :=
  Fill.operands c.op.category (c.op.kernelFor c.dtype) c.geometry.family c.dtype

def operands (c : Case) : List Value :=
  match c.op.kernelFor c.dtype, c.geometry.operands with
  | .binary _, x :: y :: _ =>
    [.array (operand x c.dtype c.fill.1), .array (operand y c.dtype c.fill.2)]
  | .scalar _, x :: _ =>
    [.array (operand x c.dtype c.fill.1),
      .scalar (.ofFloat c.dtype (if c.op.inPlace then Fill.inPlaceScalar else Fill.scalar))]
  | .matmul, x :: y :: _ =>
    [.array (operand x c.dtype c.fill.1), .array (operand y c.dtype c.fill.2)]
  | .unary _, x :: _ => [.array (operand x c.dtype c.fill.1)]
  | .sum, x :: _ => [.array (operand x c.dtype c.fill.1)]
  | .sumAxis _, x :: _ => [.array (operand x c.dtype c.fill.1)]
  | _, _ => []

lemma ofKernel_of_build {c : Case} {p : Prepared}
    (hp : Prepared.build c (c.op.resolve c.dtype) = .ok p) :
    Prepared.ofKernel c.dtype c.fill.1 c.fill.2 c.geometry.output c.op.inPlace
      (c.op.kernelFor c.dtype) c.geometry.operands = some p := by
  unfold Prepared.build at hp
  simp only [] at hp
  split at hp
  · rename_i q hq
    obtain rfl := Except.ok.inj hp
    exact hq
  · cases hp

/-- The ways in which a case is prepared. The first operand is always an array. -/
lemma build_cases {c : Case} {p : Prepared}
    (hp : Prepared.build c (c.op.resolve c.dtype) = .ok p) :
    ∃ x rest, c.operands = .array (operand x c.dtype c.fill.1) :: rest ∧
      ((∃ C, p = .call C (.empty c.geometry.output c.dtype) ∧ C.WellFormed ∧
          C.args = c.operands) ∨
        (∃ ch, p = .change ch (operand x c.dtype c.fill.1) (.ofFloat c.dtype c.fill.1) ∧
          ch.WellFormed ∧ c.op.inPlace = true ∧ ch.args = rest) ∨
        (p = .sum (operand x c.dtype c.fill.1) ∧ rest = []) ∨
        ∃ k, p = .sumAxis k (operand x c.dtype c.fill.1) ∧ rest = []) := by
  have hkernel := ofKernel_of_build hp
  have hwf := fun o v => Prepared.operand_wellFormed o c.dtype v
  unfold Prepared.ofKernel at hkernel
  split at hkernel
  · -- two arrays
    rename_i op x y ys hk hxy
    refine ⟨x, [.array (operand y c.dtype c.fill.2)], by simp only [operands, hk, hxy], ?_⟩
    split_ifs at hkernel with hinPlace <;> obtain rfl := Option.some.inj hkernel
    · exact Or.inr (Or.inl ⟨_, rfl, Change.wellFormed_binary.mpr (hwf y _), hinPlace, rfl⟩)
    · refine Or.inl ⟨_, rfl, Call.wellFormed_binary.mpr ⟨hwf x _, hwf y _⟩, ?_⟩
      simp only [operands, hk, hxy, Call.args]
  · -- an array and a scalar
    rename_i op x xs hk hx
    refine ⟨x, [.scalar (.ofFloat c.dtype (if c.op.inPlace then Fill.inPlaceScalar else
      Fill.scalar))], by simp only [operands, hk, hx], ?_⟩
    split_ifs at hkernel with hinPlace <;> obtain rfl := Option.some.inj hkernel
    · refine Or.inr (Or.inl ⟨_, rfl, Change.wellFormed_scalar _ _, hinPlace, ?_⟩)
      rw [if_pos hinPlace, Change.args]
    · refine Or.inl ⟨_, rfl, Call.wellFormed_scalar.mpr (hwf x _), ?_⟩
      simp only [operands, hk, hx, Call.args, if_neg hinPlace]
  · -- one array
    rename_i op x xs hk hx
    refine ⟨x, [], by simp only [operands, hk, hx], ?_⟩
    split_ifs at hkernel with hinPlace <;> obtain rfl := Option.some.inj hkernel
    · exact Or.inr (Or.inl ⟨_, rfl, Change.wellFormed_unary _, hinPlace, rfl⟩)
    · refine Or.inl ⟨_, rfl, Call.wellFormed_unary.mpr (hwf x _), ?_⟩
      simp only [operands, hk, hx, Call.args]
  · rename_i x xs hk hx
    obtain rfl := Option.some.inj hkernel
    exact ⟨x, [], by simp only [operands, hk, hx], Or.inr (Or.inr (Or.inl ⟨rfl, rfl⟩))⟩
  · rename_i k x xs hk hx
    obtain rfl := Option.some.inj hkernel
    exact ⟨x, [], by simp only [operands, hk, hx], Or.inr (Or.inr (Or.inr ⟨k, rfl, rfl⟩))⟩
  · -- two matrices
    rename_i x y ys hk hxy
    obtain rfl := Option.some.inj hkernel
    refine ⟨x, [.array (operand y c.dtype c.fill.2)], by simp only [operands, hk, hxy], ?_⟩
    refine Or.inl ⟨_, rfl, Call.wellFormed_matmul.mpr ⟨hwf x _, hwf y _⟩, ?_⟩
    simp only [operands, hk, hxy, Call.args]
  · cases hkernel

/-- Every entry of the catalog that changes its operand has it filled again before each call. -/
lemma reset_of_inPlace {op : Operation} (hop : op ∈ Operation.catalog) (d : DType)
    (h : op.inPlace = true) : (op.resolve d).reset = .beforeEachCall := by
  have hdrifts : op.drifts = op.inPlace := by
    rcases Operation.catalog_cases hop with ⟨b, rfl⟩ | ⟨b, inPlace, rfl⟩ | ⟨u, inPlace, rfl⟩ |
      ⟨inPlace, rfl⟩ | rfl | ⟨k, rfl⟩ | rfl <;> rfl
  rw [Operation.resolve, hdrifts, h]
  rfl

lemma build_keeps {c : Case} {p : Prepared} (hop : c.op ∈ Operation.catalog)
    (hp : Prepared.build c (c.op.resolve c.dtype) = .ok p) (base : List Event) :
    ∃ ready, (p.workload Backend.cpu.recording).Keeps (c.op.resolve c.dtype).reset (p.Kept base)
      ready := by
  obtain ⟨x, rest, -, ⟨C, rfl, hC, -⟩ | ⟨ch, rfl, hch, hinPlace, -⟩ | ⟨rfl, -⟩ | ⟨k, rfl, -⟩⟩ :=
    build_cases hp
  · exact ⟨_, Prepared.keeps_call base _ hC (NdArray.wellFormed_empty _ _)
      (Layout.nodup_offsets_contiguous _)⟩
  · rw [reset_of_inPlace hop c.dtype hinPlace]
    exact ⟨_, Prepared.keeps_change base hch x c.dtype c.fill.1⟩
  · exact ⟨_, Prepared.keeps_sum base _ _⟩
  · exact ⟨_, Prepared.keeps_sumAxis base _ k _⟩

lemma build_receives {c : Case} {p : Prepared}
    (hp : Prepared.build c (c.op.resolve c.dtype) = .ok p) :
    ∃ x rest, c.operands = .array (operand x c.dtype c.fill.1) :: rest ∧ ∀ vs, p.Receives vs →
      (c.op.inPlace = false → vs = c.operands) ∧
        ∃ a : NdArray, a.Alike (operand x c.dtype c.fill.1) ∧ vs = .array a :: rest := by
  obtain ⟨x, rest, hoperands, hcases⟩ := build_cases hp
  refine ⟨x, rest, hoperands, fun vs hvs => ?_⟩
  rcases hcases with ⟨C, rfl, -, hargs⟩ | ⟨ch, rfl, -, hinPlace, rfl⟩ | ⟨rfl, rfl⟩ | ⟨k, rfl, rfl⟩
  · have hsame : vs = c.operands := Eq.trans hvs hargs
    exact ⟨fun _ => hsame, _, .refl _, hsame.trans hoperands⟩
  · refine ⟨fun hnot => ?_, hvs⟩
    rw [hinPlace] at hnot
    cases hnot
  · exact ⟨fun _ => Eq.trans hvs hoperands.symm, _, .refl _, hvs⟩
  · exact ⟨fun _ => Eq.trans hvs hoperands.symm, _, .refl _, hvs⟩

/-! ### All of it together -/

/-- No event tells which call of the run it belongs to. -/
structure Undrifted (c : Case) (es : List Event) : Prop where
  operands : ∀ e ∈ es, List.Forall₂ Value.Alike e.operands c.operands
  /-- Without a target among the operands they are the very arrays that were allocated. -/
  allocated : c.op.inPlace = false → ∀ e ∈ es, e.operands = c.operands
  /-- The first operand has its fill value everywhere, and the other one is as it was allocated. -/
  filled : ∀ e ∈ es, ∃ a : NdArray, e.operands = .array a :: c.operands.tail ∧
    a.toElems c.dtype = .ok (List.replicate a.numel (c.dtype.ofFloat c.fill.1))
  results : ∀ e ∈ es, ∀ e' ∈ es, ∀ v v', e.result = .ok v → e'.result = .ok v' → v.Alike v'

lemma undrifted_nil (c : Case) : c.Undrifted [] := by
  constructor <;> simp

lemma undrifted_of_repeats {c : Case} {p : Prepared}
    (hp : Prepared.build c (c.op.resolve c.dtype) = .ok p) {es : List Event}
    (h : ∀ e ∈ es, p.Repeats e) : c.Undrifted es := by
  obtain ⟨x, rest, hoperands, hreceives⟩ := build_receives hp
  refine ⟨fun e he => ?_, fun hnot e he => (hreceives _ (h e he).operands).1 hnot, fun e he => ?_,
    fun e he e' he' v v' hv hv' => ?_⟩
  · obtain ⟨-, a, halike, hevent⟩ := hreceives _ (h e he).operands
    rw [hevent, hoperands]
    exact .cons (.array halike) (List.forall₂_same.mpr fun v _ => .refl v)
  · obtain ⟨-, a, halike, hevent⟩ := hreceives _ (h e he).operands
    exact ⟨a, by rw [hevent, hoperands, List.tail_cons], Prepared.elems_of_alike halike⟩
  · obtain ⟨r, hr, hvr⟩ := (h e he).result v hv
    obtain ⟨r', hr', hvr'⟩ := (h e' he').result v' hv'
    obtain rfl := Except.ok.inj (hr.symm.trans hr')
    exact hvr.trans hvr'.symm

end Case

/-- **No drift**: all the calls that a run makes, be it in the warmup, in the timed rounds, refused
or after a refusal, are made on the same elements, and all that succeed have the same result. If the
run succeeds there is a call for each of its rounds. -/
theorem Harness.run_without_drift (clock : Nat → Clock) (limit : Option Nat) (c : Case)
    (s : Session (Unit × Record)) :
    ∃ es, (((Harness.mk Backend.cpu.recording clock limit).run c).state s).backend.2.events.toList =
        s.backend.2.events.toList ++ es ∧ c.Undrifted es ∧
      ∀ m t, (Harness.mk Backend.cpu.recording clock limit).run c s = .ok m t →
        c.schedule.warmup + c.schedule.iterations ≤ es.length := by
  rcases run_backend ⟨Backend.cpu.recording, clock, limit⟩ c s with ⟨e, hrun⟩ |
    ⟨p, hop, hp, hbackend, hok⟩
  · refine ⟨[], ?_, c.undrifted_nil, fun m t hrun' => ?_⟩
    · rw [Step.state, hrun, List.append_nil]
    · rw [hrun] at hrun'
      cases hrun'
  · obtain ⟨ready, hkeeps⟩ := Case.build_keeps hop hp s.backend.2.events.toList
    have hstart : p.Kept s.backend.2.events.toList 0 (s, p.array) :=
      ⟨.refl _, [], (List.append_nil _).symm, rfl, by simp⟩
    have hnote : ∀ n x t, p.Kept s.backend.2.events.toList n t →
        p.Kept s.backend.2.events.toList n (noteBeside x t) :=
      fun n x t ht => ⟨ht.frame, ht.events⟩
    obtain ⟨k, hkept, hrounds⟩ :=
      hkeeps.measure hnote c.schedule (clock s.timed) c.op c.dtype hstart
    obtain ⟨es, hes, rfl, hall⟩ := hkept.events
    refine ⟨es, by rw [hbackend]; exact hes, Case.undrifted_of_repeats hp hall, fun m t hrun => ?_⟩
    obtain ⟨timing, u, hmeasure⟩ := hok m t hrun
    exact hrounds timing u hmeasure

/-- A transposed matrix is filled again before each of three additions, and no addition finds what
the one before it has left. -/
theorem Harness.run_without_drift_in_place :
    ∃ m t, (Harness.mk Backend.cpu.recording (fun _ _ => 0) none).run
        ⟨.scalar .add true, .int8, .strided 2 3 1, ⟨1, 2⟩⟩ (.start ((), ⟨#[], []⟩)) = .ok m t ∧
      t.backend.2.forms = [.inPlace, .inPlace, .inPlace] ∧
      Case.Undrifted ⟨.scalar .add true, .int8, .strided 2 3 1, ⟨1, 2⟩⟩
        t.backend.2.events.toList := by
  have hop : Operation.scalar .add true ∈ Operation.catalog := by
    simp [Operation.catalog, Operation.arithmetic]
  have hfares : (Harness.mk Backend.cpu.recording (fun _ _ => 0) none).FaresAsListed _
      (.scalar .add true) .int8 (.strided 2 3 1) ⟨1, 2⟩ (.start ((), ⟨#[], []⟩)) :=
    fares_as_listed rfl hop (by decide) ⟨trivial, rfl⟩
      (Backend.recording_likeCpu Backend.cpu_likeCpu) rfl
  have haccepts : (Operation.scalar .add true).Accepts .int8 (.strided 2 3 1) := Or.inl rfl
  obtain ⟨m, t, hrun⟩ := hfares.ok_iff.mpr haccepts
  have hforms := forms_of_calls (fun _ _ _ h => h.2) (hfares.of_ok hrun).2
  obtain ⟨es, hes, hundrifted, -⟩ := run_without_drift (fun _ _ => 0) none
    ⟨.scalar .add true, .int8, .strided 2 3 1, ⟨1, 2⟩⟩ (.start ((), ⟨#[], []⟩))
  rw [Step.state, hrun] at hes
  refine ⟨m, t, hrun, hforms, ?_⟩
  rw [hes]
  exact hundrifted

end ArrayBench
