import ArrayBench.Proofs.Bench.HarnessRuns

/-!
Which cases a harness accepts.

Whether a case of the catalog runs to the end depends on the shapes of its operands and its output
alone, and which calls the backend gets is known from the entry and the type: all of them in the
buffered form, or all in the allocating form, or a single refused buffered call before those.
-/

namespace ArrayBench

namespace Harness

variable {σ : Type}

/-! ### The kinds of entries -/

section Entries

variable {h : Harness σ} {live : σ → Prop} {next : Form → σ → σ → Prop} {op : Operation} {d : DType}
  {g : Geometry} {sched : Schedule} {s : Session σ}

variable (h next op d g sched s) in
abbrev FaresAsListed : Prop :=
  h.Fares next ⟨op, d, g, sched⟩ s (op.Accepts d g) (op.mayDiffer d)
    (op.calls d (sched.warmup + sched.iterations))

variable (hlimit : h.limit = none) (hop : op ∈ Operation.catalog)
  (hn : 0 < sched.warmup + sched.iterations) (hs : live s.backend)
  (hb : h.backend.LikeCpu live next)

include hlimit hop hn hs hb

lemma fares_call {C : Float → Float → Call}
    (hP : ∀ v w, Prepared.ofKernel d v w g.output op.inPlace (op.kernelFor d) g.operands =
      some (.call (C v w) (.empty g.output d)))
    (hC : ∀ v w, (C v w).WellFormed) (hinPlace : op.inPlace = false)
    (hbuffered : op.buffered = true)
    (hdiffer : op.mayDiffer d = true → ∀ v w, ∃ e j,
      (C v w).checks (.empty g.output d) = .error e ∧ Rejects e j)
    (haccepts : ∀ v w, (if op.mayDiffer d then ∃ o, (C v w).outline = .ok o
      else (C v w).checks (.empty g.output d) = .ok ()) ↔ op.Accepts d g) :
    h.FaresAsListed next op d g sched s := by
  obtain ⟨v, w, hp⟩ := Prepared.build_of_kernel ⟨op, d, g, sched⟩ (op.resolve d) hP
  have hw := Prepared.steady_call hb (hC v w) (NdArray.wellFormed_empty g.output d)
  have hform : op.form = .buffered := by rw [Operation.form, hinPlace, if_neg Bool.false_ne_true]
  rw [← hform] at hw
  -- what is left is that the checks are the conditions of the catalog
  refine (fares_of_steady hlimit hop hn hs hp hw hbuffered fun hd => hdiffer hd v w).congr ?_
  rw [← haccepts v w]
  simp only [settle_eq_ok]

lemma fares_change {C : Float → Float → Change} {x : Operand}
    (hP : ∀ v w, Prepared.ofKernel d v w g.output op.inPlace (op.kernelFor d) g.operands =
      some (.change (C v w) (Prepared.operand x d v) (.ofFloat d v)))
    (hC : ∀ v w, (C v w).WellFormed) (hinPlace : op.inPlace = true)
    (hbuffered : op.buffered = true)
    (hdiffer : op.mayDiffer d = true → ∀ v w, ∃ e j,
      (C v w).checks (Prepared.operand x d v) = .error e ∧ Rejects e j)
    (haccepts : ∀ v w, (if op.mayDiffer d then
        ∃ o, ((C v w).call (Prepared.operand x d v)).outline = .ok o
      else (C v w).checks (Prepared.operand x d v) = .ok ()) ↔ op.Accepts d g) :
    h.FaresAsListed next op d g sched s := by
  obtain ⟨v, w, hp⟩ := Prepared.build_of_kernel ⟨op, d, g, sched⟩ (op.resolve d) hP
  have hw := Prepared.steady_change hb (hC v w) (Prepared.operand_wellFormed x d v) (.ofFloat d v)
  have hform : op.form = .inPlace := by rw [Operation.form, hinPlace, if_pos rfl]
  rw [← hform] at hw
  refine (fares_of_steady hlimit hop hn hs hp hw hbuffered fun hd => hdiffer hd v w).congr ?_
  rw [← haccepts v w]
  simp only [settle_eq_ok]

lemma fares_binary {b : BinaryOp} (hk : op.kernel = .binary b) (hinPlace : op.inPlace = false)
    (hbuffered : op.buffered = true) (hd : op.mayDiffer d = (b.resultType d != d))
    (hg : g.operands.length = 2) : h.FaresAsListed next op d g sched s := by
  obtain ⟨x, y, hxy⟩ := List.length_eq_two.mp hg
  have hkernel : op.kernelFor d = .binary b := by
    rw [Operation.kernelFor_of_ne fun _ _ => hinPlace, hk]
  refine fares_call hlimit hop hn hs hb
    (C := fun v w => .binary b (Prepared.operand x d v) (Prepared.operand y d w))
    (fun v w => ?_) (fun v w => ?_) hinPlace hbuffered (fun hdiffer v w => ?_) fun v w => ?_
  · rw [hkernel, hxy, hinPlace]
    rfl
  · simp [Prepared.operand_wellFormed]
  -- both operands have one type, so a buffer can only be refused for its own
  · rw [hd, bne_iff_ne] at hdiffer
    refine Call.rejecting_iff.mpr ⟨?_, ?_⟩
    · rw [Call.OperandsAgree, Prepared.operand_dtype, Prepared.operand_dtype]
    · rwa [Call.resultType, Prepared.operand_dtype]
  · rw [Call.outline_binary, Call.checks_binary]
    simp only [Prepared.operand_dtype, Prepared.operand_shape, Prepared.empty_dtype,
      Prepared.empty_shape, Operation.Accepts, hk, hxy, List.map_cons, List.map_nil, hinPlace]
    -- with a fallback the operands have to fit each other, without one the output as well
    cases hdiffer : op.mayDiffer d with
    | true => simp
    | false =>
      have hr : b.resultType d = d := by simpa [hd] using hdiffer
      simp [hr]

lemma fares_scalar {b : BinaryOp} (hk : op.kernel = .scalar b) (hinPlace : op.inPlace = false)
    (hbuffered : op.buffered = true) (hd : op.mayDiffer d = (b.resultType d != d))
    (hg : g.operands.length = 1) : h.FaresAsListed next op d g sched s := by
  obtain ⟨x, hx⟩ := List.length_eq_one_iff.mp hg
  have hkernel : op.kernelFor d = .scalar b := by
    rw [Operation.kernelFor_of_ne fun _ _ => hinPlace, hk]
  refine fares_call hlimit hop hn hs hb
    (C := fun v _ => .scalar b (Prepared.operand x d v) (.ofFloat d Fill.scalar))
    (fun v w => ?_) (fun v w => ?_) hinPlace hbuffered (fun hdiffer v w => ?_) fun v w => ?_
  · rw [hkernel, hx, hinPlace]
    rfl
  · simp [Prepared.operand_wellFormed]
  · rw [hd, bne_iff_ne] at hdiffer
    exact Call.rejecting_iff.mpr ⟨trivial, by rwa [Call.resultType, Prepared.operand_dtype]⟩
  · rw [Call.checks_scalar]
    simp only [Prepared.operand_dtype, Prepared.operand_shape, Prepared.empty_dtype,
      Prepared.empty_shape, Operation.Accepts, hk, hx, List.map_cons, List.map_nil, hinPlace]
    cases hdiffer : op.mayDiffer d with
    | true => simp [Call.outline]
    | false =>
      have hr : b.resultType d = d := by simpa [hd] using hdiffer
      simp [hr]

lemma fares_unary {u : UnaryOp} (hk : op.kernel = .unary u) (hinPlace : op.inPlace = false)
    (hbuffered : op.buffered = true) (hd : op.mayDiffer d = (u.resultType d != d))
    (hg : g.operands.length = 1) : h.FaresAsListed next op d g sched s := by
  obtain ⟨x, hx⟩ := List.length_eq_one_iff.mp hg
  have hkernel : op.kernelFor d = .unary u := by
    rw [Operation.kernelFor_of_ne fun _ _ => hinPlace, hk]
  refine fares_call hlimit hop hn hs hb (C := fun v _ => .unary u (Prepared.operand x d v))
    (fun v w => ?_) (fun v w => ?_) hinPlace hbuffered (fun hdiffer v w => ?_) fun v w => ?_
  · rw [hkernel, hx, hinPlace]
    rfl
  · simp [Prepared.operand_wellFormed]
  · rw [hd, bne_iff_ne] at hdiffer
    exact Call.rejecting_iff.mpr ⟨trivial, by rwa [Call.resultType, Prepared.operand_dtype]⟩
  · rw [Call.checks_unary]
    simp only [Prepared.operand_dtype, Prepared.operand_shape, Prepared.empty_dtype,
      Prepared.empty_shape, Operation.Accepts, hk, hx, List.map_cons, List.map_nil, hinPlace]
    cases hdiffer : op.mayDiffer d with
    | true => simp [Call.outline]
    | false =>
      have hr : u.resultType d = d := by simpa [hd] using hdiffer
      simp [hr]

lemma fares_matmul (hk : op.kernel = .matmul) (hinPlace : op.inPlace = false)
    (hbuffered : op.buffered = true) (hd : op.mayDiffer d = false)
    (hg : g.operands.length = 2) : h.FaresAsListed next op d g sched s := by
  obtain ⟨x, y, hxy⟩ := List.length_eq_two.mp hg
  have hkernel : op.kernelFor d = .matmul := by
    rw [Operation.kernelFor_of_ne fun _ _ => hinPlace, hk]
  refine fares_call hlimit hop hn hs hb
    (C := fun v w => .matmul (Prepared.operand x d v) (Prepared.operand y d w))
    (fun v w => ?_) (fun v w => ?_) hinPlace hbuffered (fun hdiffer v w => ?_) fun v w => ?_
  · rw [hkernel, hxy]
    rfl
  · simp [Prepared.operand_wellFormed]
  -- products of matrices have no fallback
  · rw [hd] at hdiffer
    cases hdiffer
  · rw [hd, if_neg Bool.false_ne_true, Call.checks_matmul]
    simp only [Prepared.operand_dtype, Prepared.operand_shape, Prepared.empty_dtype,
      Prepared.empty_shape, Operation.Accepts, hk, Geometry.matmulSizes_eq_some hxy, true_and]
    constructor
    · rintro ⟨m, k, n, hm, hk, hs⟩
      exact ⟨m, k, n, ⟨hm, hk⟩, hs⟩
    · rintro ⟨m, k, n, ⟨hm, hk⟩, hs⟩
      exact ⟨m, k, n, hm, hk, hs⟩

lemma fares_binary_inPlace {b : BinaryOp} (hk : op.kernel = .binary b)
    (hinPlace : op.inPlace = true) (hbuffered : op.buffered = true)
    (hd : op.mayDiffer d = false) (hr : b.resultType d = d) (hg : g.operands.length = 2) :
    h.FaresAsListed next op d g sched s := by
  obtain ⟨x, y, hxy⟩ := List.length_eq_two.mp hg
  have hkernel : op.kernelFor d = .binary b := by
    rw [Operation.kernelFor_of_ne (by rw [hk]; nofun), hk]
  refine fares_change hlimit hop hn hs hb (C := fun _ w => .binary b (Prepared.operand y d w))
    (x := x) (fun v w => ?_) (fun v w => ?_) hinPlace hbuffered (fun hdiffer v w => ?_)
    fun v w => ?_
  · rw [hkernel, hxy, hinPlace]
    rfl
  · simp [Prepared.operand_wellFormed]
  · rw [hd] at hdiffer
    cases hdiffer
  · rw [hd, if_neg Bool.false_ne_true, Change.checks_binary]
    simp [Prepared.operand_dtype, Prepared.operand_shape, Operation.Accepts, hk, hxy, hinPlace, hr]

lemma fares_scalar_inPlace {b b' : BinaryOp} (hk : op.kernel = .scalar b)
    (hkernel : op.kernelFor d = .scalar b') (hinPlace : op.inPlace = true)
    (hbuffered : op.buffered = true) (hd : op.mayDiffer d = false) (hr : b'.resultType d = d)
    (hg : g.operands.length = 1) : h.FaresAsListed next op d g sched s := by
  obtain ⟨x, hx⟩ := List.length_eq_one_iff.mp hg
  refine fares_change hlimit hop hn hs hb
    (C := fun _ _ => .scalar b' (.ofFloat d Fill.inPlaceScalar)) (x := x) (fun v w => ?_)
    (fun v w => ?_) hinPlace hbuffered (fun hdiffer v w => ?_) fun v w => ?_
  · rw [hkernel, hx, hinPlace]
    rfl
  · simp
  · rw [hd] at hdiffer
    cases hdiffer
  · rw [hd, if_neg Bool.false_ne_true, Change.checks_scalar]
    simp [Prepared.operand_dtype, Operation.Accepts, hk, hx, hinPlace, hr]

lemma fares_unary_inPlace {u : UnaryOp} (hk : op.kernel = .unary u) (hinPlace : op.inPlace = true)
    (hbuffered : op.buffered = true) (hd : op.mayDiffer d = (u.resultType d != d))
    (hg : g.operands.length = 1) : h.FaresAsListed next op d g sched s := by
  obtain ⟨x, hx⟩ := List.length_eq_one_iff.mp hg
  have hkernel : op.kernelFor d = .unary u := by
    rw [Operation.kernelFor_of_ne (by rw [hk]; nofun), hk]
  refine fares_change hlimit hop hn hs hb (C := fun _ _ => .unary u) (x := x)
    (fun v w => ?_) (fun v w => ?_) hinPlace hbuffered (fun hdiffer v w => ?_) fun v w => ?_
  · rw [hkernel, hx, hinPlace]
    rfl
  · simp
  · rw [hd, bne_iff_ne] at hdiffer
    refine checkOutputType_rejects ?_
    rwa [Prepared.operand_dtype]
  · rw [Change.checks_unary, Prepared.operand_dtype]
    cases hdiffer : op.mayDiffer d with
    | true => simp [Change.call, Call.outline, Operation.Accepts, hk, hx, hinPlace]
    | false =>
      have hr : u.resultType d = d := by simpa [hd] using hdiffer
      simp [Operation.Accepts, hk, hx, hinPlace, hr]

lemma fares_sum (hk : op.kernel = .sum) (hbuffered : op.buffered = false)
    (hd : op.mayDiffer d = false) (hg : g.operands.length = 1) :
    h.FaresAsListed next op d g sched s := by
  obtain ⟨x, hx⟩ := List.length_eq_one_iff.mp hg
  have hkernel : op.kernelFor d = .sum := by
    rw [Operation.kernelFor_of_ne (by rw [hk]; nofun), hk]
  obtain ⟨v, w, hp⟩ := Prepared.build_of_kernel ⟨op, d, g, sched⟩ (op.resolve d)
    (P := fun v _ => .sum (Prepared.operand x d v)) fun v w => by
      change Prepared.ofKernel d v w g.output op.inPlace (op.kernelFor d) g.operands = _
      rw [hkernel, hx]
      rfl
  have hcall := Prepared.settled_sum (Prepared.operand x d v) hb
    (Prepared.operand_wellFormed x d v)
  have hfares := fares_of_settled hlimit hop hn hs hp Prepared.pure_settled hcall hbuffered
  rw [FaresAsListed, hd]
  refine hfares.congr ?_
  simp [Operation.Accepts, hk, hx]

lemma fares_sumAxis {k : Nat} (hk : op.kernel = .sumAxis k) (hbuffered : op.buffered = false)
    (hd : op.mayDiffer d = false) (hg : g.operands.length = 1) :
    h.FaresAsListed next op d g sched s := by
  obtain ⟨x, hx⟩ := List.length_eq_one_iff.mp hg
  have hkernel : op.kernelFor d = .sumAxis k := by
    rw [Operation.kernelFor_of_ne (by rw [hk]; nofun), hk]
  obtain ⟨v, w, hp⟩ := Prepared.build_of_kernel ⟨op, d, g, sched⟩ (op.resolve d)
    (P := fun v _ => .sumAxis k (Prepared.operand x d v)) fun v w => by
      change Prepared.ofKernel d v w g.output op.inPlace (op.kernelFor d) g.operands = _
      rw [hkernel, hx]
      rfl
  have hcall := Prepared.settled_sumAxis (Prepared.operand x d v) hb
    (Prepared.operand_wellFormed x d v) k
  have hfares := fares_of_settled hlimit hop hn hs hp Prepared.pure_settled hcall hbuffered
  rw [FaresAsListed, hd]
  refine hfares.congr ?_
  rw [settle_eq_ok, Prepared.operand_shape]
  unfold Shape.withoutAxis
  split_ifs with hrank <;> simp [Operation.Accepts, hk, hx, hrank]

/-- On a backend like the plain one every entry of the catalog fares as it is listed. -/
lemma fares_as_listed (hg : g.operands.length = op.arity) :
    h.FaresAsListed next op d g sched s := by
  rcases Operation.catalog_cases hop with ⟨b, rfl⟩ | ⟨b, _ | _, rfl⟩ | ⟨u, _ | _, rfl⟩ |
    ⟨_ | _, rfl⟩ | rfl | ⟨k, rfl⟩ | rfl
  · exact fares_binary hlimit hop hn hs hb rfl rfl rfl (Operation.mayDiffer_binary b d) hg
  · exact fares_scalar hlimit hop hn hs hb rfl rfl rfl (Operation.mayDiffer_scalar b d) hg
  · exact fares_scalar_inPlace hlimit hop hn hs hb rfl (Operation.kernelFor_scalar_inPlace b d) rfl
      rfl rfl (Operation.resultType_inPlaceOp b d) hg
  · exact fares_unary hlimit hop hn hs hb rfl rfl rfl (Operation.mayDiffer_unary u false d) hg
  · exact fares_unary_inPlace hlimit hop hn hs hb rfl rfl rfl (Operation.mayDiffer_unary u true d)
      hg
  · exact fares_binary hlimit hop hn hs hb rfl rfl rfl (bne_self_eq_false d).symm hg
  · exact fares_binary_inPlace hlimit hop hn hs hb rfl rfl rfl rfl rfl hg
  · exact fares_sum hlimit hop hn hs hb rfl rfl rfl hg
  · exact fares_sumAxis hlimit hop hn hs hb rfl rfl rfl hg
  · exact fares_matmul hlimit hop hn hs hb rfl rfl rfl rfl hg

end Entries

lemma Fares.ok_iff {h : Harness σ} {next : Form → σ → σ → Prop} {c : Case} {s : Session σ}
    {accepted : Prop} {usedFallback : Bool} {fs : List Form}
    (hf : h.Fares next c s accepted usedFallback fs) :
    (∃ m t, h.run c s = .ok m t) ↔ accepted := by
  constructor
  · rintro ⟨m, t, hrun⟩
    by_contra hne
    obtain ⟨e, u, herr⟩ := hf.fails hne
    rw [hrun] at herr
    cases herr
  · intro ha
    obtain ⟨m, t, hrun, -⟩ := hf.succeeds ha
    exact ⟨m, t, hrun⟩

lemma Fares.of_ok {h : Harness σ} {next : Form → σ → σ → Prop} {c : Case} {s t : Session σ}
    {m : Measurement} {accepted : Prop} {usedFallback : Bool} {fs : List Form}
    (hf : h.Fares next c s accepted usedFallback fs) (hrun : h.run c s = .ok m t) :
    m.usedFallback = usedFallback ∧ Calls next fs s.backend t.backend := by
  obtain ⟨m', t', hrun', hm, hcalls⟩ := hf.succeeds (hf.ok_iff.mp ⟨m, t, hrun⟩)
  rw [hrun] at hrun'
  cases hrun'
  exact ⟨hm, hcalls⟩

end Harness

/-! ### The plain backend -/

def Record.forms (r : Record) : List Form := r.events.toList.map Event.form

lemma forms_of_calls {σ : Type} {next : Form → σ × Record → σ × Record → Prop} {fs : List Form}
    {s t : σ × Record} (hnext : ∀ f s t, next f s t → Backend.Records f s.2 t.2)
    (h : Calls next fs s t) : t.2.forms = s.2.forms ++ fs := by
  induction h with
  | nil s => rw [List.append_nil]
  | @cons f fs s t u hst _ ih =>
    obtain ⟨e, he, hpush⟩ := hnext f s t hst
    have hforms : t.2.forms = s.2.forms ++ [f] := by
      rw [hpush, Record.forms, Record.push, Array.toList_push, List.map_append, ← he]
      rfl
    rw [ih, hforms, List.append_assoc, List.singleton_append]

namespace Harness

/-- **Acceptance**: a case of the catalog runs to the end exactly if its shapes fit. Then the
fallback is used exactly if the kernel that is run gives a type that the buffer does not have, and
the backend gets the calls that are listed, in that order and no others. -/
theorem run_accepts (op : Operation) (hop : op ∈ Operation.catalog) (d : DType) (g : Geometry)
    (hg : g.operands.length = op.arity) (sched : Schedule) (hwarmup : 0 < sched.warmup)
    (hiterations : 0 < sched.iterations) (clock : Nat → Clock) :
    (∀ s : Session Unit,
      ((∃ m t, (Harness.mk Backend.cpu clock none).run ⟨op, d, g, sched⟩ s = .ok m t) ↔
        op.Accepts d g) ∧
      ∀ m t, (Harness.mk Backend.cpu clock none).run ⟨op, d, g, sched⟩ s = .ok m t →
        m.usedFallback = op.mayDiffer d) ∧
    op.mayDiffer d = (op.buffered && (op.kernelFor d).resultType d != d) ∧
    ∀ s : Session (Unit × Record), s.backend.2.faults = [] →
      ((∃ m t, (Harness.mk Backend.cpu.recording clock none).run ⟨op, d, g, sched⟩ s = .ok m t) ↔
        op.Accepts d g) ∧
      ∀ m t, (Harness.mk Backend.cpu.recording clock none).run ⟨op, d, g, sched⟩ s = .ok m t →
        m.usedFallback = op.mayDiffer d ∧
        t.backend.2.forms =
          s.backend.2.forms ++ op.calls d (sched.warmup + sched.iterations) := by
  have hn : 0 < sched.warmup + sched.iterations := by omega
  -- both parts are one lemma: a recorder without faults answers like the backend inside it
  refine ⟨fun s => ?_, Operation.mayDiffer_eq hop d, fun s hs => ?_⟩
  · have hfares := fares_as_listed (h := ⟨Backend.cpu, clock, none⟩) (s := s) (d := d) rfl hop hn
      trivial Backend.cpu_likeCpu hg
    exact ⟨hfares.ok_iff, fun m t hrun => (hfares.of_ok hrun).1⟩
  · have hfares := fares_as_listed (h := ⟨Backend.cpu.recording, clock, none⟩) (s := s) (d := d) rfl
      hop hn ⟨trivial, hs⟩ (Backend.recording_likeCpu Backend.cpu_likeCpu) hg
    refine ⟨hfares.ok_iff, fun m t hrun => ?_⟩
    obtain ⟨hm, hcalls⟩ := hfares.of_ok hrun
    exact ⟨hm, forms_of_calls (fun _ _ _ h => h.2) hcalls⟩

/-- Integer vectors are divided in new arrays, after one refused call. -/
theorem run_accepts_division :
    ∃ m t, (Harness.mk Backend.cpu.recording (fun _ _ => 0) none).run
        ⟨.binary .div, .int32, .contiguous 4 2, ⟨1, 2⟩⟩ (.start ((), ⟨#[], []⟩)) = .ok m t ∧
      m.usedFallback = true ∧
      t.backend.2.forms = [.buffered, .allocating, .allocating, .allocating] := by
  have hop : Operation.binary .div ∈ Operation.catalog := by
    simp [Operation.catalog, Operation.arithmetic]
  obtain ⟨-, -, hrecorded⟩ := run_accepts (.binary .div) hop .int32 (.contiguous 4 2) rfl ⟨1, 2⟩
    (by decide) (by decide) fun _ _ => 0
  obtain ⟨hiff, hof⟩ := hrecorded (.start ((), ⟨#[], []⟩)) rfl
  have haccepts : (Operation.binary .div).Accepts .int32 (.contiguous 4 2) :=
    ⟨[4], rfl, Or.inl rfl⟩
  obtain ⟨m, t, hrun⟩ := hiff.mpr haccepts
  obtain ⟨hm, hforms⟩ := hof m t hrun
  exact ⟨m, t, hrun, hm, hforms⟩

end Harness

end ArrayBench
