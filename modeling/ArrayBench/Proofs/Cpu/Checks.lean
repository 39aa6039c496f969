import Mathlib.Tactic.SplitIfs
import ArrayBench.Backend.Bounded
import ArrayBench.Proofs.Step

/-!
The checks that come before the work.

A call in the buffered form and a change in place check their operands against each other and
against the array to be written, in an order of their own, and only then write. The allocating form
is the buffered one on a new array of the outlined shape and type, which passes the checks on the
target whatever the operands are.
-/

namespace ArrayBench

lemma checkOutputType_eq_ok {r o : DType} {u : Unit} : checkOutputType r o = .ok u ↔ r = o := by
  unfold checkOutputType
  split_ifs <;> simp_all

namespace Cpu

lemma sameType_eq_ok {a b : NdArray} {d : DType} :
    sameType a b = .ok d ↔ a.dtype = b.dtype ∧ a.dtype = d := by
  unfold sameType
  split_ifs with h <;> simp [h]

lemma checkShape_eq_ok {s t : Shape} {u : Unit} : checkShape s t = .ok u ↔ t = s := by
  unfold checkShape
  split_ifs with h <;> simp [h]

lemma matmulSizes_eq_ok {a b : NdArray} {m k n : Nat} :
    matmulSizes a b = .ok (m, k, n) ↔ a.shape = [m, k] ∧ b.shape = [k, n] := by
  unfold matmulSizes
  constructor
  · intro h
    split at h
    · rename_i ha hb
      split_ifs at h with hk
      simp_all
    · simp at h
  · rintro ⟨ha, hb⟩
    simp [ha, hb]

end Cpu

namespace Call

def operands : Call → List NdArray
  | binary _ a b => [a, b]
  | scalar _ a _ => [a]
  | unary _ a => [a]
  | matmul a b => [a, b]

def WellFormed (c : Call) : Prop := ∀ a ∈ c.operands, a.WellFormed

@[simp] lemma wellFormed_binary {op : BinaryOp} {a b : NdArray} :
    (binary op a b).WellFormed ↔ a.WellFormed ∧ b.WellFormed := by simp [WellFormed, operands]

@[simp] lemma wellFormed_scalar {op : BinaryOp} {a : NdArray} {s : Scalar} :
    (scalar op a s).WellFormed ↔ a.WellFormed := by simp [WellFormed, operands]

@[simp] lemma wellFormed_unary {op : UnaryOp} {a : NdArray} :
    (unary op a).WellFormed ↔ a.WellFormed := by simp [WellFormed, operands]

@[simp] lemma wellFormed_matmul {a b : NdArray} :
    (matmul a b).WellFormed ↔ a.WellFormed ∧ b.WellFormed := by simp [WellFormed, operands]

/-- The checks of a call that writes its result into `out`. -/
def checks (out : NdArray) : Call → Except ArrayError Unit
  | binary op a b => do
    let d ← Cpu.sameType a b
    checkOutputType (op.resultType d) out.dtype
    let shape ← Shape.broadcast a.shape b.shape
    Cpu.checkShape shape out.shape
  | scalar op a _ => do
    checkOutputType (op.resultType a.dtype) out.dtype
    Cpu.checkShape a.shape out.shape
  | unary op a => do
    checkOutputType (op.resultType a.dtype) out.dtype
    Cpu.checkShape a.shape out.shape
  | matmul a b => do
    let d ← Cpu.sameType a b
    let (m, _, n) ← Cpu.matmulSizes a b
    checkOutputType d out.dtype
    Cpu.checkShape [m, n] out.shape

lemma checks_congr (c : Call) {a b : NdArray} (hd : a.dtype = b.dtype) (hs : a.shape = b.shape) :
    c.checks a = c.checks b := by
  cases c <;> simp only [checks, hd, hs]

lemma checks_binary {op : BinaryOp} {a b out : NdArray} :
    (binary op a b).checks out = .ok () ↔ a.dtype = b.dtype ∧ op.resultType a.dtype = out.dtype ∧
      Shape.broadcast a.shape b.shape = .ok out.shape := by
  simp only [checks, exceptBind_eq_ok, Cpu.sameType_eq_ok, checkOutputType_eq_ok,
    Cpu.checkShape_eq_ok]
  constructor
  · rintro ⟨d, ⟨hab, rfl⟩, -, hr, t, ht, hs⟩
    exact ⟨hab, hr, hs ▸ ht⟩
  · rintro ⟨hab, hr, ht⟩
    exact ⟨_, ⟨hab, rfl⟩, (), hr, _, ht, rfl⟩

lemma checks_scalar {op : BinaryOp} {a out : NdArray} {s : Scalar} :
    (scalar op a s).checks out = .ok () ↔
      op.resultType a.dtype = out.dtype ∧ out.shape = a.shape := by
  simp [checks, exceptBind_eq_ok, checkOutputType_eq_ok, Cpu.checkShape_eq_ok]

lemma checks_unary {op : UnaryOp} {a out : NdArray} :
    (unary op a).checks out = .ok () ↔
      op.resultType a.dtype = out.dtype ∧ out.shape = a.shape := by
  simp [checks, exceptBind_eq_ok, checkOutputType_eq_ok, Cpu.checkShape_eq_ok]

lemma checks_matmul {a b out : NdArray} :
    (matmul a b).checks out = .ok () ↔ a.dtype = b.dtype ∧ a.dtype = out.dtype ∧
      ∃ m k n, a.shape = [m, k] ∧ b.shape = [k, n] ∧ out.shape = [m, n] := by
  simp only [checks, exceptBind_eq_ok, Cpu.sameType_eq_ok, checkOutputType_eq_ok,
    Cpu.checkShape_eq_ok, Prod.exists, Cpu.matmulSizes_eq_ok]
  constructor
  · rintro ⟨d, ⟨hab, rfl⟩, m, k, n, ⟨ha, hb⟩, -, hr, hs⟩
    exact ⟨hab, hr, m, k, n, ha, hb, hs⟩
  · rintro ⟨hab, hr, m, k, n, ha, hb, hs⟩
    exact ⟨_, ⟨hab, rfl⟩, m, k, n, ⟨ha, hb⟩, (), hr, hs⟩

lemma outline_binary {op : BinaryOp} {a b : NdArray} :
    (∃ o, (binary op a b).outline = .ok o) ↔
      a.dtype = b.dtype ∧ ∃ t, Shape.broadcast a.shape b.shape = .ok t := by
  simp only [outline, exceptBind_eq_ok, Cpu.sameType_eq_ok]
  constructor
  · rintro ⟨o, d, ⟨hab, -⟩, t, ht, -⟩
    exact ⟨hab, t, ht⟩
  · rintro ⟨hab, t, ht⟩
    exact ⟨_, _, ⟨hab, rfl⟩, t, ht, rfl⟩

/-- A new array of the outlined shape and type passes the checks. -/
lemma checks_of_outline {c : Call} {s : Shape} {d : DType} (h : c.outline = .ok (s, d))
    {out : NdArray} (hs : out.shape = s) (hd : out.dtype = d) : c.checks out = .ok () := by
  subst hs hd
  cases c with
  | binary op a b =>
    simp only [outline, exceptBind_eq_ok, Cpu.sameType_eq_ok, pure, Except.pure, Except.ok.injEq,
      Prod.mk.injEq] at h
    obtain ⟨d, ⟨hab, rfl⟩, t, ht, rfl, hr⟩ := h
    exact checks_binary.mpr ⟨hab, hr, ht⟩
  | scalar op a v =>
    simp only [outline, Except.ok.injEq, Prod.mk.injEq] at h
    exact checks_scalar.mpr ⟨h.2, h.1.symm⟩
  | unary op a =>
    simp only [outline, Except.ok.injEq, Prod.mk.injEq] at h
    exact checks_unary.mpr ⟨h.2, h.1.symm⟩
  | matmul a b =>
    simp only [outline, exceptBind_eq_ok, Cpu.sameType_eq_ok, pure, Except.pure, Except.ok.injEq,
      Prod.mk.injEq, Prod.exists, Cpu.matmulSizes_eq_ok] at h
    obtain ⟨d, ⟨hab, rfl⟩, m, k, n, ⟨ha, hb⟩, hs, hd⟩ := h
    exact checks_matmul.mpr ⟨hab, hd, m, k, n, ha, hb, hs.symm⟩

/-- A target passes the checks exactly if it has the shape and the type of the result. -/
lemma checks_eq_ok {c : Call} {out : NdArray} :
    c.checks out = .ok () ↔ c.outline = .ok (out.shape, out.dtype) := by
  constructor
  · intro h
    cases c with
    | binary op a b =>
      obtain ⟨hab, hr, ht⟩ := checks_binary.mp h
      simp only [outline, Cpu.sameType_eq_ok.mpr ⟨hab, rfl⟩, exceptOk_bind, ht, hr]
      rfl
    | scalar op a s =>
      obtain ⟨hr, hs⟩ := checks_scalar.mp h
      rw [outline, hr, hs]
    | unary op a =>
      obtain ⟨hr, hs⟩ := checks_unary.mp h
      rw [outline, hr, hs]
    | matmul a b =>
      obtain ⟨hab, hr, m, k, n, ha, hb, hs⟩ := checks_matmul.mp h
      simp only [outline, Cpu.sameType_eq_ok.mpr ⟨hab, rfl⟩, exceptOk_bind,
        Cpu.matmulSizes_eq_ok.mpr ⟨ha, hb⟩, hr, hs]
      rfl
  · intro h
    exact checks_of_outline h rfl rfl

end Call

namespace Change

def operands : Change → List NdArray
  | binary _ b => [b]
  | scalar _ _ => []
  | unary _ => []

def WellFormed (ch : Change) : Prop := ∀ a ∈ ch.operands, a.WellFormed

@[simp] lemma wellFormed_binary {op : BinaryOp} {b : NdArray} :
    (binary op b).WellFormed ↔ b.WellFormed := by simp [WellFormed, operands]

@[simp] lemma wellFormed_scalar (op : BinaryOp) (s : Scalar) : (scalar op s).WellFormed := by
  simp [WellFormed, operands]

@[simp] lemma wellFormed_unary (op : UnaryOp) : (unary op).WellFormed := by
  simp [WellFormed, operands]

/-- The checks of a change of `a`. -/
def checks (a : NdArray) : Change → Except ArrayError Unit
  | binary op b => do
    let d ← Cpu.sameType a b
    checkOutputType (op.resultType d) d
    let shape ← Shape.broadcast a.shape b.shape
    Cpu.checkShape shape a.shape
  | scalar op _ => checkOutputType (op.resultType a.dtype) a.dtype
  | unary op => checkOutputType (op.resultType a.dtype) a.dtype

lemma checks_congr (ch : Change) {a b : NdArray} (hd : a.dtype = b.dtype)
    (hs : a.shape = b.shape) : ch.checks a = ch.checks b := by
  cases ch <;> simp only [checks, Cpu.sameType, hd, hs]

lemma outline_call_congr (ch : Change) {a b : NdArray} (hd : a.dtype = b.dtype)
    (hs : a.shape = b.shape) : (ch.call a).outline = (ch.call b).outline := by
  cases ch <;> simp only [call, Call.outline, Cpu.sameType, hd, hs]

lemma checks_binary {op : BinaryOp} {a b : NdArray} :
    (binary op b).checks a = .ok () ↔ a.dtype = b.dtype ∧ op.resultType a.dtype = a.dtype ∧
      Shape.broadcast a.shape b.shape = .ok a.shape := by
  simp only [checks, exceptBind_eq_ok, Cpu.sameType_eq_ok, checkOutputType_eq_ok,
    Cpu.checkShape_eq_ok]
  constructor
  · rintro ⟨d, ⟨hab, rfl⟩, -, hr, t, ht, hs⟩
    exact ⟨hab, hr, hs ▸ ht⟩
  · rintro ⟨hab, hr, ht⟩
    exact ⟨_, ⟨hab, rfl⟩, (), hr, _, ht, rfl⟩

lemma checks_scalar {op : BinaryOp} {a : NdArray} {s : Scalar} :
    (scalar op s).checks a = .ok () ↔ op.resultType a.dtype = a.dtype := checkOutputType_eq_ok

lemma checks_unary {op : UnaryOp} {a : NdArray} :
    (unary op).checks a = .ok () ↔ op.resultType a.dtype = a.dtype := checkOutputType_eq_ok

lemma checkOutputType_bind_checkShape (r o : DType) (s : Shape) :
    (checkOutputType r o >>= fun _ => Cpu.checkShape s s) = checkOutputType r o := by
  have hshape : Cpu.checkShape s s = .ok () := Cpu.checkShape_eq_ok.mpr rfl
  cases h : checkOutputType r o with
  | ok u => rw [exceptOk_bind, hshape]
  | error e => rfl

lemma checks_eq (ch : Change) (a : NdArray) : ch.checks a = (ch.call a).checks a := by
  cases ch with
  | binary op b =>
    cases h : Cpu.sameType a b with
    | ok d =>
      obtain ⟨-, rfl⟩ := Cpu.sameType_eq_ok.mp h
      simp only [checks, call, Call.checks, h, exceptOk_bind]
    | error e => simp only [checks, call, Call.checks, h, exceptError_bind]
  | scalar op s => exact (checkOutputType_bind_checkShape _ _ a.shape).symm
  | unary op => exact (checkOutputType_bind_checkShape _ _ a.shape).symm

end Change

namespace Cpu

/-- The allocating form is the buffered form on a new array. -/
lemma compute_eq (c : Call) :
    compute c = c.outline >>= fun o => (NdArray.empty o.1 o.2).updated (computeInto c) := by
  cases c with
  | binary op a b => simp only [compute, binary, computeInto, Call.outline, bind_assoc, pure_bind]
  | scalar op a s => rfl
  | unary op a => rfl
  | matmul a b => simp only [compute, matmul, computeInto, Call.outline, bind_assoc, pure_bind]

lemma computeInto_of_refused {c : Call} {out : NdArray} {e : ArrayError}
    (h : c.checks out = .error e) : computeInto c out = .error e out := by
  cases c with
  | binary op a b =>
    refine Step.refused_bind h fun d h => ?_
    refine Step.refused_bind h fun _ h => ?_
    refine Step.refused_bind h fun s h => ?_
    exact Step.refused h _ _
  | scalar op a s =>
    refine Step.refused_bind h fun _ h => ?_
    exact Step.refused h _ _
  | unary op a =>
    refine Step.refused_bind h fun _ h => ?_
    exact Step.refused h _ _
  | matmul a b =>
    refine Step.refused_bind h fun d h => ?_
    refine Step.refused_bind h fun s h => ?_
    refine Step.refused_bind h fun _ h => ?_
    exact Step.refused h _ _

lemma change_of_refused {ch : Change} {a : NdArray} {e : ArrayError}
    (h : ch.checks a = .error e) : change ch a = .error e a := by
  cases ch with
  | binary op b =>
    refine Step.refused_bind h fun d h => ?_
    refine Step.refused_bind h fun _ h => ?_
    refine Step.refused_bind h fun s h => ?_
    exact Step.refused h _ _
  | scalar op s => exact Step.refused h _ _
  | unary op => exact Step.refused h _ _

end Cpu

end ArrayBench
