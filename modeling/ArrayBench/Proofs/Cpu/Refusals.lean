import ArrayBench.Bench.Error
import ArrayBench.Proofs.Cpu.Checks

/-!
How requests are refused.

The errors of array operations fall into two kinds. A refusal tells the caller why the request makes
no sense. The others tell of a position or a size out of bounds, or come from elsewhere. The checks
that an operation makes before its work give refusals only.
-/

namespace ArrayBench

/-- An error that tells the caller why a request makes no sense. The others tell of a position or a
size that is out of bounds, or do not come from array operations at all. -/
def ArrayError.IsRefusal : ArrayError → Prop
  | shapeMismatch _ _ | dtypeMismatch _ _ | invalidAxis _ _ | broadcast _ _ | matmulMismatch _ _ _ _
  | resultTypeMismatch _ _ | unsafeOutputCast _ _ | matmulRank _ _ => True
  | storageTooSmall _ _ _ | noBufferedForm | outOfRange _ _ | tooLarge _ | other _ => False

inductive Rejects : ArrayError → Rejection → Prop
  | resultType (r o : DType) : Rejects (.resultTypeMismatch r o) .resultType
  | lossyCast (r o : DType) : Rejects (.unsafeOutputCast r o) .lossyCast

lemma Rejection.of?_eq_some {e : ArrayError} {r : Rejection} :
    Rejection.of? e = some r ↔ Rejects e r := by
  constructor
  · intro h
    unfold Rejection.of? at h
    split at h
    · obtain rfl := Option.some.inj h
      exact .resultType _ _
    · obtain rfl := Option.some.inj h
      exact .lossyCast _ _
    · cases h
  · rintro (_ | _) <;> rfl

lemma Rejection.of?_eq_none {e : ArrayError} (h : ∀ r, ¬ Rejects e r) : Rejection.of? e = none := by
  cases hr : Rejection.of? e with
  | none => rfl
  | some r => exact absurd (of?_eq_some.mp hr) (h r)

lemma checkOutputType_rejects {r o : DType} (h : r ≠ o) :
    ∃ e j, checkOutputType r o = .error e ∧ Rejects e j := by
  unfold checkOutputType
  rw [if_neg h]
  split
  · exact ⟨_, _, rfl, .resultType r o⟩
  · exact ⟨_, _, rfl, .lossyCast r o⟩

def Refuses {α : Type} (x : Except ArrayError α) : Prop := ∀ e, x = .error e → e.IsRefusal

namespace Refuses

variable {α β : Type}

lemma ok (v : α) : Refuses (.ok v : Except ArrayError α) := fun _ h => by cases h

lemma error {e : ArrayError} (h : e.IsRefusal) : Refuses (.error e : Except ArrayError α) := by
  rintro e' ⟨⟩
  exact h

lemma bind {x : Except ArrayError α} {f : α → Except ArrayError β} (hx : Refuses x)
    (hf : ∀ v, Refuses (f v)) : Refuses (x >>= f) := by
  cases x with
  | ok v => exact hf v
  | error e => exact error (hx e rfl)

lemma checkOutputType (r o : DType) : Refuses (checkOutputType r o) := by
  unfold ArrayBench.checkOutputType
  split_ifs
  · exact ok _
  · exact error trivial
  · exact error trivial

lemma sameType (a b : NdArray) : Refuses (Cpu.sameType a b) := by
  unfold Cpu.sameType
  split_ifs
  · exact ok _
  · exact error trivial

lemma checkShape (s t : Shape) : Refuses (Cpu.checkShape s t) := by
  unfold Cpu.checkShape
  split_ifs
  · exact ok _
  · exact error trivial

lemma broadcast (s t : Shape) : Refuses (Shape.broadcast s t) := by
  unfold Shape.broadcast
  split
  · exact ok _
  · exact error trivial

lemma matmulSizes (a b : NdArray) : Refuses (Cpu.matmulSizes a b) := by
  unfold Cpu.matmulSizes
  split
  · split_ifs
    · exact ok _
    · exact error trivial
  · exact error trivial

lemma callChecks (c : Call) (out : NdArray) : Refuses (c.checks out) := by
  cases c with
  | binary op a b =>
    refine (sameType a b).bind fun d => (checkOutputType _ _).bind fun _ => ?_
    exact (broadcast _ _).bind fun s => checkShape _ _
  | scalar op a s => exact (checkOutputType _ _).bind fun _ => checkShape _ _
  | unary op a => exact (checkOutputType _ _).bind fun _ => checkShape _ _
  | matmul a b =>
    refine (sameType a b).bind fun d => (matmulSizes a b).bind fun s => ?_
    exact (checkOutputType _ _).bind fun _ => checkShape _ _

lemma changeChecks (ch : Change) (a : NdArray) : Refuses (ch.checks a) := by
  cases ch with
  | binary op b =>
    refine (sameType a b).bind fun d => (checkOutputType _ _).bind fun _ => ?_
    exact (broadcast _ _).bind fun s => checkShape _ _
  | scalar op s => exact checkOutputType _ _
  | unary op => exact checkOutputType _ _

lemma outline (c : Call) : Refuses c.outline := by
  cases c with
  | binary op a b =>
    exact (sameType a b).bind fun d => (broadcast _ _).bind fun s => ok _
  | scalar op a s => exact ok _
  | unary op a => exact ok _
  | matmul a b =>
    exact (sameType a b).bind fun d => (matmulSizes a b).bind fun s => ok _

end Refuses

end ArrayBench
