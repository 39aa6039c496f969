import ArrayBench.Proofs.Cpu.Safety

/-!
Failures that leave no trace.

An operation that writes makes all its checks before its first write, so a failure finds the target
as it was. The checks come in an order that lets a caller tell one kind of failure apart: once the
operands agree among themselves, the element type of the target is looked at before any shape of it.
A target is therefore refused for its type whenever its type is wrong and the operands agree, and at
no other time.
-/

namespace ArrayBench

/-! ### Checks that refuse a type -/

def Rejecting {α : Type} (x : Except ArrayError α) : Prop := ∃ e j, x = .error e ∧ Rejects e j

namespace Rejecting

variable {α β : Type}

lemma not_ok (v : α) : ¬ Rejecting (.ok v) := by
  rintro ⟨e, j, h, -⟩
  cases h

lemma not_error {e : ArrayError} (h : ∀ j, ¬ Rejects e j) :
    ¬ Rejecting (.error e : Except ArrayError α) := by
  rintro ⟨e', j, heq, hj⟩
  obtain rfl := Except.error.inj heq
  exact h j hj

lemma of_bind {x : Except ArrayError α} {f : α → Except ArrayError β} (h : Rejecting (x >>= f)) :
    Rejecting x ∨ ∃ v, x = .ok v ∧ Rejecting (f v) := by
  cases x with
  | ok v => exact .inr ⟨v, rfl, h⟩
  | error e =>
    obtain ⟨e', j, heq, hj⟩ := h
    obtain rfl := Except.error.inj heq
    exact .inl ⟨e, j, rfl, hj⟩

lemma ne_of_checkOutputType {r o : DType} (h : Rejecting (checkOutputType r o)) : r ≠ o := by
  rintro rfl
  rw [checkOutputType_eq_ok.mpr rfl] at h
  exact not_ok () h

lemma not_sameType (a b : NdArray) : ¬ Rejecting (Cpu.sameType a b) := by
  unfold Cpu.sameType
  split_ifs
  · exact not_ok _
  · exact not_error nofun

lemma not_checkShape (s t : Shape) : ¬ Rejecting (Cpu.checkShape s t) := by
  unfold Cpu.checkShape
  split_ifs
  · exact not_ok _
  · exact not_error nofun

lemma not_broadcast (s t : Shape) : ¬ Rejecting (Shape.broadcast s t) := by
  unfold Shape.broadcast
  split
  · exact not_ok _
  · exact not_error nofun

lemma not_matmulSizes (a b : NdArray) : ¬ Rejecting (Cpu.matmulSizes a b) := by
  unfold Cpu.matmulSizes
  split
  · split_ifs
    · exact not_ok _
    · exact not_error nofun
  · exact not_error nofun

end Rejecting

/-! ### The checks of a call -/

namespace Call

/-- The operands agree among themselves, as far as a call looks at them before its target. -/
def OperandsAgree : Call → Prop
  | binary _ a b => a.dtype = b.dtype
  | scalar _ _ _ => True
  | unary _ _ => True
  | matmul a b => a.dtype = b.dtype ∧ ∃ m k n, a.shape = [m, k] ∧ b.shape = [k, n]

def resultType : Call → DType
  | binary op a _ => op.resultType a.dtype
  | scalar op a _ => op.resultType a.dtype
  | unary op a => op.resultType a.dtype
  | matmul a _ => a.dtype

/-- Operands that agree leave it to the type of the target, whatever the shapes are. -/
lemma checks_of_agree {c : Call} {out : NdArray} {e : ArrayError} (h : c.OperandsAgree)
    (he : checkOutputType c.resultType out.dtype = .error e) : c.checks out = .error e := by
  -- the checks before the one of the type are those of the operands, and they pass
  cases c with
  | binary op a b =>
    have htype : checkOutputType (op.resultType a.dtype) out.dtype = .error e := he
    rw [checks, Cpu.sameType_eq_ok.mpr ⟨h, rfl⟩, exceptOk_bind, htype, exceptError_bind]
  | scalar op a s =>
    have htype : checkOutputType (op.resultType a.dtype) out.dtype = .error e := he
    rw [checks, htype, exceptError_bind]
  | unary op a =>
    have htype : checkOutputType (op.resultType a.dtype) out.dtype = .error e := he
    rw [checks, htype, exceptError_bind]
  | matmul a b =>
    have htype : checkOutputType a.dtype out.dtype = .error e := he
    obtain ⟨hab, m, k, n, ha, hb⟩ := h
    rw [checks, Cpu.sameType_eq_ok.mpr ⟨hab, rfl⟩, exceptOk_bind,
      Cpu.matmulSizes_eq_ok.mpr ⟨ha, hb⟩, exceptOk_bind]
    simp only [htype, exceptError_bind]

lemma agree_of_rejecting {c : Call} {out : NdArray} (h : Rejecting (c.checks out)) :
    c.OperandsAgree ∧ c.resultType ≠ out.dtype := by
  -- only the check of the target refuses it for its type; all checks before it have passed
  cases c with
  | binary op a b =>
    obtain h | ⟨d, hd, h⟩ := h.of_bind
    · exact absurd h (Rejecting.not_sameType a b)
    obtain ⟨hab, rfl⟩ := Cpu.sameType_eq_ok.mp hd
    obtain h | ⟨-, -, h⟩ := h.of_bind
    · exact ⟨hab, h.ne_of_checkOutputType⟩
    obtain h | ⟨s, -, h⟩ := h.of_bind
    · exact absurd h (Rejecting.not_broadcast _ _)
    · exact absurd h (Rejecting.not_checkShape _ _)
  | scalar op a s =>
    obtain h | ⟨-, -, h⟩ := h.of_bind
    · exact ⟨trivial, h.ne_of_checkOutputType⟩
    · exact absurd h (Rejecting.not_checkShape _ _)
  | unary op a =>
    obtain h | ⟨-, -, h⟩ := h.of_bind
    · exact ⟨trivial, h.ne_of_checkOutputType⟩
    · exact absurd h (Rejecting.not_checkShape _ _)
  | matmul a b =>
    obtain h | ⟨d, hd, h⟩ := h.of_bind
    · exact absurd h (Rejecting.not_sameType a b)
    obtain ⟨hab, rfl⟩ := Cpu.sameType_eq_ok.mp hd
    obtain h | ⟨⟨m, k, n⟩, hsizes, h⟩ := h.of_bind
    · exact absurd h (Rejecting.not_matmulSizes a b)
    obtain h | ⟨-, -, h⟩ := h.of_bind
    · exact ⟨⟨hab, m, k, n, Cpu.matmulSizes_eq_ok.mp hsizes⟩, h.ne_of_checkOutputType⟩
    · exact absurd h (Rejecting.not_checkShape _ _)

lemma rejecting_iff {c : Call} {out : NdArray} :
    Rejecting (c.checks out) ↔ c.OperandsAgree ∧ c.resultType ≠ out.dtype := by
  constructor
  · exact agree_of_rejecting
  · rintro ⟨hagree, hne⟩
    obtain ⟨e, j, he, hj⟩ := checkOutputType_rejects hne
    exact ⟨e, j, checks_of_agree hagree he, hj⟩

end Call

namespace Cpu

open NdArray (Settles)

/-- A target is written as a whole or not at all, and it is known when it is refused for its type.
The operands of the update agree among themselves if `agree` holds, and the result is to have
elements of type `result`. -/
structure Atomic (u : Update) (agree : Prop) (result : DType) (out : NdArray) : Prop where
  /-- The storage, the element type and the layout are those from before. -/
  unchanged : ∀ e b, u out = .error e b → b = out
  rejected : (∃ e b j, u out = .error e b ∧ Rejects e j) ↔ agree ∧ result ≠ out.dtype
  /-- The error tells both types, and whether the result could have been cast without loss. -/
  named : agree → ∀ e, checkOutputType result out.dtype = .error e → u out = .error e out

lemma atomic_of_settles {u : Update} {check : Except ArrayError Unit} {agree : Prop}
    {result : DType} {out : NdArray} (h : Settles u check out)
    (hrejecting : Rejecting check ↔ agree ∧ result ≠ out.dtype)
    (hagree : agree → ∀ e, checkOutputType result out.dtype = .error e → check = .error e) :
    Atomic u agree result out := by
  -- a target whose checks pass is written to the end, so that there is no failure to tell of
  cases check with
  | ok v =>
    obtain ⟨b, hb, -, -⟩ := h
    refine ⟨fun e b' hb' => ?_, ?_, fun hag e he => ?_⟩
    · rw [hb] at hb'
      cases hb'
    · rw [← hrejecting]
      refine iff_of_false ?_ (Rejecting.not_ok v)
      rintro ⟨e, b', j, hb', -⟩
      rw [hb] at hb'
      cases hb'
    · cases hagree hag e he
  | error e =>
    obtain ⟨-, hu⟩ := h
    refine ⟨fun e' b hb => ?_, ?_, fun hag e' he => ?_⟩
    · rw [hu] at hb
      exact (EStateM.Result.error.inj hb).2.symm
    · rw [← hrejecting]
      constructor
      · rintro ⟨e', b, j, hb, hj⟩
        rw [hu] at hb
        obtain ⟨rfl, -⟩ := EStateM.Result.error.inj hb
        exact ⟨e, j, rfl, hj⟩
      · rintro ⟨e', j, heq, hj⟩
        obtain rfl := Except.error.inj heq
        exact ⟨e, out, j, hu, hj⟩
    · obtain rfl := Except.error.inj (hagree hag e' he)
      exact hu

structure FailsAtomically : Prop where
  computeInto : ∀ (c : Call) (out : NdArray), c.WellFormed → out.WellFormed →
    Atomic (computeInto c) c.OperandsAgree c.resultType out
  change : ∀ (ch : Change) (a : NdArray), ch.WellFormed → a.WellFormed →
    Atomic (change ch) (ch.call a).OperandsAgree (ch.call a).resultType a

/-- **Failures leave no trace**: a failed operation has written nothing, and a failure for the type
of the target tells that the operands agree and the target has another type than the result. -/
theorem fails_atomically : FailsAtomically where
  computeInto c out hc ho :=
    atomic_of_settles (computeInto_settles hc ho) Call.rejecting_iff
      fun h _ => Call.checks_of_agree h
  change ch a hch ha := by
    have hsettles := change_settles hch ha
    rw [Change.checks_eq] at hsettles
    exact atomic_of_settles hsettles Call.rejecting_iff fun h _ => Call.checks_of_agree h

/-- Quotients of integers into a buffer of integers of another shape: the type is refused. -/
example : computeInto (.binary .div (.ones [2] .int32) (.ones [3] .int32)) (.empty [4] .int32) =
    .error (.unsafeOutputCast .float64 .int32) (.empty [4] .int32) := rfl

end Cpu

end ArrayBench
