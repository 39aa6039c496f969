import ArrayBench.Proofs.Cpu.Safety

/-!
Arrays that read the same.

Two arrays are alike if they have the same type, the same shape and the same elements in row-major
order. They may lie in storage in different ways. Where no two elements of a target share a
position, the same edits keep arrays alike, and alike operands get the same checks.
-/

namespace ArrayBench

open Edit (each place)
open Buffer (Edited)

/-! ### Arrays that read the same -/

namespace Layout

/-- Two layouts over buffers that hold all their elements and show the same ones. -/
structure Agree {α : Type} [Inhabited α] (x : Buffer α) (l : Layout) (x' : Buffer α) (l' : Layout) :
    Prop where
  shape : l.shape = l'.shape
  elemAt : ∀ ix ∈ l.shape.indices, l.elemAt x ix = l'.elemAt x' ix
  left : l.Within x.size
  right : l'.Within x'.size

/-- Where no two elements share a position, an edit at an index changes the element there and no
other one. -/
lemma elemAt_edited {α : Type} [Inhabited α] {l : Layout} {x y : Buffer α}
    {es : List (Edit (List Nat) α)} (h : Edited (place l.offsetAt es) x y)
    (hn : l.offsets.Nodup) (hes : ∀ e ∈ es, e.1 ∈ l.shape.indices) (hx : l.Within x.size)
    {ix : List Nat} (hix : ix ∈ l.shape.indices) :
    l.elemAt y ix = Edit.effect es ix (l.elemAt x ix) := by
  rw [offsets_eq] at hn
  have heffect : Edit.effect (place l.offsetAt es) (l.offsetAt ix) (l.elemAt x ix) =
      Edit.effect es ix (l.elemAt x ix) :=
    Edit.effect_place (fun e he heq => List.inj_on_of_nodup_map hn (hes e he) hix heq) _
  rw [elemAt, h.get, get?_offsetAt hx hix, Option.map_some, Option.getD_some, heffect]

end Layout

namespace NdArray

open Layout (Agree)

/-- Arrays that cannot be told apart by their types, their shapes and their elements. -/
structure Alike (a b : NdArray) : Prop where
  dtype : a.dtype = b.dtype
  shape : a.shape = b.shape
  elems : ∀ d, a.toElems d = b.toElems d

lemma Alike.refl (a : NdArray) : a.Alike a := ⟨rfl, rfl, fun _ => rfl⟩

lemma Alike.symm {a b : NdArray} (h : a.Alike b) : b.Alike a :=
  ⟨h.dtype.symm, h.shape.symm, fun d => (h.elems d).symm⟩

lemma Alike.trans {a b c : NdArray} (h : a.Alike b) (h' : b.Alike c) : a.Alike c :=
  ⟨h.dtype.trans h'.dtype, h.shape.trans h'.shape, fun d => (h.elems d).trans (h'.elems d)⟩

lemma Alike.exists_agree {a a' : NdArray} (h : a.Alike a') (ha : a.WellFormed)
    (ha' : a'.WellFormed) : ∃ (d : DType) (x x' : Buffer d.Elem) (l l' : Layout),
      a = laid x l ∧ a' = laid x' l' ∧ Agree x l x' l' := by
  obtain ⟨⟨d, x⟩, l⟩ := a
  obtain ⟨⟨d', x'⟩, l'⟩ := a'
  obtain rfl : d = d' := h.dtype
  have hshape : l.shape = l'.shape := h.shape
  have helems : (laid x l).toElems d = (laid x' l').toElems d := h.elems d
  rw [toElems_laid ha.within, toElems_laid ha'.within, ← hshape] at helems
  have helemAt := List.map_inj_left.mp (Except.ok.inj helems)
  exact ⟨d, x, x', l, l', rfl, rfl, hshape, helemAt, ha.within, ha'.within⟩

variable {d : DType} {x x' : Buffer d.Elem} {l l' : Layout}

lemma alike_of_agree (h : Agree x l x' l') : (laid x l).Alike (laid x' l') := by
  refine ⟨rfl, h.shape, fun e => ?_⟩
  by_cases he : d = e
  · subst he
    rw [toElems_laid h.left, toElems_laid h.right, ← h.shape, List.map_inj_left.mpr h.elemAt]
  · have hleft : (laid x l).toElems e = .error (.dtypeMismatch e d) := toElems_of_ne he
    have hright : (laid x' l').toElems e = .error (.dtypeMismatch e d) := toElems_of_ne he
    rw [hleft, hright]

/-- Where no two elements share a position, arrays are alike once edits have made the same of their
elements. -/
lemma alike_of_edited {y y' : Buffer d.Elem} {es es' : List (Edit (List Nat) d.Elem)}
    (h : Edited (place l.offsetAt es) x y) (h' : Edited (place l'.offsetAt es') x' y')
    (hs : l.shape = l'.shape) (hes : ∀ e ∈ es, e.1 ∈ l.shape.indices)
    (hes' : ∀ e ∈ es', e.1 ∈ l'.shape.indices) (hx : l.Within x.size) (hx' : l'.Within x'.size)
    (hn : l.offsets.Nodup) (hn' : l'.offsets.Nodup)
    (heffect : ∀ ix ∈ l.shape.indices,
      Edit.effect es ix (l.elemAt x ix) = Edit.effect es' ix (l'.elemAt x' ix)) :
    (laid y l).Alike (laid y' l') := by
  refine alike_of_agree ⟨hs, fun ix hix => ?_, by rwa [h.size], by rwa [h'.size]⟩
  rw [Layout.elemAt_edited h hn hes hx hix, heffect ix hix,
    Layout.elemAt_edited h' hn' hes' hx' (hs ▸ hix)]

/-! ### Outcomes -/

/-- The same refusal, or arrays that are alike. -/
def SameAnswer : Except ArrayError NdArray → Except ArrayError NdArray → Prop
  | .ok r, .ok r' => r.Alike r'
  | .error e, .error e' => e = e'
  | _, _ => False

/-- The same success or refusal, and in either case alike arrays are left behind. -/
def SameOutcome : EStateM.Result ArrayError NdArray Unit →
    EStateM.Result ArrayError NdArray Unit → Prop
  | .ok _ b, .ok _ b' => b.Alike b'
  | .error e b, .error e' b' => e = e' ∧ b.Alike b'
  | _, _ => False

lemma SameOutcome.updated {u u' : Update} {a a' : NdArray} (h : SameOutcome (u a) (u' a')) :
    SameAnswer (a.updated u) (a'.updated u') := by
  unfold NdArray.updated
  cases hu : u a with
  | ok v b =>
    cases hu' : u' a' with
    | ok v' b' =>
      rw [hu, hu'] at h
      exact h
    | error e' b' =>
      rw [hu, hu'] at h
      exact h
  | error e b =>
    cases hu' : u' a' with
    | ok v' b' =>
      rw [hu, hu'] at h
      exact h
    | error e' b' =>
      rw [hu, hu'] at h
      exact h.1

lemma Writes.sameOutcome {u u' : Update} {es : List (Edit (List Nat) d.Elem)}
    (h : Writes u x l es) (h' : Writes u' x' l' es) (hes : ∀ e ∈ es, e.1 ∈ l.shape.indices)
    (hg : Agree x l x' l') (hn : l.offsets.Nodup) (hn' : l'.offsets.Nodup) :
    SameOutcome (u (laid x l)) (u' (laid x' l')) := by
  obtain ⟨y, hy, hxy⟩ := h
  obtain ⟨y', hy', hxy'⟩ := h'
  rw [hy, hy']
  exact alike_of_edited hxy hxy' hg.shape hes (hg.shape ▸ hes) hg.left hg.right hn hn'
    fun ix hix => by rw [hg.elemAt ix hix]

lemma Writes.sameOutcome_each {u u' : Update} {g g' : List Nat → d.Elem → d.Elem}
    (h : Writes u x l (each l.shape.indices g)) (h' : Writes u' x' l' (each l'.shape.indices g'))
    (hg : Agree x l x' l') (hn : l.offsets.Nodup) (hn' : l'.offsets.Nodup)
    (hgg : ∀ ix ∈ l.shape.indices, g ix = g' ix) :
    SameOutcome (u (laid x l)) (u' (laid x' l')) := by
  rw [← hg.shape, ← Edit.each_congr hgg] at h'
  exact h.sameOutcome h' (fun _ => Edit.mem_each) hg hn hn'

end NdArray

/-! ### Calls with alike operands -/

inductive Call.Alike : Call → Call → Prop
  | binary (op : BinaryOp) {a a' b b' : NdArray} (ha : a.Alike a') (hb : b.Alike b') :
    Call.Alike (.binary op a b) (.binary op a' b')
  | scalar (op : BinaryOp) {a a' : NdArray} (s : Scalar) (ha : a.Alike a') :
    Call.Alike (.scalar op a s) (.scalar op a' s)
  | unary (op : UnaryOp) {a a' : NdArray} (ha : a.Alike a') :
    Call.Alike (.unary op a) (.unary op a')
  | matmul {a a' b b' : NdArray} (ha : a.Alike a') (hb : b.Alike b') :
    Call.Alike (.matmul a b) (.matmul a' b')

inductive Change.Alike : Change → Change → Prop
  | binary (op : BinaryOp) {b b' : NdArray} (hb : b.Alike b') :
    Change.Alike (.binary op b) (.binary op b')
  | scalar (op : BinaryOp) (s : Scalar) : Change.Alike (.scalar op s) (.scalar op s)
  | unary (op : UnaryOp) : Change.Alike (.unary op) (.unary op)

lemma Change.call_alike (ch : Change) {a a' : NdArray} (h : a.Alike a') :
    (ch.call a).Alike (ch.call a') := by
  cases ch with
  | binary op b => exact .binary op h (.refl b)
  | scalar op s => exact .scalar op s h
  | unary op => exact .unary op h

lemma Call.Alike.outline {c c' : Call} (h : c.Alike c') : c.outline = c'.outline := by
  cases h with
  | binary op ha hb =>
    simp only [Call.outline, Cpu.sameType, ha.dtype, hb.dtype, ha.shape, hb.shape]
  | scalar op s ha => simp only [Call.outline, ha.dtype, ha.shape]
  | unary op ha => simp only [Call.outline, ha.dtype, ha.shape]
  | matmul ha hb =>
    simp only [Call.outline, Cpu.sameType, Cpu.matmulSizes, ha.dtype, hb.dtype, ha.shape, hb.shape]

lemma Call.Alike.checks {c c' : Call} (h : c.Alike c') {out out' : NdArray}
    (ho : out.Alike out') : c.checks out = c'.checks out' := by
  cases h with
  | binary op ha hb =>
    simp only [Call.checks, Cpu.sameType, ha.dtype, hb.dtype, ha.shape, hb.shape, ho.dtype,
      ho.shape]
  | scalar op s ha => simp only [Call.checks, ha.dtype, ha.shape, ho.dtype, ho.shape]
  | unary op ha => simp only [Call.checks, ha.dtype, ha.shape, ho.dtype, ho.shape]
  | matmul ha hb =>
    simp only [Call.checks, Cpu.sameType, Cpu.matmulSizes, ha.dtype, hb.dtype, ha.shape, hb.shape,
      ho.dtype, ho.shape]

lemma Change.Alike.checks {ch ch' : Change} (h : ch.Alike ch') {a a' : NdArray}
    (ha : a.Alike a') : ch.checks a = ch'.checks a' := by
  cases h with
  | binary op hb =>
    simp only [Change.checks, Cpu.sameType, ha.dtype, hb.dtype, ha.shape, hb.shape]
  | scalar op s => simp only [Change.checks, ha.dtype]
  | unary op => simp only [Change.checks, ha.dtype]

end ArrayBench
