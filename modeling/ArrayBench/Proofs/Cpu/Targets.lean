import ArrayBench.Proofs.Cpu.InPlace
import ArrayBench.Proofs.Layout.Apart

/-!
Targets whose elements lie apart.

A write at an index of a target is seen at another index only where the two share a position. A
broadcast array has such indices, and so may an array that an axis without elements was split off,
since strides can be zero there. The other views only select from what they are made of, and made of
a row-major array they have a position for each element. Of such a target each element is changed
once, from what it was before, and none is changed along with another one.
-/

namespace ArrayBench

open NdArray (Rewritten laid)

namespace Layout

variable {l : Layout}

lemma indicesAt_offsetAt (hn : l.offsets.Nodup) {ix : List Nat} (hix : ix ∈ l.shape.indices) :
    l.indicesAt (l.offsetAt ix) = [ix] := by
  rw [offsets_eq] at hn
  have hsame : l.indicesAt (l.offsetAt ix) = l.shape.indices.filter (· == ix) := by
    refine List.filter_congr fun jx hjx => ?_
    have hiff : l.offsetAt jx = l.offsetAt ix ↔ jx = ix :=
      ⟨List.inj_on_of_nodup_map hn hjx hix, congrArg l.offsetAt⟩
    rw [Bool.eq_iff_iff, decide_eq_true_eq, beq_iff_eq, hiff]
  rw [hsame, List.filter_beq, List.count_eq_one_of_mem l.shape.nodup_indices hix]
  rfl

/-- A write to an element of a target with this layout is a write to that element alone. -/
structure Unaliased (l : Layout) : Prop where
  inPlace : ∀ (ch : Change) (a b : NdArray), a.layout = l → a.WellFormed →
    Cpu.change ch a = .ok () b → Rewritten a b ∧
      ∀ ix ∈ l.shape.indices, b.elem? a.dtype ix = (a.elem? a.dtype ix).bind (ch.onElem? ix ·)
  buffered : ∀ (c : Call) (out b : NdArray), out.layout = l → c.WellFormed → out.WellFormed →
    Cpu.computeInto c out = .ok () b → Rewritten out b ∧
      ∃ r, Cpu.compute c = .ok r ∧ b.Alike r

lemma elem?_of_change {ch : Change} {a b : NdArray} (ha : a.WellFormed)
    (hn : a.layout.offsets.Nodup) (hb : Cpu.change ch a = .ok () b) {ix : List Nat}
    (hix : ix ∈ a.shape.indices) :
    b.elem? a.dtype ix = (a.elem? a.dtype ix).bind (ch.onElem? ix ·) := by
  obtain ⟨y, r, rfl, -, -, hfold, -⟩ := Cpu.change_ok ha hb
  obtain ⟨⟨d, x⟩, l⟩ := a
  have hold : (laid x l).elem? d ix = x.get? (l.offsetAt ix) := NdArray.elem?_laid x l ix
  have hnew : (laid y l).elem? d ix = y.get? (l.offsetAt ix) := NdArray.elem?_laid y l ix
  have hget := hfold (l.offsetAt ix)
  simp only [indicesAt_offsetAt hn hix, List.foldlM_cons, List.foldlM_nil, bind_pure] at hget
  exact (hnew.trans hget).trans (congrArg (Option.bind · _) hold.symm)

lemma unaliased_of_nodup (hn : l.offsets.Nodup) : l.Unaliased where
  inPlace ch a b hl ha hb := by
    subst hl
    obtain ⟨y, r, -, -, hrewritten, -, -⟩ := Cpu.change_ok ha hb
    exact ⟨hrewritten, fun ix hix => elem?_of_change ha hn hb hix⟩
  buffered c out b hl hc ho hb := by
    subst hl
    obtain ⟨b', r, hb', hr, hrewritten, halike⟩ :=
      Cpu.forms_of_checks hc ho ((Cpu.computeInto_ok_iff hc ho).mp ⟨b, hb⟩)
    obtain ⟨-, rfl⟩ := EStateM.Result.ok.inj (hb.symm.trans hb')
    exact ⟨hrewritten, r, hr, halike hn⟩

/-! ### All of it together -/

/-- Where the elements of an array of sizes `dims` lie that was cut and turned by `vs`. -/
structure LiesApart (dims : Shape) (vs : List View) : Prop where
  made : ∃ l, (contiguous dims).views vs = .ok l
  distinct : ∀ l, (contiguous dims).views vs = .ok l → l.offsets.Nodup
  below : ∀ l, (contiguous dims).views vs = .ok l → ∀ p ∈ l.offsets, p < dims.numel
  /-- If nothing was cut off, every position of the storage is taken. -/
  complete : (∀ k, .split k ∉ vs) → ∀ l, (contiguous dims).views vs = .ok l →
    l.offsets.Perm (List.range dims.numel)
  unaliased : ∀ l, (contiguous dims).views vs = .ok l → l.Unaliased

/-- **Cut and turned arrays** have a position for each element, so that a write to one element is
not seen at any other. -/
theorem selections_lie_apart {dims : Shape} {vs : List View} (h : View.SelectInTurn dims vs) :
    LiesApart dims vs := by
  obtain ⟨m, hm, hnodup, hbelow, hperm⟩ := exists_views_contiguous h
  have honly : ∀ l, (contiguous dims).views vs = .ok l → l = m :=
    fun l hl => Except.ok.inj (hl.symm.trans hm)
  constructor
  case made => exact ⟨m, hm⟩
  case distinct =>
    intro l hl
    rwa [honly l hl]
  case below =>
    intro l hl
    rwa [honly l hl]
  case complete =>
    intro hsplit l hl
    rw [honly l hl]
    exact hperm hsplit
  case unaliased =>
    intro l hl
    rw [honly l hl]
    exact unaliased_of_nodup hnodup

/-- The first column of each matrix in a stack of two, as the rows of a new one. -/
theorem selections_lie_apart_columns :
    View.SelectInTurn [2, 3, 4] [.transposed, .split 0, .transposed] ∧
      LiesApart [2, 3, 4] [.transposed, .split 0, .transposed] ∧
      ((contiguous [2, 3, 4]).views [.transposed, .split 0, .transposed]).map offsets =
        .ok [0, 4, 8, 12, 16, 20] :=
  ⟨by decide, selections_lie_apart (by decide), rfl⟩

/-- Without its columns, of which there are none, a matrix shows two elements at one position. -/
example : ((contiguous [2, 0]).views [.split 1]).map offsets = .ok [0, 0] ∧
    ¬ View.SelectInTurn [2, 0] [.split 1] := ⟨rfl, by decide⟩

end Layout

end ArrayBench
