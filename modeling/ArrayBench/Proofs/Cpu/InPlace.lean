import ArrayBench.Proofs.Cpu.Forms
import ArrayBench.Proofs.Cpu.Overruns

/-!
Changes in place.

A change reads and writes the same buffer while it goes along. What it makes of a position is
therefore a fold: one step for each index that lies there, in row-major order, each on what the step
before it has left. Where every index has a position of its own there is one step for each, on the
old element, and that is what the allocating form computes.
-/

namespace ArrayBench

open Edit (each place)
open Buffer (Edited)
open NdArray (laid)

/-- The indices of the elements that lie at a position, in row-major order. -/
def Layout.indicesAt (l : Layout) (p : Nat) : List (List Nat) :=
  l.shape.indices.filter (l.offsetAt · = p)

namespace Change

variable {d : DType} {ch : Change} {x : Buffer d.Elem} {l : Layout}

lemma Maps.foldlM_onElem? {g : List Nat → d.Elem → d.Elem} (h : ch.Maps x l g)
    {is : List (List Nat)} (his : ∀ ix ∈ is, ix ∈ l.shape.indices) (v : d.Elem) :
    is.foldlM (fun v ix => ch.onElem? ix v) v = some (is.foldl (fun v ix => g ix v) v) := by
  induction is generalizing v with
  | nil => rfl
  | cons ix is ih =>
    rw [List.foldlM_cons, h.onElem? ix (his ix (by simp)) v, Option.bind_eq_bind, Option.bind_some,
      ih (fun jx hjx => his jx (by simp [hjx])), List.foldl_cons]

/-- What is at a position after the edits of a change. -/
lemma Maps.get? {g : List Nat → d.Elem → d.Elem} (h : ch.Maps x l g) {y : Buffer d.Elem}
    (hxy : Edited (place l.offsetAt (each l.shape.indices g)) x y) (p : Nat) :
    y.get? p = (x.get? p).bind fun v =>
      (l.indicesAt p).foldlM (fun v ix => ch.onElem? ix v) v := by
  have hfold : ∀ v : d.Elem, (l.indicesAt p).foldlM (fun v ix => ch.onElem? ix v) v =
      some (Edit.effect (place l.offsetAt (each l.shape.indices g)) p v) := by
    intro v
    have his : ∀ ix ∈ l.indicesAt p, ix ∈ l.shape.indices := fun _ => List.mem_of_mem_filter
    rw [h.foldlM_onElem? his, Edit.effect_place_each]
    rfl
  rw [hxy.get, funext hfold, Option.map_eq_bind]
  rfl

lemma Readable.call {a : NdArray} {s : Shape} (h : ch.Readable s) (ha : a.WellFormed)
    (houtline : (ch.call a).outline = .ok (s, d)) : (ch.call a).Readable s := by
  have hshape : (NdArray.empty s d).shape = s := Layout.shape_contiguous s
  cases ch with
  | binary op b =>
    obtain ⟨-, -, ht⟩ := Call.checks_binary.mp (Call.checks_of_outline houtline hshape rfl)
    rw [hshape] at ht
    exact ⟨ha.within.as (Shape.broadcast_below ht).1, h b (List.mem_singleton.mpr rfl)⟩
  | scalar op v => exact ha.within
  | unary op => exact ha.within

end Change

namespace Cpu

open NdArray (Rewritten)

/-! ### When a form succeeds -/

lemma not_ok_of_failsAt {ε σ α : Type} {act : Step ε σ α} {s t : σ} {v : α}
    (h : Step.FailsAt act s) : act s ≠ .ok v t := by
  obtain ⟨e, u, h⟩ := h
  rw [h]
  exact nofun

lemma change_ok_iff {ch : Change} {a : NdArray} (ha : a.WellFormed) :
    (∃ b, change ch a = .ok () b) ↔ ch.checks a = .ok () ∧ ch.Readable a.shape := by
  constructor
  · rintro ⟨b, hb⟩
    refine ⟨?_, ?_⟩
    · cases h : ch.checks a with
      | ok u => rfl
      | error e =>
        rw [change_of_refused h] at hb
        cases hb
    -- an element that is missing stops the loop
    · by_contra h
      exact not_ok_of_failsAt (change_failsAt h) hb
  · rintro ⟨h, hr⟩
    obtain ⟨⟨d, x⟩, l⟩ := a
    obtain ⟨g, hg⟩ := Change.exists_maps h ha.within hr
    obtain ⟨y, hy, -⟩ := hg.writes
    exact ⟨_, hy⟩

/-- The allocating form gives a result that fits the target exactly if the change can be made. -/
lemma call_fits_iff {ch : Change} {a : NdArray} (ha : a.WellFormed) :
    (∃ r, compute (ch.call a) = .ok r ∧ r.dtype = a.dtype ∧ r.shape = a.shape) ↔
      ch.checks a = .ok () ∧ ch.Readable a.shape := by
  rw [Change.checks_eq, Call.checks_eq_ok]
  constructor
  · rintro ⟨r, hr, hd, hs⟩
    cases h : (ch.call a).outline with
    | error e =>
      rw [compute_eq, h] at hr
      cases hr
    | ok o =>
      obtain ⟨s, d⟩ := o
      -- the same elements are read for a new array, so none of them can be missing
      have hreadable : ch.Readable s := by
        by_contra hnot
        have hshape : (NdArray.empty s d).shape = s := Layout.shape_contiguous s
        obtain ⟨e, b, hb⟩ : Step.FailsAt (computeInto (ch.call a)) (.empty s d) :=
          computeInto_failsAt (by rwa [hshape])
        rw [compute_eq, h, exceptOk_bind, NdArray.updated, hb] at hr
        cases hr
      obtain ⟨es, hes⟩ := Call.exists_sets h (hreadable.call ha h)
      obtain ⟨y, hy, -⟩ := hes.compute h
      obtain rfl := Except.ok.inj (hr.symm.trans hy)
      obtain rfl : s = a.shape := (Layout.shape_contiguous s).symm.trans hs
      obtain rfl : d = a.dtype := hd
      exact ⟨rfl, hreadable⟩
  · rintro ⟨h, hreadable⟩
    obtain ⟨es, hes⟩ := Call.exists_sets h (hreadable.call ha h)
    obtain ⟨y, hy, -⟩ := hes.compute h
    exact ⟨_, hy, rfl, Layout.shape_contiguous _⟩

/-! ### What a change leaves behind -/

lemma change_ok {ch : Change} {a b : NdArray} (ha : a.WellFormed) (hb : change ch a = .ok () b) :
    ∃ (y : Buffer a.dtype.Elem) (r : NdArray), b = laid y a.layout ∧
      compute (ch.call a) = .ok r ∧ Rewritten a b ∧
      (∀ p, y.get? p = (a.storage.data.get? p).bind fun v =>
        (a.layout.indicesAt p).foldlM (fun v ix => ch.onElem? ix v) v) ∧
      (a.layout.offsets.Nodup → b.Alike r) := by
  obtain ⟨h, hr⟩ := (change_ok_iff ha).mp ⟨b, hb⟩
  obtain ⟨⟨d, x⟩, l⟩ := a
  obtain ⟨g, hg⟩ := Change.exists_maps h ha.within hr
  obtain ⟨y, hy, hxy⟩ := hg.writes
  obtain ⟨y', hy', hxy'⟩ := hg.call.compute (Call.checks_eq_ok.mp (Change.checks_eq .. ▸ h))
  obtain ⟨-, rfl⟩ := EStateM.Result.ok.inj (hb.symm.trans hy)
  have hshape := Layout.shape_contiguous l.shape
  refine ⟨y, _, rfl, hy', NdArray.rewritten_of_edited hxy fun _ => Edit.mem_each, hg.get? hxy,
    fun hn => ?_⟩
  refine NdArray.alike_of_edited hxy hxy' hshape.symm (fun _ => Edit.mem_each)
    (by rw [hshape]; exact hg.call.mem) ha.within (Layout.within_contiguous _) hn
    (Layout.nodup_offsets_contiguous _) fun ix hix => ?_
  -- each index has one edit, in place on the old element and in the new array on the same one
  have hhere := Edit.effect_each l.shape.nodup_indices g hix (l.elemAt x ix)
  have hthere := Edit.effect_each l.shape.nodup_indices (fun ix _ => g ix (l.elemAt x ix)) hix
    ((Layout.contiguous l.shape).elemAt (Storage.zeros d l.shape.numel).data ix)
  exact hhere.trans hthere.symm

/-! ### All of it together -/

/-- A change does to its target, position by position, what the call computes element by element. -/
structure FoldsInPlace (ch : Change) (a : NdArray) : Prop where
  accepted : (∃ b, change ch a = .ok () b) ↔
    ∃ r, compute (ch.call a) = .ok r ∧ r.dtype = a.dtype ∧ r.shape = a.shape
  /-- The elements that lie at a position are combined with what is there one after the other. -/
  folds : ∀ b, change ch a = .ok () b → ∃ y : Buffer a.dtype.Elem,
    b = laid y a.layout ∧ y.size = a.storage.size ∧
      ∀ p, y.get? p = (a.storage.data.get? p).bind fun v =>
        (a.layout.indicesAt p).foldlM (fun v ix => ch.onElem? ix v) v
  rewritten : ∀ b, change ch a = .ok () b → Rewritten a b
  elems : ∀ b r, change ch a = .ok () b → compute (ch.call a) = .ok r →
    a.layout.offsets.Nodup →
    ∃ vs : List a.dtype.Elem, b.toElems a.dtype = .ok vs ∧ r.toElems a.dtype = .ok vs

/-- **Changes in place**: whatever the layout of the target, each of its positions takes up the
elements that lie there in row-major order, and the others are kept. -/
theorem change_folds (ch : Change) {a : NdArray} (ha : a.WellFormed) : FoldsInPlace ch a where
  accepted := (change_ok_iff ha).trans (call_fits_iff ha).symm
  folds b hb := by
    obtain ⟨y, r, rfl, -, hrewritten, hfold, -⟩ := change_ok ha hb
    exact ⟨y, rfl, hrewritten.size, hfold⟩
  rewritten b hb := by
    obtain ⟨y, r, -, -, hrewritten, -, -⟩ := change_ok ha hb
    exact hrewritten
  elems b r hb hr hn := by
    obtain ⟨y, r', -, hr', hrewritten, -, halike⟩ := change_ok ha hb
    obtain rfl := Except.ok.inj (hr.symm.trans hr')
    have helems := (halike hn).exists_elems (hrewritten.wellFormed ha)
    rwa [hrewritten.dtype] at helems

/-- Three elements that all lie at position zero take up three others there, and the position behind
them is kept. -/
theorem change_folds_repeated :
    ∃ y : Buffer DType.int32.Elem,
      change (.binary .add ⟨⟨.int32, .items #[1, 2, 4]⟩, .contiguous [3]⟩)
          ⟨⟨.int32, .items #[10, 20]⟩, ⟨[⟨3, 0⟩], 0⟩⟩ =
        .ok () ⟨⟨.int32, y⟩, ⟨[⟨3, 0⟩], 0⟩⟩ ∧
      y.get? 0 = some 17 ∧ y.get? 1 = some 20 := by
  have ha : NdArray.WellFormed ⟨⟨.int32, .items #[10, 20]⟩, ⟨[⟨3, 0⟩], 0⟩⟩ := by decide
  have hfolds := change_folds (.binary .add ⟨⟨.int32, .items #[1, 2, 4]⟩, .contiguous [3]⟩) ha
  obtain ⟨b, hchange⟩ := hfolds.accepted.mpr ⟨_, rfl, rfl, rfl⟩
  obtain ⟨y, rfl, -, hget⟩ := hfolds.folds b hchange
  exact ⟨y, hchange, (hget 0).trans rfl, (hget 1).trans rfl⟩

end Cpu

end ArrayBench
