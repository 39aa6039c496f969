import ArrayBench.Proofs.Cpu.Refusals
import ArrayBench.Proofs.Cpu.Runs

/-!
Safety of the array operations.

An array is well formed if its storage holds every element that its layout can address. All ways of
making an array give well formed ones. An operation on well formed arrays is either refused by its
checks, and then nothing is written, or it runs to the end without touching a position outside a
storage, and what it returns or writes is well formed again.
-/

namespace ArrayBench

open Buffer (Edited)

namespace NdArray

/-! ### Making arrays -/

lemma wellFormed_contiguous (d : DType) (x : Buffer d.Elem) {s : Shape} (h : x.size = s.numel) :
    (laid x (.contiguous s)).WellFormed := by
  have hle := Layout.requiredSize_contiguous_le s
  rw [← h] at hle
  exact hle

lemma wellFormed_full (s : Shape) (d : DType) (v : Scalar) : (full s d v).WellFormed :=
  wellFormed_contiguous d _ rfl

lemma wellFormed_empty (s : Shape) (d : DType) : (empty s d).WellFormed := wellFormed_full s d _

lemma ofElems_ok {d : DType} {values : Array d.Elem} {s : Shape} (h : values.size = s.numel) :
    ofElems d values s = .ok (laid (.items values) (.contiguous s)) := by
  rw [ofElems, if_pos h]
  rfl

lemma wellFormed_ofElems {d : DType} {values : Array d.Elem} {s : Shape} {a : NdArray}
    (h : ofElems d values s = .ok a) : a.WellFormed := by
  unfold ofElems at h
  split_ifs at h with hs
  obtain rfl := Except.ok.inj h
  exact wellFormed_contiguous d _ hs

lemma wellFormed_ofStorage {x : Storage} {l : Layout} {a : NdArray}
    (h : ofStorage x l = .ok a) : a.WellFormed := by
  obtain ⟨_, hfits, hok⟩ := exceptBind_eq_ok.mp h
  obtain rfl := Except.ok.inj hok
  exact Layout.checkFits_eq_ok.mp hfits

lemma WellFormed.transposed {a : NdArray} (h : a.WellFormed) : a.transposed.WellFormed := by
  unfold WellFormed at h ⊢
  rwa [NdArray.transposed, Layout.requiredSize_transposed]

/-! ### Writing -/

/-- `b` differs from `a` in its elements only. -/
structure SameFrame (a b : NdArray) : Prop where
  dtype : b.dtype = a.dtype
  layout : b.layout = a.layout
  size : b.storage.size = a.storage.size

lemma SameFrame.refl (a : NdArray) : SameFrame a a := ⟨rfl, rfl, rfl⟩

lemma SameFrame.trans {a b c : NdArray} (h : SameFrame a b) (h' : SameFrame b c) :
    SameFrame a c :=
  ⟨h'.dtype.trans h.dtype, h'.layout.trans h.layout, h'.size.trans h.size⟩

lemma SameFrame.shape {a b : NdArray} (h : SameFrame a b) : b.shape = a.shape :=
  congrArg Layout.shape h.layout

lemma SameFrame.wellFormed {a b : NdArray} (h : SameFrame a b) (ha : a.WellFormed) :
    b.WellFormed := by
  unfold WellFormed
  rw [h.layout, h.size]
  exact ha

lemma sameFrame_of_edited {d : DType} {x y : Buffer d.Elem} {es : List (Edit Nat d.Elem)}
    (h : Edited es x y) (l : Layout) : SameFrame (laid x l) (laid y l) := ⟨rfl, rfl, h.size⟩

/-- What becomes of an update once the outcome of its checks is known: it runs to the end and only
replaces elements, or it is refused and the array is as before. -/
def Settles (u : Update) (check : Except ArrayError Unit) (a : NdArray) : Prop :=
  match check with
  | .ok _ => ∃ b, u a = .ok () b ∧ b.WellFormed ∧ SameFrame a b
  | .error e => e.IsRefusal ∧ u a = .error e a

def Delivers (x : Except ArrayError NdArray) (outline : Except ArrayError (Shape × DType)) : Prop :=
  match outline with
  | .ok (s, d) => ∃ r, x = .ok r ∧ r.WellFormed ∧ r.shape = s ∧ r.dtype = d
  | .error e => e.IsRefusal ∧ x = .error e

lemma Writes.settles {d : DType} {u : Update} {x : Buffer d.Elem} {l : Layout}
    {es : List (Edit (List Nat) d.Elem)} (h : Writes u x l es) (hx : (laid x l).WellFormed) :
    Settles u (.ok ()) (laid x l) := by
  obtain ⟨y, hy, hxy⟩ := h
  have hframe := sameFrame_of_edited hxy l
  exact ⟨laid y l, hy, hframe.wellFormed hx, hframe⟩

/-- Settled or refused, only elements are replaced. -/
lemma Settles.sameFrame {u : Update} {check : Except ArrayError Unit} {a : NdArray}
    (h : Settles u check a) : SameFrame a (u.state a) := by
  cases check with
  | ok v =>
    obtain ⟨b, hb, -, hframe⟩ := h
    rw [Step.state, hb]
    exact hframe
  | error e =>
    rw [Step.state, h.2]
    exact .refl a

lemma fill_settles (v : Scalar) {a : NdArray} (h : a.WellFormed) : Settles (fill v) (.ok ()) a :=
  (fill_writes v h.within).settles h

/-! ### Reading -/

lemma elems_ok {a : NdArray} (h : a.WellFormed) :
    a.elems = .ok (a.shape.indices.map (a.layout.elemAt a.storage.data)) :=
  Layout.mapM_read h.within

lemma toElems_laid {d : DType} {x : Buffer d.Elem} {l : Layout} (h : l.Within x.size) :
    (laid x l).toElems d = .ok (l.shape.indices.map (l.elemAt x)) := by
  rw [toElems, Storage.as_self, exceptOk_bind]
  exact Layout.mapM_read h

lemma toElems_of_ne {a : NdArray} {d : DType} (h : a.dtype ≠ d) :
    a.toElems d = .error (.dtypeMismatch d a.dtype) := by
  have hnone : a.storage.as? d = none := dif_neg h
  rw [toElems, Storage.as, hnone]
  rfl

end NdArray

namespace Cpu

open NdArray (Settles Delivers SameFrame laid)

/-! ### Calls and changes -/

lemma storageAs_of_eq {x : Storage} {d : DType} (h : x.dtype = d) : ∃ y, x.as d = .ok y := by
  subst h
  exact ⟨x.data, Storage.as_self _ _⟩

lemma computeInto_settles_ok {c : Call} {out : NdArray} (hc : c.WellFormed)
    (ho : out.WellFormed) (h : c.checks out = .ok ()) : Settles (computeInto c) (.ok ()) out := by
  obtain ⟨⟨d, z⟩, l⟩ := out
  have houtline := Call.checks_eq_ok.mp h
  obtain ⟨es, hes⟩ := Call.exists_sets houtline (hc.readable houtline)
  exact (hes.writes z l rfl ho.within).settles ho

lemma computeInto_settles {c : Call} {out : NdArray} (hc : c.WellFormed) (ho : out.WellFormed) :
    Settles (computeInto c) (c.checks out) out := by
  cases h : c.checks out with
  | ok u => exact computeInto_settles_ok hc ho h
  | error e => exact ⟨Refuses.callChecks c out e h, computeInto_of_refused h⟩

lemma change_settles_ok {ch : Change} {a : NdArray} (hch : ch.WellFormed) (ha : a.WellFormed)
    (h : ch.checks a = .ok ()) : Settles (change ch) (.ok ()) a := by
  obtain ⟨⟨d, x⟩, l⟩ := a
  obtain ⟨g, hg⟩ := Change.exists_maps h ha.within (hch.readable h)
  exact hg.writes.settles ha

lemma change_settles {ch : Change} {a : NdArray} (hch : ch.WellFormed) (ha : a.WellFormed) :
    Settles (change ch) (ch.checks a) a := by
  cases h : ch.checks a with
  | ok u => exact change_settles_ok hch ha h
  | error e => exact ⟨Refuses.changeChecks ch a e h, change_of_refused h⟩

lemma compute_delivers {c : Call} (hc : c.WellFormed) : Delivers (compute c) c.outline := by
  cases h : c.outline with
  | ok o =>
    obtain ⟨s, d⟩ := o
    obtain ⟨es, hes⟩ := Call.exists_sets h (hc.readable h)
    obtain ⟨y, hy, hxy⟩ := hes.compute h
    exact ⟨_, hy, NdArray.wellFormed_contiguous d y hxy.size, Layout.shape_contiguous s, rfl⟩
  | error e =>
    refine ⟨Refuses.outline c e h, ?_⟩
    rw [compute_eq, h]
    rfl

/-! ### Sums -/

lemma sum_ok {a : NdArray} (h : a.WellFormed) :
    ∃ s, sum a = .ok s ∧ s.dtype = a.dtype.sumType := by
  have hsum := sumElems_eq h.within
  exact ⟨_, by rw [sum, hsum]; rfl, rfl⟩

lemma length_axisSums {d : DType} (x : Buffer d.Elem) (l : Layout) (k size : Nat) (outer : Shape) :
    (axisSums x l k size outer).length = outer.numel := by
  rw [axisSums, List.length_map, Shape.length_indices]

lemma sumAxis_laid {d : DType} {x : Buffer d.Elem} {l : Layout} (h : l.Within x.size) {k : Nat}
    (hk : k < l.axes.length) :
    sumAxis (laid x l) k = .ok (laid (.items (axisSums x l k (l.axes[k]).size
      (l.shape.eraseIdx k)).toArray) (.contiguous (l.shape.eraseIdx k))) := by
  have hsums := mapM_sumLine h hk
  rw [Layout.shape_eraseIdx] at hsums
  have hlen : (axisSums x l k (l.axes[k]).size (l.shape.eraseIdx k)).toArray.size =
      Shape.numel (l.shape.eraseIdx k) := by
    rw [List.size_toArray, length_axisSums]
  rw [sumAxis, Layout.splitAxis_of_lt hk, exceptOk_bind]
  simp only []
  rw [hsums, exceptOk_bind, Layout.shape_eraseIdx]
  exact NdArray.ofElems_ok hlen

lemma sumAxis_of_le {a : NdArray} {k : Nat} (hk : a.layout.axes.length ≤ k) :
    sumAxis a k = .error (.invalidAxis k a.layout.axes.length) := by
  rw [sumAxis, Layout.splitAxis_of_le hk]
  rfl

lemma sumAxis_delivers {a : NdArray} (h : a.WellFormed) (k : Nat) :
    Delivers (sumAxis a k) ((·, a.dtype.sumType) <$> a.shape.withoutAxis k) := by
  have hrank : a.shape.length = a.layout.axes.length := List.length_map ..
  unfold Shape.withoutAxis
  split_ifs with hk
  · refine ⟨_, sumAxis_laid h.within (hrank ▸ hk), ?_, Layout.shape_contiguous _, rfl⟩
    refine NdArray.wellFormed_contiguous _ _ ?_
    rw [Buffer.size, List.size_toArray, length_axisSums]
  · refine ⟨trivial, ?_⟩
    rw [sumAxis_of_le (by omega), hrank]

/-! ### Branches that the checks rule out -/

lemma operandsAs_ok {a b : NdArray} {d : DType} (h : sameType a b = .ok d) :
    (∃ x, a.storage.as d = .ok x) ∧ ∃ y, b.storage.as d = .ok y := by
  obtain ⟨hab, had⟩ := sameType_eq_ok.mp h
  exact ⟨storageAs_of_eq had, storageAs_of_eq (hab.symm.trans had)⟩

lemma broadcastTo_ok {l m : Layout} {t : Shape} (h : Shape.broadcast l.shape m.shape = .ok t) :
    (∃ l', l.broadcastTo t = .ok l') ∧ ∃ m', m.broadcastTo t = .ok m' := by
  obtain ⟨hl, hm⟩ := Shape.broadcast_below h
  obtain ⟨l', hl', -⟩ := Layout.broadcastTo_of_below hl
  obtain ⟨m', hm', -⟩ := Layout.broadcastTo_of_below hm
  exact ⟨⟨l', hl'⟩, ⟨m', hm'⟩⟩

lemma length_of_mapM {ι β ε : Type} {f : ι → Except ε β} {is : List ι} {vs : List β}
    (h : is.mapM f = .ok vs) : vs.length = is.length := by
  induction is generalizing vs with
  | nil =>
    obtain rfl := Except.ok.inj h
    rfl
  | cons i is ih =>
    rw [List.mapM_cons] at h
    obtain ⟨v, -, h⟩ := exceptBind_eq_ok.mp h
    obtain ⟨ws, hws, h⟩ := exceptBind_eq_ok.mp h
    obtain rfl := Except.ok.inj h
    rw [List.length_cons, List.length_cons, ih hws]

/-! ### All of it together -/

/-- Nothing that is done with well formed arrays leaves the bounds of a storage. -/
structure Safe : Prop where
  strides : ∀ l : Layout, l.strides.length = l.shape.length
  ofElems : ∀ (d : DType) (values : Array d.Elem) (s : Shape) (a : NdArray),
    NdArray.ofElems d values s = .ok a → a.WellFormed
  ofStorage : ∀ (x : Storage) (l : Layout) (a : NdArray),
    NdArray.ofStorage x l = .ok a → a.WellFormed
  full : ∀ (s : Shape) (d : DType) (v : Scalar), (NdArray.full s d v).WellFormed
  ones : ∀ (s : Shape) (d : DType), (NdArray.ones s d).WellFormed
  empty : ∀ (s : Shape) (d : DType), (NdArray.empty s d).WellFormed
  transposed : ∀ a : NdArray, a.WellFormed → a.transposed.WellFormed
  compute : ∀ c : Call, c.WellFormed → Delivers (compute c) c.outline
  computeInto : ∀ (c : Call) (out : NdArray), c.WellFormed → out.WellFormed →
    Settles (computeInto c) (c.checks out) out
  change : ∀ (ch : Change) (a : NdArray), ch.WellFormed → a.WellFormed →
    Settles (change ch) (ch.checks a) a
  sum : ∀ a : NdArray, a.WellFormed → ∃ s, sum a = .ok s ∧ s.dtype = a.dtype.sumType
  sumAxis : ∀ (a : NdArray) (k : Nat), a.WellFormed →
    Delivers (sumAxis a k) ((·, a.dtype.sumType) <$> a.shape.withoutAxis k)
  fill : ∀ (v : Scalar) (a : NdArray), a.WellFormed → Settles (NdArray.fill v) (.ok ()) a
  toFloats : ∀ a : NdArray, a.WellFormed → ∃ vs, a.toFloats = .ok vs ∧ vs.length = a.numel
  toElems : ∀ a : NdArray, a.WellFormed →
    ∃ vs, a.toElems a.dtype = .ok vs ∧ vs.length = a.numel
  toElems_of_ne : ∀ (a : NdArray) (d : DType), a.dtype ≠ d →
    a.toElems d = .error (.dtypeMismatch d a.dtype)
  /-- Once two operands have one type, both storages are found to hold it. -/
  operandsAs : ∀ (a b : NdArray) (d : DType), sameType a b = .ok d →
    (∃ x, a.storage.as d = .ok x) ∧ ∃ y, b.storage.as d = .ok y
  targetAs : ∀ (r : DType) (out : NdArray), checkOutputType r out.dtype = .ok () →
    ∃ z, out.storage.as r = .ok z
  broadcastTo : ∀ (l m : Layout) (t : Shape), Shape.broadcast l.shape m.shape = .ok t →
    (∃ l', l.broadcastTo t = .ok l') ∧ ∃ m', m.broadcastTo t = .ok m'
  axisValues : ∀ (a : NdArray) (k : Nat) (outer : Layout) (line : Axis)
    (values : List a.dtype.sumType.Elem), a.layout.splitAxis k = .ok (outer, line) →
    outer.offsets.mapM (sumLine a.storage.data line) = .ok values →
    values.length = outer.shape.numel

/-- **Safety**: whatever the ranks, sizes, strides and types, an operation on well formed arrays
stays within their storages and leaves well formed arrays. -/
theorem safe : Safe where
  strides l := by rw [Layout.strides, Layout.shape, List.length_map, List.length_map]
  ofElems _ _ _ _ h := NdArray.wellFormed_ofElems h
  ofStorage _ _ _ h := NdArray.wellFormed_ofStorage h
  full := NdArray.wellFormed_full
  ones s d := NdArray.wellFormed_full s d _
  empty := NdArray.wellFormed_empty
  transposed _ h := h.transposed
  compute _ := compute_delivers
  computeInto _ _ := computeInto_settles
  change _ _ := change_settles
  sum _ := sum_ok
  sumAxis _ k h := sumAxis_delivers h k
  fill v _ := NdArray.fill_settles v
  toFloats a h := by
    refine ⟨_, by rw [NdArray.toFloats, NdArray.elems_ok h]; rfl, ?_⟩
    rw [List.length_map, List.length_map, Shape.length_indices, NdArray.numel]
  toElems a h :=
    ⟨_, NdArray.toElems_laid h.within, (List.length_map _).trans (Shape.length_indices _)⟩
  toElems_of_ne _ _ := NdArray.toElems_of_ne
  operandsAs _ _ _ := operandsAs_ok
  targetAs _ _ h := storageAs_of_eq (checkOutputType_eq_ok.mp h).symm
  broadcastTo _ _ _ := broadcastTo_ok
  axisValues _ _ _ _ _ _ h := (length_of_mapM h).trans (Layout.length_offsets _)

end Cpu

end ArrayBench
