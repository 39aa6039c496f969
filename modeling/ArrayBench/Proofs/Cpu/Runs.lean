import ArrayBench.Proofs.Cpu.Accumulation
import ArrayBench.Proofs.Cpu.Checks

/-!
What the operations write.

Once its checks have passed, an operation on arrays whose elements lie within their storage runs to
the end, and what it has written is a list of edits at the indices of its target. Below there is one
such statement for each operation that writes, in terms of the elements that the operands show.
-/

namespace ArrayBench

open Edit (each place)
open Buffer (Makes Edited)

lemma Edit.each_congr {ι α : Type} {is : List ι} {g h : ι → α → α}
    (hgh : ∀ i ∈ is, g i = h i) : each is g = each is h :=
  List.map_congr_left fun i hi => by rw [hgh i hi]

namespace NdArray

variable {d e : DType}

abbrev laid (x : Buffer d.Elem) (l : Layout) : NdArray := ⟨⟨d, x⟩, l⟩

lemma WellFormed.within {a : NdArray} (h : a.WellFormed) : a.layout.Within a.storage.size :=
  Layout.within_of_requiredSize_le h

def elem? (a : NdArray) (d : DType) (ix : List Nat) : Option d.Elem := do
  let x ← a.storage.as? d
  x.get? (a.layout.offsetAt ix)

lemma elem?_laid (x : Buffer d.Elem) (l : Layout) (ix : List Nat) :
    (laid x l).elem? d ix = x.get? (l.offsetAt ix) := by
  rw [elem?, Storage.as?_self]
  rfl

/-- The array has elements of type `d`, and at its indices these are the values of `v`. -/
structure Holds (a : NdArray) {d : DType} (v : List Nat → d.Elem) : Prop where
  dtype : a.dtype = d
  elem : ∀ ix ∈ a.shape.indices, a.elem? d ix = some (v ix)

lemma holds_laid {x : Buffer d.Elem} {l : Layout} (h : l.Within x.size) :
    (laid x l).Holds (l.elemAt x) :=
  ⟨rfl, fun ix hix => (elem?_laid x l ix).trans (Layout.get?_offsetAt h hix)⟩

lemma WellFormed.holds {a : NdArray} (h : a.WellFormed) :
    ∃ v : List Nat → a.dtype.Elem, a.Holds v :=
  ⟨a.layout.elemAt a.storage.data, holds_laid h.within⟩

lemma Holds.exists_laid {a : NdArray} {v : List Nat → d.Elem} (h : a.Holds v) :
    ∃ (x : Buffer d.Elem) (l : Layout), a = laid x l ∧ l.Within x.size ∧
      ∀ ix ∈ l.shape.indices, l.elemAt x ix = v ix := by
  obtain ⟨⟨d', x⟩, l⟩ := a
  obtain rfl : d' = d := h.dtype
  have hget : ∀ ix ∈ l.shape.indices, x.get? (l.offsetAt ix) = some (v ix) := fun ix hix =>
    (elem?_laid x l ix).symm.trans (h.elem ix hix)
  refine ⟨x, l, rfl, fun ix hix => Buffer.lt_size_of_get? (hget ix hix), fun ix hix => ?_⟩
  rw [Layout.elemAt, hget ix hix, Option.getD_some]

/-- An update that succeeds and makes a list of edits at the indices of the array. -/
def Writes (u : Update) (x : Buffer d.Elem) (l : Layout) (es : List (Edit (List Nat) d.Elem)) :
    Prop :=
  ∃ y, u (laid x l) = .ok () (laid y l) ∧ Edited (place l.offsetAt es) x y

lemma onBuffer_writes {act : BufferStep d.Elem Unit} {x : Buffer d.Elem} {l : Layout}
    {es : List (Edit (List Nat) d.Elem)} (h : Makes act (place l.offsetAt es) x) :
    Writes (onBuffer d act) x l es := by
  obtain ⟨y, hy, hxy⟩ := h
  refine ⟨y, ?_, hxy⟩
  simp only [onBuffer, Storage.as_self, hy]

lemma onBuffer_congr {act act' : BufferStep d.Elem Unit} {x : Buffer d.Elem} (h : act x = act' x)
    (l : Layout) : onBuffer d act (laid x l) = onBuffer d act' (laid x l) := by
  simp only [onBuffer, Storage.as_self, h]

lemma Writes.congr {u v : Update} {x : Buffer d.Elem} {l : Layout}
    {es : List (Edit (List Nat) d.Elem)} (h : Writes v x l es)
    (he : u (laid x l) = v (laid x l)) : Writes u x l es := by
  obtain ⟨y, hy, hxy⟩ := h
  exact ⟨y, he.trans hy, hxy⟩

lemma fill_writes (v : Scalar) {x : Buffer d.Elem} {l : Layout} (h : l.Within x.size) :
    Writes (fill v) x l (each l.shape.indices fun _ _ => v.convert d) :=
  (onBuffer_writes (fillElems_makes _ h)).congr rfl

end NdArray

open NdArray (Writes laid onBuffer_writes)

namespace Cpu

variable {d : DType} {x : Buffer d.Elem} {la : Layout}

lemma sameType_laid (x y : Buffer d.Elem) (la lb : Layout) :
    sameType (laid x la) (laid y lb) = .ok d := sameType_eq_ok.mpr ⟨rfl, rfl⟩

/-! ### Two arrays -/

/-- With its checks passed, the operation is a loop over the operands as the target's shape shows
them. -/
lemma binaryInto_laid (op : BinaryOp) {y : Buffer d.Elem} {lb l : Layout}
    (ht : Shape.broadcast la.shape lb.shape = .ok l.shape) :
    ∃ ma mb, Layout.Shows la ma l.shape ∧ Layout.Shows lb mb l.shape ∧
      ∀ z : Buffer (op.resultType d).Elem, binaryInto op (laid x la) (laid y lb) (laid z l) =
        NdArray.onBuffer (op.resultType d) (zipInto op.eval x ma y mb l) (laid z l) := by
  obtain ⟨hba, hbb⟩ := Shape.broadcast_below ht
  obtain ⟨ma, hma, hsa⟩ := Layout.broadcastTo_of_below hba
  obtain ⟨mb, hmb, hsb⟩ := Layout.broadcastTo_of_below hbb
  refine ⟨ma, mb, hsa, hsb, fun z => ?_⟩
  have htype : checkOutputType (op.resultType d) (laid z l).dtype = .ok () :=
    checkOutputType_eq_ok.mpr rfl
  have hbroadcast : Shape.broadcast (laid x la).shape (laid y lb).shape = .ok l.shape := ht
  have hshape : checkShape l.shape (laid z l).shape = .ok () := checkShape_eq_ok.mpr rfl
  rw [binaryInto, Step.get_bind, sameType_laid, Step.ok_bind, htype, Step.ok_bind, hbroadcast,
    Step.ok_bind, hshape, Step.ok_bind, hma, Step.ok_bind, hmb, Step.ok_bind, Storage.as_self,
    Step.ok_bind, Storage.as_self, Step.ok_bind]

lemma binaryInPlace_laid (op : BinaryOp) {y : Buffer d.Elem} {lb : Layout}
    (hr : op.resultType d = d) (ht : Shape.broadcast la.shape lb.shape = .ok la.shape) :
    ∃ mb, Layout.Shows lb mb la.shape ∧ binaryInPlace op (laid y lb) (laid x la) =
      NdArray.onBuffer d (zipInPlace op.within la y mb) (laid x la) := by
  obtain ⟨-, hbb⟩ := Shape.broadcast_below ht
  obtain ⟨mb, hmb, hsb⟩ := Layout.broadcastTo_of_below hbb
  refine ⟨mb, hsb, ?_⟩
  have htype : checkOutputType (op.resultType d) d = .ok () := checkOutputType_eq_ok.mpr hr
  have hbroadcast : Shape.broadcast (laid x la).shape (laid y lb).shape = .ok la.shape := ht
  have hshape : checkShape la.shape (laid x la).shape = .ok () := checkShape_eq_ok.mpr rfl
  rw [binaryInPlace, Step.get_bind, sameType_laid, Step.ok_bind, htype, Step.ok_bind, hbroadcast,
    Step.ok_bind, hshape, Step.ok_bind, hmb, Step.ok_bind, Storage.as_self, Step.ok_bind]

lemma binaryInto_writes (op : BinaryOp) {y : Buffer d.Elem} {lb : Layout}
    {z : Buffer (op.resultType d).Elem} {l : Layout}
    (ht : Shape.broadcast la.shape lb.shape = .ok l.shape)
    (hx : la.WithinAs l.shape x.size) (hy : lb.WithinAs l.shape y.size) (hz : l.Within z.size) :
    Writes (binaryInto op (laid x la) (laid y lb)) z l (each l.shape.indices fun ix _ =>
      op.eval (la.elemAt x (la.shape.restrict ix)) (lb.elemAt y (lb.shape.restrict ix))) := by
  obtain ⟨ma, mb, hsa, hsb, hrun⟩ := binaryInto_laid (x := x) (y := y) op ht
  have hloop := onBuffer_writes (zipInto_makes op.eval hsa.shape hsb.shape (hsa.within_iff.mpr hx)
    (hsb.within_iff.mpr hy) hz)
  have hedits : (each l.shape.indices fun ix (_ : (op.resultType d).Elem) =>
        op.eval (ma.elemAt x ix) (mb.elemAt y ix)) =
      each l.shape.indices fun ix _ =>
        op.eval (la.elemAt x (la.shape.restrict ix)) (lb.elemAt y (lb.shape.restrict ix)) :=
    Edit.each_congr fun ix hix => by
      rw [Layout.elemAt_of_shows hsa x hix, Layout.elemAt_of_shows hsb y hix]
  rw [hedits] at hloop
  exact hloop.congr (hrun z)

lemma binaryInPlace_writes (op : BinaryOp) {y : Buffer d.Elem} {lb : Layout}
    (hr : op.resultType d = d) (ht : Shape.broadcast la.shape lb.shape = .ok la.shape)
    (hx : la.Within x.size) (hy : lb.WithinAs la.shape y.size) :
    Writes (binaryInPlace op (laid y lb)) x la (each la.shape.indices fun ix v =>
      op.within v (lb.elemAt y (lb.shape.restrict ix))) := by
  obtain ⟨mb, hsb, hrun⟩ := binaryInPlace_laid (x := x) (y := y) op hr ht
  have hloop := onBuffer_writes (zipInPlace_makes op.within hsb.shape hx (hsb.within_iff.mpr hy))
  have hedits : (each la.shape.indices fun ix v => op.within v (mb.elemAt y ix)) =
      each la.shape.indices fun ix v => op.within v (lb.elemAt y (lb.shape.restrict ix)) :=
    Edit.each_congr fun ix hix => by rw [Layout.elemAt_of_shows hsb y hix]
  rw [hedits] at hloop
  exact hloop.congr hrun

/-! ### An array and a scalar -/

lemma scalarInto_laid (op : BinaryOp) (s : Scalar) {z : Buffer (op.resultType d).Elem}
    {l : Layout} (hs : l.shape = la.shape) : scalarInto op (laid x la) s (laid z l) =
      NdArray.onBuffer (op.resultType d) (mapInto (op.eval · (s.convert d)) x la l) (laid z l) := by
  have htype : checkOutputType (op.resultType (laid x la).dtype) (laid z l).dtype = .ok () :=
    checkOutputType_eq_ok.mpr rfl
  have hshape : checkShape (laid x la).shape (laid z l).shape = .ok () := checkShape_eq_ok.mpr hs
  rw [scalarInto, Step.get_bind, htype, Step.ok_bind, hshape, Step.ok_bind]
  rfl

lemma scalarInPlace_laid (op : BinaryOp) (s : Scalar) (hr : op.resultType d = d) :
    scalarInPlace op s (laid x la) =
      NdArray.onBuffer d (mapInPlace (op.within · (s.convert d)) la) (laid x la) := by
  have htype : checkOutputType (op.resultType (laid x la).dtype) (laid x la).dtype = .ok () :=
    checkOutputType_eq_ok.mpr hr
  rw [scalarInPlace, Step.get_bind, htype, Step.ok_bind]
  rfl

lemma scalarInto_writes (op : BinaryOp) (s : Scalar) {z : Buffer (op.resultType d).Elem}
    {l : Layout} (hs : l.shape = la.shape) (hx : la.Within x.size) (hz : l.Within z.size) :
    Writes (scalarInto op (laid x la) s) z l (each l.shape.indices fun ix _ =>
      op.eval (la.elemAt x ix) (s.convert d)) :=
  (onBuffer_writes (mapInto_makes (op.eval · (s.convert d)) hs.symm hx hz)).congr
    (scalarInto_laid op s hs)

lemma scalarInPlace_writes (op : BinaryOp) (s : Scalar) (hr : op.resultType d = d)
    (hx : la.Within x.size) :
    Writes (scalarInPlace op s) x la (each la.shape.indices fun _ v =>
      op.within v (s.convert d)) :=
  (onBuffer_writes (mapInPlace_makes (op.within · (s.convert d)) hx)).congr
    (scalarInPlace_laid op s hr)

/-! ### One array -/

lemma unaryInto_writes (op : UnaryOp) {z : Buffer (op.resultType d).Elem} {l : Layout}
    (hs : l.shape = la.shape) (hx : la.Within x.size) (hz : l.Within z.size) :
    Writes (unaryInto op (laid x la)) z l (each l.shape.indices fun ix _ =>
      op.eval (la.elemAt x ix)) := by
  have hloop := onBuffer_writes (mapInto_makes op.eval hs.symm hx hz)
  refine hloop.congr ?_
  have htype : checkOutputType (op.resultType (laid x la).dtype) (laid z l).dtype = .ok () :=
    checkOutputType_eq_ok.mpr rfl
  have hshape : checkShape (laid x la).shape (laid z l).shape = .ok () := checkShape_eq_ok.mpr hs
  rw [unaryInto, Step.get_bind, htype, Step.ok_bind, hshape, Step.ok_bind]
  rfl

lemma unaryInPlace_writes (op : UnaryOp) (hr : op.resultType d = d) (hx : la.Within x.size) :
    Writes (unaryInPlace op) x la (each la.shape.indices fun _ v => op.within v) := by
  have hloop := onBuffer_writes (mapInPlace_makes op.within hx)
  refine hloop.congr ?_
  have htype : checkOutputType (op.resultType (laid x la).dtype) (laid x la).dtype = .ok () :=
    checkOutputType_eq_ok.mpr hr
  rw [unaryInPlace, Step.get_bind, htype, Step.ok_bind]
  rfl

/-! ### Matrix products -/

lemma matmulInto_writes {y z : Buffer d.Elem} {lb l : Layout} {m k n : Nat}
    (hsa : la.shape = [m, k]) (hsb : lb.shape = [k, n]) (hs : l.shape = [m, n])
    (hx : la.Within x.size) (hy : lb.Within y.size) (hz : l.Within z.size) :
    Writes (matmulInto (laid x la) (laid y lb)) z l (productEdits (fun i p => la.elemAt x [i, p])
      (fun p j => lb.elemAt y [p, j]) m k n) := by
  have hloop := onBuffer_writes (matmulElems_makes hsa hsb hs hx hy hz)
  refine hloop.congr ?_
  have hsizes : matmulSizes (laid x la) (laid y lb) = .ok (m, k, n) :=
    matmulSizes_eq_ok.mpr ⟨hsa, hsb⟩
  have htype : checkOutputType d (laid z l).dtype = .ok () := checkOutputType_eq_ok.mpr rfl
  have hshape : checkShape [m, n] (laid z l).shape = .ok () := checkShape_eq_ok.mpr hs
  rw [matmulInto, Step.get_bind, sameType_laid, Step.ok_bind, hsizes, Step.ok_bind]
  simp only []
  rw [htype, Step.ok_bind, hshape, Step.ok_bind, Storage.as_self, Step.ok_bind, Storage.as_self,
    Step.ok_bind]

end Cpu

/-! ### Any call -/

/-- A call sets the elements of a target of shape `s` by these edits, whatever the target holds and
wherever its elements lie. -/
structure Call.Sets (c : Call) {d : DType} (s : Shape) (es : List (Edit (List Nat) d.Elem)) :
    Prop where
  mem : ∀ e ∈ es, e.1 ∈ s.indices
  overwrites : ∀ ix ∈ s.indices, Edit.Overwrites es ix
  writes : ∀ (z : Buffer d.Elem) (l : Layout), l.shape = s → l.Within z.size →
    Writes (Cpu.computeInto c) z l es

namespace Call

open Cpu (binaryInto_writes scalarInto_writes unaryInto_writes matmulInto_writes)

lemma sets_each {c : Call} {d : DType} {s : Shape} {w : List Nat → d.Elem}
    (h : ∀ (z : Buffer d.Elem) (l : Layout), l.shape = s → l.Within z.size →
      Writes (Cpu.computeInto c) z l (each l.shape.indices fun ix _ => w ix)) :
    c.Sets s (each s.indices fun ix _ => w ix) :=
  ⟨fun _ => Edit.mem_each, fun _ => Edit.overwrites_each s.nodup_indices w,
    fun z l hl hz => hl ▸ h z l hl hz⟩

lemma sets_binary {op : BinaryOp} {d : DType} {x y : Buffer d.Elem} {la lb : Layout} {s : Shape}
    (ht : Shape.broadcast la.shape lb.shape = .ok s) (hx : la.WithinAs s x.size)
    (hy : lb.WithinAs s y.size) :
    (binary op (laid x la) (laid y lb)).Sets s (each s.indices fun ix _ =>
      op.eval (la.elemAt x (la.shape.restrict ix)) (lb.elemAt y (lb.shape.restrict ix))) :=
  sets_each fun _ _ hl hz => binaryInto_writes op (hl ▸ ht) (hl ▸ hx) (hl ▸ hy) hz

def Readable (s : Shape) : Call → Prop
  | binary _ a b =>
    a.layout.WithinAs s a.storage.size ∧ b.layout.WithinAs s b.storage.size
  | scalar _ a _ => a.layout.Within a.storage.size
  | unary _ a => a.layout.Within a.storage.size
  | matmul a b => a.layout.Within a.storage.size ∧ b.layout.Within b.storage.size

lemma WellFormed.readable {c : Call} (hc : c.WellFormed) {s : Shape} {d : DType}
    (h : c.outline = .ok (s, d)) : c.Readable s := by
  have hshape : (NdArray.empty s d).shape = s := Layout.shape_contiguous s
  cases c with
  | binary op a b =>
    obtain ⟨ha, hb⟩ := wellFormed_binary.mp hc
    obtain ⟨-, -, ht⟩ := checks_binary.mp (checks_of_outline h hshape rfl)
    obtain ⟨hba, hbb⟩ := Shape.broadcast_below ht
    exact ⟨ha.within.as (hshape ▸ hba), hb.within.as (hshape ▸ hbb)⟩
  | scalar op a v => exact (wellFormed_scalar.mp hc).within
  | unary op a => exact (wellFormed_unary.mp hc).within
  | matmul a b =>
    obtain ⟨ha, hb⟩ := wellFormed_matmul.mp hc
    exact ⟨ha.within, hb.within⟩

lemma exists_sets {c : Call} {s : Shape} {e : DType} (h : c.outline = .ok (s, e))
    (hc : c.Readable s) : ∃ es : List (Edit (List Nat) e.Elem), c.Sets s es := by
  have hshape : (NdArray.empty s e).shape = s := Layout.shape_contiguous s
  have hchecks : c.checks (.empty s e) = .ok () := checks_of_outline h hshape rfl
  cases c with
  | binary op a b =>
    obtain ⟨⟨d, x⟩, la⟩ := a
    obtain ⟨⟨d', y⟩, lb⟩ := b
    obtain ⟨hab, hr, ht⟩ := checks_binary.mp hchecks
    obtain rfl : d = d' := hab
    obtain rfl : op.resultType d = e := hr
    rw [hshape] at ht
    obtain ⟨hx, hy⟩ := hc
    exact ⟨_, sets_binary ht hx hy⟩
  | scalar op a v =>
    obtain ⟨⟨d, x⟩, la⟩ := a
    obtain ⟨hr, hs⟩ := checks_scalar.mp hchecks
    obtain rfl : op.resultType d = e := hr
    exact ⟨_, sets_each fun z l hl hz =>
      scalarInto_writes op v (hl.trans (hshape.symm.trans hs)) hc hz⟩
  | unary op a =>
    obtain ⟨⟨d, x⟩, la⟩ := a
    obtain ⟨hr, hs⟩ := checks_unary.mp hchecks
    obtain rfl : op.resultType d = e := hr
    exact ⟨_, sets_each fun z l hl hz =>
      unaryInto_writes op (hl.trans (hshape.symm.trans hs)) hc hz⟩
  | matmul a b =>
    obtain ⟨⟨d, x⟩, la⟩ := a
    obtain ⟨⟨d', y⟩, lb⟩ := b
    obtain ⟨hab, hr, m, k, n, ha, hb, hs⟩ := checks_matmul.mp hchecks
    obtain rfl : d = d' := hab
    obtain rfl : d = e := hr
    obtain rfl : s = [m, n] := hshape.symm.trans hs
    obtain ⟨hx, hy⟩ := hc
    exact ⟨_, fun _ => Cpu.mem_productEdits, fun _ => Cpu.overwrites_productEdits _ _,
      fun z l hl hz => matmulInto_writes ha hb hl hx hy hz⟩

/-- The allocating form sets the elements of a new array of zeros. -/
lemma Sets.compute {c : Call} {s : Shape} {d : DType} {es : List (Edit (List Nat) d.Elem)}
    (hes : c.Sets s es) (h : c.outline = .ok (s, d)) :
    ∃ y, Cpu.compute c = .ok (laid y (.contiguous s)) ∧
      Edited (place (Layout.contiguous s).offsetAt es) (Storage.zeros d s.numel).data y := by
  obtain ⟨y, hy, hxy⟩ := hes.writes (Storage.zeros d s.numel).data (.contiguous s)
    (Layout.shape_contiguous s) (Layout.within_contiguous s)
  refine ⟨y, ?_, hxy⟩
  have hnew : Cpu.computeInto c (.empty s d) = .ok () (laid y (.contiguous s)) := hy
  rw [Cpu.compute_eq, h, exceptOk_bind, NdArray.updated, hnew]

end Call

/-! ### Any change -/

/-- Where the result of an operation has the type of its operands, the operation is the one within
that type. -/
lemma BinaryOp.within_of_eval {op : BinaryOp} {d : DType} (hr : op.resultType d = d)
    {P : (e : DType) → (d.Elem → d.Elem → e.Elem) → Prop} (h : P (op.resultType d) op.eval) :
    P d op.within := by
  cases op with
  | div =>
    cases d with
    | int t => cases hr
    | float f => exact h
  | add => exact h
  | sub => exact h
  | mul => exact h
  | floorDiv => exact h
  | pow => exact h

lemma UnaryOp.within_of_eval {op : UnaryOp} {d : DType} (hr : op.resultType d = d)
    {P : (e : DType) → (d.Elem → e.Elem) → Prop} (h : P (op.resultType d) op.eval) :
    P d op.within := by
  cases d with
  | int t =>
    cases op with
    | abs => exact h
    | log => cases hr
    | exp => cases hr
    | sqrt => cases hr
  | float f => cases op <;> exact h

namespace Change

open Cpu (binaryInto_writes binaryInPlace_writes scalarInto_writes scalarInPlace_writes
  unaryInto_writes unaryInPlace_writes)

/-- What a change makes of the element `v` at an index, if the element it is to be combined with is
there and has its type. -/
def onElem? {d : DType} (ix : List Nat) (v : d.Elem) : Change → Option d.Elem
  | binary op b => (op.within v ·) <$> b.elem? d (b.shape.restrict ix)
  | scalar op s => some (op.within v (s.convert d))
  | unary op => some (op.within v)

/-- The change makes one edit at each index of its target, and the call with the target as its
first operand sets what these edits make of the elements that the target shows. -/
structure Maps (ch : Change) {d : DType} (x : Buffer d.Elem) (l : Layout)
    (g : List Nat → d.Elem → d.Elem) : Prop where
  onElem? : ∀ ix ∈ l.shape.indices, ∀ v, ch.onElem? ix v = some (g ix v)
  writes : Writes (Cpu.change ch) x l (each l.shape.indices g)
  call : (ch.call (laid x l)).Sets l.shape (each l.shape.indices fun ix _ => g ix (l.elemAt x ix))

def Readable (ch : Change) (s : Shape) : Prop :=
  ∀ b ∈ ch.operands, b.layout.WithinAs s b.storage.size

lemma WellFormed.readable {ch : Change} {a : NdArray} (h : ch.WellFormed)
    (hchecks : ch.checks a = .ok ()) : ch.Readable a.shape := by
  intro b hb
  cases ch with
  | binary op b' =>
    obtain rfl := List.mem_singleton.mp hb
    exact (h b hb).within.as (Shape.broadcast_below (checks_binary.mp hchecks).2.2).2
  | scalar op s => cases hb
  | unary op => cases hb

lemma exists_maps {ch : Change} {d : DType} {x : Buffer d.Elem} {l : Layout}
    (hchecks : ch.checks (laid x l) = .ok ()) (hx : l.Within x.size)
    (hch : ch.Readable l.shape) : ∃ g, ch.Maps x l g := by
  cases ch with
  | binary op b =>
    obtain ⟨⟨d', y⟩, lb⟩ := b
    obtain ⟨hab, hr, ht⟩ := checks_binary.mp hchecks
    obtain rfl : d = d' := hab
    have hy : lb.WithinAs l.shape y.size := hch _ (List.mem_singleton.mpr rfl)
    have hba := (Shape.broadcast_below ht).1
    refine ⟨fun ix v => op.within v (lb.elemAt y (lb.shape.restrict ix)), fun ix hix v => ?_,
      binaryInPlace_writes op hr ht hx hy, Call.sets_each fun z m hm hz => ?_⟩
    -- the other operand is read through the shape of the target
    · have helem : (laid y lb).elem? d (lb.shape.restrict ix) =
          some (lb.elemAt y (lb.shape.restrict ix)) := by
        rw [NdArray.elem?, Storage.as?_self]
        exact Layout.get?_of_lt (hy ix hix)
      exact congrArg ((op.within v ·) <$> ·) helem
    · have heval := BinaryOp.within_of_eval hr (P := fun e f => ∀ z : Buffer e.Elem,
        m.Within z.size → Writes (Cpu.binaryInto op (laid x l) (laid y lb)) z m
          (each m.shape.indices fun ix _ => f (l.elemAt x (l.shape.restrict ix))
            (lb.elemAt y (lb.shape.restrict ix))))
        fun z hz => binaryInto_writes op (by rw [hm]; exact ht) (by rw [hm]; exact hx.as hba)
          (by rw [hm]; exact hy) hz
      have hwrites := heval z hz
      rwa [Edit.each_congr fun ix hix => by rw [Shape.restrict_of_mem (hm ▸ hix)]] at hwrites
  | scalar op s =>
    have hr := checks_scalar.mp hchecks
    refine ⟨fun _ v => op.within v (s.convert d), fun _ _ _ => rfl, scalarInPlace_writes op s hr hx,
      Call.sets_each fun z m hm hz => ?_⟩
    exact BinaryOp.within_of_eval hr (P := fun e f => ∀ z : Buffer e.Elem,
      m.Within z.size → Writes (Cpu.scalarInto op (laid x l) s) z m
        (each m.shape.indices fun ix _ => f (l.elemAt x ix) (s.convert d)))
      (fun z hz => scalarInto_writes op s hm hx hz) z hz
  | unary op =>
    have hr := checks_unary.mp hchecks
    refine ⟨fun _ v => op.within v, fun _ _ _ => rfl, unaryInPlace_writes op hr hx,
      Call.sets_each fun z m hm hz => ?_⟩
    exact UnaryOp.within_of_eval hr (P := fun e f => ∀ z : Buffer e.Elem,
      m.Within z.size → Writes (Cpu.unaryInto op (laid x l)) z m
        (each m.shape.indices fun ix _ => f (l.elemAt x ix)))
      (fun z hz => unaryInto_writes op hm hx hz) z hz

end Change

end ArrayBench
