import ArrayBench.Proofs.Cpu.Forms

/-!
What calls result in.

The operands matter through the values they hold. Whatever the layouts, a call gives one value for
each index, computed from the values of its operands, in a new array as well as in a target in which
no two elements share a position. A change leaves such values in its own target.
-/

namespace ArrayBench

open Edit (each place)
open Buffer (Edited)
open NdArray (Holds Writes laid)

variable {d : DType}

namespace NdArray

lemma Holds.congr {a : NdArray} {v w : List Nat → d.Elem} (h : a.Holds v)
    (hvw : ∀ ix ∈ a.shape.indices, v ix = w ix) : a.Holds w :=
  ⟨h.dtype, fun ix hix => by rw [h.elem ix hix, hvw ix hix]⟩

variable {x : Buffer d.Elem} {l : Layout}

/-- Where no two elements share a position, edits make the values that the array holds from those
it has held. -/
lemma Writes.holds {u : Update} {es : List (Edit (List Nat) d.Elem)} (h : Writes u x l es)
    (hes : ∀ e ∈ es, e.1 ∈ l.shape.indices) (hn : l.offsets.Nodup) (hx : l.Within x.size) :
    ∃ r, u (laid x l) = .ok () r ∧ r.layout = l ∧
      r.Holds fun ix => Edit.effect es ix (l.elemAt x ix) := by
  obtain ⟨y, hy, hxy⟩ := h
  have hy' : l.Within y.size := by rwa [hxy.size]
  refine ⟨_, hy, rfl, (holds_laid hy').congr fun ix hix => ?_⟩
  rw [Layout.elemAt_edited hxy hn hes hx hix]

end NdArray

/-! ### Calls -/

/-- A call results in an array of shape `s` that holds the values of `w`, be it a new array or any
target of that shape and type in which no two elements share a position. -/
structure Call.Yields (c : Call) (s : Shape) (w : List Nat → d.Elem) : Prop where
  fresh : ∃ r, Cpu.compute c = .ok r ∧ r.shape = s ∧ r.Holds w
  written : ∀ out : NdArray, out.WellFormed → out.dtype = d → out.shape = s →
    out.layout.offsets.Nodup → ∃ r, Cpu.computeInto c out = .ok () r ∧ r.shape = s ∧ r.Holds w

namespace Call

variable {c : Call} {s : Shape} {w : List Nat → d.Elem}

lemma Sets.yields {es : List (Edit (List Nat) d.Elem)} (h : c.Sets s es)
    (houtline : c.outline = .ok (s, d))
    (hw : ∀ ix ∈ s.indices, ∀ v, Edit.effect es ix v = w ix) : c.Yields s w := by
  have hrun : ∀ {z : Buffer d.Elem} {l : Layout}, l.shape = s → l.Within z.size →
      l.offsets.Nodup →
      ∃ r, Cpu.computeInto c (laid z l) = .ok () r ∧ r.shape = s ∧ r.Holds w := by
    rintro z l rfl hz hn
    obtain ⟨r, hr, hlayout, hholds⟩ := (h.writes z l rfl hz).holds h.mem hn hz
    have hshape : r.shape = l.shape := congrArg Layout.shape hlayout
    exact ⟨r, hr, hshape, hholds.congr fun ix hix => hw ix (hshape ▸ hix) _⟩
  refine ⟨?_, ?_⟩
  · have hwithin : (Layout.contiguous s).Within (Storage.zeros d s.numel).data.size :=
      Layout.within_contiguous s
    obtain ⟨r, hr, hs, hholds⟩ :=
      hrun (Layout.shape_contiguous s) hwithin (Layout.nodup_offsets_contiguous s)
    refine ⟨r, ?_, hs, hholds⟩
    have hnew : Cpu.computeInto c (.empty s d) = .ok () r := hr
    rw [Cpu.compute_eq, houtline, exceptOk_bind, NdArray.updated, hnew]
  · rintro ⟨⟨d', z⟩, l⟩ ho rfl hs hn
    exact hrun hs ho.within hn

lemma Sets.yields_each (h : c.Sets s (each s.indices fun ix _ => w ix))
    (houtline : c.outline = .ok (s, d)) : c.Yields s w :=
  h.yields houtline fun _ hix => Edit.effect_each s.nodup_indices _ hix

lemma Yields.congr {w' : List Nat → d.Elem} (h : c.Yields s w)
    (hw : ∀ ix ∈ s.indices, w ix = w' ix) : c.Yields s w' := by
  refine ⟨?_, fun out ho hd hs hn => ?_⟩
  · obtain ⟨r, hr, rfl, hholds⟩ := h.fresh
    exact ⟨r, hr, rfl, hholds.congr hw⟩
  · obtain ⟨r, hr, hrs, hholds⟩ := h.written out ho hd hs hn
    exact ⟨r, hr, hrs, hholds.congr (hrs ▸ hw)⟩

variable {a b : NdArray} {u v : List Nat → d.Elem}

lemma yields_binary (op : BinaryOp) (ha : a.Holds u) (hb : b.Holds v)
    (hs : Shape.broadcast a.shape b.shape = .ok s) :
    (binary op a b).Yields s fun ix =>
      op.eval (u (a.shape.restrict ix)) (v (b.shape.restrict ix)) := by
  obtain ⟨x, la, rfl, hx, hu⟩ := ha.exists_laid
  obtain ⟨y, lb, rfl, hy, hv⟩ := hb.exists_laid
  obtain ⟨hba, hbb⟩ := Shape.broadcast_below hs
  have houtline : (binary op (laid x la) (laid y lb)).outline = .ok (s, op.resultType d) := by
    rw [outline, Cpu.sameType_laid, exceptOk_bind, hs]
    rfl
  refine ((sets_binary hs (hx.as hba) (hy.as hbb)).yields_each houtline).congr fun ix hix => ?_
  exact congrArg₂ op.eval (hu _ (Shape.restrict_mem hba hix)) (hv _ (Shape.restrict_mem hbb hix))

lemma yields_scalar (op : BinaryOp) (ha : a.Holds u) (q : Scalar) :
    (scalar op a q).Yields a.shape fun ix => op.eval (u ix) (q.convert d) := by
  obtain ⟨x, la, rfl, hx, hu⟩ := ha.exists_laid
  have hsets : (scalar op (laid x la) q).Sets la.shape (each la.shape.indices fun ix _ =>
      op.eval (la.elemAt x ix) (q.convert d)) := by
    refine sets_each fun z l hl hz => ?_
    exact Cpu.scalarInto_writes op q hl hx hz
  exact (hsets.yields_each rfl).congr fun ix hix => by rw [hu ix hix]

lemma yields_unary (op : UnaryOp) (ha : a.Holds u) :
    (unary op a).Yields a.shape fun ix => op.eval (u ix) := by
  obtain ⟨x, la, rfl, hx, hu⟩ := ha.exists_laid
  have hsets : (unary op (laid x la)).Sets la.shape (each la.shape.indices fun ix _ =>
      op.eval (la.elemAt x ix)) := by
    refine sets_each fun z l hl hz => ?_
    exact Cpu.unaryInto_writes op hl hx hz
  exact (hsets.yields_each rfl).congr fun ix hix => by rw [hu ix hix]

def productAt (k : Nat) (u v : List Nat → d.Elem) : List Nat → d.Elem
  | [i, j] => Cpu.dotProduct k (fun p => u [i, p]) fun p => v [p, j]
  | _ => d.zero

lemma yields_matmul {m k n : Nat} (ha : a.Holds u) (hb : b.Holds v) (hsa : a.shape = [m, k])
    (hsb : b.shape = [k, n]) : (matmul a b).Yields [m, n] (productAt k u v) := by
  obtain ⟨x, la, rfl, hx, hu⟩ := ha.exists_laid
  obtain ⟨y, lb, rfl, hy, hv⟩ := hb.exists_laid
  have hla : la.shape = [m, k] := hsa
  have hlb : lb.shape = [k, n] := hsb
  have houtline : (matmul (laid x la) (laid y lb)).outline = .ok ([m, n], d) := by
    rw [outline, Cpu.sameType_laid, exceptOk_bind, Cpu.matmulSizes_eq_ok.mpr ⟨hsa, hsb⟩]
    rfl
  have hedits : Cpu.productEdits (fun i p => la.elemAt x [i, p]) (fun p j => lb.elemAt y [p, j])
      m k n = Cpu.productEdits (fun i p => u [i, p]) (fun p j => v [p, j]) m k n :=
    Cpu.productEdits_congr
      (fun i hi p hp => hu _ (by rw [hla]; exact Layout.mem_indices₂ hi hp))
      (fun p hp j hj => hv _ (by rw [hlb]; exact Layout.mem_indices₂ hp hj))
  have hsets : (matmul (laid x la) (laid y lb)).Sets [m, n]
      (Cpu.productEdits (fun i p => u [i, p]) (fun p j => v [p, j]) m k n) :=
    ⟨fun _ => Cpu.mem_productEdits, fun _ => Cpu.overwrites_productEdits _ _,
      fun z l hl hz => hedits ▸ Cpu.matmulInto_writes hla hlb hl hx hy hz⟩
  refine hsets.yields houtline fun ix hix w => ?_
  obtain ⟨i, hi, j, hj, rfl⟩ := Layout.exists_of_mem_indices₂ hix
  exact Cpu.effect_productEdits _ _ hi hj w

end Call

/-! ### Changes -/

def Change.Leaves (ch : Change) (a : NdArray) (w : List Nat → d.Elem) : Prop :=
  ∃ r, Cpu.change ch a = .ok () r ∧ r.layout = a.layout ∧ r.Holds w

namespace Change

variable {a b : NdArray} {u v : List Nat → d.Elem}

lemma Leaves.congr {ch : Change} {w w' : List Nat → d.Elem} (h : ch.Leaves a w)
    (hw : ∀ ix ∈ a.shape.indices, w ix = w' ix) : ch.Leaves a w' := by
  obtain ⟨r, hr, hlayout, hholds⟩ := h
  have hshape : r.shape = a.shape := congrArg Layout.shape hlayout
  exact ⟨r, hr, hlayout, hholds.congr (hshape ▸ hw)⟩

lemma leaves_of_writes {ch : Change} {x : Buffer d.Elem} {l : Layout}
    {g : List Nat → d.Elem → d.Elem} {w : List Nat → d.Elem}
    (h : Writes (Cpu.change ch) x l (each l.shape.indices g)) (hn : l.offsets.Nodup)
    (hx : l.Within x.size) (hw : ∀ ix ∈ l.shape.indices, g ix (l.elemAt x ix) = w ix) :
    ch.Leaves (laid x l) w := by
  obtain ⟨r, hr, hlayout, hholds⟩ := h.holds (fun _ => Edit.mem_each) hn hx
  have hshape : r.shape = l.shape := congrArg Layout.shape hlayout
  refine ⟨r, hr, hlayout, hholds.congr fun ix hix => ?_⟩
  rw [hshape] at hix
  rw [Edit.effect_each l.shape.nodup_indices g hix, hw ix hix]

lemma leaves_binary {op : BinaryOp} (hr : op.resultType d = d) (ha : a.Holds u) (hb : b.Holds v)
    (hs : Shape.broadcast a.shape b.shape = .ok a.shape) (hn : a.layout.offsets.Nodup) :
    (binary op b).Leaves a fun ix => op.within (u ix) (v (b.shape.restrict ix)) := by
  obtain ⟨x, la, rfl, hx, hu⟩ := ha.exists_laid
  obtain ⟨y, lb, rfl, hy, hv⟩ := hb.exists_laid
  have hbb := (Shape.broadcast_below hs).2
  refine leaves_of_writes (Cpu.binaryInPlace_writes op hr hs hx (hy.as hbb)) hn hx fun ix hix => ?_
  exact congrArg₂ op.within (hu ix hix) (hv _ (Shape.restrict_mem hbb hix))

lemma leaves_scalar {op : BinaryOp} (hr : op.resultType d = d) (ha : a.Holds u) (q : Scalar)
    (hn : a.layout.offsets.Nodup) :
    (scalar op q).Leaves a fun ix => op.within (u ix) (q.convert d) := by
  obtain ⟨x, la, rfl, hx, hu⟩ := ha.exists_laid
  refine leaves_of_writes (Cpu.scalarInPlace_writes op q hr hx) hn hx fun ix hix => ?_
  rw [hu ix hix]

lemma leaves_unary {op : UnaryOp} (hr : op.resultType d = d) (ha : a.Holds u)
    (hn : a.layout.offsets.Nodup) : (unary op).Leaves a fun ix => op.within (u ix) := by
  obtain ⟨x, la, rfl, hx, hu⟩ := ha.exists_laid
  refine leaves_of_writes (Cpu.unaryInPlace_writes op hr hx) hn hx fun ix hix => ?_
  rw [hu ix hix]

end Change

end ArrayBench
