import ArrayBench.Bench.Harness
import ArrayBench.Proofs.Cpu.Products
import ArrayBench.Proofs.Cpu.Results
import ArrayBench.Proofs.Cpu.Sums
import ArrayBench.Proofs.Number.Exact

/-!
Exact results.

On arrays of integers every call that gives integers has a meaning on integers of any size. What the
call computes is the residue of that, and so it is exact where the exact values are values of the
result's format, and nowhere else.
-/

namespace ArrayBench

open NdArray (Holds)
open Word (ofInt)

/-! ### Integers in arrays -/

/-- The array has the format `t` and the integers of `f` at its indices. -/
def NdArray.HoldsInts (a : NdArray) (t : IntType) (f : List Nat → Int) : Prop :=
  ∃ v : List Nat → Word t, a.Holds (d := .int t) v ∧ ∀ ix ∈ a.shape.indices, (v ix).val = f ix

def Scalar.IsInt (s : Scalar) (t : IntType) (x : Int) : Prop :=
  ∃ w : Word t, s = ⟨.int t, w⟩ ∧ w.val = x

lemma NdArray.Holds.ints {a : NdArray} {t : IntType} {v : List Nat → Word t}
    (h : a.Holds (d := .int t) v) : a.HoldsInts t fun ix => (v ix).val :=
  ⟨v, h, fun _ _ => rfl⟩

lemma NdArray.Holds.unique {a : NdArray} {d : DType} {v w : List Nat → d.Elem} (hv : a.Holds v)
    (hw : a.Holds w) {ix : List Nat} (hix : ix ∈ a.shape.indices) : v ix = w ix :=
  Option.some.inj ((hv.elem ix hix).symm.trans (hw.elem ix hix))

/-! ### What is meant -/

def intProductAt (k : Nat) (f g : List Nat → Int) : List Nat → Int
  | [i, j] => ((List.range k).map fun p => f [i, p] * g [p, j]).sum
  | _ => 0

/-- What a call on operands of the format `t` computes on integers of any size. Of the operations on
one array only the absolute value keeps to integers. -/
inductive Call.Means (t : IntType) : Call → (List Nat → Int) → Prop
  | binary (op : BinaryOp) {a b : NdArray} {f g : List Nat → Int} :
    a.HoldsInts t f → b.HoldsInts t g →
    Means t (.binary op a b) fun ix => op.onInt (f (a.shape.restrict ix)) (g (b.shape.restrict ix))
  | scalar (op : BinaryOp) {a : NdArray} {s : Scalar} {f : List Nat → Int} {x : Int} :
    a.HoldsInts t f → s.IsInt t x → Means t (.scalar op a s) fun ix => op.onInt (f ix) x
  | abs {a : NdArray} {f : List Nat → Int} :
    a.HoldsInts t f → Means t (.unary .abs a) fun ix => (f ix).natAbs
  | matmul {a b : NdArray} {f g : List Nat → Int} {m k n : Nat} :
    a.HoldsInts t f → b.HoldsInts t g → a.shape = [m, k] → b.shape = [k, n] →
    Means t (.matmul a b) (intProductAt k f g)

namespace Prepared

/-- What one application of a prepared call computes on integers of any size. -/
inductive Means (t : IntType) : Prepared → (List Nat → Int) → Prop
  | call {c : Call} {out : NdArray} {f : List Nat → Int} : c.Means t f → Means t (.call c out) f
  | change {ch : Change} {a : NdArray} {fill : Scalar} {f : List Nat → Int} :
    (ch.call a).Means t f → Means t (.change ch a fill) f
  | sum {a : NdArray} {f : List Nat → Int} :
    a.HoldsInts t f → Means t (.sum a) fun _ => a.shape.total f
  | sumAxis {a : NdArray} {f : List Nat → Int} {k n : Nat} :
    a.HoldsInts t f → a.shape[k]? = some n →
    Means t (.sumAxis k a) fun jx => ((List.range n).map fun i => f (jx.insertIdx k i)).sum

def resultShape : Prepared → Shape
  | call _ out => out.shape
  | change _ a _ => a.shape
  | sum _ => []
  | sumAxis k a => a.shape.eraseIdx k

/-- One application of a prepared call succeeds and gives words of the format `t`: a call in a new
array and in any target that fits, a change in its own target. -/
def Gives {t : IntType} (p : Prepared) (w : List Nat → Word t) : Prop :=
  match p with
  | call c out => c.Yields (d := .int t) out.shape w
  | change ch a _ => ch.Leaves (d := .int t) a w
  | sum a => Cpu.sum a = .ok ⟨.int t, w []⟩
  | sumAxis k a => ∃ r, Cpu.sumAxis a k = .ok r ∧ r.shape = a.shape.eraseIdx k ∧
      r.Holds (d := .int t) w

def GivesInts (p : Prepared) (t : IntType) (f : List Nat → Int) : Prop :=
  ∃ w : List Nat → Word t, p.Gives w ∧ ∀ ix ∈ p.resultShape.indices, (w ix).val = f ix

variable {t : IntType} {p : Prepared}

/-- What one application gives is determined. -/
lemma Gives.unique {v w : List Nat → Word t} (hv : p.Gives v) (hw : p.Gives w) {ix : List Nat}
    (hix : ix ∈ p.resultShape.indices) : v ix = w ix := by
  -- a call has one result, and that determines what it holds
  cases p with
  | call c out =>
    obtain ⟨r, hr, hs, hholds⟩ := Call.Yields.fresh hv
    obtain ⟨r', hr', -, hholds'⟩ := Call.Yields.fresh hw
    obtain rfl := Except.ok.inj (hr.symm.trans hr')
    exact hholds.unique hholds' (hs ▸ hix)
  | change ch a fill =>
    obtain ⟨r, hr, hs, hholds⟩ := hv
    obtain ⟨r', hr', -, hholds'⟩ := hw
    obtain ⟨-, rfl⟩ := EStateM.Result.ok.inj (hr.symm.trans hr')
    have hshape : r.shape = a.shape := congrArg Layout.shape hs
    exact hholds.unique hholds' (hshape ▸ hix)
  | sum a =>
    obtain rfl := Shape.mem_indices_nil.mp hix
    exact eq_of_heq (Scalar.mk.inj (Except.ok.inj (Eq.trans (Eq.symm hv) hw))).2
  | sumAxis k a =>
    obtain ⟨r, hr, hs, hholds⟩ := hv
    obtain ⟨r', hr', -, hholds'⟩ := hw
    obtain rfl := Except.ok.inj (hr.symm.trans hr')
    exact hholds.unique hholds' (hs ▸ hix)

/-- Residues are exact where the integers are values of the format. -/
lemma Gives.ints_iff {f : List Nat → Int} (h : p.Gives fun ix => (ofInt (f ix) : Word t)) :
    p.GivesInts t f ↔ ∀ ix ∈ p.resultShape.indices, t.Contains (f ix) := by
  constructor
  · rintro ⟨w, hw, hf⟩ ix hix
    rw [← Word.val_ofInt_eq_iff, h.unique hw hix, hf ix hix]
  · intro hcontains
    exact ⟨_, h, fun ix hix => Word.val_ofInt_eq_iff.mpr (hcontains ix hix)⟩

/-! ### Residues -/

section Residues

variable {a b : NdArray} {u v : List Nat → Word t}

lemma gives_binary {op : BinaryOp} (hr : op.resultType (.int t) = .int t)
    (hpow : op = .pow → ∀ ix, (v ix).val < 2 ^ (32 : Nat)) (ha : a.Holds (d := .int t) u)
    (hb : b.Holds (d := .int t) v) {out : NdArray}
    (hs : Shape.broadcast a.shape b.shape = .ok out.shape) :
    (call (.binary op a b) out).Gives fun ix => (ofInt (op.onInt (u (a.shape.restrict ix)).val
      (v (b.shape.restrict ix)).val) : Word t) := by
  have hyields := BinaryOp.within_of_eval hr
    (P := fun e f => (Call.binary op a b).Yields (d := e) out.shape fun ix =>
      f (u (a.shape.restrict ix)) (v (b.shape.restrict ix)))
    (Call.yields_binary op ha hb hs)
  exact hyields.congr fun ix _ => Word.onWord_eq fun hop => hpow hop _

lemma gives_binary_inPlace {op : BinaryOp} (hr : op.resultType (.int t) = .int t)
    (hpow : op = .pow → ∀ ix, (v ix).val < 2 ^ (32 : Nat)) (ha : a.Holds (d := .int t) u)
    (hb : b.Holds (d := .int t) v) (hs : Shape.broadcast a.shape b.shape = .ok a.shape)
    (hn : a.layout.offsets.Nodup) (fill : Scalar) :
    (change (.binary op b) a fill).Gives fun ix => (ofInt (op.onInt (u (a.shape.restrict ix)).val
      (v (b.shape.restrict ix)).val) : Word t) := by
  refine (Change.leaves_binary hr ha hb hs hn).congr fun ix hix => ?_
  rw [Shape.restrict_of_mem hix]
  exact Word.onWord_eq fun hop => hpow hop _

lemma gives_scalar {op : BinaryOp} (hr : op.resultType (.int t) = .int t) {q : Word t}
    (hpow : op = .pow → q.val < 2 ^ (32 : Nat)) (ha : a.Holds (d := .int t) u) {out : NdArray}
    (hs : out.shape = a.shape) :
    (call (.scalar op a ⟨.int t, q⟩) out).Gives fun ix =>
      (ofInt (op.onInt (u ix).val q.val) : Word t) := by
  have hyields := BinaryOp.within_of_eval hr
    (P := fun e f => (Call.scalar op a ⟨.int t, q⟩).Yields (d := e) a.shape fun ix =>
      f (u ix) (ofInt q.val : Word t))
    (Call.yields_scalar op ha ⟨.int t, q⟩)
  rw [Word.ofInt_val, ← hs] at hyields
  exact hyields.congr fun ix _ => Word.onWord_eq hpow

lemma gives_scalar_inPlace {op : BinaryOp} (hr : op.resultType (.int t) = .int t) {q : Word t}
    (hpow : op = .pow → q.val < 2 ^ (32 : Nat)) (ha : a.Holds (d := .int t) u)
    (hn : a.layout.offsets.Nodup) (fill : Scalar) :
    (change (.scalar op ⟨.int t, q⟩) a fill).Gives fun ix =>
      (ofInt (op.onInt (u ix).val q.val) : Word t) := by
  have hleaves := Change.leaves_scalar hr ha ⟨.int t, q⟩ hn
  refine hleaves.congr fun ix _ => ?_
  have hconvert : (Scalar.convert ⟨.int t, q⟩ (.int t) : Word t) = q := Word.ofInt_val q
  rw [hconvert]
  exact Word.onWord_eq hpow

lemma gives_abs (ha : a.Holds (d := .int t) u) {out : NdArray} (hs : out.shape = a.shape) :
    (call (.unary .abs a) out).Gives fun ix => (ofInt (u ix).val.natAbs : Word t) := by
  have hyields := Call.yields_unary .abs ha
  rwa [← hs] at hyields

lemma gives_abs_inPlace (ha : a.Holds (d := .int t) u) (hn : a.layout.offsets.Nodup)
    (fill : Scalar) :
    (change (.unary .abs) a fill).Gives fun ix => (ofInt (u ix).val.natAbs : Word t) :=
  Change.leaves_unary rfl ha hn

lemma gives_matmul {m k n : Nat} (ha : a.Holds (d := .int t) u) (hb : b.Holds (d := .int t) v)
    (hsa : a.shape = [m, k]) (hsb : b.shape = [k, n]) {out : NdArray} (hs : out.shape = [m, n]) :
    (call (.matmul a b) out).Gives fun ix =>
      (ofInt (intProductAt k (fun ix => (u ix).val) (fun ix => (v ix).val) ix) : Word t) := by
  have hyields := Call.yields_matmul ha hb hsa hsb
  rw [← hs] at hyields
  refine hyields.congr fun ix hix => ?_
  rw [hs] at hix
  obtain ⟨i, -, j, -, rfl⟩ := Layout.exists_of_mem_indices₂ hix
  exact Cpu.dotProduct_int k _ _

lemma gives_sum (ha : a.Holds (d := .int t) u) :
    (sum a).Gives fun _ =>
      (ofInt (a.shape.total fun ix => (u ix).val) : Word ⟨t.signed, .w64⟩) :=
  Cpu.sum_of_holds_int ha

lemma gives_sumAxis (ha : a.Holds (d := .int t) u) {k n : Nat} (hk : a.shape[k]? = some n) :
    (sumAxis k a).Gives fun jx =>
      (ofInt ((List.range n).map fun i => (u (jx.insertIdx k i)).val).sum :
        Word ⟨t.signed, .w64⟩) := by
  obtain ⟨r, hr, hlayout, hholds⟩ := Cpu.sumAxis_of_holds_int ha hk
  refine ⟨r, hr, ?_, hholds⟩
  rw [NdArray.shape, hlayout, Layout.shape_contiguous]

end Residues

end Prepared

end ArrayBench
