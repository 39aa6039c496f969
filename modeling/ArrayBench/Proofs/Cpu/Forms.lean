import ArrayBench.Proofs.Cpu.Alike

/-!
Two forms of one call.

The allocating form writes into a new array of zeros, the buffered form over whatever its target
holds and along whatever strides. A call sets the elements of both by the same edits, and these
leave nothing of the old elements. So where no two elements of the target share a position it reads
as the new array. What lies between its elements is kept in any case.
-/

namespace ArrayBench

open Edit (each place)
open Buffer (Edited)

def Storage.scalar? (x : Storage) (p : Nat) : Option Scalar :=
  (x.data.get? p).map (Scalar.mk x.dtype)

namespace NdArray

/-- `b` differs from `a` in its elements only, and nowhere between them. -/
structure Rewritten (a b : NdArray) : Prop extends SameFrame a b where
  elsewhere : ∀ p, p ∉ a.layout.offsets → b.storage.scalar? p = a.storage.scalar? p

variable {d : DType} {l : Layout} {x y : Buffer d.Elem} {es : List (Edit (List Nat) d.Elem)}

/-- Edits at the indices of a layout leave every other position alone. -/
lemma get?_of_edited (h : Edited (place l.offsetAt es) x y)
    (hes : ∀ e ∈ es, e.1 ∈ l.shape.indices) {p : Nat} (hp : p ∉ l.offsets) :
    y.get? p = x.get? p := by
  have hother : ∀ e ∈ place l.offsetAt es, e.1 ≠ p := by
    intro e he
    obtain ⟨e', he', rfl⟩ := List.mem_map.mp he
    rintro rfl
    exact hp (Layout.mem_offsets.mpr ⟨e'.1, hes e' he', rfl⟩)
  have hid : Edit.effect (place l.offsetAt es) p = id :=
    funext fun v => Edit.effect_of_forall_ne hother v
  rw [h.get, hid, Option.map_id, id]

lemma rewritten_of_edited (h : Edited (place l.offsetAt es) x y)
    (hes : ∀ e ∈ es, e.1 ∈ l.shape.indices) : Rewritten (laid x l) (laid y l) where
  toSameFrame := sameFrame_of_edited h l
  elsewhere _ hp := congrArg (Option.map (Scalar.mk d)) (get?_of_edited h hes hp)

lemma Alike.exists_elems {a b : NdArray} (h : a.Alike b) (ha : a.WellFormed) :
    ∃ vs : List a.dtype.Elem, a.toElems a.dtype = .ok vs ∧ b.toElems a.dtype = .ok vs := by
  have helems : a.toElems a.dtype = _ := toElems_laid ha.within
  exact ⟨_, helems, (h.elems a.dtype).symm.trans helems⟩

end NdArray

namespace Cpu

open NdArray (Rewritten laid)

/-! ### When a form succeeds -/

lemma computeInto_ok_iff {c : Call} {out : NdArray} (hc : c.WellFormed) (ho : out.WellFormed) :
    (∃ b, computeInto c out = .ok () b) ↔ c.checks out = .ok () := by
  constructor
  · rintro ⟨b, hb⟩
    cases h : c.checks out with
    | ok u => rfl
    | error e =>
      rw [computeInto_of_refused h] at hb
      cases hb
  · intro h
    obtain ⟨b, hb, -⟩ := computeInto_settles_ok hc ho h
    exact ⟨b, hb⟩

/-- The allocating form gives a result that fits a target exactly if the target passes the
checks. -/
lemma compute_fits_iff {c : Call} (hc : c.WellFormed) (out : NdArray) :
    (∃ r, compute c = .ok r ∧ r.dtype = out.dtype ∧ r.shape = out.shape) ↔
      c.checks out = .ok () := by
  have hdelivers := compute_delivers hc
  rw [Call.checks_eq_ok]
  -- the outline of a call decides whether there is a result, and its shape and type
  cases h : c.outline with
  | ok o =>
    obtain ⟨s, d⟩ := o
    rw [h] at hdelivers
    obtain ⟨r, hr, -, rfl, rfl⟩ := hdelivers
    constructor
    · rintro ⟨r', hr', hd, hs⟩
      obtain rfl := Except.ok.inj (hr.symm.trans hr')
      rw [hd, hs]
    · intro heq
      obtain ⟨hs, hd⟩ := Prod.mk.inj (Except.ok.inj heq)
      exact ⟨r, hr, hd, hs⟩
  | error e =>
    rw [h] at hdelivers
    rw [hdelivers.2]
    constructor
    · rintro ⟨r, hr, -⟩
      cases hr
    · intro heq
      cases heq

/-! ### What a form leaves behind -/

lemma forms_of_checks {c : Call} {out : NdArray} (hc : c.WellFormed) (ho : out.WellFormed)
    (h : c.checks out = .ok ()) :
    ∃ b r, computeInto c out = .ok () b ∧ compute c = .ok r ∧ Rewritten out b ∧
      (out.layout.offsets.Nodup → b.Alike r) := by
  obtain ⟨⟨d, z⟩, l⟩ := out
  have houtline : c.outline = .ok (l.shape, d) := Call.checks_eq_ok.mp h
  obtain ⟨es, hes⟩ := Call.exists_sets houtline (hc.readable houtline)
  obtain ⟨y, hy, hzy⟩ := hes.writes z l rfl ho.within
  obtain ⟨y', hy', hxy'⟩ := hes.compute houtline
  have hshape := Layout.shape_contiguous l.shape
  refine ⟨_, _, hy, hy', NdArray.rewritten_of_edited hzy hes.mem, fun hn => ?_⟩
  exact NdArray.alike_of_edited hzy hxy' hshape.symm hes.mem (by rw [hshape]; exact hes.mem)
    ho.within (Layout.within_contiguous _) hn (Layout.nodup_offsets_contiguous _)
    fun ix hix => hes.overwrites ix hix _ _

/-! ### All of it together -/

/-- The buffered form of a call does to a target what the allocating form makes anew. -/
structure FormsAgree (c : Call) (out : NdArray) : Prop where
  accepted : (∃ b, computeInto c out = .ok () b) ↔
    ∃ r, compute c = .ok r ∧ r.dtype = out.dtype ∧ r.shape = out.shape
  rewritten : ∀ b, computeInto c out = .ok () b → Rewritten out b
  /-- What the target held is gone, if no two of its elements share a position. -/
  elems : ∀ b r, computeInto c out = .ok () b → compute c = .ok r → out.layout.offsets.Nodup →
    ∃ vs : List out.dtype.Elem, b.toElems out.dtype = .ok vs ∧ r.toElems out.dtype = .ok vs

/-- **Two forms of one call**: writing a result over a target gives the elements that a new array
would have, and changes nothing else. -/
theorem forms_agree {c : Call} {out : NdArray} (hc : c.WellFormed) (ho : out.WellFormed) :
    FormsAgree c out := by
  have haccepted := computeInto_ok_iff hc ho
  refine ⟨haccepted.trans (compute_fits_iff hc out).symm, fun b hb => ?_, fun b r hb hr hn => ?_⟩
  · obtain ⟨b', r, hb', -, hrewritten, -⟩ := forms_of_checks hc ho (haccepted.mp ⟨b, hb⟩)
    obtain ⟨-, rfl⟩ := EStateM.Result.ok.inj (hb.symm.trans hb')
    exact hrewritten
  · obtain ⟨b', r', hb', hr', hrewritten, halike⟩ :=
      forms_of_checks hc ho (haccepted.mp ⟨b, hb⟩)
    obtain ⟨-, rfl⟩ := EStateM.Result.ok.inj (hb.symm.trans hb')
    obtain rfl := Except.ok.inj (hr.symm.trans hr')
    have helems := (halike hn).exists_elems (hrewritten.wellFormed ho)
    rwa [hrewritten.dtype] at helems

/-- A product of a matrix with its own transpose, over the old elements of a matrix that lies in
storage column by column, with a gap before each column. -/
theorem forms_agree_product :
    (∃ b, computeInto (.matmul (.ones [2, 3] .int32) (NdArray.ones [2, 3] .int32).transposed)
        ⟨.filled .int32 6 (.ofFloat .int32 7), ⟨[⟨2, 1⟩, ⟨2, 3⟩], 1⟩⟩ = .ok () b) ∧
      FormsAgree (.matmul (.ones [2, 3] .int32) (NdArray.ones [2, 3] .int32).transposed)
        ⟨.filled .int32 6 (.ofFloat .int32 7), ⟨[⟨2, 1⟩, ⟨2, 3⟩], 1⟩⟩ := by
  have hones : (NdArray.ones [2, 3] .int32).WellFormed := NdArray.wellFormed_full _ _ _
  have hc : (Call.matmul (.ones [2, 3] .int32)
      (NdArray.ones [2, 3] .int32).transposed).WellFormed :=
    Call.wellFormed_matmul.mpr ⟨hones, hones.transposed⟩
  have ho : NdArray.WellFormed
      ⟨.filled .int32 6 (.ofFloat .int32 7), ⟨[⟨2, 1⟩, ⟨2, 3⟩], 1⟩⟩ := by decide
  exact ⟨(computeInto_ok_iff hc ho).mpr rfl, forms_agree hc ho⟩

end Cpu

end ArrayBench
