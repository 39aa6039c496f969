import ArrayBench.Proofs.Cpu.Forms

/-!
Short cuts for contiguous layouts.

Where every layout involved is contiguous a loop runs through the positions from zero on, up to the
number of elements, after it has made sure that they are there. These are the offsets of the layout
in their order, and layouts of one shape that are both contiguous are the same. So the loop visits
what it would visit by the offsets, step for step. It ends at the number of elements, and what the
storage has behind them is kept.
-/

namespace ArrayBench

open Edit (place)
open Buffer (Edited Makes)
open NdArray (laid)

lemma Buffer.Edited.toArray_eq {α : Type} {es : List (Edit Nat α)} {x y y' : Buffer α}
    (h : Edited es x y) (h' : Edited es x y') : y.toArray = y'.toArray := by
  refine Array.ext_getElem? fun p => ?_
  rw [getElem?_toArray, getElem?_toArray, h.get, h'.get]

namespace Cpu

/-! ### What is left behind -/

variable {d : DType} {l : Layout} {x : Buffer d.Elem}

/-- A loop over a buffer leaves the elements that the loop without a short cut would leave. -/
structure AsStrided (l : Layout) (x : Buffer d.Elem) (loop strided : BufferStep d.Elem Unit) :
    Prop where
  same : ∃ y y', loop x = .ok () y ∧ strided x = .ok () y' ∧ y.toArray = y'.toArray
  /-- Behind the elements of a contiguous layout nothing is written. -/
  kept : l.isContiguous = true → ∀ y, loop x = .ok () y → ∀ p, l.numel ≤ p → y.get? p = x.get? p

lemma asStrided_of_makes {loop strided : BufferStep d.Elem Unit}
    {es : List (Edit (List Nat) d.Elem)} (h : Makes loop (place l.offsetAt es) x)
    (h' : Makes strided (place l.offsetAt es) x) (hes : ∀ e ∈ es, e.1 ∈ l.shape.indices) :
    AsStrided l x loop strided := by
  obtain ⟨y, hy, hxy⟩ := h
  obtain ⟨y', hy', hxy'⟩ := h'
  refine ⟨⟨y, y', hy, hy', hxy.toArray_eq hxy'⟩, fun hc w hw p hp => ?_⟩
  obtain ⟨-, rfl⟩ := EStateM.Result.ok.inj (hw.symm.trans hy)
  have hbehind : p ∉ l.offsets := by
    rw [Layout.offsets_of_isContiguous hc, List.mem_range]
    exact Nat.not_lt.mpr hp
  exact NdArray.get?_of_edited hxy hes hbehind

/-! ### All of it together -/

structure ShortCutsExact : Prop where
  offsets : ∀ l : Layout, l.isContiguous = true → l.offsets = List.range l.numel
  mapInPlace : ∀ (d : DType) (f : d.Elem → d.Elem) (x : Buffer d.Elem) (l : Layout),
    (laid x l).WellFormed → AsStrided l x (mapInPlace f l) (Strided.mapInPlace f l)
  zipInPlace : ∀ (d e : DType) (f : d.Elem → e.Elem → d.Elem) (x : Buffer d.Elem) (l : Layout)
    (y : Buffer e.Elem) (ly : Layout), (laid x l).WellFormed → (laid y ly).WellFormed →
    ly.shape = l.shape → AsStrided l x (zipInPlace f l y ly) (Strided.zipInPlace f l y ly)
  mapInto : ∀ (d e : DType) (f : d.Elem → e.Elem) (x : Buffer d.Elem) (lx : Layout)
    (z : Buffer e.Elem) (l : Layout), (laid x lx).WellFormed → (laid z l).WellFormed →
    lx.shape = l.shape → AsStrided l z (mapInto f x lx l) (Strided.mapInto f x lx l)
  zipInto : ∀ (d e r : DType) (f : d.Elem → e.Elem → r.Elem) (x : Buffer d.Elem) (lx : Layout)
    (y : Buffer e.Elem) (ly : Layout) (z : Buffer r.Elem) (l : Layout),
    (laid x lx).WellFormed → (laid y ly).WellFormed → (laid z l).WellFormed →
    lx.shape = l.shape → ly.shape = l.shape →
    AsStrided l z (zipInto f x lx y ly l) (Strided.zipInto f x lx y ly l)
  fillElems : ∀ (d : DType) (v : d.Elem) (x : Buffer d.Elem) (l : Layout),
    (laid x l).WellFormed → AsStrided l x (NdArray.fillElems l v) (Strided.fillElems l v)
  /-- Sums are formed in the same order, so that they are the same where the order matters too. -/
  sumElems : ∀ (d : DType) (x : Buffer d.Elem) (l : Layout), (laid x l).WellFormed →
    ∃ s, sumElems x l = .ok s ∧ Strided.sumElems x l = .ok s

/-- **Short cuts** are not to be told from the loops that they cut short. -/
theorem short_cuts_exact : ShortCutsExact where
  offsets _ h := Layout.offsets_of_isContiguous h
  mapInPlace _ f _ _ hx :=
    asStrided_of_makes (mapInPlace_makes f hx.within) (Strided.mapInPlace_makes f hx.within)
      fun _ => Edit.mem_each
  zipInPlace _ _ f _ _ _ _ hx hy hs :=
    asStrided_of_makes (zipInPlace_makes f hs hx.within hy.within)
      (Strided.zipInPlace_makes f hs hx.within hy.within) fun _ => Edit.mem_each
  mapInto _ _ f _ _ _ _ hx hz hs :=
    asStrided_of_makes (mapInto_makes f hs hx.within hz.within)
      (Strided.mapInto_makes f hs hx.within hz.within) fun _ => Edit.mem_each
  zipInto _ _ _ f _ _ _ _ _ _ hx hy hz hsx hsy :=
    asStrided_of_makes (zipInto_makes f hsx hsy hx.within hy.within hz.within)
      (Strided.zipInto_makes f hsx hsy hx.within hy.within hz.within) fun _ => Edit.mem_each
  fillElems _ v _ _ hx :=
    asStrided_of_makes (NdArray.fillElems_makes v hx.within) (Strided.fillElems_makes v hx.within)
      fun _ => Edit.mem_each
  sumElems _ _ _ hx := ⟨_, sumElems_eq hx.within, Strided.sumElems_eq hx.within⟩

/-- A row is filled up to its end, and a fourth element behind it is kept. -/
example : NdArray.fillElems (.contiguous [3]) 7 (.items #[1, 2, 3, 4]) =
    .ok () (.items #[7, 7, 7, 4]) := rfl

end Cpu

end ArrayBench
