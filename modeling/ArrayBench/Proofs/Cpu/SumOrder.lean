import ArrayBench.Proofs.Cpu.Sums
import ArrayBench.Proofs.Layout.Chains

/-!
Sums in any order of the axes.

The sum of an array of integers is the residue of an exact sum over all its indices. The sums along
an axis are such residues too, and of the exact sums any axis may be summed over first. So an array
and its sums along an axis have the same sum, and this is kept from step to step, whichever axes are
chosen and wherever the steps end. When no axis is left the sum is that of a single element, which
is that element, widened if no step was made.
-/

namespace ArrayBench

open NdArray (Holds laid)

lemma Word.val_widen {b : Bool} {w : Width} (u : Word ⟨b, w⟩) :
    (Word.ofInt u.val : Word ⟨b, .w64⟩).val = u.val := by
  have hlo : (⟨b, .w64⟩ : IntType).lo ≤ (⟨b, w⟩ : IntType).lo := by
    cases b <;> cases w <;> decide
  have hhi : (⟨b, w⟩ : IntType).hi ≤ (⟨b, .w64⟩ : IntType).hi := by
    cases b <;> cases w <;> decide
  exact IntType.wrap_eq_self (Int.le_trans hlo u.lo_le) (Int.le_trans u.le_hi hhi)

lemma NdArray.holds_transposed {a : NdArray} {d : DType} {v : List Nat → d.Elem} (h : a.Holds v) :
    a.transposed.Holds fun ix => v ix.reverse := by
  refine ⟨h.dtype, fun ix hix => ?_⟩
  rw [← h.elem ix.reverse (Layout.reverse_mem_indices hix)]
  have hplace := Layout.offsetAt_transposed (l := a.layout) (Shape.fits_of_mem hix)
  exact congrArg (fun i => a.storage.as? d >>= fun x => x.get? i) hplace

namespace Cpu

def SumsTo (a : NdArray) {b : Bool} (s : Word ⟨b, .w64⟩) : Prop :=
  ∃ (w : Width) (v : List Nat → Word ⟨b, w⟩),
    a.Holds (d := .int ⟨b, w⟩) v ∧ Word.ofInt (a.shape.total fun ix => (v ix).val) = s

def sumAxes (a : NdArray) (ks : List Nat) : Except ArrayError NdArray := ks.foldlM sumAxis a

namespace SumsTo

variable {a r : NdArray} {b : Bool} {s : Word ⟨b, .w64⟩}

lemma sum (h : SumsTo a s) : Cpu.sum a = .ok ⟨.int ⟨b, .w64⟩, s⟩ := by
  obtain ⟨w, v, hv, rfl⟩ := h
  exact sum_of_holds_int hv

lemma transposed (h : SumsTo a s) : SumsTo a.transposed s := by
  obtain ⟨w, v, hv, rfl⟩ := h
  refine ⟨w, _, NdArray.holds_transposed hv, ?_⟩
  have hshape : a.transposed.shape = a.shape.reverse := Layout.shape_transposed a.layout
  rw [hshape, Shape.total_reverse]
  simp only [List.reverse_reverse]

lemma sumAxis_ok_iff (h : SumsTo a s) (k : Nat) : (∃ r, sumAxis a k = .ok r) ↔ k < a.ndim := by
  obtain ⟨w, v, hv, -⟩ := h
  exact Cpu.sumAxis_ok_iff hv k

/-- One step keeps the sum. The exact sum is one over the sums along the axis, and there are only
the residues of these left. -/
lemma sumAxis (h : SumsTo a s) {k : Nat} (hr : sumAxis a k = .ok r) :
    SumsTo r s ∧ r.dtype = .int ⟨b, .w64⟩ ∧ r.ndim + 1 = a.ndim := by
  have hk : k < a.ndim := (h.sumAxis_ok_iff k).mp ⟨r, hr⟩
  obtain ⟨w, v, hv, rfl⟩ := h
  have hsize : a.shape[k]? = some a.shape[k] := List.getElem?_eq_getElem hk
  obtain ⟨r', hr', hlayout, hholds⟩ := sumAxis_of_holds_int hv hsize
  obtain rfl := Except.ok.inj (hr.symm.trans hr')
  have hshape : r.shape = a.shape.eraseIdx k := by
    rw [NdArray.shape, hlayout, Layout.shape_contiguous]
  refine ⟨⟨.w64, _, hholds, ?_⟩, hholds.dtype, ?_⟩
  · rw [hshape, Shape.total_eraseIdx hsize]
    exact Word.ofInt_sum_congr fun jx _ => Word.ofInt_val _
  · rw [NdArray.ndim, hshape]
    exact List.length_eraseIdx_add_one hk

lemma sumAxes {ks : List Nat} (h : SumsTo a s) (hr : sumAxes a ks = .ok r) :
    SumsTo r s ∧ (ks ≠ [] → r.dtype = .int ⟨b, .w64⟩) ∧ r.ndim + ks.length = a.ndim := by
  -- on the steps, from the first one on: each keeps the sum and widens the type
  induction ks generalizing a with
  | nil =>
    obtain rfl := Except.ok.inj hr
    exact ⟨h, fun hne => absurd rfl hne, rfl⟩
  | cons k ks ih =>
    rw [Cpu.sumAxes, List.foldlM_cons] at hr
    obtain ⟨a', hstep, hrest⟩ := exceptBind_eq_ok.mp hr
    obtain ⟨hsum', hdtype', hndim'⟩ := h.sumAxis hstep
    obtain ⟨hsum, hdtype, hndim⟩ := ih hsum' hrest
    refine ⟨hsum, fun _ => ?_, ?_⟩
    · cases ks with
      | nil =>
        obtain rfl := Except.ok.inj hrest
        exact hdtype'
      | cons => exact hdtype (List.cons_ne_nil _ _)
    · rw [List.length_cons, ← Nat.add_assoc, hndim, hndim']

/-- A run is accepted if each axis is one of those that are left when its turn comes. -/
lemma sumAxes_ok_iff (h : SumsTo a s) (ks : List Nat) :
    (∃ r, Cpu.sumAxes a ks = .ok r) ↔ ∀ i (hi : i < ks.length), ks[i] + i < a.ndim := by
  -- each step leaves one axis less for those after it
  induction ks generalizing a with
  | nil => exact ⟨fun _ i hi => absurd hi (Nat.not_lt_zero i), fun _ => ⟨a, rfl⟩⟩
  | cons k ks ih =>
    rw [Cpu.sumAxes, List.foldlM_cons]
    constructor
    · rintro ⟨r, hr⟩ i hi
      obtain ⟨a', hstep, hrest⟩ := exceptBind_eq_ok.mp hr
      obtain ⟨hsum', -, hndim'⟩ := h.sumAxis hstep
      cases i with
      | zero => exact (h.sumAxis_ok_iff k).mp ⟨a', hstep⟩
      | succ i =>
        have hlt := (ih hsum').mp ⟨r, hrest⟩ i (Nat.lt_of_succ_lt_succ hi)
        rw [List.getElem_cons_succ]
        omega
    · intro hks
      obtain ⟨a', hstep⟩ := (h.sumAxis_ok_iff k).mpr (hks 0 (Nat.zero_lt_succ _))
      obtain ⟨hsum', -, hndim'⟩ := h.sumAxis hstep
      obtain ⟨r, hrest⟩ := (ih hsum').mpr fun i hi => by
        have hlt := hks (i + 1) (Nat.succ_lt_succ hi)
        rw [List.getElem_cons_succ] at hlt
        omega
      exact ⟨r, exceptBind_eq_ok.mpr ⟨a', hstep, hrest⟩⟩

/-- Without axes there is one element, and it is the sum. -/
lemma single (h : SumsTo a s) (hndim : a.ndim = 0) :
    ∃ (w : Width) (u : Word ⟨b, w⟩), a.dtype = .int ⟨b, w⟩ ∧ a.toElems (.int ⟨b, w⟩) = .ok [u] ∧
      u.val = s.val := by
  obtain ⟨w, v, hv, rfl⟩ := h
  have hshape : a.shape = [] := List.eq_nil_of_length_eq_zero hndim
  refine ⟨w, v [], hv.dtype, ?_, ?_⟩
  · obtain ⟨x, l, rfl, hx, helem⟩ := hv.exists_laid
    have hl : l.shape = [] := hshape
    rw [NdArray.toElems_laid hx, hl, Shape.indices_nil, List.map_singleton, helem [] (by simp [hl])]
  · have htotal : (a.shape.total fun ix => (v ix).val) = (v []).val := by simp [hshape, Shape.total]
    rw [htotal, Word.val_widen]

end SumsTo

/-! ### All of it together -/

/-- Whichever axes of an array are summed over, one after the other, what is left sums to `s`. -/
structure CollapsesTo (a : NdArray) {b : Bool} (s : Word ⟨b, .w64⟩) : Prop where
  sum : sum a = .ok ⟨.int ⟨b, .w64⟩, s⟩
  transposed : Cpu.sum a.transposed = .ok ⟨.int ⟨b, .w64⟩, s⟩
  accepted : ∀ ks, (∃ r, sumAxes a ks = .ok r) ↔ ∀ i (hi : i < ks.length), ks[i] + i < a.ndim
  rank : ∀ ks r, sumAxes a ks = .ok r → r.ndim + ks.length = a.ndim
  stopped : ∀ ks r, sumAxes a ks = .ok r → Cpu.sum r = .ok ⟨.int ⟨b, .w64⟩, s⟩
  widened : ∀ ks r, sumAxes a ks = .ok r → ks ≠ [] → r.dtype = .int ⟨b, .w64⟩
  finished : ∀ ks r, sumAxes a ks = .ok r → r.ndim = 0 →
    ∃ (w : Width) (u : Word ⟨b, w⟩), r.dtype = .int ⟨b, w⟩ ∧ r.toElems (.int ⟨b, w⟩) = .ok [u] ∧
      u.val = s.val

/-- **Sums in any order**: the axes of an array of integers may be summed over in any order. -/
theorem sums_in_any_order {a : NdArray} (ha : a.WellFormed) {t : IntType}
    (ht : a.dtype = .int t) : ∃ s : Word ⟨t.signed, .w64⟩, CollapsesTo a s := by
  obtain ⟨⟨d, x⟩, l⟩ := a
  obtain rfl : d = .int t := ht
  have h : SumsTo (laid x l) _ := ⟨t.width, _, NdArray.holds_laid ha.within, rfl⟩
  exact ⟨_,
    { sum := h.sum
      transposed := h.transposed.sum
      accepted := h.sumAxes_ok_iff
      rank := fun ks r hr => (h.sumAxes hr).2.2
      stopped := fun ks r hr => (h.sumAxes hr).1.sum
      widened := fun ks r hr => (h.sumAxes hr).2.1
      finished := fun ks r hr => (h.sumAxes hr).1.single }⟩

/-- The middle axis, then the last, then the first, of an array of bytes that is broadcast and
transposed. The sum is out of the range of bytes. -/
theorem sums_in_any_order_broadcast :
    ∃ (l : Layout) (r : NdArray), (Layout.contiguous [3, 1]).broadcastTo [2, 3, 2] = .ok l ∧
      sum ⟨⟨.int8, .items #[100, 90, 80]⟩, l.transposed⟩ = .ok ⟨.int64, 1080⟩ ∧
      sumAxes ⟨⟨.int8, .items #[100, 90, 80]⟩, l.transposed⟩ [1, 1, 0] = .ok r ∧
      r.toElems .int64 = .ok [1080] := by
  have hview : (Layout.contiguous [3, 1]).broadcastTo [2, 3, 2] =
      .ok ⟨[⟨2, 0⟩, ⟨3, 1⟩, ⟨2, 0⟩], 0⟩ := by decide
  obtain ⟨s, hs⟩ := sums_in_any_order
    (a := ⟨⟨.int8, .items #[100, 90, 80]⟩, (Layout.mk [⟨2, 0⟩, ⟨3, 1⟩, ⟨2, 0⟩] 0).transposed⟩)
    (by decide) (t := .mk true .w8) rfl
  have hsum : sum ⟨⟨.int8, .items #[100, 90, 80]⟩,
      (Layout.mk [⟨2, 0⟩, ⟨3, 1⟩, ⟨2, 0⟩] 0).transposed⟩ = .ok ⟨.int64, 1080⟩ := rfl
  cases hs.sum.symm.trans hsum
  obtain ⟨r, hr⟩ := (hs.accepted [1, 1, 0]).mpr (by decide)
  have hdtype := hs.widened _ r hr (List.cons_ne_nil _ _)
  obtain ⟨w, u, hu, helems, hval⟩ := hs.finished _ r hr (Nat.add_right_cancel (hs.rank _ r hr))
  cases hdtype.symm.trans hu
  rw [Word.ext hval] at helems
  exact ⟨_, r, hview, hsum, hr, helems⟩

end Cpu

end ArrayBench
