import Mathlib.Tactic.Lemma
import ArrayBench.Number.Word

/-!
Sums on fixed-width integers.

Wrapping keeps residues, and sums respect residues. So a sum that wraps after each term ends at the
residue of the exact sum, however often it has left the range on the way, and at the exact sum
itself if that is a value of the format.
-/

namespace ArrayBench

namespace IntType

lemma wrap_emod (t : IntType) (x : Int) : t.wrap x % t.modulus = x % t.modulus := by
  rw [wrap, Int.emod_add_emod, Int.sub_add_cancel]

end IntType

namespace Word

variable {t : IntType} {ι : Type}

lemma ofInt_eq_ofInt_iff {x y : Int} :
    (ofInt x : Word t) = ofInt y ↔ x % t.modulus = y % t.modulus := by
  rw [← IntType.wrap_eq_wrap_iff]
  exact ⟨congrArg val, fun h => ext h⟩

lemma ofInt_add_ofInt (x y : Int) : (ofInt x : Word t) + ofInt y = ofInt (x + y) := by
  have hsum : (ofInt x : Word t) + ofInt y = ofInt (t.wrap x + t.wrap y) := rfl
  rw [hsum, ofInt_eq_ofInt_iff, Int.add_emod, IntType.wrap_emod, IntType.wrap_emod,
    ← Int.add_emod]

/-- A sum that wraps after each term is the residue of the exact sum. -/
lemma foldl_add_ofInt (f : ι → Int) (is : List ι) (x : Int) :
    is.foldl (fun acc i => acc + ofInt (f i)) (ofInt x : Word t) =
      ofInt (x + (is.map f).sum) := by
  induction is generalizing x with
  | nil => simp
  | cons i is ih =>
    rw [List.foldl_cons, ofInt_add_ofInt, ih, List.map_cons, List.sum_cons, Int.add_assoc]

/-- Terms with the same residues have a sum with the same residue. -/
lemma ofInt_sum_congr {f g : ι → Int} {is : List ι}
    (h : ∀ i ∈ is, (ofInt (f i) : Word t) = ofInt (g i)) :
    (ofInt (is.map f).sum : Word t) = ofInt (is.map g).sum := by
  induction is with
  | nil => rfl
  | cons i is ih =>
    rw [List.map_cons, List.map_cons, List.sum_cons, List.sum_cons, ← ofInt_add_ofInt,
      ← ofInt_add_ofInt, h i (by simp), ih fun j hj => h j (by simp [hj])]

/-- The sum of some integers as far as the format can hold it. -/
structure IsSum (s : Word t) (xs : List Int) : Prop where
  emod : s.val % (2 : Int) ^ t.bits = xs.sum % (2 : Int) ^ t.bits
  exact : t.lo ≤ xs.sum → xs.sum ≤ t.hi → s.val = xs.sum

lemma isSum_ofInt (xs : List Int) : IsSum (ofInt xs.sum : Word t) xs where
  emod := by
    rw [← IntType.modulus_eq]
    exact t.wrap_emod xs.sum
  exact := IntType.wrap_eq_self

end Word

end ArrayBench
