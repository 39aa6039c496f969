import Mathlib.Algebra.BigOperators.Group.List.Basic
import Mathlib.Tactic.Lemma
import Mathlib.Tactic.SplitIfs
import ArrayBench.Number.Arithmetic

/-!
Characters and bytes of a text.

A decimal has digits only. The encoding of a character is a leading byte and up to three bytes that
continue it. So a text has as many bytes as it has characters and continuation bytes, and a text of
ASCII characters has none of the latter.
-/

namespace ArrayBench

namespace Text

/-! ### Decimals -/

lemma isDigit_of_mem_toDigits {n : Nat} {c : Char} (h : c ∈ Nat.toDigits 10 n) : c.isDigit :=
  Nat.isDigit_of_mem_toDigits (by decide) (by decide) h

/-! ### Bytes -/

/-- A byte that continues a character: its bits begin with `10`. -/
def isContinuation (b : UInt8) : Bool := 0x80 ≤ b.toNat && b.toNat < 0xC0

def continuationBytes (s : String) : Nat := s.toByteArray.data.toList.countP isContinuation

def IsAscii (s : String) : Prop := ∀ c ∈ s.toList, c.toNat < 128

instance (s : String) : Decidable (IsAscii s) := List.decidableBAll _ _

lemma isContinuation_rest (n : Nat) : isContinuation (.ofNat (n % 64 + 128)) = true := by
  simp only [isContinuation, UInt8.toNat_ofNat', Bool.and_eq_true, decide_eq_true_eq]
  omega

lemma isContinuation_first {n : Nat} (h : n < 128 ∨ 192 ≤ n ∧ n < 256) :
    isContinuation (.ofNat n) = false := by
  simp only [isContinuation, UInt8.toNat_ofNat', Bool.and_eq_false_iff, decide_eq_false_iff_not]
  omega

/-- Every byte of a character but the first continues it. -/
lemma countP_utf8EncodeChar (c : Char) :
    (String.utf8EncodeChar c).countP isContinuation + 1 = (String.utf8EncodeChar c).length := by
  unfold String.utf8EncodeChar
  dsimp only
  generalize c.val.toNat = v
  -- one to four bytes, of which the first is no continuation
  split_ifs with h₁ h₂ h₃
  · have hfirst := isContinuation_first (n := v) (.inl (by omega))
    simp only [List.countP_cons, hfirst]
    rfl
  · have hfirst := isContinuation_first (n := v / 64 % 32 + 192) (.inr (by omega))
    simp only [List.countP_cons, hfirst, isContinuation_rest]
    rfl
  · have hfirst := isContinuation_first (n := v / 4096 % 16 + 224) (.inr (by omega))
    simp only [List.countP_cons, hfirst, isContinuation_rest]
    rfl
  · have hfirst := isContinuation_first (n := v / 262144 % 8 + 240) (.inr (by omega))
    simp only [List.countP_cons, hfirst, isContinuation_rest]
    rfl

lemma bytes_eq (s : String) :
    s.toByteArray.data.toList = s.toList.flatMap String.utf8EncodeChar := by
  rw [← String.utf8Encode_toList, List.utf8Encode, List.toList_data_toByteArray]

lemma continuationBytes_eq (s : String) : continuationBytes s =
    (s.toList.map fun c => (String.utf8EncodeChar c).countP isContinuation).sum := by
  rw [continuationBytes, bytes_eq, List.countP_flatMap]
  rfl

/-- A text has a byte for each character, and its continuation bytes. -/
lemma utf8ByteSize_eq (s : String) : s.utf8ByteSize = s.length + continuationBytes s := by
  have hsize : s.utf8ByteSize = s.toByteArray.data.toList.length := rfl
  rw [hsize, bytes_eq, List.length_flatMap, continuationBytes_eq, ← String.length_toList]
  induction s.toList with
  | nil => rfl
  | cons c cs ih =>
    have hc := countP_utf8EncodeChar c
    rw [List.map_cons, List.sum_cons, ih, List.length_cons, List.map_cons, List.sum_cons]
    omega

lemma IsAscii.continuationBytes_eq_zero {s : String} (h : IsAscii s) : continuationBytes s = 0 := by
  rw [continuationBytes_eq, List.sum_eq_zero]
  intro n hn
  obtain ⟨c, hc, rfl⟩ := List.mem_map.mp hn
  have hsize : c.utf8Size = 1 := by
    rw [Char.utf8Size_eq_one_iff, UInt32.le_iff_toNat_le]
    have := h c hc
    change c.val.toNat ≤ 127
    change c.val.toNat < 128 at this
    omega
  have hcount := countP_utf8EncodeChar c
  rw [String.length_utf8EncodeChar] at hcount
  omega

end Text

end ArrayBench
