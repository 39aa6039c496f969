import ArrayBench.Number.Arithmetic

/-!
Fixed-width text.

Widths count characters. Text that is wider than its field is left as it is. The limits on what can
be laid out at all are numbers here, for those who lay text out to check.
-/

namespace ArrayBench

namespace Text

/-- The widest field, and the most decimal places, that text is laid out in. -/
def maxField : Nat := 65535

def maxBytes : Nat := 2 ^ (63 : Nat) - 1

/-- `n` times the character `c`. Every half is made once, so a long run takes few steps. -/
def rep (n : Nat) (c : Char) : String :=
  if n = 0 then ""
  else
    let half := rep (n / 2) c
    if n % 2 = 0 then half ++ half else (half ++ half).push c
termination_by n
decreasing_by omega

def spaces (n : Nat) : String := rep n ' '

def left (width : Nat) (s : String) : String := s ++ spaces (width - s.length)

def right (width : Nat) (s : String) : String := spaces (width - s.length) ++ s

@[simp] theorem toList_rep (n : Nat) (c : Char) : (rep n c).toList = List.replicate n c := by
  fun_induction rep n c with
  | case1 => rfl
  | case2 n _ half h ih =>
    rw [String.toList_append, ih, List.replicate_append_replicate]
    congr 1
    omega
  | case3 n _ half h ih =>
    rw [String.toList_push, String.toList_append, ih, List.replicate_append_replicate,
      ← List.replicate_succ']
    congr 1
    omega

@[simp] theorem length_rep (n : Nat) (c : Char) : (rep n c).length = n := by
  rw [← String.length_toList, toList_rep, List.length_replicate]

@[simp] theorem length_spaces (n : Nat) : (spaces n).length = n := length_rep n ' '

@[simp] theorem length_left (width : Nat) (s : String) :
    (left width s).length = max width s.length := by
  simp only [left, String.length_append, length_spaces]
  omega

@[simp] theorem length_right (width : Nat) (s : String) :
    (right width s).length = max width s.length := by
  simp only [right, String.length_append, length_spaces]
  omega

/-- White space of any script: the characters of the property `White_Space`. -/
def isBlank (c : Char) : Bool :=
  let n := c.toNat
  (0x09 ≤ n && n ≤ 0x0D) || n = 0x20 || n = 0x85 || n = 0xA0 || n = 0x1680 ||
    (0x2000 ≤ n && n ≤ 0x200A) || n = 0x2028 || n = 0x2029 || n = 0x202F || n = 0x205F ||
    n = 0x3000

/-- The text without the white space that ends it. -/
def trimEnd (s : String) : String :=
  String.ofList (s.toList.reverse.dropWhile isBlank).reverse

end Text

end ArrayBench
