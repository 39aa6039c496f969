import ArrayBench.Number.Shortest
import ArrayBench.Text.Pad
import ArrayBench.Proofs.Text.Characters

/-!
Texts made of lines.

A text of lines ends each of them with a line feed. If no line has one of its own, the text has as
many of them as it has lines. Numbers are written with digits, points and letters, and padding adds
blanks, so they stay on a line.
-/

namespace ArrayBench

namespace Text

def OneLine (s : String) : Prop := '\n' ∉ s.toList

instance (s : String) : Decidable (OneLine s) := inferInstanceAs (Decidable (¬ _))

namespace OneLine

variable {s u : String}

lemma append (hs : OneLine s) (hu : OneLine u) : OneLine (s ++ u) := by
  rw [OneLine, String.toList_append, List.mem_append]
  rintro (h | h)
  · exact hs h
  · exact hu h

lemma join {ss : List String} (h : ∀ s ∈ ss, OneLine s) : OneLine (String.join ss) := by
  rw [OneLine, String.toList_join]
  intro hmem
  obtain ⟨s, hs, hmem⟩ := List.mem_flatMap.mp hmem
  exact h s hs hmem

lemma rep {c : Char} (hc : c ≠ '\n') (n : Nat) : OneLine (rep n c) := by
  rw [OneLine, toList_rep]
  intro h
  exact hc (List.eq_of_mem_replicate h).symm

lemma spaces (n : Nat) : OneLine (spaces n) := rep (by decide) n

lemma left (hs : OneLine s) (n : Nat) : OneLine (left n s) := hs.append (spaces _)

lemma right (hs : OneLine s) (n : Nat) : OneLine (right n s) := (spaces _).append hs

lemma trimEnd (hs : OneLine s) : OneLine (trimEnd s) := by
  rw [OneLine, Text.trimEnd, String.toList_ofList, List.mem_reverse]
  intro h
  exact hs (List.mem_reverse.mp (List.dropWhile_subset _ h))

/-! ### Numbers -/

lemma toString (n : Nat) : OneLine (toString n) := by
  rw [OneLine, Nat.toString_eq_repr, Nat.toList_repr]
  intro h
  cases isDigit_of_mem_toDigits h

lemma padded (width n : Nat) : OneLine (Decimal.padded width n) := by
  refine append ?_ (toString n)
  rw [OneLine, String.toList_ofList]
  intro h
  cases List.eq_of_mem_replicate h

lemma decimal (places n : Nat) : OneLine (Decimal.fixedText places n) := by
  unfold Decimal.fixedText
  split
  · exact toString n
  · exact ((toString _).append (by decide)).append (padded _ _)

lemma sign (negative : Bool) : OneLine (Decoded.sign negative) := by
  cases negative <;> decide

lemma fixedText (places : Nat) (x : Decoded) : OneLine (x.fixedText places) := by
  cases x with
  | nan => exact (by decide : OneLine "NaN")
  | infinite negative => exact (sign negative).append (by decide)
  | finite negative m q => exact (sign negative).append (decimal _ _)

end OneLine

/-! ### Lines -/

def ofLines (lines : List String) : String := String.join (lines.map (· ++ "\n"))

@[simp] lemma ofLines_nil : ofLines [] = "" := rfl

@[simp] lemma ofLines_cons (line : String) (lines : List String) :
    ofLines (line :: lines) = line ++ "\n" ++ ofLines lines := String.join_cons

lemma ofLines_concat (lines : List String) (line : String) :
    ofLines (lines ++ [line]) = ofLines lines ++ (line ++ "\n") := by
  rw [ofLines, List.map_append, String.join_append, List.map_singleton, String.join_cons,
    String.join_nil, String.append_empty, ofLines]

/-- A text of lines has a line feed for each of them. -/
lemma count_ofLines {lines : List String} (h : ∀ line ∈ lines, OneLine line) :
    (ofLines lines).toList.count '\n' = lines.length := by
  induction lines with
  | nil => rfl
  | cons line lines ih =>
    rw [List.forall_mem_cons] at h
    have hline : line.toList.count '\n' = 0 := List.count_eq_zero.mpr h.1
    have hend : "\n".toList.count '\n' = 1 := rfl
    rw [ofLines_cons, String.toList_append, String.toList_append, List.count_append,
      List.count_append, hline, hend, ih h.2, List.length_cons]
    omega

end Text

end ArrayBench
