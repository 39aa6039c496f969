import Mathlib.Data.List.Forall2
import Mathlib.Tactic.Lemma
import Mathlib.Tactic.SplitIfs
import ArrayBench.Proofs.Step
import ArrayBench.Shape.Broadcast

/-!
The order of shapes.

A shape lies below another one if an array of the first can be read as one of the second: matched
from the right, each of its axes has the size asked for or a single element. Read from the innermost
axis outwards this compares lists from their heads, and so does broadcasting. By induction on the
axes the result of broadcasting lies above both operands and below everything else that does.
-/

namespace ArrayBench

namespace Shape

/-- An axis may be read as one of another size if it has that size, or a single element. -/
def Grows (d t : Nat) : Prop := d = t ∨ d = 1

lemma Grows.trans {d t u : Nat} (h : Grows d t) (h' : Grows t u) : Grows d u := by
  unfold Grows at h h' ⊢
  omega

lemma Grows.antisymm {d t : Nat} (h : Grows d t) (h' : Grows t d) : d = t := by
  unfold Grows at h h'
  omega

/-- A shape can be read as another one: its axes grow into the innermost ones of that. -/
def Below (a t : Shape) : Prop := ∃ added inner, t = added ++ inner ∧ List.Forall₂ Grows a inner

/-! ### From the innermost axis outwards -/

inductive Inside : Shape → Shape → Prop
  | nil (t : Shape) : Inside [] t
  | cons {d e : Nat} {s t : Shape} (h : Grows d e) (hs : Inside s t) : Inside (d :: s) (e :: t)

lemma inside_iff {s t : Shape} :
    Inside s t ↔ ∃ inner added, t = inner ++ added ∧ List.Forall₂ Grows s inner := by
  constructor
  · intro h
    induction h with
    | nil t => exact ⟨[], t, rfl, .nil⟩
    | cons h _ ih =>
      obtain ⟨inner, added, rfl, hgrow⟩ := ih
      exact ⟨_ :: inner, added, rfl, .cons h hgrow⟩
  · rintro ⟨inner, added, rfl, hgrow⟩
    induction hgrow with
    | nil => exact .nil _
    | cons h _ ih => exact .cons h ih

lemma below_iff {a t : Shape} : Below a t ↔ Inside a.reverse t.reverse := by
  rw [inside_iff]
  constructor
  · rintro ⟨added, inner, rfl, hgrow⟩
    exact ⟨inner.reverse, added.reverse, List.reverse_append, List.forall₂_reverse_iff.mpr hgrow⟩
  · rintro ⟨inner, added, ht, hgrow⟩
    refine ⟨added.reverse, inner.reverse, ?_, ?_⟩
    · rw [← List.reverse_append, ← ht, List.reverse_reverse]
    · rwa [← List.forall₂_reverse_iff, List.reverse_reverse]

lemma Inside.refl (s : Shape) : Inside s s := by
  induction s with
  | nil => exact .nil _
  | cons d s ih => exact .cons (Or.inl rfl) ih

lemma Inside.trans {s t u : Shape} (h : Inside s t) (h' : Inside t u) : Inside s u := by
  induction h generalizing u with
  | nil t => exact .nil u
  | cons h _ ih =>
    cases h' with
    | cons h' hs' => exact .cons (h.trans h') (ih hs')

lemma Inside.antisymm {s t : Shape} (h : Inside s t) (h' : Inside t s) : s = t := by
  induction h with
  | nil t =>
    cases h' with
    | nil => rfl
  | cons h _ ih =>
    cases h' with
    | cons h' hs' => rw [h.antisymm h', ih hs']

/-! ### Joining -/

lemma joinSize_grows {x y z : Nat} (h : joinSize x y = some z) : Grows x z ∧ Grows y z := by
  unfold joinSize at h
  unfold Grows
  split_ifs at h with h1 h2
  · obtain rfl := Option.some.inj h
    omega
  · obtain rfl := Option.some.inj h
    omega

/-- Two sizes that grow into one are joined to a size that grows into it as well. -/
lemma exists_joinSize {x y w : Nat} (hx : Grows x w) (hy : Grows y w) :
    ∃ z, joinSize x y = some z ∧ Grows z w := by
  unfold joinSize
  unfold Grows at hx hy ⊢
  split_ifs with h1 h2
  · exact ⟨x, rfl, hx⟩
  · exact ⟨y, rfl, hy⟩
  · omega

lemma joinReversed_cons_eq_some {x y : Nat} {s t r : Shape} :
    joinReversed (x :: s) (y :: t) = some r ↔
      ∃ z u, joinSize x y = some z ∧ joinReversed s t = some u ∧ z :: u = r := by
  simp only [joinReversed, Option.bind_eq_bind, Option.bind_eq_some_iff, Option.pure_def,
    Option.some.injEq]
  constructor
  · rintro ⟨z, hz, u, hu, rfl⟩
    exact ⟨z, u, hz, hu, rfl⟩
  · rintro ⟨z, u, hz, hu, rfl⟩
    exact ⟨z, hz, u, hu, rfl⟩

lemma joinReversed_nil (s : Shape) : joinReversed s [] = some s := by
  cases s <;> rfl

/-- What two shapes are joined to lies above both. -/
lemma joinReversed_inside {s t r : Shape} (h : joinReversed s t = some r) :
    Inside s r ∧ Inside t r := by
  -- from the innermost axis outwards, until one of the shapes has no more
  induction s generalizing t r with
  | nil =>
    obtain rfl : t = r := Option.some.inj h
    exact ⟨.nil t, .refl t⟩
  | cons x s ih =>
    cases t with
    | nil =>
      obtain rfl : x :: s = r := Option.some.inj h
      exact ⟨.refl _, .nil _⟩
    | cons y t =>
      obtain ⟨z, u, hz, hu, rfl⟩ := joinReversed_cons_eq_some.mp h
      obtain ⟨hs, ht⟩ := ih hu
      obtain ⟨hx, hy⟩ := joinSize_grows hz
      exact ⟨.cons hx hs, .cons hy ht⟩

/-- Two shapes below a third one can be joined, to a shape that is below it as well. -/
lemma exists_joinReversed {s t w : Shape} (hs : Inside s w) (ht : Inside t w) :
    ∃ r, joinReversed s t = some r ∧ Inside r w := by
  induction hs generalizing t with
  | nil w => exact ⟨t, rfl, ht⟩
  | cons hx hs ih =>
    cases ht with
    | nil => exact ⟨_, joinReversed_nil _, .cons hx hs⟩
    | cons hy ht =>
      obtain ⟨z, hz, hzw⟩ := exists_joinSize hx hy
      obtain ⟨u, hu, huw⟩ := ih ht
      exact ⟨z :: u, joinReversed_cons_eq_some.mpr ⟨z, u, hz, hu, rfl⟩, .cons hzw huw⟩

/-! ### The order -/

lemma Below.refl (a : Shape) : Below a a := below_iff.mpr (.refl _)

lemma Below.trans {a b c : Shape} (h : Below a b) (h' : Below b c) : Below a c :=
  below_iff.mpr ((below_iff.mp h).trans (below_iff.mp h'))

lemma Below.antisymm {a b : Shape} (h : Below a b) (h' : Below b a) : a = b :=
  List.reverse_injective ((below_iff.mp h).antisymm (below_iff.mp h'))

lemma nil_below (a : Shape) : Below [] a := ⟨a, [], (List.append_nil a).symm, .nil⟩

lemma broadcast_eq_ok {a b t : Shape} :
    broadcast a b = .ok t ↔ joinReversed a.reverse b.reverse = some t.reverse := by
  unfold broadcast
  split
  · rename_i r hr
    rw [Except.ok.injEq, hr, Option.some.injEq, ← List.reverse_eq_iff]
  · rename_i hr
    simp [hr]

lemma broadcast_below {a b t : Shape} (h : broadcast a b = .ok t) : Below a t ∧ Below b t := by
  obtain ⟨ha, hb⟩ := joinReversed_inside (broadcast_eq_ok.mp h)
  exact ⟨below_iff.mpr ha, below_iff.mpr hb⟩

lemma exists_broadcast {a b u : Shape} (ha : Below a u) (hb : Below b u) :
    ∃ t, broadcast a b = .ok t ∧ Below t u := by
  obtain ⟨r, hr, hru⟩ := exists_joinReversed (below_iff.mp ha) (below_iff.mp hb)
  refine ⟨r.reverse, broadcast_eq_ok.mpr ?_, below_iff.mpr ?_⟩
  · rw [List.reverse_reverse, hr]
  · rwa [List.reverse_reverse]

/-- Broadcasting gives the least shape above both operands. -/
lemma broadcast_eq_ok_iff {a b t : Shape} :
    broadcast a b = .ok t ↔
      Below a t ∧ Below b t ∧ ∀ u, Below a u → Below b u → Below t u := by
  constructor
  · intro h
    obtain ⟨ha, hb⟩ := broadcast_below h
    refine ⟨ha, hb, fun u hau hbu => ?_⟩
    obtain ⟨t', ht', hle⟩ := exists_broadcast hau hbu
    obtain rfl := Except.ok.inj (h.symm.trans ht')
    exact hle
  · rintro ⟨ha, hb, hleast⟩
    obtain ⟨t', ht', hle⟩ := exists_broadcast ha hb
    obtain ⟨ha', hb'⟩ := broadcast_below ht'
    obtain rfl := (hleast t' ha' hb').antisymm hle
    exact ht'

lemma broadcast_of_below {a t : Shape} (h : Below a t) : broadcast a t = .ok t :=
  broadcast_eq_ok_iff.mpr ⟨h, .refl t, fun _ _ ht => ht⟩

lemma broadcast_comm {a b t : Shape} : broadcast a b = .ok t ↔ broadcast b a = .ok t := by
  rw [broadcast_eq_ok_iff, broadcast_eq_ok_iff]
  constructor
  · rintro ⟨ha, hb, hleast⟩
    exact ⟨hb, ha, fun u hb hu => hleast u hu hb⟩
  · rintro ⟨hb, ha, hleast⟩
    exact ⟨ha, hb, fun u ha hu => hleast u hu ha⟩

lemma broadcast_self (a : Shape) : broadcast a a = .ok a := broadcast_of_below (.refl a)

/-- Three shapes broadcast to the least one above all of them, whichever two are taken first. -/
lemma broadcast_bind_eq_ok {a b c t : Shape} :
    (broadcast a b >>= fun s => broadcast s c) = .ok t ↔
      (Below a t ∧ Below b t ∧ Below c t) ∧
        ∀ u, Below a u → Below b u → Below c u → Below t u := by
  rw [exceptBind_eq_ok]
  constructor
  · rintro ⟨s, hs, ht⟩
    obtain ⟨has, hbs, hs⟩ := broadcast_eq_ok_iff.mp hs
    obtain ⟨hst, hct, ht⟩ := broadcast_eq_ok_iff.mp ht
    exact ⟨⟨has.trans hst, hbs.trans hst, hct⟩, fun u ha hb hc => ht u (hs u ha hb) hc⟩
  · rintro ⟨⟨ha, hb, hc⟩, hleast⟩
    obtain ⟨s, hs, hst⟩ := exists_broadcast ha hb
    obtain ⟨has, hbs⟩ := broadcast_below hs
    refine ⟨s, hs, broadcast_eq_ok_iff.mpr ⟨hst, hc, fun u hsu hcu => ?_⟩⟩
    exact hleast u (has.trans hsu) (hbs.trans hsu) hcu

lemma broadcast_assoc {a b c t : Shape} :
    (broadcast a b >>= fun s => broadcast s c) = .ok t ↔
      (broadcast b c >>= fun s => broadcast a s) = .ok t := by
  have hcomm : (broadcast b c >>= fun s => broadcast a s) = .ok t ↔
      (broadcast b c >>= fun s => broadcast s a) = .ok t := by
    rw [exceptBind_eq_ok, exceptBind_eq_ok]
    exact exists_congr fun s => and_congr_right fun _ => broadcast_comm
  rw [hcomm, broadcast_bind_eq_ok, broadcast_bind_eq_ok]
  constructor
  · rintro ⟨⟨ha, hb, hc⟩, hleast⟩
    exact ⟨⟨hb, hc, ha⟩, fun u hb hc ha => hleast u ha hb hc⟩
  · rintro ⟨⟨hb, hc, ha⟩, hleast⟩
    exact ⟨⟨ha, hb, hc⟩, fun u ha hb hc => hleast u hb hc ha⟩

end Shape

end ArrayBench
