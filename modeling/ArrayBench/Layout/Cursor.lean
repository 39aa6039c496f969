import ArrayBench.Layout

/-!
Walking through the elements of a layout.

A cursor stands at an element. It holds the coordinate on every axis, innermost first, and the
storage position, and moves on by turning the innermost axis: an axis at its end goes back to zero
and hands the step to the next one outside it. The positions it visits are the layout's offsets in
row-major order.

A machine holds all these numbers in words of 64 bits. There a step that forms a number that no word
holds breaks off, even if the position it leads to is a small one.
-/

namespace ArrayBench

structure Wheel where
  axis : Axis
  index : Nat
deriving DecidableEq, Repr

structure Cursor where
  /-- Innermost axis first. -/
  wheels : List Wheel
  position : Nat
  /-- Elements not yet visited, the one at `position` included. -/
  remaining : Nat
deriving DecidableEq, Repr

namespace Cursor

def turn : List Wheel → Nat → List Wheel × Nat
  | [], p => ([], p)
  | w :: ws, p =>
    if w.index + 1 < w.axis.size then (⟨w.axis, w.index + 1⟩ :: ws, p + w.axis.stride)
    else
      let (ws, p) := turn ws (p + w.axis.stride - w.axis.stride * w.axis.size)
      (⟨w.axis, 0⟩ :: ws, p)

/-- The cursor after the element at `position`. At the last element it stays where it is. -/
def advance (c : Cursor) : Cursor :=
  if c.remaining ≤ 1 then { c with remaining := 0 }
  else
    let (wheels, position) := turn c.wheels c.position
    ⟨wheels, position, c.remaining - 1⟩

/-- The position and the cursor behind it, until every element has been visited. -/
def next? (c : Cursor) : Option (Nat × Cursor) :=
  if c.remaining = 0 then none else some (c.position, c.advance)

/-- How many positions are still to come: at least, and at most. -/
def sizeHint (c : Cursor) : Nat × Option Nat := (c.remaining, some c.remaining)

def take : Nat → Cursor → List Nat
  | 0, _ => []
  | n + 1, c =>
    match c.next? with
    | none => []
    | some (p, c) => p :: take n c

end Cursor

/-! ### Machine words -/

/-- Machine words hold the numbers below this one. -/
def wordLimit : Nat := 2 ^ (64 : Nat)

/-- A number that is formed in a machine word, if one holds it. -/
def word? (n : Nat) : Option Nat := if n < wordLimit then some n else none

/-- A difference of machine words, if it is not below zero. -/
def minus? (a b : Nat) : Option Nat := if b ≤ a then some (a - b) else none

/-- The number of elements, multiplied up from the outermost axis on. -/
def Shape.count? (s : Shape) : Option Nat := s.foldlM (fun n d => word? (n * d)) 1

namespace Cursor

def turn? : List Wheel → Nat → Option (List Wheel × Nat)
  | [], p => some ([], p)
  | w :: ws, p => do
    let index ← word? (w.index + 1)
    -- the stride is added first, also where the whole axis is then taken off again
    let p ← word? (p + w.axis.stride)
    if index < w.axis.size then return (⟨w.axis, index⟩ :: ws, p)
    else
      let p ← minus? p (← word? (w.axis.stride * w.axis.size))
      let (ws, p) ← turn? ws p
      return (⟨w.axis, 0⟩ :: ws, p)

/-- A step on machine words. If it does not break off, its outcome is that of `next?`. -/
def step? (c : Cursor) : Option (Option (Nat × Cursor)) :=
  if c.remaining = 0 then some none
  else do
    let remaining ← minus? c.remaining 1
    if remaining = 0 then return some (c.position, { c with remaining })
    else
      let (wheels, position) ← turn? c.wheels c.position
      return some (c.position, ⟨wheels, position, remaining⟩)

def walk? : Nat → Cursor → Option (List Nat)
  | 0, _ => some []
  | n + 1, c => do
    match ← c.step? with
    | none => return []
    | some (p, c) => return p :: (← walk? n c)

end Cursor

namespace Layout

def cursor (l : Layout) : Cursor :=
  ⟨(l.axes.map fun a => ⟨a, 0⟩).reverse, l.offset, l.numel⟩

def cursor? (l : Layout) : Option Cursor := do
  let position ← word? l.offset
  let remaining ← l.shape.count?
  return { l.cursor with position, remaining }

/-- Storage positions of the elements in row-major order. -/
def offsets (l : Layout) : List Nat := l.cursor.take l.numel

/-- The first `n` of them on machine words. -/
def offsets? (l : Layout) (n : Nat) : Option (List Nat) := do (← l.cursor?).walk? n

end Layout

end ArrayBench
