import ArrayBench.ArrayError

/-!
Broadcasting.

Two shapes are matched from the right, as if the shorter one had leading axes of size one. A pair
of sizes matches if they are equal or one of them is one, and the other one is the result.
-/

namespace ArrayBench

namespace Shape

def joinSize (x y : Nat) : Option Nat :=
  if x = y ∨ y = 1 then some x else if x = 1 then some y else none

/-- Matching from the right, on shapes with the innermost axis first. -/
def joinReversed : Shape → Shape → Option Shape
  | [], t => some t
  | s, [] => some s
  | x :: s, y :: t => do
    let z ← joinSize x y
    let r ← joinReversed s t
    return z :: r

/-- The shape of an elementwise operation on `a` and `b`. -/
def broadcast (a b : Shape) : Except ArrayError Shape :=
  match joinReversed a.reverse b.reverse with
  | some r => .ok r.reverse
  | none => .error (.broadcast a b)

/-- Strides over axes of sizes `dims` seen as axes of sizes `target`: a stretched axis repeats its
only element. -/
def stretch : Shape → List Nat → Shape → Option (List Nat)
  | d :: dims, s :: strides, t :: target =>
    if d = t then (s :: ·) <$> stretch dims strides target
    else if d = 1 then (0 :: ·) <$> stretch dims strides target
    else none
  | _, _, target => some (List.replicate target.length 0)

/-- Strides that read an array of shape `a`, laid out with `strides`, as if it had shape `target`.
Added leading axes and stretched axes have stride zero. -/
def broadcastStrides (a : Shape) (strides : List Nat) (target : Shape) :
    Except ArrayError (List Nat) :=
  if target.length < a.length then .error (.broadcast a target)
  else
    let pad := target.length - a.length
    match stretch a strides (target.drop pad) with
    | some r => .ok (List.replicate pad 0 ++ r)
    | none => .error (.broadcast a target)

def withoutAxis (s : Shape) (axis : Nat) : Except ArrayError Shape :=
  if axis < s.length then .ok (s.eraseIdx axis) else .error (.invalidAxis axis s.length)

end Shape

end ArrayBench
