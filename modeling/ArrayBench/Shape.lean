/-!
Shapes and row-major order.

A shape lists the sizes of the axes, outermost first. The empty shape is that of a single element.
-/

namespace ArrayBench

/-- Sizes of the axes of an array, outermost first. -/
abbrev Shape := List Nat

namespace Shape

def numel : Shape → Nat
  | [] => 1
  | d :: s => d * numel s

/-- Row-major strides: each axis steps over all the elements of the axes inside it. -/
def strides : Shape → List Nat
  | [] => []
  | _ :: s => numel s :: strides s

@[simp] theorem numel_nil : numel [] = 1 := rfl

@[simp] theorem numel_cons (d : Nat) (s : Shape) : numel (d :: s) = d * numel s := rfl

@[simp] theorem length_strides (s : Shape) : (strides s).length = s.length := by
  induction s with
  | nil => rfl
  | cons d s ih => simp [strides, ih]

/-- The sizes in parentheses, with a comma after a single one: `(2,3)`, `(7,)`, `()`. -/
def text : Shape → String
  | [d] => "(" ++ toString d ++ ",)"
  | s => "(" ++ String.intercalate "," (s.map toString) ++ ")"

end Shape

end ArrayBench
