import ArrayBench.Layout

/-!
Views: ways of reading an array as another one.

A view makes a layout out of a layout. Chains of views are applied from left to right, up to the
first one that does not fit.
-/

namespace ArrayBench

inductive View where
  | transposed
  /-- The array repeated along new and stretched axes. -/
  | broadcast (target : Shape)
  /-- The elements at the start of an axis, which is dropped. -/
  | split (axis : Nat)
deriving DecidableEq, Repr

namespace Layout

def view (l : Layout) : View → Except ArrayError Layout
  | .transposed => .ok l.transposed
  | .broadcast target => l.broadcastTo target
  | .split axis => Prod.fst <$> l.splitAxis axis

def views (l : Layout) (vs : List View) : Except ArrayError Layout := vs.foldlM view l

end Layout

end ArrayBench
