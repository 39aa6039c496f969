import ArrayBench.Shape.Broadcast

/-!
Layouts: where the elements of an array lie in flat storage.

A layout gives each axis a size and a stride, and the whole an offset. The element at an index
lies at the offset plus each coordinate times its stride. Transposing, broadcasting and splitting
off an axis make new layouts over the same storage.
-/

namespace ArrayBench

/-- One axis of a layout. Stride zero repeats one element along the axis. -/
structure Axis where
  size : Nat
  stride : Nat
deriving DecidableEq, Repr

/-- How the elements of an array map onto flat storage, outermost axis first. -/
structure Layout where
  axes : List Axis
  offset : Nat
deriving DecidableEq, Repr

namespace Layout

def shape (l : Layout) : Shape := l.axes.map Axis.size

def strides (l : Layout) : List Nat := l.axes.map Axis.stride

def numel (l : Layout) : Nat := l.shape.numel

def ofStrides (s : Shape) (strides : List Nat) (offset : Nat) : Layout :=
  ⟨List.zipWith Axis.mk s strides, offset⟩

/-- Row-major order without gaps, from the start of the storage. -/
def contiguous (s : Shape) : Layout := ofStrides s s.strides 0

def isContiguous (l : Layout) : Bool := l.offset = 0 && l.strides = l.shape.strides

theorem shape_ofStrides {s : Shape} {strides : List Nat} (h : strides.length = s.length)
    (offset : Nat) : (ofStrides s strides offset).shape = s := by
  induction s generalizing strides with
  | nil => rfl
  | cons d s ih =>
    cases strides with
    | nil => simp at h
    | cons t ts => simpa [ofStrides, shape] using ih (by simpa using h)

theorem strides_ofStrides {s : Shape} {strides : List Nat} (h : strides.length = s.length)
    (offset : Nat) : (ofStrides s strides offset).strides = strides := by
  induction s generalizing strides with
  | nil => cases strides with
    | nil => rfl
    | cons t ts => simp at h
  | cons d s ih =>
    cases strides with
    | nil => simp at h
    | cons t ts => simpa [ofStrides, Layout.strides] using ih (by simpa using h)

@[simp] theorem shape_contiguous (s : Shape) : (contiguous s).shape = s :=
  shape_ofStrides s.length_strides 0

@[simp] theorem strides_contiguous (s : Shape) : (contiguous s).strides = s.strides :=
  strides_ofStrides s.length_strides 0

@[simp] theorem isContiguous_contiguous (s : Shape) : (contiguous s).isContiguous = true := by
  simp [isContiguous, show (contiguous s).offset = 0 from rfl]

/-! ### Views -/

def transposed (l : Layout) : Layout := ⟨l.axes.reverse, l.offset⟩

/-- The elements read as an array of shape `target`. -/
def broadcastTo (l : Layout) (target : Shape) : Except ArrayError Layout :=
  if l.shape = target then .ok l
  else do
    let strides ← l.shape.broadcastStrides l.strides target
    return ofStrides target strides l.offset

/-- The layout of the axes other than `axis`, and the axis taken out. -/
def splitAxis (l : Layout) (axis : Nat) : Except ArrayError (Layout × Axis) :=
  match l.axes[axis]? with
  | some a => .ok (⟨l.axes.eraseIdx axis, l.offset⟩, a)
  | none => .error (.invalidAxis axis l.axes.length)

/-! ### Addresses -/

def offsetAt (l : Layout) (index : List Nat) : Nat :=
  l.offset + (List.zipWith (fun a i => i * a.stride) l.axes index).sum

/-- The least storage size that holds every element. -/
def requiredSize (l : Layout) : Nat :=
  if l.numel = 0 then 0
  else l.offset + (l.axes.map fun a => (a.size - 1) * a.stride).sum + 1

def checkFits (l : Layout) (size : Nat) : Except ArrayError Unit :=
  if l.requiredSize ≤ size then .ok ()
  else .error (.storageTooSmall l.shape l.requiredSize size)

end Layout

end ArrayBench
