import ArrayBench.Storage
import ArrayBench.Layout.Cursor

/-!
Arrays: a layout over storage.

Arrays are values, so views of one storage never disturb each other. The operations that write
replace the elements a layout addresses and keep everything else.
-/

namespace ArrayBench

structure NdArray where
  storage : Storage
  layout : Layout

/-- A computation that writes an array. -/
abbrev Update := Step ArrayError NdArray Unit

namespace NdArray

def dtype (a : NdArray) : DType := a.storage.dtype

def shape (a : NdArray) : Shape := a.layout.shape

def ndim (a : NdArray) : Nat := a.shape.length

def numel (a : NdArray) : Nat := a.shape.numel

/-- Every element lies within the storage. -/
def WellFormed (a : NdArray) : Prop := a.layout.requiredSize ≤ a.storage.size

instance (a : NdArray) : Decidable a.WellFormed := inferInstanceAs (Decidable (_ ≤ _))

/-- Checks that an array of shape `s` has at most `limit` bytes. -/
def checkBytes (limit : Nat) (s : Shape) (d : DType) : Except ArrayError Unit :=
  let bytes := s.numel * d.size
  if bytes ≤ limit then .ok () else .error (.tooLarge bytes)

/-! ### Making arrays -/

/-- The given elements in row-major order. -/
def ofElems (d : DType) (values : Array d.Elem) (s : Shape) : Except ArrayError NdArray :=
  if values.size = s.numel then .ok ⟨.ofArray d values, .contiguous s⟩
  else .error (.shapeMismatch s [values.size])

/-- A layout over existing storage. -/
def ofStorage (storage : Storage) (l : Layout) : Except ArrayError NdArray := do
  l.checkFits storage.size
  return ⟨storage, l⟩

def full (s : Shape) (d : DType) (v : Scalar) : NdArray :=
  ⟨.filled d s.numel v, .contiguous s⟩

def ones (s : Shape) (d : DType) : NdArray := full s d (.ofFloat d 1)

/-- An array to be written: its elements are zero. -/
def empty (s : Shape) (d : DType) : NdArray := ⟨.zeros d s.numel, .contiguous s⟩

def transposed (a : NdArray) : NdArray := ⟨a.storage, a.layout.transposed⟩

/-! ### Reading -/

def elems (a : NdArray) : Except ArrayError (List a.dtype.Elem) :=
  a.layout.offsets.mapM (Buffer.read a.storage.data)

def toFloats (a : NdArray) : Except ArrayError (List Float) := do
  return (← a.elems).map DType.toFloat

/-- The elements in row-major order, if they have the type asked for. -/
def toElems (a : NdArray) (d : DType) : Except ArrayError (List d.Elem) := do
  let x ← a.storage.as d
  a.layout.offsets.mapM (Buffer.read x)

/-! ### Writing -/

/-- Runs a step on the storage of an array, seen as elements of type `d`. -/
def onBuffer (d : DType) (act : BufferStep d.Elem Unit) : Update := fun a =>
  match a.storage.as d with
  | .error e => .error e a
  | .ok x =>
    match act x with
    | .ok _ x => .ok () ⟨⟨d, x⟩, a.layout⟩
    | .error e x => .error e ⟨⟨d, x⟩, a.layout⟩

/-- The array that an update leaves behind. -/
def updated (a : NdArray) (u : Update) : Except ArrayError NdArray :=
  match u a with
  | .ok _ b => .ok b
  | .error e _ => .error e

def fillElems {α : Type} (l : Layout) (v : α) : BufferStep α Unit :=
  if l.isContiguous then Buffer.fillPrefix l.numel v
  else l.offsets.forM fun i => Buffer.write i v

def fill (v : Scalar) : Update := do
  let a ← get
  onBuffer a.dtype (fillElems a.layout (v.convert a.dtype))

def poke (i : Nat) (v : Scalar) : Update := do
  let a ← get
  onBuffer a.dtype (Buffer.write i (v.convert a.dtype))

end NdArray

end ArrayBench
