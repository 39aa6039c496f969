import ArrayBench.Op
import ArrayBench.Buffer

/-!
Flat typed storage: a buffer together with the type of its elements.
-/

namespace ArrayBench

structure Storage where
  dtype : DType
  data : Buffer dtype.Elem

namespace Storage

def size (s : Storage) : Nat := s.data.size

def ofArray (d : DType) (xs : Array d.Elem) : Storage := ⟨d, .items xs⟩

def filled (d : DType) (n : Nat) (v : Scalar) : Storage := ⟨d, .filled n (v.convert d)⟩

def zeros (d : DType) (n : Nat) : Storage := filled d n (.ofFloat d 0)

def as? (s : Storage) (d : DType) : Option (Buffer d.Elem) :=
  if h : s.dtype = d then some (h ▸ s.data) else none

def as (s : Storage) (d : DType) : Except ArrayError (Buffer d.Elem) :=
  match s.as? d with
  | some x => .ok x
  | none => .error (.dtypeMismatch d s.dtype)

@[simp] theorem as?_self (d : DType) (x : Buffer d.Elem) : (⟨d, x⟩ : Storage).as? d = some x := by
  simp [as?]

@[simp] theorem as_self (d : DType) (x : Buffer d.Elem) : (⟨d, x⟩ : Storage).as d = .ok x := by
  simp [as]

def float? (s : Storage) (i : Nat) : Option Float := (s.data.get? i).map DType.toFloat

end Storage

end ArrayBench
