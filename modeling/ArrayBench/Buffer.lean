import ArrayBench.Step
import ArrayBench.ArrayError

/-!
Buffers: rows of elements of one type.

A buffer that has not been written yet is held as its one value and its length, so it takes no
room until then. Its elements are `toArray`, and buffers with the same elements answer alike.
Reading and writing at a position past the end is an error, never a default.
-/

namespace ArrayBench

inductive Buffer (α : Type) where
  /-- The same value at `n` positions. -/
  | filled (n : Nat) (v : α)
  | items (xs : Array α)

/-- A computation that reads and writes a buffer of elements `α`. -/
abbrev BufferStep (α : Type) := Step ArrayError (Buffer α)

namespace Buffer

variable {α : Type}

def toArray : Buffer α → Array α
  | filled n v => Array.replicate n v
  | items xs => xs

def size : Buffer α → Nat
  | filled n _ => n
  | items xs => xs.size

def get? : Buffer α → Nat → Option α
  | filled n v, i => if i < n then some v else none
  | items xs, i => xs[i]?

@[simp] theorem size_toArray (x : Buffer α) : x.toArray.size = x.size := by
  cases x <;> simp [toArray, size]

theorem getElem?_toArray (x : Buffer α) (i : Nat) : x.toArray[i]? = x.get? i := by
  cases x <;> simp [toArray, get?, Array.getElem?_replicate]

def read (x : Buffer α) (i : Nat) : Except ArrayError α :=
  match x.get? i with
  | some v => .ok v
  | none => .error (.outOfRange i x.size)

def modify (i : Nat) (f : α → α) : BufferStep α Unit
  | filled n v =>
    if i < n then .ok () (items ((Array.replicate n v).modify i f))
    else .error (.outOfRange i n) (filled n v)
  | items xs =>
    if i < xs.size then .ok () (items (xs.modify i f))
    else .error (.outOfRange i xs.size) (items xs)

theorem modify_apply (i : Nat) (f : α → α) (x : Buffer α) :
    modify i f x =
      if i < x.size then .ok () (items (x.toArray.modify i f))
      else .error (.outOfRange i x.size) x := by
  cases x <;> rfl

def write (i : Nat) (v : α) : BufferStep α Unit := modify i fun _ => v

def fillPrefix (n : Nat) (v : α) : BufferStep α Unit := fun x =>
  if n < x.size then .ok () (items (Array.replicate n v ++ x.toArray.extract n))
  else if n = x.size then .ok () (filled n v)
  else .error (.outOfRange n x.size) x

/-- Checks that the first `n` positions exist. -/
def checkPrefix (x : Buffer α) (n : Nat) : Except ArrayError Unit :=
  if n ≤ x.size then .ok () else .error (.outOfRange n x.size)

end Buffer

end ArrayBench
