import ArrayBench.Number.Word

/-!
Element types of arrays: eight integer formats and two float formats.
-/

namespace ArrayBench

inductive Precision where
  | single
  | double
deriving DecidableEq, Repr

inductive DType where
  | int (t : IntType)
  | float (p : Precision)
deriving DecidableEq, Repr

namespace DType

@[match_pattern] abbrev int8 : DType := .int ⟨true, .w8⟩
@[match_pattern] abbrev uint8 : DType := .int ⟨false, .w8⟩
@[match_pattern] abbrev int16 : DType := .int ⟨true, .w16⟩
@[match_pattern] abbrev uint16 : DType := .int ⟨false, .w16⟩
@[match_pattern] abbrev int32 : DType := .int ⟨true, .w32⟩
@[match_pattern] abbrev uint32 : DType := .int ⟨false, .w32⟩
@[match_pattern] abbrev int64 : DType := .int ⟨true, .w64⟩
@[match_pattern] abbrev uint64 : DType := .int ⟨false, .w64⟩
@[match_pattern] abbrev float32 : DType := .float .single
@[match_pattern] abbrev float64 : DType := .float .double

/-- Every element type, in the order in which tables list them. -/
def all : List DType :=
  [int8, uint8, int16, uint16, int32, uint32, int64, uint64, float32, float64]

theorem mem_all (d : DType) : d ∈ all := by
  rcases d with ⟨_ | _, _ | _ | _ | _⟩ | _ | _ <;> decide

def name : DType → String
  | int8 => "int8"
  | uint8 => "uint8"
  | int16 => "int16"
  | uint16 => "uint16"
  | int32 => "int32"
  | uint32 => "uint32"
  | int64 => "int64"
  | uint64 => "uint64"
  | float32 => "float32"
  | float64 => "float64"

def bits : DType → Nat
  | int t => t.bits
  | float .single => 32
  | float .double => 64

def size (d : DType) : Nat := d.bits / 8

def isFloat : DType → Bool
  | int _ => false
  | float _ => true

def isInteger (d : DType) : Bool := !d.isFloat

def isSigned : DType → Bool
  | int t => t.signed
  | float _ => true

/-- The type in which elements are summed: the widest integer of the same sign rule, or the float
type itself. -/
def sumType : DType → DType
  | int t => .int ⟨t.signed, .w64⟩
  | float p => .float p

/-- The type of results that need not be integers: integers give `float64`, floats stay. -/
def floating : DType → DType
  | int _ => float64
  | float p => .float p

/-- Whether elements may be moved to another type without an explicit cast. Within a kind the
target must be at least as wide; an unsigned integer needs a strictly wider signed one; 8 and 16
bit integers go into either float type and all others into `float64`. -/
def castsTo (a b : DType) : Bool :=
  a = b ||
  match a, b with
  | float _, float _ => a.bits ≤ b.bits
  | float _, int _ => false
  | int _, float p => p = .double || a.bits ≤ 16
  | int s, int t =>
    match s.signed, t.signed with
    | true, true => a.bits ≤ b.bits
    | false, false => a.bits ≤ b.bits
    | false, true => a.bits < b.bits
    | true, false => false

end DType

end ArrayBench
