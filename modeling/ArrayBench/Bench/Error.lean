import ArrayBench.ArrayError
import ArrayBench.Bench.Category

/-!
Why a benchmark fails.
-/

namespace ArrayBench

/-- The two ways in which an output buffer is refused for its element type. -/
inductive Rejection where
  | resultType
  | lossyCast
deriving DecidableEq, Repr

namespace Rejection

def of? : ArrayError → Option Rejection
  | .resultTypeMismatch _ _ => some .resultType
  | .unsafeOutputCast _ _ => some .lossyCast
  | _ => none

def text : Rejection → String
  | .resultType => "result type mismatch"
  | .lossyCast => "unsafe output cast"

end Rejection

inductive SettingsError where
  | noWarmup
  | noIterations
  | noVectorLen
  | noRows
  | noCols
  | noSweep
  | zeroSweepPoint
  | unorderedSweep
deriving DecidableEq, Repr

namespace SettingsError

def field : SettingsError → String
  | noWarmup => "schedule.warmup"
  | noIterations => "schedule.iterations"
  | noVectorLen => "vector_len"
  | noRows => "rows"
  | noCols => "cols"
  | noSweep => "sweep_sizes"
  | zeroSweepPoint => "sweep_sizes"
  | unorderedSweep => "sweep_sizes"

def reason : SettingsError → String
  | noWarmup => "warmup count must be greater than 0"
  | noIterations => "iteration count must be greater than 0"
  | noVectorLen => "must be greater than 0"
  | noRows => "must be greater than 0"
  | noCols => "must be greater than 0"
  | noSweep => "at least one sweep point is required"
  | zeroSweepPoint => "sweep points must be greater than 0"
  | unorderedSweep => "sweep points must be strictly ascending"

end SettingsError

inductive BenchError where
  | array (e : ArrayError)
  | sinkFull
  /-- A field, a number of places or a run of characters is too large to be laid out. -/
  | tooWide (size : Nat)
  /-- A buffer was refused by an operation whose result type was thought to be that of its
  operands. -/
  | unanticipatedRejection (op : String) (dtype : DType) (reason : Rejection)
  | unsupported (op : String) (dtype : DType)
  | settings (e : SettingsError)
  | unknownOperation (category : Category) (name : String)
  | operandCount (op : String) (arity : Nat) (geometry : String) (given : Nat)
  | missingOperand (op : String)
  | cellCount (title : String) (columns cells : Nat)
deriving DecidableEq, Repr

namespace BenchError

def invalid (text : String) : String := "invalid benchmark case: " ++ text

def message : BenchError → String
  | array e => "array error: " ++ e.message
  | sinkFull => "IO error: sink is full"
  | tooWide size => "cannot lay out text in a width of " ++ toString size
  | unanticipatedRejection op d reason =>
    op ++ " on " ++ d.name ++ " rejected its output buffer (" ++ reason.text ++
      ") but no promotion was expected"
  | unsupported op d => "no dispatch entry for " ++ op ++ " on " ++ d.name
  | settings e => "invalid configuration for '" ++ e.field ++ "': " ++ e.reason
  | unknownOperation category name =>
    invalid ("unknown " ++ category.name ++ " operation '" ++ name ++ "'")
  | operandCount op arity geometry given =>
    invalid (op ++ " takes " ++ toString arity ++ " array operand(s), shape " ++ geometry ++
      " has " ++ toString given)
  | missingOperand op => invalid (op ++ " is missing an operand")
  | cellCount title columns cells =>
    invalid ("table '" ++ title ++ "' has " ++ toString columns ++ " columns, row has " ++
      toString cells ++ " cells")

end BenchError

end ArrayBench
