import ArrayBench.DType
import ArrayBench.Shape

/-!
Why an array operation refuses its operands.
-/

namespace ArrayBench

inductive ArrayError where
  | shapeMismatch (expected got : Shape)
  | dtypeMismatch (expected got : DType)
  | invalidAxis (axis ndim : Nat)
  | broadcast (a b : Shape)
  | matmulMismatch (m k k' n : Nat)
  /-- The result would fit the buffer's type without loss but has another type. -/
  | resultTypeMismatch (result out : DType)
  /-- The result would lose information in the buffer's type. -/
  | unsafeOutputCast (result out : DType)
  | matmulRank (a b : Shape)
  | storageTooSmall (shape : Shape) (needed size : Nat)
  | noBufferedForm
  /-- A storage position past the end. No operation on well-formed arrays gives this. -/
  | outOfRange (index size : Nat)
  | tooLarge (bytes : Nat)
  | other (text : String)
deriving DecidableEq, Repr

namespace ArrayError

/-- Sizes as a list in brackets: `[2, 3]`. -/
def sizes (s : Shape) : String := "[" ++ String.intercalate ", " (s.map toString) ++ "]"

def message : ArrayError → String
  | shapeMismatch expected got =>
    "shape mismatch: expected " ++ sizes expected ++ ", got " ++ sizes got
  | dtypeMismatch expected got =>
    "dtype mismatch: expected " ++ expected.name ++ ", got " ++ got.name
  | invalidAxis axis ndim =>
    "invalid axis " ++ toString axis ++ " for array with " ++ toString ndim ++ " dimensions"
  | broadcast a b => "cannot broadcast shapes " ++ sizes a ++ " and " ++ sizes b
  | matmulMismatch m k k' n =>
    "matmul dimension mismatch: [" ++ toString m ++ "x" ++ toString k ++ "] @ [" ++ toString k' ++
      "x" ++ toString n ++ "]"
  | resultTypeMismatch result out =>
    "result dtype " ++ result.name ++ " does not match output buffer dtype " ++ out.name
  | unsafeOutputCast result out =>
    "cannot cast " ++ result.name ++ " result into " ++ out.name ++ " output buffer without loss"
  | matmulRank a b => "matmul: expected 2-D operands, got " ++ a.text ++ " and " ++ b.text
  | storageTooSmall shape needed size =>
    "layout " ++ shape.text ++ " needs " ++ toString needed ++ " elements but storage has " ++
      toString size
  | noBufferedForm => "operation has no output-buffer call form"
  | outOfRange index size =>
    "position " ++ toString index ++ " is outside a storage of " ++ toString size ++ " elements"
  | tooLarge bytes => "an array of " ++ toString bytes ++ " bytes is too large"
  | other text => text

end ArrayError

/-- A buffer takes a result only if it has exactly the result's type. -/
def checkOutputType (result out : DType) : Except ArrayError Unit :=
  if result = out then .ok ()
  else if result.castsTo out then .error (.resultTypeMismatch result out)
  else .error (.unsafeOutputCast result out)

end ArrayBench
