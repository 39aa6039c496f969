import ArrayBench.DType
import ArrayBench.Number.Shortest

/-!
Elements and single typed values.

`d.Elem` is the type of the elements of element type `d`. A scalar is an element together with its
type. Conversions between types never fail: integers wrap into narrower integers and round into
floats, floats are cut to integers toward zero and stop at the ends of the integer range.
-/

namespace ArrayBench

@[reducible] def DType.Elem : DType → Type
  | .int t => Word t
  | .float .single => Float32
  | .float .double => Float

structure Scalar where
  dtype : DType
  value : dtype.Elem

/-- The integer a float is cut to: not a number gives zero, and values outside the range of the
format give its nearest end. -/
def Decoded.toWord {t : IntType} : Decoded → Word t
  | .nan => 0
  | .infinite true => ⟨t.lo, Int.le_refl _, t.lo_le_hi⟩
  | .infinite false => ⟨t.hi, t.lo_le_hi, Int.le_refl _⟩
  | .finite true m q => .saturate (-(truncate m q : Int))
  | .finite false m q => .saturate (truncate m q)

namespace DType

/-- The element nearest to a float that the type allows. -/
def ofFloat : (d : DType) → Float → d.Elem
  | .int _, x => (Decoded.ofFloat x).toWord
  | .float .single, x => x.toFloat32
  | .float .double, x => x

def toFloat : {d : DType} → d.Elem → Float
  | .int _, a => Float.ofInt a.val
  | .float .single, a => a.toFloat
  | .float .double, a => a

def convert : {d : DType} → (e : DType) → d.Elem → e.Elem
  | .int _, .int _, a => Word.ofInt a.val
  | .int _, .float .single, a => Float32.ofInt a.val
  | .int _, .float .double, a => Float.ofInt a.val
  | .float .single, .int _, a => (Decoded.ofFloat32 a).toWord
  | .float .single, .float .single, a => a
  | .float .single, .float .double, a => a.toFloat
  | .float .double, .int _, a => (Decoded.ofFloat a).toWord
  | .float .double, .float .single, a => a.toFloat32
  | .float .double, .float .double, a => a

def zero : (d : DType) → d.Elem
  | .int _ => (0 : Word _)
  | .float .single => (0 : Float32)
  | .float .double => (0 : Float)

instance (d : DType) : Inhabited d.Elem := ⟨d.zero⟩

/-- The element in the type in which elements are summed. -/
def widen : {d : DType} → d.Elem → d.sumType.Elem
  | .int _, a => Word.ofInt a.val
  | .float _, a => a

end DType

namespace Scalar

def ofFloat (d : DType) (x : Float) : Scalar := ⟨d, d.ofFloat x⟩

def toFloat (s : Scalar) : Float := DType.toFloat s.value

def convert (s : Scalar) (d : DType) : d.Elem := DType.convert d s.value

/-- Integers in decimal, floats with the fewest digits that read back. -/
def text : Scalar → String
  | ⟨.int _, a⟩ => toString a.val
  | ⟨.float .single, a⟩ => (Decoded.ofFloat32 a).shortestText .single
  | ⟨.float .double, a⟩ => (Decoded.ofFloat a).shortestText .double

end Scalar

end ArrayBench
