import ArrayBench.Bench.Case

/-!
Throughput, derived from the mean time of a call.
-/

namespace ArrayBench

namespace Throughput

/-- Millions of elements per second. -/
def opsPerSecond (elements : Nat) (micros : Float) : Float := Float.ofNat elements / micros

def matmulFlops (m k n : Nat) : Float := 2 * Float.ofNat m * Float.ofNat k * Float.ofNat n

/-- Billions of floating-point operations per second. -/
def gflops (m k n : Nat) (micros : Float) : Float := matmulFlops m k n / (micros * 1e3)

def gbPerSecond (bytes micros : Float) : Float := bytes / (micros * 1e3)

end Throughput

structure Metrics where
  mops : Float
  /-- Given where the operands have the shapes of a matrix product. -/
  gflops : Option Float
  gbPerS : Option Float

def Metrics.derive (c : Case) (micros : Float) : Metrics where
  mops := Throughput.opsPerSecond c.elementCount micros
  gflops := c.geometry.matmulSizes.map fun (m, k, n) => Throughput.gflops m k n micros
  gbPerS := c.op.category.arraysMoved.map fun arrays =>
    Throughput.gbPerSecond (Float.ofNat (arrays * c.elementCount * c.dtype.size)) micros

structure Measurement where
  case : Case
  /-- Mean time of a timed call. -/
  micros : Float
  /-- The output buffer was refused and the allocating form was timed. -/
  usedFallback : Bool
  metrics : Metrics

def Measurement.make (c : Case) (micros : Float) (usedFallback : Bool) : Measurement :=
  ⟨c, micros, usedFallback, .derive c micros⟩

end ArrayBench
