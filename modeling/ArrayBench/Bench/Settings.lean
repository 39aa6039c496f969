import ArrayBench.Bench.Geometry

/-!
Settings of a benchmark run.
-/

namespace ArrayBench

structure Settings where
  /-- Schedule of every case but matrix products. -/
  schedule : Schedule
  vectorLen : Nat
  rows : Nat
  cols : Nat
  sweepSizes : List Nat
deriving DecidableEq, Repr

namespace Settings

def standard : Settings := ⟨.standard, 1000000, 1000, 1000, Geometry.sweepSizes⟩

def ascending : List Nat → Bool
  | a :: b :: rest => a < b && ascending (b :: rest)
  | _ => true

/-- The first thing that is wrong with the settings, if any. -/
def check (s : Settings) : Except BenchError Unit := do
  s.schedule.check
  if s.vectorLen = 0 then throw (.settings .noVectorLen)
  if s.rows = 0 then throw (.settings .noRows)
  if s.cols = 0 then throw (.settings .noCols)
  if s.sweepSizes = [] then throw (.settings .noSweep)
  if 0 ∈ s.sweepSizes then throw (.settings .zeroSweepPoint)
  if !ascending s.sweepSizes then throw (.settings .unorderedSweep)

end Settings

end ArrayBench
