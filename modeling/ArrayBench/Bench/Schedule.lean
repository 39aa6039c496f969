import ArrayBench.Step
import ArrayBench.Bench.Error

/-!
Schedules: how often a case is run, and the timing loops.

A unit of work is run `warmup` times untimed and then `iterations` times timed. The first failure
ends the loop and is its result. The clock enters as an argument, the lengths of the timed
stretches one after the other, and the result is the mean time of a call.
-/

namespace ArrayBench

structure Schedule where
  warmup : Nat
  iterations : Nat
deriving DecidableEq, Repr

/-- The lengths of timed stretches in nanoseconds, by number. -/
abbrev Clock := Nat → Nat

namespace Schedule

def standard : Schedule := ⟨20, 200⟩

def check (s : Schedule) : Except BenchError Unit :=
  if s.warmup = 0 then .error (.settings .noWarmup)
  else if s.iterations = 0 then .error (.settings .noIterations)
  else .ok ()

def leastMean : Float := Float.ofBits 0x0010000000000000

/-- Nanoseconds as seconds, the whole seconds and the rest each converted on its own. -/
def seconds (nanos : Nat) : Float :=
  Float.ofNat (nanos / 10 ^ (9 : Nat)) + Float.ofNat (nanos % 10 ^ (9 : Nat)) / 1e9

/-- The mean time of a call in microseconds. It is never zero, however coarse the clock. -/
def meanMicros (nanos iterations : Nat) : Float :=
  let micros := seconds nanos * 1e6 / Float.ofNat iterations
  if leastMean < micros then micros else leastMean

variable {ε σ : Type}

def rounds : Nat → Step ε σ Unit → Step ε σ Unit
  | 0, _ => pure ()
  | n + 1, x => do
    x
    rounds n x

/-- Runs a call and times all the timed calls as one stretch. -/
def time (s : Schedule) (clock : Clock) (call : Step ε σ Unit) : Step ε σ Float := do
  rounds s.warmup call
  rounds s.iterations call
  return meanMicros (clock 0) s.iterations

/-- Runs a call with a reset before each. Every timed call is a stretch of its own, so that no
reset is timed. -/
def timeWithReset (s : Schedule) (clock : Clock) (reset call : Step ε σ Unit) : Step ε σ Float := do
  rounds s.warmup do
    reset
    call
  rounds s.iterations do
    reset
    call
  return meanMicros ((List.range s.iterations).map clock).sum s.iterations

end Schedule

end ArrayBench
