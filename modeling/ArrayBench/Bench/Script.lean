import ArrayBench.Bench.Workload

/-!
Scripted steps.

A scripted step does nothing but note in a trace that it was taken, and fails from a given call on.
Workloads made of such steps show which steps a timing loop takes, and in which order.
-/

namespace ArrayBench

/-- The steps taken so far, and how often each has been taken. -/
structure Trace where
  events : Array (String × Bool)
  tally : List (String × Nat)

namespace Trace

def empty : Trace := ⟨#[], []⟩

/-- A tally with one more step. -/
def counted (name : String) : List (String × Nat) → List (String × Nat)
  | [] => [(name, 1)]
  | (k, n) :: rest => if k = name then (k, n + 1) :: rest else (k, n) :: counted name rest

def count (t : Trace) (name : String) : Nat := (t.tally.lookup name).getD 0

def push (t : Trace) (name : String) (ok : Bool) : Trace :=
  ⟨t.events.push (name, ok), counted name t.tally⟩

end Trace

/-- From which call on a step fails, and how. -/
structure Cue (ε : Type) where
  after : Nat
  error : ε

def Trace.step {ε : Type} (name : String) (cue : Option (Cue ε)) : Step ε Trace Unit := fun t =>
  match cue with
  | none => .ok () (t.push name true)
  | some c =>
    if c.after ≤ t.count name then .error c.error (t.push name false)
    else .ok () (t.push name true)

/-- When the three steps of a scripted workload fail. -/
structure Script where
  buffered : Option (Cue ArrayError)
  allocating : Option (Cue ArrayError)
  reset : Option (Cue ArrayError)

namespace Script

def bufferedName : String := "buffered"

def allocatingName : String := "allocating"

def resetName : String := "reset"

def workload (s : Script) : Workload Trace where
  buffered := Trace.step bufferedName s.buffered
  allocating := Trace.step allocatingName s.allocating
  reset := Trace.step resetName s.reset

end Script

end ArrayBench
