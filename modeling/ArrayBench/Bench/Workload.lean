import ArrayBench.Number.Shortest
import ArrayBench.Bench.Operation
import ArrayBench.Bench.Schedule

/-!
Workloads: operations ready to be run many times, and how they are timed.

The buffered form is tried first. If the buffer is refused for its element type, and the catalog
allows for a result of another type, the allocating form is timed instead, with its own warmup.
Every other failure is the result.
-/

namespace ArrayBench

/-- A prepared operation on states `σ`. -/
structure Workload (σ : Type) where
  /-- Writes the result into the array kept for it. -/
  buffered : Step ArrayError σ Unit
  allocating : Step ArrayError σ Unit
  /-- Gives the operands their first values back. -/
  reset : Step ArrayError σ Unit

inductive Attempt where
  | completed (micros : Float)
  | rejected (reason : Rejection)

structure Timing where
  micros : Float
  usedFallback : Bool

inductive Note where
  | heading (text : String)
  | rejected (op : Operation) (dtype : DType) (reason : Rejection)
  | measured (op : Operation) (dtype : DType) (geometry : String) (micros mops : Float)
      (usedFallback : Bool)

namespace Note

def level : Note → String
  | .heading _ => "INFO"
  | _ => "DEBUG"

def text : Note → String
  | .heading text => text
  | .rejected op d reason =>
    op.category.name ++ " " ++ op.name ++ " on " ++ d.name ++ ": output buffer rejected (" ++
      reason.text ++ "), timing the allocating form"
  | .measured op d geometry micros mops usedFallback =>
    op.category.name ++ " " ++ op.name ++ " " ++ d.name ++ " " ++ geometry ++ ": " ++
      (Decoded.ofFloat micros).fixedText 2 ++ " us/call, " ++
      (Decoded.ofFloat mops).fixedText 1 ++ " Mop/s" ++ (if usedFallback then " (fallback)" else "")

end Note

namespace Workload

variable {σ : Type}

/-- A workload that only has an allocating form. -/
def allocatingOnly (allocating : Step ArrayError σ Unit) : Workload σ where
  buffered := throw .noBufferedForm
  allocating
  reset := pure ()

def zoom {τ : Type} (part : τ → σ × (σ → τ)) (w : Workload σ) : Workload τ where
  buffered := w.buffered.zoom part
  allocating := w.allocating.zoom part
  reset := w.reset.zoom part

/-- One call in the given form. An in-place call counts as buffered. -/
def call (w : Workload σ) : Form → Step ArrayError σ Unit
  | .allocating => w.allocating
  | _ => w.buffered

def time (w : Workload σ) (s : Schedule) (clock : Clock) (reset : ResetPolicy) (form : Form) :
    Step ArrayError σ Float :=
  match reset with
  | .never => s.time clock (w.call form)
  | .beforeEachCall => s.timeWithReset clock w.reset (w.call form)

def attempt (w : Workload σ) (s : Schedule) (clock : Clock) (reset : ResetPolicy) :
    Step BenchError σ Attempt := do
  match ← (w.time s clock reset .buffered).attempt with
  | .ok micros => return .completed micros
  | .error e =>
    match Rejection.of? e with
    | some reason => return .rejected reason
    | none => throw (.array e)

/-- Times an operation in the form that its catalog entry calls for. `note` puts a line into the
log that the state carries. -/
def measure (w : Workload σ) (s : Schedule) (clock : Clock) (note : Note → σ → σ) (op : Operation)
    (d : DType) (dispatch : Dispatch) : Step BenchError σ Timing := do
  if !op.buffered then
    let micros ← (w.time s clock dispatch.reset .allocating).mapError .array
    return ⟨micros, false⟩
  match ← w.attempt s clock dispatch.reset with
  | .completed micros => return ⟨micros, false⟩
  | .rejected reason =>
    if dispatch.mayDiffer then
      modify (note (.rejected op d reason))
      let micros ← (w.time s clock dispatch.reset .allocating).mapError .array
      return ⟨micros, true⟩
    else throw (.unanticipatedRejection op.name d reason)

end Workload

end ArrayBench
