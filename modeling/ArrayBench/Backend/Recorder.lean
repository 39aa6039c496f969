import ArrayBench.Backend

/-!
Recording what a backend is asked to do.

A recorder passes every call on to the backend inside it and keeps a note on each: what was asked,
on which operands, and what came of it. It can also be told to fail calls of a given kind from some
call on, without passing them on.
-/

namespace ArrayBench

inductive Value where
  | array (a : NdArray)
  | scalar (s : Scalar)

structure Event where
  kernel : Kernel
  form : Form
  args : List Value
  result : Except ArrayError Value
  dtype : DType

/-- Calls to be failed. A field that is not given matches every call. -/
structure Fault where
  entry : Option String
  detail : Option String
  dtype : Option DType
  /-- Matching calls that are let through. -/
  after : Nat
  error : ArrayError

def Fault.hits (f : Fault) (k : Kernel) (form : Form) (d : DType) : Bool :=
  f.entry.all (· == k.entry form) && f.detail.all (· == k.detail) && f.dtype.all (· == d)

/-- What a recorder has seen: its events, and for each fault the matching calls so far. -/
structure Record where
  events : Array Event
  faults : List (Fault × Nat)

namespace Record

/-- Shows a call to the faults in turn and gives the error of the first one that strikes. Faults
behind that one do not see the call. -/
def strike (k : Kernel) (form : Form) (d : DType) :
    List (Fault × Nat) → Option ArrayError × List (Fault × Nat)
  | [] => (none, [])
  | (f, n) :: rest =>
    if f.hits k form d then
      if f.after ≤ n then (some f.error, (f, n + 1) :: rest)
      else
        let (e, rest) := strike k form d rest
        (e, (f, n + 1) :: rest)
    else
      let (e, rest) := strike k form d rest
      (e, (f, n) :: rest)

def push (r : Record) (e : Event) : Record := { r with events := r.events.push e }

end Record

namespace Call

def kernel : Call → Kernel
  | binary op _ _ => .binary op
  | scalar op _ _ => .scalar op
  | unary op _ => .unary op
  | matmul _ _ => .matmul

def args : Call → List Value
  | binary _ a b => [.array a, .array b]
  | scalar _ a s => [.array a, .scalar s]
  | unary _ a => [.array a]
  | matmul a b => [.array a, .array b]

end Call

namespace Change

def kernel : Change → Kernel
  | binary op _ => .binary op
  | scalar op _ => .scalar op
  | unary op => .unary op

/-- The operands beside the target. -/
def args : Change → List Value
  | binary _ b => [.array b]
  | scalar _ s => [.scalar s]
  | unary _ => []

end Change

namespace Backend

variable {σ α : Type}

/-- Runs a call on the backend's part of the state, unless a fault strikes, and notes it down. -/
def observe (k : Kernel) (form : Form) (d : DType) (args : List Value) (result : α → σ → Value)
    (act : Step ArrayError σ α) : Step ArrayError (σ × Record) α := fun (s, r) =>
  let (struck, faults) := Record.strike k form d r.faults
  let r := { r with faults }
  match struck with
  | some e => .error e (s, r.push ⟨k, form, args, .error e, d⟩)
  | none =>
    match act s with
    | .ok v s => .ok v (s, r.push ⟨k, form, args, .ok (result v s), d⟩)
    | .error e s => .error e (s, r.push ⟨k, form, args, .error e, d⟩)

def observeWrite (k : Kernel) (form : Form) (d : NdArray → DType) (args : List Value)
    (act : Step ArrayError (σ × NdArray) Unit) :
    Step ArrayError ((σ × Record) × NdArray) Unit := do
  let (_, a) ← get
  (observe k form (d a) (args ++ [.array a]) (fun _ s => .array s.2) act).zoom
    fun ((s, r), a) => (((s, a), r), fun ((s, a), r) => ((s, r), a))

/-- A backend that notes down every call to the one inside it. -/
def recording (inner : Backend σ) : Backend (σ × Record) where
  name := inner.name
  compute c :=
    observe c.kernel .allocating (leadType c) c.args (fun a _ => .array a) (inner.compute c)
  computeInto c :=
    observeWrite c.kernel .buffered (fun _ => leadType c) c.args (inner.computeInto c)
  change c := observeWrite c.kernel .inPlace NdArray.dtype c.args (inner.change c)
  sum a := observe .sum .allocating a.dtype [.array a] (fun s _ => .scalar s) (inner.sum a)
  sumAxis a axis :=
    observe (.sumAxis axis) .allocating a.dtype [.array a] (fun b _ => .array b)
      (inner.sumAxis a axis)

end Backend

end ArrayBench
