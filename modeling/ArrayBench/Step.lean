/-!
Steps: computations that read and write a state and may fail.

A step that fails leaves the state as it was at the point of failure, so what it has written by
then stays written. A computation without a state is a step that leaves every state alone.
-/

namespace ArrayBench

/-- A computation on states `σ` that may fail with an `ε`. -/
abbrev Step (ε σ : Type) := EStateM ε σ

namespace Step

variable {ε σ : Type} {α : Type}

def ofExcept : Except ε α → Step ε σ α
  | .ok v => pure v
  | .error e => throw e

instance : MonadLift (Except ε) (EStateM ε σ) := ⟨ofExcept⟩

@[simp] theorem ofExcept_ok (v : α) (s : σ) : (ofExcept (.ok v) : Step ε σ α) s = .ok v s := rfl

@[simp] theorem ofExcept_error (e : ε) (s : σ) :
    (ofExcept (.error e) : Step ε σ α) s = .error e s := rfl

def result (x : Step ε σ α) (s : σ) : Except ε α :=
  match x s with
  | .ok v _ => .ok v
  | .error e _ => .error e

/-- The state a step ends in, whether it fails or not. -/
def state (x : Step ε σ α) (s : σ) : σ :=
  match x s with
  | .ok _ t => t
  | .error _ t => t

/-- A step on a part of a state: `part` takes the part out and says how to put it back. -/
def zoom {τ : Type} (part : τ → σ × (σ → τ)) (x : Step ε σ α) : Step ε τ α := fun t =>
  let (s, back) := part t
  match x s with
  | .ok v s => .ok v (back s)
  | .error e s => .error e (back s)

def onFst {τ : Type} (x : Step ε σ α) : Step ε (σ × τ) α := x.zoom fun (s, t) => (s, (·, t))

def onSnd {τ : Type} (x : Step ε σ α) : Step ε (τ × σ) α := x.zoom fun (t, s) => (s, (t, ·))

/-- A step that fails in the words of the caller. -/
def mapError {δ : Type} (f : ε → δ) (x : Step ε σ α) : Step δ σ α := fun s =>
  match x s with
  | .ok v t => .ok v t
  | .error e t => .error (f e) t

/-- A failure taken as a value. -/
def attempt {δ : Type} (x : Step ε σ α) : Step δ σ (Except ε α) := fun s =>
  match x s with
  | .ok v t => .ok (.ok v) t
  | .error e t => .ok (.error e) t

end Step

end ArrayBench
