import Mathlib.Tactic.Lemma
import ArrayBench.Step

/-!
Running a step, one instruction at a time.

A sequence of checks and reads is run from left to right: a check that succeeds hands its value on
and leaves the state alone, and one that fails is the outcome.
-/

namespace ArrayBench

namespace Step

variable {ε σ : Type} {α β : Type}

@[simp] lemma get_bind (f : σ → Step ε σ β) (s : σ) : ((get : Step ε σ σ) >>= f) s = f s s := rfl

@[simp] lemma ok_bind (v : α) (f : α → Step ε σ β) (s : σ) :
    ((liftM (Except.ok v : Except ε α) : Step ε σ α) >>= f) s = f v s := rfl

@[simp] lemma error_bind (e : ε) (f : α → Step ε σ β) (s : σ) :
    ((liftM (Except.error e : Except ε α) : Step ε σ α) >>= f) s = .error e s := rfl

lemma bind_of_ok {x : Step ε σ α} {s t : σ} {v : α} (h : x s = .ok v t) (f : α → Step ε σ β) :
    (x >>= f) s = f v t := by
  simp only [bind, EStateM.bind, h]

lemma bind_of_error {x : Step ε σ α} {s t : σ} {e : ε} (h : x s = .error e t)
    (f : α → Step ε σ β) : (x >>= f) s = .error e t := by
  simp only [bind, EStateM.bind, h]

/-- A step that starts with the checks of `x` fails the way the checks fail. -/
lemma refused {x : Except ε α} {e : ε} (h : x = .error e) (f : α → Step ε σ β) (s : σ) :
    ((liftM x : Step ε σ α) >>= f) s = .error e s := by
  rw [h, error_bind]

lemma refused_bind {γ : Type} {x : Except ε α} {g : α → Except ε γ} {e : ε}
    (h : x >>= g = .error e) {f : α → Step ε σ β} {s : σ}
    (hf : ∀ v, g v = .error e → f v s = .error e s) :
    ((liftM x : Step ε σ α) >>= f) s = .error e s := by
  cases x with
  | ok v => exact hf v h
  | error e' =>
    obtain rfl : e' = e := Except.error.inj h
    rfl

end Step

def ending {ε α σ : Type} (v : Except ε α) (s : σ) : EStateM.Result ε σ α :=
  match v with
  | .ok a => .ok a s
  | .error e => .error e s

lemma ending_inj {ε α σ : Type} {v w : Except ε α} {s t : σ} (h : ending v s = ending w t) :
    v = w ∧ s = t := by
  cases v with
  | ok a =>
    cases w with
    | ok b =>
      obtain ⟨rfl, rfl⟩ := EStateM.Result.ok.inj h
      exact ⟨rfl, rfl⟩
    | error e => cases h
  | error e =>
    cases w with
    | ok b => cases h
    | error e' =>
      obtain ⟨rfl, rfl⟩ := EStateM.Result.error.inj h
      exact ⟨rfl, rfl⟩

lemma Step.exists_ending {ε α σ : Type} (x : Step ε σ α) (s : σ) : ∃ v t, x s = ending v t := by
  cases hx : x s with
  | ok v t => exact ⟨.ok v, t, rfl⟩
  | error e t => exact ⟨.error e, t, rfl⟩

def beside {ε α σ τ : Type} (s : σ) (r : EStateM.Result ε τ α) : EStateM.Result ε (σ × τ) α :=
  match r with
  | .ok v t => .ok v (s, t)
  | .error e t => .error e (s, t)

@[simp] lemma exceptOk_bind {ε α β : Type} (v : α) (f : α → Except ε β) :
    ((Except.ok v : Except ε α) >>= f) = f v := rfl

@[simp] lemma exceptError_bind {ε α β : Type} (e : ε) (f : α → Except ε β) :
    ((Except.error e : Except ε α) >>= f) = .error e := rfl

lemma exceptBind_eq_ok {ε α β : Type} {x : Except ε α} {f : α → Except ε β} {v : β} :
    x >>= f = .ok v ↔ ∃ a, x = .ok a ∧ f a = .ok v := by
  cases x with
  | ok a => simp
  | error e => simp

end ArrayBench
