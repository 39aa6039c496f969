import ArrayBench.Proofs.Backend.LikeCpu
import ArrayBench.Proofs.Cpu.Alike

/-!
What a recorder notes down.

Every call that reaches a recorder is noted down as one event, with the operands it came with. This
also holds for a call that a fault strikes, which is not passed on and writes nothing. If a call
succeeds, the event has the answer of the backend inside.
-/

namespace ArrayBench

/-! ### Values that read the same -/

/-- Values that cannot be told apart by reading them. -/
inductive Value.Alike : Value → Value → Prop
  | array {a b : NdArray} (h : a.Alike b) : Value.Alike (.array a) (.array b)
  | scalar (s : Scalar) : Value.Alike (.scalar s) (.scalar s)

namespace Value.Alike

lemma refl : ∀ v : Value, v.Alike v
  | .array a => .array (.refl a)
  | .scalar s => .scalar s

lemma symm {v w : Value} (h : v.Alike w) : w.Alike v := by
  cases h with
  | array h => exact .array h.symm
  | scalar s => exact .scalar s

lemma trans {u v w : Value} (h : u.Alike v) (h' : v.Alike w) : u.Alike w := by
  cases h with
  | array h =>
    cases h' with
    | array h' => exact .array (h.trans h')
  | scalar s => exact h'

end Value.Alike

/-! ### Events -/

/-- The operands of a noted call in the order of the call: the target of an in-place call is the
first one, and the buffer of a buffered call is none. -/
def Event.operands (e : Event) : List Value :=
  match e.form with
  | .allocating => e.args
  | .buffered => e.args.dropLast
  | .inPlace => e.args.getLast?.toList ++ e.args.dropLast

namespace Backend

variable {σ α : Type}

/-- One event is noted down. The backend is as its call has left it, or as it was. -/
lemma observe_notes (k : Kernel) (form : Form) (d : DType) (args : List Value)
    (result : α → σ → Value) (act : Step ArrayError σ α) (s : σ) (r : Record) :
    ∃ (e : Event) (r' : Record), r'.events.toList = r.events.toList ++ [e] ∧ e.form = form ∧
      e.args = args ∧ (∀ x, e.result = .ok x → ∃ v t, act s = .ok v t ∧ x = result v t) ∧
      ((observe k form d args result act).state (s, r) = (s, r') ∨
        (observe k form d args result act).state (s, r) = (act.state s, r')) := by
  obtain ⟨events, faults⟩ := r
  cases hstrike : Record.strike k form d faults with
  | mk struck faults' =>
    simp only [Step.state, observe, hstrike]
    -- if a fault strikes, the backend is not called
    cases struck with
    | some x =>
      refine ⟨_, _, Array.toList_push, rfl, rfl, ?_, Or.inl rfl⟩
      rintro x ⟨⟩
    | none =>
      cases hact : act s with
      | ok v t =>
        refine ⟨_, _, Array.toList_push, rfl, rfl, ?_, Or.inr rfl⟩
        rintro x ⟨⟩
        exact ⟨v, t, rfl, rfl⟩
      | error x t =>
        refine ⟨_, _, Array.toList_push, rfl, rfl, ?_, Or.inr rfl⟩
        rintro x ⟨⟩

lemma observeWrite_state (k : Kernel) (form : Form) (d : NdArray → DType) (args : List Value)
    (act : Step ArrayError (σ × NdArray) Unit) (s : σ) (r : Record) (a : NdArray) :
    (observeWrite k form d args act).state ((s, r), a) =
      let ((t, b), r') := (observe k form (d a) (args ++ [.array a]) (fun _ t => .array t.2)
        act).state ((s, a), r)
      ((t, r'), b) := by
  simp only [Step.state, observeWrite, Step.get_bind, Step.zoom]
  cases observe k form (d a) (args ++ [.array a]) (fun _ t => .array t.2) act ((s, a), r) <;> rfl

end Backend

end ArrayBench
