import ArrayBench.Backend.Recorder
import ArrayBench.Proofs.Step

/-!
Backends that answer like the plain one.

What such a backend answers and writes is what the plain one does, and each call moves its own state
on. A recorder is of this kind as long as no fault is waiting, and the move is one more event.
-/

namespace ArrayBench

namespace Backend

variable {σ : Type}

/-- In a live state the backend answers like the plain one. A call of a form takes its state to a
live one that is `next`. -/
structure LikeCpu (b : Backend σ) (live : σ → Prop) (next : Form → σ → σ → Prop) : Prop where
  compute : ∀ c s, live s →
    ∃ t, live t ∧ next .allocating s t ∧ b.compute c s = ending (Cpu.compute c) t
  sum : ∀ a s, live s →
    ∃ t, live t ∧ next .allocating s t ∧ b.sum a s = ending (Cpu.sum a) t
  sumAxis : ∀ a k s, live s →
    ∃ t, live t ∧ next .allocating s t ∧ b.sumAxis a k s = ending (Cpu.sumAxis a k) t
  computeInto : ∀ c s a, live s →
    ∃ t, live t ∧ next .buffered s t ∧ b.computeInto c (s, a) = beside t (Cpu.computeInto c a)
  change : ∀ ch s a, live s →
    ∃ t, live t ∧ next .inPlace s t ∧ b.change ch (s, a) = beside t (Cpu.change ch a)

lemma ofExcept_apply {ε α : Type} (x : Except ε α) (s : σ) :
    (Step.ofExcept x : Step ε σ α) s = ending x s := by
  cases x <;> rfl

lemma onSnd_apply {ε α τ : Type} (x : Step ε τ α) (s : σ) (t : τ) :
    x.onSnd (s, t) = beside s (x t) := by
  simp only [Step.onSnd, Step.zoom, beside]
  cases x t <;> rfl

lemma cpu_likeCpu : cpu.LikeCpu (fun _ => True) (fun _ _ _ => True) where
  compute _ s _ := ⟨s, trivial, trivial, ofExcept_apply _ s⟩
  sum _ s _ := ⟨s, trivial, trivial, ofExcept_apply _ s⟩
  sumAxis _ _ s _ := ⟨s, trivial, trivial, ofExcept_apply _ s⟩
  computeInto _ s a _ := ⟨s, trivial, trivial, onSnd_apply _ s a⟩
  change _ s a _ := ⟨s, trivial, trivial, onSnd_apply _ s a⟩

/-! ### Recorders -/

def Records (f : Form) (r r' : Record) : Prop := ∃ e, e.form = f ∧ r' = r.push e

lemma observe_push {α : Type} (k : Kernel) (form : Form) (d : DType) (args : List Value)
    (result : α → σ → Value) {act : Step ArrayError σ α} {v : Except ArrayError α} {s t : σ}
    {r : Record} (hr : r.faults = []) (h : act s = ending v t) :
    ∃ e : Event, e.kernel = k ∧ e.form = form ∧ e.args = args ∧
      observe k form d args result act (s, r) = ending v (t, r.push e) := by
  obtain ⟨events, faults⟩ := r
  obtain rfl : faults = [] := hr
  cases v with
  | ok v =>
    refine ⟨⟨k, form, args, .ok (result v t), d⟩, rfl, rfl, rfl, ?_⟩
    simp only [observe, Record.strike, h, ending]
  | error e =>
    refine ⟨⟨k, form, args, .error e, d⟩, rfl, rfl, rfl, ?_⟩
    simp only [observe, Record.strike, h, ending]

/-- The array that is written is an operand before the call. -/
lemma observeWrite_push (k : Kernel) (form : Form) (d : NdArray → DType) (args : List Value)
    {act : Step ArrayError (σ × NdArray) Unit} {v : Except ArrayError Unit} {s t : σ}
    {a b : NdArray} {r : Record} (hr : r.faults = []) (h : act (s, a) = ending v (t, b)) :
    ∃ e : Event, e.kernel = k ∧ e.form = form ∧ e.args = args ++ [.array a] ∧
      observeWrite k form d args act ((s, r), a) = ending v ((t, r.push e), b) := by
  obtain ⟨e, hk, hform, hargs, heq⟩ := observe_push k form (d a) (args ++ [.array a])
    (fun _ s => .array s.2) hr h
  refine ⟨e, hk, hform, hargs, ?_⟩
  simp only [observeWrite, Step.get_bind, Step.zoom, heq]
  cases v <;> rfl

lemma observe_ending {α : Type} {k : Kernel} {form : Form} {d : DType} {args : List Value}
    {result : α → σ → Value} {act : Step ArrayError σ α} {v : Except ArrayError α} {s t : σ}
    {r : Record} (hr : r.faults = []) (h : act s = ending v t) :
    ∃ r', r'.faults = [] ∧ Records form r r' ∧
      observe k form d args result act (s, r) = ending v (t, r') := by
  obtain ⟨e, -, hform, -, heq⟩ := observe_push k form d args result hr h
  exact ⟨r.push e, hr, ⟨e, hform, rfl⟩, heq⟩

lemma observeWrite_beside {k : Kernel} {form : Form} {d : NdArray → DType} {args : List Value}
    {act : Step ArrayError (σ × NdArray) Unit} {x : EStateM.Result ArrayError NdArray Unit}
    {s t : σ} {a : NdArray} {r : Record} (hr : r.faults = []) (h : act (s, a) = beside t x) :
    ∃ r', r'.faults = [] ∧ Records form r r' ∧
      observeWrite k form d args act ((s, r), a) = beside (t, r') x := by
  cases x with
  | ok v b =>
    obtain ⟨e, -, hform, -, heq⟩ := observeWrite_push k form d args (v := .ok v) hr h
    exact ⟨r.push e, hr, ⟨e, hform, rfl⟩, heq⟩
  | error e b =>
    obtain ⟨event, -, hform, -, heq⟩ := observeWrite_push k form d args (v := .error e) hr h
    exact ⟨r.push event, hr, ⟨event, hform, rfl⟩, heq⟩

/-- A recorder without faults answers like the backend inside it, and notes the call down. -/
lemma recording_likeCpu {b : Backend σ} {live : σ → Prop} {next : Form → σ → σ → Prop}
    (h : b.LikeCpu live next) :
    b.recording.LikeCpu (fun s => live s.1 ∧ s.2.faults = [])
      (fun f s t => next f s.1 t.1 ∧ Records f s.2 t.2) where
  compute := fun c ⟨s, _⟩ ⟨hs, hr⟩ => by
    obtain ⟨t, ht, hn, he⟩ := h.compute c s hs
    obtain ⟨r, hr, hrec, heq⟩ := observe_ending hr he
    exact ⟨(t, r), ⟨ht, hr⟩, ⟨hn, hrec⟩, heq⟩
  sum := fun a ⟨s, _⟩ ⟨hs, hr⟩ => by
    obtain ⟨t, ht, hn, he⟩ := h.sum a s hs
    obtain ⟨r, hr, hrec, heq⟩ := observe_ending hr he
    exact ⟨(t, r), ⟨ht, hr⟩, ⟨hn, hrec⟩, heq⟩
  sumAxis := fun a k ⟨s, _⟩ ⟨hs, hr⟩ => by
    obtain ⟨t, ht, hn, he⟩ := h.sumAxis a k s hs
    obtain ⟨r, hr, hrec, heq⟩ := observe_ending hr he
    exact ⟨(t, r), ⟨ht, hr⟩, ⟨hn, hrec⟩, heq⟩
  computeInto := fun c ⟨s, _⟩ a ⟨hs, hr⟩ => by
    obtain ⟨t, ht, hn, he⟩ := h.computeInto c s a hs
    obtain ⟨r, hr, hrec, heq⟩ := observeWrite_beside (d := fun _ => leadType c) hr he
    exact ⟨(t, r), ⟨ht, hr⟩, ⟨hn, hrec⟩, heq⟩
  change := fun ch ⟨s, _⟩ a ⟨hs, hr⟩ => by
    obtain ⟨t, ht, hn, he⟩ := h.change ch s a hs
    obtain ⟨r, hr, hrec, heq⟩ := observeWrite_beside hr he
    exact ⟨(t, r), ⟨ht, hr⟩, ⟨hn, hrec⟩, heq⟩

end Backend

end ArrayBench
