import ArrayBench.Proofs.Bench.Rounds

/-!
Timing with a reset before each call.

Resets and calls take turns, through the warmup and on through the timed rounds, until one of them
fails. The failure ends the loop and is its result. So the steps that a loop takes are the first
ones of all its rounds, and how many resets and calls there are among them says where it has
stopped. A reset that does nothing can be left out: what remains are the calls of a loop without
resets.

The reset and the call are arbitrary, and a state is all that either of them can reach. To see what
a loop does on its way it is run on steps that put themselves down in a list.
-/

namespace ArrayBench

inductive Part where
  | reset
  | call
deriving DecidableEq, Repr

namespace Step

variable {ε σ α : Type}

/-- A step that puts its name down in a list, whether it fails or not, and with it the state that
it is taken from. -/
def noted (a : α) (x : Step ε σ Unit) : Step ε (σ × List (α × σ)) Unit :=
  fun (s, before) =>
    match x s with
    | .ok v t => .ok v (t, before ++ [(a, s)])
    | .error e t => .error e (t, before ++ [(a, s)])

lemma noted_of_ok {x : Step ε σ Unit} {s t : σ} (h : x s = .ok () t) (a : α)
    (before : List (α × σ)) : x.noted a (s, before) = .ok () (t, before ++ [(a, s)]) := by
  simp only [noted, h]

lemma noted_of_error {x : Step ε σ Unit} {s t : σ} {e : ε} (h : x s = .error e t) (a : α)
    (before : List (α × σ)) : x.noted a (s, before) = .error e (t, before ++ [(a, s)]) := by
  simp only [noted, h]

end Step

namespace Schedule

variable {ε σ : Type}

/-! ### Rounds -/

/-- After `n` rounds, in which every reset and every call succeeds, `s` has become `t`. -/
inductive AfterRounds (reset call : Step ε σ Unit) : Nat → σ → σ → Prop
  | zero (s : σ) : AfterRounds reset call 0 s s
  | succ {n : Nat} {s t u v : σ} (hreset : reset s = .ok () t) (hcall : call t = .ok () u)
    (h : AfterRounds reset call n u v) : AfterRounds reset call (n + 1) s v

def turns : Nat → List Part
  | 0 => []
  | n + 1 => .reset :: .call :: turns n

lemma count_turns (p : Part) (n : Nat) : (turns n).count p = n := by
  induction n with
  | zero => rfl
  | succ n ih => cases p <;> simp [turns, ih]

lemma turns_starts {k n : Nat} (h : k < n) : turns k ++ [.reset, .call] <+: turns n := by
  induction k generalizing n with
  | zero =>
    obtain ⟨m, rfl⟩ := Nat.exists_eq_succ_of_ne_zero (Nat.ne_of_gt h)
    exact ⟨turns m, rfl⟩
  | succ k ih =>
    obtain ⟨m, rfl⟩ := Nat.exists_eq_succ_of_ne_zero (Nat.ne_zero_of_lt h)
    obtain ⟨rest, hrest⟩ := ih (Nat.lt_of_succ_lt_succ h)
    exact ⟨rest, congrArg (Part.reset :: Part.call :: ·) hrest⟩

variable {reset call : Step ε σ Unit} {k n : Nat} {t u v : σ} {e : ε}

lemma AfterRounds.rounds_left (h : AfterRounds reset call n t u) (m : Nat) :
    rounds (n + m) (do reset; call) t = rounds m (do reset; call) u := by
  induction h with
  | zero s => rw [Nat.zero_add]
  | succ hreset hcall _ ih =>
    rw [Nat.succ_add, rounds, bind_assoc, Step.bind_of_ok hreset, Step.bind_of_ok hcall, ih]

lemma AfterRounds.rounds_of_ok (h : AfterRounds reset call n t u) :
    rounds n (do reset; call) t = .ok () u :=
  h.rounds_left 0

lemma AfterRounds.rounds_of_error (h : AfterRounds reset call k t u)
    (he : (do reset; call) u = .error e v) (hk : k < n) :
    rounds n (do reset; call) t = .error e v := by
  obtain ⟨m, rfl⟩ := Nat.exists_eq_add_of_lt hk
  rw [Nat.add_assoc, h.rounds_left, rounds, Step.bind_of_error he]

/-- Rounds are the same rounds if their steps are put down. -/
lemma AfterRounds.noted (h : AfterRounds reset call n t u) :
    ∃ log, log.map Prod.fst = turns n ∧ ∀ before,
      AfterRounds (reset.noted .reset) (call.noted .call) n (t, before) (u, before ++ log) := by
  -- the log is chosen before the list that it is put after: that one grows with every round
  induction h with
  | zero s => exact ⟨[], rfl, fun before => by rw [List.append_nil]; exact .zero _⟩
  | @succ n s t u v hreset hcall _ ih =>
    obtain ⟨log, hlog, hrounds⟩ := ih
    refine ⟨(.reset, s) :: (.call, t) :: log, ?_, fun before => ?_⟩
    · rw [List.map_cons, List.map_cons, hlog]
      rfl
    · have hrest := hrounds (before ++ [(.reset, s)] ++ [(.call, t)])
      rw [List.append_assoc _ _ log, List.append_assoc before _ ([_] ++ log)] at hrest
      exact .succ (Step.noted_of_ok hreset _ _) (Step.noted_of_ok hcall _ _) hrest

/-- The rounds go on to the last, or there is one in which the reset or the call fails. -/
lemma afterRounds_or_fails (reset call : Step ε σ Unit) (n : Nat) (t : σ) :
    (∃ u, AfterRounds reset call n t u) ∨
      ∃ k < n, ∃ u e v, AfterRounds reset call k t u ∧
        (reset u = .error e v ∨ ∃ w, reset u = .ok () w ∧ call w = .error e v) := by
  -- by the number of rounds: the first one fails, or the search goes on from where it ends
  induction n generalizing t with
  | zero => exact .inl ⟨t, .zero t⟩
  | succ n ih =>
    cases hreset : reset t with
    | error e v => exact .inr ⟨0, n.succ_pos, t, e, v, .zero t, .inl hreset⟩
    | ok _ w =>
      cases hcall : call w with
      | error e v => exact .inr ⟨0, n.succ_pos, t, e, v, .zero t, .inr ⟨w, hreset, hcall⟩⟩
      | ok _ t' =>
        rcases ih t' with ⟨u, h⟩ | ⟨k, hk, u, e, v, h, hfails⟩
        · exact .inl ⟨u, .succ hreset hcall h⟩
        · exact .inr ⟨k + 1, Nat.succ_lt_succ hk, u, e, v, .succ hreset hcall h, hfails⟩

lemma rounds_idle (hidle : ∀ t, reset t = .ok () t) (n : Nat) (t : σ) :
    ∃ (r : Except ε Unit) (u : σ) (log : List (Part × σ)), rounds n call t = ending r u ∧
      (∀ before, rounds n (do reset.noted Part.reset; call.noted Part.call) (t, before) =
        ending r (u, before ++ log)) ∧
      ∀ before, rounds n (call.noted Part.call) (t, before) =
        ending r (u, before ++ log.filter (·.1 = .call)) := by
  -- only calls can fail, so the first one that does ends both loops in the same round
  induction n generalizing t with
  | zero =>
    refine ⟨.ok (), t, [], rfl, fun before => ?_, fun before => ?_⟩
    · rw [List.append_nil]
      rfl
    · rw [List.filter_nil, List.append_nil]
      rfl
  | succ n ih =>
    cases hcall : call t with
    | error e u =>
      refine ⟨.error e, u, [(.reset, t), (.call, t)], ?_, fun before => ?_, fun before => ?_⟩
      · rw [rounds, Step.bind_of_error hcall]
        rfl
      · rw [rounds, bind_assoc, Step.bind_of_ok (Step.noted_of_ok (hidle t) _ _),
          Step.bind_of_error (Step.noted_of_error hcall _ _), List.append_assoc]
        rfl
      · rw [rounds, Step.bind_of_error (Step.noted_of_error hcall _ _)]
        rfl
    | ok _ t' =>
      obtain ⟨r, u, log, hplain, hboth, hcalls⟩ := ih t'
      refine ⟨r, u, (.reset, t) :: (.call, t) :: log, ?_, fun before => ?_, fun before => ?_⟩
      · rw [rounds, Step.bind_of_ok hcall, hplain]
      · rw [rounds, bind_assoc, Step.bind_of_ok (Step.noted_of_ok (hidle t) _ _),
          Step.bind_of_ok (Step.noted_of_ok hcall _ _), hboth, List.append_assoc, List.append_assoc]
        rfl
      · rw [rounds, Step.bind_of_ok (Step.noted_of_ok hcall _ _), hcalls, List.append_assoc]
        rfl

/-! ### Loops -/

/-- A loop is its rounds, the warmup and the timed ones together, and then the mean. -/
lemma rounds_return {x : Step ε σ Unit} {r : Except ε Unit} (s : Schedule)
    (h : rounds (s.warmup + s.iterations) x t = ending r u) (mean : Float) :
    (do
      rounds s.warmup x
      rounds s.iterations x
      return mean : Step ε σ Float) t = ending (r.map fun _ => mean) u := by
  rw [← bind_assoc, ← rounds_add]
  cases r with
  | ok _ => exact Step.bind_of_ok h _
  | error e => exact Step.bind_of_error h _

/-- A loop with resets comes to `r` in the state `u`, after so many resets and calls. They are the
first steps of its rounds, in their order, and there are no others. -/
structure Run (s : Schedule) (clock : Clock) (reset call : Step ε σ Unit) (t : σ)
    (r : Except ε Unit) (u : σ) (resets calls : Nat) : Prop where
  result : s.timeWithReset clock reset call t =
    ending (r.map fun _ => s.mean clock .beforeEachCall) u
  steps : ∃ log, s.timeWithReset clock (reset.noted .reset) (call.noted .call) (t, []) =
      ending (r.map fun _ => s.mean clock .beforeEachCall) (u, log) ∧
    log.map Prod.fst <+: turns (s.warmup + s.iterations) ∧
    (log.map Prod.fst).count .reset = resets ∧ (log.map Prod.fst).count .call = calls

variable {s : Schedule} {clock : Clock} {w : σ}

lemma run_of_rounds {r : Except ε Unit} {log : List (Part × σ)} {parts : List Part}
    {resets calls : Nat} (h : rounds (s.warmup + s.iterations) (do reset; call) t = ending r u)
    (hnoted : rounds (s.warmup + s.iterations) (do reset.noted Part.reset; call.noted Part.call)
      (t, []) = ending r (u, log))
    (hlog : log.map Prod.fst = parts) (hparts : parts <+: turns (s.warmup + s.iterations))
    (hresets : parts.count .reset = resets) (hcalls : parts.count .call = calls) :
    s.Run clock reset call t r u resets calls where
  result := rounds_return s h _
  steps := ⟨log, rounds_return s hnoted _, hlog ▸ hparts, hlog ▸ hresets, hlog ▸ hcalls⟩

lemma AfterRounds.run (h : AfterRounds reset call (s.warmup + s.iterations) t u) :
    s.Run clock reset call t (.ok ()) u (s.warmup + s.iterations) (s.warmup + s.iterations) := by
  obtain ⟨log, hlog, hnoted⟩ := h.noted
  exact run_of_rounds h.rounds_of_ok (hnoted []).rounds_of_ok hlog (List.prefix_refl _)
    (count_turns _ _) (count_turns _ _)

lemma AfterRounds.run_of_reset (h : AfterRounds reset call n t u)
    (hn : n < s.warmup + s.iterations) (hreset : reset u = .error e v) :
    s.Run clock reset call t (.error e) v (n + 1) n := by
  obtain ⟨log, hlog, hnoted⟩ := h.noted
  have hplain := h.rounds_of_error (Step.bind_of_error hreset _) hn
  have hboth := (hnoted []).rounds_of_error
    (Step.bind_of_error (Step.noted_of_error hreset Part.reset _) _) hn
  have hparts : (log ++ [(Part.reset, u)]).map Prod.fst = turns n ++ [.reset] := by
    rw [List.map_append, hlog]
    rfl
  -- the last reset has no call after it
  have hstart : turns n ++ [.reset] <+: turns (s.warmup + s.iterations) :=
    List.IsPrefix.trans ⟨[.call], List.append_assoc _ _ _⟩ (turns_starts hn)
  refine run_of_rounds hplain hboth hparts hstart ?_ ?_
  · rw [List.count_append, count_turns]
    rfl
  · rw [List.count_append, count_turns]
    rfl

lemma AfterRounds.run_of_call (h : AfterRounds reset call n t u)
    (hn : n < s.warmup + s.iterations) (hreset : reset u = .ok () v) (hcall : call v = .error e w) :
    s.Run clock reset call t (.error e) w (n + 1) (n + 1) := by
  obtain ⟨log, hlog, hnoted⟩ := h.noted
  have hplain := h.rounds_of_error ((Step.bind_of_ok hreset _).trans hcall) hn
  have hboth := (hnoted []).rounds_of_error
    ((Step.bind_of_ok (Step.noted_of_ok hreset Part.reset _) _).trans
      (Step.noted_of_error hcall Part.call _)) hn
  have hparts : (log ++ [(Part.reset, u)] ++ [(Part.call, v)]).map Prod.fst =
      turns n ++ [.reset, .call] := by
    rw [List.append_assoc, List.map_append, hlog]
    rfl
  refine run_of_rounds hplain hboth hparts (turns_starts hn) ?_ ?_
  · rw [List.count_append, count_turns]
    rfl
  · rw [List.count_append, count_turns]
    rfl

structure TakesTurns (s : Schedule) (clock : Clock) (reset call : Step ε σ Unit) : Prop where
  completes : ∀ t u, AfterRounds reset call (s.warmup + s.iterations) t u →
    s.Run clock reset call t (.ok ()) u (s.warmup + s.iterations) (s.warmup + s.iterations)
  reset_fails : ∀ n < s.warmup + s.iterations, ∀ t u v e, AfterRounds reset call n t u →
    reset u = .error e v → s.Run clock reset call t (.error e) v (n + 1) n
  call_fails : ∀ n < s.warmup + s.iterations, ∀ t u v w e, AfterRounds reset call n t u →
    reset u = .ok () v → call v = .error e w →
    s.Run clock reset call t (.error e) w (n + 1) (n + 1)
  /-- There is no other way for a loop to go. -/
  no_other : ∀ t, (∃ u, AfterRounds reset call (s.warmup + s.iterations) t u) ∨
    ∃ n < s.warmup + s.iterations, ∃ u e v, AfterRounds reset call n t u ∧
      (reset u = .error e v ∨ ∃ w, reset u = .ok () w ∧ call w = .error e v)
  /-- Without a reset the calls are the same, in the same states, and so is what they come to. -/
  idle : (∀ t, reset t = .ok () t) → ∀ t, ∃ (r : Except ε Unit) (u : σ) (log : List (Part × σ)),
    s.timeWithReset clock reset call t =
        ending (r.map fun _ => s.mean clock .beforeEachCall) u ∧
      s.time clock call t = ending (r.map fun _ => s.mean clock .never) u ∧
      s.timeWithReset clock (reset.noted .reset) (call.noted .call) (t, []) =
        ending (r.map fun _ => s.mean clock .beforeEachCall) (u, log) ∧
      s.time clock (call.noted .call) (t, []) =
        ending (r.map fun _ => s.mean clock .never) (u, log.filter (·.1 = .call))

/-- **Resets take turns with calls**: whatever the two do, each call of a loop has a reset right
before it, and the first of them that fails is the last and gives the result. A loop whose resets
do nothing is the loop without them. -/
theorem resets_take_turns (s : Schedule) (clock : Clock) (reset call : Step ε σ Unit) :
    s.TakesTurns clock reset call where
  completes _ _ h := h.run
  reset_fails _ hn _ _ _ _ h hreset := h.run_of_reset hn hreset
  call_fails _ hn _ _ _ _ _ h hreset hcall := h.run_of_call hn hreset hcall
  no_other := afterRounds_or_fails reset call _
  idle hidle t := by
    obtain ⟨r, u, log, hplain, hboth, hcalls⟩ := rounds_idle hidle (s.warmup + s.iterations) t
    have hround : (do reset; call) = call := funext fun t => Step.bind_of_ok (hidle t) _
    exact ⟨r, u, log, rounds_return s (by rwa [hround]) _, rounds_return s hplain _,
      rounds_return s (hboth []) _, rounds_return s (hcalls []) _⟩

/-- The state counts resets and calls, and the fourth call is the second timed one. -/
example (clock : Clock) :
    timeWithReset ⟨2, 5⟩ clock (modify fun (resets, calls) => (resets + 1, calls))
      (do
        modify fun (resets, calls) => (resets, calls + 1)
        if (← get).2 = 4 then throw "refused")
      (0, 0) = .error "refused" (4, 4) := rfl

end Schedule

end ArrayBench
