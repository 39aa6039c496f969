import Mathlib.Data.List.Infix
import ArrayBench.Bench.Section
import ArrayBench.Proofs.Backend.LikeCpu
import ArrayBench.Proofs.Bench.Tables

/-!
What is written, be it all or a part.

A sink may refuse a line, and a table may turn out to be too wide. What has been written by then are
the first of the lines that were to be written. So a section that breaks off has written whole
tables and the beginning of another, in the order of its panels.
-/

namespace ArrayBench

/-! ### Writing to a sink -/

/-- What the step adds to a sink are these lines, or the first of them if it fails. -/
structure Emits (x : Step BenchError Sink Unit) (lines : List String) : Prop where
  all : ∀ s t, x s = .ok () t → t.lines.toList = s.lines.toList ++ lines
  part : ∀ s e t, x s = .error e t →
    ∃ written, written <+: lines ∧ t.lines.toList = s.lines.toList ++ written

namespace Emits

variable {x y : Step BenchError Sink Unit} {ls ms : List String}

lemma nothing : Emits (pure ()) [] where
  all s t h := by
    cases h
    exact (List.append_nil _).symm
  part s e t h := by cases h

lemma writeLine (line : String) : Emits (Sink.writeLine line) [line] := by
  constructor
  · intro s t h
    unfold Sink.writeLine at h
    dsimp only at h
    split_ifs at h
    cases h
    exact Array.toList_push
  · intro s e t h
    unfold Sink.writeLine at h
    dsimp only at h
    split_ifs at h
    cases h
    exact ⟨[], List.nil_prefix, (List.append_nil _).symm⟩

lemma bind (h : Emits x ls) (h' : Emits y ms) : Emits (do x; y) (ls ++ ms) := by
  constructor
  · intro s u hu
    cases hx : x s with
    | ok v t =>
      rw [Step.bind_of_ok hx] at hu
      rw [h'.all t u hu, h.all s t hx, List.append_assoc]
    | error e t =>
      rw [Step.bind_of_error hx] at hu
      cases hu
  · intro s e u hu
    cases hx : x s with
    | ok v t =>
      rw [Step.bind_of_ok hx] at hu
      -- the second step breaks off within its own lines, so all of the first are there
      obtain ⟨written, hprefix, hlines⟩ := h'.part t e u hu
      refine ⟨ls ++ written, (List.prefix_append_right_inj ls).mpr hprefix, ?_⟩
      rw [hlines, h.all s t hx, List.append_assoc]
    | error e' t =>
      rw [Step.bind_of_error hx] at hu
      cases hu
      obtain ⟨written, hprefix, hlines⟩ := h.part s _ _ hx
      exact ⟨written, hprefix.trans (List.prefix_append ls ms), hlines⟩

/-- A check writes nothing, whether it passes or not. -/
lemma check (c : Except BenchError Unit) (h : Emits y ls) : Emits (do liftM c; y) ls := by
  have hc : Emits (liftM c : Step BenchError Sink Unit) [] := by
    cases c with
    | ok u => exact nothing
    | error e =>
      constructor
      · intro s t ht
        cases ht
      · intro s e' t ht
        cases ht
        exact ⟨[], List.nil_prefix, (List.append_nil _).symm⟩
  exact hc.bind h

lemma forM {ι : Type} {is : List ι} {f : ι → Step BenchError Sink Unit} {ls : ι → List String}
    (h : ∀ i ∈ is, Emits (f i) (ls i)) : Emits (is.forM f) (is.flatMap ls) := by
  induction is with
  | nil => exact nothing
  | cons i is ih => exact (h i (by simp)).bind (ih fun j hj => h j (by simp [hj]))

lemma writeLines (lines : List String) : Emits (Sink.writeLines lines) lines := by
  have h : Emits (lines.forM Sink.writeLine) (lines.flatMap fun line => [line]) :=
    forM fun line _ => writeLine line
  rwa [List.flatMap_singleton'] at h

end Emits

lemma Table.write_emits (t : Table) : Emits t.write t.lines := by
  have hrows : Emits (t.rows.forM fun r => do
      t.checkRow r
      Sink.writeLine (t.rowLine r)) (t.rows.flatMap fun r => [t.rowLine r]) :=
    .forM fun r _ => .check (t.checkRow r) (.writeLine _)
  rw [← List.map_eq_flatMap] at hrows
  have hwrite := (Emits.writeLine "").bind <| .check t.checkOpening <|
    (Emits.writeLines t.opening).bind <| .check t.checkHead <|
    (Emits.writeLines t.head).bind <| hrows.bind <| .writeLines t.closing
  rw [List.singleton_append, ← List.append_assoc, ← List.append_assoc] at hwrite
  exact hwrite

/-! ### Panels -/

section Panels

variable {σ : Type} (h : Harness σ)

def Panel.Makes (p : Panel) (t : Table) : Prop := ∃ s s', p.table h s = .ok t s'

variable {h}

lemma Panel.run_of_table {p : Panel} {session session' : Session σ} {t : Table}
    (ht : p.table h (session.note (.heading p.note)) = .ok t session') (sink : Sink) :
    p.run h (session, sink) = beside session' (t.write sink) := by
  have htable : (p.table h).onFst (session.note (.heading p.note), sink) =
      .ok t (session', sink) := by simp only [Step.onFst, Step.zoom, ht]
  exact (Step.bind_of_ok htable _).trans (Backend.onSnd_apply t.write session' sink)

lemma Panel.run_of_error {p : Panel} {session session' : Session σ} {e : BenchError}
    (ht : p.table h (session.note (.heading p.note)) = .error e session') (sink : Sink) :
    p.run h (session, sink) = .error e (session', sink) := by
  have htable : (p.table h).onFst (session.note (.heading p.note), sink) =
      .error e (session', sink) := by simp only [Step.onFst, Step.zoom, ht]
  exact Step.bind_of_error htable _

variable (h)

/-- A run has made these tables, those of the first of its panels, and has written these lines, the
first of the lines that the tables have. If it has come to the end, the tables are those of all
panels and all their lines are written. -/
structure PrintsTables (run : Step BenchError (Session σ × Sink) Unit) (ps : List Panel)
    (s : Session σ × Sink) (ts : List Table) (written : List String) : Prop where
  made : List.Forall₂ (Panel.Makes h) (ps.take ts.length) ts
  part : written <+: ts.flatMap Table.lines
  added : (run.state s).2.lines.toList = s.2.lines.toList ++ written
  all : ∀ s', run s = .ok () s' → ts.length = ps.length ∧ written = ts.flatMap Table.lines

lemma panels_print_tables (ps : List Panel) (session : Session σ) (sink : Sink) :
    ∃ ts written, PrintsTables h (ps.forM (Panel.run h)) ps (session, sink) ts written := by
  -- on the panels: the first one fails before its table is made, while it is written, or not at all
  induction ps generalizing session sink with
  | nil =>
    refine ⟨[], [], .nil, List.nil_prefix, (List.append_nil _).symm, fun _ _ => ⟨rfl, rfl⟩⟩
  | cons p ps ih =>
    have hforM : (p :: ps).forM (Panel.run h) = p.run h >>= fun _ => ps.forM (Panel.run h) := rfl
    cases htable : p.table h (session.note (.heading p.note)) with
    | error e session' =>
      have hall := Step.bind_of_error (Panel.run_of_error htable sink) fun _ =>
        ps.forM (Panel.run h)
      refine ⟨[], [], .nil, List.nil_prefix, ?_, fun s' hs' => ?_⟩
      · rw [Step.state, hforM, hall]
        exact (List.append_nil _).symm
      · rw [hforM, hall] at hs'
        cases hs'
    | ok t session' =>
      have hmakes : p.Makes h t := ⟨_, _, htable⟩
      have hrun := Panel.run_of_table htable sink
      cases hwrite : t.write sink with
      | error e sink' =>
        rw [hwrite] at hrun
        have hall := Step.bind_of_error hrun fun _ => ps.forM (Panel.run h)
        obtain ⟨written, hprefix, hlines⟩ := t.write_emits.part sink e sink' hwrite
        refine ⟨[t], written, .cons hmakes .nil, by simpa using hprefix, ?_, fun s' hs' => ?_⟩
        · rw [Step.state, hforM, hall]
          exact hlines
        · rw [hforM, hall] at hs'
          cases hs'
      | ok u sink' =>
        rw [hwrite] at hrun
        have hall := Step.bind_of_ok hrun fun _ => ps.forM (Panel.run h)
        obtain ⟨ts, written, hrest⟩ := ih session' sink'
        refine ⟨t :: ts, t.lines ++ written, .cons hmakes hrest.made, ?_, ?_, fun s' hs' => ?_⟩
        · exact (List.prefix_append_right_inj t.lines).mpr hrest.part
        · have hadded := hrest.added
          rw [Step.state] at hadded
          rw [Step.state, hforM, hall, hadded, t.write_emits.all sink sink' hwrite,
            List.append_assoc]
        · rw [hforM, hall] at hs'
          obtain ⟨hlength, rfl⟩ := hrest.all s' hs'
          exact ⟨congrArg (· + 1) hlength, rfl⟩

end Panels

end ArrayBench
