import ArrayBench.Proofs.Bench.Asked
import ArrayBench.Proofs.Bench.Panels

/-!
Cases run in order.

A list of cases is worked off from its head, each case from the state in which the one before it has
left the backend, up to the first case that fails. Its failure is the failure of the list, and
nothing that belongs to a later case reaches the backend. A grid is worked off like the list of its
cells, one element type after the other, and a cell that makes no case fails before any call.
-/

namespace ArrayBench

/-! ### One after the other -/

section InTurn

variable {ε σ : Type} {α β : Type}

/-- Steps on items one after the other, each from the state that the one before it has left. -/
inductive InTurn (f : α → Step ε σ β) : List α → σ → List β → σ → Prop
  | nil (s : σ) : InTurn f [] s [] s
  | cons {a : α} {as : List α} {s t u : σ} {v : β} {vs : List β} (h : f a s = .ok v t)
    (h' : InTurn f as t vs u) : InTurn f (a :: as) s (v :: vs) u

/-- The steps on the items before `a` succeed, and then the one on `a` fails. -/
def StopsAt (f : α → Step ε σ β) (before : List α) (a : α) (s : σ) (e : ε) (t : σ) : Prop :=
  ∃ vs u, InTurn f before s vs u ∧ f a u = .error e t

variable {f : α → Step ε σ β} {as : List α} {s t : σ} {vs : List β} {e : ε}

lemma mapM_eq_ok : as.mapM f s = .ok vs t ↔ InTurn f as s vs t := by
  constructor
  · intro h
    -- on the items, with the state handed from each step to the next
    induction as generalizing s vs with
    | nil =>
      obtain ⟨rfl, rfl⟩ := EStateM.Result.ok.inj h
      exact .nil _
    | cons a as ih =>
      rw [List.mapM_cons] at h
      cases ha : f a s with
      | error e u =>
        rw [Step.bind_of_error ha] at h
        cases h
      | ok v u =>
        rw [Step.bind_of_ok ha] at h
        cases has : as.mapM f u with
        | error e w =>
          rw [Step.bind_of_error has] at h
          cases h
        | ok ws w =>
          rw [Step.bind_of_ok has] at h
          obtain ⟨rfl, rfl⟩ := EStateM.Result.ok.inj h
          exact .cons ha (ih has)
  · intro h
    induction h with
    | nil s => rfl
    | cons ha _ ih =>
      rw [List.mapM_cons, Step.bind_of_ok ha, Step.bind_of_ok ih]
      rfl

lemma mapM_eq_error : as.mapM f s = .error e t ↔
    ∃ before a after, as = before ++ a :: after ∧ StopsAt f before a s e t := by
  constructor
  · intro h
    -- either the first item stops the loop, or it counts among those before the one that does
    induction as generalizing s with
    | nil => cases h
    | cons a as ih =>
      rw [List.mapM_cons] at h
      cases ha : f a s with
      | error e' u =>
        rw [Step.bind_of_error ha] at h
        obtain ⟨rfl, rfl⟩ := EStateM.Result.error.inj h
        exact ⟨[], a, as, rfl, [], s, .nil s, ha⟩
      | ok v u =>
        rw [Step.bind_of_ok ha] at h
        cases has : as.mapM f u with
        | ok ws w =>
          rw [Step.bind_of_ok has] at h
          cases h
        | error e' w =>
          rw [Step.bind_of_error has] at h
          obtain ⟨rfl, rfl⟩ := EStateM.Result.error.inj h
          obtain ⟨before, b, after, rfl, ws, x, hbefore, hb⟩ := ih has
          exact ⟨a :: before, b, after, rfl, v :: ws, x, .cons ha hbefore, hb⟩
  · rintro ⟨before, a, after, rfl, ws, x, hbefore, ha⟩
    have hrest : (a :: after).mapM f x = .error e t := by
      rw [List.mapM_cons, Step.bind_of_error ha]
    rw [List.mapM_append, Step.bind_of_ok (mapM_eq_ok.mpr hbefore), Step.bind_of_error hrest]

end InTurn

/-! ### On a recorder -/

section Recorder

variable {σ : Type} {α β : Type}

/-- On a recorder the steps `g` do what `f` does on the backend inside, and the calls that they add
are asked for by their items. -/
def Recorded (f : α → Step BenchError (Session σ) β)
    (g : α → Step BenchError (Session (σ × Record)) β) (asks : α → Event → Prop) : Prop :=
  ∀ a s base, ∃ es v t, (∀ e ∈ es, asks a e) ∧ f a s = ending v t ∧
    g a (s.recorded base) = ending v (t.recorded (base ++ es))

variable {f : α → Step BenchError (Session σ) β}
  {g : α → Step BenchError (Session (σ × Record)) β} {asks : α → Event → Prop}

lemma Recorded.of_ending (h : Recorded f g asks) {a : α} {s t : Session σ}
    {v : Except BenchError β} (ha : f a s = ending v t) (base : List Event) :
    ∃ es, (∀ e ∈ es, asks a e) ∧ g a (s.recorded base) = ending v (t.recorded (base ++ es)) := by
  obtain ⟨es, w, u, hasks, hf, hg⟩ := h a s base
  obtain ⟨rfl, rfl⟩ := ending_inj (ha.symm.trans hf)
  exact ⟨es, hasks, hg⟩

abbrev Blocks (asks : α → Event → Prop) (as : List α) (blocks : List (List Event)) : Prop :=
  List.Forall₂ (fun a es => ∀ e ∈ es, asks a e) as blocks

lemma InTurn.recorded (h : Recorded f g asks) {as : List α} {s t : Session σ} {vs : List β}
    (hturn : InTurn f as s vs t) (base : List Event) :
    ∃ blocks, Blocks asks as blocks ∧
      InTurn g as (s.recorded base) vs (t.recorded (base ++ blocks.flatten)) := by
  induction hturn generalizing base with
  | nil s => exact ⟨[], .nil, by rw [List.flatten_nil, List.append_nil]; exact .nil _⟩
  | cons ha _ ih =>
    obtain ⟨es, hes, hg⟩ := h.of_ending (v := .ok _) ha base
    obtain ⟨blocks, hblocks, hrest⟩ := ih (base ++ es)
    refine ⟨es :: blocks, .cons hes hblocks, ?_⟩
    rw [List.flatten_cons, ← List.append_assoc]
    exact .cons hg hrest

lemma StopsAt.recorded (h : Recorded f g asks) {before : List α} {a : α} {s t : Session σ}
    {e : BenchError} (hstop : StopsAt f before a s e t) (base : List Event) :
    ∃ blocks, Blocks asks (before ++ [a]) blocks ∧
      StopsAt g before a (s.recorded base) e (t.recorded (base ++ blocks.flatten)) := by
  obtain ⟨vs, u, hbefore, ha⟩ := hstop
  obtain ⟨blocks, hblocks, hturn⟩ := hbefore.recorded h base
  obtain ⟨es, hes, hg⟩ := h.of_ending (v := .error e) ha (base ++ blocks.flatten)
  refine ⟨blocks ++ [es], List.rel_append hblocks (.cons hes .nil), vs, _, hturn, ?_⟩
  rw [List.flatten_append, List.flatten_singleton, ← List.append_assoc]
  exact hg

end Recorder

/-! ### Grids -/

section Grid

variable {ε σ : Type} {α β γ : Type}

def cells (columns : List α) (rows : List β) : List (α × β) :=
  rows.flatMap fun b => columns.map (·, b)

/-- Row by row is cell by cell. -/
lemma mapM_cells (f : α × β → Step ε σ γ) (columns : List α) (rows : List β) :
    (cells columns rows).mapM f = (do
      let vs ← rows.mapM fun b => do
        let row ← columns.mapM fun a => f (a, b)
        return (b, row)
      return vs.flatMap Prod.snd) := by
  induction rows with
  | nil => rfl
  | cons b rows ih =>
    have hcells : cells columns (b :: rows) = columns.map (·, b) ++ cells columns rows := rfl
    rw [hcells, List.mapM_append, List.mapM_map, ih, List.mapM_cons]
    simp only [bind_assoc, pure_bind, Function.comp_def, List.flatMap_cons]

/-- The rows of a grid are determined by their headers and all their cells. -/
lemma rows_eq {n : Nat} {rows rows' : List (β × List γ)}
    (hheaders : rows.map Prod.fst = rows'.map Prod.fst) (hrows : ∀ r ∈ rows, r.2.length = n)
    (hrows' : ∀ r ∈ rows', r.2.length = n)
    (hcells : rows.flatMap Prod.snd = rows'.flatMap Prod.snd) : rows = rows' := by
  induction rows generalizing rows' with
  | nil =>
    rw [List.map_nil] at hheaders
    exact (List.map_eq_nil_iff.mp hheaders.symm).symm
  | cons r rows ih =>
    cases rows' with
    | nil => cases hheaders
    | cons r' rows' =>
      obtain ⟨hheader, hheaders⟩ := List.cons.inj hheaders
      have hlength : r.2.length = r'.2.length :=
        (hrows r (by simp)).trans (hrows' r' (by simp)).symm
      rw [List.flatMap_cons, List.flatMap_cons] at hcells
      -- rows of one length are told apart in the list of all cells
      obtain ⟨hrow, hcells⟩ := List.append_inj hcells hlength
      rw [Prod.ext hheader hrow, ih hheaders (fun x hx => hrows x (by simp [hx]))
        (fun x hx => hrows' x (by simp [hx])) hcells]

end Grid

/-! ### Cases and cells -/

variable {σ : Type}

namespace Panel

def measureCell (h : Harness σ) (schedule : Schedule) (geometry : Nat → Geometry)
    (x : Operation × DType) : Step BenchError (Session σ) Measurement :=
  measure h x.1 x.2 (geometry x.1.arity) schedule

lemma measure_made (h : Harness σ) {op : Operation} {d : DType} {g : Geometry} {schedule : Schedule}
    {c : Case} (hc : Case.make op d g schedule = .ok c) (s : Session σ) :
    measure h op d g schedule s = h.run c s := by
  rw [measure, hc, Step.ok_bind]

lemma measure_refused (h : Harness σ) {op : Operation} {d : DType} {g : Geometry}
    {schedule : Schedule} {e : BenchError} (hc : Case.make op d g schedule = .error e)
    (s : Session σ) : measure h op d g schedule s = .error e s := by
  rw [measure, hc, Step.error_bind]

lemma measureCell_recorded (h : Harness σ) (schedule : Schedule) (geometry : Nat → Geometry) :
    Recorded (measureCell h schedule geometry) (measureCell h.recorded schedule geometry)
      fun x => Case.Asks ⟨x.1, x.2, geometry x.1.arity, schedule⟩ := by
  rintro ⟨op, d⟩ s base
  cases hc : Case.make op d (geometry op.arity) schedule with
  | error e =>
    refine ⟨[], .error e, s, List.forall_mem_nil _, measure_refused h hc s, ?_⟩
    rw [List.append_nil]
    exact measure_refused h.recorded hc _
  | ok c =>
    obtain ⟨es, v, t, hasks, hrun, hrecorded⟩ := h.run_recorded c s base
    obtain rfl := Case.make_eq_ok hc
    exact ⟨es, v, t, hasks, (measure_made h hc s).trans hrun,
      (measure_made h.recorded hc _).trans hrecorded⟩

section MeasureGrid

variable (h : Harness σ) (ops : List Operation) (types : List DType) (schedule : Schedule)
  (geometry : Nat → Geometry)

lemma mapM_measureCell :
    (cells ops types).mapM (measureCell h schedule geometry) = (do
      let rows ← measureGrid h ops types schedule geometry
      return rows.flatMap Prod.snd) :=
  mapM_cells _ ops types

lemma measureGrid_returns : (measureGrid h ops types schedule geometry).Returns fun rows =>
    rows.map Prod.fst = types ∧ ∀ r ∈ rows, r.2.length = ops.length := by
  have hrow : ∀ d, (do
      let row ← ops.mapM fun op => measure h op d (geometry op.arity) schedule
      return (d, row) : Step BenchError (Session σ) (DType × List Measurement)).Returns
        fun r => r.1 = d ∧ r.2.length = ops.length := by
    intro d
    have hcolumns : (ops.mapM fun op => measure h op d (geometry op.arity) schedule).Returns
        (List.Forall₂ (fun _ _ => True) ops) :=
      Step.returns_mapM fun _ _ _ _ _ _ => trivial
    exact hcolumns.bind fun row hrow => Step.returns_pure ⟨rfl, hrow.length_eq.symm⟩
  intro s rows t hrows
  have hshape := Step.returns_mapM (fun d _ => hrow d) s rows t hrows
  have hheaders := hshape.imp fun _ _ hr => hr.1
  refine ⟨(map_eq_of_forall₂ (f := id) hheaders).trans (List.map_id _), fun r hr => ?_⟩
  obtain ⟨d, -, -, hlength⟩ := exists_of_mem_forall₂ hshape hr
  exact hlength

variable {h ops types schedule geometry} {s t : Session σ} {rows : List (DType × List Measurement)}
  {e : BenchError}

lemma measureGrid_ok : measureGrid h ops types schedule geometry s = .ok rows t ↔
    rows.map Prod.fst = types ∧ (∀ r ∈ rows, r.2.length = ops.length) ∧
      InTurn (measureCell h schedule geometry) (cells ops types) s (rows.flatMap Prod.snd) t := by
  have hreturns := measureGrid_returns h ops types schedule geometry s
  rw [← mapM_eq_ok, mapM_measureCell]
  constructor
  · intro hgrid
    obtain ⟨hheaders, hlengths⟩ := hreturns rows t hgrid
    exact ⟨hheaders, hlengths, Step.bind_of_ok hgrid _⟩
  · rintro ⟨hheaders, hlengths, hcells⟩
    -- the list of the cells has a single outcome, so that the grid cannot have another one
    cases hgrid : measureGrid h ops types schedule geometry s with
    | ok rows' t' =>
      rw [Step.bind_of_ok hgrid] at hcells
      obtain ⟨hsame, rfl⟩ := EStateM.Result.ok.inj hcells
      obtain ⟨hheaders', hlengths'⟩ := hreturns rows' t' hgrid
      rw [rows_eq (hheaders'.trans hheaders.symm) hlengths' hlengths hsame]
    | error e t' =>
      rw [Step.bind_of_error hgrid] at hcells
      cases hcells

lemma measureGrid_error : measureGrid h ops types schedule geometry s = .error e t ↔
    ∃ before x after, cells ops types = before ++ x :: after ∧
      StopsAt (measureCell h schedule geometry) before x s e t := by
  rw [← mapM_eq_error, mapM_measureCell]
  constructor
  · intro hgrid
    exact Step.bind_of_error hgrid _
  · intro hcells
    cases hgrid : measureGrid h ops types schedule geometry s with
    | ok rows' t' =>
      rw [Step.bind_of_ok hgrid] at hcells
      cases hcells
    | error e' t' =>
      rw [Step.bind_of_error hgrid] at hcells
      obtain ⟨rfl, rfl⟩ := EStateM.Result.error.inj hcells
      rfl

end MeasureGrid

end Panel

/-- How cases are run one after the other. -/
structure Harness.RunsInOrder (h : Harness σ) : Prop where
  all_ok : ∀ cases s ms t, h.runAll cases s = .ok ms t ↔ InTurn h.run cases s ms t
  all_error : ∀ cases s e t, h.runAll cases s = .error e t ↔
    ∃ before c after, cases = before ++ c :: after ∧ StopsAt h.run before c s e t
  all_ok_calls : ∀ cases s ms t, InTurn h.run cases s ms t →
    ∃ blocks, Blocks Case.Asks cases blocks ∧
      h.recorded.runAll cases (s.recorded []) = .ok ms (t.recorded blocks.flatten)
  all_error_calls : ∀ before c after s e t, StopsAt h.run before c s e t →
    ∃ blocks, Blocks Case.Asks (before ++ [c]) blocks ∧
      h.recorded.runAll (before ++ c :: after) (s.recorded []) =
        .error e (t.recorded blocks.flatten)
  cell_made : ∀ schedule geometry op d c s,
    Case.make op d (geometry op.arity) schedule = .ok c →
      Panel.measureCell h schedule geometry (op, d) s = h.run c s
  /-- A cell that makes no case reaches nothing. -/
  cell_refused : ∀ schedule geometry op d e s,
    Case.make op d (geometry op.arity) schedule = .error e →
      Panel.measureCell h schedule geometry (op, d) s = .error e s
  grid_ok : ∀ ops types schedule geometry s rows t,
    Panel.measureGrid h ops types schedule geometry s = .ok rows t ↔
      rows.map Prod.fst = types ∧ (∀ r ∈ rows, r.2.length = ops.length) ∧
        InTurn (Panel.measureCell h schedule geometry) (cells ops types) s
          (rows.flatMap Prod.snd) t
  grid_error : ∀ ops types schedule geometry s e t,
    Panel.measureGrid h ops types schedule geometry s = .error e t ↔
      ∃ before x after, cells ops types = before ++ x :: after ∧
        StopsAt (Panel.measureCell h schedule geometry) before x s e t
  grid_ok_calls : ∀ ops types schedule geometry s rows t,
    Panel.measureGrid h ops types schedule geometry s = .ok rows t →
    ∃ blocks, Blocks (fun x => Case.Asks ⟨x.1, x.2, geometry x.1.arity, schedule⟩)
        (cells ops types) blocks ∧
      Panel.measureGrid h.recorded ops types schedule geometry (s.recorded []) =
        .ok rows (t.recorded blocks.flatten)
  grid_error_calls : ∀ ops types schedule geometry before x after s e t,
    cells ops types = before ++ x :: after →
    StopsAt (Panel.measureCell h schedule geometry) before x s e t →
    ∃ blocks, Blocks (fun x => Case.Asks ⟨x.1, x.2, geometry x.1.arity, schedule⟩)
        (before ++ [x]) blocks ∧
      Panel.measureGrid h.recorded ops types schedule geometry (s.recorded []) =
        .error e (t.recorded blocks.flatten)

/-- **Order of runs**: whatever the backend does, cases are run in the order of their list and cells
row by row. If all of them succeed, their measurements come in that order. If not, the result is the
first failure, and the backend has got the calls up to there and no others. -/
theorem Harness.runs_in_order (h : Harness σ) : h.RunsInOrder where
  all_ok _ _ _ _ := mapM_eq_ok
  all_error _ _ _ _ := mapM_eq_error
  all_ok_calls cases s ms t hturn := by
    obtain ⟨blocks, hblocks, hrecorded⟩ := hturn.recorded h.run_recorded []
    exact ⟨blocks, hblocks, mapM_eq_ok.mpr hrecorded⟩
  all_error_calls before c after s e t hstop := by
    obtain ⟨blocks, hblocks, hrecorded⟩ := hstop.recorded h.run_recorded []
    exact ⟨blocks, hblocks, mapM_eq_error.mpr ⟨before, c, after, rfl, hrecorded⟩⟩
  cell_made _ _ _ _ _ s hc := Panel.measure_made h hc s
  cell_refused _ _ _ _ _ s hc := Panel.measure_refused h hc s
  grid_ok _ _ _ _ _ _ _ := Panel.measureGrid_ok
  grid_error _ _ _ _ _ _ _ := Panel.measureGrid_error
  grid_ok_calls ops types schedule geometry s rows t hgrid := by
    obtain ⟨hheaders, hlengths, hturn⟩ := Panel.measureGrid_ok.mp hgrid
    obtain ⟨blocks, hblocks, hrecorded⟩ :=
      hturn.recorded (Panel.measureCell_recorded h schedule geometry) []
    exact ⟨blocks, hblocks, Panel.measureGrid_ok.mpr ⟨hheaders, hlengths, hrecorded⟩⟩
  grid_error_calls ops types schedule geometry before x after s e t hcells hstop := by
    obtain ⟨blocks, hblocks, hrecorded⟩ :=
      hstop.recorded (Panel.measureCell_recorded h schedule geometry) []
    exact ⟨blocks, hblocks, Panel.measureGrid_error.mpr ⟨before, x, after, hcells, hrecorded⟩⟩

end ArrayBench
