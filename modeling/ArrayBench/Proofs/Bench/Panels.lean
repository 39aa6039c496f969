import ArrayBench.Bench.Section
import ArrayBench.Proofs.Bench.Acceptance
import ArrayBench.Proofs.Bench.Families
import ArrayBench.Proofs.Bench.Measured
import ArrayBench.Proofs.Bench.Tables

/-!
Panels that can be measured.

If every case of a panel is accepted, then measuring it succeeds from any state of the session. The
fallback is timed where the catalog announces it, so the table shows marks just there. That the
catalog announces it for the right operations and types is seen from the operations alone: quotients
in new arrays, and unary operations other than the absolute value.
-/

namespace ArrayBench

/-! ### Steps that always succeed -/

namespace Step

variable {ε σ : Type} {α β : Type}

/-- The step succeeds from every state, with a value of which `P` holds. -/
def Yields (x : Step ε σ α) (P : α → Prop) : Prop := ∀ s, ∃ v t, x s = .ok v t ∧ P v

lemma yields_pure {v : α} {P : α → Prop} (h : P v) : (pure v : Step ε σ α).Yields P :=
  fun s => ⟨v, s, rfl, h⟩

lemma Yields.bind {x : Step ε σ α} {f : α → Step ε σ β} {P : α → Prop} {Q : β → Prop}
    (hx : x.Yields P) (hf : ∀ v, P v → (f v).Yields Q) : (x >>= f).Yields Q := by
  intro s
  obtain ⟨v, t, hv, hP⟩ := hx s
  obtain ⟨w, u, hw, hQ⟩ := hf v hP t
  exact ⟨w, u, by rw [bind_of_ok hv, hw], hQ⟩

lemma Yields.imp {x : Step ε σ α} {P Q : α → Prop} (h : x.Yields P) (hPQ : ∀ v, P v → Q v) :
    x.Yields Q := by
  intro s
  obtain ⟨v, t, hv, hP⟩ := h s
  exact ⟨v, t, hv, hPQ v hP⟩

lemma yields_ok {x : Except ε α} {P : α → Prop} (h : ∃ v, x = .ok v ∧ P v) :
    (liftM x : Step ε σ α).Yields P := by
  obtain ⟨v, rfl, hP⟩ := h
  exact fun s => ⟨v, s, rfl, hP⟩

lemma Yields.ok_bind {x : Except ε α} {v : α} {f : α → Step ε σ β} {P : β → Prop} (hx : x = .ok v)
    (h : (f v).Yields P) : ((liftM x : Step ε σ α) >>= f).Yields P := by
  subst hx
  exact h

lemma yields_mapM {ι : Type} {is : List ι} {f : ι → Step ε σ α} {R : ι → α → Prop}
    (h : ∀ i ∈ is, (f i).Yields (R i)) : (is.mapM f).Yields (List.Forall₂ R is) := by
  induction is with
  | nil => exact yields_pure .nil
  | cons i is ih =>
    rw [List.mapM_cons]
    refine (h i (by simp)).bind fun v hv => ?_
    refine (ih fun j hj => h j (by simp [hj])).bind fun vs hvs => ?_
    exact yields_pure (.cons hv hvs)

end Step

open Step (Yields yields_pure yields_ok yields_mapM)

/-! ### Where there is a fallback -/

namespace Operation

/-- Whether the operation is timed in its allocating form because its results do not fit a buffer
of element type `d`: integers have no exact quotients, logarithms, exponentials or roots. -/
def fallsBack (op : Operation) (d : DType) : Bool :=
  d.isInteger &&
    match op.kernel with
    | .binary .div | .scalar .div => !op.inPlace
    | .unary .log | .unary .exp | .unary .sqrt => true
    | _ => false

/-- The catalog announces the fallback where there is one. -/
lemma mayDiffer_eq_fallsBack {op : Operation} (h : op ∈ catalog) (d : DType) :
    op.mayDiffer d = op.fallsBack d := by
  rcases catalog_cases h with ⟨b, rfl⟩ | ⟨b, _ | _, rfl⟩ | ⟨u, inPlace, rfl⟩ | ⟨_ | _, rfl⟩ |
    rfl | ⟨k, rfl⟩ | rfl
  · cases b <;> cases d <;> rfl
  · cases b <;> cases d <;> rfl
  · cases b <;> cases d <;> rfl
  · cases u <;> cases d <;> rfl
  · cases d <;> rfl
  · cases d <;> rfl
  · cases d <;> rfl
  · cases d <;> rfl
  · cases d <;> rfl

lemma mayDiffer_float32 (op : Operation) : op.mayDiffer .float32 = false := Bool.and_false _

end Operation

lemma Schedule.check_eq_ok {s : Schedule} : s.check = .ok () ↔ 0 < s.warmup ∧ 0 < s.iterations := by
  unfold check
  split_ifs <;> simp <;> omega

/-! ### What panels need and show -/

namespace Subject

def Ready : Subject → Prop
  | grid ops width ds geometry =>
    width ≤ Text.maxField ∧
      ∀ op ∈ ops.map Prod.snd, ∀ d ∈ ds, Measurable op d (geometry op.arity)
  | sweep op sizes => ∀ n ∈ sizes, Measurable op .float32 (.sweepPoint n op.arity)
  | types op geometry => ∀ d, Measurable op d geometry ∧ op.mayDiffer d = false
  | matmulSquares | matmulDTypes | matmulVariants => True

def rowCount : Subject → Nat
  | grid _ _ ds _ => ds.length
  | sweep _ sizes => sizes.length
  | types _ _ => DType.all.length
  | matmulSquares => Geometry.matmulSquares.length
  | matmulDTypes => DType.all.length
  | matmulVariants => Geometry.matmulVariants.length

/-- A grid has two columns for each operation, and in the row of a type both are marked exactly if
the operation falls back on it. The other tables have no marks. -/
def Marks (t : Table) : Subject → Prop
  | grid ops _ ds _ =>
    t.columns.map Column.header = ops.map Prod.fst ++ ops.map Prod.fst ∧
      t.rows.map Row.marks = ds.map fun d =>
        (d.name, (ops.map fun op => op.2.fallsBack d) ++ ops.map fun op => op.2.fallsBack d)
  | sweep _ _ | types _ _ | matmulSquares | matmulDTypes | matmulVariants => t.Unmarked

end Subject

namespace Panel

structure Shows (p : Panel) (t : Table) : Prop where
  lists : t.Lists p.title p.subject.rowCount
  marks : p.subject.Marks t

/-! ### Measurements -/

lemma map_eq_of_forall₂ {α β γ : Type} {f : α → γ} {g : β → γ} {as : List α} {bs : List β}
    (h : List.Forall₂ (fun a b => g b = f a) as bs) : bs.map g = as.map f := by
  induction h with
  | nil => rfl
  | cons h _ ih => rw [List.map_cons, List.map_cons, h, ih]

variable {σ : Type} {h : Harness σ} {next : Form → σ → σ → Prop} {s : Schedule}

lemma unmarked_yields {p : Panel} {ι : Type} {is : List ι}
    {f : ι → Step BenchError (Session σ) Measurement}
    {build : List Measurement → Except BenchError Table}
    (hf : ∀ i ∈ is, (f i).Yields fun m => m.usedFallback = false)
    (hbuild : ∀ ms : List Measurement, (∀ m ∈ ms, m.usedFallback = false) →
      ∃ t, build ms = .ok t ∧ t.Lists p.title ms.length ∧ t.Unmarked)
    (hrows : is.length = p.subject.rowCount)
    (hmarks : ∀ t : Table, t.Unmarked → p.subject.Marks t) :
    (do
      let ms ← is.mapM f
      build ms : Step BenchError (Session σ) Table).Yields p.Shows := by
  refine (yields_mapM hf).bind fun ms hms => yields_ok ?_
  -- the table is built from the measurements, none of which is a fallback
  obtain ⟨t, ht, hlists, hunmarked⟩ := hbuild ms fun m hm => by
    obtain ⟨i, -, hfalse⟩ := exists_of_mem_forall₂ hms hm
    exact hfalse
  rw [← hms.length_eq, hrows] at hlists
  exact ⟨t, ht, hlists, hmarks t hunmarked⟩

/-- A grid over measurements that used the fallback where the catalog announces it. -/
lemma grid_shows {note title : String} {sched : Schedule} {ops : List (String × Operation)}
    {width : Nat} {ds : List DType} {geometry : Nat → Geometry}
    {rows : List (DType × List Measurement)}
    (hready : (Subject.grid ops width ds geometry).Ready)
    (hrows : rows.map (fun r => (r.1, r.2.map Measurement.usedFallback)) =
      ds.map fun d => (d, (ops.map Prod.snd).map (·.mayDiffer d))) :
    ∃ t, Report.dtypeGrid title (ops.map Prod.fst) width rows = .ok t ∧
      Shows ⟨note, title, sched, .grid ops width ds geometry⟩ t := by
  obtain ⟨hwidth, hops⟩ := hready
  have hcells : ∀ r ∈ rows, r.2.length = (ops.map Prod.fst).length := by
    intro r hr
    obtain ⟨d, -, hd⟩ := List.mem_map.mp (hrows ▸ List.mem_map_of_mem hr)
    have hlen := congrArg List.length (Prod.mk.inj hd).2
    simpa using hlen.symm
  obtain ⟨t, ht, hlists, hheaders, hmarks⟩ := Report.dtypeGrid_lists title hwidth hcells
  refine ⟨t, ht, ?_, hheaders, ?_⟩
  · have hlen := congrArg List.length hrows
    rw [List.length_map, List.length_map] at hlen
    rwa [hlen] at hlists
  · have hfallback : ∀ d ∈ ds, (ops.map Prod.snd).map (·.mayDiffer d) =
        ops.map fun op => op.2.fallsBack d := by
      intro d hd
      rw [List.map_map]
      refine List.map_congr_left fun op hop => ?_
      exact Operation.mayDiffer_eq_fallsBack (hops op.2 (List.mem_map_of_mem hop) d hd).mem d
    -- marks stand twice in a row: at the time and at the throughput
    calc t.rows.map Row.marks
        = (rows.map fun r => (r.1, r.2.map Measurement.usedFallback)).map
            fun r => (r.1.name, r.2 ++ r.2) := by rw [hmarks, List.map_map]; rfl
      _ = ds.map fun d => (d.name, (ops.map Prod.snd).map (·.mayDiffer d) ++
            (ops.map Prod.snd).map (·.mayDiffer d)) := by rw [hrows, List.map_map]; rfl
      _ = ds.map fun d => (d.name, (ops.map fun op => op.2.fallsBack d) ++
            ops.map fun op => op.2.fallsBack d) :=
          List.map_congr_left fun d hd => by rw [hfallback d hd]

variable (hlimit : h.limit = none) (hb : h.backend.LikeCpu (fun _ => True) next)
  (hs : s.check = .ok ())

include hlimit hb hs

lemma measure_yields {op : Operation} {d : DType} {g : Geometry} (hc : Measurable op d g) :
    (measure h op d g s).Yields fun m => m.usedFallback = op.mayDiffer d := by
  have hmake : Case.make op d g s = .ok ⟨op, d, g, s⟩ := by
    rw [Case.make, hs, exceptOk_bind, if_neg (not_not_intro hc.arity)]
    rfl
  refine Yields.ok_bind hmake fun session => ?_
  have hn : 0 < s.warmup + s.iterations := by
    have := Schedule.check_eq_ok.mp hs
    omega
  have hfares : h.FaresAsListed next op d g s session :=
    Harness.fares_as_listed hlimit hc.mem hn trivial hb hc.arity
  obtain ⟨m, t, hrun, hm, -⟩ := hfares.succeeds hc.accepts
  exact ⟨m, t, hrun, hm⟩

lemma measureGrid_yields {ops : List Operation} {types : List DType} {geometry : Nat → Geometry}
    (hops : ∀ op ∈ ops, ∀ d ∈ types, Measurable op d (geometry op.arity)) :
    (measureGrid h ops types s geometry).Yields fun rows =>
      rows.map (fun r => (r.1, r.2.map Measurement.usedFallback)) =
        types.map fun d => (d, ops.map (·.mayDiffer d)) := by
  have hrows : ∀ d ∈ types, (do
      let row ← ops.mapM fun op => measure h op d (geometry op.arity) s
      return (d, row) : Step BenchError (Session σ) (DType × List Measurement)).Yields fun r =>
        (r.1, r.2.map Measurement.usedFallback) = (d, ops.map (·.mayDiffer d)) := by
    intro d hd
    have hrow := yields_mapM fun op hop => measure_yields hlimit hb hs (hops op hop d hd)
    refine hrow.bind fun ms hms => yields_pure ?_
    rw [map_eq_of_forall₂ hms]
  exact (yields_mapM hrows).imp fun rows h => map_eq_of_forall₂ h

omit hs in
lemma squares_yields {gs : Geometry × Schedule} (hgs : gs ∈ Geometry.matmulSquares) :
    (measure h .matmul .float32 gs.1 gs.2).Yields fun m => m.usedFallback = false := by
  have hcheck : ∀ gs ∈ Geometry.matmulSquares, 0 < gs.2.warmup ∧ 0 < gs.2.iterations := by decide
  refine measure_yields hlimit hb (Schedule.check_eq_ok.mpr (hcheck gs hgs)) ?_
  obtain ⟨⟨n, warmup, iterations⟩, -, rfl⟩ := List.mem_map.mp hgs
  exact measurable_matmul rfl rfl _

omit hs in
lemma variants_yields {gs : Geometry × Schedule} (hgs : gs ∈ Geometry.matmulVariants) :
    (measure h .matmul .float32 gs.1 gs.2).Yields fun m => m.usedFallback = false := by
  obtain ⟨g, hg, rfl⟩ := List.mem_map.mp hgs
  refine measure_yields hlimit hb rfl ?_
  simp only [List.mem_cons, List.not_mem_nil, or_false] at hg
  rcases hg with rfl | rfl | rfl | rfl | rfl | rfl <;> exact measurable_matmul rfl rfl _

omit hs in
lemma table_yields {p : Panel} (hs : p.schedule.check = .ok ()) (hp : p.subject.Ready) :
    (p.table h).Yields p.Shows := by
  obtain ⟨note, title, sched, subject⟩ := p
  -- only a grid can have marks, the other subjects are without a fallback
  cases subject with
  | grid ops width ds geometry =>
    exact (measureGrid_yields hlimit hb hs hp.2).bind fun rows hrows =>
      yields_ok (grid_shows hp hrows)
  | sweep op sizes =>
    refine unmarked_yields (fun g hg => ?_) (fun _ => Report.sizeSweep_unmarked title)
      (List.length_map _) fun _ => id
    obtain ⟨n, hn, rfl⟩ := List.mem_map.mp hg
    have hm := measure_yields hlimit hb hs (hp n hn)
    rwa [Operation.mayDiffer_float32] at hm
  | types op geometry =>
    refine unmarked_yields (fun d _ => ?_) (fun _ => Report.dtypeList_unmarked title) rfl
      fun _ => id
    obtain ⟨hc, hd⟩ := hp d
    have hm := measure_yields hlimit hb hs hc
    rwa [hd] at hm
  | matmulSquares =>
    exact unmarked_yields (fun gs hgs => squares_yields hlimit hb hgs)
      (fun _ => Report.matmulSquare_unmarked title) rfl fun _ => id
  | matmulDTypes =>
    exact unmarked_yields
      (fun d _ => measure_yields hlimit hb rfl (measurable_matmul rfl rfl d))
      (fun _ => Report.matmulDTypes_unmarked title) rfl fun _ => id
  | matmulVariants =>
    exact unmarked_yields (fun gs hgs => variants_yields hlimit hb hgs)
      (fun _ => Report.matmulVariants_unmarked title) rfl fun _ => id

end Panel

end ArrayBench
