import ArrayBench.Proofs.Bench.Alignment
import ArrayBench.Proofs.Bench.Sections

/-!
Rows of the tables that sections print.

The labels of a table are known from its panel, whatever the backend does and whatever the clock
says: names of element types, sizes of sweeps and of square matrices, and the labels of the variants.
So the rows of every table that a section prints are as long as its rule if their numbers fit, but
for two of the variants. Their labels are one character wider than the column they stand in.
-/

namespace ArrayBench

open Step (Returns returns_bind returns_lift returns_mapM returns_mapM_forall)

/-! ### Panels -/

lemma Geometry.elementCount_sweepPoint (n arity : Nat) : (sweepPoint n arity).elementCount = n := by
  have hmax : ∀ k, (List.replicate k n).foldr max n = n := by
    intro k
    induction k with
    | zero => rfl
    | succ k ih => rw [List.replicate_succ, List.foldr_cons, ih, Nat.max_self]
  have hnumel : Shape.numel [n] = n := by simp
  simp only [elementCount, sweepPoint, contiguous, make, List.map_replicate, Operand.numel, plain,
    hnumel, hmax]

def Subject.Short : Subject → Prop
  | sweep _ sizes => ∀ n ∈ sizes, n < 10 ^ 10
  | grid _ _ _ _ | types _ _ | matmulSquares | matmulDTypes | matmulVariants => True

section Panels

variable {σ : Type} (h : Harness σ)

/-- A table that is made lines up, whatever has been measured for it. -/
lemma Panel.table_returns {p : Panel} (hp : p.subject.Short) :
    (p.table h).Returns Table.LinesUp := by
  obtain ⟨note, title, sched, subject⟩ := p
  -- counts are the only numbers whose length has to be known
  cases subject with
  | grid ops width types geometry =>
    exact returns_bind fun rows => returns_lift fun t => Report.dtypeGrid_linesUp
  | sweep op sizes =>
    refine (returns_mapM_forall fun g hg => ?_).bind fun ms hms => returns_lift fun t ht =>
      Report.sizeSweep_linesUp ht hms
    obtain ⟨n, hn, rfl⟩ := List.mem_map.mp hg
    refine Panel.case_returns h (P := fun c => c.elementCount < 10 ^ 10) ?_
    rw [Case.elementCount, Geometry.elementCount_sweepPoint]
    exact hp n hn
  | types op geometry =>
    exact returns_bind fun rows => returns_lift fun t => Report.dtypeList_linesUp
  | matmulSquares =>
    refine (returns_mapM_forall fun gs hgs => ?_).bind fun ms hms => returns_lift fun t ht =>
      Report.matmulSquare_linesUp ht hms
    have hsides : ∀ gs ∈ Geometry.matmulSquares,
        (gs.1.matmulSizes.map Prod.fst).getD 0 < 10 ^ 6 := by decide
    exact Panel.case_returns h
      (P := fun c => (c.geometry.matmulSizes.map Prod.fst).getD 0 < 10 ^ 6) (hsides gs hgs)
  | matmulDTypes =>
    exact returns_bind fun rows => returns_lift fun t => Report.matmulDTypes_linesUp
  | matmulVariants =>
    refine (returns_mapM_forall fun gs hgs => ?_).bind fun ms hms => returns_lift fun t ht =>
      Report.matmulVariants_linesUp ht hms
    exact Panel.case_returns h
      (P := fun c => ∃ gs ∈ Geometry.matmulVariants, c.geometry = gs.1) ⟨gs, hgs, rfl⟩

lemma Panel.variants_returns {p : Panel} (hp : p.subject = .matmulVariants) :
    (p.table h).Returns fun t => ∃ ms,
      List.Forall₂ (fun gs m => h.Measures ⟨.matmul, .float32, gs.1, gs.2⟩ m)
        Geometry.matmulVariants ms ∧ Report.matmulVariants p.title ms = .ok t := by
  obtain ⟨note, title, sched, subject⟩ := p
  obtain rfl : subject = .matmulVariants := hp
  refine (returns_mapM fun gs _ => Panel.measure_returns h .matmul .float32 gs.1 gs.2).bind
    fun ms hms => returns_lift fun t ht => ⟨ms, hms, ht⟩

lemma Harness.Measures.matmul {d : DType} {g : Geometry} {s : Schedule} {m : Measurement}
    (hm : h.Measures ⟨.matmul, d, g, s⟩ m) : ∃ timed fallback,
      m = .make ⟨.matmul, d, g, s⟩ (Schedule.meanMicros (h.clock timed 0) s.iterations) fallback := by
  obtain ⟨dispatch, timed, fallback, hdispatch, rfl⟩ := hm
  have hlisted := Operation.dispatch_of_mem (by decide : Operation.matmul ∈ Operation.catalog) d
  obtain rfl := Except.ok.inj (hlisted.symm.trans hdispatch)
  exact ⟨timed, fallback, rfl⟩

end Panels

/-! ### Sections -/

namespace Section

lemma panels_short {s : Settings} (hs : ∀ n ∈ s.sweepSizes, n < 10 ^ 10) (x : Section) :
    ∀ p ∈ x.panels s, p.subject.Short := by
  have hsweep (note what : String) (op : Operation) :
      (sweepPanel s note what op).subject.Short := by
    unfold sweepPanel Subject.Short
    exact hs
  cases x with
  | elementwise =>
    simp only [panels, List.forall_mem_cons]
    exact ⟨trivial, trivial, trivial, trivial, trivial, hsweep _ _ _, List.forall_mem_nil _⟩
  | scalar =>
    simp only [panels, List.forall_mem_cons]
    exact ⟨trivial, trivial, hsweep _ _ _, List.forall_mem_nil _⟩
  | unary =>
    simp only [panels, List.forall_mem_cons]
    exact ⟨trivial, trivial, hsweep _ _ _, List.forall_mem_nil _⟩
  | pow =>
    simp only [panels, List.forall_mem_cons]
    exact ⟨trivial, hsweep _ _ _, List.forall_mem_nil _⟩
  | reduction =>
    simp only [panels, List.forall_mem_cons]
    exact ⟨trivial, trivial, trivial, hsweep _ _ _, List.forall_mem_nil _⟩
  | matmul =>
    simp only [panels, List.forall_mem_cons]
    exact ⟨trivial, trivial, trivial, List.forall_mem_nil _⟩

/-- **Rows line up**: on any backend and by any clock, every row of a table that a section prints is
as long as the rule of the table, if its numbers fit. Only the labels of two variants of matrix
products make their rows longer, by one character. -/
theorem rows_line_up {σ : Type} (h : Harness σ) {s : Settings}
    (hs : ∀ n ∈ s.sweepSizes, n < 10 ^ 10) (x : Section) (session : Session σ) (sink : Sink) :
    ∃ ts written, PrintsTables h (x.run h s) (x.panels s) (session, sink) ts written ∧
      ∀ t ∈ ts, t.LinesUp := by
  obtain ⟨ts, written, hprints⟩ := panels_print_tables h (x.panels s) session sink
  refine ⟨ts, written, hprints, fun t ht => ?_⟩
  obtain ⟨p, hp, session, session', hmakes⟩ := exists_of_mem_forall₂ hprints.made ht
  have hshort := panels_short hs x p (List.mem_of_mem_take hp)
  exact Panel.table_returns h hshort session t session' hmakes

/-- The plain backend, and a clock by which every stretch takes 20 milliseconds. -/
def steadyHarness : Harness Unit := ⟨Backend.cpu, fun _ _ => 20000000, none⟩

/-- The products of matrices with the standard settings. -/
theorem rows_line_up_matmul :
    (∀ n ∈ Settings.standard.sweepSizes, n < 10 ^ 10) ∧
      ∃ ts written, PrintsTables steadyHarness (matmul.run steadyHarness .standard)
          (matmul.panels .standard) (.start (), .empty none) ts written ∧
        ∀ t ∈ ts, t.LinesUp := by
  have hs : ∀ n ∈ Settings.standard.sweepSizes, n < 10 ^ 10 := by decide
  exact ⟨hs, rows_line_up _ hs matmul _ _⟩

/-- The run on matrix products prints the table of its variants last. -/
lemma matmul_prints_variants : ∃ (t : Table) (before : List String) (session : Session Unit)
    (sink : Sink),
    matmul.run steadyHarness .standard (.start (), .empty none) = .ok () (session, sink) ∧
      sink.lines.toList = before ++ t.lines ∧ ∃ p ∈ matmul.panels .standard,
        p.subject = .matmulVariants ∧ p.Makes steadyHarness t := by
  obtain ⟨-, session, sink, hrun, -, -⟩ := panels_print (h := steadyHarness) rfl
    Backend.cpu_likeCpu rfl (panels_suit .standard matmul) (.start ())
    (rfl : (Sink.empty none).limit = none)
  obtain ⟨ts, written, hprints⟩ := panels_print_tables steadyHarness (matmul.panels .standard)
    (.start ()) (.empty none)
  obtain ⟨hlength, rfl⟩ := hprints.all _ hrun
  have hmade := hprints.made
  rw [hlength, List.take_length] at hmade
  obtain ⟨t₁, _, -, hothers, rfl⟩ := List.forall₂_cons_left_iff.mp hmade
  obtain ⟨t₂, _, -, hlast, rfl⟩ := List.forall₂_cons_left_iff.mp hothers
  obtain ⟨t, _, hmakes, hnone, rfl⟩ := List.forall₂_cons_left_iff.mp hlast
  obtain rfl := List.forall₂_nil_left_iff.mp hnone
  refine ⟨t, t₁.lines ++ t₂.lines, session, sink, hrun, ?_, _, by simp [panels], rfl, hmakes⟩
  have hadded := hprints.added
  rw [Step.state, hrun] at hadded
  simpa [Sink.empty] using hadded

def variantColumns : List Column :=
  [{ header := "time(us)", width := 8, precision := 2, gap := 2 },
    { header := "GFLOP/s", width := 8, precision := 3, gap := 2 },
    { header := "flops", width := 8, precision := 0, gap := 2, suffix := " K" }]

def squareMeasurement (fallback : Bool) : Measurement :=
  .make ⟨.matmul, .float32, Geometry.matmulVariant 512 512 512 "square", Geometry.matmulSchedule⟩
    (Schedule.meanMicros 20000000 20) fallback

lemma square_numbers_fit : ∀ fallback, ∀ p ∈ variantColumns.zip
    [Report.time (squareMeasurement fallback), Report.gflops (squareMeasurement fallback),
      .float (Report.kiloFlops (squareMeasurement fallback))],
    (p.1.text p.2).length ≤ p.1.width := by decide +kernel

/-- With the standard settings and 20 milliseconds for each case, the numbers of the square variant
fit their columns, and its row is still longer than the rule. -/
theorem rows_stick_out :
    Settings.standard.check = .ok () ∧ (∀ n ∈ Settings.standard.sweepSizes, n < 10 ^ 10) ∧
      ∃ (t : Table) (r : Row) (before : List String) (session : Session Unit) (sink : Sink),
        matmul.run steadyHarness .standard (.start (), .empty none) = .ok () (session, sink) ∧
        sink.lines.toList = before ++ t.lines ∧ r ∈ t.rows ∧ t.NumbersFit r ∧
        (t.rowLine r).length = t.rule.length + 1 := by
  have hs : ∀ n ∈ Settings.standard.sweepSizes, n < 10 ^ 10 := by decide
  obtain ⟨t, before, session, sink, hrun, hlines, p, hp, hsubject, s, s', hmakes⟩ :=
    matmul_prints_variants
  have hlinesUp := Panel.table_returns steadyHarness (panels_short hs matmul p hp) s t s' hmakes
  obtain ⟨ms, hms, ht⟩ := Panel.variants_returns steadyHarness hsubject s t s' hmakes
  obtain ⟨wide, _, -, hothers, rfl⟩ := List.forall₂_cons_left_iff.mp hms
  obtain ⟨m, rest, hm, -, rfl⟩ := List.forall₂_cons_left_iff.mp hothers
  obtain ⟨timed, fallback, rfl⟩ := hm.matmul
  obtain ⟨-, rfl⟩ := Report.ofRows_eq_ok.mp ht
  have hwide : Geometry.overhang (Geometry.variantLabel "square" 512 512 512) = 1 := by
    decide +kernel
  have hrow := hlinesUp.fitting _ (List.mem_cons_of_mem _ List.mem_cons_self)
    (square_numbers_fit fallback)
  exact ⟨rfl, hs, _, _, before, session, sink, hrun, hlines,
    List.mem_cons_of_mem _ List.mem_cons_self, square_numbers_fit fallback,
    hrow.trans (congrArg _ hwide)⟩

end Section

end ArrayBench
