import ArrayBench.Proofs.Bench.Output
import ArrayBench.Proofs.Bench.Panels

/-!
Whole sections.

Settings that pass their check have a schedule that times something. With it every panel of every
section can be measured, since the shapes of its cases fit each other at all sizes and its
operations are those of the catalog. So a section runs to the end, and what it writes are the tables
of its panels, with marks where integers have no exact results.
-/

namespace ArrayBench

open Operation (select mem_select elementwise_of_category binary_of_select)

lemma Settings.schedule_of_check {s : Settings} (h : s.check = .ok ()) :
    s.schedule.check = .ok () := by
  obtain ⟨_, hschedule, -⟩ := exceptBind_eq_ok.mp h
  exact hschedule

/-! ### Panels of sections -/

def Subject.operations : Subject → List Operation
  | grid ops _ _ _ => ops.map Prod.snd
  | sweep op _ => [op]
  | types op _ => [op]
  | matmulSquares | matmulDTypes | matmulVariants => [.matmul]

structure Panel.Suits (s : Settings) (p : Panel) : Prop where
  schedule : p.schedule = s.schedule
  mem : ∀ op ∈ p.subject.operations, op ∈ Operation.catalog
  ready : p.subject.Ready

namespace Section

variable (s : Settings)

lemma operations_named (ops : List Operation) : (named ops).map Prod.snd = ops := by
  simp [named, Function.comp_def]

/-! ### Grids -/

lemma vectorPanel_suits (note title : String) {ops : List (String × Operation)} {width : Nat}
    (hwidth : width ≤ Text.maxField)
    (hops : ∀ op ∈ ops.map Prod.snd, op ∈ Operation.catalog ∧ op.Elementwise) :
    (vectorPanel s note title ops width).Suits s where
  schedule := rfl
  mem op hop := (hops op hop).1
  ready := ⟨hwidth, fun op hop d _ =>
    measurable_replicate (hops op hop).1 (hops op hop).2 rfl rfl d⟩

lemma selectPanel_suits (note title : String) {category : Category} (inPlace : Bool)
    (hr : category ≠ .reduction) (hm : category ≠ .matmul) :
    (vectorPanel s note title (named (select category inPlace)) 8).Suits s := by
  refine vectorPanel_suits s note title (by decide) fun op hop => ?_
  rw [operations_named] at hop
  obtain ⟨hmem, rfl, -⟩ := mem_select.mp hop
  exact ⟨hmem, elementwise_of_category hmem hr hm⟩

lemma layoutPanel_suits {p : Panel} {geometry : Nat → Geometry}
    (hschedule : p.schedule = s.schedule)
    (hp : p.subject = .grid (named (select .binary false)) 8 Fill.layoutTypes geometry)
    (hg : ∀ b, Operation.binary b ∈ Operation.catalog → ∀ d,
      Measurable (.binary b) d (geometry 2)) : p.Suits s where
  schedule := hschedule
  mem op hop := by
    rw [hp, Subject.operations, operations_named] at hop
    exact (mem_select.mp hop).1
  ready := by
    rw [hp]
    refine ⟨by decide, fun op hop d _ => ?_⟩
    rw [operations_named] at hop
    obtain ⟨b, rfl⟩ := binary_of_select hop
    exact hg b (mem_select.mp hop).1 d

lemma stridedPanel_suits : (stridedPanel s).Suits s :=
  layoutPanel_suits s rfl rfl fun b hb d => measurable_replicate hb (.inl ⟨b, rfl⟩) rfl rfl d

lemma broadcastPanel_suits (note title : String) {g : Geometry}
    (hg : ∀ b, Operation.binary b ∈ Operation.catalog → ∀ d, Measurable (.binary b) d g) :
    (broadcastPanel s note title g).Suits s := layoutPanel_suits s rfl rfl hg

/-! ### Other panels -/

lemma sweepPanel_suits (note what : String) {op : Operation}
    (hop : ∀ n, Measurable op .float32 (.sweepPoint n op.arity)) :
    (sweepPanel s note what op).Suits s where
  schedule := rfl
  mem _ h := List.mem_singleton.mp h ▸ (hop 0).mem
  ready n _ := hop n

lemma typesPanel_suits {p : Panel} {op : Operation} {g : Geometry}
    (hschedule : p.schedule = s.schedule) (hp : p.subject = .types op g)
    (hop : ∀ d, Measurable op d g) (hd : ∀ d, op.mayDiffer d = false) : p.Suits s where
  schedule := hschedule
  mem _ h := by
    rw [hp] at h
    exact List.mem_singleton.mp h ▸ (hop .int8).mem
  ready := by
    rw [hp]
    exact fun d => ⟨hop d, hd d⟩

lemma matmulPanel_suits (note title : String) {subject : Subject}
    (h : subject = .matmulSquares ∨ subject = .matmulDTypes ∨ subject = .matmulVariants) :
    (matmulPanel s note title subject).Suits s where
  schedule := rfl
  mem op hop := by
    rcases h with rfl | rfl | rfl <;> rw [List.mem_singleton.mp hop] <;> decide
  ready := by rcases h with rfl | rfl | rfl <;> trivial

/-! ### All panels -/

lemma panels_suit (x : Section) : ∀ p ∈ x.panels s, p.Suits s := by
  cases x with
  | elementwise =>
    refine List.forall_mem_cons.mpr ⟨selectPanel_suits s _ _ _ nofun nofun, ?_⟩
    refine List.forall_mem_cons.mpr ⟨stridedPanel_suits s, ?_⟩
    refine List.forall_mem_cons.mpr
      ⟨broadcastPanel_suits s _ _ fun b hb d => measurable_broadcastRow hb d _ _, ?_⟩
    refine List.forall_mem_cons.mpr
      ⟨broadcastPanel_suits s _ _ fun b hb d => measurable_broadcastOuter hb d _ _, ?_⟩
    refine List.forall_mem_cons.mpr
      ⟨broadcastPanel_suits s _ _ fun b hb d => measurable_broadcastRank hb d _ _, ?_⟩
    refine List.forall_mem_singleton.mpr (sweepPanel_suits s _ _ fun n => ?_)
    exact measurable_replicate (by decide) (.inl ⟨.add, rfl⟩) rfl rfl _
  | scalar =>
    refine List.forall_mem_cons.mpr ⟨selectPanel_suits s _ _ _ nofun nofun, ?_⟩
    refine List.forall_mem_cons.mpr ⟨selectPanel_suits s _ _ _ nofun nofun, ?_⟩
    refine List.forall_mem_singleton.mpr (sweepPanel_suits s _ _ fun n => ?_)
    exact measurable_replicate (by decide) (.inr (.inl ⟨.add, rfl⟩)) rfl rfl _
  | unary =>
    refine List.forall_mem_cons.mpr ⟨selectPanel_suits s _ _ _ nofun nofun, ?_⟩
    refine List.forall_mem_cons.mpr ⟨selectPanel_suits s _ _ _ nofun nofun, ?_⟩
    refine List.forall_mem_singleton.mpr (sweepPanel_suits s _ _ fun n => ?_)
    exact measurable_replicate (by decide) (.inr (.inr ⟨.sqrt, rfl⟩)) rfl rfl _
  | pow =>
    have hpow : ∀ inPlace, Operation.pow inPlace ∈ Operation.catalog ∧
        (Operation.pow inPlace).Elementwise :=
      fun inPlace => ⟨by cases inPlace <;> decide, .inl ⟨.pow, rfl⟩⟩
    refine List.forall_mem_cons.mpr ⟨vectorPanel_suits s _ _ (by decide) ?_, ?_⟩
    · exact List.forall_mem_cons.mpr ⟨hpow false, List.forall_mem_singleton.mpr (hpow true)⟩
    · refine List.forall_mem_singleton.mpr (sweepPanel_suits s _ _ fun n => ?_)
      exact measurable_replicate (hpow false).1 (hpow false).2 rfl rfl _
  | reduction =>
    refine List.forall_mem_cons.mpr
      ⟨typesPanel_suits s rfl rfl (measurable_sum rfl) fun _ => rfl, ?_⟩
    refine List.forall_mem_cons.mpr ⟨typesPanel_suits s rfl rfl
      (measurable_sumAxis (by decide) rfl Nat.zero_lt_two) fun _ => rfl, ?_⟩
    refine List.forall_mem_cons.mpr ⟨typesPanel_suits s rfl rfl
      (measurable_sumAxis (by decide) rfl Nat.one_lt_two) fun _ => rfl, ?_⟩
    exact List.forall_mem_singleton.mpr
      (sweepPanel_suits s _ _ fun _ => measurable_sum rfl .float32)
  | matmul =>
    refine List.forall_mem_cons.mpr ⟨matmulPanel_suits s _ _ (.inl rfl), ?_⟩
    refine List.forall_mem_cons.mpr ⟨matmulPanel_suits s _ _ (.inr (.inl rfl)), ?_⟩
    exact List.forall_mem_singleton.mpr (matmulPanel_suits s _ _ (.inr (.inr rfl)))

end Section

/-! ### Runs -/

section Runs

variable {σ : Type} {h : Harness σ} {next : Form → σ → σ → Prop} {s : Settings}
  (hlimit : h.limit = none) (hb : h.backend.LikeCpu (fun _ => True) next)
  (hs : s.schedule.check = .ok ())

include hlimit hb hs

lemma Panel.run_prints {p : Panel} (hp : p.Suits s) (session : Session σ) {sink : Sink}
    (hsink : sink.limit = none) :
    ∃ t session' sink', p.run h (session, sink) = .ok () (session', sink') ∧ sink'.limit = none ∧
      sink'.lines.toList = sink.lines.toList ++ t.lines ∧ p.Shows t := by
  obtain ⟨t, session', ht, hshows⟩ :=
    Panel.table_yields hlimit hb (hp.schedule ▸ hs) hp.ready (session.note (.heading p.note))
  obtain ⟨sink', hwrite, hlimit', hlines⟩ := hshows.lists.toFits.write_prints sink hsink
  have hrun := Panel.run_of_table ht sink
  rw [hwrite] at hrun
  exact ⟨t, session', sink', hrun, hlimit', hlines, hshows⟩

/-- Panels write their tables one after the other. -/
lemma panels_print {ps : List Panel} (hps : ∀ p ∈ ps, p.Suits s) (session : Session σ)
    {sink : Sink} (hsink : sink.limit = none) :
    ∃ ts session' sink', ps.forM (Panel.run h) (session, sink) = .ok () (session', sink') ∧
      sink'.lines.toList = sink.lines.toList ++ ts.flatMap Table.lines ∧
      List.Forall₂ Panel.Shows ps ts := by
  induction ps generalizing session sink with
  | nil => exact ⟨[], session, sink, rfl, by simp, .nil⟩
  | cons p ps ih =>
    obtain ⟨t, session', sink', hrun, hsink', hlines, hshows⟩ :=
      Panel.run_prints hlimit hb hs (hps p (by simp)) session hsink
    obtain ⟨ts, session'', sink'', hrest, hlines', hshows'⟩ :=
      ih (fun q hq => hps q (by simp [hq])) session' hsink'
    refine ⟨t :: ts, session'', sink'', (Step.bind_of_ok hrun _).trans hrest, ?_,
      .cons hshows hshows'⟩
    rw [hlines', hlines, List.flatMap_cons, List.append_assoc]

end Runs

namespace Section

/-- **Sections run to the end** with any settings that pass their check, and write one table for
each panel, in order. A grid has marks exactly where integers are divided in new arrays or have a
logarithm, an exponential or a root taken, and other tables have none. -/
theorem run_writes_tables (s : Settings) (hs : s.check = .ok ()) (x : Section)
    (clock : Nat → Clock) (session : Session Unit) (sink : Sink) (hsink : sink.limit = none) :
    (∀ p ∈ x.panels s, ∀ op ∈ p.subject.operations,
      Operation.find op.category op.inPlace op.name = .ok op) ∧
    ∃ ts session' sink',
      x.run ⟨Backend.cpu, clock, none⟩ s (session, sink) = .ok () (session', sink') ∧
      sink'.lines.toList = sink.lines.toList ++ ts.flatMap Table.lines ∧
      List.Forall₂ Panel.Shows (x.panels s) ts := by
  refine ⟨fun p hp op hop => Operation.find_of_mem ((panels_suit s x p hp).mem op hop), ?_⟩
  exact panels_print rfl Backend.cpu_likeCpu (Settings.schedule_of_check hs) (panels_suit s x)
    session hsink

/-- The first table on unary operations: its columns, and the marks in the row of bytes. -/
theorem run_writes_tables_unary :
    ∃ (t : Table) (rest : List String) (session' : Session Unit) (sink' : Sink),
      unary.run ⟨Backend.cpu, fun _ _ => 0, none⟩ ⟨⟨1, 1⟩, 2, 2, 3, [1]⟩
        (.start (), .empty none) = .ok () (session', sink') ∧
      sink'.lines.toList = t.lines ++ rest ∧
      t.columns.map Column.header =
        ["log", "exp", "abs", "sqrt", "log", "exp", "abs", "sqrt"] ∧
      t.rows.head?.map Row.marks =
        some ("int8", [true, true, false, true, true, true, false, true]) := by
  obtain ⟨-, ts, session', sink', hrun, hlines, hshows⟩ :=
    run_writes_tables ⟨⟨1, 1⟩, 2, 2, 3, [1]⟩ rfl unary (fun _ _ => 0) (.start ()) (.empty none) rfl
  obtain ⟨t, rest, hfirst, -, rfl⟩ := List.forall₂_cons_left_iff.mp hshows
  obtain ⟨hheaders, hmarks⟩ := hfirst.marks
  refine ⟨t, _, session', sink', hrun, hlines.trans List.flatMap_cons, hheaders.trans rfl, ?_⟩
  rw [← List.head?_map, hmarks]
  rfl

end Section

end ArrayBench
