import ArrayBench.Proofs.Bench.Tables
import ArrayBench.Proofs.Text.Lines

/-!
Writing up to a limit.

Writing a table is a list of entries: checks that a part can be laid out, and lines. It does not
matter where the lines go, so they may go to any place that takes text up to a number of bytes, and
each line may arrive there in pieces. The first piece that is too much is refused and is the end of
the writing. So what has been taken is always the beginning of the whole text, and it is the whole
text exactly if the limit allows it.
-/

namespace ArrayBench

open Text (ofLines ofLines_nil ofLines_cons ofLines_concat)

/-! ### Places with a limit -/

def Allowed (limit : Option Nat) (s : String) : Prop := limit.all (s.utf8ByteSize ≤ ·)

instance (limit : Option Nat) (s : String) : Decidable (Allowed limit s) :=
  inferInstanceAs (Decidable (_ = true))

@[simp] lemma allowed_some {n : Nat} {s : String} : Allowed (some n) s ↔ s.utf8ByteSize ≤ n := by
  simp [Allowed]

lemma allowed_none (s : String) : Allowed none s := rfl

lemma allowed_empty (limit : Option Nat) : Allowed limit "" := by
  cases limit with
  | none => rfl
  | some n => exact allowed_some.mpr (Nat.zero_le n)

lemma Allowed.of_append {limit : Option Nat} {a b : String} (h : Allowed limit (a ++ b)) :
    Allowed limit a := by
  cases limit with
  | none => rfl
  | some n =>
    rw [allowed_some, String.utf8ByteSize_append] at h
    rw [allowed_some]
    omega

/-- A way of writing lines to a place that takes text up to a limit. `Has s a` says that in the
state `s` it has taken the text `a`. A line is taken if the limit allows it, else a part of it is
taken at most, and that is the end. -/
structure Limited {σ : Type} (limit : Option Nat) (Has : σ → String → Prop)
    (put : String → Step BenchError σ Unit) : Prop where
  takes : ∀ s a line, Has s a → Allowed limit (a ++ (line ++ "\n")) →
    ∃ s', put line s = .ok () s' ∧ Has s' (a ++ (line ++ "\n"))
  refuses : ∀ s a line, Has s a → ¬ Allowed limit (a ++ (line ++ "\n")) →
    ∃ s' part rest, put line s = .error .sinkFull s' ∧ Has s' (a ++ part) ∧
      line ++ "\n" = part ++ rest

/-! ### Sinks -/

namespace Sink

structure Has (limit : Option Nat) (s : Sink) (a : String) : Prop where
  bound : s.limit = limit
  text : s.text = a
  bytes : s.bytes = a.utf8ByteSize
  allowed : Allowed limit a

variable {limit : Option Nat}

lemma has_empty (limit : Option Nat) : Has limit (.empty limit) "" :=
  ⟨rfl, rfl, rfl, allowed_empty limit⟩

lemma writeLine_eq {s : Sink} {a : String} (h : Has limit s a) (line : String) :
    writeLine line s = if Allowed limit (a ++ (line ++ "\n")) then
      .ok () ⟨limit, s.lines.push line, (a ++ (line ++ "\n")).utf8ByteSize⟩
    else .error .sinkFull s := by
  have hbytes : s.bytes + line.utf8ByteSize + 1 = (a ++ (line ++ "\n")).utf8ByteSize := by
    have hend : "\n".utf8ByteSize = 1 := rfl
    rw [String.utf8ByteSize_append, String.utf8ByteSize_append, hend, h.bytes, Nat.add_assoc]
  rw [writeLine, hbytes, h.bound]
  rfl

lemma limited (limit : Option Nat) : Limited limit (Has limit) writeLine where
  takes s a line h hallowed := by
    refine ⟨_, (writeLine_eq h line).trans (if_pos hallowed), rfl, ?_, rfl, hallowed⟩
    rw [Sink.text, Array.toList_push]
    exact (ofLines_concat s.lines.toList line).trans (congrArg (· ++ (line ++ "\n")) h.text)
  refuses s a line h hallowed :=
    ⟨s, "", line ++ "\n", (writeLine_eq h line).trans (if_neg hallowed),
      by rwa [String.append_empty], String.empty_append.symm⟩

end Sink

/-! ### Pieces -/

/-- A way of dividing lines into the pieces that are written one after the other. It may differ from
line to line, depending on the pieces that have been taken. -/
structure Division where
  pieces : List String → String → List String
  join_pieces : ∀ taken line, String.join (pieces taken line) = line

namespace Division

instance : Inhabited Division := ⟨⟨fun _ line => [line], fun _ _ => by simp [String.join_cons]⟩⟩

variable {limit : Option Nat}

/-- Writes a piece of text, or nothing if that is too much. -/
def putPiece (limit : Option Nat) (piece : String) : Step BenchError (List String) Unit :=
  fun taken =>
    if Allowed limit (String.join (taken ++ [piece])) then .ok () (taken ++ [piece])
    else .error .sinkFull taken

def put (d : Division) (limit : Option Nat) (line : String) :
    Step BenchError (List String) Unit := fun taken =>
  forM (d.pieces taken (line ++ "\n")) (putPiece limit) taken

structure Has (limit : Option Nat) (taken : List String) (a : String) : Prop where
  text : String.join taken = a
  allowed : Allowed limit a

lemma has_nil (limit : Option Nat) : Has limit [] "" := ⟨rfl, allowed_empty limit⟩

lemma putPiece_of_allowed {piece : String} {taken : List String}
    (h : Allowed limit (String.join (taken ++ [piece]))) :
    putPiece limit piece taken = .ok () (taken ++ [piece]) := if_pos h

lemma putPiece_of_not_allowed {piece : String} {taken : List String}
    (h : ¬ Allowed limit (String.join (taken ++ [piece]))) :
    putPiece limit piece taken = .error .sinkFull taken := if_neg h

lemma forM_putPiece_of_allowed {ps taken : List String}
    (h : Allowed limit (String.join (taken ++ ps))) :
    forM ps (putPiece limit) taken = .ok () (taken ++ ps) := by
  induction ps generalizing taken with
  | nil =>
    rw [List.append_nil]
    rfl
  | cons p ps ih =>
    rw [List.append_cons] at h ⊢
    have hp : Allowed limit (String.join (taken ++ [p])) := by
      rw [String.join_append] at h
      exact h.of_append
    rw [List.forM_cons, Step.bind_of_ok (putPiece_of_allowed hp)]
    exact ih h

lemma forM_putPiece_of_not_allowed {ps taken : List String}
    (htaken : Allowed limit (String.join taken)) (h : ¬ Allowed limit (String.join (taken ++ ps))) :
    ∃ qs rs, ps = qs ++ rs ∧ forM ps (putPiece limit) taken = .error .sinkFull (taken ++ qs) ∧
      Allowed limit (String.join (taken ++ qs)) := by
  -- on the pieces: the first of them is taken, or all of them are left
  induction ps generalizing taken with
  | nil =>
    rw [List.append_nil] at h
    exact absurd htaken h
  | cons p ps ih =>
    rw [List.forM_cons]
    by_cases hp : Allowed limit (String.join (taken ++ [p]))
    · rw [List.append_cons] at h
      obtain ⟨qs, rs, rfl, hrun, hqs⟩ := ih hp h
      rw [← List.append_cons] at hrun hqs
      rw [Step.bind_of_ok (putPiece_of_allowed hp)]
      exact ⟨p :: qs, rs, rfl, hrun, hqs⟩
    · rw [Step.bind_of_error (putPiece_of_not_allowed hp)]
      refine ⟨[], p :: ps, rfl, ?_, ?_⟩ <;> rw [List.append_nil]
      exact htaken

lemma join_append_pieces (d : Division) {taken : List String} {a : String}
    (h : String.join taken = a) (line : String) :
    String.join (taken ++ d.pieces taken line) = a ++ line := by
  rw [String.join_append, h, d.join_pieces]

lemma limited (d : Division) (limit : Option Nat) : Limited limit (Has limit) (d.put limit) where
  takes taken a line h hallowed := by
    have hjoin := d.join_append_pieces h.text (line ++ "\n")
    exact ⟨_, forM_putPiece_of_allowed (by rwa [hjoin]), hjoin, hallowed⟩
  refuses taken a line h hallowed := by
    have hjoin := d.join_append_pieces h.text (line ++ "\n")
    have htaken : Allowed limit (String.join taken) := h.text.symm ▸ h.allowed
    rw [← hjoin] at hallowed
    obtain ⟨qs, rs, hps, hrun, hqs⟩ := forM_putPiece_of_not_allowed htaken hallowed
    rw [String.join_append, h.text] at hqs
    refine ⟨taken ++ qs, String.join qs, String.join rs, hrun, ⟨?_, hqs⟩, ?_⟩
    · rw [String.join_append, h.text]
    · rw [← d.join_pieces taken (line ++ "\n"), hps, String.join_append]

end Division

namespace Table

/-! ### Entries -/

inductive Entry where
  | check (c : Except BenchError Unit)
  | line (s : String)

namespace Entry

def perform {σ : Type} (put : String → Step BenchError σ Unit) : Entry → Step BenchError σ Unit
  | check c => liftM c
  | line s => put s

def checks : List Entry → Except BenchError Unit
  | [] => .ok ()
  | check c :: es => c >>= fun _ => checks es
  | line _ :: es => checks es

def lines : List Entry → List String
  | [] => []
  | check _ :: es => lines es
  | line s :: es => s :: lines es

lemma lines_append (es fs : List Entry) : lines (es ++ fs) = lines es ++ lines fs := by
  induction es with
  | nil => rfl
  | cons e es ih =>
    cases e with
    | check c => exact ih
    | line s => exact congrArg (s :: ·) ih

lemma lines_map_line (ls : List String) : lines (ls.map line) = ls := by
  induction ls with
  | nil => rfl
  | cons l ls ih => exact congrArg (l :: ·) ih

lemma forM_map_line {σ : Type} (put : String → Step BenchError σ Unit) (ls : List String) :
    forM (ls.map line) (perform put) = forM ls put := List.forM_map

end Entry

/-- What comes of entries with these checks and this text, after the text `a` has been taken. -/
inductive Performed {σ : Type} (limit : Option Nat) (Has : σ → String → Prop) (a : String)
    (checks : Except BenchError Unit) (text : String) : EStateM.Result BenchError σ Unit → Prop where
  | whole (s : σ) (hchecks : checks = .ok ()) (htext : Has s (a ++ text)) :
    Performed limit Has a checks text (.ok () s)
  | broken (s : σ) (e : BenchError) (part rest : String) (hchecks : checks = .error e)
    (htext : Has s (a ++ part)) (hpart : text = part ++ rest) :
    Performed limit Has a checks text (.error e s)
  /-- A part of the text is taken, and with the rest it is too much. -/
  | full (s : σ) (part rest : String) (hlimit : ¬ Allowed limit (a ++ text))
    (htext : Has s (a ++ part)) (hpart : text = part ++ rest) :
    Performed limit Has a checks text (.error .sinkFull s)

section Limits

variable {σ : Type} {limit : Option Nat} {Has : σ → String → Prop}
  {put : String → Step BenchError σ Unit}

lemma Performed.append {a b text : String} {checks : Except BenchError Unit}
    {r : EStateM.Result BenchError σ Unit} (h : Performed limit Has (a ++ b) checks text r) :
    Performed limit Has a checks (b ++ text) r := by
  cases h with
  | whole s hchecks htext =>
    rw [String.append_assoc] at htext
    exact .whole s hchecks htext
  | broken s e part rest hchecks htext hpart =>
    rw [String.append_assoc] at htext
    exact .broken s e (b ++ part) rest hchecks htext (by rw [hpart, String.append_assoc])
  | full s part rest hlimit htext hpart =>
    rw [String.append_assoc] at htext hlimit
    exact .full s (b ++ part) rest hlimit htext (by rw [hpart, String.append_assoc])

lemma performed_of_limited (h : Limited limit Has put) (es : List Entry) {s : σ} {a : String}
    (hs : Has s a) : Performed limit Has a (Entry.checks es) (ofLines (Entry.lines es))
      (forM es (Entry.perform put) s) := by
  -- on the entries: a check passes or fails, a line is taken or refused
  induction es generalizing s a with
  | nil => exact .whole s rfl (by rwa [Entry.lines, ofLines_nil, String.append_empty])
  | cons e es ih =>
    rw [List.forM_cons]
    cases e with
    | check c =>
      cases c with
      | ok u => exact ih hs
      | error e =>
        exact .broken s e "" _ rfl (by rwa [String.append_empty]) String.empty_append.symm
    | line l =>
      rw [Entry.lines, ofLines_cons]
      by_cases hallowed : Allowed limit (a ++ (l ++ "\n"))
      · obtain ⟨s', hput, hs'⟩ := h.takes s a l hs hallowed
        rw [Entry.perform, Step.bind_of_ok hput]
        exact (ih hs').append
      · obtain ⟨s', part, rest, hput, hs', hpart⟩ := h.refuses s a l hs hallowed
        rw [Entry.perform, Step.bind_of_error hput]
        -- what is refused is only a part of the text, but the whole text is no shorter
        refine .full s' part (rest ++ ofLines (Entry.lines es)) (fun hall => hallowed ?_) hs' ?_
        · rw [← String.append_assoc] at hall
          exact hall.of_append
        · rw [hpart, String.append_assoc]

end Limits

/-! ### Tables -/

variable (t : Table)

def rowEntries (r : Row) : List Entry := [.check (t.checkRow r), .line (t.rowLine r)]

def entries : List Entry :=
  .line "" :: .check t.checkOpening :: (t.opening.map .line ++
    .check t.checkHead :: (t.head.map .line ++ (t.rows.flatMap t.rowEntries ++
      t.closing.map .line)))

def render {σ : Type} (put : String → Step BenchError σ Unit) : Step BenchError σ Unit :=
  forM t.entries (Entry.perform put)

lemma forM_rowEntries {σ : Type} (put : String → Step BenchError σ Unit) (rows : List Row) :
    forM (rows.flatMap t.rowEntries) (Entry.perform put) =
      forM rows fun r => liftM (t.checkRow r) >>= fun _ => put (t.rowLine r) := by
  induction rows with
  | nil => rfl
  | cons r rows ih =>
    simp only [List.flatMap_cons, List.forM_append, ih, List.forM_cons, rowEntries, List.forM_nil,
      Entry.perform, bind_assoc, pure_bind]

/-- A sink is written to entry by entry. -/
lemma render_writeLine : t.render Sink.writeLine = t.write := by
  rw [render, entries, List.forM_cons, List.forM_cons, List.forM_append, Entry.forM_map_line,
    List.forM_cons, List.forM_append, Entry.forM_map_line, List.forM_append, Entry.forM_map_line,
    forM_rowEntries]
  rfl

lemma lines_rowEntries (rows : List Row) :
    Entry.lines (rows.flatMap t.rowEntries) = rows.map t.rowLine := by
  induction rows with
  | nil => rfl
  | cons r rows ih => exact congrArg (t.rowLine r :: ·) ih

lemma lines_entries : Entry.lines t.entries = t.lines := by
  simp only [entries, Entry.lines, Entry.lines_append, Entry.lines_map_line, lines_rowEntries,
    lines, List.append_assoc, List.cons_append]

/-- The text of a table: what a sink without a limit takes, if the table can be laid out. -/
def rendering : Except BenchError String :=
  match t.write (.empty none) with
  | .ok _ s => .ok s.text
  | .error e _ => .error e

lemma performed_render {σ : Type} {limit : Option Nat} {Has : σ → String → Prop}
    {put : String → Step BenchError σ Unit} (h : Limited limit Has put) {s : σ} (hs : Has s "") :
    Performed limit Has "" (Entry.checks t.entries) (ofLines t.lines) (t.render put s) := by
  rw [← lines_entries]
  exact performed_of_limited h t.entries hs

/-- A table has a text if all its checks pass, and then the text of its lines. -/
lemma rendering_eq : t.rendering = Entry.checks t.entries >>= fun _ => .ok (ofLines t.lines) := by
  have h := t.performed_render (Sink.limited none) (Sink.has_empty none)
  rw [render_writeLine] at h
  rw [rendering]
  -- a sink without a limit is never full, so a failure comes from a check
  cases hwrite : t.write (.empty none) with
  | ok u s =>
    rw [hwrite] at h
    cases h with
    | whole s hchecks htext =>
      rw [hchecks, exceptOk_bind]
      exact congrArg Except.ok (htext.text.trans String.empty_append)
  | error e s =>
    rw [hwrite] at h
    cases h with
    | broken s e part rest hchecks htext hpart => rw [hchecks, exceptError_bind]
    | full s part rest hlimit htext hpart => exact absurd (allowed_none _) hlimit

lemma rendering_eq_ok {t : Table} {s : String} :
    t.rendering = .ok s ↔ Entry.checks t.entries = .ok () ∧ ofLines t.lines = s := by
  rw [rendering_eq, exceptBind_eq_ok]
  constructor
  · rintro ⟨u, hchecks, htext⟩
    exact ⟨hchecks, Except.ok.inj htext⟩
  · rintro ⟨hchecks, rfl⟩
    exact ⟨(), hchecks, rfl⟩

lemma Fits.rendering_eq {t : Table} (h : t.Fits) : t.rendering = .ok (ofLines t.lines) := by
  obtain ⟨s, hwrite, -, hlines⟩ := h.write_prints (.empty none) rfl
  rw [rendering, hwrite]
  exact congrArg (fun ls => Except.ok (ofLines ls)) hlines

/-- What has come of writing a table to a place that takes `n` bytes: how it ended and the text that
has been taken. -/
structure WrittenUpTo (n : Nat) (outcome : Except BenchError Unit) (taken : String) : Prop where
  /-- It ends well if the whole text fits. -/
  ok_iff : outcome = .ok () ↔ ∃ s, t.rendering = .ok s ∧ s.utf8ByteSize ≤ n
  /-- Otherwise it ends as the place is full. -/
  full : ∀ s, t.rendering = .ok s → n < s.utf8ByteSize → outcome = .error .sinkFull
  /-- What has been taken is the beginning of the text. -/
  part : ∀ s, t.rendering = .ok s → ∃ rest, s = taken ++ rest
  whole : outcome = .ok () → t.rendering = .ok taken
  bytes : taken.utf8ByteSize ≤ n

variable {t}

lemma WrittenUpTo.of_whole {n : Nat} {taken : String} (htaken : t.rendering = .ok taken)
    (hbytes : taken.utf8ByteSize ≤ n) : t.WrittenUpTo n (.ok ()) taken where
  ok_iff := iff_of_true rfl ⟨taken, htaken, hbytes⟩
  full s hs hfull := by
    obtain rfl := Except.ok.inj (htaken.symm.trans hs)
    omega
  part s hs := by
    obtain rfl := Except.ok.inj (htaken.symm.trans hs)
    exact ⟨"", String.append_empty.symm⟩
  whole _ := htaken
  bytes := hbytes

lemma WrittenUpTo.of_part {n : Nat} {e : BenchError} {taken rest : String}
    (hfull : ∀ s, t.rendering = .ok s → n < s.utf8ByteSize ∧ e = .sinkFull)
    (hpart : ofLines t.lines = taken ++ rest) (hbytes : taken.utf8ByteSize ≤ n) :
    t.WrittenUpTo n (.error e) taken where
  ok_iff := by
    refine iff_of_false (fun h => by cases h) ?_
    rintro ⟨s, hs, hle⟩
    have hlt := (hfull s hs).1
    omega
  full s hs _ := congrArg Except.error (hfull s hs).2
  part s hs := ⟨rest, (rendering_eq_ok.mp hs).2.symm.trans hpart⟩
  whole h := by cases h
  bytes := hbytes

lemma Performed.writtenUpTo {σ : Type} {n : Nat} {Has : σ → String → Prop} {view : σ → String}
    (hview : ∀ s a, Has s a → view s = a ∧ Allowed (some n) a) {x : Step BenchError σ Unit} {s : σ}
    (h : Performed (some n) Has "" (Entry.checks t.entries) (ofLines t.lines) (x s)) :
    t.WrittenUpTo n (x.result s) (view (x.state s)) := by
  have htaken {s' : σ} {a : String} (hs' : Has s' ("" ++ a)) :
      view s' = a ∧ a.utf8ByteSize ≤ n := by
    rw [String.empty_append] at hs'
    exact ⟨(hview s' a hs').1, allowed_some.mp (hview s' a hs').2⟩
  unfold Step.result Step.state
  cases hx : x s with
  | ok u s' =>
    rw [hx] at h
    cases h with
    | whole s' hchecks htext =>
      obtain ⟨hs', hbytes⟩ := htaken htext
      exact .of_whole (rendering_eq_ok.mpr ⟨hchecks, hs'.symm⟩) (hs'.symm ▸ hbytes)
  | error e s' =>
    rw [hx] at h
    cases h with
    | broken s' e part rest hchecks htext hpart =>
      obtain ⟨rfl, hbytes⟩ := htaken htext
      refine .of_part (fun text htext => ?_) hpart hbytes
      rw [(rendering_eq_ok.mp htext).1] at hchecks
      cases hchecks
    | full s' part rest hlimit htext hpart =>
      obtain ⟨rfl, hbytes⟩ := htaken htext
      refine .of_part (fun text htext => ⟨?_, rfl⟩) hpart hbytes
      rw [String.empty_append, (rendering_eq_ok.mp htext).2, allowed_some] at hlimit
      omega

/-- **Writing up to a limit**: a table is written to a place that takes `n` bytes, line by line or
in whatever pieces, exactly if its whole text has at most `n` bytes. Otherwise the place is full.
Either way it has taken the beginning of the text. -/
theorem written_up_to_limit (t : Table) (n : Nat) :
    t.render Sink.writeLine = t.write ∧ (t.Fits → t.rendering = .ok (ofLines t.lines)) ∧
      t.WrittenUpTo n (t.write.result (.empty (some n))) (t.write.state (.empty (some n))).text ∧
      ∀ d : Division, t.WrittenUpTo n ((t.render (d.put (some n))).result [])
        (String.join ((t.render (d.put (some n))).state [])) := by
  refine ⟨t.render_writeLine, Fits.rendering_eq, ?_, fun d => ?_⟩
  · rw [← t.render_writeLine]
    exact (t.performed_render (Sink.limited _) (Sink.has_empty _)).writtenUpTo
      fun s a h => ⟨h.text, h.allowed⟩
  · exact (t.performed_render (d.limited _) (Division.has_nil _)).writtenUpTo
      fun taken a h => ⟨h.text, h.allowed⟩

end Table

end ArrayBench
