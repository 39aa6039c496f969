import ArrayBench.Proofs.Backend.Recorded
import ArrayBench.Proofs.Bench.Prepared
import ArrayBench.Proofs.Bench.Upkeep
import ArrayBench.Proofs.Cpu.Independence
import ArrayBench.Proofs.Cpu.InPlace
import ArrayBench.Proofs.Layout.Apart

/-!
Prepared calls repeat themselves.

A call that writes an array of its own leaves its operands alone, and nothing reads what it has
written. A change writes its first operand, but filling it again gives every element its first
value back. So a call after any number of rounds is as good as the first one: it is made on the same
elements, and if it succeeds it gives the same result.
-/

namespace ArrayBench

open NdArray (SameFrame laid)

/-! ### Filled operands -/

lemma DType.convert_self {d : DType} (v : d.Elem) : DType.convert d v = v := by
  cases d with
  | int t => exact Word.ofInt_val v
  | float p => cases p <;> rfl

lemma Layout.elemAt_filled {α : Type} [Inhabited α] {l : Layout} {n : Nat} (h : l.Within n) (v : α)
    {ix : List Nat} (hix : ix ∈ l.shape.indices) : l.elemAt (.filled n v) ix = v := by
  rw [elemAt, Buffer.get?, if_pos (h ix hix), Option.getD_some]

namespace Prepared

lemma operand_eq (o : Operand) (d : DType) (v : Float) :
    ∃ l : Layout, operand o d v = laid (.filled o.dims.numel (d.ofFloat v)) l ∧
      l.offsets.Nodup := by
  have hfull : NdArray.full o.dims d (.ofFloat d v) =
      laid (.filled o.dims.numel (d.ofFloat v)) (.contiguous o.dims) :=
    congrArg (fun u => laid (.filled o.dims.numel u) (.contiguous o.dims)) (DType.convert_self _)
  have hn := Layout.nodup_offsets_contiguous o.dims
  unfold operand
  rw [hfull]
  split
  · exact ⟨_, rfl, (Layout.offsets_transposed_perm _).nodup_iff.mpr hn⟩
  · exact ⟨_, rfl, hn⟩

/-- Filling an operand again gives all its elements their first value back. -/
lemma refill {o : Operand} {d : DType} {v : Float} {a : NdArray}
    (ha : SameFrame (operand o d v) a) :
    ∃ b, NdArray.fill (.ofFloat d v) a = .ok () b ∧ SameFrame a b ∧ b.Alike (operand o d v) := by
  obtain ⟨l, heq, hn⟩ := operand_eq o d v
  have hwf := operand_wellFormed o d v
  rw [heq] at ha hwf ⊢
  obtain ⟨⟨e, x⟩, m⟩ := a
  obtain rfl : e = d := ha.dtype
  obtain rfl : m = l := ha.layout
  have hx := (ha.wellFormed hwf).within
  obtain ⟨y, hy, hxy⟩ := NdArray.fill_writes (.ofFloat e v) hx
  refine ⟨_, hy, NdArray.sameFrame_of_edited hxy m, ?_⟩
  -- the operand as it was prepared is the same array with no edits made
  have hkept : Buffer.Edited (Edit.place m.offsetAt []) _ _ :=
    Buffer.Edited.refl (.filled o.dims.numel (e.ofFloat v))
  refine NdArray.alike_of_edited hxy hkept rfl (fun _ => Edit.mem_each) nofun hx hwf.within hn hn
    fun ix hix => ?_
  have hvalue : m.elemAt (.filled o.dims.numel (e.ofFloat v)) ix = e.ofFloat v :=
    Layout.elemAt_filled hwf.within _ hix
  rw [Edit.effect_each m.shape.nodup_indices _ hix, Edit.effect_nil, hvalue]
  exact DType.convert_self _

lemma elems_of_alike {o : Operand} {d : DType} {v : Float} {a : NdArray}
    (h : a.Alike (operand o d v)) :
    a.toElems d = .ok (List.replicate a.numel (d.ofFloat v)) := by
  obtain ⟨l, heq, -⟩ := operand_eq o d v
  have hwf := operand_wellFormed o d v
  rw [heq] at h hwf
  have hsame : l.shape.indices.map (l.elemAt (.filled o.dims.numel (d.ofFloat v))) =
      l.shape.indices.map fun _ => d.ofFloat v :=
    List.map_congr_left fun ix hix => Layout.elemAt_filled hwf.within _ hix
  have hnumel : a.numel = l.shape.numel := congrArg Shape.numel h.shape
  rw [h.elems, NdArray.toElems_laid hwf.within, hsame, List.map_const', Shape.length_indices,
    hnumel]

/-! ### What repeats -/

/-- What a prepared call is made on: its operands as they were prepared, but for the target of a
change, which only reads as it was prepared. -/
def Receives : Prepared → List Value → Prop
  | call c _, vs => vs = c.args
  | change ch target _, vs => ∃ a : NdArray, a.Alike target ∧ vs = .array a :: ch.args
  | sum a, vs => vs = [.array a]
  | sumAxis _ a, vs => vs = [.array a]

def answer : Prepared → Except ArrayError Value
  | call c _ => .array <$> Cpu.compute c
  | change ch target _ => .array <$> Cpu.compute (ch.call target)
  | sum a => .scalar <$> Cpu.sum a
  | sumAxis k a => .array <$> Cpu.sumAxis a k

/-- A noted call that may as well be the first one. -/
structure Repeats (p : Prepared) (e : Event) : Prop where
  operands : p.Receives e.operands
  result : ∀ v, e.result = .ok v → ∃ r, p.answer = .ok r ∧ v.Alike r

/-- Between rounds the array that is written has its type and its layout, and the `n` events since
`base` are repetitions. -/
structure Kept (base : List Event) (p : Prepared) (n : Nat)
    (t : Session (Unit × Record) × NdArray) : Prop where
  frame : SameFrame p.array t.2
  events : ∃ es, t.1.backend.2.events.toList = base ++ es ∧ es.length = n ∧ ∀ e ∈ es, p.Repeats e

section Steps

variable {base : List Event} {p : Prepared} {n : Nat} {t : Session (Unit × Record) × NdArray}

lemma Kept.push (h : p.Kept base n t) {s : Session (Unit × Record)} {a : NdArray} {e : Event}
    (hevents : s.backend.2.events.toList = t.1.backend.2.events.toList ++ [e])
    (ha : SameFrame t.2 a) (he : p.Repeats e) : p.Kept base (n + 1) (s, a) := by
  obtain ⟨es, hes, rfl, hall⟩ := h.events
  refine ⟨h.frame.trans ha, es ++ [e], ?_, List.length_append, fun e' he' => ?_⟩
  · rw [hevents, hes, List.append_assoc]
  · rcases List.mem_append.mp he' with he' | he'
    · exact hall e' he'
    · rwa [List.mem_singleton.mp he']

lemma onBackend_state {σ α : Type} (x : Step ArrayError σ α) (s : Session σ) (a : NdArray) :
    (onBackend x).state (s, a) = ({ s with backend := x.state s.backend }, a) := by
  simp only [Step.state, onBackend, bind, EStateM.bind, Step.zoom]
  cases x s.backend <;> rfl

lemma onBoth_state {σ : Type} (x : Step ArrayError (σ × NdArray) Unit) (s : Session σ)
    (a : NdArray) :
    (onBoth x).state (s, a) =
      ({ s with backend := (x.state (s.backend, a)).1 }, (x.state (s.backend, a)).2) := by
  simp only [Step.state, onBoth, Step.zoom]
  cases x (s.backend, a) <;> rfl

lemma Kept.observe {α : Type} (h : p.Kept base n t) {k : Kernel} {d : DType} {args : List Value}
    {x : Except ArrayError α} {value : α → Value} (hargs : p.Receives args)
    (hx : ∀ v, x = .ok v → ∃ r, p.answer = .ok r ∧ (value v).Alike r) :
    p.Kept base (n + 1) ((onBackend (Backend.observe k .allocating d args (fun v _ => value v)
      (Step.ofExcept x : Step ArrayError Unit α))).state t) := by
  obtain ⟨s, a⟩ := t
  obtain ⟨e, r, hevents, hform, heargs, hresult, hstate⟩ := Backend.observe_notes k .allocating d
    args (fun v _ => value v) (Step.ofExcept x : Step ArrayError Unit α) () s.backend.2
  have hnoted : (Backend.observe k .allocating d args (fun v _ => value v)
      (Step.ofExcept x : Step ArrayError Unit α)).state s.backend = ((), r) := by
    rcases hstate with hstate | hstate <;> exact hstate
  rw [onBackend_state, hnoted]
  refine h.push hevents (.refl _) ⟨?_, fun v hv => ?_⟩
  · rwa [Event.operands, hform, heargs]
  · obtain ⟨w, u, hact, rfl⟩ := hresult v hv
    rw [Backend.ofExcept_apply] at hact
    cases x with
    | ok w' =>
      obtain ⟨rfl, -⟩ := EStateM.Result.ok.inj hact
      exact hx w' rfl
    | error e' => cases hact

lemma Kept.observeWrite (h : p.Kept base n t) {k : Kernel} {form : Form} {d : NdArray → DType}
    {args : List Value} {u : Update} (hframe : SameFrame t.2 (u.state t.2))
    (hargs : ∀ e : Event, e.form = form → e.args = args ++ [.array t.2] → p.Receives e.operands)
    (hu : ∀ b, u t.2 = .ok () b → ∃ r, p.answer = .ok r ∧ (Value.array b).Alike r) :
    p.Kept base (n + 1) ((onBoth (Backend.observeWrite k form d args
      (Backend.onArray u : Step ArrayError (Unit × NdArray) Unit))).state t) := by
  obtain ⟨s, a⟩ := t
  obtain ⟨e, r, hevents, hform, heargs, hresult, hstate⟩ := Backend.observe_notes k form (d a)
    (args ++ [.array a]) (fun _ v => .array v.2)
    (Backend.onArray u : Step ArrayError (Unit × NdArray) Unit) ((), a) s.backend.2
  have hact := Backend.onSnd_apply u () a
  have hafter : (Backend.onArray u : Step ArrayError (Unit × NdArray) Unit).state ((), a) =
      ((), u.state a) := by
    simp only [Step.state, Backend.onArray, hact]
    cases u a <;> rfl
  have hrepeats : p.Repeats e := by
    refine ⟨hargs e hform heargs, fun v hv => ?_⟩
    obtain ⟨w, b, hok, rfl⟩ := hresult v hv
    rw [Backend.onArray, hact] at hok
    cases hua : u a with
    | ok w' b' =>
      rw [hua] at hok
      obtain ⟨-, rfl⟩ := EStateM.Result.ok.inj hok
      exact hu b' hua
    | error e' b' =>
      rw [hua] at hok
      cases hok
  rw [onBoth_state, Backend.observeWrite_state]
  rcases hstate with hstate | hstate
  -- a fault may have struck before the call reached the array
  · rw [hstate]
    exact h.push hevents (.refl _) hrepeats
  · rw [hstate, hafter]
    exact h.push hevents hframe hrepeats

end Steps

/-! ### What a round keeps -/

section Rounds

variable (base : List Event) (reset : ResetPolicy)

lemma keeps_call {c : Call} {out : NdArray} (hc : c.WellFormed) (hout : out.WellFormed)
    (hn : out.layout.offsets.Nodup) :
    ((call c out).workload Backend.cpu.recording).Keeps reset ((call c out).Kept base)
      ((call c out).Kept base) := by
  refine Workload.keeps_of_calls rfl (fun _ t ht => .of_state ?_) (fun _ t ht => .of_state ?_) reset
  · have hframe : SameFrame out t.2 := ht.frame
    have hwf := hframe.wellFormed hout
    change Kept base _ _ ((onBoth (Backend.observeWrite c.kernel .buffered
      (fun _ => Backend.leadType c) c.args (Backend.onArray (Cpu.computeInto c)))).state t)
    refine ht.observeWrite (Cpu.computeInto_settles hc hwf).sameFrame (fun e hform hargs => ?_)
      fun b hb => ?_
    · rw [Event.operands, hform, hargs]
      exact List.dropLast_concat
    · obtain ⟨b', r, hb', hr, -, halike⟩ :=
        Cpu.forms_of_checks hc hwf ((Cpu.computeInto_ok_iff hc hwf).mp ⟨b, hb⟩)
      obtain ⟨-, rfl⟩ := EStateM.Result.ok.inj (hb.symm.trans hb')
      exact ⟨.array r, by rw [answer, hr]; rfl, .array (halike (hframe.layout ▸ hn))⟩
  · exact ht.observe rfl fun r hr => ⟨.array r, by rw [answer, hr]; rfl, .refl _⟩

lemma keeps_sum (a : NdArray) :
    ((sum a).workload Backend.cpu.recording).Keeps reset ((sum a).Kept base) ((sum a).Kept base) :=
  Workload.keeps_allocatingOnly
    (fun _ _ ht => ht.observe rfl fun v hv => ⟨.scalar v, by rw [answer, hv]; rfl, .refl _⟩) reset

lemma keeps_sumAxis (k : Nat) (a : NdArray) :
    ((sumAxis k a).workload Backend.cpu.recording).Keeps reset ((sumAxis k a).Kept base)
      ((sumAxis k a).Kept base) :=
  Workload.keeps_allocatingOnly
    (fun _ _ ht => ht.observe rfl fun r hr => ⟨.array r, by rw [answer, hr]; rfl, .refl _⟩) reset

lemma args_call (ch : Change) (a : NdArray) : (ch.call a).args = .array a :: ch.args := by
  cases ch <;> rfl

/-- The call on an operand that reads like the target gives a result that reads like the answer. -/
lemma answer_of_call {ch : Change} {a target r : NdArray} {v : Scalar} (hch : ch.WellFormed)
    (ha : a.WellFormed) (htarget : target.WellFormed) (halike : a.Alike target)
    (hr : Cpu.compute (ch.call a) = .ok r) :
    ∃ r', (change ch target v).answer = .ok r' ∧ (Value.array r).Alike r' := by
  have hsame := Cpu.compute_sameAnswer (ch.call_alike halike) (wellFormed_call hch ha)
    (wellFormed_call hch htarget)
  rw [hr] at hsame
  cases hr' : Cpu.compute (ch.call target) with
  | ok r' =>
    rw [hr'] at hsame
    exact ⟨.array r', by rw [answer, hr']; rfl, .array hsame⟩
  | error e =>
    rw [hr'] at hsame
    cases hsame

lemma keeps_change {ch : Change} (hch : ch.WellFormed) (o : Operand) (d : DType) (v : Float) :
    ((change ch (operand o d v) (.ofFloat d v)).workload Backend.cpu.recording).Keeps
      .beforeEachCall ((change ch (operand o d v) (.ofFloat d v)).Kept base)
      fun n t => (change ch (operand o d v) (.ofFloat d v)).Kept base n t ∧
        t.2.Alike (operand o d v) where
  reset n t ht := by
    obtain ⟨s, a⟩ := t
    obtain ⟨b, hb, hframe, halike⟩ := refill ht.frame
    refine ⟨(s, b), ?_, ⟨ht.frame.trans hframe, ht.events⟩, halike⟩
    exact (Backend.onSnd_apply _ s a).trans (by rw [hb]; rfl)
  buffered := by
    rintro n t ⟨ht, halike⟩
    have hframe : SameFrame (operand o d v) t.2 := ht.frame
    have hwf := hframe.wellFormed (operand_wellFormed o d v)
    refine .of_state ?_
    change Kept base _ _ ((onBoth (Backend.observeWrite ch.kernel .inPlace NdArray.dtype ch.args
      (Backend.onArray (Cpu.change ch)))).state t)
    refine ht.observeWrite (Cpu.change_settles hch hwf).sameFrame (fun e hform hargs => ?_)
      fun b hb => ?_
    · refine ⟨t.2, halike, ?_⟩
      rw [Event.operands, hform, hargs]
      simp
    -- no two elements of an operand share a position, so the change is the call on its target
    · obtain ⟨l, heq, hn⟩ := operand_eq o d v
      have hlayout : t.2.layout = l := hframe.layout.trans (congrArg NdArray.layout heq)
      obtain ⟨y, r, -, hr, -, -, hsame⟩ := Cpu.change_ok hwf hb
      obtain ⟨r', hanswer, hr'⟩ :=
        answer_of_call (v := .ofFloat d v) hch hwf (operand_wellFormed o d v) halike hr
      exact ⟨r', hanswer, (Value.Alike.array (hsame (hlayout ▸ hn))).trans hr'⟩
  allocating := by
    rintro n t ⟨ht, halike⟩
    have hwf := ht.frame.wellFormed (operand_wellFormed o d v)
    exact .of_state (ht.observe ⟨t.2, halike, args_call ch t.2⟩ fun r hr =>
      answer_of_call hch hwf (operand_wellFormed o d v) halike hr)

end Rounds

end Prepared

end ArrayBench
