import ArrayBench.Bench.Harness
import ArrayBench.Proofs.Backend.LikeCpu
import ArrayBench.Proofs.Bench.Steady
import ArrayBench.Proofs.Cpu.Safety

/-!
Prepared calls are steady.

From call to call only the elements of the array that is written change, and the checks do not look
at elements. So on a backend that answers like the plain one the outcome of a prepared call is that
of its checks, whatever the calls before it have written.
-/

namespace ArrayBench

open NdArray (SameFrame Settles Delivers)

/-- A result without its value. -/
def settle {ε α : Type} (x : Except ε α) : Except ε Unit := (fun _ => ()) <$> x

lemma settle_eq_ok {ε α : Type} {x : Except ε α} : settle x = .ok () ↔ ∃ v, x = .ok v := by
  cases x with
  | ok v => exact ⟨fun _ => ⟨v, rfl⟩, fun _ => rfl⟩
  | error e =>
    constructor
    · rintro ⟨⟩
    · rintro ⟨v, ⟨⟩⟩

lemma NdArray.Delivers.settle_eq {x : Except ArrayError NdArray}
    {o : Except ArrayError (Shape × DType)} (h : Delivers x o) : settle x = settle o := by
  cases o with
  | ok o =>
    obtain ⟨r, hr, -⟩ := h
    rw [hr]
    rfl
  | error e =>
    rw [h.2]
    rfl

namespace Prepared

/-! ### Preparing -/

lemma operand_dtype (o : Operand) (d : DType) (v : Float) : (operand o d v).dtype = d := by
  unfold operand
  split <;> rfl

lemma operand_shape (o : Operand) (d : DType) (v : Float) :
    (operand o d v).shape = o.logical := by
  unfold operand Operand.logical
  split
  · rw [NdArray.shape, NdArray.transposed, Layout.shape_transposed, NdArray.full,
      Layout.shape_contiguous]
  · exact Layout.shape_contiguous o.dims

lemma operand_wellFormed (o : Operand) (d : DType) (v : Float) : (operand o d v).WellFormed := by
  have hfull := NdArray.wellFormed_full o.dims d (.ofFloat d v)
  unfold operand
  split
  · exact hfull.transposed
  · exact hfull

lemma build_of_kernel (c : Case) (dispatch : Dispatch) {P : Float → Float → Prepared}
    (hP : ∀ v w, ofKernel c.dtype v w c.geometry.output c.op.inPlace dispatch.kernel
      c.geometry.operands = some (P v w)) :
    ∃ v w, build c dispatch = .ok (P v w) := by
  cases hvalues : Fill.operands c.op.category dispatch.kernel c.geometry.family c.dtype with
  | mk v w => exact ⟨v, w, by simp only [build, hvalues, hP]⟩

lemma empty_dtype (s : Shape) (d : DType) : (NdArray.empty s d).dtype = d := rfl

lemma empty_shape (s : Shape) (d : DType) : (NdArray.empty s d).shape = s :=
  Layout.shape_contiguous s

/-! ### Steps between calls -/

variable {σ : Type}

/-- The states between calls: the backend is live, and the array differs from the first one in its
elements only. -/
def Between (live : σ → Prop) (a : NdArray) (t : Session σ × NdArray) : Prop :=
  live t.1.backend ∧ SameFrame a t.2

variable {live : σ → Prop} {next : Form → σ → σ → Prop} {out : NdArray} {f : Form}

def view (t : Session σ × NdArray) : σ := t.1.backend

variable (live next out) in
abbrev SettledCall (fs : List Form) (fate : Except ArrayError Unit)
    (x : Step ArrayError (Session σ × NdArray) Unit) : Prop :=
  Settled (Between live out) view next fs fate x

lemma onBackend_ending {α : Type} {x : Step ArrayError σ α} {v : Except ArrayError α}
    {s : Session σ} {t : σ} (h : x s.backend = ending v t) (a : NdArray) :
    onBackend x (s, a) = ending (settle v) ({ s with backend := t }, a) := by
  simp only [onBackend, bind, EStateM.bind, Step.zoom, h]
  cases v <;> rfl

lemma onBoth_ending {x : Step ArrayError (σ × NdArray) Unit} {v : Except ArrayError Unit}
    {s : Session σ} {t : σ} {a b : NdArray} (h : x (s.backend, a) = ending v (t, b)) :
    onBoth x (s, a) = ending v ({ s with backend := t }, b) := by
  simp only [onBoth, Step.zoom, h]
  cases v <;> rfl

lemma onBackend_settled {α : Type} {x : Step ArrayError σ α} {v : Except ArrayError α}
    {s : Session σ} {a : NdArray} (ha : SameFrame out a)
    (hx : ∃ t, live t ∧ next f s.backend t ∧ x s.backend = ending v t) :
    ∃ u, Between live out u ∧ Calls next [f] (view (s, a)) (view u) ∧
      onBackend x (s, a) = ending (settle v) u := by
  obtain ⟨t, ht, hn, hxt⟩ := hx
  exact ⟨({ s with backend := t }, a), ⟨ht, ha⟩, .cons hn (.nil _), onBackend_ending hxt a⟩

lemma onBoth_settled {x : Step ArrayError (σ × NdArray) Unit} {u : Update}
    {check : Except ArrayError Unit}
    (hx : ∀ s a, live s → ∃ t, live t ∧ next f s t ∧ x (s, a) = beside t (u a))
    (hu : ∀ a, SameFrame out a → Settles u check a) :
    SettledCall live next out [f] check (onBoth x) := by
  rintro ⟨s, a⟩ ⟨hs, ha⟩
  obtain ⟨t, ht, hn, hxa⟩ := hx s.backend a hs
  have hua := hu a ha
  cases check with
  | ok v =>
    obtain ⟨b, hb, -, hab⟩ := hua
    rw [hb] at hxa
    exact ⟨({ s with backend := t }, b), ⟨ht, ha.trans hab⟩, .cons hn (.nil _),
      onBoth_ending (v := .ok v) hxa⟩
  | error e =>
    rw [hua.2] at hxa
    exact ⟨({ s with backend := t }, a), ⟨ht, ha⟩, .cons hn (.nil _),
      onBoth_ending (v := .error e) hxa⟩

lemma pure_settled : SettledCall live next out [] (.ok ()) (pure ()) :=
  fun t ht => ⟨t, ht, .nil _, rfl⟩

lemma fill_settled (hout : out.WellFormed) (v : Scalar) :
    SettledCall live next out [] (.ok ()) (NdArray.fill v).onSnd := by
  rintro ⟨s, a⟩ ⟨hs, ha⟩
  obtain ⟨b, hb, -, hab⟩ := NdArray.fill_settles v (ha.wellFormed hout)
  refine ⟨(s, b), ⟨hs, ha.trans hab⟩, .nil _, ?_⟩
  rw [Backend.onSnd_apply, hb]
  rfl

variable {b : Backend σ}

lemma steady_call (hb : b.LikeCpu live next) {c : Call} (hc : c.WellFormed)
    (hout : out.WellFormed) :
    ((call c out).workload b).Steady (Between live out) view next .buffered (c.checks out)
      (settle c.outline) where
  reset := pure_settled
  buffered := onBoth_settled (fun s a => hb.computeInto c s a) fun a ha => by
    rw [← c.checks_congr ha.dtype ha.shape]
    exact Cpu.computeInto_settles hc (ha.wellFormed hout)
  allocating := by
    rintro ⟨s, a⟩ ⟨hs, ha⟩
    rw [← (Cpu.compute_delivers hc).settle_eq]
    exact onBackend_settled ha (hb.compute c s.backend hs)

lemma wellFormed_call {ch : Change} {a : NdArray} (hch : ch.WellFormed) (ha : a.WellFormed) :
    (ch.call a).WellFormed := by
  cases ch with
  | binary op b => exact Call.wellFormed_binary.mpr ⟨ha, Change.wellFormed_binary.mp hch⟩
  | scalar op s => exact Call.wellFormed_scalar.mpr ha
  | unary op => exact Call.wellFormed_unary.mpr ha

lemma steady_change (hb : b.LikeCpu live next) {ch : Change} (hch : ch.WellFormed)
    (hout : out.WellFormed) (v : Scalar) :
    ((change ch out v).workload b).Steady (Between live out) view next .inPlace (ch.checks out)
      (settle (ch.call out).outline) where
  reset := fill_settled hout v
  buffered := onBoth_settled (fun s a => hb.change ch s a) fun a ha => by
    rw [← ch.checks_congr ha.dtype ha.shape]
    exact Cpu.change_settles hch (ha.wellFormed hout)
  allocating := by
    rintro ⟨s, a⟩ ⟨hs, ha⟩
    have hwf := wellFormed_call hch (ha.wellFormed hout)
    rw [← ch.outline_call_congr ha.dtype ha.shape, ← (Cpu.compute_delivers hwf).settle_eq]
    exact onBackend_settled ha (hb.compute (ch.call a) s.backend hs)

variable (out)

lemma settled_sum (hb : b.LikeCpu live next) {a : NdArray} (ha : a.WellFormed) :
    SettledCall live next out [.allocating] (.ok ()) ((sum a).workload b).allocating := by
  rintro ⟨s, x⟩ ⟨hs, hx⟩
  obtain ⟨v, hv, -⟩ := Cpu.sum_ok ha
  have hcall := hb.sum a s.backend hs
  rw [hv] at hcall
  exact onBackend_settled hx hcall

lemma settled_sumAxis (hb : b.LikeCpu live next) {a : NdArray} (ha : a.WellFormed) (k : Nat) :
    SettledCall live next out [.allocating] (settle (a.shape.withoutAxis k))
      ((sumAxis k a).workload b).allocating := by
  rintro ⟨s, x⟩ ⟨hs, hx⟩
  have hsettle : settle (a.shape.withoutAxis k) = settle (Cpu.sumAxis a k) := by
    rw [(Cpu.sumAxis_delivers ha k).settle_eq]
    cases a.shape.withoutAxis k <;> rfl
  rw [hsettle]
  exact onBackend_settled hx (hb.sumAxis a k s.backend hs)

end Prepared

end ArrayBench
