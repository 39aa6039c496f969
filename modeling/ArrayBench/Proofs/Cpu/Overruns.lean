import ArrayBench.Proofs.Cpu.Runs

/-!
Operands and targets that are too short.

An operation reads one element of its second operand for each index of the result, and writes one
element of its target. If one of them is not there it fails, whichever loop it takes and whatever it
has written by then. The in-place form and the other forms read the same elements, so they fail
together.
-/

namespace ArrayBench

open NdArray (onBuffer)

namespace Step

variable {ε σ : Type} {α β : Type}

/-- The step fails from a state, whatever it has done by then. -/
def FailsAt (act : Step ε σ α) (s : σ) : Prop := ∃ e t, act s = .error e t

lemma failsAt_throw {x : Except ε α} {e : ε} (h : x = .error e) (f : α → Step ε σ β) (s : σ) :
    FailsAt ((liftM x : Step ε σ α) >>= f) s := ⟨e, s, refused h f s⟩

lemma FailsAt.first {act : Step ε σ α} {s : σ} (h : FailsAt act s) (f : α → Step ε σ β) :
    FailsAt (act >>= f) s := by
  obtain ⟨e, t, h⟩ := h
  exact ⟨e, t, bind_of_error h f⟩

lemma failsAt_bind {act : Step ε σ α} {f : α → Step ε σ β} {s : σ}
    (h : ∀ v t, act s = .ok v t → FailsAt (f v) t) : FailsAt (act >>= f) s := by
  cases hact : act s with
  | ok v t =>
    rw [FailsAt, bind_of_ok hact]
    exact h v t hact
  | error e t => exact ⟨e, t, bind_of_error hact f⟩

lemma failsAt_check {x : Except ε α} {f : α → Step ε σ β} {s : σ}
    (h : ∀ v, x = .ok v → FailsAt (f v) s) : FailsAt ((liftM x : Step ε σ α) >>= f) s := by
  cases x with
  | ok v => exact h v rfl
  | error e => exact failsAt_throw rfl f s

lemma forM_failsAt {ι : Type} {is : List ι} {body : ι → Step ε σ Unit} {i : ι} (hi : i ∈ is)
    (h : ∀ s, FailsAt (body i) s) (s : σ) : FailsAt (is.forM body) s := by
  induction is generalizing s with
  | nil => cases hi
  | cons j is ih =>
    rcases List.mem_cons.mp hi with rfl | hi
    · exact (h s).first _
    · exact failsAt_bind fun _ t _ => ih hi t

end Step

open Step (FailsAt failsAt_bind failsAt_check forM_failsAt)

lemma Buffer.read_of_le {α : Type} {x : Buffer α} {i : Nat} (h : x.size ≤ i) :
    x.read i = .error (.outOfRange i x.size) := by
  have hnone : x.get? i = none := by
    rw [← getElem?_toArray, Array.getElem?_eq_none_iff, size_toArray]
    exact h
  rw [read, hnone]

lemma Buffer.size_of_modify {α : Type} {x y : Buffer α} {i : Nat} {f : α → α} {u : Unit}
    (h : Buffer.modify i f x = .ok u y) : y.size = x.size := by
  rw [modify_apply] at h
  split_ifs at h
  cases h
  rw [← size_toArray, ← size_toArray]
  exact Array.size_modify

/-- A loop that changes one element in each round fails if one of them is not there. -/
lemma Buffer.forM_modify_failsAt {ι α : Type} {is : List ι} {p : ι → Nat} {g : ι → α → α} {i : ι}
    (hi : i ∈ is) {x : Buffer α} (h : x.size ≤ p i) :
    FailsAt (is.forM fun i => Buffer.modify (p i) (g i)) x := by
  induction is generalizing x with
  | nil => cases hi
  | cons j is ih =>
    rcases List.mem_cons.mp hi with rfl | hi
    · have hmodify : FailsAt (Buffer.modify (p i) (g i)) x :=
        ⟨_, _, by rw [modify_apply, if_neg (Nat.not_lt.mpr h)]⟩
      exact hmodify.first _
    · exact failsAt_bind fun _ y hy => ih hi (by rwa [size_of_modify hy])

lemma NdArray.onBuffer_failsAt {d : DType} {act : BufferStep d.Elem Unit}
    {a : NdArray} (h : ∀ x, a.storage.as d = .ok x → FailsAt act x) :
    FailsAt (onBuffer d act) a := by
  cases has : a.storage.as d with
  | error e => exact ⟨e, a, by simp only [onBuffer, has]⟩
  | ok x =>
    obtain ⟨e, y, hy⟩ := h x has
    exact ⟨e, ⟨⟨d, y⟩, a.layout⟩, by simp only [onBuffer, has, hy]⟩

namespace Cpu

/-! ### Loops -/

section Loops

variable {α β γ : Type} {l ly : Layout} {y : Buffer β} {ix : List Nat}

lemma zipInPlace_failsAt (f : α → β → α) (hs : ly.shape = l.shape) (hix : ix ∈ l.shape.indices)
    (h : y.size ≤ ly.offsetAt ix) (x : Buffer α) : FailsAt (zipInPlace f l y ly) x := by
  have hloop : ∀ x : Buffer α, FailsAt (Strided.zipInPlace f l y ly) x := by
    rw [Strided.zipInPlace, forM_zip_offsets hs]
    exact forM_failsAt hix fun x => Step.failsAt_throw (Buffer.read_of_le h) _ x
  rw [zipInPlace_strided f hs]
  split_ifs
  · exact failsAt_bind fun _ _ _ => failsAt_bind fun _ _ _ => failsAt_bind fun _ _ _ => hloop _
  · exact hloop x

lemma zipInto_failsAt (f : α → β → γ) {lx : Layout} {x : Buffer α} (hsx : lx.shape = l.shape)
    (hsy : ly.shape = l.shape) (hix : ix ∈ l.shape.indices) (h : y.size ≤ ly.offsetAt ix)
    (z : Buffer γ) : FailsAt (zipInto f x lx y ly l) z := by
  have hloop : ∀ z : Buffer γ, FailsAt (Strided.zipInto f x lx y ly l) z := by
    rw [Strided.zipInto, forM_zip_zip_offsets hsx hsy]
    exact forM_failsAt hix fun z => failsAt_bind fun _ _ _ =>
      Step.failsAt_throw (Buffer.read_of_le h) _ _
  rw [zipInto_strided f hsx hsy]
  split_ifs
  · exact failsAt_bind fun _ _ _ => failsAt_bind fun _ _ _ => failsAt_bind fun _ _ _ =>
      failsAt_bind fun _ _ _ => hloop _
  · exact hloop z

lemma guarded_failsAt {short : Bool} {n : Nat} {loop : BufferStep α Unit} {x : Buffer α}
    (h : FailsAt loop x) : FailsAt (guarded short n loop) x := by
  unfold guarded
  split_ifs
  · exact failsAt_check fun _ _ => h
  · exact h

lemma loop_failsAt (g : List Nat → α → α) {x : Buffer α} (h : ¬ l.Within x.size) :
    FailsAt (l.shape.indices.forM fun ix => Buffer.modify (l.offsetAt ix) (g ix)) x := by
  simp only [Layout.Within, not_forall, Nat.not_lt] at h
  obtain ⟨ix, hix, hle⟩ := h
  exact Buffer.forM_modify_failsAt hix hle

end Loops

/-! ### Operations -/

variable {op : BinaryOp} {a b : NdArray} {ix : List Nat}

lemma size_of_as {s : Storage} {d : DType} {y : Buffer d.Elem} (h : s.as d = .ok y) :
    y.size = s.size := by
  obtain ⟨e, z⟩ := s
  by_cases he : e = d
  · subst he
    rw [Storage.as_self] at h
    rw [← Except.ok.inj h, Storage.size]
  · have hnone : (⟨e, z⟩ : Storage).as? d = none := dif_neg he
    rw [Storage.as, hnone] at h
    cases h

lemma shows_of_below {l m : Layout} {t : Shape} (h : Shape.Below l.shape t)
    (hm : l.broadcastTo t = .ok m) : Layout.Shows l m t := by
  obtain ⟨m', hm', hshows⟩ := Layout.broadcastTo_of_below h
  obtain rfl := Except.ok.inj (hm.symm.trans hm')
  exact hshows

lemma binaryInPlace_failsAt (hix : ix ∈ a.shape.indices)
    (h : b.storage.size ≤ b.layout.offsetAt (b.shape.restrict ix)) :
    FailsAt (binaryInPlace op b) a := by
  refine failsAt_check fun d _ => failsAt_check fun _ _ => failsAt_check fun s hs =>
    failsAt_check fun _ hshape => failsAt_check fun m hm => failsAt_check fun y hy => ?_
  obtain rfl := checkShape_eq_ok.mp hshape
  have hshows := shows_of_below (Shape.broadcast_below hs).2 hm
  refine NdArray.onBuffer_failsAt fun x _ => zipInPlace_failsAt op.within hshows.shape hix ?_ x
  rw [size_of_as hy, hshows.offsetAt ix hix]
  exact h

lemma binaryInto_failsAt {out : NdArray} (hix : ix ∈ out.shape.indices)
    (h : b.storage.size ≤ b.layout.offsetAt (b.shape.restrict ix)) :
    FailsAt (binaryInto op a b) out := by
  refine failsAt_check fun d _ => failsAt_check fun _ _ => failsAt_check fun s hs =>
    failsAt_check fun _ hshape => failsAt_check fun la hla => failsAt_check fun lb hlb =>
    failsAt_check fun x _ => failsAt_check fun y hy => ?_
  obtain rfl := checkShape_eq_ok.mp hshape
  obtain ⟨hba, hbb⟩ := Shape.broadcast_below hs
  have hsa := (shows_of_below hba hla).shape
  have hshows := shows_of_below hbb hlb
  refine NdArray.onBuffer_failsAt fun z _ => zipInto_failsAt op.eval hsa hshows.shape hix ?_ z
  rw [size_of_as hy, hshows.offsetAt ix hix]
  exact h

/-- Only the second array of an operation on two arrays can be too short. -/
lemma exists_missing {ch : Change} {s : Shape} (h : ¬ ch.Readable s) :
    ∃ op b, ch = .binary op b ∧
      ∃ ix ∈ s.indices, b.storage.size ≤ b.layout.offsetAt (b.shape.restrict ix) := by
  simp only [Change.Readable, Layout.WithinAs, not_forall, Nat.not_lt] at h
  obtain ⟨b, hb, ix, hix, hmissing⟩ := h
  cases ch with
  | binary op b' =>
    obtain rfl := List.mem_singleton.mp hb
    exact ⟨op, b, rfl, ix, hix, hmissing⟩
  | scalar op v => cases hb
  | unary op => cases hb

lemma change_failsAt {ch : Change} (h : ¬ ch.Readable a.shape) : FailsAt (change ch) a := by
  obtain ⟨op, b, rfl, ix, hix, hmissing⟩ := exists_missing h
  exact binaryInPlace_failsAt hix hmissing

lemma computeInto_failsAt {ch : Change} {out : NdArray} (h : ¬ ch.Readable out.shape) :
    FailsAt (computeInto (ch.call a)) out := by
  obtain ⟨op, b, rfl, ix, hix, hmissing⟩ := exists_missing h
  exact binaryInto_failsAt hix hmissing

end Cpu

end ArrayBench
