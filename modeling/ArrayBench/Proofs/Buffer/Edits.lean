import Mathlib.Data.List.Nodup
import ArrayBench.Buffer
import ArrayBench.Proofs.Step

/-!
Lists of edits.

Whatever writes to a buffer does it by edits: a place, and what becomes of the element there. A list
of edits acts on each place by itself, as the edits at that place one after the other, so a run over
a buffer is known as soon as its edits are. The places may be positions of the storage or indices
of an array. Renaming them changes nothing as long as no two of them fall together.
-/

namespace ArrayBench

/-- A place, and what becomes of the element there. -/
abbrev Edit (κ α : Type) := κ × (α → α)

namespace Edit

variable {κ ι α : Type}

def place (f : ι → κ) (es : List (Edit ι α)) : List (Edit κ α) := es.map fun e => (f e.1, e.2)

@[simp] lemma place_nil (f : ι → κ) : place f ([] : List (Edit ι α)) = [] := rfl

@[simp] lemma place_cons (f : ι → κ) (e : Edit ι α) (es : List (Edit ι α)) :
    place f (e :: es) = (f e.1, e.2) :: place f es := rfl

def each (is : List ι) (g : ι → α → α) : List (Edit ι α) := is.map fun i => (i, g i)

@[simp] lemma each_nil (g : ι → α → α) : each [] g = [] := rfl

@[simp] lemma each_cons (i : ι) (is : List ι) (g : ι → α → α) :
    each (i :: is) g = (i, g i) :: each is g := rfl

lemma mem_each {is : List ι} {g : ι → α → α} {e : Edit ι α} (h : e ∈ each is g) : e.1 ∈ is := by
  obtain ⟨i, hi, rfl⟩ := List.mem_map.mp h
  exact hi

/-! ### What becomes of an element -/

variable [DecidableEq κ]

/-- What a list of edits makes of the element at one place. -/
def effect : List (Edit κ α) → κ → α → α
  | [], _, v => v
  | e :: es, k, v => effect es k (if e.1 = k then e.2 v else v)

@[simp] lemma effect_nil (k : κ) (v : α) : effect [] k v = v := rfl

@[simp] lemma effect_cons (e : Edit κ α) (es : List (Edit κ α)) (k : κ) (v : α) :
    effect (e :: es) k v = effect es k (if e.1 = k then e.2 v else v) := rfl

lemma effect_append (es fs : List (Edit κ α)) (k : κ) (v : α) :
    effect (es ++ fs) k v = effect fs k (effect es k v) := by
  induction es generalizing v with
  | nil => rfl
  | cons e es ih => simp [ih]

lemma effect_of_forall_ne {es : List (Edit κ α)} {k : κ} (h : ∀ e ∈ es, e.1 ≠ k) (v : α) :
    effect es k v = v := by
  induction es with
  | nil => rfl
  | cons e es ih =>
    rw [effect_cons, if_neg (h e (by simp)), ih fun e he => h e (by simp [he])]

/-- One edit at each of several different places acts once at each of them. -/
lemma effect_each {is : List κ} (hn : is.Nodup) (g : κ → α → α) {i : κ} (hi : i ∈ is) (v : α) :
    effect (each is g) i v = g i v := by
  induction is generalizing v with
  | nil => simp at hi
  | cons j is ih =>
    obtain ⟨hj, hn⟩ := List.nodup_cons.mp hn
    rcases List.mem_cons.mp hi with rfl | hi
    · rw [each_cons, effect_cons, if_pos rfl]
      refine effect_of_forall_ne (fun e he => ?_) _
      rintro rfl
      exact hj (mem_each he)
    · have hne : j ≠ i := by rintro rfl; exact hj hi
      rw [each_cons, effect_cons, if_neg hne, ih hn hi]

lemma effect_place_each (f : ι → κ) (is : List ι) (g : ι → α → α) (k : κ) (v : α) :
    effect (place f (each is g)) k v = (is.filter (f · = k)).foldl (fun v i => g i v) v := by
  induction is generalizing v with
  | nil => rfl
  | cons i is ih =>
    rw [each_cons, place_cons, effect_cons, ih]
    by_cases h : f i = k <;> simp [h]

lemma effect_flatMap (f : ι → List (Edit κ α)) (is : List ι) (k : κ) (v : α) :
    effect (is.flatMap f) k v = is.foldl (fun v i => effect (f i) k v) v := by
  induction is generalizing v with
  | nil => rfl
  | cons i is ih => rw [List.flatMap_cons, effect_append, ih, List.foldl_cons]

/-- If only one of several lists of edits is for a place, the others do not matter there. -/
lemma effect_flatMap_of_mem {f : ι → List (Edit κ α)} {is : List ι} (hn : is.Nodup) {i : ι}
    (hi : i ∈ is) {k : κ} (h : ∀ j ∈ is, j ≠ i → ∀ e ∈ f j, e.1 ≠ k) (v : α) :
    effect (is.flatMap f) k v = effect (f i) k v := by
  induction is generalizing v with
  | nil => simp at hi
  | cons j is ih =>
    obtain ⟨hj, hn⟩ := List.nodup_cons.mp hn
    rw [List.flatMap_cons, effect_append]
    rcases List.mem_cons.mp hi with rfl | hi
    · refine effect_of_forall_ne (fun e he => ?_) _
      obtain ⟨j, hjs, he⟩ := List.mem_flatMap.mp he
      have hne : j ≠ i := by rintro rfl; exact hj hjs
      exact h j (by simp [hjs]) hne e he
    · have hne : j ≠ i := by rintro rfl; exact hj hi
      rw [effect_of_forall_ne (h j (by simp) hne), ih hn hi fun l hl => h l (by simp [hl])]

def Overwrites (es : List (Edit κ α)) (k : κ) : Prop := ∀ u v, effect es k u = effect es k v

lemma overwrites_each {is : List κ} (hn : is.Nodup) (w : κ → α) {i : κ} (hi : i ∈ is) :
    Overwrites (each is fun j _ => w j) i := by
  intro u v
  rw [effect_each hn _ hi, effect_each hn _ hi]

/-- Renaming places one to one does not change what becomes of their elements. -/
lemma effect_place [DecidableEq ι] {f : ι → κ} {es : List (Edit ι α)} {i : ι}
    (h : ∀ e ∈ es, f e.1 = f i → e.1 = i) (v : α) :
    effect (place f es) (f i) v = effect es i v := by
  induction es generalizing v with
  | nil => rfl
  | cons e es ih =>
    have hiff : f e.1 = f i ↔ e.1 = i := ⟨h e (by simp), congrArg f⟩
    rw [place_cons, effect_cons, effect_cons, ih fun e he => h e (by simp [he])]
    simp only [hiff]

end Edit

namespace Buffer

variable {α : Type}

lemma exists_get? {x : Buffer α} {i : Nat} (h : i < x.size) : ∃ v, x.get? i = some v := by
  rw [← getElem?_toArray]
  exact ⟨_, Array.getElem?_eq_getElem (by rwa [size_toArray])⟩

lemma lt_size_of_get? {x : Buffer α} {i : Nat} {v : α} (h : x.get? i = some v) : i < x.size := by
  rw [← getElem?_toArray] at h
  rw [← size_toArray]
  exact (Array.getElem?_eq_some_iff.mp h).choose

lemma read_of_get? {x : Buffer α} {i : Nat} {v : α} (h : x.get? i = some v) :
    x.read i = .ok v := by
  rw [read, h]

/-- `y` is what a list of edits makes of `x`. -/
structure Edited (es : List (Edit Nat α)) (x y : Buffer α) : Prop where
  size : y.size = x.size
  get : ∀ s, y.get? s = (x.get? s).map (Edit.effect es s)

lemma Edited.refl (x : Buffer α) : Edited [] x x := ⟨rfl, fun s => by cases x.get? s <;> rfl⟩

lemma Edited.trans {es fs : List (Edit Nat α)} {x y z : Buffer α} (h : Edited es x y)
    (h' : Edited fs y z) : Edited (es ++ fs) x z := by
  refine ⟨h'.size.trans h.size, fun s => ?_⟩
  rw [h'.get, h.get, Option.map_map]
  exact congrArg (Option.map · _) (funext fun v => (Edit.effect_append es fs s v).symm)

/-- A step that succeeds and has the effect of a list of edits. -/
def Makes (act : BufferStep α Unit) (es : List (Edit Nat α)) (x : Buffer α) : Prop :=
  ∃ y, act x = .ok () y ∧ Edited es x y

lemma makes_modify {x : Buffer α} {i : Nat} (h : i < x.size) (f : α → α) :
    Makes (modify i f) [(i, f)] x := by
  refine ⟨items (x.toArray.modify i f), by rw [modify_apply, if_pos h], ?_, fun s => ?_⟩
  · rw [← size_toArray, ← size_toArray]
    exact Array.size_modify
  · rw [← getElem?_toArray, ← getElem?_toArray, toArray, Array.getElem?_modify]
    rcases x.toArray[s]? with _ | v
    · simp
    · by_cases hs : i = s <;> simp [hs]

lemma makes_write {x : Buffer α} {i : Nat} (h : i < x.size) (v : α) :
    Makes (write i v) [(i, fun _ => v)] x := makes_modify h _

lemma Makes.bind {act next : BufferStep α Unit} {es fs : List (Edit Nat α)} {x : Buffer α}
    (h : Makes act es x) (h' : ∀ y, y.size = x.size → Makes next fs y) :
    Makes (do act; next) (es ++ fs) x := by
  obtain ⟨y, hy, hxy⟩ := h
  obtain ⟨z, hz, hyz⟩ := h' y hxy.size
  exact ⟨z, by rw [Step.bind_of_ok hy, hz], hxy.trans hyz⟩

/-- A loop makes the edits of its rounds. -/
lemma makes_forM {ι : Type} {is : List ι} {body : ι → BufferStep α Unit}
    {es : ι → List (Edit Nat α)} {x : Buffer α}
    (h : ∀ i ∈ is, ∀ y : Buffer α, y.size = x.size → Makes (body i) (es i) y) :
    Makes (is.forM body) (is.flatMap es) x := by
  induction is generalizing x with
  | nil => exact ⟨x, rfl, .refl x⟩
  | cons i is ih =>
    have htail : ∀ y : Buffer α, y.size = x.size → Makes (is.forM body) (is.flatMap es) y :=
      fun y hy => ih fun j hj z hz => h j (by simp [hj]) z (hz.trans hy)
    exact (h i (by simp) x rfl).bind htail

lemma makes_forM_each {ι : Type} {is : List ι} {body : ι → BufferStep α Unit} {p : ι → Nat}
    {g : ι → α → α} {x : Buffer α}
    (h : ∀ i ∈ is, ∀ y : Buffer α, y.size = x.size → Makes (body i) [(p i, g i)] y) :
    Makes (is.forM body) (Edit.place p (Edit.each is g)) x := by
  have hloop := makes_forM h
  rw [← List.map_eq_flatMap] at hloop
  rwa [Edit.place, Edit.each, List.map_map]

end Buffer

end ArrayBench
