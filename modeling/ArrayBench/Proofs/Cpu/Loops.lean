import ArrayBench.Cpu.Matmul
import ArrayBench.Cpu.Reduction
import ArrayBench.Proofs.Buffer.Edits
import ArrayBench.Proofs.Layout.Views

/-!
What the loops of the kernels do.

Every writing kernel makes edits at the indices of its target, placed in storage by the target's
layout. The short cut for contiguous layouts makes the same edits, since there the positions of
the indices are the numbers from zero on. Reading kernels are folds over the elements that the
layout shows, in row-major order.
-/

namespace ArrayBench

open Edit (each place)
open Buffer (Makes)

variable {α β γ : Type}

namespace Layout

def elemAt [Inhabited α] (l : Layout) (x : Buffer α) (ix : List Nat) : α :=
  (x.get? (l.offsetAt ix)).getD default

lemma get?_of_lt [Inhabited α] {l : Layout} {x : Buffer α} {ix : List Nat}
    (h : l.offsetAt ix < x.size) : x.get? (l.offsetAt ix) = some (l.elemAt x ix) := by
  obtain ⟨v, hv⟩ := Buffer.exists_get? h
  rw [elemAt, hv, Option.getD_some]

lemma get?_offsetAt [Inhabited α] {l : Layout} {x : Buffer α} (h : l.Within x.size)
    {ix : List Nat} (hix : ix ∈ l.shape.indices) :
    x.get? (l.offsetAt ix) = some (l.elemAt x ix) :=
  get?_of_lt (h ix hix)

lemma read_offsetAt [Inhabited α] {l : Layout} {x : Buffer α} (h : l.Within x.size)
    {ix : List Nat} (hix : ix ∈ l.shape.indices) :
    x.read (l.offsetAt ix) = .ok (l.elemAt x ix) :=
  Buffer.read_of_get? (get?_offsetAt h hix)

lemma mapM_ok {ι κ ε : Type} {f : κ → Except ε β} {is : List ι} {p : ι → κ} {v : ι → β}
    (h : ∀ i ∈ is, f (p i) = .ok (v i)) : (is.map p).mapM f = .ok (is.map v) := by
  induction is with
  | nil => rfl
  | cons i is ih =>
    rw [List.map_cons, List.mapM_cons, h i (by simp), exceptOk_bind,
      ih fun j hj => h j (by simp [hj]), exceptOk_bind]
    rfl

lemma mapM_read [Inhabited α] {l : Layout} {x : Buffer α} (h : l.Within x.size) :
    l.offsets.mapM x.read = .ok (l.shape.indices.map (l.elemAt x)) := by
  rw [offsets_eq]
  exact mapM_ok fun ix hix => read_offsetAt h hix

lemma elemAt_of_shows [Inhabited α] {l m : Layout} {t : Shape} (h : Shows l m t) (x : Buffer α)
    {ix : List Nat} (hix : ix ∈ t.indices) :
    m.elemAt x ix = l.elemAt x (l.shape.restrict ix) := by
  rw [elemAt, h.offsetAt ix hix, elemAt]

lemma eq_of_isContiguous {l m : Layout} (hl : l.isContiguous = true) (hm : m.isContiguous = true)
    (h : l.shape = m.shape) : l = m := by
  rw [eq_contiguous_of_isContiguous hl, eq_contiguous_of_isContiguous hm, h]

end Layout

namespace Buffer

lemma checkPrefix_of_le {x : Buffer α} {n : Nat} (h : n ≤ x.size) : checkPrefix x n = .ok () := by
  rw [checkPrefix, if_pos h]

lemma Makes.congr {act act' : BufferStep α Unit} {es : List (Edit Nat α)} {x : Buffer α}
    (h : Makes act' es x) (he : act x = act' x) : Makes act es x := by
  obtain ⟨y, hy, hxy⟩ := h
  exact ⟨y, he.trans hy, hxy⟩

end Buffer

/-! ### Loops over the offsets of layouts -/

lemma forM_map {ι κ : Type} (is : List ι) (f : ι → κ) (body : κ → BufferStep α Unit) :
    (is.map f).forM body = is.forM fun i => body (f i) := by
  induction is with
  | nil => rfl
  | cons i is ih =>
    change (body (f i) >>= fun _ => (is.map f).forM body) = _
    rw [ih]
    rfl

lemma forM_range {l : Layout} (h : l.isContiguous = true) (body : Nat → BufferStep α Unit) :
    (List.range l.numel).forM body = l.shape.indices.forM fun ix => body (l.offsetAt ix) := by
  rw [← Layout.offsets_of_isContiguous h, Layout.offsets_eq, forM_map]

lemma forM_offsets (l : Layout) (body : Nat → BufferStep α Unit) :
    l.offsets.forM body = l.shape.indices.forM fun ix => body (l.offsetAt ix) := by
  rw [Layout.offsets_eq, forM_map]

lemma forM_zip_offsets {l m : Layout} (h : m.shape = l.shape)
    (body : Nat × Nat → BufferStep α Unit) :
    (l.offsets.zip m.offsets).forM body =
      l.shape.indices.forM fun ix => body (l.offsetAt ix, m.offsetAt ix) := by
  rw [Layout.offsets_eq, Layout.offsets_eq, h, List.zip_map', forM_map]

lemma forM_zip_zip_offsets {l m n : Layout} (hm : m.shape = l.shape) (hn : n.shape = l.shape)
    (body : Nat × Nat × Nat → BufferStep α Unit) :
    (l.offsets.zip (m.offsets.zip n.offsets)).forM body =
      l.shape.indices.forM fun ix => body (l.offsetAt ix, m.offsetAt ix, n.offsetAt ix) := by
  rw [Layout.offsets_eq, Layout.offsets_eq, Layout.offsets_eq, hm, hn, List.zip_map', List.zip_map',
    forM_map]

namespace Cpu

/-! ### Loops without short cuts -/

lemma forM_congr {ι : Type} {is : List ι} {body body' : ι → BufferStep α Unit}
    (h : ∀ i ∈ is, body i = body' i) : is.forM body = is.forM body' := by
  induction is with
  | nil => rfl
  | cons i is ih =>
    change (body i >>= fun _ => is.forM body) = _
    rw [h i (by simp), ih fun j hj => h j (by simp [hj])]
    rfl

namespace Strided

def mapInPlace (f : α → α) (l : Layout) : BufferStep α Unit :=
  l.offsets.forM fun i => Buffer.modify i f

def zipInPlace (f : α → β → α) (l : Layout) (y : Buffer β) (ly : Layout) : BufferStep α Unit :=
  (l.offsets.zip ly.offsets).forM fun (i, j) => do
    let q ← Buffer.read y j
    Buffer.modify i (f · q)

def mapInto (f : α → β) (x : Buffer α) (lx l : Layout) : BufferStep β Unit :=
  (l.offsets.zip lx.offsets).forM fun (i, j) => do
    let p ← Buffer.read x j
    Buffer.write i (f p)

def zipInto (f : α → β → γ) (x : Buffer α) (lx : Layout) (y : Buffer β) (ly l : Layout) :
    BufferStep γ Unit :=
  (l.offsets.zip (lx.offsets.zip ly.offsets)).forM fun (i, j, k) => do
    let p ← Buffer.read x j
    let q ← Buffer.read y k
    Buffer.write i (f p q)

def fillElems (l : Layout) (v : α) : BufferStep α Unit :=
  l.offsets.forM fun i => Buffer.write i v

variable {l lx ly : Layout} {x : Buffer α} {y : Buffer β}

lemma mapInPlace_eq (f : α → α) (l : Layout) :
    mapInPlace f l = l.shape.indices.forM fun ix => Buffer.modify (l.offsetAt ix) f :=
  forM_offsets l _

lemma zipInPlace_eq [Inhabited β] (f : α → β → α) (hs : ly.shape = l.shape)
    (hy : ly.Within y.size) :
    zipInPlace f l y ly =
      l.shape.indices.forM fun ix => Buffer.modify (l.offsetAt ix) (f · (ly.elemAt y ix)) := by
  rw [zipInPlace, forM_zip_offsets hs]
  refine forM_congr fun ix hix => ?_
  have hread : y.read (ly.offsetAt ix) = .ok (ly.elemAt y ix) :=
    Layout.read_offsetAt hy (by rwa [hs])
  simp only [hread]
  rfl

lemma mapInto_eq [Inhabited α] (f : α → β) (hs : lx.shape = l.shape) (hx : lx.Within x.size) :
    mapInto f x lx l =
      l.shape.indices.forM fun ix => Buffer.write (l.offsetAt ix) (f (lx.elemAt x ix)) := by
  rw [mapInto, forM_zip_offsets hs]
  refine forM_congr fun ix hix => ?_
  have hread : x.read (lx.offsetAt ix) = .ok (lx.elemAt x ix) :=
    Layout.read_offsetAt hx (by rwa [hs])
  simp only [hread]
  rfl

lemma zipInto_eq [Inhabited α] [Inhabited β] (f : α → β → γ) (hsx : lx.shape = l.shape)
    (hsy : ly.shape = l.shape) (hx : lx.Within x.size) (hy : ly.Within y.size) :
    zipInto f x lx y ly l = l.shape.indices.forM fun ix =>
      Buffer.write (l.offsetAt ix) (f (lx.elemAt x ix) (ly.elemAt y ix)) := by
  rw [zipInto, forM_zip_zip_offsets hsx hsy]
  refine forM_congr fun ix hix => ?_
  have hleft : x.read (lx.offsetAt ix) = .ok (lx.elemAt x ix) :=
    Layout.read_offsetAt hx (by rwa [hsx])
  have hright : y.read (ly.offsetAt ix) = .ok (ly.elemAt y ix) :=
    Layout.read_offsetAt hy (by rwa [hsy])
  simp only [hleft, hright]
  rfl

lemma mapInPlace_makes (f : α → α) (hx : l.Within x.size) :
    Makes (mapInPlace f l) (place l.offsetAt (each l.shape.indices fun _ => f)) x := by
  rw [mapInPlace_eq]
  exact Buffer.makes_forM_each fun ix hix z hz =>
    Buffer.makes_modify (by rw [hz]; exact hx ix hix) f

lemma zipInPlace_makes [Inhabited β] (f : α → β → α) (hs : ly.shape = l.shape)
    (hx : l.Within x.size) (hy : ly.Within y.size) :
    Makes (zipInPlace f l y ly)
      (place l.offsetAt (each l.shape.indices fun ix v => f v (ly.elemAt y ix))) x := by
  rw [zipInPlace_eq f hs hy]
  exact Buffer.makes_forM_each fun ix hix z hz =>
    Buffer.makes_modify (by rw [hz]; exact hx ix hix) _

lemma mapInto_makes [Inhabited α] (f : α → β) {z : Buffer β} (hs : lx.shape = l.shape)
    (hx : lx.Within x.size) (hz : l.Within z.size) :
    Makes (mapInto f x lx l)
      (place l.offsetAt (each l.shape.indices fun ix _ => f (lx.elemAt x ix))) z := by
  rw [mapInto_eq f hs hx]
  exact Buffer.makes_forM_each fun ix hix w hw =>
    Buffer.makes_write (by rw [hw]; exact hz ix hix) _

lemma zipInto_makes [Inhabited α] [Inhabited β] (f : α → β → γ) {z : Buffer γ}
    (hsx : lx.shape = l.shape) (hsy : ly.shape = l.shape) (hx : lx.Within x.size)
    (hy : ly.Within y.size) (hz : l.Within z.size) :
    Makes (zipInto f x lx y ly l)
      (place l.offsetAt (each l.shape.indices fun ix _ => f (lx.elemAt x ix) (ly.elemAt y ix)))
      z := by
  rw [zipInto_eq f hsx hsy hx hy]
  exact Buffer.makes_forM_each fun ix hix w hw =>
    Buffer.makes_write (by rw [hw]; exact hz ix hix) _

lemma fillElems_makes (v : α) (hx : l.Within x.size) :
    Makes (fillElems l v) (place l.offsetAt (each l.shape.indices fun _ _ => v)) x := by
  rw [fillElems, forM_offsets]
  exact Buffer.makes_forM_each fun ix hix z hz =>
    Buffer.makes_write (by rw [hz]; exact hx ix hix) v

end Strided

/-! ### Loops with a short cut

Contiguous layouts of one shape are the same, and a loop through the numbers from zero on is one
through their offsets. What the short cut adds is that it looks for the positions first. -/

/-- A loop that may have to find the first `n` positions before it starts. -/
def guarded (short : Bool) (n : Nat) (loop : BufferStep α Unit) : BufferStep α Unit :=
  if short then do
    Buffer.checkPrefix (← get) n
    loop
  else loop

lemma guarded_eq {short : Bool} {n : Nat} {x : Buffer α} (h : short = true → n ≤ x.size)
    (loop : BufferStep α Unit) : guarded short n loop x = loop x := by
  unfold guarded
  split_ifs with hs
  · rw [Step.get_bind, Buffer.checkPrefix_of_le (h hs), Step.ok_bind]
  · rfl

lemma makes_guarded {short : Bool} {n : Nat} {loop : BufferStep α Unit} {es : List (Edit Nat α)}
    {x : Buffer α} (h : Makes loop es x) (hn : short = true → n ≤ x.size) :
    Makes (guarded short n loop) es x :=
  h.congr (guarded_eq hn loop)

variable {l lx ly : Layout} {x : Buffer α} {y : Buffer β}

lemma mapInPlace_guarded (f : α → α) (l : Layout) :
    mapInPlace f l = guarded l.isContiguous l.numel (Strided.mapInPlace f l) := by
  unfold mapInPlace guarded Strided.mapInPlace
  split_ifs with hc
  · rw [Layout.offsets_of_isContiguous hc]
  · rfl

lemma zipInPlace_strided (f : α → β → α) (hs : ly.shape = l.shape) :
    zipInPlace f l y ly =
      if l.isContiguous && ly.isContiguous then do
        Buffer.checkPrefix (← get) l.numel
        Buffer.checkPrefix y l.numel
        Strided.zipInPlace f l y ly
      else Strided.zipInPlace f l y ly := by
  unfold zipInPlace Strided.zipInPlace
  split_ifs with hc
  · obtain ⟨hcl, hcy⟩ := Bool.and_eq_true_iff.mp hc
    obtain rfl := Layout.eq_of_isContiguous hcy hcl hs
    rw [forM_range hcl, forM_zip_offsets rfl]
  · rfl

lemma zipInPlace_guarded (f : α → β → α) (hs : ly.shape = l.shape) (hy : ly.Within y.size) :
    zipInPlace f l y ly =
      guarded (l.isContiguous && ly.isContiguous) l.numel (Strided.zipInPlace f l y ly) := by
  rw [zipInPlace_strided f hs, guarded]
  split_ifs with hc
  · obtain ⟨hcl, hcy⟩ := Bool.and_eq_true_iff.mp hc
    obtain rfl := Layout.eq_of_isContiguous hcy hcl hs
    rw [Buffer.checkPrefix_of_le (Layout.numel_le_of_within hcl hy)]
    rfl
  · rfl

lemma mapInto_guarded (f : α → β) (hs : lx.shape = l.shape) (hx : lx.Within x.size) :
    mapInto f x lx l =
      guarded (lx.isContiguous && l.isContiguous) l.numel (Strided.mapInto f x lx l) := by
  unfold mapInto guarded Strided.mapInto
  split_ifs with hc
  · obtain ⟨hcx, hcl⟩ := Bool.and_eq_true_iff.mp hc
    obtain rfl := Layout.eq_of_isContiguous hcx hcl hs
    rw [Buffer.checkPrefix_of_le (Layout.numel_le_of_within hcl hx), forM_range hcl,
      forM_zip_offsets rfl]
    rfl
  · rfl

lemma zipInto_strided (f : α → β → γ) (hsx : lx.shape = l.shape) (hsy : ly.shape = l.shape) :
    zipInto f x lx y ly l =
      if lx.isContiguous && ly.isContiguous && l.isContiguous then do
        Buffer.checkPrefix (← get) l.numel
        Buffer.checkPrefix x l.numel
        Buffer.checkPrefix y l.numel
        Strided.zipInto f x lx y ly l
      else Strided.zipInto f x lx y ly l := by
  unfold zipInto Strided.zipInto
  split_ifs with hc
  · obtain ⟨hcxy, hcl⟩ := Bool.and_eq_true_iff.mp hc
    obtain ⟨hcx, hcy⟩ := Bool.and_eq_true_iff.mp hcxy
    -- three contiguous layouts of one shape are one layout
    obtain rfl := Layout.eq_of_isContiguous hcx hcl hsx
    obtain rfl := Layout.eq_of_isContiguous hcy hcl hsy
    rw [forM_range hcl, forM_zip_zip_offsets rfl rfl]
  · rfl

lemma zipInto_guarded (f : α → β → γ) (hsx : lx.shape = l.shape) (hsy : ly.shape = l.shape)
    (hx : lx.Within x.size) (hy : ly.Within y.size) :
    zipInto f x lx y ly l = guarded (lx.isContiguous && ly.isContiguous && l.isContiguous) l.numel
      (Strided.zipInto f x lx y ly l) := by
  rw [zipInto_strided f hsx hsy, guarded]
  split_ifs with hc
  · obtain ⟨hcxy, hcl⟩ := Bool.and_eq_true_iff.mp hc
    obtain ⟨hcx, hcy⟩ := Bool.and_eq_true_iff.mp hcxy
    obtain rfl := Layout.eq_of_isContiguous hcx hcl hsx
    obtain rfl := Layout.eq_of_isContiguous hcy hcl hsy
    rw [Buffer.checkPrefix_of_le (Layout.numel_le_of_within hcl hx),
      Buffer.checkPrefix_of_le (Layout.numel_le_of_within hcl hy)]
    rfl
  · rfl

lemma mapInPlace_eq (f : α → α) (l : Layout) :
    mapInPlace f l = guarded l.isContiguous l.numel
      (l.shape.indices.forM fun ix => Buffer.modify (l.offsetAt ix) f) := by
  rw [mapInPlace_guarded, Strided.mapInPlace_eq]

lemma zipInPlace_eq [Inhabited β] (f : α → β → α) (hs : ly.shape = l.shape)
    (hy : ly.Within y.size) :
    zipInPlace f l y ly = guarded (l.isContiguous && ly.isContiguous) l.numel
      (l.shape.indices.forM fun ix => Buffer.modify (l.offsetAt ix) (f · (ly.elemAt y ix))) := by
  rw [zipInPlace_guarded f hs hy, Strided.zipInPlace_eq f hs hy]

lemma mapInto_eq [Inhabited α] (f : α → β) (hs : lx.shape = l.shape) (hx : lx.Within x.size) :
    mapInto f x lx l = guarded (lx.isContiguous && l.isContiguous) l.numel
      (l.shape.indices.forM fun ix => Buffer.write (l.offsetAt ix) (f (lx.elemAt x ix))) := by
  rw [mapInto_guarded f hs hx, Strided.mapInto_eq f hs hx]

lemma zipInto_eq [Inhabited α] [Inhabited β] (f : α → β → γ) (hsx : lx.shape = l.shape)
    (hsy : ly.shape = l.shape) (hx : lx.Within x.size) (hy : ly.Within y.size) :
    zipInto f x lx y ly l =
      guarded (lx.isContiguous && ly.isContiguous && l.isContiguous) l.numel
        (l.shape.indices.forM fun ix =>
          Buffer.write (l.offsetAt ix) (f (lx.elemAt x ix) (ly.elemAt y ix))) := by
  rw [zipInto_guarded f hsx hsy hx hy, Strided.zipInto_eq f hsx hsy hx hy]

lemma mapInPlace_makes (f : α → α) (h : l.Within x.size) :
    Makes (mapInPlace f l) (place l.offsetAt (each l.shape.indices fun _ => f)) x := by
  rw [mapInPlace_guarded]
  exact makes_guarded (Strided.mapInPlace_makes f h) fun hc => Layout.numel_le_of_within hc h

lemma zipInPlace_makes [Inhabited β] (f : α → β → α) (hs : ly.shape = l.shape)
    (hx : l.Within x.size) (hy : ly.Within y.size) :
    Makes (zipInPlace f l y ly)
      (place l.offsetAt (each l.shape.indices fun ix v => f v (ly.elemAt y ix))) x := by
  rw [zipInPlace_guarded f hs hy]
  exact makes_guarded (Strided.zipInPlace_makes f hs hx hy) fun hc =>
    Layout.numel_le_of_within (Bool.and_eq_true_iff.mp hc).1 hx

lemma mapInto_makes [Inhabited α] (f : α → β) {z : Buffer β} (hs : lx.shape = l.shape)
    (hx : lx.Within x.size) (hz : l.Within z.size) :
    Makes (mapInto f x lx l)
      (place l.offsetAt (each l.shape.indices fun ix _ => f (lx.elemAt x ix))) z := by
  rw [mapInto_guarded f hs hx]
  exact makes_guarded (Strided.mapInto_makes f hs hx hz) fun hc =>
    Layout.numel_le_of_within (Bool.and_eq_true_iff.mp hc).2 hz

lemma zipInto_makes [Inhabited α] [Inhabited β] (f : α → β → γ) {z : Buffer γ}
    (hsx : lx.shape = l.shape) (hsy : ly.shape = l.shape) (hx : lx.Within x.size)
    (hy : ly.Within y.size) (hz : l.Within z.size) :
    Makes (zipInto f x lx y ly l)
      (place l.offsetAt (each l.shape.indices fun ix _ => f (lx.elemAt x ix) (ly.elemAt y ix)))
      z := by
  rw [zipInto_guarded f hsx hsy hx hy]
  exact makes_guarded (Strided.zipInto_makes f hsx hsy hx hy hz) fun hc =>
    Layout.numel_le_of_within (Bool.and_eq_true_iff.mp hc).2 hz

end Cpu

/-! ### Filling -/

namespace Edit

/-- Edits that do not look at their place may be placed before they are listed. -/
lemma place_each_const {ι κ : Type} (f : ι → κ) (is : List ι) (g : α → α) :
    place f (each is fun _ => g) = each (is.map f) fun _ => g := by
  simp [place, each]

end Edit

namespace Buffer

lemma fillPrefix_makes {n : Nat} (v : α) {x : Buffer α} (h : n ≤ x.size) :
    Makes (fillPrefix n v) (each (List.range n) fun _ _ => v) x := by
  have heffect : ∀ s w, Edit.effect (each (List.range n) fun _ _ => v) s w =
      if s < n then v else w := by
    intro s w
    split_ifs with hs
    · exact Edit.effect_each List.nodup_range _ (List.mem_range.mpr hs) w
    · refine Edit.effect_of_forall_ne (fun e he => ?_) w
      have := List.mem_range.mp (Edit.mem_each he)
      omega
  rcases Nat.lt_or_eq_of_le h with hlt | heq
  · -- a part of the buffer is kept
    refine ⟨items (Array.replicate n v ++ x.toArray.extract n), by rw [fillPrefix, if_pos hlt],
      ?_, fun s => ?_⟩
    · rw [← size_toArray, toArray]
      simp only [Array.size_append, Array.size_replicate, Array.size_extract, size_toArray]
      omega
    · rw [← getElem?_toArray, ← getElem?_toArray, toArray, Array.getElem?_append]
      simp only [Array.size_replicate]
      split_ifs with hs
      · have hsx : s < x.toArray.size := by rw [size_toArray]; omega
        rw [Array.getElem?_eq_getElem hsx, Option.map_some, heffect, if_pos hs]
        simp [hs]
      · have hshift : n + (s - n) = s := by omega
        have hid : Edit.effect (each (List.range n) fun _ _ => v) s = id :=
          funext fun w => by rw [heffect, if_neg hs, id]
        rw [hid, Option.map_id, id, Array.getElem?_extract]
        simp only [hshift]
        split_ifs with hin
        · rfl
        · rw [eq_comm, Array.getElem?_eq_none_iff]
          omega
  · -- the whole buffer is replaced
    subst heq
    refine ⟨filled x.size v, ?_, rfl, fun s => ?_⟩
    · rw [fillPrefix, if_neg (Nat.lt_irrefl _), if_pos rfl]
    · rw [get?]
      split_ifs with hs
      · obtain ⟨w, hw⟩ := exists_get? hs
        rw [hw, Option.map_some, heffect, if_pos hs]
      · have hnone : x.get? s = none := by
          rw [← getElem?_toArray, Array.getElem?_eq_none_iff, size_toArray]
          omega
        rw [hnone, Option.map_none]

end Buffer

lemma NdArray.fillElems_makes (v : α) {l : Layout} {x : Buffer α} (h : l.Within x.size) :
    Makes (fillElems l v) (place l.offsetAt (each l.shape.indices fun _ _ => v)) x := by
  unfold fillElems
  split_ifs with hc
  · rw [Edit.place_each_const, ← Layout.offsets_eq, Layout.offsets_of_isContiguous hc]
    exact Buffer.fillPrefix_makes v (Layout.numel_le_of_within hc h)
  · exact Cpu.Strided.fillElems_makes v h

end ArrayBench
