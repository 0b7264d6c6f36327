import Boutique.Upkeep
/-!
# Gallery — the photos of a dress as a list

A gallery is the list of the photos shown and the uploads under way, at most twelve together.  An upload confirmed comes last, a
reorder sets the whole list, and the positions and sweeps of the table come down to that.
-/
namespace Catalog

open Txn Ranked

variable {dressId k : Nat} {ttl : Int} {made : Nat → Int} {f f' : Nat → Option DressMedia} {a a' : Gallery}

/-! ## The lists -/

/-- **The gallery of a dress**: the photos shown, in their order, and the uploads under way. -/
structure Gallery where
  shown : List Nat
  waiting : List Nat
deriving DecidableEq

def Gallery.size (a : Gallery) : Nat := a.shown.length + a.waiting.length

def Gallery.without (a : Gallery) (k : Nat) : Gallery := ⟨a.shown.filter (· ≠ k), a.waiting.filter (· ≠ k)⟩

/-- The gallery without the uploads that `k`, the next of them, finds older than `ttl`; `made` is when each was made. -/
def Gallery.swept (a : Gallery) (ttl : Int) (made : Nat → Int) (k : Nat) : Gallery :=
  ⟨a.shown, a.waiting.filter fun i => made k - ttl ≤ made i⟩

/-- **What a request may do to the gallery**, with photos made when `made` says; `mine` are those that its own earlier commits have
added.  A presign is made as its transaction begins, and leaves the uploads that are then not yet `ttl` old. -/
inductive Gallery.Step (dressId : Nat) (ttl : Int) (made : Nat → Int) (mine : Nat → Prop) : Request → Gallery → Gallery → Prop
  | skip (r : Request) (a : Gallery) : Gallery.Step dressId ttl made mine r a a
  | presign (a : Gallery) (k : Nat) (contentType : String) (byteSize : Int) (actorId : Nat)
      (fresh : k ∉ a.shown ∧ k ∉ a.waiting) (room : (a.swept ttl made k).size < MAX_MEDIA_PER_DRESS) :
    Gallery.Step dressId ttl made mine (.presignMedia dressId contentType byteSize actorId) a
      ⟨a.shown, (a.swept ttl made k).waiting ++ [k]⟩
  | release (a : Gallery) (k : Nat) (contentType : String) (byteSize : Int) (actorId : Nat) (own : mine k) :
    Gallery.Step dressId ttl made mine (.presignMedia dressId contentType byteSize actorId) a (a.without k)
  | confirm (a : Gallery) (k actorId : Nat) (waiting : k ∈ a.waiting) :
    Gallery.Step dressId ttl made mine (.confirmMedia dressId k actorId) a ⟨a.shown ++ [k], a.waiting.filter (· ≠ k)⟩
  | delete (a : Gallery) (k actorId : Nat) (there : k ∈ a.shown ∨ k ∈ a.waiting) :
    Gallery.Step dressId ttl made mine (.deleteMedia dressId k actorId) a (a.without k)
  | reorder (a : Gallery) (mediaIds : List Nat) (actorId : Nat) (same : mediaIds.Perm a.shown) :
    Gallery.Step dressId ttl made mine (.reorderMedia dressId mediaIds actorId) a ⟨mediaIds, a.waiting⟩

/-- **No photo twice, and no more of them than there are slots.** -/
structure Gallery.Kempt (a : Gallery) : Prop where
  nodup : (a.shown ++ a.waiting).Nodup
  size : a.size ≤ MAX_MEDIA_PER_DRESS

theorem Gallery.without_sublist (a : Gallery) (k : Nat) :
    ((a.without k).shown ++ (a.without k).waiting).Sublist (a.shown ++ a.waiting) :=
  List.filter_sublist.append List.filter_sublist

theorem Gallery.Kempt.sublist (h : a.Kempt) (hs : (a'.shown ++ a'.waiting).Sublist (a.shown ++ a.waiting)) : a'.Kempt := by
  refine ⟨h.nodup.sublist hs, Nat.le_trans ?_ h.size⟩
  have hlength := hs.length_le
  simpa [Gallery.size] using hlength

theorem Gallery.Step.kempt {mine : Nat → Prop} {r : Request} (h : Gallery.Step dressId ttl made mine r a a') (hk : a.Kempt) :
    a'.Kempt := by
  cases h with
  | skip => exact hk
  | release | delete => exact hk.sublist (a.without_sublist _)
  | presign _ k _ _ _ fresh room =>
    have hold : (a.shown ++ (a.swept ttl made k).waiting).Nodup := hk.nodup.sublist ((List.Sublist.refl _).append List.filter_sublist)
    refine ⟨?_, ?_⟩
    · rw [← List.append_assoc, List.nodup_append]
      refine ⟨hold, List.nodup_singleton k, fun i hi j hj => ?_⟩
      rw [List.mem_singleton.1 hj]
      rintro rfl
      rcases List.mem_append.1 hi with hi | hi
      · exact fresh.1 hi
      · exact fresh.2 (List.mem_of_mem_filter hi)
    · have hshown : (a.swept ttl made k).shown.length = a.shown.length := rfl
      simp only [Gallery.size, List.length_append, List.length_singleton] at room ⊢
      omega
  | confirm _ k _ waiting =>
    have hperm : (a.shown ++ [k] ++ a.waiting.filter (· ≠ k)).Perm (a.shown ++ a.waiting) := by
      rw [List.append_assoc]
      refine List.Perm.append_left _ ?_
      have herase := List.perm_cons_erase waiting
      have hnodup : a.waiting.Nodup := (List.nodup_append.1 hk.nodup).2.1
      rw [hnodup.erase_eq_filter] at herase
      refine List.Perm.trans ?_ herase.symm
      refine List.Perm.cons k (.of_eq ?_)
      refine List.filter_congr fun i _ => ?_
      by_cases hi : i = k <;> simp [hi]
    refine ⟨hperm.nodup_iff.2 hk.nodup, ?_⟩
    have hlength := hperm.length_eq
    have hsize := hk.size
    simp only [Gallery.size, List.length_append, List.length_singleton] at *
    omega
  | reorder _ mediaIds _ same =>
    have hperm : (mediaIds ++ a.waiting).Perm (a.shown ++ a.waiting) := same.append_right _
    refine ⟨hperm.nodup_iff.2 hk.nodup, ?_⟩
    have hlength := same.length_eq
    have hsize := hk.size
    simp only [Gallery.size] at *
    omega

/-! ## The table behind them -/

def DressMedia.up (r : DressMedia) : Bool := r.deletedAt = none ∧ r.status = .ready

def DressMedia.waits (r : DressMedia) : Bool := r.deletedAt = none ∧ r.status = .pending

structure Depicts (f : Nat → Option DressMedia) (a : Gallery) : Prop where
  shown : ∃ l, Lists DressMedia.sortOrder DressMedia.id f DressMedia.up l ∧ l.map DressMedia.id = a.shown
  waiting : ∃ l, Lists (fun _ => 0) DressMedia.id f DressMedia.waits l ∧ l.map DressMedia.id = a.waiting

variable {r v v' : DressMedia} {staleBefore now : Int} {ids : List Nat}

theorem up_of_waits (h : r.waits = true) : r.up = false := by
  simp only [DressMedia.waits, decide_eq_true_eq] at h
  simp [DressMedia.up, h.2]

theorem waits_of_up (h : r.up = true) : r.waits = false := by
  simp only [DressMedia.up, decide_eq_true_eq] at h
  simp [DressMedia.waits, h.2]

theorem down_of_deleted (h : r.deletedAt ≠ none) : r.up = false ∧ r.waits = false := by
  simp [DressMedia.up, DressMedia.waits, h]

theorem up_or_waits (h : r.deletedAt = none) : r.up = true ∨ r.waits = true := by
  cases hs : r.status
  · exact .inr (decide_eq_true ⟨h, hs⟩)
  · exact .inl (decide_eq_true ⟨h, hs⟩)

theorem Depicts.mem_shown (h : Depicts f a) (hf : Keyed DressMedia.id f) : k ∈ a.shown ↔ ∃ r, f k = some r ∧ r.up = true := by
  obtain ⟨l, hl, hmap⟩ := h.shown
  rw [← hmap, List.mem_map]
  constructor
  · rintro ⟨r, hr, rfl⟩
    exact ⟨r, hl.row hf hr⟩
  · rintro ⟨r, hr, hup⟩
    exact ⟨r, (hl.mem r).2 ⟨k, hr, hup⟩, hf k r hr⟩

theorem Depicts.mem_waiting (h : Depicts f a) (hf : Keyed DressMedia.id f) : k ∈ a.waiting ↔ ∃ r, f k = some r ∧ r.waits = true := by
  obtain ⟨l, hl, hmap⟩ := h.waiting
  rw [← hmap, List.mem_map]
  constructor
  · rintro ⟨r, hr, rfl⟩
    exact ⟨r, hl.row hf hr⟩
  · rintro ⟨r, hr, hwaits⟩
    exact ⟨r, (hl.mem r).2 ⟨k, hr, hwaits⟩, hf k r hr⟩

theorem Depicts.unique (h : Depicts f a) (h' : Depicts f a') : a = a' := by
  obtain ⟨l, hl, hmap⟩ := h.shown
  obtain ⟨l', hl', hmap'⟩ := h'.shown
  obtain ⟨m, hm, hwait⟩ := h.waiting
  obtain ⟨m', hm', hwait'⟩ := h'.waiting
  cases a
  cases a'
  rw [hl.unique hl'] at hmap
  rw [hm.unique hm'] at hwait
  simp only at hmap hmap' hwait hwait'
  rw [← hmap, ← hmap', ← hwait, ← hwait']

theorem Depicts.nodup (h : Depicts f a) (hf : Keyed DressMedia.id f) : (a.shown ++ a.waiting).Nodup := by
  obtain ⟨l, hl, hshown⟩ := h.shown
  obtain ⟨m, hm, hwaiting⟩ := h.waiting
  refine List.nodup_append.2 ⟨hshown ▸ hl.nodup, hwaiting ▸ hm.nodup, fun i hi j hj => ?_⟩
  rintro rfl
  obtain ⟨r, hr, hup⟩ := (h.mem_shown hf).1 hi
  obtain ⟨r', hr', hwaits⟩ := (h.mem_waiting hf).1 hj
  rw [hr] at hr'
  cases hr'
  rw [waits_of_up hup] at hwaits
  cases hwaits

/-- **No two photos shown have one position.** -/
def Apart (f : Nat → Option DressMedia) : Prop :=
  ∀ i j u v, f i = some u → f j = some v → u.up = true → v.up = true → u.sortOrder = v.sortOrder → i = j

theorem Apart.of_old (h : Apart f) (hold : ∀ i u, f' i = some u → u.up = true → f i = some u) : Apart f' :=
  fun i j u v hu hv hup hvp => h i j u v (hold i u hu hup) (hold j v hv hvp) hup hvp

theorem Apart.beside (h : Apart f) (hv : v.up = false) : Apart (Function.update f k (some v)) := by
  refine h.of_old fun i u hu hup => ?_
  by_cases hi : i = k
  · subst hi
    rw [Function.update_self] at hu
    cases hu
    rw [hv] at hup
    cases hup
  · rwa [Function.update_of_ne hi] at hu

theorem Apart.concat (h : Apart f) (hlast : ∀ i u, f i = some u → u.up = true → u.sortOrder < v.sortOrder) :
    Apart (Function.update f k (some v)) := by
  have hrow : ∀ i u, Function.update f k (some v) i = some u → (i = k ∧ u = v) ∨ (i ≠ k ∧ f i = some u) := by
    intro i u hu
    by_cases hi : i = k
    · subst hi
      rw [Function.update_self] at hu
      cases hu
      exact .inl ⟨rfl, rfl⟩
    · exact .inr ⟨hi, by rwa [Function.update_of_ne hi] at hu⟩
  intro i j u u' hu hu' hup hup' hsame
  rcases hrow i u hu with ⟨rfl, rfl⟩ | ⟨-, hi⟩ <;> rcases hrow j u' hu' with ⟨rfl, rfl⟩ | ⟨-, hj⟩
  · rfl
  · have hlt := hlast j u' hj hup'
    omega
  · have hlt := hlast i u hi hup
    omega
  · exact h i j u u' hi hj hup hup' hsame

theorem Depicts.without (h : Depicts f a) (hf : Keyed DressMedia.id f) (hv : v.deletedAt ≠ none) :
    Depicts (Function.update f k (some v)) (a.without k) := by
  have hmap : ∀ l : List DressMedia, (l.filter fun r => decide (r.id ≠ k)).map DressMedia.id = (l.map DressMedia.id).filter (· ≠ k) :=
    fun l => by rw [List.filter_map]; rfl
  obtain ⟨hup, hwaits⟩ := down_of_deleted hv
  obtain ⟨l, hl, hshown⟩ := h.shown
  obtain ⟨m, hm, hwaiting⟩ := h.waiting
  refine ⟨⟨_, hl.erase hf hup, ?_⟩, _, hm.erase hf hwaits, ?_⟩
  · rw [hmap, hshown]
    rfl
  · rw [hmap, hwaiting]
    rfl

theorem Depicts.presigned (h : Depicts f a) (hf : Keyed DressMedia.id f) (hnew : ∀ j, k ≤ j → f j = none)
    (hv : v.waits = true) (hid : v.id = k) : Depicts (Function.update f k (some v)) ⟨a.shown, a.waiting ++ [k]⟩ := by
  have hnone : ∀ r, f k = some r → ∀ p : DressMedia → Bool, p r = false := fun r hr => by
    rw [hnew k (Nat.le_refl k)] at hr
    cases hr
  obtain ⟨l, hl, hshown⟩ := h.shown
  obtain ⟨m, hm, hwaiting⟩ := h.waiting
  refine ⟨⟨l, hl.beside (fun r hr => hnone r hr _) (up_of_waits hv), hshown⟩, _,
    hm.concat hf (fun r hr => hnone r hr _) hv hid fun b hb => .inr ⟨rfl, ?_⟩, ?_⟩
  · obtain ⟨hrow, -⟩ := hm.row hf hb
    rw [hid]
    by_contra hlt
    rw [hnew _ (by omega)] at hrow
    cases hrow
  · rw [List.map_append, hwaiting, List.map_singleton, hid]

theorem Depicts.confirmed (h : Depicts f a) (hf : Keyed DressMedia.id f) (hwas : f k = some v) (hv : v.waits = true)
    (hr : r.up = true) (hid : r.id = k) (hlast : ∀ i u, f i = some u → u.up = true → u.sortOrder < r.sortOrder) :
    Depicts (Function.update f k (some r)) ⟨a.shown ++ [k], a.waiting.filter (· ≠ k)⟩ := by
  obtain ⟨l, hl, hshown⟩ := h.shown
  obtain ⟨m, hm, hwaiting⟩ := h.waiting
  refine ⟨⟨_, hl.concat hf (fun u hu => ?_) hr hid fun b hb => .of_lt ?_, ?_⟩, _, hm.erase hf (waits_of_up hr), ?_⟩
  · rw [hwas] at hu
    cases hu
    exact up_of_waits hv
  · obtain ⟨hrow, hup⟩ := hl.row hf hb
    exact hlast _ b hrow hup
  · rw [List.map_append, hshown, List.map_singleton, hid]
  · rw [← hwaiting, List.filter_map]
    rfl

theorem once_sweep (staleBefore now : Int) :
    Once (S := schema) (T := .dressMedia) (.sweep dressId staleBefore now : DressMediaChange) := by
  intro v v' h
  simp only [applyChange, DressMediaChange.apply] at h ⊢
  split at h <;> cases h
  rw [if_neg]
  rintro ⟨hof, -⟩
  cases (DressMedia.of_iff.1 hof).2

theorem sweep_some (h : (DressMediaChange.sweep dressId staleBefore now).apply v = some v') :
    v.waits = true ∧ v' = { v with deletedAt := some now } := by
  simp only [DressMediaChange.apply] at h
  split at h <;> cases h
  rename_i hc
  exact ⟨decide_eq_true ⟨(DressMedia.of_iff.1 hc.1).2, hc.2.1⟩, rfl⟩

theorem promote_some {sortOrder : Int} (h : (DressMediaChange.promoteToReady dressId sortOrder).apply v = some v') :
    v.waits = true ∧ v' = { v with status := .ready, sortOrder := sortOrder } ∧ v'.up = true := by
  simp only [DressMediaChange.apply] at h
  split at h <;> cases h
  rename_i hc
  have hlive := (DressMedia.of_iff.1 hc.1).2
  exact ⟨decide_eq_true ⟨hlive, hc.2⟩, rfl, decide_eq_true ⟨hlive, rfl⟩⟩

theorem softDelete_some (h : (DressMediaChange.softDelete dressId now).apply v = some v') :
    v.deletedAt = none ∧ v'.deletedAt ≠ none := by
  simp only [DressMediaChange.apply] at h
  split at h <;> cases h
  rename_i hof
  exact ⟨(DressMedia.of_iff.1 hof).2, by simp⟩

def sweptRows (dressId : Nat) (staleBefore now : Int) (f : Nat → Option DressMedia) (ids : List Nat) : Nat → Option DressMedia :=
  applyEach (S := schema) (T := .dressMedia) (.sweep dressId staleBefore now : DressMediaChange) f ids

theorem sweptRows_none (h : f k = none) : sweptRows dressId staleBefore now f ids k = none := by
  unfold sweptRows
  rw [applyEach_row (once_sweep staleBefore now), h]
  split <;> rfl

theorem sweptRows_some
    (hids : ∀ i v, f i = some v → (DressMediaChange.sweep dressId staleBefore now).apply v ≠ none → i ∈ ids)
    (h : f k = some v) :
    sweptRows dressId staleBefore now f ids k = some (((DressMediaChange.sweep dressId staleBefore now).apply v).getD v) := by
  unfold sweptRows
  rw [applyEach_row (once_sweep staleBefore now), h]
  change (if k ∈ ids then ((DressMediaChange.sweep dressId staleBefore now).apply v).or (some v) else some v) = _
  cases ha : (DressMediaChange.sweep dressId staleBefore now).apply v with
  | none => simp
  | some v' => rw [if_pos (hids k v h (by rw [ha]; simp))]; rfl

theorem sweptRows_live
    (hids : ∀ i v, f i = some v → (DressMediaChange.sweep dressId staleBefore now).apply v ≠ none → i ∈ ids)
    (hv : v.deletedAt = none) :
    sweptRows dressId staleBefore now f ids k = some v ↔
      f k = some v ∧ (DressMediaChange.sweep dressId staleBefore now).apply v = none := by
  cases hk : f k with
  | none =>
    rw [sweptRows_none hk]
    simp
  | some u =>
    rw [sweptRows_some hids hk]
    cases ha : (DressMediaChange.sweep dressId staleBefore now).apply u with
    | none =>
      constructor <;> intro h
      · cases h
        exact ⟨rfl, ha⟩
      · cases h.1
        rfl
    | some u' =>
      constructor <;> intro h
      · cases h
        rw [(sweep_some ha).2] at hv
        cases hv
      · cases h.1
        rw [ha] at h
        cases h.2

def madeAt (f : Nat → Option DressMedia) (k : Nat) : Int := ((f k).map DressMedia.createdAt).getD 0

theorem madeAt_some (h : f k = some v) : madeAt f k = v.createdAt := by
  simp [madeAt, h]

theorem sweep_none_iff (hdress : v.dressId = dressId) (hwaits : v.waits = true) :
    (DressMediaChange.sweep dressId staleBefore now).apply v = none ↔ staleBefore ≤ v.createdAt := by
  obtain ⟨hlive, hpending⟩ := of_decide_eq_true hwaits
  have hof : v.of dressId = true := DressMedia.of_iff.2 ⟨hdress, hlive⟩
  simp only [DressMediaChange.apply]
  by_cases hold : v.createdAt < staleBefore
  · rw [if_pos ⟨hof, hpending, hold⟩]
    exact ⟨fun h => absurd h (Option.some_ne_none _), fun hle => absurd hold (by omega)⟩
  · rw [if_neg fun hc => hold hc.2.2]
    exact ⟨fun _ => by omega, fun _ => rfl⟩

/-- **A sweep leaves the uploads that are young enough**, and what is shown. -/
theorem Depicts.swept (h : Depicts f a) (hf : Keyed DressMedia.id f)
    (hdress : ∀ i v, f i = some v → v.dressId = dressId)
    (hids : ∀ i v, f i = some v → (DressMediaChange.sweep dressId staleBefore now).apply v ≠ none → i ∈ ids)
    (hmade : ∀ i v, f i = some v → made i = v.createdAt) :
    Depicts (sweptRows dressId staleBefore now f ids) ⟨a.shown, a.waiting.filter fun i => staleBefore ≤ made i⟩ := by
  have hrow : ∀ i v, v.deletedAt = none → (sweptRows dressId staleBefore now f ids i = some v ↔
      f i = some v ∧ (DressMediaChange.sweep dressId staleBefore now).apply v = none) := fun i v => sweptRows_live hids
  obtain ⟨l, hl, hshown⟩ := h.shown
  obtain ⟨m, hm, hwaiting⟩ := h.waiting
  refine ⟨⟨l, hl.congr fun i v hup => ?_, hshown⟩, _, hm.filter (q := fun i => staleBefore ≤ made i) hf fun i v hwaits => ?_, ?_⟩
  · have hlive : v.deletedAt = none := (of_decide_eq_true hup).1
    rw [hrow i v hlive, and_iff_left_iff_imp]
    intro _
    cases ha : (DressMediaChange.sweep dressId staleBefore now).apply v with
    | none => rfl
    | some v' =>
      have hwaits := waits_of_up hup
      rw [(sweep_some ha).1] at hwaits
      cases hwaits
  · have hlive : v.deletedAt = none := (of_decide_eq_true hwaits).1
    rw [hrow i v hlive, and_congr_right_iff]
    intro hi
    rw [sweep_none_iff (hdress i v hi) hwaits, hmade i v hi, decide_eq_true_iff]
  · rw [← hwaiting, List.filter_map]
    rfl

theorem sweptRows_madeAt
    (hids : ∀ i v, f i = some v → (DressMediaChange.sweep dressId staleBefore now).apply v ≠ none → i ∈ ids)
    (hk : f k = some v) : madeAt (sweptRows dressId staleBefore now f ids) k = v.createdAt := by
  rw [madeAt_some (sweptRows_some hids hk)]
  cases ha : (DressMediaChange.sweep dressId staleBefore now).apply v with
  | none => rfl
  | some v' => rw [Option.getD_some, (sweep_some ha).2]

theorem Depicts.sweptPresigned (h : Depicts f a) (hf : Keyed DressMedia.id f)
    (hdress : ∀ i u, f i = some u → u.dressId = dressId)
    (hids : ∀ i u, f i = some u → (DressMediaChange.sweep dressId (v.createdAt - ttl) now).apply u ≠ none → i ∈ ids)
    (hkeyed : Keyed DressMedia.id (sweptRows dressId (v.createdAt - ttl) now f ids))
    (hnew : ∀ j, k ≤ j → sweptRows dressId (v.createdAt - ttl) now f ids j = none) (hgone : f k = none)
    (hv : v.waits = true) (hid : v.id = k)
    (hmade : made = madeAt (Function.update (sweptRows dressId (v.createdAt - ttl) now f ids) k (some v))) :
    Depicts (sweptRows dressId (v.createdAt - ttl) now f ids) (a.swept ttl made k) ∧
      Depicts (Function.update (sweptRows dressId (v.createdAt - ttl) now f ids) k (some v))
        ⟨a.shown, (a.swept ttl made k).waiting ++ [k]⟩ := by
  have hold : ∀ i u, f i = some u → made i = u.createdAt := by
    intro i u hu
    have hik : i ≠ k := fun hik => by
      rw [hik, hgone] at hu
      cases hu
    rw [hmade, ← sweptRows_madeAt hids hu, madeAt, Function.update_of_ne hik]
    rfl
  have hswept := h.swept hf hdress hids hold
  have hmine : made k = v.createdAt := by rw [hmade, madeAt_some (Function.update_self ..)]
  rw [← hmine] at hswept
  rw [← hmine] at hkeyed hnew ⊢
  exact ⟨hswept, hswept.presigned hkeyed hnew hv hid⟩

theorem Apart.swept (h : Apart f)
    (hids : ∀ i v, f i = some v → (DressMediaChange.sweep dressId staleBefore now).apply v ≠ none → i ∈ ids) :
    Apart (sweptRows dressId staleBefore now f ids) :=
  h.of_old fun _ _ hu hup => ((sweptRows_live hids (of_decide_eq_true hup).1).1 hu).1

theorem sweptRows_keyed (hf : Keyed DressMedia.id f)
    (hids : ∀ i v, f i = some v → (DressMediaChange.sweep dressId staleBefore now).apply v ≠ none → i ∈ ids) :
    Keyed DressMedia.id (sweptRows dressId staleBefore now f ids) := by
  intro i v hv
  cases hi : f i with
  | none =>
    rw [sweptRows_none hi] at hv
    cases hv
  | some u =>
    rw [sweptRows_some hids hi] at hv
    cases hv
    cases ha : (DressMediaChange.sweep dressId staleBefore now).apply u with
    | none => exact hf i u hi
    | some u' =>
      rw [Option.getD_some, (sweep_some ha).2]
      exact hf i u hi

theorem sweptRows_young
    (hids : ∀ i v, f i = some v → (DressMediaChange.sweep dressId staleBefore now).apply v ≠ none → i ∈ ids)
    (hv : sweptRows dressId staleBefore now f ids k = some v) (hwaits : v.waits = true) (hdress : v.dressId = dressId) :
    staleBefore ≤ v.createdAt :=
  (sweep_none_iff hdress hwaits).1 ((sweptRows_live hids (of_decide_eq_true hwaits).1).1 hv).2

/-! ## The reorder -/

def placedRows (dressId : Nat) : Int → List Nat → (Nat → Option DressMedia) → Nat → Option DressMedia
  | _, [], f => f
  | position, i :: ids, f => placedRows dressId (position + 1) ids
      (applyOne (S := schema) (T := .dressMedia) (.setSortOrder dressId position : DressMediaChange) f i)

theorem placedRows_row : ∀ (ids : List Nat) (position : Int) (f : Nat → Option DressMedia), ids.Nodup →
    (∀ i ∈ ids, ∃ v, f i = some v ∧ v.dressId = dressId ∧ v.up = true) →
    (∀ i, i ∉ ids → placedRows dressId position ids f i = f i) ∧
      ∀ (n i : Nat), ids[n]? = some i →
        ∃ v, f i = some v ∧ placedRows dressId position ids f i = some { v with sortOrder := position + n }
  | [], _, _, _, _ => ⟨fun _ _ => rfl, fun n i h => by simp at h⟩
  | j :: ids, position, f, hnodup, hthere => by
    obtain ⟨hj, hids⟩ := List.nodup_cons.1 hnodup
    obtain ⟨v, hv, hdress, hup⟩ := hthere j List.mem_cons_self
    obtain ⟨hlive, hready⟩ := of_decide_eq_true hup
    have hone : applyOne (S := schema) (T := .dressMedia) (.setSortOrder dressId position : DressMediaChange) f j =
        Function.update f j (some { v with sortOrder := position }) := by
      have happly : (f j).bind (schema.apply .dressMedia (.setSortOrder dressId position : DressMediaChange)) =
          some { v with sortOrder := position } := by
        rw [hv]
        show DressMediaChange.apply v (.setSortOrder dressId position) = _
        rw [DressMediaChange.apply, if_pos ⟨DressMedia.of_iff.2 ⟨hdress, hlive⟩, hready⟩]
      unfold applyOne
      rw [happly]
    have hother : ∀ i, i ≠ j → Function.update f j (some { v with sortOrder := position }) i = f i :=
      fun i hi => Function.update_of_ne hi _ _
    have hne : ∀ i ∈ ids, i ≠ j := fun i hi hij => hj (hij ▸ hi)
    obtain ⟨hrest, hplaced⟩ := placedRows_row ids (position + 1) (Function.update f j (some { v with sortOrder := position })) hids
      fun i hi => by
        obtain ⟨u, hu, hrow⟩ := hthere i (List.mem_cons_of_mem _ hi)
        exact ⟨u, by rw [hother i (hne i hi)]; exact hu, hrow⟩
    unfold placedRows
    rw [hone]
    refine ⟨fun i hi => ?_, fun n i hi => ?_⟩
    · rw [hrest i fun h => hi (List.mem_cons_of_mem _ h)]
      exact hother i fun h => hi (h ▸ List.mem_cons_self)
    · cases n with
      | zero =>
        have hij : j = i := by simpa using hi
        subst hij
        refine ⟨v, hv, ?_⟩
        rw [hrest j hj, Function.update_self]
        simp
      | succ n =>
        have hi : ids[n]? = some i := by simpa using hi
        obtain ⟨u, hu, hrow⟩ := hplaced n i hi
        rw [hother i (hne i (List.mem_of_getElem? hi))] at hu
        refine ⟨u, hu, ?_⟩
        rw [hrow]
        congr 2
        push_cast
        omega

theorem placedRows_up (h : Depicts f a) (hf : Keyed DressMedia.id f)
    (hdress : ∀ i v, f i = some v → v.dressId = dressId) (hperm : ids.Perm a.shown) :
    (∀ i, i ∉ ids → placedRows dressId 0 ids f i = f i) ∧
      ∀ i ∈ ids, ∃ u v, f i = some u ∧ u.up = true ∧ placedRows dressId 0 ids f i = some v ∧ v.up = true ∧ v.id = i ∧
        ∃ n : Nat, ids[n]? = some i ∧ v.sortOrder = n := by
  obtain ⟨l, hl, hshown⟩ := h.shown
  have hnodup : ids.Nodup := hperm.nodup_iff.2 (hshown ▸ hl.nodup)
  have hmem : ∀ i, i ∈ ids → ∃ v, f i = some v ∧ v.up = true := fun i hi => (h.mem_shown hf).1 (hperm.mem_iff.1 hi)
  obtain ⟨hrest, hplaced⟩ := placedRows_row ids 0 f hnodup fun i hi => by
    obtain ⟨v, hv, hup⟩ := hmem i hi
    exact ⟨v, hv, hdress i v hv, hup⟩
  refine ⟨hrest, fun i hi => ?_⟩
  obtain ⟨n, hn⟩ := List.mem_iff_getElem?.1 hi
  obtain ⟨u, hu, hrow⟩ := hplaced n i hn
  obtain ⟨u', hu', hup⟩ := hmem i hi
  rw [hu] at hu'
  cases hu'
  exact ⟨u, _, hu, hup, hrow, hup, hf i u hu, n, hn, by simp⟩

theorem Apart.reordered (h : Depicts f a) (hf : Keyed DressMedia.id f)
    (hdress : ∀ i v, f i = some v → v.dressId = dressId) (hperm : ids.Perm a.shown) :
    Apart (placedRows dressId 0 ids f) := by
  obtain ⟨hrest, hplaced⟩ := placedRows_up h hf hdress hperm
  have hplace : ∀ i v, placedRows dressId 0 ids f i = some v → v.up = true → ∃ n : Nat, ids[n]? = some i ∧ v.sortOrder = n := by
    intro i v hv hup
    by_cases hi : i ∈ ids
    · obtain ⟨-, v', -, -, hrow, -, -, hn⟩ := hplaced i hi
      rw [hrow] at hv
      cases hv
      exact hn
    · rw [hrest i hi] at hv
      exact absurd (hperm.mem_iff.2 ((h.mem_shown hf).2 ⟨v, hv, hup⟩)) hi
  intro i j u v hu hv hup hvp hsame
  obtain ⟨n, hn, hun⟩ := hplace i u hu hup
  obtain ⟨m, hm, hvm⟩ := hplace j v hv hvp
  have hnm : n = m := by omega
  rw [hnm, hm] at hn
  exact (Option.some.inj hn).symm

theorem Depicts.reordered (h : Depicts f a) (hf : Keyed DressMedia.id f)
    (hdress : ∀ i v, f i = some v → v.dressId = dressId) (hperm : ids.Perm a.shown) :
    Depicts (placedRows dressId 0 ids f) ⟨ids, a.waiting⟩ := by
  obtain ⟨hrest, hplaced⟩ := placedRows_up h hf hdress hperm
  obtain ⟨l, hl, hshown⟩ := h.shown
  obtain ⟨m, hm, hwaiting⟩ := h.waiting
  have hnodup : ids.Nodup := hperm.nodup_iff.2 (hshown ▸ hl.nodup)
  have hkeyed : Keyed DressMedia.id (placedRows dressId 0 ids f) := by
    intro i v hv
    by_cases hi : i ∈ ids
    · obtain ⟨-, v', -, -, hrow, -, hid, -⟩ := hplaced i hi
      rw [hrow] at hv
      cases hv
      exact hid
    · rw [hrest i hi] at hv
      exact hf i v hv
  have hlists : ∃ l', Lists DressMedia.sortOrder DressMedia.id (placedRows dressId 0 ids f) DressMedia.up l' ∧
      l'.map DressMedia.id = ids := lists_placed hkeyed hnodup (fun i => by
    constructor
    · intro hi
      obtain ⟨-, v, -, -, hrow, hup, -⟩ := hplaced i hi
      exact ⟨v, hrow, hup⟩
    · rintro ⟨v, hv, hup⟩
      by_contra hi
      rw [hrest i hi] at hv
      exact hi (hperm.mem_iff.2 ((h.mem_shown hf).2 ⟨v, hv, hup⟩))) fun n i v hn hv => by
    obtain ⟨-, v', -, -, hrow, -, -, n', hn', hrank⟩ := hplaced i (List.mem_of_getElem? hn)
    rw [hrow] at hv
    cases hv
    rw [hrank]
    obtain ⟨hlt, -⟩ := List.getElem?_eq_some_iff.1 hn
    exact congrArg _ ((List.getElem?_inj hlt hnodup).1 (hn.trans hn'.symm)).symm
  obtain ⟨l', hl', hids⟩ := hlists
  refine ⟨⟨l', hl', hids⟩, m, hm.congr fun i v hwaits => ?_, hwaiting⟩
  by_cases hi : i ∈ ids
  · obtain ⟨u, v', hu, hup, hrow, hup', -⟩ := hplaced i hi
    have hdown : ∀ r : DressMedia, r.up = true → some r ≠ some v := by
      rintro r hr ⟨⟩
      rw [waits_of_up hr] at hwaits
      cases hwaits
    rw [hrow, hu]
    exact ⟨fun h => absurd h (hdown v' hup'), fun h => absurd h (hdown u hup)⟩
  · rw [hrest i hi]

end Catalog
