import Mathlib.Data.List.Sort
/-!
# Ranked — rows shown in the order of a rank

A table keeps an order in a column: rows come by their rank, and rows of one rank by their key.  A row ranked behind the others is
shown behind them, a row taken out leaves the others as they were, and rows ranked anew are shown as they were ranked.
-/
namespace Ranked

variable {α : Type} {rank : α → Int} {key : α → Nat} {f : Nat → Option α} {p : α → Bool} {l l' : List α} {a b : α} {i : Nat}

def Before (rank : α → Int) (key : α → Nat) (a b : α) : Prop := rank a < rank b ∨ rank a = rank b ∧ key a ≤ key b

instance : DecidableRel (Before rank key) := fun _ _ => instDecidableOr

def ranked (rank : α → Int) (key : α → Nat) (l : List α) : List α := List.insertionSort (Before rank key) l

theorem Before.of_lt (h : rank a < rank b) : Before rank key a b := .inl h

theorem Before.rank_le (h : Before rank key a b) : rank a ≤ rank b := by
  unfold Before at h
  omega

theorem Before.trans {c : α} (h : Before rank key a b) (h' : Before rank key b c) : Before rank key a c := by
  unfold Before at *
  omega

theorem Before.total (a b : α) : Before rank key a b ∨ Before rank key b a := by
  unfold Before
  omega

theorem Before.same_key (h : Before rank key a b) (h' : Before rank key b a) : key a = key b := by
  unfold Before at *
  omega

theorem ranked_perm (l : List α) : (ranked rank key l).Perm l := List.perm_insertionSort _ _

theorem ranked_sorted (l : List α) : (ranked rank key l).Pairwise (Before rank key) :=
  @List.pairwise_insertionSort _ (Before rank key) _ ⟨Before.total⟩ ⟨fun _ _ _ => Before.trans⟩ l

theorem eq_of_key (hkeys : (l.map key).Nodup) (ha : a ∈ l) (hb : b ∈ l) (h : key a = key b) : a = b :=
  List.inj_on_of_nodup_map hkeys ha hb h

theorem eq_of_perm (hkeys : (l.map key).Nodup) (h : l.Pairwise (Before rank key)) (h' : l'.Pairwise (Before rank key))
    (hperm : l.Perm l') : l = l' := by
  refine List.Perm.eq_of_pairwise (fun a b ha hb hab hba => ?_) h h' hperm
  exact eq_of_key hkeys ha (hperm.mem_iff.2 hb) (hab.same_key hba)

/-! ## Lists of rows -/

/-- **`l` lists the rows that are `p`**, in their order. -/
structure Lists (rank : α → Int) (key : α → Nat) (f : Nat → Option α) (p : α → Bool) (l : List α) : Prop where
  ordered : l.Pairwise (Before rank key)
  nodup : (l.map key).Nodup
  mem : ∀ r, r ∈ l ↔ ∃ i, f i = some r ∧ p r = true

def Keyed (key : α → Nat) (f : Nat → Option α) : Prop := ∀ i r, f i = some r → key r = i

theorem Lists.row (h : Lists rank key f p l) (hf : Keyed key f) (ha : a ∈ l) : f (key a) = some a ∧ p a = true := by
  obtain ⟨i, hi, hp⟩ := (h.mem a).1 ha
  rw [hf i a hi]
  exact ⟨hi, hp⟩

theorem Lists.unique (h : Lists rank key f p l) (h' : Lists rank key f p l') : l = l' := by
  refine eq_of_perm h.nodup h.ordered h'.ordered ?_
  refine (List.perm_ext_iff_of_nodup h.nodup.of_map h'.nodup.of_map).2 fun r => ?_
  rw [h.mem, h'.mem]

theorem Lists.congr {f' : Nat → Option α} (h : Lists rank key f p l)
    (hsame : ∀ i r, p r = true → (f' i = some r ↔ f i = some r)) : Lists rank key f' p l := by
  refine ⟨h.ordered, h.nodup, fun r => (h.mem r).trans ?_⟩
  constructor <;> rintro ⟨i, hi, hp⟩
  · exact ⟨i, (hsame i r hp).2 hi, hp⟩
  · exact ⟨i, (hsame i r hp).1 hi, hp⟩

theorem Lists.of_mem {f' : Nat → Option α} {p' : α → Bool} (h : Lists rank key f p l)
    (hmem : ∀ r, (∃ i, f' i = some r ∧ p' r = true) ↔ ∃ i, f i = some r ∧ p r = true) : Lists rank key f' p' l :=
  ⟨h.ordered, h.nodup, fun r => (h.mem r).trans (hmem r).symm⟩

theorem Lists.beside (h : Lists rank key f p l) (hwas : ∀ r, f i = some r → p r = false) (hp : p a = false) :
    Lists rank key (Function.update f i (some a)) p l := by
  refine h.congr fun j r hr => ?_
  by_cases hj : j = i
  · subst hj
    rw [Function.update_self]
    constructor <;> intro hrow
    · cases hrow
      rw [hp] at hr
      cases hr
    · rw [hwas r hrow] at hr
      cases hr
  · rw [Function.update_of_ne hj]

theorem Lists.filter {f' : Nat → Option α} {q : Nat → Bool} (h : Lists rank key f p l) (hf : Keyed key f)
    (hrow : ∀ i r, p r = true → (f' i = some r ↔ f i = some r ∧ q i = true)) :
    Lists rank key f' p (l.filter fun r => q (key r)) := by
  refine ⟨h.ordered.filter _, h.nodup.sublist (List.filter_sublist.map _), fun r => ?_⟩
  rw [List.mem_filter, h.mem]
  constructor
  · rintro ⟨⟨i, hi, hp⟩, hq⟩
    rw [hf i r hi] at hq
    exact ⟨i, (hrow i r hp).2 ⟨hi, hq⟩, hp⟩
  · rintro ⟨i, hi, hp⟩
    obtain ⟨hi, hq⟩ := (hrow i r hp).1 hi
    rw [hf i r hi]
    exact ⟨⟨i, hi, hp⟩, hq⟩

theorem Lists.erase (h : Lists rank key f p l) (hf : Keyed key f) (hp : p a = false) :
    Lists rank key (Function.update f i (some a)) p (l.filter fun r => decide (key r ≠ i)) := by
  refine h.filter (q := fun j => decide (j ≠ i)) hf fun j r hr => ?_
  by_cases hj : j = i
  · subst hj
    rw [Function.update_self]
    constructor
    · intro hrow
      cases hrow
      rw [hp] at hr
      cases hr
    · rintro ⟨-, hne⟩
      simp at hne
  · rw [Function.update_of_ne hj]
    simp [hj]

theorem Lists.concat (h : Lists rank key f p l) (hf : Keyed key f) (hwas : ∀ r, f i = some r → p r = false) (hp : p a = true)
    (ha : key a = i) (hlast : ∀ b ∈ l, Before rank key b a) :
    Lists rank key (Function.update f i (some a)) p (l ++ [a]) := by
  have hnew : i ∉ l.map key := by
    intro hmem
    obtain ⟨b, hb, hkey⟩ := List.mem_map.1 hmem
    obtain ⟨hrow, hpb⟩ := h.row hf hb
    rw [hkey] at hrow
    rw [hwas b hrow] at hpb
    cases hpb
  constructor
  · rw [List.pairwise_append]
    refine ⟨h.ordered, List.pairwise_singleton _ _, fun b hb c hc => ?_⟩
    rw [List.mem_singleton.1 hc]
    exact hlast b hb
  · rw [List.map_append, List.nodup_append]
    refine ⟨h.nodup, List.nodup_singleton _, fun j hj k hk => ?_⟩
    rw [List.map_singleton, List.mem_singleton] at hk
    rw [hk, ha]
    rintro rfl
    exact hnew hj
  · intro r
    rw [List.mem_append, List.mem_singleton, h.mem]
    constructor
    · rintro (⟨j, hj, hpr⟩ | rfl)
      · refine ⟨j, ?_, hpr⟩
        rw [Function.update_of_ne fun hji => ?_, hj]
        rw [hji] at hj
        rw [hwas r hj] at hpr
        cases hpr
      · exact ⟨i, Function.update_self .., hp⟩
    · rintro ⟨j, hj, hpr⟩
      by_cases hji : j = i
      · subst hji
        rw [Function.update_self] at hj
        cases hj
        exact .inr rfl
      · rw [Function.update_of_ne hji] at hj
        exact .inl ⟨j, hj, hpr⟩

theorem lists_placed {ids : List Nat} (hf : Keyed key f) (hids : ids.Nodup) (hmem : ∀ i, i ∈ ids ↔ ∃ r, f i = some r ∧ p r = true)
    (hrank : ∀ (k i : Nat) r, ids[k]? = some i → f i = some r → rank r = k) :
    ∃ l, Lists rank key f p l ∧ l.map key = ids := by
  have hkeys : ∀ js : List Nat, (∀ j ∈ js, j ∈ ids) → (js.filterMap f).map key = js := by
    intro js hjs
    induction js with
    | nil => rfl
    | cons j js ih =>
      obtain ⟨r, hr, -⟩ := (hmem j).1 (hjs j List.mem_cons_self)
      rw [List.filterMap_cons_some hr, List.map_cons, hf j r hr, ih fun k hk => hjs k (List.mem_cons_of_mem _ hk)]
  have hmap := hkeys ids fun _ h => h
  refine ⟨ids.filterMap f, ⟨?_, by rw [hmap]; exact hids, fun r => ?_⟩, hmap⟩
  · have hplace : ∀ k (hk : k < (ids.filterMap f).length), rank (ids.filterMap f)[k] = k := by
      intro k hk
      have hget : ((ids.filterMap f).map key)[k]? = ids[k]? := by rw [hmap]
      rw [List.getElem?_map, List.getElem?_eq_getElem hk, Option.map_some] at hget
      obtain ⟨i, -, hi⟩ := List.mem_filterMap.1 (List.getElem_mem hk)
      refine hrank k _ _ hget.symm ?_
      rw [hf i _ hi]
      exact hi
    rw [List.pairwise_iff_getElem]
    intro k k' hk hk' hlt
    refine .of_lt ?_
    rw [hplace k hk, hplace k' hk']
    omega
  · rw [List.mem_filterMap]
    constructor
    · rintro ⟨i, hi, hr⟩
      obtain ⟨r', hr', hp⟩ := (hmem i).1 hi
      rw [hr] at hr'
      cases hr'
      exact ⟨i, hr, hp⟩
    · rintro ⟨i, hr, hp⟩
      exact ⟨i, (hmem i).2 ⟨r, hr, hp⟩, hr⟩

/-! ## Tables -/

def rowsOf (f : Nat → Option α) (n : Nat) : List α := (List.range n).filterMap f

theorem mem_rowsOf {n : Nat} : a ∈ rowsOf f n ↔ ∃ i, i < n ∧ f i = some a := by
  simp [rowsOf]

theorem nodup_rowsOf (hf : Keyed key f) (n : Nat) : ((rowsOf f n).map key).Nodup := by
  have hfilter : (rowsOf f n).map key = (List.range n).filter fun i => (f i).isSome := by
    unfold rowsOf
    induction List.range n with
    | nil => rfl
    | cons i l ih =>
      cases hi : f i with
      | none => simp [hi, ih]
      | some r => simp [hi, ih, hf i r hi]
  rw [hfilter]
  exact List.nodup_range.filter _

theorem lists_ranked (hf : Keyed key f) {n : Nat} (hn : ∀ i, n ≤ i → f i = none) :
    Lists rank key f p (ranked rank key ((rowsOf f n).filter p)) := by
  have hperm : (ranked rank key ((rowsOf f n).filter p)).Perm ((rowsOf f n).filter p) := ranked_perm _
  refine ⟨ranked_sorted _, ?_, fun r => ?_⟩
  · exact ((hperm.map key).nodup_iff).2 ((nodup_rowsOf hf n).sublist (List.filter_sublist.map _))
  · rw [hperm.mem_iff, List.mem_filter, mem_rowsOf]
    constructor
    · rintro ⟨⟨i, -, hi⟩, hp⟩
      exact ⟨i, hi, hp⟩
    · rintro ⟨i, hi, hp⟩
      refine ⟨⟨i, ?_, hi⟩, hp⟩
      by_contra hlt
      rw [hn i (Nat.le_of_not_lt hlt)] at hi
      cases hi

theorem Lists.length_add {rank' : α → Int} {q s : α → Bool} (h : Lists rank key f p l) (h' : Lists rank' key f q l')
    (hf : Keyed key f) {n : Nat} (hn : ∀ i, n ≤ i → f i = none) (hs : ∀ i r, f i = some r → s r = (p r || q r))
    (hapart : ∀ i r, f i = some r → p r = true → q r = false) : (rowsOf f n).countP s = l.length + l'.length := by
  have hnodup := (nodup_rowsOf hf n).of_map
  have hmem {r : α} : r ∈ rowsOf f n ↔ ∃ i, f i = some r := by
    rw [mem_rowsOf]
    constructor
    · rintro ⟨i, -, hi⟩
      exact ⟨i, hi⟩
    · rintro ⟨i, hi⟩
      refine ⟨i, ?_, hi⟩
      by_contra hlt
      rw [hn i (Nat.le_of_not_lt hlt)] at hi
      cases hi
  rw [List.countP_eq_length_filter, ← List.length_append]
  refine List.Perm.length_eq ((List.perm_ext_iff_of_nodup (hnodup.filter _) ?_).2 fun r => ?_)
  · rw [List.nodup_append]
    refine ⟨h.nodup.of_map, h'.nodup.of_map, fun a ha b hb hab => ?_⟩
    obtain ⟨i, hi, hp⟩ := (h.mem a).1 ha
    obtain ⟨j, -, hq⟩ := (h'.mem b).1 hb
    rw [← hab, hapart i a hi hp] at hq
    cases hq
  · rw [List.mem_filter, List.mem_append, hmem, h.mem, h'.mem]
    constructor
    · rintro ⟨⟨i, hi⟩, hr⟩
      rw [hs i r hi, Bool.or_eq_true] at hr
      exact hr.imp (fun hp => ⟨i, hi, hp⟩) fun hq => ⟨i, hi, hq⟩
    · rintro (⟨i, hi, hp⟩ | ⟨i, hi, hq⟩)
      · exact ⟨⟨i, hi⟩, by rw [hs i r hi, hp, Bool.true_or]⟩
      · exact ⟨⟨i, hi⟩, by rw [hs i r hi, hq, Bool.or_true]⟩

end Ranked
