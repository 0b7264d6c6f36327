import Mathlib.Algebra.GroupWithZero.Nat
import Mathlib.Data.List.Sort
import Mathlib.Data.List.Perm.Basic
/-!
# Paging — a table worked page by page

A job that deletes or blanks rows takes a page at a time: the ids of the first `limit` rows its predicate selects, in
id order, and one statement over exactly those ids.  With unique ids a page reaches only rows the predicate selects
and reaches `limit` of them while there are as many; what the statement leaves behind is smaller by exactly what it
returned.  `drain` repeats a step until a short page or the loop's bound, and `Paced` is what a step must promise for
`drain_total`: the loop works through as much as its bound allows, and no chunk exceeds the page.
-/
namespace Paging

section Page

variable {α : Type} {key : α → Nat} {due : α → Bool} {limit : Nat} {rows rows' : List α} {values : α → α}

def page (key : α → Nat) (due : α → Bool) (limit : Nat) (rows : List α) : List Nat :=
  (((rows.filter due).map key).insertionSort (· ≤ ·)).take limit

def purge (key : α → Nat) (ids : List Nat) (rows : List α) : List α := rows.filter fun row => key row ∉ ids

def scrub (key : α → Nat) (values : α → α) (ids : List Nat) (rows : List α) : List α :=
  rows.map fun row => if key row ∈ ids then values row else row

def returned (key : α → Nat) (ids : List Nat) (rows : List α) : Nat := rows.countP fun row => key row ∈ ids

theorem page_length (key : α → Nat) (due : α → Bool) (limit : Nat) (rows : List α) :
    (page key due limit rows).length = min limit (rows.countP due) := by
  simp [page, List.length_insertionSort, List.countP_eq_length_filter]

theorem mem_page {i : Nat} (h : i ∈ page key due limit rows) : ∃ row ∈ rows, due row = true ∧ key row = i := by
  obtain ⟨row, hrow, rfl⟩ := List.mem_map.1 ((List.mem_insertionSort _).1 (List.mem_of_mem_take h))
  obtain ⟨hmem, hdue⟩ := List.mem_filter.1 hrow
  exact ⟨row, hmem, hdue, rfl⟩

theorem page_nodup (hkey : (rows.map key).Nodup) : (page key due limit rows).Nodup :=
  ((List.perm_insertionSort _ _).nodup_iff.2 (hkey.sublist (List.filter_sublist.map _))).sublist (List.take_sublist _ _)

theorem due_of_page (due : α → Bool) (limit : Nat) (hkey : (rows.map key).Nodup) :
    ∀ row ∈ rows, key row ∈ page key due limit rows → due row = true := by
  intro row hrow h
  obtain ⟨other, hother, hdue, heq⟩ := mem_page h
  rwa [List.inj_on_of_nodup_map hkey hrow hother heq.symm]

theorem returned_page (due : α → Bool) (limit : Nat) (hkey : (rows.map key).Nodup) :
    returned key (page key due limit rows) rows = min limit (rows.countP due) := by
  have hperm : ((rows.filter fun row => key row ∈ page key due limit rows).map key).Perm (page key due limit rows) := by
    refine (List.perm_ext_iff_of_nodup (hkey.sublist (List.filter_sublist.map _)) (page_nodup hkey)).2 fun i => ?_
    constructor
    · intro hi
      obtain ⟨row, hrow, rfl⟩ := List.mem_map.1 hi
      simpa using (List.mem_filter.1 hrow).2
    · intro hi
      obtain ⟨row, hrow, -, rfl⟩ := mem_page hi
      exact List.mem_map.2 ⟨row, List.mem_filter.2 ⟨hrow, by simpa using hi⟩, rfl⟩
  rw [returned, List.countP_eq_length_filter, ← List.length_map (f := key), hperm.length_eq, page_length]

variable {ids : List Nat} {row : α}

theorem purge_count {wide : α → Bool} (h : ∀ row ∈ rows, key row ∈ ids → wide row = true) :
    (purge key ids rows).countP wide + returned key ids rows = rows.countP wide := by
  induction rows with
  | nil => rfl
  | cons row rows ih =>
    have hrest := ih fun r hr => h r (List.mem_cons_of_mem _ hr)
    have hrow := h row List.mem_cons_self
    by_cases hk : key row ∈ ids
    · have hw := hrow hk
      simp [purge, returned, hk, hw] at hrest ⊢
      omega
    · simp [purge, returned, List.countP_cons, hk] at hrest ⊢
      omega

theorem scrub_count {wide : α → Bool} (h : ∀ row ∈ rows, key row ∈ ids → wide row = true)
    (hv : ∀ row, wide (values row) = false) :
    (scrub key values ids rows).countP wide + returned key ids rows = rows.countP wide := by
  induction rows with
  | nil => rfl
  | cons row rows ih =>
    have hrest := ih fun r hr => h r (List.mem_cons_of_mem _ hr)
    have hrow := h row List.mem_cons_self
    by_cases hk : key row ∈ ids
    · have hw := hrow hk
      simp [scrub, returned, hk, hw, hv] at hrest ⊢
      omega
    · simp [scrub, returned, List.countP_cons, hk] at hrest ⊢
      omega

theorem purge_none (h : returned key ids rows = 0) : purge key ids rows = rows := by
  refine List.filter_eq_self.2 fun row hrow => ?_
  simpa using List.countP_eq_zero.1 h row hrow

theorem scrub_none (h : returned key ids rows = 0) : scrub key values ids rows = rows := by
  refine (List.map_congr_left fun row hrow => ?_).trans rows.map_id
  rw [if_neg (by simpa using List.countP_eq_zero.1 h row hrow), id]

theorem purge_keys (hkey : (rows.map key).Nodup) (ids : List Nat) : ((purge key ids rows).map key).Nodup :=
  hkey.sublist (List.filter_sublist.map _)

theorem scrub_keys (hkey : (rows.map key).Nodup) (hv : ∀ row, key (values row) = key row) (ids : List Nat) :
    ((scrub key values ids rows).map key).Nodup := by
  have hsame : (scrub key values ids rows).map key = rows.map key := by
    rw [scrub, List.map_map]
    refine List.map_congr_left fun row _ => ?_
    by_cases hk : key row ∈ ids
    · simp [hk, hv]
    · simp [hk]
  rwa [hsame]

def Purged (due : α → Prop) (rows rows' : List α) : Prop :=
  ∃ keep : α → Bool, (∀ row ∈ rows, ¬ due row → keep row = true) ∧ rows' = rows.filter keep

def Scrubbed (due : α → Prop) (values : α → α) (rows rows' : List α) : Prop :=
  ∃ hit : α → Bool, (∀ row ∈ rows, hit row = true → due row) ∧ rows' = rows.map fun row => bif hit row then values row else row

theorem Purged.refl (due : α → Prop) (rows : List α) : Purged due rows rows :=
  ⟨fun _ => true, fun _ _ _ => rfl, by simp⟩

theorem Purged.trans {due : α → Prop} {a b c : List α} (h : Purged due a b) (h' : Purged due b c) : Purged due a c := by
  obtain ⟨keep, hkeep, rfl⟩ := h
  obtain ⟨keep', hkeep', rfl⟩ := h'
  refine ⟨fun row => keep row && keep' row, fun row hrow hdue => ?_, by simp [List.filter_filter, Bool.and_comm]⟩
  have h1 := hkeep row hrow hdue
  have h2 := hkeep' row (List.mem_filter.2 ⟨hrow, h1⟩) hdue
  simp [h1, h2]

theorem Purged.mem {due : α → Prop} (h : Purged due rows rows') (hrow : row ∈ rows') : row ∈ rows := by
  obtain ⟨keep, -, rfl⟩ := h
  exact (List.mem_filter.1 hrow).1

theorem Purged.kept {due : α → Prop} (h : Purged due rows rows') (hrow : row ∈ rows) (hdue : ¬ due row) :
    row ∈ rows' := by
  obtain ⟨keep, hkeep, rfl⟩ := h
  exact List.mem_filter.2 ⟨hrow, hkeep row hrow hdue⟩

theorem Scrubbed.refl (due : α → Prop) (values : α → α) (rows : List α) : Scrubbed due values rows rows := by
  refine ⟨fun _ => false, fun row hrow h => ?_, by simp⟩
  cases h

theorem Scrubbed.trans {due : α → Prop} (hv : ∀ row, ¬ due (values row)) {a b c : List α}
    (h : Scrubbed due values a b) (h' : Scrubbed due values b c) : Scrubbed due values a c := by
  obtain ⟨hit, hhit, rfl⟩ := h
  obtain ⟨hit', hhit', rfl⟩ := h'
  refine ⟨fun row => hit row || (hit' row && !hit row), fun row hrow hr => ?_, ?_⟩
  · cases h1 : hit row with
    | true => exact hhit row hrow h1
    | false =>
      have h2 : hit' row = true := by simpa [h1] using hr
      exact hhit' row (List.mem_map.2 ⟨row, hrow, by simp [h1]⟩) h2
  · rw [List.map_map]
    refine List.map_congr_left fun row hrow => ?_
    cases h1 : hit row with
    | false => simp [h1]
    | true =>
      have h2 : hit' (values row) = false := by
        by_contra h2
        exact hv row (hhit' _ (List.mem_map.2 ⟨row, hrow, by simp [h1]⟩) (by simpa using h2))
      simp [h1, h2]

theorem Scrubbed.kept {due : α → Prop} (h : Scrubbed due values rows rows') (hrow : row ∈ rows) (hdue : ¬ due row) :
    row ∈ rows' := by
  obtain ⟨hit, hhit, rfl⟩ := h
  have hnot : hit row = false := by
    by_contra hc
    exact hdue (hhit row hrow (by simpa using hc))
  exact List.mem_map.2 ⟨row, hrow, by simp [hnot]⟩

theorem purge_purged {clock : α → Prop} (h : ∀ row ∈ rows, key row ∈ ids → clock row) :
    Purged clock rows (purge key ids rows) :=
  ⟨fun row => key row ∉ ids, fun row hrow hc => by simpa using fun hk => hc (h row hrow hk), rfl⟩

theorem scrub_scrubbed {clock : α → Prop} (h : ∀ row ∈ rows, key row ∈ ids → clock row) :
    Scrubbed clock values rows (scrub key values ids rows) := by
  refine ⟨fun row => key row ∈ ids, fun row hrow hk => h row hrow (by simpa using hk), List.map_congr_left fun row _ => ?_⟩
  by_cases hk : key row ∈ ids
  · simp [hk]
  · simp [hk]

end Page

/-! ## The loop -/

section Drain

variable {σ ε : Type} {size : Nat} {step : σ → Except ε (Nat × σ)}

structure Drained (σ : Type) where
  chunks : List Nat
  failed : Bool
  state : σ

def Drained.total (d : Drained σ) : Nat := d.chunks.sum

/-- One page a step; a short page ends the loop, `bound` steps end it anyway. -/
def drain (size : Nat) (step : σ → Except ε (Nat × σ)) : Nat → σ → Drained σ
  | 0, s => ⟨[], false, s⟩
  | n + 1, s =>
    match step s with
    | .error _ => ⟨[], true, s⟩
    | .ok (count, s') =>
      if count < size then ⟨[count], false, s'⟩
      else
        let rest := drain size step n s'
        ⟨count :: rest.chunks, rest.failed, rest.state⟩

variable {n : Nat} {s : σ}

theorem drain_short {count : Nat} {s' : σ} (h : step s = .ok (count, s')) (hlt : count < size) :
    drain size step (n + 1) s = ⟨[count], false, s'⟩ := by
  rw [drain, h]
  exact if_pos hlt

theorem drain_full {count : Nat} {s' : σ} (h : step s = .ok (count, s')) (hle : ¬ count < size) :
    drain size step (n + 1) s =
      ⟨count :: (drain size step n s').chunks, (drain size step n s').failed, (drain size step n s').state⟩ := by
  rw [drain, h]
  exact if_neg hle

theorem drain_error {e : ε} (h : step s = .error e) : drain size step (n + 1) s = ⟨[], true, s⟩ := by
  rw [drain, h]

/-- **A step that takes a page**: in a sound state it never raises, works `size` of what is left while there is as much,
takes as much off every measure it is paced by, moves only as `Moves` allows, and not at all when nothing is left. -/
structure Paced (size : Nat) (step : σ → Except ε (Nat × σ)) (Sound : σ → Prop) (depth backlog : σ → Nat)
    (Moves : σ → σ → Prop) : Prop where
  runs : ∀ s, Sound s → ∃ s', step s = .ok (min size (depth s), s') ∧ Sound s' ∧
    depth s' + min size (depth s) = depth s ∧ backlog s' + min size (depth s) = backlog s ∧ Moves s s' ∧
    (depth s = 0 → s' = s)

variable {Sound : σ → Prop} {depth backlog : σ → Nat} {Moves : σ → σ → Prop}

theorem Paced.drain (P : Paced size step Sound depth backlog Moves) (hrefl : ∀ s, Moves s s)
    (htrans : ∀ {a b c}, Moves a b → Moves b c → Moves a c) (n : Nat) (hs : Sound s) :
    ∃ s', (drain size step n s).state = s' ∧ (drain size step n s).failed = false ∧ Sound s' ∧ Moves s s' ∧
      (drain size step n s).total = min (n * size) (depth s) ∧ backlog s' + (drain size step n s).total = backlog s := by
  induction n generalizing s with
  | zero => exact ⟨s, rfl, rfl, hs, hrefl s, by simp [Paging.drain, Drained.total], by simp [Paging.drain, Drained.total]⟩
  | succ n ih =>
    obtain ⟨s1, hstep, hs1, hleft, hback, hmove, -⟩ := P.runs s hs
    obtain ⟨s2, heq, hf, hsound, hmoves, htotal, hbacklog⟩ := ih hs1
    have hpages : (n + 1) * size = n * size + size := Nat.succ_mul n size
    by_cases hshort : min size (depth s) < size
    · rw [drain_short hstep hshort]
      refine ⟨s1, rfl, rfl, hs1, hmove, ?_, ?_⟩
      · simp only [Drained.total, List.sum_cons, List.sum_nil]
        omega
      · simpa [Drained.total] using hback
    · rw [drain_full hstep hshort]
      refine ⟨s2, heq, hf, hsound, htrans hmove hmoves, ?_, ?_⟩
      · have htotal' : (Paging.drain size step n s1).chunks.sum = min (n * size) (depth s1) := htotal
        simp only [Drained.total, List.sum_cons, htotal']
        omega
      · have hbacklog' : backlog s2 + (Paging.drain size step n s1).chunks.sum = backlog s1 := hbacklog
        simp only [Drained.total, List.sum_cons]
        omega

theorem Paced.idle (P : Paced size step Sound depth backlog Moves) (hsize : 0 < size) (n : Nat) (hs : Sound s)
    (h : depth s = 0) : (Paging.drain size step n s).state = s := by
  cases n with
  | zero => rfl
  | succ n =>
    obtain ⟨s', hstep, -, -, -, -, hsame⟩ := P.runs s hs
    rw [drain_short hstep (by omega)]
    exact hsame h

theorem drain_chunks (n : Nat) (s : σ) : (drain size step n s).chunks.length ≤ n := by
  induction n generalizing s with
  | zero => rfl
  | succ n ih =>
    cases hstep : step s with
    | error e => simp [drain_error hstep]
    | ok p =>
      by_cases hshort : p.1 < size
      · simp [drain_short hstep hshort]
      · simpa [drain_full hstep hshort] using ih p.2

theorem Paced.chunk_le (P : Paced size step Sound depth backlog Moves) (n : Nat) (hs : Sound s) :
    ∀ count ∈ (Paging.drain size step n s).chunks, count ≤ size := by
  induction n generalizing s with
  | zero => intro count hc; cases hc
  | succ n ih =>
    obtain ⟨s', hstep, hs', -⟩ := P.runs s hs
    intro count hc
    by_cases hshort : min size (depth s) < size
    · rw [drain_short hstep hshort] at hc
      rw [List.mem_singleton.1 hc]
      exact Nat.min_le_left _ _
    · rw [drain_full hstep hshort] at hc
      rcases List.mem_cons.1 hc with rfl | hc
      · exact Nat.min_le_left _ _
      · exact ih hs' count hc

end Drain

end Paging
