import Boutique.TxnEngine
/-!
# TxnLaw — what stays true of the database whatever the transactions do

A discipline says what a transaction may do to a row, with the advisory lock or without it; a cast gives one to each
thread, and one they all share.  While every statement obeys it, the database stays lawful: indexes and checks hold of
every version, every commit in the log obeyed its thread's discipline, and between two statements of one transaction
the others only evolve the rows.
-/
namespace Txn

variable {S : Schema}

/-- **What transactions may do to rows**: `Trans l` a row's change, `New l` a new row's contents, `l` saying whether
the writer holds the advisory lock. -/
structure Discipline (S : Schema) where
  Trans : Bool → (T : S.Table) → S.Row T → S.Row T → Prop
  New : Bool → (T : S.Table) → S.Row T → Prop
  refl : ∀ l T r, Trans l T r r
  trans : ∀ l T r r' r'', Trans l T r r' → Trans l T r' r'' → Trans l T r r''
  weaken : ∀ T r r', Trans false T r r' → Trans true T r r'
  new_trans : ∀ l T r r', New l T r → Trans l T r r' → New l T r'
  new_weaken : ∀ T r, New false T r → New true T r

namespace Discipline

variable (D : Discipline S)

def Becomes (l : Bool) (T : S.Table) : Option (S.Row T) → Option (S.Row T) → Prop
  | some r, some r' => D.Trans l T r r'
  | none, some r' => D.New l T r'
  | none, none => True
  | some _, none => False

variable {D} {l : Bool} {T : S.Table} {a b c : Option (S.Row T)}

theorem becomes_refl (l : Bool) (T : S.Table) (a : Option (S.Row T)) : D.Becomes l T a a := by
  cases a with
  | none => trivial
  | some r => exact D.refl l T r

theorem Becomes.trans (h : D.Becomes l T a b) (h' : D.Becomes l T b c) : D.Becomes l T a c := by
  cases a <;> cases b <;> cases c <;> simp only [Becomes] at h h' ⊢
  · exact h'
  · exact D.new_trans _ _ _ _ h h'
  · exact D.trans _ _ _ _ _ h h'

theorem Becomes.weaken (h : D.Becomes false T a b) : D.Becomes l T a b := by
  cases l with
  | false => exact h
  | true =>
    cases a <;> cases b <;> simp only [Becomes] at h ⊢
    · exact D.new_weaken _ _ h
    · exact D.weaken _ _ _ h

theorem Becomes.some_left {r : S.Row T} (h : D.Becomes l T (some r) b) : ∃ r', b = some r' ∧ D.Trans l T r r' := by
  cases b with
  | none => exact h.elim
  | some r' => exact ⟨r', rfl, h⟩

end Discipline

/-- **What each thread may do**, and what they may all do: each thread's discipline is part of the common one. -/
structure Cast (S : Schema) where
  common : Discipline S
  role : Tid → Discipline S
  sub : ∀ t l T r r', (role t).Trans l T r r' → common.Trans l T r r'
  new_sub : ∀ t l T r, (role t).New l T r → common.New l T r

variable {t : Tid} {E : Discipline S}

namespace Cast

variable {D : Cast S}

variable {l : Bool} {T : S.Table} {a b : Option (S.Row T)}

theorem becomes_common (h : (D.role t).Becomes l T a b) : D.common.Becomes l T a b := by
  cases a <;> cases b <;> simp only [Discipline.Becomes] at h ⊢
  · exact D.new_sub _ _ _ _ h
  · exact D.sub _ _ _ _ _ h

/-- Every thread plays by discipline `E`. -/
structure Plays (D : Cast S) (E : Discipline S) : Prop where
  trans : ∀ t l T r r', (D.role t).Trans l T r r' → E.Trans l T r r'
  new : ∀ t l T r, (D.role t).New l T r → E.New l T r

theorem Plays.becomes (h : D.Plays E) (hab : (D.role t).Becomes l T a b) : E.Becomes l T a b := by
  cases a <;> cases b <;> simp only [Discipline.Becomes] at hab ⊢
  · exact h.new _ _ _ _ hab
  · exact h.trans _ _ _ _ _ hab

theorem plays_common (D : Cast S) : D.Plays D.common := ⟨D.sub, D.new_sub⟩

/-- What the cast does obeys discipline `E`. -/
structure Under (D : Cast S) (E : Discipline S) : Prop where
  trans : ∀ l T r r', D.common.Trans l T r r' → E.Trans l T r r'
  new : ∀ l T r, D.common.New l T r → E.New l T r

theorem Under.becomes (h : D.Under E) (hab : D.common.Becomes l T a b) : E.Becomes l T a b := by
  cases a <;> cases b <;> simp only [Discipline.Becomes] at hab ⊢
  · exact h.new _ _ _ hab
  · exact h.trans _ _ _ _ hab

end Cast

namespace Discipline

def shared (D : Discipline S) : Cast S where
  common := D
  role _ := D
  sub _ _ _ _ _ h := h
  new_sub _ _ _ _ h := h

def both (D E : Discipline S) : Discipline S where
  Trans l T r r' := D.Trans l T r r' ∧ E.Trans l T r r'
  New l T r := D.New l T r ∧ E.New l T r
  refl l T r := ⟨D.refl l T r, E.refl l T r⟩
  trans l T r r' r'' h h' := ⟨D.trans l T r r' r'' h.1 h'.1, E.trans l T r r' r'' h.2 h'.2⟩
  weaken T r r' h := ⟨D.weaken T r r' h.1, E.weaken T r r' h.2⟩
  new_trans l T r r' h h' := ⟨D.new_trans l T r r' h.1 h'.1, E.new_trans l T r r' h.2 h'.2⟩
  new_weaken T r h := ⟨D.new_weaken T r h.1, E.new_weaken T r h.2⟩

def keeping (P : (T : S.Table) → S.Row T → Prop) : Discipline S where
  Trans _ T r r' := P T r → P T r'
  New _ T r := P T r
  refl _ _ _ := id
  trans _ _ _ _ _ h h' := h' ∘ h
  weaken _ _ _ h := h
  new_trans _ _ _ _ h h' := h' h
  new_weaken _ _ h := h

def cast (D : Discipline S) (role : Tid → Discipline S) : Cast S where
  common := D
  role t := D.both (role t)
  sub _ _ _ _ _ h := h.1
  new_sub _ _ _ _ h := h.1

end Discipline

/-- Every row stands under its own key, passes its checks, and no unique index is violated. -/
structure Consistent (rows : Rows S) : Prop where
  id : ∀ T i r, rows T i = some r → S.id T r = i
  check : ∀ T i r, rows T i = some r → S.check T r = true
  apart : ∀ T i j r r', rows T i = some r → rows T j = some r' → i ≠ j → S.clash T r r' = false

namespace Engine

def holds (e : Engine S) (t : Tid) : Bool := e.advisory = some t

@[simp] theorem holds_iff {e : Engine S} : e.holds t = true ↔ e.advisory = some t := by
  simp [holds]

/-- **The law of the database** under cast `D`. -/
structure Lawful (D : Cast S) (e : Engine S) : Prop where
  owned : ∀ t T i, e.owner T i = some t ↔ (e.pending t T i).isSome
  owned_lt : ∀ t T i r, e.pending t T i = some r → i < e.next
  committed_lt : ∀ T i r, e.committed T i = some r → i < e.next
  rows : Consistent e.committed
  own_id : ∀ t T i r, e.pending t T i = some r → S.id T r = i
  own_check : ∀ t T i r, e.pending t T i = some r → S.check T r = true
  apart : ∀ t u T i j r r', e.pending t T i = some r → e.pending u T j = some r' → i ≠ j → S.clash T r r' = false
  clear : ∀ t T i j r r', e.pending t T i = some r → e.committed T j = some r' → i ≠ j → e.pending t T j = none →
    S.clash T r r' = false
  inflight : ∀ t T i, (D.role t).Becomes (e.holds t) T (e.committed T i) (e.view t T i)
  entries : ∀ c ∈ e.log, ∀ T i, (D.role c.by_).Becomes c.locked T (c.before T i) (c.after T i)
  past : ∀ c ∈ e.log, Consistent c.before
  linked : ∀ m c, e.log[m]? = some c → e.version (m + 1) = c.after

variable {D : Cast S} {e e' : Engine S} {t u : Tid} {T : S.Table} {i j : Nat} {r : S.Row T}

variable {m : Nat} {T' : S.Table}

namespace Lawful

theorem view_none (h : e.Lawful D) (ho : e.owner T i ≠ some t) : e.view t T i = e.committed T i := by
  have hp := (not_congr (h.owned t T i)).1 ho
  exact Rows.over_none (by simpa using hp)

theorem pending_of_owner (h : e.Lawful D) (ho : e.owner T i = some t) : ∃ r, e.pending t T i = some r :=
  Option.isSome_iff_exists.1 ((h.owned t T i).1 ho)

theorem owner_of_pending (h : e.Lawful D) (hp : e.pending t T i = some r) : e.owner T i = some t :=
  (h.owned t T i).2 (by rw [hp]; rfl)

theorem pending_of_ne (h : e.Lawful D) (ho : e.owner T i = some t) (hu : u ≠ t) : e.pending u T i = none := by
  cases hp : e.pending u T i with
  | none => rfl
  | some r =>
    have := h.owner_of_pending hp
    rw [ho] at this
    exact absurd (Option.some.inj this).symm hu

theorem owner_none_of_le (h : e.Lawful D) (hi : e.next ≤ i) (T : S.Table) : e.owner T i = none := by
  cases ho : e.owner T i with
  | none => rfl
  | some u =>
    obtain ⟨r, hr⟩ := h.pending_of_owner ho
    have := h.owned_lt u T i r hr
    omega

theorem committed_none_of_le (h : e.Lawful D) (hi : e.next ≤ i) (T : S.Table) : e.committed T i = none := by
  cases hc : e.committed T i with
  | none => rfl
  | some r =>
    have := h.committed_lt T i r hc
    omega

theorem view_lt (h : e.Lawful D) (hv : e.view t T i = some r) : i < e.next := by
  unfold view Rows.overlay at hv
  split at hv
  · rename_i r' hp
    exact h.owned_lt t T i r' hp
  · exact h.committed_lt T i r hv

theorem view_consistent (h : e.Lawful D) (t : Tid) : Consistent (e.view t) := by
  refine ⟨fun T i r hv => ?_, fun T i r hv => ?_, fun T i j r r' hi hj hne => ?_⟩
  · unfold view Rows.overlay at hv
    split at hv
    · rename_i r' hp
      exact h.own_id t T i r (hp.trans hv)
    · exact h.rows.id T i r hv
  · unfold view Rows.overlay at hv
    split at hv
    · rename_i r' hp
      exact h.own_check t T i r (hp.trans hv)
    · exact h.rows.check T i r hv
  · unfold view Rows.overlay at hi hj
    split at hi
    · rename_i hpi
      split at hj
      · rename_i hpj
        exact h.apart t t T i j r r' (hpi.trans hi) (hpj.trans hj) hne
      · rename_i hpj
        exact h.clear t T i j r r' (hpi.trans hi) hj hne hpj
    · rename_i hpi
      split at hj
      · rename_i hpj
        rw [S.clash_symm]
        exact h.clear t T j i r' r (hpj.trans hj) hi (Ne.symm hne) hpi
      · exact h.rows.apart T i j r r' hi hj hne

theorem version_consistent (h : e.Lawful D) (m : Nat) : Consistent (e.version m) := by
  unfold version
  cases hm : e.log[m]? with
  | none => exact h.rows
  | some c => exact h.past c (List.mem_of_getElem? hm)

/-- **What a row has become from one version to a later one**, under a discipline that every thread plays by. -/
theorem version_becomes (h : e.Lawful D) (hE : D.Plays E) {n : Nat} (hmn : m ≤ n) (hn : n ≤ e.log.length)
    (T : S.Table) (i : Nat) : E.Becomes true T (e.version m T i) (e.version n T i) := by
  induction hmn with
  | refl => exact Discipline.becomes_refl _ _ _
  | @step n hmn ih =>
    refine (ih (by omega)).trans ?_
    obtain ⟨c, hc⟩ : ∃ c, e.log[n]? = some c := ⟨e.log[n], List.getElem?_eq_getElem (by omega)⟩
    have hbefore : e.version n = c.before := by
      unfold version
      rw [hc]
    rw [hbefore, h.linked n c hc]
    have hentry := hE.becomes (h.entries c (List.mem_of_getElem? hc) T i)
    cases hl : c.locked with
    | true =>
      rw [hl] at hentry
      exact hentry
    | false =>
      rw [hl] at hentry
      exact hentry.weaken

/-- **A statement about single rows that every thread keeps** holds of every version, if it held of the first. -/
theorem version_keeps {P : (T : S.Table) → S.Row T → Prop} (h : e.Lawful D) (hP : D.Plays (Discipline.keeping P))
    (h0 : ∀ T i r, e.version 0 T i = some r → P T r) (hm : m ≤ e.log.length) (hr : e.version m T i = some r) :
    P T r := by
  have hrow := h.version_becomes hP (Nat.zero_le m) hm T i
  rw [hr] at hrow
  cases hv : e.version 0 T i with
  | none =>
    rw [hv] at hrow
    exact hrow
  | some r0 =>
    rw [hv] at hrow
    exact hrow (h0 T i r0 hv)

theorem version_lt (h : e.Lawful D) (hm : m ≤ e.log.length) (hr : e.version m T i = some r) : i < e.next := by
  have hrow := h.version_becomes D.plays_common hm (Nat.le_refl _) T i
  rw [hr, version_length] at hrow
  obtain ⟨r', hr', -⟩ := hrow.some_left
  exact h.committed_lt T i r' hr'

end Lawful

/-! What a write leaves. -/

@[simp] theorem write_committed : (e.write t T i r).committed = e.committed := rfl
@[simp] theorem write_log : (e.write t T i r).log = e.log := rfl
@[simp] theorem write_next : (e.write t T i r).next = e.next := rfl
@[simp] theorem write_advisory : (e.write t T i r).advisory = e.advisory := rfl
@[simp] theorem write_clock : (e.write t T i r).clock = e.clock := rfl
@[simp] theorem write_started : (e.write t T i r).started = e.started := rfl

@[simp] theorem write_pending_self : (e.write t T i r).pending t T i = some r := by
  simp [write]

theorem write_pending_tid (hu : u ≠ t) : (e.write t T i r).pending u = e.pending u := by
  simp [write, hu]

theorem write_pending_row (h : ¬(T' = T ∧ j = i)) : (e.write t T i r).pending t T' j = e.pending t T' j := by
  simp only [write, Function.update_self]
  exact Rows.set_other h

theorem write_beside (h : T' ≠ T) : (e.write t T i r).pending t T' = e.pending t T' :=
  funext fun _ => write_pending_row fun hc => h hc.1

theorem write_pending_cases {r' : S.Row T'} (h : (e.write t T i r).pending u T' j = some r') :
    (u = t ∧ ⟨T', r'⟩ = (⟨T, r⟩ : Σ T, S.Row T) ∧ j = i) ∨ e.pending u T' j = some r' := by
  by_cases hu : u = t
  · subst hu
    by_cases hT : T' = T ∧ j = i
    · obtain ⟨rfl, rfl⟩ := hT
      rw [write_pending_self] at h
      cases h
      exact .inl ⟨rfl, rfl, rfl⟩
    · rw [write_pending_row hT] at h
      exact .inr h
  · rw [write_pending_tid hu] at h
    exact .inr h

@[simp] theorem write_owner_self : (e.write t T i r).owner T i = some t := by
  simp [write]

theorem write_owner_row (h : ¬(T' = T ∧ j = i)) : (e.write t T i r).owner T' j = e.owner T' j := by
  by_cases hT : T' = T
  · subst hT
    have hj : j ≠ i := fun hj => h ⟨rfl, hj⟩
    simp [write, hj]
  · simp [write, hT]

@[simp] theorem write_view_self : (e.write t T i r).view t T i = some r :=
  Rows.over_some write_pending_self

theorem write_view_row (h : ¬(T' = T ∧ j = i)) : (e.write t T i r).view t T' j = e.view t T' j := by
  simp only [view, Rows.overlay, write_committed, write_pending_row h]

theorem write_view_tid (hu : u ≠ t) : (e.write t T i r).view u = e.view u := by
  simp only [view, write_committed, write_pending_tid hu]

@[simp] theorem write_version (m : Nat) : (e.write t T i r).version m = e.version m := rfl

theorem Lawful.write (h : e.Lawful D) (ho : e.owner T i = none ∨ e.owner T i = some t) (hi : i < e.next)
    (hid : S.id T r = i) (ha : e.Admits t T i r) (hb : (D.role t).Becomes (e.holds t) T (e.view t T i) (some r)) :
    (e.write t T i r).Lawful D := by
  -- the new version against any other version in flight, and against any committed row it does not replace
  have hflight : ∀ u j r', e.pending u T j = some r' → j ≠ i → S.clash T r r' = false := by
    intro u j r' hp hj
    have hown := h.owner_of_pending hp
    have hlt := h.owned_lt u T j r' hp
    by_cases hu : u = t
    · subst hu
      have := ha.settled j hlt hj
      unfold Engine.settled at this
      rw [hown] at this
      simpa [view, Rows.over_some hp] using this
    · have := ha.contested j hlt hj
      unfold Engine.contested at this
      rw [hown] at this
      simp only [hp, Option.any_some, Bool.and_eq_false_imp, decide_eq_true_eq, Bool.or_eq_false_iff] at this
      exact (this hu).2
  have hstill : ∀ j r', e.committed T j = some r' → j ≠ i → e.pending t T j = none → S.clash T r r' = false := by
    intro j r' hc hj hp
    have hlt := h.committed_lt T j r' hc
    cases hown : e.owner T j with
    | none =>
      have := ha.settled j hlt hj
      unfold Engine.settled at this
      rw [hown] at this
      simpa [view, Rows.over_none hp, hc] using this
    | some u =>
      have hu : u ≠ t := by
        intro hu
        obtain ⟨r0, hr0⟩ := h.pending_of_owner (hu ▸ hown)
        rw [hp] at hr0
        cases hr0
      have := ha.contested j hlt hj
      unfold Engine.contested at this
      rw [hown] at this
      simp only [hc, Option.any_some, Bool.and_eq_false_imp, decide_eq_true_eq, Bool.or_eq_false_iff] at this
      exact (this hu).1
  refine ⟨?_, ?_, h.committed_lt, h.rows, ?_, ?_, ?_, ?_, ?_, h.entries, h.past, h.linked⟩
  · intro u T' j
    by_cases hr : T' = T ∧ j = i
    · obtain ⟨rfl, rfl⟩ := hr
      by_cases hu : u = t
      · subst hu
        simp
      · rw [write_owner_self, write_pending_tid hu]
        have hne : e.owner T' j ≠ some u := by
          rcases ho with ho | ho <;> rw [ho] <;> simp [Ne.symm hu]
        have := (not_congr (h.owned u T' j)).1 hne
        simp only [Option.some.injEq, this, Ne.symm hu, Bool.false_eq_true]
    · rw [write_owner_row hr, h.owned u T' j]
      by_cases hu : u = t
      · subst hu
        rw [write_pending_row hr]
      · rw [write_pending_tid hu]
  · intro u T' j r' hp
    rcases write_pending_cases hp with ⟨-, -, rfl⟩ | hp
    · exact hi
    · exact h.owned_lt u T' j r' hp
  · intro u T' j r' hp
    rcases write_pending_cases hp with ⟨-, heq, rfl⟩ | hp
    · cases heq
      exact hid
    · exact h.own_id u T' j r' hp
  · intro u T' j r' hp
    rcases write_pending_cases hp with ⟨-, heq, rfl⟩ | hp
    · cases heq
      exact ha.check
    · exact h.own_check u T' j r' hp
  · intro u v T' j k r' r'' hj hk hne
    rcases write_pending_cases hj with ⟨-, heq, rfl⟩ | hj'
    · cases heq
      rcases write_pending_cases hk with ⟨-, -, rfl⟩ | hk'
      · exact absurd rfl hne
      · exact hflight v k r'' hk' (Ne.symm hne)
    · rcases write_pending_cases hk with ⟨-, heq, rfl⟩ | hk'
      · cases heq
        rw [S.clash_symm]
        exact hflight u j r' hj' hne
      · exact h.apart u v T' j k r' r'' hj' hk' hne
  · intro u T' j k r' r'' hj hk hne hn
    rw [write_committed] at hk
    have hn' : e.pending u T' k = none := by
      cases hp : e.pending u T' k with
      | none => rfl
      | some r0 =>
        by_cases hu : u = t
        · subst hu
          by_cases hr : T' = T ∧ k = i
          · obtain ⟨rfl, rfl⟩ := hr
            simp at hn
          · rw [write_pending_row hr, hp] at hn
            cases hn
        · rw [write_pending_tid hu, hp] at hn
          cases hn
    rcases write_pending_cases hj with ⟨rfl, heq, rfl⟩ | hj'
    · cases heq
      exact hstill k r'' hk (Ne.symm hne) hn'
    · exact h.clear u T' j k r' r'' hj' hk hne hn'
  · intro u T' j
    have hholds : (e.write t T i r).holds u = e.holds u := rfl
    rw [hholds, write_committed]
    by_cases hu : u = t
    · subst hu
      by_cases hr : T' = T ∧ j = i
      · obtain ⟨rfl, rfl⟩ := hr
        rw [write_view_self]
        exact (h.inflight u T' j).trans hb
      · rw [write_view_row hr]
        exact h.inflight u T' j
    · rw [write_view_tid hu]
      exact h.inflight u T' j

/-! What ending a transaction leaves. -/

@[simp] theorem release_committed : (e.release t).committed = e.committed := rfl
@[simp] theorem release_log : (e.release t).log = e.log := rfl
@[simp] theorem release_next : (e.release t).next = e.next := rfl

@[simp] theorem release_pending_self : (e.release t).pending t = fun _ _ => none := by
  simp [release]

theorem release_pending_tid (hu : u ≠ t) : (e.release t).pending u = e.pending u := by
  simp [release, hu]

theorem release_pending_some (hp : (e.release t).pending u T i = some r) : u ≠ t ∧ e.pending u T i = some r := by
  by_cases hu : u = t
  · subst hu
    simp at hp
  · rw [release_pending_tid hu] at hp
    exact ⟨hu, hp⟩

theorem release_owner : (e.release t).owner T i = some u ↔ e.owner T i = some u ∧ u ≠ t := by
  simp only [release]
  split
  · rename_i ho
    rw [ho]
    simp only [Option.some.injEq, reduceCtorEq, false_iff, not_and, not_not]
    exact Eq.symm
  · rename_i ho
    refine ⟨fun h => ⟨h, ?_⟩, And.left⟩
    rintro rfl
    exact ho h

theorem release_advisory : (e.release t).advisory = some u ↔ e.advisory = some u ∧ u ≠ t := by
  simp only [release]
  split
  · rename_i ho
    rw [ho]
    simp only [Option.some.injEq, reduceCtorEq, false_iff, not_and, not_not]
    exact Eq.symm
  · rename_i ho
    refine ⟨fun h => ⟨h, ?_⟩, And.left⟩
    rintro rfl
    exact ho h

theorem release_holds (hu : u ≠ t) : (e.release t).holds u = e.holds u := by
  simp [holds, release_advisory, hu]

theorem release_view_tid (hu : u ≠ t) : (e.release t).view u = e.view u := by
  simp only [view, release_committed, release_pending_tid hu]

@[simp] theorem release_view_self : (e.release t).view t = e.committed := by
  simp only [view, release_committed, release_pending_self, Rows.over_empty]

@[simp] theorem release_version (m : Nat) : (e.release t).version m = e.version m := rfl

theorem Lawful.release (h : e.Lawful D) (t : Tid) : (e.release t).Lawful D := by
  refine ⟨?_, ?_, h.committed_lt, h.rows, ?_, ?_, ?_, ?_, ?_, h.entries, h.past, h.linked⟩
  · intro u T i
    rw [release_owner, h.owned u T i]
    by_cases hu : u = t
    · subst hu
      simp
    · rw [release_pending_tid hu]
      exact and_iff_left hu
  · exact fun u T i r hp => h.owned_lt u T i r (release_pending_some hp).2
  · exact fun u T i r hp => h.own_id u T i r (release_pending_some hp).2
  · exact fun u T i r hp => h.own_check u T i r (release_pending_some hp).2
  · exact fun u v T i j r r' hi hj hne =>
      h.apart u v T i j r r' (release_pending_some hi).2 (release_pending_some hj).2 hne
  · intro u T i j r r' hi hj hne hn
    obtain ⟨hu, hi'⟩ := release_pending_some hi
    rw [release_pending_tid hu] at hn
    exact h.clear u T i j r r' hi' hj hne hn
  · intro u T i
    by_cases hu : u = t
    · subst hu
      rw [release_view_self]
      exact Discipline.becomes_refl _ _ _
    · rw [release_view_tid hu, release_holds hu]
      exact h.inflight u T i

@[simp] theorem commit_committed : (e.commit t).committed = e.view t := rfl
@[simp] theorem commit_log : (e.commit t).log = e.log ++ [e.entry t] := rfl
@[simp] theorem commit_next : (e.commit t).next = e.next := rfl

@[simp] theorem commit_pending_self : (e.commit t).pending t = fun _ _ => none := release_pending_self

theorem commit_pending_tid (hu : u ≠ t) : (e.commit t).pending u = e.pending u := release_pending_tid hu

theorem commit_holds (hu : u ≠ t) : (e.commit t).holds u = e.holds u := release_holds hu

@[simp] theorem commit_view_self : (e.commit t).view t = e.view t := by
  simp only [view, commit_committed, commit_pending_self, Rows.over_empty]

theorem commit_version_le (hm : m ≤ e.log.length) : (e.commit t).version m = e.version m := by
  unfold version
  rw [commit_log]
  rcases Nat.lt_or_eq_of_le hm with hlt | rfl
  · rw [List.getElem?_append_left hlt, List.getElem?_eq_getElem hlt]
  · rw [List.getElem?_concat_length]
    simp [entry]

theorem commit_version_last : (e.commit t).version (e.log.length + 1) = e.view t := by
  unfold version
  rw [commit_log, List.getElem?_eq_none (by simp)]
  rfl

theorem Lawful.commit (h : e.Lawful D) (t : Tid) : (e.commit t).Lawful D := by
  have hr := h.release t
  refine ⟨hr.owned, hr.owned_lt, fun T i r hv => h.view_lt hv, h.view_consistent t, hr.own_id, hr.own_check, hr.apart,
    ?_, ?_, ?_, ?_, ?_⟩
  · intro u T i j r r' hi hj hne hn
    obtain ⟨hu, hi'⟩ := release_pending_some hi
    rw [commit_pending_tid hu] at hn
    change e.view t T j = some r' at hj
    unfold view Rows.overlay at hj
    split at hj
    · rename_i hpj
      exact h.apart u t T i j r r' hi' (hpj.trans hj) hne
    · exact h.clear u T i j r r' hi' hj hne hn
  · intro u T i
    by_cases hu : u = t
    · subst hu
      rw [commit_view_self]
      exact Discipline.becomes_refl _ _ _
    · rw [commit_holds hu]
      unfold view Rows.overlay
      rw [commit_pending_tid hu, commit_committed]
      cases hp : e.pending u T i with
      | none => exact Discipline.becomes_refl _ _ _
      | some r =>
        have ho : e.owner T i ≠ some t := by
          rw [h.owner_of_pending hp]
          exact fun he => hu (Option.some.inj he)
        have := h.inflight u T i
        rw [show e.view u T i = some r from Rows.over_some hp] at this
        rw [h.view_none ho]
        exact this
  · intro c hc T i
    rw [commit_log, List.mem_append, List.mem_singleton] at hc
    rcases hc with hc | rfl
    · exact h.entries c hc T i
    · exact h.inflight t T i
  · intro c hc
    rw [commit_log, List.mem_append, List.mem_singleton] at hc
    rcases hc with hc | rfl
    · exact h.past c hc
    · exact h.rows
  · intro m c hc
    rw [commit_log] at hc
    rcases Nat.lt_or_ge m e.log.length with hm | hm
    · rw [List.getElem?_append_left hm] at hc
      rw [commit_version_le hm]
      exact h.linked m c hc
    · rw [List.getElem?_append_right hm] at hc
      have hm0 : m - e.log.length = 0 := by
        by_contra hne
        rw [List.getElem?_eq_none (by simp; omega)] at hc
        cases hc
      have hme : m = e.log.length := by omega
      subst hme
      rw [hm0] at hc
      cases hc
      rw [commit_version_last, entry_after]

end Engine
end Txn
