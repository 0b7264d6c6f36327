import Boutique.TxnSession
import Mathlib.Data.Nat.Find
/-!
# TxnQuiet — rows that nobody has written since

A test of a table's rows that no row passes into or out of.  While no commit writes a row that passes it, the rows that pass
it stand as they stood.
-/
namespace Txn

open Session

variable {S : Schema} {D : Cast S} {e e' : Engine S} {t : Tid} {T : S.Table} {p : S.Row T → Bool} {m i : Nat} {r : S.Row T}

namespace Engine

/-- **No commit since version `m` wrote a row that passes.** -/
def Quiet (e : Engine S) (T : S.Table) (p : S.Row T → Bool) (m : Nat) : Prop :=
  ∀ d ∈ e.log.drop m, ∀ i, i < e.next → ∀ r : S.Row T, r ∈ d.writes T i → p r = false

instance (e : Engine S) (T : S.Table) (p : S.Row T → Bool) (m : Nat) : Decidable (e.Quiet T p m) := by
  unfold Quiet
  infer_instance

def Settles (D : Cast S) (T : S.Table) (p : S.Row T → Bool) : Prop := ∀ v r, D.common.Trans true T v r → p r = p v

theorem quiet_now : e.Quiet T p e.log.length := by
  intro d hd
  simp at hd

theorem quiet_look : (e.look t).Quiet T p ((e.look t).seen t) := by
  rw [look_seen]
  exact quiet_now (e := e.look t)

theorem Quiet.mono {n : Nat} (h : e.Quiet T p m) (hmn : m ≤ n) : e.Quiet T p n := by
  intro d hd
  refine h d ?_
  rw [← Nat.add_sub_cancel' hmn, ← List.drop_drop] at hd
  exact List.mem_of_mem_drop hd

theorem Quiet.before (h : e'.Quiet T p m) (hl : e.log <+: e'.log) (hn : e.next ≤ e'.next) : e.Quiet T p m := by
  intro d hd i hi
  obtain ⟨l, hl⟩ := hl
  refine h d ?_ i (Nat.lt_of_lt_of_le hi hn)
  rw [← hl, List.drop_append]
  exact List.mem_append_left _ hd

theorem Quiet.same (h : e.Quiet T p m) (hL : e.Lawful D) (hp : Settles D T p) (hm : m ≤ e.log.length) (hr : p r = true) :
    e.committed T i = some r ↔ e.version m T i = some r := by
  have hback : ∀ q : S.Row T, p q = true → e.committed T i = some q → e.version m T i = some q := by
    intro q hq hcommitted
    by_contra hnot
    rw [← version_length (e := e)] at hcommitted
    obtain ⟨k, d, hmk, -, hd, hbefore, hafter⟩ :=
      hL.version_crossing (P := fun x => x = some q) hm (Nat.le_refl _) hnot hcommitted
    have hwrote : d.writes T i = some q := by
      cases hw : d.writes T i with
      | none =>
        rw [Commit.after, Rows.over_none hw] at hafter
        exact absurd hafter hbefore
      | some x =>
        rw [Commit.after, Rows.over_some hw] at hafter
        exact hafter
    have hmem : d ∈ e.log.drop m := by
      rw [List.mem_drop_iff_getElem]
      obtain ⟨hlt, hget⟩ := List.getElem?_eq_some_iff.1 hd
      exact ⟨k - m, by omega, by simp [Nat.add_sub_cancel' hmk, hget]⟩
    have hlt : i < e.next := by
      have hrow : e.version (k + 1) T i = some q := by rw [hL.linked k d hd, Commit.after, Rows.over_some hwrote]
      exact hL.version_lt (List.getElem?_eq_some_iff.1 hd).1 hrow
    have hfalse := h d hmem i hlt q hwrote
    rw [hq] at hfalse
    cases hfalse
  refine ⟨hback r hr, fun hversion => ?_⟩
  have hrow := hL.version_becomes (Cast.plays_common _) hm (Nat.le_refl _) T i
  rw [hversion, version_length] at hrow
  obtain ⟨q, hq, htrans⟩ := hrow.some_left
  have hpast := hback q ((hp r q htrans).trans hr) hq
  rw [hversion] at hpast
  cases hpast
  exact hq

theorem last_write (h : ¬e.Quiet T p 0) :
    ∃ k d, e.log[k]? = some d ∧ (∃ i, ∃ r : S.Row T, d.writes T i = some r ∧ p r = true) ∧ e.Quiet T p (k + 1) := by
  have hex : ∃ m, e.Quiet T p m := ⟨_, quiet_now⟩
  obtain ⟨k, hk⟩ := Nat.exists_eq_succ_of_ne_zero (n := Nat.find hex) fun h0 => h (h0 ▸ Nat.find_spec hex)
  have hlater : e.Quiet T p (k + 1) := by
    have hspec := Nat.find_spec hex
    rwa [hk] at hspec
  have hnow : ¬e.Quiet T p k := Nat.find_min hex (by omega)
  simp only [Quiet, not_forall] at hnow
  obtain ⟨d, hd, i, hi, r, hr, hpass⟩ := hnow
  have hlt : k < e.log.length := by
    by_contra hge
    rw [List.drop_eq_nil_of_le (by omega)] at hd
    cases hd
  rw [List.drop_eq_getElem_cons hlt] at hd
  rcases List.mem_cons.1 hd with rfl | hd
  · exact ⟨k, _, List.getElem?_eq_getElem hlt, ⟨i, r, hr, by simpa using hpass⟩, hlater⟩
  · exact absurd (hlater d hd i hi r hr) hpass

theorem Quiet.still (h : e'.Quiet T p (e.seen t)) (hev : e.Evolves D t e') (hL : e'.Lawful D) (hp : Settles D T p)
    (hseen : e.seen t ≤ e.log.length) (hr : p r = true) : e'.committed T i = some r ↔ e.committed T i = some r := by
  rw [(h.mono hseen).same hL hp hev.log_le hr, hev.version _ (Nat.le_refl _), version_length]

theorem Quiet.seen_still (h : e'.Quiet T p (e.seen t)) (hev : e.Evolves D t e') (hL : e'.Lawful D) (hp : Settles D T p)
    (hseen : e.seen t ≤ e.log.length) (hr : p r = true) : e'.view t T i = some r ↔ e.view t T i = some r := by
  cases hpend : e.pending t T i with
  | some q =>
    have hpend' : e'.pending t T i = some q := by rw [hev.pending, hpend]
    rw [view_pending hpend, view_pending hpend']
  | none =>
    have hpend' : e'.pending t T i = none := by rw [hev.pending, hpend]
    rw [view, view, Rows.over_none hpend, Rows.over_none hpend', h.still hev hL hp hseen hr]

end Engine

/-! ## The rows a WHERE selects -/

section Matching

variable {s : Snapshot S}

theorem mem_matching : i ∈ matching s T p ↔ ∃ r, r ∈ s.all T ∧ p r = true ∧ S.id T r = i := by
  simp [matching, and_assoc]

theorem mem_matching_iff (hid : ∀ j r, s.rows T j = some r → S.id T r = j) :
    i ∈ matching s T p ↔ i < s.next ∧ ∃ r, s.rows T i = some r ∧ p r = true := by
  rw [mem_matching]
  constructor
  · rintro ⟨r, hr, hpr, rfl⟩
    obtain ⟨j, hj, hrow⟩ := Snapshot.mem_all.1 hr
    have hkey := hid j r hrow
    subst hkey
    exact ⟨hj, r, hrow, hpr⟩
  · rintro ⟨hi, r, hrow, hpr⟩
    exact ⟨r, Snapshot.mem_all.2 ⟨i, hi, hrow⟩, hpr, hid i r hrow⟩

theorem nodup_matching (hid : ∀ j r, s.rows T j = some r → S.id T r = j) : (matching s T p).Nodup := by
  have hkeys : (s.all T).Pairwise fun r r' => S.id T r ≠ S.id T r' := by
    unfold Snapshot.all
    rw [List.pairwise_filterMap]
    refine List.nodup_range.imp fun {j k} hjk => ?_
    intro r hr r' hr' hsame
    rw [hid j r hr, hid k r' hr'] at hsame
    exact hjk hsame
  unfold matching
  rw [List.Nodup, List.pairwise_map]
  exact hkeys.filter _

theorem matching_cases (hid : ∀ j r, s.rows T j = some r → S.id T r = j)
    (hone : ∀ j k r r', s.rows T j = some r → s.rows T k = some r' → p r = true → p r' = true → j = k) :
    matching s T p = [] ∨ ∃ j, matching s T p = [j] := by
  have hmem : ∀ j, j ∈ matching s T p → ∃ r, s.rows T j = some r ∧ p r = true := fun j hj =>
    ((mem_matching_iff hid).1 hj).2
  have hnodup : (matching s T p).Nodup := nodup_matching hid
  revert hmem hnodup
  rcases matching s T p with _ | ⟨j, _ | ⟨k, ks⟩⟩
  · exact fun _ _ => .inl rfl
  · exact fun _ _ => .inr ⟨j, rfl⟩
  · intro hmem hnodup
    obtain ⟨r, hr, hpr⟩ := hmem j (by simp)
    obtain ⟨r', hr', hpr'⟩ := hmem k (by simp)
    have hjk := hone j k r r' hr hr' hpr hpr'
    simp [hjk] at hnodup

end Matching

/-! ## The rows a log has written -/

theorem Engine.Lawful.version_row (h : e.Lawful D) {n : Nat} (hmn : m ≤ n) (hn : n ≤ e.log.length)
    (hstill : ∀ j d, m ≤ j → j < n → e.log[j]? = some d → d.writes T i = none) : e.version n T i = e.version m T i := by
  by_contra hne
  obtain ⟨j, d, hj, hjn, hd, hbefore, hafter⟩ := h.version_crossing (P := fun x => x ≠ e.version m T i) hmn hn (by simp) hne
  rw [Commit.after, Rows.over_none (hstill j d hj hjn hd)] at hafter
  exact hbefore hafter

theorem Engine.Lawful.version_last (h : e.Lawful D) {n : Nat} {d : Commit S} (hmn : m < n) (hn : n ≤ e.log.length)
    (hd : e.log[m]? = some d) (hr : d.writes T i = some r) :
    ∃ j d' r', m ≤ j ∧ j < n ∧ e.log[j]? = some d' ∧ d'.writes T i = some r' ∧ e.version n T i = some r' := by
  induction hmn with
  | refl =>
    refine ⟨m, d, r, Nat.le_refl m, Nat.lt_succ_self m, hd, hr, ?_⟩
    rw [h.linked m d hd, Commit.after, Rows.over_some hr]
  | @step n hmn ih =>
    have hentry : e.log[n]? = some e.log[n] := List.getElem?_eq_getElem hn
    have hbefore : e.version n = e.log[n].before := by simp [Engine.version, hentry]
    rw [h.linked n _ hentry, Commit.after]
    cases hw : e.log[n].writes T i with
    | some r' => exact ⟨n, _, r', Nat.le_of_lt hmn, Nat.lt_succ_self n, hentry, hw, Rows.over_some hw⟩
    | none =>
      obtain ⟨j, d', r', hj, hjn, hd', hr', hv⟩ := ih (by omega)
      exact ⟨j, d', r', hj, by omega, hd', hr', by rw [Rows.over_none hw, ← hbefore, hv]⟩

theorem Engine.Lawful.entry_spans {m : Nat} {d : Commit S} (h : e.Lawful D) (hm : e.log[m]? = some d) :
    m < e.log.length ∧ d.before = e.version m ∧ d.after = e.version (m + 1) := by
  refine ⟨(List.getElem?_eq_some_iff.1 hm).1, ?_, (h.linked m d hm).symm⟩
  unfold Engine.version
  rw [hm]

theorem Engine.Lawful.own_spans {t : Tid} {d : Commit S} (h : e.Lawful D) (hd : d ∈ e.own t) :
    ∃ m, e.log[m]? = some d ∧ d.by_ = t ∧ m < e.log.length ∧ d.before = e.version m ∧ d.after = e.version (m + 1) := by
  obtain ⟨hmem, hby⟩ := List.mem_filter.1 hd
  obtain ⟨m, hm⟩ := List.mem_iff_getElem?.1 hmem
  exact ⟨m, hm, of_decide_eq_true hby, h.entry_spans hm⟩

theorem Engine.Lawful.version_none_of_le {m : Nat} (h : e.Lawful D) (hm : m ≤ e.log.length) (T : S.Table) (hi : e.next ≤ i) :
    e.version m T i = none := by
  cases hv : e.version m T i with
  | none => rfl
  | some r =>
    have hlt := h.version_lt hm hv
    omega

end Txn
