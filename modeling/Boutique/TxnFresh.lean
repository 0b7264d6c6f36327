import Boutique.TxnLocked
import Mathlib.Data.Set.Insert
/-!
# TxnFresh — transactions that add rows, and how many rows there are

What a transaction has in flight is known exactly, and the rows it has inserted lie under keys no committed row has.  Rows
are counted by the set of their keys: a commit that adds one row of a kind adds its key.
-/
namespace Txn

variable {S : Schema} {V : Service} {ε α β : Type} {D : Cast S} {t : Tid}

/-! ## Counting rows -/

namespace Rows

variable {rows writes : Rows S} {T : S.Table} {P : S.Row T → Prop} {k : Nat} {r : S.Row T}

def keys (rows : Rows S) (T : S.Table) (P : S.Row T → Prop) : Set Nat := {k | ∃ r, rows T k = some r ∧ P r}

theorem mem_keys : k ∈ rows.keys T P ↔ ∃ r, rows T k = some r ∧ P r := Iff.rfl

theorem keys_empty (h : ∀ k r, rows T k = some r → ¬P r) : rows.keys T P = ∅ := by
  ext k
  simp only [mem_keys, Set.mem_empty_iff_false, iff_false, not_exists, not_and]
  exact h k

theorem not_of_keys (h : rows.keys T P = ∅) (hr : rows T k = some r) : ¬P r := by
  intro hP
  have hk : k ∈ rows.keys T P := ⟨r, hr, hP⟩
  rw [h] at hk
  exact hk

theorem keys_same (h : ∀ k r, writes T k = some r → (P r ↔ ∃ v, rows T k = some v ∧ P v)) :
    (rows.overlay writes).keys T P = rows.keys T P := by
  ext k
  simp only [mem_keys]
  cases hw : writes T k with
  | none => rw [over_none hw]
  | some r =>
    rw [over_some hw, ← h k r hw]
    constructor
    · rintro ⟨r', hr', hP⟩
      cases hr'
      exact hP
    · exact fun hP => ⟨r, rfl, hP⟩

theorem keys_insert (hk : writes T k = some r) (hP : P r)
    (h : ∀ j v, writes T j = some v → j ≠ k → (P v ↔ ∃ u, rows T j = some u ∧ P u)) :
    (rows.overlay writes).keys T P = insert k (rows.keys T P) := by
  ext j
  rw [Set.mem_insert_iff]
  by_cases hj : j = k
  · subst hj
    refine ⟨fun _ => .inl rfl, fun _ => ⟨r, over_some hk, hP⟩⟩
  · simp only [mem_keys, hj, false_or]
    cases hw : writes T j with
    | none => rw [over_none hw]
    | some v =>
      rw [over_some hw, ← h j v hw hj]
      constructor
      · rintro ⟨v', hv', hP'⟩
        cases hv'
        exact hP'
      · exact fun hP' => ⟨v, rfl, hP'⟩

end Rows

/-! ## Drafts -/

namespace Engine

variable {e e' : Engine S} {P : Rows S} {K : S.Table → Prop} {T : S.Table}

/-- **What `t` has in flight is `P`**, and of the tables `K` all of it is new. -/
structure Drafts (e : Engine S) (t : Tid) (K : S.Table → Prop) (P : Rows S) : Prop where
  pending : e.pending t = P
  fresh : ∀ T k, K T → (P T k).isSome = true → e.committed T k = none

theorem Drafts.evolves (h : e.Drafts t K P) (hev : e.Evolves D t e') : e'.Drafts t K P := by
  refine ⟨hev.pending.trans h.pending, fun T k hT hk => ?_⟩
  obtain ⟨r, hr⟩ := Option.isSome_iff_exists.1 hk
  rw [hev.owned T k r (by rw [h.pending]; exact hr)]
  exact h.fresh T k hT hk

theorem Drafts.congr (h : e.Drafts t K P) (hp : e'.pending t = e.pending t) (hc : e'.committed = e.committed) :
    e'.Drafts t K P := by
  refine ⟨hp.trans h.pending, fun T k hT hk => ?_⟩
  rw [hc]
  exact h.fresh T k hT hk

theorem drafts_idle (h : e.Idle t) : e.Drafts t K fun _ _ => none :=
  ⟨h.pending, fun _ _ _ hk => by cases hk⟩

theorem Drafts.write {k : Nat} {r : S.Row T} (h : e.Drafts t K P) (hT : ¬K T) : (e.write t T k r).Drafts t K (P.set T k r) := by
  refine ⟨by simp [Engine.write, h.pending], fun T' j hT' hj => ?_⟩
  have hne : T' ≠ T := fun heq => hT (heq ▸ hT')
  rw [Rows.set_table hne] at hj
  exact h.fresh T' j hT' hj

theorem Drafts.inserted {r : S.Row T} (h : e.Drafts t K P) (hL : e.Lawful D) :
    (Session.inserted e t T r).Drafts t K (P.set T e.next (S.stamp T e.next (e.started t) r)) ∧ P T e.next = none := by
  refine ⟨⟨by simp [Session.inserted, Engine.write, h.pending], fun T' j hT' hj => ?_⟩, ?_⟩
  · change e.committed T' j = none
    by_cases hsame : T' = T ∧ j = e.next
    · obtain ⟨rfl, rfl⟩ := hsame
      exact hL.committed_none_of_le (Nat.le_refl _) T'
    · rw [Rows.set_other hsame] at hj
      exact h.fresh T' j hT' hj
  · cases hp : P T e.next with
    | none => rfl
    | some x => exact absurd (hL.owned_lt t T e.next x (by rw [h.pending]; exact hp)) (Nat.lt_irrefl _)

end Engine

namespace Session

open Contract

variable {C : Contract D V ε} {calm : V.Ask → Bool} {w : World S V} {Q : Except ε β → World S V → Prop}

theorem ensures_unrefused (hC : C.Historic calm) {e : ε} {T : S.Table} {r : S.Row T} {k : S.Row T → Code S V ε β}
    (hcheck : ∀ r, S.check T r = true) (hclash : ∀ r r', S.clash T r r' = false)
    (hok : ∀ w1, w.Evolves D t w1 → w1.db.Lawful D → (inserted w1.db t T r).Lawful D →
      C.Inv ⟨inserted w1.db t T r, w1.out⟩ →
      C.Ensures t (k (S.stamp T w1.db.next (w1.db.started t) r)) Q ⟨inserted w1.db t T r, w1.out⟩) :
    C.Ensures t (insert e T r >>= k) Q w := by
  refine ensures_call fun w1 hev hL hI i x w2 he hL2 hA => ?_
  have hI2 := hC.exec (by simp) (by simp) he hI
  obtain ⟨⟨y, e'⟩, he', hx⟩ := Option.map_eq_some_iff.1 he
  cases hx
  rcases Engine.insert_cases he' with ⟨-, -, hrefused⟩ | ⟨rfl, rfl, -⟩
  · rcases hrefused with hno | ⟨j, -, -, hsettled⟩
    · rw [hcheck] at hno
      cases hno
    · unfold Engine.settled at hsettled
      rw [Bool.and_eq_true] at hsettled
      obtain ⟨v, -, hv⟩ := Option.any_eq_true .. |>.1 hsettled.2
      rw [hclash] at hv
      cases hv
  · exact ⟨hI2, hok w1 hev hL hL2 hI2⟩

end Session
end Txn
