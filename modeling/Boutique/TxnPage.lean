import Boutique.TxnFlight
import Boutique.TxnQuiet
/-!
# TxnPage — a page of rows, worked off one UPDATE at a time

A transaction reads the keys of the rows a WHERE selects and updates them one by one.  What stands on the page at its commit
is written, or was settled before the UPDATE came to it; and no row the WHERE selects is left out, once nobody has written
one since the look.
-/
namespace Txn

open Session

variable {S : Schema} {D : Cast S} {e e' : Engine S} {t : Tid} {T : S.Table} {p d : S.Row T → Prop} {page left : List Nat}
  {j k : Nat} {r : S.Row T}

namespace Engine

/-- **A page as one look chose it**: the rows `p` held of are on it, and one that is no longer left is written, or `d` holds. -/
structure Page (T : S.Table) (p d : S.Row T → Prop) (t : Tid) (page left : List Nat) (e : Engine S) : Prop where
  past : e.seen t ≤ e.log.length
  live : ∀ k r, e.version (e.seen t) T k = some r → p r → k ∈ page
  there : ∀ k ∈ page, e.committed T k ≠ none
  done : ∀ k ∈ page, k ∈ left ∨ e.pending t T k ≠ none ∨ ∃ r, e.committed T k = some r ∧ d r

theorem page_look {q : S.Row T → Bool} (hL : e.Lawful D) (hnone : e.pending t T = fun _ => none)
    (hq : ∀ r, p r → q r = true) (hpage : page = matching ⟨e.view t, e.next⟩ T q) :
    Page T p d t page page (e.look t) := by
  have hview : e.view t T = e.committed T := view_table fun j => by rw [hnone]
  have hmem : ∀ i, i ∈ page ↔ i < e.next ∧ ∃ r, e.view t T i = some r ∧ q r = true := fun i => by
    rw [hpage]
    exact mem_matching_iff (s := ⟨e.view t, e.next⟩) ((hL.view_consistent t).id T)
  refine ⟨?_, fun i r hr hp => ?_, fun i hi => ?_, fun i hi => .inl hi⟩
  · rw [look_seen]
    exact Nat.le_refl _
  · rw [look_seen, look_version, version_length] at hr
    exact (hmem i).2 ⟨hL.committed_lt T i r hr, r, by rw [hview]; exact hr, hq r hp⟩
  · obtain ⟨-, r, hr, -⟩ := (hmem i).1 hi
    rw [look_committed, ← hview, hr]
    exact Option.some_ne_none r

theorem Page.evolves (h : Page T p d t page left e) (hev : e.Evolves D t e')
    (hd : ∀ l r r', D.common.Trans l T r r' → d r → d r') : Page T p d t page left e' := by
  have hrow : ∀ k r, e.committed T k = some r → ∃ r', e'.committed T k = some r' ∧ (d r → d r') := by
    intro k r hr
    have hrow := hev.rows T k
    rw [hr] at hrow
    obtain ⟨r', hr', htrans⟩ := hrow.some_left
    exact ⟨r', hr', hd _ r r' htrans⟩
  refine ⟨?_, ?_, fun k hk => ?_, fun k hk => ?_⟩
  · rw [hev.seen]
    exact h.past.trans hev.log_le
  · rw [hev.seen, hev.version _ h.past]
    exact h.live
  · obtain ⟨r, hr⟩ := Option.ne_none_iff_exists'.1 (h.there k hk)
    obtain ⟨r', hr', -⟩ := hrow k r hr
    rw [hr']
    exact Option.some_ne_none r'
  · rw [hev.pending]
    refine (h.done k hk).imp id (Or.imp id ?_)
    rintro ⟨r, hr, hdone⟩
    obtain ⟨r', hr', hkeeps⟩ := hrow k r hr
    exact ⟨r', hr', hkeeps hdone⟩

theorem Page.congr (h : Page T p d t page left e) (hl : e'.log = e.log) (hc : e'.committed = e.committed)
    (hs : e'.seen t = e.seen t) (hp : e'.pending t T = e.pending t T) : Page T p d t page left e' := by
  refine ⟨?_, ?_, by rw [hc]; exact h.there, by rw [hp, hc]; exact h.done⟩
  · rw [hs, hl]
    exact h.past
  · rw [hs, version_congr hl hc]
    exact h.live

/-- The UPDATE found the row gone, or its condition failed. -/
theorem Page.skip {g : S.Change T} (h : Page T p d t page (j :: left) e) (hmiss : (e.view t T j).bind (S.apply T g) = none)
    (hd : ∀ r, S.apply T g r = none → d r) : Page T p d t page left e := by
  refine ⟨h.past, h.live, h.there, fun k hk => ?_⟩
  rcases h.done k hk with hleft | hdone
  · rcases List.mem_cons.1 hleft with rfl | hleft
    · cases hp : e.pending t T k with
      | some q => exact .inr (.inl (Option.some_ne_none q))
      | none =>
        obtain ⟨r, hr⟩ := Option.ne_none_iff_exists'.1 (h.there k hk)
        rw [view, Rows.over_none hp, hr] at hmiss
        exact .inr (.inr ⟨r, hr, hd r hmiss⟩)
    · exact .inl hleft
  · exact .inr hdone

theorem Page.write (h : Page T p d t page (j :: left) e) : Page T p d t page left (e.write t T j r) := by
  refine ⟨h.past, h.live, h.there, fun k hk => ?_⟩
  by_cases hkj : k = j
  · subst hkj
    exact .inr (.inl (by rw [write_pending_self]; exact Option.some_ne_none _))
  · rw [write_pending_row fun hc => hkj hc.2]
    exact (h.done k hk).imp (fun hleft => (List.mem_cons.1 hleft).resolve_left hkj) id

/-- **The page worked off**: a row `p` holds of and the transaction has not written is settled, once no commit since the look
has left one such. -/
theorem Page.settled (h : Page T p d t page [] e) (hL : e.Lawful D) (hnone : e.pending t T k = none)
    (hsince : ∀ c ∈ e.log.drop (e.seen t), ∀ i r, c.writes T i = some r → ¬p r) (hr : e.committed T k = some r) (hp : p r) :
    d r := by
  have honpage : k ∈ page :=
    hL.since_version h.past h.live (fun c hc i r hr hp => absurd hp (hsince c hc i r hr)) k r hr hp
  rcases h.done k honpage with hleft | hpending | ⟨q, hq, hdone⟩
  · cases hleft
  · exact absurd hnone hpending
  · cases hr.symm.trans hq
    exact hdone

end Engine

end Txn
