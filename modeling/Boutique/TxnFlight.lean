import Boutique.TxnHistory
/-!
# TxnFlight — what a write may do to the row it is over

A relation between a committed row and what a transaction is about to put over it.  Where every UPDATE that a run answers
keeps the relation, it holds of all that is in flight, of every commit, and from any version to any later one.
-/
namespace Txn

variable {S : Schema} {V : Service} {ε : Type} {D : Cast S} {R : (T : S.Table) → S.Row T → S.Row T → Prop}

namespace Engine

/-- **Each row in flight is an `R` of the committed row under it**, and each row written was. -/
structure Flight (R : (T : S.Table) → S.Row T → S.Row T → Prop) (e : Engine S) : Prop where
  pending : ∀ t T i v r, e.committed T i = some v → e.pending t T i = some r → R T v r
  log : ∀ c ∈ e.log, ∀ T i v r, c.before T i = some v → c.writes T i = some r → R T v r

variable {e : Engine S} {t : Tid} {T : S.Table}

theorem Flight.commit (h : e.Flight R) (hL : e.Lawful D) : (e.commit t).Flight R := by
  refine ⟨fun u T i v r hv hr => ?_, fun c hc T i v r hv hr => ?_⟩
  · obtain ⟨hu, hp⟩ := release_pending_some hr
    have hnone : e.pending t T i = none := hL.pending_of_ne (hL.owner_of_pending hp) (Ne.symm hu)
    have hview : e.view t T i = some v := hv
    rw [Engine.view, Rows.over_none hnone] at hview
    exact h.pending u T i v r hview hp
  · rcases List.mem_append.1 hc with hc | hc
    · exact h.log c hc T i v r hv hr
    · rw [List.mem_singleton.1 hc] at hv hr
      exact h.pending t T i v r hv hr

theorem Flight.release (h : e.Flight R) : (e.release t).Flight R :=
  ⟨fun u T i v r hv hr => h.pending u T i v r hv (release_pending_some hr).2, h.log⟩

theorem Flight.versions (h : e.Flight R) (hL : e.Lawful D) (hrefl : ∀ T r, R T r r)
    (htrans : ∀ T a b c, R T a b → R T b c → R T a c) {m n : Nat} (hmn : m ≤ n) (hn : n ≤ e.log.length) {T : S.Table}
    {i : Nat} {v : S.Row T} (hv : e.version m T i = some v) : ∃ r, e.version n T i = some r ∧ R T v r := by
  induction hmn with
  | refl => exact ⟨v, hv, hrefl T v⟩
  | @step n hmn ih =>
    obtain ⟨u, hu, hvu⟩ := ih (by omega)
    have hentry : e.log[n]? = some e.log[n] := List.getElem?_eq_getElem hn
    have hbefore : e.log[n].before T i = some u := by rw [← hu]; simp [Engine.version, hentry]
    rw [hL.linked n _ hentry]
    cases hw : e.log[n].writes T i with
    | none => exact ⟨u, by rw [Commit.after, Rows.over_none hw, hbefore], hvu⟩
    | some r =>
      exact ⟨r, by rw [Commit.after, Rows.over_some hw],
        htrans T v u r hvu (h.log _ (List.getElem_mem _) T i u r hbefore hw)⟩

theorem Lawful.written_lt {c : Commit S} {i : Nat} {r : S.Row T} (hL : e.Lawful D) (hc : c ∈ e.log)
    (hr : c.writes T i = some r) : i < e.next := by
  obtain ⟨m, hm⟩ := List.mem_iff_getElem?.1 hc
  have hafter : e.version (m + 1) T i = some r := by rw [hL.linked m c hm, Commit.after, Rows.over_some hr]
  exact hL.version_lt (List.getElem?_eq_some_iff.1 hm).1 hafter

/-- **What holds of every row of a version, and of every row committed since**, holds of every row now. -/
theorem Lawful.since_version {P : Nat → S.Row T → Prop} {m : Nat} (hL : e.Lawful D) (hm : m ≤ e.log.length)
    (hthen : ∀ i r, e.version m T i = some r → P i r)
    (hsince : ∀ c ∈ e.log.drop m, ∀ i r, c.writes T i = some r → P i r) : ∀ i r, e.committed T i = some r → P i r := by
  have hversions : ∀ n, m ≤ n → n ≤ e.log.length → ∀ i r, e.version n T i = some r → P i r := by
    intro n hmn
    induction hmn with
    | refl => exact fun _ => hthen
    | @step n hmn ih =>
      intro hn i r hr
      have hentry : e.log[n]? = some e.log[n] := List.getElem?_eq_getElem hn
      rw [hL.linked n _ hentry, Commit.after] at hr
      cases hw : e.log[n].writes T i with
      | some q =>
        rw [Rows.over_some hw] at hr
        cases hr
        have hle : m ≤ n := hmn
        have hdrop : e.log[n] ∈ e.log.drop m := by
          rw [List.mem_drop_iff_getElem]
          refine ⟨n - m, by omega, ?_⟩
          simp [Nat.add_sub_cancel' hle]
        exact hsince _ hdrop i _ hw
      | none =>
        rw [Rows.over_none hw] at hr
        exact ih (by omega) i r (by rw [← hr]; simp [Engine.version, hentry])
  intro i r hr
  exact hversions _ hm (Nat.le_refl _) i r (by rwa [version_length])

end Engine

variable {ρ : Type} {A : (machine S V ε).Assumption} {c c' : Conf (machine S V ε) ρ}

theorem flight_exec {t : Tid} {o : Op S V} {i : V.Input} {x : o.Res} {w w' : World S V} (h : w.db.Flight R)
    (hL : w.db.Lawful D) (he : w.exec t o i = some (x, w'))
    (hupdate : ∀ T j g v r, o = .sql (.update T j g) → w.db.view t T j = some v → S.apply T g v = some r →
      R T v r ∧ ∀ b, R T b v → R T b r) : w'.db.Flight R := by
  by_cases hc : o = .sql .commit
  · subst hc
    cases he
    exact h.commit hL
  by_cases ha : o = .sql .abort
  · subst ha
    cases he
    exact h.release
  obtain ⟨hlog, hcommitted⟩ := World.exec_log hc he
  refine ⟨fun u T j v r hv hr => ?_, fun d hd => h.log d (hlog ▸ hd)⟩
  rw [hcommitted] at hv
  by_cases hu : u = t
  · subst hu
    rcases World.exec_wrote he hr with hr | ⟨g, q, rfl, hq, hgr⟩ | ⟨r0, rfl, rfl, hstamp⟩
    · exact h.pending u T j v r hv hr
    · obtain ⟨hqr, hon⟩ := hupdate T j g q r rfl hq hgr
      cases hp : w.db.pending u T j with
      | none =>
        rw [Engine.view, Rows.over_none hp, hv] at hq
        cases hq
        exact hqr
      | some b =>
        rw [Engine.view, Rows.over_some hp] at hq
        cases hq
        exact hon v (h.pending u T j v q hv hp)
    · rw [hL.committed_none_of_le (Nat.le_refl _)] at hv
      cases hv
  · rw [World.exec_others hu he] at hr
    exact h.pending u T j v r hv hr

theorem flight_steps (hob : Cast.Obeyed D c) (h : c.state.db.Flight R)
    (hupdate : ∀ t T j g (w : World S V) x w' v r, A t (.sql (.update T j g)) w x w' → w.db.view t T j = some v →
      S.apply T g v = some r → R T v r ∧ ∀ b, R T b v → R T b r) (hr : Conf.Steps A c c') : c'.state.db.Flight R := by
  induction hr with
  | refl => exact h
  | @tail d d' hsteps hstep ih =>
    have hL := (hob.steps hsteps).1.lawful
    cases hstep with
    | @call t i o k x s code answer assumed =>
      refine flight_exec ih hL answer ?_
      rintro T j g v r rfl hv hr
      exact hupdate t T j g _ _ _ v r assumed hv hr
    | kill t => exact ih.release
    | happen n => exact ⟨ih.pending, ih.log⟩

end Txn
