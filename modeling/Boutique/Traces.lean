import Boutique.Conduct
/-!
# Traces — what a commit of some kinds writes

The kinds of a transaction's statements say which tables its commit writes, and how the rows of the staff are changed.
-/
namespace Staff

open Txn Session Contract

variable {D : Cast schema} {t : Tid} {w w' : World schema outside} {e e' : Engine schema} {ks : List Kind} {l : Bool}

/-- **What a commit of kinds `ks` writes**: rows of the staff among `I`, each changed by `P`, new ones where it hires, and
nothing of the tables that its kinds do not write. -/
structure Trace (ks : List Kind) (I : Nat → Prop) (P : StaffUser → StaffUser → Prop) (d : Commit schema) : Prop where
  staff : ∀ i (r : StaffUser), d.writes .staffUsers i = some r →
    (I i ∧ ∃ v : StaffUser, d.before .staffUsers i = some v ∧ P v r) ∨
      .hire ∈ ks ∧ d.before .staffUsers i = none ∧ ∃ q : StaffUser, q.unpictured = true ∧ (q = r ∨ P q r)
  rest : ∀ T, (∀ k ∈ ks, k.touches T = false) → d.writes T = fun _ => none

/-- The changes of the kinds `ks` are `P`-changes. -/
structure Changing (ks : List Kind) (P : StaffUser → StaffUser → Prop) : Prop where
  apply : ∀ g (v r : StaffUser) k, kind (.sql (.update .staffUsers 0 g)) = some k → k ∈ ks →
    StaffUserChange.apply v g = some r → P v r
  trans : ∀ a b c, P a b → P b c → P a c

def Upon (I : Nat → Prop) (o : Op schema outside) : Prop := ∀ j g, o = .sql (.update .staffUsers j g) → I j

section Trace

variable {I : Nat → Prop} {P : StaffUser → StaffUser → Prop}

theorem trace_idle (h : e.pending t = fun _ _ => none) : Trace ks I P (e.entry t) := by
  have hw : (e.entry t).writes = fun _ _ => none := h
  refine ⟨fun i r hr => ?_, fun T _ => by rw [hw]⟩
  rw [hw] at hr
  cases hr

theorem Trace.evolves (h : Trace ks I P (e.entry t)) (hev : e.Evolves D t e') :
    Trace ks I P (e'.entry t) := by
  have hw : (e'.entry t).writes = (e.entry t).writes := hev.pending
  refine ⟨fun i r hr => ?_, fun T hT => by rw [hw]; exact h.rest T hT⟩
  rw [hw] at hr
  have hsame : (e'.entry t).before .staffUsers i = (e.entry t).before .staffUsers i := hev.owned .staffUsers i r hr
  rw [hsame]
  exact h.staff i r hr

theorem Trace.mono {ks' : List Kind} {P' : StaffUser → StaffUser → Prop} {d : Commit schema} (h : Trace ks I P d)
    (hks : ∀ k ∈ ks, k ∈ ks') (hP : ∀ v r, P v r → P' v r) : Trace ks' I P' d := by
  refine ⟨fun i r hr => ?_, fun T hT => h.rest T fun k hk => hT k (hks k hk)⟩
  rcases h.staff i r hr with ⟨hi, v, hv, hvr⟩ | ⟨hhire, hnone, q, hq, hqr⟩
  · exact .inl ⟨hi, v, hv, hP v r hvr⟩
  · exact .inr ⟨hks _ hhire, hnone, q, hq, hqr.imp id (hP q r)⟩

theorem Trace.step {o : Op schema outside} {x : Input} {y : o.Res} (hP : Changing ks P) (hs : .session ∉ ks)
    (hf : .forge ∉ ks) (h : Trace ks I P (w.db.entry t)) (hL : w.db.Lawful D) (ho : Among ks l o) (hI : Upon I o)
    (he : w.exec t o x = some (y, w')) : Trace ks I P (w'.db.entry t) := by
  have hbefore : (w'.db.entry t).before = (w.db.entry t).before := (World.exec_log (ho.not_session hs).1 he).2
  refine ⟨fun i r hr => ?_, fun T hT => ?_⟩
  · rw [hbefore]
    rcases World.exec_wrote he hr with hr | ⟨g, v, rfl, hv, hgr⟩ | ⟨r0, rfl, rfl, hstamp⟩
    · exact h.staff i r hr
    · obtain ⟨k, hk⟩ := kind_update .staffUsers i g
      have hvr : P v r := hP.apply g v r k ((kind_staffUpdate g i).symm.trans hk) (ho k hk).1 hgr
      cases hpend : w.db.pending t .staffUsers i with
      | none =>
        have hfound : w.db.committed .staffUsers i = some v := by rw [← hv, Engine.view, Rows.over_none hpend]
        exact .inl ⟨hI i g rfl, v, hfound, hvr⟩
      | some q =>
        have hq : q = v := by
          rw [Engine.view, Rows.over_some hpend] at hv
          exact Option.some.inj hv
        subst hq
        rcases h.staff i q hpend with ⟨hi, u, hu, huq⟩ | ⟨hhire, hnone, u, hu, huq⟩
        · exact .inl ⟨hi, u, hu, hP.trans u q r huq hvr⟩
        · refine .inr ⟨hhire, hnone, u, hu, .inr ?_⟩
          rcases huq with rfl | huq
          · exact hvr
          · exact hP.trans u q r huq hvr
    · have hkind : kind (.sql (.insert .staffUsers r0)) = some (StaffUser.kind r0) := rfl
      have hmem := (ho _ hkind).1
      have hplain : StaffUser.unpictured r0 = true := by
        by_contra hnot
        rw [StaffUser.kind, if_neg hnot] at hmem
        exact hf hmem
      rw [StaffUser.kind, if_pos hplain] at hmem
      exact .inr ⟨hmem, hL.committed_none_of_le (Nat.le_refl _) _, r, by rw [hstamp]; exact hplain, .inl rfl⟩
  · have hnot : w'.db.pending t T = w.db.pending t T := by
      refine World.exec_pending (ho.inside hs) ?_ ?_ he
      · rintro j g rfl
        obtain ⟨k, hk⟩ := kind_update T j g
        exact absurd (update_touches hk) (by simp [hT k (ho k hk).1])
      · rintro r rfl
        obtain ⟨k, hk⟩ := kind_insert T r
        exact absurd (insert_touches hk) (by simp [hT k (ho k hk).1])
    exact hnot.trans (h.rest T hT)

theorem changing_none : Changing [] fun _ _ => False :=
  ⟨(fun g v r k hk hmem hr => by cases hmem), fun a b c h => h.elim⟩

theorem Changing.mono {ks' : List Kind} (h : Changing ks P) (hks : ∀ k ∈ ks', k ∈ ks) :
    Changing ks' P :=
  ⟨fun g v r k hk hmem hr => h.apply g v r k hk (hks k hmem) hr, h.trans⟩

theorem silent_of_trace {d : Commit schema} (h : Trace [] I P d) : d.writes = fun _ _ => none :=
  funext fun T => h.rest T fun k hk => by cases hk

end Trace

section Upon

variable {α : Type} {I : Nat → Prop}

theorem upon_all (p : Prg α) : Only (Upon fun _ => True) p := fun l => within_all (fun _ _ _ _ _ => trivial) p l

theorem upon_query {q : Query} (f : Snapshot schema → α) : Only (Upon I) (select q f : Prg α) :=
  only_select (fun j g h => by cases h) f

theorem upon_lock : Only (Upon I) staffLock := fun _ => ⟨(fun j g h => by cases h), fun _ => trivial⟩

theorem upon_liftExcept (x : Except Err α) : Only (Upon I) (liftExcept x) := by
  cases x with
  | ok a => exact only_ret a
  | error e => exact only_raise e

end Upon

end Staff
