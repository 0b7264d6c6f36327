import Boutique.TxnRules
/-!
# TxnHistory — invariants of the log, and the rules of one transaction

An invariant of the history reads the log, the committed rows and what the outside remembers; only a commit or a
question can break it.  `Since` is what thread `t` knows inside a transaction about how the database got here, `After`
what anyone knows across transactions.  There is one rule for each operation, and each gives the next database with
both what the others did and what the operation did.
-/
namespace Txn

variable {S : Schema} {V : Service} {ε α β : Type} {D : Cast S}

namespace Engine

def own (e : Engine S) (t : Tid) : List (Commit S) := e.log.filter fun c => c.by_ = t

/-- Thread `t` has nothing in flight. -/
structure Idle (e : Engine S) (t : Tid) : Prop where
  pending : e.pending t = fun _ _ => none

structure After (D : Cast S) (e e' : Engine S) : Prop where
  next_le : e.next ≤ e'.next
  clock_le : e.clock ≤ e'.clock
  log : e.log <+: e'.log
  version : ∀ m, m ≤ e.log.length → e'.version m = e.version m
  rows : ∀ T i, D.common.Becomes true T (e.committed T i) (e'.committed T i)

/-- **A later point of the same transaction of `t`**: the others' commits, none of them locked while `t` holds the lock,
and the rows `t` has written out of their reach. -/
structure Since (D : Cast S) (t : Tid) (e e' : Engine S) : Prop where
  advisory : e.advisory = some t → e'.advisory = some t
  next_le : e.next ≤ e'.next
  clock_le : e.clock ≤ e'.clock
  log : ∃ l, e'.log = e.log ++ l ∧ ∀ c ∈ l, c.by_ ≠ t ∧ (e.advisory = some t → c.locked = false)
  apart : ∀ n c, e.log.length ≤ n → e'.log[n]? = some c → ∀ T i, (e.pending t T i).isSome → c.writes T i = none
  version : ∀ m, m ≤ e.log.length → e'.version m = e.version m
  rows : ∀ T i, D.common.Becomes (!e.holds t) T (e.committed T i) (e'.committed T i)
  written : ∀ T i r, e.pending t T i = some r → (e'.pending t T i).isSome ∧ e'.committed T i = e.committed T i

variable {e e' e'' : Engine S} {t u : Tid} {T : S.Table} {i : Nat} {r : S.Row T}

theorem After.trans (h : e.After D e') (h' : e'.After D e'') : e.After D e'' :=
  ⟨Nat.le_trans h.next_le h'.next_le, Int.le_trans h.clock_le h'.clock_le, h.log.trans h'.log,
    fun m hm => (h'.version m (Nat.le_trans hm h.log.length_le)).trans (h.version m hm),
    fun T i => (h.rows T i).trans (h'.rows T i)⟩

theorem becomes_true {l : Bool} {a b : Option (S.Row T)} (h : D.common.Becomes l T a b) : D.common.Becomes true T a b := by
  cases l with
  | true => exact h
  | false => exact h.weaken

theorem Since.after (h : e.Since D t e') : e.After D e' := by
  obtain ⟨l, hl, -⟩ := h.log
  exact ⟨h.next_le, h.clock_le, ⟨l, hl.symm⟩, h.version, fun T i => becomes_true (h.rows T i)⟩

theorem Since.refl (e : Engine S) : e.Since D t e :=
  ⟨id, Nat.le_refl _, Int.le_refl _, ⟨[], by simp⟩, fun _ _ hn hc => log_none hn hc, fun _ _ => rfl,
    fun _ _ => Discipline.becomes_refl _ _ _, fun T i r h => ⟨by rw [h]; rfl, rfl⟩⟩

theorem Since.trans (h : e.Since D t e') (h' : e'.Since D t e'') : e.Since D t e'' := by
  obtain ⟨l, hl, hm⟩ := h.log
  obtain ⟨l', hl', hm'⟩ := h'.log
  refine ⟨fun ha => h'.advisory (h.advisory ha), Nat.le_trans h.next_le h'.next_le, Int.le_trans h.clock_le h'.clock_le,
    ⟨l ++ l', by rw [hl', hl, List.append_assoc], fun c hc => ?_⟩, fun n c hn hc T i hp => ?_,
    (h.after.trans h'.after).version, fun T i => ?_, fun T i r hp => ?_⟩
  · rcases List.mem_append.1 hc with hc | hc
    · exact hm c hc
    · exact ⟨(hm' c hc).1, fun ha => (hm' c hc).2 (h.advisory ha)⟩
  · obtain ⟨r, hr⟩ := Option.isSome_iff_exists.1 hp
    rcases Nat.lt_or_ge n e'.log.length with hlt | hge
    · rw [hl', List.getElem?_append_left hlt] at hc
      exact h.apart n c hn hc T i hp
    · exact h'.apart n c hge hc T i (h.written T i r hr).1
  · cases hh : e.holds t with
    | false => exact becomes_true (h.rows T i) |>.trans (becomes_true (h'.rows T i))
    | true =>
      have h1 := h.rows T i
      have h2 := h'.rows T i
      have hh' : e'.holds t = true := holds_iff.2 (h.advisory (holds_iff.1 hh))
      rw [hh] at h1
      rw [hh'] at h2
      exact h1.trans h2
  · obtain ⟨hs, hc⟩ := h.written T i r hp
    obtain ⟨r', hr'⟩ := Option.isSome_iff_exists.1 hs
    obtain ⟨hs', hc'⟩ := h'.written T i r' hr'
    exact ⟨hs', hc'.trans hc⟩

theorem Evolves.since (h : e.Evolves D t e') : e.Since D t e' :=
  ⟨h.advisory.2, h.next_le, h.clock_le, h.log, h.apart, h.version, h.rows,
    fun T i r hp => ⟨by rw [h.pending, hp]; rfl, h.owned T i r hp⟩⟩

theorem Since.own (h : e.Since D t e') : e'.own t = e.own t := by
  obtain ⟨l, hl, hm⟩ := h.log
  unfold Engine.own
  have hnone : (l.filter fun c => c.by_ = t) = [] := List.filter_eq_nil_iff.2 fun c hc => by simpa using (hm c hc).1
  rw [hl, List.filter_append, hnone, List.append_nil]

theorem Evolves.idle (h : e.Evolves D t e') (hi : e.Idle t) : e'.Idle t :=
  ⟨h.pending.trans hi.pending⟩

theorem view_table (h : ∀ i, e.pending t T i = none) : e.view t T = e.committed T := by
  funext i
  exact Rows.over_none (h i)

theorem Idle.view (h : e.Idle t) : e.view t = e.committed := by
  simp only [Engine.view, h.pending, Rows.over_empty]

theorem since_write (e : Engine S) (t : Tid) (T : S.Table) (i : Nat) (r : S.Row T) : e.Since D t (e.write t T i r) := by
  refine ⟨id, Nat.le_refl _, Int.le_refl _, ⟨[], by simp⟩, fun _ _ hn hc => log_none (e := e) hn hc, fun _ _ => rfl,
    fun _ _ => Discipline.becomes_refl _ _ _, fun T' j r' h => ⟨?_, rfl⟩⟩
  by_cases hr : T' = T ∧ j = i
  · obtain ⟨rfl, rfl⟩ := hr
    rw [write_pending_self]
    rfl
  · rw [write_pending_row hr, h]
    rfl

theorem since_next (e : Engine S) (t : Tid) (n : Nat) (hn : e.next ≤ n) : e.Since D t { e with next := n } :=
  ⟨id, hn, Int.le_refl _, ⟨[], by simp⟩, fun _ _ hn hc => log_none (e := e) hn hc, fun _ _ => rfl,
    fun _ _ => Discipline.becomes_refl _ _ _,
    fun T i r h => ⟨by rw [h]; rfl, rfl⟩⟩

theorem since_begin (e : Engine S) (t : Tid) :
    e.Since D t { e with started := Function.update e.started t e.clock } :=
  ⟨id, Nat.le_refl _, Int.le_refl _, ⟨[], by simp⟩, fun _ _ hn hc => log_none (e := e) hn hc, fun _ _ => rfl, fun _ _ => Discipline.becomes_refl _ _ _,
    fun T i r h => ⟨by rw [h]; rfl, rfl⟩⟩

theorem since_look (e : Engine S) (t : Tid) : e.Since D t (e.look t) :=
  ⟨id, Nat.le_refl _, Int.le_refl _, ⟨[], by simp [look]⟩, fun _ _ hn hc => log_none (e := e) hn hc, fun _ _ => rfl, fun _ _ => Discipline.becomes_refl _ _ _,
    fun T i r h => ⟨by rw [show (e.look t).pending = e.pending from rfl, h]; rfl, rfl⟩⟩

theorem since_lock (e : Engine S) (t : Tid) : e.Since D t { e with advisory := some t } :=
  ⟨fun _ => rfl, Nat.le_refl _, Int.le_refl _, ⟨[], by simp⟩, fun _ _ hn hc => log_none (e := e) hn hc, fun _ _ => rfl,
    fun _ _ => Discipline.becomes_refl _ _ _, fun T i r h => ⟨by rw [h]; rfl, rfl⟩⟩

theorem idle_release (e : Engine S) (t : Tid) : (e.release t).Idle t :=
  ⟨release_pending_self⟩

theorem idle_commit (e : Engine S) (t : Tid) : (e.commit t).Idle t :=
  ⟨commit_pending_self⟩

@[simp] theorem release_own (u : Tid) : (e.release t).own u = e.own u := rfl

theorem commit_own : (e.commit t).own t = e.own t ++ [e.entry t] := by
  simp [Engine.own, List.filter_append, entry]

end Engine

def Op.Inside : Op S V → Prop
  | .sql .commit => False
  | .sql .abort => False
  | _ => True

variable {t : Tid} {o : Op S V} {x : o.Res} {w w' : World S V} {T : S.Table} {j : Nat} {r : S.Row T} {ρ : Type}
  {p : Code S V ε ρ} {e : Engine S}

namespace World

theorem since_exec {i : V.Input} (ho : o.Inside) (h : w.exec t o i = some (x, w')) : w.db.Since D t w'.db := by
  cases o with
  | now =>
    cases h
    exact .refl _
  | ask q =>
    cases h
    exact .refl _
  | sql o =>
    obtain ⟨⟨y, e'⟩, he, hx⟩ := Option.map_eq_some_iff.1 h
    cases hx
    cases o with
    | begin =>
      cases he
      exact Engine.since_begin _ t
    | read q =>
      cases he
      exact Engine.since_look _ t
    | update T j g =>
      rcases Engine.update_cases he with ⟨-, -, rfl⟩ | ⟨v, r, -, -, -, ⟨-, rfl, -⟩ | ⟨-, rfl, -⟩⟩
      · exact .refl _
      · exact .refl _
      · exact Engine.since_write _ t T j r
    | insert T r =>
      rcases Engine.insert_cases he with ⟨-, rfl, -⟩ | ⟨-, rfl, -⟩
      · exact Engine.since_next _ t _ (Nat.le_succ _)
      · exact (Engine.since_next _ t _ (Nat.le_succ _)).trans (Engine.since_write _ t T _ _)
    | lock =>
      obtain ⟨-, rfl⟩ := Engine.lock_cases he
      exact Engine.since_lock _ t
    | commit => exact ho.elim
    | abort => exact ho.elim

/-- **A row in flight after an operation** was in flight before it, or is what the operation wrote. -/
theorem exec_wrote {i : V.Input} (h : w.exec t o i = some (x, w')) (hp : w'.db.pending t T j = some r) :
    w.db.pending t T j = some r ∨ (∃ g v, o = .sql (.update T j g) ∧ w.db.view t T j = some v ∧ S.apply T g v = some r) ∨
      ∃ r0, o = .sql (.insert T r0) ∧ j = w.db.next ∧ r = S.stamp T w.db.next (w.db.started t) r0 := by
  cases o with
  | now | ask =>
    cases h
    exact .inl hp
  | sql o =>
    obtain ⟨⟨y, e'⟩, he, hx⟩ := Option.map_eq_some_iff.1 h
    cases hx
    cases o with
    | begin | read =>
      cases he
      exact .inl hp
    | lock =>
      obtain ⟨-, rfl⟩ := Engine.lock_cases he
      exact .inl hp
    | commit | abort =>
      cases he
      simp at hp
    | update T' k g =>
      rcases Engine.update_cases he with ⟨-, -, rfl⟩ | ⟨v, r', hv, hr, -, ⟨-, rfl, -⟩ | ⟨-, rfl, -⟩⟩
      · exact .inl hp
      · exact .inl hp
      · by_cases hT : T = T' ∧ j = k
        · obtain ⟨rfl, rfl⟩ := hT
          cases Engine.write_pending_self.symm.trans hp
          exact .inr (.inl ⟨g, v, rfl, hv, hr⟩)
        · exact .inl ((Engine.write_pending_row hT).symm.trans hp)
    | insert T' r' =>
      rcases Engine.insert_cases he with ⟨-, rfl, -⟩ | ⟨-, rfl, -⟩
      · exact .inl hp
      · by_cases hT : T = T' ∧ j = w.db.next
        · obtain ⟨rfl, rfl⟩ := hT
          cases Engine.write_pending_self.symm.trans hp
          exact .inr (.inr ⟨r', rfl, rfl, rfl⟩)
        · exact .inl ((Engine.write_pending_row hT).symm.trans hp)

theorem exec_others {u : Tid} {i : V.Input} (hu : u ≠ t) (h : w.exec t o i = some (x, w')) :
    w'.db.pending u = w.db.pending u := by
  cases o with
  | now | ask =>
    cases h
    rfl
  | sql o =>
    obtain ⟨⟨y, e'⟩, he, hx⟩ := Option.map_eq_some_iff.1 h
    cases hx
    exact (Engine.exec_move he).pending u hu

theorem exec_log {i : V.Input} (ho : o ≠ .sql .commit) (h : w.exec t o i = some (x, w')) :
    w'.db.log = w.db.log ∧ w'.db.committed = w.db.committed := by
  cases o with
  | now | ask =>
    cases h
    exact ⟨rfl, rfl⟩
  | sql o =>
    obtain ⟨⟨y, e'⟩, he, hx⟩ := Option.map_eq_some_iff.1 h
    cases hx
    cases o with
    | commit => exact absurd rfl ho
    | begin | read | abort =>
      cases he
      exact ⟨rfl, rfl⟩
    | update T j g =>
      rcases Engine.update_cases he with ⟨-, -, rfl⟩ | ⟨v, r, -, -, -, ⟨-, rfl, -⟩ | ⟨-, rfl, -⟩⟩ <;> exact ⟨rfl, rfl⟩
    | insert T r => rcases Engine.insert_cases he with ⟨-, rfl, -⟩ | ⟨-, rfl, -⟩ <;> exact ⟨rfl, rfl⟩
    | lock =>
      obtain ⟨-, rfl⟩ := Engine.lock_cases he
      exact ⟨rfl, rfl⟩

theorem exec_out {i : V.Input} (ho : ∀ q, o ≠ .ask q) (h : w.exec t o i = some (x, w')) : w'.out = w.out := by
  cases o with
  | now =>
    cases h
    rfl
  | ask q => exact absurd rfl (ho q)
  | sql o =>
    obtain ⟨⟨y, e'⟩, he, hx⟩ := Option.map_eq_some_iff.1 h
    cases hx
    rfl

theorem exec_seen {i : V.Input} (ho : o.Inside) (hread : ∀ q, o ≠ .sql (.read q)) (h : w.exec t o i = some (x, w')) :
    w'.db.seen t = w.db.seen t := by
  cases o with
  | now | ask =>
    cases h
    rfl
  | sql o =>
    obtain ⟨⟨y, e'⟩, he, hx⟩ := Option.map_eq_some_iff.1 h
    cases hx
    cases o with
    | begin =>
      cases he
      rfl
    | read q => exact (hread q rfl).elim
    | lock =>
      obtain ⟨-, rfl⟩ := Engine.lock_cases he
      rfl
    | update T' k g =>
      rcases Engine.update_cases he with ⟨-, -, rfl⟩ | ⟨v, r', -, -, -, ⟨-, rfl, -⟩ | ⟨-, rfl, -⟩⟩ <;> rfl
    | insert T' r' => rcases Engine.insert_cases he with ⟨-, rfl, -⟩ | ⟨-, rfl, -⟩ <;> rfl
    | commit | abort => exact ho.elim

theorem exec_pending {i : V.Input} (ho : o.Inside) (hu : ∀ j g, o ≠ .sql (.update T j g))
    (hi : ∀ r, o ≠ .sql (.insert T r)) (h : w.exec t o i = some (x, w')) : w'.db.pending t T = w.db.pending t T := by
  have hwrite : ∀ (e : Engine S) T' j r, T' ≠ T → (e.write t T' j r).pending t T = e.pending t T := fun e T' j r hT => by
    funext k
    exact Engine.write_pending_row fun hc => hT hc.1.symm
  cases o with
  | now =>
    cases h
    rfl
  | ask q =>
    cases h
    rfl
  | sql o =>
    obtain ⟨⟨y, e'⟩, he, hx⟩ := Option.map_eq_some_iff.1 h
    cases hx
    cases o with
    | begin =>
      cases he
      rfl
    | read q =>
      cases he
      rfl
    | update T' j g =>
      rcases Engine.update_cases he with ⟨-, -, rfl⟩ | ⟨v, r, -, -, -, ⟨-, rfl, -⟩ | ⟨-, rfl, -⟩⟩
      · rfl
      · rfl
      · refine hwrite _ T' j r ?_
        rintro rfl
        exact hu j g rfl
    | insert T' r =>
      rcases Engine.insert_cases he with ⟨-, rfl, -⟩ | ⟨-, rfl, -⟩
      · rfl
      · refine hwrite _ T' _ _ ?_
        rintro rfl
        exact hi r rfl
    | lock =>
      obtain ⟨-, rfl⟩ := Engine.lock_cases he
      rfl
    | commit => exact ho.elim
    | abort => exact ho.elim

end World

namespace Engine

variable {D : Cast S} {e e' : Engine S} {t : Tid} {T : S.Table} {i : Nat}

def NoNew (e : Engine S) (t : Tid) (T : S.Table) : Prop := ∀ i r, e.pending t T i = some r → e.committed T i ≠ none

theorem Idle.noNew (h : e.Idle t) (T : S.Table) : e.NoNew t T := by
  intro i r hr
  rw [h.pending] at hr
  cases hr

theorem Evolves.noNew (hev : e.Evolves D t e') (h : e.NoNew t T) : e'.NoNew t T := by
  intro i r hr hc
  rw [hev.pending] at hr
  have hrow := hev.rows T i
  cases hb : e.committed T i with
  | none => exact h i r hr hb
  | some b =>
    rw [hb, hc] at hrow
    exact hrow

theorem NoNew.view (h : e.NoNew t T) (hi : e.committed T i = none) : e.view t T i = none := by
  cases hp : e.pending t T i with
  | none => exact (Rows.over_none hp).trans hi
  | some r => exact absurd hi (h i r hp)

theorem NoNew.write {T' : S.Table} {r : S.Row T'} (h : e.NoNew t T) (hv : T' = T → e.view t T' j ≠ none) :
    (e.write t T' j r).NoNew t T := by
  intro k r' hr hc
  by_cases hk : T = T' ∧ k = j
  · obtain ⟨rfl, rfl⟩ := hk
    exact hv rfl (h.view hc)
  · rw [write_pending_row hk] at hr
    exact h k r' hr hc

end Engine

namespace World

theorem exec_noNew {i : V.Input} (hi : ∀ r, o ≠ .sql (.insert T r)) (h : w.exec t o i = some (x, w'))
    (hw : w.db.NoNew t T) : w'.db.NoNew t T := by
  cases o with
  | now =>
    cases h
    exact hw
  | ask q =>
    cases h
    exact hw
  | sql o =>
    obtain ⟨⟨y, e'⟩, he, hx⟩ := Option.map_eq_some_iff.1 h
    cases hx
    cases o with
    | begin | read =>
      cases he
      exact hw
    | update T' j g =>
      rcases Engine.update_cases he with ⟨-, -, rfl⟩ | ⟨v, r, hv, -, -, ⟨-, rfl, -⟩ | ⟨-, rfl, -⟩⟩
      · exact hw
      · exact hw
      · refine hw.write fun _ hn => ?_
        rw [hv] at hn
        cases hn
    | insert T' r =>
      rcases Engine.insert_cases he with ⟨-, rfl, -⟩ | ⟨-, rfl, -⟩
      · exact hw
      · refine Engine.NoNew.write (e := { w.db with next := w.db.next + 1 }) hw fun hT => ?_
        subst hT
        exact absurd rfl (hi r)
    | lock =>
      obtain ⟨-, rfl⟩ := Engine.lock_cases he
      exact hw
    | commit | abort =>
      cases he
      intro k r hr
      simp at hr

end World

namespace Contract

structure Historic (C : Contract D V ε) (calm : V.Ask → Bool) : Prop where
  same : ∀ w w' : World S V, w'.db.log = w.db.log → w'.db.committed = w.db.committed → w'.out = w.out → C.Inv w → C.Inv w'
  asks : ∀ t q i n (w : World S V), calm q = true → C.Inv w → C.Inv ⟨w.db, (V.serve t q i n w.out).2⟩

variable {C : Contract D V ε} {calm : V.Ask → Bool} {t : Tid} {w : World S V} {Q : Except ε α → World S V → Prop}

theorem Historic.exec (hC : C.Historic calm) {i : V.Input} (ho : o ≠ .sql .commit)
    (hq : ∀ q, o = .ask q → calm q = true) (h : w.exec t o i = some (x, w')) (hI : C.Inv w) : C.Inv w' := by
  cases o with
  | now =>
    cases h
    exact hI
  | ask q =>
    cases h
    exact hC.asks t q i _ w (hq q rfl) hI
  | sql o =>
    obtain ⟨⟨y, e'⟩, he, hx⟩ := Option.map_eq_some_iff.1 h
    cases hx
    cases o with
    | commit => exact absurd rfl ho
    | begin | read | abort =>
      cases he
      exact hC.same w _ rfl rfl rfl hI
    | update T j g =>
      rcases Engine.update_cases he with ⟨-, -, rfl⟩ | ⟨v, r, -, -, -, ⟨-, rfl, -⟩ | ⟨-, rfl, -⟩⟩ <;>
        exact hC.same w _ rfl rfl rfl hI
    | insert T r =>
      rcases Engine.insert_cases he with ⟨-, rfl, -⟩ | ⟨-, rfl, -⟩ <;> exact hC.same w _ rfl rfl rfl hI
    | lock =>
      obtain ⟨-, rfl⟩ := Engine.lock_cases he
      exact hC.same w _ rfl rfl rfl hI

structure Point (C : Contract D V ε) (t : Tid) (w w' : World S V) : Prop where
  since : w.db.Since D t w'.db
  lawful : w'.db.Lawful D
  inv : C.Inv w'
  mine : V.mine t w'.out = V.mine t w.out

theorem Point.trans {w'' : World S V} (h : C.Point t w w') (h' : C.Point t w' w'') : C.Point t w w'' :=
  ⟨h.since.trans h'.since, h'.lawful, h'.inv, h'.mine.trans h.mine⟩

theorem point_evolves (h : w.Evolves D t w') (hL : w'.db.Lawful D) (hI : C.Inv w') : C.Point t w w' :=
  ⟨h.db.since, hL, hI, h.mine⟩

/-- **A write of thread `t`**: row `r` of table `T` under key `j`, from `w₁` to `w₂`, the thread having last looked at `w`. -/
structure Wrote (C : Contract D V ε) (t : Tid) (w w₁ w₂ : World S V) (T : S.Table) (j : Nat) (r : S.Row T) : Prop where
  before : C.Point t w w₁
  step : C.Point t w₁ w₂
  kept : w₁.db.pending t = w.db.pending t
  seen : w₁.db.seen t = w.db.seen t
  pending : w₂.db.pending t = (w.db.pending t).set T j r
  committed : w₂.db.committed = w₁.db.committed
  log : w₂.db.log = w₁.db.log
  out : w₂.out = w₁.out
  lt : j < w₂.db.next

variable {w₁ w₂ : World S V}

theorem Wrote.after (h : C.Wrote t w w₁ w₂ T j r) :
    C.Point t w w₂ := h.before.trans h.step

theorem Wrote.row (h : C.Wrote t w w₁ w₂ T j r) : w₂.db.pending t T j = some r := by
  rw [h.pending, Rows.set_same]

theorem Wrote.view (h : C.Wrote t w w₁ w₂ T j r) : w₂.db.view t = (w₁.db.view t).set T j r := by
  funext T' i
  unfold Engine.view
  by_cases hr : T' = T ∧ i = j
  · obtain ⟨rfl, rfl⟩ := hr
    rw [Rows.set_same, Rows.over_some]
    rw [h.pending, Rows.set_same]
  · rw [Rows.set_other hr]
    unfold Rows.overlay
    rw [h.pending, Rows.set_other hr, h.committed, h.kept]

theorem wrote_write {n : Nat} (hev : w.Evolves D t w₁) (hp : C.Point t w w₁) (hn : w₁.db.next ≤ n) (hj : j < n)
    (hL : (({ w₁.db with next := n } : Engine S).write t T j r).Lawful D)
    (hI : C.Inv ⟨({ w₁.db with next := n } : Engine S).write t T j r, w₁.out⟩) :
    C.Wrote t w w₁ ⟨({ w₁.db with next := n } : Engine S).write t T j r, w₁.out⟩ T j r := by
  refine ⟨hp, ⟨(Engine.since_next _ t n hn).trans (Engine.since_write _ t T j r), hL, hI, rfl⟩, hev.db.pending, hev.db.seen, ?_, rfl,
    rfl, rfl, hj⟩
  rw [← hev.db.pending]
  simp [Engine.write]

section Rules

variable (hC : C.Historic calm)
include hC

theorem ensures_read {q : S.Query} {k : Snapshot S → Code S V ε α}
    (h : ∀ w₁, C.Point t w w₁ → w₁.db.pending t = w.db.pending t →
      w₁.db.seen t = w₁.db.log.length → C.Ensures t (k ⟨w₁.db.view t, w₁.db.next⟩) Q w₁) :
    C.Ensures t (.call (.sql (.read q)) k) Q w := by
  refine ensures_call fun w₁ hev hL hI i r w₂ he hL2 hA => ?_
  have hI2 := hC.exec (by simp) (by simp) he hI
  have hs := World.since_exec (D := D) (by trivial) he
  cases he
  exact ⟨hI2, h ⟨w₁.db.look t, w₁.out⟩ ((point_evolves hev hL hI).trans ⟨hs, hL2, hI2, rfl⟩) hev.db.pending
    (Function.update_self ..)⟩

theorem ensures_now {k : Int → Code S V ε α}
    (h : ∀ w₁, C.Point t w w₁ → w₁.db.pending t = w.db.pending t → C.Ensures t (k w₁.db.clock) Q w₁) :
    C.Ensures t (.call .now k) Q w := by
  refine ensures_call fun w₁ hev hL hI i r w₂ he hL2 hA => ?_
  have hI2 := hC.exec (by simp) (by simp) he hI
  cases he
  exact ⟨hI2, h w₁ (point_evolves hev hL hI) hev.db.pending⟩

theorem ensures_ask {q : V.Ask} {k : V.Ans q → Code S V ε α} (hq : calm q = true)
    (hmine : ∀ i n o, V.mine t (V.serve t q i n o).2 = V.mine t o)
    (h : ∀ w₁ a, C.Point t w w₁ → w₁.db.pending t = w.db.pending t → C.Ensures t (k a) Q w₁) :
    C.Ensures t (.call (.ask q) k) Q w := by
  refine ensures_call fun w₁ hev hL hI i r w₂ he hL2 hA => ?_
  have hI2 := hC.exec (by simp) (fun q' hq' => by cases hq'; exact hq) he hI
  cases he
  have hp : C.Point t w₁ ⟨w₁.db, (V.serve t q i w₁.db.log.length w₁.out).2⟩ := ⟨.refl _, hL, hI2, hmine i _ _⟩
  exact ⟨hI2, h _ _ ((point_evolves hev hL hI).trans hp) hev.db.pending⟩

variable {k : Unit → Code S V ε α}

theorem ensures_lock
    (h : ∀ w₁, C.Point t w w₁ → w₁.db.pending t = w.db.pending t → w₁.db.advisory = some t → C.Ensures t (k ()) Q w₁) :
    C.Ensures t (.call (.sql .lock) k) Q w := by
  refine ensures_call fun w₁ hev hL hI i r w₂ he hL2 hA => ?_
  have hI2 := hC.exec (by simp) (by simp) he hI
  have hs := World.since_exec (D := D) (by trivial) he
  obtain ⟨⟨y, e'⟩, he', hx⟩ := Option.map_eq_some_iff.1 he
  obtain ⟨-, rfl⟩ := Engine.lock_cases he'
  cases hx
  exact ⟨hI2, h _ ((point_evolves hev hL hI).trans ⟨hs, hL2, hI2, rfl⟩) hev.db.pending rfl⟩

/-- **The UPDATE rule**: it matches nothing, is refused, or writes the row it computed from the one it saw. -/
theorem ensures_update {T : S.Table} {j : Nat} {g : S.Change T} {k : Except Fault (Option (S.Row T)) → Code S V ε α}
    (hnone : ∀ w₁, C.Point t w w₁ → w₁.db.pending t = w.db.pending t → w₁.db.seen t = w.db.seen t →
      (w₁.db.view t T j).bind (S.apply T g) = none → C.Ensures t (k (.ok none)) Q w₁)
    (hrefused : ∀ w₁ v r, C.Point t w w₁ → w₁.db.pending t = w.db.pending t → w₁.db.view t T j = some v →
      S.apply T g v = some r → w₁.db.Refuses t T j r → C.Ensures t (k (.error .integrity)) Q w₁)
    (hsome : ∀ w₁ w₂ v r, C.Wrote t w w₁ w₂ T j r → w₁.db.view t T j = some v → S.apply T g v = some r →
      C.Assume t (.sql (.update T j g)) w₁ (.ok (some r)) w₂ → C.Ensures t (k (.ok (some r))) Q w₂) :
    C.Ensures t (.call (.sql (.update T j g)) k) Q w := by
  refine ensures_call fun w₁ hev hL hI i r w₂ he hL2 hA => ?_
  have hI2 := hC.exec (by simp) (by simp) he hI
  have hp := point_evolves (C := C) hev hL hI
  obtain ⟨⟨y, e'⟩, he', hx⟩ := Option.map_eq_some_iff.1 he
  cases hx
  rcases Engine.update_cases he' with ⟨hn, rfl, rfl⟩ | ⟨v, r', hv, hr, -, ⟨rfl, rfl, hR⟩ | ⟨rfl, rfl, -⟩⟩
  · exact ⟨hI2, hnone _ hp hev.db.pending hev.db.seen hn⟩
  · exact ⟨hI2, hrefused _ v r' hp hev.db.pending hv hr hR⟩
  · exact ⟨hI2, hsome w₁ _ v r' (wrote_write hev hp (Nat.le_refl _) (hL.view_lt hv) hL2 hI2) hv hr hA⟩

theorem ensures_insert {k : Except Fault (S.Row T) → Code S V ε α}
    (hrefused : ∀ w₁, C.Point t w w₁ → w₁.db.pending t = w.db.pending t → C.Ensures t (k (.error .integrity)) Q w₁)
    (hok : ∀ (w₁ w₂ : World S V) n, C.Wrote t w w₁ w₂ T w₁.db.next (S.stamp T w₁.db.next n r) →
      C.Assume t (.sql (.insert T r)) w₁ (.ok (S.stamp T w₁.db.next n r)) w₂ →
      C.Ensures t (k (.ok (S.stamp T w₁.db.next n r))) Q w₂) : C.Ensures t (.call (.sql (.insert T r)) k) Q w := by
  refine ensures_call fun w₁ hev hL hI i x w₂ he hL2 hA => ?_
  have hI2 := hC.exec (by simp) (by simp) he hI
  have hp := point_evolves (C := C) hev hL hI
  have hs := World.since_exec (D := D) (by trivial) he
  obtain ⟨⟨y, e'⟩, he', hx⟩ := Option.map_eq_some_iff.1 he
  cases hx
  rcases Engine.insert_cases he' with ⟨rfl, rfl, -⟩ | ⟨rfl, rfl, -⟩
  · exact ⟨hI2, hrefused _ (hp.trans ⟨hs, hL2, hI2, rfl⟩) hev.db.pending⟩
  · exact ⟨hI2, hok w₁ _ _ (wrote_write hev hp (Nat.le_succ _) (Nat.lt_succ_self _) hL2 hI2) hA⟩

theorem ensures_begin {k : Int → Code S V ε α}
    (h : ∀ w₁ n, C.Point t w w₁ → w₁.db.pending t = w.db.pending t → C.Ensures t (k n) Q w₁) : C.Ensures t (.call (.sql .begin) k) Q w := by
  refine ensures_call fun w₁ hev hL hI i r w₂ he hL2 hA => ?_
  have hI2 := hC.exec (by simp) (by simp) he hI
  have hs := World.since_exec (D := D) (by trivial) he
  cases he
  exact ⟨hI2, h _ _ ((point_evolves hev hL hI).trans ⟨hs, hL2, hI2, rfl⟩) hev.db.pending⟩

omit hC in
/-- **The COMMIT rule**: what the transaction saw becomes the committed rows, and the invariant must hold of that. -/
theorem ensures_commit (h : ∀ w₁, w.Evolves D t w₁ → w₁.db.Lawful D → C.Inv w₁ →
      C.Assume t (.sql .commit) w₁ () ⟨w₁.db.commit t, w₁.out⟩ → (w₁.db.commit t).Lawful D →
      C.Inv ⟨w₁.db.commit t, w₁.out⟩ ∧ C.Ensures t (k ()) Q ⟨w₁.db.commit t, w₁.out⟩) :
    C.Ensures t (.call (.sql .commit) k) Q w := by
  refine ensures_call fun w₁ hev hL hI i r w₂ he hL2 hA => ?_
  cases he
  exact h w₁ hev hL hI hA hL2

theorem ensures_abort (h : ∀ w₁, w.Evolves D t w₁ → w₁.db.Lawful D → C.Inv ⟨w₁.db.release t, w₁.out⟩ →
      C.Ensures t (k ()) Q ⟨w₁.db.release t, w₁.out⟩) : C.Ensures t (.call (.sql .abort) k) Q w := by
  refine ensures_call fun w₁ hev hL hI i r w₂ he hL2 hA => ?_
  have hI2 := hC.exec (by simp) (by simp) he hI
  cases he
  exact ⟨hI2, h w₁ hev hL hI2⟩

/-- **A stretch inside a transaction**: a program that writes none of some tables leaves the thread's part of them. -/
theorem ensures_untouched {K : S.Table → Prop} {F : Bool → Op S V → Prop} {l : Bool} {p : Code S V ε α}
    {R : Except ε α → Bool → Prop} (hF : ∀ l o, F l o → o.Inside ∧ (∀ q, o = .ask q → calm q = true ∧
        ∀ i n s, V.mine t (V.serve t q i n s).2 = V.mine t s) ∧
      (∀ T j g, o = .sql (.update T j g) → ¬K T) ∧ ∀ T r, o = .sql (.insert T r) → ¬K T)
    (hp : Uses F l p R) (hl : l = true → w.db.advisory = some t) (hL : w.db.Lawful D) (hI : C.Inv w) :
    C.Ensures t p (fun x w' => C.Point t w w' ∧ (∀ T, K T → w'.db.pending t T = w.db.pending t T) ∧
      ∃ l', R x l' ∧ (l' = true → w'.db.advisory = some t)) w := by
  induction p generalizing l w with
  | ret a => exact ⟨⟨.refl _, hL, hI, rfl⟩, fun _ _ => rfl, l, hp, hl⟩
  | raise e => exact ⟨⟨.refl _, hL, hI, rfl⟩, fun _ _ => rfl, l, hp, hl⟩
  | call o k ih =>
    obtain ⟨ho, hk⟩ := hp
    obtain ⟨hin, hask, hup, hins⟩ := hF l o ho
    refine ensures_call fun w₁ hev hL1 hI1 i r w₂ he hL2 hA => ?_
    have hI2 := hC.exec (fun hc => by subst hc; exact hin) (fun q hq => (hask q hq).1) he hI1
    have hs : w₁.db.Since D t w₂.db := World.since_exec hin he
    have hmine : V.mine t w₂.out = V.mine t w₁.out := by
      cases o with
      | ask q =>
        cases he
        exact (hask q rfl).2 _ _ _
      | now =>
        cases he
        rfl
      | sql o =>
        obtain ⟨⟨y, e'⟩, -, hx⟩ := Option.map_eq_some_iff.1 he
        cases hx
        rfl
    have hpoint := (point_evolves hev hL1 hI1).trans ⟨hs, hL2, hI2, hmine⟩
    have hpend : ∀ T, K T → w₂.db.pending t T = w.db.pending t T := fun T hT => by
      rw [World.exec_pending hin (fun j g hc => hup T j g hc hT) (fun r hc => hins T r hc hT) he, hev.db.pending]
    have hl2 : o.lockAfter l = true → w₂.db.advisory = some t := fun hlock => by
      have hold : l = true → w₂.db.advisory = some t := fun h => hs.advisory (hev.db.advisory.2 (hl h))
      cases o with
      | sql o =>
        cases o with
        | lock =>
          obtain ⟨⟨y, e'⟩, he', hx⟩ := Option.map_eq_some_iff.1 he
          obtain ⟨-, rfl⟩ := Engine.lock_cases he'
          cases hx
          rfl
        | commit | abort => cases hlock
        | begin | read | update | insert => exact hold hlock
      | now | ask => exact hold hlock
    refine ⟨hI2, ensures_mono (fun x w' hx => ?_) (ih r (hk r) hl2 hL2 hI2)⟩
    obtain ⟨hp', hpend', l', hR, hl'⟩ := hx
    exact ⟨hpoint.trans hp', fun T hT => (hpend' T hT).trans (hpend T hT), l', hR, hl'⟩

end Rules

theorem safe_of_ensures {Q Q' : Except ε ρ → World S V → Prop} (h : C.Ensures t p Q w)
    (hQ : ∀ x w w', Q x w → w.Evolves D t w' → w'.db.Lawful D → C.Inv w' → Q' x w') : C.logic.Safe t p Q' w :=
  ensures_mono (fun x w hx w' hr hi => hQ x w w' hx (evolves_of_rely hr) hi.1 hi.2) h

theorem safe_of_free {Q : Except ε ρ → World S V → Prop} (hC : C.Historic fun _ => false)
    (hcommit : ∀ w : World S V, w.db.Lawful D → (w.db.commit t).Lawful D → C.Inv w →
      C.Assume t (.sql .commit) w () ⟨w.db.commit t, w.out⟩ → C.Inv ⟨w.db.commit t, w.out⟩)
    (hask : ∀ q i (w : World S V), C.Inv w → C.Inv ⟨w.db, (V.serve t q i w.db.log.length w.out).2⟩)
    (hQ : ∀ x w, Q x w) : C.logic.Safe t p Q w := by
  refine safe_of_ensures (Q := fun _ _ => True) ?_ fun x _ w' _ _ _ _ => hQ x w'
  induction p generalizing w with
  | ret a => trivial
  | raise e => trivial
  | call o k ih =>
    refine ensures_call fun w₁ hev hL hI i r w₂ he hL2 hA => ⟨?_, ih r⟩
    by_cases hc : o = .sql .commit
    · subst hc
      cases he
      exact hcommit w₁ hL hL2 hI hA
    · cases o with
      | ask q =>
        cases he
        exact hask q i w₁ hI
      | now | sql => exact hC.exec hc (by simp) he hI

end Contract

/-! ## Statements about every commit -/

structure Ledger (S : Schema) where
  Holds : Engine S → Nat → Commit S → Prop
  stable : ∀ e e' m c, e.log[m]? = some c → e.log <+: e'.log → (∀ k, k ≤ m + 1 → e'.version k = e.version k) →
    Holds e m c → Holds e' m c

namespace Engine

theorem version_congr {e' : Engine S} (hl : e'.log = e.log) (hc : e'.committed = e.committed) (m : Nat) :
    e'.version m = e.version m := by
  unfold version
  rw [hl, hc]

end Engine

namespace Ledger

variable {P : Ledger S} {A : (machine S V ε).Assumption} {t : Tid} {w : World S V}

theorem stable_congr {e' : Engine S} (h : ∀ m c, e.log[m]? = some c → P.Holds e m c) (hl : e'.log = e.log)
    (hc : e'.committed = e.committed) (m : Nat) (c : Commit S) (hm : e'.log[m]? = some c) : P.Holds e' m c := by
  rw [hl] at hm
  exact P.stable e e' m c hm (hl ▸ List.prefix_rfl) (fun k _ => Engine.version_congr hl hc k) (h m c hm)

def contract (D : Cast S) (P : Ledger S) (A : (machine S V ε).Assumption) : Contract D V ε where
  Inv w := ∀ m c, w.db.log[m]? = some c → P.Holds w.db m c
  Assume := A
  crash_inv _ _ _ h := stable_congr h rfl rfl
  tick_inv _ _ _ h := stable_congr h rfl rfl

theorem historic (calm : V.Ask → Bool) : (P.contract D A : Contract D V ε).Historic calm :=
  ⟨fun _ _ hl hc _ h => stable_congr h hl hc, fun _ _ _ _ _ _ h => stable_congr h rfl rfl⟩

theorem inv_commit (hI : (P.contract D A : Contract D V ε).Inv w)
    (h : P.Holds (w.db.commit t) w.db.log.length (w.db.entry t)) :
    (P.contract D A : Contract D V ε).Inv ⟨w.db.commit t, w.out⟩ := by
  intro m c hm
  change (w.db.log ++ [w.db.entry t])[m]? = some c at hm
  rcases Nat.lt_or_ge m w.db.log.length with hlt | hge
  · rw [List.getElem?_append_left hlt] at hm
    exact P.stable w.db _ m c hm (List.prefix_append _ _) (fun k hk => Engine.commit_version_le (by omega)) (hI m c hm)
  · have hme : m = w.db.log.length := by
      have := (List.getElem?_eq_some_iff.1 hm).1
      simp at this
      omega
    subst hme
    rw [List.getElem?_concat_length] at hm
    cases hm
    exact h

theorem safe_of_commits {Q : Except ε ρ → World S V → Prop}
    (h : ∀ w : World S V, w.db.Lawful D → (w.db.commit t).Lawful D → A t (.sql .commit) w () ⟨w.db.commit t, w.out⟩ →
      P.Holds (w.db.commit t) w.db.log.length (w.db.entry t)) (hQ : ∀ x w, Q x w) :
    (P.contract D A : Contract D V ε).logic.Safe t p Q w :=
  Contract.safe_of_free (historic _) (fun w hL hL' hI hA => inv_commit hI (h w hL hL' hA))
    (fun _ _ _ hI => stable_congr hI rfl rfl) hQ

theorem safe_of_lawful {Q : Except ε ρ → World S V → Prop}
    (h : ∀ e : Engine S, e.Lawful D → (e.commit t).Lawful D → P.Holds (e.commit t) e.log.length (e.entry t))
    (hQ : ∀ x w, Q x w) : (P.contract D A : Contract D V ε).logic.Safe t p Q w :=
  safe_of_commits (fun w hL hL' _ => h w.db hL hL') hQ

end Ledger
/-- **What holds of the first version, and is kept by every commit**, holds of every version. -/
theorem Engine.Lawful.version_induction (h : e.Lawful D) {P : Rows S → Prop} (h0 : P (e.version 0))
    (hstep : ∀ m c, e.log[m]? = some c → e.version m = c.before → e.version (m + 1) = c.after → P c.before → P c.after) :
    ∀ m, m ≤ e.log.length → P (e.version m) := by
  intro m hm
  induction m with
  | zero => exact h0
  | succ m ih =>
    have hlt : m < e.log.length := by omega
    have hentry : e.log[m]? = some e.log[m] := List.getElem?_eq_getElem hlt
    have hbefore : e.version m = e.log[m].before := by
      unfold Engine.version
      rw [hentry]
    have hafter := h.linked m _ hentry
    rw [hafter]
    refine hstep m _ hentry hbefore hafter ?_
    rw [← hbefore]
    exact ih (by omega)

namespace Cast

variable {ρ : Type} {A : (machine S V ε).Assumption} {c c' : Conf (machine S V ε) ρ} {t : Tid}

/-- **A thread that has made no call** has nothing in flight and all of its program before it. -/
theorem Obeyed.unbegun (h : Obeyed D c) (hidle : c.state.db.Idle t)
    (hs : Conf.Steps (fun u o w r w' => u ≠ t ∧ A u o w r w') c c') :
    c'.state.db.Idle t ∧ ∀ p, c'.threads t = some p → c.threads t = some p := by
  induction hs with
  | refl => exact ⟨hidle, fun _ hp => hp⟩
  | @tail d d' hsteps hstep ih =>
    obtain ⟨hd, hthread⟩ := ih
    have hmove := ((h.steps hsteps).1.step hstep).2
    cases hmove with
    | @call u i o k r s code answer assumed =>
      obtain ⟨hm, hu, -⟩ := assumed
      refine ⟨⟨(hm.db.pending t (Ne.symm hu)).trans hd.pending⟩, fun p hp => hthread p ?_⟩
      simpa [Conf.setThread, Ne.symm hu] using hp
    | kill u =>
      by_cases hu : t = u
      · subst hu
        exact ⟨Engine.idle_release _ t, fun p hp => by simp [Conf.setThread] at hp⟩
      · refine ⟨⟨((Engine.move_release u _).pending t hu).trans hd.pending⟩, fun p hp => hthread p ?_⟩
        simpa [Conf.setThread, hu] using hp
    | happen d => exact ⟨⟨hd.pending⟩, hthread⟩

theorem Obeyed.unbegun_own (h : Obeyed D c) (hs : Conf.Steps (fun u o w r w' => u ≠ t ∧ A u o w r w') c c') :
    c'.state.db.own t = c.state.db.own t := by
  induction hs with
  | refl => rfl
  | @tail d d' hsteps hstep ih =>
    cases ((h.steps hsteps).1.step hstep).2 with
    | @call u i o k r s code answer assumed =>
      obtain ⟨hm, hu, -⟩ := assumed
      exact (hm.evolves hu).db.since.own.trans ih
    | kill u => exact ih
    | happen d => exact ih

theorem Obeyed.next_le (h : Obeyed D c) (hs : Conf.Steps A c c') : c.state.db.next ≤ c'.state.db.next := by
  induction hs with
  | refl => exact Nat.le_refl _
  | @tail d d' hsteps hstep ih =>
    refine Nat.le_trans ih ?_
    cases ((h.steps hsteps).1.step hstep).2 with
    | call code answer assumed => exact assumed.1.db.next_le
    | kill u => exact (Engine.move_release u d.state.db).next_le
    | happen e => exact Nat.le_refl _

end Cast
end Txn
