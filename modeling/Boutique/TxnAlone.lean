import Boutique.TxnSession
import Mathlib.Data.Finset.Card
import Mathlib.Data.Finset.Range
/-!
# TxnAlone — a program that nobody interrupts

Here one thread moves, on tables of which no row is in anybody's hands.  Nothing waits then: a transaction of one UPDATE
is refused, matches nothing, or commits the row it computed.
-/
namespace Txn

open Session

variable {S : Schema} {V : Service} {ε α β : Type}

/-- **A thread moving alone**, with one answer from outside to every question. -/
def alone (t : Tid) (i : V.Input) : Code S V ε α → World S V → Option (Except ε α × World S V)
  | .ret a, w => some (.ok a, w)
  | .raise e, w => some (.error e, w)
  | .call o k, w => (w.exec t o i).bind fun p => alone t i (k p.1) p.2

/-- **Alone, the program ends in `Q`.** -/
def Alone (t : Tid) (i : V.Input) (p : Code S V ε α) (Q : Except ε α → World S V → Prop) (w : World S V) : Prop :=
  ∃ x w', alone t i p w = some (x, w') ∧ Q x w'

variable {t : Tid} {i : V.Input} {w w' : World S V} {Q Q' : Except ε β → World S V → Prop}

theorem Alone.mono {p : Code S V ε β} (hQ : ∀ x w, Q x w → Q' x w) (h : Alone t i p Q w) : Alone t i p Q' w := by
  obtain ⟨x, w', he, hx⟩ := h
  exact ⟨x, w', he, hQ x w' hx⟩

theorem Alone.and {p : Code S V ε β} (h : Alone t i p Q w) (h' : Alone t i p Q' w) :
    Alone t i p (fun x w' => Q x w' ∧ Q' x w') w := by
  obtain ⟨x, w1, he, hx⟩ := h
  obtain ⟨y, w2, he', hy⟩ := h'
  rw [he] at he'
  cases he'
  exact ⟨x, w1, he, hx, hy⟩

/-! ## The rules -/

theorem alone_ret {a : β} (h : Q (.ok a) w) : Alone t i (.ret a) Q w := ⟨_, _, rfl, h⟩

theorem alone_raise {e : ε} (h : Q (.error e) w) : Alone t i (.raise e) Q w := ⟨_, _, rfl, h⟩

theorem alone_call {o : Op S V} {k : o.Res → Code S V ε β} {r : o.Res} (he : w.exec t o i = some (r, w'))
    (h : Alone t i (k r) Q w') : Alone t i (.call o k) Q w := by
  obtain ⟨x, w1, hk, hx⟩ := h
  refine ⟨x, w1, ?_, hx⟩
  rw [alone, he]
  exact hk

variable {p : Code S V ε α} {f : α → Code S V ε β} {T : S.Table} {j : Nat} {g : S.Change T}
  {k : Option (S.Row T) → Code S V ε β} {r : S.Row T}

theorem alone_bind_eq :
    alone t i (p >>= f) w = (alone t i p w).bind fun
      | (.ok a, w') => alone t i (f a) w'
      | (.error e, w') => some (.error e, w') := by
  induction p generalizing w with
  | ret a => rfl
  | raise e => rfl
  | call o k ih =>
    rw [Prog.call_bind, alone, alone, Option.bind_assoc]
    congr 1
    funext r
    exact ih r.1

theorem alone_bind (h : Alone t i p (fun
      | .ok a, w' => Alone t i (f a) Q w'
      | .error e, w' => Q (.error e) w') w) : Alone t i (p >>= f) Q w := by
  obtain ⟨x, w1, hp, hx⟩ := h
  rw [Alone, alone_bind_eq, hp]
  cases x with
  | ok a => exact hx
  | error e => exact ⟨_, _, rfl, hx⟩

theorem alone_attempt {Q : Except ε (Except ε α) → World S V → Prop} (h : Alone t i p (fun x w' => Q (.ok x) w') w) :
    Alone t i p.attempt Q w := by
  induction p generalizing w with
  | ret a =>
    obtain ⟨x, w', he, hx⟩ := h
    cases he
    exact alone_ret hx
  | raise e =>
    obtain ⟨x, w', he, hx⟩ := h
    cases he
    exact alone_ret hx
  | call o k ih =>
    obtain ⟨x, w', he, hx⟩ := h
    obtain ⟨⟨r, w1⟩, hr, hk⟩ := Option.bind_eq_some_iff.1 he
    exact alone_call hr (ih r ⟨x, w', hk, hx⟩)

theorem alone_raiseIf {c : Bool} {e : ε} {k : Unit → Code S V ε β} (htrue : c = true → Q (.error e) w)
    (hfalse : c = false → Alone t i (k ()) Q w) : Alone t i (raiseIf c e >>= k) Q w := by
  cases c with
  | true => exact alone_raise (htrue rfl)
  | false => exact hfalse rfl

theorem alone_now {k : Int → Code S V ε β} (h : Alone t i (k w.db.clock) Q w) : Alone t i (now >>= k) Q w :=
  alone_call rfl h

theorem alone_ask {q : V.Ask} {k : V.Ans q → Code S V ε β}
    (h : Alone t i (k (V.serve t q i w.db.log.length w.out).1) Q ⟨w.db, (V.serve t q i w.db.log.length w.out).2⟩) :
    Alone t i (ask q >>= k) Q w :=
  alone_call rfl h

theorem alone_select {q : S.Query} {f : Snapshot S → α} {k : α → Code S V ε β} {a : α}
    (hf : f ⟨w.db.view t, w.db.next⟩ = a) (h : Alone t i (k a) Q ⟨w.db.look t, w.out⟩) :
    Alone t i (select q f >>= k) Q w := by
  subst hf
  exact alone_call rfl h

/-- What a transaction that ended so leaves of the tables. -/
def Engine.close (e : Engine S) (t : Tid) : Except ε β → Engine S
  | .ok _ => e.commit t
  | .error _ => e.release t

theorem alone_tenantSession {body : Int → Code S V ε β} (h : Alone t i (body w.db.clock) (fun x w' =>
      Q x ⟨w'.db.close t x, w'.out⟩)
      ⟨{ w.db with started := Function.update w.db.started t w.db.clock }, w.out⟩) :
    Alone t i (tenantSession body) Q w := by
  refine alone_call rfl (alone_bind (p := (body w.db.clock).attempt) (alone_attempt (h.mono fun x w' hx => ?_)))
  cases x with
  | ok a => exact alone_call rfl (alone_ret hx)
  | error e => exact alone_call rfl (alone_raise hx)

/-! ## Tables in nobody's hands -/

/-- **No row is in anybody's hands.** -/
structure Engine.Unheld (e : Engine S) : Prop where
  unowned : ∀ T i, e.owner T i = none
  unwritten : ∀ t T i, e.pending t T i = none
  consistent : Consistent e.committed
  lt : ∀ T i r, e.committed T i = some r → i < e.next

theorem atRest_unheld {rows : Rows S} {next : Nat} {clock : Int} (h : Shelved rows next) : (atRest rows next clock).Unheld :=
  ⟨fun _ _ => rfl, fun _ _ _ => rfl, h.consistent, h.lt⟩

namespace Engine.Unheld

variable {e : Engine S} {T : S.Table} {j : Nat} {r : S.Row T}

theorem view (h : e.Unheld) : e.view t = e.committed := by
  funext T i
  exact Rows.over_none (h.unwritten t T i)

theorem congr {e' : Engine S} (h : e.Unheld) (howner : e'.owner = e.owner) (hpending : e'.pending = e.pending)
    (hcommitted : e'.committed = e.committed) (hnext : e'.next = e.next) : e'.Unheld :=
  ⟨by rw [howner]; exact h.unowned, by rw [hpending]; exact h.unwritten, by rw [hcommitted]; exact h.consistent,
    by rw [hcommitted, hnext]; exact h.lt⟩

theorem look (h : e.Unheld) : (e.look t).Unheld := h.congr rfl rfl rfl rfl

theorem put (h : e.Unheld) : (e.put t T j r = some (.error .integrity, e) ∧ e.Refuses t T j r) ∨
    (e.put t T j r = some (.ok r, e.write t T j r) ∧ e.Admits t T j r) := by
  cases hp : e.put t T j r with
  | none =>
    have hfree : (e.rivals j).any (e.contested t T r) = false := by
      simp [Engine.contested, h.unowned]
    simp only [Engine.put, hfree] at hp
    split at hp <;> cases hp
  | some p =>
    obtain ⟨x, e'⟩ := p
    rcases Engine.put_cases hp with ⟨rfl, rfl, hR⟩ | ⟨rfl, rfl, hA⟩
    · exact .inl ⟨rfl, hR⟩
    · exact .inr ⟨rfl, hA⟩

theorem committed_write (h : e.Unheld) : ((e.write t T j r).commit t).committed = e.committed.set T j r := by
  funext T' k
  by_cases hk : T' = T ∧ k = j
  · obtain ⟨rfl, rfl⟩ := hk
    rw [Rows.set_same]
    exact Rows.over_some (by simp [Engine.write])
  · rw [Rows.set_other hk, ← congrFun (congrFun (h.view (t := t)) T') k]
    exact Engine.write_view_row hk

theorem consistent_set (h : e.Unheld) (hA : e.Admits t T j r) (hid : S.id T r = j) :
    Consistent (e.committed.set T j r) := by
  have hapart : ∀ k r', k ≠ j → e.committed T k = some r' → S.clash T r r' = false := by
    intro k r' hk hr'
    have hsettled := hA.settled k (h.lt T k r' hr') hk
    simpa [Engine.settled, h.unowned, h.view, hr'] using hsettled
  refine ⟨fun T' k r' hr => ?_, fun T' k r' hr => ?_, fun T' k k' r1 r2 h1 h2 hne => ?_⟩
  · by_cases hk : T' = T ∧ k = j
    · obtain ⟨rfl, rfl⟩ := hk
      rw [Rows.set_same] at hr
      cases hr
      exact hid
    · rw [Rows.set_other hk] at hr
      exact h.consistent.id T' k r' hr
  · by_cases hk : T' = T ∧ k = j
    · obtain ⟨rfl, rfl⟩ := hk
      rw [Rows.set_same] at hr
      cases hr
      exact hA.check
    · rw [Rows.set_other hk] at hr
      exact h.consistent.check T' k r' hr
  · by_cases hT : T' = T
    · subst hT
      by_cases hk : k = j
      · subst hk
        rw [Rows.set_same] at h1
        rw [Rows.set_row (Ne.symm hne)] at h2
        cases h1
        exact hapart k' r2 (Ne.symm hne) h2
      · rw [Rows.set_row hk] at h1
        by_cases hk' : k' = j
        · subst hk'
          rw [Rows.set_same] at h2
          cases h2
          rw [S.clash_symm]
          exact hapart k r1 hk h1
        · rw [Rows.set_row hk'] at h2
          exact h.consistent.apart T' k k' r1 r2 h1 h2 hne
    · rw [Rows.set_table hT] at h1 h2
      exact h.consistent.apart T' k k' r1 r2 h1 h2 hne

theorem write_commit (h : e.Unheld) (hA : e.Admits t T j r) (hid : S.id T r = j) (hj : j < e.next) :
    ((e.write t T j r).commit t).Unheld := by
  refine ⟨fun T' k => ?_, fun u T' k => ?_, ?_, ?_⟩
  · show (if (e.write t T j r).owner T' k = some t then none else (e.write t T j r).owner T' k) = none
    by_cases hk : T' = T ∧ k = j
    · obtain ⟨rfl, rfl⟩ := hk
      simp [Engine.write]
    · rw [Engine.write_owner_row hk, h.unowned]
      simp
  · by_cases hu : u = t
    · subst hu
      exact congrFun (congrFun Engine.commit_pending_self T') k
    · rw [Engine.commit_pending_tid hu, Engine.write_pending_tid hu]
      exact h.unwritten u T' k
  all_goals rw [h.committed_write]
  · exact h.consistent_set hA hid
  · intro T' k r' hr
    by_cases hk : T' = T ∧ k = j
    · obtain ⟨rfl, rfl⟩ := hk
      exact hj
    · rw [Rows.set_other hk] at hr
      exact h.lt T' k r' hr

end Engine.Unheld

/-- **The UPDATE rule of a thread alone**: it is refused, matches nothing, or writes the row it computed. -/
theorem alone_update {e : ε} (hw : w.db.Unheld)
    (hnone : (w.db.committed T j).bind (S.apply T g) = none → Alone t i (k none) Q w)
    (hrefused : ∀ v r, w.db.committed T j = some v → S.apply T g v = some r → w.db.Refuses t T j r → Q (.error e) w)
    (hsome : ∀ v r, w.db.committed T j = some v → S.apply T g v = some r → w.db.Admits t T j r →
      Alone t i (k (some r)) Q ⟨w.db.write t T j r, w.out⟩) : Alone t i (update e T j g >>= k) Q w := by
  have hview : w.db.view t = w.db.committed := hw.view
  cases hr : (w.db.committed T j).bind (S.apply T g) with
  | none =>
    have he : w.exec t (.sql (.update T j g)) i = some (.ok none, w) := by
      simp [World.exec, Engine.exec, Engine.update, hview, hr]
    exact alone_call he (hnone hr)
  | some r =>
    obtain ⟨v, hv, hg⟩ := Option.bind_eq_some_iff.1 hr
    rcases hw.put (t := t) (T := T) (j := j) (r := r) with ⟨hp, hR⟩ | ⟨hp, hA⟩
    · have he : w.exec t (.sql (.update T j g)) i = some (.error .integrity, w) := by
        simp [World.exec, Engine.exec, Engine.update, hview, hr, hw.unowned, hp, Except.map]
      exact alone_call he (alone_raise (hrefused v r hv hg hR))
    · have he : w.exec t (.sql (.update T j g)) i = some (.ok (some r), ⟨w.db.write t T j r, w.out⟩) := by
        simp [World.exec, Engine.exec, Engine.update, hview, hr, hw.unowned, hp, Except.map]
      exact alone_call he (hsome v r hv hg hA)

theorem alone_updateRow {e : ε} {v : S.Row T} (hw : w.db.Unheld) (hv : w.db.committed T j = some v)
    (hr : S.apply T g v = some r) (hfree : ¬w.db.Refuses t T j r)
    (hsome : w.db.Admits t T j r → Alone t i (k (some r)) Q ⟨w.db.write t T j r, w.out⟩) :
    Alone t i (update e T j g >>= k) Q w := by
  have hone : (w.db.committed T j).bind (S.apply T g) = some r := by rw [hv, Option.bind_some, hr]
  refine alone_update hw (fun hn => ?_) (fun v' r' hv' hr' hR => ?_) fun v' r' hv' hr' hA => ?_
  · rw [hone] at hn
    cases hn
  all_goals
    rw [hv] at hv'
    cases hv'
    rw [hr] at hr'
    cases hr'
  · exact absurd hR hfree
  · exact hsome hA

structure Engine.Left (e e' : Engine S) (rows : Rows S) : Prop where
  unheld : e'.Unheld
  committed : e'.committed = rows
  next : e'.next = e.next
  clock : e'.clock = e.clock

inductive Changed (T : S.Table) (j : Nat) (g : S.Change T) (w w' : World S V) : Except ε (Option (S.Row T)) → Prop
  | missed (unmatched : (w.db.committed T j).bind (S.apply T g) = none) (left : w.db.Left w'.db w.db.committed) :
    Changed T j g w w' (.ok none)
  | refused {e : ε} (left : w.db.Left w'.db w.db.committed) : Changed T j g w w' (.error e)
  | wrote {v r : S.Row T} (found : w.db.committed T j = some v) (applied : S.apply T g v = some r)
      (left : w.db.Left w'.db (w.db.committed.set T j r)) : Changed T j g w w' (.ok (some r))

theorem Changed.row (h : Changed T j g w w' (.ok (some r) : Except ε (Option (S.Row T)))) :
    ∃ v, w.db.committed T j = some v ∧
      S.apply T g v = some r ∧ w.db.Left w'.db (w.db.committed.set T j r) := by
  cases h with
  | wrote found applied left => exact ⟨_, found, applied, left⟩

theorem Engine.Unheld.begun {e : Engine S} (h : e.Unheld) :
    ({ e with started := Function.update e.started t e.clock } : Engine S).Unheld := h.congr rfl rfl rfl rfl

theorem Engine.Unheld.closed {e : Engine S} (h : e.Unheld) (x : Except ε β) : e.Left (e.close t x) e.committed := by
  have hrelease : (e.release t).Unheld := by
    refine ⟨fun T i => ?_, fun u T i => ?_, h.consistent, h.lt⟩
    · simp [Engine.release, h.unowned]
    · by_cases hu : u = t
      · subst hu
        exact congrFun (congrFun Engine.release_pending_self T) i
      · rw [Engine.release_pending_tid hu]
        exact h.unwritten u T i
  cases x with
  | ok a =>
    have hcommitted : (e.commit t).committed = e.committed := h.view
    exact ⟨hrelease.congr rfl rfl hcommitted rfl, hcommitted, rfl, rfl⟩
  | error e => exact ⟨hrelease, rfl, rfl, rfl⟩

theorem alone_changeMap {e : ε} {f : Option (S.Row T) → β} (hw : w.db.Unheld) :
    Alone t i (tenantSession fun _ => update e T j g >>= fun x => pure (f x)) (fun y w' =>
      ∃ x, y = x.map f ∧ Changed T j g w w' x) w := by
  refine alone_tenantSession (alone_update hw.begun (fun hn => alone_ret ⟨.ok none, rfl, ?_⟩)
    (fun v r _ _ _ => ⟨.error e, rfl, ?_⟩) fun v r hv hr hA => alone_ret ⟨.ok (some r), rfl, ?_⟩)
  · have hl := (hw.begun (t := t)).closed (t := t) (.ok (f none) : Except ε β)
    exact .missed hn ⟨hl.unheld, hl.committed, hl.next, hl.clock⟩
  · have hl := (hw.begun (t := t)).closed (t := t) (.error e : Except ε β)
    exact .refused ⟨hl.unheld, hl.committed, hl.next, hl.clock⟩
  · have hid : S.id T r = j := (S.id_apply T g v r hr).trans (hw.consistent.id T j v hv)
    exact .wrote hv hr ⟨hw.begun.write_commit hA hid (hw.lt T j v hv), hw.begun.committed_write, rfl, rfl⟩

theorem alone_change {e : ε} (hw : w.db.Unheld) :
    Alone t i (tenantSession fun _ => update e T j g) (fun x w' => Changed T j g w w' x) w := by
  have h := alone_changeMap (t := t) (i := i) (e := e) (T := T) (j := j) (g := g) (f := id) hw
  simp only [id_eq, Prog.bind_return] at h
  refine h.mono fun x w' hx => ?_
  obtain ⟨y, rfl, hy⟩ := hx
  cases y <;> exact hy

/-! ## Counting rows -/

theorem countP_filterMap_range {α : Type} (f : Nat → Option α) (p : α → Bool) (n : Nat) :
    ((List.range n).filterMap f).countP p = ((Finset.range n).filter fun i => (f i).any p).card := by
  induction n with
  | zero => rfl
  | succ n ih =>
    rw [List.range_succ, List.filterMap_append, List.countP_append, ih, Finset.range_add_one, Finset.filter_insert]
    cases hr : f n with
    | none => simp [hr]
    | some r =>
      by_cases hp : p r = true
      · simp [hr, hp]
      · simp [hr, hp]

theorem countP_range_update {α : Type} {f : Nat → Option α} {p : α → Bool} {n : Nat} {a b : α} (hf : f j = some a)
    (hj : j < n) : ((List.range n).filterMap (Function.update f j (some b))).countP p + (if p a then 1 else 0) =
      ((List.range n).filterMap f).countP p + if p b then 1 else 0 := by
  induction n with
  | zero => cases hj
  | succ n ih =>
    rw [List.range_succ, List.filterMap_append, List.filterMap_append, List.countP_append, List.countP_append]
    by_cases hjn : j = n
    · subst hjn
      have hbelow : (List.range j).filterMap (Function.update f j (some b)) = (List.range j).filterMap f := by
        refine List.filterMap_congr fun i hi => ?_
        have hne : i ≠ j := Nat.ne_of_lt (List.mem_range.1 hi)
        rw [Function.update_of_ne hne]
      rw [hbelow]
      simp only [List.filterMap_cons, Function.update_self, hf, List.filterMap_nil, List.countP_singleton]
      omega
    · have hlast : [n].filterMap (Function.update f j (some b)) = [n].filterMap f := by
        rw [List.filterMap_cons, List.filterMap_cons, Function.update_of_ne (Ne.symm hjn), List.filterMap_nil,
          List.filterMap_nil]
      rw [hlast]
      have := ih (by omega)
      omega

theorem Snapshot.countP_set {rows : Rows S} {n : Nat} (r' : S.Row T) (p : S.Row T → Bool) (hr : rows T j = some r)
    (hj : j < n) : ((⟨rows.set T j r', n⟩ : Snapshot S).all T).countP p + (if p r then 1 else 0) =
      ((⟨rows, n⟩ : Snapshot S).all T).countP p + if p r' then 1 else 0 := by
  have hset : rows.set T j r' T = Function.update (rows T) j (some r') := by simp [Rows.set]
  simp only [Snapshot.all, hset]
  exact countP_range_update hr hj

end Txn
