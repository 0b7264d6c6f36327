import Boutique.TxnQuiet
import Boutique.Upkeep
/-!
# Tended — a request at work under the lock of a dress

The rows that a lock is about are the request's own from the lock to the commit: what it finds of them is what the commit
replaces.  Around its transactions it leaves them, and so it adds to its commits only.
-/
namespace Catalog

open Txn Session Contract

variable {cfg : Config} {reqs : Tid → Request} {P : Ledger schema} {key : LockKey} {T : Table} {t : Tid} {k : Nat}
  {hE : ∀ t l (o : Op schema outside), Writes cfg (reqs t) l o → (guarding cfg.watched).Legal l o}

abbrev tending (cfg : Config) (reqs : Tid → Request)
    (hE : ∀ t l (o : Op schema outside), Writes cfg (reqs t) l o → (guarding cfg.watched).Legal l o) (P : Ledger schema) :
    Contract (staff cfg reqs (guarding cfg.watched) hE) outside Err :=
  P.contract _ fun _ _ _ _ _ => True

theorem tending_historic : (tending cfg reqs hE P).Historic fun _ => true := Ledger.historic _

theorem covers_guards (hcfg : cfg.watched = key) :
    (staff cfg reqs (guarding cfg.watched) hE).common.Guards T (key.covers T) := by
  have h := guarding_guards cfg.watched T
  rw [show cfg.watched.covers T = key.covers T by rw [hcfg]] at h
  exact h

def Stills (P : Ledger schema) (key : LockKey) (T : Table) (t : Tid) : Prop :=
  ∀ e : Engine schema, part (key.covers T) (e.view t T) = part (key.covers T) (e.committed T) →
    P.Holds (e.commit t) e.log.length (e.entry t)

section Threads

variable {α β : Type} {Q : Except Err β → World schema outside → Prop} {w : World schema outside} {n : Int}
  {c v : Nat → Option (Row T)}

def Bare (T : Table) (t : Tid) (w : World schema outside) : Prop := ∀ i, w.db.pending t T i = none

theorem bare_release : Bare T t ⟨w.db.release t, w.out⟩ := fun i => by
  rw [Engine.release_pending_self]

theorem bare_commit : Bare T t ⟨w.db.commit t, w.out⟩ := fun i => by
  rw [Engine.commit_pending_self]

theorem quiet_ensures {p : Prg α} {own : List (Commit schema)} (hP : Stills P key T t) (hT : T ≠ .auditLog)
    (hp : Within (Acts cfg (.getDress k)) false p) (h : Bare T t w) (hown : own <+: w.db.own t) :
    (tending cfg reqs hE P).Ensures t p (fun _ w' => Bare T t w' ∧ own <+: w'.db.own t) w := by
  refine ensures_mono (fun x w' hx => hx.choose_spec.2) (ensures_of_uses (fun _ w => Bare T t w ∧ own <+: w.db.own t)
    (fun _ w w' hev h => ⟨fun i => by rw [hev.db.pending]; exact h.1 i, by rw [hev.db.since.own]; exact h.2⟩)
    (fun l o w x y w' ho hL hI h he hL' hA => ?_) hp ⟨h, hown⟩)
  by_cases hcommit : o = .sql .commit
  · subst hcommit
    cases he
    refine ⟨Ledger.inv_commit hI (hP w.db (by rw [Engine.view_table h.1])), bare_commit, ?_⟩
    rw [Engine.commit_own]
    exact h.2.trans (List.prefix_append _ _)
  refine ⟨tending_historic.exec hcommit (fun _ _ => rfl) he hI, fun i => ?_, ?_⟩
  · cases hnew : w'.db.pending t T i with
    | none => rfl
    | some r =>
      rcases World.exec_wrote he hnew with hold | ⟨g, v, rfl, -⟩ | ⟨r0, rfl, -⟩
      · rw [h.1 i] at hold
        cases hold
      · rcases ho with ho | ho <;> cases ho
      · rcases ho with ho | ho <;> cases ho
        exact absurd rfl hT
  · show own <+: w'.db.log.filter _
    rw [(World.exec_log hcommit he).1]
    exact h.2

variable {f : α → Prg β}

theorem quiet_bind {p : Prg α} (hP : Stills P key T t) (hT : T ≠ .auditLog)
    (hp : Within (Acts cfg (.getDress k)) false p) (h : Bare T t w)
    (herr : ∀ e w', Bare T t w' → w.db.own t <+: w'.db.own t → Q (.error e) w')
    (hk : ∀ a w', Bare T t w' → w.db.own t <+: w'.db.own t → (tending cfg reqs hE P).Ensures t (f a) Q w') :
    (tending cfg reqs hE P).Ensures t (p >>= f) Q w := by
  refine ensures_bind (ensures_mono (fun x w' hx => ?_) (quiet_ensures hP hT hp h List.prefix_rfl))
  cases x with
  | ok a => exact hk a w' hx.1 hx.2
  | error e => exact herr e w' hx.1 hx.2

theorem ensures_liftExcept {x : Except Err α} (herr : ∀ e, x = .error e → Q (.error e) w)
    (hok : ∀ a, x = .ok a → (tending cfg reqs hE P).Ensures t (f a) Q w) :
    (tending cfg reqs hE P).Ensures t (liftExcept x >>= f) Q w := by
  cases x with
  | error e => exact herr e rfl
  | ok a => exact hok a rfl

/-! ## The transactions -/

/-- **With the lock**, in a transaction that began at `n`, `t` has found `c` of the rows that it is about and made them `v`. -/
abbrev Held (key : LockKey) (T : Table) (t : Tid) (n : Int) (c v : Nat → Option (Row T)) (w : World schema outside) : Prop :=
  w.db.Under (T := T) t (key.covers T) n c v

theorem Held.keyed (h : Held key T t n c v w) (hL : w.db.Lawful (staff cfg reqs (guarding cfg.watched) hE)) {i : Nat} {u : Row T}
    (hu : v i = some u) : rowId T u = i :=
  (hL.view_consistent t).id T i u ((h.row (S := schema) (T := T)).1 hu).1

theorem held_lock {f : Unit → Prg β} (hcfg : cfg.watched = key) (h : Bare T t w)
    (hk : ∀ c w1, Held key T t (w.db.started t) c c w1 → w1.db.own t = w.db.own t → (tending cfg reqs hE P).Ensures t (f ()) Q w1) :
    (tending cfg reqs hE P).Ensures t (advisoryLock cfg key >>= f) Q w := by
  unfold advisoryLock
  rw [if_pos hcfg]
  exact under_lock (S := schema) (T := T) (p := key.covers T) tending_historic h fun c w1 h1 _ _ => hk c w1 h1

/-- **A transaction with the lock**, from where it holds it. -/
theorem held_session {code : Int → Prg α} (hcfg : cfg.watched = key) (h : Bare T t w)
    (hk : ∀ txNow c w1, Held key T t txNow c c w1 → w1.db.own t = w.db.own t →
      (tending cfg reqs hE P).Ensures t (code txNow) (Closes (tending cfg reqs hE P) t f Q) w1) :
    (tending cfg reqs hE P).Ensures t (tenantSession (fun txNow => advisoryLock cfg key >>= fun _ => code txNow) >>= f) Q w := by
  refine ensures_tenantSession tending_historic fun w1 txNow hev _ _ => held_lock hcfg (fun i => ?_) fun c w2 h2 hown2 =>
    hk txNow c w2 (Function.update_self (f := w1.db.started) t txNow ▸ h2) (hown2.trans hev.db.since.own)
  rw [hev.db.pending]
  exact h i

theorem held_record {f : Unit → Prg β} {actorId entity : Nat} {action : AuditAction} (hcfg : cfg.watched = key) (hT : T ≠ .auditLog)
    (h : Held key T t n c v w)
    (hk : ∀ w1, Held key T t n c v w1 → w1.db.own t = w.db.own t → (tending cfg reqs hE P).Ensures t (f ()) Q w1) :
    (tending cfg reqs hE P).Ensures t (record actorId entity action >>= f) Q w := by
  unfold record
  exact ensures_first (under_note tending_historic (covers_guards hcfg) hT (fun _ _ => ⟨rfl, fun _ => rfl⟩) h
    fun w1 _ h1 hown => hk w1 h1 hown)

theorem held_close {x : α} (hcfg : cfg.watched = key) (h : Held key T t n c v w)
    (hP : ∀ e : Engine schema, e.Lawful (staff cfg reqs (guarding cfg.watched) hE) → part (key.covers T) (e.committed T) = c →
      part (key.covers T) (e.view t T) = v → e.own t = w.db.own t → P.Holds (e.commit t) e.log.length (e.entry t))
    (hk : ∀ w1 d, Bare T t w1 → w1.db.own t = w.db.own t ++ [d] → part (key.covers T) (d.before T) = c →
      part (key.covers T) (d.after T) = v → (tending cfg reqs hE P).Ensures t (f x) Q w1) :
    Closes (tending cfg reqs hE P) t f Q (.ok x) w := by
  intro w1 hev hL hI _ _
  have h1 : Held key T t n c v w1 := h.evolves (covers_guards hcfg) hev.db
  have hown : w1.db.own t = w.db.own t := hev.db.since.own
  refine ⟨Ledger.inv_commit hI (hP w1.db hL h1.found h1.sight hown), hk _ (w1.db.entry t) bare_commit ?_ h1.found ?_⟩
  · show (w1.db.commit t).own t = _
    rw [Engine.commit_own, hown]
  · rw [Engine.entry_after]
    exact h1.sight

theorem session_error (herr : ∀ e w', Bare T t w' → Q (.error e) w') (x : Err) (w : World schema outside) :
    Closes (tending cfg reqs hE P) t f Q (.error x) w := fun _ _ _ => herr x _ bare_release

theorem detailView_raises (dressId : Nat) (includeArchived : Bool) :
    Raising (fun e => e = .catalogNotFound) (detailView cfg dressId includeArchived) := by
  have hsign : ∀ rows : List DressMedia, Raising (fun e => e = .catalogNotFound) (signEach rows) := by
    intro rows
    induction rows with
    | nil => exact raising_ret _
    | cons row rows ih =>
      refine raising_bind ?_ fun view => raising_bind ih fun views => raising_ret _
      refine raising_bind (raising_ask _) fun configured => ?_
      split
      · exact raising_bind (raising_ask _) fun _ => raising_ret _
      · exact raising_ret _
  have hrest (found : Option Dress) (txNow : Int) : Raising (fun e => e = .catalogNotFound) (do
      let dress ← orRaise found .catalogNotFound
      let aggregates ← Variants.aggregateByDress [dressId]
      let variants ← Variants.listActive dressId
      let media ← Media.listReady dressId
      let activeMedia ← Media.countActive dressId (txNow - cfg.pendingTtl)
      return (⟨dress, variants, media, (aggregates dressId).getD emptyAggregate, activeMedia⟩ : DetailRows) : Prg DetailRows) :=
    raising_bind (raising_orRaise _ rfl) fun _ => raising_bind (raising_select _ _) fun _ => raising_bind (raising_select _ _)
      fun _ => raising_bind (raising_select _ _) fun _ => raising_bind (raising_select _ _) fun _ => raising_ret _
  refine raising_bind (ends_tenantSession fun n => ?_) fun rows => raising_bind (hsign _) fun media =>
    raising_bind (raising_ask _) fun _ => raising_ret _
  unfold loadDetail
  cases includeArchived with
  | true => exact raising_bind (raising_select _ _) fun found => hrest found n
  | false => exact raising_bind (raising_select _ _) fun found => hrest found n

end Threads
/-! ## The run -/

variable {store : Store} {rows : Rows schema} {next : Nat} {clock : Int} {c : Conf (machine schema outside Err) Response}
  {Q : Tid → Except Err Response → World schema outside → Prop}

theorem untended_safe {w : World schema outside} (hcfg : cfg.watched = key) (hP : Stills P key T t)
    (ht : (reqs t).tends key = false) (hQ : ∀ x w', Q t x w') :
    (tending cfg reqs hE P).logic.Safe t ((reqs t).code cfg) (Q t) w := by
  subst hcfg
  exact Ledger.safe_of_lawful (fun e he _ => hP e (part_still he ht T)) hQ

theorem tending_runs (h : Shelved rows next) (hcfg : cfg.watched = key)
    (hreqs : ∀ t, ∀ d ∈ key.dress, (reqs t).cascades d = false)
    (hsafe : ∀ hE t w, Bare T t w → w.db.own t = [] → (tending cfg reqs hE P).logic.Safe t ((reqs t).code cfg) (Q t) w)
    (hr : (serving cfg reqs store rows next clock).Reaches c) :
    ∃ D : Cast schema, c.state.db.Lawful D ∧ c.state.db.version 0 = rows ∧
      (∀ m d, c.state.db.log[m]? = some d → P.Holds c.state.db m d) ∧
      ∀ t, (∀ response, c.threads t = some (.ret response) → Q t (.ok response) c.state) ∧
        ∀ x, c.threads t = some (.raise x) → Q t (.error x) c.state := by
  have hE : ∀ t l (o : Op schema outside), Writes cfg (reqs t) l o → (guarding cfg.watched).Legal l o :=
    fun t l o ho => writes_guarding ho (by rw [hcfg]; exact hreqs t)
  have hI : (tending cfg reqs hE P).Inv (serving cfg reqs store rows next clock).state := fun m d hm => by cases hm
  have hobeyed : Cast.Obeyed (staff cfg reqs (guarding cfg.watched) hE) (serving cfg reqs store rows next clock) :=
    serving_obeyed h
  obtain ⟨hsound, hL⟩ := (tending cfg reqs hE P).runs hobeyed hI (fun t p hp => by
    cases hp
    exact hsafe hE t _ (fun i => rfl) rfl) hr
  refine ⟨_, hL, (hobeyed.history hr).2 0 (Nat.le_refl 0), fun m d hm => hsound.inv.2 m d hm, fun t => ?_⟩
  exact ⟨fun response ht => hsound.finished ht, fun x ht => hsound.raised ht⟩

end Catalog
