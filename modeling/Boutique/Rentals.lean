import Boutique.Between
/-!
# Rentals — a dress is away for one reservation at a time

No index keeps two reservations apart: the check is a read, and it stands because reservations are added under one lock only and
do not come back.
-/
namespace Catalog

open Txn Session Contract

variable {cfg : Config} {reqs : Tid → Request} {t : Tid} {dressId i j : Nat} {startsOn endsOn : Int} {rows rows' : Rows schema}
  {r : Request} {e e' : Engine schema}

/-! ## Days -/

def DressReservation.Meets (r : DressReservation) (startsOn endsOn : Int) : Prop := r.startsOn ≤ endsOn ∧ startsOn ≤ r.endsOn

def Spaced (rows : Rows schema) : Prop :=
  ∀ i j, ∀ r r' : DressReservation, i ≠ j → rows .dressReservations i = some r → rows .dressReservations j = some r' →
    r.of r'.dressId = true → r'.deletedAt = none → ¬r.Meets r'.startsOn r'.endsOn

variable {v v' : DressReservation}

theorem DressReservation.of_iff : v.of dressId = true ↔ v.dressId = dressId ∧ v.deletedAt = none :=
  decide_eq_true_iff

theorem Window.meets (h : Window v v') : v'.Meets startsOn endsOn ↔ v.Meets startsOn endsOn := by
  unfold DressReservation.Meets
  rw [h.startsOn, h.endsOn]

theorem Window.of (h : Window v v') (hof : v'.of dressId = true) : v.of dressId = true := by
  rw [DressReservation.of_iff] at hof ⊢
  exact ⟨h.dressId.symm.trans hof.1, h.live hof.2⟩

theorem DressReservation.Meets.symm (h : v.Meets v'.startsOn v'.endsOn) : v'.Meets v.startsOn v.endsOn :=
  ⟨h.2, h.1⟩

def Fewer (f f' : Nat → Option DressReservation) : Prop := ∀ i r', f' i = some r' → ∃ r, f i = some r ∧ Window r r'

theorem Spaced.fewer (h : Spaced rows) (hf : Fewer (rows .dressReservations) (rows' .dressReservations)) : Spaced rows' := by
  intro i j r r' hij hr hr' hof hlive hmeets
  obtain ⟨u, hu, hw⟩ := hf i r hr
  obtain ⟨u', hu', hw'⟩ := hf j r' hr'
  rw [hw'.dressId] at hof
  rw [hw'.startsOn, hw'.endsOn] at hmeets
  exact h i j u u' hij hu hu' (hw.of hof) (hw'.live hlive) (hw.meets.1 hmeets)

/-! ## Who adds a reservation -/

def Request.reserves : Request → Bool
  | .createReservation .. => true
  | _ => false

def lending (P : Bool → Prop) (hP : P false → P true) : Discipline schema where
  Trans _ := RowKept
  New l T _ := T = .dressReservations → P l
  refl _ := RowKept.refl
  trans _ _ _ _ _ h h' := h.trans h'
  weaken _ _ _ h := h
  new_trans _ _ _ _ h _ := h
  new_weaken _ _ h hT := hP (h hT)

theorem writes_lending {P : Bool → Prop} {hP : P false → P true} {l : Bool} {o : Op schema outside} (h : Writes cfg r l o)
    (hnew : r.reserves = true → (cfg.watched = .tenant → l = true) → P l) : (lending P hP).Legal l o := by
  cases o with
  | sql o =>
    cases o with
    | update T i g => exact fun v v' _ hv => rowKept_apply hv
    | insert T row =>
      intro i n hT
      cases h with
      | reserve _ _ _ _ _ _ _ _ hl => exact hnew rfl hl
      | _ => cases hT
    | _ => trivial
  | now | ask => trivial

abbrev renting (cfg : Config) (reqs : Tid → Request) : Cast schema :=
  staff cfg reqs (lending (fun l => cfg.watched = .tenant → l = true) fun _ _ => rfl) fun _ _ _ h =>
    writes_lending h fun _ hl => hl

theorem Fewer.of_becomes (P : Bool → Prop) (hP : P false → P true) {l : Bool} {f f' : Nat → Option DressReservation} (hno : ¬P l)
    (h : ∀ i, (lending P hP).Becomes l .dressReservations (f i) (f' i)) : Fewer f f' := by
  intro i r' hr'
  have hrow := h i
  rw [hr'] at hrow
  cases hf : f i with
  | none =>
    rw [hf] at hrow
    exact absurd (hrow rfl) hno
  | some v =>
    rw [hf] at hrow
    exact ⟨v, rfl, hrow⟩

theorem view_fewer (h : e.Lawful (renting cfg reqs)) (ht : (reqs t).reserves = false) :
    Fewer (e.committed .dressReservations) (e.view t .dressReservations) := by
  have hlegal : ∀ l (o : Op schema outside), Writes cfg (reqs t) l o → (lending (fun _ => False) id).Legal l o :=
    fun l o ho => writes_lending ho fun hr => by rw [ht] at hr; cases hr
  exact Fewer.of_becomes (fun _ => False) id id fun i => staff_becomes (hlegal _) (h.inflight t .dressReservations i)

/-! ## The contract -/

def rentalLedger : Ledger schema where
  Holds _ _ d := Spaced d.before → Spaced d.after
  stable _ _ _ _ _ _ _ h := h

abbrev spacing (cfg : Config) (reqs : Tid → Request) : Contract (renting cfg reqs) outside Err :=
  rentalLedger.contract _ fun _ _ _ _ _ => True

theorem spacing_historic : (spacing cfg reqs).Historic fun _ => true := Ledger.historic _

theorem evolves_fewer (hcfg : cfg.watched = .tenant) (h : e.Evolves (renting cfg reqs) t e') (hlock : e.advisory = some t) :
    Fewer (e.committed .dressReservations) (e'.committed .dressReservations) := by
  have hholds : (!e.holds t) = false := by simp [Engine.holds, hlock]
  refine Fewer.of_becomes (fun l => cfg.watched = .tenant → l = true) (fun _ _ => rfl) (l := false)
    (fun hfree => by cases hfree hcfg) fun i => ?_
  have hrow := h.rows .dressReservations i
  rwa [hholds] at hrow

/-- **With the lock**, and once it has looked, no reservation of the dress is in the way; `added` is what the thread has added. -/
structure Clear (t : Tid) (dressId : Nat) (startsOn endsOn : Int) (looked : Prop) (added : Nat → Option DressReservation)
    (w : World schema outside) : Prop where
  lock : w.db.advisory = some t
  own : w.db.own t = []
  mine : ∀ k, w.db.pending t .dressReservations k = added k
  fresh : ∀ k v, added k = some v → w.db.committed .dressReservations k = none
  clear : looked → ∀ k v, w.db.committed .dressReservations k = some v → v.of dressId = true → ¬v.Meets startsOn endsOn

section Threads

variable {α β : Type} {Q : Except Err β → World schema outside → Prop} {w w' : World schema outside} {looked : Prop}
  {added : Nat → Option DressReservation} {new : DressReservation}

theorem Clear.evolves (h : Clear t dressId startsOn endsOn looked added w) (hcfg : cfg.watched = .tenant)
    (hev : w.Evolves (renting cfg reqs) t w') : Clear t dressId startsOn endsOn looked added w' where
  lock := hev.db.advisory.2 h.lock
  own := hev.db.since.own.trans h.own
  mine k := by
    rw [hev.db.pending]
    exact h.mine k
  fresh k v hv := (hev.db.owned .dressReservations k v (by rw [h.mine, hv])).trans (h.fresh k v hv)
  clear hlooked k v hv hof hmeets := by
    obtain ⟨u, hu, hw⟩ := evolves_fewer hcfg hev.db h.lock k v hv
    exact h.clear hlooked k u hu (hw.of hof) (hw.meets.1 hmeets)

theorem Clear.congr (h : Clear t dressId startsOn endsOn looked added w) (hlock : w'.db.advisory = w.db.advisory)
    (hlog : w'.db.log = w.db.log) (hc : w'.db.committed = w.db.committed)
    (hp : w'.db.pending t .dressReservations = w.db.pending t .dressReservations) :
    Clear t dressId startsOn endsOn looked added w' := by
  refine ⟨hlock.trans h.lock, ?_, fun k => by rw [hp]; exact h.mine k, by rw [hc]; exact h.fresh, by rw [hc]; exact h.clear⟩
  rw [← h.own]
  show w'.db.log.filter _ = _
  rw [hlog]
  rfl

/-- **The view at the commit**: what is committed, and what was added. -/
theorem Clear.view (h : Clear t dressId startsOn endsOn looked (Function.update (fun _ => none) i (some new)) w) (k : Nat) :
    w.db.view t .dressReservations k = if k = i then some new else w.db.committed .dressReservations k := by
  have hk := h.mine k
  by_cases hki : k = i
  · subst hki
    rw [Function.update_self] at hk
    rw [if_pos rfl, Engine.view_pending hk]
  · rw [Function.update_of_ne hki] at hk
    rw [if_neg hki]
    exact Rows.over_none hk

theorem Clear.spaced (h : Clear t dressId startsOn endsOn True (Function.update (fun _ => none) i (some new)) w)
    (hdress : new.dressId = dressId) (hstarts : new.startsOn = startsOn) (hends : new.endsOn = endsOn)
    (hs : Spaced w.db.committed) : Spaced (w.db.view t) := by
  subst hdress hstarts hends
  intro k k' v v' hne hv hv' hof hlive' hmeets
  rw [h.view] at hv hv'
  split at hv
  · rename_i hk
    rw [if_neg fun hk' => hne (hk.trans hk'.symm)] at hv'
    cases hv
    refine h.clear trivial k' v' hv' ?_ hmeets.symm
    exact DressReservation.of_iff.2 ⟨(DressReservation.of_iff.1 hof).1.symm, hlive'⟩
  · split at hv'
    · cases hv'
      exact h.clear trivial k v hv hof hmeets
    · exact hs k k' v v' hne hv hv' hof hlive' hmeets

/-! ## The requests -/

theorem Clear.look (h : Clear t dressId startsOn endsOn looked added w) :
    Clear t dressId startsOn endsOn looked added ⟨w.db.look t, w.out⟩ := h.congr rfl rfl rfl rfl

theorem clear_select {q : Query} {f : Snapshot schema → α} {k : α → Prg β} (hcfg : cfg.watched = .tenant)
    (h : Clear t dressId startsOn endsOn looked added w)
    (hk : ∀ w1, Clear t dressId startsOn endsOn looked added w1 → w1.db.Lawful (renting cfg reqs) →
      (spacing cfg reqs).Ensures t (k (f ⟨w1.db.view t, w1.db.next⟩)) Q ⟨w1.db.look t, w1.out⟩) :
    (spacing cfg reqs).Ensures t (select q f >>= k) Q w :=
  ensures_select spacing_historic fun w1 hev hL _ _ _ => hk w1 (h.evolves hcfg hev) hL

theorem checkCustomer_ensures {customerId : Option Nat} {k : Unit → Prg β} (hcfg : cfg.watched = .tenant)
    (h : Clear t dressId startsOn endsOn looked added w) (herr : ∀ w', w'.db.own t = [] → Q (.error .catalogNotFound) w')
    (hk : ∀ w', Clear t dressId startsOn endsOn looked added w' → (spacing cfg reqs).Ensures t (k ()) Q w') :
    (spacing cfg reqs).Ensures t (checkCustomer customerId >>= k) Q w := by
  cases customerId with
  | none => exact hk w h
  | some customerId =>
    refine ensures_first (clear_select hcfg h fun w1 h1 _ => ensures_raiseIf (fun _ => herr _ h1.look.own) fun _ => ?_)
    exact hk _ h1.look

theorem resolve_ensures {reservations : List DressReservation} {k : List ReservationView → Prg β} (hcfg : cfg.watched = .tenant)
    (h : Clear t dressId startsOn endsOn looked added w)
    (hk : ∀ views w', Clear t dressId startsOn endsOn looked added w' → (spacing cfg reqs).Ensures t (k views) Q w') :
    (spacing cfg reqs).Ensures t (resolveCustomerNames reservations >>= k) Q w := by
  unfold resolveCustomerNames Customers.byIds
  split
  · exact hk _ w h
  · exact ensures_first (clear_select hcfg h fun w1 h1 _ => hk _ _ h1.look)

theorem record_clear {actorId entity : Nat} {action : AuditAction} {k : Unit → Prg β} (hcfg : cfg.watched = .tenant)
    (h : Clear t dressId startsOn endsOn looked added w) (herr : ∀ w', w'.db.own t = [] → Q (.error .integrity) w')
    (hk : ∀ w', Clear t dressId startsOn endsOn looked added w' → (spacing cfg reqs).Ensures t (k ()) Q w') :
    (spacing cfg reqs).Ensures t (record actorId entity action >>= k) Q w := by
  unfold record
  refine ensures_first (ensures_insert spacing_historic (fun w1 n hev _ _ => herr _ (h.evolves hcfg hev).own)
    fun w1 hev _ _ _ => hk _ ((h.evolves hcfg hev).congr rfl rfl rfl ?_))
  funext i
  exact Engine.write_pending_row fun hT => by cases hT.1

def Adds (dressId : Nat) (startsOn endsOn : Int) (d : Commit schema) : Prop :=
  ∃ i, ∃ v : DressReservation, d.before .dressReservations i = none ∧ d.after .dressReservations i = some v ∧
    v.of dressId = true ∧ v.startsOn = startsOn ∧ v.endsOn = endsOn

def Away (dressId : Nat) (startsOn endsOn startsOn' endsOn' : Int) (e : Engine schema) : Prop :=
  ∃ m, m ≤ e.log.length ∧ ∃ i, ∃ v : DressReservation, e.version m .dressReservations i = some v ∧ v.of dressId = true ∧
    v.startsOn = startsOn' ∧ v.endsOn = endsOn' ∧ v.Meets startsOn endsOn

theorem mem_overlapping (h : Clear t dressId startsOn endsOn looked (fun _ => none) w)
    (hL : w.db.Lawful (renting cfg reqs)) :
    v ∈ Ranked.ranked DressReservation.startsOn DressReservation.id ((Snapshot.all ⟨w.db.view t, w.db.next⟩ .dressReservations).filter
      fun (r : DressReservation) => r.of dressId ∧ r.startsOn ≤ endsOn ∧ startsOn ≤ r.endsOn) ↔
    ∃ i, w.db.committed .dressReservations i = some v ∧ v.of dressId = true ∧ v.Meets startsOn endsOn := by
  rw [(Ranked.ranked_perm _).mem_iff, List.mem_filter, Snapshot.mem_all]
  have hview : w.db.view t .dressReservations = w.db.committed .dressReservations := Engine.view_table h.mine
  constructor
  · rintro ⟨⟨i, -, hi⟩, hv⟩
    obtain ⟨hof, hmeets⟩ := of_decide_eq_true hv
    exact ⟨i, by rw [← hview]; exact hi, hof, hmeets⟩
  · rintro ⟨i, hi, hof, hmeets⟩
    exact ⟨⟨i, hL.committed_lt .dressReservations i v hi, by rw [← hview] at hi; exact hi⟩, decide_eq_true ⟨hof, hmeets⟩⟩

/-- **A reservation** looks and adds with the lock. -/
theorem reserveIn_ensures {customerId : Option Nat} {notes : Option String} {actorId : Nat} {k : ReservationView → Prg β}
    (hcfg : cfg.watched = .tenant) (hidle : ∀ i, w.db.pending t .dressReservations i = none) (hown : w.db.own t = [])
    (herr : ∀ e w', w'.db.own t = [] → (∀ s s', e = .reservationOverlap s s' → Away dressId startsOn endsOn s s' w'.db) →
      Q (.error e) w')
    (hok : ∀ view d w', w'.db.own t = [d] → Adds dressId startsOn endsOn d → (spacing cfg reqs).Ensures t (k view) Q w') :
    (spacing cfg reqs).Ensures t
      (tenantSession (fun _ => reserveIn cfg dressId startsOn endsOn customerId notes actorId) >>= k) Q w := by
  refine ensures_tenantSession spacing_historic fun w1 n hev1 _ _ => ?_
  have hfail : ∀ e w', (∀ s s', e ≠ .reservationOverlap s s') → w'.db.own t = [] → Closes (spacing cfg reqs) t k Q (.error e) w' :=
    fun e w' hne hw' w'' hev' _ => herr e _ (hev'.db.since.own.trans hw') fun s s' he => absurd he (hne s s')
  unfold reserveIn advisoryLock
  rw [if_pos hcfg]
  refine ensures_call fun w2 hev2 _ hI2 inp x w3 he _ _ => ?_
  have hI3 := spacing_historic.exec (by simp) (by simp) he hI2
  obtain ⟨⟨y, e'⟩, he', hx⟩ := Option.map_eq_some_iff.1 he
  obtain ⟨-, rfl⟩ := Engine.lock_cases he'
  cases hx
  refine ⟨hI3, ?_⟩
  have h3 : Clear t dressId startsOn endsOn False (fun _ => none) ⟨{ w2.db with advisory := some t }, w2.out⟩ := by
    refine ⟨rfl, hev2.db.since.own.trans (hev1.db.since.own.trans hown), fun i => ?_, nofun, nofun⟩
    rw [hev2.db.pending]
    rw [hev1.db.pending]
    exact hidle i
  refine clear_select hcfg h3 fun w4 h4 _ => ensures_raiseIf (fun _ => hfail _ _ nofun h4.look.own) fun _ => ?_
  refine checkCustomer_ensures hcfg h4.look (fun w' hw' => hfail _ _ nofun hw') fun w5 h5 => ?_
  refine clear_select hcfg h5 fun w6 h6 hL6 => ?_
  have hfound : ∀ v, v ∈ _ ↔ _ := fun v => mem_overlapping h6 hL6 (v := v)
  generalize Ranked.ranked DressReservation.startsOn DressReservation.id
    ((Snapshot.all ⟨w6.db.view t, w6.db.next⟩ .dressReservations).filter
      fun (r : DressReservation) => r.of dressId ∧ r.startsOn ≤ endsOn ∧ startsOn ≤ r.endsOn) = conflicts at hfound ⊢
  cases conflicts with
  | cons conflict _ =>
    intro w7 hev7 _
    obtain ⟨i, hi, hof, hmeets⟩ := (hfound conflict).1 List.mem_cons_self
    refine herr _ _ (hev7.db.since.own.trans h6.own) fun s s' he => ?_
    cases he
    refine ⟨w6.db.log.length, hev7.db.log_le, i, conflict, ?_, hof, rfl, rfl, hmeets⟩
    rw [Engine.release_version, hev7.db.version w6.db.log.length (Nat.le_refl _)]
    show (w6.db.version w6.db.log.length) .dressReservations i = some conflict
    rw [Engine.version_length]
    exact hi
  | nil =>
    have h6' : Clear t dressId startsOn endsOn True (fun _ => none) ⟨w6.db.look t, w6.out⟩ :=
      ⟨h6.lock, h6.own, h6.mine, h6.fresh, fun _ i v hi hof hmeets => by cases (hfound v).2 ⟨i, hi, hof, hmeets⟩⟩
    unfold Reservations.insert
    refine ensures_insert spacing_historic (fun w7 n hev7 _ _ => hfail _ _ nofun (h6'.evolves hcfg hev7).own) fun w7 hev7 hL7 _ _ => ?_
    have h7 := h6'.evolves hcfg hev7
    have h8 : Clear t dressId startsOn endsOn True (Function.update (fun _ => none) w7.db.next (some
        ⟨w7.db.next, w7.db.started t, none, dressId, startsOn, endsOn, customerId, notes⟩))
        ⟨inserted w7.db t Table.dressReservations
          (⟨0, 0, none, dressId, startsOn, endsOn, customerId, notes⟩ : DressReservation), w7.out⟩ := by
      refine ⟨h7.lock, h7.own, fun i => ?_, fun i v hi => ?_, h7.clear⟩
      · by_cases hi : i = w7.db.next
        · subst hi
          rw [Function.update_self]
          exact Engine.write_pending_self
        · rw [Function.update_of_ne hi, ← h7.mine i]
          exact Engine.write_pending_row fun hT => hi hT.2
      · by_cases hi' : i = w7.db.next
        · subst hi'
          exact Engine.Lawful.committed_none_of_le hL7 (Nat.le_refl _) Table.dressReservations
        · rw [Function.update_of_ne hi'] at hi
          cases hi
    refine record_clear hcfg h8 (fun w' hw' => hfail _ _ nofun hw') fun w9 h9 => resolve_ensures hcfg h9 fun views w10 h10 => ?_
    intro w11 hev11 hL11 hI11 _ _
    have h11 := h10.evolves hcfg hev11
    have hadds : Adds dressId startsOn endsOn (w11.db.entry t) := by
      refine ⟨w7.db.next, ⟨w7.db.next, w7.db.started t, none, dressId, startsOn, endsOn, customerId, notes⟩,
        h11.fresh _ _ (Function.update_self ..), ?_, decide_eq_true ⟨rfl, rfl⟩, rfl, rfl⟩
      rw [Engine.entry_after, h11.view, if_pos rfl]
    refine ⟨Ledger.inv_commit hI11 fun hs => ?_, hok _ (w11.db.entry t) _ ?_ hadds⟩
    · rw [Engine.entry_after]
      exact h11.spaced rfl rfl rfl hs
    · show (w11.db.commit t).own t = _
      rw [Engine.commit_own, h11.own]
      rfl

def Reserved (r : Request) (t : Tid) (x : Except Err Response) (w : World schema outside) : Prop :=
  ∀ dressId startsOn endsOn customerId notes actorId, r = .createReservation dressId startsOn endsOn customerId notes actorId →
    (∀ response, x = .ok response → ∃ d ∈ w.db.own t, Adds dressId startsOn endsOn d) ∧
    ∀ s s', x = .error (.reservationOverlap s s') → w.db.own t = [] ∧ Away dressId startsOn endsOn s s' w.db

theorem request_spaces (hcfg : cfg.watched = .tenant) (hidle : ∀ i, w.db.pending t .dressReservations i = none)
    (hown : w.db.own t = []) : (spacing cfg reqs).logic.Safe t ((reqs t).code cfg) (Reserved (reqs t) t) w := by
  by_cases hr : (reqs t).reserves = true
  · cases hreq : reqs t with
    | createReservation dressId startsOn endsOn customerId notes actorId =>
      have hends : (spacing cfg reqs).Ensures t (createReservation cfg dressId startsOn endsOn customerId notes actorId)
          (Reserved (.createReservation dressId startsOn endsOn customerId notes actorId) t) w := by
        unfold createReservation
        cases hvalid : validateReservation startsOn endsOn notes with
        | error e =>
          rintro _ _ _ _ _ _ ⟨⟩
          refine ⟨fun _ hx => (by cases hx), fun s s' hx => ?_⟩
          cases hx
          unfold validateReservation at hvalid
          repeat' split at hvalid
          all_goals cases hvalid
        | ok _ =>
          refine reserveIn_ensures hcfg hidle hown (fun e w' hw' haway => ?_) fun view d w' hw' hadds => ?_
          · rintro _ _ _ _ _ _ ⟨⟩
            exact ⟨fun _ hx => (by cases hx), fun s s' hx => ⟨hw', haway s s' (by cases hx; rfl)⟩⟩
          · rintro _ _ _ _ _ _ ⟨⟩
            exact ⟨fun _ _ => ⟨d, by rw [hw']; simp, hadds⟩, fun _ _ hx => (by cases hx)⟩
      refine safe_of_ensures hends fun x w1 w2 hx hev _ _ => ?_
      rintro _ _ _ _ _ _ ⟨⟩
      obtain ⟨hok, hraise⟩ := hx _ _ _ _ _ _ rfl
      rw [show w2.db.own t = w1.db.own t from hev.db.since.own]
      refine ⟨hok, fun s s' he => ⟨(hraise s s' he).1, ?_⟩⟩
      obtain ⟨m, hm, i, v, hv, haway⟩ := (hraise s s' he).2
      exact ⟨m, Nat.le_trans hm hev.db.log_le, i, v, by rw [hev.db.version m hm]; exact hv, haway⟩
    | _ => rw [hreq] at hr; cases hr
  · refine Ledger.safe_of_lawful (fun e he _ hs => ?_) fun x w' dressId startsOn endsOn customerId notes actorId hreq => ?_
    · rw [Engine.entry_after]
      exact hs.fewer (view_fewer he (Bool.eq_false_iff.2 hr))
    · rw [hreq] at hr
      exact absurd rfl hr

end Threads

/-! ## The run -/

variable {store : Store} {next : Nat} {clock : Int} {c : Conf (machine schema outside Err) Response}

/-- **A dress is away for one reservation at a time.**  In every run, whatever is archived, freed or asked beside: if no two live
reservations of a dress have a day in common at the start, none ever have; a reservation that returns has added its days, and one
refused for an overlap has committed nothing and names days that did stand in the way. -/
theorem reservations_spaced (h : Shelved rows next) (hcfg : cfg.watched = .tenant) (hspaced : Spaced rows)
    (hr : (serving cfg reqs store rows next clock).Reaches c) :
    (∀ m, m ≤ c.state.db.log.length → Spaced (c.state.db.version m)) ∧
    ∀ t dressId startsOn endsOn customerId notes actorId,
      reqs t = .createReservation dressId startsOn endsOn customerId notes actorId →
      (∀ response, c.threads t = some (.ret response) → ∃ d ∈ c.state.db.own t, Adds dressId startsOn endsOn d) ∧
      ∀ s s', c.threads t = some (.raise (.reservationOverlap s s')) →
        c.state.db.own t = [] ∧ Away dressId startsOn endsOn s s' c.state.db := by
  have hobeyed : Cast.Obeyed (renting cfg reqs) (serving cfg reqs store rows next clock) := serving_obeyed h
  have hI : (spacing cfg reqs).Inv (serving cfg reqs store rows next clock).state := fun m d hm => by cases hm
  obtain ⟨hsound, hL⟩ := (spacing cfg reqs).runs hobeyed hI (fun t p hp => by
    cases hp
    exact request_spaces hcfg (fun i => rfl) rfl) hr
  have hstart : c.state.db.version 0 = rows := (hobeyed.history hr).2 0 (Nat.le_refl 0)
  refine ⟨hL.version_induction (P := Spaced) (by rw [hstart]; exact hspaced) fun m d hm _ _ => hsound.inv.2 m d hm, ?_⟩
  intro t dressId startsOn endsOn customerId notes actorId hreq
  refine ⟨fun response ht => ?_, fun s s' ht => ?_⟩
  · exact ((hsound.finished ht) _ _ _ _ _ _ hreq).1 response rfl
  · exact ((hsound.raised ht) _ _ _ _ _ _ hreq).2 s s' rfl

def lent : (T : Table) → List (Row T)
  | .dresses => [(⟨0, 0, none, "lace", none, none, false, false, 0⟩ : Dress)]
  | .customers => [(⟨1, 0, none, none, "Noa"⟩ : Customer)]
  | .dressReservations => [(⟨2, 0, none, 0, 10, 12, none, none⟩ : DressReservation)]
  | _ => []

theorem lent_shelved : Shelved (listed (S := schema) lent) 3 :=
  shelved_of_stocked [.dresses, .dressVariants, .dressMedia, .dressReservations, .customers, .auditLog]
    (fun T => by cases T <;> decide) (by decide)

theorem lent_spaced : Spaced (listed (S := schema) lent) := by
  have hkey : ∀ i, ∀ r : DressReservation, listed (S := schema) lent .dressReservations i = some r → i = 2 := by
    intro i r hr
    have hid := List.find?_some hr
    have hr := List.eq_of_mem_singleton (List.mem_of_find?_eq_some hr)
    subst hr
    exact (of_decide_eq_true hid).symm
  exact fun i j r r' hij hr hr' => absurd ((hkey i r hr).trans (hkey j r' hr').symm) hij

def deskConfig : Config := ⟨.tenant, 900, id, id⟩

def desk : Tid → Request
  | 0 => .createReservation 0 12 14 none none 0
  | 1 => .createReservation 0 13 15 (some 1) none 0
  | _ => .createReservation 0 15 16 none none 0

theorem reservations_spaced_desk :
    ∃ c, (serving deskConfig desk posted (listed (S := schema) lent) 3 0).Reaches c ∧
      Spaced (c.state.db.version c.state.db.log.length) ∧ c.state.db.own 0 = [] ∧ (∃ d ∈ c.state.db.own 1, Adds 0 13 15 d) ∧
      c.state.db.own 2 = [] ∧ Away 0 15 16 13 15 c.state.db := by
  obtain ⟨c, hc, hP⟩ := Conf.reached_freely (serving deskConfig desk posted (listed (S := schema) lent) 3 0)
    (answered 1 1 ++ answered 2 1 ++ answered 0 5 ++ answered 1 8 ++ answered 2 4)
    (fun c => decide (c.failure 0 = some (.reservationOverlap 10 12) ∧ c.returned 1 = true ∧
      c.failure 2 = some (.reservationOverlap 13 15))) (by decide)
  obtain ⟨hfirst, hsecond, hthird⟩ := of_decide_eq_true hP
  obtain ⟨response, hresponse⟩ := Conf.returned_iff.1 hsecond
  obtain ⟨hs, hends⟩ := reservations_spaced lent_shelved rfl lent_spaced hc
  obtain ⟨hown, haway⟩ := (hends 2 0 15 16 none none 0 rfl).2 13 15 (Conf.failure_eq_some.1 hthird)
  exact ⟨c, hc, hs _ (Nat.le_refl _), ((hends 0 0 12 14 none none 0 rfl).2 10 12 (Conf.failure_eq_some.1 hfirst)).1,
    (hends 1 0 13 15 (some 1) none 0 rfl).1 response hresponse, hown, haway⟩

end Catalog
