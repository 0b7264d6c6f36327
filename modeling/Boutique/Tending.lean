import Boutique.Dispatches
import Boutique.TxnStretch
/-!
# Tending — what becomes of a ticket

Every commit that writes a ticket makes one change of its request to the row it found.  So the count tells the skips, a
ticket leaves the queue once, and what a request is answered was so while it ran.
-/
namespace Floor

open Txn Session Contract

def Request.tends (i : Nat) : Request → TicketChange → Prop
  | .takeNext .., .claimNext _ => True
  | .assign _ j _ _, .claimById => j = i
  | .release .., .close => True
  | .call j _, .call _ => j = i
  | .skip j seen _, .skip _ seen' => j = i ∧ seen' = seen
  | .remove j _, .remove => j = i
  | _, _ => False

variable {cfg : Config} {reqs : Tid → Request} {t : Tid} {e e' : Engine schema} {w w' : World schema outside}
  {rows : Rows schema} {next : Nat} {clock : Int} {c : Conf (machine schema outside Err) Response} {i L : Nat}

/-! ## The ledger -/

def Tends (req : Request) (i : Nat) (before : Option QueueTicket) (r : QueueTicket) : Prop :=
  ∃ v g, before = some v ∧ TicketChange.apply v g = some r ∧ req.tends i g

abbrev tended (reqs : Tid → Request) : Ledger schema where
  Holds _ _ d := ∀ i (r : QueueTicket), d.writes .tickets i = some r → Tends (reqs d.by_) i (d.before .tickets i) r
  stable _ _ _ _ _ _ _ h := h

abbrev tending (reqs : Tid → Request) : Contract lasting.shared outside Err :=
  (tended reqs).contract lasting.shared fun _ _ _ _ _ => True

theorem tending_historic : (tending reqs).Historic fun _ => true := (tended reqs).historic _

variable {req : Request} {x : Err}

theorem Tends.waiting {before : Option QueueTicket} {r : QueueTicket} (h : Tends req i before r)
    (hr : r.waiting = true) : ∃ v, before = some v ∧ v.waiting = true := by
  obtain ⟨v, g, rfl, hg, -⟩ := h
  refine ⟨v, rfl, ?_⟩
  obtain ⟨-, hstatus⟩ := waiting_live hr
  rcases g with _ | _ | _ | _ | _ | _ <;> simp only [TicketChange.apply] at hg
  all_goals (split at hg <;> cases hg)
  · cases hstatus
  · cases hstatus
  · cases hstatus
  · exact (‹_ ∧ _› : _ ∧ _).1
  · exact (‹_ ∧ _› : _ ∧ _).1
  · cases hstatus

def Waits (q : Option QueueTicket) : Prop := ∃ v, q = some v ∧ v.waiting = true

theorem waits_back (hL : e.Lawful lasting.shared) (hI : ∀ m d, e.log[m]? = some d → (tended reqs).Holds e m d)
    {m n : Nat} (hmn : m ≤ n) (hn : n ≤ e.log.length) (h : Waits (e.version n .tickets i)) : Waits (e.version m .tickets i) := by
  by_contra hnot
  obtain ⟨k, d, -, -, hd, hbefore, q, hq, hw⟩ := hL.version_crossing (T := Table.tickets) (i := i) (P := Waits) hmn hn
    hnot h
  cases hwrite : d.writes .tickets i with
  | none =>
    rw [Commit.after, Rows.over_none hwrite] at hq
    exact hbefore ⟨q, hq, hw⟩
  | some r =>
    rw [Commit.after, Rows.over_some hwrite] at hq
    cases hq
    exact hbefore ((hI k d hd i q hwrite).waiting hw)

/-! ## What a request is answered -/

def Err.tells : Err → Bool
  | .queueTicketNotFound | .queueTicketNotWaiting _ | .queueTicketChanged _ => true
  | _ => false

def Mute (x : Err) : Prop := x.tells = false

def Request.ticket : Request → Option Nat
  | .assign _ i _ _ | .call i _ | .skip i _ _ | .remove i _ => some i
  | _ => none

def Did (t : Tid) (i L : Nat) (e : Engine schema) : Prop :=
  ∃ m d, L ≤ m ∧ e.log[m]? = some d ∧ d.by_ = t ∧ (d.writes .tickets i).isSome

/-- **The count had moved**: at one moment it was not what the request had seen, and later it was `n`. -/
def Changed (i : Nat) (seen n : Int) (L : Nat) (e : Engine schema) : Prop :=
  ∃ m m', L ≤ m ∧ m ≤ m' ∧ m' ≤ e.log.length ∧
    (∃ q : QueueTicket, e.version m .tickets i = some q ∧ q.waiting = true ∧ q.skipCount ≠ seen) ∧
    ∃ q : QueueTicket, e.version m' .tickets i = some q ∧ q.waiting = true ∧ q.skipCount = n

abbrev SawTicket (i L : Nat) (P : Option QueueTicket → Prop) (e : Engine schema) : Prop :=
  Saw (S := schema) Table.tickets i L P e

def Refused (req : Request) (i L : Nat) (e : Engine schema) : Err → Prop
  | .queueTicketNotFound => SawTicket i L (fun q => ∀ v : QueueTicket, q = some v → v.deletedAt ≠ none) e
  | .queueTicketNotWaiting status => status ≠ .waiting ∧
    SawTicket i L (fun q => ∃ v : QueueTicket, q = some v ∧ v.deletedAt = none ∧ v.status = status) e
  | .queueTicketChanged n => ∃ seen actor, req = .skip i seen actor ∧ Changed i seen n L e
  | _ => True

/-- **An answer is true of a moment of its request**, which began at version `L`. -/
def Answered (req : Request) (t : Tid) (L : Nat) (e : Engine schema) : Except Err Response → Prop
  | .ok _ => match req with
    | .skip i _ _ | .remove i _ | .assign _ i _ _ => Did t i L e
    | .takeNext .. => ∃ i, Did t i L e
    | .call i _ => Did t i L e ∨
      SawTicket i L (fun q => ∃ v : QueueTicket, q = some v ∧ v.waiting = true ∧ v.calledAt ≠ none) e
    | _ => True
  | .error x => ∀ i, req.ticket = some i → Refused req i L e x

theorem lasts_did : Lasts (Did t i L) := by
  rintro e e' hl hv ⟨m, d, hm, hd, hrest⟩
  exact ⟨m, d, hm, entry_stays hl hd, hrest⟩

theorem lasts_changed {seen n : Int} : Lasts (Changed i seen n L) := by
  rintro e e' hl hv ⟨m, m', hm, hmm, hm', hq, hq'⟩
  refine ⟨m, m', hm, hmm, Nat.le_trans hm' hl.length_le, ?_, ?_⟩
  · rwa [hv m (Nat.le_trans hmm hm')]
  · rwa [hv m' hm']

theorem lasts_refused (x : Err) : Lasts fun e => Refused req i L e x := by
  intro e e' hl hv h
  cases x with
  | queueTicketNotFound =>
    exact (lasts_saw : Lasts (SawTicket i L fun q => ∀ v : QueueTicket, q = some v → v.deletedAt ≠ none)) e e' hl hv h
  | queueTicketNotWaiting status => exact ⟨h.1, lasts_saw e e' hl hv h.2⟩
  | queueTicketChanged n =>
    obtain ⟨seen, actor, hreq, hchanged⟩ := h
    exact ⟨seen, actor, hreq, lasts_changed e e' hl hv hchanged⟩
  | _ => trivial

theorem lasts_answered (x : Except Err Response) : Lasts fun e => Answered req t L e x := by
  intro e e' hl hv h
  cases x with
  | error x => exact fun i hi => lasts_refused x e e' hl hv (h i hi)
  | ok r =>
    cases req with
    | skip | remove | assign => exact lasts_did e e' hl hv h
    | takeNext =>
      obtain ⟨i, hi⟩ := h
      exact ⟨i, lasts_did e e' hl hv hi⟩
    | call =>
      rcases h with h | h
      · exact .inl (lasts_did e e' hl hv h)
      · exact .inr (lasts_saw e e' hl hv h)
    | claim | release | handover | updateRoom | deleteRoom => trivial

theorem refused_mute (h : Mute x) : Answered req t L e (.error x) := by
  intro i _
  cases x <;> trivial

/-! ## Stretches that say nothing of a ticket -/

section Mute

theorem mute_integrity : Mute .integrity := rfl

theorem mute_record (actorId entity : Nat) (action : AuditAction) : Raising Mute (record actorId entity action) :=
  raising_bind (raising_insert mute_integrity _ _) fun _ => raising_ret _

theorem mute_notifyOther (staffId actorId : Nat) (k : StaffNotificationKind) (entityId : Nat) :
    Raising Mute (notifyOther staffId actorId k entityId) := by
  unfold notifyOther
  split
  · exact raising_bind (raising_insert mute_integrity _ _) fun _ => raising_ret _
  · exact raising_ret _

theorem mute_waitlist (cfg : Config) : Raising Mute (waitlist cfg) :=
  raising_bind (raising_bind raising_now fun _ => raising_ret _) fun _ => raising_bind (raising_select _ _) fun _ =>
    raising_bind (raising_select _ _) fun _ => raising_ret _

theorem mute_clientLabel (bookingId : Option Nat) (name : Option String) : Raising Mute (clientLabel bookingId name) := by
  unfold clientLabel
  split
  · exact raising_ret _
  · exact raising_bind (raising_ask _) fun _ => raising_ret _

theorem mute_roomRead (roomId : Nat) : Raising Mute (roomRead roomId) := by
  refine raising_bind (raising_select _ _) fun _ => raising_bind (raising_orRaise _ rfl) fun found => ?_
  obtain ⟨r, occupant⟩ := found
  cases occupant with
  | none => exact raising_ret _
  | some a =>
    exact raising_bind (raising_ask _) fun _ => raising_bind (mute_clientLabel _ _) fun _ => raising_ret _

theorem mute_dispatchRead (cfg : Config) (roomId : Nat) : Raising Mute (dispatchRead cfg roomId) :=
  raising_bind (mute_roomRead roomId) fun _ => raising_bind (mute_waitlist cfg) fun _ => raising_ret _

theorem mute_activeWhere (q : Query) (p : FittingRoomAssignment → Bool) : Raising Mute (Assignments.activeWhere q p) := by
  refine raising_bind (raising_select _ _) fun rows => ?_
  unfold scalarOneOrNone
  split
  · exact raising_ret _
  · exact raising_ret _
  · exact raising_raise rfl

theorem mute_occupantDetails (occupant : Option FittingRoomAssignment) : Raising Mute (occupantDetails occupant) := by
  cases occupant with
  | none => exact raising_ret _
  | some a => exact raising_ask _

theorem mute_heldRoomDetails (staffId : Nat) : Raising Mute (heldRoomDetails staffId) := by
  refine raising_bind (mute_activeWhere _ _) fun held => ?_
  cases held with
  | none => exact raising_ret _
  | some a => exact raising_bind (raising_select _ _) fun _ => raising_ret _

theorem mute_lockRoom (roomId : Nat) : Raising Mute (lockRoom roomId) :=
  raising_bind (raising_update mute_integrity _ _ _) fun _ => raising_bind (raising_orRaise _ rfl) fun _ =>
    raising_bind (raising_raiseIf _ rfl) fun _ => raising_ret _

theorem mute_occupiedError (roomId staffId : Nat) :
    Ends (fun x => ∃ e, x = .error e ∧ Mute e) (occupiedError roomId staffId >>= fun e => (.raise e : Prg Response)) := by
  have hnamed : Ends (fun x => match x with | .ok e => Mute e | .error e => Mute e) (occupiedError roomId staffId) := by
    refine ends_bind (R := fun x => match x with | .ok named => ∀ e ∈ named, Mute e | .error e => Mute e)
      (ends_tenantSession fun _ => ?_) (fun named hnamed => ?_) fun e he => he
    · refine ends_bind (mute_activeWhere _ _) (fun occupant _ => ?_) fun e he => he e rfl
      cases occupant with
      | some a =>
        exact ends_bind (mute_occupantDetails (some a)) (fun details _ e he => by cases he; rfl) fun e he => he e rfl
      | none =>
        refine ends_bind (mute_activeWhere _ _) (fun held _ => ?_) fun e he => he e rfl
        cases held with
        | some a => exact ends_bind (mute_heldRoomDetails _) (fun details _ e he => by cases he; rfl) fun e he => he e rfl
        | none => exact nofun
    · cases named with
      | some e => exact hnamed e rfl
      | none =>
        intro constraint
        cases constraint <;> exact mute_integrity
  exact ends_bind hnamed (fun e he => ⟨e, rfl, he⟩) fun e he => ⟨e, rfl, he⟩

end Mute

/-! ## The verbs -/

theorem sparing_tickets {ks : List Kind} {o : Op schema outside} (hs : .session ∉ ks) (ht : .ticket ∉ ks)
    (hn : .newTicket ∉ ks) (h : Among ks o) : Sparing (fun T => T = Table.tickets) o := by
  refine ⟨?_, ?_, ?_⟩
  · cases o with
    | sql o =>
      cases o with
      | commit | abort => exact absurd (h .session rfl) hs
      | begin | read | update | insert | lock => trivial
    | now | ask => trivial
  · rintro T j g rfl rfl
    exact ht (h .ticket rfl)
  · rintro T r rfl rfl
    exact hn (h .newTicket rfl)

def beside : List Kind := [.room, .assignment, .note]

theorem sparing_beside {α : Type} {p : Prg α} (h : Only (Among beside) p) : Only (Sparing fun T => T = Table.tickets) p :=
  fun l => (h l).mono fun _ _ ho => sparing_tickets (by decide) (by decide) (by decide) ho

section Stretches

variable {α β : Type} {W : Work QueueTicket} {Ψ : Engine schema → Prop} {Q : Except Err β → World schema outside → Prop}

theorem beside_bind {p : Prg α} {k : α → Prg β} (hΨ : Lasts Ψ) (hp : Only (Among beside) p) (hE : Raising Mute p)
    (hw : w.db.AtWork t Table.tickets W) (h : Ψ w.db) (herr : ∀ e w', Mute e → Ψ w'.db → Q (.error e) w')
    (hk : ∀ a w', w'.db.AtWork t Table.tickets W → Ψ w'.db → (tending reqs).Ensures t (k a) Q w') :
    (tending reqs).Ensures t (p >>= k) Q w :=
  ensures_still tending_historic hΨ (sparing_beside hp) hE hw h (fun e w' he _ h' => herr e w' he h') hk

abbrev answers (reqs : Tid → Request) (t : Tid) (L : Nat) : Except Err Response → World schema outside → Prop :=
  fun x w => Answered (reqs t) t L w.db x

theorem closes_refused {k : Response → Prg Response} (h : Answered (reqs t) t L w.db (.error x)) :
    Closes (tending reqs) t k (answers reqs t L) (.error x) w := fun w1 hev _ => by
  have h1 : Answered (reqs t) t L w1.db (.error x) := (lasts_answered (.error x)).evolves hev.db h
  exact (lasts_answered (.error x)).congr rfl rfl h1

theorem closes_answered {r : Response} (hΨ : Lasts Ψ) (hw : w.db.AtWork t Table.tickets W) (h : Ψ w.db)
    (hW : ∀ i v r, W = some (i, v, r) → Tends (reqs t) i v r)
    (hok : ∀ e : Engine schema, e.AtWork t Table.tickets W → Ψ e → Answered (reqs t) t L (e.commit t) (.ok r)) :
    Closes (tending reqs) t pure (answers reqs t L) (.ok r) w := by
  refine fun w1 hev _ hI _ _ => ⟨Ledger.inv_commit hI fun i q hq => ?_, hok _ (hw.evolves hev.db) (hΨ.evolves hev.db h)⟩
  obtain ⟨v, hWq, hbefore⟩ := (hw.evolves hev.db).entry hq
  rw [hbefore]
  exact hW i v q hWq

theorem did_commit {v : Option QueueTicket} {q : QueueTicket} (hL : L ≤ e.log.length)
    (hw : e.AtWork t Table.tickets (some (i, v, q))) : Did t i L (e.commit t) := by
  refine ⟨e.log.length, e.entry t, hL, by simp [Engine.commit], rfl, ?_⟩
  have hrow : (e.entry t).writes Table.tickets i = some q := hw.row
  rw [hrow]
  rfl

end Stretches

/-- **A change missed a ticket that waits**, whose count was read later. -/
def Passed (g : TicketChange) (i : Nat) (n : Int) (L : Nat) (e : Engine schema) : Prop :=
  ∃ m m', L ≤ m ∧ m ≤ m' ∧ m' ≤ e.log.length ∧
    (∃ q : QueueTicket, e.version m .tickets i = some q ∧ q.waiting = true ∧ TicketChange.apply q g = none) ∧
    ∃ q : QueueTicket, e.version m' .tickets i = some q ∧ q.waiting = true ∧ q.skipCount = n

section Verbs

variable {β : Type} {g : TicketChange} {k : Int → Prg β} {Q : Except Err β → World schema outside → Prop}

theorem ticketRefusal_ensures (hi : (reqs t).ticket = some i) (hw : w.db.AtWork t Table.tickets none)
    (hmissed : SawTicket i L (fun q => (q.bind fun v => TicketChange.apply v g) = none) w.db)
    (herr : ∀ x w', Answered (reqs t) t L w'.db (.error x) → Q (.error x) w')
    (hk : ∀ n w', w'.db.AtWork t Table.tickets none → Passed g i n L w'.db → (tending reqs).Ensures t (k n) Q w') :
    (tending reqs).Ensures t (ticketRefusal i >>= k) Q w := by
  refine ensures_first (ensures_select tending_historic fun w1 hev hL hI _ _ => ?_)
  have hw1 : (w1.db.look t).AtWork t Table.tickets none := (hw.evolves hev.db).congr rfl rfl
  have hview : w1.db.view t .tickets i = w1.db.committed .tickets i := by
    rw [(hw.evolves hev.db).view]
    rfl
  obtain ⟨m, hLm, hm, hnone⟩ := lasts_saw.evolves hev.db hmissed
  have hpast : L ≤ (w1.db.look t).log.length := Nat.le_trans hLm hm
  have hone : ∀ j, (reqs t).ticket = some j → j = i := fun j hj => Option.some.inj (hj.symm.trans hi)
  refine ensures_first (ensures_orRaise (fun hgone => herr _ _ fun j hj => ?_) fun found hfound => ?_)
  · cases hone j hj
    show SawTicket i L (fun q => ∀ v : QueueTicket, q = some v → v.deletedAt ≠ none) (w1.db.look t)
    refine saw_committed hpast fun v hv hlive => ?_
    have hv' : w1.db.view t .tickets i = some v := hview.trans hv
    simp [hv', QueueTicket.live, hlive] at hgone
  obtain ⟨q, hq, rfl⟩ := Option.map_eq_some_iff.1 hfound
  obtain ⟨hq, hlive⟩ := Option.filter_eq_some_iff.1 hq
  change w1.db.view t .tickets i = some q at hq
  rw [hview] at hq
  refine ensures_first (ensures_raiseIf (fun hst => herr _ _ fun j hj => ?_) fun hst => ?_)
  · cases hone j hj
    exact ⟨by simpa using hst, saw_committed hpast ⟨q, hq, by simpa [QueueTicket.live] using hlive, rfl⟩⟩
  have hwaiting : q.waiting = true := by
    simp only [QueueTicket.waiting, hlive, true_and, decide_eq_true_eq]
    simpa using hst
  refine hk q.skipCount _ hw1 ⟨m, w1.db.log.length, hLm, hm, Nat.le_refl _, ?_, q, ?_, hwaiting, rfl⟩
  · obtain ⟨v, hv, hvw⟩ := waits_back hL hI hm (Nat.le_refl _) (i := i) ⟨q, by rw [Engine.version_length]; exact hq, hwaiting⟩
    rw [hv] at hnone
    exact ⟨v, hv, hvw, hnone⟩
  · exact (congrFun (congrFun (Engine.version_length (e := w1.db)) _) _).trans hq

theorem session_answered {body : Int → Prg Response} (hw : w.db.AtWork t Table.tickets none) (hL : L ≤ w.db.log.length)
    (hbody : ∀ n w1, w1.db.AtWork t Table.tickets none → L ≤ w1.db.log.length →
      (tending reqs).Ensures t (body n) (Closes (tending reqs) t pure (answers reqs t L)) w1) :
    (tending reqs).Ensures t (tenantSession body) (answers reqs t L) w :=
  ensures_last (ensures_tenantSession tending_historic fun _ n hev _ _ =>
    hbody n _ ((hw.evolves hev.db).congr rfl rfl) (Nat.le_trans hL hev.db.log_le))

theorem updateNamed_ensures {k : Option QueueTicket → Prg Response}
    {Q : Except Err Response → World schema outside → Prop} (htends : (reqs t).tends i g)
    (hw : w.db.AtWork t Table.tickets none) (hL : L ≤ w.db.log.length)
    (herr : ∀ w', Answered (reqs t) t L w'.db (.error .integrity) → Q (.error .integrity) w')
    (hnone : ∀ w', w'.db.AtWork t Table.tickets none →
      SawTicket i L (fun q => (q.bind fun v => TicketChange.apply v g) = none) w'.db →
      (tending reqs).Ensures t (k none) Q w')
    (hsome : ∀ (v q : QueueTicket) w', w'.db.AtWork t Table.tickets (some (i, some v, q)) → L ≤ w'.db.log.length →
      q.id = i → Tends (reqs t) i (some v) q → (tending reqs).Ensures t (k (some q)) Q w') :
    (tending reqs).Ensures t (update .tickets i g >>= k) Q w := by
  refine ensures_updateFirst tending_historic hw (fun w1 _ => herr w1 (refused_mute rfl))
    (fun w1 hev _ _ hn => hnone _ (hw.evolves hev.db) ?_) fun w1 v q hev hL1 hv hq _ hwork => ?_
  · have hpast : L ≤ w1.db.log.length := Nat.le_trans hL hev.db.log_le
    exact saw_committed hpast hn
  · exact hsome v q _ hwork (Nat.le_trans hL hev.db.log_le) ((rowId_applyChange .tickets g v q hq).trans
      (hL1.rows.id Table.tickets i v hv)) ⟨v, g, rfl, hq, htends⟩

theorem tail_ensures {actorId : Nat} {action : AuditAction} {v q : QueueTicket}
    (hdone : ∀ e : Engine schema, L ≤ e.log.length → e.AtWork t Table.tickets (some (i, some v, q)) →
      ∀ r, Answered (reqs t) t L (e.commit t) (.ok r))
    (hw : w.db.AtWork t Table.tickets (some (i, some v, q))) (hL : L ≤ w.db.log.length)
    (htends : Tends (reqs t) i (some v) q) :
    (tending reqs).Ensures t (do
      record actorId i action
      let w ← waitlist cfg
      return .waitlist w : Prg Response) (Closes (tending reqs) t pure (answers reqs t L)) w := by
  refine beside_bind (lasts_past L) (within_record (by decide) _ _ _) (mute_record _ _ _) hw hL
    (fun e w' he _ => closes_refused (refused_mute he)) fun _ w1 hw1 hL1 =>
    beside_bind (lasts_past L) (within_waitlist cfg) (mute_waitlist cfg) hw1 hL1
    (fun e w' he _ => closes_refused (refused_mute he)) fun read w2 hw2 hL2 =>
    closes_answered (lasts_past L) hw2 hL2 (fun j u r hW => ?_) fun e he hpast => hdone e hpast he _
  cases hW
  exact htends

variable {actor : StaffContext} {ρ : Nat} {staffUserId : Option Nat}

theorem skip_answered {seen : Int} (hreq : reqs t = .skip i seen actor) (hw : w.db.AtWork t Table.tickets none)
    (hL : L ≤ w.db.log.length) : (tending reqs).Ensures t (skip cfg i seen actor) (answers reqs t L) w := by
  refine ensures_now tending_historic fun w1 hev _ _ => session_answered (hw.evolves hev.db)
    (Nat.le_trans hL hev.db.log_le) fun _ w2 hw2 hL2 => updateNamed_ensures (by rw [hreq]; exact ⟨rfl, rfl⟩) hw2 hL2
    (fun w' h => closes_refused h) (fun w3 hw3 hmissed => ?_) fun v q w3 hw3 hL3 _ htends => ?_
  · refine ticketRefusal_ensures (by rw [hreq]; rfl) hw3 hmissed (fun x w' h => closes_refused h) fun n w4 hw4 hpassed =>
      closes_refused fun j hj => ?_
    obtain rfl : i = j := Option.some.inj (by rw [hreq] at hj; exact hj)
    obtain ⟨m, m', hLm, hmm, hm', ⟨u, hu, huw, hnone⟩, hlater⟩ := hpassed
    refine ⟨seen, actor, hreq, m, m', hLm, hmm, hm', ⟨u, hu, huw, fun hcount => ?_⟩, hlater⟩
    simp [TicketChange.apply, huw, hcount] at hnone
  · exact tail_ensures (fun e hpast he r => by rw [hreq]; exact did_commit hpast he) hw3 hL3 htends

theorem remove_answered (hreq : reqs t = .remove i actor) (hw : w.db.AtWork t Table.tickets none)
    (hL : L ≤ w.db.log.length) : (tending reqs).Ensures t (remove cfg i actor) (answers reqs t L) w := by
  refine session_answered hw hL fun _ w2 hw2 hL2 => ensures_first (updateNamed_ensures (by rw [hreq]; exact rfl) hw2 hL2
    (fun w' h => closes_refused h) (fun w3 hw3 hmissed => ?_) fun v q w3 hw3 hL3 _ htends => ?_)
  · show (tending reqs).Ensures t (ticketRefusal i >>= fun n => .raise (.queueTicketChanged n)) _ _
    refine ticketRefusal_ensures (by rw [hreq]; rfl) hw3 hmissed (fun x w' h => closes_refused h) fun n w4 hw4 hpassed => ?_
    obtain ⟨m, m', hLm, hmm, hm', ⟨u, hu, huw, hnone⟩, hlater⟩ := hpassed
    simp [TicketChange.apply, huw] at hnone
  · exact tail_ensures (fun e hpast he r => by rw [hreq]; exact did_commit hpast he) hw3 hL3 htends

theorem call_answered (hreq : reqs t = .call i actor) (hw : w.db.AtWork t Table.tickets none)
    (hL : L ≤ w.db.log.length) : (tending reqs).Ensures t (call cfg i actor) (answers reqs t L) w := by
  refine ensures_now tending_historic fun w1 hev _ _ => session_answered (hw.evolves hev.db)
    (Nat.le_trans hL hev.db.log_le) fun _ w2 hw2 hL2 => updateNamed_ensures (by rw [hreq]; exact rfl) hw2 hL2
    (fun w' h => closes_refused h) (fun w3 hw3 hmissed => ?_) fun v q w3 hw3 hL3 _ htends => ?_
  · refine ticketRefusal_ensures (by rw [hreq]; rfl) hw3 hmissed (fun x w' h => closes_refused h) fun n w4 hw4 hpassed => ?_
    have hcalled : SawTicket i L (fun q => ∃ v : QueueTicket, q = some v ∧ v.waiting = true ∧ v.calledAt ≠ none) w4.db := by
      obtain ⟨m, m', hLm, hmm, hm', ⟨u, hu, huw, hnone⟩, hlater⟩ := hpassed
      refine ⟨m, hLm, Nat.le_trans hmm hm', u, hu, huw, fun hcalled => ?_⟩
      simp [TicketChange.apply, huw, hcalled] at hnone
    refine beside_bind lasts_saw (within_waitlist cfg) (mute_waitlist cfg) hw4 hcalled
      (fun e w' he _ => closes_refused (refused_mute he)) fun read w5 hw5 hcalled5 =>
      closes_answered lasts_saw hw5 hcalled5 (fun j u r hW => by cases hW) fun e _ hcalled6 => ?_
    rw [hreq]
    exact .inr (lasts_saw.commit hcalled6)
  · exact tail_ensures (fun e hpast he r => by rw [hreq]; exact .inl (did_commit hpast he)) hw3 hL3 htends

theorem release_answered {a : Nat} (hreq : reqs t = .release a actor) (hw : w.db.AtWork t Table.tickets none)
    (hL : L ≤ w.db.log.length) : (tending reqs).Ensures t (release a actor) (answers reqs t L) w := by
  have hfail : ∀ x w', Closes (tending reqs) t (pure : Response → Prg Response) (answers reqs t L) (.error x) w' :=
    fun x w' => closes_refused fun i hi => by rw [hreq] at hi; cases hi
  have hlast : ∀ {W : Work QueueTicket} {w' : World schema outside} {ρ : Nat},
      (∀ i v r, W = some (i, v, r) → Tends (reqs t) i v r) → w'.db.AtWork t Table.tickets W → L ≤ w'.db.log.length →
      (tending reqs).Ensures t (do
        let room ← roomRead ρ
        return .room room : Prg Response) (Closes (tending reqs) t pure (answers reqs t L)) w' :=
    fun htends hw' hL' => beside_bind (lasts_past L) (within_roomRead _) (mute_roomRead _) hw' hL'
      (fun e w' _ _ => hfail e w') fun room w1 hw1 hL1 =>
      closes_answered (lasts_past L) hw1 hL1 htends fun e _ _ => by rw [hreq]; trivial
  refine ensures_now tending_historic fun w1 hev _ _ => session_answered (hw.evolves hev.db)
    (Nat.le_trans hL hev.db.log_le) fun _ w2 hw2 hL2 =>
    beside_bind (lasts_past L) (within_select _ _) (raising_select _ _) hw2 hL2 (fun e w' _ _ => hfail e w')
    fun found w3 hw3 hL3 => ensures_orRaise (fun _ => hfail _ _) fun assignment _ => ensures_raiseIf (fun _ => hfail _ _)
    fun _ => beside_bind (lasts_past L) (only_bind (only_update (among_kind rfl (by decide)) _) fun _ =>
      only_bind (within_select _ _) fun _ => only_ret _) (raising_bind (raising_update mute_integrity _ _ _) fun _ =>
      raising_bind (raising_select _ _) fun _ => raising_ret _) hw3 hL3 (fun e w' _ _ => hfail e w')
    fun released w4 hw4 hL4 => ensures_orRaise (fun _ => hfail _ _) fun row _ => ?_
  split
  · have hrecorded : ∀ {W : Work QueueTicket} {w' : World schema outside} {action : AuditAction},
        (∀ i v r, W = some (i, v, r) → Tends (reqs t) i v r) → w'.db.AtWork t Table.tickets W → L ≤ w'.db.log.length →
        (tending reqs).Ensures t (do
          record actor.id a action
          let room ← roomRead row.fittingRoomId
          return .room room : Prg Response) (Closes (tending reqs) t pure (answers reqs t L)) w' :=
      fun htends hw' hL' => beside_bind (lasts_past L) (within_record (by decide) _ _ _) (mute_record _ _ _) hw' hL'
        (fun e w' _ _ => hfail e w') fun _ w5 hw5 hL5 => hlast htends hw5 hL5
    cases hticket : row.queueTicketId with
    | none => exact hrecorded (fun i v r hW => by cases hW) hw4 hL4
    | some i =>
      refine ensures_first (ensures_first (updateNamed_ensures (g := .close) (by rw [hreq]; trivial) hw4 hL4
        (fun w' _ => hfail _ w') (fun w5 hw5 hmissed => ?_) fun v q w5 hw5 hL5 _ htends => ?_))
      · obtain ⟨m, hLm, hm, -⟩ := hmissed
        exact hrecorded (fun i v r hW => by cases hW) hw5 (Nat.le_trans hLm hm)
      · refine hrecorded (fun j u r hW => ?_) hw5 hL5
        cases hW
        exact htends
  · exact hlast (fun i v r hW => by cases hW) hw4 hL4

def Takings (reqs : Tid → Request) (t : Tid) (L : Nat) (p : Prg QueueTicket) : Prop :=
  ∀ (w : World schema outside) (k : QueueTicket → Prg Response) (Q : Except Err Response → World schema outside → Prop),
    w.db.AtWork t Table.tickets none → L ≤ w.db.log.length →
    (∀ x w', Answered (reqs t) t L w'.db (.error x) → Q (.error x) w') →
    (∀ i (v q : QueueTicket) w', w'.db.AtWork t Table.tickets (some (i, some v, q)) → L ≤ w'.db.log.length → q.id = i →
      Tends (reqs t) i (some v) q → (∀ j, (reqs t).ticket = some j → j = i) →
      (tending reqs).Ensures t (k q) Q w') →
    (tending reqs).Ensures t (p >>= k) Q w

theorem takings_named (hreq : reqs t = .assign ρ i staffUserId actor) :
    Takings reqs t L (takeNamedTicket i) := by
  intro w k Q hw hL herr hk
  refine ensures_first (updateNamed_ensures (by rw [hreq]; exact rfl) hw hL (fun w' h => herr _ w' h)
    (fun w1 hw1 hmissed => ?_) fun v q w1 hw1 hL1 hid htends =>
      hk i v q w1 hw1 hL1 hid htends fun j hj => by rw [hreq] at hj; exact (Option.some.inj hj).symm)
  refine ensures_first (ticketRefusal_ensures (by rw [hreq]; rfl) hw1 hmissed herr fun n w2 hw2 hpassed => ?_)
  obtain ⟨m, m', hLm, hmm, hm', ⟨u, hu, huw, hnone⟩, hlater⟩ := hpassed
  simp [TicketChange.apply, huw] at hnone

theorem takings_next (hreq : reqs t = .takeNext ρ staffUserId actor) :
    Takings reqs t L (takeNextTicket cfg) := by
  intro w k Q hw hL herr hk
  have hfail : ∀ x w', Q (.error x) w' := fun x w' => herr x w' fun i hi => by rw [hreq] at hi; cases hi
  have hhead : ∀ (day : Int) (is : List Nat) (w : World schema outside), w.db.AtWork t Table.tickets none →
      L ≤ w.db.log.length → (tending reqs).Ensures t (Tickets.takeHead day is >>= fun ticket =>
        orRaise ticket .queueEmpty >>= k) Q w := by
    intro day is
    induction is with
    | nil => exact fun w _ _ => hfail _ _
    | cons i is ih =>
      intro w hw hL
      refine ensures_first (beside_bind (lasts_past L) (within_ask _) (raising_ask _) hw hL (fun e w' _ _ => hfail e w')
        fun locked w1 hw1 hL1 => ?_)
      split
      · exact ih w1 hw1 hL1
      · refine ensures_first (updateNamed_ensures (by rw [hreq]; trivial) hw1 hL1 (fun w' _ => hfail _ w')
          (fun w2 hw2 hmissed => ?_) fun v q w2 hw2 hL2 hid htends =>
            hk i v q w2 hw2 hL2 hid htends fun j hj => by rw [hreq] at hj; cases hj)
        obtain ⟨m, hLm, hm, -⟩ := hmissed
        exact ih w2 hw2 (Nat.le_trans hLm hm)
  refine ensures_first (beside_bind (lasts_past L) (within_today cfg) (raising_bind raising_now fun _ => raising_ret _) hw hL
    (fun e w' _ _ => hfail e w') fun day w1 hw1 hL1 => ?_)
  exact ensures_first (ensures_first (beside_bind (lasts_past L) (within_select _ _) (raising_select _ _) hw1 hL1
    (fun e w' _ _ => hfail e w') fun waiting w2 hw2 hL2 => hhead day _ w2 hw2 hL2))

theorem unwritten_ensures {p : Prg Response} (ks : List Kind) (ht : .ticket ∉ ks) (hn : .newTicket ∉ ks)
    (hp : Only (Among ks) p) (h : w.db.pending t Table.tickets = fun _ => none) :
    (tending reqs).Ensures t p (fun _ w' => w'.db.pending t Table.tickets = fun _ => none) w := by
  refine ensures_unwritten tending_historic (fun w1 _ hI hnone _ => Ledger.inv_commit hI fun i r hr => ?_) (fun l =>
    (hp l).mono fun _ o ho => ⟨?_, ?_⟩) h
  · have hr : w1.db.pending t Table.tickets i = some r := hr
    rw [hnone] at hr
    cases hr
  · rintro j g rfl
    exact ht (ho .ticket rfl)
  · rintro r rfl
    exact hn (ho .newTicket rfl)

def settle (ρ staffId : Nat) : Except Err Response → Prg Response
  | .ok r => return r
  | .error .integrity => do
    let e ← occupiedError ρ staffId
    .raise e
  | .error e => .raise e

theorem settle_answered {staffId : Nat} (h : Answered (reqs t) t L w.db (.error x)) :
    Closes (tending reqs) t (pure : Response → Prg Response)
      (fun x w' => (tending reqs).Ensures t (settle ρ staffId x) (answers reqs t L) w') (.error x) w := by
  intro w1 hev _
  have h1 : Answered (reqs t) t L w1.db (.error x) := (lasts_answered (.error x)).evolves hev.db h
  have hreleased : Answered (reqs t) t L (w1.db.release t) (.error x) := (lasts_answered (.error x)).congr rfl rfl h1
  cases x with
  | integrity =>
    refine ensures_mono (fun y w2 hy => ?_) (ensures_ends (mute_occupiedError ρ staffId) (unwritten_ensures
      [.session] (by decide) (by decide) (only_bind (within_occupiedError (by decide) ρ staffId) fun e => only_raise _)
      (by show (w1.db.release t).pending t Table.tickets = _; rw [Engine.release_pending_self])))
    obtain ⟨⟨e, rfl, he⟩, -⟩ := hy
    exact refused_mute he
  | _ => exact hreleased

theorem dispatch_answered {mode : DispatchMode} {p : Prg QueueTicket} (hp : Takings reqs t L p)
    (hdone : ∀ (e : Engine schema) i, Did t i L e → (∀ j, (reqs t).ticket = some j → j = i) →
      ∀ r, Answered (reqs t) t L e (.ok r)) (hw : w.db.AtWork t Table.tickets none) (hL : L ≤ w.db.log.length) :
    (tending reqs).Ensures t (dispatch cfg ρ staffUserId actor mode p) (answers reqs t L) w := by
  refine ensures_raiseIf (fun _ => refused_mute rfl) fun _ => ensures_bind ?_
  rw [Ensures, Prog.wp_attempt]
  have hsettle : ∀ x w', Answered (reqs t) t L w'.db (.error x) →
      Closes (tending reqs) t (pure : Response → Prg Response)
        (fun x w' => (tending reqs).Ensures t (settle ρ (staffUserId.getD actor.id) x) (answers reqs t L) w')
        (.error x) w' := fun x w' h => settle_answered h
  refine ensures_last (ensures_tenantSession tending_historic fun w1 n hev _ _ => ?_)
  have hw1 : (({ w1.db with started := Function.update w1.db.started t n } : Engine schema)).AtWork t Table.tickets none :=
    (hw.evolves hev.db).congr rfl rfl
  have hL1 : L ≤ w1.db.log.length := Nat.le_trans hL hev.db.log_le
  refine beside_bind (lasts_past L) (within_lockRoom (by decide) _) (mute_lockRoom _) hw1 hL1
    (fun e w' he _ => hsettle e w' (refused_mute he)) fun room w2 hw2 hL2 =>
    beside_bind (lasts_past L) (within_activeWhere _ _) (mute_activeWhere _ _) hw2 hL2
    (fun e w' he _ => hsettle e w' (refused_mute he)) fun occupant w3 hw3 hL3 => ?_
  cases occupant with
  | some a =>
    exact beside_bind (lasts_past L) (within_occupantDetails _) (mute_occupantDetails _) hw3 hL3
      (fun e w' he _ => hsettle e w' (refused_mute he)) fun details w4 _ _ => hsettle _ w4 (refused_mute rfl)
  | none =>
    refine hp w3 _ _ hw3 hL3 hsettle fun i v q w4 hw4 hL4 hid htends hnamed =>
      beside_bind (lasts_past L) (within_assignment (by decide) _ _ _ _) (raising_insert mute_integrity _ _) hw4 hL4
      (fun e w' he _ => hsettle e w' (refused_mute he)) fun assignment w5 hw5 hL5 =>
      beside_bind (lasts_past L) (within_record (by decide) _ _ _) (mute_record _ _ _) hw5 hL5
      (fun e w' he _ => hsettle e w' (refused_mute he)) fun _ w6 hw6 hL6 =>
      beside_bind (lasts_past L) (within_notifyOther (by decide) _ _ _ _) (mute_notifyOther _ _ _ _) hw6 hL6
      (fun e w' he _ => hsettle e w' (refused_mute he)) fun _ w7 hw7 hL7 => ensures_last
      (beside_bind (lasts_past L) (within_dispatchRead cfg ρ) (mute_dispatchRead cfg ρ) hw7 hL7
      (fun e w' he _ => hsettle e w' (refused_mute he)) fun r w8 hw8 hL8 => fun w9 hev9 _ hI9 _ _ => ?_)
    have hw9 := hw8.evolves hev9.db
    refine ⟨Ledger.inv_commit hI9 fun j u hu => ?_, hdone _ i (did_commit (Nat.le_trans hL8 hev9.db.log_le) hw9) hnamed r⟩
    obtain ⟨v', hW, hbefore⟩ := hw9.entry hu
    cases hW
    rw [hbefore]
    exact htends

/-- **Every answer is true of a moment of its request**, and every commit makes one change of it. -/
theorem request_answered (h : w.db.pending t = fun _ _ => none) (hL : L ≤ w.db.log.length) :
    (tending reqs).Ensures t ((reqs t).code cfg) (answers reqs t L) w := by
  have hw : w.db.AtWork t Table.tickets none := Engine.atWork_none (by rw [h])
  have hroomy : Roomy [.session, .room, .assignment, .note] := ⟨by decide, by decide, by decide, by decide⟩
  have hbeside : ∀ p : Prg Response, Only (Among [.session, .room, .assignment, .note]) p →
      (reqs t).ticket = none → (∀ e r, Answered (reqs t) t L e (.ok r)) →
      (tending reqs).Ensures t p (answers reqs t L) w := by
    refine fun p hp hnone hok => ensures_mono (fun x w' _ => ?_) (unwritten_ensures _ (by decide) (by decide) hp (by rw [h]))
    cases x with
    | ok r => exact hok _ r
    | error x => exact fun i hi => by rw [hnone] at hi; cases hi
  cases hreq : reqs t with
  | claim ρ staffUserId bookingId actor =>
    exact hbeside _ (within_claim hroomy _ _ _ _ _) (by rw [hreq]; rfl) fun e r => by rw [hreq]; trivial
  | takeNext ρ staffUserId actor =>
    exact dispatch_answered (takings_next hreq) (fun e i hdid _ r => by rw [hreq]; exact ⟨i, hdid⟩) hw hL
  | assign ρ i staffUserId actor =>
    refine dispatch_answered (takings_named hreq) (fun e j hdid hnamed r => ?_) hw hL
    obtain rfl : i = j := hnamed i (by rw [hreq]; rfl)
    rw [hreq]
    exact hdid
  | release a actor => exact release_answered hreq hw hL
  | handover a newStaffId actor =>
    exact hbeside _ (within_handover hroomy _ _ _) (by rw [hreq]; rfl) fun e r => by rw [hreq]; trivial
  | updateRoom ρ label sortOrder isActive =>
    exact hbeside _ (within_updateRoom hroomy _ _ _ _) (by rw [hreq]; rfl) fun e r => by rw [hreq]; trivial
  | deleteRoom ρ actor =>
    exact hbeside _ (within_deleteRoom hroomy _ _) (by rw [hreq]; rfl) fun e r => by rw [hreq]; trivial
  | call i actor => exact call_answered hreq hw hL
  | skip i seen actor => exact skip_answered hreq hw hL
  | remove i actor => exact remove_answered hreq hw hL

end Verbs

end Floor
