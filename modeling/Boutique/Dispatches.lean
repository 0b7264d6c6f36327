import Boutique.Occupancy
/-!
# Dispatches — the verbs of the floor, one by one, and their runs

What each verb has in flight when it commits, and the account of the floor over every run.
-/
namespace Floor

open Txn Session Contract

variable {cfg : Config} {reqs : Tid → Request} {w w' : World schema outside} {t : Tid} {e e' : Engine schema}
  {R : Work FittingRoom} {A : Work FittingRoomAssignment} {K : Work QueueTicket}

variable {ρ i a actorId : Nat} {actor : StaffContext} {p : Prg QueueTicket} {n : Int} {label : Option String}
  {sortOrder : Option Int} {isActive : Option Bool}

section Statements

variable {α β : Type} {Q : Except Err β → World schema outside → Prop}

theorem forUpdate_ensures {k : Option FittingRoom → Prg β} (h : Standing t none A K w.db)
    (herr : ∀ e w', Standing t none A K w'.db → Q (.error e) w')
    (hnone : ∀ w', Standing t none A K w'.db → (seating reqs).Ensures t (k none) Q w')
    (hsome : ∀ (r : FittingRoom) w', r.live = true → Standing t (some (ρ, some r, r)) A K w'.db →
      (seating reqs).Ensures t (k (some r)) Q w') :
    (seating reqs).Ensures t (Rooms.byIdForUpdate ρ >>= k) Q w := by
  refine Session.ensures_update seating_historic (fun w1 hev _ _ => herr _ _ (h.evolves hev.db))
    (fun w1 hev _ _ _ => hnone _ (h.evolves hev.db)) fun w1 v r hev _ hv hr _ _ _ => ?_
  have h1 := h.evolves hev.db
  have hr' : RoomChange.apply v .forUpdate = some r := hr
  simp only [RoomChange.apply] at hr'
  split at hr' <;> cases hr'
  have hfound : w1.db.committed Table.rooms ρ = some v := by
    rw [h1.rooms.view] at hv
    exact hv
  refine hsome v _ ‹_› ?_
  have hwrote := h1.writeRoom (i := ρ) (r := v)
  rwa [hfound] at hwrote

theorem lockRoom_ensures {k : FittingRoom → Prg β} (h : Standing t none A K w.db)
    (herr : ∀ e w' R, Standing t R A K w'.db → Q (.error e) w')
    (hk : ∀ (r : FittingRoom) w', r.live = true → Standing t (some (ρ, some r, r)) A K w'.db →
      (seating reqs).Ensures t (k r) Q w') : (seating reqs).Ensures t (lockRoom ρ >>= k) Q w := by
  refine ensures_first (forUpdate_ensures h (fun e w' h' => herr e w' _ h') (fun w' h' => herr _ w' _ h')
    fun r w' hlive h' => ensures_first (Session.ensures_orRaise nofun fun room hroom => ?_))
  cases hroom
  exact ensures_first (Session.ensures_raiseIf (fun _ => herr _ _ _ h') fun _ => hk r _ hlive h')

theorem updateTicket_ensures {g : TicketChange} {k : Option QueueTicket → Prg β} (h : Standing t R A none w.db)
    (herr : ∀ e w', Standing t R A none w'.db → Q (.error e) w')
    (hnone : ∀ w', Standing t R A none w'.db → Kept reqs w'.db →
      ((w'.db.committed Table.tickets i : Option QueueTicket).bind fun q => TicketChange.apply q g) = none →
      (seating reqs).Ensures t (k none) Q w')
    (hsome : ∀ (v q : QueueTicket) w', TicketChange.apply v g = some q → q.id = i →
      Standing t R A (some (i, some v, q)) w'.db → (seating reqs).Ensures t (k (some q)) Q w') :
    (seating reqs).Ensures t (update .tickets i g >>= k) Q w := by
  refine Session.ensures_update seating_historic (fun w1 hev _ _ => herr _ _ (h.evolves hev.db))
    (fun w1 hev _ hI hn => ?_) fun w1 v q hev _ hv hq _ hL hI => ?_
  · have h1 := h.evolves hev.db
    refine hnone _ h1 hI ?_
    rw [h1.tickets.view] at hn
    exact hn
  · have h1 := h.evolves hev.db
    have hfound : w1.db.committed Table.tickets i = some v := by
      rw [h1.tickets.view] at hv
      exact hv
    have hid : QueueTicket.id q = i := hL.own_id t Table.tickets i q Engine.write_pending_self
    have hwrote := h1.writeTicket (i := i) (q := q)
    rw [hfound] at hwrote
    exact hsome v q _ hq hid hwrote

theorem claim_ensures {staffId : Nat} {bookingId ticketId : Option Nat} {k : FittingRoomAssignment → Prg β}
    (h : Standing t R none K w.db) (herr : ∀ w', Standing t R none K w'.db → Q (.error .integrity) w')
    (hk : ∀ a (x : FittingRoomAssignment) w', x.seat = some ⟨ρ, ticketId⟩ → Standing t R (some (a, none, x)) K w'.db →
      (seating reqs).Ensures t (k x) Q w') :
    (seating reqs).Ensures t (Assignments.claim ρ staffId bookingId ticketId >>= k) Q w := by
  refine Session.ensures_insert seating_historic
    (fun w1 n hev _ _ => herr _ ((h.evolves hev.db).congr rfl rfl rfl rfl rfl)) fun w1 hev hL _ _ => ?_
  have h1 : Standing t R none K ({ w1.db with next := w1.db.next + 1 } : Engine schema) :=
    (h.evolves hev.db).congr rfl rfl rfl rfl rfl
  have hfresh : w1.db.committed Table.assignments w1.db.next = none :=
    hL.committed_none_of_le (Nat.le_refl _) Table.assignments
  have hwrote := h1.writeAssignment (i := w1.db.next)
    (x := ⟨w1.db.next, w1.db.started t, none, ρ, staffId, bookingId, ticketId, none⟩)
  rw [show ({ w1.db with next := w1.db.next + 1 } : Engine schema).committed Table.assignments w1.db.next = none from
    hfresh] at hwrote
  exact hk _ _ _ (seat_active rfl) hwrote

theorem updateAssignment_ensures {g : AssignmentChange} {k : Option FittingRoomAssignment → Prg β}
    (h : Standing t R none K w.db) (herr : ∀ w', Standing t R none K w'.db → Q (.error .integrity) w')
    (hnone : ∀ w', Standing t R none K w'.db → (seating reqs).Ensures t (k none) Q w')
    (hsome : ∀ (v x : FittingRoomAssignment) w', AssignmentChange.apply v g = some x →
      Standing t R (some (a, some v, x)) K w'.db → (seating reqs).Ensures t (k (some x)) Q w') :
    (seating reqs).Ensures t (update .assignments a g >>= k) Q w := by
  refine Session.ensures_update seating_historic (fun w1 hev _ _ => herr _ (h.evolves hev.db))
    (fun w1 hev _ _ _ => hnone _ (h.evolves hev.db)) fun w1 v x hev _ hv hx _ _ _ => ?_
  have h1 := h.evolves hev.db
  have hfound : w1.db.committed Table.assignments a = some v := by
    rw [h1.assignments.view] at hv
    exact hv
  have hwrote := h1.writeAssignment (i := a) (x := x)
  rw [hfound] at hwrote
  exact hsome v x _ hx hwrote

end Statements

/-! ## The tickets taken -/

def TakesTicket (reqs : Tid → Request) (p : Prg QueueTicket) : Prop :=
  ∀ (t : Tid) (R : Work FittingRoom) (w : World schema outside) (k : QueueTicket → Prg Response)
    (Q : Except Err Response → World schema outside → Prop), Standing t R none none w.db →
    (∀ e w', Standing t R none none w'.db → Q (.error e) w') →
    (∀ i (v q : QueueTicket) w', v.waiting = true → q.live = true → q.status = .inService → q.id = i →
      Standing t R none (some (i, some v, q)) w'.db → (seating reqs).Ensures t (k q) Q w') →
    (seating reqs).Ensures t (p >>= k) Q w

theorem apply_claim {v q : QueueTicket} (h : TicketChange.apply v .claimById = some q) :
    v.waiting = true ∧ q.live = true ∧ q.status = .inService := by
  simp only [TicketChange.apply] at h
  split at h <;> cases h
  rename_i hw
  exact ⟨hw, (waiting_live hw).1, rfl⟩

theorem apply_claimNext {v q : QueueTicket} {day : Int} (h : TicketChange.apply v (.claimNext day) = some q) :
    v.waiting = true ∧ q.live = true ∧ q.status = .inService := by
  simp only [TicketChange.apply] at h
  split at h <;> cases h
  rename_i hc
  have hw : v.waiting = true := by
    simp [liveWaiting] at hc
    exact hc.2
  exact ⟨hw, (waiting_live hw).1, rfl⟩

theorem takeHead_ensures {β : Type} {Q : Except Err β → World schema outside → Prop} {day : Int}
    {k : Option QueueTicket → Prg β} (herr : ∀ e w', Standing t R none none w'.db → Q (.error e) w')
    (hnone : ∀ w', Standing t R none none w'.db → (seating reqs).Ensures t (k none) Q w')
    (hsome : ∀ i (v q : QueueTicket) w', v.waiting = true → q.live = true → q.status = .inService → q.id = i →
      Standing t R none (some (i, some v, q)) w'.db → (seating reqs).Ensures t (k (some q)) Q w') :
    ∀ (is : List Nat) (w : World schema outside), Standing t R none none w.db →
      (seating reqs).Ensures t (Tickets.takeHead day is >>= k) Q w
  | [], w, h => hnone w h
  | i :: is, w, h => by
    refine ensures_first (plain_bind (within_ask _) h herr fun locked w1 h1 => ?_)
    split
    · exact takeHead_ensures herr hnone hsome is w1 h1
    · refine ensures_first (updateTicket_ensures h1 herr (fun w2 h2 _ _ =>
        takeHead_ensures herr hnone hsome is w2 h2) fun v q w2 hq hid h2 => ?_)
      obtain ⟨hw, hlive, hstatus⟩ := apply_claimNext hq
      exact hsome i v q w2 hw hlive hstatus hid h2

theorem takes_next : TakesTicket reqs (takeNextTicket cfg) := by
  intro t R w k Q h herr hk
  refine ensures_first (plain_bind (within_today cfg) h herr fun day w1 h1 => ?_)
  refine ensures_first (ensures_first (plain_bind (within_select _ _) h1 herr fun waiting w2 h2 => ?_))
  refine takeHead_ensures herr (fun w' h' => ?_) (fun i v q w' hw hlive hstatus hid h' => ?_) _ w2 h2
  · exact herr _ w' h'
  · refine Session.ensures_orRaise nofun fun q' hq' => ?_
    cases hq'
    exact hk i v q w' hw hlive hstatus hid h'

theorem takes_named {ticketId : Nat} : TakesTicket reqs (takeNamedTicket ticketId) := by
  intro t R w k Q h herr hk
  refine ensures_first (updateTicket_ensures h herr (fun w1 h1 _ _ => ?_) fun v q w1 hq hid h1 => ?_)
  · exact ensures_first (plain_bind (within_ticketRefusal _) h1 herr fun _ w2 h2 => herr _ _ h2)
  · obtain ⟨hw, hlive, hstatus⟩ := apply_claim hq
    exact hk ticketId v q w1 hw hlive hstatus hid h1

/-! ## The verbs -/

def Ended (reqs : Tid → Request) (t : Tid) : Except Err Response → World schema outside → Prop
  | .ok _, w => (reqs t).dispatching = true → ∃ d ∈ w.db.own t, ∃ i, Takes d i
  | .error _, w => Quiet t w.db

theorem failed {x : Err} (h : Standing t R A K w.db) :
    Closes (seating reqs) t (pure : Response → Prg Response) (Ended reqs t) (.error x) w :=
  h.closes fun _ hq => hq

theorem session_ensures {body : Int → Prg Response} (h : Quiet t w.db) (hbody : ∀ n w1, Standing t none none none w1.db →
      (seating reqs).Ensures t (body n) (Closes (seating reqs) t pure (Ended reqs t)) w1) :
    (seating reqs).Ensures t (tenantSession body) (Ended reqs t) w :=
  ensures_last (Session.ensures_tenantSession seating_historic fun _ n hev _ _ =>
    hbody n _ ((h.evolves hev.db).standing.congr rfl rfl rfl rfl rfl))

theorem closes_ok {r : Response} (hreq : (reqs t).dispatching = false)
    (hcommit : ∀ w1, w.Evolves lasting.shared t w1 → w1.db.Lawful lasting.shared → Kept reqs w1.db →
      Kept reqs (w1.db.commit t)) : Closes (seating reqs) t pure (Ended reqs t) (.ok r) w :=
  fun w1 hev hL hI _ _ => ⟨hcommit w1 hev hL hI, fun hd => by rw [hreq] at hd; cases hd⟩

theorem closes_idle {r : Response} (hreq : (reqs t).dispatching = false) (h : Standing t R none none w.db)
    (hroom : ∀ ρ v r, R = some (ρ, v, r) → ∃ u : FittingRoom, v = some u ∧ r.live = u.live) :
    Closes (seating reqs) t pure (Ended reqs t) (.ok r) w :=
  closes_ok hreq fun _ hev _ hI => (h.evolves hev.db).commit_idle hI hroom

theorem claim_kept {staffUserId bookingId : Option Nat} (hreq : (reqs t).dispatching = false) (h : Quiet t w.db) :
    (seating reqs).Ensures t (claim cfg ρ staffUserId bookingId actor) (Ended reqs t) w := by
  refine Session.ensures_raiseIf (fun _ => h) fun _ => session_ensures h fun _ w1 h1 =>
    lockRoom_ensures h1 (fun e w' R h' => failed h') fun r w2 hlive h2 =>
    plain_bind (within_checkBooking cfg bookingId) h2 (fun e w' h' => failed h') fun _ w3 h3 =>
    ensures_unlessRefused (ensures_last (claim_ensures h3 (fun w4 h4 => ?_) fun a x w4 hseat h4 => ?_))
  · -- refused: the claim she already has, or nothing
    refine plain_last (within_resolveClaimConflict _ _) h4 fun y w5 h5 => ?_
    cases y with
    | ok res =>
      refine closes_idle hreq h5 fun ρ' v r' hR => ?_
      cases hR
      exact ⟨r, rfl, rfl⟩
    | error e => exact failed h5
  · refine plain_bind (within_record (by decide) _ _ _) h4 (fun e w' h' => failed h') fun _ w5 h5 =>
      plain_bind (within_roomRead _) h5 (fun e w' h' => failed h') fun room w6 h6 => closes_ok hreq fun w7 hev _ hI => ?_
    have h7 := h6.evolves hev.db
    refine h7.commit hI ?_ (fun b v x' hA s hs => ?_) (.inr fun i v q hK => by cases hK)
    · simp only [planned, h7.closed_same rfl, hseat]
      exact .seat a ⟨ρ, none⟩ h7.seated (h7.room_open hlive) rfl
    · cases hA
      rw [hseat] at hs
      cases hs
      exact .inr ⟨_, _, rfl⟩

theorem dispatchIn_ensures {staffId : Nat} {mode : DispatchMode}
    {Q : Except Err Response → World schema outside → Prop} (hp : TakesTicket reqs p)
    (h : Standing t none none none w.db) (herr : ∀ e w' R A K, Standing t R A K w'.db → Q (.error e) w')
    (hok : ∀ res a i (r : FittingRoom) (x : FittingRoomAssignment) (v q : QueueTicket) w', r.live = true →
      x.seat = some ⟨ρ, some i⟩ → v.waiting = true → q.standing = some .inService →
      Standing t (some (ρ, some r, r)) (some (a, none, x)) (some (i, some v, q)) w'.db → Q (.ok res) w') :
    (seating reqs).Ensures t (dispatchIn cfg ρ staffId actorId mode p) Q w := by
  refine lockRoom_ensures h (fun e w' R h' => herr e w' _ _ _ h') fun r w1 hlive h1 =>
    plain_bind (within_activeWhere _ _) h1 (fun e w' h' => herr e w' _ _ _ h') fun occupant w2 h2 => ?_
  cases occupant with
  | some a =>
    exact plain_bind (within_occupantDetails _) h2 (fun e w' h' => herr e w' _ _ _ h') fun _ w3 h3 =>
      herr _ w3 _ _ _ h3
  | none =>
    refine hp t _ w2 _ Q h2 (fun e w' h' => herr e w' _ _ _ h') fun i v q w3 hw hqlive hstatus hid h3 =>
      claim_ensures h3 (fun w' h' => herr _ w' _ _ _ h') fun a x w4 hseat h4 =>
      plain_bind (within_record (by decide) _ _ _) h4 (fun e w' h' => herr e w' _ _ _ h') fun _ w5 h5 =>
      plain_bind (within_notifyOther (by decide) _ _ _ _) h5 (fun e w' h' => herr e w' _ _ _ h') fun _ w6 h6 =>
      plain_last (within_dispatchRead cfg ρ) h6 fun y w7 h7 => ?_
    cases y with
    | ok res =>
      rw [hid] at hseat
      exact hok res a i r x v q w7 hlive hseat hw (by rw [standing_live hqlive, hstatus]) h7
    | error e => exact herr e w7 _ _ _ h7

theorem quiet_ensures {α : Type} {p : Prg α} (hp : Only (Among [.session]) p) (h : Quiet t w.db) :
    (seating reqs).Ensures t p (fun _ w' => Quiet t w'.db) w := by
  refine ensures_mono (fun x w' hx => ?_) (ensures_of_footprint (fun _ w => Quiet t w.db)
    (fun _ _ _ hev _ _ h => h.evolves hev.db) (fun l o w i r w' ho hL hI hq he hL' hA => ?_) (hp false) h)
  · obtain ⟨-, -, hx⟩ := hx
    exact hx
  by_cases hc : o = .sql .commit
  · subst hc
    cases he
    refine ⟨hq.standing.commit_idle hI (fun ρ v r hR => by cases hR), fun d hd => ?_, Engine.commit_pending_self⟩
    rw [Engine.commit_own, List.mem_append, List.mem_singleton] at hd
    rcases hd with hd | rfl
    · exact hq.blank d hd
    · exact hq.pending
  · refine ⟨seating_historic.exec hc (fun _ _ => rfl) he hI, ?_, ?_⟩
    · rw [Engine.own, (World.exec_log hc he).1]
      exact hq.blank
    · funext T j
      cases hr : w'.db.pending t T j with
      | none => rfl
      | some r =>
        rcases World.exec_wrote he hr with hr | ⟨g, v, rfl, -, -⟩ | ⟨r0, rfl, -, -⟩
        · rw [hq.pending] at hr
          cases hr
        · cases T with
          | rooms | assignments | tickets => exact absurd (ho _ rfl) (by decide)
          | auditLog | notifications => cases g
        · cases T <;> exact absurd (ho _ rfl) (by decide)

theorem dispatch_kept {staffUserId : Option Nat} {mode : DispatchMode} (hp : TakesTicket reqs p)
    (hreq : (reqs t).dispatching = true) (h : Quiet t w.db) :
    (seating reqs).Ensures t (dispatch cfg ρ staffUserId actor mode p) (Ended reqs t) w := by
  refine Session.ensures_raiseIf (fun _ => h) fun _ => ensures_bind ?_
  rw [Ensures, Prog.wp_attempt]
  refine ensures_last (Session.ensures_tenantSession seating_historic fun w1 n hev _ _ => ?_)
  have h1 : Standing t none none none
      ({ w1.db with started := Function.update w1.db.started t n } : Engine schema) :=
    (h.evolves hev.db).standing.congr rfl rfl rfl rfl rfl
  refine dispatchIn_ensures hp h1 (fun e w' R A K h' => h'.closes fun w'' hq => ?_)
    fun res a i r x v q w2 hlive hseat hw hserves h2 w3 hev3 hL3 hI3 _ _ => ?_
  · cases e with
    | integrity =>
      refine ensures_bind (ensures_mono (fun y w3 hq3 => ?_) (quiet_ensures (within_occupiedError (by decide) _ _) hq))
      cases y <;> exact hq3
    | _ => exact hq
  · have h3 := h2.evolves hev3.db
    have hplan : planned (some (ρ, some r, r)) (some (a, none, x)) (some (i, some v, q)) (planOf w3.db.committed) =
        { planOf w3.db.committed with
          seated := Function.update (planOf w3.db.committed).seated a (some ⟨ρ, some i⟩)
          ticket := Function.update (planOf w3.db.committed).ticket i (some .inService) } := by
      simp only [planned, h3.closed_same rfl, hseat, hserves]
    have hwaits : (planOf w3.db.committed).ticket i = some .waiting := by
      rw [h3.ticket]
      exact standing_waiting hw
    refine ⟨h3.commit hI3 ?_ (fun b v' x' hA s hs => ?_) (.inl hreq), fun _ => ?_⟩
    · rw [hplan]
      exact .dispatch a i ⟨ρ, some i⟩ h3.seated (h3.room_open hlive) rfl hwaits
    · cases hA
      rw [hseat] at hs
      cases hs
      exact .inr ⟨_, _, rfl⟩
    · refine ⟨w3.db.entry t, by rw [Engine.commit_own]; exact List.mem_append_right _ (List.mem_singleton_self _), i,
        hwaits, ?_⟩
      rw [Engine.entry_after, h3.planned, hplan]
      simp

/-! ## The release and the handover -/

theorem apply_release {v x : FittingRoomAssignment} (h : AssignmentChange.apply v (.release n) = some x) :
    v.active = true ∧ x.seat = none ∧ x.queueTicketId = v.queueTicketId := by
  simp only [AssignmentChange.apply] at h
  split at h <;> cases h
  refine ⟨‹_›, seat_inactive ?_, rfl⟩
  simp [FittingRoomAssignment.active]

theorem apply_handover {v x : FittingRoomAssignment} {n : Nat} (h : AssignmentChange.apply v (.handover n) = some x) :
    x.seat = v.seat := by
  simp only [AssignmentChange.apply] at h
  split at h <;> cases h
  rfl

theorem apply_close {v q : QueueTicket} (h : TicketChange.apply v .close = some q) :
    v.standing = some .inService ∧ q.standing = some .done := by
  simp only [TicketChange.apply] at h
  split at h <;> cases h
  rename_i hc
  have hlive : QueueTicket.live { v with status := .done } = true := hc.2
  exact ⟨by rw [standing_live hc.2, hc.1], standing_live hlive⟩

theorem closeTicket_ensures {v x : FittingRoomAssignment} {k : Unit → Prg Response}
    {Q : Except Err Response → World schema outside → Prop} (hactive : v.active = true)
    (hticket : v.queueTicketId = some i) (h : Standing t none (some (a, some v, x)) none w.db)
    (herr : ∀ e w', Standing t none (some (a, some v, x)) none w'.db → Q (.error e) w')
    (hgone : ∀ w', Standing t none (some (a, some v, x)) none w'.db → Gone i w'.db →
      (seating reqs).Ensures t (k ()) Q w')
    (hdone : ∀ (u q : QueueTicket) w', u.standing = some .inService → q.standing = some .done →
      Standing t none (some (a, some v, x)) (some (i, some u, q)) w'.db → (seating reqs).Ensures t (k ()) Q w') :
    (seating reqs).Ensures t (closeTicket (some i) >>= k) Q w := by
  refine ensures_first (ensures_first (updateTicket_ensures h herr (fun w1 h1 hkept hnone => hgone w1 h1 ?_)
    fun u q w1 hq _ h1 => hdone u q w1 (apply_close hq).1 (apply_close hq).2 h1))
  have hserves : (planOf w1.db.committed).Serves a i := ⟨⟨v.fittingRoomId, some i⟩, by
    rw [h1.seated, Option.bind_some, seat_active hactive, hticket], rfl⟩
  by_contra hthere
  obtain ⟨st, hst⟩ := Option.ne_none_iff_exists'.1 hthere
  by_cases hserving : st = .inService
  · subst hserving
    obtain ⟨q, hq, hstanding⟩ := Option.bind_eq_some_iff.1 hst
    have hq : w1.db.committed Table.tickets i = some q := hq
    rw [hq] at hnone
    unfold QueueTicket.standing at hstanding
    split at hstanding
    · rename_i hlive
      simp [TicketChange.apply, hlive, Option.some.inj hstanding] at hnone
    · cases hstanding
  · exact hkept.sound.unserved i st hst hserving a hserves

theorem recorded_ensures {entity : Nat} {action : AuditAction} (hreq : (reqs t).dispatching = false)
    (Φ : Engine schema → Prop)
    (hevolve : ∀ e e', Standing t R A K e → e.Evolves lasting.shared t e' → e'.Lawful lasting.shared →
      Kept reqs e' → Φ e → Φ e') (hsame : ∀ e e' : Engine schema, e'.committed = e.committed → Φ e → Φ e')
    (h : Standing t R A K w.db) (hΦ : Φ w.db)
    (hcommit : ∀ e, Standing t R A K e → Φ e → Kept reqs e → Kept reqs (e.commit t)) :
    (seating reqs).Ensures t (do
      record actorId entity action
      let room ← roomRead ρ
      return .room room : Prg Response) (Closes (seating reqs) t pure (Ended reqs t)) w := by
  refine plain_also Φ hevolve hsame (within_record (by decide) _ _ _) h hΦ (fun e w' h' => failed h') fun _ w1 h1 hΦ1 =>
    plain_also Φ hevolve hsame (within_roomRead ρ) h1 hΦ1 (fun e w' h' => failed h') fun room w2 h2 hΦ2 =>
    closes_ok hreq fun w3 hev hL hI => ?_
  exact hcommit _ (h2.evolves hev.db) (hevolve _ _ h2 hev.db hL hI hΦ2) hI

theorem release_kept (hreq : (reqs t).dispatching = false) (h : Quiet t w.db) :
    (seating reqs).Ensures t (release a actor) (Ended reqs t) w := by
  refine Session.ensures_now seating_historic fun w1 hev _ _ => session_ensures (h.evolves hev.db) fun _ w2 h2 =>
    plain_bind (within_select _ _) h2 (fun e w' h' => failed h') fun found w3 h3 =>
    Session.ensures_orRaise (fun _ => failed h3) fun assignment _ => Session.ensures_raiseIf (fun _ => failed h3) fun _ =>
    ensures_first (updateAssignment_ensures h3 (fun w' h' => failed h') (fun w4 h4 => ?_) fun v x w4 hx h4 => ?_)
  · refine ensures_first (plain_bind (within_select _ _) h4 (fun e w' h' => failed h') fun refreshed w5 h5 =>
      Session.ensures_orRaise (fun _ => failed h5) fun row _ => ?_)
    split
    · rename_i hwrote
      cases hwrote
    · exact plain_bind (within_roomRead _) h5 (fun e w' h' => failed h') fun room w6 h6 =>
        closes_idle hreq h6 fun ρ v r hR => by cases hR
  obtain ⟨hactive, hseat, hticket⟩ := apply_release hx
  refine ensures_first (Session.ensures_select seating_historic fun w5 hev5 _ _ _ _ =>
    Session.ensures_orRaise (fun _ => ?_) fun row hrow => ?_)
  · exact failed ((h4.evolves hev5.db).congr rfl rfl rfl rfl rfl : Standing t none _ none (w5.db.look t))
  have h5 : Standing t none (some (a, some v, x)) none (w5.db.look t) :=
    (h4.evolves hev5.db).congr rfl rfl rfl rfl rfl
  have hrow' : row = x := by
    have hview : w5.db.view t Table.assignments a = some x := Engine.view_pending h5.assignments.row
    have hread : w5.db.view t Table.assignments a = some row := (Option.filter_eq_some_iff.1 hrow).1
    rw [hview] at hread
    exact (Option.some.inj hread).symm
  subst hrow'
  split
  case isFalse hwrote => exact absurd rfl hwrote
  have hlast : ∀ (e : Engine schema), Standing t none (some (a, some v, row)) none e →
      (∀ i, v.queueTicketId = some i → Gone i e) → Kept reqs e → Kept reqs (e.commit t) := by
    intro e he hgone hkept
    refine he.commit hkept ?_ (fun b v' x' hA s hs => ?_) (.inr fun i u q hK => by cases hK)
    · simp only [planned, hseat]
      refine .leave a ⟨v.fittingRoomId, v.queueTicketId⟩ ?_ hgone
      rw [he.seated, Option.bind_some, seat_active hactive]
    · cases hA
      rw [hseat] at hs
      cases hs
  rw [hticket]
  cases hi : v.queueTicketId with
  | none =>
    exact recorded_ensures hreq (fun _ => True) (fun _ _ _ _ _ _ _ => trivial) (fun _ _ _ _ => trivial) h5 trivial
      fun e he _ hkept => hlast e he (fun i hi' => by rw [hi] at hi'; cases hi') hkept
  | some i =>
    refine closeTicket_ensures hactive hi h5 (fun e w' h' => failed h') (fun w6 h6 hgone => ?_)
      fun u q w6 hserving hdone h6 => ?_
    · refine recorded_ensures hreq (Gone i) (fun e e' _ hev _ _ hg => hg.evolves hev) (fun e e' hc hg => ?_) h6 hgone
        fun e he hg hkept => hlast e he (fun j hj => ?_) hkept
      · rw [Gone, hc]
        exact hg
      · rw [hi] at hj
        cases hj
        exact hg
    · refine recorded_ensures hreq (fun _ => True) (fun _ _ _ _ _ _ _ => trivial) (fun _ _ _ _ => trivial) h6 trivial
        fun e he _ hkept => he.commit hkept ?_ (fun b v' x' hA s hs => ?_) (.inr fun j u' q' hK hstatus => ?_)
      · simp only [planned, hseat, hdone]
        refine .finish a i ⟨v.fittingRoomId, some i⟩ ?_ rfl (by rw [he.ticket, Option.bind_some, hserving])
        rw [he.seated, Option.bind_some, seat_active hactive, hi]
      · cases hA
        rw [hseat] at hs
        cases hs
      · cases hK
        unfold QueueTicket.standing at hdone
        split at hdone
        · rw [hstatus] at hdone
          cases hdone
        · cases hdone

theorem Standing.commit_handed {v x : FittingRoomAssignment} (h : Standing t none (some (a, some v, x)) none e)
    (hseat : x.seat = v.seat) (hkept : Kept reqs e) : Kept reqs (e.commit t) := by
  have hsits : (planOf e.committed).seated a = x.seat := by rw [h.seated, Option.bind_some, hseat]
  refine h.commit hkept ?_ (fun b v' x' hA s hs => ?_) (.inr fun i u q hK => by cases hK)
  · have hsame : Floor.planned none (some (a, some v, x)) none (planOf e.committed) = planOf e.committed := by
      simp only [Floor.planned, ← hsits, Function.update_eq_self]
    rw [hsame]
    exact .idle
  · cases hA
    exact .inl (hsits.trans hs)

theorem handover_kept {newStaffId : Nat} (hreq : (reqs t).dispatching = false) (h : Quiet t w.db) :
    (seating reqs).Ensures t (handover a newStaffId actor) (Ended reqs t) w := by
  refine session_ensures h fun _ w1 h1 => plain_bind (within_select _ _) h1 (fun e w' h' => failed h') fun before w2 h2 =>
    ensures_unlessRefused (updateAssignment_ensures h2 (fun w3 h3 => ?_) (fun w3 h3 => ?_) fun v x w3 hx h3 => ?_)
  · refine plain_bind (within_ask _) h3 (fun e w' h' => failed h') fun constraint w4 h4 => ?_
    split
    · exact plain_bind (within_heldRoomDetails _) h4 (fun e w' h' => failed h') fun _ w5 h5 => failed h5
    · exact failed h4
  · exact failed h3
  · refine Session.ensures_select seating_historic fun w4 hev4 _ _ _ _ => ?_
    have h4 : Standing t none (some (a, some v, x)) none (w4.db.look t) :=
      (h3.evolves hev4.db).congr rfl rfl rfl rfl rfl
    exact Session.ensures_raiseIf (fun _ => failed h4) fun _ => Session.ensures_orRaise (fun _ => failed h4) fun row _ =>
      plain_bind (within_record (by decide) _ _ _) h4 (fun e w' h' => failed h') fun _ w5 h5 =>
      plain_bind (within_notifyOther (by decide) _ _ _ _) h5 (fun e w' h' => failed h') fun _ w6 h6 =>
      plain_bind (within_roomRead _) h6 (fun e w' h' => failed h') fun room w7 h7 =>
      closes_ok hreq fun w8 hev hL hI => (h7.evolves hev.db).commit_handed (apply_handover hx) hI

/-! ## The registry -/

theorem apply_flush {v r : FittingRoom} (h : RoomChange.apply v (.flush label sortOrder isActive) = some r) :
    r.live = v.live := by
  cases h
  rfl

theorem updateRoom_ensures {k : Option FittingRoom → Prg Response}
    {Q : Except Err Response → World schema outside → Prop} (h : Standing t none none none w.db)
    (herr : ∀ e w' R, Standing t R none none w'.db → Q (.error e) w')
    (hk : ∀ R res w', (∀ ρ v r, R = some (ρ, v, r) → ∃ u : FittingRoom, v = some u ∧ r.live = u.live) →
      Standing t R none none w'.db → (seating reqs).Ensures t (k res) Q w') :
    (seating reqs).Ensures t (Rooms.update ρ label sortOrder isActive >>= k) Q w := by
  refine ensures_first (plain_bind (within_select _ _) h (fun e w' h' => herr e w' _ h') fun room w1 h1 => ?_)
  cases room with
  | none => exact hk none none w1 (fun ρ v r hR => by cases hR) h1
  | some u =>
    dsimp only
    split
    · refine ensures_first (Session.ensures_update seating_historic (fun w2 hev _ _ => herr _ _ _ (h1.evolves hev.db))
        (fun w2 hev _ _ _ => herr _ _ _ (h1.evolves hev.db)) fun w2 v r hev _ hv hr _ _ _ => ?_)
      have h2 := h1.evolves hev.db
      have hfound : w2.db.committed Table.rooms ρ = some v := by
        rw [h2.rooms.view] at hv
        exact hv
      have hwrote := h2.writeRoom (i := ρ) (r := r)
      rw [hfound] at hwrote
      refine ensures_first (Session.ensures_raiseIf (fun _ => herr _ _ _ hwrote) fun _ => ?_)
      refine plain_bind (within_select _ _) hwrote (fun e w' h' => herr e w' _ h') fun _ w3 h3 =>
        hk _ _ w3 (fun ρ' v' r' hR => ?_) h3
      cases hR
      exact ⟨v, rfl, apply_flush hr⟩
    · exact plain_bind (within_select _ _) h1 (fun e w' h' => herr e w' _ h') fun _ w2 h2 =>
        hk none _ w2 (fun ρ v r hR => by cases hR) h2

theorem updateRoom_kept (hreq : (reqs t).dispatching = false) (h : Quiet t w.db) :
    (seating reqs).Ensures t (updateRoom ρ label sortOrder isActive) (Ended reqs t) w := by
  unfold updateRoom
  split
  · exact h
  · exact session_ensures h fun _ w1 h1 => updateRoom_ensures h1 (fun e w' R h' => failed h') fun R res w2 hroom h2 =>
      Session.ensures_orRaise (fun _ => failed h2) fun _ _ => plain_bind (within_roomRead ρ) h2
        (fun e w' h' => failed h') fun room w3 h3 => closes_idle hreq h3 hroom

theorem empty_of_view {n : Nat} (hL : e.Lawful lasting.shared) (hn : n = e.next) (h : Standing t R none K e)
    (hnone : ((⟨e.view t, n⟩ : Snapshot schema).all Table.assignments).any
      (fun (a : FittingRoomAssignment) => a.fittingRoomId = ρ ∧ a.active) = false) : Empty ρ e := by
  intro a s hs hroom
  obtain ⟨x, hx, hseat⟩ := Option.bind_eq_some_iff.1 hs
  have hx : e.committed Table.assignments a = some x := hx
  obtain ⟨hactive, rfl⟩ := seat_some hseat
  have hmem : x ∈ (⟨e.view t, n⟩ : Snapshot schema).all Table.assignments := by
    refine Snapshot.mem_all.2 ⟨a, hn ▸ hL.committed_lt Table.assignments a x hx, ?_⟩
    show e.view t Table.assignments a = some x
    rw [h.assignments.view]
    exact hx
  have hfalse := List.any_eq_false.1 hnone x hmem
  simp only [decide_eq_true_eq, not_and] at hfalse
  exact hfalse hroom hactive

theorem deleteRoom_kept (hreq : (reqs t).dispatching = false) (h : Quiet t w.db) :
    (seating reqs).Ensures t (deleteRoom ρ actor) (Ended reqs t) w := by
  refine session_ensures h fun n w1 h1 => forUpdate_ensures h1 (fun e w' h' => failed h') (fun w' h' => failed h')
    fun r w2 hlive h2 => Session.ensures_orRaise nofun fun room hroom =>
    Session.ensures_select seating_historic fun w3 hev hL _ _ _ => ?_
  have h3 : Standing t (some (ρ, some r, r)) none none (w3.db.look t) := (h2.evolves hev.db).congr rfl rfl rfl rfl rfl
  split
  · exact plain_bind (within_activeWhere _ _) h3 (fun e w' h' => failed h') fun occupant w4 h4 =>
      plain_bind (within_occupantDetails _) h4 (fun e w' h' => failed h') fun _ w5 h5 => failed h5
  rename_i hany
  have hempty : Empty ρ (w3.db.look t) := empty_of_view (e := w3.db) hL rfl (h2.evolves hev.db) (by simpa using hany)
  refine ensures_first (Session.ensures_update seating_historic (fun w4 hev4 _ _ => failed (h3.evolves hev4.db))
    (fun w4 hev4 _ _ _ => ?_) fun w4 v r' hev4 hL4 hv hr' _ _ hI4 => ?_)
  · -- the locked room is there, so its stamp matches it; a miss would leave the plan as it was
    show (seating reqs).Ensures t (record actor.id ρ (.fittingRoomDeleted ρ room.label) >>= fun _ => pure Response.deleted) _ _
    refine plain_bind (within_record (by decide) _ _ _) (h3.evolves hev4.db) (fun e w' h' => failed h')
      fun _ w5 h5 => closes_idle hreq h5 fun ρ' v' r' hR => ?_
    cases hR
    exact ⟨r, rfl, rfl⟩
  have h4 := h3.evolves hev4.db
  have hempty4 : Empty ρ w4.db := hempty.evolves h3.rooms.row hev4.db hL4 ⟨hI4.sound, hI4.deeds⟩
  have hdeleted : FittingRoom.live r' = false := by
    have hr' : RoomChange.apply v (.softDelete n) = some r' := hr'
    simp only [RoomChange.apply] at hr'
    split at hr' <;> cases hr'
    simp [FittingRoom.live]
  have hwrote : Standing t (some (ρ, some r, r')) none none (w4.db.write t Table.rooms ρ r') := h4.writeRoomAgain
  show (seating reqs).Ensures t (record actor.id ρ (.fittingRoomDeleted ρ room.label) >>= fun _ => pure Response.deleted) _ _
  refine plain_also (Empty ρ) (fun e e' he hev hL hkept hg => hg.evolves he.rooms.row hev hL hkept) (fun e e' hc hg => ?_)
    (within_record (by decide) _ _ _) hwrote hempty4 (fun e w' h' => failed h') fun _ w5 h5 hempty5 =>
    closes_ok hreq fun w6 hev6 hL6 hI6 => ?_
  · intro a s hs
    rw [hc] at hs
    exact hg a s hs
  have h6 := h5.evolves hev6.db
  refine h6.commit hI6 ?_ (fun a v' x hA => by cases hA) (.inr fun i u q hK => by cases hK)
  simp only [planned, hdeleted, Bool.not_false]
  exact .close ρ (hempty5.evolves h5.rooms.row hev6.db hL6 hI6)

/-! ## The queue -/

theorem Standing.commit_tend {v q : QueueTicket} (h : Standing t none none (some (i, some v, q)) e)
    (hw : v.waiting = true) (hlive : q.live = true) (hstatus : q.status ≠ .inService) (hkept : Kept reqs e) :
    Kept reqs (e.commit t) := by
  refine h.commit hkept ?_ (fun a v' x hA => by cases hA) (.inr fun j u q' hK => ?_)
  · simp only [Floor.planned, standing_live hlive]
    exact .tend i q.status (by rw [h.ticket]; exact standing_waiting hw) hstatus
  · cases hK
    exact hstatus

theorem apply_call {v q : QueueTicket} (h : TicketChange.apply v (.call n) = some q) :
    v.waiting = true ∧ q.live = true ∧ q.status ≠ .inService := by
  simp only [TicketChange.apply] at h
  split at h <;> cases h
  rename_i hc
  obtain ⟨hlive, hstatus⟩ := waiting_live hc.1
  exact ⟨hc.1, hlive, by simp [hstatus]⟩

theorem apply_skip {v q : QueueTicket} {seen : Int} (h : TicketChange.apply v (.skip n seen) = some q) :
    v.waiting = true ∧ q.live = true ∧ q.status ≠ .inService := by
  simp only [TicketChange.apply] at h
  split at h <;> cases h
  rename_i hc
  refine ⟨hc.1, (waiting_live hc.1).1, ?_⟩
  dsimp only
  split
  · intro h
    cases h
  · intro h
    cases h

theorem apply_remove {v q : QueueTicket} (h : TicketChange.apply v .remove = some q) :
    v.waiting = true ∧ q.live = true ∧ q.status ≠ .inService := by
  simp only [TicketChange.apply] at h
  split at h <;> cases h
  rename_i hc
  exact ⟨hc, (waiting_live hc).1, fun h => by cases h⟩

theorem tended_ensures {action : AuditAction} {v q : QueueTicket} (hreq : (reqs t).dispatching = false)
    (hw : v.waiting = true) (hlive : q.live = true) (hstatus : q.status ≠ .inService)
    (h : Standing t none none (some (i, some v, q)) w.db) :
    (seating reqs).Ensures t (do
      record actorId i action
      let w ← waitlist cfg
      return .waitlist w : Prg Response) (Closes (seating reqs) t pure (Ended reqs t)) w :=
  plain_bind (within_record (by decide) _ _ _) h (fun e w' h' => failed h') fun _ w1 h1 =>
    plain_bind (within_waitlist cfg) h1 (fun e w' h' => failed h') fun _ w2 h2 =>
    closes_ok hreq fun w3 hev hL hI => (h2.evolves hev.db).commit_tend hw hlive hstatus hI

theorem call_kept (hreq : (reqs t).dispatching = false) (h : Quiet t w.db) :
    (seating reqs).Ensures t (call cfg i actor) (Ended reqs t) w := by
  refine Session.ensures_now seating_historic fun w1 hev _ _ => session_ensures (h.evolves hev.db) fun _ w2 h2 =>
    updateTicket_ensures h2 (fun e w' h' => failed h') (fun w3 h3 _ _ => ?_) fun v q w3 hq _ h3 => ?_
  · exact plain_bind (within_ticketRefusal _) h3 (fun e w' h' => failed h') fun _ w4 h4 =>
      plain_bind (within_waitlist cfg) h4 (fun e w' h' => failed h') fun _ w5 h5 =>
      closes_idle hreq h5 fun ρ v r hR => by cases hR
  · obtain ⟨hw, hlive, hstatus⟩ := apply_call hq
    exact tended_ensures hreq hw hlive hstatus h3

theorem skip_kept {seen : Int} (hreq : (reqs t).dispatching = false) (h : Quiet t w.db) :
    (seating reqs).Ensures t (skip cfg i seen actor) (Ended reqs t) w := by
  refine Session.ensures_now seating_historic fun w1 hev _ _ => session_ensures (h.evolves hev.db) fun _ w2 h2 =>
    updateTicket_ensures h2 (fun e w' h' => failed h') (fun w3 h3 _ _ => ?_) fun v q w3 hq _ h3 => ?_
  · exact plain_bind (within_ticketRefusal _) h3 (fun e w' h' => failed h') fun _ w4 h4 => failed h4
  · obtain ⟨hw, hlive, hstatus⟩ := apply_skip hq
    exact tended_ensures hreq hw hlive hstatus h3

theorem remove_kept (hreq : (reqs t).dispatching = false) (h : Quiet t w.db) :
    (seating reqs).Ensures t (remove cfg i actor) (Ended reqs t) w := by
  refine session_ensures h fun _ w2 h2 => ensures_first (updateTicket_ensures h2 (fun e w' h' => failed h')
    (fun w3 h3 _ _ => ?_) fun v q w3 hq _ h3 => ?_)
  · show (seating reqs).Ensures t (ticketRefusal i >>= fun n => .raise (.queueTicketChanged n)) _ _
    exact plain_bind (within_ticketRefusal _) h3 (fun e w' h' => failed h') fun _ w4 h4 => failed h4
  · obtain ⟨hw, hlive, hstatus⟩ := apply_remove hq
    exact tended_ensures hreq hw hlive hstatus h3

theorem request_kept (h : Quiet t w.db) :
    (seating reqs).Ensures t ((reqs t).code cfg) (Ended reqs t) w := by
  cases hreq : reqs t with
  | claim ρ staffUserId bookingId actor => exact claim_kept (by rw [hreq]; rfl) h
  | takeNext ρ staffUserId actor => exact dispatch_kept takes_next (by rw [hreq]; rfl) h
  | assign ρ i staffUserId actor => exact dispatch_kept takes_named (by rw [hreq]; rfl) h
  | release a actor => exact release_kept (by rw [hreq]; rfl) h
  | handover a newStaffId actor => exact handover_kept (by rw [hreq]; rfl) h
  | updateRoom ρ label sortOrder isActive => exact updateRoom_kept (by rw [hreq]; rfl) h
  | deleteRoom ρ actor => exact deleteRoom_kept (by rw [hreq]; rfl) h
  | call i actor => exact call_kept (by rw [hreq]; rfl) h
  | skip i seen actor => exact skip_kept (by rw [hreq]; rfl) h
  | remove i actor => exact remove_kept (by rw [hreq]; rfl) h

/-! ## Whole runs -/

section Runs

variable {rows : Rows schema} {next : Nat} {clock : Int} {c : Conf (machine schema outside Err) Response}

def serving (cfg : Config) (reqs : Tid → Request) (rows : Rows schema) (next : Nat) (clock : Int) :
    Conf (machine schema outside Err) Response :=
  staged (V := outside) () (fun t => (reqs t).code cfg) rows next clock

theorem serving_obeyed (h : Shelved rows next) : Cast.Obeyed lasting.shared (serving cfg reqs rows next clock) := by
  refine ⟨atRest_lawful h _, fun t p hp => ?_⟩
  cases hp
  exact ⟨false, nofun, uses_mono (fun l o ho => legal_verbs l o ho) (fun _ _ h => h)
    (within_request cfg (reqs t) false)⟩

theorem kept_runs (h : Shelved rows next) (hsound : (planOf rows).Sound)
    (hr : Conf.Reaches (serving cfg reqs rows next clock) c) : Kept reqs c.state.db ∧
      (∀ t r, c.threads t = some (.ret r) → Ended reqs t (.ok r) c.state) ∧
      ∀ t e, c.threads t = some (.raise e) → Ended reqs t (.error e) c.state := by
  have hI : (seating reqs).Inv (serving cfg reqs rows next clock).state := ⟨hsound, nofun⟩
  have hsafe : ∀ t p, (serving cfg reqs rows next clock).threads t = some p →
      (seating reqs).logic.Safe t p (Ended reqs t) (serving cfg reqs rows next clock).state := by
    intro t p hp
    cases hp
    refine safe_of_ensures (request_kept ⟨nofun, rfl⟩) fun x w w' hx hev _ _ => ?_
    cases x with
    | ok r =>
      intro hreq
      rw [hev.db.since.own]
      exact hx hreq
    | error e => exact Quiet.evolves hx hev.db
  obtain ⟨hsound', -⟩ := (seating reqs).runs (Q := Ended reqs) (serving_obeyed h) hI hsafe hr
  exact ⟨hsound'.inv.2, fun t r ht => hsound'.finished ht, fun t e ht => hsound'.raised ht⟩

theorem taken_once (hL : e.Lawful lasting.shared) (hkept : Kept reqs e) {m m' : Nat} {d d' : Commit schema}
    (hd : e.log[m]? = some d) (hd' : e.log[m']? = some d') (h : Takes d i) (h' : Takes d' i) : ¬m < m' := by
  intro hlt
  have hbefore : e.version m' = d'.before := by simp [Engine.version, hd']
  obtain ⟨k, c, -, -, hc, hnot, hwaits⟩ := hL.version_crossing (T := Table.tickets) (i := i)
    (P := fun x => x.bind QueueTicket.standing = some .waiting) hlt (List.getElem?_eq_some_iff.1 hd').1.le
    (by
      rw [hL.linked m d hd]
      intro hwaiting
      have hserves : (planOf d.after).ticket i = some .inService := h.2
      rw [show (planOf d.after).ticket i = some .waiting from hwaiting] at hserves
      cases hserves)
    (by
      rw [hbefore]
      exact h'.1)
  exact hnot ((hkept.deeds c (List.mem_of_getElem? hc)).step.waiting hwaits)

theorem serves_iff {R : Rows schema} : (planOf R).Serves a i ↔
    ∃ x : FittingRoomAssignment, R .assignments a = some x ∧ x.active = true ∧ x.queueTicketId = some i := by
  constructor
  · rintro ⟨s, hs, hticket⟩
    obtain ⟨x, hx, hseat⟩ := Option.bind_eq_some_iff.1 hs
    obtain ⟨hactive, rfl⟩ := seat_some hseat
    exact ⟨x, hx, hactive, hticket⟩
  · rintro ⟨x, hx, hactive, hticket⟩
    refine ⟨⟨x.fittingRoomId, x.queueTicketId⟩, ?_, hticket⟩
    simp [planOf, hx, seat_active hactive]

/-- **The account of the floor**: in every state of every run, a room and a staffer have one active assignment at most, no
active assignment is of a deleted room, and a ticket is in service exactly when one active assignment serves it; a
dispatch that succeeds has taken a ticket, no commit takes two, and no two commits take the same; and a verb that fails has
written nothing and has nothing in flight. -/
theorem floor_kept (h : Shelved rows next) (hsound : (planOf rows).Sound)
    (hr : Conf.Reaches (serving cfg reqs rows next clock) c) :
    (∀ a b (x y : FittingRoomAssignment), c.state.db.committed .assignments a = some x →
      c.state.db.committed .assignments b = some y → x.active = true → y.active = true →
      x.fittingRoomId = y.fittingRoomId ∨ x.staffUserId = y.staffUserId → a = b) ∧
    (∀ a (x : FittingRoomAssignment) (r : FittingRoom), c.state.db.committed .assignments a = some x → x.active = true →
      c.state.db.committed .rooms x.fittingRoomId = some r → r.deletedAt = none) ∧
    (∀ i (q : QueueTicket), c.state.db.committed .tickets i = some q → q.deletedAt = none →
      (q.status = .inService ↔ ∃! a, ∃ x : FittingRoomAssignment, c.state.db.committed .assignments a = some x ∧
        x.active = true ∧ x.queueTicketId = some i)) ∧
    (∀ t r, c.threads t = some (.ret r) → (reqs t).dispatching = true →
      ∃ d ∈ c.state.db.log, d.by_ = t ∧ ∃ i, Takes d i) ∧
    (∀ d ∈ c.state.db.log, ∀ i, Takes d i → (reqs d.by_).dispatching = true ∧ ∀ j, Takes d j → j = i) ∧
    (∀ (m m' : Nat) (d d' : Commit schema) i, c.state.db.log[m]? = some d → c.state.db.log[m']? = some d' →
      Takes d i → Takes d' i → m = m') ∧
    ∀ t e, c.threads t = some (.raise e) →
      (∀ d ∈ c.state.db.log, d.by_ = t → d.writes = fun _ _ => none) ∧ c.state.db.pending t = fun _ _ => none := by
  have hob : Cast.Obeyed lasting.shared (serving cfg reqs rows next clock) := serving_obeyed h
  have hL := (hob.steps hr).1.lawful
  obtain ⟨hkept, hfinished, hraised⟩ := kept_runs h hsound hr
  refine ⟨fun a b x y hx hy hactive hactive' hsame => ?_, fun a x r hx hactive hroom => ?_, fun i q hq hlive => ?_,
    fun t r ht hreq => ?_, fun d hd i hi => ⟨(hkept.deeds d hd).taken i hi, fun j hj => ?_⟩,
    fun m m' d d' i hd hd' hi hi' => ?_, fun t e ht => ?_⟩
  · by_contra hne
    have hapart : clash Table.assignments x y = false := hL.rows.apart Table.assignments a b x y hx hy hne
    have hclash : clash Table.assignments x y = true := by
      rcases hsame with hsame | hsame <;> simp [clash, hactive, hactive', hsame]
    rw [hclash] at hapart
    cases hapart
  · have hseat : (planOf c.state.db.committed).seated a = some ⟨x.fittingRoomId, x.queueTicketId⟩ := by
      simp [planOf, hx, seat_active hactive]
    have hopen := hkept.sound.isOpen a _ hseat
    simpa [planOf, hroom, FittingRoom.live] using hopen
  · have hlive : q.live = true := by simp [QueueTicket.live, hlive]
    have hticket : (planOf c.state.db.committed).ticket i = some q.status := by simp [planOf, hq, standing_live hlive]
    simp only [← serves_iff]
    refine ⟨fun hserving => hkept.sound.served i (by rw [hticket, hserving]), fun hserved => ?_⟩
    obtain ⟨a, ha, -⟩ := hserved
    by_contra hnot
    exact hkept.sound.unserved i _ hticket hnot a ha
  · obtain ⟨d, hd, htakes⟩ := hfinished t r ht hreq
    have hmem := List.mem_filter.1 hd
    exact ⟨d, hmem.1, by simpa using hmem.2, htakes⟩
  · by_contra hji
    have hother := ((hkept.deeds d hd).step.taken hi.1 hi.2).2 j hji
    rw [hj.1, hj.2] at hother
    cases hother
  · have hlt := taken_once hL hkept hd hd' hi hi'
    have hgt := taken_once hL hkept hd' hd hi' hi
    omega
  · have hquiet : Quiet t c.state.db := hraised t e ht
    exact ⟨fun d hd hby => hquiet.blank d (List.mem_filter.2 ⟨hd, by simpa using hby⟩), hquiet.pending⟩

end Runs

/-! ## Two managers and one customer -/

def oneWaiting : (T : Table) → List (Row T)
  | .rooms => [(⟨0, 0, none, "1", 0, true⟩ : FittingRoom), (⟨1, 0, none, "2", 0, true⟩ : FittingRoom)]
  | .tickets => [(⟨2, 0, none, 0, "Noa", "0501111111", "bride", .waiting, none, none, 0⟩ : QueueTicket)]
  | _ => []

theorem oneWaiting_shelved : Shelved (listed (S := schema) oneWaiting) 3 :=
  shelved_of_stocked [.rooms, .assignments, .tickets, .auditLog, .notifications] (fun T => by cases T <;> decide)
    (by decide)

theorem oneWaiting_sound : (planOf (listed (S := schema) oneWaiting)).Sound := by
  have hnobody : ∀ a, (planOf (listed (S := schema) oneWaiting)).seated a = none := fun _ => rfl
  refine ⟨fun a s hs => ?_, fun i hi => ?_, fun i st _ _ a ⟨s, hs, _⟩ => ?_⟩
  · rw [hnobody] at hs
    cases hs
  · obtain ⟨q, hq, hstanding⟩ := Option.bind_eq_some_iff.1 hi
    have hmem : q ∈ oneWaiting .tickets := List.mem_of_find?_eq_some hq
    simp only [oneWaiting, List.mem_singleton] at hmem
    subst hmem
    cases hstanding
  · rw [hnobody] at hs
    cases hs

def utc : Boutique.Zone where
  wallOf x := x
  instantOf x := x
  midnight_le x := Int.ediv_mul_le x Boutique.day_ne_zero
  lt_midnight x := Int.lt_ediv_add_one_mul_self x Boutique.day_pos

def twoManagers : Tid → Request := fun t => .takeNext t none ⟨10 + t, .shiftManager⟩

/-- The first takes the customer, and the second finds the queue empty. -/
theorem floor_kept_taken : ∃ c, (serving ⟨utc⟩ twoManagers (listed (S := schema) oneWaiting) 3 0).Reaches c ∧
    c.state.db.log.length = 1 ∧ (∃ d ∈ c.state.db.log, d.by_ = 0 ∧ ∃ i, Takes d i) ∧
    (∃ e, c.threads 1 = some (.raise e)) ∧ c.state.db.pending 1 = fun _ _ => none := by
  obtain ⟨c, hc, hP⟩ := Conf.reached_freely (serving ⟨utc⟩ twoManagers (listed (S := schema) oneWaiting) 3 0)
    (List.replicate 15 (.call 0 ⟨none, some "Maya", false, none⟩) ++
      List.replicate 6 (.call 1 ⟨none, some "Tamar", false, none⟩))
    (fun c => decide (c.state.db.log.length = 1) && c.returned 0 && (c.failure 1).isSome) (by decide)
  simp only [Bool.and_eq_true, decide_eq_true_eq] at hP
  obtain ⟨⟨hlog, hfirst⟩, hsecond⟩ := hP
  have hkept := floor_kept oneWaiting_shelved oneWaiting_sound hc
  refine ⟨c, hc, hlog, ?_, ?_⟩
  · obtain ⟨r, hr⟩ := Conf.returned_iff.1 hfirst
    exact hkept.2.2.2.1 0 r hr rfl
  · obtain ⟨e, he⟩ := Option.isSome_iff_exists.1 hsecond
    have he := Conf.failure_eq_some.1 he
    exact ⟨⟨e, he⟩, (hkept.2.2.2.2.2.2 1 e he).2⟩

end Floor
