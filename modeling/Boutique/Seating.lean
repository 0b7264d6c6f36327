import Boutique.Floor
import Mathlib.Logic.Function.Basic
/-!
# Seating — the floor as a plan of rooms, seats and tickets

What the floor is for, without its tables: which rooms are closed, who is seated where and for which ticket, and where
each ticket of the queue stands.  Every verb takes one step of the plan or none, and a sound plan stays sound.  Below the
plan stand the kinds of statement each verb writes with, and what becomes of a ticket under any of them.
-/
namespace Floor

open Txn Session Contract

structure Seat where
  room : Nat
  ticket : Option Nat

/-- **The plan**: the closed rooms, the seats by assignment, and the tickets that have not been deleted. -/
structure Plan where
  closed : Nat → Bool
  seated : Nat → Option Seat
  ticket : Nat → Option QueueTicketStatus

namespace Plan

def Serves (p : Plan) (a i : Nat) : Prop := ∃ s, p.seated a = some s ∧ s.ticket = some i

/-- **The steps of a plan.** -/
inductive Step (p : Plan) : Plan → Prop
  | idle : Step p p
  | seat (a : Nat) (s : Seat) (free : p.seated a = none) (isOpen : p.closed s.room = false) (anonymous : s.ticket = none) :
    Step p { p with seated := Function.update p.seated a (some s) }
  | dispatch (a i : Nat) (s : Seat) (free : p.seated a = none) (isOpen : p.closed s.room = false)
    (names : s.ticket = some i) (waits : p.ticket i = some .waiting) :
    Step p { p with
      seated := Function.update p.seated a (some s)
      ticket := Function.update p.ticket i (some .inService) }
  | leave (a : Nat) (s : Seat) (sits : p.seated a = some s) (gone : ∀ i, s.ticket = some i → p.ticket i = none) :
    Step p { p with seated := Function.update p.seated a none }
  | finish (a i : Nat) (s : Seat) (sits : p.seated a = some s) (names : s.ticket = some i)
    (serving : p.ticket i = some .inService) :
    Step p { p with
      seated := Function.update p.seated a none
      ticket := Function.update p.ticket i (some .done) }
  | tend (i : Nat) (st : QueueTicketStatus) (waits : p.ticket i = some .waiting) (apart : st ≠ .inService) :
    Step p { p with ticket := Function.update p.ticket i (some st) }
  | close (ρ : Nat) (empty : ∀ a s, p.seated a = some s → s.room ≠ ρ) :
    Step p { p with closed := Function.update p.closed ρ true }

/-- **A sound plan**: nobody sits in a closed room, a ticket in service is served by one assignment, and no other ticket
by any. -/
structure Sound (p : Plan) : Prop where
  isOpen : ∀ a s, p.seated a = some s → p.closed s.room = false
  served : ∀ i, p.ticket i = some .inService → ∃! a, p.Serves a i
  unserved : ∀ i st, p.ticket i = some st → st ≠ .inService → ∀ a, ¬p.Serves a i

variable {p q : Plan}

variable {i : Nat}

theorem serves_update {p' : Plan} {a b : Nat} {x : Option Seat} (h : p'.seated = Function.update p.seated a x) :
    p'.Serves b i ↔ if b = a then ∃ s, x = some s ∧ s.ticket = some i else p.Serves b i := by
  simp only [Serves, h]
  by_cases hb : b = a
  · simp [hb]
  · simp [hb]

theorem Sound.step (h : p.Sound) (hs : p.Step q) : q.Sound := by
  cases hs with
  | idle => exact h
  | seat a s free isOpen anonymous =>
    have hserves : ∀ b i, ({ p with seated := Function.update p.seated a (some s) } : Plan).Serves b i ↔ p.Serves b i := by
      intro b i
      rw [serves_update rfl]
      by_cases hb : b = a
      · subst hb
        simp [anonymous, Serves, free]
      · simp [hb]
    refine ⟨fun b s' hb => ?_, fun i hi => ?_, fun i st hi hst b => ?_⟩
    · by_cases hba : b = a
      · subst hba
        rw [show s' = s by simpa using hb.symm]
        exact isOpen
      · exact h.isOpen b s' (by simpa [hba] using hb)
    · simpa only [hserves] using h.served i hi
    · rw [hserves]
      exact h.unserved i st hi hst b
  | dispatch a i s free isOpen names waits =>
    have hserves : ∀ b j, ({ p with seated := Function.update p.seated a (some s)
                                    ticket := Function.update p.ticket i (some .inService) } : Plan).Serves b j ↔
        if b = a then i = j else p.Serves b j := by
      intro b j
      rw [serves_update rfl]
      simp [names]
    refine ⟨fun b s' hb => ?_, fun j hj => ?_, fun j st hj hst b => ?_⟩
    · by_cases hba : b = a
      · subst hba
        rw [show s' = s by simpa using hb.symm]
        exact isOpen
      · exact h.isOpen b s' (by simpa [hba] using hb)
    · by_cases hji : j = i
      · subst hji
        refine ⟨a, (hserves a j).2 (by simp), fun b hb => ?_⟩
        by_contra hba
        have hb := (hserves b j).1 hb
        rw [if_neg hba] at hb
        exact h.unserved j _ waits nofun b hb
      · obtain ⟨b, hb, honly⟩ := h.served j (by simpa [hji] using hj)
        have hba : b ≠ a := by
          rintro rfl
          simp [Serves, free] at hb
        refine ⟨b, (hserves b j).2 (by simpa [hba] using hb), fun b' hb' => ?_⟩
        have hb' := (hserves b' j).1 hb'
        by_cases hb'a : b' = a
        · rw [if_pos hb'a] at hb'
          exact absurd hb'.symm hji
        · rw [if_neg hb'a] at hb'
          exact honly b' hb'
    · have hji : j ≠ i := by
        rintro rfl
        rw [show st = .inService by simpa using hj.symm] at hst
        exact hst rfl
      rw [hserves]
      by_cases hba : b = a
      · simpa [hba] using Ne.symm hji
      · rw [if_neg hba]
        exact h.unserved j st (by simpa [hji] using hj) hst b
  | leave a s sits gone =>
    have hserves : ∀ b i, ({ p with seated := Function.update p.seated a none } : Plan).Serves b i ↔
        b ≠ a ∧ p.Serves b i := by
      intro b i
      rw [serves_update rfl]
      by_cases hb : b = a <;> simp [hb]
    refine ⟨fun b s' hb => ?_, fun i hi => ?_, fun i st hi hst b hb => ?_⟩
    · by_cases hba : b = a
      · subst hba
        simp at hb
      · exact h.isOpen b s' (by simpa [hba] using hb)
    · obtain ⟨b, hb, honly⟩ := h.served i hi
      refine ⟨b, (hserves b i).2 ⟨?_, hb⟩, fun b' hb' => honly b' ((hserves b' i).1 hb').2⟩
      rintro rfl
      obtain ⟨s', hs', hticket⟩ := hb
      rw [sits] at hs'
      cases hs'
      have hi : p.ticket i = some .inService := hi
      rw [gone i hticket] at hi
      cases hi
    · exact h.unserved i st hi hst b ((hserves b i).1 hb).2
  | finish a i s sits names serving =>
    have hserves : ∀ b j, ({ p with seated := Function.update p.seated a none
                                    ticket := Function.update p.ticket i (some .done) } : Plan).Serves b j ↔
        b ≠ a ∧ p.Serves b j := by
      intro b j
      rw [serves_update rfl]
      by_cases hb : b = a <;> simp [hb]
    refine ⟨fun b s' hb => ?_, fun j hj => ?_, fun j st hj hst b hb => ?_⟩
    · by_cases hba : b = a
      · subst hba
        simp at hb
      · exact h.isOpen b s' (by simpa [hba] using hb)
    · have hji : j ≠ i := by
        rintro rfl
        simp at hj
      obtain ⟨b, hb, honly⟩ := h.served j (by simpa [hji] using hj)
      refine ⟨b, (hserves b j).2 ⟨?_, hb⟩, fun b' hb' => honly b' ((hserves b' j).1 hb').2⟩
      rintro rfl
      obtain ⟨s', hs', hticket⟩ := hb
      rw [sits] at hs'
      cases hs'
      rw [names] at hticket
      exact hji (Option.some.inj hticket).symm
    · obtain ⟨hba, hbefore⟩ := (hserves b j).1 hb
      by_cases hji : j = i
      · subst hji
        exact hba ((h.served j serving).unique hbefore ⟨s, sits, names⟩)
      · exact h.unserved j st (by simpa [hji] using hj) hst b hbefore
  | tend i st waits apart =>
    refine ⟨h.isOpen, fun j hj => ?_, fun j st' hj hst b => ?_⟩
    · have hji : j ≠ i := by
        rintro rfl
        exact apart (by simpa using hj)
      exact h.served j (by simpa [hji] using hj)
    · by_cases hji : j = i
      · subst hji
        exact h.unserved j _ waits nofun b
      · exact h.unserved j st' (by simpa [hji] using hj) hst b
  | close ρ empty =>
    refine ⟨fun a s hs => ?_, h.served, h.unserved⟩
    have hroom : s.room ≠ ρ := empty a s hs
    simpa [hroom] using h.isOpen a s hs

theorem Step.waiting (hs : p.Step q) (h : q.ticket i = some .waiting) : p.ticket i = some .waiting := by
  cases hs with
  | idle | seat | leave | close => exact h
  | dispatch a j s free isOpen names waits =>
    by_cases hij : i = j
    · subst hij
      exact waits
    · simpa [hij] using h
  | finish a j s sits names serving =>
    by_cases hij : i = j
    · subst hij
      simp at h
    · simpa [hij] using h
  | tend j st waits apart =>
    by_cases hij : i = j
    · subst hij
      exact waits
    · simpa [hij] using h

theorem Step.taken (hs : p.Step q) (h : p.ticket i = some .waiting) (h' : q.ticket i = some .inService) :
    (∃ a s, p.seated a = none ∧ q.seated = Function.update p.seated a (some s) ∧ s.ticket = some i) ∧
      ∀ j, j ≠ i → q.ticket j = p.ticket j := by
  have hne : q.ticket i ≠ p.ticket i := by simp [h, h']
  cases hs with
  | idle | seat | leave | close => exact absurd rfl hne
  | dispatch a j s free isOpen names waits =>
    have hij : i = j := by
      by_contra hij
      exact hne (by simp [hij])
    subst hij
    exact ⟨⟨a, s, free, rfl, names⟩, fun k hk => by simp [hk]⟩
  | finish a j s sits names serving =>
    have hij : i = j := by
      by_contra hij
      exact hne (by simp [hij])
    subst hij
    simp at h'
  | tend j st waits apart =>
    have hij : i = j := by
      by_contra hij
      exact hne (by simp [hij])
    subst hij
    exact absurd (by simpa using h') apart

end Plan

/-! ## The plan of the tables -/

def FittingRoomAssignment.seat (a : FittingRoomAssignment) : Option Seat :=
  if a.active then some ⟨a.fittingRoomId, a.queueTicketId⟩ else none

def QueueTicket.standing (q : QueueTicket) : Option QueueTicketStatus := if q.live then some q.status else none

/-- **The plan the tables draw.** -/
def planOf (rows : Rows schema) : Plan where
  closed ρ := (rows .rooms ρ).any fun (r : FittingRoom) => !r.live
  seated a := (rows .assignments a).bind FittingRoomAssignment.seat
  ticket i := (rows .tickets i).bind QueueTicket.standing

variable {x : FittingRoomAssignment} {o : Op schema outside} {α : Type}

theorem seat_active (h : x.active = true) : x.seat = some ⟨x.fittingRoomId, x.queueTicketId⟩ :=
  if_pos h

theorem seat_inactive (h : x.active = false) : x.seat = none := by
  simp [FittingRoomAssignment.seat, h]

theorem seat_some {s : Seat} (h : x.seat = some s) : x.active = true ∧ s = ⟨x.fittingRoomId, x.queueTicketId⟩ := by
  unfold FittingRoomAssignment.seat at h
  split at h
  · exact ⟨‹_›, (Option.some.inj h).symm⟩
  · cases h

theorem standing_live {q : QueueTicket} (h : q.live = true) : q.standing = some q.status := if_pos h

theorem waiting_live {q : QueueTicket} (h : q.waiting = true) : q.live = true ∧ q.status = .waiting := by
  simpa [QueueTicket.waiting] using h

theorem standing_waiting {q : QueueTicket} (h : q.waiting = true) : q.standing = some .waiting := by
  rw [standing_live (waiting_live h).1, (waiting_live h).2]

/-! ## What a ticket keeps -/

def lastsIn : (T : Table) → Row T → Row T → Prop
  | .tickets, (q : QueueTicket), (r : QueueTicket) => r.live = q.live
  | _, _, _ => True

abbrev lasting : Discipline schema where
  Trans _ T v r := lastsIn T v r
  New _ T _ := T ≠ .tickets
  refl _ T v := by cases T <;> trivial
  trans _ T a b c hab hbc := by
    cases T with
    | tickets => exact Eq.trans hbc hab
    | rooms | assignments | auditLog | notifications => trivial
  weaken _ _ _ h := h
  new_trans _ _ _ _ h _ := h
  new_weaken _ _ h := h

theorem live_apply {g : TicketChange} {q r : QueueTicket} (h : TicketChange.apply q g = some r) : r.live = q.live := by
  rcases g with _ | _ | _ | _ | _ | _ <;> simp only [TicketChange.apply] at h
  all_goals (split at h <;> cases h)
  all_goals rfl

/-! ## Footprints -/

inductive Kind
  | session | room | assignment | ticket | newTicket | note
deriving DecidableEq

def kind : Op schema outside → Option Kind
  | .sql .begin | .sql .commit | .sql .abort => some .session
  | .sql (.insert .rooms _) | .sql (.update .rooms _ _) => some .room
  | .sql (.insert .assignments _) | .sql (.update .assignments _ _) => some .assignment
  | .sql (.update .tickets _ _) => some .ticket
  | .sql (.insert .tickets _) => some .newTicket
  | .sql (.insert .auditLog _) | .sql (.insert .notifications _) => some .note
  | _ => none

def Among (ks : List Kind) (o : Op schema outside) : Prop := ∀ k, kind o = some k → k ∈ ks

variable {ks : List Kind}

theorem among_none (h : kind o = none) : Among ks o := fun k hk => by rw [h] at hk; cases hk

theorem among_kind {k : Kind} (h : kind o = some k) (hk : k ∈ ks) : Among ks o := by
  intro k' hk'
  rw [h] at hk'
  cases hk'
  exact hk

theorem within_scalar {P : Op schema outside → Prop} (rows : List α) : Only P (scalarOneOrNone rows) := by
  unfold scalarOneOrNone
  split
  · exact only_ret _
  · exact only_ret _
  · exact only_raise _

theorem within_ask (q : Ask) : Only (Among ks) (ask q) := only_ask (among_none rfl)

theorem within_select (q : Query) (f : Snapshot schema → α) : Only (Among ks) (select q f : Prg α) :=
  only_select (among_none rfl) f

theorem within_activeWhere (q : Query) (p : FittingRoomAssignment → Bool) :
    Only (Among ks) (Assignments.activeWhere q p) :=
  only_bind (within_select q _) fun _ => within_scalar _

theorem within_today (cfg : Config) : Only (Among ks) (today cfg) :=
  only_bind (only_now (among_none rfl)) fun _ => only_ret _

theorem within_waitlist (cfg : Config) : Only (Among ks) (waitlist cfg) :=
  only_bind (within_today cfg) fun _ => only_bind (within_select _ _) fun _ => only_bind (within_select _ _) fun _ =>
    only_ret _

theorem within_clientLabel (bookingId : Option Nat) (name : Option String) : Only (Among ks) (clientLabel bookingId name) := by
  unfold clientLabel
  split
  · exact only_ret _
  · exact only_bind (within_ask _) fun _ => only_ret _

theorem within_roomRead (roomId : Nat) : Only (Among ks) (roomRead roomId) := by
  refine only_bind (within_select _ _) fun _ => only_bind (only_orRaise _ _) fun found => ?_
  obtain ⟨r, occupant⟩ := found
  cases occupant with
  | none => exact only_ret _
  | some a => exact only_bind (within_ask _) fun _ => only_bind (within_clientLabel _ _) fun _ => only_ret _

theorem within_dispatchRead (cfg : Config) (roomId : Nat) : Only (Among ks) (dispatchRead cfg roomId) :=
  only_bind (within_roomRead roomId) fun _ => only_bind (within_waitlist cfg) fun _ => only_ret _

theorem within_occupantDetails (occupant : Option FittingRoomAssignment) : Only (Among ks) (occupantDetails occupant) := by
  cases occupant with
  | none => exact only_ret _
  | some a => exact within_ask _

theorem within_heldRoomDetails (staffId : Nat) : Only (Among ks) (heldRoomDetails staffId) := by
  refine only_bind (within_activeWhere _ _) fun held => ?_
  cases held with
  | none => exact only_ret _
  | some a => exact only_bind (within_select _ _) fun _ => only_ret _

theorem within_record (h : .note ∈ ks) (actorId entity : Nat) (action : AuditAction) :
    Only (Among ks) (record actorId entity action) :=
  only_bind (only_insert (among_kind rfl h) _) fun _ => only_ret _

theorem within_notifyOther (h : .note ∈ ks) (staffId actorId : Nat) (k : StaffNotificationKind) (entityId : Nat) :
    Only (Among ks) (notifyOther staffId actorId k entityId) := by
  unfold notifyOther
  split
  · exact only_bind (only_insert (among_kind rfl h) _) fun _ => only_ret _
  · exact only_ret _

theorem within_authorize (staffId : Nat) (actor : StaffContext) : Only (Among ks) (authorize staffId actor) :=
  only_raiseIf _ _

theorem within_isClaimable (cfg : Config) (booking : Booking) : Only (Among ks) (isClaimable cfg booking) := by
  unfold isClaimable
  split
  · exact only_ret _
  · exact only_bind (within_today cfg) fun _ => only_ret _

theorem within_checkBooking (cfg : Config) (bookingId : Option Nat) : Only (Among ks) (checkBooking cfg bookingId) := by
  cases bookingId with
  | none => exact only_ret _
  | some b =>
    exact only_bind (within_ask _) fun _ => only_bind (only_orRaise _ _) fun _ =>
      only_bind (within_isClaimable cfg _) fun _ => only_raiseIf _ _

theorem within_resolveClaimConflict (roomId staffId : Nat) : Only (Among ks) (resolveClaimConflict roomId staffId) := by
  refine only_bind (within_activeWhere _ _) fun existing => ?_
  cases existing with
  | some a => exact only_bind (within_roomRead _) fun _ => only_ret _
  | none =>
    refine only_bind (within_ask _) fun constraint => ?_
    split
    · exact only_bind (within_activeWhere _ _) fun _ => only_bind (within_occupantDetails _) fun _ => only_raise _
    · exact only_bind (within_heldRoomDetails _) fun _ => only_raise _
    · exact only_raise _

theorem within_ticketRefusal (ticketId : Nat) : Only (Among ks) (ticketRefusal ticketId) :=
  only_bind (within_select _ _) fun _ => only_bind (only_orRaise _ _) fun _ => only_bind (only_raiseIf _ _) fun _ =>
    only_ret _

theorem within_occupiedError (hs : .session ∈ ks) (roomId staffId : Nat) : Only (Among ks) (occupiedError roomId staffId) := by
  refine only_bind (only_tenantSession (among_kind rfl hs) (among_kind rfl hs) (among_kind rfl hs) fun _ => ?_)
    fun named => ?_
  · refine only_bind (within_activeWhere _ _) fun occupant => ?_
    cases occupant with
    | some a => exact only_bind (within_occupantDetails _) fun _ => only_ret _
    | none =>
      refine only_bind (within_activeWhere _ _) fun held => ?_
      cases held with
      | some a => exact only_bind (within_heldRoomDetails _) fun _ => only_ret _
      | none => exact only_ret _
  · cases named with
    | some e => exact only_ret _
    | none =>
      refine only_bind (within_ask _) fun constraint => ?_
      cases constraint <;> exact only_ret _

theorem within_session {body : Int → Prg α} (hs : .session ∈ ks) (h : ∀ n, Only (Among ks) (body n)) :
    Only (Among ks) (tenantSession body : Prg α) :=
  only_tenantSession (among_kind rfl hs) (among_kind rfl hs) (among_kind rfl hs) h

theorem within_unlessRefused {p : Prg α} (h : Only (Among ks) p) : Only (Among ks) (unlessRefused p) := by
  refine only_bind (only_attempt h) fun x => ?_
  split
  · exact only_ret _
  · exact only_ret _
  · exact only_raise _

theorem within_lockRoom (hr : .room ∈ ks) (roomId : Nat) : Only (Among ks) (lockRoom roomId) :=
  only_bind (only_update (among_kind rfl hr) _) fun _ => only_bind (only_orRaise _ _) fun _ =>
    only_bind (only_raiseIf _ _) fun _ => only_ret _

def verbs : List Kind := [.session, .room, .assignment, .ticket, .note]

theorem within_assignment (hr : .assignment ∈ ks) (roomId staffId : Nat) (bookingId ticketId : Option Nat) :
    Only (Among ks) (Assignments.claim roomId staffId bookingId ticketId) := only_insert (among_kind rfl hr) _

theorem within_ticket (ht : .ticket ∈ ks) (i : Nat) (g : TicketChange) : Only (Among ks) (update .tickets i g) :=
  only_update (among_kind rfl ht) _

theorem within_takeHead (ht : .ticket ∈ ks) (day : Int) : ∀ is, Only (Among ks) (Tickets.takeHead day is)
  | [] => only_ret _
  | i :: is => by
    refine only_bind (within_ask _) fun locked => ?_
    split
    · exact within_takeHead ht day is
    · refine only_bind (within_ticket ht i _) fun taken => ?_
      split
      · exact only_ret _
      · exact within_takeHead ht day is

theorem within_takeNextTicket (ht : .ticket ∈ ks) (cfg : Config) : Only (Among ks) (takeNextTicket cfg) :=
  only_bind (within_today cfg) fun _ => only_bind (only_bind (within_select _ _) fun _ => within_takeHead ht _ _) fun _ =>
    only_orRaise _ _

theorem within_takeNamedTicket (ht : .ticket ∈ ks) (ticketId : Nat) : Only (Among ks) (takeNamedTicket ticketId) := by
  refine only_bind (within_ticket ht _ _) fun ticket => ?_
  cases ticket with
  | some q => exact only_ret _
  | none => exact only_bind (within_ticketRefusal _) fun _ => only_raise _

/-- The kinds of statement of a verb that leaves the tickets alone. -/
structure Roomy (ks : List Kind) : Prop where
  session : .session ∈ ks
  room : .room ∈ ks
  assignment : .assignment ∈ ks
  note : .note ∈ ks

theorem roomy_verbs : Roomy verbs := ⟨by decide, by decide, by decide, by decide⟩

theorem within_claim (h : Roomy ks) (cfg : Config) (roomId : Nat) (staffUserId bookingId : Option Nat)
    (actor : StaffContext) : Only (Among ks) (claim cfg roomId staffUserId bookingId actor) := by
  refine only_bind (within_authorize _ _) fun _ => within_session h.session fun _ =>
    only_bind (within_lockRoom h.room _) fun _ => only_bind (within_checkBooking _ _) fun _ =>
    only_bind (within_unlessRefused (within_assignment h.assignment _ _ _ _)) fun inserted => ?_
  cases inserted with
  | none => exact within_resolveClaimConflict _ _
  | some a => exact only_bind (within_record h.note _ _ _) fun _ => only_bind (within_roomRead _) fun _ => only_ret _

theorem within_dispatch {cfg : Config} {roomId : Nat} {staffUserId : Option Nat} {actor : StaffContext}
    {mode : DispatchMode} {takeTicket : Prg QueueTicket} (h : Only (Among verbs) takeTicket) :
    Only (Among verbs) (dispatch cfg roomId staffUserId actor mode takeTicket) := by
  refine only_bind (within_authorize _ _) fun _ => only_bind (only_attempt (within_session (by decide) fun _ => ?_))
    fun result => ?_
  · refine only_bind (within_lockRoom (by decide) _) fun _ => only_bind (within_activeWhere _ _) fun occupant => ?_
    cases occupant with
    | some a => exact only_bind (within_occupantDetails _) fun _ => only_raise _
    | none =>
      exact only_bind h fun _ => only_bind (within_assignment (by decide) _ _ _ _) fun _ =>
        only_bind (within_record (by decide) _ _ _) fun _ => only_bind (within_notifyOther (by decide) _ _ _ _) fun _ =>
        within_dispatchRead _ _
  · split
    · exact only_ret _
    · exact only_bind (within_occupiedError (by decide) _ _) fun _ => only_raise _
    · exact only_raise _

theorem within_release (assignmentId : Nat) (actor : StaffContext) : Only (Among verbs) (release assignmentId actor) := by
  refine only_bind (only_now (among_none rfl)) fun _ => within_session (by decide) fun _ =>
    only_bind (within_select _ _) fun _ => only_bind (only_orRaise _ _) fun _ => only_bind (only_raiseIf _ _) fun _ =>
    only_bind (only_bind (only_update (among_kind rfl (by decide)) _) fun _ => only_bind (within_select _ _) fun _ =>
      only_ret _) fun released => only_bind (only_orRaise _ _) fun row => ?_
  split
  · refine only_bind ?_ fun _ => only_bind (within_record (by decide) _ _ _) fun _ =>
      only_bind (within_roomRead _) fun _ => only_ret _
    cases row.queueTicketId with
    | none => exact only_ret _
    | some i => exact only_bind (only_bind (within_ticket (by decide) _ _) fun _ => only_ret _) fun _ => only_ret _
  · exact only_bind (within_roomRead _) fun _ => only_ret _

theorem within_handover (h : Roomy ks) (assignmentId newStaffId : Nat) (actor : StaffContext) :
    Only (Among ks) (handover assignmentId newStaffId actor) := by
  refine within_session h.session fun _ => only_bind (within_select _ _) fun _ =>
    only_bind (within_unlessRefused (only_bind (only_update (among_kind rfl h.assignment) _) fun wrote => ?_))
      fun handed => ?_
  · split
    · exact only_ret _
    · exact only_bind (within_select _ _) fun _ => only_ret _
  · cases handed with
    | none =>
      refine only_bind (within_ask _) fun constraint => ?_
      split
      · exact only_bind (within_heldRoomDetails _) fun _ => only_raise _
      · exact only_raise _
    | some p =>
      exact only_bind (only_raiseIf _ _) fun _ => only_bind (only_orRaise _ _) fun _ =>
        only_bind (within_record h.note _ _ _) fun _ => only_bind (within_notifyOther h.note _ _ _ _) fun _ =>
        only_bind (within_roomRead _) fun _ => only_ret _

theorem within_updateRoom (h : Roomy ks) (roomId : Nat) (label : Option String) (sortOrder : Option Int)
    (isActive : Option Bool) : Only (Among ks) (updateRoom roomId label sortOrder isActive) := by
  unfold updateRoom
  split
  · exact only_raise _
  refine within_session h.session fun _ => only_bind (only_bind (within_select _ _) fun room => ?_) fun _ =>
    only_bind (only_orRaise _ _) fun _ => only_bind (within_roomRead _) fun _ => only_ret _
  cases room with
  | none => exact only_ret _
  | some r =>
    dsimp only
    split
    · exact only_bind (only_update (among_kind rfl h.room) _) fun _ => only_bind (only_raiseIf _ _) fun _ =>
        within_select _ _
    · exact within_select _ _

theorem within_deleteRoom (h : Roomy ks) (roomId : Nat) (actor : StaffContext) :
    Only (Among ks) (deleteRoom roomId actor) := by
  refine within_session h.session fun _ => only_bind (only_update (among_kind rfl h.room) _) fun _ =>
    only_bind (only_orRaise _ _) fun _ => only_bind (within_select _ _) fun occupied => ?_
  split
  · exact only_bind (within_activeWhere _ _) fun _ => only_bind (within_occupantDetails _) fun _ => only_raise _
  · exact only_bind (only_bind (only_update (among_kind rfl h.room) _) fun _ => only_ret _) fun _ =>
      only_bind (within_record h.note _ _ _) fun _ => only_ret _

theorem within_call (cfg : Config) (ticketId : Nat) (actor : StaffContext) :
    Only (Among verbs) (call cfg ticketId actor) := by
  refine only_bind (only_now (among_none rfl)) fun _ => within_session (by decide) fun _ =>
    only_bind (within_ticket (by decide) _ _) fun row => ?_
  cases row with
  | none => exact only_bind (within_ticketRefusal _) fun _ => only_bind (within_waitlist _) fun _ => only_ret _
  | some q => exact only_bind (within_record (by decide) _ _ _) fun _ => only_bind (within_waitlist _) fun _ => only_ret _

theorem within_skip (cfg : Config) (ticketId : Nat) (seen : Int) (actor : StaffContext) :
    Only (Among verbs) (skip cfg ticketId seen actor) := by
  refine only_bind (only_now (among_none rfl)) fun _ => within_session (by decide) fun _ =>
    only_bind (within_ticket (by decide) _ _) fun row => ?_
  cases row with
  | none => exact only_bind (within_ticketRefusal _) fun _ => only_raise _
  | some q => exact only_bind (within_record (by decide) _ _ _) fun _ => only_bind (within_waitlist _) fun _ => only_ret _

theorem within_remove (cfg : Config) (ticketId : Nat) (actor : StaffContext) :
    Only (Among verbs) (remove cfg ticketId actor) := by
  refine within_session (by decide) fun _ =>
    only_bind (only_bind (within_ticket (by decide) _ _) fun _ => only_ret _) fun removed => ?_
  split
  · exact only_bind (within_ticketRefusal _) fun _ => only_raise _
  · exact only_bind (within_record (by decide) _ _ _) fun _ => only_bind (within_waitlist _) fun _ => only_ret _

theorem within_request (cfg : Config) (req : Request) : Only (Among verbs) (req.code cfg) := by
  cases req with
  | claim roomId staffUserId bookingId actor => exact within_claim roomy_verbs cfg roomId staffUserId bookingId actor
  | takeNext roomId staffUserId actor => exact within_dispatch (within_takeNextTicket (by decide) cfg)
  | assign roomId ticketId staffUserId actor => exact within_dispatch (within_takeNamedTicket (by decide) ticketId)
  | release assignmentId actor => exact within_release assignmentId actor
  | handover assignmentId newStaffId actor => exact within_handover roomy_verbs assignmentId newStaffId actor
  | updateRoom roomId label sortOrder isActive => exact within_updateRoom roomy_verbs roomId label sortOrder isActive
  | deleteRoom roomId actor => exact within_deleteRoom roomy_verbs roomId actor
  | call ticketId actor => exact within_call cfg ticketId actor
  | skip ticketId seen actor => exact within_skip cfg ticketId seen actor
  | remove ticketId actor => exact within_remove cfg ticketId actor

theorem legal_verbs (l : Bool) (o : Op schema outside) (h : Among verbs o) : lasting.Legal l o := by
  cases o with
  | sql o =>
    cases o with
    | update T i g =>
      intro v r _ hr
      cases T with
      | tickets => exact live_apply hr
      | rooms | assignments | auditLog | notifications => trivial
    | insert T r =>
      intro i n hT
      subst hT
      exact absurd (h .newTicket rfl) (by decide)
    | _ => trivial
  | now | ask => trivial

end Floor
