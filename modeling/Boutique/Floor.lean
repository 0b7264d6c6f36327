import Boutique.Slots
import Boutique.TxnSession
import Boutique.Validation
import Mathlib.Data.List.Sort
/-!
# Floor — the fitting rooms, who is in them, and the queue they are filled from

A claim puts a staffer in a room; a dispatch also takes a ticket out of the queue, the head or one that is named, in the
same transaction; a release frees the room and closes the ticket.  `FOR UPDATE` on a room writes the row as it stands.
The staff, the bookings and the customers are read from outside.
-/
namespace Floor

open Txn Session
open Boutique (Zone)

/-! ## The tables -/

structure FittingRoom where
  id : Nat
  createdAt : Int
  deletedAt : Option Int
  label : String
  sortOrder : Int
  isActive : Bool
deriving DecidableEq

structure FittingRoomAssignment where
  id : Nat
  createdAt : Int
  deletedAt : Option Int
  fittingRoomId : Nat
  staffUserId : Nat
  bookingId : Option Nat
  queueTicketId : Option Nat
  releasedAt : Option Int
deriving DecidableEq

inductive QueueTicketStatus
  | waiting | inService | done | removed
deriving DecidableEq

structure QueueTicket where
  id : Nat
  createdAt : Int
  deletedAt : Option Int
  queueDay : Int
  name : String
  phone : String
  visitType : String
  status : QueueTicketStatus
  calledAt : Option Int
  requeuedAt : Option Int
  skipCount : Int
deriving DecidableEq

inductive DispatchMode
  | takeNext | assign
deriving DecidableEq

/-- What the floor records, with the details of each action. -/
inductive AuditAction
  | fittingRoomClaimed (room assignment staff : Nat) (booking : Option Nat)
  | queueTicketDispatched (ticket room assignment staff : Nat) (mode : DispatchMode)
  | queueTicketCalled (ticket : Nat) (calledAt : Option Int)
  | queueTicketSkipped (ticket : Nat) (skipCount : Int) (status : QueueTicketStatus)
  | queueTicketRemoved (ticket : Nat)
  | fittingRoomReleased (room assignment staff : Nat) (queueTicket : Option Nat)
  | fittingRoomHandedOver (assignment : Nat) (from_ : Option Nat) (to_ : Nat)
  | fittingRoomDeleted (room : Nat) (label : String)
deriving DecidableEq

structure AuditLog where
  id : Nat
  createdAt : Int
  actorId : Nat
  entity : Nat
  action : AuditAction
deriving DecidableEq

inductive StaffNotificationKind
  | dispatchAssigned | roomHandedOver
deriving DecidableEq

structure StaffNotification where
  id : Nat
  createdAt : Int
  staffUserId : Nat
  actorStaffUserId : Nat
  kind : StaffNotificationKind
  entityId : Nat
deriving DecidableEq

inductive Table
  | rooms | assignments | tickets | auditLog | notifications
deriving DecidableEq

abbrev Row : Table → Type
  | .rooms => FittingRoom
  | .assignments => FittingRoomAssignment
  | .tickets => QueueTicket
  | .auditLog => AuditLog
  | .notifications => StaffNotification

def rowId : (T : Table) → Row T → Nat
  | .rooms, (r : FittingRoom) => r.id
  | .assignments, (r : FittingRoomAssignment) => r.id
  | .tickets, (r : QueueTicket) => r.id
  | .auditLog, (r : AuditLog) => r.id
  | .notifications, (r : StaffNotification) => r.id

def stamp : (T : Table) → Nat → Int → Row T → Row T
  | .rooms, i, n, (r : FittingRoom) => { r with id := i, createdAt := n }
  | .assignments, i, n, (r : FittingRoomAssignment) => { r with id := i, createdAt := n }
  | .tickets, i, n, (r : QueueTicket) => { r with id := i, createdAt := n }
  | .auditLog, i, n, (r : AuditLog) => { r with id := i, createdAt := n }
  | .notifications, i, n, (r : StaffNotification) => { r with id := i, createdAt := n }

/-! ## The UPDATEs -/

inductive RoomChange
  | forUpdate
  | flush (label : Option String) (sortOrder : Option Int) (isActive : Option Bool)
  | softDelete (now : Int)

inductive AssignmentChange
  | release (at_ : Int)
  | handover (newStaffId : Nat)

inductive TicketChange
  | claimNext (day : Int)
  | claimById
  | close
  | skip (now : Int) (seenSkipCount : Int)
  | call (now : Int)
  | remove

abbrev Change : Table → Type
  | .rooms => RoomChange
  | .assignments => AssignmentChange
  | .tickets => TicketChange
  | .auditLog | .notifications => Empty

def SKIP_LIMIT : Int := 2
def WAITLIST_LIMIT : Nat := 100
def MAX_ROOM_LABEL_LENGTH : Nat := 40

def FittingRoom.live (r : FittingRoom) : Bool := r.deletedAt = none

def FittingRoomAssignment.active (a : FittingRoomAssignment) : Bool := a.releasedAt = none ∧ a.deletedAt = none

def QueueTicket.live (q : QueueTicket) : Bool := q.deletedAt = none

def QueueTicket.waiting (q : QueueTicket) : Bool := q.live ∧ q.status = .waiting

def liveWaiting (day : Int) (q : QueueTicket) : Bool := q.queueDay = day ∧ q.waiting

def sortKey (q : QueueTicket) : Int := q.requeuedAt.getD q.createdAt

def RoomChange.apply (r : FittingRoom) : RoomChange → Option FittingRoom
  | .forUpdate => if r.live then some r else none
  -- an ORM flush: by primary key, whatever has become of the row
  | .flush label sortOrder isActive => some { r with
      label := label.getD r.label
      sortOrder := sortOrder.getD r.sortOrder
      isActive := isActive.getD r.isActive }
  | .softDelete now => if r.live then some { r with deletedAt := some now } else none

def AssignmentChange.apply (a : FittingRoomAssignment) : AssignmentChange → Option FittingRoomAssignment
  | .release at_ => if a.active then some { a with releasedAt := some at_ } else none
  | .handover newStaffId => if a.active then some { a with staffUserId := newStaffId } else none

/-- A skip's CASE reads the count it found. -/
def TicketChange.apply (q : QueueTicket) : TicketChange → Option QueueTicket
  | .claimNext day => if liveWaiting day q then some { q with status := .inService } else none
  | .claimById => if q.waiting then some { q with status := .inService } else none
  | .close => if q.status = .inService ∧ q.live then some { q with status := .done } else none
  | .skip now seenSkipCount =>
    if q.waiting ∧ q.skipCount = seenSkipCount then
      some { q with
        requeuedAt := some now
        calledAt := none
        skipCount := q.skipCount + 1
        status := if SKIP_LIMIT ≤ q.skipCount + 1 then .removed else .waiting }
    else none
  | .call now => if q.waiting ∧ q.calledAt = none then some { q with calledAt := some now } else none
  | .remove => if q.waiting then some { q with status := .removed } else none

def applyChange : (T : Table) → Change T → Row T → Option (Row T)
  | .rooms, g, (r : FittingRoom) => RoomChange.apply r g
  | .assignments, g, (a : FittingRoomAssignment) => AssignmentChange.apply a g
  | .tickets, g, (q : QueueTicket) => TicketChange.apply q g

def check : (T : Table) → Row T → Bool
  | .tickets, (q : QueueTicket) => 0 ≤ q.skipCount
  | _, _ => true

def clash : (T : Table) → Row T → Row T → Bool
  | .assignments, (a : FittingRoomAssignment), (b : FittingRoomAssignment) =>
    -- idx_fitting_room_assignments_room_active and idx_fitting_room_assignments_staff_active
    a.active && b.active && (a.fittingRoomId = b.fittingRoomId || a.staffUserId = b.staffUserId)
  | _, _, _ => false

inductive Query
  | roomById | roomRefresh | roomWithOccupancy | assignmentById | activeFor | occupantOfRoom | roomOfStaff
  | hasActiveForRoom | claimNext | statusOf | waitingForPanel | inServicePhones | ticketById | position | boardRows
  | boardTotal
deriving DecidableEq

theorem rowId_applyChange (T : Table) (g : Change T) (r r' : Row T) (h : applyChange T g r = some r') :
    rowId T r' = rowId T r := by
  cases T <;> cases g <;> simp only [applyChange, RoomChange.apply, AssignmentChange.apply, TicketChange.apply] at h
  all_goals first | (split at h <;> cases h <;> rfl) | (cases h; rfl)

theorem clash_symm (T : Table) (r r' : Row T) : clash T r r' = clash T r' r := by
  rw [Bool.eq_iff_iff]
  cases T <;> simp only [clash, Bool.and_eq_true, Bool.or_eq_true, decide_eq_true_eq]
  constructor <;> intro h <;> grind

abbrev schema : Schema where
  Table := Table
  tables := inferInstance
  Row := Row
  id := rowId
  stamp := stamp
  Change := Change
  apply := applyChange
  Query := Query
  check := check
  clash := clash
  id_stamp := fun T _ _ _ => by cases T <;> rfl
  id_apply := rowId_applyChange
  clash_symm := clash_symm

/-! ## The world outside -/

/-- A booking, as far as a claim looks at it. -/
structure Booking where
  startsAt : Int
  checkedInAt : Option Int
  cancelled : Bool

inductive ActiveIndex
  | roomActive | staffActive
deriving DecidableEq

/-- What the floor asks: rows of tables it does not write, whether another transaction holds a ticket, and which index
a refused write named. -/
inductive Ask
  | bookingById (bookingId : Nat)
  | displayName (staffUserId : Nat)
  | customerName (bookingId : Nat)
  | rowLocked (queueTicketId : Nat)
  | violatedIndex

abbrev Ans : Ask → Type
  | .bookingById _ => Option Booking
  | .displayName _ | .customerName _ => Option String
  | .rowLocked _ => Bool
  | .violatedIndex => Option ActiveIndex

structure Input where
  booking : Option Booking
  name : Option String
  locked : Bool
  index : Option ActiveIndex

def serve (_ : Tid) : (q : Ask) → Input → Nat → Unit → Ans q × Unit
  | .bookingById _, i, _, s => (i.booking, s)
  | .displayName _, i, _, s | .customerName _, i, _, s => (i.name, s)
  | .rowLocked _, i, _, s => (i.locked, s)
  | .violatedIndex, i, _, s => (i.index, s)

abbrev outside : Service where
  Ask := Ask
  Ans := Ans
  Input := Input
  Store := Unit
  Mine := Unit
  serve := serve
  mine _ _ := ()
  serve_mine _ _ _ _ _ _ _ := rfl

/-- What a `DomainNotFoundError` names. -/
inductive Entity
  | fittingRoom | booking | fittingRoomAssignment
deriving DecidableEq

inductive Err
  | invalid (message : String)
  | notAuthorized
  | notFound (entity : Entity)
  | roomOccupied (staffDisplayName : Option String)
  | staffOccupied (roomLabel : Option String)
  | queueEmpty
  | queueTicketNotFound
  | queueTicketNotWaiting (status : QueueTicketStatus)
  | queueTicketChanged (skipCount : Int)
  | staleData
  | multipleResultsFound
  | integrity
deriving DecidableEq

abbrev Prg (α : Type) : Type := Code schema outside Err α

abbrev ask (q : Ask) : Prg (Ans q) := Session.ask (V := outside) q

abbrev update (T : Table) (i : Nat) (g : Change T) : Prg (Option (Row T)) :=
  Session.update (S := schema) Err.integrity T i g

abbrev insert (T : Table) (r : Row T) : Prg (Row T) := Session.insert (S := schema) Err.integrity T r

def scalarOneOrNone {α : Type} : List α → Prg (Option α)
  | [] => return none
  | [a] => return some a
  | _ => .raise .multipleResultsFound

/-- `async with session.begin_nested()` and `except IntegrityError` around it: nothing is left of a refused write. -/
def unlessRefused {α : Type} (p : Prg α) : Prg (Option α) := do
  match ← (p.attempt : Prg (Except Err α)) with
  | .ok a => return some a
  | .error .integrity => return none
  | .error e => .raise e

structure Config where
  zone : Zone

inductive StaffRole
  | owner | shiftManager | reception | salesAssistant | seamstress
deriving DecidableEq

def ELEVATED_ROLES : List StaffRole := [.owner, .shiftManager]

/-- Who asks. -/
structure StaffContext where
  id : Nat
  role : StaffRole

def normalizeRoomLabel (label : String) : Except String String :=
  let stripped := Boutique.strip label
  if stripped = "" then .error "label is required"
  else if MAX_ROOM_LABEL_LENGTH < stripped.length then .error "label must be at most 40 characters"
  else .ok stripped

/-! ## Repositories -/

namespace Rooms

def byId (roomId : Nat) : Prg (Option FittingRoom) :=
  select .roomById fun s => (s.rows .rooms roomId).filter FittingRoom.live

def byIdForUpdate (roomId : Nat) : Prg (Option FittingRoom) := update .rooms roomId .forUpdate

/-- The columns a session flushes are those whose value has changed. -/
def changed {α : Type} [DecidableEq α] (old : α) (new : Option α) : Option α := new.filter fun x => x ≠ old

def update (roomId : Nat) (label : Option String) (sortOrder : Option Int) (isActive : Option Bool) :
    Prg (Option FittingRoom) := do
  let room ← byId roomId
  match room with
  | none => return none
  | some r => do
    let label := changed r.label label
    let sortOrder := changed r.sortOrder sortOrder
    let isActive := changed r.isActive isActive
    if label.isSome ∨ sortOrder.isSome ∨ isActive.isSome then do
      let flushed ← Floor.update .rooms roomId (.flush label sortOrder isActive)
      raiseIf (Option.isNone flushed) .staleData
      select .roomRefresh fun s => s.rows .rooms roomId
    else select .roomRefresh fun s => s.rows .rooms roomId

def softDelete (roomId : Nat) (now : Int) : Prg Bool := do
  let deleted ← Floor.update .rooms roomId (.softDelete now)
  return Option.isSome deleted

end Rooms

namespace Assignments

def claim (roomId staffId : Nat) (bookingId queueTicketId : Option Nat) : Prg FittingRoomAssignment :=
  insert .assignments (⟨0, 0, none, roomId, staffId, bookingId, queueTicketId, none⟩ : FittingRoomAssignment)

def activeWhere (q : Query) (p : FittingRoomAssignment → Bool) : Prg (Option FittingRoomAssignment) := do
  let rows ← select q fun s => (s.all .assignments).filter fun (a : FittingRoomAssignment) => p a ∧ a.active
  scalarOneOrNone rows

def activeFor (roomId staffId : Nat) : Prg (Option FittingRoomAssignment) :=
  activeWhere .activeFor fun a => a.fittingRoomId = roomId ∧ a.staffUserId = staffId

def occupantOfRoom (roomId : Nat) : Prg (Option FittingRoomAssignment) :=
  activeWhere .occupantOfRoom fun a => a.fittingRoomId = roomId

def roomOfStaff (staffId : Nat) : Prg (Option FittingRoomAssignment) :=
  activeWhere .roomOfStaff fun a => a.staffUserId = staffId

def byId (assignmentId : Nat) : Prg (Option FittingRoomAssignment) :=
  select .assignmentById fun s => (s.rows .assignments assignmentId).filter
    fun (a : FittingRoomAssignment) => a.deletedAt = none

def hasActiveForRoom (roomId : Nat) : Prg Bool := select .hasActiveForRoom fun s =>
  (s.all .assignments).any fun (a : FittingRoomAssignment) => a.fittingRoomId = roomId ∧ a.active

def release (assignmentId : Nat) (at_ : Int) : Prg (Bool × Option FittingRoomAssignment) := do
  let wrote ← update .assignments assignmentId (.release at_)
  let refreshed ← byId assignmentId
  return (Option.isSome wrote, refreshed)

def handover (assignmentId newStaffId : Nat) : Prg (Bool × Option FittingRoomAssignment) := do
  let wrote ← update .assignments assignmentId (.handover newStaffId)
  if Option.isNone wrote then return (false, none)
  else do
    let refreshed ← byId assignmentId
    return (true, refreshed)

end Assignments

namespace Tickets

def queue (day : Int) (s : Snapshot schema) : List QueueTicket :=
  ((s.all .tickets).filter (liveWaiting day)).insertionSort fun q q' =>
    sortKey q < sortKey q' ∨ (sortKey q = sortKey q' ∧ q.id ≤ q'.id)

/-- `FOR UPDATE SKIP LOCKED` down the queue: a ticket in another transaction's hands is passed over, and one that no
longer waits when its lock is held. -/
def takeHead (day : Int) : List Nat → Prg (Option QueueTicket)
  | [] => return none
  | i :: is => do
    let locked ← ask (.rowLocked i)
    if locked then takeHead day is
    else do
      let taken ← update .tickets i (.claimNext day)
      match taken with
      | some q => return some q
      | none => takeHead day is

def claimNext (day : Int) : Prg (Option QueueTicket) := do
  let waiting ← select .claimNext fun s => (queue day s).map QueueTicket.id
  takeHead day waiting

def claimById (ticketId : Nat) : Prg (Option QueueTicket) := update .tickets ticketId .claimById

def close (ticketId : Nat) : Prg Bool := do
  let closed ← update .tickets ticketId .close
  return Option.isSome closed

def skip (ticketId : Nat) (now : Int) (seenSkipCount : Int) : Prg (Option QueueTicket) :=
  update .tickets ticketId (.skip now seenSkipCount)

def call (ticketId : Nat) (now : Int) : Prg (Option QueueTicket) := update .tickets ticketId (.call now)

def remove (ticketId : Nat) : Prg Bool := do
  let removed ← update .tickets ticketId .remove
  return Option.isSome removed

def statusOf (ticketId : Nat) : Prg (Option (QueueTicketStatus × Int)) := select .statusOf fun s =>
  ((s.rows .tickets ticketId).filter QueueTicket.live).map fun (q : QueueTicket) => (q.status, q.skipCount)

def waitingForPanel (day : Int) (limit : Nat) : Prg (List QueueTicket) :=
  select .waitingForPanel fun s => (queue day s).take limit

def inServicePhones (day : Int) : Prg (List String) := select .inServicePhones fun s =>
  ((s.all .tickets).filter fun (q : QueueTicket) => q.queueDay = day ∧ q.status = .inService ∧ q.live).map
    QueueTicket.phone

end Tickets

def record (actorId entity : Nat) (action : AuditAction) : Prg Unit := do
  let _ ← insert .auditLog (⟨0, 0, actorId, entity, action⟩ : AuditLog)
  return ()

def notify (staffUserId actorStaffUserId : Nat) (kind : StaffNotificationKind) (entityId : Nat) : Prg Unit := do
  let _ ← insert .notifications (⟨0, 0, staffUserId, actorStaffUserId, kind, entityId⟩ : StaffNotification)
  return ()

def notifyOther (staffUserId actorStaffUserId : Nat) (kind : StaffNotificationKind) (entityId : Nat) : Prg Unit :=
  if staffUserId ≠ actorStaffUserId then notify staffUserId actorStaffUserId kind entityId else return ()

/-! ## The answers -/

structure Occupancy where
  assignmentId : Nat
  staffUserId : Nat
  bookingId : Option Nat
  assignedAt : Int
  staffDisplayName : Option String
  clientLabel : Option String

structure RoomRead where
  roomId : Nat
  label : String
  sortOrder : Int
  isActive : Bool
  occupancy : Option Occupancy

structure WaitlistEntryRead where
  id : Nat
  name : String
  visitType : String
  arrivedAt : Int
  called : Bool
  skipCount : Int
  duplicate : Bool

structure WaitlistRead where
  entries : List WaitlistEntryRead
  truncated : Bool

inductive Response
  | room (r : RoomRead)
  | waitlist (w : WaitlistRead)
  | dispatch (room : RoomRead) (waitlist : WaitlistRead)
  | deleted

/-! ## The service -/

def authorize (staffId : Nat) (actor : StaffContext) : Prg Unit :=
  raiseIf (staffId ≠ actor.id ∧ actor.role ∉ ELEVATED_ROLES) .notAuthorized

def clientLabel (bookingId : Option Nat) (ticketName : Option String) : Prg (Option String) := do
  match bookingId with
  | none => return ticketName
  | some b => do
    let customer ← ask (.customerName b)
    return Option.orElse customer fun _ => ticketName

def roomRead (roomId : Nat) : Prg RoomRead := do
  let found ← select .roomWithOccupancy fun s => ((s.rows .rooms roomId).filter FittingRoom.live).map
    fun (r : FittingRoom) =>
      (r, ((s.all .assignments).find? fun (a : FittingRoomAssignment) => a.fittingRoomId = roomId ∧ a.active).map
        fun (a : FittingRoomAssignment) =>
          (a, (a.queueTicketId.bind fun i => (s.rows .tickets i).filter QueueTicket.live).map QueueTicket.name))
  let (r, occupant) ← orRaise found (.notFound .fittingRoom)
  match occupant with
  | none => return ⟨r.id, r.label, r.sortOrder, r.isActive, none⟩
  | some (a, ticketName) => do
    let displayName ← ask (.displayName a.staffUserId)
    let label ← clientLabel a.bookingId ticketName
    return ⟨r.id, r.label, r.sortOrder, r.isActive,
      some ⟨a.id, a.staffUserId, a.bookingId, a.createdAt, displayName, label⟩⟩

def today (cfg : Config) : Prg Int := do
  let now ← Session.now
  return cfg.zone.dateOf now

def waitlist (cfg : Config) : Prg WaitlistRead := do
  let day ← today cfg
  let rows ← Tickets.waitingForPanel day WAITLIST_LIMIT
  let inService ← Tickets.inServicePhones day
  return ⟨rows.map fun q => ⟨q.id, q.name, q.visitType, q.createdAt, q.calledAt.isSome, q.skipCount,
      1 < (rows.map QueueTicket.phone).count q.phone ∨ q.phone ∈ inService⟩,
    rows.length = WAITLIST_LIMIT⟩

def dispatchRead (cfg : Config) (roomId : Nat) : Prg Response := do
  let room ← roomRead roomId
  let waitlist ← waitlist cfg
  return .dispatch room waitlist

def isClaimable (cfg : Config) (booking : Booking) : Prg Bool :=
  if booking.checkedInAt = none ∨ booking.cancelled then return false
  else do
    let day ← today cfg
    return cfg.zone.midnight day ≤ booking.startsAt ∧ booking.startsAt < cfg.zone.midnight (day + 1)

def occupantDetails (occupant : Option FittingRoomAssignment) : Prg (Option String) :=
  match occupant with
  | none => return none
  | some a => ask (.displayName a.staffUserId)

def heldRoomDetails (staffId : Nat) : Prg (Option String) := do
  let held ← Assignments.roomOfStaff staffId
  match held with
  | none => return none
  | some a => do
    let room ← Rooms.byId a.fittingRoomId
    return room.map FittingRoom.label

/-- A conflict of a claim: what the staffer asked for is resolved first, by the request. -/
def resolveClaimConflict (roomId targetStaffId : Nat) : Prg Response := do
  let existing ← Assignments.activeFor roomId targetStaffId
  match existing with
  | some _ => do
    let room ← roomRead roomId
    return .room room
  | none => do
    let constraint ← ask .violatedIndex
    match constraint with
    | some .roomActive => do
      let occupant ← Assignments.occupantOfRoom roomId
      let details ← occupantDetails occupant
      .raise (.roomOccupied details)
    | some .staffActive => do
      let details ← heldRoomDetails targetStaffId
      .raise (.staffOccupied details)
    | none => .raise .integrity

def checkBooking (cfg : Config) : Option Nat → Prg Unit
  | none => return ()
  | some bookingId => do
    let booking ← ask (.bookingById bookingId)
    let booking ← orRaise booking (.notFound .booking)
    let claimable ← isClaimable cfg booking
    raiseIf (!claimable) (.notFound .booking)

def lockRoom (roomId : Nat) : Prg FittingRoom := do
  let found ← Rooms.byIdForUpdate roomId
  let room ← orRaise found (.notFound .fittingRoom)
  raiseIf (!room.isActive) (.notFound .fittingRoom)
  return room

/-- **The claim**: one INSERT under the room's lock. -/
def claim (cfg : Config) (roomId : Nat) (staffUserId bookingId : Option Nat) (actor : StaffContext) : Prg Response := do
  let targetStaffId := staffUserId.getD actor.id
  authorize targetStaffId actor
  tenantSession fun _ => do
    let _ ← lockRoom roomId
    checkBooking cfg bookingId
    let inserted ← unlessRefused (Assignments.claim roomId targetStaffId bookingId none)
    match inserted with
    | none => resolveClaimConflict roomId targetStaffId
    | some assignment => do
      record actor.id roomId (.fittingRoomClaimed roomId assignment.id targetStaffId bookingId)
      let room ← roomRead roomId
      return .room room

/-- The rowcount-0 read: it raises what every verb shares and answers the count of a ticket that still waits. -/
def ticketRefusal (ticketId : Nat) : Prg Int := do
  let found ← Tickets.statusOf ticketId
  let (status, skipCount) ← orRaise found .queueTicketNotFound
  raiseIf (status ≠ .waiting) (.queueTicketNotWaiting status)
  return skipCount

/-- The conflict of a dispatch, read in a transaction of its own: the room first, then the staffer, then the name of the
index. -/
def occupiedError (roomId targetStaffId : Nat) : Prg Err := do
  let named ← tenantSession fun _ => do
    let occupant ← Assignments.occupantOfRoom roomId
    match occupant with
    | some a => do
      let details ← occupantDetails (some a)
      return some (.roomOccupied details)
    | none => do
      let held ← Assignments.roomOfStaff targetStaffId
      match held with
      | some _ => do
        let details ← heldRoomDetails targetStaffId
        return some (.staffOccupied details)
      | none => return none
  match named with
  | some e => return e
  | none => do
    let constraint ← ask .violatedIndex
    match constraint with
    | none => return .integrity
    | some _ => return .roomOccupied none

def dispatchIn (cfg : Config) (roomId targetStaffId actorId : Nat) (mode : DispatchMode) (takeTicket : Prg QueueTicket) :
    Prg Response := do
  let _ ← lockRoom roomId
  let occupant ← Assignments.occupantOfRoom roomId
  match occupant with
  | some a => do
    let details ← occupantDetails (some a)
    .raise (.roomOccupied details)
  | none => do
    let ticket ← takeTicket
    let assignment ← Assignments.claim roomId targetStaffId none (some ticket.id)
    record actorId ticket.id (.queueTicketDispatched ticket.id roomId assignment.id targetStaffId mode)
    notifyOther targetStaffId actorId .dispatchAssigned assignment.id
    dispatchRead cfg roomId

/-- **A dispatch**: a refused write leaves the transaction, and only then is the conflict named. -/
def dispatch (cfg : Config) (roomId : Nat) (staffUserId : Option Nat) (actor : StaffContext) (mode : DispatchMode)
    (takeTicket : Prg QueueTicket) : Prg Response := do
  let targetStaffId := staffUserId.getD actor.id
  authorize targetStaffId actor
  let result ← ((tenantSession fun _ => dispatchIn cfg roomId targetStaffId actor.id mode takeTicket).attempt :
    Prg (Except Err Response))
  match result with
  | .ok r => return r
  | .error .integrity => do
    let e ← occupiedError roomId targetStaffId
    .raise e
  | .error e => .raise e

def takeNextTicket (cfg : Config) : Prg QueueTicket := do
  let day ← today cfg
  let ticket ← Tickets.claimNext day
  orRaise ticket .queueEmpty

def takeNext (cfg : Config) (roomId : Nat) (staffUserId : Option Nat) (actor : StaffContext) : Prg Response :=
  dispatch cfg roomId staffUserId actor .takeNext (takeNextTicket cfg)

def takeNamedTicket (queueTicketId : Nat) : Prg QueueTicket := do
  let ticket ← Tickets.claimById queueTicketId
  match ticket with
  | some q => return q
  | none => do
    let skipCount ← ticketRefusal queueTicketId
    .raise (.queueTicketChanged skipCount)

def assign (cfg : Config) (roomId queueTicketId : Nat) (staffUserId : Option Nat) (actor : StaffContext) : Prg Response :=
  dispatch cfg roomId staffUserId actor .assign (takeNamedTicket queueTicketId)

def call (cfg : Config) (ticketId : Nat) (actor : StaffContext) : Prg Response := do
  let at_ ← Session.now
  tenantSession fun _ => do
    let row ← Tickets.call ticketId at_
    match row with
    | none => do
      let _ ← ticketRefusal ticketId
      let w ← waitlist cfg
      return .waitlist w
    | some q => do
      record actor.id ticketId (.queueTicketCalled ticketId q.calledAt)
      let w ← waitlist cfg
      return .waitlist w

/-- To the back of the queue; the second skip removes. -/
def skip (cfg : Config) (ticketId : Nat) (seenSkipCount : Int) (actor : StaffContext) : Prg Response := do
  let at_ ← Session.now
  tenantSession fun _ => do
    let row ← Tickets.skip ticketId at_ seenSkipCount
    match row with
    | none => do
      let skipCount ← ticketRefusal ticketId
      .raise (.queueTicketChanged skipCount)
    | some q => do
      record actor.id ticketId (.queueTicketSkipped ticketId q.skipCount q.status)
      let w ← waitlist cfg
      return .waitlist w

def remove (cfg : Config) (ticketId : Nat) (actor : StaffContext) : Prg Response :=
  tenantSession fun _ => do
    let removed ← Tickets.remove ticketId
    if !removed then do
      let skipCount ← ticketRefusal ticketId
      .raise (.queueTicketChanged skipCount)
    else do
      record actor.id ticketId (.queueTicketRemoved ticketId)
      let w ← waitlist cfg
      return .waitlist w

def closeTicket : Option Nat → Prg Unit
  | none => return ()
  | some ticketId => do
    let _ ← Tickets.close ticketId
    return ()

/-- **The release**: the room is freed and the ticket it served is closed, in one transaction. -/
def release (assignmentId : Nat) (actor : StaffContext) : Prg Response := do
  let at_ ← Session.now
  tenantSession fun _ => do
    let found ← Assignments.byId assignmentId
    let assignment ← orRaise found (.notFound .fittingRoomAssignment)
    raiseIf (assignment.staffUserId ≠ actor.id ∧ actor.role ∉ ELEVATED_ROLES) (.notFound .fittingRoomAssignment)
    let (wrote, refreshed) ← Assignments.release assignmentId at_
    let row ← orRaise refreshed (.notFound .fittingRoomAssignment)
    if wrote then do
      closeTicket row.queueTicketId
      record actor.id assignmentId
        (.fittingRoomReleased row.fittingRoomId assignmentId row.staffUserId row.queueTicketId)
      let room ← roomRead row.fittingRoomId
      return .room room
    else do
      let room ← roomRead row.fittingRoomId
      return .room room

def handover (assignmentId newStaffId : Nat) (actor : StaffContext) : Prg Response :=
  tenantSession fun _ => do
    let before ← Assignments.byId assignmentId
    let previousStaffId := before.map FittingRoomAssignment.staffUserId
    let handed ← unlessRefused (Assignments.handover assignmentId newStaffId)
    match handed with
    | none => do
      let constraint ← ask .violatedIndex
      match constraint with
      | some .staffActive => do
        let details ← heldRoomDetails newStaffId
        .raise (.staffOccupied details)
      | _ => .raise .integrity
    | some (wrote, refreshed) => do
      raiseIf (!wrote) (.notFound .fittingRoomAssignment)
      let row ← orRaise refreshed (.notFound .fittingRoomAssignment)
      record actor.id assignmentId (.fittingRoomHandedOver assignmentId previousStaffId newStaffId)
      notifyOther newStaffId actor.id .roomHandedOver assignmentId
      let room ← roomRead row.fittingRoomId
      return .room room

def updateRoom (roomId : Nat) (label : Option String) (sortOrder : Option Int) (isActive : Option Bool) : Prg Response := do
  match label.mapM normalizeRoomLabel with
  | .error message => .raise (.invalid message)
  | .ok normalized =>
    tenantSession fun _ => do
      let updated ← Rooms.update roomId normalized sortOrder isActive
      let _ ← orRaise updated (.notFound .fittingRoom)
      let room ← roomRead roomId
      return .room room

/-- **The deletion**: the room's lock, then who is in it, then the stamp. -/
def deleteRoom (roomId : Nat) (actor : StaffContext) : Prg Response :=
  tenantSession fun txNow => do
    let found ← Rooms.byIdForUpdate roomId
    let room ← orRaise found (.notFound .fittingRoom)
    let label := room.label
    let occupied ← Assignments.hasActiveForRoom roomId
    if occupied then do
      let occupant ← Assignments.occupantOfRoom roomId
      let details ← occupantDetails occupant
      .raise (.roomOccupied details)
    else do
      let _ ← Rooms.softDelete roomId txNow
      record actor.id roomId (.fittingRoomDeleted roomId label)
      return .deleted

inductive Request
  | claim (roomId : Nat) (staffUserId bookingId : Option Nat) (actor : StaffContext)
  | takeNext (roomId : Nat) (staffUserId : Option Nat) (actor : StaffContext)
  | assign (roomId queueTicketId : Nat) (staffUserId : Option Nat) (actor : StaffContext)
  | release (assignmentId : Nat) (actor : StaffContext)
  | handover (assignmentId newStaffId : Nat) (actor : StaffContext)
  | updateRoom (roomId : Nat) (label : Option String) (sortOrder : Option Int) (isActive : Option Bool)
  | deleteRoom (roomId : Nat) (actor : StaffContext)
  | call (ticketId : Nat) (actor : StaffContext)
  | skip (ticketId : Nat) (seenSkipCount : Int) (actor : StaffContext)
  | remove (ticketId : Nat) (actor : StaffContext)

def Request.code (cfg : Config) : Request → Prg Response
  | .claim roomId staffUserId bookingId actor => Floor.claim cfg roomId staffUserId bookingId actor
  | .takeNext roomId staffUserId actor => Floor.takeNext cfg roomId staffUserId actor
  | .assign roomId queueTicketId staffUserId actor => Floor.assign cfg roomId queueTicketId staffUserId actor
  | .release assignmentId actor => Floor.release assignmentId actor
  | .handover assignmentId newStaffId actor => Floor.handover assignmentId newStaffId actor
  | .updateRoom roomId label sortOrder isActive => Floor.updateRoom roomId label sortOrder isActive
  | .deleteRoom roomId actor => Floor.deleteRoom roomId actor
  | .call ticketId actor => Floor.call cfg ticketId actor
  | .skip ticketId seenSkipCount actor => Floor.skip cfg ticketId seenSkipCount actor
  | .remove ticketId actor => Floor.remove cfg ticketId actor

end Floor
