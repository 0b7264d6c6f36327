import Boutique.TxnStretch
import Mathlib.Data.List.Sort
/-!
# Fitting — the dresses carried into a fitting, and its release

A dress goes into a fitting by an `INSERT … ON CONFLICT DO UPDATE` against the live bindings, and out of it by a guarded
soft delete; both look first whether the fitting is still on, and neither holds it.  A release ends the fitting and
closes the ticket it served.  The rooms and the catalogue are read from outside.
-/
namespace Fitting

open Txn Session Contract

/-! ## The tables -/

structure FittingRoomAssignment where
  id : Nat
  createdAt : Int
  deletedAt : Option Int
  fittingRoomId : Nat
  staffUserId : Nat
  queueTicketId : Option Nat
  releasedAt : Option Int
deriving DecidableEq

/-- One gown carried into one fitting, with its name and size as they were then. -/
structure FittingAssignmentDress where
  id : Nat
  createdAt : Int
  deletedAt : Option Int
  assignmentId : Nat
  dressId : Nat
  dressName : String
  dressSize : Option String
  removedBy : Option Nat
deriving DecidableEq

inductive QueueTicketStatus
  | waiting | inService | done | removed
deriving DecidableEq

structure QueueTicket where
  id : Nat
  createdAt : Int
  deletedAt : Option Int
  status : QueueTicketStatus
deriving DecidableEq

inductive AuditAction
  | fittingRoomReleased (room assignment staff : Nat) (queueTicket : Option Nat)
deriving DecidableEq

structure AuditLog where
  id : Nat
  createdAt : Int
  actorId : Nat
  entity : Nat
  action : AuditAction
deriving DecidableEq

inductive Table
  | assignments | bindings | tickets | auditLog
deriving DecidableEq

abbrev Row : Table → Type
  | .assignments => FittingRoomAssignment
  | .bindings => FittingAssignmentDress
  | .tickets => QueueTicket
  | .auditLog => AuditLog

def rowId : (T : Table) → Row T → Nat
  | .assignments, (r : FittingRoomAssignment) => r.id
  | .bindings, (r : FittingAssignmentDress) => r.id
  | .tickets, (r : QueueTicket) => r.id
  | .auditLog, (r : AuditLog) => r.id

def stamp : (T : Table) → Nat → Int → Row T → Row T
  | .assignments, i, n, (r : FittingRoomAssignment) => { r with id := i, createdAt := n }
  | .bindings, i, n, (r : FittingAssignmentDress) => { r with id := i, createdAt := n }
  | .tickets, i, n, (r : QueueTicket) => { r with id := i, createdAt := n }
  | .auditLog, i, n, (r : AuditLog) => { r with id := i, createdAt := n }

/-! ## The UPDATEs -/

inductive AssignmentChange
  | release (at_ : Int)

/-- `touch` is the conflict's UPDATE: the row it meets is in the partial index under the same key. -/
inductive BindingChange
  | touch (assignmentId dressId : Nat)
  | remove (assignmentId actorId : Nat) (at_ : Int)

inductive TicketChange
  | close

abbrev Change : Table → Type
  | .assignments => AssignmentChange
  | .bindings => BindingChange
  | .tickets => TicketChange
  | .auditLog => Empty

/-- The fitting is still on. -/
def FittingRoomAssignment.active (a : FittingRoomAssignment) : Bool := a.releasedAt = none ∧ a.deletedAt = none

def FittingAssignmentDress.live (b : FittingAssignmentDress) : Bool := b.deletedAt = none

def FittingAssignmentDress.names (b : FittingAssignmentDress) (assignmentId dressId : Nat) : Bool :=
  b.assignmentId = assignmentId ∧ b.dressId = dressId

def AssignmentChange.apply (a : FittingRoomAssignment) : AssignmentChange → Option FittingRoomAssignment
  | .release at_ => if a.active then some { a with releasedAt := some at_ } else none

def BindingChange.apply (b : FittingAssignmentDress) : BindingChange → Option FittingAssignmentDress
  -- SET updated_at: no column anything reads
  | .touch assignmentId dressId => if b.live ∧ b.names assignmentId dressId then some b else none
  | .remove assignmentId actorId at_ =>
    if b.assignmentId = assignmentId ∧ b.live then some { b with deletedAt := some at_, removedBy := some actorId }
    else none

def TicketChange.apply (q : QueueTicket) : TicketChange → Option QueueTicket
  | .close => if q.status = .inService ∧ q.deletedAt = none then some { q with status := .done } else none

def applyChange : (T : Table) → Change T → Row T → Option (Row T)
  | .assignments, g, (a : FittingRoomAssignment) => AssignmentChange.apply a g
  | .bindings, g, (b : FittingAssignmentDress) => BindingChange.apply b g
  | .tickets, g, (q : QueueTicket) => TicketChange.apply q g

def clash : (T : Table) → Row T → Row T → Bool
  | .assignments, (a : FittingRoomAssignment), (b : FittingRoomAssignment) =>
    -- idx_fitting_room_assignments_room_active and idx_fitting_room_assignments_staff_active
    a.active && b.active && (a.fittingRoomId = b.fittingRoomId || a.staffUserId = b.staffUserId)
  | .bindings, (a : FittingAssignmentDress), (b : FittingAssignmentDress) =>
    -- idx_fitting_assignment_dresses_unique
    a.live && b.live && (a.assignmentId = b.assignmentId && a.dressId = b.dressId)
  | _, _, _ => false

inductive Query
  | activeById | assignmentById | roomWithOccupancy | byAssignmentIds
deriving DecidableEq

theorem rowId_applyChange (T : Table) (g : Change T) (r r' : Row T) (h : applyChange T g r = some r') :
    rowId T r' = rowId T r := by
  cases T <;> cases g <;> simp only [applyChange, AssignmentChange.apply, BindingChange.apply, TicketChange.apply] at h
  all_goals (split at h <;> cases h; rfl)

theorem clash_symm (T : Table) (r r' : Row T) : clash T r r' = clash T r' r := by
  rw [Bool.eq_iff_iff]
  cases T <;> simp only [clash, Bool.and_eq_true, Bool.or_eq_true, decide_eq_true_eq]
  all_goals constructor <;> intro h <;> grind

abbrev schema : Schema where
  Table := Table
  tables := inferInstance
  Row := Row
  id := rowId
  stamp := stamp
  Change := Change
  apply := applyChange
  Query := Query
  check := fun _ _ => true
  clash := clash
  id_stamp := fun T _ _ _ => by cases T <;> rfl
  id_apply := rowId_applyChange
  clash_symm := clash_symm

/-! ## The world outside -/

/-- What the fitting asks: rows of tables it does not write, and the row the unique index met. -/
inductive Ask
  | dressById (dressId : Nat)
  | roomById (roomId : Nat)
  | conflicting

abbrev Ans : Ask → Type
  | .dressById _ | .roomById _ => Option String
  | .conflicting => Nat

structure Input where
  name : Option String
  row : Nat

def serve (_ : Tid) : (q : Ask) → Input → Nat → Unit → Ans q × Unit
  | .dressById _, i, _, s | .roomById _, i, _, s => (i.name, s)
  | .conflicting, i, _, s => (i.row, s)

abbrev outside : Service where
  Ask := Ask
  Ans := Ans
  Input := Input
  Store := Unit
  Mine := Unit
  serve := serve
  mine _ _ := ()
  serve_mine _ _ _ _ _ _ _ := rfl

/-- What a `DomainNotFoundError` names. -/
inductive Entity
  | fittingRoom | fittingRoomAssignment | fittingAssignmentDress | dress
deriving DecidableEq

inductive Err
  | notFound (entity : Entity)
  | multipleResultsFound
  | integrity
  | canceled
deriving DecidableEq

abbrev Prg (α : Type) : Type := Code schema outside Err α

abbrev ask (q : Ask) : Prg (Ans q) := Session.ask (V := outside) q

abbrev update (T : Table) (i : Nat) (g : Change T) : Prg (Option (Row T)) :=
  Session.update (S := schema) Err.integrity T i g

abbrev insert (T : Table) (r : Row T) : Prg (Row T) := Session.insert (S := schema) Err.integrity T r

inductive StaffRole
  | owner | shiftManager | reception | salesAssistant | seamstress
deriving DecidableEq

structure StaffContext where
  id : Nat
  role : StaffRole

def ELEVATED_ROLES : List StaffRole := [.owner, .shiftManager]

/-! ## The repositories -/

namespace Assignments

def activeById (assignmentId : Nat) : Prg (Option FittingRoomAssignment) :=
  select .activeById fun s => (s.rows .assignments assignmentId).filter FittingRoomAssignment.active

def byId (assignmentId : Nat) : Prg (Option FittingRoomAssignment) :=
  select .assignmentById fun s => (s.rows .assignments assignmentId).filter
    fun (a : FittingRoomAssignment) => a.deletedAt = none

def release (assignmentId : Nat) (at_ : Int) : Prg (Bool × Option FittingRoomAssignment) := do
  let wrote ← update .assignments assignmentId (.release at_)
  let refreshed ← byId assignmentId
  return (Option.isSome wrote, refreshed)

end Assignments

namespace DressBindings

/-- **The upsert**: an insert that the index refuses locks the row it met and touches it if it is still in the index
under this key, and otherwise starts over.  The statement is cancelled after so many rounds. -/
def add (assignmentId dressId : Nat) (dressName : String) (dressSize : Option String) :
    (rounds : Nat) → Prg (Bool × FittingAssignmentDress)
  | 0 => .raise .canceled
  | rounds + 1 => do
    let attempt : Except Err (Row .bindings) ← (insert .bindings
      (⟨0, 0, none, assignmentId, dressId, dressName, dressSize, none⟩ : FittingAssignmentDress)).attempt
    match attempt with
    | .ok row => return (true, row)
    | .error _ => do
      let conflicting ← ask .conflicting
      let touched ← update .bindings conflicting (.touch assignmentId dressId)
      match touched with
      | some row => return (false, row)
      | none => add assignmentId dressId dressName dressSize rounds

def remove (assignmentId bindingId actorId : Nat) (at_ : Int) : Prg Bool := do
  let removed ← update .bindings bindingId (.remove assignmentId actorId at_)
  return Option.isSome removed

def byAssignmentId (assignmentId : Nat) : Prg (List FittingAssignmentDress) :=
  select .byAssignmentIds fun s => ((s.all .bindings).filter
    fun (b : FittingAssignmentDress) => b.assignmentId = assignmentId ∧ b.live).insertionSort
      fun (a b : FittingAssignmentDress) => a.createdAt ≤ b.createdAt

end DressBindings

def Tickets.close (ticketId : Nat) : Prg Bool := do
  let closed ← update .tickets ticketId .close
  return Option.isSome closed

def record (actorId entity : Nat) (action : AuditAction) : Prg Unit := do
  let _ ← insert .auditLog (⟨0, 0, actorId, entity, action⟩ : AuditLog)
  return ()

/-! ## The service -/

structure RoomRead where
  id : Nat
  label : String
  occupant : Option (Nat × Nat)
  bindings : List FittingAssignmentDress

def roomRead (roomId : Nat) : Prg RoomRead := do
  let found ← ask (.roomById roomId)
  let label ← orRaise found (.notFound .fittingRoom)
  let occupant ← select .roomWithOccupancy fun s => (s.all .assignments).find?
    fun (a : FittingRoomAssignment) => a.fittingRoomId = roomId ∧ a.active
  match occupant with
  | none => return ⟨roomId, label, none, []⟩
  | some (a : FittingRoomAssignment) => do
    let bindings ← DressBindings.byAssignmentId a.id
    return ⟨roomId, label, some (a.id, a.staffUserId), bindings⟩

/-- **A dress goes in.**  Nobody owns the act: any staffer may. -/
def addDress (rounds assignmentId dressId : Nat) (sizeLabel : Option String) : Prg RoomRead :=
  tenantSession fun _ => do
    let found ← Assignments.activeById assignmentId
    let assignment ← orRaise found (.notFound .fittingRoomAssignment)
    let dress ← ask (.dressById dressId)
    let name ← orRaise dress (.notFound .dress)
    let _ ← DressBindings.add assignmentId dressId name sizeLabel rounds
    roomRead assignment.fittingRoomId

/-- **A dress goes out.** -/
def removeDress (assignmentId bindingId : Nat) (actor : StaffContext) : Prg RoomRead := do
  let at_ ← Session.now
  tenantSession fun _ => do
    let found ← Assignments.activeById assignmentId
    let assignment ← orRaise found (.notFound .fittingRoomAssignment)
    let removed ← DressBindings.remove assignmentId bindingId actor.id at_
    raiseIf (!removed) (.notFound .fittingAssignmentDress)
    roomRead assignment.fittingRoomId

def closeTicket : Option Nat → Prg Unit
  | none => return ()
  | some ticketId => do
    let _ ← Tickets.close ticketId
    return ()

def releaseAt (assignmentId : Nat) (actor : StaffContext) (at_ : Int) : Prg RoomRead := do
  let found ← Assignments.byId assignmentId
  let assignment ← orRaise found (.notFound .fittingRoomAssignment)
  raiseIf (assignment.staffUserId ≠ actor.id ∧ actor.role ∉ ELEVATED_ROLES) (.notFound .fittingRoomAssignment)
  let (wrote, refreshed) ← Assignments.release assignmentId at_
  let row ← orRaise refreshed (.notFound .fittingRoomAssignment)
  if wrote then do
    closeTicket row.queueTicketId
    record actor.id assignmentId
      (.fittingRoomReleased row.fittingRoomId assignmentId row.staffUserId row.queueTicketId)
    roomRead row.fittingRoomId
  else roomRead row.fittingRoomId

def release (assignmentId : Nat) (actor : StaffContext) : Prg RoomRead := do
  let at_ ← Session.now
  tenantSession fun _ => releaseAt assignmentId actor at_

/-! ## The requests -/

inductive Request
  | addDress (assignmentId dressId : Nat) (sizeLabel : Option String)
  | removeDress (assignmentId bindingId : Nat) (actor : StaffContext)
  | release (assignmentId : Nat) (actor : StaffContext)

def Request.code (rounds : Nat) : Request → Prg RoomRead
  | .addDress assignmentId dressId sizeLabel => Fitting.addDress rounds assignmentId dressId sizeLabel
  | .removeDress assignmentId bindingId actor => Fitting.removeDress assignmentId bindingId actor
  | .release assignmentId actor => Fitting.release assignmentId actor

/-- **The floor about to serve**: one request for each thread. -/
def serving (rounds : Nat) (reqs : Tid → Request) (rows : Rows schema) (next : Nat) (clock : Int) :
    Conf (machine schema outside Err) RoomRead := staged () (fun t => (reqs t).code rounds) rows next clock

end Fitting
