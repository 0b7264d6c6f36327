import Boutique.TxnSession
/-!
# Atelier — alteration tickets and the verbs that move them

A ticket's five stamps are its state: the stage is the rightmost one.  Every write is an UPDATE guarded by a predicate and
answered through a re-read; the verb loads the row first, for the authorization and for the audit row.
-/
namespace Atelier

open Txn Session

inductive StaffRole
  | owner | shiftManager | reception | salesAssistant | seamstress
deriving DecidableEq

/-- The signed-in staffer, as far as the atelier reads her. -/
structure StaffContext where
  id : Nat
  role : StaffRole
deriving DecidableEq

def StaffContext.elevated (actor : StaffContext) : Bool := actor.role = .owner ∨ actor.role = .shiftManager

inductive TicketStage
  | intake | inProgress | qc | ready | delivered
deriving DecidableEq

structure AlterationTicket where
  id : Nat
  createdAt : Int
  deletedAt : Option Int
  customerId : Nat
  assignedStaffUserId : Option Nat
  intakeAt : Option Int
  inProgressAt : Option Int
  qcAt : Option Int
  readyAt : Option Int
  deliveredAt : Option Int
deriving DecidableEq

structure Customer where
  id : Nat
  createdAt : Int
  deletedAt : Option Int
  name : String

structure StaffUser where
  id : Nat
  createdAt : Int
  deletedAt : Option Int
  role : StaffRole

/-! ## The stages -/

def TicketStage.all : List TicketStage := [.intake, .inProgress, .qc, .ready, .delivered]

def AlterationTicket.stamp (row : AlterationTicket) : TicketStage → Option Int
  | .intake => row.intakeAt
  | .inProgress => row.inProgressAt
  | .qc => row.qcAt
  | .ready => row.readyAt
  | .delivered => row.deliveredAt

def AlterationTicket.setStamp (row : AlterationTicket) : TicketStage → Option Int → AlterationTicket
  | .intake, x => { row with intakeAt := x }
  | .inProgress, x => { row with inProgressAt := x }
  | .qc, x => { row with qcAt := x }
  | .ready, x => { row with readyAt := x }
  | .delivered, x => { row with deliveredAt := x }

/-- The rightmost stamped column, in declaration order. -/
def stageOf (row : AlterationTicket) : TicketStage :=
  TicketStage.all.foldl (fun current stage => if (row.stamp stage).isSome then stage else current) .intake

def laterColumns (target : TicketStage) : List TicketStage :=
  TicketStage.all.drop (TicketStage.all.idxOf target + 1)

/-- The column is NULL and every one after it is. -/
def clearedThrough (row : AlterationTicket) (stage : TicketStage) : Bool :=
  (row.stamp stage).isNone && (laterColumns stage).all fun s => (row.stamp s).isNone

/-! ## The tables -/

/-- An audit row's action with its details. -/
inductive AuditAction
  | atelierTicketStageAdvanced (from_ to_ : TicketStage)
  | atelierTicketStageUndone (stage : TicketStage) (previousStamp : Option Int)
  | atelierTicketAssigned (from_ to_ : Option Nat)
  | atelierTicketDeleted (stage : TicketStage)
deriving DecidableEq

structure AuditLog where
  id : Nat
  createdAt : Int
  actorId : Nat
  action : AuditAction
  entity : Nat
deriving DecidableEq

inductive Table
  | alterationTickets | customers | staffUsers | auditLog
deriving DecidableEq

abbrev Row : Table → Type
  | .alterationTickets => AlterationTicket
  | .customers => Customer
  | .staffUsers => StaffUser
  | .auditLog => AuditLog

def rowId : (T : Table) → Row T → Nat
  | .alterationTickets, (r : AlterationTicket) => r.id
  | .customers, (r : Customer) => r.id
  | .staffUsers, (r : StaffUser) => r.id
  | .auditLog, (r : AuditLog) => r.id

def stamp : (T : Table) → Nat → Int → Row T → Row T
  | .alterationTickets, i, n, (r : AlterationTicket) => { r with id := i, createdAt := n }
  | .customers, i, n, (r : Customer) => { r with id := i, createdAt := n }
  | .staffUsers, i, n, (r : StaffUser) => { r with id := i, createdAt := n }
  | .auditLog, i, n, (r : AuditLog) => { r with id := i, createdAt := n }

/-- The conditional UPDATEs of `AlterationTicketsRepository`. -/
inductive TicketChange
  | advanceStage (target : TicketStage) (at_ : Int)
  | undoStage (stage : TicketStage)
  | claim (staffUserId : Nat)
  | release (staffUserId : Nat)
  | assign (staffUserId : Option Nat)
  | softDelete (at_ : Int)

def TicketChange.apply (r : AlterationTicket) : TicketChange → Option AlterationTicket
  | .advanceStage target at_ =>
    if r.deletedAt = none ∧ clearedThrough r target then some (r.setStamp target (some at_)) else none
  | .undoStage stage =>
    if r.deletedAt = none ∧ (r.stamp stage).isSome ∧ (laterColumns stage).all fun s => (r.stamp s).isNone then
      some (r.setStamp stage none)
    else none
  | .claim staffUserId =>
    if r.deletedAt = none ∧ r.assignedStaffUserId = none then some { r with assignedStaffUserId := some staffUserId }
    else none
  | .release staffUserId =>
    if r.deletedAt = none ∧ r.assignedStaffUserId = some staffUserId then some { r with assignedStaffUserId := none }
    else none
  | .assign staffUserId => if r.deletedAt = none then some { r with assignedStaffUserId := staffUserId } else none
  | .softDelete at_ => if r.deletedAt = none then some { r with deletedAt := some at_ } else none

abbrev Change : Table → Type
  | .alterationTickets => TicketChange
  | _ => Empty

def applyChange : (T : Table) → Change T → Row T → Option (Row T)
  | .alterationTickets, g, (r : AlterationTicket) => TicketChange.apply r g

inductive Query
  | ticketById | ticketRefreshed | staffById | customerById
deriving DecidableEq

theorem setStamp_id (r : AlterationTicket) (s : TicketStage) (x : Option Int) : (r.setStamp s x).id = r.id := by
  cases s <;> rfl

theorem rowId_applyChange (T : Table) (g : Change T) (r r' : Row T) (h : applyChange T g r = some r') :
    rowId T r' = rowId T r := by
  cases T <;> cases g <;> simp only [applyChange, TicketChange.apply] at h
  all_goals (split at h <;> cases h)
  all_goals first | rfl | exact setStamp_id _ _ _

/-- No unique index and no CHECK concerns the columns a verb here writes. -/
abbrev schema : Schema where
  Table := Table
  tables := inferInstance
  Row := Row
  id := rowId
  stamp := stamp
  Change := Change
  apply := applyChange
  Query := Query
  check _ _ := true
  clash _ _ _ := false
  id_stamp := fun T _ _ _ => by cases T <;> rfl
  id_apply := rowId_applyChange
  clash_symm _ _ _ := rfl

inductive Err
  | atelierValidation (message : String)
  | notAuthorized
  | domainNotFound
  | ticketStageConflict
  | ticketAlreadyAssigned
  | integrity
deriving DecidableEq

abbrev Prg (α : Type) : Type := Code schema nobody Err α

/-! ## Repositories -/

def find (ticketId : Nat) (s : Snapshot schema) : Option AlterationTicket :=
  (s.rows .alterationTickets ticketId).filter fun (r : AlterationTicket) => r.deletedAt = none

def byId (ticketId : Nat) : Prg (Option AlterationTicket) := select .ticketById (find ticketId)

def refreshed (ticketId : Nat) : Prg (Option AlterationTicket) := select .ticketRefreshed (find ticketId)

def conditional (ticketId : Nat) (g : TicketChange) : Prg (Bool × Option AlterationTicket) := do
  let wrote ← update (S := schema) Err.integrity Table.alterationTickets ticketId g
  let row ← refreshed ticketId
  return (wrote.isSome, row)

namespace Tickets

def advanceStage (ticketId : Nat) (target : TicketStage) (at_ : Int) : Prg (Bool × Option AlterationTicket) :=
  conditional ticketId (.advanceStage target at_)

def undoStage (ticketId : Nat) (stage : TicketStage) : Prg (Bool × Option AlterationTicket) :=
  conditional ticketId (.undoStage stage)

def claim (ticketId staffUserId : Nat) : Prg (Bool × Option AlterationTicket) := conditional ticketId (.claim staffUserId)

def release (ticketId staffUserId : Nat) : Prg (Bool × Option AlterationTicket) :=
  conditional ticketId (.release staffUserId)

def assign (ticketId : Nat) (staffUserId : Option Nat) : Prg (Bool × Option AlterationTicket) :=
  conditional ticketId (.assign staffUserId)

def softDelete (ticketId : Nat) (txNow : Int) : Prg Bool := do
  let wrote ← update (S := schema) Err.integrity Table.alterationTickets ticketId (.softDelete txNow)
  return wrote.isSome

end Tickets

def staffById (staffId : Nat) : Prg (Option StaffUser) := select .staffById fun s =>
  (s.rows .staffUsers staffId).filter fun (r : StaffUser) => r.deletedAt = none

def customerById (customerId : Nat) : Prg (Option Customer) := select .customerById fun s =>
  (s.rows .customers customerId).filter fun (r : Customer) => r.deletedAt = none

def record (actor : StaffContext) (ticketId : Nat) (action : AuditAction) : Prg AuditLog :=
  insert (S := schema) Err.integrity Table.auditLog
    (⟨0, 0, actor.id, action, ticketId⟩ : AuditLog)

/-! ## The service -/

inductive Response
  | ticket (row : AlterationTicket) (customerName : String)
  | deleted

def load (ticketId : Nat) : Prg AlterationTicket := do
  let row ← byId ticketId
  orRaise row .domainNotFound

def mayWork (row : AlterationTicket) (actor : StaffContext) : Bool :=
  actor.elevated || row.assignedStaffUserId = none || row.assignedStaffUserId = some actor.id

def respond (row : AlterationTicket) : Prg Response := do
  let customer ← customerById row.customerId
  return .ticket row ((customer.map Customer.name).getD "")

def concludeStage (actor : StaffContext) (ticketId : Nat) (wrote : Bool) (row : AlterationTicket) (action : AuditAction)
    (already : Bool) : Prg Response := do
  if wrote then
    let _ ← record actor ticketId action
    respond row
  else
    raiseIf (!already) .ticketStageConflict
    respond row

def advance (actor : StaffContext) (ticketId : Nat) (target : TicketStage) : Prg Response :=
  tenantSession fun _ => do
    let row ← load ticketId
    raiseIf (!mayWork row actor) .notAuthorized
    let previous := stageOf row
    let at_ ← now
    let (wrote, row) ← Tickets.advanceStage ticketId target at_
    let row ← orRaise row .domainNotFound
    concludeStage actor ticketId wrote row (.atelierTicketStageAdvanced previous target) (stageOf row = target)

def undo (actor : StaffContext) (ticketId : Nat) (stage : TicketStage) : Prg Response := do
  raiseIf (stage = .intake) (.atelierValidation "intake cannot be undone")
  tenantSession fun _ => do
    let row ← load ticketId
    raiseIf (!mayWork row actor) .notAuthorized
    let previousStamp := row.stamp stage
    let (wrote, row) ← Tickets.undoStage ticketId stage
    let row ← orRaise row .domainNotFound
    concludeStage actor ticketId wrote row (.atelierTicketStageUndone stage previousStamp) (clearedThrough row stage)

def requireSeamstress (target : Option Nat) : Prg Unit :=
  match target with
  | none => return ()
  | some staffUserId => do
    let staff ← staffById staffUserId
    raiseIf (!(staff.any fun s => s.role = .seamstress)) (.atelierValidation "staff_user_id must be a live seamstress")

def reassign (actor : StaffContext) (ticketId : Nat) (target : Option Nat) : Prg AlterationTicket :=
  if actor.elevated then do
    let (_, row) ← Tickets.assign ticketId target
    orRaise row .domainNotFound
  else
    match target with
    | none => do
      let (wrote, row) ← Tickets.release ticketId actor.id
      let row ← orRaise row .domainNotFound
      raiseIf (!wrote && row.assignedStaffUserId.isSome) .ticketAlreadyAssigned
      return row
    | some _ => do
      let (wrote, row) ← Tickets.claim ticketId actor.id
      let row ← orRaise row .domainNotFound
      raiseIf (!wrote && row.assignedStaffUserId ≠ some actor.id) .ticketAlreadyAssigned
      return row

def assign (actor : StaffContext) (ticketId : Nat) (target : Option Nat) : Prg Response := do
  raiseIf (!actor.elevated && target ≠ none && target ≠ some actor.id) .notAuthorized
  tenantSession fun _ => do
    requireSeamstress target
    let row ← load ticketId
    let before := row.assignedStaffUserId
    let row ← reassign actor ticketId target
    if row.assignedStaffUserId ≠ before then
      let _ ← record actor ticketId (.atelierTicketAssigned before row.assignedStaffUserId)
      respond row
    else respond row

def delete (actor : StaffContext) (ticketId : Nat) : Prg Response :=
  tenantSession fun txNow => do
    let row ← load ticketId
    let stage := stageOf row
    let deleted ← Tickets.softDelete ticketId txNow
    raiseIf (!deleted) .domainNotFound
    let _ ← record actor ticketId (.atelierTicketDeleted stage)
    return .deleted

inductive Verb
  | advance (target : TicketStage)
  | undo (stage : TicketStage)
  | assign (target : Option Nat)
  | delete
deriving DecidableEq

structure Request where
  actor : StaffContext
  ticketId : Nat
  verb : Verb

def Request.code (req : Request) : Prg Response :=
  match req.verb with
  | .advance target => advance req.actor req.ticketId target
  | .undo stage => undo req.actor req.ticketId stage
  | .assign target => assign req.actor req.ticketId target
  | .delete => delete req.actor req.ticketId

end Atelier
