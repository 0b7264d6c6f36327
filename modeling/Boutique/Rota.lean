import Boutique.Shifts
import Boutique.TxnLocked
import Mathlib.Algebra.GroupWithZero.Nat
/-!
# Rota — a week's answers, and the roster built on them

A staffer's week is answered in one save, a material edit of a shift takes the coming answers for it back, and the week's
roster is assigned shift by shift and published.  No request takes a lock: four partial unique indexes stand in its place,
and two of the writers try once more when one of them refuses a row.
-/
namespace Rota

open Txn Session
open Shifts (ShiftTemplate ShiftTemplateChange ShiftTemplateInput validateTemplate validateCoverageTargets isMaterialEdit
  currentWeekStart)
open Boutique (WallTime jerusalemDayIndex)

/-! ## The tables -/

inductive AvailabilityState
  | available | unavailable | preferred
deriving DecidableEq

/-- The three `MATERIAL_FIELDS` of a shift. -/
structure Hours where
  dayOfWeek : Int
  startsAtTime : WallTime
  endsAtTime : WallTime
deriving DecidableEq

/-- One staffer's answer for one shift of one week.  `answered` is a ghost: the hours the submitting transaction read. -/
structure StaffAvailability where
  id : Nat
  createdAt : Int
  deletedAt : Option Int
  staffUserId : Nat
  shiftTemplateId : Nat
  weekStart : Int
  state : AvailabilityState
  recordedBy : Option Nat
  answered : Hours
deriving DecidableEq

structure Roster where
  id : Nat
  createdAt : Int
  deletedAt : Option Int
  weekStart : Int
  publishedAt : Option Int
  publishedBy : Option Nat
deriving DecidableEq

/-- `updatedAt` is the trigger's: the instant of the transaction that last updated the row. -/
structure RosterAssignment where
  id : Nat
  createdAt : Int
  updatedAt : Option Int
  deletedAt : Option Int
  rosterId : Nat
  shiftTemplateId : Nat
  staffUserId : Nat
  isShiftManager : Bool
  assignedBy : Nat
  overrideOfState : Option AvailabilityState
deriving DecidableEq

structure StateCounts where
  available : Nat
  unavailable : Nat
  preferred : Nat
deriving DecidableEq

inductive AuditAction
  | shiftTemplateUpdated (material : Bool) (invalidatedSubmissions : Nat)
  | shiftTemplateDeleted (invalidatedSubmissions : Nat)
  | availabilitySubmitted (weekStart : Int) (onBehalfOf : Option Nat) (afterDeadline : Bool) (counts : StateCounts)
      (cleared : Nat)
  | rosterAssigned (weekStart : Int) (shiftTemplateId staffUserId : Nat) (isShiftManager : Bool)
      (overrideOfState : Option AvailabilityState)
  | rosterUnassigned (weekStart : Int) (shiftTemplateId staffUserId : Nat) (isShiftManager : Bool)
  | rosterPublished (weekStart : Int) (assignments shortages : Nat) (republish : Bool)
deriving DecidableEq

/-- `entity` is the key of the template, the staffer, the assignment or the roster. -/
structure AuditLog where
  id : Nat
  createdAt : Int
  actorId : Nat
  entity : Nat
  action : AuditAction
deriving DecidableEq

inductive Table
  | shiftTemplates | staffAvailability | rosters | rosterAssignments | auditLog
deriving DecidableEq

abbrev Row : Table → Type
  | .shiftTemplates => ShiftTemplate
  | .staffAvailability => StaffAvailability
  | .rosters => Roster
  | .rosterAssignments => RosterAssignment
  | .auditLog => AuditLog

def rowId : (T : Table) → Row T → Nat
  | .shiftTemplates, (r : ShiftTemplate) => r.id
  | .staffAvailability, (r : StaffAvailability) => r.id
  | .rosters, (r : Roster) => r.id
  | .rosterAssignments, (r : RosterAssignment) => r.id
  | .auditLog, (r : AuditLog) => r.id

def stamp : (T : Table) → Nat → Int → Row T → Row T
  | .shiftTemplates, i, n, (r : ShiftTemplate) => { r with id := i, createdAt := n }
  | .staffAvailability, i, n, (r : StaffAvailability) => { r with id := i, createdAt := n }
  | .rosters, i, n, (r : Roster) => { r with id := i, createdAt := n }
  | .rosterAssignments, i, n, (r : RosterAssignment) => { r with id := i, createdAt := n }
  | .auditLog, i, n, (r : AuditLog) => { r with id := i, createdAt := n }

/-! ## The UPDATEs -/

inductive StaffAvailabilityChange
  | setState (staffUserId shiftTemplateId : Nat) (weekStart : Int) (state : AvailabilityState) (recordedBy : Option Nat)
      (answered : Hours)
  | clear (staffUserId : Nat) (weekStart : Int) (templateIds : List Nat) (now : Int)
  | invalidate (templateId : Nat) (afterWeek now : Int)

inductive RosterChange
  | stampPublished (now : Int) (publishedBy : Nat)

inductive RosterAssignmentChange
  | setManagerFlag (isShiftManager : Bool) (now : Int)
  | softDelete (now : Int)

abbrev Change : Table → Type
  | .shiftTemplates => ShiftTemplateChange
  | .staffAvailability => StaffAvailabilityChange
  | .rosters => RosterChange
  | .rosterAssignments => RosterAssignmentChange
  | .auditLog => Empty

def StaffAvailability.live (r : StaffAvailability) : Bool := r.deletedAt = none

def StaffAvailability.ofWeek (r : StaffAvailability) (staffUserId : Nat) (weekStart : Int) : Bool :=
  r.staffUserId = staffUserId ∧ r.weekStart = weekStart

def StaffAvailability.follows (r : StaffAvailability) (templateId : Nat) (afterWeek : Int) : Bool :=
  r.shiftTemplateId = templateId ∧ afterWeek < r.weekStart ∧ r.live

def StaffAvailabilityChange.apply (r : StaffAvailability) : StaffAvailabilityChange → Option StaffAvailability
  | .setState staffUserId shiftTemplateId weekStart state recordedBy answered =>
    if r.ofWeek staffUserId weekStart ∧ r.shiftTemplateId = shiftTemplateId ∧ r.live then
      some { r with state := state, recordedBy := recordedBy, answered := answered }
    else none
  | .clear staffUserId weekStart templateIds now =>
    if r.ofWeek staffUserId weekStart ∧ r.shiftTemplateId ∈ templateIds ∧ r.live then
      some { r with deletedAt := some now }
    else none
  | .invalidate templateId afterWeek now =>
    if r.follows templateId afterWeek then some { r with deletedAt := some now } else none

def RosterChange.apply (r : Roster) : RosterChange → Option Roster
  | .stampPublished now publishedBy =>
    if r.deletedAt = none then some { r with publishedAt := some now, publishedBy := some publishedBy } else none

def RosterAssignmentChange.apply (r : RosterAssignment) : RosterAssignmentChange → Option RosterAssignment
  | .setManagerFlag isShiftManager now =>
    if r.deletedAt = none then some { r with isShiftManager := isShiftManager, updatedAt := some now } else none
  | .softDelete now =>
    if r.deletedAt = none then some { r with deletedAt := some now, updatedAt := some now } else none

def applyChange : (T : Table) → Change T → Row T → Option (Row T)
  | .shiftTemplates, g, (r : ShiftTemplate) => ShiftTemplateChange.apply r g
  | .staffAvailability, g, (r : StaffAvailability) => StaffAvailabilityChange.apply r g
  | .rosters, g, (r : Roster) => RosterChange.apply r g
  | .rosterAssignments, g, (r : RosterAssignment) => RosterAssignmentChange.apply r g

def clash : (T : Table) → Row T → Row T → Bool
  | .staffAvailability, (r : StaffAvailability), (r' : StaffAvailability) =>
    r.live ∧ r'.live ∧ r.staffUserId = r'.staffUserId ∧ r.shiftTemplateId = r'.shiftTemplateId ∧
      r.weekStart = r'.weekStart
  | .rosters, (r : Roster), (r' : Roster) => r.deletedAt = none ∧ r'.deletedAt = none ∧ r.weekStart = r'.weekStart
  | .rosterAssignments, (r : RosterAssignment), (r' : RosterAssignment) =>
    r.deletedAt = none ∧ r'.deletedAt = none ∧ r.rosterId = r'.rosterId ∧ r.shiftTemplateId = r'.shiftTemplateId ∧
      (r.staffUserId = r'.staffUserId ∨ r.isShiftManager ∧ r'.isShiftManager)
  | _, _, _ => false

def rowCheck : (T : Table) → Row T → Bool
  | .shiftTemplates, (r : ShiftTemplate) =>
    (0 ≤ r.dayOfWeek ∧ r.dayOfWeek ≤ 6) ∧ r.startsAtTime.micros < r.endsAtTime.micros
  | .staffAvailability, (r : StaffAvailability) => jerusalemDayIndex r.weekStart = 0
  | .rosters, (r : Roster) => jerusalemDayIndex r.weekStart = 0 ∧ (r.publishedAt = none ↔ r.publishedBy = none)
  | _, _ => true

inductive Query
  | templateById | listLive | liveForWeek | setState (staffUserId : Nat) (weekStart : Int)
  | softDeletePairs (staffUserId : Nat) (weekStart : Int) | softDeleteFutureByTemplate | byWeek | rosterById
  | liveForTriple | assignmentById | byRoster | changedSince
deriving DecidableEq

theorem rowId_applyChange (T : Table) (g : Change T) (r r' : Row T) (h : applyChange T g r = some r') :
    rowId T r' = rowId T r := by
  cases T <;> cases g <;> simp only [applyChange, ShiftTemplateChange.apply, StaffAvailabilityChange.apply,
    RosterChange.apply, RosterAssignmentChange.apply] at h
  all_goals (split at h <;> cases h)
  all_goals rfl

theorem clash_symm (T : Table) (r r' : Row T) : clash T r r' = clash T r' r := by
  rw [Bool.eq_iff_iff]
  cases T <;> simp only [clash, decide_eq_true_eq]
  · constructor <;> rintro ⟨hr, hr', hstaff, htemplate, hweek⟩ <;>
      exact ⟨hr', hr, hstaff.symm, htemplate.symm, hweek.symm⟩
  · constructor <;> rintro ⟨hr, hr', hweek⟩ <;> exact ⟨hr', hr, hweek.symm⟩
  · constructor <;> rintro ⟨hr, hr', hroster, htemplate, hslot⟩ <;>
      exact ⟨hr', hr, hroster.symm, htemplate.symm, hslot.imp Eq.symm And.symm⟩

abbrev schema : Schema where
  Table := Table
  tables := inferInstance
  Row := Row
  id := rowId
  stamp := stamp
  Change := Change
  apply := applyChange
  Query := Query
  check := rowCheck
  clash := clash
  id_stamp := fun T _ _ _ => by cases T <;> rfl
  id_apply := rowId_applyChange
  clash_symm := clash_symm

/-! ## The world outside -/

inductive Err
  | shifts (e : Shifts.Err)
  | shiftNotFound
  | notAuthorized
  | weekOutOfRange
  | submissionClosed
  | notShiftManagerEligible
  | availabilityConflict
  | shiftManagerSlotTaken
  | integrity
deriving DecidableEq

/-- What the services ask: the boutique's day, a week's deadline, the staff, and which index refused a row. -/
inductive Ask
  | today
  | afterDeadline (weekStart : Int)
  | staffer (staffUserId : Nat) (weekStart : Int)
  | roles
  | managerIndex

abbrev Ans : Ask → Type
  | .today => Int
  | .afterDeadline _ | .managerIndex => Bool
  | .staffer .. => Option Bool
  | .roles => List (Nat × String)

structure Input where
  day : Int
  yes : Bool
  eligible : Option Bool
  roles : List (Nat × String)

/-- The latest day shown to anybody, and the last one shown to each. -/
structure Days where
  latest : Int
  shown : Tid → Int

/-- The boutique's day is never answered earlier than it was before. -/
def serve : (q : Ask) → Input → Int → Ans q
  | .today, i, latest => max latest i.day
  | .afterDeadline _, i, _ | .managerIndex, i, _ => i.yes
  | .staffer .., i, _ => i.eligible
  | .roles, i, _ => i.roles

def Days.show (t : Tid) : Ask → Input → Days → Days
  | .today, i, days => ⟨max days.latest i.day, Function.update days.shown t (max days.latest i.day)⟩
  | _, _, days => days

abbrev outside : Service where
  Ask := Ask
  Ans := Ans
  Input := Input
  Store := Days
  Mine := Int
  serve t q i _ days := (serve q i days.latest, days.show t q i)
  mine t days := days.shown t
  serve_mine t u q i _ days hu := by
    cases q with
    | today => exact Function.update_of_ne hu _ _
    | afterDeadline | staffer | roles | managerIndex => rfl

abbrev Prg (α : Type) : Type := Code schema outside Err α

abbrev ask (q : Ask) : Prg (Ans q) := Session.ask (V := outside) q

abbrev update (T : Table) (i : Nat) (g : Change T) : Prg (Option (Row T)) :=
  Session.update (S := schema) Err.integrity T i g

abbrev insert (T : Table) (r : Row T) : Prg (Row T) := Session.insert (S := schema) Err.integrity T r

abbrev updateEach (T : Table) (g : Change T) (is : List Nat) : Prg (List (Row T)) :=
  Session.updateEach (S := schema) Err.integrity T g is

def valid {α : Type} : Except Shifts.Err α → Prg α
  | .ok a => return a
  | .error e => .raise (.shifts e)

def record (actorId entity : Nat) (action : AuditAction) : Prg Unit := do
  let row : AuditLog := ⟨0, 0, actorId, entity, action⟩
  let _ ← insert .auditLog row
  return ()

/-! ## The repositories -/

def templateById (templateId : Nat) : Prg (Option ShiftTemplate) :=
  select .templateById fun s => (s.rows .shiftTemplates templateId).filter fun (r : ShiftTemplate) => r.deletedAt = none

def listLive : Prg (List ShiftTemplate) :=
  select .listLive fun s => (s.all .shiftTemplates).filter fun (r : ShiftTemplate) => r.deletedAt = none

def replaceTemplate (templateId : Nat) (body : ShiftTemplateInput) (label : String) (targets : List (String × Int)) :
    Prg (Option ShiftTemplate) := do
  let row ← update .shiftTemplates templateId
    (.replace body.dayOfWeek label body.startsAtTime body.endsAtTime body.sortOrder targets)
  match row with
  | none => return none
  | some _ => templateById templateId

def liveForWeek (staffUserId : Nat) (weekStart : Int) : Prg (List StaffAvailability) :=
  select .liveForWeek fun s =>
    (s.all .staffAvailability).filter fun (r : StaffAvailability) => r.ofWeek staffUserId weekStart ∧ r.live

def setState (staffUserId shiftTemplateId : Nat) (weekStart : Int) (state : AvailabilityState) (recordedBy : Option Nat)
    (answered : Hours) : Prg Unit := do
  let ids ← select (.setState staffUserId weekStart) fun s => matching s .staffAvailability fun (r : StaffAvailability) =>
    r.ofWeek staffUserId weekStart ∧ r.shiftTemplateId = shiftTemplateId ∧ r.live
  let rows ← updateEach .staffAvailability
    (.setState staffUserId shiftTemplateId weekStart state recordedBy answered) ids
  if rows.isEmpty then do
    let row : StaffAvailability := ⟨0, 0, none, staffUserId, shiftTemplateId, weekStart, state, recordedBy, answered⟩
    let _ ← insert .staffAvailability row
    return ()
  else return ()

def softDeletePairs (staffUserId : Nat) (weekStart : Int) (templateIds : List Nat) (txNow : Int) : Prg Unit :=
  if templateIds.isEmpty then return ()
  else do
    let ids ← select (.softDeletePairs staffUserId weekStart) fun s =>
      matching s .staffAvailability fun (r : StaffAvailability) =>
        r.ofWeek staffUserId weekStart ∧ r.shiftTemplateId ∈ templateIds ∧ r.live
    let _ ← updateEach .staffAvailability (.clear staffUserId weekStart templateIds txNow) ids
    return ()

def softDeleteFutureByTemplate (templateId : Nat) (afterWeek txNow : Int) : Prg Nat := do
  let ids ← select .softDeleteFutureByTemplate fun s =>
    matching s .staffAvailability fun (r : StaffAvailability) => r.follows templateId afterWeek
  let rows ← updateEach .staffAvailability (.invalidate templateId afterWeek txNow) ids
  return rows.length

def byWeek (weekStart : Int) : Prg (Option Roster) :=
  select .byWeek fun s => (s.all .rosters).find? fun (r : Roster) => r.weekStart = weekStart ∧ r.deletedAt = none

def createRoster (weekStart : Int) : Prg Roster := do
  let row : Roster := ⟨0, 0, none, weekStart, none, none⟩
  insert .rosters row

def rosterOf (weekStart : Int) : Prg Roster := do
  let found ← byWeek weekStart
  match found with
  | some roster => return roster
  | none => createRoster weekStart

def liveForTriple (rosterId shiftTemplateId staffUserId : Nat) : Prg (Option RosterAssignment) :=
  select .liveForTriple fun s => (s.all .rosterAssignments).find? fun (r : RosterAssignment) =>
    r.rosterId = rosterId ∧ r.shiftTemplateId = shiftTemplateId ∧ r.staffUserId = staffUserId ∧ r.deletedAt = none

def assignmentById (assignmentId : Nat) : Prg (Option RosterAssignment) :=
  select .assignmentById fun s =>
    (s.rows .rosterAssignments assignmentId).filter fun (r : RosterAssignment) => r.deletedAt = none

def byRoster (rosterId : Nat) : Prg (List RosterAssignment) :=
  select .byRoster fun s => (s.all .rosterAssignments).filter fun (r : RosterAssignment) =>
    r.rosterId = rosterId ∧ r.deletedAt = none

def RosterAssignment.since (r : RosterAssignment) (at_ : Int) : Bool := at_ < r.createdAt ∨ r.updatedAt.any (at_ < ·)

def changedSince (rosterId : Nat) (at_ : Int) : Prg Bool :=
  select .changedSince fun s => (s.all .rosterAssignments).any fun (r : RosterAssignment) => r.rosterId = rosterId ∧ r.since at_

/-! ## The week -/

structure StaffContext where
  id : Nat
  elevated : Bool

def SUBMISSION_WEEK_WINDOW_WEEKS : Int := 4

def assertReadableWeek (weekStart current : Int) : Prg Unit := do
  raiseIf (jerusalemDayIndex weekStart ≠ 0) (.shifts (.shiftsValidation "week_start must be a Sunday"))
  raiseIf (jerusalemDayIndex current ≠ 0) (.shifts (.shiftsValidation "week_start must be a Sunday"))
  raiseIf (SUBMISSION_WEEK_WINDOW_WEEKS < ((weekStart - current) / 7).natAbs) .weekOutOfRange

def assertWritableWeek (weekStart current : Int) : Prg Unit := do
  assertReadableWeek weekStart current
  raiseIf (weekStart ≤ current) .weekOutOfRange

/-! ## The templates -/

def invalidateIf (material : Bool) (templateId : Nat) (afterWeek txNow : Int) : Prg Nat :=
  if material then softDeleteFutureByTemplate templateId afterWeek txNow else return 0

inductive Reply
  | written (template : Option ShiftTemplate) (invalidatedSubmissions : Nat)
  | week (templates : List ShiftTemplate) (entries : List StaffAvailability)
  | shift (template : ShiftTemplate) (assignments : List RosterAssignment)
  | roster (publishedAt : Option Int) (editedSincePublish : Bool) (assignments : List RosterAssignment)
deriving DecidableEq

def updateTemplate (actorId templateId : Nat) (body : ShiftTemplateInput) : Prg Reply := do
  let label ← valid (validateTemplate body.dayOfWeek body.label body.startsAtTime body.endsAtTime)
  let targets ← valid (validateCoverageTargets body.coverageTargets)
  let today ← ask .today
  tenantSession fun txNow => do
    let found ← templateById templateId
    let before ← orRaise found .shiftNotFound
    let row ← replaceTemplate templateId body label targets
    let row ← orRaise row .shiftNotFound
    let invalidated ← invalidateIf (isMaterialEdit before body) templateId (currentWeekStart today) txNow
    record actorId templateId (.shiftTemplateUpdated (isMaterialEdit before body) invalidated)
    return .written (some row) invalidated

def deleteTemplate (actorId templateId : Nat) : Prg Reply := do
  let today ← ask .today
  tenantSession fun txNow => do
    let deleted ← update .shiftTemplates templateId (.softDelete txNow)
    raiseIf deleted.isNone .shiftNotFound
    let invalidated ← softDeleteFutureByTemplate templateId (currentWeekStart today) txNow
    record actorId templateId (.shiftTemplateDeleted invalidated)
    return .written none invalidated

/-! ## The answers -/

structure SubmitAvailabilityRequest where
  weekStart : Int
  staffUserId : Option Nat
  entries : List (Nat × AvailabilityState)

def requested (entries : List (Nat × AvailabilityState)) (templateId : Nat) : Option AvailabilityState :=
  (entries.reverse.find? fun entry => entry.1 = templateId).map Prod.snd

def named (entries : List (Nat × AvailabilityState)) : List Nat := (entries.map Prod.fst).eraseDups

abbrev Answer : Type := AvailabilityState × Option Nat

def standing (existing : List StaffAvailability) (templateId : Nat) : Option Answer :=
  (existing.find? fun r => r.shiftTemplateId = templateId).map fun r => (r.state, r.recordedBy)

def planWeekWrite (existing : List StaffAvailability) (entries : List (Nat × AvailabilityState)) (recordedBy : Option Nat) :
    List Nat × List Nat :=
  ((named entries).filter fun templateId =>
      standing existing templateId ≠ (requested entries templateId).map fun state => (state, recordedBy),
    (existing.map StaffAvailability.shiftTemplateId).filter fun templateId => templateId ∉ named entries)

def stateCounts (states : List AvailabilityState) : StateCounts :=
  ⟨states.count .available, states.count .unavailable, states.count .preferred⟩

def hours (r : ShiftTemplate) : Hours := ⟨r.dayOfWeek, r.startsAtTime, r.endsAtTime⟩

structure Entry where
  shiftTemplateId : Nat
  state : AvailabilityState
  answered : Hours

def written (templates : List ShiftTemplate) (entries : List (Nat × AvailabilityState)) (changed : List Nat) : List Entry :=
  changed.filterMap fun templateId => do
    let state ← requested entries templateId
    let template ← templates.find? fun r => r.id = templateId
    return ⟨templateId, state, hours template⟩

def setEach (staffUserId : Nat) (weekStart : Int) (recordedBy : Option Nat) : List Entry → Prg Unit
  | [] => return ()
  | entry :: rest => do
    setState staffUserId entry.shiftTemplateId weekStart entry.state recordedBy entry.answered
    setEach staffUserId weekStart recordedBy rest

def recorder (actorId target : Nat) : Option Nat := if target ≠ actorId then some actorId else none

def applyWeek (actorId target : Nat) (body : SubmitAvailabilityRequest) (afterDeadline : Bool) : Prg Unit :=
  tenantSession fun txNow => do
    let staffer ← ask (.staffer target body.weekStart)
    raiseIf staffer.isNone .shiftNotFound
    let templates ← listLive
    raiseIf ((named body.entries).any fun templateId => templateId ∉ templates.map ShiftTemplate.id) .shiftNotFound
    let existing ← liveForWeek target body.weekStart
    let plan := planWeekWrite existing body.entries (recorder actorId target)
    if plan.1.isEmpty ∧ plan.2.isEmpty then return ()
    else do
      setEach target body.weekStart (recorder actorId target) (written templates body.entries plan.1)
      softDeletePairs target body.weekStart plan.2 txNow
      record actorId target (.availabilitySubmitted body.weekStart
        ((recorder actorId target).map fun _ => target) afterDeadline
        (stateCounts ((named body.entries).filterMap (requested body.entries))) plan.2.length)

def retried (p : Prg Unit) : Prg Unit := do
  let first ← p.attempt
  match first with
  | .ok _ => return ()
  | .error .integrity => p
  | .error e => .raise e

def submit (actor : StaffContext) (body : SubmitAvailabilityRequest) : Prg Reply := do
  raiseIf (body.staffUserId.getD actor.id ≠ actor.id && !actor.elevated) .notAuthorized
  let today ← ask .today
  assertWritableWeek body.weekStart (currentWeekStart today)
  let afterDeadline ← ask (.afterDeadline body.weekStart)
  raiseIf (afterDeadline && !actor.elevated) .submissionClosed
  retried (applyWeek actor.id (body.staffUserId.getD actor.id) body afterDeadline)
  tenantSession fun _ => do
    let templates ← listLive
    let entries ← liveForWeek (body.staffUserId.getD actor.id) body.weekStart
    return .week templates entries

/-! ## The roster -/

structure CreateAssignmentRequest where
  weekStart : Int
  shiftTemplateId : Nat
  staffUserId : Nat
  isShiftManager : Bool
  acknowledgeOverride : Bool

/-- Only an acknowledged refusal is stamped, and one that is not is a conflict. -/
def overrideStamp (submitted : Option AvailabilityState) (acknowledged : Bool) : Except Err (Option AvailabilityState) :=
  if submitted ≠ some .unavailable then .ok none
  else if acknowledged then .ok submitted
  else .error .availabilityConflict

def orFail {α : Type} : Except Err α → Prg α
  | .ok a => return a
  | .error e => .raise e

def shiftPayload (template : ShiftTemplate) (rosterId : Nat) : Prg Reply := do
  let assignments ← byRoster rosterId
  return .shift template (assignments.filter fun r => r.shiftTemplateId = template.id)

def reflag (actorId : Nat) (body : CreateAssignmentRequest) (row : RosterAssignment) (txNow : Int) : Prg Unit :=
  if row.isShiftManager ≠ body.isShiftManager then do
    let _ ← update .rosterAssignments row.id (.setManagerFlag body.isShiftManager txNow)
    record actorId row.id (.rosterAssigned body.weekStart body.shiftTemplateId body.staffUserId body.isShiftManager
      row.overrideOfState)
  else return ()

def insertAssignment (actorId rosterId : Nat) (body : CreateAssignmentRequest) : Prg Unit := do
  let submitted ← liveForWeek body.staffUserId body.weekStart
  let state := (submitted.find? fun r => r.shiftTemplateId = body.shiftTemplateId).map StaffAvailability.state
  let override ← orFail (overrideStamp state body.acknowledgeOverride)
  let row : RosterAssignment :=
    ⟨0, 0, none, none, rosterId, body.shiftTemplateId, body.staffUserId, body.isShiftManager, actorId, override⟩
  let row ← insert .rosterAssignments row
  record actorId (RosterAssignment.id row) (.rosterAssigned body.weekStart body.shiftTemplateId body.staffUserId
    body.isShiftManager override)

def applyAssignment (actorId : Nat) (body : CreateAssignmentRequest) : Prg Reply :=
  tenantSession fun txNow => do
    let found ← templateById body.shiftTemplateId
    let template ← orRaise found .shiftNotFound
    let staffer ← ask (.staffer body.staffUserId body.weekStart)
    let eligible ← orRaise staffer .shiftNotFound
    raiseIf (body.isShiftManager && !eligible) .notShiftManagerEligible
    let roster ← rosterOf body.weekStart
    let live ← liveForTriple roster.id template.id body.staffUserId
    match live with
    | some row => do
      reflag actorId body row txNow
      shiftPayload template roster.id
    | none => do
      insertAssignment actorId roster.id body
      shiftPayload template roster.id

/-- `_reject_manager_conflict`, told by the driver's name of the index; another refusal falls through. -/
def rejectManagerConflict : Prg Unit := do
  let manager ← ask .managerIndex
  raiseIf manager .shiftManagerSlotTaken

def assign (actor : StaffContext) (body : CreateAssignmentRequest) : Prg Reply := do
  raiseIf (!actor.elevated) .notAuthorized
  let today ← ask .today
  assertReadableWeek body.weekStart (currentWeekStart today)
  let first ← (applyAssignment actor.id body).attempt
  match first with
  | .ok reply => return reply
  | .error .integrity => do
    rejectManagerConflict
    let second ← (applyAssignment actor.id body).attempt
    match second with
    | .ok reply => return reply
    | .error .integrity => do
      rejectManagerConflict
      .raise .integrity
    | .error e => .raise e
  | .error e => .raise e

def unassign (actor : StaffContext) (assignmentId : Nat) : Prg Reply := do
  raiseIf (!actor.elevated) .notAuthorized
  tenantSession fun txNow => do
    let found ← assignmentById assignmentId
    let before ← orRaise found .shiftNotFound
    let deleted ← update .rosterAssignments assignmentId (.softDelete txNow)
    raiseIf deleted.isNone .shiftNotFound
    let roster ← select .rosterById fun s =>
      (s.rows .rosters before.rosterId).filter fun (r : Roster) => r.deletedAt = none
    let template ← templateById before.shiftTemplateId
    let roster : Roster ← orRaise roster .shiftNotFound
    let template ← orRaise template .shiftNotFound
    record actor.id assignmentId (.rosterUnassigned roster.weekStart before.shiftTemplateId before.staffUserId
      before.isShiftManager)
    shiftPayload template roster.id

def readRoster (weekStart : Int) : Prg Reply :=
  tenantSession fun _ => do
    let found ← byWeek weekStart
    match found with
    | none => return .roster none false []
    | some roster => do
      let assignments ← byRoster roster.id
      match roster.publishedAt with
      | none => return .roster none false assignments
      | some at_ => do
        let edited ← changedSince roster.id at_
        return .roster (some at_) edited assignments

def shownOn (roles : List (Nat × String)) (assignments : List RosterAssignment) (template : ShiftTemplate) : List String :=
  (assignments.filter fun r => r.shiftTemplateId = template.id).filterMap fun r =>
    (roles.find? fun p => p.1 = r.staffUserId).map Prod.snd

def shortageCount (roles : List (Nat × String)) (assignments : List RosterAssignment) (templates : List ShiftTemplate) : Nat :=
  templates.countP fun template =>
    template.coverageTargets.any fun p => ((shownOn roles assignments template).count p.1 : Int) < p.2

def unmoved (roster : Roster) : Prg Bool :=
  match roster.publishedAt with
  | none => return false
  | some at_ => do
    let changed ← changedSince roster.id at_
    return !changed

def publishWeek (actorId : Nat) (weekStart : Int) : Prg Unit :=
  tenantSession fun txNow => do
    let roster ← rosterOf weekStart
    let still ← unmoved roster
    if still then return ()
    else do
      let _ ← update .rosters roster.id (.stampPublished txNow actorId)
      let assignments ← byRoster roster.id
      let templates ← listLive
      let roles ← ask .roles
      record actorId roster.id (.rosterPublished weekStart
        ((templates.map fun template => (shownOn roles assignments template).length).sum)
        (shortageCount roles assignments templates) roster.publishedAt.isSome)

def publish (actor : StaffContext) (weekStart : Int) : Prg Reply := do
  raiseIf (!actor.elevated) .notAuthorized
  let today ← ask .today
  assertReadableWeek weekStart (currentWeekStart today)
  publishWeek actor.id weekStart
  readRoster weekStart

inductive Request
  | updateTemplate (actorId templateId : Nat) (body : ShiftTemplateInput)
  | deleteTemplate (actorId templateId : Nat)
  | submit (actor : StaffContext) (body : SubmitAvailabilityRequest)
  | assign (actor : StaffContext) (body : CreateAssignmentRequest)
  | unassign (actor : StaffContext) (assignmentId : Nat)
  | publish (actor : StaffContext) (weekStart : Int)
  | roster (weekStart : Int)

def Request.code : Request → Prg Reply
  | .updateTemplate actorId templateId body => Rota.updateTemplate actorId templateId body
  | .deleteTemplate actorId templateId => Rota.deleteTemplate actorId templateId
  | .submit actor body => Rota.submit actor body
  | .assign actor body => Rota.assign actor body
  | .unassign actor assignmentId => Rota.unassign actor assignmentId
  | .publish actor weekStart => Rota.publish actor weekStart
  | .roster weekStart => readRoster weekStart

abbrev serving (reqs : Tid → Request) (rows : Rows schema) (next : Nat) (clock today : Int) :
    Conf (machine schema outside Err) Reply :=
  staged ⟨today, fun _ => today⟩ (fun t => (reqs t).code) rows next clock

def calls (t : Tid) (n : Nat) : List (Action (machine schema outside Err)) :=
  List.replicate n (.call t ⟨0, false, some true, []⟩)

end Rota
