import Boutique.TxnSession
import Boutique.Validation
/-!
# Shifts — the boutique's shift templates

The four writers of `shift_templates` in `ShiftsService` with the repositories they call: a template is created, replaced,
removed, or the whole grid is seeded once from the opening hours.  Two templates of one weekday may overlap; their number
is what the service bounds.
-/
namespace Shifts

open Txn Session
open Boutique (AvailabilityRule WallTime Zone strip jerusalemDayIndex second)

/-- A template's pair of times is a CHECK of the table, and so is its weekday: 0=Sunday … 6=Saturday. -/
structure ShiftTemplate where
  id : Nat
  createdAt : Int
  deletedAt : Option Int
  dayOfWeek : Int
  label : String
  startsAtTime : WallTime
  endsAtTime : WallTime
  sortOrder : Int
  coverageTargets : List (String × Int)
deriving DecidableEq

/-- One staffer's answer for one shift of one week; the week is named by its Sunday. -/
structure StaffAvailability where
  id : Nat
  createdAt : Int
  deletedAt : Option Int
  shiftTemplateId : Nat
  weekStart : Int

inductive AuditAction
  | shiftTemplateCreated (templateId : Nat) (dayOfWeek : Int)
  | shiftTemplateUpdated (templateId : Nat) (material : Bool) (invalidatedSubmissions : Nat)
  | shiftTemplateDeleted (templateId : Nat) (invalidatedSubmissions : Nat)
  | shiftTemplatesSeeded (created : Nat)

structure AuditLog where
  id : Nat
  createdAt : Int
  actorId : Nat
  action : AuditAction

inductive Table
  | shiftTemplates | staffAvailability | availabilityRules | auditLog
deriving DecidableEq

abbrev Row : Table → Type
  | .shiftTemplates => ShiftTemplate
  | .staffAvailability => StaffAvailability
  | .availabilityRules => AvailabilityRule
  | .auditLog => AuditLog

def rowId : (T : Table) → Row T → Nat
  | .shiftTemplates, (r : ShiftTemplate) => r.id
  | .staffAvailability, (r : StaffAvailability) => r.id
  | .availabilityRules, (r : AvailabilityRule) => r.id
  | .auditLog, (r : AuditLog) => r.id

def stamp : (T : Table) → Nat → Int → Row T → Row T
  | .shiftTemplates, i, n, (r : ShiftTemplate) => { r with id := i, createdAt := n }
  | .staffAvailability, i, n, (r : StaffAvailability) => { r with id := i, createdAt := n }
  | .availabilityRules, i, n, (r : AvailabilityRule) => { r with id := i, createdAt := n }
  | .auditLog, i, n, (r : AuditLog) => { r with id := i, createdAt := n }

inductive ShiftTemplateChange
  | replace (dayOfWeek : Int) (label : String) (startsAtTime endsAtTime : WallTime) (sortOrder : Int)
      (coverageTargets : List (String × Int))
  | softDelete (at_ : Int)

inductive StaffAvailabilityChange
  | softDelete (templateId : Nat) (afterWeek at_ : Int)

abbrev Change : Table → Type
  | .shiftTemplates => ShiftTemplateChange
  | .staffAvailability => StaffAvailabilityChange
  | _ => Empty

def ShiftTemplateChange.apply (r : ShiftTemplate) : ShiftTemplateChange → Option ShiftTemplate
  | .replace dayOfWeek label startsAtTime endsAtTime sortOrder coverageTargets =>
    if r.deletedAt = none then
      some { r with dayOfWeek := dayOfWeek, label := label, startsAtTime := startsAtTime, endsAtTime := endsAtTime,
                    sortOrder := sortOrder, coverageTargets := coverageTargets }
    else none
  | .softDelete at_ => if r.deletedAt = none then some { r with deletedAt := some at_ } else none

def StaffAvailability.invalidates (r : StaffAvailability) (templateId : Nat) (afterWeek : Int) : Bool :=
  r.shiftTemplateId = templateId ∧ afterWeek < r.weekStart ∧ r.deletedAt = none

def applyChange : (T : Table) → Change T → Row T → Option (Row T)
  | .shiftTemplates, g, (r : ShiftTemplate) => ShiftTemplateChange.apply r g
  | .staffAvailability, .softDelete templateId afterWeek at_, (r : StaffAvailability) =>
    if r.invalidates templateId afterWeek then some { r with deletedAt := some at_ } else none

inductive Query
  | listLive | counts | templateById | softDeleteFutureByTemplate | rulesListActive
deriving DecidableEq

def rowCheck : (T : Table) → Row T → Bool
  | .shiftTemplates, (r : ShiftTemplate) =>
    (0 ≤ r.dayOfWeek ∧ r.dayOfWeek ≤ 6) ∧ r.startsAtTime.micros < r.endsAtTime.micros
  | .availabilityRules, (r : AvailabilityRule) =>
    (0 ≤ r.dayOfWeek ∧ r.dayOfWeek ≤ 6) ∧ 0 < r.capacity ∧ r.openTime.micros < r.closeTime.micros
  | _, _ => true

theorem rowId_applyChange (T : Table) (g : Change T) (r r' : Row T) (h : applyChange T g r = some r') :
    rowId T r' = rowId T r := by
  cases T <;> cases g <;> simp only [applyChange, ShiftTemplateChange.apply] at h
  all_goals (split at h <;> cases h; rfl)

/-- No unique index stands on the templates: `idx_staff_availability_unique` concerns rows no writer here makes live. -/
abbrev schema : Schema where
  Table := Table
  tables := inferInstance
  Row := Row
  id := rowId
  stamp := stamp
  Change := Change
  apply := applyChange
  Query := Query
  check := rowCheck
  clash _ _ _ := false
  id_stamp := fun T _ _ _ => by cases T <;> rfl
  id_apply := rowId_applyChange
  clash_symm _ _ _ := rfl

inductive Err
  | shiftsValidation (message : String)
  | coverageTargetInvalid
  | templateLimitReached
  | shiftNotFound
  | templatesAlreadySeeded
  | noOpeningHours
  | integrity
deriving DecidableEq

abbrev Prg (α : Type) : Type := Code schema nobody Err α

abbrev update (T : Table) (i : Nat) (g : Change T) : Prg (Option (Row T)) :=
  Session.update (S := schema) Err.integrity T i g

abbrev insert (T : Table) (r : Row T) : Prg (Row T) := Session.insert (S := schema) Err.integrity T r

/-! ## Validation -/

def MAX_TEMPLATES_PER_DAY : Nat := 6
def MAX_TEMPLATES : Nat := MAX_TEMPLATES_PER_DAY * 7
def MAX_SHIFT_LABEL_LENGTH : Nat := 60
def MAX_COVERAGE_TARGET : Int := 20

def staffRoles : List String := ["owner", "shift_manager", "reception", "sales_assistant", "seamstress"]

/-- A value of the coverage map as the wire has it; `bool` is not an `int` here. -/
inductive TargetValue
  | int (n : Int) | bool (b : Bool) | other

def validateTemplate (dayOfWeek : Int) (label : String) (startsAtTime endsAtTime : WallTime) : Except Err String :=
  let trimmed := strip label
  if ¬(0 ≤ dayOfWeek ∧ dayOfWeek ≤ 6) then .error (.shiftsValidation "day_of_week must be between 0 and 6")
  else if trimmed.toList = [] then .error (.shiftsValidation "label must not be blank")
  else if MAX_SHIFT_LABEL_LENGTH < trimmed.toList.length then .error (.shiftsValidation "label is too long")
  else if endsAtTime.micros ≤ startsAtTime.micros then
    .error (.shiftsValidation "ends_at_time must be after starts_at_time")
  else .ok trimmed

def validateCoverageTargets : List (String × TargetValue) → Except Err (List (String × Int))
  | [] => .ok []
  | (key, value) :: rest =>
    match value with
    | .int n =>
      if key ∈ staffRoles ∧ 0 ≤ n ∧ n ≤ MAX_COVERAGE_TARGET then do
        let validated ← validateCoverageTargets rest
        return (key, n) :: validated
      else .error .coverageTargetInvalid
    | _ => .error .coverageTargetInvalid

def assertTemplateCapacity (dayCount totalCount : Nat) : Prg Unit :=
  raiseIf (MAX_TEMPLATES_PER_DAY ≤ dayCount || MAX_TEMPLATES ≤ totalCount) .templateLimitReached

def liftExcept {α : Type} : Except Err α → Prg α
  | .ok a => return a
  | .error e => throw e

/-! ## Repositories -/

namespace Templates

def live (s : Snapshot schema) : List ShiftTemplate :=
  (s.all .shiftTemplates).filter fun (r : ShiftTemplate) => r.deletedAt = none

def listLive : Prg (List ShiftTemplate) := select .listLive fun s => (live s).insertionSort fun r r' =>
  r.dayOfWeek < r'.dayOfWeek ∨ r.dayOfWeek = r'.dayOfWeek ∧
    (r.sortOrder < r'.sortOrder ∨ r.sortOrder = r'.sortOrder ∧ r.startsAtTime.micros ≤ r'.startsAtTime.micros)

def find (templateId : Nat) (s : Snapshot schema) : Option ShiftTemplate :=
  (s.rows .shiftTemplates templateId).filter fun (r : ShiftTemplate) => r.deletedAt = none

def byId (templateId : Nat) : Prg (Option ShiftTemplate) := select .templateById (find templateId)

def dayCount (dayOfWeek : Int) (s : Snapshot schema) : Nat := (live s).countP fun r => r.dayOfWeek = dayOfWeek

def counts (dayOfWeek : Int) : Prg (Nat × Nat) := select .counts fun s => (dayCount dayOfWeek s, (live s).length)

def draft (dayOfWeek : Int) (label : String) (startsAtTime endsAtTime : WallTime) (sortOrder : Int)
    (coverageTargets : List (String × Int)) : ShiftTemplate where
  id := 0
  createdAt := 0
  deletedAt := none
  dayOfWeek := dayOfWeek
  label := label
  startsAtTime := startsAtTime
  endsAtTime := endsAtTime
  sortOrder := sortOrder
  coverageTargets := coverageTargets

def insert (dayOfWeek : Int) (label : String) (startsAtTime endsAtTime : WallTime) (sortOrder : Int)
    (coverageTargets : List (String × Int)) : Prg ShiftTemplate :=
  Shifts.insert .shiftTemplates (draft dayOfWeek label startsAtTime endsAtTime sortOrder coverageTargets)

def replace (templateId : Nat) (dayOfWeek : Int) (label : String) (startsAtTime endsAtTime : WallTime)
    (sortOrder : Int) (coverageTargets : List (String × Int)) : Prg (Option ShiftTemplate) := do
  let row ← update .shiftTemplates templateId
    (.replace dayOfWeek label startsAtTime endsAtTime sortOrder coverageTargets)
  match row with
  | none => return none
  | some _ => byId templateId

def softDelete (templateId : Nat) (txNow : Int) : Prg Bool := do
  let row ← update .shiftTemplates templateId (.softDelete txNow)
  return row.isSome

end Templates

def softDeleteFutureByTemplate (templateId : Nat) (afterWeek txNow : Int) : Prg Nat := do
  let ids ← select .softDeleteFutureByTemplate fun s =>
    matching s Table.staffAvailability fun (r : StaffAvailability) => r.invalidates templateId afterWeek
  let rows ← updateEach (S := schema) Err.integrity Table.staffAvailability (.softDelete templateId afterWeek txNow) ids
  return rows.length

def activeRules (s : Snapshot schema) : List AvailabilityRule :=
  ((s.all .availabilityRules).filter fun (r : AvailabilityRule) => r.deletedAt = none).insertionSort fun r r' =>
    r.dayOfWeek < r'.dayOfWeek ∨ r.dayOfWeek = r'.dayOfWeek ∧ r.openTime.micros ≤ r'.openTime.micros

def record (actorId : Nat) (action : AuditAction) : Prg AuditLog :=
  Shifts.insert .auditLog { id := 0, createdAt := 0, actorId := actorId, action := action }

/-! ## The service -/

structure ShiftTemplateInput where
  dayOfWeek : Int
  label : String
  startsAtTime : WallTime
  endsAtTime : WallTime
  sortOrder : Int
  coverageTargets : List (String × TargetValue)

def createTemplate (actorId : Nat) (body : ShiftTemplateInput) : Prg ShiftTemplate := do
  let label ← liftExcept (validateTemplate body.dayOfWeek body.label body.startsAtTime body.endsAtTime)
  let targets ← liftExcept (validateCoverageTargets body.coverageTargets)
  tenantSession fun _ => do
    let counts ← Templates.counts body.dayOfWeek
    assertTemplateCapacity counts.1 counts.2
    let row ← Templates.insert body.dayOfWeek label body.startsAtTime body.endsAtTime body.sortOrder targets
    let _ ← record actorId (.shiftTemplateCreated row.id row.dayOfWeek)
    return row

/-- `is_material_edit` on the three `MATERIAL_FIELDS`. -/
def isMaterialEdit (before : ShiftTemplate) (body : ShiftTemplateInput) : Bool :=
  before.dayOfWeek ≠ body.dayOfWeek || before.startsAtTime ≠ body.startsAtTime || before.endsAtTime ≠ body.endsAtTime

def currentWeekStart (today : Int) : Int := today - jerusalemDayIndex today

def invalidateIf (material : Bool) (templateId : Nat) (afterWeek txNow : Int) : Prg Nat :=
  if material then softDeleteFutureByTemplate templateId afterWeek txNow else return 0

def updateTemplate (zone : Zone) (actorId templateId : Nat) (body : ShiftTemplateInput) : Prg (ShiftTemplate × Nat) := do
  let label ← liftExcept (validateTemplate body.dayOfWeek body.label body.startsAtTime body.endsAtTime)
  let targets ← liftExcept (validateCoverageTargets body.coverageTargets)
  let current ← now
  tenantSession fun txNow => do
    let before ← Templates.byId templateId
    let before ← orRaise before .shiftNotFound
    let material := isMaterialEdit before body
    let row ← Templates.replace templateId body.dayOfWeek label body.startsAtTime body.endsAtTime body.sortOrder targets
    let row ← orRaise row .shiftNotFound
    let invalidated ← invalidateIf material templateId (currentWeekStart (zone.dateOf current)) txNow
    let _ ← record actorId (.shiftTemplateUpdated templateId material invalidated)
    return (row, invalidated)

def deleteTemplate (zone : Zone) (actorId templateId : Nat) : Prg Nat := do
  let current ← now
  tenantSession fun txNow => do
    let deleted ← Templates.softDelete templateId txNow
    raiseIf (!deleted) .shiftNotFound
    let invalidated ← softDeleteFutureByTemplate templateId (currentWeekStart (zone.dateOf current)) txNow
    let _ ← record actorId (.shiftTemplateDeleted templateId invalidated)
    return invalidated

def HEBREW_DAY_NAMES : List String := ["ראשון", "שני", "שלישי", "רביעי", "חמישי", "שישי", "שבת"]

def twoDigits (n : Int) : String := if n < 10 then "0" ++ toString n else toString n

def clockFace (t : WallTime) : String :=
  twoDigits (t.micros / (3600 * second)) ++ ":" ++ twoDigits (t.micros / (60 * second) % 60)

def seedLabel (dayOfWeek : Int) (startsAtTime endsAtTime : WallTime) : String :=
  HEBREW_DAY_NAMES.getD dayOfWeek.toNat "" ++ " " ++ clockFace startsAtTime ++ "–" ++ clockFace endsAtTime

def seedEach : Int → List AvailabilityRule → Prg (List ShiftTemplate)
  | _, [] => return []
  | sortOrder, rule :: rules => do
    let row ← Templates.insert rule.dayOfWeek (seedLabel rule.dayOfWeek rule.openTime rule.closeTime) rule.openTime
      rule.closeTime sortOrder []
    let rows ← seedEach (sortOrder + 1) rules
    return row :: rows

def seedTemplates (actorId : Nat) : Prg (List ShiftTemplate) :=
  tenantSession fun _ => do
    let templates ← Templates.listLive
    raiseIf (!templates.isEmpty) .templatesAlreadySeeded
    let rules ← select .rulesListActive activeRules
    raiseIf rules.isEmpty .noOpeningHours
    -- `sorted` by the same key leaves the query's own order
    let created ← seedEach 0 rules
    let _ ← record actorId (.shiftTemplatesSeeded created.length)
    return created

inductive Request
  | create (actorId : Nat) (body : ShiftTemplateInput)
  | update (actorId templateId : Nat) (body : ShiftTemplateInput)
  | delete (actorId templateId : Nat)
  | seed (actorId : Nat)

inductive Response
  | template (row : ShiftTemplate)
  | written (row : Option ShiftTemplate) (invalidated : Nat)
  | seeded (rows : List ShiftTemplate)

def Request.code (zone : Zone) : Request → Prg Response
  | .create actorId body => do return .template (← createTemplate actorId body)
  | .update actorId templateId body => do
    let (row, invalidated) ← updateTemplate zone actorId templateId body
    return .written (some row) invalidated
  | .delete actorId templateId => do return .written none (← deleteTemplate zone actorId templateId)
  | .seed actorId => do return .seeded (← seedTemplates actorId)

end Shifts
