import Boutique.TxnSession
import Boutique.Validation
/-!
# Blocks — the settings of one boutique, and the trail of their changes

The settings are one JSON object.  A save replaces the blocks it names, except that its toggles are laid over the stored
ones; that is one UPDATE in one transaction.  Each audit row is written afterwards, in a transaction of its own.
-/
namespace Settings

open Txn Session
open Boutique (strip)

/-! ## The object -/

structure Profile where
  phone : Option String
  address : Option String
  description : Option String
  mapsUrl : Option String
  essence : Option String
  instagram : Option String
deriving DecidableEq

inductive EffortBand
  | thirtyMin | oneHour | twoHours | halfDay | fullDay
deriving DecidableEq

structure AtelierSettings where
  effortBands : List (EffortBand × Int)
  defaultWeeklyCapacityHours : Option Int
deriving DecidableEq

structure SchedulingSettings where
  submissionDeadlineDayOfWeek : Int
  submissionDeadlineTime : String
deriving DecidableEq

structure PrivacyTexts where
  noticeText : String
  dpaText : String
deriving DecidableEq

abbrev Toggles : Type := List (String × Bool)

/-- The `settings` column: the blocks that are there. -/
structure Blocks where
  profile : Option Profile
  toggles : Option (String → Option Bool)
  atelier : Option AtelierSettings
  scheduling : Option SchedulingSettings
  privacy : Option PrivacyTexts

structure Patch where
  profile : Option Profile
  toggles : Option Toggles
  atelier : Option AtelierSettings
  scheduling : Option SchedulingSettings
  privacy : Option PrivacyTexts
deriving DecidableEq

def mergeToggles (stored : Option (String → Option Bool)) (toggles : Toggles) (key : String) : Option Bool :=
  (toggles.lookup key).or (stored.bind fun stored => stored key)

/-- `settings || patch`, the toggles laid over the stored ones. -/
def Blocks.merge (s : Blocks) (patch : Patch) : Blocks where
  profile := patch.profile.or s.profile
  toggles := match patch.toggles with
    | some toggles => some (mergeToggles s.toggles toggles)
    | none => s.toggles
  atelier := patch.atelier.or s.atelier
  scheduling := patch.scheduling.or s.scheduling
  privacy := patch.privacy.or s.privacy

/-! ## The tables -/

structure Tenant where
  id : Nat
  createdAt : Int
  deletedAt : Option Int
  settings : Blocks

/-- What an audit row of the settings says: the whole new block, and of the toggles the patch. -/
inductive AuditAction
  | atelierSettingsUpdated (details : AtelierSettings)
  | togglesUpdated (details : Toggles)
  | schedulingSettingsUpdated (details : SchedulingSettings)
deriving DecidableEq

structure AuditLog where
  id : Nat
  createdAt : Int
  actorId : Nat
  entity : Nat
  action : AuditAction
deriving DecidableEq

inductive Table
  | tenants | auditLog
deriving DecidableEq

abbrev Row : Table → Type
  | .tenants => Tenant
  | .auditLog => AuditLog

def rowId : (T : Table) → Row T → Nat
  | .tenants, (r : Tenant) => r.id
  | .auditLog, (r : AuditLog) => r.id

def stamp : (T : Table) → Nat → Int → Row T → Row T
  | .tenants, i, n, (r : Tenant) => { r with id := i, createdAt := n }
  | .auditLog, i, n, (r : AuditLog) => { r with id := i, createdAt := n }

inductive TenantChange
  | mergeSettings (patch : Patch)

abbrev Change : Table → Type
  | .tenants => TenantChange
  | .auditLog => Empty

def TenantChange.apply (r : Tenant) : TenantChange → Option Tenant
  | .mergeSettings patch =>
    if r.deletedAt = none then some { r with settings := r.settings.merge patch } else none

def applyChange : (T : Table) → Change T → Row T → Option (Row T)
  | .tenants, g, (r : Tenant) => TenantChange.apply r g

theorem rowId_applyChange (T : Table) (g : Change T) (r r' : Row T) (h : applyChange T g r = some r') :
    rowId T r' = rowId T r := by
  cases T with
  | tenants =>
    obtain ⟨patch⟩ := g
    obtain ⟨-, hr⟩ := Option.ite_none_right_eq_some.1 (h : TenantChange.apply r (.mergeSettings patch) = some r')
    cases hr
    rfl
  | auditLog => cases g

abbrev schema : Schema where
  Table := Table
  tables := inferInstance
  Row := Row
  id := rowId
  stamp := stamp
  Change := Change
  apply := applyChange
  Query := Empty
  check _ _ := true
  clash _ _ _ := false
  id_stamp := fun T _ _ _ => by cases T <;> rfl
  id_apply := rowId_applyChange
  clash_symm _ _ _ := rfl

/-! ## The services -/

inductive Err
  | validation (message : String)
  | notFound
  | integrity
deriving DecidableEq

structure Validators where
  profile : Profile → Option String
  toggles : Toggles → Option String
  atelier : AtelierSettings → Option String
  scheduling : SchedulingSettings → Option String
  privacyText : (value field : String) → Option String

abbrev Prg (α : Type) : Type := Code schema nobody Err α

abbrev update (T : Table) (i : Nat) (g : Change T) : Prg (Option (Row T)) :=
  Session.update (S := schema) Err.integrity T i g

abbrev insert (T : Table) (r : Row T) : Prg (Row T) := Session.insert (S := schema) Err.integrity T r

def checked {α : Type} (check : α → Option String) (sent : Option α) : Prg Unit :=
  match sent.bind check with
  | some message => .raise (.validation message)
  | none => return ()

def mergeSettings (tenantId : Nat) (patch : Patch) : Prg (Option Blocks) :=
  tenantSession fun _ => do
    let row ← update .tenants tenantId (.mergeSettings patch)
    return row.map Tenant.settings

def recordSettingsAudit (tenantId actorId : Nat) (action : AuditAction) : Prg Unit :=
  tenantSession fun _ => do
    let row : AuditLog := ⟨0, 0, actorId, tenantId, action⟩
    let _ ← insert .auditLog row
    return ()

def recordIf (tenantId actorId : Nat) : Option AuditAction → Prg Unit
  | some action => recordSettingsAudit tenantId actorId action
  | none => return ()

def TOGGLE_DEFAULTS : Toggles := [("deposits_enabled", false), ("brides_only", false)]

def SCHEDULING_DEFAULTS : SchedulingSettings := ⟨3, "18:00"⟩

structure SettingsResult where
  profile : Option Profile
  toggles : Toggles
  atelier : Option AtelierSettings
  scheduling : SchedulingSettings
deriving DecidableEq

/-- Every toggle of the registry, and the deadline's pair, are always there. -/
def settingsResult (s : Blocks) : SettingsResult where
  profile := s.profile
  toggles := TOGGLE_DEFAULTS.map fun p => (p.1, ((s.toggles.bind fun stored => stored p.1).getD p.2))
  atelier := s.atelier
  scheduling := s.scheduling.getD SCHEDULING_DEFAULTS

/-- A blank text is none. -/
def override (text : String) : Option String :=
  if strip text = "" then none else some (strip text)

inductive Reply
  | settings (result : SettingsResult)
  | privacy (noticeText dpaText : Option String)
deriving DecidableEq

def updateSettings (v : Validators) (tenantId actorId : Nat) (profile : Option Profile) (toggles : Option Toggles)
    (atelier : Option AtelierSettings) (scheduling : Option SchedulingSettings) : Prg Reply := do
  checked v.profile profile
  checked v.toggles toggles
  checked v.atelier atelier
  checked v.scheduling scheduling
  let merged ← mergeSettings tenantId ⟨profile, toggles, atelier, scheduling, none⟩
  let merged ← orRaise merged .notFound
  recordIf tenantId actorId (atelier.map .atelierSettingsUpdated)
  recordIf tenantId actorId (toggles.map .togglesUpdated)
  recordIf tenantId actorId (scheduling.map .schedulingSettingsUpdated)
  return .settings (settingsResult merged)

def privacyTexts (noticeText dpaText : Option String) : PrivacyTexts :=
  ⟨strip (noticeText.getD ""), strip (dpaText.getD "")⟩

/-- `update_privacy`; it is not audited. -/
def updatePrivacy (v : Validators) (tenantId : Nat) (noticeText dpaText : Option String) : Prg Reply := do
  let texts := privacyTexts noticeText dpaText
  checked (fun notice => v.privacyText notice "notice_text") (some texts.noticeText)
  checked (fun dpa => v.privacyText dpa "dpa_text") (some texts.dpaText)
  let merged ← mergeSettings tenantId ⟨none, none, none, none, some texts⟩
  let merged ← orRaise merged .notFound
  return .privacy (merged.privacy.bind fun p => override p.noticeText) (merged.privacy.bind fun p => override p.dpaText)

/-! ## The requests -/

/-- `PUT /manage/settings` and `PUT /manage/privacy`. -/
inductive Request
  | updateSettings (actorId : Nat) (profile : Option Profile) (toggles : Option Toggles)
      (atelier : Option AtelierSettings) (scheduling : Option SchedulingSettings)
  | updatePrivacy (noticeText dpaText : Option String)

def sentToggles (toggles : Option Toggles) : Option Toggles := toggles.filter fun toggles => !toggles.isEmpty

def Request.code (v : Validators) (tenantId : Nat) : Request → Prg Reply
  | .updateSettings actorId profile toggles atelier scheduling =>
    Settings.updateSettings v tenantId actorId profile (sentToggles toggles) atelier scheduling
  | .updatePrivacy noticeText dpaText => Settings.updatePrivacy v tenantId noticeText dpaText

def Request.patch : Request → Patch
  | .updateSettings _ profile toggles atelier scheduling => ⟨profile, sentToggles toggles, atelier, scheduling, none⟩
  | .updatePrivacy noticeText dpaText => ⟨none, none, none, none, some (privacyTexts noticeText dpaText)⟩

def Patch.actions (p : Patch) : List AuditAction :=
  (p.atelier.map AuditAction.atelierSettingsUpdated).toList ++ (p.toggles.map AuditAction.togglesUpdated).toList ++
    (p.scheduling.map AuditAction.schedulingSettingsUpdated).toList

abbrev console (v : Validators) (tenantId : Nat) (reqs : Tid → Request) (rows : Rows schema) (next : Nat)
    (clock : Int) : Conf (machine schema nobody Err) Reply :=
  opened (fun t => (reqs t).code v tenantId) rows next clock

end Settings
