import Boutique.Accounts
/-!
# Sos — breaks, and the calls for help from the floor

An alert is open, accepted, resolved or cancelled, and each verb is one conditional UPDATE behind reads that take no lock.
A zero-row UPDATE is told by reading the row again.
-/
namespace Staff

open Txn Session

namespace SosAlerts

def byId (alertId : Nat) : Prg (Option SosAlert) :=
  select .sosById fun s => (s.rows .sosAlerts alertId).filter fun (r : SosAlert) => r.deletedAt = none

def accept (alertId actorId : Nat) (at_ : Int) : Prg (Bool × Option SosAlert) := do
  let wrote ← update .sosAlerts alertId (.accept actorId at_)
  let refreshed ← byId alertId
  return (Option.isSome wrote, refreshed)

def close (alertId : Nat) (to_ : SosStatus) : Prg (Bool × Option SosAlert) := do
  let wrote ← update .sosAlerts alertId (.close to_)
  let refreshed ← byId alertId
  return (Option.isSome wrote, refreshed)

def resolve (alertId : Nat) : Prg (Bool × Option SosAlert) := close alertId .resolved

def cancel (alertId : Nat) : Prg (Bool × Option SosAlert) := close alertId .cancelled

end SosAlerts

def notify (staffUserId actorStaffUserId : Nat) (kind : StaffNotificationKind) (entityId : Nat) : Prg Unit := do
  let _ ← insert .notifications (⟨0, 0, staffUserId, actorStaffUserId, kind, entityId⟩ : StaffNotification)
  return ()

def authorize (staffId : Nat) (actor : StaffContext) : Prg Unit :=
  raiseIf (staffId ≠ actor.id ∧ actor.role ∉ ELEVATED_ROLES) .notAuthorized

/-! ## Breaks -/

def startBreak (staffId : Nat) (actor : StaffContext) : Prg Response := do
  authorize staffId actor
  let at_ ← Session.now
  tenantSession fun _ => do
    let (wrote, row) ← StaffUsers.startBreak staffId at_
    let row ← orRaise row (.notFound .staffUser)
    if wrote then do
      record actor.id staffId (.staffBreakStarted staffId row.breakStartedAt)
      return .staff row
    else return .staff row

def endBreak (staffId : Nat) (actor : StaffContext) : Prg Response := do
  authorize staffId actor
  tenantSession fun _ => do
    let before ← StaffUsers.byId staffId
    let previous := before.bind StaffUser.breakStartedAt
    let (wrote, row) ← StaffUsers.endBreak staffId
    let row ← orRaise row (.notFound .staffUser)
    if wrote then do
      record actor.id staffId (.staffBreakEnded staffId previous)
      return .staff row
    else return .staff row

/-! ## Calls for help -/

/-- Every alert is an elevated caller's to see; anybody else sees what she raised, was named on, or owns. -/
def visibleTo (row : SosAlert) (actor : StaffContext) : Bool :=
  actor.role ∈ ELEVATED_ROLES ∨ actor.id = row.raisedBy ∨ some actor.id = row.targetStaffUserId ∨
    some actor.id = row.acceptedBy

/-- The alert with the names on it; a colleague who has left keeps hers. -/
def sosView (alertId : Nat) : Prg SosRead := do
  let view ← select .sosView fun s => ((s.rows .sosAlerts alertId).filter fun (r : SosAlert) => r.deletedAt = none).map
    fun (r : SosAlert) =>
      let nameOf := fun i => (s.rows .staffUsers i).map StaffUser.displayName
      (⟨r, nameOf r.raisedBy, r.targetStaffUserId.bind nameOf, r.acceptedBy.bind nameOf⟩ : SosRead)
  orRaise view (.runtime "sos alert cannot be read back")

def sosAnswer (alertId : Nat) : Prg Response := do
  let view ← sosView alertId
  return .sos view

/-- Whom a conflict names: nobody, if she has left. -/
def nameOf : Option Nat → Prg (Option String)
  | none => return none
  | some staffId => do
    let row ← StaffUsers.byId staffId
    return row.map StaffUser.displayName

def reachableTarget (target : Option Nat) (at_ : Int) : Prg (Option Nat) :=
  match target with
  | none => return none
  | some targetId => do
    let row ← StaffUsers.byId targetId
    match row with
    | none => return none
    | some _ => do
      let live ← Sessions.hasLiveSession targetId at_
      return if live then some targetId else none

def ownAssignment (assignment : Option Nat) (actorId : Nat) : Prg (Option Nat) :=
  match assignment with
  | none => return none
  | some assignmentId => do
    let hers ← ask (.assignmentOf assignmentId actorId)
    return if hers then some assignmentId else none

def notifyTarget (target : Option Nat) (actorId alertId : Nat) : Prg Unit :=
  match target with
  | none => return ()
  | some targetId => notify targetId actorId .sosTargeted alertId

/-- **The call for help**: nothing about the boutique refuses it. -/
def raiseSos (target assignment : Option Nat) (note : Option String) (actor : StaffContext) : Prg Response := do
  let note ← liftExcept (normalizeSosNote note)
  raiseIf (target = some actor.id) (.invalid "cannot page yourself")
  let at_ ← Session.now
  tenantSession fun _ => do
    let assignmentId ← ownAssignment assignment actor.id
    let targetId ← reachableTarget target at_
    let alert ← insert .sosAlerts (⟨0, 0, none, actor.id, targetId, assignmentId, note, .open_, none, none⟩ : SosAlert)
    let rerouted : Bool := target.isSome ∧ targetId = none
    record actor.id alert.id (.sosRaised alert.id target targetId rerouted assignmentId)
    notifyTarget targetId actor.id alert.id
    let view ← sosView alert.id
    return .raised view rerouted

def visibleAlert (alertId : Nat) (actor : StaffContext) : Prg SosAlert := do
  let found ← SosAlerts.byId alertId
  let row ← orRaise found (.notFound .sosAlert)
  raiseIf (!visibleTo row actor) (.notFound .sosAlert)
  return row

def refuseAccept (row : SosAlert) : Prg Response :=
  match row.status with
  | .resolved | .cancelled => .raise .sosClosed
  | .accepted => do
    let name ← nameOf row.acceptedBy
    .raise (.sosAlreadyAccepted name)
  | .open_ => .raise (.runtime "sos accept matched no row but reads back 'open'")

/-- **The accept**: the first one owns the alert. -/
def acceptSos (alertId : Nat) (actor : StaffContext) : Prg Response := do
  let at_ ← Session.now
  tenantSession fun _ => do
    let row ← visibleAlert alertId actor
    raiseIf (row.raisedBy = actor.id ∨ ¬(row.targetStaffUserId = some actor.id ∨ actor.role ∈ ELEVATED_ROLES))
      (.notFound .sosAlert)
    if row.status = .accepted ∧ row.acceptedBy = some actor.id then sosAnswer alertId
    else do
      let (wrote, after) ← SosAlerts.accept alertId actor.id at_
      if wrote then do
        record actor.id alertId (.sosAccepted alertId row.raisedBy)
        raiseIf after.isNone (.runtime "sos accept wrote a row it cannot read back")
        sosAnswer alertId
      else do
        let row ← orRaise after (.notFound .sosAlert)
        refuseAccept row

def explainResolve (alertId : Nat) (row : SosAlert) : Prg Response :=
  if row.status = .resolved ∨ row.status = .cancelled then sosAnswer alertId
  else .raise (.runtime "sos resolve matched no row but reads back a live alert")

/-- **The resolve**: from either live state, with the status it was read in. -/
def resolveSos (alertId : Nat) (actor : StaffContext) : Prg Response :=
  tenantSession fun _ => do
    let row ← visibleAlert alertId actor
    raiseIf (¬(actor.id = row.raisedBy ∨ some actor.id = row.acceptedBy ∨ actor.role ∈ ELEVATED_ROLES))
      (.notFound .sosAlert)
    let fromStatus := row.status
    let (wrote, after) ← SosAlerts.resolve alertId
    if wrote then do
      record actor.id alertId (.sosResolved alertId fromStatus)
      sosAnswer alertId
    else do
      let row ← orRaise after (.notFound .sosAlert)
      explainResolve alertId row

def explainCancel (alertId : Nat) (row : SosAlert) : Prg Response :=
  match row.status with
  | .accepted => do
    let name ← nameOf row.acceptedBy
    .raise (.sosAlreadyAccepted name)
  | .resolved | .cancelled => sosAnswer alertId
  | .open_ => .raise (.runtime "sos cancel matched no row but reads back 'open'")

/-- **The cancel**: from `open` only. -/
def cancelSos (alertId : Nat) (actor : StaffContext) : Prg Response :=
  tenantSession fun _ => do
    let row ← visibleAlert alertId actor
    raiseIf (¬(row.raisedBy = actor.id ∨ actor.role ∈ ELEVATED_ROLES)) (.notFound .sosAlert)
    let (wrote, after) ← SosAlerts.cancel alertId
    if wrote then do
      record actor.id alertId (.sosCancelled alertId)
      sosAnswer alertId
    else do
      let row ← orRaise after (.notFound .sosAlert)
      explainCancel alertId row

/-! ## Requests -/

inductive Request
  | create (email displayName : String) (role : StaffRole) (password : String) (phone : Option String)
      (startDate : Option Int) (shiftManagerEligible : Bool) (actor : StaffContext)
  | update (staffId : Nat) (patch : StaffPatch) (actingTokenHash : Option String) (actor : StaffContext)
  | deactivate (staffId : Nat) (lastDay : Option Int) (actor : StaffContext)
  | presignPhoto (staffId : Nat) (contentType : String) (byteSize : Int) (actorId : Nat)
  | confirmPhoto (staffId actorId : Nat)
  | deletePhoto (staffId actorId : Nat)
  | postPhoto (key : PhotoKey) (contentType : String) (body : List UInt8)
  | startBreak (staffId : Nat) (actor : StaffContext)
  | endBreak (staffId : Nat) (actor : StaffContext)
  | raiseSos (target assignment : Option Nat) (note : Option String) (actor : StaffContext)
  | acceptSos (alertId : Nat) (actor : StaffContext)
  | resolveSos (alertId : Nat) (actor : StaffContext)
  | cancelSos (alertId : Nat) (actor : StaffContext)

def Request.code (cfg : Config) : Request → Prg Response
  | .create email displayName role password phone startDate shiftManagerEligible actor =>
    Staff.create cfg email displayName role password phone startDate shiftManagerEligible actor
  | .update staffId patch actingTokenHash actor => Staff.updateStaff staffId patch actingTokenHash actor
  | .deactivate staffId lastDay actor => Staff.deactivate cfg staffId lastDay actor
  | .presignPhoto staffId contentType byteSize actorId => Staff.presignPhoto staffId contentType byteSize actorId
  | .confirmPhoto staffId actorId => Staff.confirmPhoto staffId actorId
  | .deletePhoto staffId actorId => Staff.deletePhoto staffId actorId
  | .postPhoto key contentType body => Staff.postPhoto key contentType body
  | .startBreak staffId actor => Staff.startBreak staffId actor
  | .endBreak staffId actor => Staff.endBreak staffId actor
  | .raiseSos target assignment note actor => Staff.raiseSos target assignment note actor
  | .acceptSos alertId actor => Staff.acceptSos alertId actor
  | .resolveSos alertId actor => Staff.resolveSos alertId actor
  | .cancelSos alertId actor => Staff.cancelSos alertId actor

end Staff
