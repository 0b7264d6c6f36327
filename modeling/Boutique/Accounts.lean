import Boutique.Staff
/-!
# Accounts — the owner's administration of the staff

`StaffService`: who works here, in which role and with which photo.  What can take ownership away runs under the staff
lock, with the lock before the first read; a creation takes none.
-/
namespace Staff

open Txn Session

/-! ## Repositories -/

namespace StaffUsers

def byEmail (email : String) : Prg (Option StaffUser) := do
  let rows ← select .byEmail fun s => (s.all .staffUsers).filter fun (r : StaffUser) => r.email = email ∧ r.live
  scalarOneOrNone rows

def byId (staffId : Nat) : Prg (Option StaffUser) :=
  select .byId fun s => (s.rows .staffUsers staffId).filter StaffUser.live

def countLiveOwners : Prg Nat :=
  select .countLiveOwners fun s => (s.all .staffUsers).countP fun (r : StaffUser) => r.role = .owner ∧ r.live

def refreshed (staffId : Nat) : Prg (Option StaffUser) :=
  select .refreshed fun s => (s.rows .staffUsers staffId).filter StaffUser.live

def loaded (staffId : Nat) : Prg (Option StaffUser) :=
  select .loaded fun s => (s.rows .staffUsers staffId).filter StaffUser.live

/-- The row is loaded, the columns that moved are flushed, and it is read back. -/
def update (staffId : Nat) (moves : Moves) : Prg (Option StaffUser) := do
  let row ← loaded staffId
  match row with
  | none => return none
  | some r =>
    if moves.isEmpty then return some r
    else do
      let flushed ← Staff.update .staffUsers staffId (.flush moves)
      raiseIf (Option.isNone flushed) .staleData
      select .refreshed fun s => s.rows .staffUsers staffId

def startBreak (staffId : Nat) (at_ : Int) : Prg (Bool × Option StaffUser) := do
  let wrote ← Staff.update .staffUsers staffId (.startBreak at_)
  let row ← refreshed staffId
  return (Option.isSome wrote, row)

def endBreak (staffId : Nat) : Prg (Bool × Option StaffUser) := do
  let wrote ← Staff.update .staffUsers staffId .endBreak
  let row ← refreshed staffId
  return (Option.isSome wrote, row)

def setPendingPhoto (staffId : Nat) (storageKey : Option PhotoKey) (contentType : Option String) (at_ : Option Int) :
    Prg Bool := do
  let wrote ← Staff.update .staffUsers staffId (.setPendingPhoto storageKey contentType at_)
  return Option.isSome wrote

def promotePendingPhoto (staffId : Nat) (at_ : Int) : Prg (Option StaffUser) := do
  let wrote ← Staff.update .staffUsers staffId (.promotePendingPhoto at_)
  if Option.isNone wrote then return none else refreshed staffId

def clearPhoto (staffId : Nat) : Prg (Option StaffUser) := do
  let wrote ← Staff.update .staffUsers staffId .clearPhoto
  if Option.isNone wrote then return none else refreshed staffId

def softDelete (staffId : Nat) (now lastDay : Int) : Prg Bool := do
  let wrote ← Staff.update .staffUsers staffId (.softDelete now lastDay)
  return Option.isSome wrote

end StaffUsers

namespace Sessions

def revokeForStaffUser (staffUserId : Nat) (exceptTokenHash : Option String) (now : Int) : Prg Unit := do
  let ids ← select .sessionsOf fun s => matching s .sessions fun (r : StaffSession) =>
    r.staffUserId = staffUserId ∧ r.deletedAt = none ∧ some r.tokenHash ≠ exceptTokenHash
  let _ ← updateEach (S := schema) Err.integrity .sessions (.revoke exceptTokenHash now : SessionChange) ids
  return ()

/-- A live session proves that she has not signed out. -/
def hasLiveSession (staffUserId : Nat) (now : Int) : Prg Bool := select .hasLiveSession fun s =>
  (s.all .sessions).any fun (r : StaffSession) => r.staffUserId = staffUserId ∧ r.deletedAt = none ∧ now < r.expiresAt

end Sessions

def record (actorId entity : Nat) (action : AuditAction) : Prg Unit := do
  let _ ← insert .auditLog (⟨0, 0, actorId, entity, action⟩ : AuditLog)
  return ()

def recordEach (actorId entity : Nat) : List AuditAction → Prg Unit
  | [] => return ()
  | action :: actions => do
    record actorId entity action
    recordEach actorId entity actions

/-! ## The answers -/

structure SosRead where
  alert : SosAlert
  raisedByName : Option String
  targetName : Option String
  acceptedByName : Option String

inductive Response
  | staff (row : StaffUser)
  | deactivated
  | presigned (key : PhotoKey) (contentType : String) (maxBytes : Int)
  | posted (accepted : Bool)
  | sos (view : SosRead)
  | raised (view : SosRead) (rerouted : Bool)

/-! ## The service -/

def CURRENT_PASSWORD_REQUIRED : String := "current_password is required and must match to change your own password"

def createIn (address displayName : String) (role : StaffRole) (passwordHash : String) (storedPhone : Option String)
    (startDate : Option Int) (shiftManagerEligible : Bool) (actor : StaffContext) : Prg StaffUser := do
  let existing ← StaffUsers.byEmail address
  raiseIf existing.isSome .duplicateEmail
  let created ← insert .staffUsers (⟨0, 0, none, address, passwordHash, displayName, role, none, storedPhone, startDate,
    none, shiftManagerEligible, none, none, none, none, none, none⟩ : StaffUser)
  record actor.id created.id (.staffCreated address role)
  return created

/-- **A creation**: the address is looked up first, and the index is behind it. -/
def create (cfg : Config) (email displayName : String) (role : StaffRole) (password : String) (phone : Option String)
    (startDate : Option Int) (shiftManagerEligible : Bool) (actor : StaffContext) : Prg Response := do
  let address := cfg.lower email
  let storedPhone ← liftExcept (normalizePhone phone)
  let passwordHash ← ask (.hashPassword password)
  let result ← ((tenantSession fun _ =>
    createIn address displayName role passwordHash storedPhone startDate shiftManagerEligible actor).attempt :
      Prg (Except Err StaffUser))
  match result with
  | .ok created => return .staff created
  | .error .integrity => .raise .duplicateEmail
  | .error e => .raise e

structure StaffPatch where
  displayName : Option String
  role : Option StaffRole
  password : Option String
  currentPassword : Option String
  phone : Option String
  startDate : Option Int
  shiftManagerEligible : Option Bool

/-- The fields that move; a number that is cleared is sent as `""`. -/
def movesOf (target : StaffUser) (patch : StaffPatch) (storedPhone passwordHash : Option String) : Moves where
  displayName := patch.displayName.filter fun name => name ≠ target.displayName
  role := patch.role.filter fun role => role ≠ target.role
  passwordHash := passwordHash
  phone := if patch.phone.isSome ∧ storedPhone ≠ target.phone then some (storedPhone.getD "") else none
  startDate := patch.startDate.filter fun start => some start ≠ target.startDate
  shiftManagerEligible := patch.shiftManagerEligible.filter fun eligible => eligible ≠ target.shiftManagerEligible

def movedActions (target : StaffUser) (storedPhone : Option String) (moves : Moves) : List AuditAction :=
  (moves.displayName.toList.map fun name => .staffUpdated (.displayName target.displayName name)) ++
  (moves.phone.toList.map fun _ => .staffUpdated (.phone target.phone.isSome storedPhone.isSome)) ++
  (moves.startDate.toList.map fun start => .staffUpdated (.startDate target.startDate start)) ++
  (moves.shiftManagerEligible.toList.map fun eligible =>
    .staffUpdated (.shiftManagerEligible target.shiftManagerEligible eligible)) ++
  moves.role.toList.map fun role => .staffRoleChanged target.role role

def checkCurrentPassword (target : StaffUser) (isSelf : Bool) (patch : StaffPatch) : Prg Unit :=
  if patch.password.isSome ∧ isSelf then
    match patch.currentPassword with
    | none => .raise (.invalid CURRENT_PASSWORD_REQUIRED)
    | some current => do
      let matches_ ← ask (.verifyPassword current target.passwordHash)
      raiseIf (!matches_) (.invalid CURRENT_PASSWORD_REQUIRED)
  else return ()

def endSessions (staffId actorId : Nat) (isSelf : Bool) (actingTokenHash : Option String) (txNow : Int) : Prg Unit := do
  Sessions.revokeForStaffUser staffId actingTokenHash txNow
  record actorId staffId (.staffPasswordReset isSelf)

def guardLastOwner (leaving : Bool) (target : StaffUser) : Prg Unit :=
  if leaving ∧ target.role = .owner then do
    let owners ← StaffUsers.countLiveOwners
    raiseIf (owners ≤ 1) .lastOwnerRequired
  else return ()

def updateIn (staffId : Nat) (patch : StaffPatch) (storedPhone newPasswordHash actingTokenHash : Option String)
    (actor : StaffContext) (txNow : Int) : Prg Response := do
  staffLock
  let found ← StaffUsers.byId staffId
  let target ← orRaise found (.notFound .staffUser)
  let isSelf : Bool := target.id = actor.id
  let roleMoves : Bool := patch.role.any fun role => role ≠ target.role
  raiseIf (roleMoves && isSelf) .staffSelfManage
  guardLastOwner roleMoves target
  checkCurrentPassword target isSelf patch
  let moves := movesOf target patch storedPhone newPasswordHash
  if moves.isEmpty then return .staff target
  else do
    let updated ← StaffUsers.update staffId moves
    let updated ← orRaise updated (.notFound .staffUser)
    recordEach actor.id staffId (movedActions target storedPhone moves)
    if newPasswordHash.isSome then do
      endSessions staffId actor.id isSelf actingTokenHash txNow
      return .staff updated
    else return .staff updated

def hashed : Option String → Prg (Option String)
  | none => return none
  | some password => do
    let h ← ask (.hashPassword password)
    return some h

def updateStaff (staffId : Nat) (patch : StaffPatch) (actingTokenHash : Option String) (actor : StaffContext) : Prg Response := do
  let storedPhone ← liftExcept (normalizePhone patch.phone)
  let newPasswordHash ← hashed patch.password
  tenantSession fun txNow => updateIn staffId patch storedPhone newPasswordHash actingTokenHash actor txNow

def deleteEach : List PhotoKey → Prg Unit
  | [] => return ()
  | key :: keys => do
    let _ ← ask (.deleteObject key)
    deleteEach keys

def deactivateIn (cfg : Config) (staffId : Nat) (lastDay : Option Int) (actor : StaffContext) (txNow : Int) :
    Prg (List PhotoKey) := do
  staffLock
  let found ← StaffUsers.byId staffId
  let target ← orRaise found (.notFound .staffUser)
  raiseIf (target.id = actor.id) .staffSelfManage
  guardLastOwner true target
  let clock ← Session.now
  let leaving ← liftExcept (resolveLastDay (cfg.zone.dateOf clock) lastDay target.startDate)
  let _ ← StaffUsers.softDelete staffId txNow leaving
  record actor.id staffId (.staffDeactivated target.email target.role leaving target.photoKey)
  return target.photoKey.toList ++ target.photoPendingKey.toList

/-- **The offboarding**, and the end of her objects. -/
def deactivate (cfg : Config) (staffId : Nat) (lastDay : Option Int) (actor : StaffContext) : Prg Response := do
  let orphaned ← tenantSession fun txNow => deactivateIn cfg staffId lastDay actor txNow
  deleteEach orphaned
  return .deactivated

/-! ## The photo -/

def liftMedia {α : Type} : Except MediaFailure α → Prg α
  | .ok a => return a
  | .error e => .raise (.media e)

def presignIn (staffId photoId : Nat) (contentType : String) (byteSize : Int) (actorId : Nat) :
    Prg (PhotoKey × Option PhotoKey) := do
  staffLock
  let found ← StaffUsers.byId staffId
  let target ← orRaise found (.notFound .staffUser)
  let storageKey ← liftExcept (buildStaffPhotoKey staffId photoId contentType)
  let at_ ← Session.now
  let _ ← StaffUsers.setPendingPhoto staffId (some storageKey) (some contentType) (some at_)
  record actorId staffId (.staffPhotoPresigned storageKey contentType byteSize)
  return (storageKey, target.photoPendingKey)

/-- **The presign**: the pending triple is written first and the form signed after, outside the transaction. -/
def presignPhoto (staffId : Nat) (contentType : String) (byteSize : Int) (actorId : Nat) : Prg Response := do
  let blocked ← ask .isBlocked
  raiseIf blocked .mediaPresignThrottled
  liftExcept (validateStaffPhotoPresign contentType byteSize)
  let configured ← ask .isConfigured
  raiseIf (!configured) (.media .notConfigured)
  let photoId ← ask .uuid4
  let (storageKey, supersededPending) ← tenantSession fun _ => presignIn staffId photoId contentType byteSize actorId
  ask .recordFailure
  deleteEach supersededPending.toList
  let signed ← ask (.presignedPost storageKey contentType byteSize)
  match signed with
  | .ok _ => return .presigned storageKey contentType byteSize
  | .error e => do
    -- the triple is committed: whatever is pending now is cleared, with no lock
    let _ ← tenantSession fun _ => StaffUsers.setPendingPhoto staffId none none none
    .raise (.media e)

def rejectIn (staffId : Nat) (storageKey : PhotoKey) : Prg Unit := do
  staffLock
  let current ← StaffUsers.byId staffId
  if current.any fun row => row.photoPendingKey = some storageKey then do
    let _ ← StaffUsers.setPendingPhoto staffId none none none
    return ()
  else return ()

def rejectPhoto {α : Type} (staffId : Nat) (storageKey : PhotoKey) : Prg α := do
  tenantSession fun _ => rejectIn staffId storageKey
  deleteEach [storageKey]
  .raise (.mediaMismatch "the uploaded file is not a valid image")

def checkUpload (staffId : Nat) (pendingKey : PhotoKey) (pendingType : String) : Prg Unit := do
  let answer ← ask (.headObject pendingKey)
  let found ← liftMedia answer
  let head ← orRaise found .mediaNotUploaded
  if head.contentType ≠ pendingType then rejectPhoto staffId pendingKey
  else do
    let answer ← ask (.readPrefix pendingKey MAGIC_PREFIX_LENGTH)
    let start ← liftMedia answer
    if !matchesMagicPrefix pendingType start then rejectPhoto staffId pendingKey else return ()

def promoteIn (staffId actorId : Nat) (pendingKey : PhotoKey) : Prg (StaffUser × Option PhotoKey) := do
  staffLock
  let found ← StaffUsers.byId staffId
  let current ← orRaise found (.notFound .staffUser)
  if current.photoPendingKey ≠ some pendingKey then return (current, none)
  else do
    let at_ ← Session.now
    let promoted ← StaffUsers.promotePendingPhoto staffId at_
    match promoted with
    | none => return (current, none)
    | some row => do
      record actorId staffId (.staffPhotoConfirmed pendingKey current.photoKey)
      return (row, current.photoKey)

/-- **The confirm**: the object is looked at between two transactions. -/
def confirmPhoto (staffId actorId : Nat) : Prg Response := do
  let configured ← ask .isConfigured
  raiseIf (!configured) (.media .notConfigured)
  let target ← tenantSession fun _ => do
    let found ← StaffUsers.byId staffId
    orRaise found (.notFound .staffUser)
  match target.photoPendingKey, target.photoPendingContentType with
  | some pendingKey, some pendingType => do
    checkUpload staffId pendingKey pendingType
    let (row, supersededLive) ← tenantSession fun _ => promoteIn staffId actorId pendingKey
    deleteEach (supersededLive.filter fun key => key ≠ pendingKey).toList
    return .staff row
  | _, _ => return .staff target

def deletePhotoIn (staffId actorId : Nat) : Prg (StaffUser × List PhotoKey) := do
  staffLock
  let found ← StaffUsers.byId staffId
  let target ← orRaise found (.notFound .staffUser)
  let updated ← StaffUsers.clearPhoto staffId
  let cleared ← orRaise updated (.notFound .staffUser)
  record actorId staffId (.staffPhotoDeleted target.photoKey)
  return (cleared, target.photoKey.toList ++ target.photoPendingKey.toList)

def deletePhoto (staffId actorId : Nat) : Prg Response := do
  let configured ← ask .isConfigured
  raiseIf (!configured) (.media .notConfigured)
  let (cleared, orphaned) ← tenantSession fun _ => deletePhotoIn staffId actorId
  deleteEach orphaned
  return .staff cleared

def postPhoto (key : PhotoKey) (contentType : String) (body : List UInt8) : Prg Response := do
  let accepted ← ask (.postObject key contentType body)
  return .posted accepted

end Staff
