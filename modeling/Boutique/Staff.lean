import Boutique.Slots
import Boutique.TxnSession
import Boutique.Validation
/-!
# Staff — the accounts of a boutique, their photos and their calls for help

What an owner does to a staffer runs under the boutique's staff lock; creating one, the breaks and the calls for help do
not.  A photo is uploaded past the server: a presigned form, the browser's POST, and a confirm that looks at the object.
-/
namespace Staff

open Txn Session
open Boutique (Zone)

/-! ## The tables -/

inductive StaffRole
  | owner | shiftManager | reception | salesAssistant | seamstress
deriving DecidableEq

def ELEVATED_ROLES : List StaffRole := [.owner, .shiftManager]

structure PhotoKey where
  staffUserId : Nat
  photoId : Nat
  extension_ : String
deriving DecidableEq

structure StaffUser where
  id : Nat
  createdAt : Int
  deletedAt : Option Int
  email : String
  passwordHash : String
  displayName : String
  role : StaffRole
  breakStartedAt : Option Int
  phone : Option String
  startDate : Option Int
  lastDay : Option Int
  shiftManagerEligible : Bool
  photoKey : Option PhotoKey
  photoContentType : Option String
  photoConfirmedAt : Option Int
  photoPendingKey : Option PhotoKey
  photoPendingContentType : Option String
  photoPendingAt : Option Int
deriving DecidableEq

/-- `verified` is the hash that the login's password matched: no column, and nothing reads it. -/
structure StaffSession where
  id : Nat
  createdAt : Int
  deletedAt : Option Int
  staffUserId : Nat
  tokenHash : String
  expiresAt : Int
  verified : String
deriving DecidableEq

inductive SosStatus
  | open_ | accepted | resolved | cancelled
deriving DecidableEq

structure SosAlert where
  id : Nat
  createdAt : Int
  deletedAt : Option Int
  raisedBy : Nat
  targetStaffUserId : Option Nat
  fittingRoomAssignmentId : Option Nat
  note : Option String
  status : SosStatus
  acceptedBy : Option Nat
  acknowledgedAt : Option Int
deriving DecidableEq

inductive StaffField
  | displayName (from_ to_ : String)
  | phone (from_ to_ : Bool)
  | startDate (from_ : Option Int) (to_ : Int)
  | shiftManagerEligible (from_ to_ : Bool)
deriving DecidableEq

/-- What is recorded of the staff, with the details of each action. -/
inductive AuditAction
  | staffCreated (email : String) (role : StaffRole)
  | staffUpdated (field : StaffField)
  | staffRoleChanged (from_ to_ : StaffRole)
  | staffPasswordReset (self_ : Bool)
  | staffDeactivated (email : String) (role : StaffRole) (lastDay : Int) (photoStorageKey : Option PhotoKey)
  | staffPhotoPresigned (storageKey : PhotoKey) (contentType : String) (byteSize : Int)
  | staffPhotoConfirmed (storageKey : PhotoKey) (supersededStorageKey : Option PhotoKey)
  | staffPhotoDeleted (storageKey : Option PhotoKey)
  | staffBreakStarted (target : Nat) (breakStartedAt : Option Int)
  | staffBreakEnded (target : Nat) (previousBreakStartedAt : Option Int)
  | sosRaised (alert : Nat) (requestedTarget target : Option Nat) (rerouted : Bool) (assignment : Option Nat)
  | sosAccepted (alert raisedBy : Nat)
  | sosResolved (alert : Nat) (fromStatus : SosStatus)
  | sosCancelled (alert : Nat)
deriving DecidableEq

structure AuditLog where
  id : Nat
  createdAt : Int
  actorId : Nat
  entity : Nat
  action : AuditAction
deriving DecidableEq

inductive StaffNotificationKind
  | sosTargeted
deriving DecidableEq

structure StaffNotification where
  id : Nat
  createdAt : Int
  staffUserId : Nat
  actorStaffUserId : Nat
  kind : StaffNotificationKind
  entityId : Nat
deriving DecidableEq

inductive Table
  | staffUsers | sessions | sosAlerts | auditLog | notifications
deriving DecidableEq

abbrev Row : Table → Type
  | .staffUsers => StaffUser
  | .sessions => StaffSession
  | .sosAlerts => SosAlert
  | .auditLog => AuditLog
  | .notifications => StaffNotification

def rowId : (T : Table) → Row T → Nat
  | .staffUsers, (r : StaffUser) => r.id
  | .sessions, (r : StaffSession) => r.id
  | .sosAlerts, (r : SosAlert) => r.id
  | .auditLog, (r : AuditLog) => r.id
  | .notifications, (r : StaffNotification) => r.id

def stamp : (T : Table) → Nat → Int → Row T → Row T
  | .staffUsers, i, n, (r : StaffUser) => { r with id := i, createdAt := n }
  | .sessions, i, n, (r : StaffSession) => { r with id := i, createdAt := n }
  | .sosAlerts, i, n, (r : SosAlert) => { r with id := i, createdAt := n }
  | .auditLog, i, n, (r : AuditLog) => { r with id := i, createdAt := n }
  | .notifications, i, n, (r : StaffNotification) => { r with id := i, createdAt := n }

/-! ## The UPDATEs -/

/-- What an edit moves; `""` clears a phone number. -/
structure Moves where
  displayName : Option String
  role : Option StaffRole
  passwordHash : Option String
  phone : Option String
  startDate : Option Int
  shiftManagerEligible : Option Bool

def Moves.isEmpty (m : Moves) : Bool :=
  m.displayName.isNone ∧ m.role.isNone ∧ m.passwordHash.isNone ∧ m.phone.isNone ∧ m.startDate.isNone ∧
    m.shiftManagerEligible.isNone

inductive StaffUserChange
  | flush (moves : Moves)
  | startBreak (at_ : Int)
  | endBreak
  | setPendingPhoto (storageKey : Option PhotoKey) (contentType : Option String) (at_ : Option Int)
  | promotePendingPhoto (at_ : Int)
  | clearPhoto
  | softDelete (now lastDay : Int)
  | resetPassword (email passwordHash : String)

inductive SessionChange
  | revoke (exceptTokenHash : Option String) (now : Int)

inductive SosAlertChange
  | accept (actorId : Nat) (at_ : Int)
  | close (to_ : SosStatus)

abbrev Change : Table → Type
  | .staffUsers => StaffUserChange
  | .sessions => SessionChange
  | .sosAlerts => SosAlertChange
  | .auditLog | .notifications => Empty

def LIVE_STATUSES : List SosStatus := [.open_, .accepted]

def StaffUser.live (r : StaffUser) : Bool := r.deletedAt = none

def orNone (phone : String) : Option String := if phone = "" then none else some phone

def StaffUserChange.apply (r : StaffUser) : StaffUserChange → Option StaffUser
  -- an ORM flush: by primary key, whatever has become of the row
  | .flush moves => some { r with
      displayName := moves.displayName.getD r.displayName
      role := moves.role.getD r.role
      passwordHash := moves.passwordHash.getD r.passwordHash
      phone := (moves.phone.map orNone).getD r.phone
      startDate := moves.startDate.orElse fun _ => r.startDate
      shiftManagerEligible := moves.shiftManagerEligible.getD r.shiftManagerEligible }
  | .startBreak at_ => if r.breakStartedAt = none ∧ r.live then some { r with breakStartedAt := some at_ } else none
  | .endBreak => if r.breakStartedAt ≠ none ∧ r.live then some { r with breakStartedAt := none } else none
  | .setPendingPhoto storageKey contentType at_ =>
    if r.live then some { r with
      photoPendingKey := storageKey
      photoPendingContentType := contentType
      photoPendingAt := at_ }
    else none
  | .promotePendingPhoto at_ =>
    if r.live ∧ r.photoPendingKey ≠ none then some { r with
      photoKey := r.photoPendingKey
      photoContentType := r.photoPendingContentType
      photoConfirmedAt := some at_
      photoPendingKey := none
      photoPendingContentType := none
      photoPendingAt := none }
    else none
  | .clearPhoto =>
    if r.live then some { r with
      photoKey := none
      photoContentType := none
      photoConfirmedAt := none
      photoPendingKey := none
      photoPendingContentType := none
      photoPendingAt := none }
    else none
  | .softDelete now lastDay =>
    if r.live then some { r with
      deletedAt := some now
      lastDay := some lastDay
      photoKey := none
      photoContentType := none
      photoConfirmedAt := none
      photoPendingKey := none
      photoPendingContentType := none
      photoPendingAt := none }
    else none
  | .resetPassword email passwordHash =>
    if r.email = email ∧ r.role = .owner ∧ r.live then some { r with passwordHash := passwordHash } else none

def SessionChange.apply (r : StaffSession) : SessionChange → Option StaffSession
  | .revoke exceptTokenHash now =>
    if r.deletedAt = none ∧ some r.tokenHash ≠ exceptTokenHash then some { r with deletedAt := some now } else none

def allowed (to_ : SosStatus) : List SosStatus := if to_ = .resolved then LIVE_STATUSES else [.open_]

def SosAlertChange.apply (r : SosAlert) : SosAlertChange → Option SosAlert
  | .accept actorId at_ =>
    if r.status = .open_ ∧ r.deletedAt = none then
      some { r with status := .accepted, acceptedBy := some actorId, acknowledgedAt := some at_ }
    else none
  | .close to_ => if r.status ∈ allowed to_ ∧ r.deletedAt = none then some { r with status := to_ } else none

def applyChange : (T : Table) → Change T → Row T → Option (Row T)
  | .staffUsers, g, (r : StaffUser) => StaffUserChange.apply r g
  | .sessions, g, (r : StaffSession) => SessionChange.apply r g
  | .sosAlerts, g, (r : SosAlert) => SosAlertChange.apply r g

def clash : (T : Table) → Row T → Row T → Bool
  | .staffUsers, (r : StaffUser), (r' : StaffUser) => r.live && r'.live && r.email = r'.email
  | _, _, _ => false

inductive Query
  | byEmail | byId | loaded | activeByTokenHash | ownerByEmail | countLiveOwners | refreshed | sessionsOf | hasLiveSession | sosById | sosView
deriving DecidableEq

theorem rowId_applyChange (T : Table) (g : Change T) (r r' : Row T) (h : applyChange T g r = some r') :
    rowId T r' = rowId T r := by
  cases T <;> cases g <;> simp only [applyChange, StaffUserChange.apply, SessionChange.apply, SosAlertChange.apply] at h
  all_goals first | (split at h <;> cases h <;> rfl) | (cases h; rfl)

theorem clash_symm (T : Table) (r r' : Row T) : clash T r r' = clash T r' r := by
  rw [Bool.eq_iff_iff]
  cases T <;> simp only [clash, Bool.and_eq_true, decide_eq_true_eq]
  constructor <;> rintro ⟨⟨hr, hr'⟩, he⟩ <;> exact ⟨⟨hr', hr⟩, he.symm⟩

abbrev schema : Schema where
  Table := Table
  tables := inferInstance
  Row := Row
  id := rowId
  stamp := stamp
  Change := Change
  apply := applyChange
  Query := Query
  check _ _ := true
  clash := clash
  id_stamp := fun T _ _ _ => by cases T <;> rfl
  id_apply := rowId_applyChange
  clash_symm := clash_symm

/-! ## The world outside -/

structure ObjectHead where
  contentType : String
  byteSize : Nat

inductive MediaFailure
  | notConfigured | storageUnavailable
deriving DecidableEq

/-- What the services ask: the hasher, the presign limiter, the object storage, and whether an assignment is the actor's.
`postObject` is the browser's. -/
inductive Ask
  | hashPassword (password : String)
  | verifyPassword (password hash : String)
  | generateToken
  | isBlocked
  | recordFailure
  | isConfigured
  | uuid4
  | presignedPost (key : PhotoKey) (contentType : String) (exactBytes : Int)
  | postObject (key : PhotoKey) (contentType : String) (body : List UInt8)
  | headObject (key : PhotoKey)
  | readPrefix (key : PhotoKey) (length : Nat)
  | deleteObject (key : PhotoKey)
  | assignmentOf (assignmentId staffUserId : Nat)

abbrev Ans : Ask → Type
  | .hashPassword _ | .generateToken => String
  | .verifyPassword _ _ | .isBlocked | .isConfigured | .postObject .. | .assignmentOf _ _ => Bool
  | .recordFailure => Unit
  | .uuid4 => Nat
  | .presignedPost .. | .deleteObject _ => Except MediaFailure Unit
  | .headObject _ => Except MediaFailure (Option ObjectHead)
  | .readPrefix _ _ => Except MediaFailure (List UInt8)

structure Input where
  yes : Bool
  hash : String
  failure : Option MediaFailure

structure StoredObject where
  contentType : String
  body : List UInt8

structure Form where
  key : PhotoKey
  contentType : String
  exactBytes : Int
deriving DecidableEq

inductive Look
  | head (t : Tid) (key : PhotoKey) (contentType : String)
  | body (t : Tid) (key : PhotoKey) (start : List UInt8)
  | matched (t : Tid) (password hash : String)
deriving DecidableEq

def Look.by_ : Look → Tid
  | .head t _ _ | .body t _ _ | .matched t _ _ => t

/-- **The object storage**: what is in it, the forms that have been signed, what the service has deleted, and what it has
looked at; and the first identifier that nothing has. -/
structure Store where
  objects : PhotoKey → Option StoredObject
  forms : List Form
  deleted : List PhotoKey
  looks : List Look
  firstId : Nat

def serve (t : Tid) : (q : Ask) → Input → Nat → Store → Ans q × Store
  | .hashPassword _, i, _, s | .generateToken, i, _, s => (i.hash, s)
  | .verifyPassword password hash, i, _, s =>
    if i.yes then (true, { s with looks := .matched t password hash :: s.looks }) else (false, s)
  | .isBlocked, i, _, s | .isConfigured, i, _, s | .assignmentOf _ _, i, _, s => (i.yes, s)
  | .recordFailure, _, _, s => ((), s)
  -- a request draws one, and no other request the same
  | .uuid4, _, _, s => (s.firstId + t, s)
  | .presignedPost key contentType exactBytes, i, _, s =>
    match i.failure with
    | some e => (.error e, s)
    | none => (.ok (), { s with forms := ⟨key, contentType, exactBytes⟩ :: s.forms })
  -- a form is good for its key, its type and its size, until it expires
  | .postObject key contentType body, i, _, s =>
    if i.yes ∧ ⟨key, contentType, body.length⟩ ∈ s.forms then
      (true, { s with objects := Function.update s.objects key (some ⟨contentType, body⟩) })
    else (false, s)
  | .headObject key, i, _, s =>
    match i.failure, s.objects key with
    | some e, _ => (.error e, s)
    | none, none => (.ok none, s)
    | none, some o => (.ok (some ⟨o.contentType, o.body.length⟩), { s with looks := .head t key o.contentType :: s.looks })
  | .readPrefix key length, i, _, s =>
    match i.failure, s.objects key with
    | some e, _ => (.error e, s)
    | none, none => (.error .storageUnavailable, s)
    | none, some o => (.ok (o.body.take length), { s with looks := .body t key (o.body.take length) :: s.looks })
  | .deleteObject key, i, _, s =>
    match i.failure with
    | some e => (.error e, s)
    | none => (.ok (), { s with objects := Function.update s.objects key none, deleted := key :: s.deleted })

def ownLooks (t : Tid) (s : Store) : List Look := s.looks.filter fun l => l.by_ = t

theorem serve_ownLooks (t u : Tid) (q : Ask) (i : Input) (n : Nat) (s : Store) (hu : u ≠ t) :
    ownLooks u (serve t q i n s).2 = ownLooks u s := by
  have hother : ∀ l : Look, l.by_ = t → ownLooks u { s with looks := l :: s.looks } = ownLooks u s := by
    intro l hl
    unfold ownLooks
    rw [List.filter_cons_of_neg (by rw [hl]; simpa using Ne.symm hu)]
  cases q with
  | presignedPost key contentType exactBytes => cases hf : i.failure <;> simp [serve, hf, ownLooks]
  | postObject key contentType body =>
    simp only [serve]
    split <;> rfl
  | headObject key =>
    cases hf : i.failure <;> cases ho : s.objects key <;> simp only [serve, hf, ho]
    exact hother _ rfl
  | readPrefix key length =>
    cases hf : i.failure <;> cases ho : s.objects key <;> simp only [serve, hf, ho]
    exact hother _ rfl
  | deleteObject key => cases hf : i.failure <;> simp [serve, hf, ownLooks]
  | verifyPassword password hash =>
    simp only [serve]
    split
    · exact hother _ rfl
    · rfl
  | hashPassword | generateToken | isBlocked | recordFailure | isConfigured | uuid4 | assignmentOf => rfl

abbrev outside : Service where
  Ask := Ask
  Ans := Ans
  Input := Input
  Store := Store
  Mine := List Look
  serve := serve
  mine := ownLooks
  serve_mine := serve_ownLooks

inductive Entity
  | staffUser | sosAlert
deriving DecidableEq

inductive Err
  | invalid (message : String)
  | notAuthorized
  | invalidCredentials
  | notFound (entity : Entity)
  | duplicateEmail
  | staffSelfManage
  | lastOwnerRequired
  | mediaPresignThrottled
  | media (failure : MediaFailure)
  | mediaNotUploaded
  | mediaMismatch (message : String)
  | sosClosed
  | sosAlreadyAccepted (staffDisplayName : Option String)
  | runtime (message : String)
  | staleData
  | multipleResultsFound
  | integrity
deriving DecidableEq

abbrev Prg (α : Type) : Type := Code schema outside Err α

abbrev ask (q : Ask) : Prg (Ans q) := Session.ask (V := outside) q

abbrev update (T : Table) (i : Nat) (g : Change T) : Prg (Option (Row T)) :=
  Session.update (S := schema) Err.integrity T i g

abbrev insert (T : Table) (r : Row T) : Prg (Row T) := Session.insert (S := schema) Err.integrity T r

def staffLock : Prg Unit := .call (.sql .lock) fun _ => .ret ()

def liftExcept {α : Type} : Except Err α → Prg α
  | .ok a => return a
  | .error e => .raise e

def scalarOneOrNone {α : Type} : List α → Prg (Option α)
  | [] => return none
  | [a] => return some a
  | _ => .raise .multipleResultsFound

structure Config where
  zone : Zone
  lower : String → String

/-- Who asks. -/
structure StaffContext where
  id : Nat
  role : StaffRole

/-! ## Validation -/

def MAX_PROFILE_PHONE_LENGTH : Nat := 32
def MAX_LAST_DAY_LOOKAHEAD_DAYS : Int := 365
def MAX_LAST_DAY_BACKDATE_DAYS : Int := 365
def MAX_SOS_NOTE_LENGTH : Nat := 120
def MIN_UPLOAD_BYTES : Int := 1024
def MAX_STAFF_PHOTO_BYTES : Int := 2097152
def MAGIC_PREFIX_LENGTH : Nat := 16

def isPhoneSafe (c : Char) : Bool := c.isDigit ∨ c = ' ' ∨ c = '(' ∨ c = ')' ∨ c = '-'

def validatePhone (phone : String) : Except Err Unit :=
  if MAX_PROFILE_PHONE_LENGTH < phone.toList.length then .error (.invalid "phone is too long")
  else
    -- at most one leading +
    let digits := match phone.toList with
      | '+' :: rest => rest
      | cs => cs
    if digits.all isPhoneSafe ∧ digits.any Char.isDigit then .ok ()
    else .error (.invalid "phone contains invalid characters")

def normalizePhone (phone : Option String) : Except Err (Option String) :=
  match phone with
  | none => .ok none
  | some phone =>
    let stripped := Boutique.strip phone
    if stripped = "" then .ok none
    else do
      validatePhone stripped
      return some stripped

def resolveLastDay (today : Int) (lastDay startDate : Option Int) : Except Err Int :=
  let resolved := lastDay.getD today
  if today + MAX_LAST_DAY_LOOKAHEAD_DAYS < resolved then
    .error (.invalid "last_day must not be more than 365 days from today")
  else if resolved < today - MAX_LAST_DAY_BACKDATE_DAYS then
    .error (.invalid "last_day must not be more than 365 days in the past")
  else if startDate.any fun start => resolved < start then .error (.invalid "last_day must not be before start_date")
  else .ok resolved

def normalizeSosNote (note : Option String) : Except Err (Option String) :=
  match note with
  | none => .ok none
  | some note =>
    let stripped := Boutique.strip note
    if stripped = "" then .ok none
    else if MAX_SOS_NOTE_LENGTH < stripped.toList.length then .error (.invalid "note must be at most 120 characters")
    else .ok (some stripped)

def acceptedExtension : String → Option String
  | "image/jpeg" => some ".jpg"
  | "image/png" => some ".png"
  | "image/webp" => some ".webp"
  | _ => none

def contentTypeError : Err := .invalid "content_type must be one of: image/jpeg, image/png, image/webp"

def validateStaffPhotoPresign (contentType : String) (byteSize : Int) : Except Err Unit :=
  if acceptedExtension contentType = none then .error contentTypeError
  else if ¬(MIN_UPLOAD_BYTES ≤ byteSize ∧ byteSize ≤ MAX_STAFF_PHOTO_BYTES) then
    .error (.invalid "byte_size must be between 1024 and 2097152")
  else .ok ()

def buildStaffPhotoKey (staffUserId photoId : Nat) (contentType : String) : Except Err PhotoKey :=
  match acceptedExtension contentType with
  | none => .error contentTypeError
  | some extension_ => .ok ⟨staffUserId, photoId, extension_⟩

/-- Segments of a signature, each at its offset. -/
def magicPrefixes : String → Option (List (Nat × List UInt8))
  | "image/jpeg" => some [(0, [0xff, 0xd8, 0xff])]
  | "image/png" => some [(0, [0x89, 0x50, 0x4e, 0x47, 0x0d, 0x0a, 0x1a, 0x0a])]
  | "image/webp" => some [(0, [0x52, 0x49, 0x46, 0x46]), (8, [0x57, 0x45, 0x42, 0x50])]
  | _ => none

def matchesMagicPrefix (contentType : String) (start : List UInt8) : Bool :=
  match magicPrefixes contentType with
  | none => false
  | some segments => segments.all fun s => (start.drop s.1).take s.2.length = s.2

end Staff
