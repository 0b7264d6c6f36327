import Boutique.Invites
import Boutique.Traces
/-!
# Passwords — what a password opens, and what changes it

A login reads the hash, verifies against it and opens a session, without a lock.  A password is changed by its account's
holder or by another owner, under the staff lock, and by the platform's operator, who takes none; each rewrites the hash and
ends the sessions that it finds.  Resolving a session never looks at the hash.
-/
namespace Staff

open Txn Session Contract

/-! ## The services -/

/-- The digest of a token, how long a session lasts, and the hash that an unknown address is verified against. -/
structure AuthConfig extends Config where
  hashToken : String → String
  sessionTtl : Int
  dummyHash : String

inductive Answer
  | loggedIn (context : StaffContext) (token : String)
  | resolved (context : Option StaffContext)
  | staff (response : Response)
  | command (ok : Bool) (message : String)

def Sessions.activeByTokenHash (tokenHash : String) (now : Int) : Prg (Option StaffSession) := do
  let rows ← select .activeByTokenHash fun s => (s.all .sessions).filter fun (r : StaffSession) =>
    r.tokenHash = tokenHash ∧ r.deletedAt = none ∧ now < r.expiresAt
  scalarOneOrNone rows

def StaffUser.toContext (r : StaffUser) : StaffContext := ⟨r.id, r.role⟩

def loginIn (cfg : AuthConfig) (email password : String) : Prg (Option (StaffContext × String)) := do
  let staff ← StaffUsers.byEmail email
  match staff with
  | none => do
    -- an unknown address takes as long
    let _ ← ask (.verifyPassword password cfg.dummyHash)
    return none
  | some r => do
    let matches_ ← ask (.verifyPassword password r.passwordHash)
    if matches_ then do
      let token ← ask .generateToken
      let now ← Session.now
      let row : StaffSession := ⟨0, 0, none, r.id, cfg.hashToken token, now + cfg.sessionTtl, r.passwordHash⟩
      let _ ← insert .sessions row
      return some (r.toContext, token)
    else return none

/-- **A login**: a failure commits, and is raised outside the transaction. -/
def login (cfg : AuthConfig) (email password : String) : Prg Answer := do
  let outcome ← tenantSession fun _ => loginIn cfg email password
  match outcome with
  | none => .raise .invalidCredentials
  | some (context, token) => return .loggedIn context token

def resolveSessionIn (cfg : AuthConfig) (token : String) : Prg (Option StaffContext) := do
  let now ← Session.now
  let row ← Sessions.activeByTokenHash (cfg.hashToken token) now
  match row with
  | none => return none
  | some s => do
    let staff ← StaffUsers.byId s.staffUserId
    return staff.map StaffUser.toContext

/-- **A request's cookie**: its session, and the account. -/
def resolveSession (cfg : AuthConfig) (token : String) : Prg Answer := do
  let context ← tenantSession fun _ => resolveSessionIn cfg token
  return .resolved context

def resetOwnerPasswordIn (cfg : AuthConfig) (ownerEmail newPassword : String) (txNow : Int) : Prg Answer := do
  let passwordHash ← ask (.hashPassword newPassword)
  let ids ← select .ownerByEmail fun s => matching s .staffUsers fun (r : StaffUser) =>
    r.email = cfg.lower ownerEmail ∧ r.role = .owner ∧ r.live
  let written ← updateEach (S := schema) Err.integrity .staffUsers
    (.resetPassword (cfg.lower ownerEmail) passwordHash : StaffUserChange) ids
  let updated ← scalarOneOrNone written
  match updated with
  | none => return .command false "owner_not_found"
  | some (r : StaffUser) => do
    Sessions.revokeForStaffUser r.id none txNow
    return .command true "password_reset"

/-- **The operator's reset** of an owner's password, on a tenant that exists. -/
def resetOwnerPassword (cfg : AuthConfig) (ownerEmail newPassword : String) : Prg Answer :=
  match Platform.passwordProblem newPassword with
  | some problem => return .command false problem
  | none => tenantSession fun txNow => resetOwnerPasswordIn cfg ownerEmail newPassword txNow

/-! ## The requests -/

inductive Access
  | login (email password : String)
  | update (staffId : Nat) (patch : StaffPatch) (actingTokenHash : Option String) (actor : StaffContext)
  | resetOwnerPassword (ownerEmail newPassword : String)
  | deactivate (staffId : Nat) (lastDay : Option Int) (actor : StaffContext)
  | resolveSession (token : String)

def Access.code (cfg : AuthConfig) : Access → Prg Answer
  | .login email password => Staff.login cfg email password
  | .update staffId patch actingTokenHash actor => do
    let response ← updateStaff staffId patch actingTokenHash actor
    return .staff response
  | .resetOwnerPassword ownerEmail newPassword => Staff.resetOwnerPassword cfg ownerEmail newPassword
  | .deactivate staffId lastDay actor => do
    let response ← Staff.deactivate cfg.toConfig staffId lastDay actor
    return .staff response
  | .resolveSession token => Staff.resolveSession cfg token

abbrev accessing (cfg : AuthConfig) (reqs : Tid → Access) (out : Store) (rows : Rows schema) (next : Nat) (clock : Int) :
    Conf (machine schema outside Err) Answer :=
  staged (V := outside) out (fun t => (reqs t).code cfg) rows next clock

def Access.ownPassword : Access → Option Nat
  | .update staffId patch _ actor => if patch.password.isSome ∧ actor.id = staffId then some staffId else none
  | _ => none

def Access.currentPassword : Access → Option String
  | .update _ patch _ _ => patch.currentPassword
  | _ => none

/-- **The acting session** of a change of the holder's own password. -/
def Access.acts (req : Access) (i : Nat) (tokenHash : String) : Bool :=
  match req with
  | .update staffId _ actingTokenHash actor => actor.id = staffId ∧ staffId = i ∧ actingTokenHash = some tokenHash
  | _ => false

def Access.spares (req : Access) (tokenHash : String) : Bool :=
  match req with
  | .update _ _ actingTokenHash _ => actingTokenHash = some tokenHash
  | _ => false

/-! ## What is asked of a run -/

/-- **The account has the hash it had** at the thread's last SELECT. -/
def Unreset (e : Engine schema) (t : Tid) (i : Nat) : Prop :=
  ∀ v : StaffUser, v ∈ e.version (e.seen t) Table.staffUsers i → ∀ r : StaffUser, r ∈ e.committed Table.staffUsers i →
    r.passwordHash = v.passwordHash

instance (e : Engine schema) (t : Tid) (i : Nat) : Decidable (Unreset e t i) := by
  unfold Unreset
  infer_instance

def Unopened (e : Engine schema) (m i : Nat) : Prop :=
  ∀ d ∈ e.log.drop m, ∀ k, k < e.next → ∀ s : StaffSession, s ∈ d.writes Table.sessions k → s.staffUserId = i →
    s.deletedAt ≠ none

instance (e : Engine schema) (m i : Nat) : Decidable (Unopened e m i) := by
  unfold Unopened
  infer_instance

def Rehashes (before writes : Rows schema) (i : Nat) : Prop :=
  ∃ v : StaffUser, v ∈ before Table.staffUsers i ∧ ∃ r : StaffUser, r ∈ writes Table.staffUsers i ∧
    r.passwordHash ≠ v.passwordHash

instance (before writes : Rows schema) (i : Nat) : Decidable (Rehashes before writes i) := by
  unfold Rehashes
  infer_instance

def edits : Op schema outside → Bool
  | .sql (.read .loaded) => true
  | .sql (.update .staffUsers _ (.flush _)) => true
  | _ => false

def closes : Op schema outside → Bool
  | .sql .commit => true
  | _ => false

/-- **What the commit of a login asks for**: the account's hash is the one it read. -/
def LogsInUnreset (w : World schema outside) (t : Tid) : Prop :=
  ∀ k, k < w.db.next → ∀ s : StaffSession, s ∈ w.db.pending t Table.sessions k → s.deletedAt = none →
    Unreset w.db t s.staffUserId

instance (w : World schema outside) (t : Tid) : Decidable (LogsInUnreset w t) := by
  unfold LogsInUnreset
  infer_instance

def ActsAsHimself (req : Access) (e : Engine schema) (t : Tid) (i : Nat) : Prop :=
  ∀ k, k < e.next → ∀ s : StaffSession, s ∈ e.view t Table.sessions k → s.staffUserId = i →
    req.spares s.tokenHash = true → req.acts i s.tokenHash = true

instance (req : Access) (e : Engine schema) (t : Tid) (i : Nat) : Decidable (ActsAsHimself req e t i) := by
  unfold ActsAsHimself
  infer_instance

/-- **What the commit of a new hash asks for**: no login of the account's has come in since it looked for the sessions. -/
def ResetsUnopened (req : Access) (w : World schema outside) (t : Tid) : Prop :=
  ∀ i, i < w.db.next → Rehashes w.db.committed (w.db.pending t) i →
    Unopened w.db (w.db.seen t) i ∧ ActsAsHimself req w.db t i

instance (req : Access) (w : World schema outside) (t : Tid) : Decidable (ResetsUnopened req w t) := by
  unfold ResetsUnopened
  infer_instance

/-- **No reset is straddled**: none is committed between the SELECT of a login and its commit, none between the check of a
holder's current password and her UPDATE, and no login between the SELECT of the sessions and the commit of a reset. -/
def Unstraddled (reqs : Tid → Access) : (machine schema outside Err).Assumption := fun t o w _ _ =>
  (edits o = true → ∀ i ∈ (reqs t).ownPassword, Unreset w.db t i) ∧
    (closes o = true → LogsInUnreset w t ∧ ResetsUnopened (reqs t) w t)

instance (reqs : Tid → Access) (t : Tid) (o : Op schema outside) (w : World schema outside) (x : o.Res)
    (w' : World schema outside) : Decidable (Unstraddled reqs t o w x w') :=
  inferInstanceAs (Decidable ((_ → ∀ i ∈ (reqs t).ownPassword, _) ∧ (_ → _ ∧ _)))

end Staff
