import Boutique.TxnLocked
import Boutique.Validation
/-!
# Invites — how a boutique comes into existence

An operator provisions a boutique, or issues an invite whose code founds it later.  Both end in one transaction with the
tenant, its first owner and the row of the platform's book; a redemption claims its invite first, in the same transaction.
A refusal is written down in a transaction of its own.
-/
namespace Platform

open Txn Session
open Boutique (strip)

/-! ## The tables -/

inductive TenantStatus
  | active | suspended
deriving DecidableEq

/-- `tenantId` is the row's UUID. -/
structure Tenant where
  id : Nat
  createdAt : Int
  deletedAt : Option Int
  tenantId : Nat
  slug : String
  name : String
  status : TenantStatus
deriving DecidableEq

inductive StaffRole
  | owner | shiftManager | reception | salesAssistant | seamstress
deriving DecidableEq

structure StaffUser where
  id : Nat
  createdAt : Int
  deletedAt : Option Int
  tenantId : Nat
  email : String
  displayName : String
  role : StaffRole
deriving DecidableEq

structure PlatformInvite where
  id : Nat
  createdAt : Int
  deletedAt : Option Int
  codeHash : String
  slug : String
  name : String
  ownerEmail : String
  createdBy : String
  expiresAt : Int
  redeemedAt : Option Int
  redeemedTenantId : Option Nat
deriving DecidableEq

/-- What a row of the platform's book says. -/
inductive PlatformAuditAction
  | tenantProvisioned (slug : String)
  | tenantProvisionFailed (slug reason : String)
  | inviteCreated (slug ownerEmail : String)
  | inviteCreateFailed (slug reason : String)
  | inviteRevoked (inviteId : Nat)
  | inviteRedeemed (slug ownerEmail : String)
  | inviteRedeemFailed (reason codeHashPrefix : String) (slug : Option String)
deriving DecidableEq

structure PlatformAuditLog where
  id : Nat
  createdAt : Int
  operator : String
  action : PlatformAuditAction
  targetTenantId : Option Nat
deriving DecidableEq

inductive Table
  | tenants | staffUsers | platformInvites | platformAuditLog
deriving DecidableEq

abbrev Row : Table → Type
  | .tenants => Tenant
  | .staffUsers => StaffUser
  | .platformInvites => PlatformInvite
  | .platformAuditLog => PlatformAuditLog

def rowId : (T : Table) → Row T → Nat
  | .tenants, (r : Tenant) => r.id
  | .staffUsers, (r : StaffUser) => r.id
  | .platformInvites, (r : PlatformInvite) => r.id
  | .platformAuditLog, (r : PlatformAuditLog) => r.id

def stamp : (T : Table) → Nat → Int → Row T → Row T
  | .tenants, i, n, (r : Tenant) => { r with id := i, createdAt := n }
  | .staffUsers, i, n, (r : StaffUser) => { r with id := i, createdAt := n }
  | .platformInvites, i, n, (r : PlatformInvite) => { r with id := i, createdAt := n }
  | .platformAuditLog, i, n, (r : PlatformAuditLog) => { r with id := i, createdAt := n }

inductive PlatformInviteChange
  | softDelete (now : Int)
  | claim (codeHash : String) (tenantId : Nat) (now : Int)

abbrev Change : Table → Type
  | .platformInvites => PlatformInviteChange
  | _ => Empty

def PlatformInvite.claimable (r : PlatformInvite) (codeHash : String) (now : Int) : Bool :=
  r.codeHash = codeHash ∧ r.redeemedAt = none ∧ r.deletedAt = none ∧ now < r.expiresAt

def PlatformInviteChange.apply (r : PlatformInvite) : PlatformInviteChange → Option PlatformInvite
  | .softDelete now => if r.deletedAt = none then some { r with deletedAt := some now } else none
  | .claim codeHash tenantId now =>
    if r.claimable codeHash now = true then
      some { r with redeemedAt := some now, redeemedTenantId := some tenantId }
    else none

def applyChange : (T : Table) → Change T → Row T → Option (Row T)
  | .platformInvites, g, (r : PlatformInvite) => PlatformInviteChange.apply r g

def clash : (T : Table) → Row T → Row T → Bool
  | .tenants, (r : Tenant), (r' : Tenant) =>
    r.tenantId = r'.tenantId ∨ (r.deletedAt = none ∧ r'.deletedAt = none ∧ r.slug = r'.slug)
  | .staffUsers, (r : StaffUser), (r' : StaffUser) =>
    r.deletedAt = none ∧ r'.deletedAt = none ∧ r.tenantId = r'.tenantId ∧ r.email = r'.email
  | .platformInvites, (r : PlatformInvite), (r' : PlatformInvite) => r.codeHash = r'.codeHash
  | .platformAuditLog, _, _ => false

inductive Query
  | bySlug | byCodeHash | claim
deriving DecidableEq

theorem rowId_applyChange (T : Table) (g : Change T) (r r' : Row T) (h : applyChange T g r = some r') :
    rowId T r' = rowId T r := by
  cases T <;> cases g <;> simp only [applyChange, PlatformInviteChange.apply] at h
  all_goals (split at h <;> cases h; rfl)

theorem clash_symm (T : Table) (r r' : Row T) : clash T r r' = clash T r' r := by
  rw [Bool.eq_iff_iff]
  cases T with
  | tenants =>
    simp only [clash, decide_eq_true_eq]
    constructor <;> rintro (h | ⟨hr, hr', hs⟩)
    · exact .inl h.symm
    · exact .inr ⟨hr', hr, hs.symm⟩
    · exact .inl h.symm
    · exact .inr ⟨hr', hr, hs.symm⟩
  | staffUsers =>
    simp only [clash, decide_eq_true_eq]
    constructor <;> rintro ⟨hr, hr', ht, he⟩ <;> exact ⟨hr', hr, ht.symm, he.symm⟩
  | platformInvites =>
    simp only [clash, decide_eq_true_eq]
    exact eq_comm
  | platformAuditLog => rfl

abbrev schema : Schema where
  Table := Table
  tables := inferInstance
  Row := Row
  id := rowId
  stamp := stamp
  Change := Change
  apply := applyChange
  Query := Query
  check _ _ := true
  clash := clash
  id_stamp := fun T _ _ _ => by cases T <;> rfl
  id_apply := rowId_applyChange
  clash_symm := clash_symm

/-! ## The world outside -/

inductive Ask
  | uuid4
  | sessionToken

abbrev Ans : Ask → Type
  | .uuid4 => Nat
  | .sessionToken => String

structure Input where
  uuid : Nat
  token : String

def serve : (q : Ask) → Input → Ans q
  | .uuid4, i => i.uuid
  | .sessionToken, i => i.token

abbrev outside : Service where
  Ask := Ask
  Ans := Ans
  Input := Input
  Store := Unit
  Mine := Unit
  serve _ q i _ s := (serve q i, s)
  mine _ _ := ()
  serve_mine _ _ _ _ _ _ _ := rfl

/-- The exceptions: an index refuses a row, and the claim matched nothing. -/
inductive Err
  | integrity
  | inviteAlreadyClaimed
deriving DecidableEq

abbrev Prg (α : Type) : Type := Code schema outside Err α

abbrev ask (q : Ask) : Prg (Ans q) := Session.ask (V := outside) q

abbrev update (T : Table) (i : Nat) (g : Change T) : Prg (Option (Row T)) :=
  Session.update (S := schema) Err.integrity T i g

abbrev insert (T : Table) (r : Row T) : Prg (Row T) := Session.insert (S := schema) Err.integrity T r

/-- `str.lower`, the digest of a code, and how long an invite is open. -/
structure Config where
  lower : String → String
  hashToken : String → String
  inviteTtl : Int

/-! ## What is refused before a transaction -/

def RESERVED_SLUGS : List String :=
  ["admin", "api", "app", "assets", "cdn", "docs", "mail", "staging", "static", "status", "support", "www"]

def slugEdge (c : Char) : Bool := ('a' ≤ c ∧ c ≤ 'z') ∨ ('0' ≤ c ∧ c ≤ '9')

def isValidSlug (slug : String) : Bool :=
  let cs := slug.toList
  (1 ≤ cs.length ∧ cs.length ≤ 63) ∧ (cs.head?.any slugEdge ∧ cs.getLast?.any slugEdge) ∧
    (cs.all fun c => slugEdge c ∨ c = '-') ∧ slug ∉ RESERVED_SLUGS

def MIN_STAFF_PASSWORD_LENGTH : Nat := 10

def passwordProblem (password : String) : Option String :=
  if strip password = "" then some "empty_password"
  else if password.length < MIN_STAFF_PASSWORD_LENGTH then some "password_too_short"
  else none

/-! ## The repositories -/

def bySlug (slug : String) : Prg (Option Tenant) :=
  select .bySlug fun s => (s.all .tenants).find? fun (r : Tenant) => r.slug = slug ∧ r.deletedAt = none

def byCodeHash (codeHash : String) : Prg (Option PlatformInvite) :=
  select .byCodeHash fun s => (s.all .platformInvites).find? fun (r : PlatformInvite) => r.codeHash = codeHash

def record (operator : String) (action : PlatformAuditAction) (targetTenantId : Option Nat) : Prg Unit := do
  let row : PlatformAuditLog := ⟨0, 0, operator, action, targetTenantId⟩
  let _ ← insert .platformAuditLog row
  return ()

def claim (codeHash : String) (tenantId : Nat) (now : Int) : Prg (Option Nat) := do
  let found ← select .claim fun s =>
    (matching s .platformInvites fun (r : PlatformInvite) => r.claimable codeHash now).head?
  match found with
  | none => return none
  | some i => do
    let row ← update .platformInvites i (.claim codeHash tenantId now)
    return row.map PlatformInvite.id

/-! ## The services -/

/-- What a service answers; of an invite that was created, its code. -/
inductive Reply
  | command (ok : Bool) (message : String) (tenantId : Option Nat)
  | invite (ok : Bool) (message : String) (code : Option String) (inviteId : Option Nat)
  | redeem (ok : Bool) (message : String) (slug : Option String) (tenantId : Option Nat)
deriving DecidableEq

def createTenant (cfg : Config) (tenantId : Nat) (slug name ownerEmail operator : String) : Prg Unit := do
  let tenant : Tenant := ⟨0, 0, none, tenantId, slug, name, .active⟩
  let _ ← insert .tenants tenant
  let owner : StaffUser := ⟨0, 0, none, tenantId, cfg.lower ownerEmail, ownerEmail, .owner⟩
  let _ ← insert .staffUsers owner
  record operator (.tenantProvisioned slug) (some tenantId)

def failProvision (operator slug reason : String) : Prg Reply := do
  tenantSession fun _ => record operator (.tenantProvisionFailed slug reason) none
  return .command false reason none

def provision (cfg : Config) (slug name ownerEmail ownerPassword operator : String) : Prg Reply :=
  if isValidSlug slug = false then failProvision operator slug "invalid_or_reserved_slug"
  else match passwordProblem ownerPassword with
    | some problem => failProvision operator slug problem
    | none => do
      let taken ← bySlug slug
      if taken.isSome then failProvision operator slug "slug_taken"
      else do
        let tenantId ← ask .uuid4
        let outcome ← (tenantSession fun _ => createTenant cfg tenantId slug name ownerEmail operator).attempt
        match outcome with
        | .ok _ => return .command true "provisioned" (some tenantId)
        | .error _ => failProvision operator slug "slug_taken"

def failInvite (operator slug reason : String) : Prg Reply := do
  tenantSession fun _ => record operator (.inviteCreateFailed slug reason) none
  return .invite false reason none none

def createInvite (cfg : Config) (slug name ownerEmail operator : String) : Prg Reply :=
  if isValidSlug slug = false then failInvite operator slug "invalid_or_reserved_slug"
  else do
    let taken ← bySlug slug
    if taken.isSome then failInvite operator slug "slug_taken"
    else do
      let code ← ask .sessionToken
      let now ← now
      let inviteId ← tenantSession fun _ => do
        let invite : PlatformInvite := ⟨0, 0, none, cfg.hashToken code, slug, name, cfg.lower (strip ownerEmail), operator,
          now + cfg.inviteTtl, none, none⟩
        let row ← insert .platformInvites invite
        record operator (.inviteCreated slug (cfg.lower (strip ownerEmail))) none
        return PlatformInvite.id row
      return .invite true "invite_created" (some code) (some inviteId)

def recordRevoked (removed : Bool) (operator : String) (inviteId : Nat) : Prg Unit :=
  if removed then record operator (.inviteRevoked inviteId) none else return ()

def revokeInvite (inviteId : Nat) (operator : String) : Prg Reply := do
  let removed ← tenantSession fun txNow => do
    let row ← update .platformInvites inviteId (.softDelete txNow)
    recordRevoked row.isSome operator inviteId
    return row.isSome
  if removed then return .command true "invite_revoked" none
  else return .command false "invite_not_found" none

def PlatformInvite.redeemable (r : PlatformInvite) (now : Int) : Bool :=
  r.deletedAt = none ∧ r.redeemedAt = none ∧ now < r.expiresAt

def failRedeem (codeHash : String) (row : Option PlatformInvite) (reason : String) : Prg Reply := do
  tenantSession fun _ => record ((row.map PlatformInvite.createdBy).getD "anonymous:join")
    (.inviteRedeemFailed reason (String.ofList (codeHash.toList.take 8)) (row.map PlatformInvite.slug)) none
  return .redeem false reason none none

def claimAndFound (cfg : Config) (row : PlatformInvite) (codeHash : String) (tenantId : Nat) : Prg Unit :=
  tenantSession fun _ => do
    let now ← now
    let claimed ← claim codeHash tenantId now
    raiseIf claimed.isNone .inviteAlreadyClaimed
    createTenant cfg tenantId row.slug row.name row.ownerEmail row.createdBy
    record row.createdBy (.inviteRedeemed row.slug row.ownerEmail) (some tenantId)

def redeemInvite (cfg : Config) (code ownerPassword : String) : Prg Reply := do
  let row ← byCodeHash (cfg.hashToken code)
  let now ← now
  match row.filter fun r => r.redeemable now with
  | none => failRedeem (cfg.hashToken code) row "invalid_invite"
  | some invite =>
    match passwordProblem ownerPassword with
    | some problem => failRedeem (cfg.hashToken code) (some invite) problem
    | none => do
      let tenantId ← ask .uuid4
      let outcome ← (claimAndFound cfg invite (cfg.hashToken code) tenantId).attempt
      match outcome with
      | .ok _ => return .redeem true "redeemed" (some invite.slug) (some tenantId)
      | .error .inviteAlreadyClaimed => failRedeem (cfg.hashToken code) (some invite) "invalid_invite"
      | .error .integrity => failRedeem (cfg.hashToken code) (some invite) "slug_taken"

/-! ## The requests -/

inductive Request
  | provision (slug name ownerEmail ownerPassword operator : String)
  | createInvite (slug name ownerEmail operator : String)
  | revokeInvite (inviteId : Nat) (operator : String)
  | redeemInvite (code ownerPassword : String)

def Request.code (cfg : Config) : Request → Prg Reply
  | .provision slug name ownerEmail ownerPassword operator => Platform.provision cfg slug name ownerEmail ownerPassword operator
  | .createInvite slug name ownerEmail operator => Platform.createInvite cfg slug name ownerEmail operator
  | .revokeInvite inviteId operator => Platform.revokeInvite inviteId operator
  | .redeemInvite code ownerPassword => Platform.redeemInvite cfg code ownerPassword

abbrev desk (cfg : Config) (reqs : Tid → Request) (rows : Rows schema) (next : Nat) (clock : Int) :
    Conf (machine schema outside Err) Reply :=
  staged () (fun t => (reqs t).code cfg) rows next clock

end Platform
