import Boutique.Scrub
import Boutique.TxnSession
import Boutique.Validation
/-!
# Gateway — the boutique's credentials at its payment provider

`GatewayCredentialService` over `tenant_gateway_credentials`, as one tenant's sessions see it.  A connect checks, pings and
encrypts before its transaction; in it, under the lock, the active row is superseded and the new one inserted.
-/
namespace Gateway

open Txn Session
open Boutique (Text stripChars scrubProviderError)

abbrev Fields : Type := List (Text × Text)

inductive GatewayCredentialStatus
  | valid | invalid
deriving DecidableEq

structure TenantGatewayCredential where
  id : Nat
  createdAt : Int
  deletedAt : Option Int
  provider : String
  ciphertext : String
  keyRef : String
  status : GatewayCredentialStatus
  lastValidatedAt : Int
  validationError : Option Text
  createdBy : Nat
deriving DecidableEq

/-- The actions of the service, each with its details. -/
inductive AuditAction
  | gatewayConnected (provider : String) (fields : List Text)
  | gatewayDisconnected (provider : String)
  | gatewayValidated (provider : String) (status : GatewayCredentialStatus)
  | gatewayValidationFailed (provider : String) (status : GatewayCredentialStatus)

structure AuditLog where
  id : Nat
  createdAt : Int
  actorId : Nat
  action : AuditAction

inductive Table
  | credentials | auditLog
deriving DecidableEq

abbrev Row : Table → Type
  | .credentials => TenantGatewayCredential
  | .auditLog => AuditLog

def rowId : (T : Table) → Row T → Nat
  | .credentials, (r : TenantGatewayCredential) => r.id
  | .auditLog, (r : AuditLog) => r.id

def stamp : (T : Table) → Nat → Int → Row T → Row T
  | .credentials, i, n, (r : TenantGatewayCredential) => { r with id := i, createdAt := n }
  | .auditLog, i, n, (r : AuditLog) => { r with id := i, createdAt := n }

def TenantGatewayCredential.active (r : TenantGatewayCredential) (provider : String) : Bool :=
  r.provider = provider ∧ r.deletedAt = none

inductive CredentialChange
  | softDeleteActive (provider : String) (now : Int)
  | markStatus (status : GatewayCredentialStatus) (lastValidatedAt : Int) (validationError : Option Text)

/-- Both UPDATEs leave a superseded row alone. -/
def CredentialChange.apply (r : TenantGatewayCredential) : CredentialChange → Option TenantGatewayCredential
  | .softDeleteActive provider now => if r.active provider then some { r with deletedAt := some now } else none
  | .markStatus status lastValidatedAt validationError =>
    if r.deletedAt = none then
      some { r with status := status, lastValidatedAt := lastValidatedAt, validationError := validationError }
    else none

abbrev Change : Table → Type
  | .credentials => CredentialChange
  | .auditLog => Empty

def applyChange : (T : Table) → Change T → Row T → Option (Row T)
  | .credentials, g, (r : TenantGatewayCredential) => CredentialChange.apply r g

inductive Query
  | activeForProvider | newestForProvider | activeForProviderById | softDeleteActive
deriving DecidableEq

/-- The CHECK on the provider; the one on the status is the type's. -/
def rowCheck : (T : Table) → Row T → Bool
  | .credentials, (r : TenantGatewayCredential) => r.provider = "fake" ∨ r.provider = "lemonsqueezy"
  | .auditLog, _ => true

def clash : (T : Table) → Row T → Row T → Bool
  | .credentials, (r : TenantGatewayCredential), (r' : TenantGatewayCredential) =>
    r.deletedAt = none ∧ r'.deletedAt = none ∧ r.provider = r'.provider
  | .auditLog, _, _ => false

theorem rowId_applyChange (T : Table) (g : Change T) (r r' : Row T) (h : applyChange T g r = some r') :
    rowId T r' = rowId T r := by
  cases T <;> cases g <;> simp only [applyChange, CredentialChange.apply] at h
  all_goals (split at h <;> cases h; rfl)

theorem clash_symm (T : Table) (r r' : Row T) : clash T r r' = clash T r' r := by
  cases T with
  | credentials =>
    simp only [clash, decide_eq_decide]
    constructor
    · rintro ⟨h, h', hp⟩
      exact ⟨h', h, hp.symm⟩
    · rintro ⟨h, h', hp⟩
      exact ⟨h', h, hp.symm⟩
  | auditLog => rfl

abbrev schema : Schema where
  Table := Table
  tables := inferInstance
  Row := Row
  id := rowId
  stamp := stamp
  Change := Change
  apply := applyChange
  Query := Query
  check := rowCheck
  clash := clash
  id_stamp := fun T _ _ _ => by cases T <;> rfl
  id_apply := rowId_applyChange
  clash_symm := clash_symm

inductive Err
  | gatewayNotConfigured
  | secretBoxNotConfigured
  | gatewayThrottled
  | domainValidation (message : Text)
  | credentialsRejected (text : Text)
  | gatewayUnavailable
  | gatewayNotConnected
  | gatewayNotFound
  | multipleResultsFound
  | unexpected
  | integrity
deriving DecidableEq

abbrev Prg (α : Type) : Type := Code schema nobody Err α

def liftExcept {α : Type} : Except Err α → Prg α
  | .ok a => .ret a
  | .error e => .raise e

/-! ## The shape of a credential set -/

def MAX_CREDENTIAL_FIELD_VALUE_LENGTH : Nat := 512
def MAX_CREDENTIAL_BLOB_BYTES : Nat := 3000

/-- One string comes before another: by code points, a prefix first. -/
def before (a b : Text) : Bool := List.lex a b fun c d => c.toNat < d.toNat

def sorted (names : List Text) : List Text := names.insertionSort fun a b => before b a = false

def joined (names : List Text) : Text := ", ".toList.intercalate names

def backslash : Char := Char.ofNat 92

def unicodeEscape (n : Nat) : Text :=
  [backslash, 'u', (n / 4096 % 16).digitChar, (n / 256 % 16).digitChar, (n / 16 % 16).digitChar, (n % 16).digitChar]

def escapeAscii (c : Char) : Text :=
  if c.toNat = 34 ∨ c.toNat = 92 then [backslash, c]
  else if c.toNat = 10 then [backslash, 'n']
  else if c.toNat = 13 then [backslash, 'r']
  else if c.toNat = 9 then [backslash, 't']
  else if c.toNat = 12 then [backslash, 'f']
  else if c.toNat = 8 then [backslash, 'b']
  else if 32 ≤ c.toNat ∧ c.toNat ≤ 126 then [c]
  else if c.toNat < 65536 then unicodeEscape c.toNat
  else unicodeEscape (55296 + (c.toNat - 65536) / 1024) ++ unicodeEscape (56320 + (c.toNat - 65536) % 1024)

def quoted (value : Text) : Text := Char.ofNat 34 :: value.flatMap escapeAscii ++ [Char.ofNat 34]

/-- Sorted keys, no whitespace; a character is a byte. -/
def serializeCredentials (fields : Fields) : Text :=
  let members := (sorted (fields.map Prod.fst)).map fun name =>
    quoted name ++ [':'] ++ quoted ((fields.lookup name).getD [])
  [Char.ofNat 123] ++ [','].intercalate members ++ [Char.ofNat 125]

def cleanEach (fields : Fields) : List Text → Except Err Fields
  | [] => .ok []
  | name :: rest => do
    let value := stripChars ((fields.lookup name).getD [])
    if value = [] then .error (.domainValidation (name ++ " is required".toList))
    else if MAX_CREDENTIAL_FIELD_VALUE_LENGTH < value.length then
      .error (.domainValidation (name ++ " is too long".toList))
    else return (name, value) :: (← cleanEach fields rest)

/-- Exactly the adapter's fields, each with a value, and not too large together. -/
def validateCredentialFields (fields : Fields) (expected : List Text) : Except Err Fields := do
  let supplied := fields.map Prod.fst
  let unknown := supplied.filter fun name => name ∉ expected
  let missing := expected.filter fun name => name ∉ supplied
  if unknown ≠ [] then .error (.domainValidation ("unknown credential fields: ".toList ++ joined (sorted unknown)))
  else if missing ≠ [] then .error (.domainValidation ("missing credential fields: ".toList ++ joined (sorted missing)))
  else
    let cleaned ← cleanEach fields (sorted expected)
    if MAX_CREDENTIAL_BLOB_BYTES < (serializeCredentials cleaned).length then
      .error (.domainValidation "credentials are too large".toList)
    else return cleaned

/-! ## The adapter and the secret box -/

inductive PingFailure
  | credentialsRejected (text : Text)
  | notConfigured
  | other

structure PaymentGateway where
  provider : Option String
  isConfigured : Bool
  credentialFields : List Text
  validateCredentials : Fields → Except PingFailure Unit

inductive BoxFailure
  | notConfigured
  | secretDecrypt
  | other

structure SecretBox where
  isConfigured : Bool
  keyRef : String
  encrypt : Text → Except BoxFailure String
  decrypt : String → Except BoxFailure (List UInt8)

/-- What `json.loads` makes of a plaintext: a flat map of strings, or anything else. -/
inductive Decoded
  | flat (fields : Fields)
  | other

inductive LoadsFailure
  | valueError
  | recursionError

structure Scan where
  order : List TenantGatewayCredential → List TenantGatewayCredential
  perm : ∀ rows, (order rows).Perm rows

/-- **The service, for one request**: what the limiter, the adapter, the box and `json.loads` answer this time. -/
structure GatewayCredentialService where
  gateway : PaymentGateway
  secretBox : SecretBox
  isBlocked : Bool
  loads : List UInt8 → Except LoadsFailure Decoded
  scan : Scan

structure GatewayStatus where
  provider : Option String
  configured : Bool
  connected : Bool
  status : Option GatewayCredentialStatus
  lastValidatedAt : Option Int
  credentialFields : List Text
deriving DecidableEq

structure GatewayCredentials where
  provider : String
  fields : Fields
deriving DecidableEq

/-! ## The repository -/

def scalarOneOrNone {α : Type} : List α → Except Err (Option α)
  | [] => .ok none
  | [r] => .ok (some r)
  | _ => .error .multipleResultsFound

def providerRows (provider : String) (s : Snapshot schema) : List TenantGatewayCredential :=
  (s.all .credentials).filter fun r : TenantGatewayCredential => r.provider = provider

def activeRows (provider : String) (s : Snapshot schema) : List TenantGatewayCredential :=
  (s.all .credentials).filter fun r : TenantGatewayCredential => r.active provider

def activeForProvider (provider : String) : Prg (Option TenantGatewayCredential) := do
  let rows ← select .activeForProvider (activeRows provider)
  liftExcept (scalarOneOrNone rows)

def newest (scan : Scan) (rows : List TenantGatewayCredential) : Option TenantGatewayCredential :=
  latestBy TenantGatewayCredential.createdAt (scan.order rows)

def newestForProvider (scan : Scan) (provider : String) : Prg (Option TenantGatewayCredential) :=
  select .newestForProvider fun s => newest scan (providerRows provider s)

def activeForProviderById (credentialId : Nat) : Prg (Option TenantGatewayCredential) :=
  select .activeForProviderById fun s =>
    (s.rows .credentials credentialId : Option TenantGatewayCredential).filter fun r => r.deletedAt = none

def markStatus (credentialId : Nat) (status : GatewayCredentialStatus) (lastValidatedAt : Int)
    (validationError : Option Text) : Prg (Option TenantGatewayCredential) := do
  match ← update (S := schema) Err.integrity Table.credentials credentialId
    (.markStatus status lastValidatedAt validationError) with
  | none => return none
  | some _ => activeForProviderById credentialId

def softDeleteActive (provider : String) (at_ : Int) : Prg Nat := do
  let ids ← select .softDeleteActive fun s =>
    matching s Table.credentials fun r : TenantGatewayCredential => r.active provider
  let rows ← updateEach (S := schema) Err.integrity Table.credentials (.softDeleteActive provider at_) ids
  return rows.length

def draft (provider ciphertext keyRef : String) (lastValidatedAt : Int) (createdBy : Nat) : TenantGatewayCredential where
  id := 0
  createdAt := 0
  deletedAt := none
  provider := provider
  ciphertext := ciphertext
  keyRef := keyRef
  status := .valid
  lastValidatedAt := lastValidatedAt
  validationError := none
  createdBy := createdBy

def insertCredential (provider ciphertext keyRef : String) (lastValidatedAt : Int) (createdBy : Nat) :
    Prg TenantGatewayCredential :=
  insert (S := schema) Err.integrity Table.credentials (draft provider ciphertext keyRef lastValidatedAt createdBy)

def record (actorId : Nat) (action : AuditAction) : Prg Unit := do
  let _ ← insert (S := schema) Err.integrity Table.auditLog (⟨0, 0, actorId, action⟩ : AuditLog)

def advisoryLock : Prg Unit := .call (.sql .lock) .ret

/-! ## The service -/

/-- `except IntegrityError`, around the whole block. -/
def orUnavailable {α : Type} (p : Prg α) : Prg α := p.attempt.bind fun
  | .ok a => .ret a
  | .error .integrity => .raise .gatewayUnavailable
  | .error e => .raise e

namespace GatewayCredentialService

variable (service : GatewayCredentialService)

def requireProvider : Except Err String :=
  match service.gateway.provider with
  | none => .error .gatewayNotConfigured
  | some provider =>
    if !service.gateway.isConfigured then .error .gatewayNotConfigured
    else if !service.secretBox.isConfigured then .error .secretBoxNotConfigured
    else .ok provider

def active (provider : String) : Prg (Option TenantGatewayCredential) := tenantSession fun _ => activeForProvider provider

def base : GatewayStatus :=
  ⟨service.gateway.provider, service.gateway.isConfigured, false, none, none, sorted service.gateway.credentialFields⟩

def status : Prg GatewayStatus :=
  match service.gateway.provider with
  | none => return service.base
  | some provider => do
    match ← active provider with
    | none => return service.base
    | some row =>
      return { service.base with
        connected := row.status = .valid, status := some row.status, lastValidatedAt := some row.lastValidatedAt }

def ping (fields : Fields) : Except Err Unit :=
  match service.gateway.validateCredentials fields with
  | .ok () => .ok ()
  | .error (.credentialsRejected text) => .error (.credentialsRejected text)
  | .error .notConfigured => .error .gatewayNotConfigured
  | .error .other => .error .gatewayUnavailable

def encrypt (fields : Fields) : Except Err String :=
  match service.secretBox.encrypt (serializeCredentials fields) with
  | .ok ciphertext => .ok ciphertext
  | .error .notConfigured => .error .secretBoxNotConfigured
  | .error _ => .error .gatewayUnavailable

def decrypt (ciphertext provider : String) : Except Err GatewayCredentials :=
  match service.secretBox.decrypt ciphertext with
  | .error .notConfigured => .error .secretBoxNotConfigured
  | .error .secretDecrypt => .error .gatewayUnavailable
  | .error .other => .error .unexpected
  | .ok plaintext =>
    match service.loads plaintext with
    | .ok (.flat fields) => .ok ⟨provider, fields⟩
    | .ok .other => .error .gatewayUnavailable
    | .error .valueError => .error .gatewayUnavailable
    | .error .recursionError => .error .unexpected

def supersede (provider : String) (cleaned : Fields) (ciphertext : String) (at_ : Int) (actorId : Nat) : Prg Unit :=
  tenantSession fun _ => do
    advisoryLock
    let _ ← softDeleteActive provider at_
    let _ ← insertCredential provider ciphertext service.secretBox.keyRef at_ actorId
    record actorId (.gatewayConnected provider (sorted (cleaned.map Prod.fst)))

def connect (fields : Fields) (actorId : Nat) : Prg GatewayStatus := do
  let provider ← liftExcept service.requireProvider
  raiseIf service.isBlocked .gatewayThrottled
  let cleaned ← liftExcept (validateCredentialFields fields service.gateway.credentialFields)
  liftExcept (service.ping cleaned)
  let ciphertext ← liftExcept (service.encrypt cleaned)
  let at_ ← now
  orUnavailable (service.supersede provider cleaned ciphertext at_ actorId)
  service.status

/-- Audited whether or not the row was still there to be written. -/
def writeOutcome (credentialId actorId : Nat) (status : GatewayCredentialStatus) (validationError : Option Text)
    (action : AuditAction) : Prg Unit := do
  let at_ ← now
  tenantSession fun _ => do
    let _ ← markStatus credentialId status at_ validationError
    record actorId action

def revalidate (actorId : Nat) : Prg GatewayStatus := do
  let provider ← liftExcept service.requireProvider
  raiseIf service.isBlocked .gatewayThrottled
  let row ← active provider
  let row ← orRaise row .gatewayNotConnected
  let credentials ← liftExcept (service.decrypt row.ciphertext provider)
  match service.ping credentials.fields with
  | .error (.credentialsRejected text) => do
    let detail := scrubProviderError "GatewayCredentialsRejectedError".toList text (credentials.fields.map Prod.snd)
    writeOutcome row.id actorId .invalid (some detail) (.gatewayValidationFailed provider .invalid)
    service.status
  | .error e => .raise e
  | .ok () => do
    writeOutcome row.id actorId .valid none (.gatewayValidated provider .valid)
    service.status

def disconnect (actorId : Nat) : Prg GatewayStatus := do
  let provider ← liftExcept service.requireProvider
  let at_ ← now
  tenantSession fun _ => do
    let removed ← softDeleteActive provider at_
    raiseIf (removed = 0) .gatewayNotFound
    record actorId (.gatewayDisconnected provider)
  service.status

def credentialsFor : Prg GatewayCredentials := do
  let provider ← liftExcept service.requireProvider
  match ← active provider with
  | none => .raise .gatewayNotConnected
  | some row =>
    raiseIf (row.status ≠ .valid) .gatewayNotConnected
    liftExcept (service.decrypt row.ciphertext provider)

def verificationCredentialsFor : Prg GatewayCredentials := do
  let provider ← liftExcept service.requireProvider
  let row ← tenantSession fun _ => newestForProvider service.scan provider
  let row ← orRaise row .gatewayNotConnected
  liftExcept (service.decrypt row.ciphertext provider)

end GatewayCredentialService

inductive Request
  | status (service : GatewayCredentialService)
  | connect (service : GatewayCredentialService) (fields : Fields) (actorId : Nat)
  | revalidate (service : GatewayCredentialService) (actorId : Nat)
  | disconnect (service : GatewayCredentialService) (actorId : Nat)
  | credentialsFor (service : GatewayCredentialService)
  | verificationCredentialsFor (service : GatewayCredentialService)

inductive Reply
  | status (status : GatewayStatus)
  | credentials (credentials : GatewayCredentials)
deriving DecidableEq

def Request.code : Request → Prg Reply
  | .status service => do return .status (← service.status)
  | .connect service fields actorId => do return .status (← service.connect fields actorId)
  | .revalidate service actorId => do return .status (← service.revalidate actorId)
  | .disconnect service actorId => do return .status (← service.disconnect actorId)
  | .credentialsFor service => do return .credentials (← service.credentialsFor)
  | .verificationCredentialsFor service => do return .credentials (← service.verificationCredentialsFor)

end Gateway
