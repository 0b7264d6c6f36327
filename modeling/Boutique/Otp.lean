import Boutique.TxnSession
/-!
# Otp — one-time codes, and the phone proofs they are exchanged for

A code row carries its whole life: the attempts spent on it, the verification token minted from it and that token's one
use.  `verify` decides inside its transaction and raises outside it; the proof is burnt inside the caller's.
-/
namespace Otp

open Txn Session

/-- A secret: what somebody typed or sent, or the `n`-th session token, generated for thread `by_`. -/
inductive Secret
  | text (s : String)
  | session (by_ : Tid) (n : Nat)
deriving DecidableEq

structure Digest where
  secret : Secret
deriving DecidableEq

def hashToken (secret : Secret) : Digest := ⟨secret⟩

structure OtpCode where
  id : Nat
  createdAt : Int
  deletedAt : Option Int
  phone : String
  codeHash : Digest
  expiresAt : Int
  attempts : Nat
  consumedAt : Option Int
  verificationTokenHash : Option Digest
  verificationExpiresAt : Option Int
  verificationConsumedAt : Option Int
deriving DecidableEq

/-- What a proven phone is for: a booking, a place on the waitlist. -/
structure Booking where
  id : Nat
  createdAt : Int
  phone : String
deriving DecidableEq

inductive Table
  | otpCodes | bookings
deriving DecidableEq

abbrev Row : Table → Type
  | .otpCodes => OtpCode
  | .bookings => Booking

def rowId : (T : Table) → Row T → Nat
  | .otpCodes, (r : OtpCode) => r.id
  | .bookings, (r : Booking) => r.id

def stamp : (T : Table) → Nat → Int → Row T → Row T
  | .otpCodes, i, n, (r : OtpCode) => { r with id := i, createdAt := n }
  | .bookings, i, n, (r : Booking) => { r with id := i, createdAt := n }

/-- The UPDATEs of `OtpCodesRepository`. -/
inductive OtpCodeChange
  | softDeleteActive (phone : String) (txNow : Int)
  | incrementAttempts
  | markConsumed (verificationTokenHash : Digest) (verificationExpiresAt txNow : Int)
  | consumeVerification (phone : String) (verificationTokenHash : Digest) (now txNow : Int)

def OtpCode.active (r : OtpCode) (phone : String) : Bool := r.phone = phone ∧ r.consumedAt = none ∧ r.deletedAt = none

def OtpCode.proves (r : OtpCode) (phone : String) (tokenHash : Digest) (now : Int) : Bool :=
  r.phone = phone ∧ r.verificationTokenHash = some tokenHash ∧ r.verificationConsumedAt = none ∧
    r.verificationExpiresAt.any (now < ·) ∧ r.deletedAt = none

def OtpCodeChange.apply (r : OtpCode) : OtpCodeChange → Option OtpCode
  | .softDeleteActive phone txNow => if r.active phone then some { r with deletedAt := some txNow } else none
  | .incrementAttempts => if r.deletedAt = none then some { r with attempts := r.attempts + 1 } else none
  | .markConsumed verificationTokenHash verificationExpiresAt txNow =>
    if r.consumedAt = none ∧ r.deletedAt = none then
      some { r with
        consumedAt := some txNow
        verificationTokenHash := some verificationTokenHash
        verificationExpiresAt := some verificationExpiresAt }
    else none
  | .consumeVerification phone tokenHash now txNow =>
    if r.proves phone tokenHash now then some { r with verificationConsumedAt := some txNow } else none

abbrev Change : Table → Type
  | .otpCodes => OtpCodeChange
  | .bookings => Empty

def applyChange : (T : Table) → Change T → Row T → Option (Row T)
  | .otpCodes, g, (r : OtpCode) => OtpCodeChange.apply r g

def check : (T : Table) → Row T → Bool
  | .otpCodes, (r : OtpCode) => r.attempts ≤ 50
  | .bookings, _ => true

inductive Query
  | latestActiveByPhone | activeForPhone | refreshed | unspentProofs
deriving DecidableEq

theorem rowId_applyChange (T : Table) (g : Change T) (r r' : Row T) (h : applyChange T g r = some r') :
    rowId T r' = rowId T r := by
  cases T with
  | otpCodes =>
    cases g <;> simp only [applyChange, OtpCodeChange.apply] at h
    all_goals (split at h <;> cases h)
    all_goals rfl
  | bookings => cases g

abbrev schema : Schema where
  Table := Table
  tables := inferInstance
  Row := Row
  id := rowId
  stamp := stamp
  Change := Change
  apply := applyChange
  Query := Query
  check := check
  clash _ _ _ := false
  id_stamp := fun T _ _ _ => by cases T <;> rfl
  id_apply := rowId_applyChange
  clash_symm _ _ _ := rfl

/-! ## The world outside -/

inductive Limiter
  | tenant | phone | ip | verify
deriving DecidableEq

/-- What the services ask: `compare` is `_matches` against a row's hash, `goesThrough` whether the caller's transaction
does after the proof. -/
inductive Ask
  | isConfigured
  | isBlocked (limiter : Limiter)
  | generateOtpCode
  | sendSms
  | compare (otpId : Nat) (code : Secret) (storedHash : Digest)
  | generateSessionToken
  | goesThrough
deriving DecidableEq

abbrev Ans : Ask → Type
  | .generateOtpCode | .generateSessionToken => Secret
  | .isConfigured | .isBlocked _ | .sendSms | .compare .. | .goesThrough => Bool

structure Input where
  yes : Bool
  code : String

structure Comparison where
  by_ : Tid
  otpId : Nat
deriving DecidableEq

structure Store where
  compared : List Comparison
  tokens : Nat

def matches_ (devCode : Option Secret) (code : Secret) (storedHash : Digest) : Bool :=
  hashToken code = storedHash || devCode.any fun d => hashToken code = hashToken d

def serve (devCode : Option Secret) (t : Tid) : (q : Ask) → Input → Nat → Store → Ans q × Store
  | .generateOtpCode, i, _, s => (.text i.code, s)
  | .generateSessionToken, _, _, s => (.session t s.tokens, { s with tokens := s.tokens + 1 })
  | .compare otpId code storedHash, _, _, s =>
    (matches_ devCode code storedHash, { s with compared := s.compared ++ [⟨t, otpId⟩] })
  | .isConfigured, i, _, s | .isBlocked _, i, _, s | .sendSms, i, _, s | .goesThrough, i, _, s => (i.yes, s)

def Store.comparedBy (s : Store) (t : Tid) : List Comparison := s.compared.filter fun c => c.by_ = t

abbrev outside (devCode : Option Secret) : Service where
  Ask := Ask
  Ans := Ans
  Input := Input
  Store := Store
  Mine := List Comparison
  serve := serve devCode
  mine t s := s.comparedBy t
  serve_mine t u q i n s h := by
    cases q with
    | compare => simp [serve, Store.comparedBy, Ne.symm h]
    | _ => rfl

inductive Err
  | smsNotConfigured
  | otpThrottled
  | smsUnavailable
  | otpInvalid
  | otpExpired
  | phoneNotVerified
  | multipleResultsFound
  | refused
  | integrity
deriving DecidableEq

variable {devCode : Option Secret}

abbrev Prg (devCode : Option Secret) (α : Type) : Type := Code schema (outside devCode) Err α

abbrev ask (q : Ask) : Prg devCode (Ans q) := Session.ask (V := outside devCode) q

def OTP_TTL : Int := 300
def OTP_MAX_VERIFY_ATTEMPTS : Nat := 5
def VERIFICATION_TOKEN_TTL : Int := 600

/-! ## Repositories -/

namespace OtpCodes

def latestActiveByPhone (phone : String) : Prg devCode (Option OtpCode) := select .latestActiveByPhone fun s =>
  latestBy OtpCode.createdAt ((s.all .otpCodes).filter fun (r : OtpCode) => r.active phone)

def softDeleteActiveForPhone (phone : String) (txNow : Int) : Prg devCode Nat := do
  let ids ← select .activeForPhone fun s => matching s .otpCodes fun (r : OtpCode) => r.active phone
  let rows ← updateEach (S := schema) Err.integrity Table.otpCodes (.softDeleteActive phone txNow) ids
  return rows.length

def insert (phone : String) (codeHash : Digest) (expiresAt : Int) : Prg devCode OtpCode :=
  Session.insert (S := schema) Err.integrity Table.otpCodes
    (⟨0, 0, none, phone, codeHash, expiresAt, 0, none, none, none, none⟩ : OtpCode)

def incrementAttempts (otpId : Nat) : Prg devCode Nat := do
  let row ← update (S := schema) Err.integrity Table.otpCodes otpId .incrementAttempts
  return (row.map OtpCode.attempts).getD 0

def markConsumed (otpId : Nat) (tokenHash : Digest) (verificationExpiresAt txNow : Int) : Prg devCode (Option OtpCode) := do
  let updated ← update (S := schema) Err.integrity Table.otpCodes otpId
    (.markConsumed tokenHash verificationExpiresAt txNow)
  match updated with
  | none => return none
  | some _ => select .refreshed fun s => s.rows .otpCodes otpId

/-- The guarded UPDATE; more than one row is `scalar_one_or_none`'s error. -/
def consumeVerification (phone : String) (tokenHash : Digest) (now txNow : Int) : Prg devCode Bool := do
  let ids ← select .unspentProofs fun s => matching s .otpCodes fun (r : OtpCode) => r.proves phone tokenHash now
  let rows ← updateEach (S := schema) Err.integrity Table.otpCodes (.consumeVerification phone tokenHash now txNow) ids
  match rows with
  | [] => return false
  | [_] => return true
  | _ => .raise .multipleResultsFound

end OtpCodes

/-! ## The service -/

inductive Response
  | sent
  | verified (verificationToken : Secret) (expiresAt : Int)
  | booked (row : Booking)

namespace OtpService

def send (phone : String) : Prg devCode Response := do
  let configured ← ask .isConfigured
  raiseIf (!configured) .smsNotConfigured
  let tenantBlocked ← ask (.isBlocked .tenant)
  raiseIf tenantBlocked .otpThrottled
  let phoneBlocked ← ask (.isBlocked .phone)
  if phoneBlocked then return .sent
  else do
    let ipBlocked ← ask (.isBlocked .ip)
    if ipBlocked then return .sent
    else do
      let code ← ask .generateOtpCode
      let now ← Session.now
      let _ ← tenantSession fun txNow => do
        let _ ← OtpCodes.softDeleteActiveForPhone phone txNow
        OtpCodes.insert phone (hashToken code) (now + OTP_TTL)
      let delivered ← ask .sendSms
      raiseIf (!delivered) .smsUnavailable
      return .sent

/-- What `verify` decides inside the transaction. -/
inductive Outcome
  | failure (e : Err)
  | result (verificationToken : Secret) (expiresAt : Int)

def tryCode (row : OtpCode) (code : Secret) (now txNow : Int) : Prg devCode Outcome := do
  let attempts ← OtpCodes.incrementAttempts row.id
  if OTP_MAX_VERIFY_ATTEMPTS < attempts then return .failure .otpInvalid
  else if row.expiresAt ≤ now then return .failure .otpExpired
  else do
    let same ← ask (.compare row.id code row.codeHash)
    if !same then return .failure .otpInvalid
    else do
      let token ← ask .generateSessionToken
      let expiresAt := now + VERIFICATION_TOKEN_TTL
      let consumed ← OtpCodes.markConsumed row.id (hashToken token) expiresAt txNow
      match consumed with
      | none => return .failure .otpInvalid
      | some _ => return .result token expiresAt

/-- Decide inside the transaction, raise outside it. -/
def verify (phone : String) (code : Secret) : Prg devCode Response := do
  let now ← Session.now
  let blocked ← ask (.isBlocked .verify)
  raiseIf blocked .otpThrottled
  let outcome ← tenantSession fun txNow => do
    let row ← OtpCodes.latestActiveByPhone phone
    match row with
    | none => return .failure .otpInvalid
    | some row =>
      if OTP_MAX_VERIFY_ATTEMPTS ≤ row.attempts then return .failure .otpInvalid
      else tryCode row code now txNow
  match outcome with
  | .failure e => .raise e
  | .result token expiresAt => return .verified token expiresAt

def consumeVerification (phone : String) (verificationToken : Secret) (txNow : Int) : Prg devCode Bool := do
  let now ← Session.now
  OtpCodes.consumeVerification phone (hashToken verificationToken) now txNow

end OtpService

/-- A caller of the proof, a booking or a waitlist join: it is burnt first, and what follows goes through or rolls it
back. -/
def create (phone : String) (verificationToken : Secret) : Prg devCode Response :=
  tenantSession fun txNow => do
    let verified ← OtpService.consumeVerification phone verificationToken txNow
    raiseIf (!verified) .phoneNotVerified
    let goes ← ask .goesThrough
    raiseIf (!goes) .refused
    let row ← Session.insert (S := schema) Err.integrity Table.bookings (⟨0, 0, phone⟩ : Booking)
    return .booked row

inductive Request
  | send (phone : String)
  | verify (phone : String) (code : Secret)
  | create (phone : String) (verificationToken : Secret)

def Request.code : Request → Prg devCode Response
  | .send phone => OtpService.send phone
  | .verify phone code => OtpService.verify phone code
  | .create phone verificationToken => Otp.create phone verificationToken

end Otp
