import Boutique.Slots
/-!
# Server — what the server process is made of

The configuration of a deployment, the errors its services raise, the parties it asks (payment gateway, SMS provider,
rate limiters, secret box) and the statements a service issues inside `tenant_session`.
-/
namespace Boutique

open Txn

/-- What a deployment fixes: the time zone, the wired gateway and the hold's lengths. -/
structure Config where
  zone : Zone
  /-- `gateway.provider`, and whether the adapter is configured. -/
  provider : Option String
  gatewayConfigured : Bool
  /-- Whether `BookingService` was given a credential service, and a payment service. -/
  credentialsWired : Bool
  paymentsWired : Bool
  depositHoldSeconds : Int
  pollIntervalSeconds : Int
  /-- `str.lower`. -/
  lower : String → String

/-- Where a `SlotUnavailableError` was raised; the wire error is the same. -/
inductive NoSlot
  | horizon | notOffered | noFreeSeat | indexRefused
deriving DecidableEq

inductive Err
  | bookingValidation (message : String)
  | domainValidation (message : String)
  | bookingThrottled
  | phoneNotVerified
  | bookingNotFound
  | termsStale
  | dressUnavailable
  | slotUnavailable (cause : NoSlot)
  | gatewayNotConfigured
  | gatewayNotConnected
  | gatewayCredentialsRejected
  | gatewayUnavailable
  | gatewayWebhookInvalid
  | secretBoxNotConfigured
  | secretDecrypt
  | paymentAlreadyHeld
  | bookingTransitionInvalid (message : String)
  | customerAlreadyBooked
  | ownerResendThrottled
  | bookingLinkInvalid
  | bookingAwaitingPayment
  | bookingAlreadyStarted
  | offerNotFound
  | offerNotClaimable (status : WaitlistEntryStatus)
  | boutiqueValidation (message : String)
  | duplicateDate
  | termsThrottled
  | termsVersionConflict
  | notFound
  | smsNotConfigured
  | smsRecipientErased
  | smsSend
  | integrity
  | multipleResultsFound
  | assertionFailed
  | unexpected
deriving DecidableEq

inductive Limiter
  | bookingCreateTenant
  | bookingCreatePhone (phone : String)
  | ownerSms
  | terms
deriving DecidableEq

structure PaymentSession where
  providerSessionId : String
  redirectUrl : String

structure WebhookEvent where
  providerSessionId : String
  providerTransactionId : String
  amountAgorot : Int
  paid : Bool
deriving DecidableEq

inductive SendResult
  | sent | refused | notConfigured
deriving DecidableEq

/-- What became of a drained row's `send_sms`; an unexpected error falls before the provider took the message or after. -/
inductive DueResult
  | sent | refused | notConfigured
  | fault (handed : Bool)
deriving DecidableEq

def DueResult.handed : DueResult → Bool
  | .sent => true
  | .fault handed => handed
  | _ => false

inductive Ask
  | isBlocked (limiter : Limiter)
  | recordFailure (limiter : Limiter)
  | isConnected
  | credentialsFor
  | verificationCredentialsFor
  | verifyWebhook (event : WebhookEvent)
  | createSession (reference : Nat) (amountAgorot : Int) (expiresIn : Int)
  | mintManageToken
  | smsConfigured
  | sendSms (phone : String) (kind : MessageKind) (bookingId : Nat)
  | rowLocked (messageId : Nat)
  | sendDue (messageId : Nat) (phone : String) (kind : MessageKind) (bookingId : Option Nat) (token : Nat)

abbrev Ask.Ans : Ask → Type
  | .isBlocked _ => Bool
  | .recordFailure _ => Unit
  | .isConnected => Bool
  | .credentialsFor => Option Err
  | .verificationCredentialsFor => Option Err
  | .verifyWebhook _ => Bool
  | .createSession .. => Except Err PaymentSession
  | .mintManageToken => Nat
  | .smsConfigured => Bool
  | .sendSms .. => SendResult
  | .rowLocked _ => Bool
  | .sendDue .. => DueResult

structure Input where
  blocked : Bool
  connected : Bool
  credentials : Option Err
  signatureValid : Bool
  session : Except Err PaymentSession
  smsConfigured : Bool
  sms : SendResult
  locked : Bool
  due : DueResult

/-- A `create_session` call: who made it, for which booking, and how many commits went before it. -/
structure Minted where
  by_ : Tid
  bookingId : Nat
  moment : Nat

structure Sent where
  by_ : Tid
  kind : MessageKind
  bookingId : Nat
  moment : Nat

structure Handed where
  by_ : Tid
  messageId : Nat
  kind : MessageKind
  bookingId : Option Nat
  token : Nat
  moment : Nat

structure Outside where
  minted : List Minted
  outbox : List Sent
  tokens : Nat
  handed : List Handed

namespace Outside

def serve (t : Tid) : (q : Ask) → Input → Nat → Outside → q.Ans × Outside
  | .isBlocked _, i, _, o => (i.blocked, o)
  | .recordFailure _, _, _, o => ((), o)
  | .isConnected, i, _, o => (i.connected, o)
  | .credentialsFor, i, _, o => (i.credentials, o)
  | .verificationCredentialsFor, i, _, o => (i.credentials, o)
  | .verifyWebhook _, i, _, o => (i.signatureValid, o)
  | .createSession b _ _, i, n, o => (i.session, { o with minted := o.minted ++ [⟨t, b, n⟩] })
  | .mintManageToken, _, _, o => (o.tokens, { o with tokens := o.tokens + 1 })
  | .smsConfigured, i, _, o => (i.smsConfigured, o)
  | .sendSms _ k b, i, n, o => (i.sms, { o with outbox := o.outbox ++ [⟨t, k, b, n⟩] })
  | .rowLocked _, i, _, o => (i.locked, o)
  | .sendDue m _ k b token, i, n, o =>
    (i.due, { o with handed := o.handed ++ if i.due.handed then [⟨t, m, k, b, token, n⟩] else [] })

def sentBy (t : Tid) (o : Outside) : List Sent := o.outbox.filter fun m => m.by_ = t

def handedBy (t : Tid) (o : Outside) : List Handed := o.handed.filter fun h => h.by_ = t

def mine (t : Tid) (o : Outside) : List Sent × List Handed := (o.sentBy t, o.handedBy t)

theorem serve_mine (t u : Tid) (q : Ask) (i : Input) (n : Nat) (o : Outside) (hu : u ≠ t) :
    (serve t q i n o).2.mine u = o.mine u := by
  cases q with
  | sendSms p k b => simp [serve, mine, sentBy, handedBy, Ne.symm hu]
  | sendDue m p k b token =>
    unfold mine serve sentBy handedBy
    cases i.due.handed <;> simp [Ne.symm hu]
  | _ => rfl

end Outside

abbrev service : Service where
  Ask := Ask
  Ans := Ask.Ans
  Input := Input
  Store := Outside
  Mine := List Sent × List Handed
  serve := Outside.serve
  mine := Outside.mine
  serve_mine := Outside.serve_mine

abbrev Prg (α : Type) : Type := Code schema service Err α

abbrev BWorld : Type := World schema service

abbrev server : Machine := machine schema service Err

def ask (q : Ask) : Prg q.Ans := .call (.ask q) .ret

def clock : Prg Int := .call .now .ret

def sql (o : Stmt schema) : Prg o.Res := .call (.sql o) .ret

def select {α : Type} (q : Query) (f : Snapshot schema → α) : Prg α := .call (.sql (.read q)) fun s => .ret (f s)

def update (T : Table) (i : Nat) (g : Change T) : Prg (Option (Row T)) :=
  .call (.sql (.update T i g)) fun
    | .ok r => .ret r
    | .error _ => .raise .integrity

def insert (T : Table) (r : Row T) : Prg (Row T) :=
  .call (.sql (.insert T r)) fun
    | .ok r => .ret r
    | .error _ => .raise .integrity

def advisoryLock : Prg Unit := .call (.sql .lock) fun _ => .ret ()

/-- `async with tenant_session(...)`: the body in a transaction, committed when it returns and rolled back when it
raises; the body is given the transaction's `now()`. -/
def tenantSession {α : Type} (body : Int → Prg α) : Prg α := do
  let txNow ← sql .begin
  match ← (body txNow).attempt with
  | .ok a =>
    sql .commit
    return a
  | .error e =>
    sql .abort
    throw e

def raiseIf (c : Bool) (e : Err) : Prg Unit := if c then throw e else return ()

def orRaise {α : Type} (x : Option α) (e : Err) : Prg α :=
  match x with
  | some a => return a
  | none => throw e

def liftExcept {α : Type} : Except Err α → Prg α
  | .ok a => return a
  | .error e => throw e

def onIntegrity {α : Type} (p h : Prg α) : Prg α :=
  tryCatch p fun e => if e = .integrity then h else throw e

def scalarOneOrNone {α : Type} : List α → Prg (Option α)
  | [] => return none
  | [a] => return some a
  | _ => throw .multipleResultsFound

def updateEach (T : Table) (g : Change T) : List Nat → Prg (List (Row T))
  | [] => return []
  | i :: is => do
    let r ← update T i g
    let rs ← updateEach T g is
    return r.toList ++ rs

def matching (s : Snapshot schema) (T : Table) (p : Row T → Bool) : List Nat :=
  ((s.all T).filter p).map (rowId T)

end Boutique
