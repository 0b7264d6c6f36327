import Boutique.Comms
/-!
# Payments — the single writer of the payments table

Opening a hold under the tenant's lock, settling it from a webhook in one guarded statement, and honouring money that
came after the hold expired.
-/
namespace Boutique
namespace PaymentService

def requireProvider (cfg : Config) : Prg String :=
  match cfg.provider with
  | some provider => if cfg.gatewayConfigured then return provider else throw .gatewayNotConfigured
  | none => throw .gatewayNotConfigured

def raiseAny (x : Option Err) : Prg Unit :=
  match x with
  | some e => throw e
  | none => return ()

/-- The credentials of the use path: authorisation to move new money. -/
def credentialsFor : Prg Unit := do
  let refused ← ask .credentialsFor
  raiseAny refused

/-- The verification path, and the adapter's check of the body it was handed. -/
def verifyWebhook (event : WebhookEvent) : Prg Bool := do
  let refused ← ask .verificationCredentialsFor
  raiseAny refused
  ask (.verifyWebhook event)

structure DepositHold where
  payment : Payment
  redirectUrl : Option String
  created : Bool

def mintHold (provider : String) (bookingId : Nat) (amountAgorot holdSeconds now : Int) : Prg DepositHold := do
  let answer ← ask (.createSession bookingId amountAgorot holdSeconds)
  let session ← liftExcept answer
  let row ← onIntegrity (Payments.insert bookingId provider amountAgorot session (now + holdSeconds * second))
    (throw .paymentAlreadyHeld)
  return ⟨row, some session.redirectUrl, true⟩

/-- **Open a hold**: the lock, then the read that converges on a live one, then the gateway. -/
def openDeposit (cfg : Config) (bookingId : Nat) (amountAgorot holdSeconds : Int) : Prg DepositHold := do
  let provider ← requireProvider cfg
  credentialsFor
  let now ← clock
  tenantSession fun _ => do
    advisoryLock
    match ← Payments.livePendingForBooking bookingId with
    | some existing => return ⟨existing, existing.redirectUrl, false⟩
    | none => mintHold provider bookingId amountAgorot holdSeconds now

structure Settlement where
  payment : Payment
  newlySettled : Bool

inductive Outcome
  | settled (settlement : Settlement)
  | unmatched
  | mismatch (paymentId : Nat)

def recordDecline (row : Payment) (provider : String) : Prg Settlement := do
  let marked ← Payments.recordError row.id .declined
  let _ ← Audit.record none "payments" (.gatewayPaymentDeclined provider row.id)
  return ⟨marked.getD row, false⟩

/-- The guarded UPDATE did not fire: a rival won, a second charge came, or the hold had expired. -/
def explainMissedSettlement (paymentId : Nat) (provider transactionId : String) : Prg Settlement := do
  let reread ← Payments.byId paymentId
  let row ← orRaise reread .gatewayWebhookInvalid
  if row.status = .paid then
    if row.providerTransactionId = some transactionId then return ⟨row, false⟩
    else
      let marked ← Payments.recordError paymentId (.duplicateTransaction transactionId row.providerTransactionId)
      let _ ← Audit.record none "payments"
        (.gatewayDuplicateTransaction provider paymentId transactionId row.providerTransactionId)
      return ⟨marked.getD row, false⟩
  else
    let marked ← Payments.recordError paymentId (.lateSettlement row.status)
    let _ ← Audit.record none "payments" (.gatewayLateSettlement provider paymentId row.status)
    return ⟨marked.getD row, false⟩

def settleRow (row : Payment) (provider : String) (event : WebhookEvent) (now : Int) : Prg Outcome := do
  if !event.paid then
    let settlement ← recordDecline row provider
    return .settled settlement
  else if event.amountAgorot = row.amountAgorot then
    match ← Payments.settle row.id event.providerTransactionId now with
    | some settled => return .settled ⟨settled, true⟩
    | none =>
      let settlement ← explainMissedSettlement row.id provider event.providerTransactionId
      return .settled settlement
  else return .mismatch row.id

def settleIn (provider : String) (event : WebhookEvent) (now : Int) : Prg Outcome := do
  match ← Payments.byProviderTransactionId provider event.providerTransactionId with
  | some already => return .settled ⟨already, false⟩
  | none =>
    match ← Payments.byProviderSessionId provider event.providerSessionId with
    | some row => settleRow row provider event now
    | none =>
      let _ ← Audit.record none "payments" (.gatewayWebhookUnmatched provider event.providerSessionId)
      return .unmatched

def recordAmountMismatch (paymentId : Nat) (provider : String) (event : WebhookEvent) : Prg Unit :=
  tenantSession fun _ => do
    let _ ← Payments.recordError paymentId (.amountMismatch event.amountAgorot)
    let _ ← Audit.record none "payments" (.gatewayAmountMismatch provider paymentId event.amountAgorot)
    return ()

/-- **Settle a delivery**: verify, then one guarded statement. -/
def settleFromWebhook (cfg : Config) (event : WebhookEvent) : Prg Settlement := do
  let provider ← requireProvider cfg
  if ← verifyWebhook event then
    let now ← clock
    match ← tenantSession fun _ => settleIn provider event now with
    | .settled settlement => return settlement
    | .unmatched => throw .gatewayWebhookInvalid
    | .mismatch paymentId =>
      recordAmountMismatch paymentId provider event
      throw .gatewayWebhookInvalid
  else
    let _ ← tenantSession fun _ => Audit.record none "payments" (.gatewayWebhookRejected provider)
    throw .gatewayWebhookInvalid

/-- Money that came after the hold expired; nothing back means a prior delivery honoured it. -/
def honourLateSettlement (paymentId : Nat) (transactionId : String) (paidAt : Int) : Prg (Option Payment) :=
  tenantSession fun _ => Payments.settleLate paymentId transactionId paidAt

end PaymentService
end Boutique
