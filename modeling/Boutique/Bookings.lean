import Boutique.Claim
import Boutique.Payments
import Boutique.Validation
/-!
# Bookings — the booking request

`createBooking` in its one transaction, the deposit step after the commit with its compensation, and the request
handler that runs the two and sends the confirmation.
-/
namespace Boutique

def SLOT_WINDOW_MAX_DAYS : Int := 60
def BOOKABLE_HORIZON : Int := (SLOT_WINDOW_MAX_DAYS + 2) * day

/-- `tenants.settings`, as far as a booking reads it: the truth value of `toggles.deposits_enabled`, where present. -/
structure TenantSettings where
  depositsEnabled : Option Bool

def depositDue (settings : Option TenantSettings) (appointmentType : AppointmentType) (gatewayConnected : Bool) : Bool :=
  let enabled := ((settings.bind (·.depositsEnabled)).getD false)
  enabled && appointmentType.depositRequired && 0 < appointmentType.depositAmountAgorot.getD 0 && gatewayConnected

def gatewayConnected (cfg : Config) : Prg Bool :=
  if cfg.credentialsWired && cfg.provider.isSome && cfg.gatewayConfigured then ask .isConnected else return false

structure BookingClaim where
  booking : Booking
  created : Bool
  manageToken : Option Nat
  depositDue : Bool
  depositAmountAgorot : Int

structure DepositOutcome where
  status : BookingStatus
  depositDue : Bool
  redirectUrl : Option String
  paymentSessionId : Option String

structure CreateRequest where
  rawPhone : String
  verificationToken : Nat
  name : String
  appointmentTypeId : Nat
  startsAt : Int
  termsVersion : Nat
  dressId : Option Nat
  dressSize : Option String
  notes : Option String
  marketingConsent : Bool
  settings : Option TenantSettings

def DEPOSIT_COMPENSATED_ERRORS : List Err :=
  [.gatewayUnavailable, .gatewayNotConnected, .secretDecrypt, .secretBoxNotConfigured]

namespace BookingService

def checkBudgets (phone : String) : Prg Unit := do
  if ← ask (.isBlocked .bookingCreateTenant) then throw .bookingThrottled
  else
    let blocked ← ask (.isBlocked (.bookingCreatePhone phone))
    raiseIf blocked .bookingThrottled

def provePhone (phone : String) (verificationToken : Nat) (txNow : Int) : Prg Unit := do
  let now ← clock
  let verified ← OtpCodes.consumeVerification phone ⟨verificationToken⟩ now txNow
  raiseIf (!verified) .phoneNotVerified
  ask (.recordFailure .bookingCreateTenant)
  ask (.recordFailure (.bookingCreatePhone phone))

def typeAndTerms (typeId termsVersion : Nat) : Prg AppointmentType := do
  let found ← Types.byId typeId
  let typeRow ← orRaise found .bookingNotFound
  let currentTerms ← Terms.current
  raiseIf (!currentTerms.any fun terms => terms.version = termsVersion) .termsStale
  return typeRow

def snapshotDress (cfg : Config) (dressId : Option Nat) (dressSize : Option String) :
    Prg (Option String × Option String) := do
  match dressId with
  | none => return (none, none)
  | some id =>
    let size ← orRaise dressSize (.bookingValidation "dress_size is required when dress_id is given")
    let loaded ← Dresses.byId id
    let dress ← orRaise loaded .bookingNotFound
    let snapshotSize := normalizeSizeLabel size
    let variants ← Variants.listActive id
    let found ← orRaise (variants.find? fun v => cfg.lower v.sizeLabel = cfg.lower snapshotSize) .bookingNotFound
    return (some dress.name, some found.sizeLabel)

def replayed (phone : String) (startsAt : Int) : Prg (Option (Customer × Booking)) := do
  match ← Customers.byPhone phone with
  | none => return none
  | some existing =>
    let booking ← Bookings.activeAt existing.id startsAt
    return booking.map fun b => (existing, b)

def checkDress (cfg : Config) (dressId : Option Nat) (startsAt : Int) : Prg Unit := do
  match dressId with
  | none => return ()
  | some id =>
    let away ← Reservations.containing id (cfg.zone.dateOf startsAt)
    raiseIf away.isSome .dressUnavailable

def stampConsent (marketingConsent : Bool) (customerId : Nat) (txNow : Int) : Prg Unit := do
  if marketingConsent then
    let _ ← Customers.recordMarketingConsent customerId txNow
    return ()
  else return ()

def freshClaim (cfg : Config) (r : CreateRequest) (phone : String) (now txNow : Int) (typeRow : AppointmentType)
    (due : Bool) (dress : Option String × Option String) : Prg BookingClaim := do
  checkDress cfg r.dressId r.startsAt
  let customer ← Customers.upsert phone (strip r.name)
  stampConsent r.marketingConsent customer.id txNow
  let manageToken ← mintManageToken
  let booking ← claimSeat cfg r.startsAt now customer.id typeRow r.termsVersion manageToken due
    ⟨r.dressId, dress.1, dress.2, r.notes⟩
  return ⟨booking, true, some manageToken, due, typeRow.depositAmountAgorot.getD 0⟩

def lockedCreate (cfg : Config) (r : CreateRequest) (phone : String) (now txNow : Int) (typeRow : AppointmentType)
    (due : Bool) (dress : Option String × Option String) : Prg BookingClaim := do
  advisoryLock
  match ← replayed phone r.startsAt with
  | some (existing, booking) =>
    stampConsent r.marketingConsent existing.id txNow
    return ⟨booking, false, none, due, typeRow.depositAmountAgorot.getD 0⟩
  | none => freshClaim cfg r phone now txNow typeRow due dress

def createIn (cfg : Config) (r : CreateRequest) (phone : String) (now txNow : Int) : Prg BookingClaim := do
  provePhone phone r.verificationToken txNow
  let typeRow ← typeAndTerms r.appointmentTypeId r.termsVersion
  let connected ← gatewayConnected cfg
  let dress ← snapshotDress cfg r.dressId r.dressSize
  lockedCreate cfg r phone now txNow typeRow (depositDue r.settings typeRow connected) dress

def createBooking (cfg : Config) (r : CreateRequest) : Prg BookingClaim := do
  liftExcept (validateBookingRequest r.name r.notes r.dressId r.dressSize)
  let phone ← liftExcept (normalizeIsraeliMobile r.rawPhone)
  let now ← clock
  raiseIf (!(now < r.startsAt && r.startsAt ≤ now + BOOKABLE_HORIZON)) (.slotUnavailable .horizon)
  checkBudgets phone
  tenantSession fun txNow => createIn cfg r phone now txNow

/-- The compensating transaction: the booking stands, with no deposit taken and the trace of it. -/
def bookWithoutDeposit (cfg : Config) (claim : BookingClaim) : Prg DepositOutcome := do
  let provider := if cfg.credentialsWired then cfg.provider else none
  let booking ← tenantSession fun _ => do
    let booking ← Bookings.setStatus claim.booking.id .confirmed [.pendingPayment] none none
    match provider with
    | some p =>
      let _ ← Payments.recordUnavailable claim.booking.id p claim.depositAmountAgorot
      let _ ← Audit.record none "bookings" (.gatewayUnavailableAtCheckout claim.booking.id claim.depositAmountAgorot)
      return booking
    | none =>
      let _ ← Audit.record none "bookings" (.gatewayUnavailableAtCheckout claim.booking.id claim.depositAmountAgorot)
      return booking
  return ⟨(booking.map (·.status)).getD claim.booking.status, false, none, none⟩

/-- **The deposit step after the commit**, on both branches of a claim. -/
def openDeposit (cfg : Config) (claim : BookingClaim) : Prg DepositOutcome := do
  if !claim.depositDue || claim.booking.status ≠ .pendingPayment then
    return ⟨claim.booking.status, false, none, none⟩
  else if !cfg.paymentsWired then bookWithoutDeposit cfg claim
  else
    let attempt ← (PaymentService.openDeposit cfg claim.booking.id claim.depositAmountAgorot
      cfg.depositHoldSeconds).attempt
    match attempt with
    | .ok hold => return ⟨claim.booking.status, true, hold.redirectUrl, hold.payment.providerSessionId⟩
    | .error e => if e ∈ DEPOSIT_COMPENSATED_ERRORS then bookWithoutDeposit cfg claim else throw e

end BookingService

structure BookingCreateResponse where
  id : Nat
  startsAt : Int
  status : BookingStatus
  appointmentTypeName : String
  dressName : Option String
  dressSize : Option String
  depositDue : Bool
  redirectUrl : Option String
  paymentSessionId : Option String

def answerClaim (cfg : Config) (claim : BookingClaim) : Prg BookingCreateResponse := do
  let deposit ← BookingService.openDeposit cfg claim
  let row := claim.booking
  let response : BookingCreateResponse :=
    ⟨row.id, row.startsAt, deposit.status, row.appointmentTypeName, row.dressName, row.dressSize, deposit.depositDue,
      deposit.redirectUrl, deposit.paymentSessionId⟩
  if claim.created && claim.manageToken.isSome && !deposit.depositDue then
    let _ ← sendConfirmation row
    return response
  else return response

def postBookings (cfg : Config) (r : CreateRequest) : Prg BookingCreateResponse := do
  let claim ← BookingService.createBooking cfg r
  answerClaim cfg claim

end Boutique
