import Boutique.TxnRules
/-!
# Rows — the boutique's tables

One record for each row type of the modelled tables, with the columns some modelled statement reads or writes, and the
`Schema` that gives the partial unique indexes, the CHECK constraints and the UPDATE statements of the repositories.
One tenant: row-level security confines every statement to its rows.  Instants are microseconds since 1970-01-01 UTC,
dates are days since 1970-01-01; raw tokens are opaque numbers.
-/
namespace Boutique

open Txn

def second : Int := 1000000
def day : Int := 86400 * second

/-- **A time of day** (`datetime.time`), in microseconds since midnight. -/
structure WallTime where
  micros : Int
  nonneg : 0 ≤ micros
  lt_day : micros < day
deriving DecidableEq

theorem nine_nonneg : 0 ≤ 9 * 3600 * second := by decide

theorem nine_lt_day : 9 * 3600 * second < day := by decide

theorem noon_nonneg : 0 ≤ 12 * 3600 * second := by decide

theorem noon_lt_day : 12 * 3600 * second < day := by decide

theorem day_ne_zero : day ≠ 0 := by decide

theorem day_pos : 0 < day := by decide

/-- The sha256 of a raw token, asked for equality with another hash and for nothing else. -/
structure Digest where
  token : Nat
deriving DecidableEq

inductive BookingStatus
  | confirmed | cancelled | noShow | completed | pendingPayment
deriving DecidableEq

inductive BookingSource
  | storefront | walkIn
deriving DecidableEq

inductive BookingCancelledBy
  | customer | owner | expired
deriving DecidableEq

inductive PaymentStatus
  | pending | paid | failed | expired | refundDue | refunded | forfeited
deriving DecidableEq

inductive ScheduledMessageKind
  | reminder | waitlistOffer
deriving DecidableEq

inductive ScheduledMessageStatus
  | pending | sent | cancelled | failed
deriving DecidableEq

inductive MessageKind
  | confirmation | paymentReceivedNoSlot | ownerReschedule | reminder | waitlistOffer
deriving DecidableEq

inductive MessageStatus
  | queued | sent | failed
deriving DecidableEq

inductive WaitlistEntryStatus
  | waiting | offered | claimed | expired | cancelled
deriving DecidableEq

def BookingStatus.value : BookingStatus → String
  | .confirmed => "confirmed"
  | .cancelled => "cancelled"
  | .noShow => "no_show"
  | .completed => "completed"
  | .pendingPayment => "pending_payment"

def PaymentStatus.value : PaymentStatus → String
  | .pending => "pending"
  | .paid => "paid"
  | .failed => "failed"
  | .expired => "expired"
  | .refundDue => "refund_due"
  | .refunded => "refunded"
  | .forfeited => "forfeited"

/-- The texts that reach `payments.error`. -/
inductive PaymentError
  | gatewayUnavailable
  | declined
  | duplicateTransaction (transactionId : String) (settledTransactionId : Option String)
  | lateSettlement (status : PaymentStatus)
  | amountMismatch (amountAgorot : Int)
deriving DecidableEq

def PaymentError.text : PaymentError → String
  | .gatewayUnavailable => "gateway unavailable at checkout"
  | .declined => "declined: webhook reported the charge was not paid"
  | .duplicateTransaction t s =>
    "duplicate transaction: " ++ t ++ " arrived for a row already settled by " ++ s.getD "None"
  | .lateSettlement s => "late settlement: hold was " ++ s.value
  | .amountMismatch n => "amount mismatch: webhook claimed " ++ toString n

inductive UnresolvedReason
  | seatTaken | indexConflict
deriving DecidableEq

/-- An `audit_log` row's action with the details that action carries. -/
inductive AuditAction
  | bookingConfirmedByDeposit (bookingId : Nat)
  | bookingTransition (bookingId : Nat) (before after : BookingStatus)
  | bookingRescheduled (bookingId : Nat) (oldStartsAt newStartsAt : Int) (oldSeatIndex newSeatIndex : Nat)
      (restored : Bool)
  | gatewayWebhookRejected (provider : String)
  | gatewayWebhookUnmatched (provider providerSessionId : String)
  | gatewayPaymentDeclined (provider : String) (paymentId : Nat)
  | gatewayDuplicateTransaction (provider : String) (paymentId : Nat) (transactionId : String)
      (settledTransactionId : Option String)
  | gatewayLateSettlement (provider : String) (paymentId : Nat) (status : PaymentStatus)
  | gatewayAmountMismatch (provider : String) (paymentId : Nat) (claimedAgorot : Int)
  | gatewayUnavailableAtCheckout (bookingId : Nat) (amountAgorot : Int)
  | depositHoldExpired (paymentId bookingId : Nat) (seatReleased : Bool)
  | depositOrphanExpired (bookingId : Nat)
  | depositLateHonoured (bookingId seatIndex : Nat)
  | depositLateUnresolved (bookingId paymentId : Nat) (reason : UnresolvedReason)
  | bookingCheckedIn (bookingId : Nat) (checkedInAt : Int)
  | bookingCheckInUndone (bookingId : Nat) (previousCheckedInAt : Int)
  | bookingPhoneCorrected (bookingId : Nat) (oldPhoneLast4 newPhoneLast4 : Option String)
      (oldCustomerId newCustomerId : Nat) (repointed : Bool) (rotatedBookingIds : List Nat)
  | bookingLinkResent (bookingId customerId : Nat)
deriving DecidableEq

def AuditAction.value : AuditAction → String
  | .bookingConfirmedByDeposit _ => "booking_confirmed"
  | .bookingTransition _ _ .confirmed => "booking_confirmed"
  | .bookingTransition _ _ .noShow => "booking_no_show"
  | .bookingTransition _ _ .completed => "booking_completed"
  | .bookingTransition _ _ _ => "booking_cancelled"
  | .bookingRescheduled .. => "booking_rescheduled"
  | .gatewayWebhookRejected _ => "gateway_webhook_rejected"
  | .gatewayWebhookUnmatched .. => "gateway_webhook_unmatched"
  | .gatewayPaymentDeclined .. => "gateway_payment_declined"
  | .gatewayDuplicateTransaction .. => "gateway_duplicate_transaction"
  | .gatewayLateSettlement .. => "gateway_late_settlement"
  | .gatewayAmountMismatch .. => "gateway_amount_mismatch"
  | .gatewayUnavailableAtCheckout .. => "gateway_unavailable_at_checkout"
  | .depositHoldExpired .. => "deposit_hold_expired"
  | .bookingCheckedIn .. => "booking_checked_in"
  | .bookingCheckInUndone .. => "booking_check_in_undone"
  | .bookingPhoneCorrected .. => "booking_phone_corrected"
  | .bookingLinkResent .. => "booking_link_resent"
  | .depositOrphanExpired _ => "deposit_hold_expired"
  | .depositLateHonoured .. => "deposit_late_honoured"
  | .depositLateUnresolved .. => "deposit_late_unresolved"

structure Booking where
  id : Nat
  createdAt : Int
  deletedAt : Option Int
  customerId : Nat
  appointmentTypeId : Nat
  startsAt : Int
  seatIndex : Nat
  status : BookingStatus
  source : BookingSource
  termsVersionAccepted : Option Nat
  termsAcceptedAt : Option Int
  appointmentTypeName : String
  dressId : Option Nat
  dressName : Option String
  dressSize : Option String
  notes : Option String
  manageTokenHash : Option Digest
  cancelledAt : Option Int
  cancelledBy : Option BookingCancelledBy
  checkedInAt : Option Int

/-- The rows both partial unique indexes of `bookings` cover: not deleted and not cancelled. -/
def Booking.live (b : Booking) : Bool := b.deletedAt = none ∧ b.status ≠ .cancelled

structure Payment where
  id : Nat
  createdAt : Int
  deletedAt : Option Int
  bookingId : Nat
  provider : String
  amountAgorot : Int
  status : PaymentStatus
  providerSessionId : Option String
  redirectUrl : Option String
  providerTransactionId : Option String
  holdExpiresAt : Option Int
  paidAt : Option Int
  error : Option PaymentError

structure Customer where
  id : Nat
  createdAt : Int
  deletedAt : Option Int
  phone : String
  name : String
  marketingConsentAt : Option Int

structure OtpCode where
  id : Nat
  createdAt : Int
  deletedAt : Option Int
  phone : String
  verificationTokenHash : Option Digest
  verificationExpiresAt : Option Int
  verificationConsumedAt : Option Int

structure ScheduledMessage where
  id : Nat
  createdAt : Int
  deletedAt : Option Int
  bookingId : Option Nat
  waitlistEntryId : Option Nat
  kind : ScheduledMessageKind
  sendAfter : Int
  status : ScheduledMessageStatus
  manageToken : Option Nat

structure AuditLog where
  id : Nat
  createdAt : Int
  actorId : Option Nat
  entity : Option String
  action : AuditAction

structure MessageLog where
  id : Nat
  createdAt : Int
  deletedAt : Option Int
  phone : String
  kind : MessageKind
  status : MessageStatus
  bookingId : Option Nat

structure AvailabilityRule where
  id : Nat
  createdAt : Int
  deletedAt : Option Int
  dayOfWeek : Int
  openTime : WallTime
  closeTime : WallTime
  capacity : Nat

structure AvailabilityException where
  id : Nat
  createdAt : Int
  deletedAt : Option Int
  date : Int
  openTime : Option WallTime
  closeTime : Option WallTime
  note : Option String

structure AppointmentType where
  id : Nat
  createdAt : Int
  deletedAt : Option Int
  name : String
  depositRequired : Bool
  depositAmountAgorot : Option Int

structure TermsVersion where
  id : Nat
  createdAt : Int
  deletedAt : Option Int
  version : Nat
  termsText : String
  refundableUntilHoursBefore : Int
  forfeitPercent : Int
  createdBy : Nat

structure Dress where
  id : Nat
  createdAt : Int
  deletedAt : Option Int
  name : String

structure DressVariant where
  id : Nat
  createdAt : Int
  deletedAt : Option Int
  dressId : Nat
  sizeLabel : String
  sortOrder : Int

structure DressReservation where
  id : Nat
  createdAt : Int
  deletedAt : Option Int
  dressId : Nat
  startsOn : Int
  endsOn : Int

structure WaitlistEntry where
  id : Nat
  createdAt : Int
  deletedAt : Option Int
  day : Int
  appointmentTypeId : Nat
  phone : String
  status : WaitlistEntryStatus
  offerExpiresAt : Option Int
  offerStartsAt : Option Int
  offerTokenHash : Option Digest

inductive Table
  | bookings | payments | customers | otpCodes | scheduledMessages | auditLog | messageLog
  | availabilityRules | availabilityExceptions | appointmentTypes | termsVersions
  | dresses | dressVariants | dressReservations | waitlistEntries
deriving DecidableEq

abbrev Row : Table → Type
  | .bookings => Booking
  | .payments => Payment
  | .customers => Customer
  | .otpCodes => OtpCode
  | .scheduledMessages => ScheduledMessage
  | .auditLog => AuditLog
  | .messageLog => MessageLog
  | .availabilityRules => AvailabilityRule
  | .availabilityExceptions => AvailabilityException
  | .appointmentTypes => AppointmentType
  | .termsVersions => TermsVersion
  | .dresses => Dress
  | .dressVariants => DressVariant
  | .dressReservations => DressReservation
  | .waitlistEntries => WaitlistEntry

def rowId : (T : Table) → Row T → Nat
  | .bookings, (r : Booking) => r.id
  | .payments, (r : Payment) => r.id
  | .customers, (r : Customer) => r.id
  | .otpCodes, (r : OtpCode) => r.id
  | .scheduledMessages, (r : ScheduledMessage) => r.id
  | .auditLog, (r : AuditLog) => r.id
  | .messageLog, (r : MessageLog) => r.id
  | .availabilityRules, (r : AvailabilityRule) => r.id
  | .availabilityExceptions, (r : AvailabilityException) => r.id
  | .appointmentTypes, (r : AppointmentType) => r.id
  | .termsVersions, (r : TermsVersion) => r.id
  | .dresses, (r : Dress) => r.id
  | .dressVariants, (r : DressVariant) => r.id
  | .dressReservations, (r : DressReservation) => r.id
  | .waitlistEntries, (r : WaitlistEntry) => r.id

def stamp : (T : Table) → Nat → Int → Row T → Row T
  | .bookings, i, n, (r : Booking) => { r with id := i, createdAt := n }
  | .payments, i, n, (r : Payment) => { r with id := i, createdAt := n }
  | .customers, i, n, (r : Customer) => { r with id := i, createdAt := n }
  | .otpCodes, i, n, (r : OtpCode) => { r with id := i, createdAt := n }
  | .scheduledMessages, i, n, (r : ScheduledMessage) => { r with id := i, createdAt := n }
  | .auditLog, i, n, (r : AuditLog) => { r with id := i, createdAt := n }
  | .messageLog, i, n, (r : MessageLog) => { r with id := i, createdAt := n }
  | .availabilityRules, i, n, (r : AvailabilityRule) => { r with id := i, createdAt := n }
  | .availabilityExceptions, i, n, (r : AvailabilityException) => { r with id := i, createdAt := n }
  | .appointmentTypes, i, n, (r : AppointmentType) => { r with id := i, createdAt := n }
  | .termsVersions, i, n, (r : TermsVersion) => { r with id := i, createdAt := n }
  | .dresses, i, n, (r : Dress) => { r with id := i, createdAt := n }
  | .dressVariants, i, n, (r : DressVariant) => { r with id := i, createdAt := n }
  | .dressReservations, i, n, (r : DressReservation) => { r with id := i, createdAt := n }
  | .waitlistEntries, i, n, (r : WaitlistEntry) => { r with id := i, createdAt := n }

/-! The UPDATE statements, one constructor for each, with the values they bind. -/

inductive BookingChange
  | setStatus (to_ : BookingStatus) (allowedFrom : List BookingStatus) (notBefore notAfter : Option Int)
  | cancel (at_ : Int) (by_ : BookingCancelledBy) (allowedFrom : List BookingStatus) (notBefore : Option Int)
  | setManageTokenHash (tokenHash : Digest)
  | rotateManageTokenHash (tokenHash : Digest) (allowedFrom : List BookingStatus) (notBefore : Int)
  | setCustomerId (customerId : Nat) (allowedFrom : List BookingStatus) (notBefore : Int)
  | rebind (seatIndex : Nat) (allowedFrom : List BookingStatus) (notBefore : Int)
  | reschedule (startsAt : Int) (seatIndex : Nat) (notBefore : Int)
  | cancelOrphan (now grace : Int)
  | checkIn (at_ : Int)
  | undoCheckIn

inductive PaymentChange
  | settle (providerTransactionId : String) (paidAt : Int)
  | settleLate (providerTransactionId : String) (paidAt : Int)
  | recordError (error : PaymentError)
  | expireHold (now : Int)

inductive CustomerChange
  | setName (name : String)
  | setPhone (phone : String)
  | recordMarketingConsent (at_ : Int)

inductive OtpCodeChange
  | consumeVerification (phone : String) (tokenHash : Digest) (now at_ : Int)

inductive ScheduledMessageChange
  | cancelPending (bookingId : Nat) (kind : ScheduledMessageKind)
  | cancelPendingForEntry (waitlistEntryId : Nat) (kind : ScheduledMessageKind)
  | setManageToken (token : Nat)
  | claimDue (now : Int)
  | mark (status : ScheduledMessageStatus)

inductive MessageLogChange
  | updateStatus (status : MessageStatus)

inductive SoftDelete
  | softDelete (at_ : Int)

inductive WaitlistEntryChange
  | claim (now : Int)

abbrev Change : Table → Type
  | .bookings => BookingChange
  | .payments => PaymentChange
  | .customers => CustomerChange
  | .otpCodes => OtpCodeChange
  | .scheduledMessages => ScheduledMessageChange
  | .messageLog => MessageLogChange
  | .availabilityRules => SoftDelete
  | .availabilityExceptions => SoftDelete
  | .waitlistEntries => WaitlistEntryChange
  | _ => Empty

def withinBounds (startsAt : Int) (notBefore notAfter : Option Int) : Bool :=
  notBefore.all (fun t => t < startsAt) ∧ notAfter.all (fun t => startsAt ≤ t)

def BookingChange.apply (b : Booking) : BookingChange → Option Booking
  | .setStatus to_ allowedFrom notBefore notAfter =>
    if b.deletedAt = none ∧ b.status ∈ allowedFrom ∧ withinBounds b.startsAt notBefore notAfter then
      some { b with status := to_ }
    else none
  | .cancel at_ by_ allowedFrom notBefore =>
    if b.deletedAt = none ∧ b.status ∈ allowedFrom ∧ withinBounds b.startsAt notBefore none then
      some { b with status := .cancelled, cancelledAt := some at_, cancelledBy := some by_ }
    else none
  | .setManageTokenHash tokenHash =>
    if b.deletedAt = none then some { b with manageTokenHash := some tokenHash } else none
  | .rotateManageTokenHash tokenHash allowedFrom notBefore =>
    if b.deletedAt = none ∧ b.status ∈ allowedFrom ∧ notBefore < b.startsAt then
      some { b with manageTokenHash := some tokenHash }
    else none
  | .setCustomerId customerId allowedFrom notBefore =>
    if b.deletedAt = none ∧ b.status ∈ allowedFrom ∧ notBefore < b.startsAt then some { b with customerId := customerId }
    else none
  | .rebind seatIndex allowedFrom notBefore =>
    if b.deletedAt = none ∧ b.status ∈ allowedFrom ∧ notBefore < b.startsAt then
      some { b with status := .confirmed, seatIndex := seatIndex, cancelledAt := none, cancelledBy := none }
    else none
  | .reschedule startsAt seatIndex notBefore =>
    if b.deletedAt = none ∧ b.status = .confirmed ∧ notBefore < b.startsAt then
      some { b with startsAt := startsAt, seatIndex := seatIndex }
    else none
  | .cancelOrphan now grace =>
    if b.deletedAt = none ∧ b.status = .pendingPayment ∧ b.createdAt ≤ now - grace then
      some { b with status := .cancelled, cancelledAt := some now, cancelledBy := some .expired }
    else none
  | .checkIn at_ =>
    if b.deletedAt = none ∧ b.checkedInAt = none ∧ b.status = .confirmed then some { b with checkedInAt := some at_ }
    else none
  | .undoCheckIn =>
    if b.deletedAt = none ∧ b.checkedInAt.isSome = true then some { b with checkedInAt := none } else none

def PaymentChange.apply (p : Payment) : PaymentChange → Option Payment
  | .settle t at_ =>
    if p.deletedAt = none ∧ p.status = .pending then
      some { p with status := .paid, paidAt := some at_, providerTransactionId := some t, redirectUrl := none }
    else none
  | .settleLate t at_ =>
    if p.deletedAt = none ∧ p.status = .expired then
      some { p with status := .paid, paidAt := some at_, providerTransactionId := some t, redirectUrl := none }
    else none
  | .recordError e => if p.deletedAt = none then some { p with error := some e } else none
  | .expireHold now =>
    if p.deletedAt = none ∧ p.status = .pending ∧ p.holdExpiresAt.any (· ≤ now) then
      some { p with status := .expired, redirectUrl := none }
    else none

def CustomerChange.apply (c : Customer) : CustomerChange → Option Customer
  | .setName name => some { c with name := name }
  | .setPhone phone => if c.deletedAt = none then some { c with phone := phone } else none
  | .recordMarketingConsent at_ =>
    if c.deletedAt = none ∧ c.marketingConsentAt = none then some { c with marketingConsentAt := some at_ } else none

def OtpCodeChange.apply (o : OtpCode) : OtpCodeChange → Option OtpCode
  | .consumeVerification phone tokenHash now at_ =>
    if o.deletedAt = none ∧ o.phone = phone ∧ o.verificationTokenHash = some tokenHash ∧
        o.verificationConsumedAt = none ∧ o.verificationExpiresAt.any (now < ·) then
      some { o with verificationConsumedAt := some at_ }
    else none

def ScheduledMessageChange.apply (m : ScheduledMessage) : ScheduledMessageChange → Option ScheduledMessage
  | .cancelPending bookingId kind =>
    if m.deletedAt = none ∧ m.bookingId = some bookingId ∧ m.kind = kind ∧ m.status = .pending then
      some { m with status := .cancelled, manageToken := none }
    else none
  | .cancelPendingForEntry entryId kind =>
    if m.deletedAt = none ∧ m.waitlistEntryId = some entryId ∧ m.kind = kind ∧ m.status = .pending then
      some { m with status := .cancelled, manageToken := none }
    else none
  | .setManageToken token => some { m with manageToken := some token }
  | .claimDue now => if m.deletedAt = none ∧ m.status = .pending ∧ m.sendAfter ≤ now then some m else none
  | .mark status =>
    if m.deletedAt = none ∧ m.status = .pending then some { m with status := status, manageToken := none } else none

def MessageLogChange.apply (m : MessageLog) : MessageLogChange → Option MessageLog
  | .updateStatus status => if m.deletedAt = none then some { m with status := status } else none

def WaitlistEntryChange.apply (w : WaitlistEntry) : WaitlistEntryChange → Option WaitlistEntry
  | .claim now =>
    if w.deletedAt = none ∧ w.status = .offered ∧ w.offerExpiresAt.any (now < ·) then
      some { w with status := .claimed }
    else none

def applyChange : (T : Table) → Change T → Row T → Option (Row T)
  | .bookings, g, (r : Booking) => BookingChange.apply r g
  | .payments, g, (r : Payment) => PaymentChange.apply r g
  | .customers, g, (r : Customer) => CustomerChange.apply r g
  | .otpCodes, g, (r : OtpCode) => OtpCodeChange.apply r g
  | .scheduledMessages, g, (r : ScheduledMessage) => ScheduledMessageChange.apply r g
  | .messageLog, g, (r : MessageLog) => MessageLogChange.apply r g
  | .availabilityRules, .softDelete t, (r : AvailabilityRule) =>
    if r.deletedAt = none then some { r with deletedAt := some t } else none
  | .availabilityExceptions, .softDelete t, (r : AvailabilityException) =>
    if r.deletedAt = none then some { r with deletedAt := some t } else none
  | .waitlistEntries, g, (r : WaitlistEntry) => WaitlistEntryChange.apply r g

def MAX_SEAT_INDEX : Nat := 1000

inductive Query
  | bookingById | bookingRefreshed (bookingId : Nat) | activeAt | activeSeatsAt | byManageTokenHash | countByStart | orphanCandidates
  | livePendingForBooking (bookingId : Nat) | byProviderTransactionId | byProviderSessionId | byBookingIds | paymentById
  | holdCandidates
  | byPhone | customerById | consumeVerification | pendingForBooking | cancelPending | cancelPendingForEntry
  | rulesListActive | exceptionsListActive | appointmentTypeById | termsCurrent | termsMaxVersion | dressById | variantsListActive
  | reservationContaining | entryById | byOfferTokenHash
  | listLiveForCustomer | listConfirmedWithoutManageToken | claimDue

def rowCheck : (T : Table) → Row T → Bool
  | .bookings, (b : Booking) =>
    (1 ≤ b.seatIndex ∧ b.seatIndex ≤ MAX_SEAT_INDEX) ∧
      (b.source = .walkIn ∨ (b.termsVersionAccepted.isSome ∧ b.termsAcceptedAt.isSome)) ∧
      b.termsVersionAccepted.all (0 < ·)
  | .payments, (p : Payment) => 0 < p.amountAgorot
  | .scheduledMessages, (m : ScheduledMessage) => m.bookingId.isNone ≠ m.waitlistEntryId.isNone
  | .availabilityRules, (r : AvailabilityRule) =>
    (0 ≤ r.dayOfWeek ∧ r.dayOfWeek ≤ 6) ∧ 0 < r.capacity ∧ r.openTime.micros < r.closeTime.micros
  | .appointmentTypes, (a : AppointmentType) => a.depositAmountAgorot.all (0 < ·)
  | .termsVersions, (v : TermsVersion) =>
    0 < v.version ∧ 0 ≤ v.refundableUntilHoursBefore ∧ 0 ≤ v.forfeitPercent ∧ v.forfeitPercent ≤ 100
  | .dressReservations, (r : DressReservation) => r.startsOn ≤ r.endsOn ∧ r.endsOn - r.startsOn ≤ 3650
  | _, _ => true

def WaitlistEntry.active (w : WaitlistEntry) : Bool :=
  w.deletedAt = none ∧ (w.status = .waiting ∨ w.status = .offered)

def rowClash : (T : Table) → Row T → Row T → Bool
  | .bookings, (b : Booking), (b' : Booking) =>
    -- idx_bookings_slot_seat_unique and idx_bookings_tenant_customer_starts_unique
    b.live && b'.live && (b.startsAt = b'.startsAt) && (b.seatIndex = b'.seatIndex || b.customerId = b'.customerId)
  | .payments, (p : Payment), (p' : Payment) =>
    -- idx_payments_provider_txn_unique and idx_payments_booking_pending_unique
    (p.deletedAt.isNone && p'.deletedAt.isNone) &&
      ((p.provider = p'.provider && p.providerTransactionId.isSome &&
          p.providerTransactionId = p'.providerTransactionId) ||
        (p.status = .pending && p'.status = .pending && p.bookingId = p'.bookingId))
  | .customers, (c : Customer), (c' : Customer) => c.deletedAt.isNone && c'.deletedAt.isNone && c.phone = c'.phone
  | .scheduledMessages, (m : ScheduledMessage), (m' : ScheduledMessage) =>
    -- idx_scheduled_messages_pending_unique and idx_scheduled_messages_offer_pending_unique
    (m.deletedAt.isNone && m'.deletedAt.isNone) && (m.status = .pending && m'.status = .pending) && m.kind = m'.kind &&
      ((m.bookingId.isSome && m.bookingId = m'.bookingId) ||
        (m.waitlistEntryId.isSome && m.waitlistEntryId = m'.waitlistEntryId))
  | .availabilityExceptions, (x : AvailabilityException), (x' : AvailabilityException) =>
    x.deletedAt.isNone && x'.deletedAt.isNone && x.date = x'.date
  | .appointmentTypes, (a : AppointmentType), (a' : AppointmentType) =>
    a.deletedAt.isNone && a'.deletedAt.isNone && a.name = a'.name
  | .termsVersions, (v : TermsVersion), (v' : TermsVersion) => v.version = v'.version
  | .dressVariants, (v : DressVariant), (v' : DressVariant) =>
    v.deletedAt.isNone && v'.deletedAt.isNone && v.dressId = v'.dressId && v.sizeLabel.toLower = v'.sizeLabel.toLower
  | .waitlistEntries, (w : WaitlistEntry), (w' : WaitlistEntry) =>
    (w.active && w'.active && w.phone = w'.phone && w.day = w'.day && w.appointmentTypeId = w'.appointmentTypeId) ||
      (w.deletedAt.isNone && w'.deletedAt.isNone && w.offerTokenHash.isSome && w.offerTokenHash = w'.offerTokenHash)
  | _, _, _ => false

theorem rowId_applyChange (T : Table) (g : Change T) (r r' : Row T) (h : applyChange T g r = some r') :
    rowId T r' = rowId T r := by
  cases T <;> cases g <;> simp only [applyChange, BookingChange.apply, PaymentChange.apply, CustomerChange.apply,
    OtpCodeChange.apply, ScheduledMessageChange.apply, MessageLogChange.apply, WaitlistEntryChange.apply] at h
  all_goals
    first
      | (split at h <;> cases h <;> rfl)
      | (cases h; rfl)

theorem rowClash_symm (T : Table) (r r' : Row T) : rowClash T r r' = rowClash T r' r := by
  rw [Bool.eq_iff_iff]
  cases T <;> simp only [rowClash, Bool.and_eq_true, Bool.or_eq_true, decide_eq_true_eq] <;> grind

/-- **The boutique's database schema.** -/
abbrev schema : Schema where
  Table := Table
  tables := inferInstance
  Row := Row
  id := rowId
  stamp := stamp
  Change := Change
  apply := applyChange
  Query := Query
  check := rowCheck
  clash := rowClash
  id_stamp := fun T _ _ _ => by cases T <;> rfl
  id_apply := rowId_applyChange
  clash_symm := rowClash_symm

end Boutique
