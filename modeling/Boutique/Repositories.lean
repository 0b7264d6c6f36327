import Boutique.Server
import Mathlib.Data.List.Sort
/-!
# Repositories — the statements the services issue

One definition for each repository method the services call.  A writer returns the row its UPDATE left (`RETURNING`,
then a re-read of a row this transaction holds the lock of), or nothing when its WHERE matched nothing.
-/
namespace Boutique

open Txn

/-! ## bookings -/

namespace Bookings

def byId (bookingId : Nat) : Prg (Option Booking) :=
  select .bookingById fun s => (s.rows .bookings bookingId).filter fun (b : Booking) => b.deletedAt = none

def liveAt (s : Snapshot schema) (startsAt : Int) : List Booking :=
  (s.all .bookings).filter fun (b : Booking) => b.live && b.startsAt = startsAt

def activeAt (customerId : Nat) (startsAt : Int) : Prg (Option Booking) := do
  let rows ← select .activeAt fun s => (liveAt s startsAt).filter fun b => b.customerId = customerId
  scalarOneOrNone rows

def activeSeatsAt (startsAt : Int) : Prg (List Nat) :=
  select .activeSeatsAt fun s => (liveAt s startsAt).map (·.seatIndex)

def countByStart (fromInstant untilInstant : Int) : Prg (Int → Nat) :=
  select .countByStart fun s x => if fromInstant ≤ x ∧ x < untilInstant then (liveAt s x).length else 0

def byManageTokenHash (tokenHash : Digest) : Prg (Option Booking) := do
  let rows ← select .byManageTokenHash fun s =>
    (s.all .bookings).filter fun (b : Booking) => b.manageTokenHash = some tokenHash ∧ b.deletedAt = none
  scalarOneOrNone rows

def setManageTokenHash (bookingId : Nat) (tokenHash : Digest) : Prg (Option Booking) :=
  update .bookings bookingId (.setManageTokenHash tokenHash)

def rotateManageTokenHash (bookingId : Nat) (tokenHash : Digest) (allowedFrom : List BookingStatus) (notBefore : Int) :
    Prg (Option Booking) :=
  update .bookings bookingId (.rotateManageTokenHash tokenHash allowedFrom notBefore)

def setCustomerId (bookingId customerId : Nat) (allowedFrom : List BookingStatus) (notBefore : Int) :
    Prg (Option Booking) :=
  update .bookings bookingId (.setCustomerId customerId allowedFrom notBefore)

def listLiveForCustomer (customerId : Nat) (after : Int) : Prg (List Booking) :=
  select .listLiveForCustomer fun s =>
    ((s.all .bookings).filter fun (b : Booking) =>
      b.customerId = customerId ∧ b.status = .confirmed ∧ after < b.startsAt ∧ b.deletedAt = none).insertionSort
      fun b b' => b.startsAt ≤ b'.startsAt

def listConfirmedWithoutManageToken (after : Int) (limit : Nat) : Prg (List Booking) :=
  select .listConfirmedWithoutManageToken fun s =>
    (((s.all .bookings).filter fun (b : Booking) =>
      b.status = .confirmed ∧ b.source = .storefront ∧ after < b.startsAt ∧ b.manageTokenHash = none ∧
        b.deletedAt = none).insertionSort fun b b' => b.startsAt ≤ b'.startsAt).take limit

def setStatus (bookingId : Nat) (to_ : BookingStatus) (allowedFrom : List BookingStatus)
    (notBefore notAfter : Option Int) : Prg (Option Booking) :=
  update .bookings bookingId (.setStatus to_ allowedFrom notBefore notAfter)

def cancel (bookingId : Nat) (at_ : Int) (by_ : BookingCancelledBy) (allowedFrom : List BookingStatus)
    (notBefore : Option Int) : Prg (Option Booking) :=
  update .bookings bookingId (.cancel at_ by_ allowedFrom notBefore)

def rebind (bookingId seatIndex : Nat) (allowedFrom : List BookingStatus) (notBefore : Int) : Prg (Option Booking) :=
  update .bookings bookingId (.rebind seatIndex allowedFrom notBefore)

def reschedule (bookingId : Nat) (startsAt : Int) (seatIndex : Nat) (notBefore : Int) : Prg (Option Booking) :=
  update .bookings bookingId (.reschedule startsAt seatIndex notBefore)

/-- What a check-in or its undo came to. -/
inductive CheckInOutcome
  | wrote | missing | alreadyCheckedIn | notConfirmed
deriving DecidableEq

def refreshed (bookingId : Nat) : Prg (Option Booking) :=
  select (.bookingRefreshed bookingId) fun s => (s.rows .bookings bookingId).filter fun (b : Booking) => b.deletedAt = none

/-- The guarded UPDATE says whether this request wrote; where it did not, the re-read says why. -/
def checkIn (bookingId : Nat) (at_ : Int) : Prg (CheckInOutcome × Option Booking) := do
  let wrote ← update .bookings bookingId (.checkIn at_)
  let row ← refreshed bookingId
  if wrote.isSome then return (.wrote, row)
  else
    match row with
    | none => return (.missing, none)
    | some b => return (if b.checkedInAt.isSome then .alreadyCheckedIn else .notConfirmed, some b)

def undoCheckIn (bookingId : Nat) : Prg (CheckInOutcome × Option Booking) := do
  let wrote ← update .bookings bookingId .undoCheckIn
  let row ← refreshed bookingId
  if wrote.isSome then return (.wrote, row)
  else
    match row with
    | none => return (.missing, none)
    | some b => return (.alreadyCheckedIn, some b)

end Bookings

/-! ## payments -/

namespace Payments

def hold (bookingId : Nat) (provider : String) (amountAgorot : Int) (session : PaymentSession) (holdExpiresAt : Int) :
    Payment :=
  { id := 0, createdAt := 0, deletedAt := none, bookingId := bookingId, provider := provider,
    amountAgorot := amountAgorot, status := .pending, providerSessionId := some session.providerSessionId,
    redirectUrl := some session.redirectUrl, providerTransactionId := none, holdExpiresAt := some holdExpiresAt,
    paidAt := none, error := none }

def unavailable (bookingId : Nat) (provider : String) (amountAgorot : Int) : Payment :=
  { id := 0, createdAt := 0, deletedAt := none, bookingId := bookingId, provider := provider,
    amountAgorot := amountAgorot, status := .failed, providerSessionId := none, redirectUrl := none,
    providerTransactionId := none, holdExpiresAt := none, paidAt := none, error := some .gatewayUnavailable }

def insert (bookingId : Nat) (provider : String) (amountAgorot : Int) (session : PaymentSession) (holdExpiresAt : Int) :
    Prg Payment :=
  Boutique.insert .payments (hold bookingId provider amountAgorot session holdExpiresAt)

def recordUnavailable (bookingId : Nat) (provider : String) (amountAgorot : Int) : Prg Payment :=
  Boutique.insert .payments (unavailable bookingId provider amountAgorot)

def pendingFor (s : Snapshot schema) (bookingId : Nat) : List Payment :=
  (s.all .payments).filter fun (p : Payment) => p.bookingId = bookingId ∧ p.status = .pending ∧ p.deletedAt = none

def livePendingForBooking (bookingId : Nat) : Prg (Option Payment) := do
  let rows ← select (.livePendingForBooking bookingId) fun s => pendingFor s bookingId
  scalarOneOrNone rows

def byProviderTransactionId (provider transactionId : String) : Prg (Option Payment) := do
  let rows ← select .byProviderTransactionId fun s => (s.all .payments).filter fun (p : Payment) =>
    p.provider = provider ∧ p.providerTransactionId = some transactionId ∧ p.deletedAt = none
  scalarOneOrNone rows

def byProviderSessionId (provider sessionId : String) : Prg (Option Payment) := do
  let rows ← select .byProviderSessionId fun s => (s.all .payments).filter fun (p : Payment) =>
    p.provider = provider ∧ p.providerSessionId = some sessionId ∧ p.deletedAt = none
  scalarOneOrNone rows

def settle (paymentId : Nat) (providerTransactionId : String) (paidAt : Int) : Prg (Option Payment) :=
  update .payments paymentId (.settle providerTransactionId paidAt)

def settleLate (paymentId : Nat) (providerTransactionId : String) (paidAt : Int) : Prg (Option Payment) :=
  update .payments paymentId (.settleLate providerTransactionId paidAt)

def recordError (paymentId : Nat) (error : PaymentError) : Prg (Option Payment) :=
  update .payments paymentId (.recordError error)

def byId (paymentId : Nat) : Prg (Option Payment) :=
  select .paymentById fun s => (s.rows .payments paymentId).filter fun (p : Payment) => p.deletedAt = none

def latestFor (s : Snapshot schema) (bookingId : Nat) : Option Payment :=
  (((s.all .payments).filter fun (p : Payment) => p.bookingId = bookingId ∧ p.deletedAt = none).insertionSort
    fun p p' => p'.createdAt ≤ p.createdAt).head?

def byBookingIds (bookingIds : List Nat) : Prg (Nat → Option Payment) :=
  if bookingIds = [] then return fun _ => none
  else select .byBookingIds fun s b => if b ∈ bookingIds then latestFor s b else none

end Payments

/-! ## customers, tokens, messages, evidence -/

namespace Customers

def byPhone (phone : String) : Prg (Option Customer) := do
  let rows ← select .byPhone fun s =>
    (s.all .customers).filter fun (c : Customer) => c.phone = phone ∧ c.deletedAt = none
  scalarOneOrNone rows

def byId (customerId : Nat) : Prg (Option Customer) :=
  select .customerById fun s => (s.rows .customers customerId).filter fun (c : Customer) => c.deletedAt = none

def fresh (phone name : String) : Customer :=
  { id := 0, createdAt := 0, deletedAt := none, phone := phone, name := name, marketingConsentAt := none }

def upsert (phone name : String) : Prg Customer := do
  match ← byPhone phone with
  | some existing =>
    if existing.name = name then return existing
    else
      let refreshed ← update .customers existing.id (.setName name)
      return refreshed.getD existing
  | none => insert .customers (fresh phone name)

def setPhone (customerId : Nat) (phone : String) : Prg (Option Customer) := update .customers customerId (.setPhone phone)

def recordMarketingConsent (customerId : Nat) (txNow : Int) : Prg (Option Customer) :=
  update .customers customerId (.recordMarketingConsent txNow)

end Customers

def updateWhere (q : Query) (T : Table) (g : Change T) : Prg (List (Row T)) := do
  let ids ← select q fun s => matching s T fun r => (applyChange T g r).isSome
  updateEach T g ids

namespace OtpCodes

def consumeVerification (phone : String) (tokenHash : Digest) (now txNow : Int) : Prg Bool := do
  let rows ← updateWhere .consumeVerification .otpCodes (.consumeVerification phone tokenHash now txNow)
  let row ← scalarOneOrNone rows
  return row.isSome

end OtpCodes

namespace Scheduled

def pending (bookingId : Nat) (kind : ScheduledMessageKind) (sendAfter : Int) (manageToken : Option Nat) :
    ScheduledMessage :=
  { id := 0, createdAt := 0, deletedAt := none, bookingId := some bookingId, waitlistEntryId := none, kind := kind,
    sendAfter := sendAfter, status := .pending, manageToken := manageToken }

def insert (bookingId : Nat) (kind : ScheduledMessageKind) (sendAfter : Int) (manageToken : Option Nat) :
    Prg ScheduledMessage :=
  Boutique.insert .scheduledMessages (pending bookingId kind sendAfter manageToken)

def pendingForBooking (bookingId : Nat) (kind : ScheduledMessageKind) : Prg (Option ScheduledMessage) := do
  let rows ← select .pendingForBooking fun s => (s.all .scheduledMessages).filter fun (m : ScheduledMessage) =>
    m.bookingId = some bookingId ∧ m.kind = kind ∧ m.status = .pending ∧ m.deletedAt = none
  scalarOneOrNone rows

def cancelPending (bookingId : Nat) (kind : ScheduledMessageKind) : Prg (List ScheduledMessage) :=
  updateWhere .cancelPending .scheduledMessages (.cancelPending bookingId kind)

def cancelPendingForEntry (waitlistEntryId : Nat) (kind : ScheduledMessageKind) : Prg (List ScheduledMessage) :=
  updateWhere .cancelPendingForEntry .scheduledMessages (.cancelPendingForEntry waitlistEntryId kind)

def dueAt (now : Int) (s : Snapshot schema) : List Nat :=
  (((s.all .scheduledMessages).filter fun (m : ScheduledMessage) =>
    m.deletedAt = none ∧ m.status = .pending ∧ m.sendAfter ≤ now).insertionSort
      fun m m' => m.sendAfter ≤ m'.sendAfter).map (·.id)

/-- `FOR UPDATE SKIP LOCKED LIMIT`: a row held elsewhere is passed over, and which those are the database knows; any other
is locked where it is still due. -/
def lockDue (now : Int) : List Nat → Nat → Prg (List ScheduledMessage)
  | [], _ => return []
  | _, 0 => return []
  | i :: is, limit + 1 => do
    let locked ← ask (.rowLocked i)
    if locked then lockDue now is (limit + 1)
    else
      match ← update .scheduledMessages i (.claimDue now) with
      | none => lockDue now is (limit + 1)
      | some row => do
        let rows ← lockDue now is limit
        return row :: rows

def claimDue (now : Int) (limit : Nat) : Prg (List ScheduledMessage) := do
  let due ← select .claimDue (dueAt now)
  lockDue now due limit

def mark (messageId : Nat) (status : ScheduledMessageStatus) : Prg (Option ScheduledMessage) :=
  update .scheduledMessages messageId (.mark status)

end Scheduled

namespace Audit

def entry (actorId : Option Nat) (entity : String) (action : AuditAction) : AuditLog :=
  { id := 0, createdAt := 0, actorId := actorId, entity := some entity, action := action }

def record (actorId : Option Nat) (entity : String) (action : AuditAction) : Prg AuditLog :=
  insert .auditLog (entry actorId entity action)

end Audit

namespace MessageLogs

def queued (phone : String) (kind : MessageKind) (bookingId : Nat) : MessageLog :=
  { id := 0, createdAt := 0, deletedAt := none, phone := phone, kind := kind, status := .queued,
    bookingId := some bookingId }

def insert (phone : String) (kind : MessageKind) (bookingId : Nat) : Prg MessageLog :=
  Boutique.insert .messageLog (queued phone kind bookingId)

def updateStatus (logId : Nat) (status : MessageStatus) : Prg (Option MessageLog) :=
  update .messageLog logId (.updateStatus status)

end MessageLogs

/-! ## availability, the catalogue, the waitlist -/

namespace Rules

def active (s : Snapshot schema) : List AvailabilityRule :=
  ((s.all .availabilityRules).filter fun (r : AvailabilityRule) => r.deletedAt = none).insertionSort
    fun r r' => r.dayOfWeek < r'.dayOfWeek ∨ r.dayOfWeek = r'.dayOfWeek ∧ r.openTime.micros ≤ r'.openTime.micros

def listActive : Prg (List AvailabilityRule) := select .rulesListActive active

def insert (dayOfWeek : Int) (openTime closeTime : WallTime) (capacity : Nat) : Prg AvailabilityRule :=
  Boutique.insert .availabilityRules
    { id := 0, createdAt := 0, deletedAt := none, dayOfWeek := dayOfWeek, openTime := openTime,
      closeTime := closeTime, capacity := capacity }

def softDeleteAll (txNow : Int) : Prg (List AvailabilityRule) :=
  updateWhere .rulesListActive .availabilityRules (.softDelete txNow)

end Rules

namespace Exceptions

def active (onOrAfter onOrBefore : Int) (s : Snapshot schema) : List AvailabilityException :=
  ((s.all .availabilityExceptions).filter fun (x : AvailabilityException) =>
    x.deletedAt = none ∧ onOrAfter ≤ x.date ∧ x.date ≤ onOrBefore).insertionSort fun x x' => x.date ≤ x'.date

def listActive (onOrAfter onOrBefore : Int) : Prg (List AvailabilityException) :=
  select .exceptionsListActive (active onOrAfter onOrBefore)

def insert (date : Int) (openTime closeTime : Option WallTime) (note : Option String) : Prg AvailabilityException :=
  Boutique.insert .availabilityExceptions
    { id := 0, createdAt := 0, deletedAt := none, date := date, openTime := openTime, closeTime := closeTime,
      note := note }

def softDelete (exceptionId : Nat) (txNow : Int) : Prg Bool := do
  let row ← update .availabilityExceptions exceptionId (.softDelete txNow)
  return row.isSome

end Exceptions

namespace Types

def byId (typeId : Nat) : Prg (Option AppointmentType) :=
  select .appointmentTypeById fun s =>
    (s.rows .appointmentTypes typeId).filter fun (a : AppointmentType) => a.deletedAt = none

end Types

namespace Terms

def newest (s : Snapshot schema) : Option TermsVersion :=
  (((s.all .termsVersions).filter fun (v : TermsVersion) => v.deletedAt = none).insertionSort
    fun v v' => v'.version ≤ v.version).head?

def current : Prg (Option TermsVersion) := select .termsCurrent newest

def highest (s : Snapshot schema) : Nat :=
  (((s.all .termsVersions).filter fun (v : TermsVersion) => v.deletedAt = none).map TermsVersion.version).foldr max 0

def maxVersion : Prg Nat := select .termsMaxVersion highest

def insert (version : Nat) (termsText : String) (refundableUntilHoursBefore forfeitPercent : Int) (createdBy : Nat) :
    Prg TermsVersion :=
  Boutique.insert .termsVersions
    { id := 0, createdAt := 0, deletedAt := none, version := version, termsText := termsText,
      refundableUntilHoursBefore := refundableUntilHoursBefore, forfeitPercent := forfeitPercent, createdBy := createdBy }

end Terms

namespace Dresses

def byId (dressId : Nat) : Prg (Option Dress) :=
  select .dressById fun s => (s.rows .dresses dressId).filter fun (d : Dress) => d.deletedAt = none

end Dresses

namespace Variants

def listActive (dressId : Nat) : Prg (List DressVariant) :=
  select .variantsListActive fun s =>
    ((s.all .dressVariants).filter fun (v : DressVariant) => v.dressId = dressId ∧ v.deletedAt = none).insertionSort
      fun v v' => v.sortOrder ≤ v'.sortOrder

end Variants

namespace Reservations

def containing (dressId : Nat) (day : Int) : Prg (Option DressReservation) :=
  select .reservationContaining fun s => ((s.all .dressReservations).filter fun (r : DressReservation) =>
    r.dressId = dressId ∧ r.deletedAt = none ∧ r.startsOn ≤ day ∧ day ≤ r.endsOn).head?

end Reservations

namespace Entries

def byOfferTokenHash (tokenHash : Digest) : Prg (Option WaitlistEntry) := do
  let rows ← select .byOfferTokenHash fun s => (s.all .waitlistEntries).filter fun (w : WaitlistEntry) =>
    w.offerTokenHash = some tokenHash ∧ w.deletedAt = none
  scalarOneOrNone rows

def claim (entryId : Nat) (now : Int) : Prg Bool := do
  let row ← update .waitlistEntries entryId (.claim now)
  return row.isSome

def byId (entryId : Nat) : Prg (Option WaitlistEntry) :=
  select .entryById fun s => (s.rows .waitlistEntries entryId).filter fun (w : WaitlistEntry) => w.deletedAt = none

end Entries

end Boutique
