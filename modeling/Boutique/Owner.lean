import Boutique.Bookings
/-!
# Owner — the console's verbs, the customer's cancel, the waitlist claim and the availability edits

The owner's transitions run the same five ordered steps without a lock; the reschedule is an eight-step transaction
under it.
-/
namespace Boutique

structure OwnerMutation where
  booking : Booking
  changed : Bool

namespace OwnerBooking

/-- Every verb records the booking id and the staff member who tapped. -/
def record (staffId bookingId : Nat) (action : AuditAction) : Prg AuditLog :=
  Audit.record (some staffId) (toString bookingId) action

def transitionAt (bookingId staffId : Nat) (to_ : BookingStatus) (allowedFrom : List BookingStatus) (pastOnly : Bool)
    (now : Int) : Prg OwnerMutation :=
  tenantSession fun _ => do
    let loaded ← Bookings.byId bookingId
    let booking ← orRaise loaded .bookingNotFound
    if booking.status = to_ then return ⟨booking, false⟩
    else
      let move := booking.status.value ++ " -> " ++ to_.value
      raiseIf (booking.status ∉ allowedFrom) (.bookingTransitionInvalid move)
      raiseIf (pastOnly && now < booking.startsAt) (.bookingTransitionInvalid (move ++ " before starts_at"))
      let written ← Bookings.setStatus bookingId to_ allowedFrom none (if pastOnly then some now else none)
      let updated ← orRaise written (.bookingTransitionInvalid move)
      let _ ← record staffId bookingId (.bookingTransition bookingId booking.status to_)
      return ⟨updated, true⟩

def transition (bookingId staffId : Nat) (to_ : BookingStatus) (allowedFrom : List BookingStatus) (pastOnly : Bool) :
    Prg OwnerMutation := do
  let now ← clock
  transitionAt bookingId staffId to_ allowedFrom pastOnly now

def confirm (bookingId staffId : Nat) : Prg OwnerMutation :=
  transition bookingId staffId .confirmed [.noShow, .completed] false

def noShow (bookingId staffId : Nat) : Prg OwnerMutation :=
  transition bookingId staffId .noShow [.confirmed, .completed] true

def complete (bookingId staffId : Nat) : Prg OwnerMutation :=
  transition bookingId staffId .completed [.confirmed, .noShow] true

/-- Owner cancel: only a future confirmed booking, and its pending reminder with it. -/
def cancel (bookingId staffId : Nat) : Prg OwnerMutation := do
  let now ← clock
  tenantSession fun _ => do
    let loaded ← Bookings.byId bookingId
    let booking ← orRaise loaded .bookingNotFound
    if booking.status = .cancelled then return ⟨booking, false⟩
    else
      let move := booking.status.value ++ " -> " ++ BookingStatus.cancelled.value
      raiseIf (booking.status ≠ .confirmed) (.bookingTransitionInvalid move)
      raiseIf (booking.startsAt ≤ now)
        (.bookingTransitionInvalid (BookingStatus.cancelled.value ++ " after starts_at"))
      let written ← Bookings.cancel bookingId now .owner [.confirmed] (some now)
      let updated ← orRaise written (.bookingTransitionInvalid move)
      raiseIf (updated.status ≠ .cancelled) (.bookingTransitionInvalid move)
      let _ ← Scheduled.cancelPending bookingId .reminder
      let _ ← record staffId bookingId (.bookingTransition bookingId booking.status .cancelled)
      return ⟨updated, true⟩

def settleCheckIn (bookingId staffId : Nat) (now : Int) (move : String) :
    Bookings.CheckInOutcome × Option Booking → Prg OwnerMutation
  | (.missing, _) => throw .bookingNotFound
  | (.notConfirmed, _) => throw (.bookingTransitionInvalid move)
  | (.alreadyCheckedIn, row) => do
    let booking ← orRaise row .assertionFailed
    return ⟨booking, false⟩
  | (.wrote, row) => do
    let booking ← orRaise row .assertionFailed
    let _ ← record staffId bookingId (.bookingCheckedIn bookingId now)
    return ⟨booking, true⟩

def checkInAt (bookingId staffId : Nat) (now : Int) : Prg OwnerMutation :=
  tenantSession fun _ => do
    let loaded ← Bookings.byId bookingId
    let booking ← orRaise loaded .bookingNotFound
    if booking.checkedInAt.isSome then return ⟨booking, false⟩
    else
      let move := booking.status.value ++ " -> checked_in"
      raiseIf (booking.status ≠ .confirmed) (.bookingTransitionInvalid move)
      let outcome ← Bookings.checkIn bookingId now
      settleCheckIn bookingId staffId now move outcome

/-- She is in the boutique; the outcome of the write, not the loaded row, says which answer is due. -/
def checkIn (bookingId staffId : Nat) : Prg OwnerMutation := do
  let now ← clock
  checkInAt bookingId staffId now

/-- What the repository's outcome makes of an undo; `previous` is what the request's own SELECT found. -/
def settleUndo (bookingId staffId : Nat) (previous : Int) : Bookings.CheckInOutcome × Option Booking → Prg OwnerMutation
  | (.missing, _) => throw .bookingNotFound
  | (_, none) => throw .bookingNotFound
  | (.wrote, some booking) => do
    let _ ← record staffId bookingId (.bookingCheckInUndone bookingId previous)
    return ⟨booking, true⟩
  | (_, some booking) => return ⟨booking, false⟩

/-- The undo of a mis-tapped check-in, whatever the status. -/
def undoCheckIn (bookingId staffId : Nat) : Prg OwnerMutation :=
  tenantSession fun _ => do
    let loaded ← Bookings.byId bookingId
    let booking ← orRaise loaded .bookingNotFound
    match booking.checkedInAt with
    | none => return ⟨booking, false⟩
    | some previous =>
      let outcome ← Bookings.undoCheckIn bookingId
      settleUndo bookingId staffId previous outcome

/-- Her money is still on this booking: its latest payment is paid. -/
def holdsAPaidDeposit (bookingId : Nat) : Prg Bool := do
  let payments ← Payments.byBookingIds [bookingId]
  return (payments bookingId).any fun p => p.status = .paid

/-- The cancelled row made live again at its old instant, parked one past the highest seat in use there. -/
def restore (bookingId : Nat) (startsAt now : Int) : Prg Unit := do
  let occupied ← Bookings.activeSeatsAt startsAt
  let restored ← Bookings.rebind bookingId (occupied.foldl max 0 + 1) [.cancelled] now
  raiseIf restored.isNone (.bookingTransitionInvalid "restore lost to a concurrent write")

def findSeat (cfg : Config) (booking : Booking) (newStartsAt now : Int) : Prg (Slot × Nat) := do
  let offered ← offeredSlot cfg newStartsAt now
  let slot ← orRaise offered (.slotUnavailable .notOffered)
  let collision ← Bookings.activeAt booking.customerId slot.startsAt
  raiseIf collision.isSome .customerAlreadyBooked
  let seats ← Bookings.activeSeatsAt slot.startsAt
  let seatIndex ← orRaise (lowestFree slot.capacity seats) (.slotUnavailable .noFreeSeat)
  return (slot, seatIndex)

def move (bookingId : Nat) (booking : Booking) (restoring : Bool) (slot : Slot) (seatIndex : Nat) (now : Int) :
    Prg (Option Booking) :=
  onIntegrity
    (if restoring then do
      restore bookingId booking.startsAt now
      Bookings.reschedule bookingId slot.startsAt seatIndex now
    else Bookings.reschedule bookingId slot.startsAt seatIndex now)
    (throw (.slotUnavailable .indexRefused))

def place (cfg : Config) (bookingId : Nat) (booking : Booking) (restoring : Bool) (newStartsAt now : Int)
    (staffId : Nat) : Prg OwnerMutation := do
  let found ← findSeat cfg booking newStartsAt now
  let written ← move bookingId booking restoring found.1 found.2 now
  let updated ← orRaise written (.bookingTransitionInvalid "reschedule lost to a concurrent write")
  let _ ← upsertReminder bookingId found.1.startsAt now none
  let _ ← record staffId bookingId
    (.bookingRescheduled bookingId booking.startsAt found.1.startsAt booking.seatIndex found.2 restoring)
  return ⟨updated, true⟩

def checkDeposit (bookingId : Nat) (restoring : Bool) : Prg Unit :=
  if restoring then do
    let paid ← holdsAPaidDeposit bookingId
    raiseIf (!paid) (.bookingTransitionInvalid "reschedule from cancelled without a deposit")
  else return ()

def rescheduleIn (cfg : Config) (bookingId : Nat) (newStartsAt now : Int) (staffId : Nat) : Prg OwnerMutation := do
  advisoryLock
  let loaded ← Bookings.byId bookingId
  let booking ← orRaise loaded .bookingNotFound
  raiseIf (booking.status ≠ .confirmed && booking.status ≠ .cancelled)
    (.bookingTransitionInvalid ("reschedule from " ++ booking.status.value))
  raiseIf (booking.startsAt ≤ now) (.bookingTransitionInvalid "reschedule after starts_at")
  let restoring : Bool := booking.status = .cancelled
  checkDeposit bookingId restoring
  if newStartsAt = booking.startsAt ∧ !restoring then return ⟨booking, false⟩
  else place cfg bookingId booking restoring newStartsAt now staffId

/-- **The reschedule**: budget first, then one transaction, then the budget spent where the booking moved. -/
def reschedule (cfg : Config) (bookingId : Nat) (newStartsAt : Int) (staffId : Nat) : Prg OwnerMutation := do
  let now ← clock
  raiseIf (!(now < newStartsAt && newStartsAt ≤ now + BOOKABLE_HORIZON)) (.slotUnavailable .horizon)
  let blocked ← ask (.isBlocked .ownerSms)
  raiseIf blocked .ownerResendThrottled
  let result ← tenantSession fun _ => rescheduleIn cfg bookingId newStartsAt now staffId
  if result.changed then
    ask (.recordFailure .ownerSms)
    return result
  else return result

end OwnerBooking

namespace ManageBooking

def resolve (token : Nat) : Prg Booking := do
  let found ← Bookings.byManageTokenHash (manageTokenHash token)
  let booking ← orRaise found .bookingLinkInvalid
  raiseIf (booking.manageTokenHash ≠ some (manageTokenHash token)) .bookingLinkInvalid
  return booking

def cancel (token : Nat) : Prg Booking :=
  tenantSession fun _ => do
    let booking ← resolve token
    let now ← clock
    if booking.status = .cancelled then return booking
    else
      raiseIf (booking.status = .pendingPayment) .bookingAwaitingPayment
      raiseIf (booking.startsAt ≤ now) .bookingAlreadyStarted
      let updated ← Bookings.cancel booking.id now .customer [.confirmed] none
      let _ ← Scheduled.cancelPending booking.id .reminder
      return updated.getD booking

end ManageBooking

structure OfferClaimRequest where
  token : Nat
  name : String
  termsVersion : Nat
  settings : Option TenantSettings

namespace WaitlistOffer

def resolve (token : Nat) : Prg WaitlistEntry := do
  let found ← Entries.byOfferTokenHash (manageTokenHash token)
  let entry ← orRaise found .offerNotFound
  raiseIf (entry.offerTokenHash ≠ some (manageTokenHash token)) .offerNotFound
  return entry

def claimEntry (entryId : Nat) (now : Int) : Prg Unit := do
  if ← Entries.claim entryId now then return ()
  else
    let current ← Entries.byId entryId
    throw (.offerNotClaimable ((current.map (·.status)).getD .expired))

def claimIn (cfg : Config) (r : OfferClaimRequest) (now : Int) : Prg BookingClaim := do
  let entry ← resolve r.token
  let currentTerms ← Terms.current
  raiseIf (!currentTerms.any fun terms => terms.version = r.termsVersion) .termsStale
  let found ← Types.byId entry.appointmentTypeId
  let typeRow ← orRaise found .offerNotFound
  let startsAt ← orRaise entry.offerStartsAt .offerNotFound
  claimEntry entry.id now
  let _ ← Scheduled.cancelPendingForEntry entry.id .waitlistOffer
  let connected ← gatewayConnected cfg
  let due := depositDue r.settings typeRow connected
  let customer ← Customers.upsert entry.phone (strip r.name)
  let manageToken ← mintManageToken
  let booking ← claimSeat cfg startsAt now customer.id typeRow r.termsVersion manageToken due ⟨none, none, none, none⟩
  return ⟨booking, true, some manageToken, due, typeRow.depositAmountAgorot.getD 0⟩

/-- **The offer claim**: the entry's guarded UPDATE, then the booking engine's own claim, in one transaction. -/
def claim (cfg : Config) (r : OfferClaimRequest) : Prg BookingClaim := do
  liftExcept (validateBookingRequest r.name none none none)
  let now ← clock
  tenantSession fun _ => claimIn cfg r now

def claimOffer (cfg : Config) (r : OfferClaimRequest) : Prg BookingCreateResponse := do
  let c ← claim cfg r
  answerClaim cfg c

end WaitlistOffer

namespace BoutiqueService

def insertEach : List WeeklyRuleInput → Prg (List AvailabilityRule)
  | [] => return []
  | rule :: rules => do
    let row ← Rules.insert rule.dayOfWeek rule.openTime rule.closeTime rule.capacity.toNat
    let rows ← insertEach rules
    return row :: rows

/-- Validate first, then replace the whole weekly set under the lock. -/
def replaceWeeklyRules (rules : List WeeklyRuleInput) : Prg (List AvailabilityRule) := do
  liftExcept (validateWeeklyRules rules)
  tenantSession fun txNow => do
    advisoryLock
    let _ ← Rules.softDeleteAll txNow
    insertEach rules

def addAvailabilityException (date : Int) (openTime closeTime : Option WallTime) (note : Option String) :
    Prg AvailabilityException := do
  liftExcept (validateExceptionTimes openTime closeTime)
  liftExcept (validateExceptionNote note)
  onIntegrity (tenantSession fun _ => Exceptions.insert date openTime closeTime note) (throw .duplicateDate)

def removeAvailabilityException (exceptionId : Nat) : Prg Unit := do
  let removed ← tenantSession fun txNow => Exceptions.softDelete exceptionId txNow
  raiseIf (!removed) .notFound

end BoutiqueService
end Boutique
