import Boutique.Owner
/-!
# Relink — everything else that gives a booking a new manage link

The reschedule notice, the reissue, the owner's phone correction and resend, and the backfill.  `bookings` holds only the
hash of a link, the pending reminder the link itself: whoever changes the one has the other to think of.
-/
namespace Boutique

namespace Scheduled

def repoint (pending : Option ScheduledMessage) (token : Nat) : Prg Unit :=
  match pending with
  | none => return ()
  | some row => do
    let _ ← update .scheduledMessages row.id (.setManageToken token)
    return ()

end Scheduled

namespace BookingComms

def liveToken (bookingId : Nat) : Prg (Option Nat) :=
  tenantSession fun _ => do
    let pending ← Scheduled.pendingForBooking bookingId .reminder
    return pending.bind (·.manageToken)

def rotate (bookingId : Nat) : Prg (Option Nat) := do
  let token ← mintManageToken
  let updated ← tenantSession fun _ => Bookings.setManageTokenHash bookingId (manageTokenHash token)
  return if updated.isNone then none else some token

def noticeToken (bookingId : Nat) : Prg (Option Nat) := do
  match ← liveToken bookingId with
  | some token => return some token
  | none => rotate bookingId

def notifyOwnerReschedule (booking : Booking) : Prg Bool := do
  if ← ask .smsConfigured then
    match ← customerPhone booking.customerId with
    | none => return false
    | some phone =>
      match ← noticeToken booking.id with
      | none => return false
      | some _ => deliver phone .ownerReschedule booking.id
  else return false

def reissueIn (bookingId : Nat) : Prg (Option (Booking × Nat)) := do
  match ← Bookings.byId bookingId with
  | none => return none
  | some booking =>
    let token ← mintManageToken
    let _ ← Bookings.setManageTokenHash bookingId (manageTokenHash token)
    let pending ← Scheduled.pendingForBooking bookingId .reminder
    Scheduled.repoint pending token
    return some (booking, token)

def reissueManageToken (bookingId : Nat) : Prg (Option Nat) := do
  match ← tenantSession fun _ => reissueIn bookingId with
  | none => return none
  | some (booking, token) =>
    let _ ← sendConfirmation booking
    return some token

end BookingComms

namespace OwnerBooking

def rescheduleBooking (cfg : Config) (bookingId : Nat) (newStartsAt : Int) (staffId : Nat) : Prg OwnerMutation := do
  let result ← reschedule cfg bookingId newStartsAt staffId
  if result.changed then
    let _ ← BookingComms.notifyOwnerReschedule result.booking
    return result
  else return result

def last4 (phone : String) : Option String :=
  if phone.isEmpty then none else some (String.ofList (phone.toList.drop (phone.length - 4)))

def guardLive (bookingId : Nat) (now : Int) : Prg Booking := do
  let loaded ← Bookings.byId bookingId
  let booking ← orRaise loaded .bookingNotFound
  raiseIf (booking.status ≠ .confirmed)
    (.bookingTransitionInvalid ("link rotation on a " ++ booking.status.value ++ " booking"))
  raiseIf (booking.startsAt ≤ now) (.bookingTransitionInvalid "link rotation after starts_at")
  return booking

def rotateLink (booking : Booking) (now : Int) : Prg Nat := do
  let token ← mintManageToken
  let rotated ← Bookings.rotateManageTokenHash booking.id (manageTokenHash token) [.confirmed] now
  raiseIf rotated.isNone
    (.bookingTransitionInvalid ("rotation lost to a concurrent write on booking " ++ toString booking.id))
  let pending ← Scheduled.pendingForBooking booking.id .reminder
  Scheduled.repoint pending token
  return token

def rotateLinks (now : Int) : List Booking → Prg (List (Nat × Nat))
  | [] => return []
  | booking :: bookings => do
    let token ← rotateLink booking now
    let tokens ← rotateLinks now bookings
    return (booking.id, token) :: tokens

structure Corrected where
  rotate : List Booking
  newCustomerId : Nat
  repointed : Bool

def repointTo (booking : Booking) (target : Customer) (now : Int) : Prg Corrected := do
  let collision ← Bookings.activeAt target.id booking.startsAt
  raiseIf collision.isSome .customerAlreadyBooked
  let moved ← onIntegrity (Bookings.setCustomerId booking.id target.id [.confirmed] now) (throw .customerAlreadyBooked)
  raiseIf moved.isNone (.bookingTransitionInvalid "re-point lost to a concurrent write")
  return ⟨[booking], target.id, true⟩

def correctDigits (booking : Booking) (phone : String) (now : Int) : Prg Corrected := do
  let written ← onIntegrity (Customers.setPhone booking.customerId phone)
    (throw (.bookingTransitionInvalid "phone correction lost to a concurrent write"))
  raiseIf written.isNone .bookingNotFound
  let rotate ← Bookings.listLiveForCustomer booking.customerId now
  return ⟨rotate, booking.customerId, false⟩

def correct (booking : Booking) (phone : String) (now : Int) : Prg Corrected := do
  match ← Customers.byPhone phone with
  | some target => if target.id ≠ booking.customerId then repointTo booking target now else correctDigits booking phone now
  | none => correctDigits booking phone now

/-- A booking as the session has it after a rotation: what the statements wrote is stamped on the row that it has loaded. -/
def stamped (booking : Booking) (customerId token : Nat) : Booking :=
  { booking with customerId := customerId, manageTokenHash := some (manageTokenHash token) }

/-- The correction's transaction; the token of the edited booking is looked up among the rotated ones. -/
def correctIn (bookingId : Nat) (phone : String) (now : Int) (staffId : Nat) : Prg (Booking × Nat) := do
  let booking ← guardLive bookingId now
  let old ← Customers.byId booking.customerId
  let corrected ← correct booking phone now
  let tokens ← rotateLinks now corrected.rotate
  let _ ← record staffId bookingId (.bookingPhoneCorrected bookingId (old.bind fun c => last4 c.phone) (last4 phone)
    booking.customerId corrected.newCustomerId corrected.repointed (corrected.rotate.map (·.id)))
  let token ← orRaise (tokens.lookup bookingId) .unexpected
  return (stamped booking corrected.newCustomerId token, token)

def correctPhone (bookingId : Nat) (rawPhone : String) (staffId : Nat) : Prg (Booking × Nat) := do
  let phone ← liftExcept (normalizeIsraeliMobile rawPhone)
  let blocked ← ask (.isBlocked .ownerSms)
  raiseIf blocked .ownerResendThrottled
  let now ← clock
  let result ← tenantSession fun _ => correctIn bookingId phone now staffId
  ask (.recordFailure .ownerSms)
  return result

def resendIn (bookingId : Nat) (now : Int) (staffId : Nat) : Prg (Booking × Nat) := do
  let booking ← guardLive bookingId now
  let tokens ← rotateLinks now [booking]
  let _ ← record staffId bookingId (.bookingLinkResent bookingId booking.customerId)
  let token ← orRaise (tokens.lookup bookingId) .unexpected
  return (stamped booking booking.customerId token, token)

def resendLink (bookingId staffId : Nat) : Prg (Booking × Nat) := do
  let blocked ← ask (.isBlocked .ownerSms)
  raiseIf blocked .ownerResendThrottled
  let now ← clock
  let result ← tenantSession fun _ => resendIn bookingId now staffId
  ask (.recordFailure .ownerSms)
  return result

def sendRotation (rotation : Prg (Booking × Nat)) : Prg (Booking × Nat) := do
  let result ← rotation
  let _ ← sendConfirmation result.1
  return result

end OwnerBooking

namespace ManageLinkBackfill

def CHUNK_SIZE : Nat := 500
def MAX_CHUNKS : Nat := 50

structure BackfillResult where
  tokensMinted : Nat
  remindersScheduled : Nat

def fill (booking : Booking) (now : Int) : Prg Bool := do
  let token ← mintManageToken
  let _ ← Bookings.setManageTokenHash booking.id (manageTokenHash token)
  match reminderSendAfter booking.startsAt now with
  | none => return false
  | some at_ =>
    let _ ← Scheduled.insert booking.id .reminder at_ (some token)
    return true

def fillEach (now : Int) : List Booking → BackfillResult → Prg BackfillResult
  | [], r => return r
  | booking :: bookings, r => do
    let scheduled ← fill booking now
    fillEach now bookings ⟨r.tokensMinted + 1, r.remindersScheduled + if scheduled then 1 else 0⟩

def chunk (now : Int) (r : BackfillResult) : Prg (Nat × BackfillResult) :=
  tenantSession fun _ => do
    let rows ← Bookings.listConfirmedWithoutManageToken now CHUNK_SIZE
    let r' ← fillEach now rows r
    return (rows.length, r')

def chunks (now : Int) : Nat → BackfillResult → Prg BackfillResult
  | 0, r => return r
  | n + 1, r => do
    let (rows, r') ← chunk now r
    if rows < CHUNK_SIZE then return r' else chunks now n r'

def run : Prg BackfillResult := do
  let now ← clock
  chunks now MAX_CHUNKS ⟨0, 0⟩

end ManageLinkBackfill
end Boutique
