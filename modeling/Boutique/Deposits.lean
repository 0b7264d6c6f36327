import Boutique.Bookings
/-!
# Deposits — what a settlement does to a booking

`settle` handles one webhook delivery: the payment first, then the booking by the status the payment was left in.  A
paid row confirms, an expired one is honoured: marked paid, then given back the seat under the lock if one is free.
-/
namespace Boutique

open PaymentService (Settlement)

inductive DepositReaction
  | confirm | honour | ignore
deriving DecidableEq

/-- Branches on the payment's status and never on `newlySettled`. -/
def depositReaction (settlement : Settlement) : DepositReaction :=
  match settlement.payment.status with
  | .paid => .confirm
  | .expired => .honour
  | _ => .ignore

namespace DepositBooking

def confirmIn (bookingId token : Nat) : Prg (Option Booking) := do
  match ← Bookings.setStatus bookingId .confirmed [.pendingPayment] none none with
  | none => return none
  | some booking =>
    let _ ← Bookings.setManageTokenHash bookingId (manageTokenHash token)
    let now ← clock
    let _ ← upsertReminder bookingId booking.startsAt now (some token)
    let _ ← Audit.record none "bookings" (.bookingConfirmedByDeposit bookingId)
    return some booking

def confirm (bookingId : Nat) : Prg Unit := do
  let token ← mintManageToken
  match ← tenantSession fun _ => confirmIn bookingId token with
  | none => return ()
  | some booking =>
    let _ ← sendConfirmation booking
    return ()

/-- The lowest free seat below the slot's capacity; her own live seat does not count against her. -/
def freeSeat (cfg : Config) (booking : Booking) (now : Int) : Prg (Option Nat) := do
  let targetDate := cfg.zone.dateOf booking.startsAt
  let rules ← Rules.listActive
  let exceptions ← Exceptions.listActive targetDate targetDate
  let slots := materializeSlots cfg.zone rules exceptions (fun _ => 0) targetDate targetDate now
  match slots.find? fun slot => slot.startsAt = booking.startsAt with
  | none => return none
  | some slot =>
    let occupied ← Bookings.activeSeatsAt booking.startsAt
    let others := if booking.status ≠ .cancelled then occupied.filter fun i => i ≠ booking.seatIndex else occupied
    return lowestFree slot.capacity others

/-- Both occupancy facts, then one guarded UPDATE, then token, reminder and evidence. -/
def rebind (cfg : Config) (booking : Booking) (now : Int) (token : Nat) : Prg (Option Booking) := do
  match ← freeSeat cfg booking now with
  | none => return none
  | some seatIndex =>
    let other ← Bookings.activeAt booking.customerId booking.startsAt
    if other.any fun o => o.id ≠ booking.id then return none
    else
      match ← Bookings.rebind booking.id seatIndex [.cancelled, .pendingPayment] now with
      | none => return none
      | some rebound =>
        let _ ← Bookings.setManageTokenHash booking.id (manageTokenHash token)
        let _ ← upsertReminder booking.id rebound.startsAt now (some token)
        let _ ← Audit.record none "bookings" (.depositLateHonoured booking.id seatIndex)
        return some rebound

def reinstate (cfg : Config) (booking : Booking) (now : Int) (token : Nat) :
    Prg (Option Booking × UnresolvedReason) :=
  onIntegrity
    (tenantSession fun _ => do
      advisoryLock
      let rebound ← rebind cfg booking now token
      return (rebound, .seatTaken))
    (return (none, .indexConflict))

def report (booking : Booking) (honoured : Payment) (attempt : Option Booking × UnresolvedReason) : Prg Unit := do
  match attempt.1 with
  | some rebound =>
    let _ ← sendConfirmation rebound
    return ()
  | none =>
    let _ ← tenantSession fun _ =>
      Audit.record none "bookings" (.depositLateUnresolved booking.id honoured.id attempt.2)
    let _ ← notifyPaymentReceivedNoSlot booking
    return ()

def resettle (cfg : Config) (honoured : Payment) : Prg Unit := do
  match ← tenantSession fun _ => Bookings.byId honoured.bookingId with
  | none => return ()
  | some booking =>
    let now ← clock
    let token ← mintManageToken
    let attempt ← reinstate cfg booking now token
    report booking honoured attempt

/-- **The honour path**: the late payment is marked paid first, in its own transaction. -/
def honour (cfg : Config) (payment : Payment) (event : WebhookEvent) : Prg Unit := do
  let valid ← PaymentService.verifyWebhook event
  raiseIf (!valid) .gatewayWebhookInvalid
  let paidAt ← clock
  match ← PaymentService.honourLateSettlement payment.id event.providerTransactionId paidAt with
  | none => return ()
  | some honoured => resettle cfg honoured

def react (cfg : Config) (event : WebhookEvent) (settlement : Settlement) : Prg Unit :=
  match depositReaction settlement with
  | .confirm => confirm settlement.payment.bookingId
  | .honour => honour cfg settlement.payment event
  | .ignore => return ()

/-- **One delivery.** The settlement is handed over at the end, for what is said about deliveries. -/
def settle (cfg : Config) (event : WebhookEvent) : Prg Settlement := do
  let settlement ← PaymentService.settleFromWebhook cfg event
  react cfg event settlement
  return settlement

end DepositBooking
end Boutique
