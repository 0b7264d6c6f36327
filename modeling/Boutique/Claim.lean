import Boutique.Comms
/-!
# Claim — from a start time to a booking row

`offeredSlot` materializes the grid of one day from what the transaction sees, and `claimSeat` turns the slot it finds
into a row: the one path of the code base that does.
-/
namespace Boutique

def daySlots (cfg : Config) (day now : Int) : Prg (List Slot) := do
  let activeRules ← Rules.listActive
  let activeExceptions ← Exceptions.listActive day day
  let booked ← Bookings.countByStart (cfg.zone.midnight day) (cfg.zone.midnight (day + 1))
  return materializeSlots cfg.zone activeRules activeExceptions booked day day now

def offeredSlot (cfg : Config) (startsAt now : Int) : Prg (Option Slot) := do
  let slots ← daySlots cfg (cfg.zone.dateOf startsAt) now
  return slots.find? fun slot => slot.startsAt = startsAt

structure ClaimText where
  dressId : Option Nat
  dressName : Option String
  dressSize : Option String
  notes : Option String

def seatRow (slot : Slot) (seatIndex : Nat) (now : Int) (customerId : Nat) (appointmentType : AppointmentType)
    (termsVersion manageToken : Nat) (due : Bool) (text : ClaimText) : Booking :=
  { id := 0, createdAt := 0, deletedAt := none, customerId := customerId, appointmentTypeId := appointmentType.id,
    startsAt := slot.startsAt, seatIndex := seatIndex, status := if due then .pendingPayment else .confirmed,
    source := .storefront, termsVersionAccepted := some termsVersion, termsAcceptedAt := some now,
    appointmentTypeName := appointmentType.name, dressId := text.dressId, dressName := text.dressName,
    dressSize := text.dressSize, notes := text.notes, manageTokenHash := some (manageTokenHash manageToken), checkedInAt := none,
    cancelledAt := none, cancelledBy := none }

def insertSeat (row : Booking) : Prg Booking :=
  onIntegrity (insert .bookings row) (throw (.slotUnavailable .indexRefused))

def scheduleReminder (booking : Booking) (now : Int) (manageToken : Nat) : Prg Unit :=
  match reminderSendAfter booking.startsAt now with
  | none => return ()
  | some sendAfter => do
    let _ ← Scheduled.insert booking.id .reminder sendAfter (some manageToken)
    return ()

/-- **Claim a seat**: lock, grid, lowest free seat, row, reminder. -/
def claimSeat (cfg : Config) (startsAt now : Int) (customerId : Nat) (appointmentType : AppointmentType)
    (termsVersion manageToken : Nat) (due : Bool) (text : ClaimText) : Prg Booking := do
  advisoryLock
  let offered ← offeredSlot cfg startsAt now
  let slot ← orRaise offered (.slotUnavailable .notOffered)
  let seats ← Bookings.activeSeatsAt slot.startsAt
  let seatIndex ← orRaise (lowestFree slot.capacity seats) (.slotUnavailable .noFreeSeat)
  let booking ← insertSeat
    (seatRow slot seatIndex now customerId appointmentType termsVersion manageToken due text)
  scheduleReminder booking now manageToken
  return booking

end Boutique
