import Boutique.Repositories
/-!
# Comms — reminders and messages

When a reminder goes out, how a transaction rewrites it, and the sends after a commit: evidence row, provider, mark.
A send that fails leaves its evidence and never turns a committed booking into an error.
-/
namespace Boutique

def REMINDER_LEAD_SECONDS : Int := 86400
def REMINDER_SUPPRESS_UNDER_SECONDS : Int := 7200

/-- When the reminder should go out, or nothing inside the suppression window. -/
def reminderSendAfter (startsAt now : Int) : Option Int :=
  let lead := startsAt - now
  if lead < REMINDER_SUPPRESS_UNDER_SECONDS * second then none
  else if REMINDER_LEAD_SECONDS * second ≤ lead then some (startsAt - REMINDER_LEAD_SECONDS * second)
  else some now

def mintManageToken : Prg Nat := ask .mintManageToken

def manageTokenHash (token : Nat) : Digest := ⟨token⟩

def reminderToken (bookingId : Nat) (known : Option Nat) : Prg Nat :=
  match known with
  | some t => return t
  | none => do
    let t ← mintManageToken
    let _ ← Bookings.setManageTokenHash bookingId (manageTokenHash t)
    return t

/-- **The reminder rewrite**: cancel the pending row, then insert a fresh one with the given token, the cancelled row's,
or a new one. -/
def upsertReminder (bookingId : Nat) (startsAt now : Int) (token : Option Nat) : Prg (Option Int) := do
  let sendAfter := reminderSendAfter startsAt now
  let pending ← Scheduled.pendingForBooking bookingId .reminder
  let carried := pending.bind (·.manageToken)
  let _ ← Scheduled.cancelPending bookingId .reminder
  match sendAfter with
  | none => return none
  | some at_ =>
    let rowToken ← reminderToken bookingId (token <|> carried)
    let _ ← Scheduled.insert bookingId .reminder at_ (some rowToken)
    return some at_

def ERASED_PHONE_PREFIX : String := "erased:"

/-- The evidence row commits before the provider is called, the mark after it. -/
def sendSms (phone : String) (kind : MessageKind) (bookingId : Nat) : Prg Unit := do
  let configured ← ask .smsConfigured
  raiseIf (!configured) .smsNotConfigured
  raiseIf (phone.startsWith ERASED_PHONE_PREFIX) .smsRecipientErased
  let row ← tenantSession fun _ => MessageLogs.insert phone kind bookingId
  match ← ask (.sendSms phone kind bookingId) with
  | .notConfigured =>
    let _ ← tenantSession fun _ => MessageLogs.updateStatus row.id .failed
    throw .smsNotConfigured
  | .refused =>
    let _ ← tenantSession fun _ => MessageLogs.updateStatus row.id .failed
    throw .smsSend
  | .sent =>
    let _ ← tenantSession fun _ => MessageLogs.updateStatus row.id .sent
    return ()

def deliver (phone : String) (kind : MessageKind) (bookingId : Nat) : Prg Bool :=
  tryCatch (do sendSms phone kind bookingId; return true) fun e =>
    if e = .smsSend ∨ e = .smsNotConfigured ∨ e = .smsRecipientErased then return false else throw e

def customerPhone (customerId : Nat) : Prg (Option String) := do
  let customer ← tenantSession fun _ => Customers.byId customerId
  return customer.map (·.phone)

def notify (kind : MessageKind) (booking : Booking) : Prg Bool := do
  if ← ask .smsConfigured then
    match ← customerPhone booking.customerId with
    | some phone => deliver phone kind booking.id
    | none => return false
  else return false

def sendConfirmation (booking : Booking) : Prg Bool := notify .confirmation booking

def notifyPaymentReceivedNoSlot (booking : Booking) : Prg Bool := notify .paymentReceivedNoSlot booking

end Boutique
