import Boutique.Comms
/-!
# Drain — the poller's tick for one tenant

One transaction claims the due rows, sends them one by one and marks each.  A send runs in sessions of its own and cannot
be taken back: what fails after it takes the marks away, and the rows are due again.
-/
namespace Boutique

def DRAIN_BATCH_SIZE : Nat := 50

structure DrainResult where
  sent : Nat
  failed : Nat
  cancelled : Nat
  deferred : Nat

namespace DrainResult

def zero : DrainResult := ⟨0, 0, 0, 0⟩

def count (r : DrainResult) : ScheduledMessageStatus → DrainResult
  | .sent => { r with sent := r.sent + 1 }
  | .failed => { r with failed := r.failed + 1 }
  | .cancelled => { r with cancelled := r.cancelled + 1 }
  | .pending => r

end DrainResult

namespace BookingComms

def sendDue (row : ScheduledMessage) (phone : String) (kind : MessageKind) (token : Nat) : Prg Unit := do
  let configured ← ask .smsConfigured
  raiseIf (!configured) .smsNotConfigured
  raiseIf (phone.startsWith ERASED_PHONE_PREFIX) .smsRecipientErased
  match ← ask (.sendDue row.id phone kind row.bookingId token) with
  | .sent => return ()
  | .refused => throw .smsSend
  | .notConfigured => throw .smsNotConfigured
  | .fault _ => throw .unexpected

def deliverDue (row : ScheduledMessage) (phone : String) (kind : MessageKind) (token : Nat) : Prg Bool :=
  tryCatch (do sendDue row phone kind token; return true) fun e =>
    if e = .smsSend ∨ e = .smsNotConfigured ∨ e = .smsRecipientErased then return false else throw e

def marked (row : ScheduledMessage) (status : ScheduledMessageStatus) : Prg (Option ScheduledMessageStatus) := do
  let _ ← Scheduled.mark row.id status
  return some status

def sendOrFail (row : ScheduledMessage) (phone : Option String) (kind : MessageKind) :
    Prg (Option ScheduledMessageStatus) :=
  match row.manageToken, phone with
  | some token, some phone => do
    let delivered ← deliverDue row phone kind token
    marked row (if delivered then .sent else .failed)
  | _, _ => marked row .failed

def drainReminder (row : ScheduledMessage) (now : Int) : Prg (Option ScheduledMessageStatus) := do
  let found ← match row.bookingId with
    | some b => Bookings.byId b
    | none => return none
  match found with
  | none => marked row .cancelled
  | some booking =>
    if booking.status ≠ .confirmed ∨ booking.startsAt ≤ now then marked row .cancelled
    else
      let configured ← ask .smsConfigured
      if configured then
        let customer ← Customers.byId booking.customerId
        sendOrFail row (customer.map (·.phone)) .reminder
      else return none

def drainOffer (row : ScheduledMessage) (now : Int) : Prg (Option ScheduledMessageStatus) := do
  let found ← match row.waitlistEntryId with
    | some e => Entries.byId e
    | none => return none
  match found with
  | none => marked row .cancelled
  | some entry =>
    if entry.status ≠ .offered ∨ entry.offerExpiresAt.all (fun t => t ≤ now) ∨ entry.offerStartsAt = none then
      marked row .cancelled
    else
      let configured ← ask .smsConfigured
      if configured then sendOrFail row (some entry.phone) .waitlistOffer
      else return none

def drainRow (row : ScheduledMessage) (now : Int) : Prg (Option ScheduledMessageStatus) :=
  if row.kind = .waitlistOffer then drainOffer row now else drainReminder row now

/-- The loop over the batch; without a provider the rest stays pending. -/
def drainRows (now : Int) : List ScheduledMessage → DrainResult → Prg DrainResult
  | [], r => return r
  | row :: rows, r => do
    match ← drainRow row now with
    | none => return { r with deferred := rows.length + 1 }
    | some status => drainRows now rows (r.count status)

/-- **One tick.** -/
def drainDue (limit : Nat) : Prg DrainResult := do
  let now ← clock
  tenantSession fun _ => do
    let rows ← Scheduled.claimDue now limit
    drainRows now rows .zero

end BookingComms
end Boutique
