import Boutique.Comms
import Boutique.Slots
import Boutique.TxnSession
import Boutique.Validation
import Mathlib.Data.List.Dedup
import Mathlib.Data.List.Sort
/-!
# Waitlist — the queue for a full day, and the cascade that offers it freed seats

An entry waits for a day and an appointment type; a tick of the cascade closes the offers whose deadline has passed and
issues new ones, and a text about the offer is queued beside it.  A claim takes the offered seat through the booking
path.  The weekly rules and the exception dates are read from outside; instants are microseconds, dates are days.
-/
namespace Waitlist

open Txn Session
open Boutique (Zone Slot Digest WaitlistEntryStatus ScheduledMessageStatus BookingStatus AvailabilityRule
  AvailabilityException)

structure WaitlistEntry where
  id : Nat
  createdAt : Int
  deletedAt : Option Int
  day : Int
  appointmentTypeId : Nat
  phone : String
  status : WaitlistEntryStatus
  offeredAt : Option Int
  offerStartsAt : Option Int
  offerExpiresAt : Option Int
  offerTokenHash : Option Digest
deriving DecidableEq

/-- What a scheduled text is about: a booking's reminder, or the offer made to an entry. -/
inductive Subject
  | booking (bookingId : Nat)
  | entry (waitlistEntryId : Nat)
deriving DecidableEq

structure ScheduledMessage where
  id : Nat
  createdAt : Int
  deletedAt : Option Int
  subject : Subject
  sendAfter : Int
  status : ScheduledMessageStatus
  manageToken : Option Nat
deriving DecidableEq

structure Booking where
  id : Nat
  createdAt : Int
  deletedAt : Option Int
  customerId : Nat
  appointmentTypeId : Nat
  startsAt : Int
  seatIndex : Nat
  status : BookingStatus
  termsVersionAccepted : Nat
  termsAcceptedAt : Int
  manageTokenHash : Digest
deriving DecidableEq

structure Customer where
  id : Nat
  createdAt : Int
  deletedAt : Option Int
  phone : String
  name : String
deriving DecidableEq

/-- The one action the waitlist records. -/
structure AuditLog where
  id : Nat
  createdAt : Int
  actorId : Nat
  entryId : Nat
  day : Int
  appointmentTypeId : Nat
deriving DecidableEq

inductive Table
  | entries | messages | bookings | customers | auditLog
deriving DecidableEq

abbrev Row : Table → Type
  | .entries => WaitlistEntry
  | .messages => ScheduledMessage
  | .bookings => Booking
  | .customers => Customer
  | .auditLog => AuditLog

def rowId : (T : Table) → Row T → Nat
  | .entries, (r : WaitlistEntry) => r.id
  | .messages, (r : ScheduledMessage) => r.id
  | .bookings, (r : Booking) => r.id
  | .customers, (r : Customer) => r.id
  | .auditLog, (r : AuditLog) => r.id

def stamp : (T : Table) → Nat → Int → Row T → Row T
  | .entries, i, n, (r : WaitlistEntry) => { r with id := i, createdAt := n }
  | .messages, i, n, (r : ScheduledMessage) => { r with id := i, createdAt := n }
  | .bookings, i, n, (r : Booking) => { r with id := i, createdAt := n }
  | .customers, i, n, (r : Customer) => { r with id := i, createdAt := n }
  | .auditLog, i, n, (r : AuditLog) => { r with id := i, createdAt := n }

/-! ## The UPDATEs -/

inductive Closing
  | expired | waiting
deriving DecidableEq

inductive Mark
  | sent | failed | cancelled
deriving DecidableEq

def Mark.status : Mark → ScheduledMessageStatus
  | .sent => .sent
  | .failed => .failed
  | .cancelled => .cancelled

inductive EntryChange
  | cancel
  | offer (now startsAt expiresAt : Int) (tokenHash : Digest)
  | closeOffer (status : Closing)
  | claim (now : Int)

inductive MessageChange
  | cancelPendingForEntry (waitlistEntryId : Nat)
  | claimDue (now : Int)
  | mark (status : Mark)

inductive CustomerChange
  | setName (name : String)

abbrev Change : Table → Type
  | .entries => EntryChange
  | .messages => MessageChange
  | .customers => CustomerChange
  | .bookings | .auditLog => Empty

def WaitlistEntry.active (w : WaitlistEntry) : Bool :=
  w.deletedAt = none ∧ (w.status = .waiting ∨ w.status = .offered)

def WaitlistEntry.offered (w : WaitlistEntry) : Bool := w.deletedAt = none ∧ w.status = .offered

def WaitlistEntry.waiting (w : WaitlistEntry) : Bool := w.deletedAt = none ∧ w.status = .waiting

def WaitlistEntry.pair (w : WaitlistEntry) : Int × Nat := (w.day, w.appointmentTypeId)

def EntryChange.apply (w : WaitlistEntry) : EntryChange → Option WaitlistEntry
  | .cancel => if w.active then some { w with status := .cancelled, offerExpiresAt := none } else none
  | .offer now startsAt expiresAt tokenHash =>
    if w.waiting then
      some { w with
        status := .offered
        offeredAt := some now
        offerStartsAt := some startsAt
        offerExpiresAt := some expiresAt
        offerTokenHash := some tokenHash }
    else none
  | .closeOffer .expired => if w.offered then some { w with status := .expired, offerExpiresAt := none } else none
  | .closeOffer .waiting =>
    if w.offered then
      some { w with status := .waiting, offerExpiresAt := none, offerTokenHash := none, offerStartsAt := none }
    else none
  | .claim now => if w.offered ∧ w.offerExpiresAt.any (now < ·) then some { w with status := .claimed } else none

def ScheduledMessage.pending (m : ScheduledMessage) : Bool := m.deletedAt = none ∧ m.status = .pending

def Booking.live (b : Booking) : Bool := b.deletedAt = none ∧ b.status ≠ .cancelled

def MessageChange.apply (m : ScheduledMessage) : MessageChange → Option ScheduledMessage
  | .cancelPendingForEntry entryId =>
    if m.pending ∧ m.subject = .entry entryId then some { m with status := .cancelled, manageToken := none } else none
  | .claimDue now => if m.pending ∧ m.sendAfter ≤ now then some m else none
  | .mark status => if m.pending then some { m with status := status.status, manageToken := none } else none

def CustomerChange.apply (c : Customer) : CustomerChange → Option Customer
  | .setName name => some { c with name := name }

def applyChange : (T : Table) → Change T → Row T → Option (Row T)
  | .entries, g, (r : WaitlistEntry) => EntryChange.apply r g
  | .messages, g, (r : ScheduledMessage) => MessageChange.apply r g
  | .customers, g, (r : Customer) => CustomerChange.apply r g

def check : (T : Table) → Row T → Bool
  | .bookings, (b : Booking) => 1 ≤ b.seatIndex ∧ b.seatIndex ≤ Boutique.MAX_SEAT_INDEX
  | _, _ => true

def clash : (T : Table) → Row T → Row T → Bool
  | .entries, (w : WaitlistEntry), (w' : WaitlistEntry) =>
    -- idx_waitlist_entries_active_unique and idx_waitlist_entries_offer_token
    (w.active && w'.active && w.phone = w'.phone && w.pair = w'.pair) ||
      (w.deletedAt.isNone && w'.deletedAt.isNone && w.offerTokenHash.isSome && w.offerTokenHash = w'.offerTokenHash)
  | .messages, (m : ScheduledMessage), (m' : ScheduledMessage) =>
    -- idx_scheduled_messages_pending_unique and idx_scheduled_messages_offer_pending_unique
    m.pending && m'.pending && m.subject = m'.subject
  | .bookings, (b : Booking), (b' : Booking) =>
    -- idx_bookings_slot_seat_unique and idx_bookings_tenant_customer_starts_unique
    b.live && b'.live && (b.startsAt = b'.startsAt) && (b.seatIndex = b'.seatIndex || b.customerId = b'.customerId)
  | .customers, (c : Customer), (c' : Customer) => c.deletedAt.isNone && c'.deletedAt.isNone && c.phone = c'.phone
  | .auditLog, _, _ => false

inductive Query
  | byActiveTuple | byOfferTokenHash | entryById | dueOffers | latestForEntry | countFailedForEntry | waitingPairs
  | oldestWaiting | offeredInstants | cancelPendingForEntry | claimDue | countByStart | activeSeatsAt | customerByPhone
  | customerById | bookingById
deriving DecidableEq

theorem rowId_applyChange (T : Table) (g : Change T) (r r' : Row T) (h : applyChange T g r = some r') :
    rowId T r' = rowId T r := by
  cases T with
  | entries =>
    rcases g with _ | _ | ⟨_ | _⟩ | _ <;> simp only [applyChange, EntryChange.apply] at h
    all_goals (split at h <;> cases h)
    all_goals rfl
  | messages =>
    cases g <;> simp only [applyChange, MessageChange.apply] at h
    all_goals (split at h <;> cases h)
    all_goals rfl
  | customers =>
    cases g
    cases h
    rfl
  | bookings | auditLog => cases g

theorem clash_symm (T : Table) (r r' : Row T) : clash T r r' = clash T r' r := by
  rw [Bool.eq_iff_iff]
  cases T <;> simp only [clash, Bool.and_eq_true, Bool.or_eq_true, decide_eq_true_eq] <;> constructor <;> intro h <;>
    grind

abbrev schema : Schema where
  Table := Table
  tables := inferInstance
  Row := Row
  id := rowId
  stamp := stamp
  Change := Change
  apply := applyChange
  Query := Query
  check := check
  clash := clash
  id_stamp := fun T _ _ _ => by cases T <;> rfl
  id_apply := rowId_applyChange
  clash_symm := clash_symm

/-! ## The world outside -/

/-- What the services ask: the tables nothing here writes, the limiters, the phone's proof, the provider, and the cursor
a worker keeps in memory. -/
inductive Ask
  | issueCursor
  | keepCursor (cursor : Option (Int × Nat))
  | listActiveRules
  | listActiveExceptions (day : Int)
  | mintManageToken
  | typeListed (appointmentTypeId : Nat)
  | termsCurrent
  | depositDue (appointmentTypeId : Nat)
  | isBlocked
  | consumeVerification (phone verificationToken : String)
  | smsConfigured
  | sendSms (phone : String) (messageId token : Nat)
  | rowLocked (messageId : Nat)

/-- What became of a send: three errors of the provider's are one refusal, any other ends the drain. -/
inductive SendResult
  | delivered | refused | fault

abbrev Ans : Ask → Type
  | .issueCursor => Option (Int × Nat)
  | .keepCursor _ => Unit
  | .listActiveRules => List AvailabilityRule
  | .listActiveExceptions _ => List AvailabilityException
  | .mintManageToken | .termsCurrent => Nat
  | .sendSms .. => SendResult
  | .typeListed _ | .depositDue _ | .isBlocked | .consumeVerification .. | .smsConfigured | .rowLocked _ => Bool

structure Input where
  yes : Bool
  number : Nat
  cursor : Option (Int × Nat)
  rules : List AvailabilityRule
  exceptions : List AvailabilityException
  send : SendResult

/-- How many commits went before each thread's walk of the pairs began, and the cursor it left in its worker. -/
structure Store where
  walks : Tid → Nat
  cursors : Tid → Option (Int × Nat)

def serve (t : Tid) : (q : Ask) → Input → Nat → Store → Ans q × Store
  | .issueCursor, i, n, s => (i.cursor, { s with walks := Function.update s.walks t n })
  | .keepCursor cursor, _, _, s => ((), { s with cursors := Function.update s.cursors t cursor })
  | .listActiveRules, i, _, s => (i.rules, s)
  | .listActiveExceptions _, i, _, s => (i.exceptions, s)
  | .mintManageToken, i, _, s | .termsCurrent, i, _, s => (i.number, s)
  | .sendSms .., i, _, s => (i.send, s)
  | .typeListed _, i, _, s | .depositDue _, i, _, s | .isBlocked, i, _, s | .consumeVerification .., i, _, s
  | .smsConfigured, i, _, s | .rowLocked _, i, _, s => (i.yes, s)

abbrev outside : Service where
  Ask := Ask
  Ans := Ans
  Input := Input
  Store := Store
  Mine := Nat
  serve := serve
  mine t s := s.walks t
  serve_mine t u q i n s h := by
    cases q with
    | issueCursor => simp [serve, h]
    | _ => rfl

inductive Err
  | invalid (e : Boutique.Err)
  | dayOutsideWindow
  | throttled
  | phoneNotVerified
  | bookingNotFound
  | offerNotFound
  | offerNotClaimable (state : WaitlistEntryStatus)
  | termsStale
  | slotUnavailable
  | sendFault
  | multipleResultsFound
  | integrity

abbrev Prg (α : Type) : Type := Code schema outside Err α

abbrev ask (q : Ask) : Prg (Ans q) := Session.ask (V := outside) q

abbrev update (T : Table) (i : Nat) (g : Change T) : Prg (Option (Row T)) :=
  Session.update (S := schema) Err.integrity T i g

abbrev insert (T : Table) (r : Row T) : Prg (Row T) := Session.insert (S := schema) Err.integrity T r

abbrev updateEach (T : Table) (g : Change T) (ids : List Nat) : Prg (List (Row T)) :=
  Session.updateEach (S := schema) Err.integrity T g ids

def scalarOneOrNone {α : Type} : List α → Prg (Option α)
  | [] => return none
  | [a] => return some a
  | _ => .raise .multipleResultsFound

def advisoryLock : Prg Unit := .call (.sql .lock) fun _ => .ret ()

def unlessRefused {α : Type} (p : Prg α) : Prg (Option α) := do
  match ← (p.attempt : Prg (Except Err α)) with
  | .ok a => return some a
  | .error .integrity => return none
  | .error e => .raise e

def EXPIRY_BATCH_SIZE : Nat := 200
def ISSUE_BATCH_SIZE : Nat := 50
def MAX_OFFER_SEND_FAILURES : Nat := 3
def SLOT_WINDOW_MAX_DAYS : Int := 60
def DRAIN_BATCH_SIZE : Nat := 50

structure Config where
  zone : Zone
  window : Int
  minLead : Int
  quietStartHour : Int
  quietEndHour : Int

def manageTokenHash (token : Nat) : Digest := ⟨token⟩

/-! ## Repositories -/

namespace Entries

def insert (day : Int) (appointmentTypeId : Nat) (phone : String) : Prg WaitlistEntry :=
  Waitlist.insert .entries
    (⟨0, 0, none, day, appointmentTypeId, phone, .waiting, none, none, none, none⟩ : WaitlistEntry)

def byActiveTuple (phone : String) (day : Int) (appointmentTypeId : Nat) : Prg (Option WaitlistEntry) := do
  let rows ← select .byActiveTuple fun s => (s.all .entries).filter fun (w : WaitlistEntry) =>
    w.active ∧ w.phone = phone ∧ w.day = day ∧ w.appointmentTypeId = appointmentTypeId
  scalarOneOrNone rows

def byId (entryId : Nat) : Prg (Option WaitlistEntry) :=
  select .entryById fun s => (s.rows .entries entryId).filter fun (w : WaitlistEntry) => w.deletedAt = none

def byOfferTokenHash (tokenHash : Digest) : Prg (Option WaitlistEntry) := do
  let rows ← select .byOfferTokenHash fun s => (s.all .entries).filter fun (w : WaitlistEntry) =>
    w.offerTokenHash = some tokenHash ∧ w.deletedAt = none
  scalarOneOrNone rows

def cancel (entryId : Nat) : Prg (Option WaitlistEntry) := do
  let cancelled ← update .entries entryId .cancel
  match cancelled with
  | none => return none
  | some row => byId row.id

def offer (entryId : Nat) (now startsAt expiresAt : Int) (tokenHash : Digest) : Prg Bool := do
  let moved ← update .entries entryId (.offer now startsAt expiresAt tokenHash)
  return moved.isSome

def dueOffers (now : Int) : Prg (List WaitlistEntry) := select .dueOffers fun s =>
  (((s.all .entries).filter fun (w : WaitlistEntry) => w.offered ∧ w.offerExpiresAt.any (· ≤ now)).insertionSort
    fun (w w' : WaitlistEntry) => w.offerExpiresAt.getD 0 ≤ w'.offerExpiresAt.getD 0).take EXPIRY_BATCH_SIZE

def closeOffer (entryIds : List Nat) (status : Closing) : Prg (List Nat) := do
  let rows ← updateEach .entries (.closeOffer status) entryIds
  return rows.map WaitlistEntry.id

def claim (entryId : Nat) (now : Int) : Prg Bool := do
  let moved ← update .entries entryId (.claim now)
  return moved.isSome

def after (cursor : Option (Int × Nat)) (pair : Int × Nat) : Bool :=
  cursor.all fun c => c.1 < pair.1 || (c.1 = pair.1 && c.2 < pair.2)

/-- **The pairs that wait and hold no offer**, in order, from past the cursor. -/
def waitingPairsIn (fromDay : Int) (cursor : Option (Int × Nat)) (entries : List WaitlistEntry) : List (Int × Nat) :=
  ((((entries.filter fun w => fromDay ≤ w.day ∧ w.waiting ∧ !entries.any (fun x => x.offered ∧ x.pair = w.pair) ∧
    after cursor w.pair).map WaitlistEntry.pair).dedup).insertionSort
      fun p q => p.1 < q.1 ∨ (p.1 = q.1 ∧ p.2 ≤ q.2)).take ISSUE_BATCH_SIZE

def waitingPairs (fromDay : Int) (cursor : Option (Int × Nat)) : Prg (List (Int × Nat)) :=
  select .waitingPairs fun s => waitingPairsIn fromDay cursor (s.all .entries)

def offeredInstants (day : Int) : Prg (List Int) := select .offeredInstants fun s =>
  ((s.all .entries).filter fun (w : WaitlistEntry) => w.day = day ∧ w.offered).filterMap WaitlistEntry.offerStartsAt

def oldestWaiting (pair : Int × Nat) : Prg (Option WaitlistEntry) := select .oldestWaiting fun s =>
  earliestBy WaitlistEntry.createdAt ((s.all .entries).filter fun (w : WaitlistEntry) => w.waiting ∧ w.pair = pair)

end Entries

namespace Scheduled

def insert (subject : Subject) (sendAfter : Int) (manageToken : Nat) : Prg ScheduledMessage :=
  Waitlist.insert .messages (⟨0, 0, none, subject, sendAfter, .pending, some manageToken⟩ : ScheduledMessage)

def latestForEntry (entryId : Nat) : Prg (Option ScheduledMessage) := select .latestForEntry fun s =>
  latestBy ScheduledMessage.createdAt ((s.all .messages).filter fun (m : ScheduledMessage) =>
    m.subject = .entry entryId ∧ m.deletedAt = none)

def countFailedForEntry (entryId : Nat) : Prg Nat := select .countFailedForEntry fun s =>
  ((s.all .messages).filter fun (m : ScheduledMessage) =>
    m.subject = .entry entryId ∧ m.status = .failed ∧ m.deletedAt = none).length

def cancelPendingForEntry (entryId : Nat) : Prg Nat := do
  let ids ← select .cancelPendingForEntry fun s => matching s .messages fun (m : ScheduledMessage) =>
    m.pending ∧ m.subject = .entry entryId
  let rows ← updateEach .messages (.cancelPendingForEntry entryId) ids
  return rows.length

def dueAt (now : Int) (s : Snapshot schema) : List Nat :=
  (((s.all .messages).filter fun (m : ScheduledMessage) => m.pending ∧ m.sendAfter ≤ now).insertionSort
    fun (m m' : ScheduledMessage) => m.sendAfter ≤ m'.sendAfter).map ScheduledMessage.id

def lockDue (now : Int) : List Nat → Nat → Prg (List ScheduledMessage)
  | [], _ => return []
  | _, 0 => return []
  | i :: is, limit + 1 => do
    let locked ← ask (.rowLocked i)
    if locked then lockDue now is (limit + 1)
    else do
      let row ← update .messages i (.claimDue now)
      match row with
      | none => lockDue now is (limit + 1)
      | some row => do
        let rows ← lockDue now is limit
        return row :: rows

def claimDue (now : Int) (limit : Nat) : Prg (List ScheduledMessage) := do
  let due ← select .claimDue (dueAt now)
  lockDue now due limit

def mark (messageId : Nat) (status : Mark) : Prg (Option ScheduledMessage) :=
  update .messages messageId (.mark status)

end Scheduled

namespace Customers

def byId (customerId : Nat) : Prg (Option Customer) :=
  select .customerById fun s => (s.rows .customers customerId).filter fun (c : Customer) => c.deletedAt = none

def upsert (phone name : String) : Prg Customer := do
  let rows ← select .customerByPhone fun s => (s.all .customers).filter fun (c : Customer) =>
    c.phone = phone ∧ c.deletedAt = none
  let existing ← scalarOneOrNone rows
  match existing with
  | none => Waitlist.insert .customers (⟨0, 0, none, phone, name⟩ : Customer)
  | some c =>
    if c.name = name then return c
    else do
      let refreshed ← update .customers c.id (.setName name)
      return refreshed.getD c

end Customers

namespace Bookings

def byId (bookingId : Nat) : Prg (Option Booking) :=
  select .bookingById fun s => (s.rows .bookings bookingId).filter fun (b : Booking) => b.deletedAt = none

def countByStart (from_ upTo : Int) : Prg (Int → Nat) := select .countByStart fun s => fun x =>
  ((s.all .bookings).filter fun (b : Booking) => b.live ∧ b.startsAt = x ∧ from_ ≤ x ∧ x < upTo).length

def activeSeatsAt (startsAt : Int) : Prg (List Nat) := select .activeSeatsAt fun s =>
  ((s.all .bookings).filter fun (b : Booking) => b.live ∧ b.startsAt = startsAt).map Booking.seatIndex

end Bookings

/-! ## The booking path -/

def daySlots (cfg : Config) (day now : Int) : Prg (List Slot) := do
  let rules ← ask .listActiveRules
  let exceptions ← ask (.listActiveExceptions day)
  let booked ← Bookings.countByStart (cfg.zone.midnight day) (cfg.zone.midnight (day + 1))
  return Boutique.materializeSlots cfg.zone rules exceptions booked day day now

def offeredSlot (cfg : Config) (startsAt now : Int) : Prg (Option Slot) := do
  let slots ← daySlots cfg (cfg.zone.dateOf startsAt) now
  return slots.find? fun slot => slot.startsAt = startsAt

/-- **Claim a seat**: lock, grid, lowest free seat, row, reminder. -/
def claimSeat (cfg : Config) (startsAt now : Int) (customerId appointmentTypeId termsVersion manageToken : Nat)
    (due : Bool) : Prg Booking := do
  advisoryLock
  let offered ← offeredSlot cfg startsAt now
  let slot ← orRaise offered .slotUnavailable
  let seats ← Bookings.activeSeatsAt slot.startsAt
  let seatIndex ← orRaise (Boutique.lowestFree slot.capacity seats) .slotUnavailable
  let inserted ← unlessRefused (Waitlist.insert .bookings (⟨0, 0, none, customerId, appointmentTypeId, slot.startsAt,
    seatIndex, if due then .pendingPayment else .confirmed, termsVersion, now, manageTokenHash manageToken⟩ : Booking))
  let booking ← orRaise inserted .slotUnavailable
  match Boutique.reminderSendAfter booking.startsAt now with
  | none => return booking
  | some sendAfter => do
    let _ ← Scheduled.insert (.booking booking.id) sendAfter manageToken
    return booking

/-! ## The cascade -/

structure CascadeResult where
  expired : Nat
  returned : Nat
  offered : Nat

def inQuietHours (cfg : Config) (now : Int) : Bool :=
  let hour := cfg.zone.wallOf now % Boutique.day / (3600 * Boutique.second)
  if cfg.quietStartHour = cfg.quietEndHour then false
  else if cfg.quietStartHour < cfg.quietEndHour then cfg.quietStartHour ≤ hour ∧ hour < cfg.quietEndHour
  else cfg.quietStartHour ≤ hour ∨ hour < cfg.quietEndHour

/-- The earlier of the window's end and the lead before the slot, if it is still to come. -/
def offerExpiry (cfg : Config) (now slotStartsAt : Int) : Option Int :=
  let expiresAt := min (now + cfg.window) (slotStartsAt - cfg.minLead)
  if now < expiresAt then some expiresAt else none

namespace WaitlistCascade

structure Due where
  sent : List Nat
  unsent : List Nat
  undeliverable : List Nat

def splitDue : List WaitlistEntry → Due → Prg Due
  | [], d => return d
  | entry :: rest, d => do
    let message ← Scheduled.latestForEntry entry.id
    if message.any fun m => m.status = .sent then splitDue rest { d with sent := d.sent ++ [entry.id] }
    else do
      let failures ← Scheduled.countFailedForEntry entry.id
      if MAX_OFFER_SEND_FAILURES ≤ failures then
        splitDue rest { d with undeliverable := d.undeliverable ++ [entry.id] }
      else splitDue rest { d with unsent := d.unsent ++ [entry.id] }

def cancelEach : List Nat → Prg Unit
  | [] => return ()
  | entryId :: rest => do
    let _ ← Scheduled.cancelPendingForEntry entryId
    cancelEach rest

/-- **Step 1**: the due offers close, `expired` where the text went out or never will, else back to `waiting`. -/
def expire (now : Int) : Prg CascadeResult := do
  let due ← Entries.dueOffers now
  let d ← splitDue due ⟨[], [], []⟩
  let expired ← Entries.closeOffer (d.sent ++ d.undeliverable) .expired
  let returned ← Entries.closeOffer d.unsent .waiting
  cancelEach (expired ++ returned)
  return ⟨expired.length, returned.length, 0⟩

def offerable (cfg : Config) (now : Int) (held : List Int) (slots : List Slot) : Option (Int × Int) :=
  slots.findSome? fun slot =>
    if slot.capacity - slot.booked ≤ held.count slot.startsAt then none
    else (offerExpiry cfg now slot.startsAt).map fun expiresAt => (slot.startsAt, expiresAt)

/-- One pair: the oldest waiting entry, the earliest free instant, the guarded UPDATE, the queued text. -/
def offerOne (cfg : Config) (now : Int) (pair : Int × Nat) : Prg Bool := do
  let oldest ← Entries.oldestWaiting pair
  match oldest with
  | none => return false
  | some entry => do
    let slots ← daySlots cfg pair.1 now
    let held ← Entries.offeredInstants pair.1
    match offerable cfg now held slots with
    | none => return false
    | some (startsAt, expiresAt) => do
      let token ← ask .mintManageToken
      let moved ← Entries.offer entry.id now startsAt expiresAt (manageTokenHash token)
      if !moved then return false
      else do
        let queued ← unlessRefused (Scheduled.insert (.entry entry.id) now token)
        return queued.isSome

def offerEach (cfg : Config) (now : Int) : List (Int × Nat) → Nat → Prg Nat
  | [], offered => return offered
  | pair :: rest, offered => do
    let made ← offerOne cfg now pair
    offerEach cfg now rest (if made then offered + 1 else offered)

/-- A full page leaves its last pair; a short one has come to the end of the list, and clears the cursor. -/
def nextCursor (pairs : List (Int × Nat)) : Option (Int × Nat) :=
  if pairs.length < ISSUE_BATCH_SIZE then none else pairs.getLast?

/-- **Steps 3 to 6**: the pairs that wait and hold no offer, one at a time, from past the worker's cursor. -/
def issue (cfg : Config) (now : Int) : Prg Nat := do
  let cursor ← ask .issueCursor
  let pairs ← Entries.waitingPairs (cfg.zone.dateOf now) cursor
  ask (.keepCursor (nextCursor pairs))
  offerEach cfg now pairs 0

/-- **One tick**, in one transaction. -/
def run (cfg : Config) : Prg CascadeResult := do
  let now ← Session.now
  tenantSession fun _ => do
    let closed ← expire now
    if inQuietHours cfg now then return closed
    else do
      let offered ← issue cfg now
      return { closed with offered := offered }

end WaitlistCascade

/-! ## The requests -/

structure OfferView where
  status : WaitlistEntryStatus
  startsAt : Option Int
  expiresAt : Option Int

inductive Response
  | ticked (r : CascadeResult)
  | joined (row : WaitlistEntry)
  | entry (row : WaitlistEntry)
  | view (v : OfferView)
  | claimed (booking : Booking)
  | drained

namespace WaitlistOfferService

def resolve (token : Nat) : Prg WaitlistEntry := do
  let found ← Entries.byOfferTokenHash (manageTokenHash token)
  let entry ← orRaise found .offerNotFound
  raiseIf (entry.offerTokenHash ≠ some (manageTokenHash token)) .offerNotFound
  return entry

/-- A deadline that has passed is answered before the cascade has swept it. -/
def view (entry : WaitlistEntry) (now : Int) : OfferView :=
  if entry.status = .offered ∧ entry.offerExpiresAt.any (· ≤ now) then
    ⟨.expired, entry.offerStartsAt, entry.offerExpiresAt⟩
  else ⟨entry.status, entry.offerStartsAt, entry.offerExpiresAt⟩

def claimEntry (entryId : Nat) (now : Int) : Prg Unit := do
  let moved ← Entries.claim entryId now
  if moved then return ()
  else do
    let current ← Entries.byId entryId
    .raise (.offerNotClaimable ((current.map WaitlistEntry.status).getD .expired))

/-- **The claim**: the entry's guarded UPDATE, then the booking path, in one transaction. -/
def claim (cfg : Config) (token : Nat) (name : String) (termsVersion : Nat) : Prg Response := do
  match Boutique.validateBookingRequest name none none none with
  | .error e => .raise (.invalid e)
  | .ok _ => do
    let now ← Session.now
    tenantSession fun _ => do
      let entry ← resolve token
      let currentTerms ← ask .termsCurrent
      raiseIf (currentTerms ≠ termsVersion) .termsStale
      let listed ← ask (.typeListed entry.appointmentTypeId)
      raiseIf (!listed) .offerNotFound
      let startsAt ← orRaise entry.offerStartsAt .offerNotFound
      claimEntry entry.id now
      let _ ← Scheduled.cancelPendingForEntry entry.id
      let due ← ask (.depositDue entry.appointmentTypeId)
      let customer ← Customers.upsert entry.phone (Boutique.strip name)
      let manageToken ← ask .mintManageToken
      let booking ← claimSeat cfg startsAt now customer.id entry.appointmentTypeId termsVersion manageToken due
      return .claimed booking

def decline (token : Nat) : Prg Response := do
  let now ← Session.now
  tenantSession fun _ => do
    let entry ← resolve token
    let cancelled ← Entries.cancel entry.id
    match cancelled with
    | none => return .view (view entry now)
    | some row => do
      let _ ← Scheduled.cancelPendingForEntry entry.id
      return .view (view row now)

end WaitlistOfferService

namespace WaitlistService

def join (cfg : Config) (phone verificationToken : String) (day : Int) (appointmentTypeId : Nat) : Prg Response := do
  let now ← Session.now
  let today := cfg.zone.dateOf now
  raiseIf (!decide (today ≤ day ∧ day ≤ today + SLOT_WINDOW_MAX_DAYS)) .dayOutsideWindow
  let blocked ← ask .isBlocked
  raiseIf blocked .throttled
  tenantSession fun _ => do
    let verified ← ask (.consumeVerification phone verificationToken)
    raiseIf (!verified) .phoneNotVerified
    let listed ← ask (.typeListed appointmentTypeId)
    raiseIf (!listed) .bookingNotFound
    let inserted ← unlessRefused (Entries.insert day appointmentTypeId phone)
    match inserted with
    | some row => return .joined row
    | none => do
      let existing ← Entries.byActiveTuple phone day appointmentTypeId
      let row ← orRaise existing .bookingNotFound
      return .joined row

def cancelEntry (entryId actorId : Nat) : Prg Response :=
  tenantSession fun _ => do
    let cancelled ← Entries.cancel entryId
    match cancelled with
    | none => do
      let existing ← Entries.byId entryId
      let row ← orRaise existing .bookingNotFound
      return .entry row
    | some row => do
      let _ ← Scheduled.cancelPendingForEntry row.id
      let _ ← Waitlist.insert .auditLog (⟨0, 0, actorId, row.id, row.day, row.appointmentTypeId⟩ : AuditLog)
      return .entry row

end WaitlistService

namespace BookingComms

def sendOrFail (row : ScheduledMessage) (phone : Option String) : Prg Unit := do
  match row.manageToken, phone with
  | some token, some phone => do
    let result ← ask (.sendSms phone row.id token)
    match result with
    | .fault => .raise .sendFault
    | .delivered => do
      let _ ← Scheduled.mark row.id .sent
      return ()
    | .refused => do
      let _ ← Scheduled.mark row.id .failed
      return ()
  | _, _ => do
    let _ ← Scheduled.mark row.id .failed
    return ()

/-- A row whose subject no longer justifies the text is cancelled; `false` where no provider is configured. -/
def drainSubject (row : ScheduledMessage) (recipient : Option (Prg (Option String))) : Prg Bool :=
  match recipient with
  | none => do
    let _ ← Scheduled.mark row.id .cancelled
    return true
  | some recipient => do
    let configured ← ask .smsConfigured
    if !configured then return false
    else do
      let phone ← recipient
      sendOrFail row phone
      return true

def drainRow (row : ScheduledMessage) (now : Int) : Prg Bool :=
  match row.subject with
  | .booking bookingId => do
    let booking ← Bookings.byId bookingId
    match booking with
    | none => drainSubject row none
    | some b =>
      if b.status ≠ .confirmed ∨ b.startsAt ≤ now then drainSubject row none
      else drainSubject row (some do
        let customer ← Customers.byId b.customerId
        return customer.map Customer.phone)
  | .entry entryId => do
    let entry ← Entries.byId entryId
    match entry with
    | none => drainSubject row none
    | some w =>
      if w.status ≠ .offered ∨ w.offerExpiresAt.all (· ≤ now) ∨ w.offerStartsAt = none then drainSubject row none
      else drainSubject row (some (return some w.phone))

def drainRows (now : Int) : List ScheduledMessage → Prg Unit
  | [] => return ()
  | row :: rows => do
    let goOn ← drainRow row now
    if goOn then drainRows now rows else return ()

def drainDue : Prg Response := do
  let now ← Session.now
  tenantSession fun _ => do
    let rows ← Scheduled.claimDue now DRAIN_BATCH_SIZE
    drainRows now rows
    return .drained

end BookingComms

inductive Request
  | tick
  | join (phone verificationToken : String) (day : Int) (appointmentTypeId : Nat)
  | cancelEntry (entryId actorId : Nat)
  | decline (token : Nat)
  | claim (token : Nat) (name : String) (termsVersion : Nat)
  | drain

def Request.code (cfg : Config) : Request → Prg Response
  | .tick => do return .ticked (← WaitlistCascade.run cfg)
  | .join phone verificationToken day appointmentTypeId =>
    WaitlistService.join cfg phone verificationToken day appointmentTypeId
  | .cancelEntry entryId actorId => WaitlistService.cancelEntry entryId actorId
  | .decline token => WaitlistOfferService.decline token
  | .claim token name termsVersion => WaitlistOfferService.claim cfg token name termsVersion
  | .drain => BookingComms.drainDue

end Waitlist
