import Boutique.TxnLocked
import Mathlib.Data.List.Sort
/-!
# Inbox — what was sent to whom, and what is read back as hers

A message is logged before the provider is called and marked after it, with the phone it goes to and the booking it is
about; no customer is named.  The bell and the console's log find a customer's messages through the booking, where it points
when they are read, and a phone correction can have moved it.
-/
namespace Inbox

open Txn Session

/-! ## The tables -/

inductive Phone
  | mobile (digits : Nat)
  | erased (customerId : Nat)
deriving DecidableEq

def Phone.isErased : Phone → Bool
  | .mobile _ => false
  | .erased _ => true

inductive BookingStatus
  | pendingPayment | confirmed | cancelled | completed | noShow
deriving DecidableEq

inductive MessageKind
  | otp | confirmation | reminder | ownerCancel | ownerReschedule | paymentReceivedNoSlot
deriving DecidableEq

inductive MessageStatus
  | queued | sent | failed
deriving DecidableEq

structure Customer where
  id : Nat
  createdAt : Int
  deletedAt : Option Int
  phone : Phone
  name : String
  bellSeenAt : Option Int
deriving DecidableEq

structure Booking where
  id : Nat
  createdAt : Int
  deletedAt : Option Int
  customerId : Nat
  startsAt : Int
  status : BookingStatus
deriving DecidableEq

/-- The table has no customer: `recipient` is a ghost, the customer whose row the phone was read from. -/
structure MessageLog where
  id : Nat
  createdAt : Int
  deletedAt : Option Int
  phone : Phone
  kind : MessageKind
  status : MessageStatus
  bookingId : Option Nat
  recipient : Option Nat
deriving DecidableEq

inductive Table
  | customers | bookings | messageLog
deriving DecidableEq

abbrev Row : Table → Type
  | .customers => Customer
  | .bookings => Booking
  | .messageLog => MessageLog

def rowId : (T : Table) → Row T → Nat
  | .customers, (r : Customer) => r.id
  | .bookings, (r : Booking) => r.id
  | .messageLog, (r : MessageLog) => r.id

def stamp : (T : Table) → Nat → Int → Row T → Row T
  | .customers, i, n, (r : Customer) => { r with id := i, createdAt := n }
  | .bookings, i, n, (r : Booking) => { r with id := i, createdAt := n }
  | .messageLog, i, n, (r : MessageLog) => { r with id := i, createdAt := n }

inductive CustomerChange
  | rename (name : String)
  | setPhone (phone : Phone)
  | setBellSeen (at_ : Int)

inductive BookingChange
  | setStatus (to_ : BookingStatus) (allowedFrom : List BookingStatus) (notBefore : Option Int)
  | reschedule (startsAt notBefore : Int)
  | setCustomerId (customerId : Nat) (notBefore : Int)
  | setManageTokenHash (notBefore : Int)

inductive MessageLogChange
  | updateStatus (status : MessageStatus)

abbrev Change : Table → Type
  | .customers => CustomerChange
  | .bookings => BookingChange
  | .messageLog => MessageLogChange

def Customer.live (r : Customer) : Bool := r.deletedAt = none

def Booking.live (r : Booking) : Bool := r.deletedAt = none

def MessageLog.live (r : MessageLog) : Bool := r.deletedAt = none

/-- The WHERE of the correction's writes: confirmed, future and live. -/
def Booking.current (r : Booking) (now : Int) : Bool := r.status = .confirmed ∧ now < r.startsAt ∧ r.live

def CustomerChange.apply (r : Customer) : CustomerChange → Option Customer
  | .rename name => some { r with name }
  | .setPhone phone => if r.live then some { r with phone } else none
  | .setBellSeen at_ => if r.live then some { r with bellSeenAt := some at_ } else none

def BookingChange.apply (r : Booking) : BookingChange → Option Booking
  | .setStatus to_ allowedFrom notBefore =>
    if (r.status ∈ allowedFrom ∧ r.live) ∧ notBefore.all (· < r.startsAt) then some { r with status := to_ }
    else none
  | .reschedule startsAt notBefore => if r.current notBefore then some { r with startsAt } else none
  | .setCustomerId customerId notBefore => if r.current notBefore then some { r with customerId } else none
  | .setManageTokenHash notBefore => if r.current notBefore then some r else none

def MessageLogChange.apply (r : MessageLog) : MessageLogChange → Option MessageLog
  | .updateStatus status => some { r with status }

def applyChange : (T : Table) → Change T → Row T → Option (Row T)
  | .customers, g, (r : Customer) => CustomerChange.apply r g
  | .bookings, g, (r : Booking) => BookingChange.apply r g
  | .messageLog, g, (r : MessageLog) => MessageLogChange.apply r g

def clash : (T : Table) → Row T → Row T → Bool
  | .customers, (r : Customer), (r' : Customer) => r.live ∧ r'.live ∧ r.phone = r'.phone
  | .bookings, (r : Booking), (r' : Booking) =>
    (r.live ∧ r'.live) ∧ (r.status ≠ .cancelled ∧ r'.status ≠ .cancelled) ∧ r.customerId = r'.customerId ∧
      r.startsAt = r'.startsAt
  | .messageLog, _, _ => false

inductive Query
  | customerById | byPhone | bookingById | activeAt | listLiveForCustomer | messageById | listBellForCustomer
  | listForCustomer | countForCustomer
deriving DecidableEq

theorem rowId_applyChange (T : Table) (g : Change T) (r r' : Row T) (h : applyChange T g r = some r') :
    rowId T r' = rowId T r := by
  cases T <;> cases g <;> simp only [applyChange, CustomerChange.apply, BookingChange.apply, MessageLogChange.apply] at h
  all_goals first | (split at h <;> cases h <;> rfl) | (cases h; rfl)

theorem clash_symm (T : Table) (r r' : Row T) : clash T r r' = clash T r' r := by
  rw [Bool.eq_iff_iff]
  cases T with
  | customers =>
    simp only [clash, decide_eq_true_eq]
    constructor <;> rintro ⟨hr, hr', hp⟩ <;> exact ⟨hr', hr, hp.symm⟩
  | bookings =>
    simp only [clash, decide_eq_true_eq]
    constructor <;> rintro ⟨hl, hs, hc, ht⟩ <;> exact ⟨hl.symm, hs.symm, hc.symm, ht.symm⟩
  | messageLog => rfl

abbrev schema : Schema where
  Table := Table
  tables := inferInstance
  Row := Row
  id := rowId
  stamp := stamp
  Change := Change
  apply := applyChange
  Query := Query
  check _ _ := true
  clash := clash
  id_stamp := fun T _ _ _ => by cases T <;> rfl
  id_apply := rowId_applyChange
  clash_symm := clash_symm

/-! ## The world outside -/

inductive Err
  | bookingNotFound | bookingTransitionInvalid | customerAlreadyBooked | customerNotFound | slotUnavailable
  | ownerResendThrottled | smsNotConfigured | smsRecipientErased | smsSend | integrity
deriving DecidableEq

inductive Fact
  | smsConfigured | depositDue | depositOutstanding | linkAtHand

inductive SendResult
  | accepted | refused | notConfigured
deriving DecidableEq

/-- `checks` is every refusal of a request that these tables do not decide. -/
inductive Ask
  | checks
  | holds (fact : Fact)
  | send (logId : Nat) (phone : Phone)

abbrev Ans : Ask → Type
  | .checks => Option Err
  | .holds _ => Bool
  | .send _ _ => SendResult

structure Input where
  refusal : Option Err
  yes : Bool
  result : SendResult

structure Sent where
  logId : Nat
  phone : Phone
deriving DecidableEq

abbrev Store : Type := Tid → List Sent

def serve (t : Tid) : (q : Ask) → Input → Store → Ans q × Store
  | .checks, i, s => (i.refusal, s)
  | .holds _, i, s => (i.yes, s)
  | .send logId phone, i, s =>
    (i.result, if i.result = .accepted then Function.update s t (⟨logId, phone⟩ :: s t) else s)

theorem serve_mine (t u : Tid) (q : Ask) (i : Input) (s : Store) (hu : u ≠ t) : (serve t q i s).2 u = s u := by
  cases q with
  | checks | holds => rfl
  | send logId phone =>
    simp only [serve]
    split
    · exact Function.update_of_ne hu _ _
    · rfl

abbrev outside : Service where
  Ask := Ask
  Ans := Ans
  Input := Input
  Store := Store
  Mine := List Sent
  serve t q i _ s := serve t q i s
  mine t s := s t
  serve_mine t u q i _ s hu := serve_mine t u q i s hu

abbrev Prg (α : Type) : Type := Code schema outside Err α

abbrev ask (q : Ask) : Prg (Ans q) := Session.ask (V := outside) q

abbrev update (refused : Err) (T : Table) (i : Nat) (g : Change T) : Prg (Option (Row T)) :=
  Session.update (S := schema) refused T i g

abbrev insert (T : Table) (r : Row T) : Prg (Row T) := Session.insert (S := schema) Err.integrity T r

def advisoryLock : Prg Unit := .call (.sql .lock) fun _ => .ret ()

def checks : Prg Unit := do
  let refusal ← ask .checks
  match refusal with
  | some e => .raise e
  | none => return ()

/-! ## The repositories -/

namespace Customers

def byId (i : Nat) : Prg (Option Customer) :=
  select .customerById fun s => (s.rows .customers i).filter Customer.live

def byPhone (phone : Phone) : Prg (Option Customer) :=
  select .byPhone fun s => (s.all .customers).find? fun (r : Customer) => r.live ∧ r.phone = phone

/-- Attach-or-insert by phone; a returning customer is renamed. -/
def upsert (phone : Phone) (name : String) : Prg Customer := do
  let existing ← byPhone phone
  match existing with
  | some r => do
    let flushed ← update .integrity .customers r.id (.rename name : CustomerChange)
    return flushed.getD r
  | none => do
    let row : Customer := ⟨0, 0, none, phone, name, none⟩
    insert .customers row

def setPhone (i : Nat) (phone : Phone) : Prg (Option Customer) :=
  update .bookingTransitionInvalid .customers i (.setPhone phone : CustomerChange)

def setBellSeen (i : Nat) (at_ : Int) : Prg Bool := do
  let written ← update .integrity .customers i (.setBellSeen at_ : CustomerChange)
  return written.isSome

end Customers

namespace Bookings

def byId (i : Nat) : Prg (Option Booking) :=
  select .bookingById fun s => (s.rows .bookings i).filter Booking.live

def activeAt (customerId : Nat) (startsAt : Int) : Prg (Option Booking) :=
  select .activeAt fun s => (s.all .bookings).find? fun (r : Booking) =>
    r.customerId = customerId ∧ r.startsAt = startsAt ∧ r.status ≠ .cancelled ∧ r.live

def listLiveForCustomer (customerId : Nat) (after_ : Int) : Prg (List Nat) :=
  select .listLiveForCustomer fun s =>
    matching s .bookings fun (r : Booking) => r.customerId = customerId ∧ r.current after_

def setStatus (i : Nat) (to_ : BookingStatus) (allowedFrom : List BookingStatus) (notBefore : Option Int) :
    Prg (Option Booking) :=
  update .integrity .bookings i (.setStatus to_ allowedFrom notBefore : BookingChange)

end Bookings

def SMS_LOG_LIMIT : Nat := 50

def BELL_LIMIT : Nat := 20

def newer (m m' : MessageLog) : Bool := m'.createdAt < m.createdAt ∨ (m.createdAt = m'.createdAt ∧ m'.id ≤ m.id)

/-- `_customer_log_where`: by the booking, or by the phone where there is none. -/
def inCustomerLog (rows : Rows schema) (customerId : Nat) (phone : Phone) (m : MessageLog) : Bool :=
  m.live && match m.bookingId with
    | some b => (rows .bookings b).any fun (r : Booking) => r.customerId = customerId ∧ r.live
    | none => m.phone = phone

def bellBooking (rows : Rows schema) (customerId : Nat) (m : MessageLog) : Option Booking :=
  if m.live ∧ m.kind ≠ .otp ∧ m.status = .sent then
    m.bookingId.bind fun b => (rows .bookings b).filter fun (r : Booking) => r.customerId = customerId ∧ r.live
  else none

structure PortalBellItem where
  id : Nat
  kind : MessageKind
  createdAt : Int
  bookingId : Nat
  startsAt : Int
deriving DecidableEq

structure SmsLogRow where
  id : Nat
  createdAt : Int
  kind : MessageKind
  status : MessageStatus
deriving DecidableEq

def MessageLog.item (m : MessageLog) (b : Booking) : PortalBellItem := ⟨m.id, m.kind, m.createdAt, b.id, b.startsAt⟩

def MessageLog.row (m : MessageLog) : SmsLogRow := ⟨m.id, m.createdAt, m.kind, m.status⟩

def bellRows (s : Snapshot schema) (customerId : Nat) : List PortalBellItem :=
  (((s.all .messageLog).insertionSort fun m m' => newer m m' = true).filterMap fun (m : MessageLog) =>
    (bellBooking s.rows customerId m).map m.item).take BELL_LIMIT

def customerLog (s : Snapshot schema) (customerId : Nat) (phone : Phone) : List MessageLog :=
  ((s.all .messageLog).filter (inCustomerLog s.rows customerId phone)).insertionSort fun m m' => newer m m' = true

namespace MessageLogs

def insert (phone : Phone) (kind : MessageKind) (bookingId recipient : Option Nat) : Prg MessageLog :=
  let row : MessageLog := ⟨0, 0, none, phone, kind, .queued, bookingId, recipient⟩
  Inbox.insert .messageLog row

def updateStatus (logId : Nat) (status : MessageStatus) : Prg (Option MessageLog) := do
  let found ← select .messageById fun s => (s.rows .messageLog logId).filter MessageLog.live
  match found with
  | none => return none
  | some (r : MessageLog) => update .integrity .messageLog r.id (.updateStatus status : MessageLogChange)

def listBellForCustomer (customerId : Nat) : Prg (List PortalBellItem) :=
  select .listBellForCustomer fun s => bellRows s customerId

def listForCustomer (customerId : Nat) (phone : Phone) : Prg (List SmsLogRow) :=
  select .listForCustomer fun s => ((customerLog s customerId phone).take SMS_LOG_LIMIT).map MessageLog.row

def countForCustomer (customerId : Nat) (phone : Phone) : Prg Nat :=
  select .countForCustomer fun s => (customerLog s customerId phone).length

end MessageLogs

/-! ## The sends -/

def mark (logId : Nat) (status : MessageStatus) : Prg (Option MessageLog) :=
  tenantSession fun _ => MessageLogs.updateStatus logId status

/-- **`send_sms`**: the evidence row, the provider, the mark. -/
def sendSms (phone : Phone) (kind : MessageKind) (bookingId recipient : Option Nat) : Prg Unit := do
  let configured ← ask (.holds .smsConfigured)
  raiseIf (!configured) .smsNotConfigured
  raiseIf phone.isErased .smsRecipientErased
  let row ← tenantSession fun _ => MessageLogs.insert phone kind bookingId recipient
  let result ← ask (.send row.id phone)
  match result with
  | .accepted => do
    let _ ← mark row.id .sent
    return ()
  | .refused => do
    let _ ← mark row.id .failed
    .raise .smsSend
  | .notConfigured => do
    let _ ← mark row.id .failed
    .raise .smsNotConfigured

def deliver (phone : Phone) (kind : MessageKind) (booking : Booking) : Prg Bool := do
  let outcome ← (sendSms phone kind (some booking.id) (some booking.customerId)).attempt
  match outcome with
  | .ok _ => return true
  | .error e => if e ∈ [Err.smsSend, .smsNotConfigured, .smsRecipientErased] then return false else .raise e

def customerPhone (customerId : Nat) : Prg (Option Phone) := do
  let customer ← tenantSession fun _ => Customers.byId customerId
  return customer.map Customer.phone

/-- **The sends after a commit**: a provider, her phone as it is stored now, and where the text carries a link, a link. -/
def notify (kind : MessageKind) (linked : Bool) (booking : Booking) : Prg Bool := do
  let configured ← ask (.holds .smsConfigured)
  if configured then do
    let phone ← customerPhone booking.customerId
    match phone with
    | none => return false
    | some phone => do
      let atHand ← ask (.holds .linkAtHand)
      if linked && !atHand then return false else deliver phone kind booking
  else return false

def sendConfirmation (booking : Booking) : Prg Bool := notify .confirmation false booking

def notifyOwnerCancel (booking : Booking) : Prg Bool := notify .ownerCancel false booking

def notifyOwnerReschedule (booking : Booking) : Prg Bool := notify .ownerReschedule true booking

def notifyPaymentReceivedNoSlot (booking : Booking) : Prg Bool := notify .paymentReceivedNoSlot false booking

/-! ## The services -/

inductive Answer
  | done
  | booking (booking : Booking)
  | bell (unread : Nat) (items : List PortalBellItem)
  | log (messages : List SmsLogRow) (total : Nat)

structure BookingClaim where
  booking : Booking
  created : Bool
  depositDue : Bool

/-- The booking that a returning customer already has at the instant. -/
def replay (existing : Option Customer) (startsAt : Int) : Prg (Option Booking) :=
  match existing with
  | none => return none
  | some r => Bookings.activeAt r.id startsAt

def createBookingIn (phone : Phone) (name : String) (startsAt : Int) : Prg BookingClaim := do
  checks
  advisoryLock
  let existing ← Customers.byPhone phone
  let replayed ← replay existing startsAt
  let due ← ask (.holds .depositDue)
  match replayed with
  | some b => return ⟨b, false, due⟩
  | none => do
    checks
    let customer ← Customers.upsert phone name
    checks
    let row : Booking := ⟨0, 0, none, customer.id, startsAt, if due then .pendingPayment else .confirmed⟩
    let booking ← insert .bookings row
    return ⟨booking, true, due⟩

/-- A gateway out of reach leaves the booking confirmed without one. -/
def openDeposit (claim : BookingClaim) : Prg Bool := do
  if claim.depositDue then do
    let outstanding ← ask (.holds .depositOutstanding)
    if outstanding then return true
    else do
      let _ ← tenantSession fun _ => Bookings.setStatus claim.booking.id .confirmed [.pendingPayment] none
      return false
  else return false

def createBooking (phone : Phone) (name : String) (startsAt : Int) : Prg Answer := do
  let claim ← tenantSession fun _ => createBookingIn phone name startsAt
  let outstanding ← openDeposit claim
  if claim.created && !outstanding then do
    let _ ← sendConfirmation claim.booking
    return .booking claim.booking
  else return .booking claim.booking

def cancelIn (bookingId : Nat) (now : Int) : Prg (Booking × Bool) := do
  let found ← Bookings.byId bookingId
  let booking ← orRaise found .bookingNotFound
  if booking.status = .cancelled then return (booking, false)
  else do
    raiseIf (booking.status ≠ .confirmed || booking.startsAt ≤ now) .bookingTransitionInvalid
    let written ← Bookings.setStatus bookingId .cancelled [.confirmed] (some now)
    let updated ← orRaise written .bookingTransitionInvalid
    return (updated, true)

def cancelBooking (bookingId : Nat) : Prg Answer := do
  let now ← Session.now
  let result ← tenantSession fun _ => cancelIn bookingId now
  if result.2 then do
    let _ ← notifyOwnerCancel result.1
    return .booking result.1
  else return .booking result.1

/-- A cancelled booking whose deposit is paid is confirmed again. -/
def restore (booking : Booking) (now : Int) : Prg Unit :=
  if booking.status = .cancelled then do
    let restored ← update .slotUnavailable .bookings booking.id (.setStatus .confirmed [.cancelled] (some now) : BookingChange)
    raiseIf restored.isNone .bookingTransitionInvalid
  else return ()

def rescheduleIn (bookingId : Nat) (startsAt now : Int) : Prg (Booking × Bool) := do
  advisoryLock
  let found ← Bookings.byId bookingId
  let booking ← orRaise found .bookingNotFound
  raiseIf (booking.status ≠ .confirmed && booking.status ≠ .cancelled) .bookingTransitionInvalid
  raiseIf (booking.startsAt ≤ now) .bookingTransitionInvalid
  checks
  if startsAt = booking.startsAt ∧ booking.status = .confirmed then return (booking, false)
  else do
    checks
    let collision ← Bookings.activeAt booking.customerId startsAt
    raiseIf collision.isSome .customerAlreadyBooked
    restore booking now
    let written ← update .slotUnavailable .bookings bookingId (.reschedule startsAt now : BookingChange)
    let updated ← orRaise written .bookingTransitionInvalid
    return (updated, true)

def rescheduleBooking (bookingId : Nat) (startsAt : Int) : Prg Answer := do
  checks
  let now ← Session.now
  let result ← tenantSession fun _ => rescheduleIn bookingId startsAt now
  if result.2 then do
    let _ ← notifyOwnerReschedule result.1
    return .booking result.1
  else return .booking result.1

def settleIn (bookingId : Nat) : Prg Booking := do
  let found ← Bookings.byId bookingId
  let _ ← orRaise found .bookingNotFound
  let written ← Bookings.setStatus bookingId .confirmed [.pendingPayment] none
  orRaise written .bookingTransitionInvalid

def settleDeposit (bookingId : Nat) : Prg Answer := do
  let booking ← tenantSession fun _ => settleIn bookingId
  let _ ← sendConfirmation booking
  return .booking booking

def loadBooking (bookingId : Nat) : Prg Booking := do
  let found ← Bookings.byId bookingId
  orRaise found .bookingNotFound

def settleWithoutSlot (bookingId : Nat) : Prg Answer := do
  let booking ← tenantSession fun _ => loadBooking bookingId
  checks
  let _ ← notifyPaymentReceivedNoSlot booking
  return .booking booking

def drainReminder (bookingId : Nat) : Prg Answer := do
  let now ← Session.now
  let found ← tenantSession fun _ => Bookings.byId bookingId
  match found with
  | none => return .done
  | some booking =>
    if booking.status ≠ .confirmed ∨ booking.startsAt ≤ now then return .done
    else do
      let _ ← notify .reminder true booking
      return .done

def sendOtp (phone : Phone) : Prg Answer := do
  checks
  sendSms phone .otp none none
  return .done

def guardLive (bookingId : Nat) (now : Int) : Prg Booking := do
  let found ← Bookings.byId bookingId
  let booking ← orRaise found .bookingNotFound
  raiseIf (booking.status ≠ .confirmed) .bookingTransitionInvalid
  raiseIf (booking.startsAt ≤ now) .bookingTransitionInvalid
  return booking

def rotateLinks (now : Int) : List Nat → Prg Unit
  | [] => return ()
  | i :: is => do
    let rotated ← update .integrity .bookings i (.setManageTokenHash now : BookingChange)
    raiseIf rotated.isNone .bookingTransitionInvalid
    rotateLinks now is

def repointTo (bookingId : Nat) (booking : Booking) (target : Customer) (now : Int) : Prg Booking := do
  let collision ← Bookings.activeAt target.id booking.startsAt
  raiseIf collision.isSome .customerAlreadyBooked
  let moved ← update .customerAlreadyBooked .bookings bookingId (.setCustomerId target.id now : BookingChange)
  raiseIf moved.isNone .bookingTransitionInvalid
  rotateLinks now [booking.id]
  return { booking with customerId := target.id }

def correctDigits (booking : Booking) (phone : Phone) (now : Int) : Prg Booking := do
  let written ← Customers.setPhone booking.customerId phone
  raiseIf written.isNone .bookingNotFound
  let rotate ← Bookings.listLiveForCustomer booking.customerId now
  rotateLinks now rotate
  return booking

def correctPhoneIn (bookingId : Nat) (phone : Phone) (now : Int) : Prg Booking := do
  let booking ← guardLive bookingId now
  let found ← Customers.byPhone phone
  match found with
  | none => correctDigits booking phone now
  | some target =>
    if target.id ≠ booking.customerId then repointTo bookingId booking target now else correctDigits booking phone now

/-- **A phone correction**, and the confirmation that follows it. -/
def correctPhone (bookingId : Nat) (phone : Phone) : Prg Answer := do
  checks
  let now ← Session.now
  let booking ← tenantSession fun _ => correctPhoneIn bookingId phone now
  let _ ← sendConfirmation booking
  return .booking booking

def resendLinkIn (bookingId : Nat) (now : Int) : Prg Booking := do
  let booking ← guardLive bookingId now
  rotateLinks now [booking.id]
  return booking

def resendLink (bookingId : Nat) : Prg Answer := do
  checks
  let now ← Session.now
  let booking ← tenantSession fun _ => resendLinkIn bookingId now
  let _ ← sendConfirmation booking
  return .booking booking

def bellIn (customerId : Nat) : Prg Answer := do
  let items ← MessageLogs.listBellForCustomer customerId
  let row ← Customers.byId customerId
  let unread := match row.bind Customer.bellSeenAt with
    | none => items.length
    | some seenAt => items.countP fun item => seenAt < item.createdAt
  return .bell unread items

/-- **The portal's bell.** -/
def bell (customerId : Nat) : Prg Answer := tenantSession fun _ => bellIn customerId

def markBellSeen (customerId : Nat) : Prg Answer := do
  let now ← Session.now
  let _ ← tenantSession fun _ => Customers.setBellSeen customerId now
  return .done

def customerDetailIn (customerId : Nat) : Prg Answer := do
  let found ← Customers.byId customerId
  let customer ← orRaise found .customerNotFound
  let messages ← MessageLogs.listForCustomer customer.id customer.phone
  let total ← MessageLogs.countForCustomer customer.id customer.phone
  return .log messages total

/-- **The console's log of a customer.** -/
def customerDetail (customerId : Nat) : Prg Answer := tenantSession fun _ => customerDetailIn customerId

/-! ## The requests -/

inductive Request
  | createBooking (phone : Phone) (name : String) (startsAt : Int)
  | cancelBooking (bookingId : Nat)
  | rescheduleBooking (bookingId : Nat) (startsAt : Int)
  | settleDeposit (bookingId : Nat)
  | settleWithoutSlot (bookingId : Nat)
  | drainReminder (bookingId : Nat)
  | sendOtp (phone : Phone)
  | correctPhone (bookingId : Nat) (phone : Phone)
  | resendLink (bookingId : Nat)
  | bell (customerId : Nat)
  | markBellSeen (customerId : Nat)
  | customerDetail (customerId : Nat)
deriving DecidableEq

def Request.code : Request → Prg Answer
  | .createBooking phone name startsAt => Inbox.createBooking phone name startsAt
  | .cancelBooking bookingId => Inbox.cancelBooking bookingId
  | .rescheduleBooking bookingId startsAt => Inbox.rescheduleBooking bookingId startsAt
  | .settleDeposit bookingId => Inbox.settleDeposit bookingId
  | .settleWithoutSlot bookingId => Inbox.settleWithoutSlot bookingId
  | .drainReminder bookingId => Inbox.drainReminder bookingId
  | .sendOtp phone => Inbox.sendOtp phone
  | .correctPhone bookingId phone => Inbox.correctPhone bookingId phone
  | .resendLink bookingId => Inbox.resendLink bookingId
  | .bell customerId => Inbox.bell customerId
  | .markBellSeen customerId => Inbox.markBellSeen customerId
  | .customerDetail customerId => Inbox.customerDetail customerId

abbrev mailing (reqs : Tid → Request) (rows : Rows schema) (next : Nat) (clock : Int) :
    Conf (machine schema outside Err) Answer :=
  staged (V := outside) (fun _ => []) (fun t => (reqs t).code) rows next clock

end Inbox
