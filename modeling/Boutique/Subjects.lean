import Boutique.Retention
import Boutique.TxnStretch
/-!
# Subjects — the customers of a boutique, and who writes about them

A customer's row is written by the bookings she makes, the cards the boutique keeps, her consents, her erasure and the
retention run; bookings, alteration tickets and portal sessions point at her.  Only the storefront's booking and the erasure
read her under the boutique's lock: the waitlist claim takes it after it has found her, and the rest never do.
-/
namespace Subjects

open Txn Session
open Retention (ERASED_NAME erasedPhone CHUNK_SIZE MAX_CHUNKS)

/-! ## The tables -/

inductive MarketingConsentSource
  | bookingForm
deriving DecidableEq

structure Customer where
  id : Nat
  createdAt : Int
  deletedAt : Option Int
  phone : String
  name : String
  notes : Option String
  tags : List String
  marketingConsentAt : Option Int
  marketingConsentSource : Option MarketingConsentSource
  marketingConsentWithdrawnAt : Option Int
  erasedAt : Option Int
deriving DecidableEq

inductive BookingStatus
  | pendingPayment | confirmed | cancelled | noShow | completed
deriving DecidableEq

structure Booking where
  id : Nat
  createdAt : Int
  deletedAt : Option Int
  customerId : Nat
  startsAt : Int
  seatIndex : Nat
  status : BookingStatus
  notes : Option String
  manageTokenHash : Option String
deriving DecidableEq

structure AlterationTicket where
  id : Nat
  createdAt : Int
  deletedAt : Option Int
  customerId : Nat
  dueDate : Int
  effortMinutes : Nat
  notes : Option String
  intakeAt : Option Int
  deliveredAt : Option Int
deriving DecidableEq

structure CustomerSession where
  id : Nat
  createdAt : Int
  deletedAt : Option Int
  customerId : Nat
  tokenHash : String
  expiresAt : Int
deriving DecidableEq

inductive AuditAction
  | customerUpdated (fields : List String)
  | atelierCustomerRenamed
  | atelierTicketCreated (customerId : Nat) (dueDate : Int) (effortMinutes : Nat)
  | bookingWalkInCreated (customerId appointmentTypeId : Nat)
  | bookingPhoneCorrected (oldCustomerId newCustomerId : Nat) (repointed : Bool) (rotatedBookingIds : List Nat)
  | privacySubjectErased (reason : Option String) (bookingsScrubbed : Nat) (alreadyErased : Bool)
  | privacyMarketingWithdrawn
  | retentionCustomers (rows : Nat)
deriving DecidableEq

/-- `entity` is the key of the customer, the booking or the ticket; a retention run has none, and no actor. -/
structure AuditLog where
  id : Nat
  createdAt : Int
  actorId : Option Nat
  entity : Option Nat
  action : AuditAction
deriving DecidableEq

inductive Table
  | customers | bookings | tickets | sessions | auditLog
deriving DecidableEq

abbrev Row : Table → Type
  | .customers => Customer
  | .bookings => Booking
  | .tickets => AlterationTicket
  | .sessions => CustomerSession
  | .auditLog => AuditLog

def rowId : (T : Table) → Row T → Nat
  | .customers, (r : Customer) => r.id
  | .bookings, (r : Booking) => r.id
  | .tickets, (r : AlterationTicket) => r.id
  | .sessions, (r : CustomerSession) => r.id
  | .auditLog, (r : AuditLog) => r.id

def stamp : (T : Table) → Nat → Int → Row T → Row T
  | .customers, i, n, (r : Customer) => { r with id := i, createdAt := n }
  | .bookings, i, n, (r : Booking) => { r with id := i, createdAt := n }
  | .tickets, i, n, (r : AlterationTicket) => { r with id := i, createdAt := n }
  | .sessions, i, n, (r : CustomerSession) => { r with id := i, createdAt := n }
  | .auditLog, i, n, (r : AuditLog) => { r with id := i, createdAt := n }

/-! ## The UPDATEs -/

inductive CustomerChange
  | rename (name : String)
  | setPhone (phone : String)
  | setNotesAndTags (notes : Option String) (tags : Option (List String))
  | recordMarketingConsent (now : Int)
  | withdrawMarketingConsent (now : Int)
  | erase (now : Int)
  | scrub (now : Int)

inductive BookingChange
  | scrub
  | setCustomerId (customerId : Nat) (notBefore : Int)
  | setManageTokenHash (tokenHash : String) (notBefore : Int)

inductive CustomerSessionChange
  | revoke (now : Int)

abbrev Change : Table → Type
  | .customers => CustomerChange
  | .bookings => BookingChange
  | .sessions => CustomerSessionChange
  | .tickets | .auditLog => Empty

def Customer.live (r : Customer) : Bool := r.deletedAt = none

def withdrawCase (r : Customer) (now : Int) : Option Int :=
  if r.marketingConsentAt ≠ none then some now else r.marketingConsentWithdrawnAt

def CustomerChange.apply (r : Customer) : CustomerChange → Option Customer
  -- an ORM flush: by primary key, whatever has become of the row
  | .rename name => some { r with name := name }
  | .setPhone phone => if r.live then some { r with phone := phone } else none
  | .setNotesAndTags notes tags =>
    if r.live then some { r with notes := notes.orElse fun _ => r.notes, tags := tags.getD r.tags } else none
  | .recordMarketingConsent now =>
    if r.live ∧ r.marketingConsentAt = none then
      some { r with marketingConsentAt := some now, marketingConsentSource := some .bookingForm }
    else none
  | .withdrawMarketingConsent now =>
    if r.live ∧ r.marketingConsentAt ≠ none ∧ r.marketingConsentWithdrawnAt = none then
      some { r with marketingConsentWithdrawnAt := some now }
    else none
  | .erase now =>
    some { r with
      name := ERASED_NAME
      phone := erasedPhone r.id
      notes := none
      tags := []
      erasedAt := some now
      marketingConsentWithdrawnAt := withdrawCase r now }
  | .scrub now =>
    some { r with name := ERASED_NAME, phone := erasedPhone r.id, notes := none, tags := [], erasedAt := some now }

def BookingChange.apply (r : Booking) : BookingChange → Option Booking
  | .scrub => some { r with notes := none, manageTokenHash := none }
  | .setCustomerId customerId notBefore =>
    if r.status = .confirmed ∧ notBefore < r.startsAt ∧ r.deletedAt = none then some { r with customerId := customerId }
    else none
  | .setManageTokenHash tokenHash notBefore =>
    if r.status = .confirmed ∧ notBefore < r.startsAt ∧ r.deletedAt = none then
      some { r with manageTokenHash := some tokenHash }
    else none

def CustomerSessionChange.apply (r : CustomerSession) : CustomerSessionChange → Option CustomerSession
  | .revoke now => if r.deletedAt = none then some { r with deletedAt := some now } else none

def applyChange : (T : Table) → Change T → Row T → Option (Row T)
  | .customers, g, (r : Customer) => CustomerChange.apply r g
  | .bookings, g, (r : Booking) => BookingChange.apply r g
  | .sessions, g, (r : CustomerSession) => CustomerSessionChange.apply r g

def Booking.active (r : Booking) : Bool := r.status ≠ .cancelled ∧ r.deletedAt = none

def clash : (T : Table) → Row T → Row T → Bool
  | .customers, (r : Customer), (r' : Customer) => r.live && r'.live && r.phone = r'.phone
  | .bookings, (r : Booking), (r' : Booking) =>
    r.active && r'.active && r.startsAt = r'.startsAt && (r.seatIndex = r'.seatIndex || r.customerId = r'.customerId)
  | _, _, _ => false

def Customer.consented (r : Customer) : Bool := r.marketingConsentWithdrawnAt = none || r.marketingConsentAt ≠ none

def check : (T : Table) → Row T → Bool
  | .customers, (r : Customer) => r.consented
  | _, _ => true

inductive Query
  | byPhone | known | byId | refreshed | activeAt | bookingById | liveForCustomer | futureBookings | bookingIds
  | liveSessions | byTokenHash | orphans
deriving DecidableEq

theorem rowId_applyChange (T : Table) (g : Change T) (r r' : Row T) (h : applyChange T g r = some r') :
    rowId T r' = rowId T r := by
  cases T <;> cases g <;> simp only [applyChange, CustomerChange.apply, BookingChange.apply,
    CustomerSessionChange.apply] at h
  all_goals first | (split at h <;> cases h <;> rfl) | (cases h; rfl)

theorem clash_symm (T : Table) (r r' : Row T) : clash T r r' = clash T r' r := by
  rw [Bool.eq_iff_iff]
  cases T <;> simp only [clash, Bool.and_eq_true, Bool.or_eq_true, decide_eq_true_eq]
  · constructor <;> rintro ⟨⟨hr, hr'⟩, he⟩ <;> exact ⟨⟨hr', hr⟩, he.symm⟩
  · constructor <;> rintro ⟨⟨⟨hr, hr'⟩, hs⟩, he⟩ <;> exact ⟨⟨⟨hr', hr⟩, hs.symm⟩, he.imp Eq.symm Eq.symm⟩

abbrev schema : Schema where
  Table := Table
  tables := inferInstance
  Row := Row
  id := rowId
  stamp := stamp
  Change := Change
  apply := applyChange
  Query := Query
  check := check
  clash := clash
  id_stamp := fun T _ _ _ => by cases T <;> rfl
  id_apply := rowId_applyChange
  clash_symm := clash_symm

/-! ## The world outside -/

inductive Err
  | invalid (message : String)
  | throttled
  | phoneNotVerified
  | notFound
  | termsStale
  | dressUnavailable
  | slotUnavailable
  | offerNotClaimable
  | portalNoBookings
  | bookingTransitionInvalid
  | customerAlreadyBooked
  | subjectNotFound
  | subjectHasActiveBooking
  | staleData
  | integrity
deriving DecidableEq

/-- What the services ask: their budgets and their validation, the code, the grid, the offer, and fresh tokens. -/
inductive Ask
  | isBlocked
  | recordFailure
  | consumeVerification
  | refusal
  | depositDue
  | seatAt (startsAt : Int)
  | claimEntry
  | mintToken

abbrev Ans : Ask → Type
  | .isBlocked | .consumeVerification | .depositDue => Bool
  | .recordFailure => Unit
  | .refusal => Option Err
  | .seatAt _ => Option Nat
  | .claimEntry => Except Err (String × Int)
  | .mintToken => String

structure Input where
  yes : Bool
  err : Option Err
  seat : Option Nat
  phone : String
  startsAt : Int
  token : String

def serve : (q : Ask) → Input → Ans q
  | .isBlocked, i | .consumeVerification, i | .depositDue, i => i.yes
  | .recordFailure, _ => ()
  | .refusal, i => i.err
  | .seatAt _, i => i.seat
  | .claimEntry, i =>
    match i.err with
    | some e => .error e
    | none => .ok (i.phone, i.startsAt)
  | .mintToken, i => i.token

abbrev outside : Service where
  Ask := Ask
  Ans := Ans
  Input := Input
  Store := Unit
  Mine := Unit
  serve _ q i _ s := (serve q i, s)
  mine _ _ := ()
  serve_mine _ _ _ _ _ _ _ := rfl

abbrev Prg (α : Type) : Type := Code schema outside Err α

abbrev ask (q : Ask) : Prg (Ans q) := Session.ask (V := outside) q

abbrev update (T : Table) (i : Nat) (g : Change T) : Prg (Option (Row T)) :=
  Session.update (S := schema) Err.integrity T i g

abbrev insert (T : Table) (r : Row T) : Prg (Row T) := Session.insert (S := schema) Err.integrity T r

abbrev updateEach (T : Table) (g : Change T) (is : List Nat) : Prg (List (Row T)) :=
  Session.updateEach (S := schema) Err.integrity T g is

def tenantLock : Prg Unit := .call (.sql .lock) fun _ => .ret ()

def passes : Prg Unit := do
  let refusal ← ask .refusal
  match refusal with
  | some e => .raise e
  | none => return ()

def record (actorId entity : Option Nat) (action : AuditAction) : Prg Unit := do
  let row : AuditLog := ⟨0, 0, actorId, entity, action⟩
  let _ ← insert .auditLog row
  return ()

/-! ## The repositories -/

def byPhone (phone : String) : Prg (Option Customer) :=
  select .byPhone fun s => (s.all .customers).find? fun (c : Customer) => c.phone = phone ∧ c.live

/-- `by_phone`, where the intake itself makes it: above its savepoint, and once it has lost a race. -/
def known (phone : String) : Prg (Option Customer) :=
  select .known fun s => (s.all .customers).find? fun (c : Customer) => c.phone = phone ∧ c.live

def byId (customerId : Nat) : Prg (Option Customer) :=
  select .byId fun s => (s.rows .customers customerId).filter Customer.live

def newCustomer (phone name : String) : Customer := ⟨0, 0, none, phone, name, none, [], none, none, none, none⟩

/-- `CustomersRepository.upsert`.  What the session has loaded of her before is what a new name is compared with. -/
def upsert (loaded : Option Customer) (phone name : String) : Prg Customer := do
  let existing ← byPhone phone
  match existing with
  | some row =>
    let known := (loaded.filter fun c => c.id = row.id).getD row
    if known.name ≠ name then do
      let flushed ← update .customers row.id (.rename name)
      orRaise flushed .staleData
    else do
      let refreshed ← select .refreshed fun s => s.rows .customers row.id
      orRaise refreshed .staleData
  | none => insert .customers (newCustomer phone name)

def activeAt (customerId : Nat) (startsAt : Int) : Prg (Option Booking) :=
  select .activeAt fun s =>
    (s.all .bookings).find? fun (b : Booking) => b.customerId = customerId ∧ b.startsAt = startsAt ∧ b.active

/-- The lock once more, the grid and its lowest free seat, the row. -/
def claimSeat (customerId : Nat) (startsAt : Int) (notes : Option String) (due : Bool) : Prg Booking := do
  tenantLock
  let seat ← ask (.seatAt startsAt)
  let seatIndex ← orRaise seat .slotUnavailable
  let token ← ask .mintToken
  let status : BookingStatus := if due then .pendingPayment else .confirmed
  let row : Booking := ⟨0, 0, none, customerId, startsAt, seatIndex, status, notes, some token⟩
  Session.insert (S := schema) Err.slotUnavailable Table.bookings row

/-! ## The requests -/

/-- A phone as `normalize_israeli_mobile` answers it: a plus, and digits. -/
structure Mobile where
  e164 : String
  plus : e164.toList.head? = some '+'

structure CreateBookingRequest where
  phone : Mobile
  name : String
  startsAt : Int
  notes : Option String
  marketingConsent : Bool

structure CreateTicketRequest where
  phone : Mobile
  name : String
  dueDate : Int
  effortMinutes : Nat
  notes : Option String

inductive Reply
  | booked (booking : Booking) (created : Bool)
  | ticket (ticket : AlterationTicket) (customerName : String)
  | detail (customer : Customer)
  | session (customerName token : String)
  | resolved (context : Option (Nat × String × String))
  | withdrawn (changed : Bool)
  | erased (alreadyErased : Bool) (bookingsScrubbed : Nat)
  | swept (rows : Nat)
  | done
deriving DecidableEq

def replayed (existing : Option Customer) (startsAt : Int) : Prg (Option Booking) :=
  match existing with
  | some customer => activeAt customer.id startsAt
  | none => return none

/-- A retry of the same phone and instant is answered with the booking it made. -/
def createBooking (q : CreateBookingRequest) : Prg Reply := do
  let blocked ← ask .isBlocked
  raiseIf blocked .throttled
  tenantSession fun txNow => do
    let verified ← ask .consumeVerification
    raiseIf (!verified) .phoneNotVerified
    ask .recordFailure
    passes
    let due ← ask .depositDue
    tenantLock
    let existing ← byPhone q.phone.e164
    let replay ← replayed existing q.startsAt
    match existing, replay with
    | some customer, some booking => do
      if q.marketingConsent then do
        let _ ← update .customers customer.id (.recordMarketingConsent txNow)
        return .booked booking false
      else return .booked booking false
    | _, _ => do
      -- the gown may be away on that day
      passes
      let customer ← upsert existing q.phone.e164 q.name
      if q.marketingConsent then do
        let _ ← update .customers customer.id (.recordMarketingConsent txNow)
        let booking ← claimSeat customer.id q.startsAt q.notes due
        return .booked booking true
      else do
        let booking ← claimSeat customer.id q.startsAt q.notes due
        return .booked booking true

/-- The customer is found before the lock is taken. -/
def claim (name : String) : Prg Reply :=
  tenantSession fun _ => do
    let entry ← ask .claimEntry
    match entry with
    | .error e => .raise e
    | .ok (phone, startsAt) => do
      let due ← ask .depositDue
      let customer ← upsert none phone name
      let booking ← claimSeat customer.id startsAt none due
      return .booked booking true

/-- The INSERT stands in a savepoint, and a lost race attaches to the winner's row. -/
def resolveCustomer (phone name : String) : Prg (Customer × Bool) := do
  let existing ← known phone
  let renamed := existing.any fun c => c.name ≠ name
  let saved ← (upsert existing phone name).attempt
  match saved with
  | .ok customer => return (customer, renamed)
  | .error .integrity => do
    let winner ← known phone
    let customer ← orRaise winner .integrity
    return (customer, false)
  | .error e => .raise e

def recordRename (renamed : Bool) (actorId customerId : Nat) : Prg Unit :=
  if renamed then record (some actorId) (some customerId) .atelierCustomerRenamed else return ()

def createTicket (q : CreateTicketRequest) (actorId : Nat) : Prg Reply := do
  passes
  tenantSession fun _ => do
    passes
    let (customer, renamed) ← resolveCustomer q.phone.e164 q.name
    recordRename renamed actorId customer.id
    let at_ ← now
    let row : AlterationTicket := ⟨0, 0, none, customer.id, q.dueDate, q.effortMinutes, q.notes, some at_, none⟩
    let ticket ← insert .tickets row
    record (some actorId) (some (AlterationTicket.id ticket)) (.atelierTicketCreated customer.id q.dueDate q.effortMinutes)
    return .ticket ticket customer.name

def WALK_IN_SEAT_INDEX : Nat := 1

def createWalkIn (customerId appointmentTypeId actorId : Nat) : Prg Reply := do
  let at_ ← now
  tenantSession fun _ => do
    let found ← byId customerId
    let _ ← orRaise (found.filter fun c => c.erasedAt = none) .notFound
    passes
    let row : Booking := ⟨0, 0, none, customerId, at_, WALK_IN_SEAT_INDEX, .confirmed, none, none⟩
    let booking ← Session.insert (S := schema) Err.slotUnavailable Table.bookings row
    record (some actorId) (some (Booking.id booking)) (.bookingWalkInCreated customerId appointmentTypeId)
    return .booked booking true

def rotateLinks (at_ : Int) : List Nat → Prg Unit
  | [] => return ()
  | bookingId :: rest => do
    let token ← ask .mintToken
    let rotated ← update .bookings bookingId (.setManageTokenHash token at_)
    let _ ← orRaise rotated .bookingTransitionInvalid
    rotateLinks at_ rest

def correctPhone (bookingId : Nat) (phone : Mobile) (actorId : Nat) : Prg Reply := do
  let blocked ← ask .isBlocked
  raiseIf blocked .throttled
  let at_ ← now
  tenantSession fun _ => do
    let found ← select .bookingById fun s =>
      (s.rows .bookings bookingId).filter fun (b : Booking) => b.deletedAt = none
    let booking : Booking ← orRaise found .notFound
    raiseIf (booking.status ≠ .confirmed ∨ booking.startsAt ≤ at_) .bookingTransitionInvalid
    let _ ← byId booking.customerId
    let target ← byPhone phone.e164
    match target.filter fun c => c.id ≠ booking.customerId with
    | some customer => do
      let collision ← activeAt customer.id booking.startsAt
      raiseIf collision.isSome .customerAlreadyBooked
      let moved ← Session.update (S := schema) Err.customerAlreadyBooked Table.bookings bookingId
        (.setCustomerId customer.id at_)
      let _ ← orRaise moved .bookingTransitionInvalid
      rotateLinks at_ [bookingId]
      record (some actorId) (some bookingId) (.bookingPhoneCorrected booking.customerId customer.id true [bookingId])
      return .done
    | none => do
      let written ← Session.update (S := schema) Err.bookingTransitionInvalid Table.customers booking.customerId
        (.setPhone phone.e164)
      let _ ← orRaise written .notFound
      let rotate ← select .liveForCustomer fun s => matching s .bookings fun (b : Booking) =>
        b.customerId = booking.customerId ∧ b.status = .confirmed ∧ at_ < b.startsAt ∧ b.deletedAt = none
      rotateLinks at_ rotate
      record (some actorId) (some bookingId)
        (.bookingPhoneCorrected booking.customerId booking.customerId false rotate)
      return .done

def moved (customer : Customer) (notes : Option String) (tags : Option (List String)) : List String :=
  (if notes.isSome ∧ notes ≠ customer.notes then ["notes"] else []) ++
    (if tags.any fun tags => tags ≠ customer.tags then ["tags"] else [])

/-- `CustomersService.update`: what the card shows decides which of the two fields is written. -/
def updateCustomer (customerId : Nat) (notes : Option String) (tags : Option (List String)) (actorId : Nat) :
    Prg Reply := do
  passes
  tenantSession fun _ => do
    let found ← byId customerId
    let current ← orRaise found .notFound
    let changed := moved current notes tags
    if changed ≠ [] then do
      let _ ← update .customers customerId
        (.setNotesAndTags (if "notes" ∈ changed then notes else none) (if "tags" ∈ changed then tags else none))
      record (some actorId) (some customerId) (.customerUpdated changed)
      return .detail current
    else return .detail current

/-! The portal. -/

/-- An unknown phone burns its code all the same. -/
def createSession (phone : Mobile) (sessionTtl : Int) : Prg Reply := do
  let blocked ← ask .isBlocked
  raiseIf blocked .throttled
  ask .recordFailure
  let at_ ← now
  let minted ← tenantSession fun _ => do
    let verified ← ask .consumeVerification
    raiseIf (!verified) .phoneNotVerified
    let found ← byPhone phone.e164
    match found with
    | none => return none
    | some customer => do
      let token ← ask .mintToken
      let row : CustomerSession := ⟨0, 0, none, customer.id, token, at_ + sessionTtl⟩
      let _ ← insert .sessions row
      return some (Reply.session customer.name token)
  orRaise minted .portalNoBookings

def CustomerSession.opens (r : CustomerSession) (at_ : Int) : Bool := r.deletedAt = none ∧ at_ < r.expiresAt

def activeByTokenHash (tokenHash : String) (at_ : Int) : Prg (Option CustomerSession) :=
  select .byTokenHash fun s => (s.all .sessions).find? fun (r : CustomerSession) => r.tokenHash = tokenHash ∧ r.opens at_

/-- The customer's row is read again, and need only be there. -/
def resolveSession (tokenHash : String) : Prg Reply :=
  tenantSession fun _ => do
    let at_ ← now
    let row ← activeByTokenHash tokenHash at_
    match row with
    | none => return .resolved none
    | some session => do
      let found ← byId session.customerId
      return .resolved (found.map fun customer => (customer.id, customer.name, customer.phone))

def logout (tokenHash : String) : Prg Reply :=
  tenantSession fun txNow => do
    let live ← select .liveSessions fun s => matching s .sessions fun (r : CustomerSession) =>
      r.tokenHash = tokenHash ∧ r.deletedAt = none
    let _ ← updateEach .sessions (.revoke txNow) live
    return .done

/-! Erasure, withdrawal and retention. -/

/-- The lock before any read; a second erasure is recorded and changes nothing. -/
def eraseSubject (customerId : Nat) (reason : Option String) (actorId : Nat) : Prg Reply := do
  let blocked ← ask .isBlocked
  raiseIf blocked .throttled
  ask .recordFailure
  tenantSession fun txNow => do
    tenantLock
    let found ← byId customerId
    let customer ← orRaise found .subjectNotFound
    if customer.erasedAt ≠ none then do
      record (some actorId) (some customerId) (.privacySubjectErased reason 0 true)
      return .erased true 0
    else do
      let live ← select .futureBookings fun s => matching s .bookings fun (b : Booking) =>
        b.customerId = customerId ∧ b.deletedAt = none ∧ b.status = .confirmed ∧ txNow < b.startsAt
      raiseIf (live ≠ []) .subjectHasActiveBooking
      let _ ← update .customers customerId (.erase txNow)
      let hers ← select .bookingIds fun s => matching s .bookings fun (b : Booking) => b.customerId = customerId
      let scrubbed ← updateEach .bookings .scrub hers
      let sessions ← select .liveSessions fun s => matching s .sessions fun (r : CustomerSession) =>
        r.customerId = customerId ∧ r.deletedAt = none
      let _ ← updateEach .sessions (.revoke txNow) sessions
      record (some actorId) (some customerId) (.privacySubjectErased reason scrubbed.length false)
      return .erased false scrubbed.length

/-- `PrivacyService.withdraw_marketing`, by the customer's key. -/
def withdrawMarketing (customerId actorId : Nat) : Prg Reply := do
  let blocked ← ask .isBlocked
  raiseIf blocked .throttled
  ask .recordFailure
  tenantSession fun txNow => do
    let found ← byId customerId
    let _ ← orRaise found .subjectNotFound
    let withdrawn ← update .customers customerId (.withdrawMarketingConsent txNow)
    if withdrawn.isSome then do
      record (some actorId) (some customerId) .privacyMarketingWithdrawn
      return .withdrawn true
    else return .withdrawn false

def orphaned (settings : Retention.Settings) (at_ : Int) (bookings : List Booking) (c : Customer) : Bool :=
  c.erasedAt = none ∧ c.createdAt ≤ Retention.cutoff at_ settings.retentionOrphanCustomerSeconds ∧
    bookings.all fun b => b.customerId ≠ c.id

def scrubCustomers (settings : Retention.Settings) (at_ : Int) : Prg Nat :=
  tenantSession fun _ => do
    let page ← select .orphans fun s =>
      Paging.page Customer.id (orphaned settings at_ (s.all .bookings)) CHUNK_SIZE (s.all .customers)
    let rows ← updateEach .customers (.scrub at_) page
    return rows.length

def drainCustomers (settings : Retention.Settings) (at_ : Int) : Nat → Prg Nat
  | 0 => return 0
  | n + 1 => do
    let count ← scrubCustomers settings at_
    if count < CHUNK_SIZE then return count
    else do
      let rest ← drainCustomers settings at_ n
      return count + rest

def runRetention (settings : Retention.Settings) : Prg Reply := do
  let at_ ← now
  let count ← drainCustomers settings at_ MAX_CHUNKS
  if count = 0 then return .swept 0
  else do
    tenantSession fun _ => record none none (.retentionCustomers count)
    return .swept count

inductive Request
  | createBooking (request : CreateBookingRequest)
  | claim (name : String)
  | createTicket (request : CreateTicketRequest) (actorId : Nat)
  | createWalkIn (customerId appointmentTypeId actorId : Nat)
  | correctPhone (bookingId : Nat) (phone : Mobile) (actorId : Nat)
  | updateCustomer (customerId : Nat) (notes : Option String) (tags : Option (List String)) (actorId : Nat)
  | createSession (phone : Mobile) (sessionTtl : Int)
  | resolveSession (tokenHash : String)
  | logout (tokenHash : String)
  | eraseSubject (customerId : Nat) (reason : Option String) (actorId : Nat)
  | withdrawMarketing (customerId actorId : Nat)
  | runRetention

def Request.code (settings : Retention.Settings) : Request → Prg Reply
  | .createBooking request => Subjects.createBooking request
  | .claim name => Subjects.claim name
  | .createTicket request actorId => Subjects.createTicket request actorId
  | .createWalkIn customerId appointmentTypeId actorId => Subjects.createWalkIn customerId appointmentTypeId actorId
  | .correctPhone bookingId phone actorId => Subjects.correctPhone bookingId phone actorId
  | .updateCustomer customerId notes tags actorId => Subjects.updateCustomer customerId notes tags actorId
  | .createSession phone sessionTtl => Subjects.createSession phone sessionTtl
  | .resolveSession tokenHash => Subjects.resolveSession tokenHash
  | .logout tokenHash => Subjects.logout tokenHash
  | .eraseSubject customerId reason actorId => Subjects.eraseSubject customerId reason actorId
  | .withdrawMarketing customerId actorId => Subjects.withdrawMarketing customerId actorId
  | .runRetention => Subjects.runRetention settings

abbrev serving (settings : Retention.Settings) (reqs : Tid → Request) (rows : Rows schema) (next : Nat) (clock : Int) :
    Conf (machine schema outside Err) Reply :=
  staged () (fun t => (reqs t).code settings) rows next clock

def calls (t : Tid) (n : Nat) : List (Action (machine schema outside Err)) :=
  List.replicate n (.call t ⟨false, none, none, "", 0, ""⟩)

end Subjects
