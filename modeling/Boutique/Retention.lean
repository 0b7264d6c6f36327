import Boutique.Paging
import Boutique.Slots
import Mathlib.Algebra.Order.BigOperators.Group.List
import Mathlib.Algebra.Order.Ring.Nat
/-!
# Retention — the clocks run out, a page at a time

Eight policies, each a predicate and an action, drained per tenant and recorded once per drain.  `pastClock` predicates
say when a row's clock has run out; the code's own predicates add the mark a scrub leaves behind, and for a queue ticket
that mark is the name itself, which a visitor may have typed.
-/
namespace Retention

open Paging
open Boutique (Zone second)

def ERASED_NAME : String := "[erased]"
def ERASED_PHONE_PREFIX : String := "erased:"
def CHUNK_SIZE : Nat := 500
def MAX_CHUNKS : Nat := 50

structure Settings where
  retentionOtpSeconds : Int
  retentionQueueTicketSeconds : Int
  retentionMessageLogSeconds : Int
  retentionBookingsSeconds : Int
  retentionOrphanCustomerSeconds : Int
  waitlistRetentionDays : Int
  staffRetentionDays : Int

structure OtpCode where
  id : Nat
  createdAt : Int
deriving DecidableEq

structure SessionRow where
  id : Nat
  expiresAt : Int
  deletedAt : Option Int
deriving DecidableEq

structure QueueTicket where
  id : Nat
  queueDay : Int
  name : String
  phone : String
deriving DecidableEq

structure WaitlistEntry where
  id : Nat
  day : Int
  phone : String
deriving DecidableEq

structure MessageLog where
  id : Nat
  createdAt : Int
deriving DecidableEq

structure Booking where
  id : Nat
  customerId : Nat
  startsAt : Int
deriving DecidableEq

structure ScheduledMessage where
  id : Nat
  bookingId : Nat
deriving DecidableEq

structure Customer where
  id : Nat
  name : String
  phone : String
  notes : Option String
  tags : List String
  createdAt : Int
  deletedAt : Option Int
  erasedAt : Option Int
deriving DecidableEq

structure StaffUser where
  id : Nat
  displayName : String
  email : String
  phone : Option String
  lastDay : Option Int
  deletedAt : Option Int
  scrubbedAt : Option Int
deriving DecidableEq

inductive RetentionAction where
  | purge
  | scrub
deriving DecidableEq

structure AuditRow where
  action : String
  entity : String
  rows : Nat
  done : RetentionAction
  tables : List String
deriving DecidableEq

structure Database where
  otpCodes : List OtpCode
  sessions : List SessionRow
  queueTickets : List QueueTicket
  waitlistEntries : List WaitlistEntry
  messageLog : List MessageLog
  bookings : List Booking
  scheduledMessages : List ScheduledMessage
  customers : List Customer
  staffUsers : List StaffUser
  audit : List AuditRow
deriving DecidableEq

inductive Raised where
  | integrityError
deriving DecidableEq

abbrev PolicyRun := Settings → Zone → Int → Nat → Bool → Database → Except Raised (Nat × Database)

structure RetentionPolicy where
  name : String
  action : RetentionAction
  tables : List String
  run : PolicyRun

/-! ## The statements -/

def cutoff (now seconds : Int) : Int := now - seconds * second

/-- Per row, so that two scrubbed rows never carry one phone. -/
def erasedPhone (id : Nat) : String := ERASED_PHONE_PREFIX ++ id.repr

section Statements

variable {α : Type}

def purgeWhere (key : α → Nat) (due : α → Bool) (rows : List α) (put : List α → Database) (limit : Nat) (dryRun : Bool)
    (db : Database) : Except Raised (Nat × Database) :=
  if dryRun then .ok (rows.countP due, db)
  else
    let ids := page key due limit rows
    .ok (returned key ids rows, put (purge key ids rows))

def scrubWhere (key : α → Nat) (due : α → Bool) (values : α → α) (rows : List α)
    (put : List α → Except Raised Database) (limit : Nat) (dryRun : Bool) (db : Database) :
    Except Raised (Nat × Database) :=
  if dryRun then .ok (rows.countP due, db)
  else
    let ids := page key due limit rows
    match put (scrub key values ids rows) with
    | .error e => .error e
    | .ok db' => .ok (returned key ids rows, db')

end Statements

/-! ## The eight policies -/

section Policies

variable (settings : Settings) (zone : Zone) (now : Int)

def otpPast (c : OtpCode) : Bool := c.createdAt ≤ cutoff now settings.retentionOtpSeconds

def purgeOtpCodes : PolicyRun := fun settings _ now limit dryRun db =>
  purgeWhere OtpCode.id (otpPast settings now) db.otpCodes (fun rows => { db with otpCodes := rows }) limit dryRun db

def sessionPast (s : SessionRow) : Bool := s.expiresAt ≤ now || s.deletedAt.isSome

def purgeSessions : PolicyRun := fun _ _ now limit dryRun db =>
  purgeWhere SessionRow.id (sessionPast now) db.sessions (fun rows => { db with sessions := rows }) limit dryRun db

def ticketPast (q : QueueTicket) : Bool :=
  q.queueDay ≤ zone.dateOf (cutoff now settings.retentionQueueTicketSeconds)

def ticketDue (q : QueueTicket) : Bool := ticketPast settings zone now q && q.name != ERASED_NAME

def scrubbedTicket (q : QueueTicket) : QueueTicket := { q with name := ERASED_NAME, phone := erasedPhone q.id }

def scrubQueueTickets : PolicyRun := fun settings zone now limit dryRun db =>
  scrubWhere QueueTicket.id (ticketDue settings zone now) scrubbedTicket db.queueTickets
    (fun rows => .ok { db with queueTickets := rows }) limit dryRun db

def waitlistPast (e : WaitlistEntry) : Bool := e.day < zone.dateOf now - settings.waitlistRetentionDays

def purgeWaitlistEntries : PolicyRun := fun settings zone now limit dryRun db =>
  purgeWhere WaitlistEntry.id (waitlistPast settings zone now) db.waitlistEntries
    (fun rows => { db with waitlistEntries := rows }) limit dryRun db

def messagePast (m : MessageLog) : Bool := m.createdAt ≤ cutoff now settings.retentionMessageLogSeconds

def purgeMessageLog : PolicyRun := fun settings _ now limit dryRun db =>
  purgeWhere MessageLog.id (messagePast settings now) db.messageLog (fun rows => { db with messageLog := rows }) limit dryRun
    db

def bookingPast (b : Booking) : Bool := b.startsAt ≤ cutoff now settings.retentionBookingsSeconds

/-- The reminders of the page's bookings go in the same transaction. -/
def purgeBookings : PolicyRun := fun settings _ now limit dryRun db =>
  if dryRun then .ok (db.bookings.countP (bookingPast settings now), db)
  else
    let doomed := page Booking.id (bookingPast settings now) limit db.bookings
    if doomed = [] then .ok (0, db)
    else
      .ok (returned Booking.id doomed db.bookings,
        { db with
          scheduledMessages := db.scheduledMessages.filter fun m => m.bookingId ∉ doomed
          bookings := purge Booking.id doomed db.bookings })

def customerPast (c : Customer) : Bool := c.createdAt ≤ cutoff now settings.retentionOrphanCustomerSeconds

def orphan (bookings : List Booking) (c : Customer) : Bool := bookings.all fun b => b.customerId != c.id

def customerDue (bookings : List Booking) (c : Customer) : Bool :=
  c.erasedAt.isNone && customerPast settings now c && orphan bookings c

def scrubbedCustomer (c : Customer) : Customer :=
  { c with name := ERASED_NAME, phone := erasedPhone c.id, notes := none, tags := [], erasedAt := some now }

/-- `idx_customers_tenant_phone_unique`, on the rows that are not soft-deleted. -/
def PhonesUnique (customers : List Customer) : Prop :=
  customers.Pairwise fun c c' => c.deletedAt = none → c'.deletedAt = none → c.phone ≠ c'.phone

instance (customers : List Customer) : Decidable (PhonesUnique customers) := by
  unfold PhonesUnique
  infer_instance

def scrubCustomers : PolicyRun := fun settings _ now limit dryRun db =>
  scrubWhere Customer.id (customerDue settings now db.bookings) (scrubbedCustomer now) db.customers
    (fun rows => if PhonesUnique rows then .ok { db with customers := rows } else .error .integrityError) limit dryRun db

def staffPast (s : StaffUser) : Bool :=
  s.deletedAt.isSome && s.lastDay.any fun day => day ≤ zone.dateOf now - settings.staffRetentionDays

def staffDue (s : StaffUser) : Bool := staffPast settings zone now s && s.scrubbedAt.isNone

def scrubbedStaff (s : StaffUser) : StaffUser :=
  { s with displayName := ERASED_NAME, email := erasedPhone s.id, phone := none, scrubbedAt := some now }

def scrubStaffUsers : PolicyRun := fun settings zone now limit dryRun db =>
  scrubWhere StaffUser.id (staffDue settings zone now) (scrubbedStaff now) db.staffUsers
    (fun rows => .ok { db with staffUsers := rows }) limit dryRun db

end Policies

def POLICIES : List RetentionPolicy :=
  [⟨"otp_codes", .purge, ["otp_codes"], purgeOtpCodes⟩,
    ⟨"sessions", .purge, ["sessions"], purgeSessions⟩,
    ⟨"queue_tickets", .scrub, ["queue_tickets"], scrubQueueTickets⟩,
    ⟨"waitlist_entries", .purge, ["waitlist_entries"], purgeWaitlistEntries⟩,
    ⟨"message_log", .purge, ["message_log"], purgeMessageLog⟩,
    ⟨"bookings", .purge, ["bookings", "scheduled_messages"], purgeBookings⟩,
    ⟨"customers", .scrub, ["customers"], scrubCustomers⟩,
    ⟨"staff_users", .scrub, ["staff_users"], scrubStaffUsers⟩]

/-! ## The runner -/

section Runner

variable (settings : Settings) (zone : Zone) (now : Int)

/-- The chunk loop of one policy, `bound` chunks at most. -/
def drainUpTo (bound : Nat) (policy : RetentionPolicy) (db : Database) : Drained Database :=
  drain CHUNK_SIZE (policy.run settings zone now CHUNK_SIZE false) bound db

def drainPolicy (policy : RetentionPolicy) (dryRun : Bool) (db : Database) : Drained Database :=
  if dryRun then
    match policy.run settings zone now CHUNK_SIZE true db with
    | .error _ => ⟨[], true, db⟩
    | .ok (count, db') => ⟨[count], false, db'⟩
  else drainUpTo settings zone now MAX_CHUNKS policy db

def record (policy : RetentionPolicy) (count : Nat) (db : Database) : Database :=
  let row : AuditRow :=
    { action := "retention_" ++ policy.name, entity := policy.tables.headD "", rows := count, done := policy.action,
      tables := policy.tables }
  { db with audit := db.audit ++ [row] }

/-- `chunks` keeps every policy's chunk sizes; the code returns only the rest. -/
structure TenantRun where
  touched : List (String × Nat)
  chunks : List (List Nat)
  failed : Bool
  db : Database
deriving DecidableEq

def runForTenant (dryRun : Bool) : List RetentionPolicy → Database → TenantRun
  | [], db => ⟨[], [], false, db⟩
  | policy :: policies, db =>
    let drained := drainPolicy settings zone now policy dryRun db
    if drained.failed then ⟨[], [drained.chunks], true, drained.state⟩
    else if drained.total = 0 then
      let rest := runForTenant dryRun policies drained.state
      { rest with chunks := drained.chunks :: rest.chunks }
    else
      let db' := if dryRun then drained.state else record policy drained.total drained.state
      let rest := runForTenant dryRun policies db'
      { rest with touched := (policy.name, drained.total) :: rest.touched, chunks := drained.chunks :: rest.chunks }

structure RetentionResult where
  tenants : Nat
  failedTenants : Nat
  rows : String → Nat

/-- One tenant's failure is counted and never stops another. -/
def run (dryRun : Bool) (dbs : List Database) : RetentionResult × List Database :=
  let runs := dbs.map (runForTenant settings zone now dryRun POLICIES)
  (⟨dbs.length, runs.countP (·.failed),
    fun name => (((runs.filter fun r => !r.failed).flatMap (·.touched)).filter (·.1 = name)).map (·.2) |>.sum⟩,
    runs.map (·.db))

end Runner

/-! ## What a run may rely on, and what it may do -/

/-- **The keys**: primary keys, live phones unique, and an `erased:` phone only on the row it names. -/
structure Sound (db : Database) : Prop where
  otpCodes : (db.otpCodes.map OtpCode.id).Nodup
  sessions : (db.sessions.map SessionRow.id).Nodup
  queueTickets : (db.queueTickets.map QueueTicket.id).Nodup
  waitlistEntries : (db.waitlistEntries.map WaitlistEntry.id).Nodup
  messageLog : (db.messageLog.map MessageLog.id).Nodup
  bookings : (db.bookings.map Booking.id).Nodup
  customers : (db.customers.map Customer.id).Nodup
  staffUsers : (db.staffUsers.map StaffUser.id).Nodup
  phones : PhonesUnique db.customers
  own : ∀ c ∈ db.customers, ∀ n, c.phone = erasedPhone n → n = c.id

section Clocks

variable (settings : Settings) (zone : Zone) (now : Int)

def overdue (bookings : List Booking) (c : Customer) : Bool :=
  c.erasedAt.isNone && customerPast settings now c &&
    bookings.all fun b => b.customerId != c.id || bookingPast settings now b

def backlog (db : Database) : Nat :=
  db.otpCodes.countP (otpPast settings now) + db.sessions.countP (sessionPast now) +
    db.queueTickets.countP (ticketDue settings zone now) + db.waitlistEntries.countP (waitlistPast settings zone now) +
    db.messageLog.countP (messagePast settings now) + db.bookings.countP (bookingPast settings now) +
    db.customers.countP (overdue settings now db.bookings) + db.staffUsers.countP (staffDue settings zone now)

/-- **No row outside its clock is touched**, and one inside it only leaves or takes its policy's values. -/
structure Kept (db db' : Database) : Prop where
  otpCodes : Purged (fun c => otpPast settings now c) db.otpCodes db'.otpCodes
  sessions : Purged (fun s => sessionPast now s) db.sessions db'.sessions
  queueTickets : Scrubbed (fun q => ticketDue settings zone now q) scrubbedTicket db.queueTickets db'.queueTickets
  waitlistEntries : Purged (fun e => waitlistPast settings zone now e) db.waitlistEntries db'.waitlistEntries
  messageLog : Purged (fun m => messagePast settings now m) db.messageLog db'.messageLog
  bookings : Purged (fun b => bookingPast settings now b) db.bookings db'.bookings
  scheduledMessages : Purged (fun m => ∃ b ∈ db.bookings, b.id = m.bookingId ∧ bookingPast settings now b)
    db.scheduledMessages db'.scheduledMessages
  customers : Scrubbed (fun c => overdue settings now db.bookings c) (scrubbedCustomer now) db.customers db'.customers
  staffUsers : Scrubbed (fun s => staffDue settings zone now s) (scrubbedStaff now) db.staffUsers db'.staffUsers

end Clocks

section Steps

variable {settings : Settings} {zone : Zone} {now : Int} {db db' : Database}

theorem scrubbedTicket_id (q : QueueTicket) : (scrubbedTicket q).id = q.id := rfl

theorem scrubbedCustomer_id (c : Customer) : (scrubbedCustomer now c).id = c.id := rfl

theorem scrubbedStaff_id (s : StaffUser) : (scrubbedStaff now s).id = s.id := rfl

theorem scrubbedTicket_due (q : QueueTicket) : ticketDue settings zone now (scrubbedTicket q) = false := by
  simp [ticketDue, scrubbedTicket]

theorem scrubbedCustomer_overdue (bookings : List Booking) (c : Customer) :
    overdue settings now bookings (scrubbedCustomer now c) = false := by
  simp [overdue, scrubbedCustomer]

theorem scrubbedStaff_due (s : StaffUser) : staffDue settings zone now (scrubbedStaff now s) = false := by
  simp [staffDue, scrubbedStaff]

theorem overdue_of_due {bookings : List Booking} {c : Customer} (h : customerDue settings now bookings c = true) :
    overdue settings now bookings c = true := by
  simp only [customerDue, overdue, orphan, Bool.and_eq_true, List.all_eq_true, Bool.or_eq_true] at h ⊢
  exact ⟨h.1, fun b hb => Or.inl (h.2 b hb)⟩

theorem overdue_purged {bookings bookings' : List Booking} (h : Purged (fun b => bookingPast settings now b) bookings bookings')
    (c : Customer) : overdue settings now bookings' c = overdue settings now bookings c := by
  unfold Retention.overdue
  congr 1
  rw [Bool.eq_iff_iff]
  simp only [List.all_eq_true, Bool.or_eq_true]
  constructor
  · intro hall b hb
    by_cases hpast : bookingPast settings now b = true
    · exact Or.inr hpast
    · exact hall b (h.kept hb hpast)
  · exact fun hall b hb => hall b (h.mem hb)

theorem Kept.refl (db : Database) : Kept settings zone now db db :=
  ⟨.refl _ _, .refl _ _, .refl _ _ _, .refl _ _, .refl _ _, .refl _ _, .refl _ _, .refl _ _ _, .refl _ _ _⟩

theorem Kept.trans {a b c : Database} (h : Kept settings zone now a b) (h' : Kept settings zone now b c) :
    Kept settings zone now a c where
  otpCodes := h.otpCodes.trans h'.otpCodes
  sessions := h.sessions.trans h'.sessions
  queueTickets := h.queueTickets.trans (by simp [scrubbedTicket_due]) h'.queueTickets
  waitlistEntries := h.waitlistEntries.trans h'.waitlistEntries
  messageLog := h.messageLog.trans h'.messageLog
  bookings := h.bookings.trans h'.bookings
  scheduledMessages := by
    refine h.scheduledMessages.trans ?_
    obtain ⟨keep, hkeep, heq⟩ := h'.scheduledMessages
    refine ⟨keep, fun m hm hnot => hkeep m hm ?_, heq⟩
    rintro ⟨b, hb, hid, hpast⟩
    exact hnot ⟨b, h.bookings.mem hb, hid, hpast⟩
  customers := by
    have h'c := h'.customers
    simp only [overdue_purged h.bookings] at h'c
    exact h.customers.trans (by simp [scrubbedCustomer_overdue]) h'c
  staffUsers := h.staffUsers.trans (by simp [scrubbedStaff_due]) h'.staffUsers

/-! ## Each policy keeps pace -/

variable {step : Database → Except Raised (Nat × Database)}

theorem purge_paced {α : Type} {key : α → Nat} {due : α → Bool} {get : Database → List α}
    (put : Database → List α → Database) (hgp : ∀ db rows, get (put db rows) = rows)
    (hpg : ∀ db, put db (get db) = db) (hkey : ∀ db, Sound db → ((get db).map key).Nodup)
    (hsound : ∀ db rows, Sound db → rows.Sublist (get db) → Sound (put db rows))
    (hback : ∀ db rows, backlog settings zone now (put db rows) + (get db).countP due =
      backlog settings zone now db + rows.countP due)
    (hkept : ∀ db rows, Purged (fun row => due row) (get db) rows → Kept settings zone now db (put db rows))
    (hstep : ∀ db, step db = purgeWhere key due (get db) (put db) CHUNK_SIZE false db) :
    Paced CHUNK_SIZE step Sound (fun db => (get db).countP due) (backlog settings zone now) (Kept settings zone now) := by
  refine ⟨fun db hs => ⟨put db (purge key (page key due CHUNK_SIZE (get db)) (get db)), ?_, ?_, ?_, ?_, ?_, ?_⟩⟩
  all_goals have hret := returned_page due CHUNK_SIZE (hkey db hs)
  all_goals have hdue := due_of_page due CHUNK_SIZE (hkey db hs)
  · simp [hstep, purgeWhere, hret]
  · exact hsound db _ hs List.filter_sublist
  · simp only [hgp, ← hret]
    exact purge_count hdue
  · have hcount := purge_count hdue
    have hb := hback db (purge key (page key due CHUNK_SIZE (get db)) (get db))
    simp only [← hret]
    omega
  · exact hkept db _ (purge_purged hdue)
  · intro h0
    rw [purge_none (by omega), hpg]

theorem scrub_paced {α : Type} {key : α → Nat} (due wide : Database → α → Bool) (values : α → α)
    {get : Database → List α} (put : Database → List α → Database) (hgp : ∀ db rows, get (put db rows) = rows)
    (hpg : ∀ db, put db (get db) = db) (hkey : ∀ db, Sound db → ((get db).map key).Nodup)
    (hsame : ∀ db rows, due (put db rows) = due db) (hwide : ∀ db row, due db row = true → wide db row = true)
    (hv : ∀ db row, wide db (values row) = false)
    (hsound : ∀ db ids, Sound db → Sound (put db (scrub key values ids (get db))))
    (hback : ∀ db rows, backlog settings zone now (put db rows) + (get db).countP (wide db) =
      backlog settings zone now db + rows.countP (wide db))
    (hkept : ∀ db rows, Scrubbed (fun row => wide db row) values (get db) rows → Kept settings zone now db (put db rows))
    (hstep : ∀ db, Sound db → step db = scrubWhere key (due db) values (get db) (fun rows => .ok (put db rows)) CHUNK_SIZE
      false db) :
    Paced CHUNK_SIZE step Sound (fun db => (get db).countP (due db)) (backlog settings zone now)
      (Kept settings zone now) := by
  refine ⟨fun db hs => ⟨put db (scrub key values (page key (due db) CHUNK_SIZE (get db)) (get db)), ?_, ?_, ?_, ?_, ?_, ?_⟩⟩
  all_goals have hret := returned_page (due db) CHUNK_SIZE (hkey db hs)
  all_goals have hdue := due_of_page (due db) CHUNK_SIZE (hkey db hs)
  all_goals have hw : ∀ row ∈ get db, key row ∈ page key (due db) CHUNK_SIZE (get db) → wide db row = true :=
    fun row hrow hk => hwide db row (hdue row hrow hk)
  · simp [hstep db hs, scrubWhere, hret]
  · exact hsound db _ hs
  · simp only [hgp, hsame, ← hret]
    refine scrub_count hdue fun row => ?_
    by_contra h
    have := hwide db _ (by simpa using h)
    simp [hv] at this
  · have hcount := scrub_count hw (hv db)
    have hb := hback db (scrub key values (page key (due db) CHUNK_SIZE (get db)) (get db))
    simp only [← hret]
    omega
  · exact hkept db _ (scrub_scrubbed hw)
  · intro h0
    rw [scrub_none (by omega), hpg]

theorem otpCodes_paced : Paced CHUNK_SIZE (purgeOtpCodes settings zone now CHUNK_SIZE false) Sound
    (fun db => db.otpCodes.countP (otpPast settings now)) (backlog settings zone now) (Kept settings zone now) := by
  refine purge_paced (fun db rows => { db with otpCodes := rows }) (fun _ _ => rfl) (fun _ => rfl)
    (fun _ h => h.otpCodes) (fun db rows h hsub => { h with otpCodes := h.otpCodes.sublist (hsub.map _) }) ?_ ?_ fun _ => rfl
  · intro db rows
    simp only [backlog]
    omega
  · exact fun db rows h => { Kept.refl db with otpCodes := h }

theorem sessions_paced : Paced CHUNK_SIZE (purgeSessions settings zone now CHUNK_SIZE false) Sound
    (fun db => db.sessions.countP (sessionPast now)) (backlog settings zone now) (Kept settings zone now) := by
  refine purge_paced (fun db rows => { db with sessions := rows }) (fun _ _ => rfl) (fun _ => rfl)
    (fun _ h => h.sessions) (fun db rows h hsub => { h with sessions := h.sessions.sublist (hsub.map _) }) ?_ ?_ fun _ => rfl
  · intro db rows
    simp only [backlog]
    omega
  · exact fun db rows h => { Kept.refl db with sessions := h }

theorem waitlistEntries_paced : Paced CHUNK_SIZE (purgeWaitlistEntries settings zone now CHUNK_SIZE false) Sound
    (fun db => db.waitlistEntries.countP (waitlistPast settings zone now)) (backlog settings zone now)
    (Kept settings zone now) := by
  refine purge_paced (fun db rows => { db with waitlistEntries := rows }) (fun _ _ => rfl) (fun _ => rfl)
    (fun _ h => h.waitlistEntries)
    (fun db rows h hsub => { h with waitlistEntries := h.waitlistEntries.sublist (hsub.map _) }) ?_ ?_ fun _ => rfl
  · intro db rows
    simp only [backlog]
    omega
  · exact fun db rows h => { Kept.refl db with waitlistEntries := h }

theorem messageLog_paced : Paced CHUNK_SIZE (purgeMessageLog settings zone now CHUNK_SIZE false) Sound
    (fun db => db.messageLog.countP (messagePast settings now)) (backlog settings zone now) (Kept settings zone now) := by
  refine purge_paced (fun db rows => { db with messageLog := rows }) (fun _ _ => rfl) (fun _ => rfl)
    (fun _ h => h.messageLog) (fun db rows h hsub => { h with messageLog := h.messageLog.sublist (hsub.map _) }) ?_ ?_
    fun _ => rfl
  · intro db rows
    simp only [backlog]
    omega
  · exact fun db rows h => { Kept.refl db with messageLog := h }

theorem queueTickets_paced : Paced CHUNK_SIZE (scrubQueueTickets settings zone now CHUNK_SIZE false) Sound
    (fun db => db.queueTickets.countP (ticketDue settings zone now)) (backlog settings zone now)
    (Kept settings zone now) := by
  refine scrub_paced (fun _ => ticketDue settings zone now) (fun _ => ticketDue settings zone now) scrubbedTicket
    (fun db rows => { db with queueTickets := rows }) (fun _ _ => rfl) (fun _ => rfl) (fun _ h => h.queueTickets)
    (fun _ _ => rfl) (fun _ _ h => h) (fun _ => scrubbedTicket_due) ?_ ?_ ?_ fun _ _ => rfl
  · exact fun db ids h => { h with queueTickets := scrub_keys h.queueTickets scrubbedTicket_id ids }
  · intro db rows
    simp only [backlog]
    omega
  · exact fun db rows h => { Kept.refl db with queueTickets := h }

theorem staffUsers_paced : Paced CHUNK_SIZE (scrubStaffUsers settings zone now CHUNK_SIZE false) Sound
    (fun db => db.staffUsers.countP (staffDue settings zone now)) (backlog settings zone now) (Kept settings zone now) := by
  refine scrub_paced (fun _ => staffDue settings zone now) (fun _ => staffDue settings zone now) (scrubbedStaff now)
    (fun db rows => { db with staffUsers := rows }) (fun _ _ => rfl) (fun _ => rfl) (fun _ h => h.staffUsers)
    (fun _ _ => rfl) (fun _ _ h => h) (fun _ => scrubbedStaff_due) ?_ ?_ ?_ fun _ _ => rfl
  · exact fun db ids h => { h with staffUsers := scrub_keys h.staffUsers scrubbedStaff_id ids }
  · intro db rows
    simp only [backlog]
    omega
  · exact fun db rows h => { Kept.refl db with staffUsers := h }

theorem erasedPhone_injective {i j : Nat} (h : erasedPhone i = erasedPhone j) : i = j := by
  have hrepr : i.repr = j.repr := (String.append_right_inj _).1 h
  have hdigits : Nat.toDigits 10 i = Nat.toDigits 10 j := by rw [← Nat.toList_repr, hrepr, Nat.toList_repr]
  rw [← Nat.ofDigitChars_ten_toDigits (n := i), hdigits, Nat.ofDigitChars_ten_toDigits]

theorem scrub_phones (hs : Sound db) (ids : List Nat) :
    PhonesUnique (scrub Customer.id (scrubbedCustomer now) ids db.customers) := by
  have hpair : db.customers.Pairwise fun c c' => c.id ≠ c'.id := List.pairwise_map.1 hs.customers
  have hboth := (hpair.and hs.phones).imp_of_mem (S := fun c c' =>
    (c ∈ db.customers ∧ c' ∈ db.customers) ∧ c.id ≠ c'.id ∧ (c.deletedAt = none → c'.deletedAt = none → c.phone ≠ c'.phone))
    fun hc hc' h => ⟨⟨hc, hc'⟩, h⟩
  refine List.pairwise_map.2 (hboth.imp ?_)
  rintro c c' ⟨⟨hc, hc'⟩, hid, hphone⟩
  by_cases h1 : c.id ∈ ids <;> by_cases h2 : c'.id ∈ ids
  · simp only [if_pos h1, if_pos h2, scrubbedCustomer]
    exact fun _ _ heq => hid (erasedPhone_injective heq)
  · simp only [if_pos h1, if_neg h2, scrubbedCustomer]
    exact fun _ _ heq => hid (hs.own c' hc' _ heq.symm)
  · simp only [if_neg h1, if_pos h2, scrubbedCustomer]
    exact fun _ _ heq => hid (hs.own c hc _ heq).symm
  · simpa only [if_neg h1, if_neg h2] using hphone

theorem scrub_own (hs : Sound db) (ids : List Nat) :
    ∀ c ∈ scrub Customer.id (scrubbedCustomer now) ids db.customers, ∀ n, c.phone = erasedPhone n → n = c.id := by
  intro c hc n hn
  obtain ⟨c0, hc0, rfl⟩ := List.mem_map.1 hc
  by_cases h : c0.id ∈ ids
  · simp only [if_pos h, scrubbedCustomer] at hn ⊢
    exact (erasedPhone_injective hn).symm
  · simp only [if_neg h] at hn ⊢
    exact hs.own c0 hc0 n hn

theorem customers_paced : Paced CHUNK_SIZE (scrubCustomers settings zone now CHUNK_SIZE false) Sound
    (fun db => db.customers.countP (customerDue settings now db.bookings)) (backlog settings zone now)
    (Kept settings zone now) := by
  refine scrub_paced (fun db => customerDue settings now db.bookings) (fun db => overdue settings now db.bookings)
    (scrubbedCustomer now) (fun db rows => { db with customers := rows }) (fun _ _ => rfl) (fun _ => rfl) (fun _ h => h.customers)
    (fun _ _ => rfl) (fun _ _ h => overdue_of_due h) (fun _ => scrubbedCustomer_overdue _) ?_ ?_ ?_ ?_
  · exact fun db ids h =>
      { h with customers := scrub_keys h.customers scrubbedCustomer_id ids, phones := scrub_phones h ids, own := scrub_own h ids }
  · intro db rows
    simp only [backlog]
    omega
  · exact fun db rows h => { Kept.refl db with customers := h }
  · intro db hs
    simp [scrubCustomers, scrubWhere, scrub_phones hs]

theorem bookings_paced : Paced CHUNK_SIZE (purgeBookings settings zone now CHUNK_SIZE false) Sound
    (fun db => db.bookings.countP (bookingPast settings now)) (backlog settings zone now) (Kept settings zone now) := by
  refine ⟨fun db hs => ?_⟩
  have hret := returned_page (bookingPast settings now) CHUNK_SIZE hs.bookings
  have hdue := due_of_page (bookingPast settings now) CHUNK_SIZE hs.bookings
  have hlen := page_length Booking.id (bookingPast settings now) CHUNK_SIZE db.bookings
  by_cases hd : page Booking.id (bookingPast settings now) CHUNK_SIZE db.bookings = []
  · have h0 : min CHUNK_SIZE (db.bookings.countP (bookingPast settings now)) = 0 := by rw [← hlen, hd, List.length_nil]
    refine ⟨db, by simp [purgeBookings, hd, h0], hs, by omega, by omega, Kept.refl db, fun _ => rfl⟩
  · have hpurged : Purged (fun b => bookingPast settings now b = true) db.bookings
        (purge Booking.id (page Booking.id (bookingPast settings now) CHUNK_SIZE db.bookings) db.bookings) :=
      purge_purged hdue
    refine ⟨_, by simp only [purgeBookings, hd, hret, if_false, Bool.false_eq_true]; rfl, ?_, ?_, ?_, ?_, ?_⟩
    · exact { hs with bookings := purge_keys hs.bookings _ }
    · simp only [← hret]
      exact purge_count hdue
    · have hcount := purge_count hdue
      have hsame : overdue settings now
          (purge Booking.id (page Booking.id (bookingPast settings now) CHUNK_SIZE db.bookings) db.bookings) =
          overdue settings now db.bookings := funext (overdue_purged hpurged)
      simp only [← hret, backlog, hsame]
      omega
    · refine { Kept.refl db with bookings := hpurged, scheduledMessages := ?_ }
      refine ⟨fun m => m.bookingId ∉ page Booking.id (bookingPast settings now) CHUNK_SIZE db.bookings, ?_, rfl⟩
      intro m hm hnot
      by_contra hin
      obtain ⟨b, hb, hpast, hid⟩ := mem_page (by simpa using hin)
      exact hnot ⟨b, hb, hid, hpast⟩
    · intro h0
      refine absurd (List.eq_nil_of_length_eq_zero ?_) hd
      simpa [h0] using hlen

end Steps

/-! ## A tenant's run -/

section Runs

variable (settings : Settings) (zone : Zone) (now : Int)

def dryCount (policy : RetentionPolicy) (db : Database) : Nat :=
  match policy.run settings zone now CHUNK_SIZE true db with
  | .error _ => 0
  | .ok (count, _) => count

/-- **A policy in good order**: its dry run only counts, and its armed run keeps pace with that count. -/
structure Orderly (policy : RetentionPolicy) : Prop where
  dry : ∀ db, policy.run settings zone now CHUNK_SIZE true db = .ok (dryCount settings zone now policy db, db)
  paced : Paced CHUNK_SIZE (policy.run settings zone now CHUNK_SIZE false) Sound (dryCount settings zone now policy)
    (backlog settings zone now) (Kept settings zone now)

theorem policies_orderly : ∀ policy ∈ POLICIES, Orderly settings zone now policy := by
  simp only [POLICIES, List.forall_mem_cons, List.not_mem_nil, false_imp_iff, implies_true, and_true]
  exact ⟨⟨fun _ => rfl, otpCodes_paced⟩, ⟨fun _ => rfl, sessions_paced⟩, ⟨fun _ => rfl, queueTickets_paced⟩,
    ⟨fun _ => rfl, waitlistEntries_paced⟩, ⟨fun _ => rfl, messageLog_paced⟩, ⟨fun _ => rfl, bookings_paced⟩,
    ⟨fun _ => rfl, customers_paced⟩, ⟨fun _ => rfl, staffUsers_paced⟩⟩

variable {settings : Settings} {zone : Zone} {now : Int} {db : Database}

theorem record_sound (policy : RetentionPolicy) (count : Nat) (h : Sound db) : Sound (record policy count db) :=
  ⟨h.1, h.2, h.3, h.4, h.5, h.6, h.7, h.8, h.9, h.10⟩

variable {policy : RetentionPolicy} {policies : List RetentionPolicy}

theorem runForTenant_idle (hf : (drainPolicy settings zone now policy false db).failed = false)
    (h0 : (drainPolicy settings zone now policy false db).total = 0) :
    runForTenant settings zone now false (policy :: policies) db =
      { runForTenant settings zone now false policies (drainPolicy settings zone now policy false db).state with
        chunks := (drainPolicy settings zone now policy false db).chunks ::
          (runForTenant settings zone now false policies (drainPolicy settings zone now policy false db).state).chunks } := by
  simp [runForTenant, hf, h0]

theorem runForTenant_touched {drained : Drained Database}
    (hd : drainPolicy settings zone now policy false db = drained) (hf : drained.failed = false)
    (h0 : drained.total ≠ 0) :
    runForTenant settings zone now false (policy :: policies) db =
      { runForTenant settings zone now false policies (record policy drained.total drained.state) with
        touched := (policy.name, drained.total) ::
          (runForTenant settings zone now false policies (record policy drained.total drained.state)).touched
        chunks := drained.chunks ::
          (runForTenant settings zone now false policies (record policy drained.total drained.state)).chunks } := by
  simp [runForTenant, hd, hf, h0]

structure Runs (settings : Settings) (zone : Zone) (now : Int) (policies : List RetentionPolicy) (db : Database) (r : TenantRun) : Prop where
  failed : r.failed = false
  sound : Sound r.db
  kept : Kept settings zone now db r.db
  account : backlog settings zone now r.db + (r.touched.map Prod.snd).sum = backlog settings zone now db
  counted : ∀ e ∈ r.touched, e.2 ≠ 0
  idle : r.touched = [] → r.db = db ∧ ∀ policy ∈ policies, dryCount settings zone now policy db = 0
  chunked : ∀ chunks ∈ r.chunks, chunks.length ≤ MAX_CHUNKS ∧ ∀ count ∈ chunks, count ≤ CHUNK_SIZE

/-- **A tenant's run** never fails, keeps the backlog's account, and with nothing touched leaves all as it was. -/
theorem runForTenant_runs (hpol : ∀ policy ∈ policies, Orderly settings zone now policy) (hs : Sound db) :
    Runs settings zone now policies db (runForTenant settings zone now false policies db) := by
  induction policies generalizing db with
  | nil => exact ⟨rfl, hs, Kept.refl db, rfl, by simp [runForTenant], by simp [runForTenant], by simp [runForTenant]⟩
  | cons policy policies ih =>
    have P := (hpol policy List.mem_cons_self).paced
    have hrest := fun p hp => hpol p (List.mem_cons_of_mem _ hp)
    generalize hd : drainPolicy settings zone now policy false db = drained
    have hdrain : drain CHUNK_SIZE (policy.run settings zone now CHUNK_SIZE false) MAX_CHUNKS db = drained := hd
    obtain ⟨s, hstate, hfail, hsound, hkept, htotal, hback⟩ := P.drain Kept.refl Kept.trans MAX_CHUNKS hs
    have hchunks := P.chunk_le MAX_CHUNKS hs
    have hmany : (drain CHUNK_SIZE (policy.run settings zone now CHUNK_SIZE false) MAX_CHUNKS db).chunks.length ≤
        MAX_CHUNKS := drain_chunks _ _
    have hidle := P.idle (by decide) MAX_CHUNKS hs
    rw [hdrain] at hstate hfail htotal hback hchunks hmany hidle
    have hpages : MAX_CHUNKS * CHUNK_SIZE = 25000 := rfl
    by_cases h0 : drained.total = 0
    · have hnone : dryCount settings zone now policy db = 0 := by omega
      have hsame : drained.state = db := hidle hnone
      have R := ih hrest hs
      rw [runForTenant_idle (by rw [hd]; exact hfail) (by rw [hd]; exact h0), hd, hsame]
      refine ⟨R.failed, R.sound, R.kept, R.account, R.counted, fun hnil => ?_, ?_⟩
      · refine ⟨(R.idle hnil).1, fun p hp => ?_⟩
        rcases List.mem_cons.1 hp with rfl | hp
        · exact hnone
        · exact (R.idle hnil).2 p hp
      · exact List.forall_mem_cons.2 ⟨⟨hmany, hchunks⟩, R.chunked⟩
    · have R := ih hrest (record_sound policy drained.total (hstate ▸ hsound))
      rw [runForTenant_touched hd hfail h0]
      refine ⟨R.failed, R.sound, ?_, ?_, ?_, ?_, ?_⟩
      · exact hkept.trans (hstate ▸ ⟨R.kept.1, R.kept.2, R.kept.3, R.kept.4, R.kept.5, R.kept.6, R.kept.7, R.kept.8, R.kept.9⟩)
      · have ha : _ = backlog settings zone now drained.state := R.account
        rw [hstate] at ha
        simp only [List.map_cons, List.sum_cons]
        rw [hstate]
        omega
      · exact List.forall_mem_cons.2 ⟨h0, R.counted⟩
      · intro hnil
        cases hnil
      · exact List.forall_mem_cons.2 ⟨⟨hmany, hchunks⟩, R.chunked⟩

theorem tenant_runs (hs : Sound db) :
    Runs settings zone now POLICIES db (runForTenant settings zone now false POLICIES db) :=
  runForTenant_runs (policies_orderly settings zone now) hs

end Runs

/-! ## Runs, one after another at one instant -/

section Repeated

variable (settings : Settings) (zone : Zone) (now : Int)

def after : Nat → List Database → List Database
  | 0, dbs => dbs
  | n + 1, dbs => (run settings zone now false (after n dbs)).2

def tenantAfter : Nat → Database → Database
  | 0, db => db
  | n + 1, db => (runForTenant settings zone now false POLICIES (tenantAfter n db)).db

def Touchless (result : RetentionResult) : Prop := result.failedTenants = 0 ∧ ∀ name, result.rows name = 0

/-- An `erased:` placeholder, of whichever row: an erasure on request writes the customer's id on her tickets. -/
def Placeholder (contact : String) : Prop := ERASED_PHONE_PREFIX.toList <+: contact.toList

instance (contact : String) : Decidable (Placeholder contact) := by
  unfold Placeholder
  infer_instance

theorem erasedPhone_placeholder (id : Nat) : Placeholder (erasedPhone id) := by
  simp [Placeholder, erasedPhone]

def BlankTicket (q : QueueTicket) : Prop := q.name = ERASED_NAME ∧ Placeholder q.phone

def BlankCustomer (c : Customer) : Prop :=
  c.name = ERASED_NAME ∧ Placeholder c.phone ∧ c.notes = none ∧ c.tags = []

def BlankStaff (s : StaffUser) : Prop := s.displayName = ERASED_NAME ∧ Placeholder s.email ∧ s.phone = none

/-- **No row past its clock still holds what its policy removes.** -/
structure Clean (db : Database) : Prop where
  otpCodes : ∀ c ∈ db.otpCodes, ¬ otpPast settings now c
  sessions : ∀ s ∈ db.sessions, ¬ sessionPast now s
  queueTickets : ∀ q ∈ db.queueTickets, ticketPast settings zone now q → BlankTicket q
  waitlistEntries : ∀ e ∈ db.waitlistEntries, ¬ waitlistPast settings zone now e
  messageLog : ∀ m ∈ db.messageLog, ¬ messagePast settings now m
  bookings : ∀ b ∈ db.bookings, ¬ bookingPast settings now b
  customers : ∀ c ∈ db.customers, customerPast settings now c → orphan db.bookings c → BlankCustomer c
  staffUsers : ∀ s ∈ db.staffUsers, staffPast settings zone now s → BlankStaff s

/-- **The marks are honest**: a row past its clock that already carries its policy's mark is already blank. -/
structure Unspoiled (db : Database) : Prop where
  queueTickets : ∀ q ∈ db.queueTickets, ticketPast settings zone now q → q.name = ERASED_NAME → BlankTicket q
  customers : ∀ c ∈ db.customers, customerPast settings now c →
    (∀ b ∈ db.bookings, b.customerId = c.id → bookingPast settings now b) → c.erasedAt.isSome → BlankCustomer c
  staffUsers : ∀ s ∈ db.staffUsers, staffPast settings zone now s → s.scrubbedAt.isSome → BlankStaff s

/-- **What the runs promise**: they come to rest, in bounded chunks, work what a dry run counts, spare what is within its
clock, and at rest leave nothing behind. -/
structure Retained (dbs : List Database) : Prop where
  settles : ∃ n, ∀ m, n ≤ m → Touchless (run settings zone now false (after settings zone now m dbs)).1
  chunked : ∀ n, ∀ db ∈ after settings zone now n dbs, ∀ chunks ∈ (runForTenant settings zone now false POLICIES db).chunks,
    chunks.length ≤ MAX_CHUNKS ∧ ∀ count ∈ chunks, count ≤ CHUNK_SIZE
  counted : ∀ n, ∀ db ∈ after settings zone now n dbs, ∀ policy ∈ POLICIES, ∃ enough, ∀ bound, enough ≤ bound →
    (drainUpTo settings zone now bound policy db).failed = false ∧
      (drainUpTo settings zone now bound policy db).total = (drainPolicy settings zone now policy true db).total
  spared : ∀ n, List.Forall₂ (Kept settings zone now) dbs (after settings zone now n dbs)
  cleaned : ∀ n, Touchless (run settings zone now false (after settings zone now n dbs)).1 →
    ∀ db ∈ after settings zone now (n + 1) dbs, Clean settings zone now db

variable {settings : Settings} {zone : Zone} {now : Int} {db db' : Database} {dbs : List Database}

theorem after_eq (n : Nat) (dbs : List Database) :
    after settings zone now n dbs = dbs.map (tenantAfter settings zone now n) := by
  induction n with
  | zero => exact (List.map_id dbs).symm
  | succ n ih => simp [after, ih, run, tenantAfter]

theorem tenantAfter_sound (hs : Sound db) (n : Nat) : Sound (tenantAfter settings zone now n db) := by
  induction n with
  | zero => exact hs
  | succ n ih => exact (tenant_runs ih).sound

theorem tenantAfter_kept (hs : Sound db) (n : Nat) : Kept settings zone now db (tenantAfter settings zone now n db) := by
  induction n with
  | zero => exact Kept.refl db
  | succ n ih => exact ih.trans (tenant_runs (tenantAfter_sound hs n)).kept

theorem tenantAfter_idle (hs : Sound db) {n : Nat}
    (h : (runForTenant settings zone now false POLICIES (tenantAfter settings zone now n db)).touched = []) :
    tenantAfter settings zone now (n + 1) db = tenantAfter settings zone now n db :=
  ((tenant_runs (tenantAfter_sound hs n)).idle h).1

theorem busy_le (hs : Sound db) (n : Nat)
    (h : (runForTenant settings zone now false POLICIES (tenantAfter settings zone now n db)).touched ≠ []) :
    backlog settings zone now (tenantAfter settings zone now n db) + n ≤ backlog settings zone now db := by
  induction n with
  | zero => exact Nat.le_refl _
  | succ n ih =>
    have R : Runs settings zone now POLICIES (tenantAfter settings zone now n db) _ := tenant_runs (tenantAfter_sound hs n)
    by_cases hn : (runForTenant settings zone now false POLICIES (tenantAfter settings zone now n db)).touched = []
    · rw [tenantAfter_idle hs hn] at h
      exact absurd hn h
    · have hle := ih hn
      have haccount := R.account
      obtain ⟨e, he⟩ := List.exists_mem_of_ne_nil _ hn
      have hpos := R.counted e he
      have hsum := List.sum_pos_iff_exists_pos_nat.2 ⟨e.2, List.mem_map.2 ⟨e, he, rfl⟩, Nat.pos_of_ne_zero hpos⟩
      have hnext : tenantAfter settings zone now (n + 1) db =
        (runForTenant settings zone now false POLICIES (tenantAfter settings zone now n db)).db := rfl
      rw [hnext]
      omega

theorem touchless_iff (hs : ∀ db ∈ dbs, Sound db) :
    Touchless (run settings zone now false dbs).1 ↔
      ∀ db ∈ dbs, (runForTenant settings zone now false POLICIES db).touched = [] := by
  have hR : ∀ db ∈ dbs, Runs settings zone now POLICIES db _ := fun db hdb => tenant_runs (hs db hdb)
  constructor
  · rintro ⟨-, hrows⟩ db hdb
    by_contra hne
    obtain ⟨e, he⟩ := List.exists_mem_of_ne_nil _ hne
    have hpos := (hR db hdb).counted e he
    have hsum := List.sum_eq_zero_iff_forall_eq_nat.1 (hrows e.1) e.2 (by
      refine List.mem_map.2 ⟨e, List.mem_filter.2 ⟨List.mem_flatMap.2 ⟨_, List.mem_filter.2 ⟨List.mem_map.2 ⟨db, hdb, rfl⟩,
        ?_⟩, he⟩, by simp⟩, rfl⟩
      simp [(hR db hdb).failed])
    exact hpos hsum
  · intro hnil
    refine ⟨List.countP_eq_zero.2 fun r hr => ?_, fun name => ?_⟩
    · obtain ⟨db, hdb, rfl⟩ := List.mem_map.1 hr
      simp [(hR db hdb).failed]
    · refine List.sum_eq_zero_iff_forall_eq_nat.2 fun k hk => ?_
      obtain ⟨e, he, -⟩ := List.mem_map.1 hk
      obtain ⟨r, hr, her⟩ := List.mem_flatMap.1 (List.mem_filter.1 he).1
      obtain ⟨db, hdb, rfl⟩ := List.mem_map.1 (List.mem_filter.1 hr).1
      rw [hnil db hdb] at her
      cases her

structure Settled (settings : Settings) (zone : Zone) (now : Int) (db : Database) : Prop where
  otpCodes : ∀ c ∈ db.otpCodes, ¬ otpPast settings now c
  sessions : ∀ s ∈ db.sessions, ¬ sessionPast now s
  queueTickets : ∀ q ∈ db.queueTickets, ¬ ticketDue settings zone now q
  waitlistEntries : ∀ e ∈ db.waitlistEntries, ¬ waitlistPast settings zone now e
  messageLog : ∀ m ∈ db.messageLog, ¬ messagePast settings now m
  bookings : ∀ b ∈ db.bookings, ¬ bookingPast settings now b
  customers : ∀ c ∈ db.customers, ¬ customerDue settings now db.bookings c
  staffUsers : ∀ s ∈ db.staffUsers, ¬ staffDue settings zone now s

theorem settled_of_counts (h : ∀ policy ∈ POLICIES, dryCount settings zone now policy db = 0) :
    Settled settings zone now db := by
  simp only [POLICIES, List.forall_mem_cons] at h
  obtain ⟨h1, h2, h3, h4, h5, h6, h7, h8, -⟩ := h
  exact ⟨List.countP_eq_zero.1 h1, List.countP_eq_zero.1 h2, List.countP_eq_zero.1 h3, List.countP_eq_zero.1 h4,
    List.countP_eq_zero.1 h5, List.countP_eq_zero.1 h6, List.countP_eq_zero.1 h7, List.countP_eq_zero.1 h8⟩

theorem scrubbedTicket_blank (q : QueueTicket) : BlankTicket (scrubbedTicket q) := ⟨rfl, erasedPhone_placeholder q.id⟩

theorem scrubbedCustomer_blank (c : Customer) : BlankCustomer (scrubbedCustomer now c) :=
  ⟨rfl, erasedPhone_placeholder c.id, rfl, rfl⟩

theorem scrubbedStaff_blank (s : StaffUser) : BlankStaff (scrubbedStaff now s) :=
  ⟨rfl, erasedPhone_placeholder s.id, rfl⟩

theorem orphan_iff (hk : Kept settings zone now db db') (S : Settled settings zone now db') (c : Customer) :
    orphan db'.bookings c = true ↔ ∀ b ∈ db.bookings, b.customerId = c.id → bookingPast settings now b := by
  simp only [orphan, List.all_eq_true, bne_iff_ne]
  constructor
  · intro h b hb hid
    by_contra hpast
    exact h b (hk.bookings.kept hb hpast) hid
  · exact fun h b hb hid => S.bookings b hb (h b (hk.bookings.mem hb) hid)

theorem clean_iff (hk : Kept settings zone now db db') (S : Settled settings zone now db') :
    Clean settings zone now db' ↔ Unspoiled settings zone now db := by
  constructor
  · intro C
    refine ⟨fun q hq hpast hname => ?_, fun c hc hpast hb hmark => ?_, fun s hs hpast hmark => ?_⟩
    · exact C.queueTickets q (hk.queueTickets.kept hq (by simp [ticketDue, hname])) hpast
    · have hin := hk.customers.kept hc (by simp [overdue, Option.isSome_iff_ne_none.1 hmark])
      exact C.customers c hin hpast ((orphan_iff hk S c).2 hb)
    · have hin := hk.staffUsers.kept hs (by simp [staffDue, Option.isSome_iff_ne_none.1 hmark])
      exact C.staffUsers s hin hpast
  · intro U
    refine ⟨S.otpCodes, S.sessions, fun q hq hpast => ?_, S.waitlistEntries, S.messageLog, S.bookings,
      fun c hc hpast horphan => ?_, fun s hs hpast => ?_⟩
    · have hnot := S.queueTickets q hq
      obtain ⟨hit, -, heq⟩ := hk.queueTickets
      obtain ⟨q0, hq0, rfl⟩ := List.mem_map.1 (heq ▸ hq)
      cases hh : hit q0 with
      | true => simpa [hh] using scrubbedTicket_blank q0
      | false =>
        simp only [hh, cond_false] at hpast hnot ⊢
        exact U.queueTickets q0 hq0 hpast (by simpa [ticketDue, hpast] using hnot)
    · have hnot := S.customers c hc
      have hall := (orphan_iff hk S c).1 horphan
      obtain ⟨hit, -, heq⟩ := hk.customers
      obtain ⟨c0, hc0, rfl⟩ := List.mem_map.1 (heq ▸ hc)
      cases hh : hit c0 with
      | true => simpa [hh] using scrubbedCustomer_blank c0
      | false =>
        simp only [hh, cond_false] at hpast hnot horphan hall ⊢
        exact U.customers c0 hc0 hpast hall (by simpa [customerDue, hpast, horphan, Option.isSome_iff_ne_none] using hnot)
    · have hnot := S.staffUsers s hs
      obtain ⟨hit, -, heq⟩ := hk.staffUsers
      obtain ⟨s0, hs0, rfl⟩ := List.mem_map.1 (heq ▸ hs)
      cases hh : hit s0 with
      | true => simpa [hh] using scrubbedStaff_blank s0
      | false =>
        simp only [hh, cond_false] at hpast hnot ⊢
        exact U.staffUsers s0 hs0 hpast (by simpa [staffDue, hpast, Option.isSome_iff_ne_none] using hnot)

/-- **Retention keeps its promises exactly when no row past its clock wears the mark of a scrub it never had.** -/
theorem retention_retains (settings : Settings) (zone : Zone) (now : Int) (dbs : List Database)
    (hs : ∀ db ∈ dbs, Sound db) :
    Retained settings zone now dbs ↔ ∀ db ∈ dbs, Unspoiled settings zone now db := by
  have hsound : ∀ n, ∀ db ∈ after settings zone now n dbs, Sound db := by
    intro n db hdb
    rw [after_eq] at hdb
    obtain ⟨db0, hdb0, rfl⟩ := List.mem_map.1 hdb
    exact tenantAfter_sound (hs db0 hdb0) n
  have hrest : ∀ n, Touchless (run settings zone now false (after settings zone now n dbs)).1 ↔ ∀ db ∈ dbs,
      (runForTenant settings zone now false POLICIES (tenantAfter settings zone now n db)).touched = [] := by
    intro n
    rw [touchless_iff (hsound n), after_eq, List.forall_mem_map]
  have hclean : ∀ n, Touchless (run settings zone now false (after settings zone now n dbs)).1 → ∀ db ∈ dbs,
      (Clean settings zone now (tenantAfter settings zone now (n + 1) db) ↔ Unspoiled settings zone now db) := by
    intro n ht db hdb
    have hnil := (hrest n).1 ht db hdb
    rw [tenantAfter_idle (hs db hdb) hnil]
    have R : Runs settings zone now POLICIES (tenantAfter settings zone now n db) _ :=
      tenant_runs (tenantAfter_sound (hs db hdb) n)
    exact clean_iff (tenantAfter_kept (hs db hdb) n) (settled_of_counts (R.idle hnil).2)
  have hsettles : ∃ n, ∀ m, n ≤ m → Touchless (run settings zone now false (after settings zone now m dbs)).1 := by
    refine ⟨(dbs.map (backlog settings zone now)).sum + 1, fun m hm => (hrest m).2 fun db hdb => ?_⟩
    by_contra hbusy
    have hle := busy_le (hs db hdb) m hbusy
    have hsum : backlog settings zone now db ≤ (dbs.map (backlog settings zone now)).sum :=
      List.single_le_sum (fun _ _ => Nat.zero_le _) _ (List.mem_map.2 ⟨db, hdb, rfl⟩)
    omega
  constructor
  · intro C db hdb
    obtain ⟨n, hn⟩ := hsettles
    refine (hclean n (hn n le_rfl) db hdb).1 (C.cleaned n (hn n le_rfl) _ ?_)
    rw [after_eq]
    exact List.mem_map.2 ⟨db, hdb, rfl⟩
  · intro U
    refine ⟨hsettles, fun n db hdb => (tenant_runs (hsound n db hdb)).chunked, fun n db hdb policy hp => ?_, fun n => ?_,
      fun n ht db hdb => ?_⟩
    · have O := policies_orderly settings zone now policy hp
      refine ⟨dryCount settings zone now policy db, fun bound hbound => ?_⟩
      obtain ⟨s, -, hfail, -, -, htotal, -⟩ := O.paced.drain Kept.refl Kept.trans bound (hsound n db hdb)
      have hpages : bound ≤ bound * CHUNK_SIZE := Nat.le_mul_of_pos_right bound (by decide)
      refine ⟨hfail, htotal.trans ?_⟩
      have hdry : (drainPolicy settings zone now policy true db).total = dryCount settings zone now policy db := by
        simp [drainPolicy, O.dry, Drained.total]
      omega
    · rw [after_eq, List.forall₂_map_right_iff, List.forall₂_same]
      exact fun db hdb => tenantAfter_kept (hs db hdb) n
    · rw [after_eq] at hdb
      obtain ⟨db0, hdb0, rfl⟩ := List.mem_map.1 hdb
      exact (hclean n ht db0 hdb0).2 (U db0 hdb0)

end Repeated

def shipped : Settings where
  retentionOtpSeconds := 15 * 60
  retentionQueueTicketSeconds := 7 * 24 * 3600
  retentionMessageLogSeconds := 730 * 24 * 3600
  retentionBookingsSeconds := 365 * 7 * 24 * 3600
  retentionOrphanCustomerSeconds := 30 * 24 * 3600
  waitlistRetentionDays := 30
  staffRetentionDays := 365 * 7

def utc : Zone where
  wallOf x := x
  instantOf x := x
  midnight_le x := Int.ediv_mul_le x Boutique.day_ne_zero
  lt_midnight x := Int.lt_ediv_add_one_mul_self x Boutique.day_pos

def visitor (name phone : String) : Database where
  otpCodes := []
  sessions := []
  queueTickets := [⟨1, 92, name, phone⟩, ⟨2, 90, ERASED_NAME, erasedPhone 7⟩]
  waitlistEntries := []
  messageLog := []
  bookings := [⟨1, 1, -365 * 8 * 24 * 3600 * second⟩]
  scheduledMessages := [⟨1, 1⟩]
  customers := [⟨1, "Noa", "+972501234567", some "ivory", ["vip"], -365 * 8 * 24 * 3600 * second, none, none⟩]
  staffUsers := []
  audit := []

def today : Int := 100 * Boutique.day + 12 * 3600 * second

theorem phone_own {phone : String} (h : phone.toList.head? ≠ some 'e') (n : Nat) : phone ≠ erasedPhone n := by
  rintro rfl
  exact h (by simp [erasedPhone, ERASED_PHONE_PREFIX])

theorem visitor_sound (name phone : String) : ∀ db ∈ [visitor name phone], Sound db := by
  intro db hdb
  rw [List.mem_singleton.1 hdb]
  refine ⟨.nil, .nil, ?_, .nil, .nil, List.nodup_singleton _, List.nodup_singleton _, .nil, ?_, ?_⟩
  · simp [visitor]
  · exact List.pairwise_singleton _ _
  · intro c hc n hn
    rw [List.mem_singleton.1 hc] at hn
    exact absurd hn (phone_own (by decide) n)

/-- A visitor who gave her name, and a ticket erased on request: the booking goes, the customer it orphans and the ticket
are blanked. -/
theorem retention_retains_once : Retained shipped utc today [visitor "Noa" "+972501234567"] := by
  refine (retention_retains shipped utc today _ (visitor_sound _ _)).2 fun db hdb => ?_
  rw [List.mem_singleton.1 hdb]
  refine ⟨fun q hq _ hname => ?_, fun c hc _ _ hmark => ?_, fun s hs => ?_⟩
  · rcases List.mem_cons.1 hq with rfl | hq
    · exact absurd hname (by decide)
    · rw [List.mem_singleton.1 hq]
      exact ⟨rfl, erasedPhone_placeholder 7⟩
  · rw [List.mem_singleton.1 hc] at hmark
    exact absurd hmark (by decide)
  · cases hs

/-- **A visitor who gives the name a scrub leaves keeps her phone for ever.** -/
theorem retention_overlooks : ¬ Retained shipped utc today [visitor ERASED_NAME "+972501234567"] := by
  intro C
  have ht : Touchless (run shipped utc today false (after shipped utc today 1 [visitor ERASED_NAME "+972501234567"])).1 := by
    refine (touchless_iff fun db hdb => ?_).2 (by decide)
    rw [after_eq] at hdb
    obtain ⟨db0, hdb0, rfl⟩ := List.mem_map.1 hdb
    exact tenantAfter_sound (visitor_sound _ _ db0 hdb0) 1
  have hblank := (C.cleaned 1 ht _ (by rw [after_eq]; exact List.mem_singleton.2 rfl)).queueTickets
    ⟨1, 92, ERASED_NAME, "+972501234567"⟩ (by decide) (by decide +kernel)
  exact absurd hblank.2 (by decide)

end Retention
