import Boutique.Jobs
/-!
# Footprints — what each service can write

Every operation of a service either writes nothing (`silent`) or is one of the writes listed for it here, with the lock
held where its constructor says so.  `Job.Writes` puts them together for each job.
-/
namespace Boutique

open Txn

abbrev Foot : Type := Bool → Op schema service → Prop

/-- Operations that leave no trace in the tables, and none outside that anything here speaks of. -/
def silent : Op schema service → Bool
  | .sql .lock => true
  | .sql (.read _) => true
  | .sql _ => false
  | .now => true
  | .ask (.createSession ..) => false
  | .ask (.sendSms ..) => false
  | .ask (.sendDue ..) => false
  | .ask _ => true

def boundary : Op schema service → Bool
  | .sql .begin => true
  | .sql .commit => true
  | .sql .abort => true
  | _ => false

/-- A footprint given by its writes: of what runs inside a transaction, or of what opens its own (`s`). -/
def Writes (s : Bool) (P : Foot) : Foot := fun l o => silent o = true ∨ (s = true ∧ boundary o = true) ∨ P l o

abbrev Op.update (T : Table) (i : Nat) (g : Change T) : Op schema service := .sql (.update T i g)

abbrev Op.insert (T : Table) (r : Row T) : Op schema service := .sql (.insert T r)

def Touches (Ts : List Table) : Foot := fun _ o => match o with
  | .sql (.update T _ _) => T ∈ Ts
  | .sql (.insert T _) => T ∈ Ts
  | _ => False

section Rules

variable {α β : Type} {P P' : Foot} {s l : Bool}

theorem writes_mono (h : ∀ l o, P l o → P' l o) (l : Bool) (o : Op schema service) (ho : Writes s P l o) :
    Writes s P' l o := ho.imp id (Or.imp id (h l o))

theorem writes_true (l : Bool) (o : Op schema service) (ho : Writes false P l o) : Writes true P l o :=
  ho.imp id (Or.imp (fun h => absurd h.1 (by decide)) id)

theorem steady_pure (a : α) : Steady (Writes s P) l (pure a : Prg α) := rfl

theorem steady_throw (e : Err) : Steady (Writes s P) l (throw e : Prg α) := rfl

theorem steady_ask {q : Ask} (h : silent (.ask q) = true) : Steady (Writes s P) l (ask q) := ⟨.inl h, fun _ => rfl⟩

theorem steady_clock : Steady (Writes s P) l clock := ⟨.inl rfl, fun _ => rfl⟩

theorem steady_select (q : Query) (f : Snapshot schema → α) : Steady (Writes s P) l (select q f) :=
  ⟨.inl rfl, fun _ => rfl⟩

variable {T : Table} {g : Change T}

theorem steady_update {i : Nat} (h : P l (Op.update T i g)) : Steady (Writes s P) l (update T i g) := by
  refine ⟨.inr (.inr h), fun x => ?_⟩
  cases x <;> rfl

theorem steady_insert {r : Row T} (h : P l (Op.insert T r)) : Steady (Writes s P) l (insert T r) := by
  refine ⟨.inr (.inr h), fun x => ?_⟩
  cases x <;> rfl

theorem steady_raiseIf (c : Bool) (e : Err) : Steady (Writes s P) l (raiseIf c e) := by
  cases c <;> rfl

theorem steady_orRaise (x : Option α) (e : Err) : Steady (Writes s P) l (orRaise x e) := by
  cases x <;> rfl

theorem steady_liftExcept (x : Except Err α) : Steady (Writes s P) l (liftExcept x) := by
  cases x <;> rfl

theorem steady_scalarOneOrNone (xs : List α) : Steady (Writes s P) l (scalarOneOrNone xs) := by
  match xs with
  | [] => rfl
  | [a] => rfl
  | a :: b :: xs => rfl

theorem steady_onIntegrity {p h : Prg α} (hp : Steady (Writes s P) l p) (hh : Steady (Writes s P) l h) :
    Steady (Writes s P) l (onIntegrity p h) := by
  refine Steady.bind hp.attempt fun x => ?_
  cases x with
  | ok a => rfl
  | error e =>
    show Steady (Writes s P) l (if e = .integrity then h else throw e)
    split
    · exact hh
    · rfl

theorem steady_updateOver :
    ∀ is : List Nat, (∀ i ∈ is, P l (Op.update T i g)) → Steady (Writes s P) l (updateEach T g is)
  | [], _ => rfl
  | i :: is, h => (steady_update (h i (List.mem_cons_self ..))).bind fun _ =>
      (steady_updateOver is fun j hj => h j (List.mem_cons_of_mem i hj)).bind fun _ => rfl

theorem steady_updateEach (h : ∀ i, P l (Op.update T i g)) (is : List Nat) :
    Steady (Writes s P) l (updateEach T g is) := steady_updateOver is fun i _ => h i

theorem steady_updateWhere {q : Query} (h : ∀ i, P l (Op.update T i g)) : Steady (Writes s P) l (updateWhere q T g) :=
  (steady_select _ _).bind fun _ => steady_updateEach h _

theorem within_lock {k : Unit → Prg β} (h : Within (Writes s P) true (k ())) :
    Within (Writes s P) l (advisoryLock >>= k) := ⟨.inl rfl, fun _ => h⟩

theorem steady_session {body : Int → Prg α} (h : ∀ n, Within (Writes false P) false (body n)) :
    Steady (Writes true P) false (tenantSession body) := by
  have hbegin : Steady (Writes true P) false (sql .begin) := ⟨.inr (.inl ⟨rfl, rfl⟩), fun _ => rfl⟩
  refine hbegin.bind fun n => ?_
  refine uses_bind (R := fun x _ => ∃ y, x = .ok y) ?_ (fun x l' _ => ?_) fun e _ hx => ?_
  · rw [Uses, Prog.wp_attempt]
    exact uses_mono writes_true (fun x _ _ => ⟨x, rfl⟩) (h n)
  · cases x with
    | ok a => exact ⟨.inr (.inl ⟨rfl, rfl⟩), fun _ => rfl⟩
    | error e => exact ⟨.inr (.inl ⟨rfl, rfl⟩), fun _ => rfl⟩
  · obtain ⟨y, hy⟩ := hx
    cases hy

end Rules

/-! ## The writes -/

inductive ReminderWrites (bookingId : Nat) : Foot
  | cancel (l : Bool) (i : Nat) : ReminderWrites bookingId l
      (Op.update .scheduledMessages i (.cancelPending bookingId .reminder))
  | token (l : Bool) (h : Digest) : ReminderWrites bookingId l (Op.update .bookings bookingId (.setManageTokenHash h))
  | insert (l : Bool) (at_ : Int) (token : Option Nat) : ReminderWrites bookingId l
      (Op.insert .scheduledMessages (Scheduled.pending bookingId .reminder at_ token))

inductive SendWrites (kind : MessageKind) (bookingId : Nat) : Foot
  | log (l : Bool) (phone : String) : SendWrites kind bookingId l
      (Op.insert .messageLog (MessageLogs.queued phone kind bookingId))
  | mark (l : Bool) (i : Nat) (status : MessageStatus) : SendWrites kind bookingId l
      (Op.update .messageLog i (.updateStatus status))
  | send (l : Bool) (phone : String) : SendWrites kind bookingId l (.ask (.sendSms phone kind bookingId))

inductive ClaimWrites : Foot
  | consume (l : Bool) (i : Nat) (phone : String) (h : Digest) (now at_ : Int) : ClaimWrites l
      (Op.update .otpCodes i (.consumeVerification phone h now at_))
  | claimEntry (l : Bool) (i : Nat) (now : Int) : ClaimWrites l (Op.update .waitlistEntries i (.claim now))
  | cancelOffer (l : Bool) (i entryId : Nat) : ClaimWrites l
      (Op.update .scheduledMessages i (.cancelPendingForEntry entryId .waitlistOffer))
  | setName (l : Bool) (i : Nat) (name : String) : ClaimWrites l (Op.update .customers i (.setName name))
  | consent (l : Bool) (i : Nat) (at_ : Int) : ClaimWrites l (Op.update .customers i (.recordMarketingConsent at_))
  | customer (l : Bool) (phone name : String) : ClaimWrites l (Op.insert .customers (Customers.fresh phone name))
  | seat (slot : Slot) (seatIndex : Nat) (now : Int) (customerId : Nat) (a : AppointmentType) (v token : Nat)
      (due : Bool) (text : ClaimText) : ClaimWrites true
      (Op.insert .bookings (seatRow slot seatIndex now customerId a v token due text))
  | remind (l : Bool) (bookingId : Nat) (at_ : Int) (token : Option Nat) : ClaimWrites l
      (Op.insert .scheduledMessages (Scheduled.pending bookingId .reminder at_ token))

inductive OpenWrites (bookingId : Nat) : Foot
  | session (amount holdSeconds : Int) : OpenWrites bookingId true (.ask (.createSession bookingId amount holdSeconds))
  | hold (provider : String) (amount : Int) (s : PaymentSession) (expires : Int) : OpenWrites bookingId true
      (Op.insert .payments (Payments.hold bookingId provider amount s expires))
  | unavailable (l : Bool) (provider : String) (amount : Int) : OpenWrites bookingId l
      (Op.insert .payments (Payments.unavailable bookingId provider amount))
  | stand (l : Bool) : OpenWrites bookingId l
      (Op.update .bookings bookingId (.setStatus .confirmed [.pendingPayment] none none))
  | evidence (l : Bool) (amount : Int) : OpenWrites bookingId l
      (Op.insert .auditLog (Audit.entry none "bookings" (.gatewayUnavailableAtCheckout bookingId amount)))

def AuditAction.effect : AuditAction → Bool
  | .bookingConfirmedByDeposit _ => true
  | .depositLateHonoured .. => true
  | .depositLateUnresolved .. => true
  | _ => false

/-- Evidence that is neither a settlement's effect on a booking, an owner's verb nor an arrival. -/
def AuditAction.plain : AuditAction → Bool
  | .bookingTransition .. => false
  | .bookingCheckedIn .. => false
  | .bookingCheckInUndone .. => false
  | a => !a.effect

inductive SettleWrites (event : WebhookEvent) : Foot
  | error (l : Bool) (i : Nat) (e : PaymentError) (h : e = .declined → event.paid = false) : SettleWrites event l
      (Op.update .payments i (.recordError e))
  | settle (l : Bool) (i : Nat) (at_ : Int) (paid : event.paid = true) : SettleWrites event l
      (Op.update .payments i (.settle event.providerTransactionId at_))
  | late (l : Bool) (i : Nat) (at_ : Int) : SettleWrites event l
      (Op.update .payments i (.settleLate event.providerTransactionId at_))
  | evidence (l : Bool) (a : AuditAction) (h : a.plain = true) : SettleWrites event l
      (Op.insert .auditLog (Audit.entry none "payments" a))

abbrev anyTime : Int → Prop := fun _ => True

/-- What a settlement does to its booking; `G` knows the instant a rebind compares the booking's with. -/
inductive EffectWrites (G : Int → Prop) : Foot
  | confirm (l : Bool) (b : Nat) : EffectWrites G l
      (Op.update .bookings b (.setStatus .confirmed [.pendingPayment] none none))
  | rebind (b seatIndex : Nat) (now : Int) (h : G now) : EffectWrites G true
      (Op.update .bookings b (.rebind seatIndex [.cancelled, .pendingPayment] now))
  | token (l : Bool) (b : Nat) (h : Digest) : EffectWrites G l (Op.update .bookings b (.setManageTokenHash h))
  | reminder (l : Bool) (b : Nat) {o : Op schema service} (h : ReminderWrites b l o) : EffectWrites G l o
  | effect (l : Bool) (a : AuditAction) (h : a.effect = true) : EffectWrites G l
      (Op.insert .auditLog (Audit.entry none "bookings" a))
  | send (l : Bool) (kind : MessageKind) (b : Nat) {o : Op schema service} (h : SendWrites kind b l o) : EffectWrites G l o

inductive SweepWrites : Foot
  | expire (l : Bool) (i : Nat) (now : Int) : SweepWrites l (Op.update .payments i (.expireHold now))
  | release (l : Bool) (b : Nat) (now : Int) : SweepWrites l
      (Op.update .bookings b (.cancel now .expired [.pendingPayment] none))
  | orphan (l : Bool) (b : Nat) (now grace : Int) : SweepWrites l (Op.update .bookings b (.cancelOrphan now grace))
  | evidence (l : Bool) (entity : String) (a : AuditAction) (h : a.plain = true) : SweepWrites l
      (Op.insert .auditLog (Audit.entry none entity a))

/-- The verbs that take no lock: they move no row, and make nothing live; an outcome waits for an instant `G` knows. -/
inductive VerbWrites (G : Int → Prop) : Foot
  | status (l : Bool) (b : Nat) (to_ : BookingStatus) (allowedFrom : List BookingStatus) (notAfter : Option Int)
      (hto : to_ ≠ .pendingPayment ∧ to_ ≠ .cancelled) (hfrom : .cancelled ∉ allowedFrom ∧ .pendingPayment ∉ allowedFrom)
      (hpast : to_ = .noShow ∨ to_ = .completed → ∃ n, notAfter = some n ∧ G n) : VerbWrites G l
      (Op.update .bookings b (.setStatus to_ allowedFrom none notAfter))
  | cancel (l : Bool) (b : Nat) (at_ : Int) (by_ : BookingCancelledBy) (notBefore : Option Int) : VerbWrites G l
      (Op.update .bookings b (.cancel at_ by_ [.confirmed] notBefore))
  | reminder (l : Bool) (i b : Nat) : VerbWrites G l (Op.update .scheduledMessages i (.cancelPending b .reminder))
  | evidence (l : Bool) (staffId : Nat) (entity : String) (b : Nat) (before after : BookingStatus) : VerbWrites G l
      (Op.insert .auditLog (Audit.entry (some staffId) entity (.bookingTransition b before after)))

inductive ArrivalWrites (bookingId : Nat) : Foot
  | checkIn (l : Bool) (at_ : Int) : ArrivalWrites bookingId l (Op.update .bookings bookingId (.checkIn at_))
  | evidence (l : Bool) (staffId : Nat) (at_ : Int) : ArrivalWrites bookingId l
      (Op.insert .auditLog (Audit.entry (some staffId) (toString bookingId) (.bookingCheckedIn bookingId at_)))

inductive UndoWrites (bookingId : Nat) : Foot
  | undo (l : Bool) : UndoWrites bookingId l (Op.update .bookings bookingId .undoCheckIn)
  | evidence (l : Bool) (staffId : Nat) (previous : Int) : UndoWrites bookingId l
      (Op.insert .auditLog (Audit.entry (some staffId) (toString bookingId) (.bookingCheckInUndone bookingId previous)))

/-- The reschedule of one booking, under the lock; `G` knows the instant it compares with. -/
inductive MoveWrites (G : Int → Prop) (bookingId : Nat) : Foot
  | restore (seatIndex : Nat) (now : Int) (h : G now) : MoveWrites G bookingId true
      (Op.update .bookings bookingId (.rebind seatIndex [.cancelled] now))
  | move (x : Int) (seatIndex : Nat) (now : Int) (h : G now) : MoveWrites G bookingId true
      (Op.update .bookings bookingId (.reschedule x seatIndex now))
  | reminder (l : Bool) {o : Op schema service} (h : ReminderWrites bookingId l o) : MoveWrites G bookingId l o
  | evidence (l : Bool) (staffId : Nat) (x y : Int) (i j : Nat) (restored : Bool) : MoveWrites G bookingId l
      (Op.insert .auditLog (Audit.entry (some staffId) (toString bookingId)
        (.bookingRescheduled bookingId x y i j restored)))

inductive EditWrites : Foot
  | retire (i : Nat) (at_ : Int) : EditWrites true (Op.update .availabilityRules i (.softDelete at_))
  | rule (r : AvailabilityRule) : EditWrites true (Op.insert .availabilityRules r)
  | except (l : Bool) (x : AvailabilityException) : EditWrites l (Op.insert .availabilityExceptions x)
  | unblock (l : Bool) (i : Nat) (at_ : Int) : EditWrites l (Op.update .availabilityExceptions i (.softDelete at_))

inductive TailWrites : Foot
  | open_ {l : Bool} {o : Op schema service} (b : Nat) (h : OpenWrites b l o) : TailWrites l o
  | send {l : Bool} {o : Op schema service} (b : Nat) (h : SendWrites .confirmation b l o) : TailWrites l o

inductive RouteWrites : Foot
  | claim {l : Bool} {o : Op schema service} (h : ClaimWrites l o) : RouteWrites l o
  | tail {l : Bool} {o : Op schema service} (h : TailWrites l o) : RouteWrites l o

inductive DeliveryWrites (event : WebhookEvent) : Foot
  | settle {l : Bool} {o : Op schema service} (h : SettleWrites event l o) : DeliveryWrites event l o
  | effect {l : Bool} {o : Op schema service} (h : EffectWrites anyTime l o) : DeliveryWrites event l o

/-- **What a job can write.** -/
def Job.Writes : Job → Foot
  | .createBooking _ => ClaimWrites
  | .claim _ => ClaimWrites
  | .postBookings _ => RouteWrites
  | .claimOffer _ => RouteWrites
  | .delivery event => DeliveryWrites event
  | .sweep => SweepWrites
  | .ownerConfirm .. | .ownerNoShow .. | .ownerComplete .. | .ownerCancel .. | .customerCancel _ => VerbWrites anyTime
  | .reschedule b _ _ => MoveWrites anyTime b
  | .checkIn b _ => ArrivalWrites b
  | .undoCheckIn b _ => UndoWrites b
  | .replaceWeeklyRules _ | .addException .. | .removeException _ => EditWrites

/-! ## Each service within its writes -/

section Services

variable {P : Foot} {s l : Bool} {G : Int → Prop}

theorem steady_oneOrNone {α : Type} (q : Query) (f : Snapshot schema → List α) :
    Steady (Writes s P) l (select q f >>= scalarOneOrNone) :=
  (steady_select q f).bind fun _ => steady_scalarOneOrNone _

theorem steady_reminderToken (b : Nat) (known : Option Nat) :
    Steady (Writes s (ReminderWrites b)) l (reminderToken b known) := by
  cases known with
  | some t => exact steady_pure _
  | none => exact (steady_ask rfl).bind fun t => (steady_update (.token l _)).bind fun _ => steady_pure _

theorem steady_upsertReminder (b : Nat) (x now : Int) (token : Option Nat) :
    Steady (Writes s (ReminderWrites b)) l (upsertReminder b x now token) := by
  unfold upsertReminder
  refine (steady_oneOrNone _ _).bind fun pending => ?_
  refine (steady_updateWhere fun i => .cancel l i).bind fun _ => ?_
  cases reminderSendAfter x now with
  | none => exact steady_pure _
  | some at_ =>
    exact (steady_reminderToken b _).bind fun t => (steady_insert (.insert l at_ _)).bind fun _ => steady_pure _

theorem steady_sendSms (phone : String) (kind : MessageKind) (b : Nat) :
    Steady (Writes true (SendWrites kind b)) false (sendSms phone kind b) := by
  unfold sendSms
  refine (steady_ask rfl).bind fun _ => (steady_raiseIf _ _).bind fun _ => (steady_raiseIf _ _).bind fun _ => ?_
  refine (steady_session fun _ => (steady_insert (.log false phone)).within).bind fun row => ?_
  have hmark : ∀ status, Steady (Writes true (SendWrites kind b)) false
      (tenantSession fun _ => MessageLogs.updateStatus row.id status) := fun status =>
    steady_session fun _ => (steady_update (.mark false row.id status)).within
  have hsend : Steady (Writes true (SendWrites kind b)) false (ask (.sendSms phone kind b)) :=
    ⟨.inr (.inr (.send false phone)), fun _ => rfl⟩
  refine hsend.bind fun r => ?_
  cases r with
  | sent => exact (hmark _).bind fun _ => steady_pure _
  | refused => exact (hmark _).bind fun _ => steady_throw _
  | notConfigured => exact (hmark _).bind fun _ => steady_throw _

theorem steady_deliver (phone : String) (kind : MessageKind) (b : Nat) :
    Steady (Writes true (SendWrites kind b)) false (deliver phone kind b) := by
  have hsend := (steady_sendSms phone kind b).bind fun _ => steady_pure (P := SendWrites kind b) (l := false) true
  refine Steady.bind hsend.attempt fun x => ?_
  cases x with
  | ok a => exact steady_pure _
  | error e =>
    show Steady _ _ (if _ then _ else _)
    split
    · exact steady_pure _
    · exact steady_throw _

theorem steady_notify (kind : MessageKind) (booking : Booking) :
    Steady (Writes true (SendWrites kind booking.id)) false (notify kind booking) := by
  unfold notify customerPhone
  refine (steady_ask rfl).bind fun configured => ?_
  cases configured with
  | false => exact steady_pure _
  | true =>
    refine Steady.bind ((steady_session fun _ => (steady_select _ _).within).bind fun _ => steady_pure _) fun phone => ?_
    cases phone with
    | none => exact steady_pure _
    | some phone => exact steady_deliver phone kind booking.id

theorem steady_offeredSlot (cfg : Config) (x now : Int) : Steady (Writes s P) l (offeredSlot cfg x now) := by
  unfold offeredSlot daySlots
  refine Steady.bind ?_ fun _ => steady_pure _
  exact (steady_select _ _).bind fun _ => (steady_select _ _).bind fun _ => (steady_select _ _).bind fun _ =>
    steady_pure _

theorem steady_insertSeat {row : Booking} (h : P l (Op.insert .bookings row)) :
    Steady (Writes s P) l (insertSeat row) := steady_onIntegrity (steady_insert h) (steady_throw _)

theorem steady_scheduleReminder (b : Booking) (now : Int) (token : Nat) :
    Steady (Writes s ClaimWrites) l (scheduleReminder b now token) := by
  unfold scheduleReminder
  cases reminderSendAfter b.startsAt now with
  | none => exact steady_pure _
  | some at_ => exact (steady_insert (.remind l b.id at_ _)).bind fun _ => steady_pure _

theorem within_claimSeat (cfg : Config) (x now : Int) (customerId : Nat) (a : AppointmentType) (v token : Nat)
    (due : Bool) (text : ClaimText) :
    Within (Writes s ClaimWrites) l (claimSeat cfg x now customerId a v token due text) := by
  unfold claimSeat
  refine within_lock (Steady.within ?_)
  refine (steady_offeredSlot cfg x now).bind fun _ => (steady_orRaise _ _).bind fun slot => ?_
  refine (steady_select _ _).bind fun _ => (steady_orRaise _ _).bind fun seatIndex => ?_
  exact (steady_insertSeat (.seat slot seatIndex now customerId a v token due text)).bind fun b =>
    (steady_scheduleReminder b now token).bind fun _ => steady_pure _

theorem steady_upsert (hupdate : ∀ i n, P l (Op.update .customers i (.setName n)))
    (hinsert : ∀ p n, P l (Op.insert .customers (Customers.fresh p n))) (phone name : String) :
    Steady (Writes s P) l (Customers.upsert phone name) := by
  unfold Customers.upsert
  refine (steady_oneOrNone _ _).bind fun existing => ?_
  cases existing with
  | none => exact steady_insert (hinsert phone name)
  | some c =>
    dsimp only
    split
    · exact steady_pure _
    · exact (steady_update (hupdate c.id name)).bind fun _ => steady_pure _

theorem steady_stampConsent (h : ∀ i n, P l (Op.update .customers i (.recordMarketingConsent n))) (consent : Bool)
    (customerId : Nat) (at_ : Int) : Steady (Writes s P) l (BookingService.stampConsent consent customerId at_) := by
  cases consent with
  | false => exact steady_pure _
  | true => exact (steady_update (h customerId at_)).bind fun _ => steady_pure _

theorem steady_gatewayConnected (cfg : Config) : Steady (Writes s P) l (gatewayConnected cfg) := by
  unfold gatewayConnected
  split
  · exact steady_ask rfl
  · exact steady_pure _

theorem steady_provePhone (h : ∀ i p d n m, P l (Op.update .otpCodes i (.consumeVerification p d n m))) (phone : String)
    (token : Nat) (at_ : Int) : Steady (Writes s P) l (BookingService.provePhone phone token at_) := by
  unfold BookingService.provePhone OtpCodes.consumeVerification
  refine steady_clock.bind fun now => ?_
  refine Steady.bind ?_ fun _ => (steady_raiseIf _ _).bind fun _ => (steady_ask rfl).bind fun _ => steady_ask rfl
  exact (steady_updateWhere fun i => h i _ _ _ _).bind fun _ => (steady_scalarOneOrNone _).bind fun _ =>
    steady_pure _

theorem steady_typeAndTerms (typeId v : Nat) : Steady (Writes s P) l (BookingService.typeAndTerms typeId v) :=
  (steady_select _ _).bind fun _ => (steady_orRaise _ _).bind fun _ => (steady_select _ _).bind fun _ =>
    (steady_raiseIf _ _).bind fun _ => steady_pure _

theorem steady_snapshotDress (cfg : Config) (dressId : Option Nat) (size : Option String) :
    Steady (Writes s P) l (BookingService.snapshotDress cfg dressId size) := by
  cases dressId with
  | none => exact steady_pure _
  | some id =>
    exact (steady_orRaise _ _).bind fun _ => (steady_select _ _).bind fun _ => (steady_orRaise _ _).bind fun _ =>
      (steady_select _ _).bind fun _ => (steady_orRaise _ _).bind fun _ => steady_pure _

theorem steady_replayed (phone : String) (x : Int) : Steady (Writes s P) l (BookingService.replayed phone x) := by
  unfold BookingService.replayed
  refine (steady_oneOrNone _ _).bind fun existing => ?_
  cases existing with
  | none => exact steady_pure _
  | some c => exact (steady_oneOrNone _ _).bind fun _ => steady_pure _

theorem steady_checkDress (cfg : Config) (dressId : Option Nat) (x : Int) :
    Steady (Writes s P) l (BookingService.checkDress cfg dressId x) := by
  cases dressId with
  | none => exact steady_pure _
  | some id => exact (steady_select _ _).bind fun _ => steady_raiseIf _ _

theorem within_freshClaim (cfg : Config) (r : CreateRequest) (phone : String) (now txNow : Int) (a : AppointmentType)
    (due : Bool) (dress : Option String × Option String) :
    Within (Writes s ClaimWrites) l (BookingService.freshClaim cfg r phone now txNow a due dress) := by
  unfold BookingService.freshClaim
  refine (steady_checkDress cfg r.dressId r.startsAt).then_ fun _ => ?_
  refine (steady_upsert (.setName _) (.customer _) phone _).then_ fun c => (steady_stampConsent (.consent _) _ c.id txNow).then_ fun _ => ?_
  refine Steady.then_ (steady_ask rfl) fun token => ?_
  exact uses_bind (within_claimSeat ..) (fun _ _ _ => trivial) fun _ _ _ => trivial

theorem within_lockedCreate (cfg : Config) (r : CreateRequest) (phone : String) (now txNow : Int) (a : AppointmentType)
    (due : Bool) (dress : Option String × Option String) :
    Within (Writes s ClaimWrites) l (BookingService.lockedCreate cfg r phone now txNow a due dress) := by
  unfold BookingService.lockedCreate
  refine within_lock ((steady_replayed phone r.startsAt).then_ fun found => ?_)
  cases found with
  | none => exact within_freshClaim cfg r phone now txNow a due dress
  | some p => exact ((steady_stampConsent (.consent _) _ p.1.id txNow).bind fun _ => steady_pure _).within

theorem within_createIn (cfg : Config) (r : CreateRequest) (phone : String) (now txNow : Int) :
    Within (Writes s ClaimWrites) l (BookingService.createIn cfg r phone now txNow) := by
  unfold BookingService.createIn
  refine (steady_provePhone (.consume _) phone _ txNow).then_ fun _ => (steady_typeAndTerms _ _).then_ fun a => ?_
  refine (steady_gatewayConnected cfg).then_ fun _ => (steady_snapshotDress cfg _ _).then_ fun dress => ?_
  exact within_lockedCreate cfg r phone now txNow a _ dress

theorem steady_checkBudgets (phone : String) : Steady (Writes s P) l (BookingService.checkBudgets phone) := by
  unfold BookingService.checkBudgets
  refine (steady_ask rfl).bind fun blocked => ?_
  cases blocked with
  | true => exact steady_throw _
  | false => exact (steady_ask rfl).bind fun _ => steady_raiseIf _ _

theorem steady_createBooking (cfg : Config) (r : CreateRequest) :
    Steady (Writes true ClaimWrites) false (BookingService.createBooking cfg r) := by
  unfold BookingService.createBooking
  refine (steady_liftExcept _).bind fun _ => (steady_liftExcept _).bind fun phone => ?_
  refine steady_clock.bind fun now => (steady_raiseIf _ _).bind fun _ => (steady_checkBudgets phone).bind fun _ => ?_
  exact steady_session fun txNow => within_createIn cfg r phone now txNow

theorem steady_claimEntry (h : ∀ i n, P l (Op.update .waitlistEntries i (.claim n))) (i : Nat) (now : Int) :
    Steady (Writes s P) l (WaitlistOffer.claimEntry i now) := by
  unfold WaitlistOffer.claimEntry Entries.claim
  refine Steady.bind ((steady_update (h i now)).bind fun _ => steady_pure _) fun won => ?_
  cases won with
  | true => exact steady_pure _
  | false => exact (steady_select _ _).bind fun _ => steady_throw _

theorem within_claimIn (cfg : Config) (r : OfferClaimRequest) (now : Int) :
    Within (Writes s ClaimWrites) l (WaitlistOffer.claimIn cfg r now) := by
  unfold WaitlistOffer.claimIn WaitlistOffer.resolve
  refine Steady.then_ ((steady_oneOrNone _ _).bind fun _ => (steady_orRaise _ _).bind fun _ =>
    (steady_raiseIf _ _).bind fun _ => steady_pure _) fun entry => ?_
  refine (steady_select _ _).then_ fun _ => (steady_raiseIf _ _).then_ fun _ => (steady_select _ _).then_ fun _ => ?_
  refine (steady_orRaise _ _).then_ fun a => (steady_orRaise _ _).then_ fun x => ?_
  refine (steady_claimEntry (.claimEntry _) entry.id now).then_ fun _ => ?_
  refine (steady_updateWhere fun i => .cancelOffer l i entry.id).then_ fun _ => ?_
  refine (steady_gatewayConnected cfg).then_ fun _ => (steady_upsert (.setName _) (.customer _) _ _).then_ fun c => ?_
  refine Steady.then_ (steady_ask rfl) fun token => ?_
  exact uses_bind (within_claimSeat ..) (fun _ _ _ => trivial) fun _ _ _ => trivial

theorem steady_claim (cfg : Config) (r : OfferClaimRequest) :
    Steady (Writes true ClaimWrites) false (WaitlistOffer.claim cfg r) :=
  (steady_liftExcept _).bind fun _ => steady_clock.bind fun now => steady_session fun _ => within_claimIn cfg r now

theorem steady_requireProvider (cfg : Config) : Steady (Writes s P) l (PaymentService.requireProvider cfg) := by
  unfold PaymentService.requireProvider
  split
  · split
    · exact steady_pure _
    · exact steady_throw _
  · exact steady_throw _

theorem steady_raiseAny (x : Option Err) : Steady (Writes s P) l (PaymentService.raiseAny x) := by
  cases x with
  | none => exact steady_pure _
  | some e => exact steady_throw _

theorem steady_mintHold (provider : String) (b : Nat) (amount holdSeconds now : Int) :
    Steady (Writes s (OpenWrites b)) true (PaymentService.mintHold provider b amount holdSeconds now) := by
  have hmint : Steady (Writes s (OpenWrites b)) true (ask (.createSession b amount holdSeconds)) :=
    ⟨.inr (.inr (.session amount holdSeconds)), fun _ => rfl⟩
  refine hmint.bind fun answer => (steady_liftExcept _).bind fun session => ?_
  exact (steady_onIntegrity (steady_insert (.hold provider amount session _)) (steady_throw _)).bind fun _ =>
    steady_pure _

theorem steady_paymentOpenDeposit (cfg : Config) (b : Nat) (amount holdSeconds : Int) :
    Steady (Writes true (OpenWrites b)) false (PaymentService.openDeposit cfg b amount holdSeconds) := by
  unfold PaymentService.openDeposit PaymentService.credentialsFor
  refine (steady_requireProvider cfg).bind fun provider => ?_
  refine Steady.bind ((steady_ask rfl).bind fun _ => steady_raiseAny _) fun _ => steady_clock.bind fun now => ?_
  refine steady_session fun _ => within_lock (Steady.within ?_)
  refine (steady_oneOrNone _ _).bind fun existing => ?_
  cases existing with
  | some p => exact steady_pure _
  | none => exact steady_mintHold provider b amount holdSeconds now

theorem steady_bookWithoutDeposit (cfg : Config) (claim : BookingClaim)
    (hmark : ∀ p n, P false (Op.insert .payments (Payments.unavailable claim.booking.id p n)))
    (hstand : P false (Op.update .bookings claim.booking.id (.setStatus .confirmed [.pendingPayment] none none)))
    (hevidence : ∀ n, P false (Op.insert .auditLog (Audit.entry none "bookings"
      (.gatewayUnavailableAtCheckout claim.booking.id n)))) :
    Steady (Writes true P) false (BookingService.bookWithoutDeposit cfg claim) := by
  unfold BookingService.bookWithoutDeposit
  refine Steady.bind (steady_session fun _ => Steady.within ?_) fun _ => steady_pure _
  refine (steady_update hstand).bind fun booking => ?_
  have hrecord : Steady (Writes false P) false (Audit.record none "bookings"
      (.gatewayUnavailableAtCheckout claim.booking.id claim.depositAmountAgorot)) := steady_insert (hevidence _)
  cases (if cfg.credentialsWired then cfg.provider else none) with
  | none => exact hrecord.bind fun _ => steady_pure _
  | some p => exact (steady_insert (hmark p _)).bind fun _ => hrecord.bind fun _ => steady_pure _

theorem steady_compensation (cfg : Config) (claim : BookingClaim) :
    Steady (Writes true (OpenWrites claim.booking.id)) false (BookingService.bookWithoutDeposit cfg claim) :=
  steady_bookWithoutDeposit cfg claim (.unavailable false) (.stand false) (.evidence false)

theorem steady_openDeposit (cfg : Config) (claim : BookingClaim) :
    Steady (Writes true (OpenWrites claim.booking.id)) false (BookingService.openDeposit cfg claim) := by
  unfold BookingService.openDeposit
  split
  · exact steady_pure _
  · split
    · exact steady_compensation cfg claim
    · refine (steady_paymentOpenDeposit cfg _ _ _).attempt.bind fun x => ?_
      cases x with
      | ok hold => exact steady_pure _
      | error e =>
        dsimp only
        split
        · exact steady_compensation cfg claim
        · exact steady_throw _

theorem steady_answerClaim (cfg : Config) (claim : BookingClaim) :
    Steady (Writes true TailWrites) false (answerClaim cfg claim) := by
  unfold answerClaim
  refine ((steady_openDeposit cfg claim).mono (writes_mono fun _ _ h => .open_ _ h)).bind fun deposit => ?_
  dsimp only
  split
  · exact ((steady_notify .confirmation claim.booking).mono (writes_mono fun _ _ h => .send _ h)).bind fun _ => steady_pure _
  · exact steady_pure _

theorem steady_verifyWebhook (event : WebhookEvent) :
    Steady (Writes s P) l (PaymentService.verifyWebhook event) :=
  (steady_ask rfl).bind fun _ => (steady_raiseAny _).bind fun _ => steady_ask rfl

theorem steady_explainMissed (event : WebhookEvent) (i : Nat) (provider : String) :
    Steady (Writes s (SettleWrites event)) l
      (PaymentService.explainMissedSettlement i provider event.providerTransactionId) := by
  unfold PaymentService.explainMissedSettlement
  refine (steady_select _ _).bind fun _ => (steady_orRaise _ _).bind fun row => ?_
  split
  · split
    · exact steady_pure _
    · exact (steady_update (.error l i _ nofun)).bind fun _ => (steady_insert (.evidence l _ rfl)).bind fun _ =>
        steady_pure _
  · exact (steady_update (.error l i _ nofun)).bind fun _ => (steady_insert (.evidence l _ rfl)).bind fun _ =>
      steady_pure _

theorem steady_settleIn (event : WebhookEvent) (provider : String) (now : Int) :
    Steady (Writes s (SettleWrites event)) l (PaymentService.settleIn provider event now) := by
  unfold PaymentService.settleIn
  refine (steady_oneOrNone _ _).bind fun already => ?_
  cases already with
  | some p => exact steady_pure _
  | none =>
    refine (steady_oneOrNone _ _).bind fun row => ?_
    cases row with
    | none => exact (steady_insert (.evidence l _ rfl)).bind fun _ => steady_pure _
    | some row =>
      unfold PaymentService.settleRow PaymentService.recordDecline
      cases hpaid : event.paid with
      | false =>
        exact Steady.bind ((steady_update (.error l row.id _ fun _ => hpaid)).bind fun _ =>
          (steady_insert (.evidence l _ rfl)).bind fun _ => steady_pure _) fun _ => steady_pure _
      | true =>
        simp only [Bool.not_true, Bool.false_eq_true, if_false]
        split
        · refine (steady_update (SettleWrites.settle l row.id now hpaid)).bind fun settled => ?_
          cases settled with
          | some p => exact steady_pure _
          | none => exact (steady_explainMissed event row.id provider).bind fun _ => steady_pure _
        · exact steady_pure _

theorem steady_settleFromWebhook (cfg : Config) (event : WebhookEvent) :
    Steady (Writes true (SettleWrites event)) false (PaymentService.settleFromWebhook cfg event) := by
  unfold PaymentService.settleFromWebhook PaymentService.recordAmountMismatch
  refine (steady_requireProvider cfg).bind fun provider => (steady_verifyWebhook event).bind fun valid => ?_
  cases valid with
  | false =>
    exact (steady_session fun _ => (steady_insert (.evidence false _ rfl)).within).bind fun _ => steady_throw _
  | true =>
    refine steady_clock.bind fun now => ?_
    refine (steady_session fun _ => (steady_settleIn event provider now).within).bind fun outcome => ?_
    cases outcome with
    | settled s => exact steady_pure _
    | unmatched => exact steady_throw _
    | mismatch i =>
      refine Steady.bind (steady_session fun _ => Steady.within ?_) fun _ => steady_throw _
      exact (steady_update (.error false i _ nofun)).bind fun _ => (steady_insert (.evidence false _ rfl)).bind fun _ =>
        steady_pure _

theorem steady_confirm (b : Nat) : Steady (Writes true (EffectWrites G)) false (DepositBooking.confirm b) := by
  unfold DepositBooking.confirm DepositBooking.confirmIn
  refine Steady.bind (steady_ask rfl) fun token => ?_
  refine Steady.bind (steady_session fun _ => Steady.within ?_) fun confirmed => ?_
  · refine (steady_update (.confirm false b)).bind fun booking => ?_
    cases booking with
    | none => exact steady_pure _
    | some booking =>
      refine (steady_update (.token false b _)).bind fun _ => steady_clock.bind fun now => ?_
      refine ((steady_upsertReminder b _ now _).mono (writes_mono fun _ _ h => .reminder _ b h)).bind fun _ => ?_
      exact (steady_insert (.effect false _ rfl)).bind fun _ => steady_pure _
  · cases confirmed with
    | none => exact steady_pure _
    | some booking =>
      exact ((steady_notify .confirmation booking).mono (writes_mono fun _ _ h => .send _ _ _ h)).bind fun _ => steady_pure _

theorem steady_freeSeat (cfg : Config) (booking : Booking) (now : Int) :
    Steady (Writes s P) l (DepositBooking.freeSeat cfg booking now) := by
  unfold DepositBooking.freeSeat
  refine (steady_select _ _).bind fun rules => (steady_select _ _).bind fun exceptions => ?_
  simp only []
  split
  · exact steady_pure _
  · exact (steady_select _ _).bind fun _ => steady_pure _

theorem steady_rebind (cfg : Config) (booking : Booking) (now : Int) (hG : G now) (token : Nat) :
    Steady (Writes s (EffectWrites G)) true (DepositBooking.rebind cfg booking now token) := by
  unfold DepositBooking.rebind
  refine (steady_freeSeat cfg booking now).bind fun seat => ?_
  cases seat with
  | none => exact steady_pure _
  | some i =>
    refine (steady_oneOrNone _ _).bind fun other => ?_
    split
    · exact steady_pure _
    · refine (steady_update (.rebind booking.id i now hG)).bind fun rebound => ?_
      cases rebound with
      | none => exact steady_pure _
      | some rebound =>
        refine (steady_update (.token true booking.id _)).bind fun _ => ?_
        refine ((steady_upsertReminder booking.id _ now _).mono (writes_mono fun _ _ h => .reminder _ _ h)).bind fun _ => ?_
        exact (steady_insert (.effect true _ rfl)).bind fun _ => steady_pure _

theorem steady_reinstate (cfg : Config) (booking : Booking) (now : Int) (hG : G now) (token : Nat) :
    Steady (Writes true (EffectWrites G)) false (DepositBooking.reinstate cfg booking now token) :=
  steady_onIntegrity
    (steady_session fun _ =>
      within_lock (((steady_rebind cfg booking now hG token).bind fun _ => steady_pure _).within))
    (steady_pure _)

theorem steady_report (booking : Booking) (honoured : Payment) (attempt : Option Booking × UnresolvedReason) :
    Steady (Writes true (EffectWrites G)) false (DepositBooking.report booking honoured attempt) := by
  unfold DepositBooking.report
  cases attempt.1 with
  | some rebound =>
    exact ((steady_notify .confirmation rebound).mono (writes_mono fun _ _ h => .send _ _ _ h)).bind fun _ => steady_pure _
  | none =>
    refine (steady_session fun _ => (steady_insert (.effect false _ rfl)).within).bind fun _ => ?_
    exact ((steady_notify .paymentReceivedNoSlot booking).mono (writes_mono fun _ _ h => .send _ _ _ h)).bind fun _ =>
      steady_pure _

theorem steady_honour (cfg : Config) (payment : Payment) (event : WebhookEvent) :
    Steady (Writes true (DeliveryWrites event)) false (DepositBooking.honour cfg payment event) := by
  unfold DepositBooking.honour PaymentService.honourLateSettlement
  refine (steady_verifyWebhook event).bind fun _ => (steady_raiseIf _ _).bind fun _ => steady_clock.bind fun paidAt => ?_
  refine (steady_session fun _ => (steady_update (.settle (.late false payment.id paidAt))).within).bind fun honoured => ?_
  cases honoured with
  | none => exact steady_pure _
  | some honoured =>
    refine Steady.mono (writes_mono (P := EffectWrites anyTime) fun _ _ h => .effect h) ?_
    refine (steady_session fun _ => (steady_select _ _).within).bind fun booking => ?_
    cases booking with
    | none => exact steady_pure _
    | some booking =>
      refine steady_clock.bind fun now => Steady.bind (steady_ask rfl) fun token => ?_
      exact (steady_reinstate cfg booking now trivial token).bind fun attempt => steady_report booking honoured attempt

theorem steady_react (cfg : Config) (event : WebhookEvent) (s : PaymentService.Settlement) :
    Steady (Writes true (DeliveryWrites event)) false (DepositBooking.react cfg event s) := by
  unfold DepositBooking.react
  cases depositReaction s with
  | confirm => exact (steady_confirm _).mono (writes_mono fun _ _ h => .effect h)
  | honour => exact steady_honour cfg s.payment event
  | ignore => exact steady_pure _

theorem steady_settle (cfg : Config) (event : WebhookEvent) :
    Steady (Writes true (DeliveryWrites event)) false (DepositBooking.settle cfg event) :=
  ((steady_settleFromWebhook cfg event).mono (writes_mono fun _ _ h => .settle h)).bind fun s =>
    (steady_react cfg event s).bind fun _ => steady_pure _

theorem steady_releaseEach (now : Int) :
    ∀ ps : List Payment, Steady (Writes s SweepWrites) l (DepositSweeper.releaseEach now ps)
  | [] => steady_pure _
  | p :: ps => (steady_update (.release l p.bookingId now)).bind fun _ =>
      (steady_insert (.evidence l _ _ rfl)).bind fun _ => (steady_releaseEach now ps).bind fun _ => steady_pure _

theorem steady_recordOrphans : ∀ bs : List Booking, Steady (Writes s SweepWrites) l (DepositSweeper.recordOrphans bs)
  | [] => steady_pure _
  | _ :: bs => (steady_insert (.evidence l _ _ rfl)).bind fun _ => steady_recordOrphans bs

theorem steady_sweep (cfg : Config) : Steady (Writes true SweepWrites) false (DepositSweeper.sweep cfg) := by
  unfold DepositSweeper.sweep DepositSweeper.expireHolds DepositSweeper.cancelOrphans
  refine steady_clock.bind fun now => steady_session fun _ => Steady.within ?_
  refine Steady.bind ((steady_select _ _).bind fun _ => steady_updateEach (fun i => .expire _ i now) _) fun claimed => ?_
  refine (steady_releaseEach now claimed).bind fun _ => ?_
  refine Steady.bind ((steady_select _ _).bind fun _ => steady_updateEach (fun i => .orphan _ i now _) _) fun orphans => ?_
  exact (steady_recordOrphans orphans).bind fun _ => steady_pure _

theorem steady_transitionAt (b staffId : Nat) (to_ : BookingStatus) (allowedFrom : List BookingStatus) (pastOnly : Bool)
    (now : Int) (hto : to_ ≠ .pendingPayment ∧ to_ ≠ .cancelled)
    (hfrom : .cancelled ∉ allowedFrom ∧ .pendingPayment ∉ allowedFrom)
    (hpast : to_ = .noShow ∨ to_ = .completed → pastOnly = true ∧ G now) :
    Steady (Writes true (VerbWrites G)) false (OwnerBooking.transitionAt b staffId to_ allowedFrom pastOnly now) := by
  unfold OwnerBooking.transitionAt OwnerBooking.record
  refine steady_session fun _ => Steady.within ?_
  refine (steady_select _ _).bind fun _ => (steady_orRaise _ _).bind fun booking => ?_
  split
  · exact steady_pure _
  · refine (steady_raiseIf _ _).bind fun _ => (steady_raiseIf _ _).bind fun _ => ?_
    have hbound : to_ = .noShow ∨ to_ = .completed → ∃ n, (if pastOnly then some now else none) = some n ∧ G n := fun h =>
      ⟨now, by rw [(hpast h).1]; rfl, (hpast h).2⟩
    refine (steady_update (.status _ b to_ allowedFrom _ hto hfrom hbound)).bind fun _ => (steady_orRaise _ _).bind fun _ => ?_
    exact (steady_insert (.evidence _ staffId _ _ _ _)).bind fun _ => steady_pure _

theorem steady_transition (b staffId : Nat) (to_ : BookingStatus) (allowedFrom : List BookingStatus) (pastOnly : Bool)
    (hto : to_ ≠ .pendingPayment ∧ to_ ≠ .cancelled) (hfrom : .cancelled ∉ allowedFrom ∧ .pendingPayment ∉ allowedFrom)
    (hpast : to_ = .noShow ∨ to_ = .completed → pastOnly = true) :
    Steady (Writes true (VerbWrites anyTime)) false (OwnerBooking.transition b staffId to_ allowedFrom pastOnly) :=
  steady_clock.bind fun now => steady_transitionAt b staffId to_ allowedFrom pastOnly now hto hfrom fun h =>
    ⟨hpast h, trivial⟩

theorem steady_ownerCancel (b staffId : Nat) : Steady (Writes true (VerbWrites G)) false (OwnerBooking.cancel b staffId) := by
  unfold OwnerBooking.cancel OwnerBooking.record
  refine steady_clock.bind fun now => steady_session fun _ => Steady.within ?_
  refine (steady_select _ _).bind fun _ => (steady_orRaise _ _).bind fun booking => ?_
  split
  · exact steady_pure _
  · refine (steady_raiseIf _ _).bind fun _ => (steady_raiseIf _ _).bind fun _ => ?_
    refine (steady_update (.cancel _ b now _ _)).bind fun _ => (steady_orRaise _ _).bind fun _ => ?_
    refine (steady_raiseIf _ _).bind fun _ => (steady_updateWhere fun i => .reminder _ i b).bind fun _ => ?_
    exact (steady_insert (.evidence _ staffId _ _ _ _)).bind fun _ => steady_pure _

theorem steady_checkIn (b staffId : Nat) :
    Steady (Writes true (ArrivalWrites b)) false (OwnerBooking.checkIn b staffId) := by
  unfold OwnerBooking.checkIn OwnerBooking.checkInAt Bookings.checkIn
  refine steady_clock.bind fun now => steady_session fun _ => Steady.within ?_
  refine (steady_select _ _).bind fun _ => (steady_orRaise _ _).bind fun booking => ?_
  split
  · exact steady_pure _
  · refine (steady_raiseIf _ _).bind fun _ => Steady.bind ((steady_update (.checkIn _ now)).bind fun wrote =>
      (steady_select _ _).bind fun row => ?_) fun outcome => ?_
    · show Steady _ _ (if _ then _ else _)
      split
      · exact steady_pure _
      · cases row <;> exact steady_pure _
    · obtain ⟨outcome, row⟩ := outcome
      cases outcome
      · exact (steady_orRaise _ _).bind fun _ => (steady_insert (.evidence _ staffId now)).bind fun _ => steady_pure _
      · exact steady_throw _
      · exact (steady_orRaise _ _).bind fun _ => steady_pure _
      · exact steady_throw _

theorem steady_undoCheckIn (b staffId : Nat) :
    Steady (Writes true (UndoWrites b)) false (OwnerBooking.undoCheckIn b staffId) := by
  unfold OwnerBooking.undoCheckIn Bookings.undoCheckIn
  refine steady_session fun _ => Steady.within ?_
  refine (steady_select _ _).bind fun _ => (steady_orRaise _ _).bind fun booking => ?_
  split
  · exact steady_pure _
  · rename_i previous _
    refine Steady.bind ((steady_update (.undo _)).bind fun wrote => (steady_select _ _).bind fun row => ?_) fun outcome => ?_
    · show Steady _ _ (if _ then _ else _)
      split
      · exact steady_pure _
      · cases row <;> exact steady_pure _
    · obtain ⟨outcome, row⟩ := outcome
      cases outcome <;> cases row <;> first
        | exact steady_throw _
        | exact steady_pure _
        | exact (steady_insert (.evidence _ staffId previous)).bind fun _ => steady_pure _

theorem steady_customerCancel (token : Nat) : Steady (Writes true (VerbWrites G)) false (ManageBooking.cancel token) := by
  unfold ManageBooking.cancel ManageBooking.resolve
  refine steady_session fun _ => Steady.within ?_
  refine Steady.bind ((steady_oneOrNone _ _).bind fun _ => (steady_orRaise _ _).bind fun _ =>
    (steady_raiseIf _ _).bind fun _ => steady_pure _) fun booking => steady_clock.bind fun now => ?_
  split
  · exact steady_pure _
  · refine (steady_raiseIf _ _).bind fun _ => (steady_raiseIf _ _).bind fun _ => ?_
    exact (steady_update (.cancel _ booking.id now _ _)).bind fun _ =>
      (steady_updateWhere fun i => .reminder _ i booking.id).bind fun _ => steady_pure _

theorem steady_findSeat (cfg : Config) (booking : Booking) (x now : Int) :
    Steady (Writes s P) l (OwnerBooking.findSeat cfg booking x now) :=
  (steady_offeredSlot cfg x now).bind fun _ => (steady_orRaise _ _).bind fun _ => (steady_oneOrNone _ _).bind fun _ =>
    (steady_raiseIf _ _).bind fun _ => (steady_select _ _).bind fun _ => (steady_orRaise _ _).bind fun _ =>
      steady_pure _

theorem steady_move (b : Nat) (booking : Booking) (restoring : Bool) (slot : Slot) (i : Nat) (now : Int) (hG : G now) :
    Steady (Writes s (MoveWrites G b)) true (OwnerBooking.move b booking restoring slot i now) := by
  have hmove : Steady (Writes s (MoveWrites G b)) true (Bookings.reschedule b slot.startsAt i now) :=
    steady_update (.move _ i now hG)
  refine steady_onIntegrity ?_ (steady_throw _)
  cases restoring with
  | false => exact hmove
  | true =>
    refine Steady.bind ?_ fun _ => hmove
    exact (steady_select _ _).bind fun _ => (steady_update (.restore _ now hG)).bind fun _ => steady_raiseIf _ _

theorem steady_place (cfg : Config) (b : Nat) (booking : Booking) (restoring : Bool) (x now : Int) (hG : G now)
    (staffId : Nat) : Steady (Writes s (MoveWrites G b)) true (OwnerBooking.place cfg b booking restoring x now staffId) := by
  unfold OwnerBooking.place OwnerBooking.record
  refine (steady_findSeat cfg booking x now).bind fun found => ?_
  refine (steady_move b booking restoring found.1 found.2 now hG).bind fun _ => (steady_orRaise _ _).bind fun _ => ?_
  refine ((steady_upsertReminder b _ now none).mono (writes_mono fun _ _ h => .reminder _ h)).bind fun _ => ?_
  exact (steady_insert (.evidence _ staffId _ _ _ _ _)).bind fun _ => steady_pure _

theorem steady_checkDeposit (b : Nat) (restoring : Bool) :
    Steady (Writes s P) l (OwnerBooking.checkDeposit b restoring) := by
  unfold OwnerBooking.checkDeposit OwnerBooking.holdsAPaidDeposit Payments.byBookingIds
  cases restoring with
  | false => exact steady_pure _
  | true =>
    refine Steady.bind (Steady.bind ?_ fun _ => steady_pure _) fun _ => steady_raiseIf _ _
    split
    · exact steady_pure _
    · exact steady_select _ _

theorem within_rescheduleIn (cfg : Config) (b : Nat) (x now : Int) (hG : G now) (staffId : Nat) :
    Within (Writes s (MoveWrites G b)) l (OwnerBooking.rescheduleIn cfg b x now staffId) := by
  unfold OwnerBooking.rescheduleIn
  refine within_lock (Steady.within ?_)
  refine (steady_select _ _).bind fun _ => (steady_orRaise _ _).bind fun booking => ?_
  refine (steady_raiseIf _ _).bind fun _ => (steady_raiseIf _ _).bind fun _ => (steady_checkDeposit b _).bind fun _ => ?_
  split
  · exact steady_pure _
  · exact steady_place cfg b booking _ x now hG staffId

theorem steady_reschedule (cfg : Config) (b : Nat) (x : Int) (staffId : Nat) :
    Steady (Writes true (MoveWrites anyTime b)) false (OwnerBooking.reschedule cfg b x staffId) := by
  unfold OwnerBooking.reschedule
  refine steady_clock.bind fun now => (steady_raiseIf _ _).bind fun _ => (steady_ask rfl).bind fun _ => ?_
  refine (steady_raiseIf _ _).bind fun _ => ?_
  refine (steady_session fun _ => within_rescheduleIn cfg b x now trivial staffId).bind fun result => ?_
  split
  · exact (steady_ask rfl).bind fun _ => steady_pure _
  · exact steady_pure _

theorem steady_insertEach : ∀ rules : List WeeklyRuleInput,
    Steady (Writes s EditWrites) true (BoutiqueService.insertEach rules)
  | [] => steady_pure _
  | _ :: rules => (steady_insert (.rule _)).bind fun _ => (steady_insertEach rules).bind fun _ => steady_pure _

theorem steady_replaceWeeklyRules (rules : List WeeklyRuleInput) :
    Steady (Writes true EditWrites) false (BoutiqueService.replaceWeeklyRules rules) :=
  (steady_liftExcept _).bind fun _ => steady_session fun txNow => within_lock
    (((steady_updateWhere fun i => .retire i txNow).bind fun _ => steady_insertEach rules).within)

theorem steady_addException (date : Int) (o c : Option WallTime) (note : Option String) :
    Steady (Writes true EditWrites) false (BoutiqueService.addAvailabilityException date o c note) :=
  (steady_liftExcept _).bind fun _ => (steady_liftExcept _).bind fun _ =>
    steady_onIntegrity (steady_session fun _ => (steady_insert (.except _ _)).within) (steady_throw _)

theorem steady_removeException (i : Nat) :
    Steady (Writes true EditWrites) false (BoutiqueService.removeAvailabilityException i) :=
  (steady_session fun txNow => ((steady_update (.unblock _ i txNow)).bind fun _ => steady_pure _).within).bind fun _ =>
    steady_raiseIf _ _

theorem steady_code (cfg : Config) (job : Job) : Steady (Writes true job.Writes) false (job.code cfg) := by
  cases job with
  | createBooking r => exact (steady_createBooking cfg r).bind fun _ => steady_pure _
  | claim r => exact (steady_claim cfg r).bind fun _ => steady_pure _
  | postBookings r =>
    exact (((steady_createBooking cfg r).mono (writes_mono fun _ _ h => .claim h)).bind fun c =>
      (steady_answerClaim cfg c).mono (writes_mono fun _ _ h => .tail h)).bind fun _ => steady_pure _
  | claimOffer r =>
    exact (((steady_claim cfg r).mono (writes_mono fun _ _ h => .claim h)).bind fun c =>
      (steady_answerClaim cfg c).mono (writes_mono fun _ _ h => .tail h)).bind fun _ => steady_pure _
  | delivery event => exact (steady_settle cfg event).bind fun _ => steady_pure _
  | sweep => exact (steady_sweep cfg).bind fun _ => steady_pure _
  | ownerConfirm b s =>
    exact (steady_transition b s .confirmed _ false (by decide) (by decide) (by decide)).bind fun _ => steady_pure _
  | ownerNoShow b s => exact (steady_transition b s .noShow _ true (by decide) (by decide) (by decide)).bind fun _ => steady_pure _
  | ownerComplete b s => exact (steady_transition b s .completed _ true (by decide) (by decide) (by decide)).bind fun _ => steady_pure _
  | ownerCancel b s => exact (steady_ownerCancel b s).bind fun _ => steady_pure _
  | reschedule b x s => exact (steady_reschedule cfg b x s).bind fun _ => steady_pure _
  | customerCancel token => exact (steady_customerCancel token).bind fun _ => steady_pure _
  | checkIn b s => exact (steady_checkIn b s).bind fun _ => steady_pure _
  | undoCheckIn b s => exact (steady_undoCheckIn b s).bind fun _ => steady_pure _
  | replaceWeeklyRules rules => exact (steady_replaceWeeklyRules rules).bind fun _ => steady_pure _
  | addException date o c note => exact (steady_addException date o c note).bind fun _ => steady_pure _
  | removeException i => exact (steady_removeException i).bind fun _ => steady_pure _

end Services
end Boutique
