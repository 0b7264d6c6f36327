import Boutique.Footprints
import Boutique.TxnHistory
/-!
# Discipline — what the server's transactions do to rows

What any of them may do to a row, with the advisory lock or without; each job's own part is the discipline of its
writes.  Together they are the cast of a server running its jobs, and every run of it is lawful.
-/
namespace Boutique

open Txn

/-- **What may become of a booking.** Without the lock no row moves and nothing dead comes back to life. -/
structure BookingBecomes (l : Bool) (b b' : Booking) : Prop where
  createdAt : b'.createdAt = b.createdAt
  deletedAt : b'.deletedAt = b.deletedAt
  customerId : b'.customerId = b.customerId
  place : l = false → b'.startsAt = b.startsAt ∧ b'.seatIndex = b.seatIndex
  dead : l = false → b.status = .cancelled → b'.status = .cancelled
  waits : b'.status = .pendingPayment → b.status = .pendingPayment

/-- **What may become of a payment**: a hold is paid or expires, an expired one is paid late, and a paid one keeps its
transaction and its instant. -/
structure PaymentBecomes (p p' : Payment) : Prop where
  deletedAt : p'.deletedAt = p.deletedAt
  bookingId : p'.bookingId = p.bookingId
  provider : p'.provider = p.provider
  amountAgorot : p'.amountAgorot = p.amountAgorot
  providerSessionId : p'.providerSessionId = p.providerSessionId
  status : p'.status = p.status ∨ p'.status = .paid ∧ (p.status = .pending ∨ p.status = .expired) ∨
    p'.status = .expired ∧ p.status = .pending
  settled : p'.status ≠ .paid ∨ p.status = .paid →
    p'.providerTransactionId = p.providerTransactionId ∧ p'.paidAt = p.paidAt

structure PaymentNew (l : Bool) (p : Payment) : Prop where
  deletedAt : p.deletedAt = none
  marker : l = true ∨ p.status = .failed
  transaction : p.providerTransactionId.isSome → p.status = .paid

structure MessageBecomes (m m' : ScheduledMessage) : Prop where
  deletedAt : m'.deletedAt = m.deletedAt
  bookingId : m'.bookingId = m.bookingId
  kind : m'.kind = m.kind
  status : m'.status = .pending → m.status = .pending

theorem BookingBecomes.refl (l : Bool) (b : Booking) : BookingBecomes l b b :=
  ⟨rfl, rfl, rfl, fun _ => ⟨rfl, rfl⟩, fun _ h => h, fun h => h⟩

variable {l : Bool} {p p' : Payment} {m m' : ScheduledMessage} {job : Job} {rows : Rows schema} {next : Nat}
  {now : Int} {jobs : Tid → Job}

theorem BookingBecomes.trans {b b' b'' : Booking} (h : BookingBecomes l b b') (h' : BookingBecomes l b' b'') :
    BookingBecomes l b b'' :=
  ⟨h'.createdAt.trans h.createdAt, h'.deletedAt.trans h.deletedAt, h'.customerId.trans h.customerId,
    fun hl => ⟨(h'.place hl).1.trans (h.place hl).1, (h'.place hl).2.trans (h.place hl).2⟩,
    fun hl hb => h'.dead hl (h.dead hl hb), fun hb => h.waits (h'.waits hb)⟩

theorem PaymentBecomes.refl (p : Payment) : PaymentBecomes p p :=
  ⟨rfl, rfl, rfl, rfl, rfl, .inl rfl, fun _ => ⟨rfl, rfl⟩⟩

theorem PaymentBecomes.paid (h : PaymentBecomes p p') (hp : p.status = .paid) : p'.status = .paid := by
  rcases h.status with hs | ⟨hs, -⟩ | ⟨-, hs⟩
  · rw [hs, hp]
  · exact hs
  · rw [hp] at hs
    cases hs

theorem PaymentBecomes.trans {p'' : Payment} (h : PaymentBecomes p p') (h' : PaymentBecomes p' p'') :
    PaymentBecomes p p'' := by
  refine ⟨h'.deletedAt.trans h.deletedAt, h'.bookingId.trans h.bookingId, h'.provider.trans h.provider,
    h'.amountAgorot.trans h.amountAgorot, h'.providerSessionId.trans h.providerSessionId, ?_, fun hs => ?_⟩
  · rcases h.status with hs | ⟨hs, hp⟩ | ⟨hs, hp⟩
    · rw [← hs]
      exact h'.status
    · exact .inr (.inl ⟨h'.paid hs, hp⟩)
    · rcases h'.status with hs' | ⟨hs', -⟩ | ⟨-, hs'⟩
      · exact .inr (.inr ⟨hs'.trans hs, hp⟩)
      · exact .inr (.inl ⟨hs', .inl hp⟩)
      · rw [hs] at hs'
        cases hs'
  · have h1 : p'.status ≠ .paid ∨ p.status = .paid := hs.imp (fun hn hp => hn (h'.paid hp)) id
    have h2 : p''.status ≠ .paid ∨ p'.status = .paid := hs.imp id h.paid
    exact ⟨(h'.settled h2).1.trans (h.settled h1).1, (h'.settled h2).2.trans (h.settled h1).2⟩

theorem PaymentNew.trans (h : PaymentNew l p) (h' : PaymentBecomes p p') : PaymentNew l p' := by
  refine ⟨h'.deletedAt.trans h.deletedAt, h.marker.imp id fun hf => ?_, fun hs => ?_⟩
  · rcases h'.status with hs | ⟨-, hs | hs⟩ | ⟨-, hs⟩
    · exact hs.trans hf
    all_goals
      rw [hf] at hs
      cases hs
  · by_cases hp : p'.status = .paid
    · exact hp
    · rw [(h'.settled (.inl hp)).1] at hs
      exact absurd (h'.paid (h.transaction hs)) hp

theorem MessageBecomes.trans {m'' : ScheduledMessage} (h : MessageBecomes m m') (h' : MessageBecomes m' m'') :
    MessageBecomes m m'' :=
  ⟨h'.deletedAt.trans h.deletedAt, h'.bookingId.trans h.bookingId, h'.kind.trans h.kind,
    fun hm => h.status (h'.status hm)⟩

def RowBecomes (l : Bool) : (T : Table) → Row T → Row T → Prop
  | .bookings, (b : Booking), b' => BookingBecomes l b b'
  | .payments, (p : Payment), p' => PaymentBecomes p p'
  | .customers, (c : Customer), (c' : Customer) => c'.phone = c.phone ∧ c'.deletedAt = c.deletedAt
  | .scheduledMessages, (m : ScheduledMessage), m' => MessageBecomes m m'
  | .availabilityRules, r, r' => l = false → r' = r
  | .auditLog, r, r' => r' = r
  | .appointmentTypes, r, r' => r' = r
  | .termsVersions, r, r' => r' = r
  | .dresses, r, r' => r' = r
  | .dressVariants, r, r' => r' = r
  | .dressReservations, r, r' => r' = r
  | _, _, _ => True

def RowNew (l : Bool) : (T : Table) → Row T → Prop
  | .bookings, (b : Booking) => l = true ∧ b.deletedAt = none
  | .payments, (p : Payment) => PaymentNew l p
  | .customers, (c : Customer) => c.deletedAt = none
  | .availabilityRules, _ => l = true
  | .appointmentTypes, _ => False
  | .termsVersions, _ => False
  | .dresses, _ => False
  | .dressVariants, _ => False
  | .dressReservations, _ => False
  | _, _ => True

/-- **The discipline every transaction of the server obeys.** -/
def boutique : Discipline schema where
  Trans := RowBecomes
  New := RowNew
  refl l T r := by
    cases T with
    | bookings => exact BookingBecomes.refl l r
    | payments => exact PaymentBecomes.refl r
    | customers => exact ⟨rfl, rfl⟩
    | scheduledMessages => exact ⟨rfl, rfl, rfl, fun h => h⟩
    | availabilityRules => exact fun _ => rfl
    | _ => first | rfl | trivial
  trans l T r r' r'' h h' := by
    cases T with
    | bookings => exact BookingBecomes.trans h h'
    | payments => exact PaymentBecomes.trans h h'
    | customers => exact ⟨h'.1.trans h.1, h'.2.trans h.2⟩
    | scheduledMessages => exact MessageBecomes.trans h h'
    | availabilityRules => exact fun hl => (h' hl).trans (h hl)
    | _ => first | exact Eq.trans h' h | trivial
  weaken T r r' h := by
    cases T with
    | bookings => exact ⟨h.createdAt, h.deletedAt, h.customerId, nofun, nofun, h.waits⟩
    | availabilityRules => exact nofun
    | _ => exact h
  new_trans l T r r' h h' := by
    cases T with
    | bookings => exact ⟨h.1, h'.deletedAt.trans h.2⟩
    | payments => exact PaymentNew.trans h h'
    | customers => exact h'.2.trans h
    | _ => exact h
  new_weaken T r h := by
    cases T with
    | bookings => exact ⟨rfl, h.2⟩
    | payments => exact ⟨h.deletedAt, .inl rfl, h.transaction⟩
    | availabilityRules => exact rfl
    | _ => exact h

/-! ## The writes obey it -/

def BookingChange.Fits (l : Bool) : BookingChange → Prop
  | .setStatus to_ allowedFrom _ _ => to_ ≠ .pendingPayment ∧ .cancelled ∉ allowedFrom
  | .rebind .. => l = true
  | .reschedule .. => l = true
  | .setCustomerId .. => False
  | _ => True

theorem BookingChange.becomes {g : BookingChange} {b b' : Booking} (hg : g.Fits l) (h : g.apply b = some b') :
    BookingBecomes l b b' := by
  cases g <;> simp only [BookingChange.apply] at h <;> split at h <;> cases h
  case setStatus hc =>
    exact ⟨rfl, rfl, rfl, fun _ => ⟨rfl, rfl⟩, fun _ hb => absurd (hb ▸ hc.2.1) hg.2, fun hb => absurd hb hg.1⟩
  case setCustomerId => exact hg.elim
  case setManageTokenHash | rotateManageTokenHash | checkIn | undoCheckIn => exact ⟨rfl, rfl, rfl, fun _ => ⟨rfl, rfl⟩, fun _ hb => hb, fun hb => hb⟩
  case rebind =>
    cases hg
    exact ⟨rfl, rfl, rfl, (fun h => by cases h), (fun h => by cases h), fun h => by cases h⟩
  case reschedule =>
    cases hg
    exact ⟨rfl, rfl, rfl, (fun h => by cases h), (fun h => by cases h), fun hb => hb⟩
  all_goals exact ⟨rfl, rfl, rfl, fun _ => ⟨rfl, rfl⟩, fun _ _ => rfl, fun h => by cases h⟩

theorem PaymentChange.becomes {g : PaymentChange} (h : g.apply p = some p') : PaymentBecomes p p' := by
  cases g <;> simp only [PaymentChange.apply] at h <;> split at h <;> cases h
  case settle hc =>
    refine ⟨rfl, rfl, rfl, rfl, rfl, .inr (.inl ⟨rfl, .inl hc.2⟩), fun hs => ?_⟩
    rw [hc.2] at hs
    simp at hs
  case settleLate hc =>
    refine ⟨rfl, rfl, rfl, rfl, rfl, .inr (.inl ⟨rfl, .inr hc.2⟩), fun hs => ?_⟩
    rw [hc.2] at hs
    simp at hs
  case recordError => exact ⟨rfl, rfl, rfl, rfl, rfl, .inl rfl, fun _ => ⟨rfl, rfl⟩⟩
  case expireHold hc => exact ⟨rfl, rfl, rfl, rfl, rfl, .inr (.inr ⟨rfl, hc.2.1⟩), fun _ => ⟨rfl, rfl⟩⟩

theorem ScheduledMessageChange.becomes {g : ScheduledMessageChange} (h : g.apply m = some m') :
    MessageBecomes m m' := by
  cases g with
  | setManageToken token =>
    cases h
    exact ⟨rfl, rfl, rfl, fun hm => hm⟩
  | claimDue now =>
    simp only [ScheduledMessageChange.apply] at h
    split at h <;> cases h
    exact ⟨rfl, rfl, rfl, fun hm => hm⟩
  | mark status =>
    simp only [ScheduledMessageChange.apply] at h
    split at h <;> cases h
    rename_i hc
    exact ⟨rfl, rfl, rfl, fun _ => hc.2⟩
  | cancelPending | cancelPendingForEntry =>
    simp only [ScheduledMessageChange.apply] at h
    split at h <;> cases h
    exact ⟨rfl, rfl, rfl, fun h => by cases h⟩

def CustomerChange.Fits : CustomerChange → Prop
  | .setPhone _ => False
  | _ => True

theorem CustomerChange.becomes {g : CustomerChange} {c c' : Customer} (hg : g.Fits) (h : g.apply c = some c') :
    c'.phone = c.phone ∧ c'.deletedAt = c.deletedAt := by
  cases g with
  | setPhone phone => exact hg.elim
  | setName name =>
    cases h
    exact ⟨rfl, rfl⟩
  | recordMarketingConsent at_ =>
    simp only [CustomerChange.apply] at h
    split at h <;> cases h
    exact ⟨rfl, rfl⟩

def Fits (l : Bool) : (T : Table) → Change T → Prop
  | .bookings, (g : BookingChange) => g.Fits l
  | .customers, (g : CustomerChange) => g.Fits
  | .availabilityRules, _ => l = true
  | _, _ => True

theorem applyChange_becomes {T : Table} {g : Change T} {r r' : Row T} (hg : Fits l T g)
    (h : applyChange T g r = some r') : RowBecomes l T r r' := by
  cases T with
  | bookings => exact BookingChange.becomes hg h
  | payments => exact PaymentChange.becomes h
  | customers => exact CustomerChange.becomes hg h
  | scheduledMessages => exact ScheduledMessageChange.becomes h
  | availabilityRules => exact fun hl => absurd (hl ▸ hg) Bool.false_ne_true
  | otpCodes | messageLog | availabilityExceptions | waitlistEntries => trivial
  | auditLog | appointmentTypes | termsVersions | dresses | dressVariants | dressReservations => cases g

def InOrder (l : Bool) : Op schema service → Prop
  | .sql (.update T _ g) => Fits l T g
  | .sql (.insert T r) => ∀ i n, RowNew l T (stamp T i n r)
  | _ => True

theorem InOrder.legal {o : Op schema service} (h : InOrder l o) : boutique.Legal l o := by
  cases o with
  | sql o =>
    cases o with
    | update T i g => exact fun r r' _ hr => applyChange_becomes h hr
    | insert T r => exact h
    | _ => trivial
  | now | ask => trivial

variable {l : Bool} {o : Op schema service} {b : Nat} {event : WebhookEvent} {G : Int → Prop}

theorem ReminderWrites.inOrder (h : ReminderWrites b l o) : InOrder l o := by
  cases h with
  | insert => exact fun _ _ => trivial
  | _ => trivial

theorem SendWrites.inOrder {kind : MessageKind} (h : SendWrites kind b l o) : InOrder l o := by
  cases h with
  | log => exact fun _ _ => trivial
  | _ => trivial

theorem ClaimWrites.inOrder (h : ClaimWrites l o) : InOrder l o := by
  cases h with
  | seat => exact fun _ _ => ⟨rfl, rfl⟩
  | customer => exact fun _ _ => rfl
  | remind => exact fun _ _ => trivial
  | _ => trivial

theorem OpenWrites.inOrder (h : OpenWrites b l o) : InOrder l o := by
  cases h with
  | session => trivial
  | hold => exact fun _ _ => ⟨rfl, .inl rfl, nofun⟩
  | unavailable => exact fun _ _ => ⟨rfl, .inr rfl, nofun⟩
  | stand => exact ⟨nofun, by decide⟩
  | evidence => exact fun _ _ => trivial

theorem SettleWrites.inOrder (h : SettleWrites event l o) : InOrder l o := by
  cases h with
  | evidence => exact fun _ _ => trivial
  | _ => trivial

theorem EffectWrites.inOrder (h : EffectWrites G l o) : InOrder l o := by
  cases h with
  | confirm => exact ⟨nofun, by decide⟩
  | rebind => rfl
  | token => trivial
  | reminder _ _ h => exact h.inOrder
  | effect => exact fun _ _ => trivial
  | send _ _ _ h => exact h.inOrder

theorem SweepWrites.inOrder (h : SweepWrites l o) : InOrder l o := by
  cases h with
  | evidence => exact fun _ _ => trivial
  | _ => trivial

theorem VerbWrites.inOrder (h : VerbWrites G l o) : InOrder l o := by
  cases h with
  | status _ _ _ _ _ hto hfrom => exact ⟨hto.1, hfrom.1⟩
  | evidence => exact fun _ _ => trivial
  | _ => trivial

theorem MoveWrites.inOrder (h : MoveWrites G b l o) : InOrder l o := by
  cases h with
  | restore => rfl
  | move => rfl
  | reminder _ h => exact h.inOrder
  | evidence => exact fun _ _ => trivial

theorem ArrivalWrites.inOrder (h : ArrivalWrites b l o) : InOrder l o := by
  cases h with
  | checkIn => trivial
  | evidence => exact fun _ _ => trivial

theorem UndoWrites.inOrder (h : UndoWrites b l o) : InOrder l o := by
  cases h with
  | undo => trivial
  | evidence => exact fun _ _ => trivial

theorem EditWrites.inOrder (h : EditWrites l o) : InOrder l o := by
  cases h with
  | retire => rfl
  | rule => exact fun _ _ => rfl
  | except => exact fun _ _ => trivial
  | unblock => trivial

theorem TailWrites.inOrder (h : TailWrites l o) : InOrder l o := by
  cases h with
  | open_ _ h => exact h.inOrder
  | send _ h => exact h.inOrder

theorem Job.inOrder (h : job.Writes l o) : InOrder l o := by
  cases job with
  | createBooking | claim => exact ClaimWrites.inOrder h
  | postBookings | claimOffer =>
    cases h with
    | claim h => exact h.inOrder
    | tail h => exact h.inOrder
  | delivery =>
    cases h with
    | settle h => exact h.inOrder
    | effect h => exact h.inOrder
  | sweep => exact SweepWrites.inOrder h
  | reschedule => exact MoveWrites.inOrder h
  | checkIn => exact ArrivalWrites.inOrder h
  | undoCheckIn => exact UndoWrites.inOrder h
  | replaceWeeklyRules | addException | removeException => exact EditWrites.inOrder h
  | ownerConfirm | ownerNoShow | ownerComplete | ownerCancel | customerCancel => exact VerbWrites.inOrder h

/-! ## The cast -/

theorem ReminderWrites.locked (h : ReminderWrites b false o) : ReminderWrites b true o := by
  cases h <;> constructor

theorem SendWrites.locked {kind : MessageKind} (h : SendWrites kind b false o) : SendWrites kind b true o := by
  cases h <;> constructor

theorem ClaimWrites.locked (h : ClaimWrites false o) : ClaimWrites true o := by
  cases h <;> constructor

theorem OpenWrites.locked (h : OpenWrites b false o) : OpenWrites b true o := by
  cases h <;> constructor

theorem SettleWrites.locked (h : SettleWrites event false o) : SettleWrites event true o := by
  cases h with
  | error _ i e h => exact .error _ i e h
  | settle _ i at_ paid => exact .settle _ i at_ paid
  | late => exact .late ..
  | evidence _ a h => exact .evidence _ a h

theorem EffectWrites.locked (h : EffectWrites G false o) : EffectWrites G true o := by
  cases h with
  | confirm => exact .confirm _ _
  | token => exact .token _ _ _
  | reminder _ b h => exact .reminder _ b h.locked
  | effect _ a h => exact .effect _ a h
  | send _ kind b h => exact .send _ kind b h.locked

theorem MoveWrites.locked (h : MoveWrites G b false o) : MoveWrites G b true o := by
  cases h with
  | reminder _ h => exact .reminder _ h.locked
  | evidence => exact .evidence ..

theorem TailWrites.locked (h : TailWrites false o) : TailWrites true o := by
  cases h with
  | open_ b h => exact .open_ b h.locked
  | send b h => exact .send b h.locked

theorem Job.locked (h : job.Writes false o) : job.Writes true o := by
  cases job with
  | createBooking | claim => exact ClaimWrites.locked h
  | postBookings | claimOffer =>
    cases h with
    | claim h => exact .claim h.locked
    | tail h => exact .tail h.locked
  | delivery =>
    cases h with
    | settle h => exact .settle h.locked
    | effect h => exact .effect h.locked
  | sweep =>
    cases h with
    | expire => exact .expire ..
    | release => exact .release ..
    | orphan => exact .orphan ..
    | evidence _ entity a h => exact .evidence _ entity a h
  | reschedule => exact MoveWrites.locked h
  | replaceWeeklyRules | addException | removeException =>
    cases h with
    | except _ x => exact .except _ x
    | unblock _ i at_ => exact .unblock _ i at_
  | ownerConfirm | ownerNoShow | ownerComplete | ownerCancel | customerCancel | checkIn | undoCheckIn =>
    cases h <;> constructor <;> assumption

def Job.part (job : Job) : Discipline schema := .ofWrites job.Writes fun _ => Job.locked

def Jobs (jobs : Tid → Job) : Cast schema where
  common := boutique
  role t := (jobs t).part
  sub _ _ _ _ _ h := Discipline.ofWrites_trans (fun _ ho => (Job.inOrder ho).legal) h
  new_sub _ _ _ _ h := Discipline.ofWrites_new (fun _ ho => (Job.inOrder ho).legal) h

theorem jobs_under (jobs : Tid → Job) : (Jobs jobs).Under boutique := ⟨fun _ _ _ _ h => h, fun _ _ _ h => h⟩

theorem part_legal (h : Writes true job.Writes l o) : job.part.Legal l o := by
  rcases h with h | ⟨-, h⟩ | h
  · cases o with
    | sql o => cases o <;> trivial
    | now | ask => trivial
  · cases o with
    | sql o => cases o <;> trivial
    | now | ask => trivial
  · exact Discipline.legal_ofWrites h

/-- Tables the server can start from: consistent, their keys below the next one. -/
structure Tables (rows : Rows schema) (next : Nat) : Prop where
  consistent : Consistent rows
  lt : ∀ T i r, rows T i = some r → i < next

theorem quiet_lawful (h : Tables rows next) (D : Cast schema) : (quiet rows next now).Lawful D := by
  have hnone : ∀ t T i r, (quiet rows next now).pending t T i ≠ some r := fun _ _ _ _ hp => by cases hp
  have hlog : ∀ c, c ∉ (quiet rows next now).log := fun _ => List.not_mem_nil
  refine ⟨fun t T i => ?_, fun t T i r hp => (hnone t T i r hp).elim, h.lt, h.consistent,
    fun t T i r hp => (hnone t T i r hp).elim, fun t T i r hp => (hnone t T i r hp).elim,
    fun t _ T i _ r _ hp => (hnone t T i r hp).elim, fun t T i _ r _ hp => (hnone t T i r hp).elim,
    fun _ _ _ => Discipline.becomes_refl _ _ _, fun c hc => (hlog c hc).elim, fun c hc => (hlog c hc).elim,
    fun m c hc => (hlog c (List.mem_of_getElem? hc)).elim⟩
  simp [quiet]

theorem start_obeyed {cfg : Config} (h : Tables rows next) :
    Cast.Obeyed (Jobs jobs) (start cfg jobs rows next now) := by
  refine ⟨quiet_lawful h _, fun t p hp => ⟨false, nofun, ?_⟩⟩
  cases hp
  exact uses_mono (fun _ _ => part_legal) (fun _ _ _ => trivial) (steady_code cfg (jobs t))

theorem run_lawful {cfg : Config} {A : server.Assumption} {c : Conf server Reply} (h : Tables rows next)
    (hr : Conf.Steps A (start cfg jobs rows next now) c) :
    c.state.db.Lawful (Jobs jobs) ∧ c.state.db.version 0 = rows :=
  ⟨((start_obeyed h).steps hr).1.lawful, ((start_obeyed h).history hr).2 0 (Nat.le_refl 0)⟩

theorem jobs_play {E : Discipline schema} (hE : ∀ (job : Job) l (o : Op schema service), job.Writes l o → E.Legal l o) :
    (Jobs jobs).Plays E := by
  refine ⟨fun t l T r r' h => ?_, fun t l T r h => ?_⟩
  · have hpart : (Discipline.ofWrites (jobs t).Writes fun _ => Job.locked).Trans l T r r' := h
    exact Discipline.ofWrites_trans (fun o ho => hE (jobs t) l o ho) hpart
  · have hpart : (Discipline.ofWrites (jobs t).Writes fun _ => Job.locked).New l T r := h
    exact Discipline.ofWrites_new (fun o ho => hE (jobs t) l o ho) hpart

end Boutique
