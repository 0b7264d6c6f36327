import Boutique.Rules
import Boutique.Stock
/-!
# Lifecycle — the states of a booking over a run

A booking is cancelled exactly while it carries the evidence of its cancellation, never waits for money again, reaches an
outcome only once its hour has come, and comes back to life only before it.  The two clock guards are about the instants
the writing thread itself read off the clock.
-/
namespace Boutique

open Txn Contract

def BookingStatus.outcome (s : BookingStatus) : Prop := s = .noShow ∨ s = .completed

theorem cancelled_no_outcome : ¬BookingStatus.cancelled.outcome := by
  simp [BookingStatus.outcome]

theorem confirmed_no_outcome : ¬BookingStatus.confirmed.outcome := by
  simp [BookingStatus.outcome]

/-- **A booking is cancelled exactly while it says when and by whom.** -/
structure Evidenced (b : Booking) : Prop where
  cancelled : b.status = .cancelled → b.cancelledAt.isSome = true ∧ b.cancelledBy.isSome = true
  alive : b.status ≠ .cancelled → b.cancelledAt = none ∧ b.cancelledBy = none

/-- The updates of a booking as the server issues them; `G` knows the instants that guards compare with. -/
def BookingChange.Timed (G : Int → Prop) : BookingChange → Prop
  | .setStatus to_ allowedFrom _ notAfter => (to_ ≠ .pendingPayment ∧ to_ ≠ .cancelled) ∧ .cancelled ∉ allowedFrom ∧
      (to_.outcome → ∃ n, notAfter = some n ∧ G n)
  | .cancel _ _ allowedFrom _ => .cancelled ∉ allowedFrom
  | .rebind _ _ notBefore => G notBefore
  | _ => True

def OpTimed (G : Int → Prop) : Op schema service → Prop
  | .sql (.update .bookings _ g) => BookingChange.Timed G g
  | .sql (.insert .bookings r) => Evidenced r ∧ ¬(Booking.status r).outcome
  | _ => True

variable {job : Job} {P : Foot} {g : BookingChange} {l : Bool} {o : Op schema service}

section

variable {G : Int → Prop} {l : Bool} {o : Op schema service} {b : Nat} {event : WebhookEvent}

theorem ReminderWrites.timed (h : ReminderWrites b l o) : OpTimed G o := by
  cases h <;> trivial

theorem SendWrites.timed {kind : MessageKind} (h : SendWrites kind b l o) : OpTimed G o := by
  cases h <;> trivial

theorem ClaimWrites.timed (h : ClaimWrites l o) : OpTimed G o := by
  cases h with
  | seat slot i now customerId a v token due text =>
    cases due <;> exact ⟨⟨nofun, fun _ => ⟨rfl, rfl⟩⟩, by simp [seatRow, BookingStatus.outcome]⟩
  | _ => trivial

theorem OpenWrites.timed (h : OpenWrites b l o) : OpTimed G o := by
  cases h with
  | stand => exact ⟨by decide, by decide, fun h => absurd h confirmed_no_outcome⟩
  | _ => trivial

theorem SettleWrites.timed (h : SettleWrites event l o) : OpTimed G o := by
  cases h <;> trivial

theorem EffectWrites.timed (h : EffectWrites G l o) : OpTimed G o := by
  cases h with
  | confirm => exact ⟨by decide, by decide, fun h => absurd h confirmed_no_outcome⟩
  | rebind b seatIndex now h => exact h
  | reminder l b h => exact h.timed
  | send l kind b h => exact h.timed
  | token | effect => trivial

theorem SweepWrites.timed (h : SweepWrites l o) : OpTimed G o := by
  cases h with
  | release => exact (by decide : BookingStatus.cancelled ∉ [BookingStatus.pendingPayment])
  | _ => trivial

theorem VerbWrites.timed (h : VerbWrites G l o) : OpTimed G o := by
  cases h with
  | status l b to_ allowedFrom notAfter hto hfrom hpast => exact ⟨hto, hfrom.1, hpast⟩
  | cancel => exact (by decide : BookingStatus.cancelled ∉ [BookingStatus.confirmed])
  | _ => trivial

theorem MoveWrites.timed (h : MoveWrites G b l o) : OpTimed G o := by
  cases h with
  | restore seatIndex now h => exact h
  | reminder l h => exact h.timed
  | move | evidence => trivial

theorem ArrivalWrites.timed (h : ArrivalWrites b l o) : OpTimed G o := by
  cases h <;> trivial

theorem UndoWrites.timed (h : UndoWrites b l o) : OpTimed G o := by
  cases h <;> trivial

theorem EditWrites.timed (h : EditWrites l o) : OpTimed G o := by
  cases h <;> trivial

theorem TailWrites.timed (h : TailWrites l o) : OpTimed G o := by
  cases h with
  | open_ b h => exact h.timed
  | send b h => exact h.timed

theorem RouteWrites.timed (h : RouteWrites l o) : OpTimed G o := by
  cases h with
  | claim h => exact h.timed
  | tail h => exact h.timed

theorem Job.timed (h : job.Writes l o) : OpTimed anyTime o := by
  cases job with
  | createBooking | claim => exact ClaimWrites.timed h
  | postBookings | claimOffer => exact RouteWrites.timed h
  | delivery =>
    cases h with
    | settle h => exact h.timed
    | effect h => exact h.timed
  | sweep => exact SweepWrites.timed h
  | reschedule => exact MoveWrites.timed h
  | checkIn => exact ArrivalWrites.timed h
  | undoCheckIn => exact UndoWrites.timed h
  | replaceWeeklyRules | addException | removeException => exact EditWrites.timed h
  | ownerConfirm | ownerNoShow | ownerComplete | ownerCancel | customerCancel => exact VerbWrites.timed h

theorem writes_timed {s : Bool} (hP : ∀ l o, P l o → OpTimed G o) (h : Writes s P l o) : OpTimed G o := by
  rcases h with h | ⟨-, h⟩ | h
  · cases o with
    | sql o => cases o <;> trivial
    | now | ask => trivial
  · cases o with
    | sql o => cases o <;> trivial
    | now | ask => trivial
  · exact hP l o h

end

/-! ## The evidence of a cancellation -/

def RowEvidenced : (T : Table) → Row T → Prop
  | .bookings, (b : Booking) => Evidenced b
  | _, _ => True

theorem BookingChange.evidenced {b b' : Booking} (hg : g.Timed anyTime) (h : g.apply b = some b') (hb : Evidenced b) :
    Evidenced b' := by
  cases g <;> simp only [BookingChange.apply] at h <;> split at h <;> cases h
  case setStatus hc =>
    obtain ⟨hto, hfrom, -⟩ := hg
    have halive : b.status ≠ .cancelled := fun hs => hfrom (hs ▸ hc.2.1)
    exact ⟨fun hs => absurd hs hto.2, fun _ => hb.alive halive⟩
  case cancel => exact ⟨fun _ => ⟨rfl, rfl⟩, fun hs => absurd rfl hs⟩
  case setManageTokenHash | rotateManageTokenHash | setCustomerId | checkIn | undoCheckIn => exact ⟨hb.cancelled, hb.alive⟩
  case rebind => exact ⟨(fun h => by cases h), fun _ => ⟨rfl, rfl⟩⟩
  case reschedule => exact ⟨hb.cancelled, hb.alive⟩
  case cancelOrphan => exact ⟨fun _ => ⟨rfl, rfl⟩, fun hs => absurd rfl hs⟩

theorem evidenced_legal (h : job.Writes l o) : (Discipline.keeping RowEvidenced).Legal l o := by
  have htimed := Job.timed h
  cases o with
  | sql o =>
    cases o with
    | update T i g =>
      intro r r' _ hr hb
      cases T with
      | bookings => exact BookingChange.evidenced htimed hr hb
      | _ => trivial
    | insert T r =>
      intro i n
      cases T with
      | bookings => exact ⟨htimed.1.cancelled, htimed.1.alive⟩
      | _ => trivial
    | _ => trivial
  | now | ask => trivial

/-! ## Outcomes and revivals -/

/-- **What a transaction may make of a booking** whose committed version is `a`: an outcome once its hour has come, a
revival before it, by instants `G` knows. -/
structure Timely (G : Int → Prop) (a : Option Booking) (b : Booking) : Prop where
  outcome : b.status.outcome → (∃ a', a = some a' ∧ a'.status = b.status) ∨ ∃ n, G n ∧ b.startsAt ≤ n
  revival : ∀ a', a = some a' → a'.status = .cancelled →
    (b.status = .cancelled ∧ b.startsAt = a'.startsAt) ∨ ∃ n, G n ∧ n < a'.startsAt

theorem Timely.refl (G : Int → Prop) (b : Booking) : Timely G (some b) b :=
  ⟨fun _ => .inl ⟨b, rfl, rfl⟩, fun a' ha hs => by cases ha; exact .inl ⟨hs, rfl⟩⟩

theorem Timely.change {G : Int → Prop} {a : Option Booking} {b b' : Booking} (h : Timely G a b) (hg : g.Timed G)
    (happly : g.apply b = some b') : Timely G a b' := by
  cases g <;> simp only [BookingChange.apply] at happly <;> split at happly <;> cases happly
  case setStatus to_ from_ before after hc =>
    obtain ⟨-, hfrom, hpast⟩ := hg
    refine ⟨fun ho => ?_, fun a' ha hs => ?_⟩
    · obtain ⟨n, rfl, hn⟩ := hpast ho
      have hbounds := hc.2.2
      simp only [withinBounds, Option.all_some, decide_eq_true_eq] at hbounds
      exact .inr ⟨n, hn, hbounds.2⟩
    · rcases h.revival a' ha hs with ⟨hb, -⟩ | hr
      · exact absurd (hb ▸ hc.2.1) hfrom
      · exact .inr hr
  case cancel from_ before hc =>
    refine ⟨fun ho => absurd ho cancelled_no_outcome, fun a' ha hs => ?_⟩
    rcases h.revival a' ha hs with ⟨hb, -⟩ | hr
    · exact absurd (hb ▸ hc.2.1) hg
    · exact .inr hr
  case setManageTokenHash | rotateManageTokenHash | setCustomerId | checkIn | undoCheckIn => exact ⟨h.outcome, h.revival⟩
  case rebind seat from_ now hc =>
    refine ⟨fun ho => absurd ho confirmed_no_outcome, fun a' ha hs => .inr ?_⟩
    rcases h.revival a' ha hs with ⟨-, hx⟩ | hr
    · exact ⟨now, hg, hx ▸ hc.2.2⟩
    · exact hr
  case reschedule x seat now hc =>
    refine ⟨fun ho => ?_, fun a' ha hs => ?_⟩
    · have hstatus : b.status.outcome := ho
      rw [hc.2.1] at hstatus
      exact absurd hstatus confirmed_no_outcome
    · rcases h.revival a' ha hs with ⟨hb, -⟩ | hr
      · rw [hc.2.1] at hb
        cases hb
      · exact .inr hr
  case cancelOrphan hc =>
    refine ⟨fun ho => absurd ho cancelled_no_outcome, fun a' ha hs => ?_⟩
    rcases h.revival a' ha hs with ⟨hb, -⟩ | hr
    · rw [hc.2.1] at hb
      cases hb
    · exact .inr hr

def timelyLedger (G : Tid → Int → Prop) : Ledger schema where
  Holds _ _ c := ∀ i b, c.after .bookings i = some b → Timely (G c.by_) (c.before .bookings i) b
  stable _ _ _ _ _ _ _ h := h

abbrev timely (G : Tid → Int → Prop) (jobs : Tid → Job) : Contract (Jobs jobs) service Err :=
  (timelyLedger G).contract (Jobs jobs) (Readings G)

def TimelyFlight (G : Tid → Int → Prop) (t : Tid) (w : BWorld) : Prop :=
  ∀ i b, w.db.pending t .bookings i = some b → Timely (G t) (w.db.committed .bookings i) b

section

variable {G : Tid → Int → Prop} {jobs : Tid → Job} {t : Tid} {w w' : BWorld} {α β : Type}

theorem TimelyFlight.of_idle (h : w.db.Idle t) : TimelyFlight G t w := by
  intro i b hb
  rw [h.pending] at hb
  cases hb

theorem TimelyFlight.evolves (hev : w.Evolves (Jobs jobs) t w') (h : TimelyFlight G t w) : TimelyFlight G t w' := by
  intro i b hb
  rw [hev.db.pending] at hb
  rw [hev.db.owned _ _ _ hb]
  exact h i b hb

theorem TimelyFlight.view (h : TimelyFlight G t w) {i : Nat} {b : Booking} (hb : w.db.view t .bookings i = some b) :
    Timely (G t) (w.db.committed .bookings i) b := by
  cases hp : w.db.pending t .bookings i with
  | some b' =>
    have hv : w.db.view t .bookings i = some b' := Rows.over_some hp
    rw [hv] at hb
    cases hb
    exact h i b hp
  | none =>
    have hv : w.db.view t .bookings i = w.db.committed .bookings i := Rows.over_none hp
    rw [← hv, hb]
    exact .refl _ _

theorem TimelyFlight.write {e : Engine schema} {n : Nat} {T : Table} {j : Nat} {r : Row T}
    (h : ∀ i b, e.pending t .bookings i = some b → Timely (G t) (e.committed .bookings i) b)
    (hr : ∀ b : Booking, T = .bookings → HEq r b → Timely (G t) (e.committed .bookings j) b) (o : Outside) :
    TimelyFlight G t ⟨({ e with next := n } : Engine schema).write t T j r, o⟩ := by
  intro i b hb
  by_cases hk : Table.bookings = T ∧ i = j
  · obtain ⟨rfl, rfl⟩ := hk
    have hself : (({ e with next := n } : Engine schema).write t .bookings i r).pending t .bookings i = some r :=
      Engine.write_pending_self
    rw [show _ = some b from hb] at hself
    cases hself
    exact hr b rfl HEq.rfl
  · have hother : (({ e with next := n } : Engine schema).write t T j r).pending t .bookings i = e.pending t .bookings i :=
      Engine.write_pending_row hk
    rw [show _ = some b from hb] at hother
    exact h i b hother.symm

theorem timely_op {i : Input} {x : o.Res} (ho : OpTimed (G t) o) (hL : w.db.Lawful (Jobs jobs))
    (hI : (timely G jobs).Inv w) (h : TimelyFlight G t w) (he : w.exec t o i = some (x, w')) :
    (timely G jobs).Inv w' ∧ TimelyFlight G t w' := by
  by_cases hc : o = .sql .commit
  · subst hc
    cases he
    refine ⟨Ledger.inv_commit hI fun i b hb => h.view hb, .of_idle (Engine.idle_commit _ _)⟩
  · refine ⟨(Ledger.historic fun _ => true).exec hc (fun _ _ => rfl) he hI, ?_⟩
    cases o with
    | now | ask =>
      cases he
      exact h
    | sql o =>
      obtain ⟨⟨y, e'⟩, he', hx⟩ := Option.map_eq_some_iff.1 he
      cases hx
      cases o with
      | begin | read =>
        cases he'
        exact h
      | lock =>
        obtain ⟨-, rfl⟩ := Engine.lock_cases he'
        exact h
      | commit => exact absurd rfl hc
      | abort =>
        cases he'
        exact .of_idle (Engine.idle_release _ _)
      | update T j g =>
        rcases Engine.update_cases he' with ⟨-, -, rfl⟩ | ⟨v, r, hv, hr, -, ⟨-, rfl, -⟩ | ⟨-, rfl, -⟩⟩
        · exact h
        · exact h
        · refine TimelyFlight.write h (fun b hT hb => ?_) w.out
          subst hT
          cases hb
          exact (h.view hv).change ho hr
      | insert T r =>
        rcases Engine.insert_cases he' with ⟨-, rfl, -⟩ | ⟨-, rfl, -⟩
        · exact h
        · refine TimelyFlight.write h (fun b hT hb => ?_) w.out
          subst hT
          cases hb
          have hnone : w.db.committed .bookings w.db.next = none := hL.committed_none_of_le (Nat.le_refl _) _
          rw [show w.db.committed .bookings w.db.next = none from hnone]
          refine ⟨fun hout => absurd hout ho.2, fun a' ha => ?_⟩
          cases ha

theorem ensures_timed {p : Prg α} {k : α → Prg β} (hp : Steady (Writes true P) false p)
    (hP : ∀ l o, P l o → OpTimed (G t) o) (hw : TimelyFlight G t w)
    (hk : ∀ a w', TimelyFlight G t w' → (timely G jobs).Ensures t (k a) (fun _ _ => True) w') :
    (timely G jobs).Ensures t (p >>= k) (fun _ _ => True) w := by
  refine ensures_bind (ensures_mono (fun x w' hx => ?_) (ensures_of_uses (fun _ w => TimelyFlight G t w)
    (fun _ _ _ hev h => h.evolves hev)
    (fun l o w1 i r w2 ho hL hI h he _ _ => timely_op (writes_timed hP ho) hL hI h he) hp hw))
  obtain ⟨-, -, hx⟩ := hx
  cases x with
  | ok a => exact hk a w' hx
  | error e => trivial

theorem ensures_reading {k : Int → Prg β} (hw : TimelyFlight G t w)
    (hk : ∀ n w', G t n → TimelyFlight G t w' → (timely G jobs).Ensures t (k n) (fun _ _ => True) w') :
    (timely G jobs).Ensures t (clock >>= k) (fun _ _ => True) w := by
  refine ensures_call fun w1 hev hL hI i r w2 he hL2 hA => ?_
  cases he
  have hn : G t w1.db.clock := hA
  exact ⟨hI, hk w1.db.clock w1 hn (hw.evolves hev)⟩

theorem timely_other {p : Prg Reply} (hp : Steady (Writes true P) false p) (hP : ∀ l o, P l o → OpTimed (G t) o)
    (hw : TimelyFlight G t w) : (timely G jobs).Ensures t p (fun _ _ => True) w :=
  ensures_last (ensures_timed hp hP hw fun _ _ _ => trivial)

variable {k : OwnerMutation → Prg Reply} {cfg : Config}

theorem transition_timely {b staffId : Nat} {to_ : BookingStatus} {allowedFrom : List BookingStatus} {pastOnly : Bool}
    (hto : to_ ≠ .pendingPayment ∧ to_ ≠ .cancelled)
    (hfrom : .cancelled ∉ allowedFrom ∧ .pendingPayment ∉ allowedFrom)
    (hpast : to_ = .noShow ∨ to_ = .completed → pastOnly = true) (hw : TimelyFlight G t w)
    (hk : ∀ m, ∃ r, k m = pure r) :
    (timely G jobs).Ensures t (OwnerBooking.transition b staffId to_ allowedFrom pastOnly >>= k) (fun _ _ => True) w := by
  unfold OwnerBooking.transition
  refine ensures_first (ensures_reading hw fun n w1 hn hw1 => ?_)
  refine ensures_timed (steady_transitionAt b staffId to_ allowedFrom pastOnly n hto hfrom fun h => ⟨hpast h, hn⟩)
    (fun _ _ => VerbWrites.timed) hw1 fun m _ _ => ?_
  obtain ⟨r, hr⟩ := hk m
  rw [hr]
  trivial

theorem reschedule_timely {b staffId : Nat} {x : Int} (hw : TimelyFlight G t w) (hk : ∀ m, ∃ r, k m = pure r) :
    (timely G jobs).Ensures t (OwnerBooking.reschedule cfg b x staffId >>= k) (fun _ _ => True) w := by
  unfold OwnerBooking.reschedule
  refine ensures_first (ensures_reading hw fun n w1 hn hw1 => ?_)
  refine ensures_timed (P := MoveWrites (G t) b) ?_ (fun _ _ => MoveWrites.timed) hw1 fun m _ _ => ?_
  · refine (steady_raiseIf _ _).bind fun _ => (steady_ask rfl).bind fun _ => (steady_raiseIf _ _).bind fun _ => ?_
    refine (steady_session fun _ => within_rescheduleIn cfg b x n hn staffId).bind fun result => ?_
    split
    · exact (steady_ask rfl).bind fun _ => steady_pure _
    · exact steady_pure _
  · obtain ⟨r, hr⟩ := hk m
    rw [hr]
    trivial

theorem honour_timely {payment : Payment} {event : WebhookEvent} {k : Unit → Prg Reply} (hw : TimelyFlight G t w)
    (hk : ∃ r, k () = pure r) :
    (timely G jobs).Ensures t (DepositBooking.honour cfg payment event >>= k) (fun _ _ => True) w := by
  have hpure : ∀ w', (timely G jobs).Ensures t (k ()) (fun _ _ => True) w' := by
    obtain ⟨r, hr⟩ := hk
    rw [hr]
    exact fun _ => trivial
  have hpay : ∀ l o, SettleWrites event l o → OpTimed (G t) o := fun _ _ => SettleWrites.timed
  have heffect : ∀ l o, EffectWrites (G t) l o → OpTimed (G t) o := fun _ _ => EffectWrites.timed
  unfold DepositBooking.honour PaymentService.honourLateSettlement
  refine ensures_first (ensures_timed (steady_verifyWebhook event) hpay hw fun valid w1 hw1 => ?_)
  refine ensures_first (ensures_timed (steady_raiseIf _ _) hpay hw1 fun _ w2 hw2 => ?_)
  refine ensures_first (ensures_reading hw2 fun paidAt w3 _ hw3 => ?_)
  refine ensures_first (ensures_timed (steady_session fun _ => (steady_update (.late false payment.id paidAt)).within) hpay
    hw3 fun honoured w4 hw4 => ?_)
  cases honoured with
  | none => exact hpure w4
  | some honoured =>
    unfold DepositBooking.resettle
    refine ensures_first (ensures_timed (steady_session fun _ => (steady_select _ _).within) hpay hw4 fun booking w5 hw5 => ?_)
    cases booking with
    | none => exact hpure w5
    | some booking =>
      refine ensures_first (ensures_reading hw5 fun now w6 hnow hw6 => ?_)
      refine ensures_first (ensures_timed (steady_ask rfl) hpay hw6 fun token w7 hw7 => ?_)
      refine ensures_first (ensures_timed (steady_reinstate cfg booking now hnow token) heffect hw7 fun attempt w8 hw8 => ?_)
      exact ensures_timed (steady_report booking honoured attempt) heffect hw8 fun _ w9 _ => hpure w9

theorem settle_timely {event : WebhookEvent} {k : PaymentService.Settlement → Prg Reply} (hw : TimelyFlight G t w)
    (hk : ∀ s, ∃ r, k s = pure r) :
    (timely G jobs).Ensures t (DepositBooking.settle cfg event >>= k) (fun _ _ => True) w := by
  unfold DepositBooking.settle
  refine ensures_first (ensures_timed (steady_settleFromWebhook cfg event) (fun _ _ => SettleWrites.timed) hw
    fun s w1 hw1 => ensures_first ?_)
  have hpure : ∀ w', (timely G jobs).Ensures t (k s) (fun _ _ => True) w' := by
    obtain ⟨r, hr⟩ := hk s
    rw [hr]
    exact fun _ => trivial
  unfold DepositBooking.react
  cases depositReaction s with
  | confirm =>
    exact ensures_timed (steady_confirm s.payment.bookingId) (fun _ _ => EffectWrites.timed (G := G t)) hw1 fun _ w2 _ =>
      hpure w2
  | honour => exact honour_timely hw1 (hk s)
  | ignore => exact hpure w1

theorem code_timely (cfg : Config) (job : Job) (hw : TimelyFlight G t w) :
    (timely G jobs).Ensures t (job.code cfg) (fun _ _ => True) w := by
  have hsteady := steady_code cfg job
  cases job with
  | createBooking | claim => exact timely_other hsteady (fun _ _ => ClaimWrites.timed) hw
  | postBookings | claimOffer => exact timely_other hsteady (fun _ _ => RouteWrites.timed) hw
  | sweep => exact timely_other hsteady (fun _ _ => SweepWrites.timed) hw
  | checkIn => exact timely_other hsteady (fun _ _ => ArrivalWrites.timed) hw
  | undoCheckIn => exact timely_other hsteady (fun _ _ => UndoWrites.timed) hw
  | replaceWeeklyRules | addException | removeException => exact timely_other hsteady (fun _ _ => EditWrites.timed) hw
  | ownerCancel b s =>
    exact ensures_timed (steady_ownerCancel b s) (fun _ _ => VerbWrites.timed (G := G t)) hw fun _ _ _ => trivial
  | customerCancel token =>
    exact ensures_timed (steady_customerCancel token) (fun _ _ => VerbWrites.timed (G := G t)) hw fun _ _ _ => trivial
  | ownerConfirm b s => exact transition_timely (by decide) (by decide) (by decide) hw fun m => ⟨_, rfl⟩
  | ownerNoShow b s => exact transition_timely (by decide) (by decide) (by decide) hw fun m => ⟨_, rfl⟩
  | ownerComplete b s => exact transition_timely (by decide) (by decide) (by decide) hw fun m => ⟨_, rfl⟩
  | reschedule b x s => exact reschedule_timely hw fun m => ⟨_, rfl⟩
  | delivery event => exact settle_timely hw fun s => ⟨_, rfl⟩

end

/-! ## Who brings a booking back -/

/-- The jobs that may bring booking `i` back to life: a delivery, or its own reschedule. -/
def Job.revives (i : Nat) : Job → Prop
  | .delivery _ => True
  | .reschedule b _ _ => b = i
  | _ => False

def staysDead (job : Job) : Discipline schema where
  Trans _ T r r' := match T, r, r' with
    | .bookings, (b : Booking), (b' : Booking) => b'.id = b.id ∧ (¬job.revives b.id → b.status = .cancelled → b'.status = .cancelled)
    | _, _, _ => True
  New _ _ _ := True
  refl _ T r := by
    cases T with
    | bookings => exact ⟨rfl, fun _ h => h⟩
    | _ => trivial
  trans _ T r r' r'' h h' := by
    cases T with
    | bookings => exact ⟨h'.1.trans h.1, fun hj hs => h'.2 (h.1 ▸ hj) (h.2 hj hs)⟩
    | _ => trivial
  weaken _ _ _ h := h
  new_trans _ _ _ _ _ _ := trivial
  new_weaken _ _ _ := trivial

theorem rebind_revives {i seat : Nat} {from_ : List BookingStatus} {now : Int}
    (h : job.Writes l (Op.update .bookings i (.rebind seat from_ now))) : job.revives i := by
  cases job with
  | delivery => trivial
  | reschedule =>
    cases h with
    | restore => rfl
    | reminder l h => cases h
  | createBooking | claim => cases h
  | postBookings | claimOffer =>
    cases h with
    | claim h => cases h
    | tail h =>
      cases h with
      | open_ b h => cases h
      | send b h => cases h
  | sweep => cases h
  | replaceWeeklyRules | addException | removeException => cases h
  | ownerConfirm | ownerNoShow | ownerComplete | ownerCancel | customerCancel | checkIn | undoCheckIn => cases h

theorem BookingChange.stays {b b' : Booking} (hg : g.Timed anyTime) (h : g.apply b = some b')
    (hs : b.status = .cancelled) : b'.status = .cancelled ∨ ∃ seat from_ now, g = .rebind seat from_ now := by
  cases g <;> simp only [BookingChange.apply] at h <;> split at h <;> cases h
  case setStatus hc => exact absurd (hs ▸ hc.2.1) hg.2.1
  case setManageTokenHash | rotateManageTokenHash | setCustomerId | checkIn | undoCheckIn => exact .inl hs
  case rebind => exact .inr ⟨_, _, _, rfl⟩
  case reschedule => exact .inl hs
  all_goals exact .inl rfl

theorem staysDead_legal (h : job.Writes l o) : (staysDead job).Legal l o := by
  have htimed := Job.timed h
  cases o with
  | sql o =>
    cases o with
    | update T i g =>
      intro r r' hi hr
      cases T with
      | bookings =>
        refine ⟨rowId_applyChange .bookings g r r' hr, fun hj hs => ?_⟩
        rcases BookingChange.stays htimed hr hs with hdead | ⟨seat, from_, now, rfl⟩
        · exact hdead
        · have hid : r.id = i := hi
          exact absurd (hid ▸ rebind_revives h) hj
      | _ => trivial
    | insert T r => exact fun _ _ => trivial
    | _ => trivial
  | now | ask => trivial

/-- **The lifecycle of a booking.**  In every run, whatever `G` knows of the instants its threads read off the clock: a
booking is cancelled exactly while it carries both pieces of evidence; it never waits for money again; a commit gives it an
outcome only where its thread read an instant not before its hour; and a cancelled booking is brought back only by a
delivery or its own reschedule, whose thread read an instant before its hour. -/
theorem booking_lifecycle {cfg : Config} {jobs : Tid → Job} {rows : Rows schema} {next : Nat} {now : Int}
    {c : Conf server Reply} {G : Tid → Int → Prop} (h : Tables rows next)
    (hevidence : ∀ i b, rows .bookings i = some b → Evidenced b)
    (hr : Conf.Steps (Readings G) (start cfg jobs rows next now) c) :
    (∀ m i b, m ≤ c.state.db.log.length → c.state.db.version m .bookings i = some b →
      (Booking.status b = .cancelled ↔ Booking.cancelledAt b ≠ none ∧ Booking.cancelledBy b ≠ none)) ∧
    (∀ m n i b b', m ≤ n → n ≤ c.state.db.log.length → c.state.db.version m .bookings i = some b →
      c.state.db.version n .bookings i = some b' → Booking.status b ≠ .pendingPayment →
      Booking.status b' ≠ .pendingPayment) ∧
    (∀ (m : Nat) (entry : Commit schema) i b, c.state.db.log[m]? = some entry → entry.after .bookings i = some b → (Booking.status b).outcome →
      (∃ a, entry.before .bookings i = some a ∧ Booking.status a = b.status) ∨
        ∃ n, G entry.by_ n ∧ b.startsAt ≤ n) ∧
    ∀ (m : Nat) (entry : Commit schema) i a b, c.state.db.log[m]? = some entry → entry.before .bookings i = some a →
      entry.after .bookings i = some b → Booking.status a = .cancelled → Booking.status b ≠ .cancelled →
      (jobs entry.by_).revives i ∧ ∃ n, G entry.by_ n ∧ n < a.startsAt := by
  obtain ⟨hL, h0⟩ := run_lawful h hr
  have hI : (timely G jobs).Inv (start cfg jobs rows next now).state := fun m entry hm => by cases hm
  have hsafe : ∀ t p, (start cfg jobs rows next now).threads t = some p →
      (timely G jobs).logic.Safe t p (fun _ _ => True) (start cfg jobs rows next now).state := by
    intro t p hp
    cases hp
    exact safe_of_ensures (code_timely cfg (jobs t) (.of_idle ⟨rfl⟩)) fun _ _ _ _ _ _ _ => trivial
  obtain ⟨hsound, -⟩ := (timely G jobs).runs (Q := fun _ _ _ => True) (start_obeyed h) hI hsafe hr
  have htimely := hsound.inv.2
  refine ⟨fun m i b hm hb => ?_, fun m n i b b' hmn hn hb hb' hs hs' => ?_, fun m entry i b hm hb ho => ?_,
    fun m entry i a b hm ha hb hs hs' => ?_⟩
  · have hev : Evidenced b := by
      refine hL.version_keeps (jobs_play fun job l o => evidenced_legal) (fun T j r hr0 => ?_) hm hb
      rw [h0] at hr0
      cases T with
      | bookings => exact hevidence j r hr0
      | _ => trivial
    by_cases hs : b.status = .cancelled
    · have := hev.cancelled hs
      simp [hs, Option.isSome_iff_ne_none.1 this.1, Option.isSome_iff_ne_none.1 this.2]
    · simp [hs, hev.alive hs]
  · have hrow := hL.version_becomes (Cast.plays_common _) hmn hn .bookings i
    rw [hb, hb'] at hrow
    exact hs (BookingBecomes.waits hrow hs')
  · exact (htimely m entry hm i b hb).outcome ho
  · have hchange := htimely m entry hm i b hb
    have hmem := List.mem_of_getElem? hm
    refine ⟨?_, ?_⟩
    · by_contra hno
      have hid : a.id = i := (hL.past entry hmem).id .bookings i a ha
      have hrow := hL.entries entry hmem .bookings i
      rw [ha, hb] at hrow
      have hpart : (Discipline.ofWrites (jobs entry.by_).Writes fun _ => Job.locked).Trans entry.locked .bookings a b := hrow
      have hdead : (staysDead (jobs entry.by_)).Trans entry.locked .bookings a b :=
        Discipline.ofWrites_trans (fun o ho => staysDead_legal ho) hpart
      exact hs' (hdead.2 (hid ▸ hno) hs)
    · rcases hchange.revival a ha hs with ⟨hb', -⟩ | hr
      · exact absurd hb' hs'
      · exact hr

/-- Dana does not come: on the day after, the owner says so. -/
theorem booking_lifecycle_shop :
    ∃ c, Conf.Steps (Readings fun _ n => n = 4 * day)
        (start shop (fun _ => .ownerNoShow 6 1) (tableOf (shelfWith [danaRow] [fitting] [])) 7 (4 * day)) c ∧
      committedStatus c 6 = some .noShow ∧
      ∀ (m : Nat) (entry : Commit schema) i b, c.state.db.log[m]? = some entry → entry.after .bookings i = some b →
        (Booking.status b).outcome → (∃ a, entry.before .bookings i = some a ∧ Booking.status a = b.status) ∨
          ∃ n, n = 4 * day ∧ b.startsAt ≤ n := by
  obtain ⟨c, hc, hdone⟩ := steps_of_play (Readings fun _ n => n = 4 * day)
    (start shop (fun _ => .ownerNoShow 6 1) (tableOf (shelfWith [danaRow] [fitting] [])) 7 (4 * day))
    (turns 0 fine 6) (fun c => decide (committedStatus c 6 = some .noShow)) (by decide)
  refine ⟨c, hc, of_decide_eq_true hdone, (booking_lifecycle (tables_of_stock (by decide)) ?_ hc).2.2.1⟩
  intro i b hb
  obtain ⟨hmem, -⟩ := tableOf_some hb
  cases List.mem_singleton.1 hmem
  exact ⟨nofun, fun _ => ⟨rfl, rfl⟩⟩

end Boutique
