import Boutique.Rules
import Boutique.Stock
/-!
# OneHold — the payments of a booking, kept in order

Where every `open_deposit` that finds no live hold still finds the booking waiting for its money, a booking has one hold
at most, a hold that ran out took the booking with it, and no session is minted for a booking that was paid.
-/
namespace Boutique

open Txn Contract

/-- A payment that is or was a hold; a failed one is the marker of a deposit that was not taken. -/
def Payment.isHold (p : Payment) : Prop := p.status ≠ .failed

def PaymentStatus.ofFlow (s : PaymentStatus) : Prop := s = .pending ∨ s = .paid ∨ s = .failed ∨ s = .expired

/-- **The deposits are in order.** -/
structure Orderly (rows : Rows schema) : Prop where
  flow : ∀ i p, rows .payments i = some p → Payment.deletedAt p = none ∧ (Payment.status p).ofFlow
  single : ∀ i j p q, rows .payments i = some p → rows .payments j = some q → Payment.isHold p → Payment.isHold q →
    Payment.bookingId p = Payment.bookingId q → i = j
  alive : ∀ i b, rows .bookings i = some b → Booking.deletedAt b = none
  booked : ∀ i p, rows .payments i = some p → Payment.isHold p → ∃ b : Booking, rows .bookings p.bookingId = some b
  lapsed : ∀ i p b, rows .payments i = some p → Payment.status p = .expired →
    rows .bookings (Payment.bookingId p) = some b → Booking.status b ≠ .pendingPayment

def NoHold (rows : Rows schema) (b : Nat) : Prop :=
  ∀ i p, rows .payments i = some p → Payment.bookingId p = b → Payment.status p = .failed

def NoPaid (rows : Rows schema) (b : Nat) : Prop :=
  ∀ i p, rows .payments i = some p → Payment.bookingId p = b → Payment.status p ≠ .paid

def awaits (s : Snapshot schema) (b : Nat) : Bool :=
  (s.rows .bookings b).any (fun (x : Booking) => decide (x.status = .pendingPayment)) &&
    (s.all .payments).all fun (p : Payment) => decide (p.bookingId = b → p.status ≠ .paid)

/-- **The deposit is still awaited** wherever the read under the lock finds no live hold. -/
def Awaited : server.Assumption := fun _ o _ r _ =>
  match o, r with
  | .sql (.read (.livePendingForBooking b)), s => (Payments.pendingFor s b).isEmpty = true → awaits s b = true
  | _, _ => True

def awaitedAt : (o : server.Op) → server.Res o → Bool
  | .sql (.read (.livePendingForBooking b)), s => decide ((Payments.pendingFor s b).isEmpty = true → awaits s b = true)
  | _, _ => true

theorem awaited_iff {t : Tid} {o : server.Op} {w w' : server.State} {r : server.Res o} :
    awaitedAt o r = true ↔ Awaited t o w r w' := by
  unfold Awaited awaitedAt
  split
  · exact decide_eq_true_iff
  · exact ⟨fun _ => trivial, fun _ => rfl⟩

instance (t : Tid) (o : server.Op) (w : server.State) (r : server.Res o) (w' : server.State) :
    Decidable (Awaited t o w r w') := decidable_of_iff _ awaited_iff

variable {b i : Nat} {p : Payment} {job : Job} {l : Bool} {o : Op schema service} {P : Foot}

theorem noHold_of_awaits {rows : Rows schema} {next : Nat} (h : Orderly rows)
    (hlt : ∀ i p, rows .payments i = some p → i < next) (hpending : Payments.pendingFor ⟨rows, next⟩ b = [])
    (ha : awaits ⟨rows, next⟩ b = true) :
    NoHold rows b ∧ ∃ x : Booking, rows .bookings b = some x ∧ x.status = .pendingPayment := by
  unfold awaits at ha
  obtain ⟨hbooking, hpaid⟩ := Bool.and_eq_true_iff.1 ha
  obtain ⟨x, hx, hstatus⟩ := (Option.any_eq_true _ _).1 hbooking
  have hwaits : x.status = .pendingPayment := of_decide_eq_true hstatus
  refine ⟨fun i p hp hb => ?_, x, hx, hwaits⟩
  have hmem : p ∈ Snapshot.all ⟨rows, next⟩ .payments := Snapshot.mem_all.2 ⟨i, hlt i p hp, hp⟩
  obtain ⟨hdel, hflow⟩ := h.flow i p hp
  rcases hflow with hs | hs | hs | hs
  · unfold Payments.pendingFor at hpending
    have hnot := List.filter_eq_nil_iff.1 hpending p hmem
    exact absurd (decide_eq_true ⟨hb, hs, hdel⟩) hnot
  · exact absurd hs (of_decide_eq_true (List.all_eq_true.1 hpaid p hmem) hb)
  · exact hs
  · exact absurd hwaits (h.lapsed i p x hp hs (hb ▸ hx))

/-! ## What the rows of a view owe to the committed ones -/

variable {jobs : Tid → Job} {A : server.Assumption} {t : Tid} {w w' : BWorld} {e : Engine schema}

theorem NoHold.since (h : NoHold w.db.committed b) (hs : w.db.Since (Jobs jobs) t w'.db)
    (hlock : w.db.advisory = some t) : NoHold w'.db.committed b := by
  intro i p hp hb
  have hrow := hs.rows .payments i
  rw [Engine.holds_iff.2 hlock, hp] at hrow
  cases hc : w.db.committed .payments i with
  | none =>
    rw [hc] at hrow
    exact (PaymentNew.marker hrow).resolve_left nofun
  | some q =>
    rw [hc] at hrow
    have hbecomes : PaymentBecomes q p := hrow
    have hq := h i q hc (hbecomes.bookingId.symm.trans hb)
    rcases hbecomes.status with hs | ⟨-, hs | hs⟩ | ⟨-, hs⟩
    · exact hs.trans hq
    all_goals
      rw [hq] at hs
      cases hs

theorem view_becomes (hL : e.Lawful (Jobs jobs)) {T : Table} {r : Row T} (h : e.committed T i = some r) :
    ∃ r', e.view t T i = some r' ∧ RowBecomes true T r r' := by
  have hin := Cast.becomes_common (hL.inflight t T i)
  rw [h] at hin
  obtain ⟨r', hr', htrans⟩ := hin.some_left
  refine ⟨r', hr', ?_⟩
  cases hl : e.holds t with
  | true =>
    rw [hl] at htrans
    exact htrans
  | false =>
    rw [hl] at htrans
    exact boutique.weaken T r r' htrans

theorem PaymentBecomes.isHold {q : Payment} (h : PaymentBecomes q p) : p.isHold ↔ q.isHold := by
  unfold Payment.isHold
  rcases h.status with hs | ⟨hs, hq | hq⟩ | ⟨hs, hq⟩
  · rw [hs]
  all_goals simp [hs, hq]

theorem booking_alive (hL : e.Lawful (Jobs jobs)) (h : Orderly e.committed) {b : Booking}
    (hb : e.view t .bookings i = some b) : b.deletedAt = none := by
  cases hc : e.committed .bookings i with
  | none =>
    have hin := Cast.becomes_common (hL.inflight t .bookings i)
    rw [hc, hb] at hin
    exact hin.2
  | some b' =>
    obtain ⟨b'', hb'', hbecomes⟩ := view_becomes hL hc
    rw [hb] at hb''
    cases hb''
    exact (BookingBecomes.deletedAt hbecomes).trans (h.alive i b' hc)

/-- **A commit keeps the deposits in order** when its new holds are for bookings that have none, one each, and the holds it
lets run out take their bookings with them. -/
theorem orderly_view (hL : e.Lawful (Jobs jobs)) (h : Orderly e.committed)
    (hnew : ∀ i p, e.committed .payments i = none → e.view t .payments i = some p → Payment.isHold p →
      p.status = .pending ∧ NoHold e.committed p.bookingId ∧ ∃ b : Booking, e.committed .bookings p.bookingId = some b)
    (hone : ∀ i j p q, e.committed .payments i = none → e.committed .payments j = none → e.view t .payments i = some p →
      e.view t .payments j = some q → Payment.isHold p → Payment.isHold q → Payment.bookingId p = Payment.bookingId q → i = j)
    (hrun : ∀ i p q b, e.committed .payments i = some q → e.view t .payments i = some p → Payment.status p = .expired →
      Payment.status q ≠ .expired → e.view t .bookings (Payment.bookingId p) = some b → Booking.status b ≠ .pendingPayment) :
    Orderly (e.view t) := by
  -- a payment of the view is a committed one that evolved, or a new one
  have hold : ∀ i p q, e.committed .payments i = some q → e.view t .payments i = some p → PaymentBecomes q p := by
    intro i p q hq hp
    obtain ⟨p', hp', hbecomes⟩ := view_becomes hL hq
    rw [hp] at hp'
    cases hp'
    exact hbecomes
  have hfresh : ∀ i p, e.committed .payments i = none → e.view t .payments i = some p → PaymentNew true p := by
    intro i p hq hp
    have hin := Cast.becomes_common (hL.inflight t .payments i)
    rw [hq, hp] at hin
    cases hl : e.holds t with
    | true =>
      rw [hl] at hin
      exact hin
    | false =>
      rw [hl] at hin
      exact boutique.new_weaken .payments p hin
  have hbooking : ∀ i b, e.committed .bookings i = some b → ∃ b', e.view t .bookings i = some b' ∧ BookingBecomes true b b' :=
    fun i b hb => view_becomes hL hb
  refine ⟨fun i p hp => ?_, fun i j p q hp hq hhp hhq hb => ?_, fun i b hb => ?_, fun i p hp hh => ?_, fun i p b hp hs hb => ?_⟩
  · cases hc : e.committed .payments i with
    | none =>
      refine ⟨(hfresh i p hc hp).deletedAt, ?_⟩
      by_cases hs : p.status = .failed
      · exact .inr (.inr (.inl hs))
      · exact .inl (hnew i p hc hp hs).1
    | some q =>
      have hb := hold i p q hc hp
      obtain ⟨hdel, hflow⟩ := h.flow i q hc
      refine ⟨hb.deletedAt.trans hdel, ?_⟩
      rcases hb.status with hs | ⟨hs, -⟩ | ⟨hs, -⟩
      · rw [hs]
        exact hflow
      · exact .inr (.inl hs)
      · exact .inr (.inr (.inr hs))
  · cases hci : e.committed .payments i with
    | none =>
      obtain ⟨-, hno, -⟩ := hnew i p hci hp hhp
      cases hcj : e.committed .payments j with
      | none => exact hone i j p q hci hcj hp hq hhp hhq hb
      | some q' =>
        have hbq := hold j q q' hcj hq
        exact absurd (hno j q' hcj (hbq.bookingId.symm.trans hb.symm)) (hbq.isHold.1 hhq)
    | some p' =>
      have hbp := hold i p p' hci hp
      cases hcj : e.committed .payments j with
      | none =>
        obtain ⟨-, hno, -⟩ := hnew j q hcj hq hhq
        exact absurd (hno i p' hci (hbp.bookingId.symm.trans hb)) (hbp.isHold.1 hhp)
      | some q' =>
        have hbq := hold j q q' hcj hq
        exact h.single i j p' q' hci hcj (hbp.isHold.1 hhp) (hbq.isHold.1 hhq)
          (hbp.bookingId.symm.trans (hb.trans hbq.bookingId))
  · exact booking_alive hL h hb
  · have hcommitted : ∃ b, e.committed .bookings p.bookingId = some b := by
      cases hc : e.committed .payments i with
      | none => exact (hnew i p hc hp hh).2.2
      | some q =>
        have hb := hold i p q hc hp
        rw [hb.bookingId]
        exact h.booked i q hc (hb.isHold.1 hh)
    obtain ⟨b, hb⟩ := hcommitted
    obtain ⟨b', hb', -⟩ := hbooking _ b hb
    exact ⟨b', hb'⟩
  · cases hc : e.committed .payments i with
    | none =>
      have hpending := (hnew i p hc hp (by unfold Payment.isHold; rw [hs]; nofun)).1
      rw [hs] at hpending
      cases hpending
    | some q =>
      by_cases hq : q.status = .expired
      · have hbp := hold i p q hc hp
        obtain ⟨b0, hb0⟩ := h.booked i q hc (by unfold Payment.isHold; rw [hq]; nofun)
        obtain ⟨b', hb', hbecomes⟩ := hbooking _ b0 hb0
        rw [← hbp.bookingId, hb] at hb'
        cases hb'
        exact fun hw => h.lapsed i q b0 hc hq hb0 (hbecomes.waits hw)
      · exact hrun i p q b hc hp hs hq hb

/-! ## The contract -/

def MintsUnpaid (w : BWorld) : Prop :=
  ∀ μ ∈ w.out.minted, μ.moment ≤ w.db.log.length ∧ NoPaid (w.db.version μ.moment) μ.bookingId

theorem MintsUnpaid.congr (h : MintsUnpaid w) (hlog : w'.db.log = w.db.log)
    (hcommitted : w'.db.committed = w.db.committed) (hout : w'.out.minted = w.out.minted) : MintsUnpaid w' := by
  intro μ hμ
  rw [hout] at hμ
  rw [hlog, Engine.version_congr hlog hcommitted]
  exact h μ hμ

/-- **The contract of the deposits**: every version is in order, every session minted for an unpaid booking. -/
def deposits (jobs : Tid → Job) (A : server.Assumption) : Contract (Jobs jobs) service Err where
  Inv w := (∀ m, Orderly (w.db.version m)) ∧ MintsUnpaid w
  Assume := A
  crash_inv _ _ _ h := h
  tick_inv _ _ _ h := h

theorem deposits_historic {quiet : Ask → Bool} (hquiet : ∀ b n x, quiet (.createSession b n x) = false) :
    (deposits jobs A).Historic quiet := by
  refine ⟨fun w w' hlog hcommitted hout h => ?_, fun t q i n w hq h => ?_⟩
  · refine ⟨fun m => ?_, h.2.congr hlog hcommitted (by rw [hout])⟩
    rw [Engine.version_congr hlog hcommitted]
    exact h.1 m
  · refine ⟨h.1, h.2.congr rfl rfl ?_⟩
    cases q with
    | createSession b x y =>
      rw [hquiet] at hq
      cases hq
    | _ => rfl

theorem deposits_calm : (deposits jobs A).Historic calm := deposits_historic fun _ _ _ => rfl

theorem deposits_committed (h : (deposits jobs A).Inv w) : Orderly w.db.committed := by
  have := h.1 w.db.log.length
  rwa [Engine.version_length] at this

theorem deposits_commit (h : (deposits jobs A).Inv w) (hview : Orderly (w.db.view t)) :
    (deposits jobs A).Inv ⟨w.db.commit t, w.out⟩ := by
  refine ⟨fun m => ?_, fun μ hμ => ?_⟩
  · rcases Nat.lt_or_ge w.db.log.length m with hm | hm
    · have hlen : (w.db.commit t).log.length = w.db.log.length + 1 := by simp
      have hpast : (w.db.commit t).log[m]? = none := List.getElem?_eq_none (by omega)
      have hversion : (w.db.commit t).version m = w.db.view t := by
        unfold Engine.version
        rw [hpast]
        exact Engine.commit_committed
      exact hversion ▸ hview
    · have hversion : (w.db.commit t).version m = w.db.version m := Engine.commit_version_le hm
      exact hversion ▸ h.1 m
  · obtain ⟨hm, hpaid⟩ := h.2 μ hμ
    refine ⟨by simp; omega, ?_⟩
    have hversion : (w.db.commit t).version μ.moment = w.db.version μ.moment := Engine.commit_version_le hm
    exact hversion ▸ hpaid

/-! ## The jobs that open no hold and run none out -/

def Job.opens : Job → Bool
  | .postBookings _ => true
  | .claimOffer _ => true
  | _ => false

def unexpiring : Discipline schema where
  Trans _ T r r' := match T, r, r' with
    | .payments, (p : Payment), (p' : Payment) => p'.status = .expired → p.status = .expired
    | _, _, _ => True
  New _ _ _ := True
  refl _ T r := by
    cases T with
    | payments => exact fun h => h
    | _ => trivial
  trans _ T r r' r'' h h' := by
    cases T with
    | payments => exact fun hs => h (h' hs)
    | _ => trivial
  weaken _ _ _ h := h
  new_trans _ _ _ _ _ _ := trivial
  new_weaken _ _ _ := trivial

theorem expire_sweeps {now : Int} (h : job.Writes l (Op.update .payments i (.expireHold now))) : job = .sweep := by
  cases job with
  | sweep => rfl
  | createBooking | claim => cases h
  | postBookings | claimOffer =>
    cases h with
    | claim h => cases h
    | tail h =>
      cases h with
      | open_ b h => cases h
      | send b h => cases h
  | delivery =>
    cases h with
    | settle h => cases h
    | effect h =>
      cases h with
      | reminder l b h => cases h
      | send l kind b h => cases h
  | reschedule =>
    cases h with
    | reminder l h => cases h
  | replaceWeeklyRules | addException | removeException => cases h
  | ownerConfirm | ownerNoShow | ownerComplete | ownerCancel | customerCancel | checkIn | undoCheckIn => cases h

theorem unexpiring_legal (hjob : job ≠ .sweep) (h : job.Writes l o) : unexpiring.Legal l o := by
  cases o with
  | sql o =>
    cases o with
    | update T i g =>
      intro r r' _ hr
      cases T with
      | payments =>
        intro hs
        cases g with
        | expireHold now => exact absurd (expire_sweeps h) hjob
        | settle | settleLate =>
          simp only [schema, applyChange, PaymentChange.apply] at hr
          split at hr <;> cases hr
          cases hs
        | recordError =>
          simp only [schema, applyChange, PaymentChange.apply] at hr
          split at hr <;> cases hr
          exact hs
      | _ => trivial
    | insert T r => exact fun _ _ => trivial
    | _ => trivial
  | now | ask => trivial

theorem expired_before (hL : e.Lawful (Jobs jobs)) (hjob : jobs t ≠ .sweep) {q : Payment}
    (hq : e.committed .payments i = some q) (hp : e.view t .payments i = some p) (hs : p.status = .expired) :
    q.status = .expired := by
  have hin := hL.inflight t .payments i
  rw [hq, hp] at hin
  have hpart : (Discipline.ofWrites (jobs t).Writes fun _ => Job.locked).Trans (e.holds t) .payments q p := hin
  have hexp : unexpiring.Trans (e.holds t) .payments q p :=
    Discipline.ofWrites_trans (fun o ho => unexpiring_legal hjob ho) hpart
  exact hexp hs

theorem opens_of_payment (h : job.Writes l (Op.insert .payments p)) : job.opens = true := by
  cases job with
  | postBookings | claimOffer => rfl
  | delivery =>
    cases h with
    | settle h => cases h
    | effect h =>
      cases h with
      | reminder l b h => cases h
      | send l kind b h => cases h
  | reschedule =>
    cases h with
    | reminder l h => cases h
  | createBooking | claim => cases h
  | sweep => cases h
  | replaceWeeklyRules | addException | removeException => cases h
  | ownerConfirm | ownerNoShow | ownerComplete | ownerCancel | customerCancel | checkIn | undoCheckIn => cases h

theorem payment_before (hL : e.Lawful (Jobs jobs)) (hjob : (jobs t).opens = false)
    (hp : e.view t .payments i = some p) : ∃ q, e.committed .payments i = some q := by
  cases hc : e.committed .payments i with
  | some q => exact ⟨q, rfl⟩
  | none =>
    have hin := hL.inflight t .payments i
    rw [hc, hp] at hin
    obtain ⟨r0, -, -, hw, -⟩ := hin
    rw [opens_of_payment hw] at hjob
    cases hjob

theorem orderly_of_other (hL : e.Lawful (Jobs jobs)) (h : Orderly e.committed) (hopen : (jobs t).opens = false)
    (hsweep : jobs t ≠ .sweep) : Orderly (e.view t) := by
  have hnone : ∀ i p, e.committed .payments i = none → e.view t .payments i = some p → False := by
    intro i p hc hp
    obtain ⟨q, hq⟩ := payment_before hL hopen hp
    rw [hc] at hq
    cases hq
  exact orderly_view hL h (fun i p hc hp => (hnone i p hc hp).elim) (fun i j p q hc _ hp => (hnone i p hc hp).elim)
    fun i p q b hq hp hs hne => absurd (expired_before hL hsweep hq hp hs) hne

def mintless : Ask → Bool
  | .createSession .. => false
  | _ => true

theorem deposits_mintless : (deposits jobs A).Historic mintless := deposits_historic fun _ _ _ => rfl

theorem opens_of_session {n x : Int} (h : job.Writes l (.ask (.createSession b n x))) : job.opens = true := by
  cases job with
  | postBookings | claimOffer => rfl
  | delivery =>
    cases h with
    | settle h => cases h
    | effect h =>
      cases h with
      | reminder l b h => cases h
      | send l kind b h => cases h
  | reschedule =>
    cases h with
    | reminder l h => cases h
  | createBooking | claim => cases h
  | sweep => cases h
  | replaceWeeklyRules | addException | removeException => cases h
  | ownerConfirm | ownerNoShow | ownerComplete | ownerCancel | customerCancel | checkIn | undoCheckIn => cases h

theorem mintless_of_writes {s : Bool} {q : Ask} (h : Writes s P l (.ask q))
    (hP : ∀ b n x, ¬P l (.ask (.createSession b n x))) : mintless q = true := by
  cases q with
  | createSession b n x =>
    rcases h with h | ⟨-, h⟩ | h
    · cases h
    · cases h
    · exact absurd h (hP b n x)
  | _ => rfl

theorem other_ensures (hopen : (jobs t).opens = false) (hsweep : jobs t ≠ .sweep) (cfg : Config) :
    (deposits jobs A).Ensures t ((jobs t).code cfg) (fun _ _ => True) w := by
  refine ensures_mono (fun _ _ _ => trivial) (ensures_of_uses (fun _ _ => True) (fun _ _ _ _ _ => trivial) ?_
    (steady_code cfg (jobs t)) trivial)
  intro l o w i r w' ho hL hI _ he _ _
  refine ⟨?_, trivial⟩
  by_cases hc : o = .sql .commit
  · subst hc
    cases he
    exact deposits_commit hI (orderly_of_other hL (deposits_committed hI) hopen hsweep)
  · refine deposits_mintless.exec hc (fun q hq => ?_) he hI
    subst hq
    refine mintless_of_writes ho fun b n x h => ?_
    rw [opens_of_session h] at hopen
    cases hopen

/-! ## The claim routes -/

def Marks : Op schema service → Prop
  | .sql (.insert .payments p) => Payment.status p = .failed
  | .sql (.update .payments _ _) => False
  | .ask (.createSession ..) => False
  | _ => True

def Marked (t : Tid) (w : BWorld) : Prop := ∀ i p, w.db.pending t .payments i = some p → Payment.status p = .failed

theorem marked_of_idle (h : w.db.Idle t) : Marked t w := by
  intro i p hp
  rw [h.pending] at hp
  cases hp

theorem SendWrites.marks {kind : MessageKind} (h : SendWrites kind b l o) : Marks o := by
  cases h <;> trivial

theorem orderly_of_marked (hL : w.db.Lawful (Jobs jobs)) (h : Orderly w.db.committed) (hsweep : jobs t ≠ .sweep)
    (hm : Marked t w) : Orderly (w.db.view t) := by
  have hnone : ∀ i p, w.db.committed .payments i = none → w.db.view t .payments i = some p → ¬Payment.isHold p := by
    intro i p hc hp hh
    cases hpend : w.db.pending t .payments i with
    | none =>
      have hview : w.db.view t .payments i = w.db.committed .payments i := Rows.over_none hpend
      rw [hp, hc] at hview
      cases hview
    | some p' =>
      have hview : w.db.view t .payments i = some p' := Rows.over_some hpend
      rw [hp] at hview
      cases hview
      exact hh (hm i p hpend)
  exact orderly_view hL h (fun i p hc hp hh => absurd hh (hnone i p hc hp)) (fun i j p q hc _ hp _ hh => absurd hh (hnone i p hc hp))
    fun i p q b hq hp hs hne => absurd (expired_before hL hsweep hq hp hs) hne

theorem marks_op (hsweep : jobs t ≠ .sweep) {i : Input} {r : o.Res} (ho : Marks o) (hL : w.db.Lawful (Jobs jobs))
    (hI : (deposits jobs A).Inv w) (hm : Marked t w) (he : w.exec t o i = some (r, w')) :
    (deposits jobs A).Inv w' ∧ Marked t w' := by
  have hinv : (deposits jobs A).Inv w' := by
    by_cases hc : o = .sql .commit
    · subst hc
      cases he
      exact deposits_commit hI (orderly_of_marked hL (deposits_committed hI) hsweep hm)
    · refine deposits_mintless.exec hc (fun q hq => ?_) he hI
      subst hq
      cases q with
      | createSession b n x => exact ho.elim
      | _ => rfl
  refine ⟨hinv, fun j p hp => ?_⟩
  rcases World.exec_wrote he hp with hp | ⟨g, v, rfl, -, -⟩ | ⟨r0, rfl, -, rfl⟩
  · exact hm j p hp
  · exact ho.elim
  · exact ho

theorem Marked.evolves (h : Marked t w) (hev : w.Evolves (Jobs jobs) t w') : Marked t w' := by
  intro i p hp
  rw [hev.db.pending] at hp
  exact h i p hp

theorem writes_marks {s : Bool} (hP : ∀ l o, P l o → Marks o) (h : Writes s P l o) : Marks o := by
  rcases h with h | ⟨-, h⟩ | h
  · cases o with
    | sql o =>
      cases o with
      | insert | update => cases h
      | _ => trivial
    | now => trivial
    | ask q =>
      cases q with
      | createSession => cases h
      | _ => trivial
  · cases o with
    | sql o =>
      cases o with
      | insert | update => cases h
      | _ => trivial
    | now | ask => cases h
  · exact hP l o h

section

variable {α β : Type} {k : α → Prg β} {Q : Except Err β → BWorld → Prop}

theorem ensures_marks {p : Prg α} (hsweep : jobs t ≠ .sweep) (hp : Steady (Writes true P) false p)
    (hP : ∀ l o, P l o → Marks o) (hw : Marked t w) (herr : ∀ e w', Marked t w' → Q (.error e) w')
    (hok : ∀ a w', Marked t w' → (deposits jobs A).Ensures t (k a) Q w') :
    (deposits jobs A).Ensures t (p >>= k) Q w := by
  refine ensures_bind (ensures_mono (fun x w' hx => ?_) (ensures_of_uses (fun _ w => Marked t w)
    (fun _ _ _ hev h => h.evolves hev)
    (fun l o w1 i r w2 ho hL hI h he _ _ => marks_op hsweep (writes_marks hP ho) hL hI h he) hp hw))
  obtain ⟨l', -, hm⟩ := hx
  cases x with
  | ok a => exact hok a w' hm
  | error e => exact herr e w' hm

end

/-- **The read of `open_deposit` under the lock**: where it finds no hold, the booking has none and is there. -/
theorem ensures_heldRead {β : Type} (hA : ∀ t o w r w', A t o w r w' → Awaited t o w r w') {k : List Payment → Prg β}
    {Q : Except Err β → BWorld → Prop} (hw : w.db.Idle t) (hlock : w.db.advisory = some t)
    (h : ∀ ps w1, (deposits jobs A).Point t w w1 → w1.db.Idle t → w1.db.advisory = some t →
      (ps = [] → NoHold w1.db.committed b ∧ ∃ x : Booking, w1.db.committed .bookings b = some x) →
      (deposits jobs A).Ensures t (k ps) Q w1) :
    (deposits jobs A).Ensures t (select (.livePendingForBooking b) (fun s => Payments.pendingFor s b) >>= k) Q w := by
  refine ensures_call fun w1 hev hL hI i r w2 he hL2 hassume => ?_
  have hI2 := deposits_calm.exec (by simp) (by simp) he hI
  have hs := World.since_exec (D := Jobs jobs) (by trivial) he
  cases he
  have hidle : (⟨w1.db.look t, w1.out⟩ : BWorld).db.Idle t := ⟨(hev.db.idle hw).pending⟩
  have hview : w1.db.view t = w1.db.committed := (hev.db.idle hw).view
  refine ⟨hI2, h _ ⟨w1.db.look t, w1.out⟩ ((point_evolves hev hL hI).trans ⟨hs, hL2, hI2, rfl⟩) hidle
    (hev.db.advisory.2 hlock) fun hnone => ?_⟩
  have hawaited : (Payments.pendingFor ⟨w1.db.view t, w1.db.next⟩ b).isEmpty = true →
    awaits ⟨w1.db.view t, w1.db.next⟩ b = true := hA _ _ _ _ _ hassume
  rw [hview] at hnone hawaited
  obtain ⟨hno, x, hx, -⟩ := noHold_of_awaits (deposits_committed hI) (fun i p hp => hL.committed_lt .payments i p hp) hnone
    (hawaited (List.isEmpty_iff.2 hnone))
  exact ⟨hno, x, hx⟩

structure OnlyHold (t : Tid) (b j : Nat) (w : BWorld) : Prop where
  alone : NoHold w.db.committed b
  booking : ∃ x : Booking, w.db.committed .bookings b = some x
  lock : w.db.advisory = some t
  row : ∃ p : Payment, w.db.pending t .payments j = some p ∧ p.bookingId = b ∧ p.status = .pending
  others : ∀ i, i ≠ j → w.db.pending t .payments i = none

theorem OnlyHold.orderly {j : Nat} (h : OnlyHold t b j w) (hL : w.db.Lawful (Jobs jobs)) (hO : Orderly w.db.committed)
    (hsweep : jobs t ≠ .sweep) : Orderly (w.db.view t) := by
  obtain ⟨p0, hp0, hb0, hs0⟩ := h.row
  have hkey : ∀ i p, w.db.committed .payments i = none → w.db.view t .payments i = some p → i = j ∧ p = p0 := by
    intro i p hc hp
    by_cases hij : i = j
    · subst hij
      have hview : w.db.view t .payments i = some p0 := Rows.over_some hp0
      rw [hp] at hview
      exact ⟨rfl, Option.some.inj hview⟩
    · have hview : w.db.view t .payments i = w.db.committed .payments i := Rows.over_none (h.others i hij)
      rw [hp, hc] at hview
      cases hview
  refine orderly_view hL hO (fun i p hc hp _ => ?_) (fun i i' p q hc hc' hp hq _ _ _ => ?_) fun i p q b' hq hp hs hne => ?_
  · obtain ⟨-, rfl⟩ := hkey i p hc hp
    rw [hb0]
    exact ⟨hs0, h.alone, h.booking⟩
  · rw [(hkey i p hc hp).1, (hkey i' q hc' hq).1]
  · exact absurd (expired_before hL hsweep hq hp hs) hne

theorem OnlyHold.point {j : Nat} (h : OnlyHold t b j w) (hp : (deposits jobs A).Point t w w')
    (hpend : w'.db.pending t = w.db.pending t) : OnlyHold t b j w' := by
  obtain ⟨x, hx⟩ := h.booking
  have hrow := hp.since.after.rows .bookings b
  rw [hx] at hrow
  obtain ⟨x', hx', -⟩ := hrow.some_left
  exact ⟨h.alone.since hp.since h.lock, ⟨x', hx'⟩, hp.since.advisory h.lock, by rw [hpend]; exact h.row, by
    rw [hpend]
    exact h.others⟩

theorem NoHold.noPaid {rows : Rows schema} (h : NoHold rows b) : NoPaid rows b := by
  intro i p hp hb hs
  rw [h i p hp hb] at hs
  cases hs

theorem deposits_mint {n x : Int} {i : Input} (hI : (deposits jobs A).Inv w) (h : NoHold w.db.committed b) :
    (deposits jobs A).Inv ⟨w.db, (Outside.serve t (.createSession b n x) i w.db.log.length w.out).2⟩ := by
  refine ⟨hI.1, fun μ hμ => ?_⟩
  rcases List.mem_append.1 hμ with hμ | hμ
  · exact hI.2 μ hμ
  · cases List.mem_singleton.1 hμ
    refine ⟨Nat.le_refl _, ?_⟩
    rw [Engine.version_length]
    exact h.noPaid

theorem openDeposit_ensures (hA : ∀ t o w r w', A t o w r w' → Awaited t o w r w') (hsweep : jobs t ≠ .sweep)
    (cfg : Config) (b : Nat) (amount holdSeconds : Int) (hw : w.db.Idle t) (hL : w.db.Lawful (Jobs jobs))
    (hI : (deposits jobs A).Inv w) :
    (deposits jobs A).Ensures t (PaymentService.openDeposit cfg b amount holdSeconds) (fun _ w' => w'.db.Idle t) w := by
  unfold PaymentService.openDeposit PaymentService.credentialsFor
  refine ensures_silent deposits_calm (steady_requireProvider cfg) hw hL hI (fun _ _ _ h => h) fun provider w1 h1 hw1 => ?_
  refine ensures_silent deposits_calm ((steady_ask rfl).bind fun _ => steady_raiseAny _) hw1 h1.lawful h1.inv
    (fun _ _ _ h => h) fun _ w2 h2 hw2 => ?_
  refine ensures_silent deposits_calm steady_clock hw2 h2.lawful h2.inv (fun _ _ _ h => h) fun now w3 h3 hw3 => ?_
  refine ensures_last (ensures_session deposits_calm hw3 fun w4 n h4 hw4 => ?_)
  refine ensures_advisoryLock deposits_calm fun w5 h5 hp5 hlock5 => ?_
  have hw5 : w5.db.Idle t := ⟨hp5.trans hw4.pending⟩
  unfold Payments.livePendingForBooking
  refine ensures_first (ensures_heldRead hA hw5 hlock5 fun ps w6 h6 hw6 hlock6 hnone => ?_)
  have herr : ∀ (e : Err) w', Closes (deposits jobs A) t (pure : PaymentService.DepositHold → Prg _)
      (fun _ w' => w'.db.Idle t) (.error e) w' := fun e w' w'' _ _ => Engine.idle_release _ _
  refine ensures_scalarOneOrNone (herr _ _) (fun hps => ?_) fun p hps => ?_
  · obtain ⟨hno, hbooking⟩ := hnone hps
    unfold PaymentService.mintHold
    refine ensures_call fun w7 hev7 hL7 hI7 i r w8 he _ _ => ?_
    have h7 : (deposits jobs A).Point t w6 w7 := point_evolves hev7 hL7 hI7
    have hno7 := hno.since h7.since hlock6
    cases he
    have hI8 := deposits_mint (t := t) (n := amount) (x := holdSeconds) (i := i) hI7 hno7
    have h8 : (deposits jobs A).Point t w7
        ⟨w7.db, (Outside.serve t (.createSession b amount holdSeconds) i w7.db.log.length w7.out).2⟩ :=
      ⟨.refl _, hL7, hI8, rfl⟩
    refine ⟨hI8, ?_⟩
    refine ensures_liftExcept (fun e _ => herr e _) fun session _ => ?_
    refine ensures_onIntegrity (ensures_last ?_)
    refine ensures_insertRow deposits_calm (fun _ _ _ => by simpa using herr _ _) fun w9 w10 n hw10 _ => ?_
    have hno9 := hno7.since (h8.trans hw10.before).since (h7.since.advisory hlock6)
    have honly : OnlyHold t b w9.db.next w10 := by
      obtain ⟨x, hx⟩ := hbooking
      have hrow := (h7.trans (h8.trans hw10.before)).since.after.rows .bookings b
      rw [hx] at hrow
      obtain ⟨x', hx', -⟩ := hrow.some_left
      refine ⟨by rw [hw10.committed]; exact hno9, ⟨x', by rw [hw10.committed]; exact hx'⟩,
        (h7.trans (h8.trans hw10.after)).since.advisory hlock6, ⟨_, hw10.row, rfl, rfl⟩, fun i hi => ?_⟩
      rw [hw10.pending, set_other_row hi]
      have hpend : w7.db.pending t = fun _ _ => none := hev7.db.pending.trans hw6.pending
      rw [show w7.db.pending t = fun _ _ => none from hpend]
    intro w11 h11 hp11 _ _ _ _
    exact ⟨deposits_commit h11.inv ((honly.point h11 hp11).orderly h11.lawful (deposits_committed h11.inv) hsweep),
      Engine.idle_commit _ _⟩
  · intro w7 h7 hp7 _ _ _ _
    refine ⟨deposits_commit h7.inv ?_, Engine.idle_commit _ _⟩
    refine orderly_of_marked h7.lawful (deposits_committed h7.inv) hsweep fun i p hp => ?_
    rw [hp7, hw6.pending] at hp
    cases hp

inductive StandWrites (b : Nat) : Foot
  | mark (l : Bool) (p : String) (n : Int) : StandWrites b l (Op.insert .payments (Payments.unavailable b p n))
  | stand (l : Bool) : StandWrites b l (Op.update .bookings b (.setStatus .confirmed [.pendingPayment] none none))
  | evidence (l : Bool) (n : Int) : StandWrites b l
      (Op.insert .auditLog (Audit.entry none "bookings" (.gatewayUnavailableAtCheckout b n)))

theorem StandWrites.marks (h : StandWrites b l o) : Marks o := by
  cases h <;> trivial

theorem compensation_ensures (hsweep : jobs t ≠ .sweep) (cfg : Config) (claim : BookingClaim) (hw : w.db.Idle t) :
    (deposits jobs A).Ensures t (BookingService.bookWithoutDeposit cfg claim) (fun _ w' => Marked t w') w :=
  ensures_last (ensures_marks hsweep (steady_bookWithoutDeposit (P := StandWrites claim.booking.id) cfg claim
    (fun p n => .mark false p n) (.stand false) fun n => .evidence false n) (fun _ _ => StandWrites.marks)
    (marked_of_idle hw) (fun _ _ h => h) fun _ _ h => h)

theorem step_ensures (hA : ∀ t o w r w', A t o w r w' → Awaited t o w r w') (hsweep : jobs t ≠ .sweep) (cfg : Config)
    (claim : BookingClaim) (hw : w.db.Idle t) (hL : w.db.Lawful (Jobs jobs)) (hI : (deposits jobs A).Inv w) :
    (deposits jobs A).Ensures t (BookingService.openDeposit cfg claim) (fun _ w' => Marked t w') w := by
  unfold BookingService.openDeposit
  split
  · exact marked_of_idle hw
  · split
    · exact compensation_ensures hsweep cfg claim hw
    · refine ensures_bind ?_
      rw [Ensures, Prog.wp_attempt]
      refine ensures_mono (fun x w1 hw1 => ?_) (openDeposit_ensures hA hsweep cfg _ _ _ hw hL hI)
      cases x with
      | ok hold => exact marked_of_idle hw1
      | error e =>
        dsimp only
        split
        · exact compensation_ensures hsweep cfg claim hw1
        · exact marked_of_idle hw1

theorem deposit_answer_ensures (hA : ∀ t o w r w', A t o w r w' → Awaited t o w r w') (hsweep : jobs t ≠ .sweep) (cfg : Config)
    (claim : BookingClaim) (hw : w.db.Idle t) (hL : w.db.Lawful (Jobs jobs)) (hI : (deposits jobs A).Inv w) :
    (deposits jobs A).Ensures t (answerClaim cfg claim) (fun _ w' => Marked t w') w := by
  unfold answerClaim
  refine ensures_bind (ensures_mono (fun x w1 hw1 => ?_) (step_ensures hA hsweep cfg claim hw hL hI))
  cases x with
  | error e => exact hw1
  | ok deposit =>
    show (deposits jobs A).Ensures t (if _ then _ else _) _ w1
    split
    · exact ensures_marks hsweep (steady_notify _ _) (fun _ _ => SendWrites.marks) hw1 (fun _ _ h => h) fun _ _ h => h
    · exact hw1

theorem claim_commit (hsweep : jobs t ≠ .sweep) (hL : w.db.Lawful (Jobs jobs)) (hI : (deposits jobs A).Inv w)
    (hpend : ∀ T, T ∉ claimTables → ∀ i, w.db.pending t T i = none) : (deposits jobs A).Inv ⟨w.db.commit t, w.out⟩ := by
  refine deposits_commit hI (orderly_of_marked hL (deposits_committed hI) hsweep fun i p hp => ?_)
  rw [hpend .payments (by decide) i] at hp
  cases hp

theorem opening_ensures (hA : ∀ t o w r w', A t o w r w' → Awaited t o w r w') (hopen : (jobs t).opens = true)
    (cfg : Config) (hw : w.db.Idle t) (hL : w.db.Lawful (Jobs jobs)) (hI : (deposits jobs A).Inv w) :
    (deposits jobs A).Ensures t ((jobs t).code cfg) (fun _ _ => True) w := by
  have hsweep : jobs t ≠ .sweep := by
    intro h
    rw [h] at hopen
    cases hopen
  cases hj : jobs t with
  | postBookings r =>
    refine ensures_first (ensures_createBooking deposits_calm cfg r hw hL hI (fun w' hL' hI' => claim_commit hsweep hL' hI')
      (fun _ _ _ => trivial) fun claim w1 hL1 hI1 hw1 => ?_)
    refine ensures_bind (ensures_mono (fun x _ _ => ?_) (deposit_answer_ensures hA hsweep cfg claim hw1 hL1 hI1))
    cases x <;> trivial
  | claimOffer r =>
    refine ensures_first (ensures_claim deposits_calm cfg r hw hL hI (fun w' hL' hI' => claim_commit hsweep hL' hI')
      (fun _ _ _ => trivial) fun claim w1 hL1 hI1 hw1 => ?_)
    refine ensures_bind (ensures_mono (fun x _ _ => ?_) (deposit_answer_ensures hA hsweep cfg claim hw1 hL1 hI1))
    cases x <;> trivial
  | _ =>
    rw [hj] at hopen
    cases hopen

end Boutique
