import Boutique.Creates
import Boutique.Stock
/-!
# NoOversell — no claim takes a seat the grid does not have

Every booking a run of the server inserts took the lowest free seat, within the capacity the grid gave its instant while
the claim held the lock, and left the instant no fuller than that capacity.
-/
namespace Boutique

open Txn Contract

def seatLedger (cfg : Config) : Ledger schema where
  Holds e m c := ∀ i b, c.before .bookings i = none → c.after .bookings i = some b →
    ∃ now, Booking.termsAcceptedAt b = some now ∧
      ∀ n, Bounded (e.version (m + 1)) n → Seated cfg e m n now b.startsAt b.seatIndex
  stable e e' m c hm hlog hv h := fun i b hi hb => by
    obtain ⟨now, hnow, hseat⟩ := h i b hi hb
    refine ⟨now, hnow, fun n hn => ?_⟩
    rw [hv _ (Nat.le_refl _)] at hn
    exact (hseat n hn).later (List.getElem?_eq_some_iff.1 hm).1 hlog hv

def Job.claims : Job → Bool
  | .createBooking _ => true
  | .claim _ => true
  | _ => false

def Job.books : Job → Bool
  | .createBooking _ => true
  | .claim _ => true
  | .postBookings _ => true
  | .claimOffer _ => true
  | _ => false

theorem books_of_insert {job : Job} {l : Bool} {row : Booking} (h : job.Writes l (Op.insert .bookings row)) :
    job.books = true := by
  cases job with
  | createBooking | claim | postBookings | claimOffer => rfl
  | delivery =>
    cases h with
    | settle h => cases h
    | effect h =>
      cases h with
      | reminder _ _ h => cases h
      | send _ _ _ h => cases h
  | sweep => cases h
  | reschedule =>
    cases h with
    | reminder _ h => cases h
  | replaceWeeklyRules | addException | removeException => cases h
  | ownerConfirm | ownerNoShow | ownerComplete | ownerCancel | customerCancel | checkIn | undoCheckIn => cases h

variable {jobs : Tid → Job} {cfg : Config} {t : Tid}

theorem seats_of_other {e : Engine schema} (ht : (jobs t).books = false) (he : e.Lawful (Jobs jobs)) :
    (seatLedger cfg).Holds (e.commit t) e.log.length (e.entry t) := by
  intro i b hi hb
  have hin := he.inflight t .bookings i
  rw [show e.committed .bookings i = none from hi, show e.view t .bookings i = some b from hb] at hin
  obtain ⟨r0, -, -, hw, -⟩ := hin
  rw [books_of_insert hw] at ht
  cases ht

abbrev seats (cfg : Config) (jobs : Tid → Job) : Contract (Jobs jobs) service Err :=
  (seatLedger cfg).contract (Jobs jobs) fun _ _ _ _ _ => True

theorem seats_of_noNew {e : Engine schema} (h : e.NoNew t .bookings) :
    (seatLedger cfg).Holds (e.commit t) e.log.length (e.entry t) := by
  intro i b hi hb
  have hnone : e.view t .bookings i = none := h.view hi
  rw [show e.view t .bookings i = some b from hb] at hnone
  cases hnone

theorem tail_ensures {α : Type} {p : Prg α} {w : BWorld} (hp : Steady (Writes true TailWrites) false p)
    (hw : w.db.Idle t) : (seats cfg jobs).Ensures t p (fun _ _ => True) w := by
  refine ensures_mono (fun _ _ _ => trivial) (ensures_of_uses (fun _ (w : BWorld) => w.db.NoNew t Table.bookings)
    (fun _ _ _ hev h => hev.db.noNew h) ?_ hp (hw.noNew _))
  intro l o w i x w' ho hL hI h he hL' _
  have hins : ∀ r, o ≠ .sql (.insert .bookings r) := by
    rintro r rfl
    rcases ho with ho | ⟨-, ho⟩ | ho
    · cases ho
    · cases ho
    · cases ho with
      | open_ _ h => cases h
      | send _ h => cases h
  refine ⟨?_, World.exec_noNew hins he h⟩
  by_cases hc : o = .sql .commit
  · subst hc
    cases he
    exact Ledger.inv_commit hI (seats_of_noNew h)
  · exact (Ledger.historic fun _ => true).exec hc (fun _ _ => rfl) he hI

def ClaimResult (t : Tid) (x : Except Err Reply) (w : BWorld) : Prop :=
  x ≠ .error noSeat ∧ ∀ c, x = .ok (.claim c) → c.created = true →
    ∃ entry ∈ w.db.own t, entry.before .bookings c.booking.id = none ∧ entry.after .bookings c.booking.id = some c.booking

theorem ClaimResult.later {x : Except Err Reply} {w w' : BWorld} {D : Cast schema} (h : ClaimResult t x w)
    (hev : w.Evolves D t w') : ClaimResult t x w' := by
  unfold ClaimResult
  rw [hev.db.since.own]
  exact h

/-- **A fresh claim closes in order**: its one booking is fairly seated, and its commit is there to show. -/
theorem claimed_commit {w w' w'' : BWorld} {C : Contract (Jobs jobs) service Err} {now x : Int} {row : Slot → Nat → Booking}
    {token : Nat} {b : Booking}
    (hrow : ∀ slot i, (row slot i).startsAt = slot.startsAt ∧ (row slot i).termsAcceptedAt = some now)
    (hw : ∀ i, w.db.pending t .bookings i = none) (h : Claimed C t cfg w now row x token b w')
    (hp : C.Point t w' w'') (hpend : w''.db.pending t = w'.db.pending t) :
    (seatLedger cfg).Holds (w''.db.commit t) w''.db.log.length (w''.db.entry t) ∧
      (w''.db.entry t).before .bookings b.id = none ∧ (w''.db.entry t).after .bookings b.id = some b := by
  have hbook : w''.db.pending t .bookings = ((w.db.pending t).set .bookings b.id b) .bookings := by
    rw [hpend]
    exact h.bookings
  have hview : w''.db.view t .bookings = (w''.db.committed.set .bookings b.id b) .bookings := by
    funext i
    unfold Engine.view Rows.overlay
    rw [hbook]
    by_cases hi : i = b.id
    · subst hi
      have hset : ((w.db.pending t).set .bookings b.id b) .bookings b.id = some b := Rows.set_same
      have hnow : (w''.db.committed.set .bookings b.id b) .bookings b.id = some b := Rows.set_same
      rw [hset, hnow]
    · have hset : ((w.db.pending t).set .bookings b.id b) .bookings i = none := (Rows.set_row hi).trans (hw i)
      have hnow : (w''.db.committed.set .bookings b.id b) .bookings i = w''.db.committed .bookings i := Rows.set_row hi
      rw [hset, hnow]
  have hself : w''.db.view t .bookings b.id = some b := by
    rw [hview]
    exact Rows.set_same
  have hnew : w''.db.committed .bookings b.id = none := by
    obtain ⟨r, hr⟩ : ∃ r, w'.db.pending t .bookings b.id = some r := ⟨b, by rw [h.bookings]; exact Rows.set_same⟩
    rw [(hp.since.written _ _ _ hr).2]
    exact h.new
  refine ⟨fun i b' hi hb' => ?_, hnew, hself⟩
  have hib : i = b.id := by
    by_contra hne
    have hother : w''.db.view t .bookings i = w''.db.committed .bookings i := by
      rw [hview]
      exact Rows.set_row hne
    have hb'' : w''.db.view t .bookings i = some b' := hb'
    rw [hother, show w''.db.committed .bookings i = none from hi] at hb''
    cases hb''
  subst hib
  have hbb : b' = b := by
    have hb'' : w''.db.view t .bookings b.id = some b' := hb'
    rw [hself] at hb''
    exact (Option.some.inj hb'').symm
  subst hbb
  obtain ⟨slot, k, j, n, hslot, hb⟩ := h.row
  have hx : b'.startsAt = x := by
    rw [hb]
    exact (hrow slot k).1.trans hslot
  refine ⟨now, ?_, fun n hn => ?_⟩
  · rw [hb]
    exact (hrow slot k).2
  · rw [Engine.commit_version_last] at hn
    rw [hx]
    exact (h.fair.later hp).seated (jobs_under jobs) hp.lawful hview hn

def Shown (t : Tid) (b : Booking) (w : BWorld) : Prop :=
  ∃ entry ∈ w.db.own t, entry.before .bookings b.id = none ∧ entry.after .bookings b.id = some b

theorem shown_of_commit {w : BWorld} {b : Booking} (hb : (w.db.entry t).before .bookings b.id = none)
    (ha : (w.db.entry t).after .bookings b.id = some b) : Shown t b ⟨w.db.commit t, w.out⟩ :=
  ⟨w.db.entry t, by rw [Engine.commit_own]; simp, hb, ha⟩

section

variable {α : Type} {k : BookingClaim → Prg α} {Q : Except Err α → BWorld → Prop} {w : BWorld}

theorem createBooking_ensures (r : CreateRequest) (hw : w.db.Idle t) (herr : ∀ e w', e ≠ noSeat → Q (.error e) w')
    (hok : ∀ c w', w'.db.Idle t → (c.created = true → Shown t c.booking w') → (seats cfg jobs).Ensures t (k c) Q w') :
    (seats cfg jobs).Ensures t (BookingService.createBooking cfg r >>= k) Q w := by
  have hC : (seats cfg jobs).Historic calm := Ledger.historic _
  unfold BookingService.createBooking
  refine ensures_first (ensures_liftExcept (fun e he => herr e w ?_) fun _ _ => ?_)
  · rintro rfl
    exact validateBookingRequest_ne _ _ _ _ he
  refine ensures_first (ensures_liftExcept (fun e he => herr e w ?_) fun phone _ => ?_)
  · rintro rfl
    exact normalizeIsraeliMobile_ne _ he
  refine ensures_first (ensures_clock hC fun w1 h1 hp1 => ?_)
  refine ensures_first (ensures_raiseIf (fun _ => herr _ _ nofun) fun _ => ?_)
  refine ensures_first (ensures_stretch hC [] (steady_checkBudgets phone).within h1.lawful h1.inv noSeat
    (never_checkBudgets phone) (fun e w2 _ he => herr e w2 he) fun _ w2 h2 hp2 => ?_)
  have hidle : w2.db.Idle t := ⟨funext fun T => (hp2 T List.not_mem_nil).trans
    ((congrFun hp1 T).trans (congrFun hw.pending T))⟩
  refine ensures_session hC hidle fun w3 n h3 hidle3 => ?_
  have hu : Unwritten t w3 := by
    unfold Unwritten
    rw [hidle3.pending]
    exact ⟨fun _ => rfl, fun _ => rfl, fun _ => rfl⟩
  refine ensures_mono ?_ (createIn_ensures hC (jobs_under jobs) hu h3.lawful h3.inv cfg r phone _ n)
  rintro x w4 ⟨h4, hx⟩
  cases x with
  | error e => exact fun w5 _ _ => herr e _ hx
  | ok c =>
    intro w5 h5 hp5 _ _ _ _
    have hdone : (⟨w5.db.commit t, w5.out⟩ : BWorld).db.Idle t := Engine.idle_commit _ _
    rcases hx with hx | hx
    · refine ⟨Ledger.inv_commit h5.inv (seats_of_noNew fun i r hr _ => ?_), hok c _ hdone fun hc => ?_⟩
      · rw [hp5, hx.pending .bookings (by decide), hidle3.pending] at hr
        cases hr
      · rw [hx.created] at hc
        cases hc
    · obtain ⟨w0, a, v, token, due, text, -, h0, hp0, hclaim⟩ := hx.claimed
      have hpend : ∀ i, w0.db.pending t .bookings i = none := fun i => by
        rw [hp0 .bookings (by decide)]
        exact hu.1 i
      obtain ⟨hholds, hb, ha⟩ := claimed_commit (fun _ _ => ⟨rfl, rfl⟩) hpend hclaim h5 hp5
      exact ⟨Ledger.inv_commit h5.inv hholds, hok c _ hdone fun _ => shown_of_commit hb ha⟩

theorem claim_ensures (r : OfferClaimRequest) (hw : w.db.Idle t) (herr : ∀ e w', e ≠ noSeat → Q (.error e) w')
    (hok : ∀ c w', w'.db.Idle t → (c.created = true → Shown t c.booking w') → (seats cfg jobs).Ensures t (k c) Q w') :
    (seats cfg jobs).Ensures t (WaitlistOffer.claim cfg r >>= k) Q w := by
  have hC : (seats cfg jobs).Historic calm := Ledger.historic _
  unfold WaitlistOffer.claim
  refine ensures_first (ensures_liftExcept (fun e he => herr e w ?_) fun _ _ => ?_)
  · rintro rfl
    exact validateBookingRequest_ne _ _ _ _ he
  refine ensures_first (ensures_clock hC fun w1 h1 hp1 => ?_)
  have hidle : w1.db.Idle t := ⟨hp1.trans hw.pending⟩
  refine ensures_session hC hidle fun w3 n h3 hidle3 => ?_
  have hu : Unwritten t w3 := by
    unfold Unwritten
    rw [hidle3.pending]
    exact ⟨fun _ => rfl, fun _ => rfl, fun _ => rfl⟩
  refine ensures_mono ?_ (claimIn_ensures hC (jobs_under jobs) hu h3.lawful h3.inv cfg r _)
  rintro x w4 ⟨h4, hx⟩
  cases x with
  | error e => exact fun w5 _ _ => herr e _ hx
  | ok c =>
    intro w5 h5 hp5 _ _ _ _
    obtain ⟨-, w0, x, row, token, hu0, -, hrow, hclaim⟩ := hx
    obtain ⟨hholds, hb, ha⟩ := claimed_commit hrow hu0.1 hclaim h5 hp5
    exact ⟨Ledger.inv_commit h5.inv hholds, hok c _ (Engine.idle_commit _ _) fun _ => shown_of_commit hb ha⟩

end

theorem answer_ensures {Q : Except Err Reply → BWorld → Prop} {w : BWorld} (c : BookingClaim) (hw : w.db.Idle t)
    (hQ : ∀ x w', Q x w') :
    (seats cfg jobs).Ensures t (answerClaim cfg c >>= fun r => pure (Reply.created r)) Q w := by
  refine ensures_bind (ensures_mono (fun x w' _ => ?_) (tail_ensures (steady_answerClaim cfg c) hw))
  cases x <;> exact hQ _ w'

def SeatEnd (job : Job) (t : Tid) (x : Except Err Reply) (w : BWorld) : Prop :=
  job.claims = true → ClaimResult t x w

theorem seats_safe (job : Job) (hjob : jobs t = job) {w : BWorld} (hw : w.db.Idle t) :
    (seats cfg jobs).logic.Safe t (job.code cfg) (SeatEnd job t) w := by
  by_cases hbook : job.books = true
  · refine safe_of_ensures (Q := SeatEnd job t) ?_ fun x w1 w2 hx hev _ _ hc => (hx hc).later hev
    have herr : ∀ e w', e ≠ noSeat → SeatEnd job t (.error e) w' := by
      intro e w' he _
      refine ⟨fun h => he (Except.error.inj h), fun c hc => ?_⟩
      cases hc
    cases job with
    | createBooking r =>
      refine createBooking_ensures r hw herr fun c w1 _ hc => ?_
      intro _
      refine ⟨(by nofun), fun c' hc' hnew => ?_⟩
      cases hc'
      exact hc hnew
    | claim r =>
      refine claim_ensures r hw herr fun c w1 _ hc => ?_
      intro _
      refine ⟨(by nofun), fun c' hc' hnew => ?_⟩
      cases hc'
      exact hc hnew
    | postBookings r =>
      exact ensures_first (createBooking_ensures r hw herr fun c w1 hw1 _ =>
        answer_ensures c hw1 fun _ _ hc => by cases hc)
    | claimOffer r =>
      exact ensures_first (claim_ensures r hw herr fun c w1 hw1 _ =>
        answer_ensures c hw1 fun _ _ hc => by cases hc)
    | _ => cases hbook
  · have hno : (jobs t).books = false := by
      rw [hjob]
      exact Bool.eq_false_iff.2 hbook
    refine Ledger.safe_of_lawful (fun e he _ => seats_of_other hno he) fun x w' hc => ?_
    cases job with
    | createBooking | claim => exact absurd rfl hbook
    | _ => cases hc

/-- The live bookings of one instant sit on seats of their own, numbered from one. -/
def SeatsApart (rows : Rows schema) : Prop :=
  ∀ i b, rows .bookings i = some b → Booking.live b = true → 1 ≤ Booking.seatIndex b ∧
    ∀ j b', rows .bookings j = some b' → Booking.live b' = true → b.startsAt = Booking.startsAt b' → i ≠ j →
      b.seatIndex ≠ b'.seatIndex

theorem seatsApart_of_consistent {rows : Rows schema} (h : Consistent rows) : SeatsApart rows := by
  intro i b hb hl
  have hcheck := h.check .bookings i b hb
  simp only [rowCheck, decide_eq_true_eq] at hcheck
  refine ⟨hcheck.1.1, fun j b' hb' hl' hx hij hk => ?_⟩
  have hclash := h.apart .bookings i j b b' hb hb' hij
  simp only [rowClash, hl, hl', hx, hk, decide_true, Bool.true_or, Bool.and_self] at hclash
  cases hclash

/-- **No claim oversells.**  In every run from tables that satisfy their constraints, whatever the other threads do:
every booking a commit inserted had been given the lowest seat free at its instant, within the grid's capacity there, with
no locked commit in between, and left no more live bookings there than that capacity; a claim that returned a new booking
committed that row; no claim ever fails to find a seat in an offered slot; and live bookings of one instant sit apart at
every version. -/
theorem claims_never_oversell {rows : Rows schema} {next : Nat} {now : Int} {c : Conf server Reply}
    (h : Tables rows next) (hr : (start cfg jobs rows next now).Reaches c) :
    (∀ m entry, c.state.db.log[m]? = some entry → ∀ i b, entry.before .bookings i = none →
      entry.after .bookings i = some b → ∃ at_, Booking.termsAcceptedAt b = some at_ ∧
        Seated cfg c.state.db m c.state.db.next at_ b.startsAt b.seatIndex) ∧
    (∀ t claim, (jobs t).claims = true → c.threads t = some (.ret (.claim claim)) → claim.created = true →
      ∃ entry ∈ c.state.db.log, entry.by_ = t ∧ entry.before .bookings claim.booking.id = none ∧
        entry.after .bookings claim.booking.id = some claim.booking) ∧
    (∀ t, (jobs t).claims = true → c.threads t ≠ some (.raise noSeat)) ∧
    ∀ m, SeatsApart (c.state.db.version m) := by
  have hI : (seats cfg jobs).Inv (start cfg jobs rows next now).state := fun m entry hm => by cases hm
  have hsafe : ∀ t p, (start cfg jobs rows next now).threads t = some p →
      (seats cfg jobs).logic.Safe t p (SeatEnd (jobs t) t) (start cfg jobs rows next now).state := by
    intro t p hp
    cases hp
    exact seats_safe (jobs t) rfl ⟨rfl⟩
  obtain ⟨hsound, hL⟩ := (seats cfg jobs).runs (start_obeyed h) hI hsafe hr
  refine ⟨fun m entry hm i b hi hb => ?_, fun t claim hc ht hnew => ?_, fun t hc ht => ?_, fun m => ?_⟩
  · obtain ⟨at_, hat, hseat⟩ := hsound.inv.2 m entry hm i b hi hb
    refine ⟨at_, hat, hseat _ fun T j hj => ?_⟩
    cases hv : c.state.db.version (m + 1) T j with
    | none => rfl
    | some r =>
      have hlt := hL.version_lt (Nat.succ_le_of_lt (List.getElem?_eq_some_iff.1 hm).1) hv
      omega
  · obtain ⟨entry, hmem, hb, ha⟩ := ((hsound.finished ht) hc).2 claim rfl hnew
    obtain ⟨hlog, hby⟩ := List.mem_filter.1 hmem
    exact ⟨entry, hlog, by simpa using hby, hb, ha⟩
  · exact ((hsound.raised ht) hc).1 rfl
  · exact seatsApart_of_consistent (hL.version_consistent m)

def twoClaims : Tid → Job
  | 0 => .createBooking dana
  | _ => .createBooking noa

theorem claims_never_oversell_shop :
    ∃ c, (start shop twoClaims (tableOf shelf) 5 0).Reaches c ∧ claimedSeat c 0 = some 1 ∧ claimedSeat c 1 = some 2 ∧
      ∀ m, SeatsApart (c.state.db.version m) := by
  obtain ⟨c, hc, hdone⟩ := reaches_of_play (start shop twoClaims (tableOf shelf) 5 0) (turns 0 fine 25 ++ turns 1 fine 25)
    (fun c => decide (claimedSeat c 0 = some 1 ∧ claimedSeat c 1 = some 2)) (by decide)
  obtain ⟨hdana, hnoa⟩ := of_decide_eq_true hdone
  exact ⟨c, hc, hdana, hnoa, (claims_never_oversell shelf_tables hc).2.2.2⟩

end Boutique
