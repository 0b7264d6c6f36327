import Boutique.OneHold
/-!
# RunOut — the sweep, and what a booking owes

A sweep that runs holds out commits only once each of their bookings waits no more; with it every job keeps the deposits
in order, over whole runs.
-/
namespace Boutique

open Txn Contract

variable {jobs : Tid → Job} {A : server.Assumption} {t : Tid} {w w' : BWorld}

theorem view_point (h : (deposits jobs A).Point t w w') (hpend : w'.db.pending t = w.db.pending t) {T : Table} {i : Nat}
    {r : Row T} (hr : w.db.view t T i = some r) : ∃ r', w'.db.view t T i = some r' ∧ RowBecomes true T r r' := by
  unfold Engine.view Rows.overlay at hr ⊢
  rw [hpend]
  cases hp : w.db.pending t T i with
  | some x =>
    rw [hp] at hr
    exact ⟨r, hr, boutique.refl true T r⟩
  | none =>
    rw [hp] at hr
    have hrow := h.since.after.rows T i
    change w.db.committed T i = some r at hr
    rw [hr] at hrow
    obtain ⟨r', hr', htrans⟩ := hrow.some_left
    exact ⟨r', hr', htrans⟩

def Releasing (t : Tid) (todo : List Payment) (w : BWorld) : Prop :=
  ∀ i p, w.db.pending t .payments i = some p → p.isHold ∧
    ((∃ p' ∈ todo, p'.bookingId = p.bookingId) ∨
      ∃ b : Booking, w.db.view t .bookings p.bookingId = some b ∧ b.status ≠ .pendingPayment)

theorem releasing_of_idle (h : w.db.Idle t) (todo : List Payment) : Releasing t todo w := by
  intro i p hp
  rw [h.pending] at hp
  cases hp

variable {todo : List Payment} {p : Payment}

theorem Releasing.point (h : Releasing t todo w) (hp : (deposits jobs A).Point t w w')
    (hpend : w'.db.pending t = w.db.pending t) : Releasing t todo w' := by
  intro i p hrow
  rw [hpend] at hrow
  obtain ⟨hhold, hrest⟩ := h i p hrow
  refine ⟨hhold, hrest.imp_right fun ⟨b, hb, hwaits⟩ => ?_⟩
  obtain ⟨b', hb', hbecomes⟩ := view_point hp hpend hb
  exact ⟨b', hb', fun hs => hwaits (BookingBecomes.waits hbecomes hs)⟩

def Unwaiting : (T : Table) → Row T → Prop
  | .bookings, b => Booking.status b ≠ .pendingPayment
  | _, _ => True

theorem Releasing.wrote {w1 w2 : BWorld} {T : Table} {j : Nat} {r : Row T} (h : Releasing t todo w)
    (hw : (deposits jobs A).Wrote t w w1 w2 T j r) (hpayments : T ≠ .payments) (hr : Unwaiting T r) :
    Releasing t todo w2 := by
  have h1 := h.point hw.before hw.kept
  intro i p hrow
  rw [hw.pending, set_other_table hpayments.symm, ← hw.kept] at hrow
  obtain ⟨hhold, hrest⟩ := h1 i p hrow
  refine ⟨hhold, hrest.imp_right fun ⟨b, hb, hwaits⟩ => ?_⟩
  rw [hw.view]
  by_cases hT : Table.bookings = T ∧ p.bookingId = j
  · obtain ⟨rfl, rfl⟩ := hT
    exact ⟨r, set_same_row, hr⟩
  · exact ⟨b, (Rows.set_other hT).trans hb, hwaits⟩

theorem Releasing.expired {w1 w2 : BWorld} {j : Nat} (h : Releasing t todo w)
    (hw : (deposits jobs A).Wrote t w w1 w2 .payments j p) (hp : p.isHold) : Releasing t (todo ++ [p]) w2 := by
  have h1 := h.point hw.before hw.kept
  intro i q hrow
  by_cases hij : i = j
  · subst hij
    have hself := hw.row.symm.trans hrow
    cases hself
    exact ⟨hp, .inl ⟨p, by simp, rfl⟩⟩
  · rw [hw.pending, set_other_row hij, ← hw.kept] at hrow
    obtain ⟨hhold, hrest⟩ := h1 i q hrow
    refine ⟨hhold, ?_⟩
    rcases hrest with ⟨p', hp', hb⟩ | ⟨b, hb, hwaits⟩
    · exact .inl ⟨p', List.mem_append_left _ hp', hb⟩
    · refine .inr ⟨b, ?_, hwaits⟩
      rw [hw.view, set_other_table (by decide)]
      exact hb

theorem Releasing.released (h : Releasing t (p :: todo) w)
    (hb : ∀ q : Payment, q.isHold → q.bookingId = p.bookingId → (∃ i, w.db.pending t .payments i = some q) →
      ∃ b : Booking, w.db.view t .bookings q.bookingId = some b ∧ b.status ≠ .pendingPayment) : Releasing t todo w := by
  intro i q hrow
  obtain ⟨hhold, hrest⟩ := h i q hrow
  refine ⟨hhold, ?_⟩
  rcases hrest with ⟨p', hp', hp⟩ | hrest
  · rcases List.mem_cons.1 hp' with rfl | hp'
    · exact .inr (hb q hhold hp.symm ⟨i, hrow⟩)
    · exact .inl ⟨p', hp', hp⟩
  · exact .inr hrest

theorem booked_inflight (hL : w.db.Lawful (Jobs jobs)) (h : Orderly w.db.committed) (hopen : (jobs t).opens = false)
    {i : Nat} (hp : w.db.pending t .payments i = some p) (hhold : p.isHold) :
    ∃ b : Booking, w.db.view t .bookings p.bookingId = some b := by
  have hview : w.db.view t .payments i = some p := Rows.over_some hp
  obtain ⟨q, hq⟩ := payment_before hL hopen hview
  obtain ⟨p', hp', hbecomes⟩ := view_becomes hL hq
  rw [hview] at hp'
  cases hp'
  obtain ⟨b, hb⟩ := h.booked i q hq (PaymentBecomes.isHold hbecomes |>.1 hhold)
  obtain ⟨b', hb', -⟩ := view_becomes hL hb
  exact ⟨b', by rw [PaymentBecomes.bookingId hbecomes]; exact hb'⟩

/-! ## The sweep's transaction -/

theorem expireHolds_ensures (now : Int) (hw : w.db.Idle t) :
    (deposits jobs A).Ensures t (DepositSweeper.expireHolds now) (fun x w' => ∀ claimed, x = .ok claimed →
      Releasing t claimed w') w := by
  unfold DepositSweeper.expireHolds
  refine ensures_select deposits_calm fun w1 _ hp1 _ => ?_
  have hidle : w1.db.Idle t := ⟨hp1.trans hw.pending⟩
  refine ensures_updateEach deposits_calm (T := .payments) (J := fun (rs : List Payment) w => Releasing t rs w)
    (fun rs w w1 h hp hpend => h.point hp hpend) (fun rs w w1 w2 i v p h hwrote _ hr => h.expired hwrote ?_) _ []
    (releasing_of_idle hidle [])
  simp only [schema, applyChange, PaymentChange.apply] at hr
  split at hr <;> cases hr
  intro h
  cases h

theorem releaseEach_ensures (hopen : (jobs t).opens = false) (now : Int) (todo : List Payment) (h : Releasing t todo w) :
    (deposits jobs A).Ensures t (DepositSweeper.releaseEach now todo) (fun x w' => ∀ n, x = .ok n → Releasing t [] w') w := by
  induction todo generalizing w with
  | nil => exact fun _ _ => h
  | cons p ps ih =>
    unfold DepositSweeper.releaseEach Bookings.cancel
    refine ensures_updateRow deposits_calm (fun _ _ _ _ _ _ _ _ _ h => by cases h) (fun w1 h1 hp1 hnone => ?_)
      fun w1 w2 v b h2 hv hb _ => ?_
    · have hR : Releasing t ps w1 := by
        refine (h.point h1 hp1).released fun q hhold hq hbooked => ?_
        obtain ⟨i, hrow⟩ := hbooked
        obtain ⟨b, hb⟩ := booked_inflight h1.lawful (deposits_committed h1.inv) hopen hrow hhold
        have halive := booking_alive h1.lawful (deposits_committed h1.inv) hb
        refine ⟨b, hb, fun hs => ?_⟩
        rw [hq] at hb
        rw [hb] at hnone
        simp [schema, applyChange, BookingChange.apply, withinBounds, hs, halive] at hnone
      unfold Audit.record
      refine ensures_insertRow deposits_calm (fun _ _ _ _ h => by cases h) fun w2 w3 n h3 _ => ?_
      refine ensures_bind (ensures_mono (fun x w' hx => ?_) (ih (hR.wrote h3 (by decide) trivial)))
      cases x with
      | error e => exact fun _ h => by cases h
      | ok n => exact fun _ _ => hx n rfl
    · have hdead : Unwaiting .bookings b := by
        simp only [schema, applyChange, BookingChange.apply] at hb
        split at hb <;> cases hb
        intro h
        cases h
      have hR : Releasing t ps w2 := by
        refine (h.wrote h2 (by decide) hdead).released fun q _ hq _ => ⟨b, ?_, hdead⟩
        rw [h2.view, hq]
        exact set_same_row
      unfold Audit.record
      refine ensures_insertRow deposits_calm (fun _ _ _ _ h => by cases h) fun w3 w4 n h3 _ => ?_
      refine ensures_bind (ensures_mono (fun x w' hx => ?_) (ih (hR.wrote h3 (by decide) trivial)))
      cases x with
      | error e => exact fun _ h => by cases h
      | ok n => exact fun _ _ => hx n rfl

theorem cancelOrphans_ensures (now grace : Int) (h : Releasing t [] w) :
    (deposits jobs A).Ensures t (DepositSweeper.cancelOrphans now grace) (fun x w' => ∀ bs, x = .ok bs →
      Releasing t [] w') w := by
  unfold DepositSweeper.cancelOrphans
  refine ensures_select deposits_calm fun w1 h1 hp1 _ => ?_
  refine ensures_updateEach deposits_calm (T := .bookings) (J := fun (_ : List Booking) w => Releasing t [] w)
    (fun rs w w1 h hp hpend => h.point hp hpend) (fun rs w w1 w2 i v b h hwrote _ hb => h.wrote hwrote (by decide) ?_) _
    [] (h.point h1 hp1)
  simp only [schema, applyChange, BookingChange.apply] at hb
  split at hb <;> cases hb
  intro h
  cases h

theorem recordOrphans_ensures (bs : List Booking) (h : Releasing t [] w) :
    (deposits jobs A).Ensures t (DepositSweeper.recordOrphans bs) (fun x w' => x = .ok () → Releasing t [] w') w := by
  induction bs generalizing w with
  | nil => exact fun _ => h
  | cons b bs ih =>
    unfold DepositSweeper.recordOrphans Audit.record
    exact ensures_insertRow deposits_calm (fun _ _ _ => by nofun) fun w1 w2 n h2 _ => ih (h.wrote h2 (by decide) trivial)

theorem sweep_commit (hopen : (jobs t).opens = false) (hL : w.db.Lawful (Jobs jobs)) (hI : (deposits jobs A).Inv w)
    (h : Releasing t [] w) : (deposits jobs A).Inv ⟨w.db.commit t, w.out⟩ := by
  have hnone : ∀ i p, w.db.committed .payments i = none → w.db.view t .payments i = some p → False := by
    intro i p hc hp
    obtain ⟨q, hq⟩ := payment_before hL hopen hp
    rw [hc] at hq
    cases hq
  refine deposits_commit hI (orderly_view hL (deposits_committed hI) (fun i p hc hp => (hnone i p hc hp).elim)
    (fun i j p q hc _ hp => (hnone i p hc hp).elim) fun i p q b hq hp hs hne hb => ?_)
  have hrow : w.db.pending t .payments i = some p := by
    cases hpend : w.db.pending t .payments i with
    | none =>
      have hview : w.db.view t .payments i = w.db.committed .payments i := Rows.over_none hpend
      rw [hp, hq] at hview
      cases hview
      exact absurd hs hne
    | some p' =>
      have hview : w.db.view t .payments i = some p' := Rows.over_some hpend
      rw [hp] at hview
      cases hview
      rfl
  obtain ⟨-, ⟨p', hp', -⟩ | ⟨b', hb', hwaits⟩⟩ := h i p hrow
  · cases hp'
  · rw [hb] at hb'
    cases hb'
    exact hwaits

theorem sweep_ensures (hopen : (jobs t).opens = false) (cfg : Config) (hw : w.db.Idle t) :
    (deposits jobs A).Ensures t (DepositSweeper.sweep cfg) (fun _ _ => True) w := by
  unfold DepositSweeper.sweep
  refine ensures_clock deposits_calm fun w1 _ hp1 => ?_
  have hw1 : w1.db.Idle t := ⟨hp1.trans hw.pending⟩
  refine ensures_last (ensures_session deposits_calm hw1 fun w2 _ _ hw2 => ?_)
  refine ensures_bind (ensures_mono (fun x w3 hx => ?_) (expireHolds_ensures w1.db.clock hw2))
  cases x with
  | error e => exact fun _ _ _ => trivial
  | ok claimed =>
    refine ensures_bind (ensures_mono (fun x w4 hx => ?_) (releaseEach_ensures hopen w1.db.clock claimed (hx claimed rfl)))
    cases x with
    | error e => exact fun _ _ _ => trivial
    | ok released =>
      refine ensures_bind (ensures_mono (fun x w5 hx => ?_) (cancelOrphans_ensures w1.db.clock
        ((cfg.depositHoldSeconds + cfg.pollIntervalSeconds) * second) (hx released rfl)))
      cases x with
      | error e => exact fun _ _ _ => trivial
      | ok orphans =>
        refine ensures_bind (ensures_mono (fun x w6 hx => ?_) (recordOrphans_ensures orphans (hx orphans rfl)))
        cases x with
        | error e => exact fun _ _ _ => trivial
        | ok _ =>
          intro w7 h7 hp7 _ _ _ _
          exact ⟨sweep_commit hopen h7.lawful h7.inv ((hx rfl).point h7 hp7), trivial⟩

/-! ## Whole runs -/

theorem deposits_ensures (hA : ∀ t o w r w', A t o w r w' → Awaited t o w r w') (cfg : Config) (hw : w.db.Idle t)
    (hL : w.db.Lawful (Jobs jobs)) (hI : (deposits jobs A).Inv w) :
    (deposits jobs A).Ensures t ((jobs t).code cfg) (fun _ _ => True) w := by
  cases hopen : (jobs t).opens with
  | true => exact opening_ensures hA hopen cfg hw hL hI
  | false =>
    by_cases hsweep : jobs t = .sweep
    · rw [hsweep]
      refine ensures_bind (ensures_mono (fun x _ _ => ?_) (sweep_ensures hopen cfg hw))
      cases x <;> trivial
    · exact other_ensures hopen hsweep cfg

/-- **In a run whose deposits are awaited, the deposits stay in order**, and no session is minted for a paid booking. -/
theorem run_orderly (hA : ∀ t o w r w', A t o w r w' → Awaited t o w r w') {cfg : Config} {rows : Rows schema} {next : Nat}
    {now : Int} (htables : Tables rows next) (h : Orderly rows) {c : Conf server Reply}
    (hr : Conf.Steps A (start cfg jobs rows next now) c) :
    (∀ m, Orderly (c.state.db.version m)) ∧ MintsUnpaid c.state := by
  have hI : (deposits jobs A).Inv (start cfg jobs rows next now).state := by
    refine ⟨fun m => ?_, fun μ hμ => by cases hμ⟩
    have hversion : (start cfg jobs rows next now).state.db.version m = rows := by
      unfold Engine.version
      cases m <;> rfl
    exact hversion ▸ h
  have hsafe : ∀ t p, (start cfg jobs rows next now).threads t = some p →
      (deposits jobs A).logic.Safe t p (fun _ _ => True) (start cfg jobs rows next now).state := by
    intro t p hp
    cases hp
    exact safe_of_ensures (deposits_ensures hA cfg ⟨rfl⟩ (quiet_lawful htables _) hI) fun _ _ _ _ _ _ _ => trivial
  obtain ⟨hsound, -⟩ := (deposits jobs A).runs (Q := fun _ _ _ => True) (start_obeyed htables) hI hsafe hr
  exact hsound.inv.2

/-! ## One deposit -/

/-- **One deposit for each appointment**: no session was minted for a booking that had a paid payment, and no state of the
run has two paid payments of one booking. -/
def OneDeposit (w : BWorld) : Prop :=
  (∀ μ ∈ w.out.minted, NoPaid (w.db.version μ.moment) μ.bookingId) ∧
  ∀ m i j p q, w.db.version m .payments i = some p → w.db.version m .payments j = some q → Payment.status p = .paid →
    Payment.status q = .paid → Payment.bookingId p = Payment.bookingId q → i = j

/-- **In a run whose deposits are awaited, one deposit is taken.** -/
theorem one_deposit {cfg : Config} {rows : Rows schema} {next : Nat} {now : Int} {c : Conf server Reply}
    (htables : Tables rows next) (h : Orderly rows) (hr : Conf.Steps Awaited (start cfg jobs rows next now) c) :
    OneDeposit c.state := by
  obtain ⟨horderly, hminted⟩ := run_orderly (fun _ _ _ _ _ h => h) htables h hr
  refine ⟨fun μ hμ => (hminted μ hμ).2, fun m i j p q hp hq hsp hsq hb => ?_⟩
  refine (horderly m).single i j p q hp hq ?_ ?_ hb
  · rw [Payment.isHold, hsp]
    nofun
  · rw [Payment.isHold, hsq]
    nofun

theorem unpaid_orderly : Orderly (tableOf unpaid) := by
  have hpayment : ∀ i p, tableOf unpaid .payments i = some p → p = danaHold ∧ i = 7 := by
    intro i p hp
    obtain ⟨hmem, hid⟩ := tableOf_some hp
    cases List.mem_singleton.1 hmem
    exact ⟨rfl, hid.symm⟩
  refine ⟨fun i p hp => ?_, fun i j p q hp hq _ _ _ => ?_, fun i b hb => ?_, fun i p hp _ => ?_, fun i p b hp hs _ => ?_⟩
  · obtain ⟨rfl, rfl⟩ := hpayment i p hp
    exact ⟨rfl, .inl rfl⟩
  · rw [(hpayment i p hp).2, (hpayment j q hq).2]
  · obtain ⟨hmem, -⟩ := tableOf_some hb
    cases List.mem_singleton.1 hmem
    rfl
  · obtain ⟨rfl, rfl⟩ := hpayment i p hp
    exact ⟨waiting, rfl⟩
  · obtain ⟨rfl, rfl⟩ := hpayment i p hp
    cases hs

/-- Dana has paid, and asks for the same hour again before the process confirms it. -/
def paidAndReplayed : Tid → Job
  | 0 => .delivery paysHold
  | 1 => .postBookings dana
  | _ => .delivery ⟨"s2", "t2", 5000, true⟩

def committedPayments (c : Conf server Reply) : List (Nat × PaymentStatus) :=
  (committedRows c .payments).map fun (p : Payment) => (p.id, p.status)

/-- Both sessions are paid. -/
theorem two_deposits : ∃ c, (start shop paidAndReplayed (tableOf unpaid) 8 0).Reaches c ∧ Orderly (tableOf unpaid) ∧
    ¬OneDeposit c.state := by
  obtain ⟨c, hc, htwo⟩ := reaches_of_play (start shop paidAndReplayed (tableOf unpaid) 8 0)
    (turns 0 fine 8 ++ turns 1 another 24 ++ turns 2 fine 8)
    (fun c => decide ((c.state.db.committed .payments 7).map Payment.status = some .paid ∧
      (c.state.db.committed .payments 8).map Payment.status = some .paid ∧
      (c.state.db.committed .payments 7).map Payment.bookingId = (c.state.db.committed .payments 8).map Payment.bookingId))
    (by decide)
  obtain ⟨hfirst, hsecond, hsame⟩ := of_decide_eq_true htwo
  obtain ⟨p, hp, hps⟩ := Option.map_eq_some_iff.1 hfirst
  obtain ⟨q, hq, hqs⟩ := Option.map_eq_some_iff.1 hsecond
  refine ⟨c, hc, unpaid_orderly, fun hone => ?_⟩
  rw [hp, hq] at hsame
  rw [← Engine.version_length (e := c.state.db)] at hp hq
  have hij := hone.2 _ 7 8 p q hp hq hps hqs (Option.some.inj hsame)
  cases hij

/-- Dana asks again while she has not paid, and is shown the first page. -/
def replayedUnpaid : Tid → Job
  | 0 => .postBookings dana
  | _ => .delivery paysHold

theorem one_deposit_shop : ∃ c, Conf.Steps Awaited (start shop replayedUnpaid (tableOf unpaid) 8 0) c ∧
    committedPayments c = [(7, .paid)] ∧ committedStatus c 6 = some .confirmed ∧ OneDeposit c.state := by
  obtain ⟨c, hc, hdone⟩ := steps_of_play Awaited (start shop replayedUnpaid (tableOf unpaid) 8 0)
    (turns 0 fine 22 ++ turns 1 fine 18)
    (fun c => decide (committedPayments c = [(7, .paid)] ∧ committedStatus c 6 = some .confirmed)) (by decide)
  obtain ⟨hpaid, hconfirmed⟩ := of_decide_eq_true hdone
  exact ⟨c, hc, hpaid, hconfirmed, one_deposit unpaid_tables unpaid_orderly hc⟩

end Boutique
