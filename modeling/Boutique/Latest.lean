import Boutique.Picker
import Boutique.RunOut
/-!
# Latest — where her money is

The console reads the newest payment of a booking.  A hold and the marker of a deposit that was not taken can both be on
one booking; the newest is the one with the money while the marker is the older.
-/
namespace Boutique

open Txn Contract

variable {jobs : Tid → Job} {A : server.Assumption} {t : Tid}

def Ranked (rows : Rows schema) : Prop :=
  ∀ i j p q, rows .payments i = some p → rows .payments j = some q → Payment.isHold p → Payment.status q = .failed →
    Payment.bookingId p = Payment.bookingId q → Payment.createdAt q < Payment.createdAt p

/-- **Markers come first**: no commit puts a hold and a marker on one booking, one of them new, unless the marker is older. -/
def MarkersFirst : server.Assumption := fun t o w _ _ =>
  match o with
  | .sql .commit => ∀ i, i < w.db.next → ∀ j, j < w.db.next →
      (w.db.view t .payments i).all (fun (p : Payment) => (w.db.view t .payments j).all fun (q : Payment) =>
        decide (p.status ≠ .failed → q.status = .failed → p.bookingId = q.bookingId →
          ((w.db.committed .payments i).isNone = true ∨ (w.db.committed .payments j).isNone = true) →
          q.createdAt < p.createdAt)) = true
  | _ => True

instance (t : Tid) (o : server.Op) (w : server.State) (r : server.Res o) (w' : server.State) :
    Decidable (MarkersFirst t o w r w') :=
  match o, r with
  | .sql .commit, _ => inferInstanceAs (Decidable (∀ i, i < w.db.next → ∀ j, j < w.db.next → _ = true))
  | .sql .begin, _ | .sql (.read _), _ | .sql (.update ..), _ | .sql (.insert ..), _ | .sql .lock, _ | .sql .abort, _ |
    .now, _ | .ask _, _ => isTrue trivial

def rankLedger : Ledger schema where
  Holds _ _ c := ∀ i j p q, c.after .payments i = some p → c.after .payments j = some q → Payment.isHold p →
    Payment.status q = .failed → Payment.bookingId p = Payment.bookingId q →
    (c.before .payments i = none ∨ c.before .payments j = none) → Payment.createdAt q < Payment.createdAt p
  stable _ _ _ _ _ _ _ h := h

variable {rows : Rows schema} {next : Nat} {c : Conf server Reply}

theorem run_ranks (hA : ∀ t o w r w', A t o w r w' → MarkersFirst t o w r w') {cfg : Config} {now : Int}
    (htables : Tables rows next) (hr : Conf.Steps A (start cfg jobs rows next now) c) (m : Nat)
    (entry : Commit schema) (hm : c.state.db.log[m]? = some entry) : rankLedger.Holds c.state.db m entry := by
  have hI : (rankLedger.contract (Jobs jobs) A : Contract (Jobs jobs) service Err).Inv (start cfg jobs rows next now).state :=
    fun m entry hm => by cases hm
  have hsafe : ∀ t p, (start cfg jobs rows next now).threads t = some p →
      (rankLedger.contract (Jobs jobs) A).logic.Safe t p (fun _ _ => True) (start cfg jobs rows next now).state := by
    intro t p _
    refine Ledger.safe_of_commits (fun w hL _ hassume i j p q hp hq hhold hs hb hnew => ?_) fun _ _ => trivial
    have hview : w.db.view t .payments i = some p := hp
    have hview' : w.db.view t .payments j = some q := hq
    have hall := hA _ _ _ _ _ hassume i (hL.view_lt hview) j (hL.view_lt hview')
    rw [hview, hview', Option.all_some, Option.all_some, decide_eq_true_eq] at hall
    refine hall hhold hs hb (hnew.imp (fun h => ?_) fun h => ?_)
    · exact Option.isNone_iff_eq_none.2 h
    · exact Option.isNone_iff_eq_none.2 h
  obtain ⟨hsound, -⟩ := (rankLedger.contract (Jobs jobs) A).runs (Q := fun _ _ _ => True) (start_obeyed htables) hI hsafe hr
  exact hsound.inv.2 m entry hm

/-! ## From commit to commit -/

def dated : Discipline schema where
  Trans _ T r r' := match T, r, r' with
    | .payments, (p : Payment), (p' : Payment) => p'.createdAt = p.createdAt
    | _, _, _ => True
  New _ _ _ := True
  refl _ T r := by
    cases T with
    | payments => rfl
    | _ => trivial
  trans _ T r r' r'' h h' := by
    cases T with
    | payments => exact Eq.trans h' h
    | _ => trivial
  weaken _ _ _ h := h
  new_trans _ _ _ _ _ _ := trivial
  new_weaken _ _ _ := trivial

theorem dated_legal (l : Bool) (o : Op schema service) : dated.Legal l o := by
  cases o with
  | sql o =>
    cases o with
    | update T i g =>
      intro r r' _ hr
      cases T with
      | payments =>
        have happly : PaymentChange.apply r g = some r' := hr
        cases g <;>
        · simp only [PaymentChange.apply] at happly
          split at happly <;> cases happly
          rfl
      | _ => trivial
    | insert T r => exact fun _ _ => trivial
    | _ => trivial
  | now | ask => trivial

theorem run_ranked (hA : ∀ t o w r w', A t o w r w' → MarkersFirst t o w r w') {cfg : Config} {now : Int}
    (htables : Tables rows next) (h : Ranked rows) (hr : Conf.Steps A (start cfg jobs rows next now) c) (m : Nat)
    (hm : m ≤ c.state.db.log.length) : Ranked (c.state.db.version m) := by
  obtain ⟨hL, h0⟩ := run_lawful htables hr
  induction m with
  | zero =>
    rw [h0]
    exact h
  | succ m ih =>
    have hlt : m < c.state.db.log.length := by omega
    obtain ⟨entry, hentry⟩ : ∃ entry, c.state.db.log[m]? = some entry := ⟨_, List.getElem?_eq_getElem hlt⟩
    have hafter : c.state.db.version (m + 1) = entry.after := hL.linked m entry hentry
    have hbefore : c.state.db.version m = entry.before := by
      unfold Engine.version
      rw [hentry]
    have hprev : ∀ i p p', entry.before .payments i = some p' → entry.after .payments i = some p →
        PaymentBecomes p' p ∧ p.createdAt = p'.createdAt := by
      intro i p p' hp' hp
      rw [← hbefore] at hp'
      rw [← hafter] at hp
      have hrow := hL.version_becomes (Cast.plays_common _) (Nat.le_succ m) hm .payments i
      have hdate := hL.version_becomes (jobs_play fun _ l o _ => dated_legal l o) (Nat.le_succ m) hm .payments i
      rw [hp', hp] at hrow hdate
      exact ⟨hrow, hdate⟩
    intro i j p q hp hq hhold hs hb
    rw [hafter] at hp hq
    cases hpi : entry.before .payments i with
    | none => exact run_ranks hA htables hr m entry hentry i j p q hp hq hhold hs hb (.inl hpi)
    | some p' =>
      cases hqj : entry.before .payments j with
      | none => exact run_ranks hA htables hr m entry hentry i j p q hp hq hhold hs hb (.inr hqj)
      | some q' =>
        obtain ⟨hpp, hpdate⟩ := hprev i p p' hpi hp
        obtain ⟨hqq, hqdate⟩ := hprev j q q' hqj hq
        have hfailed : Payment.status q' = .failed := by
          by_contra hne
          exact hqq.isHold.2 hne hs
        rw [hpdate, hqdate]
        refine ih (by omega) i j p' q' (hbefore ▸ hpi) (hbefore ▸ hqj) (hpp.isHold.1 hhold) hfailed ?_
        exact hpp.bookingId.symm.trans (hb.trans hqq.bookingId)

/-! ## The newest payment -/

theorem head_newest {l : List Payment} {p : Payment} (h : (l.insertionSort fun p p' => p'.createdAt ≤ p.createdAt).head? = some p) :
    p ∈ l ∧ ∀ q ∈ l, q.createdAt ≤ p.createdAt := by
  have hsorted := List.pairwise_insertionSort (fun (p p' : Payment) => p'.createdAt ≤ p.createdAt) l
  have hmem : ∀ q, q ∈ l.insertionSort (fun p p' => p'.createdAt ≤ p.createdAt) ↔ q ∈ l := fun q => List.mem_insertionSort _
  revert h hsorted hmem
  cases l.insertionSort fun (p p' : Payment) => p'.createdAt ≤ p.createdAt with
  | nil => nofun
  | cons x xs =>
    intro h hsorted hmem
    cases h
    refine ⟨(hmem p).1 (List.mem_cons_self ..), fun q hq => ?_⟩
    rcases List.mem_cons.1 ((hmem q).2 hq) with rfl | hq
    · exact Int.le_refl _
    · exact (List.pairwise_cons.1 hsorted).1 q hq

/-- **The console sees the money that is there**: where a payment of a booking is paid, the one reported for it is, and the
gate of a restoring reschedule opens. -/
def ConsoleSees (s : Snapshot schema) : Prop :=
  ∀ i p, s.rows .payments i = some p → Payment.status p = .paid →
    (Payments.latestFor s (Payment.bookingId p)).map Payment.status = some .paid ∧
    ∀ now, (OwnerBooking.holdsAPaidDeposit (Payment.bookingId p)).eval (atRest s now) = some (.ok true) ∧
      (OwnerBooking.checkDeposit (Payment.bookingId p) true).eval (atRest s now) = some (.ok ())

theorem eval_holdsAPaidDeposit (s : Snapshot schema) (now : Int) (b : Nat) :
    (OwnerBooking.holdsAPaidDeposit b).eval (atRest s now) =
      some (.ok ((Payments.latestFor s b).any fun p => decide (p.status = .paid))) := by
  unfold OwnerBooking.holdsAPaidDeposit Payments.byBookingIds
  rw [if_neg (List.cons_ne_nil b [])]
  show some (Except.ok (Option.any _ (if b ∈ [b] then Payments.latestFor s b else none))) = _
  rw [if_pos (List.mem_singleton_self b)]

theorem sees_of_ranked (hlt : ∀ i p, rows .payments i = some p → i < next) (hO : Orderly rows) (hR : Ranked rows) :
    ConsoleSees ⟨rows, next⟩ := by
  intro i p hp hs
  have hpaid : Payment.isHold p := by
    rw [Payment.isHold, hs]
    intro h
    cases h
  have hlatest : (Payments.latestFor ⟨rows, next⟩ p.bookingId).map Payment.status = some .paid := by
    unfold Payments.latestFor
    have hmem : p ∈ (Snapshot.all ⟨rows, next⟩ .payments).filter fun (q : Payment) =>
        decide (q.bookingId = p.bookingId ∧ q.deletedAt = none) :=
      List.mem_filter.2 ⟨Snapshot.mem_all.2 ⟨i, hlt i p hp, hp⟩, decide_eq_true ⟨rfl, (hO.flow i p hp).1⟩⟩
    cases hhead : (((Snapshot.all ⟨rows, next⟩ .payments).filter fun (q : Payment) =>
        decide (q.bookingId = p.bookingId ∧ q.deletedAt = none)).insertionSort fun p p' => p'.createdAt ≤ p.createdAt).head? with
    | none =>
      rw [List.head?_eq_none_iff] at hhead
      have hsort := (List.mem_insertionSort fun (p p' : Payment) => p'.createdAt ≤ p.createdAt).2 hmem
      rw [hhead] at hsort
      cases hsort
    | some q =>
      obtain ⟨hq, hnewest⟩ := head_newest hhead
      obtain ⟨hall, hkeep⟩ := List.mem_filter.1 hq
      obtain ⟨j, -, hrow⟩ := Snapshot.mem_all.1 hall
      obtain ⟨hb, -⟩ := of_decide_eq_true hkeep
      -- a marker would be older, and another hold there is none
      by_cases hfailed : q.status = .failed
      · have hold := hR i j p q hp hrow hpaid hfailed hb.symm
        have hnew := hnewest p hmem
        omega
      · have hij := hO.single i j p q hp hrow hpaid hfailed hb.symm
        subst hij
        cases hp.symm.trans hrow
        exact congrArg some hs
  have hopen : (Payments.latestFor ⟨rows, next⟩ p.bookingId).any (fun p => decide (p.status = .paid)) = true := by
    obtain ⟨q, hq, hqs⟩ := Option.map_eq_some_iff.1 hlatest
    rw [hq]
    exact decide_eq_true hqs
  refine ⟨hlatest, fun now => ?_⟩
  have heval := eval_holdsAPaidDeposit ⟨rows, next⟩ now p.bookingId
  rw [hopen] at heval
  refine ⟨heval, ?_⟩
  show Prog.eval _ (OwnerBooking.holdsAPaidDeposit p.bookingId >>= _) = _
  rw [Prog.eval_bind_ok heval]
  rfl

/-- **In a run whose deposits are awaited and whose markers come first, the console sees the money** in every version. -/
theorem console_sees_money {cfg : Config} {rows : Rows schema} {next : Nat} {now : Int} {c : Conf server Reply}
    (htables : Tables rows next) (h : Orderly rows) (hranked : Ranked rows)
    (hr : Conf.Steps (fun t o w r w' => Awaited t o w r w' ∧ MarkersFirst t o w r w') (start cfg jobs rows next now) c)
    (m : Nat) (hm : m ≤ c.state.db.log.length) : ConsoleSees ⟨c.state.db.version m, c.state.db.next⟩ := by
  obtain ⟨horderly, -⟩ := run_orderly (fun _ _ _ _ _ h => h.1) htables h hr
  obtain ⟨hL, -⟩ := run_lawful htables hr
  exact sees_of_ranked (fun i p hp => hL.version_lt hm hp) (horderly m)
    (run_ranked (fun _ _ _ _ _ h => h.2) htables hranked hr m hm)

/-- Dana asks again while her hold is open and the vault cannot be read; then she pays the hold. -/
def markedThenPaid : Tid → Job
  | 0 => .postBookings dana
  | _ => .delivery paysHold

def sealed : Input := { fine with credentials := some .secretDecrypt }

theorem unpaid_ranked : Ranked (tableOf unpaid) := by
  intro i j p q _ hq _ hs
  obtain ⟨hmem, -⟩ := tableOf_some hq
  cases List.mem_singleton.1 hmem
  cases hs

def newestAnd (c : Conf server Reply) (b i : Nat) : Option PaymentStatus × Option PaymentStatus :=
  ((Payments.latestFor ⟨c.state.db.committed, c.state.db.next⟩ b).map Payment.status,
    (c.state.db.committed .payments i).map Payment.status)

/-- The marker is the newer, and the console sees no money. -/
theorem console_misses_money : ∃ c, (start shop markedThenPaid (tableOf unpaid) 8 0).Reaches c ∧
    Orderly (tableOf unpaid) ∧ Ranked (tableOf unpaid) ∧ ¬ConsoleSees ⟨c.state.db.committed, c.state.db.next⟩ := by
  obtain ⟨c, hc, hwrong⟩ := reaches_of_play (start shop markedThenPaid (tableOf unpaid) 8 0)
    ([.happen 1] ++ turns 0 sealed 22 ++ turns 1 fine 8)
    (fun c => decide ((c.state.db.committed .payments 7).map (fun (p : Payment) => (p.bookingId, p.status)) = some (6, .paid) ∧
      newestAnd c 6 7 = (some .failed, some .paid))) (by decide)
  refine ⟨c, hc, unpaid_orderly, unpaid_ranked, fun hsees => ?_⟩
  obtain ⟨hpaid, hnewest⟩ := of_decide_eq_true hwrong
  obtain ⟨p, hp, hps⟩ := Option.map_eq_some_iff.1 hpaid
  obtain ⟨hb, hs⟩ := Prod.mk.inj hps
  have hlatest := (hsees 7 p hp hs).1
  rw [hb] at hlatest
  cases (Prod.mk.inj hnewest).1.symm.trans hlatest

/-- She pays the hold she has. -/
theorem console_sees_money_shop : ∃ c, Conf.Steps (fun t o w r w' => Awaited t o w r w' ∧ MarkersFirst t o w r w')
      (start shop markedThenPaid (tableOf unpaid) 8 0) c ∧
    newestAnd c 6 7 = (some .paid, some .paid) ∧ ∀ m, m ≤ c.state.db.log.length →
      ConsoleSees ⟨c.state.db.version m, c.state.db.next⟩ := by
  obtain ⟨c, hc, hdone⟩ := steps_of_play (fun t o w r w' => Awaited t o w r w' ∧ MarkersFirst t o w r w')
    (start shop markedThenPaid (tableOf unpaid) 8 0) (turns 0 fine 22 ++ turns 1 fine 18)
    (fun c => decide (newestAnd c 6 7 = (some .paid, some .paid))) (by decide)
  exact ⟨c, hc, of_decide_eq_true hdone, console_sees_money unpaid_tables unpaid_orderly unpaid_ranked hc⟩

end Boutique
