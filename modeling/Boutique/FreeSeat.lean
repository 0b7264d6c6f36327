import Boutique.Picker
import Boutique.Correction
import Boutique.Seats
/-!
# FreeSeat — the seat a late deposit buys back

A claim is offered an instant while fewer bookings are live there than the grid has capacity; a late deposit takes the
lowest number within the capacity that no live booking holds.  The two agree while the numbers are dense.  A live booking
on a number past the capacity leaves a lower one free, and the late deposit takes it although the instant is full.
-/
namespace Boutique

open Txn

variable {A : Ask → Input → Prop} {t : Tid} {cfg : Config} {booking : Booking} {now : Int}

def seatLeft (cfg : Config) (s : Snapshot schema) (now x : Int) : Option Nat :=
  lowestFree (capacityAt cfg s now x) (seatsAt s x)

theorem openSlot_eq (s : Snapshot schema) (x : Int) :
    (materializeSlots cfg.zone (Rules.active s) (Exceptions.active (cfg.zone.dateOf x) (cfg.zone.dateOf x) s) (fun _ => 0)
      (cfg.zone.dateOf x) (cfg.zone.dateOf x) now).find? (fun slot => slot.startsAt = x) =
      if 0 < capacityAt cfg s now x then some ⟨x, capacityAt cfg s now x, 0⟩ else none :=
  materializeSlots_find ..

def seatIn (booking : Booking) : Option Slot → Prg (Option Nat)
  | none => return none
  | some slot => do
    let occupied ← Bookings.activeSeatsAt booking.startsAt
    let others := if booking.status ≠ .cancelled then occupied.filter fun i => i ≠ booking.seatIndex else occupied
    return lowestFree slot.capacity others

/-- **What the rebind takes a cancelled booking's seat from**, read from one version of the tables. -/
theorem eval_freeSeat (s : Snapshot schema) (hc : booking.status = .cancelled) :
    (DepositBooking.freeSeat cfg booking now).eval (atRest s now) = some (.ok (seatLeft cfg s now booking.startsAt)) := by
  show (seatIn booking ((materializeSlots cfg.zone (Rules.active s) (Exceptions.active _ _ s) (fun _ => 0) _ _ now).find?
    _)).eval _ = _
  rw [openSlot_eq]
  split
  · simp only [seatIn, hc, ne_eq, not_true_eq_false, if_false]
    rfl
  · rename_i hcap
    have hzero : capacityAt cfg s now booking.startsAt = 0 := by omega
    simp [seatIn, seatLeft, hzero, lowestFree]

theorem eval_offered (s : Snapshot schema) (x : Int) :
    (offeredSlot cfg x now).eval (atRest s now) = some (.ok
      (if (seatsAt s x).length < capacityAt cfg s now x then some ⟨x, capacityAt cfg s now x, (seatsAt s x).length⟩
        else none)) := by
  have hbooked : bookedBetween cfg.zone s (cfg.zone.dateOf x) (cfg.zone.dateOf x) x = (seatsAt s x).length :=
    booked_eq cfg.zone s x
  rw [eval_offeredSlot]
  unfold gridAt
  rw [materializeSlots_find, hbooked]
  rfl

/-! ## A late deposit and a claim -/

/-- **As careful as a claim**, at one version of the tables: a late deposit gives a booking back only while fewer others
are live at its instant than the grid has capacity there, and there is a seat for it when a claim would be offered one. -/
structure AsCareful (cfg : Config) (w : BWorld) (booking : Booking) (now : Int) : Prop where
  within : ∀ A t token rebound w', Solo A t (DepositBooking.rebind cfg booking now token) w (.ok (some rebound)) w' →
    ((Bookings.liveAt (now_ w) booking.startsAt).filter fun b => b.id ≠ booking.id).length <
      capacityAt cfg (now_ w) now booking.startsAt
  offered : (∃ seatIndex, (DepositBooking.freeSeat cfg booking now).eval (atRest (now_ w) now) = some (.ok (some seatIndex))) ↔
    ∃ slot, (offeredSlot cfg booking.startsAt now).eval (atRest (now_ w) now) = some (.ok (some slot))

/-- No seat goes free below one that is held: the instant has room, or its lowest numbers are all taken. -/
def Dense (cfg : Config) (s : Snapshot schema) (now x : Int) : Prop :=
  (seatsAt s x).length < capacityAt cfg s now x ∨ ∀ i, 1 ≤ i → i ≤ capacityAt cfg s now x → i ∈ seatsAt s x

variable {s : Draft schema service}

theorem freeSeat_rule {β : Type} {k : Option Nat → Prg β} {Q : Except Err β → Draft schema service → Prop}
    (hc : booking.status = .cancelled)
    (h : (k (seatLeft cfg s.snapshot now booking.startsAt)).wp (drafts A t) Q s) :
    (DepositBooking.freeSeat cfg booking now >>= k).wp (drafts A t) Q s := by
  show (seatIn booking ((materializeSlots cfg.zone (Rules.active s.snapshot) (Exceptions.active _ _ s.snapshot)
    (fun _ => 0) _ _ now).find? _) >>= k).wp _ _ _
  rw [openSlot_eq]
  split
  · simp only [seatIn, hc, ne_eq, not_true_eq_false, if_false]
    exact h
  · rename_i hcap
    have hzero : capacityAt cfg s.snapshot now booking.startsAt = 0 := by omega
    have hnone : seatLeft cfg s.snapshot now booking.startsAt = none := by simp [seatLeft, hzero, lowestFree]
    rw [hnone] at h
    exact h

theorem rebind_rule {token : Nat} {Q : Except Err (Option Booking) → Draft schema service → Prop}
    (hc : booking.status = .cancelled) (hnone : seatLeft cfg s.snapshot now booking.startsAt = none → Q (.ok none) s)
    (hsome : ∀ i, seatLeft cfg s.snapshot now booking.startsAt = some i → ∀ x s', Q x s') :
    (DepositBooking.rebind cfg booking now token).wp (drafts A t) Q s := by
  refine freeSeat_rule hc ?_
  cases hleft : seatLeft cfg s.snapshot now booking.startsAt with
  | none => exact hnone hleft
  | some i => exact drafts_always (hsome i hleft)

theorem seatLeft_of_room {s : Snapshot schema} {x : Int} (h : (seatsAt s x).length < capacityAt cfg s now x) :
    ∃ i, seatLeft cfg s now x = some i := lowestFree_of_lt h

theorem room_of_rebind {token : Nat} {rebound : Booking} {w w' : BWorld} (hw : w.db.Unheld)
    (hc : booking.status = .cancelled) (hdense : Dense cfg (now_ w) now booking.startsAt)
    (hrun : Solo A t (DepositBooking.rebind cfg booking now token) w (.ok (some rebound)) w') :
    (seatsAt (now_ w) booking.startsAt).length < capacityAt cfg (now_ w) now booking.startsAt := by
  have hs : (w.draft t).Sound := ⟨⟨hw.consistent, hw.lt⟩, ⟨hw.consistent, hw.lt⟩⟩
  have hprogram : (DepositBooking.rebind cfg booking now token).wp (drafts A t) (fun x _ => x = .ok (some rebound) →
      ∃ i, seatLeft cfg (now_ w) now booking.startsAt = some i) (w.draft t) := by
    refine rebind_rule hc (fun _ => ?_) fun i hleft _ _ _ => ⟨i, hleft⟩
    intro heq
    cases heq
  obtain ⟨_, -, -, hend⟩ := solo_sound (draws_start hw) hs hprogram hrun
  obtain ⟨i, hleft⟩ := hend rfl
  refine hdense.resolve_right fun hfull => ?_
  rw [seatLeft, lowestFree_none.2 hfull] at hleft
  cases hleft

/-- **A late deposit is as careful as a claim exactly where the seats are dense.** -/
theorem rebind_careful_iff (cfg : Config) {w : BWorld} {booking : Booking} (now : Int) (hw : w.db.Unheld)
    (hc : booking.status = .cancelled) : AsCareful cfg w booking now ↔ Dense cfg (now_ w) now booking.startsAt := by
  refine ⟨fun h => ?_, fun h => ⟨fun A t token rebound w' hrun => ?_, ?_⟩⟩
  · by_contra hdense
    obtain ⟨hroom, hgap⟩ := not_or.1 hdense
    cases hleft : seatLeft cfg (now_ w) now booking.startsAt with
    | none => exact hgap (lowestFree_none.1 hleft)
    | some i =>
      obtain ⟨slot, hslot⟩ := h.offered.1 ⟨i, by rw [eval_freeSeat _ hc, hleft]⟩
      rw [eval_offered, if_neg hroom] at hslot
      cases hslot
  · have hroom := room_of_rebind hw hc h hrun
    have hothers := List.length_filter_le (fun b : Booking => b.id ≠ booking.id) (Bookings.liveAt (now_ w) booking.startsAt)
    unfold seatsAt at hroom
    rw [List.length_map] at hroom
    omega
  · rw [eval_freeSeat _ hc, eval_offered]
    constructor
    · rintro ⟨i, hi⟩
      have hleft : seatLeft cfg (now_ w) now booking.startsAt = some i := Except.ok.inj (Option.some.inj hi)
      have hroom := h.resolve_right fun hfull => by
        rw [seatLeft, lowestFree_none.2 hfull] at hleft
        cases hleft
      exact ⟨_, by rw [if_pos hroom]⟩
    · rintro ⟨slot, hslot⟩
      split at hslot
      · rename_i hroom
        obtain ⟨i, hi⟩ := seatLeft_of_room hroom
        exact ⟨i, by rw [hi]⟩
      · cases hslot

/-! ## A seat bought back at an instant that is full -/

def lapsed : Booking := { fitting with status := .cancelled, cancelledAt := some 0, cancelledBy := some .expired }

def beside (id customerId seatIndex : Nat) : Booking :=
  { fitting with id := id, customerId := customerId, seatIndex := seatIndex, manageTokenHash := some ⟨id⟩ }

def sundayWith (bookings : List Booking) : BWorld :=
  ⟨Txn.atRest (listed (S := schema) (shelfWith [danaRow] bookings [])) 9 0, ⟨[], [], 20, []⟩⟩

def denseSunday : BWorld := sundayWith [lapsed, beside 7 50 1]

/-- Both bookings are live, on the second seat and on a third that the grid no longer has. -/
def sparseSunday : BWorld := sundayWith [lapsed, beside 7 50 2, beside 8 51 3]

theorem denseSunday_shelved : Shelved (listed (S := schema) (shelfWith [danaRow] [lapsed, beside 7 50 1] [])) 9 :=
  shelved_of_stocked [.bookings, .payments, .customers, .otpCodes, .scheduledMessages, .auditLog, .messageLog,
    .availabilityRules, .availabilityExceptions, .appointmentTypes, .termsVersions, .dresses, .dressVariants,
    .dressReservations, .waitlistEntries] (fun T => by cases T <;> decide) (by decide)

theorem rebind_careful_dense : Dense shop (now_ denseSunday) 0 lapsed.startsAt ∧ AsCareful shop denseSunday lapsed 0 := by
  have hdense : Dense shop (now_ denseSunday) 0 lapsed.startsAt := .inl (by decide)
  exact ⟨hdense, (rebind_careful_iff shop 0 (atRest_unheld denseSunday_shelved) rfl).2 hdense⟩

def rebindSparse : Option (Except Err (Option Booking) × BWorld) :=
  Txn.alone 0 quietly (DepositBooking.rebind shop lapsed 0 9) sparseSunday

/-- **A third booking for two seats**: the rebind gives Dana's back on the free first number, at an instant no claim would be
offered. -/
theorem rebind_overbooks : (∃ rebound w', Solo (fun _ _ => True) 0 (DepositBooking.rebind shop lapsed 0 9) sparseSunday
      (.ok (some rebound)) w' ∧ rebound.seatIndex = 1) ∧
    capacityAt shop (now_ sparseSunday) 0 lapsed.startsAt = 2 ∧
    (seatsAt (now_ sparseSunday) lapsed.startsAt).length = 2 ∧
    (offeredSlot shop lapsed.startsAt 0).eval (atRest (now_ sparseSunday) 0) = some (.ok none) ∧
    ¬AsCareful shop sparseSunday lapsed 0 := by
  have hruns : rebindSparse.any (fun p => p.1.toOption.join.any fun b => b.seatIndex = 1) = true := by decide
  obtain ⟨⟨x, w'⟩, hrun, hP⟩ := (Option.any_eq_true ..).1 hruns
  have hsolo := solo_of_alone (A := fun _ _ => True) (fun _ => trivial) (Option.mem_def.1 hrun)
  have hcapacity : capacityAt shop (now_ sparseSunday) 0 lapsed.startsAt = 2 := by decide
  have hlive : ((Bookings.liveAt (now_ sparseSunday) lapsed.startsAt).filter fun b => b.id ≠ lapsed.id).length = 2 := by
    decide
  cases x with
  | error e => cases hP
  | ok result =>
    cases result with
    | none => cases hP
    | some rebound =>
      refine ⟨⟨rebound, w', hsolo, of_decide_eq_true hP⟩, hcapacity, by decide, ?_, fun h => ?_⟩
      · rw [eval_offered]
        decide
      · have hlt := h.within _ _ _ _ _ hsolo
        rw [hlive, hcapacity] at hlt
        exact absurd hlt (Nat.lt_irrefl 2)

end Boutique
