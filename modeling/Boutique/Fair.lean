import Boutique.Ticks
/-!
# Fair — what a tick offers is there to be had

Every offer of a single worker's tick is made to the one who waited longest, of a seat that the grid has and no other offer
names, until an instant that is still to come and leaves the lead before the appointment.
-/
namespace Waitlist

open Txn Session

variable {A : Ask → Input → Prop} {t : Tid} {cfg : Config} {now : Int} {s s' : Draft schema outside}
  {rules : List Boutique.AvailabilityRule} {exceptions : Int → List Boutique.AvailabilityException}

def shelf (w : World schema outside) : Snapshot schema := ⟨w.db.committed, w.db.next⟩

/-- **An offer that is real and fair**: `r` is the entry that the tick found in the tables `R` and has offered in `R'`. -/
structure RealOffer (cfg : Config) (rules : List Boutique.AvailabilityRule)
    (exceptions : Int → List Boutique.AvailabilityException) (now : Int) (R R' : Snapshot schema) (i : Nat)
    (r : WaitlistEntry) : Prop where
  /-- It waited, or its offer was due and put it back. -/
  waited : ∃ v : WaitlistEntry, R.rows .entries i = some v ∧ v.pair = r.pair ∧ v.createdAt = r.createdAt ∧
    (v.waiting = true ∨ v.offered = true ∧ ∃ x, v.offerExpiresAt = some x ∧ x ≤ now)
  /-- Whoever waits in its queue, before or after, came no earlier. -/
  oldest : ∀ j (w : WaitlistEntry), R.rows .entries j = some w ∨ R'.rows .entries j = some w → w.waiting = true →
    w.pair = r.pair → r.createdAt ≤ w.createdAt
  slot : ∃ slot ∈ gridOf cfg rules exceptions now r.day R, now < slot.startsAt ∧ r.offerStartsAt = some slot.startsAt ∧
    offersAt R' r.day slot.startsAt ≤ slot.capacity - slot.booked ∧
      ∃ expiresAt, r.offerExpiresAt = some expiresAt ∧ now < expiresAt ∧ expiresAt ≤ now + cfg.window ∧
        expiresAt ≤ slot.startsAt - cfg.minLead

theorem offerExpiry_some {x expiresAt : Int} (h : offerExpiry cfg now x = some expiresAt) :
    now < expiresAt ∧ expiresAt ≤ now + cfg.window ∧ expiresAt ≤ x - cfg.minLead := by
  unfold offerExpiry at h
  simp only at h
  split at h
  · cases h
    omega
  · cases h

theorem gridOf_ahead {day : Int} {s : Snapshot schema} {slot : Boutique.Slot}
    (h : slot ∈ gridOf cfg rules exceptions now day s) : cfg.zone.dateOf slot.startsAt = day ∧ now < slot.startsAt := by
  obtain ⟨-, c, hc⟩ := Boutique.slotOf_some (Boutique.mem_materializeSlots.1 h)
  obtain ⟨hday, hnow⟩ := Boutique.mem_foundSlots hc
  exact ⟨Int.le_antisymm hday.2 hday.1, hnow⟩

variable {i : Nat} {v : WaitlistEntry}

theorem mem_dueIds (hs : s.Sound) (h : i ∈ dueIds now s.snapshot) (hv : s.rows .entries i = some v) :
    v.offered = true ∧ ∃ x, v.offerExpiresAt = some x ∧ x ≤ now := by
  obtain ⟨w, hw, rfl⟩ := List.mem_map.1 h
  obtain ⟨hin, hdue⟩ := List.mem_filter.1 ((List.mem_insertionSort _).1 (List.mem_of_mem_take hw))
  obtain ⟨j, -, hj⟩ := Snapshot.mem_all.1 hin
  have hid : w.id = j := hs.rows.consistent.id .entries j w hj
  rw [hid] at hv
  obtain rfl := Option.some.inj (hv.symm.trans hj)
  obtain ⟨hoffered, hpast⟩ := of_decide_eq_true hdue
  obtain ⟨x, hx, hle⟩ := (Option.any_eq_true ..).1 hpast
  exact ⟨hoffered, x, hx, of_decide_eq_true hle⟩

theorem Expires.entry (h : Expires now s s') (hs : s.Sound) (hv : s'.rows .entries i = some v) :
    s.rows .entries i = some v ∨
      ∃ v0, s.rows .entries i = some v0 ∧ v0.offered = true ∧ (∃ x, v0.offerExpiresAt = some x ∧ x ≤ now) ∧
        v = closedAs (closing s.snapshot i) v0 := by
  rw [h.entries] at hv
  split at hv
  · rename_i hdue
    obtain ⟨v0, hv0, rfl⟩ := Option.map_eq_some_iff.1 hv
    obtain ⟨hoffered, hpast⟩ := mem_dueIds hs hdue hv0
    exact .inr ⟨v0, hv0, hoffered, hpast, by simp [swept, hoffered]⟩
  · exact .inl hv

theorem Expires.waits (h : Expires now s s') (hs : s.Sound) (hv : s.rows .entries i = some v)
    (hwaiting : v.waiting = true) : s'.rows .entries i = some v := by
  rw [h.entries]
  split
  · rename_i hdue
    obtain ⟨hoffered, -⟩ := mem_dueIds hs hdue hv
    rw [WaitlistEntry.offered, of_decide_eq_true hwaiting |>.2] at hoffered
    simp at hoffered
  · exact hv

theorem closedAs_pair {c : Closing} : (closedAs c v).pair = v.pair := by
  cases c <;> rfl

theorem closedAs_createdAt {c : Closing} : (closedAs c v).createdAt = v.createdAt := by
  cases c <;> rfl

theorem Ticked.realOffer {r : WaitlistEntry} (h : Ticked cfg rules exceptions now s s') (hs : s.Sound)
    (hr : s'.rows .entries i = some r) (hoffered : r.offered = true) (hmoved : s.rows .entries i ≠ some r) :
    RealOffer cfg rules exceptions now s.snapshot s'.snapshot i r := by
  obtain ⟨s1, hs1, hexpires, hissuing⟩ := h
  have hgrid : ∀ day, gridOf cfg rules exceptions now day s1.snapshot = gridOf cfg rules exceptions now day s.snapshot :=
    fun day => gridOf_grown hs (hexpires.others .bookings (by decide) (by decide)) (Nat.le_of_eq hexpires.next.symm)
  rcases hissuing.entries i with hsame | ⟨v, r', hv, hr', -, hfresh⟩
  · -- an entry the walk has not touched is as the expiry left it
    rw [hsame] at hr
    rcases hexpires.entry hs hr with hold | ⟨v0, -, -, -, rfl⟩
    · exact absurd hold hmoved
    · rw [closedAs_offered] at hoffered
      cases hoffered
  · obtain rfl := Option.some.inj (hr.symm.trans hr')
    obtain ⟨slot, hslot, hseats, expiresAt, hexpiry, token, hrow⟩ := hfresh.row
    have hpair : r.pair = v.pair := by rw [hrow]; rfl
    have hcreated : r.createdAt = v.createdAt := by rw [hrow]; rfl
    have hday : r.day = v.day := by rw [hrow]; rfl
    refine ⟨?_, fun j w hw hwaiting hwpair => ?_, slot, ?_, (gridOf_ahead hslot).2, by rw [hrow]; rfl, ?_, expiresAt, by rw [hrow]; rfl,
      offerExpiry_some hexpiry⟩
    · rcases hexpires.entry hs hv with hold | ⟨v0, hv0, hoffered0, hpast, rfl⟩
      · exact ⟨v, hold, hpair.symm, hcreated.symm, .inl hfresh.waited⟩
      · refine ⟨v0, hv0, ?_, ?_, .inr ⟨hoffered0, hpast⟩⟩
        · rw [hpair, closedAs_pair]
        · rw [hcreated, closedAs_createdAt]
    · rw [hcreated]
      rcases hw with hw | hw
      · exact hfresh.oldest j w (hexpires.waits hs hw hwaiting) hwaiting (hwpair.trans hpair)
      · rcases hissuing.entries j with hsame | ⟨v', r', -, hr'', -, hfresh'⟩
        · exact hfresh.oldest j w (hsame ▸ hw) hwaiting (hwpair.trans hpair)
        · obtain rfl := Option.some.inj (hw.symm.trans hr'')
          rw [hfresh'.waiting] at hwaiting
          cases hwaiting
    · rw [hday, ← hgrid]
      exact hslot
    · rw [hday]
      exact hseats

/-! ## Offers of all types at one instant -/

def liveOffers (s : Snapshot schema) (x : Int) : Nat :=
  (s.all .entries).countP fun (w : WaitlistEntry) => w.offered ∧ w.offerStartsAt = some x

def OnTheirDays (cfg : Config) (s : Snapshot schema) : Prop :=
  ∀ i (w : WaitlistEntry) x, s.rows .entries i = some w → w.offered = true → w.offerStartsAt = some x →
    cfg.zone.dateOf x = w.day

theorem OnTheirDays.liveOffers {s : Snapshot schema} (h : OnTheirDays cfg s) (x : Int) :
    liveOffers s x = offersAt s (cfg.zone.dateOf x) x := by
  refine List.countP_congr fun w hw => ?_
  obtain ⟨i, -, hi⟩ := Snapshot.mem_all.1 hw
  simp only [WaitlistEntry.names, decide_eq_true_eq]
  constructor
  · rintro ⟨hoffered, hx⟩
    exact ⟨hoffered, (h i w x hi hoffered hx).symm, hx⟩
  · rintro ⟨hoffered, -, hx⟩
    exact ⟨hoffered, hx⟩

theorem Ticked.onTheirDays (h : Ticked cfg rules exceptions now s s') (hs : s.Sound) (hdays : OnTheirDays cfg s.snapshot) :
    OnTheirDays cfg s'.snapshot := by
  intro i r x hr hoffered hx
  by_cases hmoved : s.rows .entries i = some r
  · exact hdays i r x hmoved hoffered hx
  · obtain ⟨slot, hslot, -, hnamed, -⟩ := (h.realOffer hs hr hoffered hmoved).slot
    obtain rfl := Option.some.inj (hx.symm.trans hnamed)
    exact (gridOf_ahead hslot).1

/-- The answers of a tick's time: one set of rules, one list of exceptions for each day, anything else as it comes. -/
def standing (rules : List Boutique.AvailabilityRule) (exceptions : Int → List Boutique.AvailabilityException) :
    Ask → Input → Prop
  | .listActiveRules, i => i.rules = rules
  | .listActiveExceptions day, i => i.exceptions = exceptions day
  | _, _ => True

/-- **A tick that nobody interrupts makes offers that are real and fair.**  Where every offer lies on its day, as a tick
leaves it, the seats of an instant are shared among the offers of every type. -/
theorem tick_offers {w w' : World schema outside} {x : Except Err CascadeResult} (hw : w.db.Unheld)
    (hrun : Solo (standing rules exceptions) t (WaitlistCascade.run cfg) w x w') :
    (∀ i (r : WaitlistEntry), w'.db.committed .entries i = some r → r.offered = true → w.db.committed .entries i ≠ some r →
      RealOffer cfg rules exceptions w.db.clock (shelf w) (shelf w') i r) ∧
    (OnTheirDays cfg (shelf w) → OnTheirDays cfg (shelf w') ∧
      ∀ x, liveOffers (shelf w') x = offersAt (shelf w') (cfg.zone.dateOf x) x) := by
  have hs : (w.draft t).Sound := ⟨⟨hw.consistent, hw.lt⟩, ⟨hw.consistent, hw.lt⟩⟩
  have hprogram : (WaitlistCascade.run cfg).wp (drafts (standing rules exceptions) t) (fun _ s' =>
      s'.base = w.db.committed ∨ ∃ s2, Ticked cfg rules exceptions w.db.clock { w.draft t with started := w.db.clock } s2 ∧
        s'.base = s2.rows ∧ s'.next = s2.next) (w.draft t) :=
    run_rule (fun _ h => h) (fun _ _ h => h) hs (fun e s' hbase _ => .inl hbase)
      fun r s2 s' h _ hbase hnext _ => .inr ⟨s2, h, hbase, hnext⟩
  obtain ⟨s', hdraws, hs', hend⟩ := solo_sound (draws_start hw) hs hprogram hrun
  rw [← hdraws.base] at hend
  rcases hend with hfailed | ⟨s2, hticked, hrows, hnext⟩
  · refine ⟨fun i r hr _ hmoved => absurd (hfailed ▸ hr) hmoved, fun hdays => ?_⟩
    have hdays' : OnTheirDays cfg (shelf w') := fun i v y hv =>
      hdays i v y (show w.db.committed .entries i = some v from hfailed ▸ hv)
    exact ⟨hdays', hdays'.liveOffers⟩
  · have hshelf : shelf w' = s2.snapshot := by rw [shelf, hrows, hdraws.next, hnext]; rfl
    rw [hshelf]
    refine ⟨fun i r hr hoffered hmoved => hticked.realOffer ⟨hs.base, hs.rows⟩ (by rw [← hrows]; exact hr) hoffered hmoved, fun hdays => ?_⟩
    have hdays' := hticked.onTheirDays ⟨hs.base, hs.rows⟩ hdays
    exact ⟨hdays', hdays'.liveOffers⟩

/-! ## One Friday -/

def fridayTick : Option (Except Err CascadeResult × World schema outside) :=
  alone 0 ⟨false, 100, none, [friday], [], .delivered⟩ (WaitlistCascade.run twoHours)
    ⟨atRest (listed (S := schema) twoWaiting) 2 0, ⟨fun _ => 0, fun _ => none⟩⟩

def served (p : Except Err CascadeResult × World schema outside) : Bool :=
  (p.2.db.committed .entries 0).any fun (r : WaitlistEntry) => r.offered

/-- The one who came first is offered ten o'clock. -/
theorem friday_offers : ∃ x w' r, Solo (standing [friday] fun _ => []) 0 (WaitlistCascade.run twoHours)
      ⟨atRest (listed (S := schema) twoWaiting) 2 0, ⟨fun _ => 0, fun _ => none⟩⟩ x w' ∧
    (w' : World schema outside).db.committed .entries 0 = some r ∧
    RealOffer twoHours [friday] (fun _ => []) 0 ⟨listed (S := schema) twoWaiting, 2⟩ (shelf w') 0 r := by
  have hruns : fridayTick.any served = true := by decide
  obtain ⟨⟨x, w'⟩, hrun, hserved⟩ := (Option.any_eq_true ..).1 hruns
  obtain ⟨r, hr, hoffered⟩ := (Option.any_eq_true ..).1 hserved
  have hanswers : ∀ q, standing [friday] (fun _ => []) q ⟨false, 100, none, [friday], [], .delivered⟩ := fun q => by
    cases q <;> first | rfl | trivial
  have hsolo := solo_of_alone hanswers hrun
  refine ⟨x, w', r, hsolo, hr, (tick_offers (atRest_unheld twoWaiting_shelved) hsolo).1 0 r hr hoffered fun hold => ?_⟩
  have hwaits : ((listed (S := schema) twoWaiting) .entries 0).any (fun (v : WaitlistEntry) => v.offered) = false := by decide
  rw [show listed (S := schema) twoWaiting .entries 0 = some r from hold] at hwaits
  rw [Option.any_some, hoffered] at hwaits
  cases hwaits

end Waitlist
