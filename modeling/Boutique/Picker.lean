import Boutique.Stock
import Mathlib
/-!
# Picker — the start times the storefront publishes

`listSlots` materializes a window of dates at once where a claim materializes the one day of its instant.
`picker_agrees` says that at one state and one clock the two never differ: what is published can be claimed, and what
can be claimed inside the window is published.
-/
namespace Boutique

open Txn

def SLOT_WINDOW_DEFAULT_DAYS : Int := 14

def slotWindow (fromDate toDate : Option Int) (today : Int) : Except Err (Int × Int) :=
  let requestedStart := fromDate.getD today
  let ceiling := today + SLOT_WINDOW_MAX_DAYS
  let start := min (max requestedStart today) ceiling
  match toDate with
  | some to_ =>
    if to_ < requestedStart then .error (.domainValidation "`to` must not precede `from`.")
    else .ok (start, min to_ ceiling)
  | none => .ok (start, min (start + SLOT_WINDOW_DEFAULT_DAYS) ceiling)

namespace StorefrontService

/-- **The picker**: the active weekly set, the exceptions of the window, the booked counts, and the grid. -/
def listSlots (cfg : Config) (fromDate toDate : Option Int) : Prg (List Slot) := do
  let today := cfg.zone.dateOf (← clock)
  let (windowStart, windowEnd) ← liftExcept (slotWindow fromDate toDate today)
  let (rules, exceptions, booked) ← tenantSession fun _ => do
    let rules ← Rules.listActive
    let exceptions ← Exceptions.listActive windowStart windowEnd
    let booked ← Bookings.countByStart (cfg.zone.midnight windowStart) (cfg.zone.midnight (windowEnd + 1))
    return (rules, exceptions, booked)
  let now ← clock
  return materializeSlots cfg.zone rules exceptions booked windowStart windowEnd now

end StorefrontService

def atRest (s : Snapshot schema) (now : Int) : (o : Op schema service) → Option o.Res
  | .sql (.read _) => some s
  | .sql .begin => some now
  | .sql .lock => some ()
  | .sql .commit => some ()
  | .sql .abort => some ()
  | .now => some now
  | _ => none

/-- **A bounded-offset zone**: its offsets from UTC lie within a band narrower than a day. -/
def Zone.BoundedOffset (zone : Zone) : Prop := ∀ x y, (zone.wallOf x - x) - (zone.wallOf y - y) < day

/-! ## Dates and midnights of a bounded-offset zone -/

variable {zone : Zone} {now date a b : Int} {rules : List AvailabilityRule}
  {exceptions ex ex' : List AvailabilityException} {booked : Int → Nat}

theorem Zone.BoundedOffset.inhabited (h : zone.BoundedOffset) (date : Int) : ∃ x, zone.dateOf x = date := by
  have hleast := Int.exists_least_of_bdd (P := fun o => ∃ y, zone.wallOf y - y = o)
    ⟨zone.wallOf 0 - 0 - day, fun o ⟨y, hy⟩ => by have := h 0 y; omega⟩ ⟨_, 0, rfl⟩
  obtain ⟨a, ⟨y, hy⟩, hmin⟩ := hleast
  refine ⟨date * day - a, ?_⟩
  have hlow := hmin _ ⟨date * day - a, rfl⟩
  have hhigh := h (date * day - a) y
  unfold Zone.dateOf
  simp only [day, second] at hlow hhigh ⊢
  omega

theorem Zone.BoundedOffset.midnight_mono (h : zone.BoundedOffset) : Monotone zone.midnight := by
  refine monotone_int_of_le_succ fun date => ?_
  obtain ⟨x, rfl⟩ := h.inhabited date
  exact Int.le_of_lt (Int.lt_of_le_of_lt (zone.midnight_le x) (zone.lt_midnight x))

theorem Zone.BoundedOffset.within (h : zone.BoundedOffset) {x n : Int} (hx : zone.dateOf x ≤ zone.dateOf now + n) :
    x ≤ now + (n + 2) * day := by
  have hband := h now x
  unfold Zone.dateOf at hx
  simp only [day, second] at hx hband ⊢
  omega

theorem dateOf_toUtc {t x : Int} (h0 : 0 ≤ t) (hday : t < day) (h : toUtc zone date t = some x) :
    zone.dateOf x = date := by
  unfold toUtc at h
  simp only at h
  split at h
  · rename_i hwall
    cases h
    unfold Zone.dateOf
    rw [hwall]
    simp only [day, second] at hday ⊢
    omega
  · cases h

/-! ## A day of the grid, alone and in a window -/

theorem mem_cursors {w : Window} {t : Int} (h : t ∈ cursors w) : 0 ≤ t ∧ t < day := by
  unfold cursors at h
  obtain ⟨k, hk, rfl⟩ := List.mem_map.1 h
  have hk := List.mem_range.1 hk
  have hopen := w.openTime.nonneg
  have hclose := w.closeTime.lt_day
  simp only [slotStep, SLOT_INTERVAL_MINUTES, day, second] at hk hclose ⊢
  omega

theorem dateOf_offersOn {o : Int × Nat} (h : o ∈ offersOn zone rules exceptions now date) :
    zone.dateOf o.1 = date ∧ now < o.1 := by
  unfold offersOn at h
  obtain ⟨w, -, ho⟩ := List.mem_flatMap.1 h
  obtain ⟨t, ht, hmap⟩ := List.mem_filterMap.1 ho
  obtain ⟨x, hfilter, rfl⟩ := Option.map_eq_some_iff.1 hmap
  obtain ⟨hutc, hnow⟩ := Option.filter_eq_some_iff.1 hfilter
  exact ⟨dateOf_toUtc (mem_cursors ht).1 (mem_cursors ht).2 hutc, of_decide_eq_true hnow⟩

theorem offersOn_congr (h : (ex.filter fun x => x.date = date) = ex'.filter fun x => x.date = date) :
    offersOn zone rules ex now date = offersOn zone rules ex' now date := by
  unfold offersOn windowsFor
  rw [← List.head?_filter, ← List.head?_filter, List.filter_reverse, List.filter_reverse, h]

theorem mem_dates {d : Int} : d ∈ dates a b ↔ a ≤ d ∧ d ≤ b := by
  unfold dates
  rw [List.mem_map]
  refine ⟨fun ⟨k, hk, hd⟩ => ?_, fun ⟨ha, hb⟩ => ⟨(d - a).toNat, List.mem_range.2 (by omega), by omega⟩⟩
  have hk := List.mem_range.1 hk
  omega

theorem dates_nodup (a b : Int) : (dates a b).Nodup := by
  unfold dates
  exact List.nodup_range.map fun i j hij => by omega

theorem flatMap_of_single {α β : Type} {f : α → List β} {d : α} (hf : ∀ a, a ≠ d → f a = []) :
    ∀ {l : List α}, l.Nodup → d ∈ l → l.flatMap f = f d
  | a :: l, hl, hd => by
    obtain ⟨ha, hl⟩ := List.nodup_cons.1 hl
    rw [List.flatMap_cons]
    by_cases had : a = d
    · subst had
      have hrest : l.flatMap f = [] := List.flatMap_eq_nil_iff.2 fun b hb => hf b fun h => ha (h ▸ hb)
      rw [hrest, List.append_nil]
    · rw [hf a had, List.nil_append]
      exact flatMap_of_single hf hl ((List.mem_cons.1 hd).resolve_left (Ne.symm had))

theorem filter_offers {x : Int} (hx : a ≤ zone.dateOf x ∧ zone.dateOf x ≤ b) :
    (((dates a b).flatMap (offersOn zone rules exceptions now)).filter fun o => o.1 = x) =
      (offersOn zone rules exceptions now (zone.dateOf x)).filter fun o => o.1 = x := by
  rw [List.filter_flatMap]
  refine flatMap_of_single (fun d hd => List.filter_eq_nil_iff.2 fun o ho hox => hd ?_) (dates_nodup a b) (mem_dates.2 hx)
  rw [← (dateOf_offersOn ho).1, of_decide_eq_true hox]

theorem lookup_noteOffer {x y : Int} {c : Nat} :
    ∀ {found : List (Int × Nat)}, Keyed found →
      (noteOffer found y c).lookup x = if x = y then some (max ((found.lookup x).getD 0) c) else found.lookup x
  | [], _ => by
    by_cases hxy : x = y
    · simp [noteOffer, hxy]
    · simp [noteOffer, hxy, List.lookup_cons, beq_false_of_ne hxy]
  | (z, e) :: rest, h => by
    obtain ⟨hz, hrest⟩ := List.pairwise_cons.1 h
    have ih := lookup_noteOffer (x := x) (y := y) (c := c) hrest
    unfold noteOffer
    split
    · rename_i hyz
      by_cases hxy : x = y
      · subst hxy
        have hnone : ((z, e) :: rest).lookup x = none := lookup_none_of_lt fun o ho => by
          rcases List.mem_cons.1 ho with rfl | ho
          · exact hyz
          · exact Int.lt_trans hyz (hz o ho)
        simp [hnone]
      · rw [List.lookup_cons, beq_false_of_ne hxy, if_neg hxy]
    · split
      · rename_i hyz
        subst hyz
        by_cases hxy : x = y
        · simp [hxy]
        · simp [hxy, List.lookup_cons, beq_false_of_ne hxy]
      · rename_i hnlt hne
        by_cases hxz : x = z
        · subst hxz
          simp [Ne.symm hne]
        · rw [List.lookup_cons, beq_false_of_ne hxz, ih, List.lookup_cons, beq_false_of_ne hxz]

theorem lookup_foldl_noteOffer {x : Int} (os : List (Int × Nat)) :
    ∀ {found : List (Int × Nat)}, Keyed found →
      (os.foldl (fun f o => noteOffer f o.1 o.2) found).lookup x =
        (os.filter fun o => o.1 = x).foldl (fun best o => some (max (best.getD 0) o.2)) (found.lookup x) := by
  induction os with
  | nil => exact fun _ => rfl
  | cons o os ih =>
    intro found h
    rw [List.foldl_cons, ih (noteOffer_keyed h), lookup_noteOffer h]
    by_cases hox : o.1 = x
    · simp [hox]
    · simp [hox, Ne.symm hox]

/-- **The grid of a window and the grid of one of its days offer an instant of that day alike.** -/
theorem foundSlots_window {x : Int} (hx : a ≤ zone.dateOf x ∧ zone.dateOf x ≤ b)
    (hex : (ex.filter fun e => e.date = zone.dateOf x) = ex'.filter fun e => e.date = zone.dateOf x) :
    (foundSlots zone rules ex a b now).lookup x =
      (foundSlots zone rules ex' (zone.dateOf x) (zone.dateOf x) now).lookup x := by
  unfold foundSlots
  rw [lookup_foldl_noteOffer _ List.Pairwise.nil, lookup_foldl_noteOffer _ List.Pairwise.nil, filter_offers hx,
    filter_offers ⟨Int.le_refl _, Int.le_refl _⟩, offersOn_congr hex]

theorem lookup_keyed {x : Int} {c : Nat} :
    ∀ {found : List (Int × Nat)}, Keyed found → (found.lookup x = some c ↔ (x, c) ∈ found)
  | [], _ => by simp
  | (y, d) :: rest, h => by
    obtain ⟨hy, hrest⟩ := List.pairwise_cons.1 h
    rw [List.lookup_cons, List.mem_cons]
    by_cases hxy : x = y
    · subst hxy
      have hnot : (x, c) ∉ rest := fun hmem => Int.lt_irrefl x (hy _ hmem)
      simp [hnot, eq_comm]
    · rw [beq_false_of_ne hxy]
      simp [hxy, lookup_keyed hrest]

theorem mem_foundSlots {x : Int} {c : Nat} (h : (foundSlots zone rules exceptions a b now).lookup x = some c) :
    (a ≤ zone.dateOf x ∧ zone.dateOf x ≤ b) ∧ now < x := by
  unfold foundSlots at h
  rw [lookup_foldl_noteOffer _ List.Pairwise.nil] at h
  cases hf : ((dates a b).flatMap (offersOn zone rules exceptions now)).filter fun o => o.1 = x with
  | nil =>
    rw [hf] at h
    cases h
  | cons o os =>
    have ho : o ∈ ((dates a b).flatMap (offersOn zone rules exceptions now)).filter fun o => o.1 = x := by
      rw [hf]
      exact List.mem_cons_self
    obtain ⟨ho, hox⟩ := List.mem_filter.1 ho
    obtain ⟨d, hd, ho⟩ := List.mem_flatMap.1 ho
    obtain ⟨hdate, hnow⟩ := dateOf_offersOn ho
    rw [of_decide_eq_true hox] at hdate hnow
    rw [hdate]
    exact ⟨mem_dates.1 hd, hnow⟩

/-! ## Published and claimed -/

def slotOf (found : List (Int × Nat)) (booked : Int → Nat) (x : Int) : Option Slot :=
  (found.lookup x).bind fun c => if booked x < c then some ⟨x, c, booked x⟩ else none

theorem slotOf_some {found : List (Int × Nat)} {x : Int} {slot : Slot} (h : slotOf found booked x = some slot) :
    slot.startsAt = x ∧ ∃ c, found.lookup x = some c := by
  unfold slotOf at h
  obtain ⟨c, hc, hslot⟩ := Option.bind_eq_some_iff.1 h
  split at hslot
  · cases hslot
    exact ⟨rfl, c, hc⟩
  · cases hslot

theorem find_materializeSlots {x : Int} :
    (materializeSlots zone rules exceptions booked a b now).find? (fun s => s.startsAt = x) =
      slotOf (foundSlots zone rules exceptions a b now) booked x := by
  unfold materializeSlots slotOf
  rw [find_slots booked x (foundSlots_keyed ..)]

theorem mem_materializeSlots {slot : Slot} :
    slot ∈ materializeSlots zone rules exceptions booked a b now ↔
      slotOf (foundSlots zone rules exceptions a b now) booked slot.startsAt = some slot := by
  have hkeyed := foundSlots_keyed zone rules exceptions a b now
  unfold materializeSlots slotOf
  rw [List.mem_filterMap]
  refine ⟨fun ⟨o, ho, hslot⟩ => ?_, fun h => ?_⟩
  · split at hslot
    · rename_i hfree
      cases hslot
      rw [(lookup_keyed hkeyed).2 ho]
      simp [hfree]
    · cases hslot
  · obtain ⟨c, hc, hslot⟩ := Option.bind_eq_some_iff.1 h
    exact ⟨(slot.startsAt, c), (lookup_keyed hkeyed).1 hc, hslot⟩

theorem filter_sorted_by_date (d : Int) (l : List AvailabilityException) :
    ((l.insertionSort fun x x' => x.date ≤ x'.date).filter fun x => x.date = d) = l.filter fun x => x.date = d := by
  have hinsert : ∀ (x : AvailabilityException) (l : List AvailabilityException),
      ((l.orderedInsert (fun x x' => x.date ≤ x'.date) x).filter fun x => x.date = d) =
        (x :: l).filter fun x => x.date = d := by
    intro x l
    induction l with
    | nil => rfl
    | cons y l ih =>
      rw [List.orderedInsert_cons]
      split
      · rfl
      · rename_i hlt
        rw [List.filter_cons, ih, List.filter_cons, List.filter_cons, List.filter_cons]
        by_cases hx : x.date = d
        · have hy : y.date ≠ d := by omega
          simp [hx, hy]
        · simp [hx]
  induction l with
  | nil => rfl
  | cons x l ih => rw [List.insertionSort_cons, hinsert, List.filter_cons, ih, List.filter_cons]

theorem exceptions_of_day (s : Snapshot schema) {d : Int} (hd : a ≤ d ∧ d ≤ b) :
    ((Exceptions.active a b s).filter fun x => x.date = d) = (Exceptions.active d d s).filter fun x => x.date = d := by
  unfold Exceptions.active
  rw [filter_sorted_by_date, filter_sorted_by_date, List.filter_filter, List.filter_filter]
  refine List.filter_congr fun (x : AvailabilityException) _ => ?_
  by_cases hx : x.date = d
  · subst hx
    simp [hd]
  · simp [hx]

def bookedBetween (zone : Zone) (s : Snapshot schema) (a b x : Int) : Nat :=
  if zone.midnight a ≤ x ∧ x < zone.midnight (b + 1) then (Bookings.liveAt s x).length else 0

theorem booked_of_day (hz : zone.BoundedOffset) (s : Snapshot schema) {x : Int}
    (hx : a ≤ zone.dateOf x ∧ zone.dateOf x ≤ b) :
    bookedBetween zone s a b x = bookedBetween zone s (zone.dateOf x) (zone.dateOf x) x := by
  have hlow : zone.midnight (zone.dateOf x) ≤ x := zone.midnight_le x
  have hhigh : x < zone.midnight (zone.dateOf x + 1) := zone.lt_midnight x
  have ha := hz.midnight_mono hx.1
  have hb : zone.midnight (zone.dateOf x + 1) ≤ zone.midnight (b + 1) := hz.midnight_mono (by omega)
  unfold bookedBetween
  rw [if_pos ⟨by omega, by omega⟩, if_pos ⟨hlow, hhigh⟩]

def gridAt (zone : Zone) (s : Snapshot schema) (now a b : Int) : List Slot :=
  materializeSlots zone (Rules.active s) (Exceptions.active a b s) (bookedBetween zone s a b) a b now

theorem eval_listSlots (cfg : Config) (s : Snapshot schema) (now : Int) (fromDate toDate : Option Int) :
    (StorefrontService.listSlots cfg fromDate toDate).eval (atRest s now) =
      some ((slotWindow fromDate toDate (cfg.zone.dateOf now)).map fun w => gridAt cfg.zone s now w.1 w.2) := by
  unfold StorefrontService.listSlots
  cases h : slotWindow fromDate toDate (cfg.zone.dateOf now) with
  | error e =>
    show Prog.eval _ (liftExcept (slotWindow fromDate toDate (cfg.zone.dateOf now)) >>= _) = _
    rw [h]
    rfl
  | ok w =>
    show Prog.eval _ (liftExcept (slotWindow fromDate toDate (cfg.zone.dateOf now)) >>= _) = _
    rw [h]
    rfl

theorem eval_offeredSlot (cfg : Config) (s : Snapshot schema) (x now : Int) :
    (offeredSlot cfg x now).eval (atRest s now) =
      some (.ok ((gridAt cfg.zone s now (cfg.zone.dateOf x) (cfg.zone.dateOf x)).find? fun slot => slot.startsAt = x)) :=
  rfl

theorem slot_of_day (hz : zone.BoundedOffset) (s : Snapshot schema) {x : Int}
    (hx : a ≤ zone.dateOf x ∧ zone.dateOf x ≤ b) :
    (gridAt zone s now (zone.dateOf x) (zone.dateOf x)).find? (fun slot => slot.startsAt = x) =
      slotOf (foundSlots zone (Rules.active s) (Exceptions.active a b s) a b now) (bookedBetween zone s a b) x := by
  unfold gridAt
  rw [find_materializeSlots]
  unfold slotOf
  rw [foundSlots_window hx (exceptions_of_day s hx), booked_of_day hz s hx]

theorem slotWindow_le {fromDate toDate : Option Int} {today : Int} {w : Int × Int}
    (h : slotWindow fromDate toDate today = .ok w) : w.2 ≤ today + SLOT_WINDOW_MAX_DAYS := by
  unfold slotWindow at h
  cases toDate with
  | none =>
    cases h
    exact Int.min_le_right ..
  | some to_ =>
    simp only at h
    split at h
    · cases h
    · cases h
      exact Int.min_le_right ..

/-- **Picker and claim agree.**  Every slot the storefront publishes, the claim's own lookup finds at its instant, the
same slot, and the request's horizon guard lets it through; and every slot that lookup finds on a date of the published
window is published. -/
theorem picker_agrees (cfg : Config) (hz : cfg.zone.BoundedOffset) (s : Snapshot schema) (now : Int)
    (fromDate toDate : Option Int) (w : Int × Int)
    (hw : slotWindow fromDate toDate (cfg.zone.dateOf now) = .ok w) :
    ∃ slots, (StorefrontService.listSlots cfg fromDate toDate).eval (atRest s now) = some (.ok slots) ∧
      (∀ slot ∈ slots, (offeredSlot cfg slot.startsAt now).eval (atRest s now) = some (.ok (some slot)) ∧
        now < slot.startsAt ∧ slot.startsAt ≤ now + BOOKABLE_HORIZON) ∧
      ∀ x slot, (offeredSlot cfg x now).eval (atRest s now) = some (.ok (some slot)) →
        w.1 ≤ cfg.zone.dateOf x → cfg.zone.dateOf x ≤ w.2 → slot.startsAt = x ∧ slot ∈ slots := by
  refine ⟨gridAt cfg.zone s now w.1 w.2, by rw [eval_listSlots, hw]; rfl, fun slot hslot => ?_, fun x slot h ha hb => ?_⟩
  · have hof := mem_materializeSlots.1 hslot
    obtain ⟨-, c, hc⟩ := slotOf_some hof
    obtain ⟨hdate, hnow⟩ := mem_foundSlots hc
    refine ⟨?_, hnow, hz.within (Int.le_trans hdate.2 (slotWindow_le hw))⟩
    rw [eval_offeredSlot, slot_of_day hz s hdate, hof]
  · rw [eval_offeredSlot, slot_of_day hz s ⟨ha, hb⟩] at h
    have hof := Except.ok.inj (Option.some.inj h)
    obtain ⟨hstart, -⟩ := slotOf_some hof
    exact ⟨hstart, mem_materializeSlots.2 (hstart.symm ▸ hof)⟩

theorem standardTime_bounded : standardTime.BoundedOffset := fun x y => by
  simp only [standardTime, day, second]
  omega

theorem picker_agrees_shop :
    ∃ slots, (StorefrontService.listSlots shop none none).eval (atRest ⟨tableOf shelf, 5⟩ 0) = some (.ok slots) ∧
      (∀ slot ∈ slots, (offeredSlot shop slot.startsAt 0).eval (atRest ⟨tableOf shelf, 5⟩ 0) = some (.ok (some slot)) ∧
        0 < slot.startsAt ∧ slot.startsAt ≤ 0 + BOOKABLE_HORIZON) ∧
      ∀ x slot, (offeredSlot shop x 0).eval (atRest ⟨tableOf shelf, 5⟩ 0) = some (.ok (some slot)) →
        0 ≤ shop.zone.dateOf x → shop.zone.dateOf x ≤ 14 → slot.startsAt = x ∧ slot ∈ slots :=
  picker_agrees shop standardTime_bounded ⟨tableOf shelf, 5⟩ 0 none none (0, 14) (by decide)

end Boutique
