import Boutique.Rows
import Mathlib.Data.List.Perm.Subperm
import Mathlib.Data.List.Range
/-!
# Slots — the availability grid

`materializeSlots` is the one place that decides which start times are bookable: weekly rules and exception dates give
windows, windows give wall times, wall times give instants, and full slots are dropped.  `gridCapacity` is what the
grid gives an instant before occupancy; `materializeSlots_find` says that the two agree.
-/
namespace Boutique

/-- **The boutique's time zone**: an instant's wall clock (microseconds since 1970-01-01 00:00) and a wall clock's instant
(`fold = 0`).  Its midnights are single real instants, so a local day is the half-open interval between two of them. -/
structure Zone where
  wallOf : Int → Int
  instantOf : Int → Int
  midnight_le : ∀ x, instantOf (wallOf x / day * day) ≤ x
  lt_midnight : ∀ x, x < instantOf ((wallOf x / day + 1) * day)

theorem midnight_le_of_offset (offset x : Int) : (x + offset) / day * day - offset ≤ x := by
  simp only [day, second]
  omega

theorem lt_midnight_of_offset (offset x : Int) : x < ((x + offset) / day + 1) * day - offset := by
  simp only [day, second]
  omega

def Zone.dateOf (zone : Zone) (x : Int) : Int := zone.wallOf x / day

/-- `datetime.combine(date, time.min, tzinfo=BOUTIQUE_TIMEZONE)`, as an instant. -/
def Zone.midnight (zone : Zone) (date : Int) : Int := zone.instantOf (date * day)

def SLOT_INTERVAL_MINUTES : Int := 30
def DEFAULT_SLOT_CAPACITY : Nat := 1
def slotStep : Int := SLOT_INTERVAL_MINUTES * 60 * second

/-- 0=Sunday … 6=Saturday; 1970-01-01 was a Thursday. -/
def jerusalemDayIndex (date : Int) : Int := (date + 4) % 7

structure Slot where
  startsAt : Int
  capacity : Nat
  booked : Nat
deriving DecidableEq

structure Window where
  openTime : WallTime
  closeTime : WallTime
  capacity : Nat

/-- Exceptions beat the weekly grid in both directions. -/
def windowsFor (date : Int) (rules : List AvailabilityRule) (exceptions : List AvailabilityException) : List Window :=
  let dayRules := rules.filter fun r => r.dayOfWeek = jerusalemDayIndex date
  -- a later row of the same date replaces an earlier one in the mapping
  match exceptions.reverse.find? fun x => x.date = date with
  | none => dayRules.map fun r => ⟨r.openTime, r.closeTime, r.capacity⟩
  | some x =>
    match x.openTime, x.closeTime with
    | some o, some c => [⟨o, c, ((dayRules.map (·.capacity)).min?).getD DEFAULT_SLOT_CAPACITY⟩]
    | _, _ => []

/-- Int time to instant; none where the wall time does not exist. -/
def toUtc (zone : Zone) (date : Int) (wall : Int) : Option Int :=
  let local_ := date * day + wall
  let instant := zone.instantOf local_
  if zone.wallOf instant = local_ then some instant else none

def cursors (w : Window) : List Int :=
  (List.range ((w.closeTime.micros - w.openTime.micros + slotStep - 1) / slotStep).toNat).map fun (k : Nat) =>
    w.openTime.micros + slotStep * k

/-- `found[instant] = max(found.get(instant, 0), capacity)`, the mapping kept sorted by instant. -/
def noteOffer (found : List (Int × Nat)) (x : Int) (capacity : Nat) : List (Int × Nat) :=
  match found with
  | [] => [(x, capacity)]
  | (y, c) :: rest =>
    if x < y then (x, capacity) :: (y, c) :: rest
    else if x = y then (y, max c capacity) :: rest
    else (y, c) :: noteOffer rest x capacity

/-- The offers of one date: each window's instants after `now`, with the window's capacity. -/
def offersOn (zone : Zone) (rules : List AvailabilityRule) (exceptions : List AvailabilityException) (now : Int)
    (date : Int) : List (Int × Nat) :=
  (windowsFor date rules exceptions).flatMap fun w =>
    (cursors w).filterMap fun t => ((toUtc zone date t).filter fun x => now < x).map fun x => (x, w.capacity)

def dates (windowStart windowEnd : Int) : List Int :=
  (List.range (windowEnd - windowStart + 1).toNat).map fun (k : Nat) => windowStart + k

def foundSlots (zone : Zone) (rules : List AvailabilityRule) (exceptions : List AvailabilityException)
    (windowStart windowEnd : Int) (now : Int) : List (Int × Nat) :=
  ((dates windowStart windowEnd).flatMap (offersOn zone rules exceptions now)).foldl
    (fun found o => noteOffer found o.1 o.2) []

/-- **The bookable start times of a window of dates.** Full slots are dropped, never marked. -/
def materializeSlots (zone : Zone) (rules : List AvailabilityRule) (exceptions : List AvailabilityException)
    (booked : Int → Nat) (windowStart windowEnd : Int) (now : Int) : List Slot :=
  (foundSlots zone rules exceptions windowStart windowEnd now).filterMap fun o =>
    if booked o.1 < o.2 then some ⟨o.1, o.2, booked o.1⟩ else none

/-- The capacity the grid gives an instant, 0 where it does not offer it. -/
def gridCapacity (zone : Zone) (rules : List AvailabilityRule) (exceptions : List AvailabilityException)
    (now x : Int) : Nat :=
  ((foundSlots zone rules exceptions (zone.dateOf x) (zone.dateOf x) now).lookup x).getD 0

def lowestFree (capacity : Nat) (seats : List Nat) : Option Nat :=
  (List.range' 1 capacity).find? fun i => !seats.contains i

abbrev Keyed (found : List (Int × Nat)) : Prop := found.Pairwise fun a b => a.1 < b.1

variable {x : Int} {capacity : Nat} {seats : List Nat}

theorem mem_noteOffer {y : Int} {c d : Nat} :
    ∀ {found : List (Int × Nat)}, (y, d) ∈ noteOffer found x c → y = x ∨ (y, d) ∈ found
  | [], h => by
    simp only [noteOffer, List.mem_singleton, Prod.mk.injEq] at h
    exact .inl h.1
  | (z, e) :: rest, h => by
    unfold noteOffer at h
    split at h
    · rcases List.mem_cons.1 h with h | h
      · exact .inl (Prod.mk.inj h).1
      · exact .inr h
    · split at h
      · rename_i hxz
        rcases List.mem_cons.1 h with h | h
        · exact .inl ((Prod.mk.inj h).1.trans hxz.symm)
        · exact .inr (List.mem_cons_of_mem _ h)
      · rcases List.mem_cons.1 h with h | h
        · exact .inr (h ▸ List.mem_cons_self)
        · exact (mem_noteOffer h).imp id (List.mem_cons_of_mem _)

theorem noteOffer_keyed {c : Nat} :
    ∀ {found : List (Int × Nat)}, Keyed found → Keyed (noteOffer found x c)
  | [], _ => List.pairwise_singleton _ _
  | (y, d) :: rest, h => by
    obtain ⟨hy, hrest⟩ := List.pairwise_cons.1 h
    unfold noteOffer
    split
    · rename_i hxy
      refine List.pairwise_cons.2 ⟨fun b hb => ?_, h⟩
      rcases List.mem_cons.1 hb with rfl | hb
      · exact hxy
      · exact Int.lt_trans hxy (hy b hb)
    · split
      · exact List.pairwise_cons.2 ⟨hy, hrest⟩
      · rename_i hxy hne
        refine List.pairwise_cons.2 ⟨fun b hb => ?_, noteOffer_keyed hrest⟩
        rcases mem_noteOffer hb with hb | hb
        · show y < b.1
          omega
        · exact hy b hb

theorem foldl_noteOffer_keyed (os : List (Int × Nat)) :
    ∀ {found : List (Int × Nat)}, Keyed found → Keyed (os.foldl (fun f o => noteOffer f o.1 o.2) found) := by
  induction os with
  | nil => exact fun h => h
  | cons o os ih => exact fun h => ih (noteOffer_keyed h)

theorem foundSlots_keyed (zone : Zone) (rules : List AvailabilityRule) (exceptions : List AvailabilityException)
    (a b : Int) (now : Int) : Keyed (foundSlots zone rules exceptions a b now) :=
  foldl_noteOffer_keyed _ List.Pairwise.nil

theorem lookup_none_of_lt :
    ∀ {found : List (Int × Nat)}, (∀ o ∈ found, x < o.1) → found.lookup x = none
  | [], _ => rfl
  | (y, c) :: rest, h => by
    have hy : x < y := h _ List.mem_cons_self
    rw [List.lookup_cons, beq_false_of_ne (by omega : x ≠ y)]
    exact lookup_none_of_lt fun o ho => h o (List.mem_cons_of_mem _ ho)

theorem find_slots (booked : Int → Nat) (x : Int) :
    ∀ {found : List (Int × Nat)}, Keyed found →
      (found.filterMap fun o => if booked o.1 < o.2 then some (⟨o.1, o.2, booked o.1⟩ : Slot) else none).find?
          (fun s => s.startsAt = x) =
        (found.lookup x).bind fun c => if booked x < c then some ⟨x, c, booked x⟩ else none
  | [], _ => rfl
  | (y, c) :: rest, h => by
    obtain ⟨hy, hrest⟩ := List.pairwise_cons.1 h
    have ih := find_slots booked x hrest
    rw [List.lookup_cons]
    by_cases hxy : x = y
    · subst hxy
      have hnone : rest.lookup x = none := lookup_none_of_lt hy
      rw [hnone] at ih
      by_cases hb : booked x < c
      · simp [hb]
      · simpa [hb] using ih
    · rw [beq_false_of_ne hxy]
      by_cases hb : booked y < c
      · simpa [hb, Ne.symm hxy] using ih
      · simpa [hb] using ih

/-- **What the grid offers at an instant**: its slot, when the instant has capacity and is not full. -/
theorem materializeSlots_find (zone : Zone) (rules : List AvailabilityRule) (exceptions : List AvailabilityException)
    (booked : Int → Nat) (now x : Int) :
    (materializeSlots zone rules exceptions booked (zone.dateOf x) (zone.dateOf x) now).find? (fun s => s.startsAt = x) =
      if booked x < gridCapacity zone rules exceptions now x then
        some ⟨x, gridCapacity zone rules exceptions now x, booked x⟩
      else none := by
  unfold materializeSlots gridCapacity
  rw [find_slots booked x (foundSlots_keyed ..)]
  cases (foundSlots zone rules exceptions (zone.dateOf x) (zone.dateOf x) now).lookup x with
  | none => simp
  | some c => simp

theorem lowestFree_some {i : Nat} (h : lowestFree capacity seats = some i) :
    1 ≤ i ∧ i ≤ capacity ∧ i ∉ seats ∧ ∀ j, 1 ≤ j → j < i → j ∈ seats := by
  unfold lowestFree at h
  have hi := List.find?_some h
  have hmem := List.mem_of_find?_eq_some h
  rw [List.mem_range'_1] at hmem
  refine ⟨hmem.1, by omega, by simpa using hi, fun j hj hji => ?_⟩
  have := (List.find?_range'_eq_some.1 h).2.2 j hj hji
  simpa using this

theorem lowestFree_none : lowestFree capacity seats = none ↔ ∀ j, 1 ≤ j → j ≤ capacity → j ∈ seats := by
  unfold lowestFree
  rw [List.find?_eq_none]
  refine ⟨fun h j h1 h2 => ?_, fun h j hj => ?_⟩
  · have := h j (List.mem_range'_1.2 ⟨h1, by omega⟩)
    simpa using this
  · obtain ⟨h1, h2⟩ := List.mem_range'_1.1 hj
    simpa using h j h1 (by omega)

/-- **The seat number and the seat count agree**: with fewer taken seats than capacity, one of `1..capacity` is free. -/
theorem lowestFree_of_lt (h : seats.length < capacity) : ∃ i, lowestFree capacity seats = some i := by
  cases hf : lowestFree capacity seats with
  | some i => exact ⟨i, rfl⟩
  | none =>
    have hall := lowestFree_none.1 hf
    have hsub : List.range' 1 capacity ⊆ seats := fun j hj => by
      obtain ⟨h1, h2⟩ := List.mem_range'_1.1 hj
      exact hall j h1 (by omega)
    have hle := ((List.nodup_range' ..).subperm hsub).length_le
    rw [List.length_range'] at hle
    omega

end Boutique
