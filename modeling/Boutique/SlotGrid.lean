import Boutique.Slots
import Mathlib.Order.Bounds.Defs
/-!
# SlotGrid — what the grid of start times is, under any zone's gaps and folds

`materializeSlots` with nothing assumed of the zone's midnights.  A wall time that no instant shows gives no start, one
that two instants show gives the first; a wall clock set back only repeats what it has shown (`Timezone.first_lt`), so
the list of a window of dates is that of its days, one after the other.
-/
namespace SlotGrid

open Boutique (AvailabilityRule AvailabilityException Slot Window windowsFor cursors noteOffer dates slotStep day
  jerusalemDayIndex DEFAULT_SLOT_CAPACITY)

/-- **A zone's conversions**: the wall clock of an instant, and the instant of a wall time (`fold = 0`). -/
structure Timezone where
  wallOf : Int → Int
  instantOf : Int → Int
  /-- A wall time that is shown is converted to the first instant that shows it. -/
  first : ∀ x, instantOf (wallOf x) ≤ x ∧ wallOf (instantOf (wallOf x)) = wallOf x
  /-- A fold: what the clock shows after being set back, it has shown before. -/
  repeats : ∀ x y, x < y → wallOf y < wallOf x → ∃ z, z ≤ x ∧ wallOf z = wallOf y

def summerWall (change x : Int) : Int :=
  if x < change then x + 3 * 3600 * Boutique.second else x + 2 * 3600 * Boutique.second

def summerInstant (change wall : Int) : Int :=
  if wall < change + 3 * 3600 * Boutique.second then wall - 3 * 3600 * Boutique.second
  else wall - 2 * 3600 * Boutique.second

theorem summer_first (change x : Int) : summerInstant change (summerWall change x) ≤ x ∧
    summerWall change (summerInstant change (summerWall change x)) = summerWall change x := by
  simp only [summerInstant, summerWall, Boutique.second]
  constructor <;> (split_ifs <;> omega)

theorem summer_repeats (change x y : Int) (hlt : x < y) (hback : summerWall change y < summerWall change x) :
    ∃ z, z ≤ x ∧ summerWall change z = summerWall change y := by
  simp only [summerWall, Boutique.second] at *
  refine ⟨y - 3600 * 1000000, ?_, ?_⟩
  · split_ifs at hback <;> omega
  · split_ifs at * <;> omega

/-- An hour lived twice: the clock is set back at `change`. -/
def summerEnds (change : Int) : Timezone where
  wallOf := summerWall change
  instantOf := summerInstant change
  first := summer_first change
  repeats := summer_repeats change

def toUtc (zone : Timezone) (date wall : Int) : Option Int :=
  let local_ := date * day + wall
  let instant := zone.instantOf local_
  if zone.wallOf instant = local_ then some instant else none

def offersOn (zone : Timezone) (rules : List AvailabilityRule) (exceptions : List AvailabilityException) (now : Int)
    (date : Int) : List (Int × Nat) :=
  (windowsFor date rules exceptions).flatMap fun w =>
    (cursors w).filterMap fun t => ((toUtc zone date t).filter fun x => now < x).map fun x => (x, w.capacity)

def foundSlots (zone : Timezone) (rules : List AvailabilityRule) (exceptions : List AvailabilityException)
    (windowStart windowEnd : Int) (now : Int) : List (Int × Nat) :=
  ((dates windowStart windowEnd).flatMap (offersOn zone rules exceptions now)).foldl
    (fun found o => noteOffer found o.1 o.2) []

/-- **The bookable start times of a window of dates.** -/
def materializeSlots (zone : Timezone) (rules : List AvailabilityRule) (exceptions : List AvailabilityException)
    (booked : Int → Nat) (windowStart windowEnd : Int) (now : Int) : List Slot :=
  (foundSlots zone rules exceptions windowStart windowEnd now).filterMap fun o =>
    if booked o.1 < o.2 then some ⟨o.1, o.2, booked o.1⟩ else none

theorem materializeSlots_boutique (zone : Boutique.Zone) (tz : Timezone) (hwall : zone.wallOf = tz.wallOf)
    (hinstant : zone.instantOf = tz.instantOf) : Boutique.materializeSlots zone = materializeSlots tz := by
  have hutc : Boutique.toUtc zone = toUtc tz := by
    funext date wall
    rw [Boutique.toUtc, toUtc, hwall, hinstant]
  have hoffers : Boutique.offersOn zone = offersOn tz := by
    funext rules exceptions now date
    rw [Boutique.offersOn, hutc]
    rfl
  funext rules exceptions booked a b now
  rw [Boutique.materializeSlots, Boutique.foundSlots, hoffers]
  rfl

variable {zone : Timezone} {rules : List AvailabilityRule} {exceptions : List AvailabilityException} {booked : Int → Nat}
  {a b now : Int}

/-! ## The effective windows -/

/-- A window of a day's hours: of a rule of the weekday, or the one of the date's last exception, at the least capacity
of the weekday's rules, or the default where it has none. -/
def Effective (rules : List AvailabilityRule) (exceptions : List AvailabilityException) (date : Int) (w : Window) : Prop :=
  (∀ x ∈ exceptions, x.date ≠ date) ∧
      (∃ r ∈ rules, r.dayOfWeek = jerusalemDayIndex date ∧ w = ⟨r.openTime, r.closeTime, r.capacity⟩) ∨
    ∃ before x after_, exceptions = before ++ x :: after_ ∧ x.date = date ∧ (∀ y ∈ after_, y.date ≠ date) ∧
      x.openTime = some w.openTime ∧ x.closeTime = some w.closeTime ∧
      (IsLeast {n | ∃ r ∈ rules, r.dayOfWeek = jerusalemDayIndex date ∧ r.capacity = n} w.capacity ∨
        (∀ r ∈ rules, r.dayOfWeek ≠ jerusalemDayIndex date) ∧ w.capacity = DEFAULT_SLOT_CAPACITY)

variable {date : Int} {w : Window} {offers : List (Int × Nat)}

theorem find_last {x : AvailabilityException} :
    (exceptions.reverse.find? fun y => decide (y.date = date)) = some x ↔
      ∃ before after_, exceptions = before ++ x :: after_ ∧ x.date = date ∧ ∀ y ∈ after_, y.date ≠ date := by
  rw [List.find?_eq_some_iff_append]
  constructor
  · rintro ⟨hdate, before, after_, hsplit, hnot⟩
    refine ⟨after_.reverse, before.reverse, ?_, of_decide_eq_true hdate, ?_⟩
    · rw [← List.reverse_reverse exceptions, hsplit]
      simp
    · intro y hy
      simpa using hnot y (List.mem_reverse.1 hy)
  · rintro ⟨before, after_, rfl, hdate, hnot⟩
    refine ⟨decide_eq_true hdate, after_.reverse, before.reverse, by simp, ?_⟩
    intro y hy
    simpa using hnot y (List.mem_reverse.1 hy)

theorem inherited_iff {c : Nat} :
    c = (((rules.filter fun r => r.dayOfWeek = jerusalemDayIndex date).map (·.capacity)).min?).getD
        DEFAULT_SLOT_CAPACITY ↔
      IsLeast {n | ∃ r ∈ rules, r.dayOfWeek = jerusalemDayIndex date ∧ r.capacity = n} c ∨
        (∀ r ∈ rules, r.dayOfWeek ≠ jerusalemDayIndex date) ∧ c = DEFAULT_SLOT_CAPACITY := by
  have hmem : ∀ n, n ∈ (rules.filter fun r => r.dayOfWeek = jerusalemDayIndex date).map (·.capacity) ↔
      ∃ r ∈ rules, r.dayOfWeek = jerusalemDayIndex date ∧ r.capacity = n := by
    intro n
    simp only [List.mem_map, List.mem_filter, decide_eq_true_eq, and_assoc]
  cases hmin : ((rules.filter fun r => r.dayOfWeek = jerusalemDayIndex date).map (·.capacity)).min? with
  | none =>
    rw [List.min?_eq_none_iff] at hmin
    have hnone : ∀ r ∈ rules, r.dayOfWeek ≠ jerusalemDayIndex date := by
      intro r hr hday
      have hin := (hmem r.capacity).2 ⟨r, hr, hday, rfl⟩
      rw [hmin] at hin
      exact List.not_mem_nil hin
    constructor
    · intro hc
      exact .inr ⟨hnone, hc⟩
    · rintro (⟨⟨r, hr, hday, -⟩, -⟩ | ⟨-, hc⟩)
      · exact absurd hday (hnone r hr)
      · exact hc
  | some m =>
    obtain ⟨hm, hleast⟩ := List.min?_eq_some_iff.1 hmin
    obtain ⟨r0, hr0, hday0, hcap0⟩ := (hmem m).1 hm
    constructor
    · rintro rfl
      refine .inl ⟨⟨r0, hr0, hday0, hcap0⟩, ?_⟩
      rintro n ⟨r, hr, hday, rfl⟩
      exact hleast _ ((hmem _).2 ⟨r, hr, hday, rfl⟩)
    · rintro (⟨hc, hlower⟩ | ⟨hnone, -⟩)
      · exact Nat.le_antisymm (hlower ⟨r0, hr0, hday0, hcap0⟩) (hleast _ ((hmem _).2 hc))
      · exact absurd hday0 (hnone r0 hr0)

theorem effective_iff : w ∈ windowsFor date rules exceptions ↔ Effective rules exceptions date w := by
  cases hlast : exceptions.reverse.find? fun y => decide (y.date = date) with
  | none =>
    have hnone : ∀ x ∈ exceptions, x.date ≠ date := by
      intro x hx
      simpa using List.find?_eq_none.1 hlast x (List.mem_reverse.2 hx)
    rw [windowsFor, hlast]
    constructor
    · intro hw
      obtain ⟨r, hr, rfl⟩ := List.mem_map.1 hw
      obtain ⟨hr, hday⟩ := List.mem_filter.1 hr
      exact .inl ⟨hnone, r, hr, of_decide_eq_true hday, rfl⟩
    · rintro (⟨-, r, hr, hday, rfl⟩ | ⟨before, x, after_, rfl, hdate, -⟩)
      · exact List.mem_map.2 ⟨r, List.mem_filter.2 ⟨hr, decide_eq_true hday⟩, rfl⟩
      · exact absurd hdate (hnone x (by simp))
  | some x =>
    obtain ⟨before, after_, hsplit, hdate, hafter⟩ := find_last.1 hlast
    have hhere : x ∈ exceptions := hsplit ▸ by simp
    have hwindows : w ∈ windowsFor date rules exceptions ↔ x.openTime = some w.openTime ∧ x.closeTime = some w.closeTime ∧
        w.capacity = (((rules.filter fun r => r.dayOfWeek = jerusalemDayIndex date).map (·.capacity)).min?).getD
          DEFAULT_SLOT_CAPACITY := by
      rw [windowsFor, hlast]
      obtain ⟨opens, closes, capacity⟩ := w
      cases hopen : x.openTime with
      | none => simp [hopen]
      | some o =>
        cases hclose : x.closeTime with
        | none => simp [hopen, hclose]
        | some c => simp [hopen, hclose, eq_comm]
    rw [hwindows, inherited_iff]
    constructor
    · rintro ⟨hopen, hclose, hcapacity⟩
      exact .inr ⟨before, x, after_, hsplit, hdate, hafter, hopen, hclose, hcapacity⟩
    · rintro (⟨hnone, -⟩ | ⟨before', x', after', hsplit', hdate', hafter', hopen, hclose, hcapacity⟩)
      · exact absurd hdate (hnone x hhere)
      · have hlast' := find_last.2 ⟨before', after', hsplit', hdate', hafter'⟩
        obtain rfl : x = x' := Option.some.inj (hlast.symm.trans hlast')
        exact ⟨hopen, hclose, hcapacity⟩

/-! ## Wall times -/

/-- **The first instant that shows it**, or none: a gap gives no start and a fold gives one. -/
theorem toUtc_iff {wall x : Int} :
    toUtc zone date wall = some x ↔ IsLeast {y | zone.wallOf y = date * day + wall} x := by
  simp only [toUtc]
  constructor
  · intro h
    split at h
    · rename_i hshown
      obtain rfl := Option.some.inj h
      refine ⟨hshown, fun y (hy : zone.wallOf y = _) => ?_⟩
      rw [← hy]
      exact (zone.first y).1
    · contradiction
  · rintro ⟨hshown, hleast⟩
    have hshown : zone.wallOf x = date * day + wall := hshown
    obtain ⟨hle, hback⟩ := zone.first x
    rw [hshown] at hle hback
    rw [if_pos hback, Int.le_antisymm hle (hleast hback)]

/-- Half past two comes twice, and is offered once. -/
example : toUtc (summerEnds 0) 0 (5 * 1800 * Boutique.second) = some (-1800 * Boutique.second) := by decide

theorem Timezone.first_lt (zone : Timezone) {u v x y : Int} (hx : IsLeast {z | zone.wallOf z = u} x)
    (hy : IsLeast {z | zone.wallOf z = v} y) (huv : u < v) : x < y := by
  have hu : zone.wallOf x = u := hx.1
  have hv : zone.wallOf y = v := hy.1
  by_contra hnot
  have hne : y ≠ x := by
    rintro rfl
    omega
  obtain ⟨z, hz, hshown⟩ := zone.repeats y x (by omega) (by omega)
  have hxz : x ≤ z := hx.2 (hshown.trans hu)
  omega

theorem mem_cursors {t : Int} :
    t ∈ cursors w ↔ ∃ k : Nat, t = w.openTime.micros + slotStep * k ∧ t < w.closeTime.micros := by
  simp only [cursors, List.mem_map, List.mem_range, slotStep, Boutique.SLOT_INTERVAL_MINUTES, Boutique.second]
  constructor
  · rintro ⟨k, hk, rfl⟩
    exact ⟨k, rfl, by omega⟩
  · rintro ⟨k, rfl, hlt⟩
    exact ⟨k, by omega, rfl⟩

/-! ## The best offer of an instant -/

def Best (offers : List (Int × Nat)) (x : Int) (c : Nat) : Prop :=
  (x, c) ∈ offers ∧ ∀ c', (x, c') ∈ offers → c' ≤ c

structure Holds (found offers : List (Int × Nat)) : Prop where
  keyed : Boutique.Keyed found
  best : ∀ x c, found.lookup x = some c → Best offers x c
  absent : ∀ x, found.lookup x = none → ∀ c, (x, c) ∉ offers

theorem lookup_cons_ite (x z : Int) (e : Nat) (rest : List (Int × Nat)) :
    ((z, e) :: rest).lookup x = if x = z then some e else rest.lookup x := by
  rw [List.lookup_cons]
  by_cases hxz : x = z
  · simp [hxz]
  · rw [beq_false_of_ne hxz, if_neg hxz]

theorem mem_iff_lookup {x : Int} {c : Nat} :
    ∀ {found : List (Int × Nat)}, Boutique.Keyed found → ((x, c) ∈ found ↔ found.lookup x = some c)
  | [], _ => by simp
  | (z, e) :: rest, h => by
    obtain ⟨hz, hrest⟩ := List.pairwise_cons.1 h
    rw [List.mem_cons, lookup_cons_ite, mem_iff_lookup hrest]
    by_cases hxz : x = z
    · subst hxz
      have hout : rest.lookup x = none := Boutique.lookup_none_of_lt hz
      simp [hout, eq_comm]
    · simp [hxz]

theorem lookup_noteOffer {x y : Int} {c : Nat} :
    ∀ {found : List (Int × Nat)}, Boutique.Keyed found →
      (noteOffer found x c).lookup y = if y = x then some (max ((found.lookup x).getD 0) c) else found.lookup y
  | [], _ => by
    rw [noteOffer, lookup_cons_ite]
    simp
  | (z, e) :: rest, h => by
    obtain ⟨hz, hrest⟩ := List.pairwise_cons.1 h
    have ih := lookup_noteOffer (x := x) (y := y) (c := c) hrest
    unfold noteOffer
    split
    · rename_i hxz
      have habsent : ((z, e) :: rest).lookup x = none := by
        apply Boutique.lookup_none_of_lt
        intro o ho
        obtain rfl | ho := List.mem_cons.1 ho
        · exact hxz
        · exact Int.lt_trans hxz (hz o ho)
      rw [habsent, lookup_cons_ite]
      simp
    · split
      · rename_i hxz
        subst hxz
        by_cases hyx : y = x <;> simp [lookup_cons_ite, hyx]
      · rename_i hxz
        by_cases hyz : y = z
        · have hyx : y ≠ x := by omega
          rw [lookup_cons_ite, if_pos hyz, if_neg hyx, lookup_cons_ite, if_pos hyz]
        · simp only [lookup_cons_ite, if_neg hyz, if_neg hxz, ih]

theorem Best.max {x : Int} {d : Nat} (h : Best offers x d) (c : Nat) : Best (offers ++ [(x, c)]) x (Max.max d c) := by
  constructor
  · obtain hdc | hcd := Nat.le_total d c
    · simp [Nat.max_eq_right hdc]
    · simp [Nat.max_eq_left hcd, h.1]
  · intro e he
    obtain he | he := List.mem_append.1 he
    · exact (h.2 e he).trans (Nat.le_max_left _ _)
    · obtain rfl := (Prod.mk.inj (List.mem_singleton.1 he)).2
      exact Nat.le_max_right _ _

theorem Best.fresh {x : Int} (h : ∀ c, (x, c) ∉ offers) (c : Nat) : Best (offers ++ [(x, c)]) x c := by
  constructor
  · simp
  · intro e he
    obtain he | he := List.mem_append.1 he
    · exact absurd he (h e)
    · exact Nat.le_of_eq (Prod.mk.inj (List.mem_singleton.1 he)).2

theorem Holds.note {found : List (Int × Nat)} (h : Holds found offers) (x : Int) (c : Nat) :
    Holds (noteOffer found x c) (offers ++ [(x, c)]) := by
  have hold : ∀ y, y ≠ x → ∀ d, (y, d) ∈ offers ++ [(x, c)] ↔ (y, d) ∈ offers := by
    intro y hy d
    simp [hy]
  refine ⟨Boutique.noteOffer_keyed h.keyed, fun y d hd => ?_, fun y hnone d hin => ?_⟩
  · rw [lookup_noteOffer h.keyed] at hd
    by_cases hyx : y = x
    · subst hyx
      rw [if_pos rfl] at hd
      obtain rfl := Option.some.inj hd
      cases hlook : found.lookup y with
      | none => simpa using Best.fresh (h.absent y hlook) c
      | some d0 => exact (h.best y d0 hlook).max c
    · rw [if_neg hyx] at hd
      obtain ⟨hin, hmost⟩ := h.best y d hd
      exact ⟨(hold y hyx d).2 hin, fun e he => hmost e ((hold y hyx e).1 he)⟩
  · rw [lookup_noteOffer h.keyed] at hnone
    by_cases hyx : y = x
    · simp [hyx] at hnone
    · rw [if_neg hyx] at hnone
      exact h.absent y hnone d ((hold y hyx d).1 hin)

theorem Holds.fold (os : List (Int × Nat)) : ∀ {found offers : List (Int × Nat)}, Holds found offers →
    Holds (os.foldl (fun f o => noteOffer f o.1 o.2) found) (offers ++ os) := by
  induction os with
  | nil => simp
  | cons o os ih =>
    intro found offers h
    rw [List.append_cons]
    exact ih (h.note o.1 o.2)

theorem mem_foundSlots {x : Int} {c : Nat} : (x, c) ∈ foundSlots zone rules exceptions a b now ↔
    Best ((dates a b).flatMap (offersOn zone rules exceptions now)) x c := by
  have hempty : Holds [] [] := ⟨List.Pairwise.nil, by simp, by simp⟩
  have hholds := hempty.fold ((dates a b).flatMap (offersOn zone rules exceptions now))
  rw [List.nil_append] at hholds
  rw [foundSlots, mem_iff_lookup hholds.keyed]
  constructor
  · exact hholds.best x c
  · rintro ⟨hin, hmost⟩
    cases hlook : List.lookup x (((dates a b).flatMap (offersOn zone rules exceptions now)).foldl
      (fun f o => noteOffer f o.1 o.2) []) with
    | none => exact absurd hin (hholds.absent x hlook c)
    | some d =>
      obtain ⟨hin', hmost'⟩ := hholds.best x d hlook
      rw [Nat.le_antisymm (hmost d hin') (hmost' c hin)]

/-! ## The grid -/

/-- A half hour of the window, before its close, at the first instant that shows it. -/
def OnGrid (zone : Timezone) (date : Int) (w : Window) (x : Int) : Prop :=
  ∃ k : Nat, w.openTime.micros + slotStep * k < w.closeTime.micros ∧
    IsLeast {y | zone.wallOf y = date * day + (w.openTime.micros + slotStep * k)} x

/-- **A bookable start of a date**: its capacity is the greatest of the windows that have it. -/
structure Bookable (zone : Timezone) (rules : List AvailabilityRule) (exceptions : List AvailabilityException)
    (booked : Int → Nat) (now date : Int) (slot : Slot) : Prop where
  later : now < slot.startsAt
  capacity : IsGreatest {c | ∃ w, Effective rules exceptions date w ∧ OnGrid zone date w slot.startsAt ∧ w.capacity = c}
    slot.capacity
  booked : slot.booked = booked slot.startsAt
  free : slot.booked < slot.capacity

theorem OnGrid.shows {x : Int} (h : OnGrid zone date w x) :
    ∃ t, 0 ≤ t ∧ t < day ∧ IsLeast {y | zone.wallOf y = date * day + t} x := by
  obtain ⟨k, hlt, hleast⟩ := h
  refine ⟨_, ?_, Int.lt_trans hlt w.closeTime.lt_day, hleast⟩
  have hopen := w.openTime.nonneg
  simp only [slotStep, Boutique.SLOT_INTERVAL_MINUTES, Boutique.second]
  omega

theorem OnGrid.lt {date' x x' : Int} {w' : Window} (h : OnGrid zone date w x) (h' : OnGrid zone date' w' x')
    (hlt : date < date') : x < x' := by
  obtain ⟨t, ht, htd, hx⟩ := h.shows
  obtain ⟨t', ht', htd', hx'⟩ := h'.shows
  have hwall : date * day + t < date' * day + t' := by
    simp only [day, Boutique.second] at *
    omega
  exact zone.first_lt hx hx' hwall

theorem mem_dates {d : Int} : d ∈ dates a b ↔ a ≤ d ∧ d ≤ b := by
  simp only [dates, List.mem_map, List.mem_range]
  constructor
  · rintro ⟨k, hk, rfl⟩
    omega
  · intro h
    exact ⟨(d - a).toNat, by omega, by omega⟩

theorem mem_offersOn {x : Int} {c : Nat} : (x, c) ∈ offersOn zone rules exceptions now date ↔
    now < x ∧ ∃ w, Effective rules exceptions date w ∧ OnGrid zone date w x ∧ w.capacity = c := by
  simp only [offersOn, List.mem_flatMap, List.mem_filterMap, effective_iff, mem_cursors, Option.map_eq_some_iff,
    Option.filter_eq_some_iff, decide_eq_true_eq, Prod.mk.injEq, toUtc_iff]
  constructor
  · rintro ⟨w, hw, _, ⟨k, rfl, hlt⟩, _, ⟨hleast, hnow⟩, rfl, hc⟩
    exact ⟨hnow, w, hw, ⟨k, hlt, hleast⟩, hc⟩
  · rintro ⟨hnow, w, hw, ⟨k, hlt, hleast⟩, hc⟩
    exact ⟨w, hw, _, ⟨k, rfl, hlt⟩, x, ⟨hleast, hnow⟩, rfl, hc⟩

/-- **The best of the dates is the best of one of them**: no two dates have an instant in common. -/
theorem mem_foundSlots_iff {x : Int} {c : Nat} : (x, c) ∈ foundSlots zone rules exceptions a b now ↔
    ∃ date, a ≤ date ∧ date ≤ b ∧ now < x ∧
      IsGreatest {c' | ∃ w, Effective rules exceptions date w ∧ OnGrid zone date w x ∧ w.capacity = c'} c := by
  rw [mem_foundSlots, Best]
  simp only [List.mem_flatMap, mem_dates, mem_offersOn]
  constructor
  · rintro ⟨⟨date, ⟨ha, hb⟩, hnow, hwindow⟩, hmost⟩
    refine ⟨date, ha, hb, hnow, hwindow, fun c' hc' => ?_⟩
    exact hmost c' ⟨date, ⟨ha, hb⟩, hnow, hc'⟩
  · rintro ⟨date, ha, hb, hnow, hwindow, hmost⟩
    refine ⟨⟨date, ⟨ha, hb⟩, hnow, hwindow⟩, ?_⟩
    rintro c' ⟨date', -, -, w', hw', hgrid', rfl⟩
    obtain ⟨w, -, hgrid, -⟩ := hwindow
    obtain hlt | rfl | hlt := Int.lt_trichotomy date date'
    · exact absurd (hgrid.lt hgrid' hlt) (Int.lt_irrefl x)
    · exact hmost ⟨w', hw', hgrid', rfl⟩
    · exact absurd (hgrid'.lt hgrid hlt) (Int.lt_irrefl x)

theorem mem_materializeSlots {slot : Slot} : slot ∈ materializeSlots zone rules exceptions booked a b now ↔
    ∃ date, a ≤ date ∧ date ≤ b ∧ Bookable zone rules exceptions booked now date slot := by
  simp only [materializeSlots, List.mem_filterMap]
  constructor
  · rintro ⟨⟨x, c⟩, hfound, hslot⟩
    obtain ⟨date, ha, hb, hnow, hgreatest⟩ := mem_foundSlots_iff.1 hfound
    by_cases hfree : booked x < c
    · rw [if_pos hfree] at hslot
      obtain rfl := Option.some.inj hslot
      exact ⟨date, ha, hb, hnow, hgreatest, rfl, hfree⟩
    · simp [hfree] at hslot
  · rintro ⟨date, ha, hb, h⟩
    refine ⟨(slot.startsAt, slot.capacity), mem_foundSlots_iff.2 ⟨date, ha, hb, h.later, h.capacity⟩, ?_⟩
    have hfree : booked slot.startsAt < slot.capacity := by
      rw [← h.booked]
      exact h.free
    rw [if_pos hfree, ← h.booked]

theorem slots_sorted : (materializeSlots zone rules exceptions booked a b now).Pairwise
    fun s s' => s.startsAt < s'.startsAt := by
  have hkeyed : Boutique.Keyed (foundSlots zone rules exceptions a b now) :=
    Boutique.foldl_noteOffer_keyed _ List.Pairwise.nil
  apply List.Pairwise.filterMap _ _ hkeyed
  rintro ⟨x, c⟩ ⟨x', c'⟩ hlt s hs s' hs'
  split at hs
  · split at hs'
    · obtain rfl := Option.some.inj hs
      obtain rfl := Option.some.inj hs'
      exact hlt
    · contradiction
  · contradiction

theorem slots_of_days : materializeSlots zone rules exceptions booked a b now =
    (dates a b).flatMap fun date => materializeSlots zone rules exceptions booked date date now := by
  have hdays : ((dates a b).flatMap fun date => materializeSlots zone rules exceptions booked date date now).Pairwise
      fun s s' => s.startsAt < s'.startsAt := by
    rw [List.pairwise_flatMap]
    refine ⟨fun _ _ => slots_sorted, ?_⟩
    have hdates : (dates a b).Pairwise fun d d' => d < d' := by
      apply List.Pairwise.map _ _ List.pairwise_lt_range
      intro k k' hk
      omega
    apply hdates.imp
    intro d d' hlt s hs s' hs'
    obtain ⟨_, hd, hd', h⟩ := mem_materializeSlots.1 hs
    obtain ⟨_, he, he', h'⟩ := mem_materializeSlots.1 hs'
    obtain ⟨_, -, hgrid, -⟩ := h.capacity.1
    obtain ⟨_, -, hgrid', -⟩ := h'.capacity.1
    exact hgrid.lt hgrid' (by omega)
  have hmem : ∀ slot, slot ∈ materializeSlots zone rules exceptions booked a b now ↔
      slot ∈ (dates a b).flatMap fun date => materializeSlots zone rules exceptions booked date date now := by
    intro slot
    simp only [List.mem_flatMap, mem_materializeSlots, mem_dates]
    constructor
    · rintro ⟨date, ha, hb, h⟩
      exact ⟨date, ⟨ha, hb⟩, date, Int.le_refl _, Int.le_refl _, h⟩
    · rintro ⟨date, ⟨ha, hb⟩, d, hd, hd', h⟩
      exact ⟨d, by omega, by omega, h⟩
  have hnodup : ∀ {l : List Slot}, (l.Pairwise fun s s' => s.startsAt < s'.startsAt) → l.Nodup := by
    intro l hl
    apply hl.imp
    rintro s s' hlt rfl
    exact Int.lt_irrefl _ hlt
  have hperm := (List.perm_ext_iff_of_nodup (hnodup slots_sorted) (hnodup hdays)).2 hmem
  apply hperm.eq_of_pairwise _ slots_sorted hdays
  intro s s' _ _ hlt hgt
  exact absurd (Int.lt_trans hlt hgt) (Int.lt_irrefl _)

/-- **What the grid is**: the starts strictly increasing, those of the effective windows that are still to come and have
room, and the list of its days. -/
theorem materialize_spec (zone : Timezone) (rules : List AvailabilityRule) (exceptions : List AvailabilityException)
    (booked : Int → Nat) (a b now : Int) :
    ((materializeSlots zone rules exceptions booked a b now).Pairwise fun s s' => s.startsAt < s'.startsAt) ∧
      (∀ slot, slot ∈ materializeSlots zone rules exceptions booked a b now ↔
        ∃ date, a ≤ date ∧ date ≤ b ∧ Bookable zone rules exceptions booked now date slot) ∧
      materializeSlots zone rules exceptions booked a b now =
        (dates a b).flatMap fun date => materializeSlots zone rules exceptions booked date date now :=
  ⟨slots_sorted, fun _ => mem_materializeSlots, slots_of_days⟩

end SlotGrid
