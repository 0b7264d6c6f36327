import Boutique.Slots
import Mathlib.Algebra.BigOperators.Group.List.Basic
import Mathlib.Algebra.Order.Field.Basic
import Mathlib.Algebra.Order.Field.Rat
import Mathlib.Data.Finset.Max
import Mathlib.Data.Int.LeastGreatest
import Mathlib.Data.List.Dedup
import Mathlib.Data.List.Sort
import Mathlib.Data.Prod.Lex
import Mathlib.Order.Interval.Set.Defs
/-!
# Dashboard — the history panel, and the label it takes from a tie

Twelve weeks of local days, and six folds over the facts inside them.  The counts do not see the order of the rows; the
label of an appointment type is that of its newest booking, and of two newest ones the row that came first.
-/
namespace Dashboard

open Boutique (BookingStatus BookingCancelledBy day jerusalemDayIndex)

/-! ## The zone -/

/-- **A zone whose clock changes leave midnights alone**: no midnight is jumped over, and none is gone back behind. -/
structure Zone where
  wallOf : Int → Int
  instantOf : Int → Int
  /-- A wall time that is shown is converted to the first instant that shows it. -/
  first : ∀ t, instantOf (wallOf t) ≤ t ∧ wallOf (instantOf (wallOf t)) = wallOf t
  /-- The farthest the wall clock is from UTC. -/
  bound : Int
  bounded : ∀ t, wallOf t - bound ≤ t ∧ t ≤ wallOf t + bound
  unskipped : ∀ t d, wallOf t < d * day → wallOf (t + 1) ≤ d * day
  unrepeated : ∀ t d, d * day ≤ wallOf t → d * day ≤ wallOf (t + 1)

def boutiqueMidnight (zone : Zone) (date : Int) : Int := zone.instantOf (date * day)

/-- The Sunday of the local date of an instant. -/
def weekStartOf (zone : Zone) (instant : Int) : Int :=
  let date := zone.wallOf instant / day
  date - jerusalemDayIndex date

/-! ## The folds -/

variable {Customer TypeId Name : Type}

structure BookingFact (Customer TypeId Name : Type) where
  startsAt : Int
  createdAt : Int
  status : BookingStatus
  cancelledBy : Option BookingCancelledBy
  customerId : Customer
  appointmentTypeId : TypeId
  appointmentTypeName : Name
deriving DecidableEq

abbrev Facts (Customer TypeId Name : Type) : Type := List (BookingFact Customer TypeId Name)

def HISTORY_WEEKS : Nat := 12
def TOP_APPOINTMENT_TYPES : Nat := 5

structure HistoryWindow where
  firstWeekStart : Int
  currentWeekStart : Int
  fromInstant : Int
  untilInstant : Int

def historyWindow (zone : Zone) (today : Int) : HistoryWindow :=
  let currentWeekStart := today - jerusalemDayIndex today
  let firstWeekStart := currentWeekStart - 7 * HISTORY_WEEKS
  ⟨firstWeekStart, currentWeekStart, boutiqueMidnight zone firstWeekStart, boutiqueMidnight zone currentWeekStart⟩

structure WeekBucket where
  weekStart : Int
  bookings : Nat

def kept (fact : BookingFact Customer TypeId Name) : Bool := fact.status ≠ .cancelled

def weekBuckets (zone : Zone) (window : HistoryWindow) (facts : Facts Customer TypeId Name) :
    List WeekBucket :=
  (List.range HISTORY_WEEKS).map fun (i : Nat) =>
    let start := window.firstWeekStart + 7 * i
    ⟨start, facts.countP fun f => kept f ∧ weekStartOf zone f.startsAt = start⟩

structure StatusTotals where
  confirmed : Nat
  cancelled : Nat
  noShow : Nat
  completed : Nat
  pendingPayment : Nat

def statusTotals (facts : Facts Customer TypeId Name) (pendingPayment : Nat) : StatusTotals :=
  let counts := fun status => facts.countP fun f => f.status = status
  ⟨counts .confirmed, counts .cancelled, counts .noShow, counts .completed, pendingPayment⟩

def cancellation (facts : Facts Customer TypeId Name) : Option ℚ × Nat × Nat :=
  let counted := facts.filter fun f => f.cancelledBy ≠ some .expired
  let cancelled := counted.filter fun f => f.status = .cancelled
  let attributed := fun by_ => cancelled.countP fun f => f.cancelledBy = some by_
  (if counted.isEmpty then none else some ((cancelled.length : ℚ) / counted.length), attributed .customer,
    attributed .owner)

def noShowRate (totals : StatusTotals) : Option ℚ :=
  let recorded := totals.noShow + totals.completed
  if recorded = 0 then none else some ((totals.noShow : ℚ) / recorded)

structure AppointmentTypeCount (TypeId Name : Type) where
  appointmentTypeId : TypeId
  name : Name
  bookings : Nat
deriving DecidableEq

def newest [DecidableEq TypeId] (facts : Facts Customer TypeId Name) (typeId : TypeId) :
    Option (BookingFact Customer TypeId Name) :=
  facts.foldl (fun seen fact =>
    if kept fact = true ∧ fact.appointmentTypeId = typeId then
      match seen with
      | none => some fact
      | some s => if s.createdAt < fact.createdAt then some fact else some s
    else seen) none

def types [DecidableEq TypeId] (facts : Facts Customer TypeId Name) : List TypeId :=
  ((facts.filter kept).map BookingFact.appointmentTypeId).dedup

def bookingsOf [DecidableEq TypeId] (facts : Facts Customer TypeId Name) (typeId : TypeId) : Nat :=
  facts.countP fun f => kept f ∧ f.appointmentTypeId = typeId

def typeRow [DecidableEq TypeId] (facts : Facts Customer TypeId Name) (typeId : TypeId) :
    Option (AppointmentTypeCount TypeId Name) :=
  (newest facts typeId).map fun f => ⟨typeId, f.appointmentTypeName, bookingsOf facts typeId⟩

def sortKey (row : AppointmentTypeCount TypeId Name) : Int ×ₗ Name ×ₗ TypeId :=
  toLex (-(row.bookings : Int), toLex (row.name, row.appointmentTypeId))

def topTypes [LinearOrder TypeId] [LinearOrder Name] (facts : Facts Customer TypeId Name) :
    List (AppointmentTypeCount TypeId Name) :=
  (((types facts).filterMap (typeRow facts)).mergeSort fun a b => decide (sortKey a ≤ sortKey b)).take
    TOP_APPOINTMENT_TYPES

structure CustomerHistory where
  firstStartsAt : Int
  bookings : Nat

structure CustomerMix where
  total : Nat
  new_ : Nat
  returning : Nat
  repeatRate : Option ℚ

def cohort [DecidableEq Customer] (facts : Facts Customer TypeId Name) : List Customer :=
  ((facts.filter kept).map BookingFact.customerId).dedup

def seenInWindow [DecidableEq Customer] (facts : Facts Customer TypeId Name) (customerId : Customer) : Nat :=
  facts.countP fun f => kept f ∧ f.customerId = customerId

def firstInWindow [DecidableEq Customer] (facts : Facts Customer TypeId Name) (customerId : Customer) : Option Int :=
  (((facts.filter kept).filter fun f => f.customerId = customerId).map BookingFact.startsAt).min?

def customerMix [DecidableEq Customer] (facts : Facts Customer TypeId Name)
    (history : Customer → Option CustomerHistory) (fromInstant : Int) : CustomerMix :=
  let total := (cohort facts).length
  let new_ := (cohort facts).countP fun c =>
    match history c with
    | some entry => fromInstant ≤ entry.firstStartsAt
    | none => (firstInWindow facts c).any fun first => fromInstant ≤ first
  let repeat_ := (cohort facts).countP fun c =>
    match history c with
    | some entry => 2 ≤ entry.bookings
    | none => 2 ≤ seenInWindow facts c
  ⟨total, new_, total - new_, if total = 0 then none else some ((repeat_ : ℚ) / total)⟩

structure HistoryPanel (TypeId Name : Type) where
  fromDate : Int
  toDate : Int
  weeks : List WeekBucket
  statusTotals : StatusTotals
  cancellationRate : Option ℚ
  cancelledByCustomer : Nat
  cancelledByOwner : Nat
  noShowRate : Option ℚ
  appointmentTypes : List (AppointmentTypeCount TypeId Name)
  customers : CustomerMix

def inWindow (window : HistoryWindow) (f : BookingFact Customer TypeId Name) : Bool :=
  window.fromInstant ≤ f.startsAt ∧ f.startsAt < window.untilInstant

def buildHistory [DecidableEq Customer] [LinearOrder TypeId] [LinearOrder Name] (zone : Zone)
    (window : HistoryWindow) (facts : Facts Customer TypeId Name) (history : Customer → Option CustomerHistory)
    (pendingPayment : Nat) : HistoryPanel TypeId Name :=
  let inWindow := facts.filter (inWindow window)
  let totals := statusTotals inWindow pendingPayment
  let (rate, byCustomer, byOwner) := cancellation inWindow
  ⟨window.firstWeekStart, window.currentWeekStart - 1, weekBuckets zone window inWindow, totals, rate, byCustomer,
    byOwner, noShowRate totals, topTypes inWindow, customerMix inWindow history window.fromInstant⟩

/-- **The history of the dashboard**: a checkout in progress is no appointment. -/
def historyPanel [DecidableEq Customer] [LinearOrder TypeId] [LinearOrder Name] (zone : Zone) (today : Int)
    (windowFacts : Facts Customer TypeId Name)
    (history : Customer → Option CustomerHistory) : HistoryPanel TypeId Name :=
  let facts := windowFacts.filter fun f => f.status ≠ .pendingPayment
  buildHistory zone (historyWindow zone today) facts history (windowFacts.length - facts.length)

/-! ## Midnights -/

variable {t : Int} {α : Type} {f : BookingFact Customer TypeId Name} {q : ℚ} {a : TypeId}

theorem reached_mono (zone : Zone) {d t' : Int} (h : d * day ≤ zone.wallOf t) (hle : t ≤ t') :
    d * day ≤ zone.wallOf t' := by
  induction t', hle using Int.leInduction with
  | base => exact h
  | succ t' _ ih => exact zone.unrepeated t' d ih

/-- **A midnight is crossed once**: an instant is past it exactly when the wall clock shows that day or a later one. -/
theorem midnight_le_iff (zone : Zone) (d t : Int) : boutiqueMidnight zone d ≤ t ↔ d * day ≤ zone.wallOf t := by
  have hlow : ∀ z, d * day ≤ zone.wallOf z → d * day - zone.bound ≤ z := by
    intro z hz
    have hb := (zone.bounded z).1
    omega
  have hhigh : d * day ≤ zone.wallOf (d * day + zone.bound) := by
    have hb := (zone.bounded (d * day + zone.bound)).2
    omega
  obtain ⟨m, hm, hleast⟩ := Int.exists_least_of_bdd ⟨_, hlow⟩ ⟨_, hhigh⟩
  have hbefore : zone.wallOf (m - 1) < d * day := by
    by_contra hnot
    have hle := hleast (m - 1) (by omega)
    omega
  have hat : zone.wallOf m = d * day := by
    have hjump := zone.unskipped (m - 1) d hbefore
    rw [Int.sub_add_cancel] at hjump
    omega
  have hmidnight : boutiqueMidnight zone d = m := by
    obtain ⟨hle, hshown⟩ := zone.first m
    rw [hat] at hle hshown
    exact Int.le_antisymm hle (hleast _ (Int.le_of_eq hshown.symm))
  rw [hmidnight]
  exact ⟨fun hle => reached_mono zone hm hle, hleast t⟩

theorem weekStartOf_iff (zone : Zone) {start : Int} (hsunday : jerusalemDayIndex start = 0) (t : Int) :
    weekStartOf zone t = start ↔ boutiqueMidnight zone start ≤ t ∧ t < boutiqueMidnight zone (start + 7) := by
  rw [← Int.not_le, midnight_le_iff, midnight_le_iff]
  simp only [weekStartOf, jerusalemDayIndex, day, Boutique.second] at *
  omega

variable {zone : Zone} {today : Int}

theorem sunday_week (i : Int) : jerusalemDayIndex ((historyWindow zone today).firstWeekStart + 7 * i) = 0 := by
  simp only [historyWindow, jerusalemDayIndex, HISTORY_WEEKS]
  omega

theorem window_end : (historyWindow zone today).untilInstant =
    boutiqueMidnight zone ((historyWindow zone today).firstWeekStart + 7 * HISTORY_WEEKS) := by
  simp only [historyWindow, Int.sub_add_cancel]

theorem week_of_window (hfrom : (historyWindow zone today).fromInstant ≤ t)
    (huntil : t < (historyWindow zone today).untilInstant) :
    ∃ i : Nat, i < HISTORY_WEEKS ∧ weekStartOf zone t = (historyWindow zone today).firstWeekStart + 7 * i := by
  have hstart := (midnight_le_iff zone (historyWindow zone today).firstWeekStart t).1 hfrom
  rw [window_end, ← Int.not_le, midnight_le_iff] at huntil
  have hsunday : jerusalemDayIndex ((historyWindow zone today).firstWeekStart + 7 * 0) = 0 := sunday_week 0
  generalize (historyWindow zone today).firstWeekStart = start at *
  refine ⟨((weekStartOf zone t - start) / 7).toNat, ?_, ?_⟩
  all_goals
    simp only [weekStartOf, jerusalemDayIndex, HISTORY_WEEKS, day, Boutique.second] at *
    omega

/-! ## The counts -/

variable {facts facts' : Facts Customer TypeId Name} {history : Customer → Option CustomerHistory}

theorem countP_eq_sum (p : α → Bool) (l : List α) :
    l.countP p = (l.map fun a => if p a = true then 1 else 0).sum := by
  induction l with
  | nil => rfl
  | cons a l ih => rw [List.countP_cons, List.map_cons, List.sum_cons, ih, Nat.add_comm]

/-- **One place for each**: where every kept fact has one place, the places' counts sum to that of the kept facts. -/
theorem sum_countP (keep : α → Bool) (place : Nat → α → Bool) (n : Nat) (l : List α)
    (h : ∀ a ∈ l, keep a = true → (List.range n).countP (fun i => place i a) = 1) :
    ((List.range n).map fun i => l.countP fun a => keep a && place i a).sum = l.countP keep := by
  induction l with
  | nil => simp
  | cons a l ih =>
    have ih := ih fun b hb => h b (List.mem_cons_of_mem a hb)
    have hone : ((List.range n).map fun i => if (keep a && place i a) = true then 1 else 0).sum =
        if keep a = true then 1 else 0 := by
      cases hkeep : keep a with
      | false => simp
      | true =>
        have hplace := h a List.mem_cons_self hkeep
        rw [countP_eq_sum] at hplace
        simpa using hplace
    simp only [List.countP_cons, List.sum_map_add, ih, hone]

def reported (zone : Zone) (today : Int) (windowFacts : Facts Customer TypeId Name) :
    Facts Customer TypeId Name :=
  (windowFacts.filter fun f => f.status ≠ .pendingPayment).filter (inWindow (historyWindow zone today))

def IsRate (q : ℚ) : Prop := (∃ n m : Nat, 0 < m ∧ q = (n : ℚ) / m) ∧ 0 ≤ q ∧ q ≤ 1

theorem isRate_div {n m : Nat} (hm : 0 < m) (hle : n ≤ m) : IsRate ((n : ℚ) / m) := by
  have hm' : (0 : ℚ) < m := by exact_mod_cast hm
  refine ⟨⟨n, m, hm, rfl⟩, ?_, ?_⟩
  · exact div_nonneg (by exact_mod_cast n.zero_le) hm'.le
  · rw [div_le_one hm']
    exact_mod_cast hle

/-- The bucket of a week counts the kept facts between its midnights. -/
def weekCount (zone : Zone) (facts : Facts Customer TypeId Name) (start : Int) : Nat :=
  facts.countP fun f =>
    kept f ∧ boutiqueMidnight zone start ≤ f.startsAt ∧ f.startsAt < boutiqueMidnight zone (start + 7)

/-- **The history adds up.** -/
structure AddsUp [DecidableEq Customer] (zone : Zone) (today : Int) (facts : Facts Customer TypeId Name)
    (panel : HistoryPanel TypeId Name) : Prop where
  placed : ∀ f ∈ facts, kept f = true → ∃! i : Nat, i < HISTORY_WEEKS ∧
    boutiqueMidnight zone ((historyWindow zone today).firstWeekStart + 7 * i) ≤ f.startsAt ∧
      f.startsAt < boutiqueMidnight zone ((historyWindow zone today).firstWeekStart + 7 * i + 7)
  weeks : panel.weeks = (List.range HISTORY_WEEKS).map fun (i : Nat) =>
    ⟨(historyWindow zone today).firstWeekStart + 7 * i,
      weekCount zone facts ((historyWindow zone today).firstWeekStart + 7 * i)⟩
  total : (panel.weeks.map WeekBucket.bookings).sum =
    panel.statusTotals.confirmed + panel.statusTotals.noShow + panel.statusTotals.completed
  attributed : panel.cancelledByCustomer + panel.cancelledByOwner ≤ panel.statusTotals.cancelled
  rates : ∀ rate ∈ [panel.cancellationRate, panel.noShowRate, panel.customers.repeatRate], ∀ q, rate = some q → IsRate q
  cohort : panel.customers.total = ((facts.filter kept).map BookingFact.customerId).toFinset.card

theorem weekBuckets_eq (zone : Zone) (today : Int) (facts : Facts Customer TypeId Name) :
    weekBuckets zone (historyWindow zone today) facts = (List.range HISTORY_WEEKS).map fun (i : Nat) =>
      ⟨(historyWindow zone today).firstWeekStart + 7 * i,
        weekCount zone facts ((historyWindow zone today).firstWeekStart + 7 * i)⟩ := by
  apply List.map_congr_left
  intro i _
  simp only [weekCount, weekStartOf_iff zone (sunday_week _)]

theorem placed (hfrom : (historyWindow zone today).fromInstant ≤ t)
    (huntil : t < (historyWindow zone today).untilInstant) : ∃! i : Nat, i < HISTORY_WEEKS ∧
      boutiqueMidnight zone ((historyWindow zone today).firstWeekStart + 7 * i) ≤ t ∧
        t < boutiqueMidnight zone ((historyWindow zone today).firstWeekStart + 7 * i + 7) := by
  obtain ⟨i, hi, hweek⟩ := week_of_window hfrom huntil
  refine ⟨i, ⟨hi, (weekStartOf_iff zone (sunday_week i) t).1 hweek⟩, ?_⟩
  rintro j ⟨-, hj⟩
  have hweek' := (weekStartOf_iff zone (sunday_week j) t).2 hj
  omega

theorem countP_kept (h : ∀ f ∈ facts, f.status ≠ .pendingPayment) :
    facts.countP kept = (facts.countP fun f => f.status = .confirmed) + (facts.countP fun f => f.status = .noShow) +
      facts.countP fun f => f.status = .completed := by
  induction facts with
  | nil => rfl
  | cons f facts ih =>
    have ih := ih fun g hg => h g (List.mem_cons_of_mem f hg)
    simp only [List.countP_cons, ih]
    cases hstatus : f.status <;> simp_all [kept] <;> omega

theorem mem_reported {windowFacts : Facts Customer TypeId Name} (h : f ∈ reported zone today windowFacts) :
    f.status ≠ .pendingPayment ∧
      (historyWindow zone today).fromInstant ≤ f.startsAt ∧ f.startsAt < (historyWindow zone today).untilInstant := by
  obtain ⟨h, hwindow⟩ := List.mem_filter.1 h
  exact ⟨of_decide_eq_true (List.mem_filter.1 h).2, of_decide_eq_true hwindow⟩

theorem buckets_total (windowFacts : Facts Customer TypeId Name) :
    ((weekBuckets zone (historyWindow zone today) (reported zone today windowFacts)).map WeekBucket.bookings).sum =
      (reported zone today windowFacts).countP kept := by
  have hsum := sum_countP kept (fun i f => decide (weekStartOf zone f.startsAt =
    (historyWindow zone today).firstWeekStart + 7 * (i : Int))) HISTORY_WEEKS (reported zone today windowFacts) (by
      intro f hf _
      obtain ⟨-, hfrom, huntil⟩ := mem_reported hf
      obtain ⟨i, hi, hweek⟩ := week_of_window hfrom huntil
      have hplace : ∀ j ∈ List.range HISTORY_WEEKS, decide (weekStartOf zone f.startsAt =
          (historyWindow zone today).firstWeekStart + 7 * (j : Int)) = true ↔ (j == i) = true := by
        intro j _
        rw [decide_eq_true_eq, hweek, beq_iff_eq]
        omega
      rw [List.countP_congr hplace, ← List.count]
      exact List.count_eq_one_of_mem List.nodup_range (List.mem_range.2 hi))
  rw [weekBuckets, List.map_map, ← hsum]
  simp [Function.comp_def]

theorem attributed_le (facts : Facts Customer TypeId Name) :
    (cancellation facts).2.1 + (cancellation facts).2.2 ≤ facts.countP fun f => f.status = .cancelled := by
  simp only [cancellation, List.countP_filter]
  induction facts with
  | nil => rfl
  | cons f facts ih =>
    simp only [List.countP_cons]
    cases hby : f.cancelledBy with
    | none => cases hstatus : f.status <;> simp_all; omega
    | some by_ => cases hstatus : f.status <;> cases by_ <;> simp_all; all_goals omega

theorem cancellation_rate (h : (cancellation facts).1 = some q) : IsRate q := by
  simp only [cancellation] at h
  split at h
  · contradiction
  · rename_i hne
    obtain rfl := Option.some.inj h
    apply isRate_div
    · exact List.length_pos_iff.2 fun hnil => hne (List.isEmpty_iff.2 hnil)
    · exact List.length_filter_le _ _

theorem noShow_rate {totals : StatusTotals} (h : noShowRate totals = some q) : IsRate q := by
  simp only [noShowRate] at h
  split at h
  · contradiction
  · obtain rfl := Option.some.inj h
    have hrate := isRate_div (show 0 < totals.noShow + totals.completed by omega) (Nat.le_add_right _ _)
    exact hrate

theorem repeat_rate [DecidableEq Customer] {history : Customer → Option CustomerHistory} {start : Int}
    (h : (customerMix facts history start).repeatRate = some q) : IsRate q := by
  simp only [customerMix] at h
  split at h
  · contradiction
  · obtain rfl := Option.some.inj h
    exact isRate_div (by omega) List.countP_le_length

theorem adds_up [DecidableEq Customer] [LinearOrder TypeId] [LinearOrder Name] (zone : Zone) (today : Int)
    (windowFacts : Facts Customer TypeId Name) (history : Customer → Option CustomerHistory) :
    AddsUp zone today (reported zone today windowFacts) (historyPanel zone today windowFacts history) where
  placed f hf _ := by
    obtain ⟨-, hfrom, huntil⟩ := mem_reported hf
    exact placed hfrom huntil
  weeks := weekBuckets_eq zone today (reported zone today windowFacts)
  total := (buckets_total windowFacts).trans (countP_kept fun f hf => (mem_reported hf).1)
  attributed := attributed_le (reported zone today windowFacts)
  rates rate hrate q hq := by
    simp only [List.mem_cons, List.not_mem_nil, or_false] at hrate
    obtain rfl | rfl | rfl := hrate
    · exact cancellation_rate hq
    · exact noShow_rate hq
    · exact repeat_rate hq
  cohort := (List.card_toFinset _).symm

/-! ## The newest booking of a type -/

def Newest (facts : Facts Customer TypeId Name) (f : BookingFact Customer TypeId Name) : Prop :=
  f ∈ facts ∧ kept f = true ∧
    ∀ g ∈ facts, kept g = true → g.appointmentTypeId = f.appointmentTypeId → g.createdAt ≤ f.createdAt

theorem newest_perm (h : facts.Perm facts') : Newest facts f ↔ Newest facts' f := by
  simp only [Newest, h.mem_iff]

section newest

variable [DecidableEq TypeId] {typeId : TypeId} {f : BookingFact Customer TypeId Name}
  {row : AppointmentTypeCount TypeId Name}

theorem newest_append (facts : Facts Customer TypeId Name) (g : BookingFact Customer TypeId Name)
    (typeId : TypeId) : newest (facts ++ [g]) typeId =
      if kept g = true ∧ g.appointmentTypeId = typeId then
        match newest facts typeId with
        | none => some g
        | some s => if s.createdAt < g.createdAt then some g else some s
      else newest facts typeId := by
  simp only [newest, List.foldl_append, List.foldl_cons, List.foldl_nil]

theorem newest_spec (facts : Facts Customer TypeId Name) (typeId : TypeId) :
    (newest facts typeId = none ∧ ∀ g ∈ facts, kept g = true → g.appointmentTypeId ≠ typeId) ∨
      ∃ f, newest facts typeId = some f ∧ Newest facts f ∧ f.appointmentTypeId = typeId := by
  induction facts using List.reverseRecOn with
  | nil => exact .inl ⟨rfl, by simp⟩
  | append_singleton facts g ih =>
    rw [newest_append]
    by_cases hg : kept g = true ∧ g.appointmentTypeId = typeId
    · rw [if_pos hg]
      refine .inr ?_
      obtain ⟨hnone, hother⟩ | ⟨f, hsome, ⟨hf, hkept, hmost⟩, htype⟩ := ih
      · refine ⟨g, by rw [hnone], ⟨by simp, hg.1, fun h hh hk ht => ?_⟩, hg.2⟩
        obtain hh | hh := List.mem_append.1 hh
        · exact absurd (ht.trans hg.2) (hother h hh hk)
        · exact Int.le_of_eq (congrArg _ (List.mem_singleton.1 hh))
      · rw [hsome]
        by_cases hlt : f.createdAt < g.createdAt
        · refine ⟨g, if_pos hlt, ⟨by simp, hg.1, fun h hh hk ht => ?_⟩, hg.2⟩
          obtain hh | hh := List.mem_append.1 hh
          · have hle := hmost h hh hk (ht.trans (hg.2.trans htype.symm))
            omega
          · exact Int.le_of_eq (congrArg _ (List.mem_singleton.1 hh))
        · refine ⟨f, if_neg hlt, ⟨by simp [hf], hkept, fun h hh hk ht => ?_⟩, htype⟩
          obtain hh | hh := List.mem_append.1 hh
          · exact hmost h hh hk ht
          · obtain rfl := List.mem_singleton.1 hh
            omega
    · rw [if_neg hg]
      obtain ⟨hnone, hother⟩ | ⟨f, hsome, ⟨hf, hkept, hmost⟩, htype⟩ := ih
      · refine .inl ⟨hnone, fun h hh hk ht => ?_⟩
        obtain hh | hh := List.mem_append.1 hh
        · exact hother h hh hk ht
        · obtain rfl := List.mem_singleton.1 hh
          exact hg ⟨hk, ht⟩
      · refine .inr ⟨f, hsome, ⟨by simp [hf], hkept, fun h hh hk ht => ?_⟩, htype⟩
        obtain hh | hh := List.mem_append.1 hh
        · exact hmost h hh hk ht
        · obtain rfl := List.mem_singleton.1 hh
          exact absurd ⟨hk, ht.trans htype⟩ hg

theorem newest_of_some (h : newest facts typeId = some f) : Newest facts f ∧ f.appointmentTypeId = typeId := by
  obtain ⟨hnone, -⟩ | ⟨f', hsome, hnewest, htype⟩ := newest_spec facts typeId
  · rw [hnone] at h
    contradiction
  · obtain rfl := Option.some.inj (hsome.symm.trans h)
    exact ⟨hnewest, htype⟩

theorem mem_types : typeId ∈ types facts ↔ ∃ f ∈ facts, kept f = true ∧ f.appointmentTypeId = typeId := by
  simp only [types, List.mem_dedup, List.mem_map, List.mem_filter, and_assoc]

theorem newest_of_type (h : typeId ∈ types facts) : ∃ f, newest facts typeId = some f := by
  obtain ⟨g, hg, hkept, htype⟩ := mem_types.1 h
  obtain ⟨-, hother⟩ | ⟨f, hsome, -⟩ := newest_spec facts typeId
  · exact absurd htype (hother g hg hkept)
  · exact ⟨f, hsome⟩

/-- **The first of the newest is kept**: what stands before decides, where nothing newer follows. -/
theorem newest_front {front back : Facts Customer TypeId Name} (hfront : newest front typeId = some f)
    (hback : ∀ g ∈ back, kept g = true → g.appointmentTypeId = typeId → g.createdAt ≤ f.createdAt) :
    newest (front ++ back) typeId = some f := by
  induction back using List.reverseRecOn with
  | nil => simpa using hfront
  | append_singleton back g ih =>
    have ih := ih fun h hh => hback h (List.mem_append_left _ hh)
    rw [← List.append_assoc, newest_append, ih]
    by_cases hg : kept g = true ∧ g.appointmentTypeId = typeId
    · have hle := hback g (by simp) hg.1 hg.2
      rw [if_pos hg]
      exact if_neg (by omega)
    · rw [if_neg hg]

theorem typeRow_eq (h : typeRow facts typeId = some row) : ∃ f, Newest facts f ∧ f.appointmentTypeId = typeId ∧
    row = ⟨typeId, f.appointmentTypeName, bookingsOf facts typeId⟩ := by
  obtain ⟨f, hf, rfl⟩ := Option.map_eq_some_iff.1 h
  obtain ⟨hnewest, htype⟩ := newest_of_some hf
  exact ⟨f, hnewest, htype, rfl⟩

def typeRows (facts : Facts Customer TypeId Name) : List (AppointmentTypeCount TypeId Name) :=
  (types facts).filterMap (typeRow facts)

theorem mem_typeRows : row ∈ typeRows facts ↔
    row.appointmentTypeId ∈ types facts ∧ typeRow facts row.appointmentTypeId = some row := by
  rw [typeRows, List.mem_filterMap]
  constructor
  · rintro ⟨typeId, htype, hrow⟩
    obtain ⟨f, -, -, rfl⟩ := typeRow_eq hrow
    exact ⟨htype, hrow⟩
  · rintro ⟨htype, hrow⟩
    exact ⟨_, htype, hrow⟩

theorem typeRows_ids (facts : Facts Customer TypeId Name) :
    ((typeRows facts).map AppointmentTypeCount.appointmentTypeId).Nodup := by
  rw [List.Nodup, List.pairwise_map]
  apply List.Pairwise.filterMap _ _ (List.nodup_dedup _)
  intro a b hab r hr r' hr' heq
  obtain ⟨_, -, -, rfl⟩ := typeRow_eq hr
  obtain ⟨_, -, -, rfl⟩ := typeRow_eq hr'
  exact hab heq

theorem types_perm (h : facts.Perm facts') : (types facts).Perm (types facts') :=
  List.Perm.dedup ((h.filter _).map _)

theorem bookingsOf_perm (h : facts.Perm facts') (typeId : TypeId) :
    bookingsOf facts typeId = bookingsOf facts' typeId :=
  h.countP_eq _

/-- **Any newest bookings can come first**: an order of the facts whose labels are theirs. -/
theorem arranged [DecidableEq (BookingFact Customer TypeId Name)] (c : TypeId → BookingFact Customer TypeId Name)
    (hc : ∀ a ∈ types facts, Newest facts (c a) ∧ (c a).appointmentTypeId = a) (ha : a ∈ types facts) :
    newest ((facts.filter fun f => f = c f.appointmentTypeId) ++
      facts.filter fun f => !decide (f = c f.appointmentTypeId)) a = some (c a) := by
  obtain ⟨⟨hin, hkept, hmost⟩, htype⟩ := hc a ha
  apply newest_front
  · obtain ⟨-, hnone⟩ | ⟨f, hf, ⟨hmem, -, -⟩, hid⟩ :=
      newest_spec (facts.filter fun f => f = c f.appointmentTypeId) a
    · refine absurd htype (hnone (c a) ?_ hkept)
      rw [List.mem_filter, htype]
      exact ⟨hin, decide_eq_true rfl⟩
    · have hchosen := of_decide_eq_true (List.mem_filter.1 hmem).2
      rw [hf, hchosen, hid]
  · intro g hg hk hid
    exact hmost g (List.mem_filter.1 hg).1 hk (hid.trans htype.symm)

theorem typeRow_chosen {c : TypeId → BookingFact Customer TypeId Name} (hperm : facts.Perm facts')
    (hc : ∀ a ∈ types facts, newest facts' a = some (c a)) (ha : a ∈ types facts) :
    typeRow facts' a = some ⟨a, (c a).appointmentTypeName, bookingsOf facts a⟩ := by
  rw [typeRow, hc a ha, bookingsOf_perm hperm]
  rfl

end newest

/-! ## The first of a ranking -/

theorem mem_take_iff {β : Type} [LinearOrder β] (key : α → β) (x : α) :
    ∀ (l : List α) (k : Nat), (l.Pairwise fun a b => key a < key b) →
      (x ∈ l.take k ↔ x ∈ l ∧ (l.countP fun a => key a < key x) < k)
  | [], k, _ => by simp
  | a :: l, 0, _ => by simp
  | a :: l, k + 1, h => by
    obtain ⟨ha, hl⟩ := List.pairwise_cons.1 h
    rw [List.take_succ_cons, List.mem_cons, List.mem_cons, mem_take_iff key x l k hl, List.countP_cons]
    by_cases hax : x = a
    · subst hax
      have hnone : (l.countP fun b => key b < key x) = 0 := by
        rw [List.countP_eq_zero]
        intro b hb
        simpa using (ha b hb).le
      simp [hnone]
    · by_cases hx : x ∈ l
      · have hlt := ha x hx
        simp [hax, hx, hlt]
      · simp [hax, hx]

theorem take_filter (p : α → Bool) : ∀ (l : List α) (k : Nat), (∀ a ∈ l.take k, p a = true) →
    l.take k = (l.filter p).take k
  | [], k, _ => by simp
  | a :: l, 0, _ => by simp
  | a :: l, k + 1, h => by
    have ha : p a = true := h a (by simp)
    rw [List.take_succ_cons, List.filter_cons_of_pos ha, List.take_succ_cons,
      take_filter p l k fun b hb => h b (by simp [hb])]

section ranking

variable {row row' : AppointmentTypeCount TypeId Name}

theorem sortKey_injective (h : sortKey row = sortKey row') : row = row' := by
  obtain ⟨id, name, bookings⟩ := row
  obtain ⟨id', name', bookings'⟩ := row'
  have hkey := congrArg ofLex h
  simp only [sortKey, ofLex_toLex, Prod.mk.injEq, neg_inj, Nat.cast_inj, toLex_inj] at hkey
  obtain ⟨rfl, rfl, rfl⟩ := hkey
  rfl

variable [LinearOrder TypeId] [LinearOrder Name] {typeId : TypeId}

def ranking (facts : Facts Customer TypeId Name) : List (AppointmentTypeCount TypeId Name) :=
  (typeRows facts).mergeSort fun a b => decide (sortKey a ≤ sortKey b)

theorem sortKey_lt : sortKey row < sortKey row' ↔ row'.bookings < row.bookings ∨
    row.bookings = row'.bookings ∧ (row.name < row'.name ∨
      row.name = row'.name ∧ row.appointmentTypeId < row'.appointmentTypeId) := by
  simp only [sortKey, Prod.Lex.toLex_lt_toLex, neg_lt_neg_iff, neg_inj, Nat.cast_lt, Nat.cast_inj]

theorem ranking_perm (facts : Facts Customer TypeId Name) : (ranking facts).Perm (typeRows facts) :=
  List.mergeSort_perm _ _

theorem ranking_sorted (facts : Facts Customer TypeId Name) :
    (ranking facts).Pairwise fun a b => sortKey a < sortKey b := by
  have hsorted : (ranking facts).Pairwise fun a b => decide (sortKey a ≤ sortKey b) = true := by
    apply List.pairwise_mergeSort
    · intro a b c hab hbc
      exact decide_eq_true ((of_decide_eq_true hab).trans (of_decide_eq_true hbc))
    · intro a b
      simpa using le_total (sortKey a) (sortKey b)
  have hnodup : (ranking facts).Nodup := (ranking_perm facts).nodup_iff.2 (typeRows_ids facts).of_map
  apply (hsorted.and hnodup).imp
  rintro a b ⟨hle, hne⟩
  exact lt_of_le_of_ne (of_decide_eq_true hle) fun heq => hne (sortKey_injective heq)

theorem mem_topTypes : row ∈ topTypes facts ↔
    row ∈ typeRows facts ∧ ((typeRows facts).countP fun r => sortKey r < sortKey row) < TOP_APPOINTMENT_TYPES := by
  have htake := mem_take_iff sortKey row (ranking facts) TOP_APPOINTMENT_TYPES (ranking_sorted facts)
  rw [(ranking_perm facts).mem_iff, (ranking_perm facts).countP_eq] at htake
  exact htake

def Ambiguous (facts : Facts Customer TypeId Name) (typeId : TypeId) : Prop :=
  ∃ f g, Newest facts f ∧ Newest facts g ∧ f.appointmentTypeId = typeId ∧ g.appointmentTypeId = typeId ∧
    f.appointmentTypeName ≠ g.appointmentTypeName

/-- One type is before another whatever they are called: busier, or as busy and of an earlier name or id by every name
that its newest bookings and the other's have. -/
def Before (facts : Facts Customer TypeId Name) (a b : TypeId) : Prop :=
  bookingsOf facts b < bookingsOf facts a ∨
    bookingsOf facts a = bookingsOf facts b ∧ ∀ f g, Newest facts f → Newest facts g → f.appointmentTypeId = a →
      g.appointmentTypeId = b → f.appointmentTypeName < g.appointmentTypeName ∨
        f.appointmentTypeName = g.appointmentTypeName ∧ a < b

/-- **Every ambiguous type has five others before it.** -/
def Settled (facts : Facts Customer TypeId Name) : Prop :=
  ∀ typeId, Ambiguous facts typeId → ∃ ahead : Finset TypeId, ahead.card = TOP_APPOINTMENT_TYPES ∧
    ∀ a ∈ ahead, a ∈ types facts ∧ Before facts a typeId

/-! ## Where the label cannot depend on the order -/

theorem typeRow_perm (h : facts.Perm facts') (hone : ¬Ambiguous facts typeId) :
    typeRow facts typeId = typeRow facts' typeId := by
  by_cases htype : typeId ∈ types facts
  · obtain ⟨f, hf⟩ := newest_of_type htype
    obtain ⟨f', hf'⟩ := newest_of_type ((types_perm h).mem_iff.1 htype)
    obtain ⟨hnewest, heq⟩ := newest_of_some hf
    obtain ⟨hnewest', heq'⟩ := newest_of_some hf'
    have hname : f.appointmentTypeName = f'.appointmentTypeName := by
      by_contra hne
      exact hone ⟨f, f', hnewest, (newest_perm h).2 hnewest', heq, heq', hne⟩
    simp only [typeRow, hf, hf', Option.map_some, hname, bookingsOf_perm h]
  · have hnone : ∀ {facts : Facts Customer TypeId Name}, typeId ∉ types facts → typeRow facts typeId = none := by
      intro facts hout
      cases hrow : typeRow facts typeId with
      | none => rfl
      | some row =>
        obtain ⟨f, ⟨hf, hkept, -⟩, hid, -⟩ := typeRow_eq hrow
        exact absurd (mem_types.2 ⟨f, hf, hkept, hid⟩) hout
    rw [hnone htype, hnone fun h' => htype ((types_perm h).mem_iff.2 h')]

theorem shown_unambiguous (hsettled : Settled facts) (h : row ∈ topTypes facts) :
    ¬Ambiguous facts row.appointmentTypeId := by
  intro hambiguous
  obtain ⟨ahead, hcard, hahead⟩ := hsettled _ hambiguous
  obtain ⟨hrow, hfew⟩ := mem_topTypes.1 h
  obtain ⟨g, hg, hgid, hgrow⟩ := typeRow_eq (mem_typeRows.1 hrow).2
  have hsub : ahead ⊆ (((typeRows facts).filter fun r => sortKey r < sortKey row).map
      AppointmentTypeCount.appointmentTypeId).toFinset := by
    intro a ha
    obtain ⟨hin, hbefore⟩ := hahead a ha
    obtain ⟨f, hf⟩ := newest_of_type hin
    obtain ⟨hnewest, hid⟩ := newest_of_some hf
    have hrow' : typeRow facts a = some ⟨a, f.appointmentTypeName, bookingsOf facts a⟩ := by rw [typeRow, hf]; rfl
    rw [List.mem_toFinset, List.mem_map]
    refine ⟨⟨a, f.appointmentTypeName, bookingsOf facts a⟩, List.mem_filter.2 ⟨mem_typeRows.2 ⟨hin, hrow'⟩, ?_⟩, rfl⟩
    rw [decide_eq_true_eq, sortKey_lt, hgrow]
    obtain hmore | ⟨hsame, hnames⟩ := hbefore
    · exact .inl hmore
    · exact .inr ⟨hsame, hnames f g hnewest hg hid hgid⟩
  have hle := (Finset.card_le_card hsub).trans (List.toFinset_card_le _)
  rw [List.length_map, ← List.countP_eq_length_filter, hcard] at hle
  omega

theorem settled_perm (h : facts.Perm facts') (hsettled : Settled facts) : Settled facts' := by
  intro typeId hambiguous
  simp only [Ambiguous, ← newest_perm h] at hambiguous
  obtain ⟨ahead, hcard, hahead⟩ := hsettled typeId hambiguous
  refine ⟨ahead, hcard, fun a ha => ?_⟩
  obtain ⟨htype, hbefore⟩ := hahead a ha
  refine ⟨(types_perm h).mem_iff.1 htype, ?_⟩
  simpa only [Before, ← newest_perm h, ← bookingsOf_perm h] using hbefore

theorem topTypes_perm (h : facts.Perm facts') (hsettled : Settled facts) : topTypes facts = topTypes facts' := by
  classical
  let p : AppointmentTypeCount TypeId Name → Bool := fun r => ¬Ambiguous facts r.appointmentTypeId
  have hleft : ∀ r ∈ topTypes facts, p r = true := by
    intro r hr
    exact decide_eq_true (shown_unambiguous hsettled hr)
  have hright : ∀ r ∈ topTypes facts', p r = true := by
    intro r hr
    have hr := shown_unambiguous (settled_perm h hsettled) hr
    simp only [Ambiguous, ← newest_perm h] at hr
    exact decide_eq_true hr
  have hrows : ((typeRows facts).filter p).Perm ((typeRows facts').filter p) := by
    rw [typeRows, typeRows, List.filter_filterMap, List.filter_filterMap]
    have hsame : ∀ typeId ∈ types facts, ((typeRow facts typeId).filter p) = ((typeRow facts' typeId).filter p) := by
      intro typeId _
      by_cases hone : Ambiguous facts typeId
      · have hout : ∀ {l : Facts Customer TypeId Name}, (typeRow l typeId).filter p = none := by
          intro l
          rw [Option.filter_eq_none_iff]
          intro r hr
          obtain ⟨_, -, -, rfl⟩ := typeRow_eq hr
          simp [p, hone]
        rw [hout, hout]
      · rw [typeRow_perm h hone]
    rw [List.filterMap_congr hsame]
    exact (types_perm h).filterMap _
  have hranking : (ranking facts).filter p = (ranking facts').filter p := by
    have hperm : ((ranking facts).filter p).Perm ((ranking facts').filter p) :=
      ((ranking_perm facts).filter p).trans (hrows.trans ((ranking_perm facts').filter p).symm)
    apply hperm.eq_of_pairwise _ ((ranking_sorted facts).filter p) ((ranking_sorted facts').filter p)
    intro a b _ _ hab hba
    exact absurd (hab.trans hba) (lt_irrefl _)
  calc topTypes facts = ((ranking facts).filter p).take TOP_APPOINTMENT_TYPES := take_filter p _ _ hleft
    _ = ((ranking facts').filter p).take TOP_APPOINTMENT_TYPES := by rw [hranking]
    _ = topTypes facts' := (take_filter p _ _ hright).symm

/-! ## Where it does -/

/-- **Among the newest of a type** there is one of the greatest name, and one of the least. -/
theorem extremes (h : typeId ∈ types facts) :
    (∃ f, (Newest facts f ∧ f.appointmentTypeId = typeId) ∧ ∀ g, Newest facts g → g.appointmentTypeId = typeId →
        g.appointmentTypeName ≤ f.appointmentTypeName) ∧
      ∃ f, (Newest facts f ∧ f.appointmentTypeId = typeId) ∧ ∀ g, Newest facts g → g.appointmentTypeId = typeId →
        f.appointmentTypeName ≤ g.appointmentTypeName := by
  classical
  let candidates := facts.toFinset.filter fun f => Newest facts f ∧ f.appointmentTypeId = typeId
  have hmem : ∀ f, f ∈ candidates ↔ Newest facts f ∧ f.appointmentTypeId = typeId := by
    intro f
    rw [Finset.mem_filter, List.mem_toFinset]
    exact ⟨fun h => h.2, fun h => ⟨h.1.1, h⟩⟩
  obtain ⟨f0, hf0⟩ := newest_of_type h
  have hne : candidates.Nonempty := ⟨f0, (hmem f0).2 (newest_of_some hf0)⟩
  obtain ⟨f, hf, hmax⟩ := candidates.exists_max_image BookingFact.appointmentTypeName hne
  obtain ⟨f', hf', hmin⟩ := candidates.exists_min_image BookingFact.appointmentTypeName hne
  exact ⟨⟨f, (hmem f).1 hf, fun g hg hid => hmax g ((hmem g).2 ⟨hg, hid⟩)⟩,
    ⟨f', (hmem f').1 hf', fun g hg hid => hmin g ((hmem g).2 ⟨hg, hid⟩)⟩⟩

theorem before_of_names {b : TypeId} {x y : Name}
    (hx : ∀ f, Newest facts f → f.appointmentTypeId = a → f.appointmentTypeName ≤ x)
    (hy : ∀ g, Newest facts g → g.appointmentTypeId = b → y ≤ g.appointmentTypeName)
    (hlt : sortKey (⟨a, x, bookingsOf facts a⟩ : AppointmentTypeCount TypeId Name) <
      sortKey ⟨b, y, bookingsOf facts b⟩) : Before facts a b := by
  obtain hmore | ⟨hsame, hnames⟩ := sortKey_lt.1 hlt
  · exact .inl hmore
  · refine .inr ⟨hsame, fun f g hf hg hfa hgb => ?_⟩
    have hfx := hx f hf hfa
    have hyg := hy g hg hgb
    obtain hxy | ⟨hxy, hab⟩ := hnames
    · exact .inl (hfx.trans_lt (lt_of_lt_of_le hxy hyg))
    · obtain hlt | heq := lt_or_eq_of_le (hfx.trans (hxy.le.trans hyg))
      · exact .inl hlt
      · exact .inr ⟨heq, hab⟩

theorem settled_of_perm (h : ∀ p : BookingFact Customer TypeId Name → Bool,
    topTypes (facts.filter p ++ facts.filter fun f => !p f) = topTypes facts) : Settled facts := by
  classical
  intro typeId hambiguous
  by_contra hnot
  obtain ⟨f1, f2, hf1, hf2, hid1, hid2, hdiffer⟩ := hambiguous
  have htype : typeId ∈ types facts := mem_types.2 ⟨f1, hf1.1, hf1.2.1, hid1⟩
  -- fewer than five types are before it whatever they are called
  let ahead : Finset TypeId := (types facts).toFinset.filter fun a => Before facts a typeId
  have hfew : ahead.card < TOP_APPOINTMENT_TYPES := by
    by_contra hmany
    obtain ⟨five, hsub, hcard⟩ := Finset.exists_subset_card_eq (Nat.le_of_not_lt hmany)
    refine hnot ⟨five, hcard, fun a ha => ?_⟩
    obtain ⟨hin, hbefore⟩ := Finset.mem_filter.1 (hsub ha)
    exact ⟨List.mem_toFinset.1 hin, hbefore⟩
  -- the others under their last names, and the type under its first
  obtain ⟨low, ⟨hlow, hlowid⟩, hleast⟩ := (extremes htype).2
  have hothers : ∀ a, ∃ f, a ∈ types facts → (Newest facts f ∧ f.appointmentTypeId = a) ∧
      ∀ g, Newest facts g → g.appointmentTypeId = a → g.appointmentTypeName ≤ f.appointmentTypeName := by
    intro a
    by_cases ha : a ∈ types facts
    · obtain ⟨f, hf⟩ := (extremes ha).1
      exact ⟨f, fun _ => hf⟩
    · exact ⟨f1, fun h => absurd h ha⟩
  choose high hhigh using hothers
  obtain ⟨other, hother, hotherid, hne⟩ : ∃ f, Newest facts f ∧ f.appointmentTypeId = typeId ∧
      f.appointmentTypeName ≠ low.appointmentTypeName := by
    by_cases hlow1 : f1.appointmentTypeName = low.appointmentTypeName
    · exact ⟨f2, hf2, hid2, fun heq => hdiffer (hlow1.trans heq.symm)⟩
    · exact ⟨f1, hf1, hid1, hlow1⟩
  have hchoice : ∀ x, Newest facts x → x.appointmentTypeId = typeId → ∀ a ∈ types facts,
      Newest facts (Function.update high typeId x a) ∧ (Function.update high typeId x a).appointmentTypeId = a := by
    intro x hx hid a ha
    by_cases hself : a = typeId
    · subst hself
      rw [Function.update_self]
      exact ⟨hx, hid⟩
    · rw [Function.update_of_ne hself]
      exact (hhigh a ha).1
  have hperm : ∀ p : BookingFact Customer TypeId Name → Bool,
      facts.Perm (facts.filter p ++ facts.filter fun f => !p f) :=
    fun p => (List.filter_append_perm p facts).symm
  have hrow : ∀ x, Newest facts x → x.appointmentTypeId = typeId → ∀ a ∈ types facts,
      typeRow ((facts.filter fun f => f = Function.update high typeId x f.appointmentTypeId) ++
        facts.filter fun f => !decide (f = Function.update high typeId x f.appointmentTypeId)) a =
      some ⟨a, (Function.update high typeId x a).appointmentTypeName, bookingsOf facts a⟩ := by
    intro x hx hid a ha
    exact typeRow_chosen (hperm _) (fun b hb => arranged _ (hchoice x hx hid) hb) ha
  -- under its first name it is shown
  have hshown : (⟨typeId, low.appointmentTypeName, bookingsOf facts typeId⟩ : AppointmentTypeCount TypeId Name) ∈
      topTypes facts := by
    rw [← h fun f => decide (f = Function.update high typeId low f.appointmentTypeId), mem_topTypes]
    have hself := hrow low hlow hlowid typeId htype
    rw [Function.update_self] at hself
    refine ⟨mem_typeRows.2 ⟨(types_perm (hperm _)).mem_iff.1 htype, hself⟩, Nat.lt_of_le_of_lt ?_ hfew⟩
    rw [List.countP_eq_length_filter, ← List.length_map AppointmentTypeCount.appointmentTypeId,
      ← List.toFinset_card_of_nodup ((typeRows_ids _).sublist (List.filter_sublist.map _))]
    apply Finset.card_le_card
    intro a ha
    obtain ⟨r, hr, rfl⟩ := List.mem_map.1 (List.mem_toFinset.1 ha)
    obtain ⟨hr, hlt⟩ := List.mem_filter.1 hr
    obtain ⟨hin, hr⟩ := mem_typeRows.1 hr
    have hin := (types_perm (hperm _)).mem_iff.2 hin
    rw [hrow low hlow hlowid _ hin] at hr
    have hr := Option.some.inj hr
    by_cases hself' : r.appointmentTypeId = typeId
    · rw [← hr, hself', Function.update_self] at hlt
      exact absurd (of_decide_eq_true hlt) (lt_irrefl _)
    · rw [Function.update_of_ne hself'] at hr
      rw [← hr] at hlt
      refine Finset.mem_filter.2 ⟨List.mem_toFinset.2 hin, ?_⟩
      exact before_of_names (hhigh _ hin).2 hleast (of_decide_eq_true hlt)
  -- and under another it is not
  rw [← h fun f => decide (f = Function.update high typeId other f.appointmentTypeId), mem_topTypes] at hshown
  have hself := hrow other hother hotherid typeId htype
  have hname := (mem_typeRows.1 hshown.1).2
  rw [hself, Function.update_self] at hname
  exact hne (congrArg AppointmentTypeCount.name (Option.some.inj hname))

end ranking

/-! ## The other folds, whatever the order -/

theorem weekBuckets_perm (window : HistoryWindow) (h : facts.Perm facts') :
    weekBuckets zone window facts = weekBuckets zone window facts' := by
  simp only [weekBuckets, h.countP_eq]

theorem statusTotals_perm (pendingPayment : Nat) (h : facts.Perm facts') :
    statusTotals facts pendingPayment = statusTotals facts' pendingPayment := by
  simp only [statusTotals, h.countP_eq]

theorem cancellation_perm (h : facts.Perm facts') : cancellation facts = cancellation facts' := by
  have hcounted := h.filter fun f => decide (f.cancelledBy ≠ some .expired)
  have hcancelled := hcounted.filter fun f => decide (f.status = .cancelled)
  simp only [cancellation, hcounted.isEmpty_eq, hcounted.length_eq, hcancelled.length_eq, hcancelled.countP_eq]

theorem customerMix_perm [DecidableEq Customer] (fromInstant : Int) (h : facts.Perm facts') :
    customerMix facts history fromInstant = customerMix facts' history fromInstant := by
  have hcohort : (cohort facts).Perm (cohort facts') := List.Perm.dedup ((h.filter _).map _)
  have hseen : seenInWindow facts = seenInWindow facts' := by
    funext c
    exact h.countP_eq _
  have hfirst : firstInWindow facts = firstInWindow facts' := by
    funext c
    have hstarts := (((h.filter kept).filter fun f => decide (f.customerId = c)).map BookingFact.startsAt)
    apply Option.ext
    intro first
    rw [firstInWindow, firstInWindow, List.min?_eq_some_iff, List.min?_eq_some_iff]
    simp only [hstarts.mem_iff]
  simp only [customerMix, hseen, hfirst, hcohort.length_eq, hcohort.countP_eq]

variable {windowFacts windowFacts' : Facts Customer TypeId Name}

theorem reported_perm (h : windowFacts.Perm windowFacts') :
    (reported zone today windowFacts).Perm (reported zone today windowFacts') :=
  (h.filter _).filter _

variable [DecidableEq Customer] [LinearOrder TypeId] [LinearOrder Name]

theorem historyPanel_eq (zone : Zone) (today : Int) (windowFacts : Facts Customer TypeId Name)
    (history : Customer → Option CustomerHistory) :
    historyPanel zone today windowFacts history =
      let window := historyWindow zone today
      let facts := reported zone today windowFacts
      let totals := statusTotals facts
        (windowFacts.length - (windowFacts.filter fun f => f.status ≠ .pendingPayment).length)
      ⟨window.firstWeekStart, window.currentWeekStart - 1, weekBuckets zone window facts, totals,
        (cancellation facts).1, (cancellation facts).2.1, (cancellation facts).2.2, noShowRate totals, topTypes facts,
        customerMix facts history window.fromInstant⟩ := rfl

theorem historyPanel_perm (h : windowFacts.Perm windowFacts')
    (htypes : topTypes (reported zone today windowFacts) = topTypes (reported zone today windowFacts')) :
    historyPanel zone today windowFacts history = historyPanel zone today windowFacts' history := by
  have hr : (reported zone today windowFacts).Perm (reported zone today windowFacts') := reported_perm h
  rw [historyPanel_eq, historyPanel_eq]
  simp only [weekBuckets_perm _ hr, statusTotals_perm _ hr, cancellation_perm hr, htypes, customerMix_perm _ hr,
    h.length_eq, (h.filter _).length_eq]

/-- **The history adds up, and the whole report is the same for every order of the rows, exactly where every ambiguous
type is settled.** -/
theorem history_iff (zone : Zone) (today : Int) (windowFacts : Facts Customer TypeId Name)
    (history : Customer → Option CustomerHistory) :
    (AddsUp zone today (reported zone today windowFacts) (historyPanel zone today windowFacts history) ∧
        ∀ windowFacts', windowFacts.Perm windowFacts' →
          historyPanel zone today windowFacts' history = historyPanel zone today windowFacts history) ↔
      Settled (reported zone today windowFacts) := by
  constructor
  · rintro ⟨-, horder⟩
    apply settled_of_perm
    intro p
    have hsame := horder (windowFacts.filter p ++ windowFacts.filter fun f => !p f) (List.filter_append_perm p _).symm
    have htypes := congrArg HistoryPanel.appointmentTypes hsame
    have hsplit : reported zone today (windowFacts.filter p ++ windowFacts.filter fun f => !p f) =
        (reported zone today windowFacts).filter p ++ (reported zone today windowFacts).filter fun f => !p f := by
      simp only [reported, List.filter_append, List.filter_filter, Bool.and_comm, Bool.and_left_comm]
    rw [← hsplit]
    exact htypes
  · intro hsettled
    refine ⟨adds_up zone today windowFacts history, fun windowFacts' h => ?_⟩
    exact (historyPanel_perm h (topTypes_perm (reported_perm h) hsettled)).symm

/-! ## Two bookings of one moment -/

def utc : Zone where
  wallOf t := t
  instantOf t := t
  first _ := ⟨Int.le_refl _, rfl⟩
  bound := 0
  bounded _ := by omega
  unskipped _ _ _ := by omega
  unrepeated _ _ _ := by omega

def renamed (name : Nat) : BookingFact Nat Nat Nat := ⟨50 * day, 10, .completed, none, 1, 7, name⟩

/-- **The label is the row's that came first.** -/
theorem history_order_seen : ¬(AddsUp utc 100 (reported utc 100 [renamed 0, renamed 1])
      (historyPanel utc 100 [renamed 0, renamed 1] fun _ => none) ∧
    ∀ windowFacts', [renamed 0, renamed 1].Perm windowFacts' →
      historyPanel utc 100 windowFacts' (fun _ => none) =
        historyPanel utc 100 [renamed 0, renamed 1] fun _ => none) := by
  rintro ⟨-, horder⟩
  have hsame : topTypes (reported utc 100 [renamed 1, renamed 0]) =
      topTypes (reported utc 100 [renamed 0, renamed 1]) :=
    congrArg HistoryPanel.appointmentTypes (horder [renamed 1, renamed 0] (List.Perm.swap _ _ _))
  have hin : ⟨7, 1, 2⟩ ∈ topTypes (reported utc 100 [renamed 1, renamed 0]) := mem_topTypes.2 (by decide)
  rw [hsame, mem_topTypes] at hin
  exact absurd hin.1 (by decide)

end Dashboard
