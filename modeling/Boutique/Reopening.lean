import Boutique.Gregorian
import Mathlib.Data.List.Basic
/-!
# Reopening — the storefront's line about today, and the day the boutique opens again

The week's rules and the dated exceptions give every calendar day its windows; a boutique that is closed today announces
the next day that has one.  The walk is seven days long and reads the first window of the day it stops at
(`reopening_iff`).
-/
namespace Storefront

open Gregorian

/-! ## Days in the boutique's zone -/

def hour : Int := 3600000

def day : Int := 24 * hour

/-- **The zone of the formatter**: what the wall clock is ahead of UTC, at each instant, by less than half a day. -/
structure Zone where
  offset : Int → Int
  noon_near : ∀ t, -(12 * hour) ≤ offset t ∧ offset t < 12 * hour

/-- A calendar day; the parts of its ISO string, and its weekday. -/
structure JerusalemDate where
  iso : Date
  dayIndex : Int
deriving DecidableEq

def Zone.dayOf (zone : Zone) (instant : Int) : Int := (instant + zone.offset instant) / day

def partsInZone (zone : Zone) (instant : Int) : JerusalemDate :=
  ⟨civil (zone.dayOf instant), weekDay (zone.dayOf instant)⟩

/-- `Date.UTC(y, month, dt, 12, 0, 0)`, whose first hundred years are those of the twentieth century. -/
def utcNoon (year month dt : Int) : Int :=
  makeDay (if 0 ≤ year ∧ year ≤ 99 then 1900 + year else year) month dt * day + 12 * hour

def addDays (zone : Zone) (base : JerusalemDate) (offset : Int) : JerusalemDate :=
  partsInZone zone (utcNoon base.iso.year (base.iso.month - 1) (base.iso.day + offset))

/-! ## Hours -/

/-- "HH:MM". -/
structure TimeWindow where
  opens : String
  closes : String
deriving DecidableEq

/-- No window is a closed day. -/
structure WeeklyRule where
  dayOfWeek : Int
  windows : List TimeWindow
deriving DecidableEq

/-- Keyed by the ISO date: no window is a closed day, no key an ordinary one. -/
abbrev Exceptions : Type := Date → Option (List TimeWindow)

structure NextOpen where
  dayIndex : Int
  daysAhead : Nat
  isTomorrow : Bool
  opens : String
deriving DecidableEq

structure DayHours where
  dayIndex : Int
  windows : List TimeWindow
  closed : Bool
deriving DecidableEq

def resolve (rules : List WeeklyRule) (exceptions : Exceptions) (date : JerusalemDate) : List TimeWindow :=
  match exceptions date.iso with
  | some windows => windows
  | none => ((rules.find? fun r => r.dayOfWeek = date.dayIndex).map WeeklyRule.windows).getD []

def todayHours (zone : Zone) (rules : List WeeklyRule) (exceptions : Exceptions) (now : Int) : DayHours :=
  let today := partsInZone zone now
  let windows := resolve rules exceptions today
  ⟨today.dayIndex, windows, windows = []⟩

def openOn (zone : Zone) (rules : List WeeklyRule) (exceptions : Exceptions) (today : JerusalemDate) (offset : Nat) :
    Option NextOpen :=
  let date := addDays zone today offset
  match resolve rules exceptions date with
  | [] => none
  | first :: _ => some ⟨date.dayIndex, offset, offset = 1, first.opens⟩

/-- **The next day that has a window**, searched a week ahead. -/
def nextOpen (zone : Zone) (rules : List WeeklyRule) (exceptions : Exceptions) (now : Int) : Option NextOpen :=
  (List.range' 1 7).findSome? (openOn zone rules exceptions (partsInZone zone now))

/-! ## The wire's rows -/

/-- "HH:MM:SS" on the wire; one row a window. -/
structure HoursRow where
  dayOfWeek : Int
  openTime : String
  closeTime : String
deriving DecidableEq

structure ExceptionRow where
  date : Date
  openTime : Option String
  closeTime : Option String
deriving DecidableEq

def hhmm (time : String) : String := String.ofList (time.toList.take 5)

def HoursRow.window (r : HoursRow) : TimeWindow := ⟨hhmm r.openTime, hhmm r.closeTime⟩

def ExceptionRow.windows (r : ExceptionRow) : List TimeWindow :=
  match r.openTime, r.closeTime with
  | some opens, some closes => [⟨hhmm opens, hhmm closes⟩]
  | _, _ => []

def pushWindow (byDay : List WeeklyRule) (r : HoursRow) : List WeeklyRule :=
  match byDay with
  | [] => [⟨r.dayOfWeek, [r.window]⟩]
  | rule :: rest =>
    if rule.dayOfWeek = r.dayOfWeek then { rule with windows := rule.windows ++ [r.window] } :: rest
    else rule :: pushWindow rest r

def toWeeklyRules (rows : List HoursRow) : List WeeklyRule := rows.foldl pushWindow []

def pushException (byDate : Exceptions) (item : ExceptionRow) : Exceptions :=
  Function.update byDate item.date (some ((byDate item.date).getD [] ++ item.windows))

def toExceptions (rows : List ExceptionRow) : Exceptions := rows.foldl pushException fun _ => none

/-- What `todayLine` says, by the keys of its texts. -/
inductive TodayLine
  | today (windows : List TimeWindow)
  | closedToday
  | closedTodayOpensTomorrow (time : String)
  | closedTodayOpensOn (dayIndex : Int) (time : String)
deriving DecidableEq

def todayLine (zone : Zone) (hours : List HoursRow) (exceptions : List ExceptionRow) (now : Int) : Option TodayLine :=
  let weekly := toWeeklyRules hours
  if weekly = [] then none
  else
    let today := todayHours zone weekly (toExceptions exceptions) now
    if !today.closed then some (.today today.windows)
    else match nextOpen zone weekly (toExceptions exceptions) now with
      | none => some .closedToday
      | some upcoming =>
        if upcoming.isTomorrow then some (.closedTodayOpensTomorrow upcoming.opens)
        else some (.closedTodayOpensOn upcoming.dayIndex upcoming.opens)

/-! ## Stepping from day to day -/

variable {zone : Zone} {rules : List WeeklyRule} {exceptions : Exceptions} {now : Int}

theorem dayOf_noon (zone : Zone) (d : Int) : zone.dayOf (d * day + 12 * hour) = d := by
  obtain ⟨hlo, hhi⟩ := zone.noon_near (d * day + 12 * hour)
  simp only [Zone.dayOf, day, hour] at *
  omega

/-- **A step over the calendar**, over the ends of months and years and over changes of the clock. -/
theorem addDays_civil (hyear : 100 ≤ (partsInZone zone now).iso.year) (k : Nat) :
    addDays zone (partsInZone zone now) k = ⟨civil (zone.dayOf now + k), weekDay (zone.dayOf now + k)⟩ := by
  have hnoon : utcNoon (partsInZone zone now).iso.year ((partsInZone zone now).iso.month - 1)
      ((partsInZone zone now).iso.day + k) = (zone.dayOf now + k) * day + 12 * hour := by
    rw [utcNoon, if_neg (by omega)]
    exact congrArg (fun d => d * day + 12 * hour) (makeDay_civil (zone.dayOf now) k)
  rw [addDays, hnoon, partsInZone, dayOf_noon]

/-! ## The windows of a day -/

/-- **The effective windows of a calendar day**: the exception's if the date has one, otherwise the weekday's. -/
def windowsOn (rules : List WeeklyRule) (exceptions : Exceptions) (d : Int) : List TimeWindow :=
  resolve rules exceptions ⟨civil d, weekDay d⟩

theorem pushWindow_find (byDay : List WeeklyRule) (r : HoursRow) (d : Int) :
    (((pushWindow byDay r).find? fun x => x.dayOfWeek = d).map WeeklyRule.windows).getD [] =
      ((byDay.find? fun x => x.dayOfWeek = d).map WeeklyRule.windows).getD [] ++ if r.dayOfWeek = d then [r.window] else [] := by
  induction byDay with
  | nil => by_cases hd : r.dayOfWeek = d <;> simp [pushWindow, hd]
  | cons rule rest ih =>
    unfold pushWindow
    by_cases hr : rule.dayOfWeek = r.dayOfWeek
    · by_cases hd : r.dayOfWeek = d
      · simp [hr, hd]
      · simp [hr, hd]
    · rw [if_neg hr]
      by_cases hd : rule.dayOfWeek = d
      · have hne : r.dayOfWeek ≠ d := fun h => hr (hd.trans h.symm)
        simp [hd, hne]
      · simpa [hd] using ih

theorem toWeeklyRules_find (rows : List HoursRow) (d : Int) :
    (((toWeeklyRules rows).find? fun x => x.dayOfWeek = d).map WeeklyRule.windows).getD [] =
      (rows.filter fun r => r.dayOfWeek = d).map HoursRow.window := by
  have hfold : ∀ (rows : List HoursRow) (byDay : List WeeklyRule),
      (((rows.foldl pushWindow byDay).find? fun x => x.dayOfWeek = d).map WeeklyRule.windows).getD [] =
        ((byDay.find? fun x => x.dayOfWeek = d).map WeeklyRule.windows).getD [] ++
          (rows.filter fun r => r.dayOfWeek = d).map HoursRow.window := by
    intro rows
    induction rows with
    | nil => simp
    | cons r rows ih =>
      intro byDay
      rw [List.foldl_cons, ih, pushWindow_find]
      by_cases hd : r.dayOfWeek = d <;> simp [hd]
  simpa [toWeeklyRules] using hfold rows []

theorem toExceptions_get (rows : List ExceptionRow) (date : Date) :
    toExceptions rows date =
      if rows.any fun r => r.date = date then some ((rows.filter fun r => r.date = date).flatMap ExceptionRow.windows)
      else none := by
  have hfold : ∀ (rows : List ExceptionRow) (byDate : Exceptions),
      rows.foldl pushException byDate date =
        if rows.any fun r => r.date = date then
          some ((byDate date).getD [] ++ (rows.filter fun r => r.date = date).flatMap ExceptionRow.windows)
        else byDate date := by
    intro rows
    induction rows with
    | nil => simp
    | cons r rows ih =>
      intro byDate
      rw [List.foldl_cons, ih, pushException]
      by_cases hd : r.date = date
      · subst hd
        by_cases hany : rows.any fun x => x.date = r.date
        · simp [hany]
        · have hnil : (rows.filter fun x => decide (x.date = r.date)) = [] := by
            rw [List.filter_eq_nil_iff]
            exact fun x hx hxd => hany (List.any_eq_true.2 ⟨x, hx, hxd⟩)
          simp [hany, hnil]
      · simp [hd, Function.update_of_ne (Ne.symm hd)]
  simpa [toExceptions] using hfold rows fun _ => none

theorem windowsOn_rows (hours : List HoursRow) (rows : List ExceptionRow) (d : Int) :
    windowsOn (toWeeklyRules hours) (toExceptions rows) d =
      if rows.any fun r => r.date = civil d then (rows.filter fun r => r.date = civil d).flatMap ExceptionRow.windows
      else (hours.filter fun r => r.dayOfWeek = weekDay d).map HoursRow.window := by
  unfold windowsOn resolve
  simp only
  rw [toExceptions_get]
  split
  · rename_i hsome
    split at hsome <;> cases hsome
    rename_i hany
    rw [if_pos hany]
  · rename_i hnone
    split at hnone <;> cases hnone
    rename_i hany
    rw [if_neg hany, toWeeklyRules_find]

/-! ## The day it opens again -/

variable {windows : Int → List TimeWindow} {today : Int}

structure Reopens (windows : Int → List TimeWindow) (today : Int) (k : Nat) : Prop where
  later : 1 ≤ k
  opened : windows (today + k) ≠ []
  first : ∀ j : Nat, 1 ≤ j → j < k → windows (today + j) = []

theorem Reopens.unique {k k' : Nat} (h : Reopens windows today k) (h' : Reopens windows today k') : k = k' := by
  rcases Nat.lt_trichotomy k k' with hlt | heq | hlt
  · exact absurd (h'.first k h.later hlt) h.opened
  · exact heq
  · exact absurd (h.first k' h'.later hlt) h'.opened

theorem reopens_of_later {k : Nat} (hk : 1 ≤ k) (hopen : windows (today + k) ≠ []) : ∃ j, Reopens windows today j := by
  induction k using Nat.strong_induction_on with
  | _ k ih =>
    by_cases hbefore : ∃ j : Nat, 1 ≤ j ∧ j < k ∧ windows (today + j) ≠ []
    · obtain ⟨j, hj, hjk, hopen⟩ := hbefore
      exact ih j hjk hj hopen
    · refine ⟨k, hk, hopen, fun j hj hjk => ?_⟩
      by_contra hne
      exact hbefore ⟨j, hj, hjk, hne⟩

/-- **The right announcement**: the first later day that has a window, how far it is, its weekday and its earliest opening;
none only if no later day has one. -/
def Announces (windows : Int → List TimeWindow) (today : Int) : Option NextOpen → Prop
  | none => ∀ k : Nat, 1 ≤ k → windows (today + k) = []
  | some n => Reopens windows today n.daysAhead ∧ n.dayIndex = weekDay (today + n.daysAhead) ∧
      (n.isTomorrow = true ↔ n.daysAhead = 1) ∧ (∃ w ∈ windows (today + n.daysAhead), n.opens = w.opens) ∧
      ∀ w ∈ windows (today + n.daysAhead), n.opens ≤ w.opens

/-- **What the walk relies on**: the boutique opens within a week, if it opens again, and the first window of that day is
its earliest. -/
def WithinReach (windows : Int → List TimeWindow) (today : Int) : Prop :=
  ∀ k, Reopens windows today k → k ≤ 7 ∧ ∀ w ∈ (windows (today + k)).head?, ∀ w' ∈ windows (today + k), w.opens ≤ w'.opens

theorem findSome_range' {α : Type} (f : Nat → Option α) (n : Nat) : ∀ (s : Nat) (b : α), (List.range' s n).findSome? f = some b →
    ∃ k, s ≤ k ∧ k < s + n ∧ f k = some b ∧ ∀ j, s ≤ j → j < k → f j = none := by
  induction n with
  | zero => intro s b h; cases h
  | succ n ih =>
    intro s b h
    rw [List.range'_succ, List.findSome?_cons] at h
    cases hf : f s with
    | some a =>
      rw [hf] at h
      cases h
      exact ⟨s, Nat.le_refl _, by omega, hf, fun j hsj hjs => by omega⟩
    | none =>
      rw [hf] at h
      obtain ⟨k, hsk, hkn, hk, hbefore⟩ := ih (s + 1) b h
      refine ⟨k, by omega, by omega, hk, fun j hsj hjk => ?_⟩
      rcases Nat.eq_or_lt_of_le hsj with rfl | hlt
      · exact hf
      · exact hbefore j hlt hjk

theorem openOn_eq (hyear : 100 ≤ (partsInZone zone now).iso.year) (k : Nat) :
    openOn zone rules exceptions (partsInZone zone now) k =
      (windowsOn rules exceptions (zone.dayOf now + k)).head?.map fun first =>
        ⟨weekDay (zone.dayOf now + k), k, k = 1, first.opens⟩ := by
  unfold openOn windowsOn
  rw [addDays_civil hyear]
  dsimp only
  cases resolve rules exceptions ⟨civil (zone.dayOf now + k), weekDay (zone.dayOf now + k)⟩ with
  | nil => rfl
  | cons first rest => rfl

theorem nextOpen_none (hyear : 100 ≤ (partsInZone zone now).iso.year) (h : nextOpen zone rules exceptions now = none) {k : Nat}
    (hk : 1 ≤ k) (hk' : k ≤ 7) : windowsOn rules exceptions (zone.dayOf now + k) = [] := by
  have hturn := List.findSome?_eq_none_iff.1 h k (List.mem_range'_1.2 ⟨hk, by omega⟩)
  rwa [openOn_eq hyear, Option.map_eq_none_iff, List.head?_eq_none_iff] at hturn

theorem nextOpen_some (hyear : 100 ≤ (partsInZone zone now).iso.year) {n : NextOpen}
    (h : nextOpen zone rules exceptions now = some n) :
    Reopens (windowsOn rules exceptions) (zone.dayOf now) n.daysAhead ∧ n.daysAhead ≤ 7 ∧
      ∃ first ∈ (windowsOn rules exceptions (zone.dayOf now + n.daysAhead)).head?,
        n = ⟨weekDay (zone.dayOf now + n.daysAhead), n.daysAhead, n.daysAhead = 1, first.opens⟩ := by
  obtain ⟨k, hk, hk', hturn, hbefore⟩ := findSome_range' _ _ _ _ h
  rw [openOn_eq hyear] at hturn
  obtain ⟨first, hfirst, rfl⟩ := Option.map_eq_some_iff.1 hturn
  refine ⟨⟨hk, fun hnil => ?_, fun j hj hjk => ?_⟩, by simp only; omega, first, hfirst, rfl⟩
  · simp only at hnil
    rw [hnil] at hfirst
    cases hfirst
  · have hnone := hbefore j hj hjk
    rwa [openOn_eq hyear, Option.map_eq_none_iff, List.head?_eq_none_iff] at hnone

/-- **The announcement is right exactly where the boutique reopens within the week, its first window the earliest.** -/
theorem reopening_iff (hyear : 100 ≤ (partsInZone zone now).iso.year) :
    Announces (windowsOn rules exceptions) (zone.dayOf now) (nextOpen zone rules exceptions now) ↔
      WithinReach (windowsOn rules exceptions) (zone.dayOf now) := by
  cases h : nextOpen zone rules exceptions now with
  | none =>
    constructor
    · intro hnever k hk
      exact absurd (hnever k hk.later) hk.opened
    · intro hreach k hk
      by_contra hopen
      obtain ⟨j, hj⟩ := reopens_of_later hk hopen
      exact hj.opened (nextOpen_none hyear h hj.later (hreach j hj).1)
  | some n =>
    obtain ⟨hreopens, hweek, first, hfirst, hn⟩ := nextOpen_some hyear h
    have hopens : n.opens = first.opens := congrArg NextOpen.opens hn
    constructor
    · rintro ⟨-, -, -, -, hearliest⟩ k hk
      obtain rfl := hk.unique hreopens
      refine ⟨hweek, fun w hw w' hw' => ?_⟩
      obtain rfl := Option.some.inj (hw.symm.trans hfirst)
      exact hopens ▸ hearliest w' hw'
    · intro hreach
      refine ⟨hreopens, congrArg NextOpen.dayIndex hn, ?_, ⟨first, List.mem_of_head? hfirst, hopens⟩, fun w hw => ?_⟩
      · rw [congrArg NextOpen.isTomorrow hn, decide_eq_true_eq]
      · exact hopens ▸ (hreach _ hreopens).2 first hfirst w hw

/-! ## A week of closures -/

def winter : Zone := ⟨fun _ => 2 * hour, fun _ => by decide⟩

def everyDay : List HoursRow :=
  ([0, 1, 2, 3, 4, 5, 6] : List Int).map fun d => ⟨d, "10:00:00", "19:00:00"⟩

def closedFor (n : Nat) : List ExceptionRow := (List.range (n + 1)).map fun (k : Nat) => ⟨civil k, none, none⟩

theorem closedFor_windows {n k : Nat} (hk : k ≤ n) : windowsOn rules (toExceptions (closedFor n)) k = [] := by
  have hmem : (⟨civil k, none, none⟩ : ExceptionRow) ∈ closedFor n :=
    List.mem_map.2 ⟨k, List.mem_range.2 (Nat.lt_succ_of_le hk), rfl⟩
  have hany : (closedFor n).any fun r => r.date = civil k := List.any_eq_true.2 ⟨_, hmem, by simp⟩
  unfold windowsOn resolve
  simp only
  rw [toExceptions_get, if_pos hany]
  refine List.flatMap_eq_nil_iff.2 fun r hr => ?_
  obtain ⟨j, -, rfl⟩ := List.mem_map.1 (List.mem_filter.1 hr).1
  rfl

theorem closedFor_after (n : Nat) : windowsOn (toWeeklyRules everyDay) (toExceptions (closedFor n)) (n + 1 : Nat) =
    (everyDay.filter fun r => r.dayOfWeek = weekDay (n + 1 : Nat)).map HoursRow.window := by
  have hnone : ¬(closedFor n).any fun r => r.date = civil (n + 1 : Nat) := by
    rw [List.any_eq_true]
    rintro ⟨r, hr, hdate⟩
    obtain ⟨j, hj, rfl⟩ := List.mem_map.1 hr
    have hday := civil_injective (of_decide_eq_true hdate)
    have := List.mem_range.1 hj
    omega
  rw [windowsOn_rows, if_neg hnone]

theorem everyDay_opens (n : Nat) : (everyDay.filter fun r => r.dayOfWeek = weekDay (n + 1 : Nat)).map HoursRow.window ≠ [] := by
  have hday : weekDay (n + 1 : Nat) ∈ ([0, 1, 2, 3, 4, 5, 6] : List Int) := by
    simp only [List.mem_cons, List.not_mem_nil, or_false, weekDay]
    omega
  have hrow : (⟨weekDay (n + 1 : Nat), "10:00:00", "19:00:00"⟩ : HoursRow) ∈ everyDay :=
    List.mem_map.2 ⟨weekDay (n + 1 : Nat), hday, rfl⟩
  intro hnil
  have hfilter := List.map_eq_nil_iff.1 hnil
  exact List.filter_eq_nil_iff.1 hfilter _ hrow (by simp)

theorem winter_epoch : winter.dayOf 0 = 0 := by decide

theorem winter_year : 100 ≤ (partsInZone winter 0).iso.year := by
  rw [partsInZone, winter_epoch]
  decide

theorem closedFor_reopens (n : Nat) :
    Reopens (windowsOn (toWeeklyRules everyDay) (toExceptions (closedFor n))) (winter.dayOf 0) (n + 1) := by
  refine ⟨by omega, ?_, fun j hj hjn => ?_⟩
  · rw [winter_epoch, Int.zero_add]
    rw [closedFor_after]
    exact everyDay_opens n
  · rw [winter_epoch, Int.zero_add]
    exact closedFor_windows (by omega)

/-- The closed day of 1970-01-01 announces the day after it. -/
theorem reopening_iff_tomorrow :
    Announces (windowsOn (toWeeklyRules everyDay) (toExceptions (closedFor 0))) (winter.dayOf 0)
      (nextOpen winter (toWeeklyRules everyDay) (toExceptions (closedFor 0)) 0) := by
  rw [reopening_iff winter_year]
  intro k hk
  obtain rfl := hk.unique (closedFor_reopens 0)
  refine ⟨by omega, fun w hw w' hw' => ?_⟩
  have hsame : ∀ x ∈ windowsOn (toWeeklyRules everyDay) (toExceptions (closedFor 0)) (winter.dayOf 0 + (0 + 1 : Nat)),
      x.opens = hhmm "10:00:00" := by
    intro x hx
    rw [winter_epoch, Int.zero_add, closedFor_after] at hx
    obtain ⟨r, hr, rfl⟩ := List.mem_map.1 hx
    obtain ⟨d, -, rfl⟩ := List.mem_map.1 (List.mem_filter.1 hr).1
    rfl
  have heq : w.opens = w'.opens := (hsame w (List.mem_of_head? hw)).trans (hsame w' hw').symm
  exact heq ▸ String.le_refl w.opens

/-- **A week of closures is announced as if the boutique never opened again**, though it opens on the eighth day. -/
theorem closures_unannounced :
    nextOpen winter (toWeeklyRules everyDay) (toExceptions (closedFor 7)) 0 = none ∧
      Reopens (windowsOn (toWeeklyRules everyDay) (toExceptions (closedFor 7))) (winter.dayOf 0) 8 ∧
      ¬Announces (windowsOn (toWeeklyRules everyDay) (toExceptions (closedFor 7))) (winter.dayOf 0)
        (nextOpen winter (toWeeklyRules everyDay) (toExceptions (closedFor 7)) 0) := by
  have hreopens : Reopens (windowsOn (toWeeklyRules everyDay) (toExceptions (closedFor 7))) (winter.dayOf 0) 8 :=
    closedFor_reopens 7
  have hnone : nextOpen winter (toWeeklyRules everyDay) (toExceptions (closedFor 7)) 0 = none := by
    refine Option.eq_none_iff_forall_not_mem.2 fun n h => ?_
    obtain ⟨hn, hweek, -⟩ := nextOpen_some winter_year h
    have heq := hn.unique hreopens
    omega
  refine ⟨hnone, hreopens, ?_⟩
  rw [hnone]
  exact fun hnever => hreopens.opened (hnever 8 hreopens.later)

end Storefront
