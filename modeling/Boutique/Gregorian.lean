import Mathlib.Data.Int.Lemmas
/-!
# Gregorian — the civil calendar, and the days of its dates

Days are counted from 1970-01-01 and years before and after it alike; a date is a year, a month and a day of the month.
`makeDay` takes a day of the month outside its month, as a step from one day to another does (`makeDay_civil`).
-/
namespace Gregorian

structure Date where
  year : Int
  month : Int
  day : Int
deriving DecidableEq

def isLeap (year : Int) : Bool := year % 4 = 0 ∧ (year % 100 ≠ 0 ∨ year % 400 = 0)

def dayFromYear (year : Int) : Int :=
  365 * (year - 1970) + (year - 1969) / 4 - (year - 1901) / 100 + (year - 1601) / 400

def daysBefore (leap : Bool) : Int → Int
  | 0 => 0
  | 1 => 31
  | m =>
    let common : Int := match m with
      | 2 => 59
      | 3 => 90
      | 4 => 120
      | 5 => 151
      | 6 => 181
      | 7 => 212
      | 8 => 243
      | 9 => 273
      | 10 => 304
      | _ => 334
    if leap then common + 1 else common

/-- The year of a day: the estimate by the mean year is at most one off. -/
def yearFromDay (d : Int) : Int :=
  let year := 1970 + d * 400 / 146097
  if d < dayFromYear year then year - 1
  else if dayFromYear (year + 1) ≤ d then year + 1
  else year

def monthOf (leap : Bool) (dayInYear : Int) : Int :=
  ([1, 2, 3, 4, 5, 6, 7, 8, 9, 10, 11] : List Int).countP fun m => daysBefore leap m ≤ dayInYear

def civil (d : Int) : Date :=
  let year := yearFromDay d
  let month := monthOf (isLeap year) (d - dayFromYear year)
  ⟨year, month + 1, d - dayFromYear year - daysBefore (isLeap year) month + 1⟩

def makeDay (year month day : Int) : Int :=
  dayFromYear (year + month / 12) + daysBefore (isLeap (year + month / 12)) (month % 12) + day - 1

def weekDay (d : Int) : Int := (d + 4) % 7

theorem yearFromDay_spec (d : Int) : dayFromYear (yearFromDay d) ≤ d ∧ d < dayFromYear (yearFromDay d + 1) := by
  have hle : dayFromYear (1970 + d * 400 / 146097 - 1) ≤ d := by
    simp only [dayFromYear]
    omega
  have hlt : d < dayFromYear (1970 + d * 400 / 146097 + 2) := by
    simp only [dayFromYear]
    omega
  unfold yearFromDay
  simp only
  split
  · rename_i h
    exact ⟨hle, by rwa [Int.sub_add_cancel]⟩
  · split
    · rename_i h
      exact ⟨h, by rwa [Int.add_assoc]⟩
    · rename_i h h'
      exact ⟨by omega, by omega⟩

theorem monthOf_bounds (leap : Bool) (dayInYear : Int) : 0 ≤ monthOf leap dayInYear ∧ monthOf leap dayInYear ≤ 11 := by
  have h := List.countP_le_length (p := fun m => decide (daysBefore leap m ≤ dayInYear))
    (l := ([1, 2, 3, 4, 5, 6, 7, 8, 9, 10, 11] : List Int))
  simp only [List.length_cons, List.length_nil] at h
  unfold monthOf
  omega

/-- **A step from a day**: the day of the month moved by `k` is the day `k` days on, over the ends of months and years. -/
theorem makeDay_civil (d k : Int) : makeDay (civil d).year ((civil d).month - 1) ((civil d).day + k) = d + k := by
  obtain ⟨h0, h11⟩ := monthOf_bounds (isLeap (yearFromDay d)) (d - dayFromYear (yearFromDay d))
  have hdiv : ((civil d).month - 1) / 12 = 0 := by
    simp only [civil]
    omega
  have hmod : ((civil d).month - 1) % 12 = monthOf (isLeap (yearFromDay d)) (d - dayFromYear (yearFromDay d)) := by
    simp only [civil]
    omega
  rw [makeDay, hdiv, hmod, Int.add_zero]
  simp only [civil]
  omega

theorem civil_injective {d d' : Int} (h : civil d = civil d') : d = d' := by
  have hd := makeDay_civil d 0
  rw [h, makeDay_civil d' 0] at hd
  omega

/-! ## The order of dates -/

theorem dayFromYear_mono {y y' : Int} (h : y ≤ y') : dayFromYear y ≤ dayFromYear y' := by
  simp only [dayFromYear]
  omega

theorem yearFromDay_mono {d d' : Int} (h : d ≤ d') : yearFromDay d ≤ yearFromDay d' := by
  by_contra hlt
  have hyear := dayFromYear_mono (show yearFromDay d' + 1 ≤ yearFromDay d by omega)
  have hd := yearFromDay_spec d
  have hd' := yearFromDay_spec d'
  omega

theorem monthOf_mono (leap : Bool) {n n' : Int} (h : n ≤ n') : monthOf leap n ≤ monthOf leap n' := by
  unfold monthOf
  exact_mod_cast List.countP_mono_left fun m _ hm => decide_eq_true (Int.le_trans (of_decide_eq_true hm) h)

/-- **Dates are in the order of their days**, the year first and the day of the month last. -/
theorem civil_le {d d' : Int} (h : d ≤ d') : (civil d).year < (civil d').year ∨
    (civil d).year = (civil d').year ∧ ((civil d).month < (civil d').month ∨
      (civil d).month = (civil d').month ∧ (civil d).day ≤ (civil d').day) := by
  obtain hyear | hyear := Int.lt_or_eq_of_le (yearFromDay_mono h)
  · exact .inl hyear
  · refine .inr ⟨hyear, ?_⟩
    simp only [civil, hyear]
    have hin : d - dayFromYear (yearFromDay d') ≤ d' - dayFromYear (yearFromDay d') := by omega
    obtain hmonth | hmonth := Int.lt_or_eq_of_le (monthOf_mono (isLeap (yearFromDay d')) hin)
    · exact .inl (by omega)
    · exact .inr ⟨by omega, by rw [hmonth]; omega⟩

/-- The date of a leap day, and of the day after it. -/
example : (civil 11016, civil 11017) = (⟨2000, 2, 29⟩, ⟨2000, 3, 1⟩) := by decide

end Gregorian
