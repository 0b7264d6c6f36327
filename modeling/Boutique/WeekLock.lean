import Boutique.Atelier
import Boutique.Outcome
import Boutique.SavedAlone
/-!
# WeekLock — the lock a week is shown with, and the save it stands for

`week` works out a lock of its own, from the clock, the settings and the actor's role; `submit` asks the same questions one
after another.  A week shown unlocked is accepted and a locked one refused, to the very instant of the deadline.
-/
namespace Rota

open Txn Session Outcome
open Atelier (StaffRole)
open Boutique (Zone WallTime jerusalemDayIndex day)
open Shifts (currentWeekStart)

/-- A value of the settings' JSON, and what `str` makes of it. -/
inductive Setting
  | int (value : Int)
  | text (value : String)
  | other (shown : String)
deriving DecidableEq

def Setting.shown : Setting → String
  | .int value => toString value
  | .text value => value
  | .other shown => shown

def SCHEDULING_DEFAULTS : List (String × Setting) :=
  [("submission_deadline_day_of_week", .int 3), ("submission_deadline_time", .text "18:00")]

/-- `{**SCHEDULING_DEFAULTS, **stored}[name]`; what is stored may be no dict at all. -/
def scheduling (stored : Option (List (String × Setting))) (name : String) : Setting :=
  ((stored.getD []).lookup name).getD ((SCHEDULING_DEFAULTS.lookup name).getD (.other ""))

/-- The boutique's clock: its zone, `time.fromisoformat`, and the tenant's stored scheduling. -/
structure Calendar where
  zone : Zone
  fromisoformat : String → Option WallTime
  stored : Option (List (String × Setting))

variable (cal : Calendar)

def Calendar.schedulingPair : Except Err (Int × WallTime) :=
  match scheduling cal.stored "submission_deadline_day_of_week" with
  | .int dayOfWeek =>
    match cal.fromisoformat (scheduling cal.stored "submission_deadline_time").shown with
    | some deadlineTime => .ok (dayOfWeek, deadlineTime)
    | none => .error (.shifts (.shiftsValidation "submission_deadline_time must be HH:MM"))
  | _ => .error (.shifts (.shiftsValidation "submission_deadline_day_of_week must be an integer"))

def validateWeekStart (value : Int) : Except Err Int :=
  if jerusalemDayIndex value ≠ 0 then .error (.shifts (.shiftsValidation "week_start must be a Sunday")) else .ok value

def Calendar.deadlineAt (weekStart dayOfWeek : Int) (deadlineTime : WallTime) : Except Err Int := do
  let _ ← validateWeekStart weekStart
  if ¬(0 ≤ dayOfWeek ∧ dayOfWeek ≤ 6) then
    .error (.shifts (.shiftsValidation "submission_deadline_day_of_week must be between 0 and 6"))
  else .ok (cal.zone.instantOf ((weekStart - (7 - dayOfWeek)) * day + deadlineTime.micros))

def Calendar.deadline (weekStart : Int) : Except Err Int := do
  let (dayOfWeek, deadlineTime) ← cal.schedulingPair
  cal.deadlineAt weekStart dayOfWeek deadlineTime

def locked (weekStart current : Int) (elevated : Bool) (deadline clock : Int) : Except Err Bool :=
  match writableWeek weekStart current with
  | .error .weekOutOfRange => .ok true
  | .error e => .error e
  | .ok () => .ok (if elevated then false else deadline ≤ clock)

structure ShiftWeekResponse where
  weekStart : Int
  weekEnd : Int
  deadlineAt : Int
  locked : Bool
deriving DecidableEq

def targetWeek (weekStart : Option Int) (current : Int) : Except Err Int :=
  match weekStart with
  | some value => validateWeekStart value
  | none => .ok (current + 7)

def Calendar.week (actor : Atelier.StaffContext) (weekStart : Option Int) (clock : Int) : Except Err ShiftWeekResponse := do
  let target ← targetWeek weekStart (currentWeekStart (cal.zone.dateOf clock))
  readableWeek target (currentWeekStart (cal.zone.dateOf clock))
  let deadline ← cal.deadline target
  let shown ← locked target (currentWeekStart (cal.zone.dateOf clock)) actor.elevated deadline clock
  return ⟨target, target + 6, deadline, shown⟩

def Calendar.afterDeadline (weekStart clock : Int) : Except Err Bool := do
  let resolvedDeadline ← cal.deadline weekStart
  return resolvedDeadline ≤ clock

/-- **A save is answered by that clock**: its date, and whether the deadline is behind it. -/
structure Answers (A : Ask → Input → Prop) (weekStart clock : Int) : Prop where
  today : ∀ i, A .today i → i.day = cal.zone.dateOf clock
  deadline : ∀ i late, A (.afterDeadline weekStart) i → cal.afterDeadline weekStart clock = .ok late → i.yes = late

section Lock

variable {cal : Calendar} {A : Ask → Input → Prop} {t : Tid} {q : Submission} {actor : Atelier.StaffContext} {clock : Int}
  {asked : Option Int} {view : ShiftWeekResponse} {w : World schema outside}

theorem week_shown (h : cal.week actor asked clock = .ok view) : cal.deadline view.weekStart = .ok view.deadlineAt ∧
    locked view.weekStart (currentWeekStart (cal.zone.dateOf clock)) actor.elevated view.deadlineAt clock = .ok view.locked := by
  unfold Calendar.week at h
  obtain ⟨target, -, h⟩ := ok_of_bind h
  obtain ⟨-, -, h⟩ := ok_of_bind h
  obtain ⟨deadline, hdeadline, h⟩ := ok_of_bind h
  obtain ⟨shown, hshown, h⟩ := ok_of_bind h
  cases h
  exact ⟨hdeadline, hshown⟩

variable {weekStart current deadline : Int}

theorem locked_false {elevated : Bool} (h : locked weekStart current elevated deadline clock = .ok false) :
    writableWeek weekStart current = .ok () ∧ (deadline ≤ clock → elevated = true) := by
  unfold locked at h
  split at h
  · cases h
  · cases h
  · rename_i hwritable
    refine ⟨hwritable, fun hlate => ?_⟩
    cases elevated with
    | true => rfl
    | false => simp [hlate] at h

theorem locked_true {elevated : Bool} (h : locked weekStart current elevated deadline clock = .ok true) :
    writableWeek weekStart current = .error .weekOutOfRange ∨ (elevated = false ∧ deadline ≤ clock) := by
  unfold locked at h
  split at h
  · rename_i hrange
    exact Or.inl hrange
  · cases h
  · cases elevated with
    | true => simp at h
    | false => exact Or.inr ⟨rfl, by simpa using h⟩

theorem readable_of_writable (h : writableWeek weekStart current = .ok ()) :
    readableWeek weekStart current = .ok () := by
  unfold writableWeek at h
  split at h
  · cases h
  · rename_i hreadable
    exact hreadable

theorem afterDeadline_of_deadline (h : cal.deadline weekStart = .ok deadline) :
    cal.afterDeadline weekStart clock = .ok (decide (deadline ≤ clock)) := by
  unfold Calendar.afterDeadline
  rw [h]
  rfl

theorem Answers.answered_today (h : Answers cal A q.weekStart clock) (hlatest : w.out.latest ≤ cal.zone.dateOf clock)
    {i : Input} (hi : A .today i) : max w.out.latest i.day = cal.zone.dateOf clock := by
  rw [h.today i hi]
  exact Int.max_eq_right hlatest

/-- **What is shown locked is what is refused.**  At one clock, for every role: a week shown locked is refused, whosever it is,
and one shown unlocked is accepted with everything else in order; a week beyond the horizon is not shown, and is refused. -/
theorem locked_is_refused (hw : w.db.Unheld) (hlock : w.Lockable t) (hserved : ∃ i, ∀ question, A question i)
    (hanswers : Answers cal A q.weekStart clock) (hlatest : w.out.latest ≤ cal.zone.dateOf clock)
    (hactor : q.actor = ⟨actor.id, actor.elevated⟩) :
    (∀ asked view, cal.week actor asked clock = .ok view → view.weekStart = q.weekStart →
      (view.locked = true → ∀ x w', Solo A t (submit q.actor q.body) w x w' →
        ∃ e, x = .error e ∧ w'.db.committed = w.db.committed) ∧
      (view.locked = false → (q.staff ≠ actor.id → actor.elevated = true) →
        (∀ i, A (.staffer q.staff q.weekStart) i → i.eligible ≠ none) →
        (∀ T ∈ named q.body.entries, LiveShift w.db.committed T) →
          (∃ x w', Solo A t (submit q.actor q.body) w x w') ∧
          ∀ x w', Solo A t (submit q.actor q.body) w x w' → ∃ reply, x = .ok reply)) ∧
    (readableWeek q.weekStart (currentWeekStart (cal.zone.dateOf clock)) ≠ .ok () →
      (∀ view, cal.week actor (some q.weekStart) clock ≠ .ok view) ∧
      ∀ x w', Solo A t (submit q.actor q.body) w x w' → ∃ e, x = .error e ∧ w'.db.committed = w.db.committed) := by
  have helevated : q.actor.elevated = actor.elevated := by rw [hactor]
  have hid : q.actor.id = actor.id := by rw [hactor]
  refine ⟨fun asked view hview hweek => ⟨fun hlocked x w' hrun => ?_, fun hlocked hself hhere hshown => ?_⟩,
    fun hbeyond => ⟨fun view hview => ?_, fun x w' hrun => ?_⟩⟩
  · obtain ⟨hdeadline, hshows⟩ := week_shown hview
    rw [hlocked, hweek] at hshows
    obtain ⟨-, herr, hok⟩ := submit_alone hw hrun
    cases x with
    | error e => exact ⟨e, rfl, (herr e rfl).1⟩
    | ok reply =>
      obtain ⟨-, ⟨i, hi, hwritable⟩, j, hj, hopen⟩ := hok reply rfl
      rw [hanswers.answered_today hlatest hi] at hwritable
      obtain hrange | ⟨hplain, hlate⟩ := locked_true hshows
      · cases hwritable.symm.trans hrange
      · have hyes := hanswers.deadline j _ hj (afterDeadline_of_deadline (hweek ▸ hdeadline))
        rw [helevated, hplain] at hopen
        cases hopen (hyes.trans (decide_eq_true hlate))
  · obtain ⟨hdeadline, hshows⟩ := week_shown hview
    rw [hlocked, hweek] at hshows
    obtain ⟨hwritable, hopen⟩ := locked_false hshows
    have haccepted : Accepted A q w.out.latest w.db.committed := by
      refine ⟨fun hother => ?_, fun i hi => ?_, fun i hi hyes => ?_, hhere, hshown⟩
      · rw [helevated]
        exact hself (hid ▸ hother)
      · rw [hanswers.answered_today hlatest hi]
        exact hwritable
      · rw [helevated]
        have hlate := hanswers.deadline i _ hi (afterDeadline_of_deadline (hweek ▸ hdeadline))
        exact hopen (of_decide_eq_true (hlate.symm.trans hyes))
    obtain ⟨hends, hall⟩ := week_realised hw hlock hserved haccepted
    exact ⟨hends, fun x w' hrun => (hall x w' hrun).1⟩
  · unfold Calendar.week at hview
    obtain ⟨target, htarget, hview⟩ := ok_of_bind hview
    obtain ⟨u, hreadable, -⟩ := ok_of_bind hview
    have htarget : validateWeekStart q.weekStart = .ok target := htarget
    unfold validateWeekStart at htarget
    split at htarget
    · cases htarget
    · cases htarget
      exact hbeyond hreadable
  · obtain ⟨-, herr, hok⟩ := submit_alone hw hrun
    cases x with
    | error e => exact ⟨e, rfl, (herr e rfl).1⟩
    | ok reply =>
      obtain ⟨-, ⟨i, hi, hwritable⟩, -⟩ := hok reply rfl
      rw [hanswers.answered_today hlatest hi] at hwritable
      exact absurd (readable_of_writable hwritable) hbeyond

end Lock

theorem closing_nonneg : 0 ≤ 18 * 3600 * Boutique.second := by decide

theorem closing_lt_day : 18 * 3600 * Boutique.second < day := by decide

def greenwich : Zone where
  wallOf x := x
  instantOf x := x
  midnight_le x := Int.ediv_mul_le x Boutique.day_ne_zero
  lt_midnight x := Int.lt_ediv_add_one_mul_self x Boutique.day_pos

def plainCalendar : Calendar where
  zone := greenwich
  fromisoformat shown := if shown = "18:00" then some ⟨18 * 3600 * Boutique.second, closing_nonneg, closing_lt_day⟩ else none
  stored := none

def closing : Int := 6 * day + 18 * 3600 * Boutique.second

def atInstant (late : Bool) (_ : Ask) (i : Input) : Prop := i = ⟨6, late, some true, []⟩

theorem answers_atInstant {late : Bool} {clock : Int} (hday : clock / day = 6)
    (hlate : plainCalendar.afterDeadline 10 clock = .ok late) : Answers plainCalendar (atInstant late) 10 clock := by
  constructor
  · rintro i rfl
    exact hday.symm
  · rintro i late' rfl hlate'
    cases hlate.symm.trans hlate'
    rfl

def quietWeek : World schema outside := ⟨atRest (listed (S := schema) twoShifts) 3 100, ⟨3, fun _ => 3⟩⟩

/-- She is refused at six sharp, and served a microsecond before. -/
theorem locked_is_refused_at_six :
    (∀ x w', Solo (atInstant true) 0 (submit (twoSaves 0).actor (twoSaves 0).body) quietWeek x w' →
      ∃ e, x = .error e ∧ w'.db.committed = quietWeek.db.committed) ∧
    ∃ reply w', Solo (atInstant false) 0 (submit (twoSaves 0).actor (twoSaves 0).body) quietWeek (.ok reply) w' := by
  have hrest : quietWeek.db.Unheld := atRest_unheld twoShifts_shelved
  have hserved : ∀ late, ∃ i, ∀ asked, atInstant late asked i := fun late => ⟨_, fun _ => rfl⟩
  have hlate : Answers plainCalendar (atInstant true) (twoSaves 0).weekStart closing :=
    answers_atInstant (by decide) (by decide)
  have hearly : Answers plainCalendar (atInstant false) (twoSaves 0).weekStart (closing - 1) :=
    answers_atInstant (by decide) (by decide)
  constructor
  · have hall := @locked_is_refused _ _ 0 _ ⟨7, .salesAssistant⟩ _ _ hrest (.inl rfl) (hserved true) hlate (by decide) rfl
    exact (hall.1 none ⟨10, 16, closing, true⟩ (by decide) rfl).1 rfl
  · have hall := @locked_is_refused _ _ 0 _ ⟨7, .salesAssistant⟩ _ _ hrest (.inl rfl) (hserved false) hearly (by decide) rfl
    obtain ⟨⟨x, w', hrun⟩, hok⟩ := (hall.1 none ⟨10, 16, closing, false⟩ (by decide) rfl).2 rfl (by decide)
      (by rintro i rfl; exact nofun) (by
        intro T hT
        cases List.mem_singleton.1 hT
        exact ⟨sundayMorning 1, rfl, rfl⟩)
    obtain ⟨reply, rfl⟩ := hok x w' hrun
    exact ⟨reply, w', hrun⟩

end Rota
