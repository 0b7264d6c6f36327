import Boutique.Rota
import Mathlib.Data.Finset.Image
/-!
# OnShift — whom the published roster puts on shift at an instant

One SELECT joins the week's published roster with its assignments and the templates that contain the moment; the same
rule stands beside it as a predicate of one template.  Both read the boutique's wall clock, converted once.
-/
namespace Rota

open Txn Session
open Shifts (ShiftTemplate currentWeekStart)
open Boutique (jerusalemDayIndex)

def jerusalemMoment (wallOf : Int → Int) (at_ : Int) : Int × Int × Int :=
  let local_ := wallOf at_
  (local_ / Boutique.day, local_ % Boutique.day, jerusalemDayIndex (local_ / Boutique.day))

/-- Half-open: a shift does not contain the moment it ends at. -/
def templateCovers (template : ShiftTemplate) (localTime dayIndex : Int) : Bool :=
  template.dayOfWeek = dayIndex ∧ template.startsAtTime.micros ≤ localTime ∧ localTime < template.endsAtTime.micros

def joined (s : Snapshot schema) (week localTime dayIndex : Int) (a : RosterAssignment) : Bool :=
  a.deletedAt = none ∧
    ((s.rows .rosters a.rosterId).any fun (r : Roster) =>
      r.deletedAt = none ∧ r.weekStart = week ∧ r.publishedAt ≠ none) ∧
    (s.rows .shiftTemplates a.shiftTemplateId).any fun (t : ShiftTemplate) =>
      t.deletedAt = none ∧ t.dayOfWeek = dayIndex ∧ t.startsAtTime.micros ≤ localTime ∧ localTime < t.endsAtTime.micros

/-- **Who is on shift at an instant**, by the published roster of its week. -/
def onShiftStaffIds (s : Snapshot schema) (wallOf : Int → Int) (at_ : Int) : Finset Nat :=
  let (localDate, localTime, dayIndex) := jerusalemMoment wallOf at_
  let week := currentWeekStart localDate
  (((s.all .rosterAssignments).filter (joined s week localTime dayIndex)).map RosterAssignment.staffUserId).toFinset

/-! ## The rule, and the statement that repeats it -/

variable {s : Snapshot schema} {wallOf : Int → Int} {at_ : Int} {r : Roster} {t : ShiftTemplate}

def Assigned (s : Snapshot schema) (r : Roster) (t : ShiftTemplate) (staff : Nat) : Prop :=
  ∃ k, ∃ a : RosterAssignment, s.rows .rosterAssignments k = some a ∧ a.deletedAt = none ∧ a.rosterId = r.id ∧
    a.shiftTemplateId = t.id ∧ a.staffUserId = staff

def Stands (s : Snapshot schema) (t : ShiftTemplate) : Prop :=
  ∃ k, s.rows .shiftTemplates k = some t ∧ t.deletedAt = none

/-- **The moment is of a week** that opens on a Sunday exactly while the wall clock is between its two midnights. -/
theorem currentWeekStart_iff {week x : Int} (hsunday : jerusalemDayIndex week = 0) :
    currentWeekStart (x / Boutique.day) = week ↔ week * Boutique.day ≤ x ∧ x < (week + 7) * Boutique.day := by
  simp only [currentWeekStart, jerusalemDayIndex, Boutique.day, Boutique.second] at *
  omega

theorem mem_onShift {staff : Nat} : staff ∈ onShiftStaffIds s wallOf at_ ↔
    ∃ a : RosterAssignment, a ∈ s.all .rosterAssignments ∧
      joined s (currentWeekStart (jerusalemMoment wallOf at_).1) (jerusalemMoment wallOf at_).2.1
        (jerusalemMoment wallOf at_).2.2 a = true ∧ a.staffUserId = staff := by
  simp only [onShiftStaffIds, List.mem_toFinset, List.mem_map, List.mem_filter, and_assoc]

theorem joined_iff {week localTime dayIndex : Int} {a : RosterAssignment} : joined s week localTime dayIndex a = true ↔
    a.deletedAt = none ∧
      (∃ r : Roster, s.rows .rosters a.rosterId = some r ∧ r.deletedAt = none ∧ r.weekStart = week ∧ r.publishedAt ≠ none) ∧
      ∃ t : ShiftTemplate, s.rows .shiftTemplates a.shiftTemplateId = some t ∧ t.deletedAt = none ∧
        templateCovers t localTime dayIndex = true := by
  simp only [joined, templateCovers, decide_eq_true_eq, Option.any_eq_true]

theorem onShift_iff (h : Shelved s.rows s.next) {k : Nat} (hr : s.rows .rosters k = some r) (hlive : r.deletedAt = none)
    (hpublished : r.publishedAt ≠ none) (hfrom : r.weekStart * Boutique.day ≤ wallOf at_)
    (huntil : wallOf at_ < (r.weekStart + 7) * Boutique.day) {staff : Nat} :
    staff ∈ onShiftStaffIds s wallOf at_ ↔
      ∃ t, Stands s t ∧ templateCovers t (jerusalemMoment wallOf at_).2.1 (jerusalemMoment wallOf at_).2.2 = true ∧
        Assigned s r t staff := by
  have hid : r.id = k := h.consistent.id _ _ _ hr
  have hcheck : rowCheck .rosters r = true := h.consistent.check _ _ _ hr
  have hsunday : jerusalemDayIndex r.weekStart = 0 := (of_decide_eq_true hcheck).1
  have hweek : currentWeekStart (jerusalemMoment wallOf at_).1 = r.weekStart :=
    (currentWeekStart_iff hsunday).2 ⟨hfrom, huntil⟩
  rw [mem_onShift, hweek]
  constructor
  · rintro ⟨a, ha, hjoined, hstaff⟩
    obtain ⟨hdeleted, ⟨r', hr', hlive', hweek', -⟩, t, ht, htlive, hcovers⟩ := joined_iff.1 hjoined
    obtain ⟨j, -, hj⟩ := Snapshot.mem_all.1 ha
    -- one live roster a week: the assignment's is this one
    have hsame : a.rosterId = k := by
      by_contra hne
      have happart : clash .rosters r' r = false := h.consistent.apart _ _ _ _ _ hr' hr hne
      exact of_decide_eq_false happart ⟨hlive', hlive, hweek'⟩
    have htid : t.id = a.shiftTemplateId := h.consistent.id _ _ _ ht
    exact ⟨t, ⟨_, ht, htlive⟩, hcovers, j, a, hj, hdeleted, hsame.trans hid.symm, htid.symm, hstaff⟩
  · rintro ⟨t, ⟨i, ht, htlive⟩, hcovers, j, a, hj, hdeleted, hroster, htemplate, hstaff⟩
    have htid : t.id = i := h.consistent.id _ _ _ ht
    refine ⟨a, Snapshot.mem_all.2 ⟨j, h.lt _ _ _ hj, hj⟩, joined_iff.2 ⟨hdeleted, ⟨r, ?_, hlive, rfl, hpublished⟩, t, ?_, htlive,
      hcovers⟩, hstaff⟩
    · rw [hroster, hid]
      exact hr
    · rw [htemplate, htid]
      exact ht

theorem covers_handover {outgoing incoming : ShiftTemplate} {localTime dayIndex : Int} (hends : outgoing.endsAtTime.micros = localTime)
    (hstarts : incoming.startsAtTime.micros = localTime) (hday : incoming.dayOfWeek = dayIndex)
    (hcheck : rowCheck .shiftTemplates incoming = true) :
    templateCovers outgoing localTime dayIndex = false ∧ templateCovers incoming localTime dayIndex = true := by
  obtain ⟨-, horder⟩ : (0 ≤ incoming.dayOfWeek ∧ incoming.dayOfWeek ≤ 6) ∧
      incoming.startsAtTime.micros < incoming.endsAtTime.micros := of_decide_eq_true hcheck
  simp only [templateCovers, decide_eq_false_iff_not, decide_eq_true_eq]
  exact ⟨by omega, hday, by omega, by omega⟩

/-- **The SELECT and the rule agree**: while the wall clock is in the week of a published roster, whoever the statement answers
is whoever has a live assignment of that roster to a live template that covers the moment; and at the moment one shift ends
and the next begins, where no third covers it, those are the incoming shift's. -/
theorem on_shift_agrees (h : Shelved s.rows s.next) {k : Nat} (hr : s.rows .rosters k = some r) (hlive : r.deletedAt = none)
    (hpublished : r.publishedAt ≠ none) (hfrom : r.weekStart * Boutique.day ≤ wallOf at_)
    (huntil : wallOf at_ < (r.weekStart + 7) * Boutique.day) :
    (∀ staff, staff ∈ onShiftStaffIds s wallOf at_ ↔
      ∃ t, Stands s t ∧ templateCovers t (jerusalemMoment wallOf at_).2.1 (jerusalemMoment wallOf at_).2.2 = true ∧
        Assigned s r t staff) ∧
    ∀ outgoing incoming, Stands s outgoing → Stands s incoming →
      outgoing.endsAtTime.micros = (jerusalemMoment wallOf at_).2.1 →
      incoming.startsAtTime.micros = (jerusalemMoment wallOf at_).2.1 →
      incoming.dayOfWeek = (jerusalemMoment wallOf at_).2.2 →
      (∀ t, Stands s t → t ≠ outgoing → t ≠ incoming →
        templateCovers t (jerusalemMoment wallOf at_).2.1 (jerusalemMoment wallOf at_).2.2 = false) →
      ∀ staff, staff ∈ onShiftStaffIds s wallOf at_ ↔ Assigned s r incoming staff := by
  have hiff : ∀ staff, staff ∈ onShiftStaffIds s wallOf at_ ↔ ∃ t, Stands s t ∧
      templateCovers t (jerusalemMoment wallOf at_).2.1 (jerusalemMoment wallOf at_).2.2 = true ∧ Assigned s r t staff :=
    fun _ => onShift_iff h hr hlive hpublished hfrom huntil
  refine ⟨hiff, fun outgoing incoming _ hin hends hstarts hday hothers staff => (hiff staff).trans ?_⟩
  obtain ⟨i, hi, hilive⟩ := hin
  obtain ⟨hout, hcovers⟩ := covers_handover hends hstarts hday (h.consistent.check _ _ _ hi)
  constructor
  · rintro ⟨t, ht, htcovers, hassigned⟩
    by_cases hto : t = outgoing
    · rw [hto, hout] at htcovers
      cases htcovers
    · by_cases hti : t = incoming
      · exact hti ▸ hassigned
      · rw [hothers t ht hto hti] at htcovers
        cases htcovers
  · exact fun hassigned => ⟨incoming, ⟨i, hi, hilive⟩, hcovers, hassigned⟩

/-! ## A handover at noon -/

def nine : Boutique.WallTime := ⟨9 * 3600 * Boutique.second, Boutique.nine_nonneg, Boutique.nine_lt_day⟩

def noon : Boutique.WallTime := ⟨12 * 3600 * Boutique.second, Boutique.noon_nonneg, Boutique.noon_lt_day⟩

theorem six_nonneg : 0 ≤ 18 * 3600 * Boutique.second := by decide

theorem six_lt_day : 18 * 3600 * Boutique.second < Boutique.day := by decide

/-- Staffer 10 has the morning of a Sunday, and staffer 11 its afternoon. -/
def handover : (T : Table) → List (Row T)
  | .shiftTemplates => [
    (⟨0, 0, none, 0, "morning", nine, noon, 0, []⟩ : ShiftTemplate),
    (⟨1, 0, none, 0, "afternoon", noon, ⟨18 * 3600 * Boutique.second, six_nonneg, six_lt_day⟩, 1, []⟩ : ShiftTemplate)]
  | .rosters => [(⟨2, 0, none, 3, some 0, some 0⟩ : Roster)]
  | .rosterAssignments => [
    (⟨3, 0, none, none, 2, 0, 10, false, 0, none⟩ : RosterAssignment),
    (⟨4, 0, none, none, 2, 1, 11, false, 0, none⟩ : RosterAssignment)]
  | _ => []

theorem handover_shelved : Shelved (listed (S := schema) handover) 5 :=
  shelved_of_stocked [.shiftTemplates, .staffAvailability, .rosters, .rosterAssignments, .auditLog]
    (fun T => by cases T <;> decide) (by decide)

/-- The afternoon of that Sunday is staffer 11's from its first moment. -/
theorem on_shift_agrees_noon :
    11 ∈ onShiftStaffIds ⟨listed (S := schema) handover, 5⟩ id (3 * Boutique.day + noon.micros) := by
  refine ((on_shift_agrees (s := ⟨listed (S := schema) handover, 5⟩) (r := ⟨2, 0, none, 3, some 0, some 0⟩) (k := 2)
    handover_shelved rfl rfl (by decide) (by decide) (by decide)).1 11).2 ?_
  refine ⟨(⟨1, 0, none, 0, "afternoon", noon, ⟨18 * 3600 * Boutique.second, six_nonneg, six_lt_day⟩, 1, []⟩ : ShiftTemplate),
    ⟨1, rfl, rfl⟩, by decide, 4, (⟨4, 0, none, none, 2, 1, 11, false, 0, none⟩ : RosterAssignment), rfl, rfl, rfl, rfl, rfl⟩

end Rota
