import Boutique.Answers
import Boutique.TxnSolo
/-!
# SavedAlone — a week saved with nobody beside

What one save makes of the tables where no other request moves: the week becomes the map that was sent, no row of another
staffer or week is touched, the audit says so exactly when something changed, and the same save again changes nothing.
-/
namespace Rota

open Txn Session
open Shifts (ShiftTemplate)
open Boutique (jerusalemDayIndex)

/-- **What a save has made of the week it found**, `b` being the committed tables and `s₀` those its transaction began with. -/
structure Amends (q : Submission) (b s₀ : Rows schema) (B : Nat → Answer → Prop) (s : Txn.Draft schema outside) : Prop where
  sound : s.Sound
  base : s.base = b
  means : ∀ T a, Says s.rows q.staff q.weekStart T a ↔ B T a
  others : ∀ i (r : StaffAvailability), r.ofWeek q.staff q.weekStart = false →
    (s.rows .staffAvailability i = some r ↔ s₀ .staffAvailability i = some r)
  tables : ∀ T, T ≠ .staffAvailability → s.rows T = s₀ T

variable {Q : Except Err Unit → Txn.Draft schema outside → Prop}

section Rules

variable {A : Ask → Input → Prop} {t : Tid} {q : Submission} {b s₀ : Rows schema} {B B' : Nat → Answer → Prop}
  {s : Txn.Draft schema outside} {T : Nat} {r v : StaffAvailability} {i : Nat}

theorem Amends.turn (h : Amends q b s₀ B s) (hB : ∀ T a, B T a ↔ B' T a) : Amends q b s₀ B' s :=
  ⟨h.sound, h.base, fun T a => (h.means T a).trans (hB T a), h.others, h.tables⟩

theorem Amends.write (h : Amends q b s₀ B s) (hs : (s.write .staffAvailability i r).Sound)
    (hmeans : ∀ T a, Says (s.rows.set .staffAvailability i r) q.staff q.weekStart T a ↔ B' T a)
    (hnew : r.ofWeek q.staff q.weekStart = true)
    (hold : ∀ v : StaffAvailability, s.rows .staffAvailability i = some v → v.ofWeek q.staff q.weekStart = true) :
    Amends q b s₀ B' (s.write .staffAvailability i r) := by
  refine ⟨hs, h.base, hmeans, fun j x hx => ?_, fun T hT => ?_⟩
  · rw [← h.others j x hx]
    by_cases hj : j = i
    · subst hj
      rw [Txn.Draft.write_same]
      constructor
      · intro heq
        cases heq
        rw [hnew] at hx
        cases hx
      · intro heq
        rw [hold x heq] at hx
        cases hx
    · rw [Txn.Draft.write_row hj]
  · rw [Txn.Draft.write_table hT, h.tables T hT]

theorem stands_of_refused (hcheck : rowCheck .staffAvailability r = true) (hr : r.standsFor q.staff q.weekStart T = true)
    (href : s.Refused .staffAvailability i r) :
    ∃ j, ∃ v : StaffAvailability, j ≠ i ∧ s.rows .staffAvailability j = some v ∧ v.standsFor q.staff q.weekStart T = true := by
  obtain hbad | ⟨j, -, hj, hclash⟩ := href
  · rw [show schema.check .staffAvailability r = rowCheck .staffAvailability r from rfl, hcheck] at hbad
    cases hbad
  · obtain ⟨v, hv, hclash⟩ := (Option.any_eq_true ..).1 hclash
    refine ⟨j, v, hj, hv, ?_⟩
    have hclash : clash .staffAvailability r v = true := hclash
    obtain ⟨hweek, htemplate, -⟩ := standsFor_iff.1 hr
    simp only [StaffAvailability.ofWeek, decide_eq_true_eq] at hweek
    simp only [clash, decide_eq_true_eq] at hclash
    obtain ⟨-, hlive, hstaff, hshift, hwk⟩ := hclash
    refine standsFor_iff.2 ⟨?_, hshift.symm.trans htemplate, hlive⟩
    simp only [StaffAvailability.ofWeek, decide_eq_true_eq]
    exact ⟨hstaff.symm.trans hweek.1, hwk.symm.trans hweek.2⟩

theorem Amends.grown (h : Amends q b s₀ B s) : Amends q b s₀ B s.grown :=
  ⟨h.sound.grown, h.base, h.means, h.others, h.tables⟩

theorem Amends.answer (h : Amends q b s₀ B s) (hs : (s.write .staffAvailability i r).Sound)
    (hr : r.standsFor q.staff q.weekStart T = true)
    (hone : ∀ j (x : StaffAvailability), s.rows .staffAvailability j = some x → x.standsFor q.staff q.weekStart T = true → j = i)
    (hold : ∀ x : StaffAvailability, s.rows .staffAvailability i = some x → x.standsFor q.staff q.weekStart T = true) :
    Amends q b s₀ (amended B T (r.state, r.recordedBy)) (s.write .staffAvailability i r) := by
  refine h.write hs (fun T' a => ?_) (standsFor_iff.1 hr).1 fun x hx => (standsFor_iff.1 (hold x hx)).1
  rw [says_set hr hone fun x hx T' hs' => (standsFor_iff.1 hs').2.1.symm.trans (standsFor_iff.1 (hold x hx)).2.1]
  unfold amended
  rw [h.means]

theorem setState_rule {state : AvailabilityState} {recordedBy : Option Nat} {answered : Hours}
    (hsunday : jerusalemDayIndex q.weekStart = 0) (h : Amends q b s₀ B s)
    (hok : ∀ s', Amends q b s₀ (amended B T (state, recordedBy)) s' → Q (.ok ()) s') :
    (setState q.staff T q.weekStart state recordedBy answered).wp (drafts A t) Q s := by
  have hrows := h.sound.rows.consistent
  have hid := hrows.id .staffAvailability
  have hmem := fun i => mem_matching_iff (s := s.snapshot) (i := i)
    (p := fun r : StaffAvailability => r.standsFor q.staff q.weekStart T) hid
  refine drafts_select ?_
  change ((updateEach .staffAvailability _ (matching s.snapshot Table.staffAvailability
    fun r : StaffAvailability => r.standsFor q.staff q.weekStart T)) >>= _).wp (drafts A t) Q s
  obtain hselected | ⟨i, hselected⟩ := matching_cases (s := s.snapshot) (p := fun r : StaffAvailability =>
    r.standsFor q.staff q.weekStart T) hid fun i j r r' hr hr' hs hs' => stands_once hrows hr hr' hs hs'
  · -- no answer stands: the INSERT
    rw [hselected]
    have hfree : ∀ (j : Nat) (x : StaffAvailability), s.rows .staffAvailability j = some x →
        ¬x.standsFor q.staff q.weekStart T = true := by
      intro j x hx hs
      have hj := (hmem j).2 ⟨h.sound.rows.lt _ _ _ hx, x, hx, hs⟩
      rw [hselected] at hj
      cases hj
    have hnew : StaffAvailability.standsFor (s.stamped .staffAvailability
        (⟨0, 0, none, q.staff, T, q.weekStart, state, recordedBy, answered⟩ : StaffAvailability)) q.staff q.weekStart T = true := by
      simp [Txn.Draft.stamped, stamp, StaffAvailability.standsFor, StaffAvailability.ofWeek, StaffAvailability.live]
    refine drafts_insert_row (e := Err.integrity) (fun href => ?_) fun hw => ?_
    · have hcheck : rowCheck .staffAvailability (s.stamped .staffAvailability
          (⟨0, 0, none, q.staff, T, q.weekStart, state, recordedBy, answered⟩ : StaffAvailability)) = true :=
        decide_eq_true hsunday
      obtain ⟨j, x, -, hx, hs⟩ := stands_of_refused hcheck hnew href
      exact absurd hs (hfree j x hx)
    · refine hok _ (h.grown.answer hw hnew (fun j x hx hs => absurd hs (hfree j x hx)) fun x hx => ?_)
      exact absurd (h.sound.rows.lt _ _ _ hx) (Nat.lt_irrefl _)
  · -- one stands: the UPDATE
    rw [hselected]
    obtain ⟨-, x, hx, hs⟩ := (hmem i).1 (by rw [hselected]; exact List.mem_singleton_self i)
    have hx : s.rows .staffAvailability i = some x := hx
    refine drafts_bind ?_
    change (Session.update (V := outside) (S := schema) Err.integrity Table.staffAvailability i
      (StaffAvailabilityChange.setState q.staff T q.weekStart state recordedBy answered) >>= _).wp (drafts A t) _ s
    have happly : StaffAvailabilityChange.apply x (.setState q.staff T q.weekStart state recordedBy answered) =
        some { x with state := state, recordedBy := recordedBy, answered := answered } := if_pos (standsFor_iff.1 hs)
    have hwritten : ∀ v r : StaffAvailability, s.rows .staffAvailability i = some v →
        StaffAvailabilityChange.apply v (.setState q.staff T q.weekStart state recordedBy answered) = some r →
          v = x ∧ r = { x with state := state, recordedBy := recordedBy, answered := answered } := by
      intro v r hv hr
      rw [hx] at hv
      cases hv
      rw [happly] at hr
      cases hr
      exact ⟨rfl, rfl⟩
    refine drafts_update_row (fun hnone => ?_) (fun v r hv hr href => ?_) fun v r hv hr _ hw => ?_
    · rw [hx] at hnone
      cases happly.symm.trans hnone
    · obtain ⟨rfl, rfl⟩ := hwritten v r hv hr
      have hcheck : rowCheck .staffAvailability v = true := hrows.check _ _ _ hx
      obtain ⟨j, y, hj, hy, hs'⟩ := stands_of_refused (r := { v with state := state, recordedBy := recordedBy, answered := answered })
        hcheck hs href
      exact absurd (stands_once hrows hy hx hs' hs) hj
    · obtain ⟨rfl, rfl⟩ := hwritten v r hv hr
      refine hok _ (h.answer hw hs (fun j y hy hs' => stands_once hrows hy hx hs' hs) fun y hy => ?_)
      rw [hx] at hy
      cases hy
      exact hs

theorem setEach_rule {want : Nat → Answer → Prop} {recordedBy : Option Nat}
    (hsunday : jerusalemDayIndex q.weekStart = 0) :
    ∀ (entries : List Entry) (B : Nat → Answer → Prop) (s : Txn.Draft schema outside),
      (∀ entry ∈ entries, ∀ a, want entry.shiftTemplateId a ↔ a = (entry.state, recordedBy)) → Amends q b s₀ B s →
      (∀ s', Amends q b s₀ (filled want (entries.map Entry.shiftTemplateId) B) s' → Q (.ok ()) s') →
      (setEach q.staff q.weekStart recordedBy entries).wp (drafts A t) Q s
  | [], B, s, _, h, hok => hok s (h.turn fun T a => by simp [filled])
  | entry :: rest, B, s, hwant, h, hok => by
    refine drafts_bind (setState_rule hsunday h fun s1 h1 => ?_)
    refine setEach_rule hsunday rest _ s1 (fun e he => hwant e (List.mem_cons_of_mem _ he)) h1 fun s2 h2 =>
      hok s2 (h2.turn fun T a => ?_)
    have hentry := hwant entry List.mem_cons_self a
    by_cases hT : T = entry.shiftTemplateId
    · subst hT
      by_cases hin : entry.shiftTemplateId ∈ rest.map Entry.shiftTemplateId <;> simp [filled, amended, hin, hentry]
    · simp [filled, amended, hT]

def cleared (staffUserId : Nat) (weekStart : Int) (Ts : List Nat) (now : Int) (r : StaffAvailability) : StaffAvailability :=
  (StaffAvailabilityChange.apply r (.clear staffUserId weekStart Ts now)).getD r

theorem apply_clear (s : Nat) (w : Int) (Ts : List Nat) (now : Int) (r : StaffAvailability) :
    (StaffAvailabilityChange.apply r (.clear s w Ts now) = some { r with deletedAt := some now } ∧
      r.ofWeek s w = true ∧ r.shiftTemplateId ∈ Ts ∧ r.live = true) ∨
    (StaffAvailabilityChange.apply r (.clear s w Ts now) = none ∧
      ¬(r.ofWeek s w = true ∧ r.shiftTemplateId ∈ Ts ∧ r.live = true)) := by
  by_cases h : r.ofWeek s w = true ∧ r.shiftTemplateId ∈ Ts ∧ r.live = true
  · exact Or.inl ⟨if_pos h, h⟩
  · exact Or.inr ⟨if_neg h, h⟩

variable {w now : Int} {Ts done : List Nat} {s' : Txn.Draft schema outside}

theorem apply_cleared {s : Nat} (r : StaffAvailability) :
    StaffAvailabilityChange.apply (cleared s w Ts now r) (.clear s w Ts now) = none := by
  unfold cleared
  obtain ⟨h, -⟩ | ⟨h, -⟩ := apply_clear s w Ts now r
  · rw [h]
    simp [StaffAvailabilityChange.apply, StaffAvailability.live]
  · rw [h]
    exact h

theorem cleared_stands {s T : Nat} (r : StaffAvailability) :
    (cleared s w Ts now r).standsFor s w T = true ↔ r.standsFor s w T = true ∧ T ∉ Ts := by
  unfold cleared
  obtain ⟨h, -, hT, -⟩ | ⟨h, hnot⟩ := apply_clear s w Ts now r
  · rw [h, Option.getD_some, standsFor_iff, standsFor_iff]
    constructor
    · rintro ⟨-, -, hlive⟩
      cases hlive
    · rintro ⟨⟨-, htemplate, -⟩, hT'⟩
      exact absurd (htemplate ▸ hT) hT'
  · rw [h, Option.getD_none, standsFor_iff]
    constructor
    · intro hs
      exact ⟨hs, fun hT => hnot ⟨hs.1, hs.2.1.symm ▸ hT, hs.2.2⟩⟩
    · exact fun hs => hs.1

theorem cleared_answer (s : Nat) (w : Int) (Ts : List Nat) (now : Int) (r : StaffAvailability) :
    (cleared s w Ts now r).state = r.state ∧ (cleared s w Ts now r).recordedBy = r.recordedBy ∧
      (cleared s w Ts now r).ofWeek s w = r.ofWeek s w := by
  unfold cleared
  obtain ⟨h, -⟩ | ⟨h, -⟩ := apply_clear s w Ts now r <;> rw [h] <;> exact ⟨rfl, rfl, rfl⟩

theorem cleared_other {s : Nat} {r : StaffAvailability} (hr : r.ofWeek s w = false) : cleared s w Ts now r = r := by
  unfold cleared
  obtain ⟨-, hweek, -⟩ | ⟨h, -⟩ := apply_clear s w Ts now r
  · rw [hr] at hweek
    cases hweek
  · rw [h, Option.getD_none]

/-- **The removals of a save, those under way**: the rows of `done` are through. -/
structure Clears (q : Submission) (Ts : List Nat) (now : Int) (s : Txn.Draft schema outside) (done : List Nat)
    (s' : Txn.Draft schema outside) : Prop where
  base : s'.base = s.base
  tables : ∀ T, T ≠ .staffAvailability → s'.rows T = s.rows T
  rows : ∀ i, (s'.rows .staffAvailability i : Option StaffAvailability) =
    if i ∈ done then (s.rows .staffAvailability i : Option StaffAvailability).map (cleared q.staff q.weekStart Ts now)
    else s.rows .staffAvailability i

theorem Clears.skip (h : Clears q Ts now s done s')
    (hnone : (s'.rows .staffAvailability i : Option StaffAvailability).bind
      (StaffAvailabilityChange.apply · (.clear q.staff q.weekStart Ts now)) = none) :
    Clears q Ts now s (i :: done) s' := by
  refine ⟨h.base, h.tables, fun j => ?_⟩
  rw [h.rows j]
  by_cases hj : j ∈ done
  · rw [if_pos hj, if_pos (List.mem_cons_of_mem i hj)]
  rw [if_neg hj]
  by_cases hji : j = i
  · subst hji
    rw [if_pos List.mem_cons_self]
    rw [h.rows j, if_neg hj] at hnone
    cases hr : (s.rows .staffAvailability j : Option StaffAvailability) with
    | none => rfl
    | some r =>
      rw [hr, Option.bind_some] at hnone
      simp [cleared, hnone]
  · rw [if_neg (by simp [hji, hj])]

theorem Clears.take (h : Clears q Ts now s done s') (hv : s'.rows .staffAvailability i = some v)
    (hr : StaffAvailabilityChange.apply v (.clear q.staff q.weekStart Ts now) = some r) :
    Clears q Ts now s (i :: done) (s'.write .staffAvailability i r) := by
  have hi : i ∉ done := by
    intro hi
    have hrow := h.rows i
    rw [if_pos hi, hv] at hrow
    obtain ⟨u, -, rfl⟩ := Option.map_eq_some_iff.1 hrow.symm
    rw [apply_cleared] at hr
    cases hr
  refine ⟨h.base, fun T hT => ?_, fun j => ?_⟩
  · rw [Txn.Draft.write_table hT]
    exact h.tables T hT
  · by_cases hji : j = i
    · subst hji
      have hrow : s.rows .staffAvailability j = some v := by rw [← hv, h.rows j, if_neg hi]
      rw [if_pos List.mem_cons_self, hrow, Option.map_some]
      simp [Txn.Draft.write_same, cleared, hr]
    · have hmem : j ∈ i :: done ↔ j ∈ done := by simp [hji]
      rw [show (s'.write .staffAvailability i r).rows .staffAvailability j = s'.rows .staffAvailability j from
        Txn.Draft.write_row hji, h.rows j]
      simp only [hmem]

theorem Clears.amends (h : Clears q Ts now s done s') (hs : Amends q b s₀ B s) (hs' : s'.Sound)
    (hdone : ∀ i (r : StaffAvailability), s.rows .staffAvailability i = some r → r.ofWeek q.staff q.weekStart = true →
      r.shiftTemplateId ∈ Ts → r.live = true → i ∈ done) : Amends q b s₀ (fun T a => B T a ∧ T ∉ Ts) s' := by
  have hrows : ∀ i, (s'.rows .staffAvailability i : Option StaffAvailability) =
      (s.rows .staffAvailability i : Option StaffAvailability).map (cleared q.staff q.weekStart Ts now) := by
    intro i
    rw [h.rows i]
    by_cases hi : i ∈ done
    · rw [if_pos hi]
    · rw [if_neg hi]
      cases hr : (s.rows .staffAvailability i : Option StaffAvailability) with
      | none => rfl
      | some r =>
        obtain ⟨-, hmatch⟩ | ⟨hnone, -⟩ := apply_clear q.staff q.weekStart Ts now r
        · exact absurd (hdone i r hr hmatch.1 hmatch.2.1 hmatch.2.2) hi
        · simp [cleared, hnone]
  refine ⟨hs', h.base.trans hs.base, fun T a => ?_, fun i r hr => ?_, fun T hT => (h.tables T hT).trans (hs.tables T hT)⟩
  · rw [← hs.means]
    constructor
    · rintro ⟨i, r', hr', hstands, ha⟩
      rw [hrows] at hr'
      obtain ⟨r, hr, rfl⟩ := Option.map_eq_some_iff.1 hr'
      obtain ⟨hstate, hby, -⟩ := cleared_answer q.staff q.weekStart Ts now r
      obtain ⟨hstands, hT⟩ := (cleared_stands r).1 hstands
      exact ⟨⟨i, r, hr, hstands, by rw [← ha, hstate, hby]⟩, hT⟩
    · rintro ⟨⟨i, r, hr, hstands, ha⟩, hT⟩
      obtain ⟨hstate, hby, -⟩ := cleared_answer q.staff q.weekStart Ts now r
      refine ⟨i, cleared q.staff q.weekStart Ts now r, ?_, (cleared_stands r).2 ⟨hstands, hT⟩, by rw [← ha, hstate, hby]⟩
      rw [hrows, hr, Option.map_some]
  · rw [← hs.others i r hr, hrows]
    constructor
    · intro heq
      obtain ⟨u, hu, hcleared⟩ := Option.map_eq_some_iff.1 heq
      have hweek : u.ofWeek q.staff q.weekStart = false := by
        rw [← (cleared_answer q.staff q.weekStart Ts now u).2.2, hcleared, hr]
      rw [cleared_other hweek] at hcleared
      rw [hu, hcleared]
    · intro heq
      rw [heq, Option.map_some, cleared_other hr]

theorem softDeletePairs_rule {txNow : Int} (h : Amends q b s₀ B s)
    (hok : ∀ s', Amends q b s₀ (fun T a => B T a ∧ T ∉ Ts) s' → Q (.ok ()) s') :
    (softDeletePairs q.staff q.weekStart Ts txNow).wp (drafts A t) Q s := by
  unfold softDeletePairs
  refine drafts_ite (fun hempty => ?_) fun _ => drafts_select ?_
  · exact hok s (h.turn fun T a => by simp [List.isEmpty_iff.1 hempty])
  have hid := h.sound.rows.consistent.id .staffAvailability
  refine drafts_updateEach (e := Err.integrity) (T := Table.staffAvailability)
    (g := StaffAvailabilityChange.clear q.staff q.weekStart Ts txNow) (Clears q Ts txNow s) []
    ⟨rfl, fun _ _ => rfl, fun i => by simp⟩ h.sound (fun done i s' hI hnone => ?_) (fun done i s' v r hI hv hr => ?_)
    (fun done i s' v r hI hs' hv hr href => ?_) fun rs done s' hI hdone hs' => ?_
  · exact hI.skip hnone
  · exact hI.take hv hr
  · obtain ⟨happly, -⟩ | ⟨hnone, -⟩ := apply_clear q.staff q.weekStart Ts txNow v
    · have hr : StaffAvailabilityChange.apply v (.clear q.staff q.weekStart Ts txNow) = some r := hr
      rw [happly] at hr
      cases hr
      have hcheck : rowCheck .staffAvailability v = true := hs'.rows.consistent.check _ _ _ hv
      obtain hbad | ⟨j, -, -, hclash⟩ := href
      · exact absurd (hbad.symm.trans hcheck) (by decide)
      · obtain ⟨u, -, hclash⟩ := (Option.any_eq_true ..).1 hclash
        have hclash : clash .staffAvailability { v with deletedAt := some txNow } u = true := hclash
        simp [clash, StaffAvailability.live] at hclash
    · cases hnone.symm.trans hr
  · refine hok s' (hI.amends h hs' fun i r hr hweek hT hlive => (hdone i).2 (.inl ?_))
    exact (mem_matching_iff (s := s.snapshot) hid).2 ⟨h.sound.rows.lt _ _ _ hr, r, hr, by simp [hweek, hT, hlive]⟩

end Rules

/-! ## One save -/

/-- **What a save makes of the tables**: her week is the map she sent, each answer with its recorder; nobody else's week is
touched; one audit row says so exactly when the week changed; and where it stood as sent, nothing is written. -/
structure SavedFrom (q : Submission) (rows rows' : Rows schema) : Prop where
  means : ∀ T a, Says rows' q.staff q.weekStart T a ↔ q.wants T a
  others : ∀ i (r : StaffAvailability), r.ofWeek q.staff q.weekStart = false →
    (rows' .staffAvailability i = some r ↔ rows .staffAvailability i = some r)
  tables : ∀ T, T ≠ .staffAvailability → T ≠ .auditLog → rows' T = rows T
  audited : (∃ i, ∃ r : AuditLog, rows .auditLog i = none ∧ rows' .auditLog i = some r ∧ r.actorId = q.actor.id ∧
      r.entity = q.staff ∧ r.action.savedWeek = some q.weekStart ∧ ∀ j, j ≠ i → rows' .auditLog j = rows .auditLog j) ↔
    ∃ T a, ¬(Says rows q.staff q.weekStart T a ↔ Says rows' q.staff q.weekStart T a)
  still : (∀ T a, Says rows q.staff q.weekStart T a ↔ q.wants T a) → rows' = rows

def LiveShift (rows : Rows schema) (T : Nat) : Prop :=
  ∃ r : ShiftTemplate, rows .shiftTemplates T = some r ∧ r.deletedAt = none

section Save

variable {A : Ask → Input → Prop} {t : Tid} {q : Submission} {b s₀ : Rows schema} {B B' : Nat → Answer → Prop}
  {s : Txn.Draft schema outside}

theorem savedFrom_still {rows : Rows schema} (h : ∀ T a, Says rows q.staff q.weekStart T a ↔ q.wants T a) :
    SavedFrom q rows rows := by
  refine ⟨h, fun _ _ _ => Iff.rfl, fun _ _ _ => rfl, ⟨?_, ?_⟩, fun _ => rfl⟩
  · rintro ⟨i, r, hnone, hsome, -⟩
    rw [hnone] at hsome
    cases hsome
  · rintro ⟨T, a, hne⟩
    exact absurd Iff.rfl hne

theorem record_rule {action : AuditAction} (h : Amends q b s₀ q.wants s)
    (haction : action.savedWeek = some q.weekStart) (hdiff : ∃ T a, ¬(Says s₀ q.staff q.weekStart T a ↔ q.wants T a))
    (hok : ∀ s', s'.Sound → s'.base = b → SavedFrom q s₀ s'.rows → Q (.ok ()) s') :
    (record q.actor.id q.staff action).wp (drafts A t) Q s := by
  refine drafts_insert_row (S := schema) (e := Err.integrity) (T := Table.auditLog) (fun href => ?_) fun hw => ?_
  · obtain hbad | ⟨j, -, -, hclash⟩ := href
    · cases hbad
    · obtain ⟨u, -, hclash⟩ := (Option.any_eq_true ..).1 hclash
      cases hclash
  have hsa : (s.grown.write Table.auditLog s.next (s.stamped Table.auditLog
      (⟨0, 0, q.actor.id, q.staff, action⟩ : AuditLog))).rows .staffAvailability = s.rows .staffAvailability :=
    Txn.Draft.write_table (by decide)
  have hmeans : ∀ T a, Says (s.grown.write Table.auditLog s.next (s.stamped Table.auditLog
      (⟨0, 0, q.actor.id, q.staff, action⟩ : AuditLog))).rows q.staff q.weekStart T a ↔ q.wants T a := by
    intro T a
    rw [← h.means T a]
    unfold Says
    rw [hsa]
  have hfresh : s₀ .auditLog s.next = none := by
    rw [← h.tables .auditLog (by decide)]
    by_contra hne
    obtain ⟨r, hr⟩ := Option.ne_none_iff_exists'.1 hne
    exact absurd (h.sound.rows.lt _ _ _ hr) (Nat.lt_irrefl _)
  refine hok _ hw h.base ⟨hmeans, fun i r hr => ?_, fun T hT hT' => ?_, ⟨fun _ => ?_, fun _ => ?_⟩, fun hsettled => ?_⟩
  · rw [hsa]
    exact h.others i r hr
  · rw [show (s.grown.write Table.auditLog s.next _).rows T = s.rows T from Txn.Draft.write_table hT']
    exact h.tables T hT
  · obtain ⟨T, a, hne⟩ := hdiff
    exact ⟨T, a, fun hiff => hne (hiff.trans (hmeans T a))⟩
  · refine ⟨s.next, _, hfresh, Txn.Draft.write_same, rfl, rfl, haction, fun j hj => ?_⟩
    rw [show (s.grown.write Table.auditLog s.next _).rows .auditLog j = s.rows .auditLog j from Txn.Draft.write_row hj]
    exact congrFun (h.tables .auditLog (by decide)) j
  · obtain ⟨T, a, hne⟩ := hdiff
    exact absurd (hsettled T a) hne

theorem mem_listLive {s : Txn.Draft schema outside} (hs : s.Sound) {T : Nat} :
    T ∈ ((s.snapshot.all .shiftTemplates).filter fun r : ShiftTemplate => r.deletedAt = none).map ShiftTemplate.id ↔
      LiveShift s.rows T := by
  rw [List.mem_map]
  constructor
  · rintro ⟨r, hr, rfl⟩
    obtain ⟨hall, hlive⟩ := List.mem_filter.1 hr
    obtain ⟨i, -, hrow⟩ := Snapshot.mem_all.1 hall
    have hkey : r.id = i := hs.rows.consistent.id .shiftTemplates i r hrow
    exact ⟨r, hkey ▸ hrow, of_decide_eq_true hlive⟩
  · rintro ⟨r, hr, hlive⟩
    exact ⟨r, List.mem_filter.2 ⟨Snapshot.mem_all.2 ⟨T, hs.rows.lt _ _ _ hr, hr⟩, decide_eq_true hlive⟩,
      hs.rows.consistent.id .shiftTemplates T r hr⟩

theorem plan_rule {late : Bool} {n : Int} {existing : List StaffAvailability} {templates : List ShiftTemplate}
    (hsunday : jerusalemDayIndex q.weekStart = 0)
    (h : Amends q s.base s.rows (fun T a => standing existing T = some a) s)
    (hnamed : ∀ T ∈ named q.body.entries, T ∈ templates.map ShiftTemplate.id)
    (hok : ∀ s', s'.Sound → s'.base = s.base → SavedFrom q s.rows s'.rows → Q (.ok ()) s') :
    (let plan := planWeekWrite existing q.body.entries (recorder q.actor.id q.staff)
    if plan.1.isEmpty ∧ plan.2.isEmpty then return ()
    else do
      setEach q.staff q.weekStart (recorder q.actor.id q.staff) (written templates q.body.entries plan.1)
      softDeletePairs q.staff q.weekStart plan.2 n
      record q.actor.id q.staff (.availabilitySubmitted q.weekStart
        ((recorder q.actor.id q.staff).map fun _ => q.staff) late
        (stateCounts ((named q.body.entries).filterMap (requested q.body.entries))) plan.2.length) : Prg Unit).wp
      (drafts A t) Q s := by
  refine drafts_ite (fun hplan => ?_) fun hplan => ?_
  · exact hok s h.sound rfl (savedFrom_still fun T a => (h.means T a).trans (plan_settled hplan))
  · refine drafts_bind (setEach_rule hsunday _ _ _ (fun entry he a => written_wants he) h fun s1 h1 => ?_)
    refine drafts_bind (softDeletePairs_rule h1 fun s2 h2 => ?_)
    refine record_rule (h2.turn fun T a => plan_applied hnamed) rfl ?_ hok
    obtain ⟨T, a, hne⟩ := plan_differs hplan
    exact ⟨T, a, fun hiff => hne ((h.means T a).symm.trans hiff)⟩

theorem applyWeek_rule {late : Bool} (hs : s.Sound) (hidle : s.rows = s.base)
    (hsunday : jerusalemDayIndex q.weekStart = 0) (herr : ∀ s', s'.idle = true → s'.base = s.base →
      ((∃ i, A (.staffer q.staff q.weekStart) i ∧ i.eligible = none) ∨ ∃ T ∈ named q.body.entries, ¬LiveShift s.base T) →
        Q (.error .shiftNotFound) s')
    (hok : ∀ s', s'.Sound → s'.rows = s'.base → SavedFrom q s.base s'.base → Q (.ok ()) s') :
    (applyWeek q.actor.id q.staff q.body late).wp (drafts A t) Q s := by
  refine drafts_tenantSession ?_
  refine drafts_ask (V := outside) (q := Ask.staffer q.staff q.weekStart) fun i hi => ?_
  refine drafts_raiseIf (fun hnone => ?_) fun _ => drafts_select (drafts_raiseIf (fun hunknown => ?_) fun hknown =>
    drafts_select ?_)
  · exact herr _ rfl rfl (.inl ⟨i, hi, Option.isNone_iff_eq_none.1 hnone⟩)
  · obtain ⟨T, hT, hmissing⟩ := List.any_eq_true.1 hunknown
    refine herr _ rfl rfl (.inr ⟨T, hT, fun hlive => ?_⟩)
    exact of_decide_eq_true hmissing ((mem_listLive hs).2 (hidle ▸ hlive))
  · have hmeans : ∀ T a, Says s.rows q.staff q.weekStart T a ↔ standing ((s.snapshot.all .staffAvailability).filter
        fun r : StaffAvailability => r.ofWeek q.staff q.weekStart ∧ r.live) T = some a := fun T a =>
      (standing_iff hs.rows.consistent fun i r hr => hs.rows.lt _ _ _ hr).symm
    refine plan_rule hsunday ⟨⟨hs.base, hs.rows⟩, rfl, hmeans, fun _ _ _ => Iff.rfl, fun _ _ => rfl⟩ (fun T hT => ?_)
      fun s' hs' hbase hsaved => ?_
    · by_contra hmissing
      exact List.any_eq_false.1 hknown T hT (decide_eq_true hmissing)
    · exact hok _ ⟨hs'.rows, hs'.rows⟩ rfl (hidle ▸ hsaved)

/-! ## The request -/

def readableWeek (weekStart current : Int) : Except Err Unit :=
  if jerusalemDayIndex weekStart ≠ 0 then .error (.shifts (.shiftsValidation "week_start must be a Sunday"))
  else if jerusalemDayIndex current ≠ 0 then .error (.shifts (.shiftsValidation "week_start must be a Sunday"))
  else if SUBMISSION_WEEK_WINDOW_WEEKS < ((weekStart - current) / 7).natAbs then .error .weekOutOfRange
  else .ok ()

def writableWeek (weekStart current : Int) : Except Err Unit :=
  match readableWeek weekStart current with
  | .error e => .error e
  | .ok () => if weekStart ≤ current then .error .weekOutOfRange else .ok ()

variable {weekStart current : Int}

theorem writableWeek_sunday (h : writableWeek weekStart current = .ok ()) : jerusalemDayIndex weekStart = 0 := by
  by_contra hne
  simp [writableWeek, readableWeek, hne] at h

theorem assertReadableWeek_rule {β : Type} {Q : Except Err β → Txn.Draft schema outside → Prop} {k : Unit → Prg β}
    (herr : ∀ e, readableWeek weekStart current = .error e → Q (.error e) s)
    (hok : readableWeek weekStart current = .ok () → (k ()).wp (drafts A t) Q s) :
    (assertReadableWeek weekStart current >>= k).wp (drafts A t) Q s := by
  unfold readableWeek at herr hok
  refine drafts_bind (drafts_raiseIf (fun h => ?_) fun h => drafts_raiseIf (fun h' => ?_) fun h' => ?_)
  · exact herr _ (if_pos (of_decide_eq_true h))
  · exact herr _ (by rw [if_neg (of_decide_eq_false h), if_pos (of_decide_eq_true h')])
  · rw [if_neg (of_decide_eq_false h), if_neg (of_decide_eq_false h')] at herr hok
    by_cases hfar : SUBMISSION_WEEK_WINDOW_WEEKS < ((weekStart - current) / 7).natAbs
    · rw [if_pos hfar] at herr
      simp only [hfar, decide_true, raiseIf]
      exact herr _ rfl
    · rw [if_neg hfar] at hok
      simp only [hfar, decide_false, raiseIf]
      exact hok rfl

theorem assertWritableWeek_rule {β : Type} {Q : Except Err β → Txn.Draft schema outside → Prop} {k : Unit → Prg β}
    (herr : ∀ e, writableWeek weekStart current = .error e → Q (.error e) s)
    (hok : writableWeek weekStart current = .ok () → (k ()).wp (drafts A t) Q s) :
    (assertWritableWeek weekStart current >>= k).wp (drafts A t) Q s := by
  unfold writableWeek at herr hok
  refine drafts_bind (assertReadableWeek_rule (fun e h => ?_) fun h => ?_)
  · exact herr e (by rw [h])
  · rw [h] at herr hok
    by_cases hpast : weekStart ≤ current
    · simp only [hpast, if_true] at herr
      simp only [hpast, decide_true, raiseIf]
      exact herr _ rfl
    · simp only [hpast, if_false] at hok
      simp only [hpast, decide_false, raiseIf]
      exact hok trivial

theorem retried_rule {p : Prg Unit} (h : p.wp (drafts A t) (fun x s' => x ≠ .error .integrity ∧ Q x s') s) :
    (retried p).wp (drafts A t) Q s := by
  apply drafts_bind
  rw [Prog.wp_attempt]
  refine Prog.wp_mono (drafts_mono (S := schema) (V := outside) A t) (fun x s' hx => ?_) h
  obtain ⟨hne, hQ⟩ := hx
  cases x with
  | ok u => exact hQ
  | error e =>
    cases e with
    | integrity => exact absurd rfl hne
    | _ => exact hQ

inductive Refusal (A : Ask → Input → Prop) (q : Submission) (latest : Int) (rows : Rows schema) : Err → Prop
  | notAuthorized (other : q.staff ≠ q.actor.id) (plain : q.actor.elevated = false) : Refusal A q latest rows .notAuthorized
  | week (i : Input) (today : A .today i) (e : Err)
      (refused : writableWeek q.weekStart (Shifts.currentWeekStart (max latest i.day)) = .error e) : Refusal A q latest rows e
  | closed (i : Input) (answered : A (.afterDeadline q.weekStart) i) (late : i.yes = true) (plain : q.actor.elevated = false) :
      Refusal A q latest rows .submissionClosed
  | staffer (i : Input) (answered : A (.staffer q.staff q.weekStart) i) (away : i.eligible = none) :
      Refusal A q latest rows .shiftNotFound
  | unknown (T : Nat) (asked : T ∈ named q.body.entries) (missing : ¬LiveShift rows T) : Refusal A q latest rows .shiftNotFound

structure Passage (A : Ask → Input → Prop) (q : Submission) (latest : Int) : Prop where
  writable : ∃ i, A .today i ∧ writableWeek q.weekStart (Shifts.currentWeekStart (max latest i.day)) = .ok ()
  open_ : ∃ i, A (.afterDeadline q.weekStart) i ∧ (i.yes = true → q.actor.elevated = true)

theorem submit_rule {Q : Except Err Reply → Txn.Draft schema outside → Prop} (hs : s.Sound) (hidle : s.idle = true)
    (hrows : s.rows = s.base)
    (herr : ∀ e s', s'.idle = true → s'.base = s.base → Refusal A q s.out.latest s.base e → Q (.error e) s')
    (hok : ∀ reply s', s'.idle = true → SavedFrom q s.base s'.base → Passage A q s.out.latest → Q (.ok reply) s') :
    (submit q.actor q.body).wp (drafts A t) Q s := by
  refine drafts_raiseIf (fun hself => ?_) fun hself => ?_
  · simp only [Bool.and_eq_true, decide_eq_true_eq, Bool.not_eq_true'] at hself
    exact herr _ s hidle rfl (.notAuthorized hself.1 hself.2)
  refine drafts_ask (V := outside) (q := Ask.today) fun i hi => ?_
  refine assertWritableWeek_rule (fun e hweek => herr e _ hidle rfl (.week i hi e hweek)) fun hweek => ?_
  refine drafts_ask (V := outside) (q := Ask.afterDeadline q.weekStart) fun j hj => ?_
  refine drafts_raiseIf (fun hclosed => ?_) fun hopen => ?_
  · have hclosed : (j.yes && !q.actor.elevated) = true := hclosed
    simp only [Bool.and_eq_true, Bool.not_eq_true'] at hclosed
    exact herr _ _ hidle rfl (.closed j hj hclosed.1 hclosed.2)
  have hopen : (j.yes && !q.actor.elevated) = false := hopen
  have hpassage : Passage A q s.out.latest := by
    refine ⟨⟨i, hi, hweek⟩, j, hj, fun hyes => ?_⟩
    rw [hyes] at hopen
    simpa using hopen
  refine drafts_bind (retried_rule (applyWeek_rule ⟨hs.base, hs.rows⟩ hrows (writableWeek_sunday hweek)
    (fun s' hidle' hbase hwhy => ⟨nofun, herr _ s' hidle' hbase ?_⟩) fun s' _ hsame hsaved => ⟨nofun, ?_⟩))
  · obtain ⟨i, hi, haway⟩ | ⟨T, hT, hmissing⟩ := hwhy
    · exact .staffer i hi haway
    · exact .unknown T hT hmissing
  · refine drafts_tenantSession (drafts_select (drafts_select ?_))
    have hsaved' : SavedFrom q s.base s'.rows := hsame ▸ hsaved
    exact hok _ _ rfl hsaved' hpassage

theorem submit_alone {w w' : World schema outside} {x : Except Err Reply} (hw : w.db.Unheld)
    (hrun : Solo A t (submit q.actor q.body) w x w') :
    w'.db.Unheld ∧ (∀ e, x = .error e → w'.db.committed = w.db.committed ∧ Refusal A q w.out.latest w.db.committed e) ∧
      ∀ reply, x = .ok reply → SavedFrom q w.db.committed w'.db.committed ∧ Passage A q w.out.latest := by
  have hs : (w.draft t).Sound := ⟨⟨hw.consistent, hw.lt⟩, ⟨hw.consistent, hw.lt⟩⟩
  have hprogram : (submit q.actor q.body).wp (drafts A t) (fun x s' => s'.idle = true ∧
      (∀ e, x = .error e → s'.base = w.db.committed ∧ Refusal A q w.out.latest w.db.committed e) ∧
      ∀ reply, x = .ok reply → SavedFrom q w.db.committed s'.base ∧ Passage A q w.out.latest) (w.draft t) := by
    apply submit_rule hs
    · rfl
    · rfl
    · intro e s' hidle hbase hrefused
      refine ⟨hidle, fun e' he => ?_, fun reply he => by cases he⟩
      cases he
      exact ⟨hbase, hrefused⟩
    · intro reply s' hidle hsaved hpassage
      exact ⟨hidle, fun e he => (by cases he), fun _ _ => ⟨hsaved, hpassage⟩⟩
  obtain ⟨s', hdraws, hs', hidle, hend⟩ := solo_sound (draws_start hw) hs hprogram hrun
  rw [hdraws.base]
  exact ⟨hdraws.unheld hs' hidle, hend⟩

/-- What a save is accepted with: hers or an elevated actor's, a week still to come and open to the actor, a staffer who will be
here, and templates that are shown. -/
structure Accepted (A : Ask → Input → Prop) (q : Submission) (latest : Int) (rows : Rows schema) : Prop where
  authorized : q.staff ≠ q.actor.id → q.actor.elevated = true
  writable : ∀ i, A .today i → writableWeek q.weekStart (Shifts.currentWeekStart (max latest i.day)) = .ok ()
  open_ : ∀ i, A (.afterDeadline q.weekStart) i → i.yes = true → q.actor.elevated = true
  here : ∀ i, A (.staffer q.staff q.weekStart) i → i.eligible ≠ none
  shown : ∀ T ∈ named q.body.entries, LiveShift rows T

theorem Accepted.not_refused {latest : Int} {rows : Rows schema} {e : Err} (h : Accepted A q latest rows) :
    ¬Refusal A q latest rows e := by
  rintro (⟨hother, hplain⟩ | ⟨i, hi, e, hrefused⟩ | ⟨i, hi, hlate, hplain⟩ | ⟨i, hi, haway⟩ | ⟨T, hT, hmissing⟩)
  · rw [h.authorized hother] at hplain
    cases hplain
  · rw [h.writable i hi] at hrefused
    cases hrefused
  · rw [h.open_ i hi hlate] at hplain
    cases hplain
  · exact h.here i hi haway
  · exact hmissing (h.shown T hT)

/-- **A save alone realises exactly what was asked**: an accepted one comes to its end, the week is the map that was sent and
nothing else of anybody's is changed, it is audited exactly when it changed something, and once more it changes nothing. -/
theorem week_realised {w : World schema outside} (hw : w.db.Unheld) (hlock : w.Lockable t) (hserved : ∃ i, ∀ asked, A asked i)
    (haccepted : Accepted A q w.out.latest w.db.committed) :
    (∃ x w', Solo A t (submit q.actor q.body) w x w') ∧
      ∀ x w', Solo A t (submit q.actor q.body) w x w' → (∃ reply, x = .ok reply) ∧
        SavedFrom q w.db.committed w'.db.committed ∧
        ∀ A' t' x' w'', Solo A' t' (submit q.actor q.body) w' x' w'' → w''.db.committed = w'.db.committed := by
  have hs : (w.draft t).Sound := ⟨⟨hw.consistent, hw.lt⟩, ⟨hw.consistent, hw.lt⟩⟩
  refine ⟨?_, fun x w' hrun => ?_⟩
  · obtain ⟨i, hi⟩ := hserved
    obtain ⟨x, w', hend⟩ := alone_ends (p := submit q.actor q.body) i (draws_start hw) hs hlock
    exact ⟨x, w', solo_of_alone hi hend⟩
  · obtain ⟨hw', herr, hok⟩ := submit_alone hw hrun
    cases x with
    | error e => exact absurd (herr e rfl).2 haccepted.not_refused
    | ok reply =>
      obtain ⟨hsaved, -⟩ := hok reply rfl
      refine ⟨⟨reply, rfl⟩, hsaved, fun A' t' x' w'' hagain => ?_⟩
      obtain ⟨-, herr', hok'⟩ := submit_alone hw' hagain
      cases x' with
      | error e => exact (herr' e rfl).1
      | ok reply' => exact (hok' reply' rfl).1.still hsaved.means

end Save

/-- What is known of an answer given to a Sunday morning. -/
def sunday : Hours := ⟨0, (sundayMorning 0).startsAtTime, (sundayMorning 0).endsAtTime⟩

/-- Staffer 7 has answered two of three shifts, and a colleague one. -/
def answeredWeek : (T : Table) → List (Row T)
  | .shiftTemplates => [sundayMorning 1, sundayMorning 2, sundayMorning 3]
  | .staffAvailability => [⟨4, 0, none, 7, 1, 10, .available, none, sunday⟩, ⟨5, 0, none, 7, 2, 10, .preferred, none, sunday⟩,
      ⟨6, 0, none, 8, 1, 10, .available, none, sunday⟩]
  | _ => []

theorem answeredWeek_shelved : Shelved (listed (S := schema) answeredWeek) 7 :=
  shelved_of_stocked [.shiftTemplates, .staffAvailability, .rosters, .rosterAssignments, .auditLog]
    (fun T => by cases T <;> decide) (by decide)

def answeredWorld : World schema outside := ⟨atRest (listed (S := schema) answeredWeek) 7 100, ⟨3, fun _ => 3⟩⟩

/-- What the outside answers: the Sunday before, no deadline passed, and a staffer who will be here. -/
def beforeDeadline (_ : Ask) (i : Input) : Prop := i = ⟨0, false, some true, []⟩

/-- A manager answers for her: the first shift otherwise, twice over, the second no longer, the third for the first time. -/
def redone : Submission := ⟨⟨9, true⟩, ⟨10, some 7, [(1, .available), (3, .available), (1, .preferred)]⟩⟩

theorem redone_accepted : Accepted beforeDeadline redone answeredWorld.out.latest answeredWorld.db.committed := by
  refine ⟨by decide, ?_, ?_, ?_, ?_⟩
  · rintro i rfl
    rfl
  · rintro i rfl hlate
    cases hlate
  · rintro i rfl
    exact nofun
  · intro T hT
    have hT : T = 1 ∨ T = 3 ∨ T = 1 := by simpa [redone, named] using hT
    rcases hT with rfl | rfl | rfl
    · exact ⟨sundayMorning 1, rfl, rfl⟩
    · exact ⟨sundayMorning 3, rfl, rfl⟩
    · exact ⟨sundayMorning 1, rfl, rfl⟩

/-- Her week is then the manager's, with one audit row; her colleague's answer stands, and once more changes nothing. -/
theorem week_realised_once : ∃ x w', Solo beforeDeadline 0 (submit redone.actor redone.body) answeredWorld x w' ∧
    (∃ reply, x = .ok reply) ∧
    (Says w'.db.committed 7 10 1 (.preferred, some 9) ∧ Says w'.db.committed 7 10 3 (.available, some 9) ∧
      ∀ a, ¬Says w'.db.committed 7 10 2 a) ∧
    w'.db.committed .staffAvailability 6 = some (⟨6, 0, none, 8, 1, 10, .available, none, sunday⟩ : StaffAvailability) ∧
    (∃ i, ∃ r : AuditLog, w'.db.committed .auditLog i = some r ∧ r.actorId = 9 ∧ r.action.savedWeek = some 10) ∧
    ∀ x' w'', Solo beforeDeadline 1 (submit redone.actor redone.body) w' x' w'' → w''.db.committed = w'.db.committed := by
  have hrest : answeredWorld.db.Unheld := atRest_unheld answeredWeek_shelved
  have hserved : ∃ i, ∀ asked, beforeDeadline asked i := ⟨_, fun _ => rfl⟩
  obtain ⟨⟨x, w', hrun⟩, hall⟩ := week_realised (t := 0) hrest (.inl rfl) hserved redone_accepted
  obtain ⟨hok, hsaved, hagain⟩ := hall x w' hrun
  have hcleared : ∀ a, ¬Says w'.db.committed 7 10 2 a := by
    intro a hsays
    cases ((hsaved.means 2 a).1 hsays).1
  have haltered : ∃ T a, ¬(Says answeredWorld.db.committed 7 10 T a ↔ Says w'.db.committed 7 10 T a) :=
    ⟨2, (.preferred, none), fun hsame => hcleared _ (hsame.1 ⟨5, _, rfl, rfl, rfl⟩)⟩
  obtain ⟨i, r, -, hr, hactor, -, haction, -⟩ := hsaved.audited.2 haltered
  exact ⟨x, w', hrun, hok, ⟨(hsaved.means 1 _).2 ⟨rfl, rfl⟩, (hsaved.means 3 _).2 ⟨rfl, rfl⟩, hcleared⟩,
    (hsaved.others 6 _ rfl).2 rfl, ⟨i, r, hr, hactor, haction⟩, fun x' w'' => hagain _ 1 x' w''⟩

end Rota
