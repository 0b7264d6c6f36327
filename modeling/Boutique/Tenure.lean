import Boutique.Rota
import Boutique.TxnQuiet
/-!
# Tenure — what a request may write, and what becomes of it

Whose an answer or an assignment is never changes, and what is removed stays as it is.  Each request writes the rows of a few
tables.
-/
namespace Rota

open Txn Session Contract
open Shifts (ShiftTemplate ShiftTemplateChange ShiftTemplateInput)

/-! ## What becomes of a row -/

structure AnswerKept (v r : StaffAvailability) : Prop where
  staff : r.staffUserId = v.staffUserId
  template : r.shiftTemplateId = v.shiftTemplateId
  week : r.weekStart = v.weekStart
  dead : v.live = false → r = v

structure AssignmentKept (v r : RosterAssignment) : Prop where
  created : r.createdAt = v.createdAt
  roster : r.rosterId = v.rosterId
  template : r.shiftTemplateId = v.shiftTemplateId
  staff : r.staffUserId = v.staffUserId
  override : r.overrideOfState = v.overrideOfState
  dead : v.deletedAt ≠ none → r = v

theorem AnswerKept.trans {v r s : StaffAvailability} (h : AnswerKept v r) (h' : AnswerKept r s) : AnswerKept v s := by
  refine ⟨h'.staff.trans h.staff, h'.template.trans h.template, h'.week.trans h.week, fun hv => ?_⟩
  have hr := h.dead hv
  subst hr
  exact h'.dead hv

theorem AssignmentKept.trans {v r s : RosterAssignment} (h : AssignmentKept v r) (h' : AssignmentKept r s) :
    AssignmentKept v s := by
  refine ⟨h'.created.trans h.created, h'.roster.trans h.roster, h'.template.trans h.template, h'.staff.trans h.staff,
    h'.override.trans h.override, fun hv => ?_⟩
  have hr := h.dead hv
  subst hr
  exact h'.dead hv

def Onward : (T : Table) → Row T → Row T → Prop
  | .shiftTemplates, (v : ShiftTemplate), (r : ShiftTemplate) => v.deletedAt ≠ none → r = v
  | .staffAvailability, (v : StaffAvailability), (r : StaffAvailability) => AnswerKept v r
  | .rosters, (v : Roster), (r : Roster) => r.weekStart = v.weekStart ∧ r.deletedAt = v.deletedAt
  | .rosterAssignments, (v : RosterAssignment), (r : RosterAssignment) => AssignmentKept v r
  | .auditLog, (v : AuditLog), (r : AuditLog) => r = v

theorem onward_refl (T : Table) (r : Row T) : Onward T r r := by
  cases T with
  | shiftTemplates => exact fun _ => rfl
  | staffAvailability => exact ⟨rfl, rfl, rfl, fun _ => rfl⟩
  | rosters => exact ⟨rfl, rfl⟩
  | rosterAssignments => exact ⟨rfl, rfl, rfl, rfl, rfl, fun _ => rfl⟩
  | auditLog => exact rfl

theorem onward_trans (T : Table) (a b d : Row T) (hab : Onward T a b) (hbd : Onward T b d) : Onward T a d := by
  cases T with
  | shiftTemplates =>
    intro ha
    have hb : b = a := hab ha
    subst hb
    exact hbd ha
  | staffAvailability => exact AnswerKept.trans hab hbd
  | rosters =>
    obtain ⟨hweek, hdead⟩ := hab
    obtain ⟨hweek', hdead'⟩ := hbd
    exact ⟨hweek'.trans hweek, hdead'.trans hdead⟩
  | rosterAssignments => exact AssignmentKept.trans hab hbd
  | auditLog =>
    have hb : b = a := hab
    subst hb
    exact hbd

abbrev tenure : Discipline schema where
  Trans _ := Onward
  New _ _ _ := True
  refl _ := onward_refl
  trans _ := onward_trans
  weaken _ _ _ h := h
  new_trans _ _ _ _ _ _ := trivial
  new_weaken _ _ _ := trivial

theorem onward_apply (T : Table) (g : Change T) (v r : Row T) (h : applyChange T g v = some r) : Onward T v r := by
  cases T with
  | shiftTemplates =>
    cases g <;> simp only [applyChange, ShiftTemplateChange.apply] at h
    all_goals
      split at h <;> cases h
      rename_i hlive
      exact fun hv => absurd hlive hv
  | staffAvailability =>
    cases g <;> simp only [applyChange, StaffAvailabilityChange.apply] at h
    all_goals
      split at h <;> cases h
      rename_i hmatch
    · exact ⟨rfl, rfl, rfl, fun hv => by simp [hv] at hmatch⟩
    · exact ⟨rfl, rfl, rfl, fun hv => by simp [hv] at hmatch⟩
    · exact ⟨rfl, rfl, rfl, fun hv => by simp [StaffAvailability.follows, hv] at hmatch⟩
  | rosters =>
    cases g
    simp only [applyChange, RosterChange.apply] at h
    split at h <;> cases h
    exact ⟨rfl, rfl⟩
  | rosterAssignments =>
    cases g <;> simp only [applyChange, RosterAssignmentChange.apply] at h
    all_goals
      split at h <;> cases h
      rename_i hlive
      exact ⟨rfl, rfl, rfl, rfl, rfl, fun hv => absurd hlive hv⟩
  | auditLog => cases g

theorem legal_tenure (l : Bool) (o : Op schema outside) : tenure.Legal l o := by
  cases o with
  | sql o =>
    cases o with
    | update T i g => exact fun v r _ hr => onward_apply T g v r hr
    | insert T r => exact fun _ _ => trivial
    | _ => trivial
  | now | ask => trivial

theorem settles_ofWeek (staffUserId : Nat) (weekStart : Int) :
    Engine.Settles tenure.shared Table.staffAvailability fun r => StaffAvailability.ofWeek r staffUserId weekStart := by
  intro v r h
  have h : AnswerKept v r := h
  simp only [StaffAvailability.ofWeek, h.staff, h.week]

structure Bare (t : Tid) (e : Engine schema) : Prop where
  own : e.own t = []
  idle : e.Idle t

theorem Bare.evolves {t : Tid} {e e' : Engine schema} (h : Bare t e) (hev : e.Evolves tenure.shared t e') : Bare t e' :=
  ⟨hev.since.own.trans h.own, hev.idle h.idle⟩

theorem Bare.look {t : Tid} {e : Engine schema} (h : Bare t e) : Bare t (e.look t) := ⟨h.own, ⟨h.idle.pending⟩⟩

theorem Bare.begin {t : Tid} {e : Engine schema} (h : Bare t e) (n : Int) :
    Bare t { e with started := Function.update e.started t n } := ⟨h.own, ⟨h.idle.pending⟩⟩

/-! ## What a request writes -/

def Request.writes : Request → List Table
  | .updateTemplate .. | .deleteTemplate .. => [.shiftTemplates, .staffAvailability, .auditLog]
  | .submit .. => [.staffAvailability, .auditLog]
  | .assign .. => [.rosters, .rosterAssignments, .auditLog]
  | .unassign .. => [.rosterAssignments, .auditLog]
  | .publish .. => [.rosters, .auditLog]
  | .roster .. => []

def Writing (Ts : List Table) : Op schema outside → Prop
  | .sql (.update T _ _) | .sql (.insert T _) => T ∈ Ts
  | _ => True

section Writing

variable {Ts : List Table}

theorem only_record (h : .auditLog ∈ Ts) (actorId entity : Nat) (action : AuditAction) :
    Only (Writing Ts) (record actorId entity action) :=
  only_bind (only_insert h _) fun _ => only_ret _

theorem only_setEach (h : .staffAvailability ∈ Ts) (staffUserId : Nat) (weekStart : Int) (recordedBy : Option Nat) :
    ∀ entries, Only (Writing Ts) (setEach staffUserId weekStart recordedBy entries)
  | [] => only_ret _
  | entry :: rest => by
    refine only_bind ?_ fun _ => only_setEach h staffUserId weekStart recordedBy rest
    refine only_bind (only_select trivial _) fun ids => only_bind (only_updateEach (fun _ => h) _ ids) fun rows => ?_
    split
    · exact only_bind (only_insert h _) fun _ => only_ret _
    · exact only_ret _

theorem only_softDeletePairs (h : .staffAvailability ∈ Ts) (staffUserId : Nat) (weekStart : Int) (templateIds : List Nat)
    (txNow : Int) : Only (Writing Ts) (softDeletePairs staffUserId weekStart templateIds txNow) := by
  unfold softDeletePairs
  split
  · exact only_ret _
  · exact only_bind (only_select trivial _) fun ids => only_bind (only_updateEach (fun _ => h) _ ids) fun _ => only_ret _

theorem only_softDeleteFutureByTemplate (h : .staffAvailability ∈ Ts) (templateId : Nat) (afterWeek txNow : Int) :
    Only (Writing Ts) (softDeleteFutureByTemplate templateId afterWeek txNow) :=
  only_bind (only_select trivial _) fun ids => only_bind (only_updateEach (fun _ => h) _ ids) fun _ => only_ret _

theorem only_rosterOf (h : .rosters ∈ Ts) (weekStart : Int) : Only (Writing Ts) (rosterOf weekStart) := by
  refine only_bind (only_select trivial _) fun found => ?_
  cases found with
  | some roster => exact only_ret _
  | none => exact only_insert h _

theorem only_session {α : Type} {body : Int → Prg α} (h : ∀ n, Only (Writing Ts) (body n)) :
    Only (Writing Ts) (tenantSession body) := only_tenantSession trivial trivial trivial h

theorem only_readable (weekStart current : Int) : Only (Writing Ts) (assertReadableWeek weekStart current) :=
  only_bind (only_raiseIf _ _) fun _ => only_bind (only_raiseIf _ _) fun _ => only_raiseIf _ _

theorem only_valid {α : Type} (x : Except Shifts.Err α) : Only (Writing Ts) (valid x) := by
  cases x with
  | ok a => exact only_ret _
  | error e => exact only_raise _

theorem only_applyWeek (h : .staffAvailability ∈ Ts) (ha : .auditLog ∈ Ts) (actorId target : Nat)
    (body : SubmitAvailabilityRequest) (late : Bool) : Only (Writing Ts) (applyWeek actorId target body late) := by
  refine only_session fun n => only_bind (only_ask trivial) fun _ => only_bind (only_raiseIf _ _) fun _ =>
    only_bind (only_select trivial _) fun _ => only_bind (only_raiseIf _ _) fun _ =>
    only_bind (only_select trivial _) fun existing => ?_
  show Only _ (if _ then _ else _)
  split
  · exact only_ret _
  · exact only_bind (only_setEach h _ _ _ _) fun _ => only_bind (only_softDeletePairs h _ _ _ _) fun _ => only_record ha _ _ _

theorem only_reflag (h : .rosterAssignments ∈ Ts) (ha : .auditLog ∈ Ts) (actorId : Nat) (body : CreateAssignmentRequest)
    (row : RosterAssignment) (txNow : Int) : Only (Writing Ts) (reflag actorId body row txNow) := by
  unfold reflag
  split
  · exact only_bind (only_update h _) fun _ => only_record ha _ _ _
  · exact only_ret _

theorem only_insertAssignment (h : .rosterAssignments ∈ Ts) (ha : .auditLog ∈ Ts) (actorId rosterId : Nat)
    (body : CreateAssignmentRequest) : Only (Writing Ts) (insertAssignment actorId rosterId body) := by
  refine only_bind (only_select trivial _) fun submitted => only_bind ?_ fun _ => only_bind (only_insert h _) fun _ =>
    only_record ha _ _ _
  unfold orFail
  split
  · exact only_ret _
  · exact only_raise _

theorem only_shiftPayload (template : ShiftTemplate) (rosterId : Nat) : Only (Writing Ts) (shiftPayload template rosterId) :=
  only_bind (only_select trivial _) fun _ => only_ret _

theorem only_applyAssignment (hr : .rosters ∈ Ts) (h : .rosterAssignments ∈ Ts) (ha : .auditLog ∈ Ts) (actorId : Nat)
    (body : CreateAssignmentRequest) : Only (Writing Ts) (applyAssignment actorId body) := by
  refine only_session fun n => only_bind (only_select trivial _) fun _ => only_bind (only_orRaise _ _) fun _ =>
    only_bind (only_ask trivial) fun _ => only_bind (only_orRaise _ _) fun _ => only_bind (only_raiseIf _ _) fun _ =>
    only_bind (only_rosterOf hr _) fun _ => only_bind (only_select trivial _) fun live => ?_
  cases live with
  | some row => exact only_bind (only_reflag h ha _ _ _ _) fun _ => only_shiftPayload _ _
  | none => exact only_bind (only_insertAssignment h ha _ _ _) fun _ => only_shiftPayload _ _

theorem only_rejectManagerConflict : Only (Writing Ts) rejectManagerConflict :=
  only_bind (only_ask trivial) fun _ => only_raiseIf _ _

theorem only_readRoster (weekStart : Int) : Only (Writing Ts) (readRoster weekStart) := by
  refine only_session fun n => only_bind (only_select trivial _) fun found => ?_
  cases found with
  | none => exact only_ret _
  | some roster =>
    refine only_bind (only_select trivial _) fun _ => ?_
    split
    · exact only_ret _
    · exact only_bind (only_select trivial _) fun _ => only_ret _

theorem only_publishWeek (hr : .rosters ∈ Ts) (ha : .auditLog ∈ Ts) (actorId : Nat) (weekStart : Int) :
    Only (Writing Ts) (publishWeek actorId weekStart) := by
  refine only_session fun n => only_bind (only_rosterOf hr _) fun roster => only_bind ?_ fun still => ?_
  · unfold unmoved
    split
    · exact only_ret _
    · exact only_bind (only_select trivial _) fun _ => only_ret _
  · cases still with
    | true => exact only_ret _
    | false =>
      exact only_bind (only_update hr _) fun _ => only_bind (only_select trivial _) fun _ =>
        only_bind (only_select trivial _) fun _ => only_bind (only_ask trivial) fun _ => only_record ha _ _ _

theorem only_request (q : Request) : Only (Writing q.writes) q.code := by
  cases q with
  | updateTemplate actorId templateId body =>
    refine only_bind (only_valid _) fun _ => only_bind (only_valid _) fun _ => only_bind (only_ask trivial) fun _ =>
      only_session fun n => only_bind (only_select trivial _) fun _ => only_bind (only_orRaise _ _) fun _ =>
      only_bind (only_bind (only_update (by simp [Request.writes, Writing]) _) fun row => ?_) fun _ => only_bind (only_orRaise _ _) fun _ =>
      only_bind ?_ fun _ => only_bind (only_record (by simp [Request.writes]) _ _ _) fun _ => only_ret _
    · cases row with
      | none => exact only_ret _
      | some row => exact only_select trivial _
    · unfold invalidateIf
      split
      · exact only_softDeleteFutureByTemplate (by simp [Request.writes]) _ _ _
      · exact only_ret _
  | deleteTemplate actorId templateId =>
    exact only_bind (only_ask trivial) fun _ => only_session fun n => only_bind (only_update (by simp [Request.writes, Writing]) _) fun _ =>
      only_bind (only_raiseIf _ _) fun _ => only_bind (only_softDeleteFutureByTemplate (by simp [Request.writes]) _ _ _) fun _ =>
      only_bind (only_record (by simp [Request.writes]) _ _ _) fun _ => only_ret _
  | submit actor body =>
    refine only_bind (only_raiseIf _ _) fun _ => only_bind (only_ask trivial) fun _ => only_bind
      (only_bind (only_readable _ _) fun _ => only_raiseIf _ _) fun _ => only_bind (only_ask trivial) fun _ =>
      only_bind (only_raiseIf _ _) fun _ => only_bind (only_bind (only_attempt ?_) fun first => ?_) fun _ =>
      only_session fun _ => only_bind (only_select trivial _) fun _ => only_bind (only_select trivial _) fun _ => only_ret _
    · exact only_applyWeek (by simp [Request.writes]) (by simp [Request.writes]) _ _ _ _
    · cases first with
      | ok reply => exact only_ret _
      | error e =>
        cases e with
        | integrity => exact only_applyWeek (by simp [Request.writes]) (by simp [Request.writes]) _ _ _ _
        | _ => exact only_raise _
  | assign actor body =>
    have happly : ∀ l, Within (fun _ => Writing (Request.assign actor body).writes) l (applyAssignment actor.id body) :=
      only_applyAssignment (by simp [Request.writes]) (by simp [Request.writes]) (by simp [Request.writes]) _ _
    refine only_bind (only_raiseIf _ _) fun _ => only_bind (only_ask trivial) fun _ => only_bind (only_readable _ _) fun _ =>
      only_bind (only_attempt happly) fun first => ?_
    cases first with
    | ok reply => exact only_ret _
    | error e =>
      cases e with
      | integrity =>
        refine only_bind only_rejectManagerConflict fun _ => only_bind (only_attempt happly) fun second => ?_
        cases second with
        | ok reply => exact only_ret _
        | error e =>
          cases e with
          | integrity => exact only_bind only_rejectManagerConflict fun _ => only_raise _
          | _ => exact only_raise _
      | _ => exact only_raise _
  | unassign actor assignmentId =>
    exact only_bind (only_raiseIf _ _) fun _ => only_session fun n => only_bind (only_select trivial _) fun _ =>
      only_bind (only_orRaise _ _) fun _ => only_bind (only_update (by simp [Request.writes, Writing]) _) fun _ =>
      only_bind (only_raiseIf _ _) fun _ => only_bind (only_select trivial _) fun _ => only_bind (only_select trivial _) fun _ =>
      only_bind (only_orRaise _ _) fun _ => only_bind (only_orRaise _ _) fun _ =>
      only_bind (only_record (by simp [Request.writes]) _ _ _) fun _ => only_shiftPayload _ _
  | publish actor weekStart =>
    exact only_bind (only_raiseIf _ _) fun _ => only_bind (only_ask trivial) fun _ => only_bind (only_readable _ _) fun _ =>
      only_bind (only_publishWeek (by simp [Request.writes]) (by simp [Request.writes]) _ _) fun _ => only_readRoster _
  | roster weekStart => exact only_readRoster _

theorem only_unwritten {q : Request} {T : Table} (h : T ∉ q.writes) :
    Only (fun o : Op schema outside => (∀ j g, o ≠ .sql (.update T j g)) ∧ ∀ r, o ≠ .sql (.insert T r)) q.code := by
  refine fun l => (only_request q l).mono fun _ o ho => ⟨?_, ?_⟩
  · rintro j g rfl
    exact h ho
  · rintro r rfl
    exact h ho

end Writing

/-! ## Rules -/

section Rules

variable {C : Contract tenure.shared outside Err} {calm : Ask → Bool} {t : Tid} {α β : Type} {w : World schema outside}
  {Q : Except Err β → World schema outside → Prop}

theorem ensures_valid {x : Except Shifts.Err α} {k : α → Prg β} (herr : ∀ e, Q (.error e) w)
    (hok : ∀ a, x = .ok a → C.Ensures t (k a) Q w) : C.Ensures t (valid x >>= k) Q w := by
  cases x with
  | ok a => exact hok a rfl
  | error e => exact herr _

theorem ensures_record (hC : C.Historic calm) {k : Unit → Prg β} {actorId entity : Nat} {action : AuditAction}
    (Φ : World schema outside → Prop) (h : Φ w)
    (hevolve : ∀ w w1, w.Evolves tenure.shared t w1 → w1.db.Lawful tenure.shared → Φ w → Φ w1)
    (herr : ∀ x w', Φ w' → Q (.error x) w') (hnext : ∀ (w : World schema outside) n, Φ w → Φ ⟨{ w.db with next := n }, w.out⟩)
    (hok : ∀ w1 : World schema outside, Φ w1 →
      (inserted w1.db t .auditLog ⟨0, 0, actorId, entity, action⟩).Lawful tenure.shared →
      C.Ensures t (k ()) Q ⟨inserted w1.db t .auditLog ⟨0, 0, actorId, entity, action⟩, w1.out⟩) :
    C.Ensures t (record actorId entity action >>= k) Q w :=
  ensures_first (ensures_insert hC (fun w1 n hev hL _ => herr _ _ (hnext w1 n (hevolve w w1 hev hL h)))
    fun w1 hev hL hL' _ => hok w1 (hevolve w w1 hev hL h) hL')

end Rules

def sundayMorning (id : Nat) : ShiftTemplate :=
  ⟨id, 0, none, 0, "morning", ⟨9 * 3600 * Boutique.second, Boutique.nine_nonneg, Boutique.nine_lt_day⟩,
    ⟨12 * 3600 * Boutique.second, Boutique.noon_nonneg, Boutique.noon_lt_day⟩, 0, []⟩

end Rota
