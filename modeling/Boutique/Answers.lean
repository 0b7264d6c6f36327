import Boutique.Tenure
/-!
# Answers — a week's answers, saved as a whole

A save reads the week's answers, works out what to write, and writes it.  The four indexes keep two answers of one shift
apart; nothing keeps two saves of one week apart.  Where no other save of the week is committed between a save's first look
and its commit, the week it leaves is the one it was sent.
-/
namespace Rota

open Txn Session Contract
open Shifts (ShiftTemplate)

/-! ## What the answers of a week say -/

def StaffAvailability.standsFor (r : StaffAvailability) (staffUserId : Nat) (weekStart : Int) (templateId : Nat) : Bool :=
  r.ofWeek staffUserId weekStart ∧ r.shiftTemplateId = templateId ∧ r.live

/-- **What the answers of a week say of a shift.** -/
def Says (rows : Rows schema) (staffUserId : Nat) (weekStart : Int) (templateId : Nat) (a : Answer) : Prop :=
  ∃ i, ∃ r : StaffAvailability, rows .staffAvailability i = some r ∧ r.standsFor staffUserId weekStart templateId = true ∧
    (r.state, r.recordedBy) = a

def amended (A : Nat → Answer → Prop) (templateId : Nat) (a : Answer) (T : Nat) (b : Answer) : Prop :=
  T = templateId ∧ b = a ∨ T ≠ templateId ∧ A T b

def filled (want : Nat → Answer → Prop) (Ts : List Nat) (A : Nat → Answer → Prop) (T : Nat) (a : Answer) : Prop :=
  T ∈ Ts ∧ want T a ∨ T ∉ Ts ∧ A T a

variable {v : StaffAvailability} {recordedBy : Option Nat}

section Says

variable {rows rows' : Rows schema} {s T : Nat} {w : Int} {i : Nat} {a : Answer} {r : StaffAvailability}

theorem standsFor_iff : r.standsFor s w T = true ↔ r.ofWeek s w = true ∧ r.shiftTemplateId = T ∧ r.live = true := by
  simp [StaffAvailability.standsFor]

theorem stands_once (hrows : Consistent rows) {j : Nat} {r' : StaffAvailability} (hr : rows .staffAvailability i = some r)
    (hr' : rows .staffAvailability j = some r') (hs : r.standsFor s w T = true) (hs' : r'.standsFor s w T = true) : i = j := by
  by_contra hne
  have hclash : clash .staffAvailability r r' = false := hrows.apart .staffAvailability i j r r' hr hr' hne
  rw [standsFor_iff] at hs hs'
  simp only [StaffAvailability.ofWeek, decide_eq_true_eq] at hs hs'
  obtain ⟨⟨hstaff, hweek⟩, htemplate, hlive⟩ := hs
  obtain ⟨⟨hstaff', hweek'⟩, htemplate', hlive'⟩ := hs'
  simp [clash, hlive, hlive', hstaff, hstaff', htemplate, htemplate', hweek, hweek'] at hclash

theorem says_congr (h : ∀ i (r : StaffAvailability), r.ofWeek s w = true →
    (rows .staffAvailability i = some r ↔ rows' .staffAvailability i = some r)) : Says rows s w T a ↔ Says rows' s w T a := by
  constructor
  · rintro ⟨i, r, hr, hs, ha⟩
    exact ⟨i, r, (h i r (standsFor_iff.1 hs).1).1 hr, hs, ha⟩
  · rintro ⟨i, r, hr, hs, ha⟩
    exact ⟨i, r, (h i r (standsFor_iff.1 hs).1).2 hr, hs, ha⟩

/-- **One row written**: the only one that stood for its shift, under the only shift it stood for. -/
theorem says_set (hr : r.standsFor s w T = true)
    (hone : ∀ j (q : StaffAvailability), rows .staffAvailability j = some q → q.standsFor s w T = true → j = i)
    (honly : ∀ q : StaffAvailability, rows .staffAvailability i = some q → ∀ T', q.standsFor s w T' = true → T' = T) {T' : Nat} :
    Says (rows.set .staffAvailability i r) s w T' a ↔ amended (Says rows s w) T (r.state, r.recordedBy) T' a := by
  constructor
  · rintro ⟨j, q, hq, hs, ha⟩
    by_cases hj : j = i
    · subst hj
      rw [Rows.set_same] at hq
      cases hq
      exact .inl ⟨(standsFor_iff.1 hs).2.1.symm.trans (standsFor_iff.1 hr).2.1, ha.symm⟩
    · rw [Rows.set_row hj] at hq
      refine .inr ⟨fun hT => ?_, j, q, hq, hs, ha⟩
      subst hT
      exact hj (hone j q hq hs)
  · rintro (⟨rfl, rfl⟩ | ⟨hne, j, q, hq, hs, ha⟩)
    · exact ⟨i, r, Rows.set_same, hr, rfl⟩
    · have hj : j ≠ i := by
        rintro rfl
        exact hne (honly q hq T' hs)
      exact ⟨j, q, by rw [Rows.set_row hj, hq], hs, ha⟩

theorem says_clear (hrows : Consistent rows) (hv : rows .staffAvailability i = some v) (hs : v.standsFor s w T = true)
    (hr : r.live = false) {T' : Nat} :
    Says (rows.set .staffAvailability i r) s w T' a ↔ Says rows s w T' a ∧ T' ≠ T := by
  constructor
  · rintro ⟨j, q, hq, hs', ha⟩
    by_cases hj : j = i
    · subst hj
      rw [Rows.set_same] at hq
      cases hq
      rw [standsFor_iff, hr] at hs'
      cases hs'.2.2
    · rw [Rows.set_row hj] at hq
      refine ⟨⟨j, q, hq, hs', ha⟩, fun hT => ?_⟩
      subst hT
      exact hj (stands_once hrows hq hv hs' hs)
  · rintro ⟨⟨j, q, hq, hs', ha⟩, hne⟩
    have hj : j ≠ i := by
      rintro rfl
      rw [hv] at hq
      cases hq
      exact hne ((standsFor_iff.1 hs').2.1.symm.trans (standsFor_iff.1 hs).2.1)
    exact ⟨j, q, by rw [Rows.set_row hj, hq], hs', ha⟩

end Says

/-! ## A save in progress -/

def AuditAction.savedWeek : AuditAction → Option Int
  | .availabilitySubmitted weekStart _ _ _ _ => some weekStart
  | _ => none

/-- **No other save of the week is committed between a save's SELECTs and its commit.** -/
def Undivided : (machine schema outside Err).Assumption := fun t o w _ _ =>
  match o with
  | .sql (.read (.setState s wk)) | .sql (.read (.softDeletePairs s wk)) =>
    w.db.Quiet Table.staffAvailability (fun r => StaffAvailability.ofWeek r s wk) (w.db.seen t)
  | .sql .commit => ∀ i, i < w.db.next → ∀ r : AuditLog, r ∈ w.db.pending t Table.auditLog i → ∀ wk, wk ∈ r.action.savedWeek →
    w.db.Quiet Table.staffAvailability (fun q => StaffAvailability.ofWeek q r.entity wk) (w.db.seen t)
  | _ => True

instance (t : Tid) (o : Op schema outside) (w : World schema outside) (x : o.Res) (w' : World schema outside) :
    Decidable (Undivided t o w x w') := by
  unfold Undivided
  split <;> infer_instance

/-- **A save in progress**: it has committed nothing, found the answers `E` and made of them the answers `A`.  Once another
save of the week is committed nothing is known of either. -/
structure Draft (t : Tid) (s : Nat) (w : Int) (E A : Nat → Answer → Prop) (L : Nat → Option AuditLog)
    (e : Engine schema) : Prop where
  own : e.own t = []
  past : e.seen t ≤ e.log.length
  mine : ∀ i (r : StaffAvailability), e.pending t .staffAvailability i = some r → r.ofWeek s w = true
  found : e.Quiet Table.staffAvailability (fun r => StaffAvailability.ofWeek r s w) (e.seen t) →
    ∀ T a, Says e.committed s w T a ↔ E T a
  leaves : e.Quiet Table.staffAvailability (fun r => StaffAvailability.ofWeek r s w) (e.seen t) →
    ∀ T a, Says (e.view t) s w T a ↔ A T a
  audits : e.pending t .auditLog = L

section Draft

variable {t : Tid} {s : Nat} {w : Int} {E A B : Nat → Answer → Prop} {L : Nat → Option AuditLog}
  {e e' : Engine schema}

theorem Draft.evolves (h : Draft t s w E A L e) (hev : e.Evolves tenure.shared t e') (hL : e'.Lawful tenure.shared) :
    Draft t s w E A L e' := by
  have hbefore : e'.Quiet Table.staffAvailability (fun r => StaffAvailability.ofWeek r s w) (e'.seen t) →
      e'.Quiet Table.staffAvailability (fun r => StaffAvailability.ofWeek r s w) (e.seen t) ∧
        e.Quiet Table.staffAvailability (fun r => StaffAvailability.ofWeek r s w) (e.seen t) := by
    intro hq
    rw [hev.seen] at hq
    obtain ⟨l, hl, -⟩ := hev.log
    exact ⟨hq, hq.before ⟨l, hl.symm⟩ hev.next_le⟩
  refine ⟨hev.since.own.trans h.own, ?_, fun i r hr => h.mine i r (hev.pending ▸ hr), fun hq T a => ?_, fun hq T a => ?_,
    by rw [hev.pending]; exact h.audits⟩
  · rw [hev.seen]
    exact Nat.le_trans h.past hev.log_le
  · obtain ⟨hq', hq⟩ := hbefore hq
    rw [← h.found hq T a]
    exact says_congr fun i r hr => hq'.still hev hL (settles_ofWeek s w) h.past hr
  · obtain ⟨hq', hq⟩ := hbefore hq
    rw [← h.leaves hq T a]
    exact says_congr fun i r hr => hq'.seen_still hev hL (settles_ofWeek s w) h.past hr

theorem Draft.look (h : Draft t s w E A L e)
    (hq : e.Quiet Table.staffAvailability (fun r => StaffAvailability.ofWeek r s w) (e.seen t)) : Draft t s w E A L (e.look t) :=
  ⟨h.own, by simp, h.mine, fun _ => h.found hq, fun _ => h.leaves hq, h.audits⟩

theorem Draft.turn (h : Draft t s w E A L e) (hAB : e.Quiet Table.staffAvailability (fun r => StaffAvailability.ofWeek r s w)
    (e.seen t) → ∀ T a, A T a ↔ B T a) : Draft t s w E B L e :=
  ⟨h.own, h.past, h.mine, h.found, fun hq T a => (h.leaves hq T a).trans (hAB hq T a), h.audits⟩

theorem Draft.reach (h : Draft t s w E A L e) {n : Nat} (hn : e.next ≤ n) : Draft t s w E A L { e with next := n } := by
  have hbefore : ({ e with next := n } : Engine schema).Quiet Table.staffAvailability
      (fun r => StaffAvailability.ofWeek r s w) (e.seen t) → e.Quiet Table.staffAvailability
      (fun r => StaffAvailability.ofWeek r s w) (e.seen t) := fun hq => hq.before List.prefix_rfl hn
  exact ⟨h.own, h.past, h.mine, fun hq => h.found (hbefore hq), fun hq => h.leaves (hbefore hq), h.audits⟩

variable {i : Nat} {r : StaffAvailability}

theorem view_write : (e.write t .staffAvailability i r).view t = (e.view t).set .staffAvailability i r := by
  funext T j
  by_cases hT : T = .staffAvailability ∧ j = i
  · obtain ⟨rfl, rfl⟩ := hT
    rw [Rows.set_same, Engine.write_view_self]
  · rw [Rows.set_other hT, Engine.write_view_row hT]

theorem Draft.write (h : Draft t s w E A L e) {T : Nat} (hr : r.standsFor s w T = true)
    (hone : e.Quiet Table.staffAvailability (fun r => StaffAvailability.ofWeek r s w) (e.seen t) →
      ∀ j (q : StaffAvailability), e.view t .staffAvailability j = some q → q.standsFor s w T = true → j = i)
    (honly : ∀ q : StaffAvailability, e.view t .staffAvailability i = some q → ∀ T', q.standsFor s w T' = true → T' = T) :
    Draft t s w E (amended A T (r.state, r.recordedBy)) L (e.write t .staffAvailability i r) := by
  refine ⟨h.own, h.past, fun j q hq => ?_, h.found, fun hq T' a => ?_, ?_⟩
  · rcases Engine.write_pending_cases hq with ⟨-, hsame, -⟩ | hold
    · cases hsame
      exact (standsFor_iff.1 hr).1
    · exact h.mine j q hold
  · rw [view_write, says_set hr (hone hq) honly]
    simp only [amended, h.leaves hq]
  · rw [← h.audits]
    exact funext fun j => Engine.write_pending_row (by simp)

theorem Draft.audit (h : Draft t s w E A L e) {r : AuditLog} :
    Draft t s w E A (Function.update L i (some r)) (e.write t .auditLog i r) := by
  have hview : ∀ j, (e.write t .auditLog i r).view t .staffAvailability j = e.view t .staffAvailability j := fun j =>
    Engine.write_view_row fun hc => by cases hc.1
  refine ⟨h.own, h.past, fun j q hq => ?_, h.found, fun hq T a => ?_, ?_⟩
  · rw [Engine.write_pending_row fun hc => by cases hc.1] at hq
    exact h.mine j q hq
  · rw [← h.leaves hq T a]
    exact says_congr fun j q _ => by rw [hview j]
  · funext j
    by_cases hj : j = i
    · subst hj
      simp
    · rw [Engine.write_pending_row fun hc => hj hc.2, h.audits, Function.update_of_ne hj]

/-- **The removals of a save in progress**: outside the shifts `Ts` the answers are `A`, and the answers that still stand for
one of them are under the keys left. -/
structure Clearing (t : Tid) (s : Nat) (w : Int) (E A : Nat → Answer → Prop) (L : Nat → Option AuditLog) (Ts is : List Nat)
    (e : Engine schema) : Prop where
  draft : ∃ B, Draft t s w E B L e ∧ ∀ T a, T ∉ Ts → (B T a ↔ A T a)
  left : e.Quiet Table.staffAvailability (fun r => StaffAvailability.ofWeek r s w) (e.seen t) → ∀ T ∈ Ts, ∀ i,
    ∀ r : StaffAvailability, e.view t .staffAvailability i = some r → r.standsFor s w T = true → i ∈ is

section Clearing

variable {Ts is : List Nat} {i : Nat} {txNow : Int}

theorem Clearing.own (h : Clearing t s w E A L Ts is e) : e.own t = [] := by
  obtain ⟨B, hB, -⟩ := h.draft
  exact hB.own

theorem Clearing.evolves (h : Clearing t s w E A L Ts is e) (hev : e.Evolves tenure.shared t e')
    (hL : e'.Lawful tenure.shared) : Clearing t s w E A L Ts is e' := by
  obtain ⟨B, hB, hsame⟩ := h.draft
  refine ⟨⟨B, hB.evolves hev hL, hsame⟩, fun hq T hT i r hr hs => ?_⟩
  rw [hev.seen] at hq
  obtain ⟨l, hl, -⟩ := hev.log
  exact h.left (hq.before ⟨l, hl.symm⟩ hev.next_le) T hT i r
    ((hq.seen_still hev hL (settles_ofWeek s w) hB.past (standsFor_iff.1 hs).1).1 hr) hs

theorem Clearing.skip (h : Clearing t s w E A L Ts (i :: is) e)
    (hnone : (e.view t .staffAvailability i).bind (applyChange .staffAvailability (.clear s w Ts txNow)) = none) :
    Clearing t s w E A L Ts is e := by
  refine ⟨h.draft, fun hq T hT j r hr hs => (List.mem_cons.1 (h.left hq T hT j r hr hs)).resolve_left fun hj => ?_⟩
  subst hj
  rw [hr] at hnone
  obtain ⟨hweek, htemplate, hlive⟩ := standsFor_iff.1 hs
  simp [applyChange, StaffAvailabilityChange.apply, hweek, htemplate, hT, hlive] at hnone

theorem Clearing.clear (h : Clearing t s w E A L Ts (i :: is) e) (hL : e.Lawful tenure.shared)
    (hv : e.view t .staffAvailability i = some v)
    (hr : StaffAvailabilityChange.apply v (.clear s w Ts txNow) = some r) :
    Clearing t s w E A L Ts is (e.write t .staffAvailability i r) := by
  obtain ⟨⟨hweek, htemplate, hlive⟩, hr⟩ := Option.ite_none_right_eq_some.1 hr
  cases hr
  have hstands : v.standsFor s w v.shiftTemplateId = true := standsFor_iff.2 ⟨hweek, rfl, hlive⟩
  have hgone : ({ v with deletedAt := some txNow } : StaffAvailability).live = false := rfl
  obtain ⟨B, hB, hsame⟩ := h.draft
  refine ⟨⟨fun T a => B T a ∧ T ≠ v.shiftTemplateId, ?_, fun T a hT => ?_⟩, fun hq T hT j q hq' hs => ?_⟩
  · refine ⟨hB.own, hB.past, fun j q hq => ?_, hB.found, fun hq T a => ?_, ?_⟩
    · rcases Engine.write_pending_cases hq with ⟨-, hrow, -⟩ | hold
      · cases hrow
        exact hweek
      · exact hB.mine j q hold
    · rw [view_write, says_clear (hL.view_consistent t) hv hstands hgone, hB.leaves hq]
    · rw [← hB.audits]
      exact funext fun j => Engine.write_pending_row (by simp)
  · show B T a ∧ T ≠ v.shiftTemplateId ↔ A T a
    rw [hsame T a hT]
    exact and_iff_left fun hc => hT (hc ▸ htemplate)
  · rw [view_write] at hq'
    by_cases hj : j = i
    · subst hj
      rw [Rows.set_same] at hq'
      cases hq'
      rw [standsFor_iff, hgone] at hs
      cases hs.2.2
    · rw [Rows.set_row hj] at hq'
      exact (List.mem_cons.1 (h.left hq T hT j q hq' hs)).resolve_left hj

theorem Clearing.done (h : Clearing t s w E A L Ts [] e) : Draft t s w E (fun T a => A T a ∧ T ∉ Ts) L e := by
  obtain ⟨B, hB, hsame⟩ := h.draft
  refine hB.turn fun hq T a => ?_
  by_cases hT : T ∈ Ts
  · refine iff_of_false (fun hBT => ?_) fun hc => hc.2 hT
    obtain ⟨i, r, hr, hs, -⟩ := (hB.leaves hq T a).2 hBT
    cases h.left hq T hT i r hr hs
  · rw [hsame T a hT]
    exact (and_iff_left hT).symm

end Clearing

end Draft

/-! ## What a save commits -/

structure Submission where
  actor : StaffContext
  body : SubmitAvailabilityRequest

def Submission.staff (q : Submission) : Nat := q.body.staffUserId.getD q.actor.id

def Submission.weekStart (q : Submission) : Int := q.body.weekStart

/-- **The map she sent**, each answer with who recorded it. -/
def Submission.wants (q : Submission) (T : Nat) (a : Answer) : Prop :=
  requested q.body.entries T = some a.1 ∧ a.2 = recorder q.actor.id q.staff

abbrev Submission.request (q : Submission) : Request := .submit q.actor q.body

def Altered (d : Commit schema) (staffUserId : Nat) (weekStart : Int) : Prop :=
  ∃ T a, ¬(Says d.before staffUserId weekStart T a ↔ Says d.after staffUserId weekStart T a)

def Audited (d : Commit schema) : Prop := ∃ i, ∃ r : AuditLog, d.writes .auditLog i = some r

/-- **A save's commit leaves the week it was sent**, and is audited exactly when that is another week than it found. -/
structure Whole (q : Submission) (d : Commit schema) : Prop where
  mine : ∀ i (r : StaffAvailability), d.writes .staffAvailability i = some r → r.ofWeek q.staff q.weekStart = true
  whole : (∃ i, ∃ r : StaffAvailability, d.writes .staffAvailability i = some r) →
    ∀ T a, Says d.after q.staff q.weekStart T a ↔ q.wants T a
  audited : Audited d ↔ Altered d q.staff q.weekStart
  once : ∀ i j (r r' : AuditLog), d.writes .auditLog i = some r → d.writes .auditLog j = some r' → i = j

def weeks (submits : Tid → Submission) : Ledger schema where
  Holds _ _ d := Whole (submits d.by_) d
  stable _ _ _ _ _ _ _ h := h

abbrev saving (submits : Tid → Submission) : Contract tenure.shared outside Err := (weeks submits).contract tenure.shared Undivided

theorem saving_historic (submits : Tid → Submission) : (saving submits).Historic fun _ => true := Ledger.historic _

def Reached (q : Submission) (e : Engine schema) : Prop :=
  ∃ m, m ≤ e.log.length ∧ ∀ T a, Says (e.version m) q.staff q.weekStart T a ↔ q.wants T a

/-! ## The plan of a save -/

section Plan

variable {rows : Rows schema} {next s T : Nat} {w : Int} {a : Answer} {existing : List StaffAvailability} {q : Submission}
  {templates : List ShiftTemplate}

theorem standing_iff (hrows : Consistent rows) (hlt : ∀ i (r : StaffAvailability), rows .staffAvailability i = some r → i < next) :
    standing (((⟨rows, next⟩ : Snapshot schema).all .staffAvailability).filter fun r : StaffAvailability =>
      r.ofWeek s w ∧ r.live) T = some a ↔ Says rows s w T a := by
  have hmem : ∀ r : StaffAvailability, (r ∈ (((⟨rows, next⟩ : Snapshot schema).all .staffAvailability).filter
      fun r : StaffAvailability => r.ofWeek s w ∧ r.live) ∧ r.shiftTemplateId = T) ↔
      ∃ i, rows .staffAvailability i = some r ∧ r.standsFor s w T = true := by
    intro r
    rw [List.mem_filter, decide_eq_true_eq]
    constructor
    · rintro ⟨⟨hall, hweek, hlive⟩, htemplate⟩
      obtain ⟨i, -, hr⟩ := Snapshot.mem_all.1 hall
      exact ⟨i, hr, standsFor_iff.2 ⟨hweek, htemplate, hlive⟩⟩
    · rintro ⟨i, hr, hs⟩
      obtain ⟨hweek, htemplate, hlive⟩ := standsFor_iff.1 hs
      exact ⟨⟨Snapshot.mem_all.2 ⟨i, hlt i r hr, hr⟩, hweek, hlive⟩, htemplate⟩
  unfold standing
  rw [Option.map_eq_some_iff]
  constructor
  · rintro ⟨r, hr, ha⟩
    obtain ⟨i, hrow, hs⟩ := (hmem r).1 ⟨List.mem_of_find?_eq_some hr, by simpa using List.find?_some hr⟩
    exact ⟨i, r, hrow, hs, ha⟩
  · rintro ⟨i, r, hr, hs, ha⟩
    obtain ⟨hin, htemplate⟩ := (hmem r).2 ⟨i, hr, hs⟩
    obtain ⟨r', hr'⟩ := Option.isSome_iff_exists.1
      (List.find?_isSome (p := fun r : StaffAvailability => r.shiftTemplateId = T).2 ⟨r, hin, by simpa using htemplate⟩)
    obtain ⟨j, hrow', hs'⟩ := (hmem r').1 ⟨List.mem_of_find?_eq_some hr', by simpa using List.find?_some hr'⟩
    have hkey := stands_once hrows hrow' hr hs' hs
    subst hkey
    rw [hr] at hrow'
    cases hrow'
    exact ⟨r, hr', ha⟩

variable {entries : List (Nat × AvailabilityState)}

theorem mem_named : T ∈ named entries ↔ requested entries T ≠ none := by
  unfold named requested
  rw [List.mem_eraseDups, ne_eq, Option.map_eq_none_iff, List.find?_eq_none]
  simp

theorem mem_plan_fst :
    T ∈ (planWeekWrite existing entries recordedBy).1 ↔
      ∃ state, requested entries T = some state ∧ standing existing T ≠ some (state, recordedBy) := by
  unfold planWeekWrite
  rw [List.mem_filter, mem_named, decide_eq_true_eq]
  cases requested entries T <;> simp

theorem mem_plan_snd :
    T ∈ (planWeekWrite existing entries recordedBy).2 ↔ standing existing T ≠ none ∧ requested entries T = none := by
  unfold planWeekWrite standing
  rw [List.mem_filter, decide_eq_true_eq, mem_named, not_not, ne_eq, Option.map_eq_none_iff, List.find?_eq_none]
  simp

theorem plan_settled (h : (planWeekWrite existing q.body.entries (recorder q.actor.id q.staff)).1.isEmpty = true ∧
    (planWeekWrite existing q.body.entries (recorder q.actor.id q.staff)).2.isEmpty = true) :
    standing existing T = some a ↔ q.wants T a := by
  have hfst : T ∉ (planWeekWrite existing q.body.entries (recorder q.actor.id q.staff)).1 := by
    rw [List.isEmpty_iff.1 h.1]
    exact List.not_mem_nil
  have hsnd : T ∉ (planWeekWrite existing q.body.entries (recorder q.actor.id q.staff)).2 := by
    rw [List.isEmpty_iff.1 h.2]
    exact List.not_mem_nil
  rw [mem_plan_fst] at hfst
  rw [mem_plan_snd] at hsnd
  obtain ⟨state, by_⟩ := a
  unfold Submission.wants
  cases hreq : requested q.body.entries T with
  | none =>
    have hnone : standing existing T = none := by
      by_contra hne
      exact hsnd ⟨hne, hreq⟩
    simp [hnone]
  | some st =>
    have hsame : standing existing T = some (st, recorder q.actor.id q.staff) := by
      by_contra hne
      exact hfst ⟨st, hreq, hne⟩
    rw [hsame]
    simp [eq_comm]

theorem plan_differs (h : ¬((planWeekWrite existing q.body.entries (recorder q.actor.id q.staff)).1.isEmpty = true ∧
    (planWeekWrite existing q.body.entries (recorder q.actor.id q.staff)).2.isEmpty = true)) :
    ∃ T a, ¬(standing existing T = some a ↔ q.wants T a) := by
  rcases not_and_or.1 h with hfst | hsnd
  · obtain ⟨T, hT⟩ := List.exists_mem_of_ne_nil _ (fun hc => hfst (List.isEmpty_iff.2 hc))
    obtain ⟨state, hreq, hne⟩ := mem_plan_fst.1 hT
    exact ⟨T, (state, recorder q.actor.id q.staff), fun hiff => hne (hiff.2 ⟨hreq, rfl⟩)⟩
  · obtain ⟨T, hT⟩ := List.exists_mem_of_ne_nil _ (fun hc => hsnd (List.isEmpty_iff.2 hc))
    obtain ⟨hne, hreq⟩ := mem_plan_snd.1 hT
    obtain ⟨a, ha⟩ := Option.ne_none_iff_exists'.1 hne
    refine ⟨T, a, fun hiff => ?_⟩
    have hwant := (hiff.1 ha).1
    rw [hreq] at hwant
    cases hwant

theorem written_wants {changed : List Nat} {entry : Entry} (h : entry ∈ written templates q.body.entries changed) :
    q.wants entry.shiftTemplateId a ↔ a = (entry.state, recorder q.actor.id q.staff) := by
  obtain ⟨T', -, hentry⟩ := List.mem_filterMap.1 h
  obtain ⟨state, hstate, hentry⟩ := Option.bind_eq_some_iff.1 hentry
  obtain ⟨template, -, hentry⟩ := Option.bind_eq_some_iff.1 hentry
  cases hentry
  obtain ⟨st, by_⟩ := a
  simp [Submission.wants, hstate, eq_comm]

theorem mem_written (hnamed : ∀ T ∈ named q.body.entries, T ∈ templates.map ShiftTemplate.id) :
    T ∈ (written templates q.body.entries (planWeekWrite existing q.body.entries recordedBy).1).map
      Entry.shiftTemplateId ↔ T ∈ (planWeekWrite existing q.body.entries recordedBy).1 := by
  rw [List.mem_map]
  constructor
  · rintro ⟨entry, hentry, rfl⟩
    obtain ⟨T', hT', hentry⟩ := List.mem_filterMap.1 hentry
    obtain ⟨state, hstate, hentry⟩ := Option.bind_eq_some_iff.1 hentry
    obtain ⟨template, -, hentry⟩ := Option.bind_eq_some_iff.1 hentry
    cases hentry
    exact hT'
  · intro hT
    obtain ⟨state, hreq, -⟩ := mem_plan_fst.1 hT
    obtain ⟨template0, htemplate0, hid⟩ := List.mem_map.1 (hnamed T (mem_named.2 (by rw [hreq]; simp)))
    obtain ⟨template, htemplate⟩ := Option.isSome_iff_exists.1
      (List.find?_isSome.2 ⟨template0, htemplate0, by simpa using hid⟩ : (templates.find? fun r => r.id = T).isSome = true)
    refine ⟨⟨T, state, hours template⟩, List.mem_filterMap.2 ⟨T, hT, ?_⟩, rfl⟩
    rw [hreq]
    exact Option.bind_eq_some_iff.2 ⟨state, rfl, Option.bind_eq_some_iff.2 ⟨template, htemplate, rfl⟩⟩

theorem plan_applied (hnamed : ∀ T ∈ named q.body.entries, T ∈ templates.map ShiftTemplate.id) :
    (filled q.wants ((written templates q.body.entries
        (planWeekWrite existing q.body.entries (recorder q.actor.id q.staff)).1).map Entry.shiftTemplateId)
        (fun T a => standing existing T = some a) T a ∧
      T ∉ (planWeekWrite existing q.body.entries (recorder q.actor.id q.staff)).2) ↔ q.wants T a := by
  unfold filled
  rw [mem_written hnamed, mem_plan_fst, mem_plan_snd]
  obtain ⟨state, by_⟩ := a
  unfold Submission.wants
  cases hreq : requested q.body.entries T with
  | none => cases hfound : standing existing T <;> simp [hfound]
  | some st =>
    by_cases hsame : standing existing T = some (st, recorder q.actor.id q.staff)
    · simp [hsame, eq_comm]
    · simp [hsame]

end Plan

section Saves

variable {submits : Tid → Submission} {β : Type} {t : Tid} {s T : Nat} {w : Int} {E A : Nat → Answer → Prop}
  {L : Nat → Option AuditLog} {w₀ : World schema outside} {Q : Except Err β → World schema outside → Prop}

variable {q : Submission} {e : Engine schema} {k : Unit → Prg β}

theorem Reached.evolves {e' : Engine schema} (h : Reached q e) (hev : e.Evolves tenure.shared t e') :
    Reached q e' := by
  obtain ⟨m, hm, hmeans⟩ := h
  refine ⟨m, Nat.le_trans hm hev.log_le, ?_⟩
  rw [hev.version m hm]
  exact hmeans

theorem Reached.commit (h : Reached q e) : Reached q (e.commit t) := by
  obtain ⟨m, hm, hmeans⟩ := h
  refine ⟨m, Nat.le_trans hm (by simp), ?_⟩
  rw [Engine.commit_version_le hm]
  exact hmeans

theorem whole_idle (h : e.Idle t) : Whole q (e.entry t) := by
  have hnone : ∀ T i, (e.entry t).writes T i = none := fun T i => by simp [Engine.entry, h.pending]
  refine ⟨fun i r hr => ?_, ?_, ⟨?_, ?_⟩, fun i j r r' hr => ?_⟩
  · rw [hnone] at hr
    cases hr
  · rintro ⟨i, r, hr⟩
    rw [hnone] at hr
    cases hr
  · rintro ⟨i, r, hr⟩
    rw [hnone] at hr
    cases hr
  · rintro ⟨T, a, hdiff⟩
    rw [Engine.entry_after, h.view] at hdiff
    exact absurd Iff.rfl hdiff
  · rw [hnone] at hr
    cases hr

theorem insert_saves {k : StaffAvailability → Prg β} {row : StaffAvailability} (h : Draft t s w E A L w₀.db)
    (hrow : row.standsFor s w T = true)
    (hfree : w₀.db.Quiet Table.staffAvailability (fun r => StaffAvailability.ofWeek r s w) (w₀.db.seen t) → ∀ a, ¬A T a)
    (hrefused : ∀ x w', w'.db.own t = [] → Q (.error x) w')
    (hok : ∀ r w1, Draft t s w E (amended A T (row.state, row.recordedBy)) L w1.db → (saving submits).Ensures t (k r) Q w1) :
    (saving submits).Ensures t (insert .staffAvailability row >>= k) Q w₀ := by
  refine ensures_insert (saving_historic submits) (fun w1 n hev _ _ => hrefused _ _ (hev.db.since.own.trans h.own))
    fun w1 hev hL _ _ => hok _ _ ?_
  have hreach := (h.evolves hev.db hL).reach (Nat.le_succ _)
  refine hreach.write (i := w1.db.next) (r := stamp .staffAvailability w1.db.next (w1.db.started t) row) hrow
    (fun hq j q hrow' hs => ?_) fun q hrow' => ?_
  · have hq0 : w₀.db.Quiet Table.staffAvailability (fun r => StaffAvailability.ofWeek r s w) (w₀.db.seen t) := by
      obtain ⟨l, hl, -⟩ := hev.db.log
      rw [← hev.db.seen]
      exact hq.before ⟨l, hl.symm⟩ (Nat.le_trans hev.db.next_le (Nat.le_succ _))
    exact absurd ((hreach.leaves hq T _).1 ⟨j, q, hrow', hs, rfl⟩) (hfree hq0 _)
  · exact absurd (hL.view_lt (t := t) hrow') (Nat.lt_irrefl _)

theorem setState_saves {state : AvailabilityState} {answered : Hours} (h : Draft t s w E A L w₀.db)
    (hrefused : ∀ x w', w'.db.own t = [] → Q (.error x) w')
    (hok : ∀ w1, Draft t s w E (amended A T (state, recordedBy)) L w1.db → (saving submits).Ensures t (k ()) Q w1) :
    (saving submits).Ensures t (setState s T w state recordedBy answered >>= k) Q w₀ := by
  refine ensures_first (ensures_select (saving_historic submits) fun w1 hev hL _ hA _ => ?_)
  have hquiet : w1.db.Quiet Table.staffAvailability (fun r => StaffAvailability.ofWeek r s w) (w1.db.seen t) := hA
  have hlooked : Draft t s w E A L (w1.db.look t) := (h.evolves hev.db hL).look hquiet
  have hrows := hL.view_consistent t
  have hid := hrows.id .staffAvailability
  have hselected := matching_cases (s := ⟨w1.db.view t, w1.db.next⟩) (p := fun r : StaffAvailability => r.standsFor s w T)
    hid fun i j r r' hr hr' hs hs' => stands_once hrows hr hr' hs hs'
  have hmem := fun i => mem_matching_iff (s := ⟨w1.db.view t, w1.db.next⟩) (i := i)
    (p := fun r : StaffAvailability => r.standsFor s w T) hid
  -- the row an INSERT makes, where the UPDATE found none
  have hinsert : ∀ w2, Draft t s w E A L w2.db →
      (w2.db.Quiet Table.staffAvailability (fun r => StaffAvailability.ofWeek r s w) (w2.db.seen t) → ∀ a, ¬A T a) →
      (saving submits).Ensures t ((insert .staffAvailability ⟨0, 0, none, s, T, w, state, recordedBy, answered⟩ >>=
        fun _ => return ()) >>= k) Q w2 := by
    intro w2 h2 hfree
    refine ensures_first (insert_saves h2 ?_ hfree hrefused fun _ => hok)
    simp [StaffAvailability.standsFor, StaffAvailability.ofWeek, StaffAvailability.live]
  obtain ⟨ids, hids⟩ : ∃ ids, ids = matching (S := schema) ⟨w1.db.view t, w1.db.next⟩ Table.staffAvailability
    fun r : StaffAvailability => r.standsFor s w T := ⟨_, rfl⟩
  rw [← hids] at hselected
  change (saving submits).Ensures t ((updateEach .staffAvailability _ (matching ⟨w1.db.view t, w1.db.next⟩
    Table.staffAvailability fun r : StaffAvailability => r.standsFor s w T) >>= _) >>= k) Q _
  rw [← hids]
  rcases hselected with rfl | ⟨i, rfl⟩
  · refine hinsert ⟨w1.db.look t, w1.out⟩ hlooked fun _ a ha => ?_
    obtain ⟨j, r, hr, hs, -⟩ := (hlooked.leaves Engine.quiet_look T a).2 ha
    have := (hmem j).2 ⟨hL.view_lt hr, r, hr, hs⟩
    rw [← hids] at this
    cases this
  · obtain ⟨-, r, hr, hs⟩ := (hmem i).1 (by rw [← hids]; simp)
    refine ensures_first (ensures_first (ensures_update (saving_historic submits)
      (fun w2 hev2 _ _ => hrefused _ _ (hev2.db.since.own.trans hlooked.own)) (fun w2 hev2 hL2 _ hnone => ?_)
      fun w2 v r' hev2 hL2 hv hr' _ _ _ => ?_))
    · -- the row has gone: another save was committed
      have h2 := hlooked.evolves hev2.db hL2
      refine hinsert w2 h2 fun hq => ?_
      rw [hev2.db.seen] at hq
      have hrow := (hq.seen_still hev2.db hL2 (settles_ofWeek s w) hlooked.past (standsFor_iff.1 hs).1).2 hr
      rw [hrow] at hnone
      have hmatch : r.ofWeek s w = true ∧ r.shiftTemplateId = T ∧ r.live = true := standsFor_iff.1 hs
      simp [applyChange, StaffAvailabilityChange.apply, hmatch] at hnone
    · have h2 := hlooked.evolves hev2.db hL2
      have hr' : StaffAvailabilityChange.apply v (.setState s T w state recordedBy answered) = some r' := hr'
      obtain ⟨hmatch, hr'⟩ := Option.ite_none_right_eq_some.1 hr'
      cases hr'
      have hv' : StaffAvailability.standsFor v s w T = true := standsFor_iff.2 hmatch
      refine hok _ (h2.write (i := i) (T := T) (r := { v with state := state, recordedBy := recordedBy, answered := answered }) ?_ (fun _ j q hq hs' => ?_) fun q hq T' hs' => ?_)
      · exact hv'
      · exact stands_once (hL2.view_consistent t) hq hv hs' hv'
      · rw [hv] at hq
        cases hq
        exact (standsFor_iff.1 hs').2.1.symm.trans (standsFor_iff.1 hv').2.1

theorem setEach_saves {want : Nat → Answer → Prop} (hrefused : ∀ x w', w'.db.own t = [] → Q (.error x) w') :
    ∀ (entries : List Entry) (A : Nat → Answer → Prop) (w₀ : World schema outside),
      (∀ entry ∈ entries, ∀ a, want entry.shiftTemplateId a ↔ a = (entry.state, recordedBy)) → Draft t s w E A L w₀.db →
      (∀ w1, Draft t s w E (filled want (entries.map Entry.shiftTemplateId) A) L w1.db →
        (saving submits).Ensures t (k ()) Q w1) →
      (saving submits).Ensures t (setEach s w recordedBy entries >>= k) Q w₀
  | [], A, w₀, _, h, hok => hok w₀ (h.turn fun _ T a => by simp [filled])
  | entry :: rest, A, w₀, hwant, h, hok => by
    refine ensures_first (setState_saves h hrefused fun w1 h1 => ?_)
    refine setEach_saves hrefused rest _ w1 (fun e he => hwant e (List.mem_cons_of_mem _ he)) h1 fun w2 h2 =>
      hok w2 (h2.turn fun _ T a => ?_)
    have hentry := hwant entry List.mem_cons_self a
    by_cases hT : T = entry.shiftTemplateId
    · subst hT
      by_cases hin : entry.shiftTemplateId ∈ rest.map Entry.shiftTemplateId <;> simp [filled, amended, hin, hentry]
    · simp [filled, amended, hT]

theorem softDeletePairs_saves {Ts : List Nat} {txNow : Int} (h : Draft t s w E A L w₀.db)
    (hrefused : ∀ x w', w'.db.own t = [] → Q (.error x) w')
    (hok : ∀ w1, Draft t s w E (fun T a => A T a ∧ T ∉ Ts) L w1.db → (saving submits).Ensures t (k ()) Q w1) :
    (saving submits).Ensures t (softDeletePairs s w Ts txNow >>= k) Q w₀ := by
  unfold softDeletePairs
  split
  · rename_i hempty
    exact hok w₀ (h.turn fun _ T a => by simp [List.isEmpty_iff.1 hempty])
  refine ensures_first (ensures_select (saving_historic submits) fun w1 hev hL _ hA _ => ?_)
  have hquiet : w1.db.Quiet Table.staffAvailability (fun r => StaffAvailability.ofWeek r s w) (w1.db.seen t) := hA
  have hlooked : Draft t s w E A L (w1.db.look t) := (h.evolves hev.db hL).look hquiet
  have hid := (hL.view_consistent t).id .staffAvailability
  refine ensures_first (ensures_updateLeft (saving_historic submits) (T := Table.staffAvailability) (g := StaffAvailabilityChange.clear s w Ts txNow) (fun is w' => Clearing t s w E A L Ts is w'.db)
    (fun is w' w'' hev' hL' _ hΦ => hΦ.evolves hev'.db hL') (fun i is w' hΦ _ hnone => hΦ.skip hnone)
    (fun i is w' v r hΦ hL' hv hr => hΦ.clear hL' hv hr) (k := fun _ => k ()) (fun is w' hΦ => hrefused _ _ hΦ.own)
    (fun rs w' hΦ => hok w' hΦ.done) _ _ [] ⟨⟨A, hlooked, fun _ _ _ => Iff.rfl⟩, fun _ T hT i r hr hs => ?_⟩)
  obtain ⟨hweek, htemplate, hlive⟩ := standsFor_iff.1 hs
  exact (mem_matching_iff (s := ⟨w1.db.view t, w1.db.next⟩) hid).2 ⟨hL.view_lt hr, r, hr, by simp [hweek, htemplate, hT, hlive]⟩

theorem record_saves {actorId : Nat} {action : AuditAction} (h : Draft t s w E A (fun _ => none) w₀.db)
    (hrefused : ∀ x w', w'.db.own t = [] → Q (.error x) w')
    (hok : ∀ j (r : AuditLog) w1, r.entity = s → r.action = action →
      Draft t s w E A (Function.update (fun _ => none) j (some r)) w1.db → (saving submits).Ensures t (k ()) Q w1) :
    (saving submits).Ensures t (record actorId s action >>= k) Q w₀ := by
  refine ensures_first (ensures_insert (saving_historic submits)
    (fun w1 n hev _ _ => hrefused _ _ (hev.db.since.own.trans h.own)) fun w1 hev hL _ _ => ?_)
  have hreach := (h.evolves hev.db hL).reach (Nat.le_succ _)
  exact hok w1.db.next ⟨w1.db.next, w1.db.started t, actorId, s, action⟩ _ rfl rfl hreach.audit

theorem Draft.whole {j : Nat} {r : AuditLog}
    (h : Draft t q.staff q.weekStart E q.wants (Function.update (fun _ => none) j (some r)) e)
    (hq : e.Quiet Table.staffAvailability (fun r => StaffAvailability.ofWeek r q.staff q.weekStart) (e.seen t))
    (hdiff : ∃ T a, ¬(E T a ↔ q.wants T a)) : Whole q (e.entry t) := by
  have haudits : (e.entry t).writes .auditLog = Function.update (fun _ => none) j (some r) := h.audits
  have honly : ∀ i (r' : AuditLog), (e.entry t).writes .auditLog i = some r' → i = j := by
    intro i r' hr'
    by_contra hne
    rw [haudits, Function.update_of_ne hne] at hr'
    cases hr'
  refine ⟨h.mine, fun _ T a => ?_, ⟨fun _ => ?_, fun _ => ⟨j, r, by rw [haudits, Function.update_self]⟩⟩,
    fun i i' r' r'' hr' hr'' => (honly i r' hr').trans (honly i' r'' hr'').symm⟩
  · rw [Engine.entry_after]
    exact h.leaves hq T a
  · obtain ⟨T, a, hne⟩ := hdiff
    refine ⟨T, a, fun hiff => hne ?_⟩
    rw [Engine.entry_after] at hiff
    exact (h.found hq T a).symm.trans (hiff.trans (h.leaves hq T a))

theorem Bare.draft (h : Bare t e) (hL : e.Lawful tenure.shared) :
    Draft t s w (fun T a => standing (((⟨e.view t, e.next⟩ : Snapshot schema).all .staffAvailability).filter
        fun r : StaffAvailability => r.ofWeek s w ∧ r.live) T = some a)
      (fun T a => standing (((⟨e.view t, e.next⟩ : Snapshot schema).all .staffAvailability).filter
        fun r : StaffAvailability => r.ofWeek s w ∧ r.live) T = some a) (fun _ => none) (e.look t) := by
  have hmeans : ∀ T a, Says (e.view t) s w T a ↔ standing (((⟨e.view t, e.next⟩ : Snapshot schema).all
      .staffAvailability).filter fun r : StaffAvailability => r.ofWeek s w ∧ r.live) T = some a := fun T a =>
    (standing_iff (hL.view_consistent t) fun i r hr => hL.view_lt hr).symm
  refine ⟨h.own, by simp, fun i r hr => ?_, fun _ T a => ?_, fun _ T a => hmeans T a, ?_⟩
  · rw [Engine.look_pending, h.idle.pending] at hr
    cases hr
  · rw [← hmeans T a, h.idle.view]
    rfl
  · rw [Engine.look_pending, h.idle.pending]

theorem plan_saves {late : Bool} {n : Int} {existing : List StaffAvailability} {templates : List ShiftTemplate}
    (h : Draft t (submits t).staff (submits t).weekStart (fun T a => standing existing T = some a)
      (fun T a => standing existing T = some a) (fun _ => none) w₀.db) (hbare : Bare t w₀.db)
    (hlooked : w₀.db.seen t = w₀.db.log.length)
    (hnamed : ∀ T ∈ named (submits t).body.entries, T ∈ templates.map ShiftTemplate.id)
    (herr : ∀ x w', Bare t w'.db → Q (.error x) w')
    (hok : ∀ w1, w1.db.Idle t → Reached (submits t) w1.db → (saving submits).Ensures t (k ()) Q w1) :
    (saving submits).Ensures t
      (let plan := planWeekWrite existing (submits t).body.entries (recorder (submits t).actor.id (submits t).staff)
      if plan.1.isEmpty ∧ plan.2.isEmpty then return ()
      else do
        setEach (submits t).staff (submits t).weekStart (recorder (submits t).actor.id (submits t).staff)
          (written templates (submits t).body.entries plan.1)
        softDeletePairs (submits t).staff (submits t).weekStart plan.2 n
        record (submits t).actor.id (submits t).staff (.availabilitySubmitted (submits t).weekStart
          ((recorder (submits t).actor.id (submits t).staff).map fun _ => (submits t).staff) late
          (stateCounts ((named (submits t).body.entries).filterMap (requested (submits t).body.entries))) plan.2.length))
      (Closes (saving submits) t k Q) w₀ := by
  have hrefused : ∀ x w', w'.db.own t = [] → Closes (saving submits) t k Q (.error x) w' := fun x w' hown w'' hev _ =>
    herr x _ ⟨hev.db.since.own.trans hown, Engine.idle_release _ t⟩
  by_cases hplan : (planWeekWrite existing (submits t).body.entries (recorder (submits t).actor.id (submits t).staff)).1.isEmpty ∧
      (planWeekWrite existing (submits t).body.entries (recorder (submits t).actor.id (submits t).staff)).2.isEmpty
  · -- the week stands as it was sent, and nothing is written
    simp only [hplan, and_self, if_true]
    intro w1 hev _ hI _ _
    have hreached : Reached (submits t) w₀.db := by
      refine ⟨w₀.db.log.length, Nat.le_refl _, fun T a => ?_⟩
      rw [Engine.version_length]
      refine (h.found ?_ T a).trans (plan_settled hplan)
      rw [hlooked]
      exact Engine.quiet_now
    exact ⟨Ledger.inv_commit hI (whole_idle (hbare.evolves hev.db).idle),
      hok _ (Engine.idle_commit _ t) (hreached.evolves hev.db).commit⟩
  · simp only [hplan, if_false]
    refine setEach_saves hrefused _ _ _ (fun entry he a => written_wants he) h fun w1 h1 =>
      softDeletePairs_saves h1 hrefused fun w2 h2 => ensures_last (record_saves h2 hrefused fun j r w3 hentity haction h3 => ?_)
    intro w4 hev hL hI hA hL'
    have h4 : Draft t _ _ _ (submits t).wants _ w4.db := (h3.turn fun _ T a => plan_applied hnamed).evolves hev.db hL
    have hrow : w4.db.pending t .auditLog j = some r := by rw [h4.audits, Function.update_self]
    have hquiet := hA j (hL.owned_lt t .auditLog j r hrow) r hrow (submits t).weekStart (by rw [haction]; rfl)
    rw [hentity] at hquiet
    have hwhole := h4.whole hquiet (plan_differs hplan)
    have hreached : Reached (submits t) (w4.db.commit t) := by
      refine ⟨w4.db.log.length + 1, by simp, fun T a => ?_⟩
      rw [Engine.commit_version_last]
      exact h4.leaves hquiet T a
    exact ⟨Ledger.inv_commit hI hwhole, hok _ (Engine.idle_commit _ t) hreached⟩

theorem applyWeek_saves {late : Bool} (h : Bare t w₀.db) (herr : ∀ x w', Bare t w'.db → Q (.error x) w')
    (hok : ∀ w1, w1.db.Idle t → Reached (submits t) w1.db → (saving submits).Ensures t (k ()) Q w1) :
    (saving submits).Ensures t
      (applyWeek (submits t).actor.id (submits t).staff (submits t).body late >>= k) Q w₀ := by
  have hrefused : ∀ x w', Bare t w'.db → Closes (saving submits) t k Q (.error x) w' := fun x w' hbare w'' hev _ =>
    herr x _ ⟨(hbare.evolves hev.db).own, Engine.idle_release _ t⟩
  refine ensures_tenantSession (saving_historic submits) fun w1 n hev _ _ => ?_
  have h1 := (h.evolves hev.db).begin n
  refine ensures_ask (saving_historic submits) rfl fun w2 i m hev2 _ _ _ => ?_
  have h2 := h1.evolves hev2.db
  refine ensures_raiseIf (fun _ => hrefused _ _ h2) fun _ => ?_
  refine ensures_select (saving_historic submits) fun w3 hev3 _ _ _ _ => ?_
  have h3 := (h2.evolves hev3.db).look
  refine ensures_raiseIf (fun _ => hrefused _ _ h3) fun hnamed => ?_
  refine ensures_select (saving_historic submits) fun w4 hev4 hL4 _ _ _ => ?_
  have h4 := (h3.evolves hev4.db).look
  refine plan_saves ((h3.evolves hev4.db).draft hL4) h4 (by simp) (fun T hT => ?_) herr hok
  have hlive := List.any_eq_false.1 hnamed T hT
  simpa [and_assoc] using hlive

def Ends (q : Submission) (t : Tid) : Except Err Reply → Engine schema → Prop
  | .ok _, e => Reached q e
  | .error _, e => e.own t = []

theorem Ends.evolves {x : Except Err Reply} {e' : Engine schema} (h : Ends q t x e)
    (hev : e.Evolves tenure.shared t e') : Ends q t x e' := by
  cases x with
  | ok reply => exact Reached.evolves h hev
  | error err => exact hev.since.own.trans h

theorem answer_saves (h : w₀.db.Idle t) (hreached : Reached (submits t) w₀.db) :
    (saving submits).Ensures t (tenantSession fun _ => do
      let templates ← listLive
      let entries ← liveForWeek (submits t).staff (submits t).body.weekStart
      return .week templates entries) (fun x w' => Ends (submits t) t x w'.db) w₀ := by
  refine ensures_last (ensures_tenantSession (saving_historic submits) fun w1 n hev _ _ => ?_)
  have h1 : ({ w1.db with started := Function.update w1.db.started t n } : Engine schema).Idle t := ⟨(hev.db.idle h).pending⟩
  have hbegun := hreached.evolves hev.db
  have hreached1 : Reached (submits t) ({ w1.db with started := Function.update w1.db.started t n } : Engine schema) := hbegun
  refine ensures_select (saving_historic submits) fun w2 hev2 _ _ _ _ => ?_
  have h2 : (w2.db.look t).Idle t := ⟨(hev2.db.idle h1).pending⟩
  have hthen := hreached1.evolves hev2.db
  have hreached2 : Reached (submits t) (w2.db.look t) := hthen
  refine ensures_select (saving_historic submits) fun w3 hev3 _ _ _ _ => ?_
  have h3 : (w3.db.look t).Idle t := ⟨(hev3.db.idle h2).pending⟩
  have hlast := hreached2.evolves hev3.db
  have hreached3 : Reached (submits t) (w3.db.look t) := hlast
  intro w4 hev4 _ hI _ _
  exact ⟨Ledger.inv_commit hI (whole_idle (hev4.db.idle h3)), (hreached3.evolves hev4.db).commit⟩

theorem submit_saves (h : Bare t w₀.db) :
    (saving submits).Ensures t (submit (submits t).actor (submits t).body) (fun x w' => Ends (submits t) t x w'.db) w₀ := by
  have hC := saving_historic submits
  refine ensures_raiseIf (fun _ => h.own) fun _ => ensures_ask hC rfl fun w1 i n hev _ _ _ => ?_
  have h1 := h.evolves hev.db
  refine ensures_first (ensures_first (ensures_raiseIf (fun _ => h1.own) fun _ => ensures_first
    (ensures_raiseIf (fun _ => h1.own) fun _ => ensures_raiseIf (fun _ => h1.own) fun _ =>
      ensures_raiseIf (fun _ => h1.own) fun _ => ensures_ask hC rfl fun w2 i n hev2 _ _ _ => ?_)))
  have h2 := h1.evolves hev2.db
  refine ensures_raiseIf (fun _ => h2.own) fun _ => ensures_first (ensures_attempt (ensures_last (applyWeek_saves h2
    (fun x w3 h3 => ?_) fun w3 h3 hreached => answer_saves h3 hreached)))
  cases x with
  | integrity =>
    -- once more, in a fresh transaction
    exact applyWeek_saves h3 (fun x w4 h4 => h4.own) fun w4 h4 hreached => answer_saves h4 hreached
  | _ => exact h3.own

end Saves

/-! ## Every run -/

variable {submits : Tid → Submission} {rows : Rows schema} {next : Nat} {clock today : Int}
  {c : Conf (machine schema outside Err) Reply}

/-- **A saved week is one save's week**: in every run of saves none of which is divided by another save of its week, once all
the saves of a week have finished and one has succeeded, the answers of the week are exactly the map of one that succeeded;
and every commit of a save is audited exactly when it changed the week, and once. -/
theorem week_saved_whole (h : Shelved rows next)
    (hr : Conf.Steps Undivided (serving (fun t => (submits t).request) rows next clock today) c) (s : Nat) (w : Int)
    (hdone : ∀ t, (submits t).staff = s → (submits t).weekStart = w →
      c.returned t = true ∨ c.failure t ≠ none ∨ c.state.db.own t = []) :
    ((∃ t, (submits t).staff = s ∧ (submits t).weekStart = w ∧ c.returned t = true) →
      ∃ t, (submits t).staff = s ∧ (submits t).weekStart = w ∧ c.returned t = true ∧
        ∀ T a, Says c.state.db.committed s w T a ↔ (submits t).wants T a) ∧
    ∀ t, (submits t).staff = s → (submits t).weekStart = w → ∀ d ∈ c.state.db.own t, (Audited d ↔ Altered d s w) ∧
      ∀ i j (r r' : AuditLog), d.writes .auditLog i = some r → d.writes .auditLog j = some r' → i = j := by
  have hob : Cast.Obeyed tenure.shared (serving (fun t => (submits t).request) rows next clock today) :=
    staged_obeyed h legal_tenure
  have hI : (saving submits).Inv (serving (fun t => (submits t).request) rows next clock today).state := by
    simp [Ledger.contract, staged, atRest]
  have hsafe : ∀ t p, (serving (fun t => (submits t).request) rows next clock today).threads t = some p →
      (saving submits).logic.Safe t p (fun x w => Ends (submits t) t x w.db)
        (serving (fun t => (submits t).request) rows next clock today).state := by
    intro t p hp
    cases hp
    exact safe_of_ensures (submit_saves ⟨rfl, ⟨rfl⟩⟩) fun x w w' hx hev _ _ => hx.evolves hev.db
  obtain ⟨hsound, hL⟩ := (saving submits).runs (Q := fun t x w => Ends (submits t) t x w.db) hob hI hsafe hr
  have hwhole : ∀ m d, c.state.db.log[m]? = some d → Whole (submits d.by_) d := hsound.inv.2
  refine ⟨?_, fun t hs hw d hd => ?_⟩
  · rintro ⟨t, hs, hw, ht⟩
    by_cases hquiet : c.state.db.Quiet Table.staffAvailability (fun r => StaffAvailability.ofWeek r s w) 0
    · -- nobody wrote the week: it stands as the save saw it
      obtain ⟨reply, hreply⟩ := Conf.returned_iff.1 ht
      obtain ⟨m, hm, hmeans⟩ : Reached (submits t) c.state.db := hsound.finished hreply
      rw [hs, hw] at hmeans
      refine ⟨t, hs, hw, ht, fun T a => Iff.trans ?_ (hmeans T a)⟩
      exact says_congr fun i r hr => (hquiet.mono (Nat.zero_le m)).same hL (settles_ofWeek s w) hm hr
    · -- the last commit of the week is a save's that has finished
      obtain ⟨k, d, hd, ⟨i, r, hwrote, hweek⟩, hlater⟩ := Engine.last_write hquiet
      have hd' := hwhole k d hd
      have hmine := hd'.mine i r hwrote
      simp only [StaffAvailability.ofWeek, decide_eq_true_eq] at hweek hmine
      have hs' : (submits d.by_).staff = s := hmine.1.symm.trans hweek.1
      have hw' : (submits d.by_).weekStart = w := hmine.2.symm.trans hweek.2
      have hmem : d ∈ c.state.db.own d.by_ := by
        simp [Engine.own, List.mem_of_getElem? hd]
      have hret : c.returned d.by_ = true := by
        rcases hdone d.by_ hs' hw' with hret | hfailed | hnone
        · exact hret
        · obtain ⟨err, herr⟩ := Option.ne_none_iff_exists'.1 hfailed
          have hnone : c.state.db.own d.by_ = [] := hsound.raised (Conf.failure_eq_some.1 herr)
          rw [hnone] at hmem
          cases hmem
        · rw [hnone] at hmem
          cases hmem
      refine ⟨d.by_, hs', hw', hret, fun T a => Iff.trans ?_ (hd'.whole ⟨i, r, hwrote⟩ T a)⟩
      rw [hs', hw', ← hL.linked k d hd]
      exact says_congr fun j q hq => hlater.same hL (settles_ofWeek s w) (List.getElem?_eq_some_iff.1 hd).1 hq
  · have hmem := List.mem_filter.1 hd
    obtain ⟨m, hm⟩ := List.mem_iff_getElem?.1 hmem.1
    have hby : d.by_ = t := by simpa using hmem.2
    have hd' := hwhole m d hm
    rw [hby] at hd'
    exact ⟨by rw [← hs, ← hw]; exact hd'.audited, hd'.once⟩

/-! ## Two saves of one week -/

def twoShifts : (T : Table) → List (Row T)
  | .shiftTemplates => [sundayMorning 1, sundayMorning 2]
  | _ => []

theorem twoShifts_shelved : Shelved (listed (S := schema) twoShifts) 3 :=
  shelved_of_stocked [.shiftTemplates, .staffAvailability, .rosters, .rosterAssignments, .auditLog]
    (fun T => by cases T <;> decide) (by decide)

/-- Staffer 7 answers the first shift from one device and the second from another; everyone else answers nothing. -/
def twoSaves : Tid → Submission
  | 0 => ⟨⟨7, false⟩, ⟨10, none, [(1, .available)]⟩⟩
  | 1 => ⟨⟨7, false⟩, ⟨10, none, [(2, .preferred)]⟩⟩
  | n + 2 => ⟨⟨n + 8, false⟩, ⟨10, none, []⟩⟩

theorem twoSaves_of_seven {t : Tid} (h : (twoSaves t).staff = 7) : t = 0 ∨ t = 1 := by
  rcases t with _ | _ | n
  · exact .inl rfl
  · exact .inr rfl
  · have h : (n : Nat) + 8 = 7 := h
    exact absurd h (Nat.ne_of_gt (Nat.lt_add_left n (by decide)))

/-- Both look at a week without answers, and each inserts her own: the week saved is neither's. -/
theorem saves_mixed : ∃ c, (serving (fun t => (twoSaves t).request) (listed (S := schema) twoShifts) 3 100 3).Reaches c ∧
    (∀ t, (twoSaves t).staff = 7 → c.returned t = true) ∧
    ∀ t, (twoSaves t).staff = 7 → ¬∀ T a, Says c.state.db.committed 7 10 T a ↔ (twoSaves t).wants T a := by
  obtain ⟨c, hc, hP⟩ := Conf.reached_freely (serving (fun t => (twoSaves t).request) (listed (S := schema) twoShifts) 3 100 3)
    (calls 0 6 ++ calls 1 6 ++ calls 0 8 ++ calls 1 8)
    (fun c => c.returned 0 && c.returned 1 &&
      (c.state.db.committed .staffAvailability 3).any (fun r => StaffAvailability.standsFor r 7 10 1) &&
      (c.state.db.committed .staffAvailability 5).any (fun r => StaffAvailability.standsFor r 7 10 2)) (by decide)
  simp only [Bool.and_eq_true, Option.any_eq_true] at hP
  obtain ⟨⟨⟨hret, hret'⟩, r, hr, hs⟩, r', hr', hs'⟩ := hP
  refine ⟨c, hc, fun t ht => ?_, fun t ht hmeans => ?_⟩
  · rcases twoSaves_of_seven ht with rfl | rfl
    · exact hret
    · exact hret'
  · have hfirst := ((hmeans 1 _).1 ⟨3, r, hr, hs, rfl⟩).1
    have hsecond := ((hmeans 2 _).1 ⟨5, r', hr', hs', rfl⟩).1
    rcases twoSaves_of_seven ht with rfl | rfl
    · cases hsecond
    · cases hfirst

/-- One after the other: the week is the second's. -/
theorem week_saved_whole_once : ∃ c,
    Conf.Steps Undivided (serving (fun t => (twoSaves t).request) (listed (S := schema) twoShifts) 3 100 3) c ∧
    ∃ t, (twoSaves t).staff = 7 ∧ c.returned t = true ∧
      ∀ T a, Says c.state.db.committed 7 10 T a ↔ (twoSaves t).wants T a := by
  obtain ⟨c, hc, hP⟩ := Conf.reached_of_play (A := Undivided)
    (serving (fun t => (twoSaves t).request) (listed (S := schema) twoShifts) 3 100 3) (calls 0 14 ++ calls 1 16)
    (fun c => c.returned 0 && c.returned 1) (by decide)
  rw [Bool.and_eq_true] at hP
  have hdone : ∀ t, (twoSaves t).staff = 7 → (twoSaves t).weekStart = 10 →
      c.returned t = true ∨ c.failure t ≠ none ∨ c.state.db.own t = [] := by
    intro t ht _
    rcases twoSaves_of_seven ht with rfl | rfl
    · exact .inl hP.1
    · exact .inl hP.2
  obtain ⟨t, hs, -, hret, hmeans⟩ := (week_saved_whole twoShifts_shelved hc 7 10 hdone).1 ⟨0, rfl, rfl, hP.1⟩
  exact ⟨c, hc, t, hs, hret, hmeans⟩

end Rota
