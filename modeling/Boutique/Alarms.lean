import Boutique.Ownership
/-!
# Alarms — whom a call for help is shown to, and on whose screen it rises

The audience is decided twice, once in Python for a row that was read and once in SQL for the list of the poll; whether
the overlay rises is a third, narrower predicate over the same row and two clocks.  `no_silent_sos` is that no live
alert is left without a screen.
-/
namespace Staff

open Txn Session

/-! ## The predicates of the service -/

def ESCALATION_AFTER : Int := 30 * Boutique.second

def STALLED_AFTER : Int := 120 * Boutique.second

/-- `_escalated`: open, unacknowledged, and older than thirty seconds. -/
def escalatedAt (row : SosAlert) (serverNow : Int) : Bool :=
  if row.status ≠ .open_ ∨ row.acknowledgedAt ≠ none then false
  else ESCALATION_AFTER ≤ serverNow - row.createdAt

/-- `_stalled`: accepted two minutes ago and still not resolved. -/
def stalledAt (row : SosAlert) (serverNow : Int) : Bool :=
  match row.acknowledgedAt with
  | none => false
  | some at_ => if row.status ≠ .accepted then false else STALLED_AFTER ≤ serverNow - at_

/-- Whether the overlay rises on this caller's device, never on the raiser's own. -/
def forMe (row : SosAlert) (actor : StaffContext) (escalated stalled : Bool) : Bool :=
  if row.raisedBy = actor.id then false
  else if row.status = .accepted then stalled ∧ actor.role ∈ ELEVATED_ROLES
  else if row.status ≠ .open_ then false
  else if row.targetStaffUserId = some actor.id then true
  else if actor.role ∈ ELEVATED_ROLES then row.targetStaffUserId = none ∨ escalated
  else false

structure SosCard where
  alert : SosAlert
  escalated : Bool
  stalled : Bool
  forMe : Bool
deriving DecidableEq

def sosRead (row : SosAlert) (actor : StaffContext) (serverNow : Int) : SosCard :=
  let escalated := escalatedAt row serverNow
  let stalled := stalledAt row serverNow
  ⟨row, escalated, stalled, Staff.forMe row actor escalated stalled⟩

/-- `live_for`, before its ORDER BY: an elevated caller passes no id, and gets no predicate more. -/
def liveFor (s : Snapshot schema) (actorId : Option Nat) : List SosAlert :=
  (s.all .sosAlerts).filter fun (r : SosAlert) => (r.deletedAt = none ∧ r.status ∈ LIVE_STATUSES) ∧
    ∀ i ∈ actorId, r.raisedBy = i ∨ r.targetStaffUserId = some i ∨ r.acceptedBy = some i

/-- The poll's payload, oldest first. -/
def sos (s : Snapshot schema) (actor : StaffContext) (serverNow : Int) : List SosCard :=
  ((liveFor s (if actor.role ∈ ELEVATED_ROLES then none else some actor.id)).mergeSort fun r r' =>
    r.createdAt ≤ r'.createdAt).map fun r => sosRead r actor serverNow

/-! ## Small facts -/

variable {row : SosAlert} {actor : StaffContext} {now now' : Int}

theorem escalatedAt_iff : escalatedAt row now = true ↔
    (row.status = .open_ ∧ row.acknowledgedAt = none) ∧ ESCALATION_AFTER ≤ now - row.createdAt := by
  unfold escalatedAt
  split
  · rename_i h
    simp only [Bool.false_eq_true, false_iff]
    rintro ⟨⟨hs, ha⟩, -⟩
    rcases h with h | h
    · exact h hs
    · exact h ha
  · rename_i h
    simp_all

theorem stalledAt_iff : stalledAt row now = true ↔
    row.status = .accepted ∧ ∃ at_, row.acknowledgedAt = some at_ ∧ STALLED_AFTER ≤ now - at_ := by
  unfold stalledAt
  cases ha : row.acknowledgedAt with
  | none => simp
  | some at_ => by_cases hs : row.status = .accepted <;> simp [hs]

theorem forMe_iff {escalated stalled : Bool} : forMe row actor escalated stalled = true ↔
    row.raisedBy ≠ actor.id ∧ ((row.status = .accepted ∧ stalled = true ∧ actor.role ∈ ELEVATED_ROLES) ∨
      (row.status = .open_ ∧ (row.targetStaffUserId = some actor.id ∨
        (actor.role ∈ ELEVATED_ROLES ∧ (row.targetStaffUserId = none ∨ escalated = true))))) := by
  unfold forMe
  cases row.status <;> split_ifs <;> simp_all

theorem escalatedAt_mono (h : now ≤ now') (he : escalatedAt row now = true) : escalatedAt row now' = true := by
  rw [escalatedAt_iff] at he ⊢
  exact ⟨he.1, by omega⟩

theorem stalledAt_mono (h : now ≤ now') (hs : stalledAt row now = true) : stalledAt row now' = true := by
  rw [stalledAt_iff] at hs ⊢
  obtain ⟨hstatus, at_, hat, hle⟩ := hs
  exact ⟨hstatus, at_, hat, by omega⟩

theorem visibleTo_of_forMe {escalated stalled : Bool} (h : forMe row actor escalated stalled = true) :
    visibleTo row actor = true := by
  obtain ⟨-, ⟨-, -, hrole⟩ | ⟨-, htarget | ⟨hrole, -⟩⟩⟩ := forMe_iff.1 h
  · simp [visibleTo, hrole]
  · simp [visibleTo, htarget]
  · simp [visibleTo, hrole]

def Admitted (row : SosAlert) (actor : StaffContext) : Prop :=
  (row.deletedAt = none ∧ row.status ∈ LIVE_STATUSES) ∧ visibleTo row actor = true

theorem mem_liveFor {s : Snapshot schema} :
    row ∈ liveFor s (if actor.role ∈ ELEVATED_ROLES then none else some actor.id) ↔
      row ∈ s.all .sosAlerts ∧ Admitted row actor := by
  by_cases hrole : actor.role ∈ ELEVATED_ROLES <;>
    simp [liveFor, Admitted, visibleTo, hrole, eq_comm (a := actor.id), eq_comm (a := some actor.id)]

theorem mem_sos {s : Snapshot schema} {card : SosCard} : card ∈ sos s actor now ↔
    ∃ row, (∃ i, i < s.next ∧ s.rows .sosAlerts i = some row) ∧ Admitted row actor ∧ sosRead row actor now = card := by
  simp only [sos, List.mem_map, List.mem_mergeSort, mem_liveFor, and_assoc]
  constructor
  · rintro ⟨row, hrow, hrest⟩
    exact ⟨row, Snapshot.mem_all.1 hrow, hrest⟩
  · rintro ⟨row, hrow, hrest⟩
    exact ⟨row, Snapshot.mem_all.2 hrow, hrest⟩

/-! ## Every run -/

variable {cfg : Config} {reqs : Tid → Request} {out : Store} {rows : Rows schema} {next : Nat} {clock : Int}
  {c : Conf (machine schema outside Err) Response}

theorem coherent_reached (h : Shelved rows next) (hcoherent : ∀ i (a : SosAlert), rows .sosAlerts i = some a → Coherent a)
    (hr : (serving cfg reqs out rows next clock).Reaches c) :
    ∀ i (a : SosAlert), c.state.db.committed .sosAlerts i = some a → Coherent a := by
  have hob : Cast.Obeyed conduct.shared (serving cfg reqs out rows next clock) := serving_obeyed h
  have hstart : c.state.db.version 0 = rows := (hob.history hr).2 0 (Nat.le_refl 0)
  have hall := coherent_runs (hob.steps hr).1.lawful (by rw [hstart]; exact hcoherent) (owning_runs h hr).1
  intro i a ha
  exact hall _ (Nat.le_refl _) i a (by rw [Engine.version_length]; exact ha)

/-- **No silent call for help**: in every state that is reached, at every instant, an alert that has been open for thirty
seconds, accepted for two minutes or open with nobody named rises on the screen of every elevated member of the staff but
the raiser; what rises is visible, and while the alert is unchanged it does not fall again; and the poll lists exactly the
live alerts that the audience rule admits. -/
theorem no_silent_sos (h : Shelved rows next) (hcoherent : ∀ i (a : SosAlert), rows .sosAlerts i = some a → Coherent a)
    (hr : (serving cfg reqs out rows next clock).Reaches c) :
    (∀ i (a : SosAlert), c.state.db.committed .sosAlerts i = some a →
      (∀ (actor : StaffContext) (now : Int), actor.role ∈ ELEVATED_ROLES → actor.id ≠ a.raisedBy →
        (a.status = .open_ ∧ ESCALATION_AFTER ≤ now - a.createdAt) ∨
        (a.status = .accepted ∧ ∀ at_, a.acknowledgedAt = some at_ → STALLED_AFTER ≤ now - at_) ∨
        (a.status = .open_ ∧ a.targetStaffUserId = none) → (sosRead a actor now).forMe = true) ∧
      (∀ (actor : StaffContext) (now : Int), (sosRead a actor now).forMe = true → visibleTo a actor = true) ∧
      ∀ (actor : StaffContext) (now now' : Int), now ≤ now' → (sosRead a actor now).forMe = true →
        (sosRead a actor now').forMe = true) ∧
    ∀ (actor : StaffContext) (now : Int) (card : SosCard),
      card ∈ sos ⟨c.state.db.committed, c.state.db.next⟩ actor now ↔
        ∃ i a, c.state.db.committed .sosAlerts i = some a ∧ Admitted a actor ∧ sosRead a actor now = card := by
  have hL : c.state.db.Lawful conduct.shared :=
    ((serving_obeyed h : Cast.Obeyed conduct.shared (serving cfg reqs out rows next clock)).steps hr).1.lawful
  refine ⟨fun i a ha => ⟨fun actor now hrole hother hdue => ?_, fun actor now => visibleTo_of_forMe,
    fun actor now now' hle hrises => ?_⟩, fun actor now card => ?_⟩
  · have hsound : Coherent a := coherent_reached h hcoherent hr i a ha
    refine forMe_iff.2 ⟨Ne.symm hother, ?_⟩
    rcases hdue with ⟨hopen, hold⟩ | ⟨haccepted, hold⟩ | ⟨hopen, hnobody⟩
    · have hat : a.acknowledgedAt = none := hsound.pair.1 (hsound.opened hopen)
      exact .inr ⟨hopen, .inr ⟨hrole, .inr (escalatedAt_iff.2 ⟨⟨hopen, hat⟩, hold⟩)⟩⟩
    · obtain ⟨at_, hat⟩ := Option.ne_none_iff_exists'.1 fun hn => hsound.owned haccepted (hsound.pair.2 hn)
      exact .inl ⟨haccepted, stalledAt_iff.2 ⟨haccepted, at_, hat, hold at_ hat⟩, hrole⟩
    · exact .inr ⟨hopen, .inr ⟨hrole, .inl hnobody⟩⟩
  · obtain ⟨hother, hcase⟩ := forMe_iff.1 hrises
    refine forMe_iff.2 ⟨hother, ?_⟩
    rcases hcase with ⟨haccepted, hstalled, hrole⟩ | ⟨hopen, htarget | ⟨hrole, hnobody | hescalated⟩⟩
    · exact .inl ⟨haccepted, stalledAt_mono hle hstalled, hrole⟩
    · exact .inr ⟨hopen, .inl htarget⟩
    · exact .inr ⟨hopen, .inr ⟨hrole, .inl hnobody⟩⟩
    · exact .inr ⟨hopen, .inr ⟨hrole, .inr (escalatedAt_mono hle hescalated)⟩⟩
  · rw [mem_sos]
    constructor
    · rintro ⟨a, ⟨i, -, ha⟩, hrest⟩
      exact ⟨i, a, ha, hrest⟩
    · rintro ⟨i, a, ha, hrest⟩
      exact ⟨a, ⟨i, hL.committed_lt _ _ _ ha, ha⟩, hrest⟩

/-- Dana has called for help, and nobody is named: the other two screens ring at once. -/
theorem no_silent_sos_called : ∃ c, (serving plainConfig bothAccept emptyStore (listed (S := schema) oneCall) 4 0).Reaches c ∧
    ∃ i a, c.state.db.committed .sosAlerts i = some a ∧ ∀ now, (sosRead a ⟨1, .shiftManager⟩ now).forMe = true := by
  have hstart : (serving plainConfig bothAccept emptyStore (listed (S := schema) oneCall) 4 0).Reaches
      (serving plainConfig bothAccept emptyStore (listed (S := schema) oneCall) 4 0) := .refl
  have hrises := (no_silent_sos oneCall_shelved oneCall_coherent hstart).1 3
    (⟨3, 0, none, 0, none, none, none, .open_, none, none⟩ : SosAlert) rfl
  exact ⟨_, hstart, 3, _, rfl, fun now => hrises.1 ⟨1, .shiftManager⟩ now (by decide) (by decide) (.inr (.inr ⟨rfl, rfl⟩))⟩

end Staff
