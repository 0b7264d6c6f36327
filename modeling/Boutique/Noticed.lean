import Boutique.Tenure
import Boutique.TxnFlight
/-!
# Noticed — what a publish notices of the roster

`changed_since` compares the instants at which the writing transactions began with the instant at which the last publish
began; what that publish read was decided by the order of the commits.  Where the two orders agree, whoever reads the roster
or publishes it again learns of every change since, and of none where there was none.  A transaction that began before a
publish and commits after its SELECT goes unnoticed.
-/
namespace Rota

open Txn Session Contract

/-! ## What is noticed -/

def placed (rows : Nat → Option RosterAssignment) (k i : Nat) : Option (Nat × Nat × Bool) :=
  ((rows i).filter fun a => a.rosterId = k ∧ a.deletedAt = none).map fun a => (a.shiftTemplateId, a.staffUserId, a.isShiftManager)

def RosterAssignment.writtenAt (a : RosterAssignment) : Int := a.updatedAt.getD a.createdAt

def Moved (rows : Nat → Option RosterAssignment) (k : Nat) (at_ : Int) : Prop :=
  ∃ i a, rows i = some a ∧ a.rosterId = k ∧ a.since at_ = true

def Commit.assigns (d : Commit schema) (k : Nat) (a : RosterAssignment) : Prop :=
  ∃ i, d.writes .rosterAssignments i = some a ∧ a.rosterId = k

variable {a : RosterAssignment} {Q : Except Err Reply → World schema outside → Prop}

theorem since_of_written {at_ : Int} (h : at_ < a.writtenAt) : a.since at_ = true := by
  unfold RosterAssignment.writtenAt at h
  cases hu : a.updatedAt with
  | none =>
    rw [hu] at h
    simp [RosterAssignment.since, show at_ < a.createdAt from h]
  | some n =>
    rw [hu] at h
    simp [RosterAssignment.since, hu, show at_ < n from h]

theorem placed_some {rows : Nat → Option RosterAssignment} {k i : Nat} (h : placed rows k i ≠ none) :
    ∃ a, rows i = some a ∧ a.rosterId = k := by
  cases ha : rows i with
  | none => simp [placed, ha] at h
  | some a =>
    refine ⟨a, rfl, ?_⟩
    by_contra hk
    simp [placed, ha, hk] at h

section Orders

variable {e : Engine schema} {k l m n : Nat} {at_ : Int}

theorem roster_kept (h : e.Lawful tenure.shared) {i : Nat} {b : RosterAssignment} (hmn : m ≤ n)
    (hn : n ≤ e.log.length) (ha : e.version m .rosterAssignments i = some a)
    (hb : e.version n .rosterAssignments i = some b) : b.rosterId = a.rosterId := by
  have hrow := h.version_becomes (Cast.plays_common _) hmn hn .rosterAssignments i
  rw [ha, hb] at hrow
  have hkept : AssignmentKept a b := hrow
  exact hkept.roster

/-- **A roster that is not as it was has moved**, where every commit since was of a later transaction. -/
theorem moved_of_placed (h : e.Lawful tenure.shared) (hml : m ≤ l) (hln : l ≤ n) (hn : n ≤ e.log.length)
    (hlate : ∀ j d a, m ≤ j → e.log[j]? = some d → Commit.assigns d k a → at_ < a.writtenAt)
    (hne : placed (e.version l .rosterAssignments) k ≠ placed (e.version m .rosterAssignments) k) :
    Moved (e.version n .rosterAssignments) k at_ := by
  obtain ⟨i, hi⟩ := Function.ne_iff.1 hne
  obtain ⟨j, d, r, hmj, hjl, hd, hr⟩ : ∃ j d r, m ≤ j ∧ j < l ∧ e.log[j]? = some d ∧ d.writes .rosterAssignments i = some r := by
    by_contra hnone
    refine hi ?_
    unfold placed
    rw [h.version_row hml (Nat.le_trans hln hn) fun j d hj hjl hd => ?_]
    by_contra hsome
    obtain ⟨r, hr⟩ := Option.ne_none_iff_exists'.1 hsome
    exact hnone ⟨j, d, r, hj, hjl, hd, hr⟩
  obtain ⟨j', d', a, hj', -, hd', ha, hv⟩ := h.version_last (by omega) hn hd hr
  -- the row was of the roster at one of the two versions, and a row keeps its roster
  obtain ⟨l', b, hl', hb, hbk⟩ : ∃ l' b, l' ≤ n ∧ e.version l' .rosterAssignments i = some b ∧ RosterAssignment.rosterId b = k := by
    by_cases hp : placed (e.version m .rosterAssignments) k i = none
    · rw [hp] at hi
      obtain ⟨b, hb⟩ := placed_some hi
      exact ⟨l, b, hln, hb⟩
    · obtain ⟨b, hb⟩ := placed_some hp
      exact ⟨m, b, by omega, hb⟩
  have hk : RosterAssignment.rosterId a = k := (roster_kept h hl' hn hb hv).trans hbk
  exact ⟨i, a, hv, hk, since_of_written (hlate j' d' a (by omega) hd' ⟨i, ha, hk⟩)⟩

/-- **A roster nothing has been committed to has not moved**, where all it had was written before. -/
theorem still_of_unassigned (h : e.Lawful tenure.shared) (hmn : m ≤ n) (hn : n ≤ e.log.length)
    (hearly : ¬Moved (e.version m .rosterAssignments) k at_)
    (hstill : ∀ j d a, m ≤ j → j < n → e.log[j]? = some d → ¬Commit.assigns d k a) :
    ¬Moved (e.version n .rosterAssignments) k at_ := by
  rintro ⟨i, a, ha, hk, hsince⟩
  by_cases hw : ∃ j d r, m ≤ j ∧ j < n ∧ e.log[j]? = some d ∧ d.writes .rosterAssignments i = some r
  · obtain ⟨j, d, r, hj, hjn, hd, hr⟩ := hw
    obtain ⟨j', d', r', hj', hjn', hd', hr', hv⟩ := h.version_last hjn hn hd hr
    rw [hv] at ha
    cases ha
    exact hstill j' d' _ (by omega) hjn' hd' ⟨i, hr', hk⟩
  · refine hearly ⟨i, a, ?_, hk, hsince⟩
    rw [← ha]
    refine (h.version_row hmn hn fun j d hj hjn hd => ?_).symm
    by_contra hsome
    obtain ⟨r, hr⟩ := Option.ne_none_iff_exists'.1 hsome
    exact hw ⟨j, d, r, hj, hjn, hd, hr⟩

end Orders

/-! ## Between two publishes -/

def Unrivalled (u : Tid) (k : Nat) : (machine schema outside Err).Assumption := fun v o w _ _ =>
  match o with
  | .sql .commit => v = u ∨ w.db.pending v Table.rosters k = none
  | _ => True

abbrev posting (u : Tid) (k : Nat) (r : Roster) : Contract tenure.shared outside Err where
  Inv w := (∃ d ∈ w.db.own u, d.writes .rosters k ≠ none) ∨ w.db.committed .rosters k = some r
  Assume := Unrivalled u k
  crash_inv _ _ _ h := h
  tick_inv _ _ _ h := h

theorem posting_historic (u : Tid) (k : Nat) (r : Roster) : (posting u k r).Historic fun _ => true where
  same w w' hl hc _ hI := by
    dsimp only
    rw [Engine.own, hl, hc]
    exact hI
  asks _ _ _ _ _ _ hI := hI

/-- The SELECT of the assignments that a reader goes by: the rows were `f` at version `n`. -/
structure Glance (L n : Nat) (f : Nat → Option RosterAssignment) (e : Engine schema) : Prop where
  begun : L ≤ n
  past : n ≤ e.log.length
  rows : e.version n .rosterAssignments = f

section Requests

variable {u : Tid} {k L n : Nat} {r : Roster} {at_ : Int} {f : Nat → Option RosterAssignment} {e e' : Engine schema}
  {w w' : World schema outside}

theorem Glance.later (h : Glance L n f e) (hlog : e.log.length ≤ e'.log.length)
    (hversion : ∀ m, m ≤ e.log.length → e'.version m = e.version m) : Glance L n f e' :=
  ⟨h.begun, Nat.le_trans h.past hlog, by rw [hversion n h.past]; exact h.rows⟩

theorem Glance.evolves (h : Glance L n f e) (hev : e.Evolves tenure.shared u e') : Glance L n f e' :=
  h.later hev.log_le hev.version

theorem Glance.move (h : Glance L n f e) (hm : e.Move u e') : Glance L n f e' :=
  h.later hm.history.1.length_le hm.history.2

theorem Glance.look (h : Glance L n f e) : Glance L n f (e.look u) := h.later (Nat.le_refl _) fun _ _ => rfl

theorem glance_now (hL : L ≤ e.log.length) : Glance L e.log.length (e.committed .rosterAssignments) e :=
  ⟨hL, Nat.le_refl _, by rw [Engine.version_length]⟩

theorem roster_stands (h : Bare u w.db) (hI : (posting u k r).Inv w) : w.db.committed .rosters k = some r := by
  refine hI.resolve_left ?_
  rw [h.own]
  simp

theorem byWeek_stands (hL : e.Lawful tenure.shared) (hk : e.view u .rosters k = some r) (hlive : r.deletedAt = none) :
    ((⟨e.view u, e.next⟩ : Snapshot schema).all .rosters).find?
      (fun (q : Roster) => q.weekStart = r.weekStart ∧ q.deletedAt = none) = some r := by
  have hmem : r ∈ (⟨e.view u, e.next⟩ : Snapshot schema).all Table.rosters :=
    Snapshot.mem_all.2 ⟨k, hL.view_lt hk, hk⟩
  cases hfind : ((⟨e.view u, e.next⟩ : Snapshot schema).all .rosters).find?
      (fun (q : Roster) => q.weekStart = r.weekStart ∧ q.deletedAt = none) with
  | none =>
    have hnot := List.find?_eq_none.1 hfind r hmem
    simp [hlive] at hnot
  | some q =>
    have hq : q ∈ (⟨e.view u, e.next⟩ : Snapshot schema).all Table.rosters := List.mem_of_find?_eq_some hfind
    obtain ⟨i, -, hi⟩ := Snapshot.mem_all.1 hq
    obtain ⟨hweek, hdeleted⟩ : q.weekStart = r.weekStart ∧ q.deletedAt = none := by simpa using List.find?_some hfind
    by_cases hik : i = k
    · subst hik
      have hi : e.view u .rosters i = some q := hi
      rw [hk] at hi
      cases hi
      rfl
    · have happart : clash .rosters q r = false := (hL.view_consistent u).apart _ _ _ _ _ hi hk hik
      exact absurd ⟨hdeleted, hlive, hweek⟩ (of_decide_eq_false happart)

theorem changedSince_iff (hL : e.Lawful tenure.shared) :
    ((⟨e.view u, e.next⟩ : Snapshot schema).all .rosterAssignments).any
      (fun (a : RosterAssignment) => a.rosterId = k ∧ a.since at_) = true ↔ Moved (e.view u .rosterAssignments) k at_ := by
  rw [List.any_eq_true]
  constructor
  · rintro ⟨a, ha, hp⟩
    obtain ⟨i, -, hi⟩ := Snapshot.mem_all.1 ha
    obtain ⟨hk, hsince⟩ : RosterAssignment.rosterId a = k ∧ RosterAssignment.since a at_ = true := by simpa using hp
    exact ⟨i, a, hi, hk, hsince⟩
  · rintro ⟨i, a, hi, hk, hsince⟩
    exact ⟨a, Snapshot.mem_all.2 ⟨i, hL.view_lt (T := Table.rosterAssignments) hi, hi⟩, by simp [hk, hsince]⟩

theorem posting_commit (hI : (posting u k r).Inv w) (h : w.db.Idle u) : (posting u k r).Inv ⟨w.db.commit u, w.out⟩ := by
  rcases hI with ⟨d, hd, hk⟩ | hI
  · refine .inl ⟨d, ?_, hk⟩
    rw [Engine.commit_own]
    exact List.mem_append_left _ hd
  · refine .inr ?_
    show w.db.view u .rosters k = some r
    rw [h.view]
    exact hI

/-- **What a reader of the week is told**: whether the roster has moved since it was published. -/
theorem readRoster_answers (h : Bare u w.db) (hlive : r.deletedAt = none) (hpublished : r.publishedAt = some at_)
    (hok : ∀ flag as n f w', Glance w.db.log.length n f w'.db → (flag = true ↔ Moved f k at_) →
      Q (.ok (.roster (some at_) flag as)) w') : (posting u k r).Ensures u (readRoster r.weekStart) Q w := by
  have hhist := posting_historic u k r
  refine ensures_last (ensures_tenantSession hhist fun w1 txNow hev1 _ _ => ?_)
  have h1 := (h.evolves hev1.db).begin txNow
  refine ensures_select hhist fun w2 hev2 hL2 hI2 _ _ => ?_
  have h2 := h1.evolves hev2.db
  have hk : w2.db.view u .rosters k = some r := by
    rw [h2.idle.view]
    exact roster_stands h2 hI2
  have hid : r.id = k := (hL2.view_consistent u).id _ _ _ hk
  rw [byWeek_stands hL2 hk hlive]
  refine ensures_select hhist fun w3 hev3 _ _ _ _ => ?_
  have h3 := h2.look.evolves hev3.db
  rw [hpublished]
  refine ensures_select hhist fun w4 hev4 hL4 _ _ _ => ?_
  have h4 := h3.look.evolves hev4.db
  have hlog : w.db.log.length ≤ w4.db.log.length :=
    Nat.le_trans hev1.db.log_le (Nat.le_trans hev2.db.log_le (Nat.le_trans hev3.db.log_le hev4.db.log_le))
  have hglance : Glance w.db.log.length w4.db.log.length (w4.db.committed .rosterAssignments) w4.db := glance_now hlog
  intro w5 hev5 _ hI5 _ _
  have hglance5 : Glance w.db.log.length w4.db.log.length (w4.db.committed .rosterAssignments) w5.db :=
    hglance.later hev5.db.log_le hev5.db.version
  refine ⟨posting_commit hI5 (h4.look.evolves hev5.db).idle, hok _ _ _ _ _ (hglance5.move (Engine.move_commit u _)) ?_⟩
  rw [hid, changedSince_iff hL4, h4.idle.view]

def Restamps (d : Commit schema) (k actorId : Nat) (weekStart : Int) : Prop :=
  (∃ q : Roster, ∃ n, d.writes .rosters k = some q ∧ q.publishedAt = some n ∧ q.publishedBy = some actorId) ∧
    ∃ i, ∃ q : AuditLog, d.writes .auditLog i = some q ∧ q.actorId = actorId ∧ q.entity = k ∧
      ∃ assignments shortages, q.action = .rosterPublished weekStart assignments shortages true

structure Silent (u : Tid) (own : List (Commit schema)) (e : Engine schema) : Prop where
  idle : e.Idle u
  kept : ∀ d ∈ own, d ∈ e.own u
  silent : ∀ d ∈ e.own u, d ∈ own ∨ ∀ T i, d.writes T i = none

theorem silent_of_idle (h : e.Idle u) : Silent u (e.own u) e := ⟨h, fun _ => id, fun _ => .inl⟩

variable {own : List (Commit schema)} {q : Roster} {actorId : Nat}

theorem Silent.congr (h : Silent u own e) (hown : e'.own u = e.own u) (hp : e'.pending u = e.pending u) :
    Silent u own e' :=
  ⟨⟨hp.trans h.idle.pending⟩, by rw [hown]; exact h.kept, by rw [hown]; exact h.silent⟩

theorem Silent.commit (h : Silent u own e) : Silent u own (e.commit u) := by
  refine ⟨Engine.idle_commit e u, fun d hd => ?_, fun d hd => ?_⟩
  · rw [Engine.commit_own]
    exact List.mem_append_left _ (h.kept d hd)
  · rw [Engine.commit_own] at hd
    rcases List.mem_append.1 hd with hd | hd
    · exact h.silent d hd
    · rw [List.mem_singleton.1 hd]
      refine .inr fun T i => ?_
      show e.pending u T i = none
      rw [h.idle.pending]

theorem readRoster_silent {weekStart : Int} (h : Silent u own w.db) (hg : Glance L n f w.db) :
    (posting u k r).Ensures u (readRoster weekStart) (fun _ w' => Silent u own w'.db ∧ Glance L n f w'.db) w := by
  refine ensures_mono (fun _ _ ⟨_, _, h⟩ => h) (ensures_of_uses (fun _ w => Silent u own w.db ∧ Glance L n f w.db)
    (fun _ w w' hev h => ⟨h.1.congr hev.db.since.own hev.db.pending, h.2.evolves hev.db⟩) ?_
    (@only_readRoster [] weekStart false) ⟨h, hg⟩)
  intro _ o w i x w' ho hL hI ⟨hs, hg⟩ he _ _
  have hhist := posting_historic u k r
  cases o with
  | now | ask =>
    have hI' := hhist.exec (by simp) (fun _ _ => rfl) he hI
    cases he
    exact ⟨hI', hs, hg⟩
  | sql o =>
    cases o with
    | update T j g => cases ho
    | insert T q => cases ho
    | commit =>
      cases he
      exact ⟨posting_commit hI hs.idle, hs.commit, hg.move (Engine.move_commit u _)⟩
    | abort =>
      have hI' := hhist.exec (by simp) (by simp) he hI
      cases he
      exact ⟨hI', ⟨Engine.idle_release _ u, hs.kept, hs.silent⟩, hg.move (Engine.move_release u _)⟩
    | begin =>
      have hI' := hhist.exec (by simp) (by simp) he hI
      cases he
      exact ⟨hI', hs.congr rfl rfl, hg.later (Nat.le_refl _) fun _ _ => rfl⟩
    | read q =>
      have hI' := hhist.exec (by simp) (by simp) he hI
      cases he
      exact ⟨hI', hs.congr rfl rfl, hg.later (Nat.le_refl _) fun _ _ => rfl⟩
    | lock =>
      have hI' := hhist.exec (by simp) (by simp) he hI
      obtain ⟨⟨y, e'⟩, he', hx⟩ := Option.map_eq_some_iff.1 he
      obtain ⟨-, rfl⟩ := Engine.lock_cases he'
      cases hx
      exact ⟨hI', hs.congr rfl rfl, hg.later (Nat.le_refl _) fun _ _ => rfl⟩

structure Stamping (u : Tid) (k : Nat) (q : Roster) (e : Engine schema) : Prop where
  own : e.own u = []
  row : e.pending u .rosters k = some q

theorem Stamping.evolves (h : Stamping u k q e) (hev : e.Evolves tenure.shared u e') : Stamping u k q e' :=
  ⟨hev.since.own.trans h.own, by rw [hev.pending]; exact h.row⟩

theorem Stamping.look (h : Stamping u k q e) : Stamping u k q (e.look u) := ⟨h.own, h.row⟩

theorem stamp_some {v : Roster} {txNow : Int} (h : RosterChange.apply v (.stampPublished txNow actorId) = some q) :
    q.publishedAt = some txNow ∧ q.publishedBy = some actorId ∧ q.deletedAt = none ∧ q.weekStart = v.weekStart := by
  obtain ⟨hlive, hq⟩ := Option.ite_none_right_eq_some.1 h
  cases hq
  exact ⟨rfl, rfl, hlive, rfl⟩

theorem stamp_of_live {v : Roster} (actorId : Nat) (txNow : Int) (h : v.deletedAt = none) :
    RosterChange.apply v (.stampPublished txNow actorId) ≠ none := by
  simp [RosterChange.apply, h]

theorem publish_stamps {β : Type} {Q : Except Err β → World schema outside → Prop} {k' : Unit → Prg β} {entity : Nat}
    {action : AuditAction} (h : Stamping u k q w.db) (hg : Glance L n f w.db) (herr : ∀ x w', Q (.error x) w')
    (hok : ∀ d w', w'.db.own u = [d] → w'.db.Idle u → Glance L n f w'.db → d.writes .rosters k = some q →
      (∃ i, ∃ a : AuditLog, d.writes .auditLog i = some a ∧ a.actorId = actorId ∧ a.entity = entity ∧ a.action = action) →
      (posting u k r).Ensures u (k' ()) Q w') :
    (posting u k r).Ensures u (record actorId entity action) (Closes (posting u k r) u k' Q) w := by
  refine ensures_last (ensures_record (posting_historic u k r) (fun w => Stamping u k q w.db ∧ Glance L n f w.db) ⟨h, hg⟩
    (fun w w1 hev _ h => ⟨h.1.evolves hev.db, h.2.evolves hev.db⟩) (fun x w' _ w'' _ _ => herr x _)
    (fun w' m h => ⟨⟨h.1.own, h.1.row⟩, h.2.later (Nat.le_refl _) fun _ _ => rfl⟩) fun w1 ⟨h1, hg1⟩ _ => ?_)
  intro w2 hev2 _ _ _ _
  have hroster : w2.db.pending u .rosters k = some q := by
    rw [hev2.db.pending]
    exact (Engine.write_pending_row fun hc => by cases hc.1).trans h1.row
  have haudit : w2.db.pending u .auditLog w1.db.next =
      some (stamp .auditLog w1.db.next (w1.db.started u) ⟨0, 0, actorId, entity, action⟩) := by
    rw [hev2.db.pending]
    exact Engine.write_pending_self
  have hown : (w2.db.commit u).own u = [w2.db.entry u] := by
    rw [Engine.commit_own, hev2.db.since.own, show (inserted w1.db u Table.auditLog _).own u = w1.db.own u from rfl, h1.own,
      List.nil_append]
  have hglance : Glance L n f w2.db := hg1.later hev2.db.log_le hev2.db.version
  refine ⟨.inl ⟨w2.db.entry u, by rw [hown]; simp, ?_⟩, hok (w2.db.entry u) _ hown (Engine.idle_commit _ u)
    (hglance.move (Engine.move_commit u _)) hroster ⟨_, _, haudit, rfl, rfl, rfl⟩⟩
  show w2.db.pending u .rosters k ≠ none
  rw [hroster]
  simp

/-- **A publish of a week that was published**: it stamps the roster and audits it where the roster has moved, and writes
nothing where it has not. -/
theorem publishWeek_decides {β : Type} {Q : Except Err β → World schema outside → Prop} {k' : Unit → Prg β}
    (h : Bare u w.db) (hlive : r.deletedAt = none) (hpublished : r.publishedAt = some at_)
    (herr : ∀ x w', Q (.error x) w')
    (hok : ∀ n f d w', w'.db.own u = [d] → w'.db.Idle u → Glance w.db.log.length n f w'.db →
      (Moved f k at_ → Restamps d k actorId r.weekStart) → (¬Moved f k at_ → ∀ T i, d.writes T i = none) →
      (posting u k r).Ensures u (k' ()) Q w') :
    (posting u k r).Ensures u (publishWeek actorId r.weekStart >>= k') Q w := by
  have hhist := posting_historic u k r
  refine ensures_tenantSession hhist fun w1 txNow hev1 _ _ => ?_
  have h1 := (h.evolves hev1.db).begin txNow
  refine ensures_last (ensures_first (ensures_first (ensures_select hhist fun w2 hev2 hL2 hI2 _ _ => ?_)))
  have h2 := h1.evolves hev2.db
  have hk2 : w2.db.committed .rosters k = some r := roster_stands h2 hI2
  have hk : w2.db.view u .rosters k = some r := by rw [h2.idle.view]; exact hk2
  have hid : r.id = k := (hL2.view_consistent u).id _ _ _ hk
  rw [byWeek_stands hL2 hk hlive]
  refine ensures_first ?_
  unfold unmoved
  rw [hpublished]
  refine ensures_first (ensures_select hhist fun w3 hev3 hL3 hI3 _ _ => ?_)
  have h3 := h2.look.evolves hev3.db
  have hlog : w.db.log.length ≤ w3.db.log.length := Nat.le_trans hev1.db.log_le (Nat.le_trans hev2.db.log_le hev3.db.log_le)
  have hglance : Glance w.db.log.length w3.db.log.length (w3.db.committed .rosterAssignments) (w3.db.look u) :=
    (glance_now hlog).look
  rw [hid]
  by_cases hmoved : Moved (w3.db.committed .rosterAssignments) k at_
  · rw [(changedSince_iff hL3).2 (by rw [h3.idle.view]; exact hmoved)]
    refine ensures_first (ensures_update hhist (T := Table.rosters) (fun w4 _ _ _ _ _ _ => herr _ _)
      (fun w4 hev4 hL4 hI4 hnone => ?_) fun w4 v q hev4 _ _ hq _ _ _ => ?_)
    · have h4 := h3.look.evolves hev4.db
      have hk4 : w4.db.view u .rosters k = some r := by
        rw [h4.idle.view]
        exact roster_stands h4 hI4
      rw [hk4] at hnone
      exact absurd hnone (stamp_of_live actorId txNow hlive)
    · obtain ⟨hstamped, hby, -, -⟩ := stamp_some hq
      have h4 : Stamping u k q (w4.db.write u .rosters k q) :=
        ⟨(h3.look.evolves hev4.db).own, Engine.write_pending_self⟩
      have hg4 : Glance w.db.log.length w3.db.log.length (w3.db.committed .rosterAssignments) (w4.db.write u .rosters k q) :=
        hglance.later hev4.db.log_le hev4.db.version
      refine ensures_first (ensures_select hhist fun w5 hev5 _ _ _ _ => ?_)
      have h5 := h4.evolves hev5.db
      have hg5 := hg4.evolves hev5.db
      refine ensures_first (ensures_select hhist fun w6 hev6 _ _ _ _ => ?_)
      have h6 := h5.look.evolves hev6.db
      have hg6 := hg5.look.evolves hev6.db
      refine ensures_first (ensures_ask hhist rfl fun w7 i m hev7 _ _ _ => ?_)
      have h7 := h6.look.evolves hev7.db
      have hg7 := hg6.look.evolves hev7.db
      rw [Prog.bind_return]
      refine publish_stamps h7 hg7 herr fun d w' hown hidle hg hrow ⟨j, a, ha, hactor, hentity, haction⟩ => ?_
      exact hok _ _ d w' hown hidle hg
        (fun _ => ⟨⟨q, txNow, hrow, hstamped, hby⟩, j, a, ha, hactor, hentity, _, _, haction⟩) fun hnot => absurd hmoved hnot
  · have hstill : ((⟨w3.db.view u, w3.db.next⟩ : Snapshot schema).all .rosterAssignments).any
        (fun (a : RosterAssignment) => a.rosterId = k ∧ a.since at_) = false :=
      Bool.eq_false_iff.2 fun hb => hmoved (by rw [← h3.idle.view]; exact (changedSince_iff hL3).1 hb)
    rw [hstill]
    intro w4 hev4 _ hI4 _ _
    have h4 := h3.look.evolves hev4.db
    have hg4 : Glance w.db.log.length w3.db.log.length (w3.db.committed .rosterAssignments) w4.db :=
      hglance.later hev4.db.log_le hev4.db.version
    refine ⟨posting_commit hI4 h4.idle, hok _ _ (w4.db.entry u) _ ?_ (Engine.idle_commit _ u)
      (hg4.move (Engine.move_commit u _)) (fun hm => absurd hm hmoved) fun _ T i => ?_⟩
    · rw [Engine.commit_own, h4.own, List.nil_append]
    · show w4.db.pending u T i = none
      rw [h4.idle.pending]

def Decides (L k : Nat) (at_ : Int) (u : Tid) (actorId : Nat) (weekStart : Int) (e : Engine schema) : Prop :=
  ∃ n f, Glance L n f e ∧ (Moved f k at_ → ∃ d ∈ e.own u, Restamps d k actorId weekStart) ∧
    (¬Moved f k at_ → ∀ d ∈ e.own u, ∀ T i, d.writes T i = none)

theorem publish_decides {actor : StaffContext} (h : Bare u w.db) (hlive : r.deletedAt = none) (hpublished : r.publishedAt = some at_) :
    (posting u k r).Ensures u (publish actor r.weekStart)
      (fun x w' => ∀ reply, x = .ok reply → Decides w.db.log.length k at_ u actor.id r.weekStart w'.db) w := by
  have hhist := posting_historic u k r
  have herr : ∀ (x : Err) (w' : World schema outside) reply, (.error x : Except Err Reply) = .ok reply →
      Decides w.db.log.length k at_ u actor.id r.weekStart w'.db := fun x w' reply hx => by cases hx
  refine ensures_raiseIf (fun _ => herr _ _) fun _ => ensures_ask hhist rfl fun w1 i m hev1 _ _ _ => ?_
  have h1 : Bare u w1.db := h.evolves hev1.db
  refine ensures_first (ensures_raiseIf (fun _ => herr _ _) fun _ => ensures_first (ensures_raiseIf (fun _ => herr _ _) fun _ =>
    ensures_raiseIf (fun _ => herr _ _) fun _ => ?_))
  refine publishWeek_decides h1 hlive hpublished herr fun n f d w2 hown hidle hg hstamps hsilent => ?_
  have hg' : Glance w.db.log.length n f w2.db := ⟨Nat.le_trans hev1.db.log_le hg.begun, hg.past, hg.rows⟩
  refine ensures_mono (fun x w' ⟨hs, hg⟩ reply _ => ⟨n, f, hg, fun hm => ?_, fun hm d' hd' T j => ?_⟩)
    (readRoster_silent (silent_of_idle hidle) hg')
  · exact ⟨d, hs.kept d (by rw [hown]; simp), hstamps hm⟩
  · rcases hs.silent d' hd' with hd' | hnone
    · rw [hown] at hd'
      rw [List.mem_singleton.1 hd']
      exact hsilent hm T j
    · exact hnone T j

end Requests

/-! ## The runs -/

variable {reqs : Tid → Request} {rows : Rows schema} {next : Nat} {clock today at_ : Int} {t u : Tid} {k : Nat} {r : Roster}
  {c₀ c c' : Conf (machine schema outside Err) Reply}

/-- The thread's next call is the SELECT of a roster's assignments. -/
def readsRoster (c : Conf (machine schema outside Err) Reply) (t : Tid) : Bool :=
  match c.threads t with
  | some (.call (.sql (.read .byRoster)) _) => true
  | _ => false

/-- **A publish is about to read the week**: the roster it has stamped with its instant is in flight. -/
structure Publishing (reqs : Tid → Request) (c : Conf (machine schema outside Err) Reply) (t : Tid) (k : Nat) (r : Roster)
    (at_ : Int) : Prop where
  reads : readsRoster c t = true
  inFlight : c.state.db.pending t .rosters k = some r
  stamped : ∃ (actor : StaffContext) (v : Roster), reqs t = .publish actor r.weekStart ∧
    RosterChange.apply v (.stampPublished at_ actor.id) = some r

structure Waiting (reqs : Tid → Request) (c : Conf (machine schema outside Err) Reply) (u : Tid) : Prop where
  code : c.threads u = some (reqs u).code
  bare : Bare u c.state.db

theorem posting_beside {v : Tid} {w : World schema outside} {p : Prg Reply} (hv : v ≠ u) :
    (posting u k r).logic.Safe v p (fun _ _ => True) w := by
  have hhist := posting_historic u k r
  refine safe_of_free ⟨hhist.same, fun t q i n w _ hI => hhist.asks t q i n w rfl hI⟩ (fun w _ _ hI hA => ?_)
    (fun q i w hI => hhist.asks v q i _ w rfl hI) fun _ _ => trivial
  have hown : (w.db.commit v).own u = w.db.own u := by
    simp [Engine.own, List.filter_append, Engine.entry, hv]
  have hnone : w.db.pending v .rosters k = none := hA.resolve_left hv
  rcases hI with ⟨d, hd, hk⟩ | hI
  · exact .inl ⟨d, by rw [hown]; exact hd, hk⟩
  · refine .inr ?_
    show w.db.view v .rosters k = some r
    rw [Engine.view, Rows.over_none hnone]
    exact hI

theorem posting_follows (hob : Cast.Obeyed tenure.shared c) (hstands : c.state.db.committed .rosters k = some r)
    (hsafe : ∀ p, c.threads u = some p → (posting u k r).logic.Safe u p Q c.state)
    (hr : Conf.Steps (Unrivalled u k) c c') : ∀ reply, c'.threads u = some (.ret reply) → Q (.ok reply) c'.state := by
  have hall : ∀ v p, c.threads v = some p → (posting u k r).logic.Safe v p (fun x w => v = u → Q x w) c.state := by
    intro v p hp
    by_cases hv : v = u
    · subst hv
      exact (hsafe p hp).mono fun _ _ h _ => h
    · exact (posting_beside hv).mono fun _ _ _ h => absurd h hv
  obtain ⟨hsound, -⟩ := (posting u k r).runs (Q := fun v x w => v = u → Q x w) hob (.inr hstands) hall hr
  exact fun reply ht => hsound.finished ht rfl

theorem publishing_sees (hr : (serving reqs rows next clock today).Reaches c) (h : Publishing reqs c t k r at_) :
    c.state.db.view t .rosterAssignments = c.state.db.committed .rosterAssignments := by
  obtain ⟨actor, v, hq, -⟩ := h.stamped
  have honly : ∀ p, (serving reqs rows next clock today).threads t = some p →
      ∃ l, Within (fun _ => Aloof Table.rosterAssignments) l p := by
    intro p hp
    have hp : (reqs t).code = p := by simpa [staged] using hp
    rw [← hp]
    exact ⟨false, only_unwritten (by simp [hq, Request.writes]) false⟩
  obtain ⟨hidle, -⟩ := aloof_steps rfl honly hr
  exact Engine.view_table fun i => congrFun hidle i

/-- **A publish notices every change**, and none where there was none: after the week's last publish has read the roster, where
no row that it read was written by a transaction that began after it, and none that began before it or with it commits an
assignment of the roster afterwards, whoever publishes the week next stamps and audits it if the roster is no longer what that
publish read, and writes nothing if nothing has been committed to it; and whoever reads it is told which. -/
theorem publish_notices (h : Shelved rows next) (hr₀ : (serving reqs rows next clock today).Reaches c₀)
    (hpub : Publishing reqs c₀ t k r at_) (hr : c₀.Reaches c) (hstands : c.state.db.committed .rosters k = some r)
    (hwait : Waiting reqs c u) (hr' : Conf.Steps (Unrivalled u k) c c')
    (hearly : ¬Moved (c₀.state.db.view t .rosterAssignments) k at_)
    (hlate : ∀ n d a, c₀.state.db.log.length ≤ n → c'.state.db.log[n]? = some d → Commit.assigns d k a → at_ < a.writtenAt) :
    (∀ actor reply, reqs u = .publish actor r.weekStart → c'.threads u = some (.ret reply) →
      (placed (c.state.db.committed .rosterAssignments) k ≠ placed (c₀.state.db.view t .rosterAssignments) k →
        ∃ d ∈ c'.state.db.own u, Restamps d k actor.id r.weekStart) ∧
      ((∀ n d a, c₀.state.db.log.length ≤ n → c'.state.db.log[n]? = some d → ¬Commit.assigns d k a) →
        ∀ d ∈ c'.state.db.own u, ∀ T i, d.writes T i = none)) ∧
    ∀ reply, reqs u = .roster r.weekStart → c'.threads u = some (.ret reply) →
      (placed (c.state.db.committed .rosterAssignments) k ≠ placed (c₀.state.db.view t .rosterAssignments) k →
        ∃ as, reply = .roster (some at_) true as) ∧
      ((∀ n d a, c₀.state.db.log.length ≤ n → c'.state.db.log[n]? = some d → ¬Commit.assigns d k a) →
        ∃ as, reply = .roster (some at_) false as) := by
  have hob : Cast.Obeyed tenure.shared (serving reqs rows next clock today) := staged_obeyed h legal_tenure
  have hob0 := (hob.steps hr₀).1
  have hob1 := (hob0.steps hr).1
  have hL := (hob1.steps hr').1.lawful
  obtain ⟨hlog0, hversion0⟩ := hob0.history hr
  obtain ⟨hlog1, hversion1⟩ := hob1.history hr'
  obtain ⟨actor0, v, -, hstamp⟩ := hpub.stamped
  obtain ⟨hpublished, -, hlive, -⟩ := stamp_some hstamp
  rw [publishing_sees hr₀ hpub] at hearly ⊢
  -- the versions that the three moments saw, in the log as it stands at the end
  have hthen : c'.state.db.version c₀.state.db.log.length = c₀.state.db.committed := by
    rw [hversion1 _ hlog0.length_le, hversion0 _ (Nat.le_refl _), Engine.version_length]
  have hnow : c'.state.db.version c.state.db.log.length = c.state.db.committed := by
    rw [hversion1 _ (Nat.le_refl _), Engine.version_length]
  have hmoved : ∀ n f, Glance c.state.db.log.length n f c'.state.db →
      placed (c.state.db.committed .rosterAssignments) k ≠ placed (c₀.state.db.committed .rosterAssignments) k →
      Moved f k at_ := by
    intro n f hg hne
    rw [← hnow, ← hthen] at hne
    rw [← hg.rows]
    exact moved_of_placed hL hlog0.length_le hg.begun hg.past hlate hne
  have hstill : ∀ n f, Glance c.state.db.log.length n f c'.state.db →
      (∀ n d a, c₀.state.db.log.length ≤ n → c'.state.db.log[n]? = some d → ¬Commit.assigns d k a) → ¬Moved f k at_ := by
    intro n f hg hnone
    rw [← hg.rows]
    exact still_of_unassigned hL (Nat.le_trans hlog0.length_le hg.begun) hg.past (by rw [hthen]; exact hearly)
      fun j d a hj _ => hnone j d a hj
  constructor
  · intro actor reply hq ht
    have hsafe : ∀ p, c.threads u = some p → (posting u k r).logic.Safe u p
        (fun x w' => ∀ reply, x = .ok reply → Decides c.state.db.log.length k at_ u actor.id r.weekStart w'.db) c.state := by
      intro p hp
      rw [hwait.code, hq] at hp
      cases hp
      refine safe_of_ensures (publish_decides hwait.bare hlive hpublished) fun x w w' hx hev _ _ reply' hreply => ?_
      obtain ⟨n, f, hg, hstamps, hsilent⟩ := hx reply' hreply
      have hown := hev.db.since.own
      exact ⟨n, f, hg.evolves hev.db, by rw [hown]; exact hstamps, by rw [hown]; exact hsilent⟩
    obtain ⟨n, f, hg, hstamps, hsilent⟩ := posting_follows hob1 hstands hsafe hr' reply ht reply rfl
    exact ⟨fun hne => hstamps (hmoved n f hg hne), fun hnone => hsilent (hstill n f hg hnone)⟩
  · intro reply hq ht
    have hsafe : ∀ p, c.threads u = some p → (posting u k r).logic.Safe u p
        (fun x w' => ∀ reply, x = .ok reply → ∃ n f flag as, Glance c.state.db.log.length n f w'.db ∧
          (flag = true ↔ Moved f k at_) ∧ reply = .roster (some at_) flag as) c.state := by
      intro p hp
      rw [hwait.code, hq] at hp
      cases hp
      refine safe_of_ensures (readRoster_answers (Q := fun x w' => ∀ reply, x = .ok reply → ∃ n f flag as,
        Glance c.state.db.log.length n f w'.db ∧ (flag = true ↔ Moved f k at_) ∧ reply = .roster (some at_) flag as)
        hwait.bare hlive hpublished fun flag as n f w' hg hflag reply' hreply => ?_) fun x w w' hx hev _ _ reply' hreply => ?_
      · cases hreply
        exact ⟨n, f, flag, as, hg, hflag, rfl⟩
      · obtain ⟨n, f, flag, as, hg, hflag, hr⟩ := hx reply' hreply
        exact ⟨n, f, flag, as, hg.evolves hev.db, hflag, hr⟩
    obtain ⟨n, f, flag, as, hg, hflag, rfl⟩ := posting_follows hob1 hstands hsafe hr' reply ht reply rfl
    refine ⟨fun hne => ⟨as, ?_⟩, fun hnone => ⟨as, ?_⟩⟩
    · rw [hflag.2 (hmoved n f hg hne)]
    · rw [Bool.eq_false_iff.2 fun hf => hstill n f hg hnone (hflag.1 hf)]

/-! ## An assignment committed across a publish -/

instance (u : Tid) (k : Nat) (t : Tid) (o : Op schema outside) (w : World schema outside) (x : o.Res) (w' : World schema outside) :
    Decidable (Unrivalled u k t o w x w') :=
  match o, x with
  | .sql .commit, _ => inferInstanceAs (Decidable (_ ∨ _))
  | .sql .begin, _ | .sql (.read _), _ | .sql (.update ..), _ | .sql (.insert ..), _ | .sql .lock, _ | .sql .abort, _
  | .now, _ | .ask _, _ => isTrue trivial

def draftWeek : (T : Table) → List (Row T)
  | .shiftTemplates => [sundayMorning 1]
  | .rosters => [(⟨2, 0, none, 10, none, none⟩ : Roster)]
  | _ => []

theorem draftWeek_shelved : Shelved (listed (S := schema) draftWeek) 3 :=
  shelved_of_stocked [.shiftTemplates, .staffAvailability, .rosters, .rosterAssignments, .auditLog]
    (fun T => by cases T <;> decide) (by decide)

/-- Staffer 7 is put on the shift; the week is published by two, and read. -/
def assignAndPublish : Tid → Request
  | 0 => .assign ⟨9, true⟩ ⟨10, 1, 7, false, false⟩
  | 3 => .roster 10
  | _ => .publish ⟨9, true⟩ 10

theorem waiting_of_steps (h : Shelved rows next)
    (hr : Conf.Steps (fun v _ _ _ _ => v ≠ u ∧ True) (serving reqs rows next clock today) c)
    (hthere : (c.threads u).isSome = true) (hown : (c.state.db.own u).isEmpty = true) : Waiting reqs c u := by
  obtain ⟨hidle, hcode⟩ := (staged_obeyed h legal_tenure : Cast.Obeyed tenure.shared (serving reqs rows next clock today)).unbegun
    (A := fun _ _ _ _ _ => True) ⟨rfl⟩ hr
  obtain ⟨p, hp⟩ := Option.isSome_iff_exists.1 hthere
  have hsame : (reqs u).code = p := by simpa [staged] using hcode p hp
  exact ⟨by rw [hp, hsame], List.isEmpty_iff.1 hown, hidle⟩

def publishedAtInstant (at_ : Int) : Roster := ⟨2, 0, none, 10, some at_, some 9⟩

/-- **An assignment begun before the publish, committed after its SELECT**: the next publish writes nothing, and the builder is
told that nothing has changed. -/
theorem publish_overlooks : ∃ c₀ c c' as,
    (serving assignAndPublish (listed (S := schema) draftWeek) 3 100 3).Reaches c₀ ∧
    Publishing assignAndPublish c₀ 1 2 (publishedAtInstant 105) 105 ∧ c₀.Reaches c ∧
    c.state.db.committed .rosters 2 = some (publishedAtInstant 105) ∧
    Waiting assignAndPublish c 2 ∧ Waiting assignAndPublish c 3 ∧ Conf.Steps (Unrivalled 2 2) c c' ∧
    placed (c.state.db.committed .rosterAssignments) 2 ≠ placed (c₀.state.db.view 1 .rosterAssignments) 2 ∧
    c'.returned 2 = true ∧ (∀ d ∈ c'.state.db.own 2, ∀ T i, d.writes T i = none) ∧
    c'.threads 3 = some (.ret (.roster (some 105) false as)) := by
  obtain ⟨c₀, c, c', h0, h1, h2, hP⟩ := Conf.reached_of_legs (A := fun v _ _ _ _ => v ≠ 2 ∧ v ≠ 3)
    (B := fun v _ _ _ _ => v ≠ 2 ∧ v ≠ 3) (E := Unrivalled 2 2)
    (serving assignAndPublish (listed (S := schema) draftWeek) 3 100 3) (calls 0 10 ++ [.happen 5] ++ calls 1 4)
    (calls 1 10 ++ calls 0 1) (calls 2 10 ++ calls 3 5)
    (fun c₀ c c' => readsRoster c₀ 1 && decide (c₀.state.db.pending 1 .rosters 2 = some (publishedAtInstant 105)) &&
      decide (c.state.db.committed .rosters 2 = some (publishedAtInstant 105)) &&
      ((c.threads 2).isSome && (c.state.db.own 2).isEmpty) && ((c.threads 3).isSome && (c.state.db.own 3).isEmpty) &&
      decide (placed (c.state.db.committed .rosterAssignments) 2 3 ≠ placed (c₀.state.db.view 1 .rosterAssignments) 2 3) &&
      c'.returned 2 && ((c'.state.db.own 2).all fun d => [Table.shiftTemplates, .staffAvailability, .rosters, .rosterAssignments,
        .auditLog].all fun T => (List.range c'.state.db.next).all fun i => (d.writes T i).isNone) &&
      decide (c'.reply 3 = some (.roster (some 105) false [⟨3, 100, none, none, 2, 1, 7, false, 9, none⟩]))) (by decide)
  simp only [Bool.and_eq_true, decide_eq_true_eq] at hP
  obtain ⟨⟨⟨⟨⟨⟨⟨⟨hreads, hflight⟩, hstands⟩, hthere2, hown2⟩, hthere3, hown3⟩, hne⟩, hret⟩, hnone⟩, hreply⟩ := hP
  have hrun : Conf.Steps (fun v _ _ _ _ => v ≠ 2 ∧ v ≠ 3) _ c := h0.trans h1
  have hL : c'.state.db.Lawful tenure.shared :=
    (((staged_obeyed draftWeek_shelved legal_tenure).steps hrun).1.steps h2).1.lawful
  refine ⟨c₀, c, c', _, h0.mono fun _ _ _ _ _ _ => trivial, ⟨hreads, hflight, ⟨9, true⟩, ⟨2, 0, none, 10, none, none⟩, rfl, rfl⟩,
    h1.mono fun _ _ _ _ _ _ => trivial, hstands,
    waiting_of_steps draftWeek_shelved (hrun.mono fun _ _ _ _ _ hv => ⟨hv.1, trivial⟩) hthere2 hown2,
    waiting_of_steps draftWeek_shelved (hrun.mono fun _ _ _ _ _ hv => ⟨hv.2, trivial⟩) hthere3 hown3, h2,
    fun hsame => hne (congrFun hsame 3), hret, fun d hd T i => ?_, Conf.reply_eq_some.1 hreply⟩
  by_contra hsome
  obtain ⟨q, hq⟩ := Option.ne_none_iff_exists'.1 hsome
  have hlt : i < c'.state.db.next := hL.written_lt (List.mem_of_mem_filter hd) hq
  have hT : T ∈ [Table.shiftTemplates, .staffAvailability, .rosters, .rosterAssignments, .auditLog] := by cases T <;> simp
  have hwrites := List.all_eq_true.1 (List.all_eq_true.1 (List.all_eq_true.1 hnone d hd) T hT) i (List.mem_range.2 hlt)
  exact hsome (Option.isNone_iff_eq_none.1 hwrites)

/-- One after the other: the assignment is noticed, and the week is stamped and audited again. -/
theorem publish_notices_later : ∃ c₀ c c',
    (serving assignAndPublish (listed (S := schema) draftWeek) 3 100 3).Reaches c₀ ∧ c₀.Reaches c ∧
    Conf.Steps (Unrivalled 2 2) c c' ∧ ∃ d ∈ c'.state.db.own 2, Restamps d 2 9 10 := by
  obtain ⟨c₀, c, c', h0, h1, h2, hP⟩ := Conf.reached_of_legs (A := fun v _ _ _ _ => v ≠ 2 ∧ True)
    (B := fun v _ _ _ _ => v ≠ 2 ∧ True) (E := Unrivalled 2 2)
    (serving assignAndPublish (listed (S := schema) draftWeek) 3 100 3) (calls 1 4) (calls 1 10 ++ [.happen 5] ++ calls 0 11)
    (calls 2 15)
    (fun c₀ c c' => readsRoster c₀ 1 && decide (c₀.state.db.pending 1 .rosters 2 = some (publishedAtInstant 100)) &&
      decide (c.state.db.committed .rosters 2 = some (publishedAtInstant 100)) &&
      ((c.threads 2).isSome && (c.state.db.own 2).isEmpty) &&
      decide (placed (c.state.db.committed .rosterAssignments) 2 4 ≠ placed (c₀.state.db.view 1 .rosterAssignments) 2 4) &&
      c'.returned 2 && (((⟨c₀.state.db.view 1, c₀.state.db.next⟩ : Snapshot schema).all .rosterAssignments).isEmpty) &&
      c'.state.db.log.all fun d => (List.range c'.state.db.next).all fun i => (d.writes .rosterAssignments i).all fun a =>
        decide (100 < RosterAssignment.writtenAt a)) (by decide)
  simp only [Bool.and_eq_true, decide_eq_true_eq] at hP
  obtain ⟨⟨⟨⟨⟨⟨⟨hreads, hflight⟩, hstands⟩, hthere, hown⟩, hne⟩, hret⟩, hempty⟩, hlate⟩ := hP
  have hob : Cast.Obeyed tenure.shared (serving assignAndPublish (listed (S := schema) draftWeek) 3 100 3) :=
    staged_obeyed draftWeek_shelved legal_tenure
  have hrun : Conf.Steps (fun v _ _ _ _ => v ≠ 2 ∧ True) _ c := h0.trans h1
  have hL0 := (hob.steps h0).1.lawful
  have hL := ((hob.steps hrun).1.steps h2).1.lawful
  have hearly : ¬Moved (c₀.state.db.view 1 .rosterAssignments) 2 100 := by
    rintro ⟨i, a, ha, -⟩
    have hmem : a ∈ (⟨c₀.state.db.view 1, c₀.state.db.next⟩ : Snapshot schema).all Table.rosterAssignments :=
      Snapshot.mem_all.2 ⟨i, hL0.view_lt (T := Table.rosterAssignments) ha, ha⟩
    rw [List.isEmpty_iff.1 hempty] at hmem
    cases hmem
  obtain ⟨reply, hreply⟩ := Conf.returned_iff.1 hret
  have hpub : Publishing assignAndPublish c₀ 1 2 (publishedAtInstant 100) 100 :=
    ⟨hreads, hflight, ⟨9, true⟩, ⟨2, 0, none, 10, none, none⟩, rfl, rfl⟩
  have hnotices := publish_notices (u := 2) draftWeek_shelved (h0.mono fun _ _ _ _ _ _ => trivial) hpub
    (h1.mono fun _ _ _ _ _ _ => trivial) hstands (waiting_of_steps draftWeek_shelved hrun hthere hown) h2 hearly
    (fun n d a _ hd hassigns => ?_)
  · exact ⟨c₀, c, c', h0.mono fun _ _ _ _ _ _ => trivial, h1.mono fun _ _ _ _ _ _ => trivial, h2,
      (hnotices.1 ⟨9, true⟩ reply rfl hreply).1 fun hsame => hne (congrFun hsame 4)⟩
  · obtain ⟨i, ha, -⟩ := hassigns
    have hmem : d ∈ c'.state.db.log := List.mem_of_getElem? hd
    have hwrites := List.all_eq_true.1 (List.all_eq_true.1 hlate d hmem) i (List.mem_range.2 (hL.written_lt hmem ha))
    rw [ha] at hwrites
    exact of_decide_eq_true hwrites

end Rota
