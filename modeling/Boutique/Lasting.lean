import Boutique.Tenure
/-!
# Lasting — the answers a shift leaves behind

An edit that moves a shift's hours, or removes the shift, takes the answers for the coming weeks back in the same transaction.
It sees the answers committed by then, and judges what it moves by the row it read.  A save committed across an edit, or an
edit across another, leaves an answer to hours that are gone.
-/
namespace Rota

open Txn Session Contract
open Shifts (ShiftTemplate ShiftTemplateChange ShiftTemplateInput isMaterialEdit currentWeekStart validateTemplate
  validateCoverageTargets)

def StaffAvailability.stands (r : StaffAvailability) (rows : Rows schema) : Bool :=
  (rows .shiftTemplates r.shiftTemplateId).any fun (q : ShiftTemplate) => q.deletedAt = none ∧ hours q = r.answered

/-- **Every live answer for a coming week stands.** -/
def Kept (rows : Rows schema) (today : Int) : Prop :=
  ∀ k, ∀ r : StaffAvailability, rows .staffAvailability k = some r → r.live = true → currentWeekStart today < r.weekStart →
    r.stands rows = true

def moved (v q : ShiftTemplate) : Bool := q.deletedAt ≠ none ∨ hours q ≠ hours v

/-- **No save is straddled by an edit of its shifts, and no edit by a save or another edit of them**: an edit that looks
immaterial against the row it read is immaterial against the one it writes over; the shifts of the answers a save commits stand
with the hours it read; and where an edit moves a shift, every answer of it for a coming week was there when the edit looked. -/
def Unstraddled : (machine schema outside Err).Assumption := fun t o w _ _ =>
  match o with
  | .sql (.update .shiftTemplates i (.replace dayOfWeek _ startsAtTime endsAtTime _ _)) =>
    ∀ b : ShiftTemplate, b ∈ w.db.version (w.db.seen t) Table.shiftTemplates i → hours b = ⟨dayOfWeek, startsAtTime, endsAtTime⟩ →
      ∀ v : ShiftTemplate, v ∈ w.db.view t Table.shiftTemplates i → hours v = hours b
  | .sql .commit =>
    (∀ k, k < w.db.next → ∀ r : StaffAvailability, r ∈ w.db.pending t Table.staffAvailability k → r.live = true →
      currentWeekStart w.out.latest < r.weekStart → r.stands (w.db.view t) = true) ∧
    ∀ i, i < w.db.next → ∀ q : ShiftTemplate, q ∈ w.db.pending t Table.shiftTemplates i →
      ∀ v : ShiftTemplate, v ∈ w.db.committed Table.shiftTemplates i → moved v q = true →
      ∀ k, k < w.db.next → ∀ r : StaffAvailability, r ∈ w.db.committed Table.staffAvailability k →
        r.follows i (currentWeekStart w.out.latest) = true →
        (w.db.version (w.db.seen t) Table.staffAvailability k).any StaffAvailability.live = true
  | _ => True

instance (t : Tid) (o : Op schema outside) (w : World schema outside) (x : o.Res) (w' : World schema outside) :
    Decidable (Unstraddled t o w x w') :=
  match o, x with
  | .sql (.update .shiftTemplates i (.replace dayOfWeek _ startsAtTime endsAtTime _ _)), _ =>
    inferInstanceAs (Decidable (∀ b : ShiftTemplate, b ∈ w.db.version (w.db.seen t) Table.shiftTemplates i →
      hours b = ⟨dayOfWeek, startsAtTime, endsAtTime⟩ → _))
  | .sql .commit, _ => inferInstanceAs (Decidable (_ ∧ _))
  | .sql (.update .shiftTemplates _ (.softDelete _)), _ | .sql (.update .staffAvailability _ _), _
  | .sql (.update .rosters _ _), _ | .sql (.update .rosterAssignments _ _), _ | .sql (.update .auditLog _ _), _
  | .sql .begin, _ | .sql (.read _), _ | .sql (.insert ..), _ | .sql .lock, _ | .sql .abort, _ | .now, _ | .ask _, _ =>
    isTrue trivial

/-! ## A commit -/

theorem currentWeekStart_mono {a b : Int} (h : a ≤ b) : currentWeekStart a ≤ currentWeekStart b := by
  unfold currentWeekStart Boutique.jerusalemDayIndex
  omega

theorem Kept.later {rows : Rows schema} {a b : Int} (h : Kept rows a) (hab : a ≤ b) : Kept rows b := fun k r hr hlive hweek =>
  h k r hr hlive (Int.lt_of_le_of_lt (currentWeekStart_mono hab) hweek)

variable {r : StaffAvailability} {w : World schema outside}

theorem stands_iff {rows : Rows schema} : r.stands rows = true ↔
    ∃ q : ShiftTemplate, rows .shiftTemplates r.shiftTemplateId = some q ∧ q.deletedAt = none ∧ hours q = r.answered := by
  simp [StaffAvailability.stands, Option.any_eq_true]

theorem follows_iff {i : Nat} {week : Int} :
    r.follows i week = true ↔ r.shiftTemplateId = i ∧ week < r.weekStart ∧ r.live = true := by
  simp [StaffAvailability.follows]

section Commit

variable {t : Tid} {e e' : Engine schema} {i : Nat} {today : Int}

/-- **What a commit leaves standing**: its own answers, and those of the shifts it does not move. -/
theorem kept_commit (hkept : Kept e.committed today)
    (hmine : ∀ k, ∀ r : StaffAvailability, e.pending t .staffAvailability k = some r → r.live = true →
      currentWeekStart today < r.weekStart → r.stands (e.view t) = true)
    (hmoved : ∀ i, ∀ q v : ShiftTemplate, e.pending t .shiftTemplates i = some q → e.committed .shiftTemplates i = some v →
      moved v q = true → ∀ k, ∀ r : StaffAvailability, e.committed .staffAvailability k = some r →
      e.pending t .staffAvailability k = none → r.follows i (currentWeekStart today) = false) :
    Kept (e.commit t).committed today := by
  intro k r hr hlive hweek
  have hr : e.view t .staffAvailability k = some r := hr
  show r.stands (e.view t) = true
  cases hp : e.pending t .staffAvailability k with
  | some q =>
    rw [Engine.view_pending hp] at hr
    cases hr
    exact hmine k r hp hlive hweek
  | none =>
    rw [Engine.view, Rows.over_none hp] at hr
    obtain ⟨v, hv, hthere, hhours⟩ := stands_iff.1 (hkept k r hr hlive hweek)
    cases hq : e.pending t .shiftTemplates r.shiftTemplateId with
    | none => exact stands_iff.2 ⟨v, by rw [Engine.view, Rows.over_none hq, hv], hthere, hhours⟩
    | some q =>
      have hstill : moved v q = false := by
        by_contra hm
        have hnot := hmoved _ q v hq hv (by simpa using hm) k r hr hp
        rw [follows_iff.2 ⟨rfl, hweek, hlive⟩] at hnot
        cases hnot
      simp only [moved, ne_eq, decide_eq_false_iff_not, not_or, not_not] at hstill
      exact stands_iff.2 ⟨q, Engine.view_pending hq, hstill.1, hstill.2.trans hhours⟩

end Commit

abbrev lasting : Contract tenure.shared outside Err where
  Inv w := Kept w.db.committed w.out.latest ∧ ∀ t, w.out.shown t ≤ w.out.latest
  Assume := Unstraddled
  crash_inv _ _ _ h := h
  tick_inv _ _ _ h := h

theorem lasting_historic : lasting.Historic fun _ => true where
  same w w' _ hc ho hI := by
    show Kept w'.db.committed w'.out.latest ∧ _
    rw [hc, ho]
    exact hI
  asks t q i n w _ hI := by
    cases q with
    | today =>
      refine ⟨hI.1.later (Int.le_max_left _ _), fun u => ?_⟩
      show Function.update w.out.shown t (max w.out.latest i.day) u ≤ max w.out.latest i.day
      by_cases hu : u = t
      · subst hu
        rw [Function.update_self]
      · rw [Function.update_of_ne hu]
        exact Int.le_trans (hI.2 u) (Int.le_max_left _ _)
    | afterDeadline | staffer | roles | managerIndex => exact hI

theorem beside_lasting {t : Tid} {q : Request} (hq : .shiftTemplates ∉ q.writes) (h : w.db.Idle t) :
    lasting.Ensures t q.code (fun _ _ => True) w := by
  refine ensures_mono (fun _ _ _ => trivial) (ensures_unwritten lasting_historic (T := Table.shiftTemplates)
    (fun w1 hL hI hnone hA => ⟨kept_commit hI.1 (fun k r hr => ?_) fun i q v hq => ?_, hI.2⟩) (only_unwritten hq) (by rw [h.pending]))
  · exact hA.1 k (hL.owned_lt t .staffAvailability k r hr) r hr
  · rw [hnone] at hq
    cases hq

/-! ## An edit in progress -/

def Removes (d : Commit schema) (k : Nat) : Prop :=
  ∃ v r : StaffAvailability, d.before .staffAvailability k = some v ∧ v.live = true ∧ d.writes .staffAvailability k = some r ∧
    r.live = false

/-- **An edit in progress** has written one shift, left its hours where it is `steady`, and removed the answers `ks`. -/
structure Edited (t : Tid) (i : Nat) (steady : Bool) (ks : List Nat) (e : Engine schema) : Prop where
  own : e.own t = []
  lone : ∀ j, e.pending t .shiftTemplates j ≠ none → j = i
  steady : steady = true → ∀ v q : ShiftTemplate, e.committed .shiftTemplates i = some v →
    e.pending t .shiftTemplates i = some q → moved v q = false
  taken : ∀ k, ∀ r : StaffAvailability, e.pending t .staffAvailability k = some r → k ∈ ks ∧ r.live = false ∧
    ∃ v : StaffAvailability, e.committed .staffAvailability k = some v ∧ v.live = true
  kept : ∀ k ∈ ks, e.pending t .staffAvailability k ≠ none
  nodup : ks.Nodup

structure Looked (t : Tid) (i : Nat) (afterWeek : Int) (is : List Nat) (e : Engine schema) : Prop where
  past : e.seen t ≤ e.log.length
  left : ∀ k, ∀ v : StaffAvailability, e.version (e.seen t) .staffAvailability k = some v → v.follows i afterWeek = true →
    k ∈ is ∨ ∃ q : StaffAvailability, e.view t .staffAvailability k = some q ∧ q.live = false

section Edits

variable {t : Tid} {i : Nat} {steady : Bool} {ks is : List Nat} {afterWeek txNow : Int} {e e' : Engine schema}

theorem Edited.congr (h : Edited t i steady ks e) (hl : e'.log = e.log) (hc : e'.committed = e.committed)
    (hs : e'.pending t .shiftTemplates = e.pending t .shiftTemplates)
    (ha : e'.pending t .staffAvailability = e.pending t .staffAvailability) : Edited t i steady ks e' := by
  refine ⟨by rw [← h.own, Engine.own, Engine.own, hl], ?_, ?_, ?_, ?_, h.nodup⟩
  · rw [hs]
    exact h.lone
  · rw [hs, hc]
    exact h.steady
  · rw [ha, hc]
    exact h.taken
  · rw [ha]
    exact h.kept

theorem Edited.evolves (h : Edited t i steady ks e) (hev : e.Evolves tenure.shared t e') : Edited t i steady ks e' := by
  refine ⟨hev.since.own.trans h.own, ?_, fun hst v q hv hq => ?_, fun k r hr => ?_, ?_, h.nodup⟩
  · rw [hev.pending]
    exact h.lone
  · rw [hev.pending] at hq
    rw [hev.owned _ _ q hq] at hv
    exact h.steady hst v q hv hq
  · rw [hev.pending] at hr
    rw [hev.owned _ _ r hr]
    exact h.taken k r hr
  · rw [hev.pending]
    exact h.kept

theorem Looked.congr (h : Looked t i afterWeek is e) (hl : e'.log = e.log) (hc : e'.committed = e.committed)
    (hs : e'.seen t = e.seen t) (ha : e'.pending t .staffAvailability = e.pending t .staffAvailability) :
    Looked t i afterWeek is e' := by
  have hview : e'.view t .staffAvailability = e.view t .staffAvailability := by
    funext k
    simp only [Engine.view, Rows.overlay, ha, hc]
  refine ⟨by rw [hs, hl]; exact h.past, ?_⟩
  rw [hs, hview, Engine.version_congr hl hc]
  exact h.left

variable {v : StaffAvailability}

theorem answer_now (hL : e.Lawful tenure.shared) {m k : Nat} (hm : m ≤ e.log.length)
    (hv : e.version m .staffAvailability k = some v) :
    ∃ r : StaffAvailability, e.committed .staffAvailability k = some r ∧
      AnswerKept v r := by
  have hrow := hL.version_becomes (Cast.plays_common _) hm (Nat.le_refl _) .staffAvailability k
  rw [hv, Engine.version_length] at hrow
  exact hrow.some_left

theorem answer_seen (hL : e.Lawful tenure.shared) {k : Nat} (hv : e.committed .staffAvailability k = some v) :
    ∃ r : StaffAvailability, e.view t .staffAvailability k = some r ∧
      AnswerKept v r := by
  have hrow := Cast.becomes_common (hL.inflight t .staffAvailability k)
  rw [hv] at hrow
  exact hrow.some_left

theorem Looked.evolves (h : Looked t i afterWeek is e) (hev : e.Evolves tenure.shared t e') : Looked t i afterWeek is e' := by
  refine ⟨by rw [hev.seen]; exact Nat.le_trans h.past hev.log_le, fun k v hv hf => ?_⟩
  rw [hev.seen, hev.version _ h.past] at hv
  rcases h.left k v hv hf with hin | ⟨q, hq, hdead⟩
  · exact .inl hin
  · have hrow := hev.view .staffAvailability k
    rw [hq] at hrow
    obtain ⟨q', hq', htrans⟩ := hrow.some_left
    have hsame : q' = q := htrans.dead hdead
    exact .inr ⟨q', hq', by rw [hsame]; exact hdead⟩

theorem Looked.skip {k : Nat} (h : Looked t i afterWeek (k :: is) e) (hL : e.Lawful tenure.shared)
    (hnone : (e.view t .staffAvailability k).bind (applyChange .staffAvailability (.invalidate i afterWeek txNow)) = none) :
    Looked t i afterWeek is e := by
  refine ⟨h.past, fun j v hv hf => ?_⟩
  rcases h.left j v hv hf with hin | hdead
  · rcases List.mem_cons.1 hin with rfl | hin
    · obtain ⟨r, hr, hkept⟩ := answer_now hL h.past hv
      obtain ⟨q, hq, hkept'⟩ := answer_seen (t := t) hL hr
      have hkept := hkept.trans hkept'
      refine .inr ⟨q, hq, ?_⟩
      rw [hq] at hnone
      by_contra hlive
      obtain ⟨htemplate, hweek, -⟩ := follows_iff.1 hf
      have hmatch : q.follows i afterWeek = true :=
        follows_iff.2 ⟨hkept.template.trans htemplate, by rw [hkept.week]; exact hweek, by simpa using hlive⟩
      simp [applyChange, StaffAvailabilityChange.apply, hmatch] at hnone
    · exact .inl hin
  · exact .inr hdead

theorem Edited.take {k : Nat} (h : Edited t i steady ks e) (hv : e.view t .staffAvailability k = some v)
    (hr : StaffAvailabilityChange.apply v (.invalidate i afterWeek txNow) = some r) :
    Edited t i steady (ks ++ [k]) (e.write t .staffAvailability k r) := by
  obtain ⟨hf, hr⟩ := Option.ite_none_right_eq_some.1 hr
  cases hr
  have hlive := (follows_iff.1 hf).2.2
  have hnone : e.pending t .staffAvailability k = none := by
    cases hp : e.pending t .staffAvailability k with
    | none => rfl
    | some q =>
      rw [Engine.view_pending hp] at hv
      cases hv
      rw [(h.taken k _ hp).2.1] at hlive
      cases hlive
  have hcommitted : e.committed .staffAvailability k = some v := by rwa [Engine.view, Rows.over_none hnone] at hv
  have hshifts : (e.write t .staffAvailability k { v with deletedAt := some txNow }).pending t .shiftTemplates =
      e.pending t .shiftTemplates := Engine.write_beside (by decide)
  refine ⟨h.own, ?_, ?_, fun j q hq => ?_, fun j hj => ?_, ?_⟩
  · rw [hshifts]
    exact h.lone
  · rw [hshifts]
    exact h.steady
  · rcases Engine.write_pending_cases hq with ⟨-, hrow, rfl⟩ | hold
    · cases hrow
      exact ⟨by simp, rfl, v, hcommitted, hlive⟩
    · obtain ⟨hin, hdead, hfound⟩ := h.taken j q hold
      exact ⟨List.mem_append_left _ hin, hdead, hfound⟩
  · by_cases hjk : j = k
    · subst hjk
      rw [Engine.write_pending_self]
      simp
    · rw [Engine.write_pending_row fun hc => hjk hc.2]
      exact h.kept j ((List.mem_append.1 hj).resolve_right fun hin => hjk (by simpa using hin))
  · refine List.nodup_append.2 ⟨h.nodup, by simp, fun a ha b hb hab => ?_⟩
    rw [hab, List.mem_singleton.1 hb] at ha
    exact h.kept k ha hnone

theorem Looked.take {k : Nat} (h : Looked t i afterWeek (k :: is) e) (hr : r.live = false) :
    Looked t i afterWeek is (e.write t .staffAvailability k r) := by
  refine ⟨h.past, fun j v hv hf => ?_⟩
  by_cases hj : j = k
  · subst hj
    exact .inr ⟨r, Engine.write_view_self, hr⟩
  · rw [Engine.write_view_row fun hc => hj hc.2]
    exact (h.left j v hv hf).imp (fun hin => (List.mem_cons.1 hin).resolve_left hj) id

theorem Edited.removes (h : Edited t i steady ks e) (k : Nat) : k ∈ ks ↔ Removes (e.entry t) k := by
  constructor
  · intro hk
    obtain ⟨r, hr⟩ := Option.ne_none_iff_exists'.1 (h.kept k hk)
    obtain ⟨-, hdead, v, hv, hlive⟩ := h.taken k r hr
    exact ⟨v, r, hv, hlive, hr, hdead⟩
  · rintro ⟨v, r, -, -, hr, -⟩
    exact (h.taken k r hr).1

end Edits

section Requests

variable {t : Tid} {i : Nat} {steady : Bool} {ks : List Nat} {today txNow : Int} {α β : Type} {w : World schema outside}
  {Q : Except Err β → World schema outside → Prop}

theorem softDeleteFutureByTemplate_lasting {k : Nat → Prg β} (h : Edited t i steady [] w.db) (hidle : ∀ j, w.db.pending t .staffAvailability j = none)
    (hshown : w.out.shown t = today) (herr : ∀ x w', Q (.error x) w')
    (hok : ∀ ks w', Edited t i steady ks w'.db → Looked t i (currentWeekStart today) [] w'.db → w'.out.shown t = today →
      lasting.Ensures t (k ks.length) Q w') :
    lasting.Ensures t (softDeleteFutureByTemplate i (currentWeekStart today) txNow >>= k) Q w := by
  refine ensures_first (ensures_select lasting_historic fun w1 hev hL _ _ _ => ?_)
  have hview : w1.db.view t .staffAvailability = w1.db.committed .staffAvailability :=
    Engine.view_table fun j => by rw [hev.db.pending]; exact hidle j
  have hedited : Edited t i steady [] (w1.db.look t) := (h.evolves hev.db).congr rfl rfl rfl rfl
  have hlooked : Looked t i (currentWeekStart today) (matching ⟨w1.db.view t, w1.db.next⟩ Table.staffAvailability
      fun r : StaffAvailability => r.follows i (currentWeekStart today)) (w1.db.look t) := by
    refine ⟨by simp, fun j v hv hf => .inl ?_⟩
    rw [Engine.look_seen, Engine.look_version, Engine.version_length, ← hview] at hv
    exact (mem_matching_iff (s := ⟨w1.db.view t, w1.db.next⟩) ((hL.view_consistent t).id .staffAvailability)).2
      ⟨hL.view_lt hv, v, hv, hf⟩
  refine ensures_first (ensures_updateThrough lasting_historic (T := Table.staffAvailability)
    (g := StaffAvailabilityChange.invalidate i (currentWeekStart today) txNow)
    (fun is rs w' => ∃ ks : List Nat, ks.length = rs.length ∧ Edited t i steady ks w'.db ∧
      Looked t i (currentWeekStart today) is w'.db ∧ w'.out.shown t = today)
    ?_ ?_ ?_ (k := fun rs => k rs.length) (fun _ _ w' _ => herr _ w') ?_ _ [] _ ⟨[], rfl, hedited, hlooked, ?_⟩)
  · rintro is rs w' w'' hev' - - ⟨ks, hlen, he, hl, hs⟩
    exact ⟨ks, hlen, he.evolves hev'.db, hl.evolves hev'.db, hev'.mine.trans hs⟩
  · rintro j is rs w' ⟨ks, hlen, he, hl, hs⟩ hL' hnone
    exact ⟨ks, hlen, he, hl.skip hL' hnone, hs⟩
  · rintro j is rs w' v r ⟨ks, hlen, he, hl, hs⟩ - hv hr
    have hdead : StaffAvailability.live r = false := by
      obtain ⟨-, hr⟩ := Option.ite_none_right_eq_some.1 hr
      cases hr
      rfl
    exact ⟨ks ++ [j], by simp [hlen], he.take hv hr, hl.take hdead, hs⟩
  · rintro rs w' ⟨ks, hlen, he, hl, hs⟩
    rw [← hlen]
    exact hok ks w' he hl hs
  · exact hev.mine.trans hshown

def Counts (t : Tid) (n : Nat) (e : Engine schema) : Prop :=
  ∃ ks : List Nat, ks.Nodup ∧ ks.length = n ∧ ∀ k, k ∈ ks ↔ ∃ d ∈ e.own t, Removes d k

theorem edited_closes {a : α} {k : α → Prg β} (h : Edited t i steady ks w.db)
    (hlooked : steady = true ∨ Looked t i (currentWeekStart today) [] w.db) (hshown : w.out.shown t = today)
    (hk : ∀ w', Counts t ks.length w'.db → lasting.Ensures t (k a) Q w') : Closes lasting t k Q (.ok a) w := by
  intro w1 hev hL hI hA hL'
  replace h := h.evolves hev.db
  refine ⟨⟨kept_commit hI.1 (fun k r hr => hA.1 k (hL.owned_lt t .staffAvailability k r hr) r hr) fun j q v hq hv hm k r hr hp => ?_,
    hI.2⟩, hk _ ⟨ks, h.nodup, rfl, fun k => ?_⟩⟩
  · obtain rfl := h.lone j (by rw [hq]; simp)
    rcases hlooked with hsteady | hlooked
    · rw [h.steady hsteady v q hv hq] at hm
      cases hm
    · -- a coming answer of the shift was there when the edit looked, and the edit has removed it
      replace hlooked := hlooked.evolves hev.db
      by_contra hf
      have hf : r.follows j (currentWeekStart w1.out.latest) = true := by simpa using hf
      have hthere := hA.2 j (hL.owned_lt t .shiftTemplates j q hq) q hq v hv hm k (hL.committed_lt .staffAvailability k r hr) r hr hf
      obtain ⟨u, hu, hlive⟩ := Option.any_eq_true _ _ |>.1 hthere
      obtain ⟨r', hr', hkept⟩ := answer_now hL hlooked.past hu
      rw [hr] at hr'
      cases hr'
      obtain ⟨htemplate, hweek, hlive'⟩ := follows_iff.1 hf
      have hday : today ≤ w1.out.latest := by
        have hmine : w1.out.shown t = w.out.shown t := hev.mine
        rw [← hshown, ← hmine]
        exact hI.2 t
      have hfollows : u.follows j (currentWeekStart today) = true := follows_iff.2 ⟨hkept.template.symm.trans htemplate,
        Int.lt_of_le_of_lt (currentWeekStart_mono hday) (by rw [← hkept.week]; exact hweek), hlive⟩
      rcases hlooked.left k u hu hfollows with hin | ⟨q', hq', hdead⟩
      · cases hin
      · rw [Engine.view, Rows.over_none hp, hr] at hq'
        cases hq'
        rw [hdead] at hlive'
        cases hlive'
  · rw [Engine.commit_own, h.own, List.nil_append, h.removes]
    simp

variable {actorId : Nat} {body : ShiftTemplateInput}

theorem record_closes {a : α} {k : α → Prg β} {entity : Nat} {action : AuditAction} (h : Edited t i steady ks w.db)
    (hlooked : steady = true ∨ Looked t i (currentWeekStart today) [] w.db) (hshown : w.out.shown t = today)
    (herr : ∀ x w', Q (.error x) w') (hk : ∀ w', Counts t ks.length w'.db → lasting.Ensures t (k a) Q w') :
    lasting.Ensures t (record actorId entity action >>= fun _ => return a) (Closes lasting t k Q) w := by
  refine ensures_record lasting_historic (fun w' => Edited t i steady ks w'.db ∧
    (steady = true ∨ Looked t i (currentWeekStart today) [] w'.db) ∧ w'.out.shown t = today) ⟨h, hlooked, hshown⟩
    ?_ (fun x w' _ w'' _ _ => herr x _) ?_ ?_
  · rintro w' w'' hev - ⟨he, hl, hs⟩
    exact ⟨he.evolves hev.db, hl.imp id fun hl => hl.evolves hev.db, hev.mine.trans hs⟩
  · rintro w' n ⟨he, hl, hs⟩
    exact ⟨he.congr rfl rfl rfl rfl, hl.imp id fun hl => hl.congr rfl rfl rfl rfl, hs⟩
  · rintro w' ⟨he, hl, hs⟩ -
    have hbeside : ∀ T, T ≠ .auditLog → ∀ r, (inserted w'.db t Table.auditLog r).pending t T = w'.db.pending t T :=
      fun T hT r => Engine.write_beside hT
    exact edited_closes (he.congr rfl rfl (hbeside _ (by decide) _) (hbeside _ (by decide) _))
      (hl.imp id fun hl => hl.congr rfl rfl rfl (hbeside _ (by decide) _)) hs hk

theorem hours_of_immaterial {v : ShiftTemplate} (h : isMaterialEdit v body = false) :
    hours v = ⟨body.dayOfWeek, body.startsAtTime, body.endsAtTime⟩ := by
  simp only [isMaterialEdit, Bool.or_eq_false_iff, ne_eq, decide_eq_false_iff_not, not_not] at h
  obtain ⟨⟨hday, hstarts⟩, hends⟩ := h
  simp [hours, hday, hstarts, hends]

theorem edited_replace {e : Engine schema} {before v r : ShiftTemplate} {label : String}
    {targets : List (String × Int)} (h : Bare t e) (hbefore : e.version (e.seen t) .shiftTemplates i = some before)
    (hv : e.view t .shiftTemplates i = some v)
    (hr : ShiftTemplateChange.apply v (.replace body.dayOfWeek label body.startsAtTime body.endsAtTime body.sortOrder targets) =
      some r) (hstraight : ∀ b : ShiftTemplate, b ∈ e.version (e.seen t) Table.shiftTemplates i →
      hours b = ⟨body.dayOfWeek, body.startsAtTime, body.endsAtTime⟩ →
      ∀ v : ShiftTemplate, v ∈ e.view t Table.shiftTemplates i → hours v = hours b) :
    Edited t i (!isMaterialEdit before body) [] (e.write t .shiftTemplates i r) := by
  obtain ⟨hlive, hr⟩ := Option.ite_none_right_eq_some.1 hr
  have hnone : ∀ T j, e.pending t T j = none := fun T j => by rw [h.idle.pending]
  refine ⟨h.own, fun j hj => ?_, fun hsteady u q hu hq => ?_, fun k q hq => ?_, (fun k hk => by cases hk), List.nodup_nil⟩
  · by_contra hne
    rw [Engine.write_pending_row fun hc => hne hc.2, hnone] at hj
    exact hj rfl
  · rw [Engine.write_pending_self] at hq
    rw [h.idle.view] at hv
    cases hq
    have hu : e.committed .shiftTemplates i = some u := hu
    rw [hv] at hu
    cases hu
    have himmaterial : hours before = ⟨body.dayOfWeek, body.startsAtTime, body.endsAtTime⟩ :=
      hours_of_immaterial (by simpa using hsteady)
    have hsame := hstraight before hbefore himmaterial v (by rw [h.idle.view]; exact hv)
    cases hr
    have hstill := hsame.trans himmaterial
    simp only [hours, Hours.mk.injEq] at hstill
    simp [moved, hlive, hours, hstill]
  · rw [Engine.write_pending_row (fun hc => by cases hc.1), hnone] at hq
    cases hq

theorem updateTemplate_lasting {Q : Except Err Reply → World schema outside → Prop} {templateId : Nat}
    (h : Bare t w.db) (herr : ∀ x w', Q (.error x) w')
    (hok : ∀ row n w', Counts t n w'.db → Q (.ok (.written row n)) w') :
    lasting.Ensures t (updateTemplate actorId templateId body) Q w := by
  refine ensures_valid (fun _ => herr _ _) fun label _ => ensures_valid (fun _ => herr _ _) fun targets _ =>
    ensures_ask lasting_historic rfl fun w1 j n hev _ _ _ => ?_
  have h1 := h.evolves hev.db
  have hshown1 : (w1.out.show t .today j).shown t = max w1.out.latest j.day := Function.update_self ..
  refine ensures_last (ensures_tenantSession lasting_historic fun w2 txNow hev2 _ _ => ?_)
  have h2 := (h1.evolves hev2.db).begin txNow
  refine ensures_select lasting_historic fun w3 hev3 _ _ _ _ => ?_
  have h3 := (h2.evolves hev3.db).look
  have hshown3 : w3.out.shown t = max w1.out.latest j.day := (hev3.mine.trans hev2.mine).trans hshown1
  refine ensures_orRaise (fun _ _ _ _ => herr _ _) fun before hbefore => ?_
  have hbefore := (Option.filter_eq_some_iff.1 hbefore).1
  refine ensures_first (ensures_update lasting_historic (T := Table.shiftTemplates) (fun w4 _ _ _ _ _ _ => herr _ _)
    (fun w4 _ _ _ _ _ _ _ => herr _ _) fun w4 v r hev4 hL4 hv hr hA hL4' _ => ?_)
  have h4 := h3.evolves hev4.db
  have hseen : w4.db.version (w4.db.seen t) .shiftTemplates templateId = some before := by
    rw [Engine.version_seen (h2.evolves hev3.db).idle.pending hev4.db]
    exact hbefore
  have hedited : Edited t templateId (!isMaterialEdit before body) [] (w4.db.write t .shiftTemplates templateId r) :=
    edited_replace h4 hseen hv hr hA
  have hidle : ∀ k, (w4.db.write t .shiftTemplates templateId r).pending t .staffAvailability k = none := fun k => by
    rw [Engine.write_pending_row (fun hc => by cases hc.1), h4.idle.pending]
  have hshown4 : w4.out.shown t = max w1.out.latest j.day := hev4.mine.trans hshown3
  refine ensures_select lasting_historic fun w5 hev5 _ _ _ _ => ?_
  have h5 : Edited t templateId (!isMaterialEdit before body) [] (w5.db.look t) :=
    (hedited.evolves hev5.db).congr rfl rfl rfl rfl
  have hidle5 : ∀ k, (w5.db.look t).pending t .staffAvailability k = none := fun k => by
    rw [Engine.look_pending, hev5.db.pending]
    exact hidle k
  have hshown5 : w5.out.shown t = max w1.out.latest j.day := hev5.mine.trans hshown4
  refine ensures_orRaise (fun _ _ _ _ => herr _ _) fun row _ => ?_
  cases hmat : isMaterialEdit before body with
  | true =>
    rw [hmat] at h5
    exact softDeleteFutureByTemplate_lasting h5 hidle5 hshown5 (fun x w' _ _ _ => herr x _) fun ks w' hw hl hs =>
      record_closes hw (.inr hl) hs herr fun w'' hc => hok _ _ w'' hc
  | false =>
    rw [hmat] at h5
    exact record_closes h5 (.inl rfl) hshown5 herr fun w'' hc => hok _ _ w'' hc

theorem deleteTemplate_lasting {Q : Except Err Reply → World schema outside → Prop} {templateId : Nat}
    (h : Bare t w.db) (herr : ∀ x w', Q (.error x) w')
    (hok : ∀ row n w', Counts t n w'.db → Q (.ok (.written row n)) w') :
    lasting.Ensures t (deleteTemplate actorId templateId) Q w := by
  refine ensures_ask lasting_historic rfl fun w1 j n hev _ _ _ => ?_
  have h1 := h.evolves hev.db
  have hshown1 : (w1.out.show t .today j).shown t = max w1.out.latest j.day := Function.update_self ..
  refine ensures_last (ensures_tenantSession lasting_historic fun w2 txNow hev2 _ _ => ?_)
  have h2 := (h1.evolves hev2.db).begin txNow
  refine ensures_update lasting_historic (T := Table.shiftTemplates) (fun w3 _ _ _ _ _ _ => herr _ _)
    (fun w3 _ _ _ _ _ _ _ => herr _ _) fun w3 v r hev3 hL3 hv hr hA hL3' _ => ?_
  have h3 := h2.evolves hev3.db
  have hnone : ∀ T k, w3.db.pending t T k = none := fun T k => by rw [h3.idle.pending]
  have hedited : Edited t templateId false [] (w3.db.write t .shiftTemplates templateId r) := by
    refine ⟨h3.own, fun k hk => ?_, (fun hc => by cases hc), fun k q hq => ?_, (fun k hk => by cases hk), List.nodup_nil⟩
    · by_contra hne
      rw [Engine.write_pending_row fun hc => hne hc.2, hnone] at hk
      exact hk rfl
    · rw [Engine.write_pending_row (fun hc => by cases hc.1), hnone] at hq
      cases hq
  have hidle : ∀ k, (w3.db.write t .shiftTemplates templateId r).pending t .staffAvailability k = none := fun k => by
    rw [Engine.write_pending_row (fun hc => by cases hc.1), hnone]
  refine ensures_raiseIf (fun _ _ _ _ => herr _ _) fun _ => softDeleteFutureByTemplate_lasting hedited hidle
    ((hev3.mine.trans hev2.mine).trans hshown1) (fun x w' _ _ _ => herr x _) fun ks w' hw hl hs =>
    record_closes hw (.inr hl) hs herr fun w'' hc => hok _ _ w'' hc

end Requests

/-! ## Every run -/

variable {reqs : Tid → Request} {rows : Rows schema} {next : Nat} {clock today : Int}
  {c : Conf (machine schema outside Err) Reply}

def Told (reqs : Tid → Request) (t : Tid) (x : Except Err Reply) (w : World schema outside) : Prop :=
  .shiftTemplates ∈ (reqs t).writes → ∀ row n, x = .ok (.written row n) → Counts t n w.db

theorem request_lasting {t : Tid} (h : Bare t w.db) : lasting.Ensures t (reqs t).code (Told reqs t) w := by
  unfold Told
  cases hq : reqs t with
  | updateTemplate actorId templateId body =>
    refine updateTemplate_lasting h (fun x w' _ row n hc => by cases hc) fun row n w' hcounts _ row' n' hret => ?_
    cases hret
    exact hcounts
  | deleteTemplate actorId templateId =>
    refine deleteTemplate_lasting h (fun x w' _ row n hc => by cases hc) fun row n w' hcounts _ row' n' hret => ?_
    cases hret
    exact hcounts
  | submit | assign | unassign | publish | roster =>
    refine ensures_mono (fun x w' _ hedits => ?_) (beside_lasting (by simp [Request.writes]) h.idle)
    simp [Request.writes] at hedits

/-- **An answer never outlives the shift it answered**: in every run in which nothing is straddled, every live answer for a week
after the current one has its shift, live and with the hours the save read; and an edit is told how many answers it
removed. -/
theorem answers_outlast (h : Shelved rows next) (hkept : Kept rows today)
    (hr : Conf.Steps Unstraddled (serving reqs rows next clock today) c) :
    Kept c.state.db.committed c.state.out.latest ∧
    ∀ t row n, .shiftTemplates ∈ (reqs t).writes → c.threads t = some (.ret (.written row n)) →
      ∃ ks : List Nat, ks.Nodup ∧ ks.length = n ∧ ∀ k, k ∈ ks ↔ ∃ d ∈ c.state.db.own t, Removes d k := by
  have hob : Cast.Obeyed tenure.shared (serving reqs rows next clock today) := staged_obeyed h legal_tenure
  have hsafe : ∀ t p, (serving reqs rows next clock today).threads t = some p →
      lasting.logic.Safe t p (Told reqs t) (serving reqs rows next clock today).state := by
    intro t p hp
    cases hp
    refine safe_of_ensures (request_lasting ⟨rfl, ⟨rfl⟩⟩) fun x w w' hx hev _ _ hedits row n hret => ?_
    obtain ⟨ks, hnodup, hlen, hks⟩ := hx hedits row n hret
    exact ⟨ks, hnodup, hlen, by rw [hev.db.since.own]; exact hks⟩
  obtain ⟨hsound, -⟩ := lasting.runs (Q := Told reqs) hob ⟨hkept, fun _ => Int.le_refl _⟩ hsafe hr
  exact ⟨hsound.inv.2.1, fun t row n hedits ht => hsound.finished ht hedits row n rfl⟩

/-! ## A save straddled by an edit -/

def oneShift : (T : Table) → List (Row T)
  | .shiftTemplates => [sundayMorning 1]
  | _ => []

theorem oneShift_shelved : Shelved (listed (S := schema) oneShift) 2 :=
  shelved_of_stocked [.shiftTemplates, .staffAvailability, .rosters, .rosterAssignments, .auditLog]
    (fun T => by cases T <;> decide) (by decide)

theorem oneShift_kept : Kept (listed (S := schema) oneShift) 3 := by
  intro k r hr
  cases hr

/-- Staffer 7 answers the shift while it is moved from Sunday to Monday. -/
def answerAndMove : Tid → Request
  | 0 => .submit ⟨7, false⟩ ⟨10, none, [(1, .available)]⟩
  | 1 => .updateTemplate 9 1 ⟨1, "morning", (sundayMorning 1).startsAtTime, (sundayMorning 1).endsAtTime, 0, []⟩
  | _ => .roster 10

/-- The shift is moved between the save's SELECTs and its INSERT: her answer to Sunday stands for Monday. -/
theorem answer_outlives : ∃ c, (serving answerAndMove (listed (S := schema) oneShift) 2 100 3).Reaches c ∧
    c.returned 0 = true ∧ c.returned 1 = true ∧ ¬Kept c.state.db.committed c.state.out.latest := by
  obtain ⟨c, hc, hP⟩ := Conf.reached_freely
      (serving answerAndMove (listed (S := schema) oneShift) 2 100 3) (calls 0 6 ++ calls 1 8 ++ calls 0 8)
    (fun c => c.returned 0 && c.returned 1 && (c.state.db.committed .staffAvailability 3).any fun r =>
      StaffAvailability.live r && decide (currentWeekStart c.state.out.latest < StaffAvailability.weekStart r) &&
        !StaffAvailability.stands r c.state.db.committed) (by decide)
  simp only [Bool.and_eq_true, Option.any_eq_true, decide_eq_true_eq, Bool.not_eq_true'] at hP
  obtain ⟨⟨hsaved, hmoved⟩, r, hr, ⟨hlive, hweek⟩, hgone⟩ := hP
  refine ⟨c, hc, hsaved, hmoved, fun hkept => ?_⟩
  rw [hkept 3 r hr hlive hweek] at hgone
  cases hgone

def Reply.invalidated : Reply → Option Nat
  | .written _ n => some n
  | _ => none

/-- One after the other: the edit takes her answer back, and says so. -/
theorem answers_outlast_once : ∃ c,
    Conf.Steps Unstraddled (serving answerAndMove (listed (S := schema) oneShift) 2 100 3) c ∧
    Kept c.state.db.committed c.state.out.latest ∧
    ∃ ks : List Nat, ks.Nodup ∧ ks.length = 1 ∧ ∀ k, k ∈ ks ↔ ∃ d ∈ c.state.db.own 1, Removes d k := by
  obtain ⟨c, hc, hP⟩ := Conf.reached_of_play (A := Unstraddled)
    (serving answerAndMove (listed (S := schema) oneShift) 2 100 3) (calls 0 14 ++ calls 1 9)
    (fun c => decide ((c.reply 1).bind Reply.invalidated = some 1)) (by decide)
  obtain ⟨reply, hreply, hn⟩ := Option.bind_eq_some_iff.1 (of_decide_eq_true hP)
  cases reply with
  | written row n =>
    cases hn
    obtain ⟨hkept, htold⟩ := answers_outlast oneShift_shelved oneShift_kept hc
    exact ⟨c, hc, hkept, htold 1 row 1 (by simp [answerAndMove, Request.writes]) (Conf.reply_eq_some.1 hreply)⟩
  | week | shift | roster => cases hn

end Rota
