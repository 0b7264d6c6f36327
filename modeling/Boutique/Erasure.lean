import Boutique.Consent
import Boutique.TxnPage
/-!
# Erasure — a customer's record stays erased

The erasure takes the boutique's lock before it reads, and so does the storefront's booking.  The waitlist claim, the
atelier's intake, the walk-in, the phone correction, the card and the portal's login do not: each writes by the key it has
found, whatever has become of the row, and a login that commits under the erasure's own SELECT of the sessions is not seen.
-/
namespace Subjects

open Txn Session Contract
open Retention (ERASED_NAME erasedPhone)

variable {settings : Retention.Settings} {reqs : Tid → Request} {start rows : Rows schema} {next : Nat} {clock : Int}
  {c : Conf (machine schema outside Err) Reply} {t : Tid} {e e' : Engine schema} {i m n : Nat} {l : Bool}

/-! ## What is asked of a run -/

/-- **Nobody has erased the customer**, if she is there. -/
def Living (rows : Rows schema) (i : Nat) : Prop := ∀ v : Customer, v ∈ rows Table.customers i → v.erasedAt = none

instance (rows : Rows schema) (i : Nat) : Decidable (Living rows i) := by
  unfold Living
  infer_instance

def CustomerChange.writesCard : CustomerChange → Bool
  | .rename _ | .setPhone _ | .setNotesAndTags .. => true
  | _ => false

def Request.locksFirst : Request → Bool
  | .createBooking _ | .eraseSubject .. => true
  | _ => false

/-- **Whoever the thread's new bookings, tickets and logins are of** has not been erased. -/
def PointsAtLiving (e : Engine schema) (t : Tid) : Prop :=
  ∀ k, k < e.next →
    (∀ b : Booking, b ∈ e.pending t Table.bookings k →
      (∀ b₀ : Booking, b₀ ∈ e.committed Table.bookings k → b₀.customerId ≠ b.customerId) → Living e.committed b.customerId) ∧
    (∀ a : AlterationTicket, a ∈ e.pending t Table.tickets k → Living e.committed a.customerId) ∧
    ∀ s : CustomerSession, s ∈ e.pending t Table.sessions k → s.deletedAt = none → Living e.committed s.customerId

instance (e : Engine schema) (t : Tid) : Decidable (PointsAtLiving e t) := by
  unfold PointsAtLiving
  infer_instance

/-- No login of the customer's has been committed from version `m` on. -/
def Unjoined (e : Engine schema) (m i : Nat) : Prop :=
  ∀ d ∈ e.log.drop m, ∀ k, k < e.next → ∀ s : CustomerSession, s ∈ d.writes Table.sessions k → s.customerId = i →
    s.deletedAt ≠ none

instance (e : Engine schema) (m i : Nat) : Decidable (Unjoined e m i) := by
  unfold Unjoined
  infer_instance

/-- **No erasure is overtaken**: without the lock no card is written and nobody is pointed at that has been erased by then,
and no login is committed between an erasure's SELECT of the sessions and its commit. -/
def Unovertaken (reqs : Tid → Request) : (machine schema outside Err).Assumption := fun t o w _ _ =>
  match o with
  | .sql (.update .customers i g) => (reqs t).locksFirst = false → CustomerChange.writesCard g = true →
      ∀ v : Customer, v ∈ w.db.view t Table.customers i → v.erasedAt = none
  | .sql .commit => ((reqs t).locksFirst = false → PointsAtLiving w.db t) ∧
      ∀ i, i < w.db.next → (reqs t).erases = true → w.db.pending t Table.customers i ≠ none →
        Unjoined w.db (w.db.seen t) i
  | _ => True

instance (reqs : Tid → Request) (t : Tid) (o : Op schema outside) (w : World schema outside) (x : o.Res)
    (w' : World schema outside) : Decidable (Unovertaken reqs t o w x w') :=
  match o, x with
  | .sql (.update .customers i g), _ => inferInstanceAs (Decidable ((reqs t).locksFirst = false →
      CustomerChange.writesCard g = true → ∀ v : Customer, v ∈ w.db.view t Table.customers i → v.erasedAt = none))
  | .sql .commit, _ => inferInstanceAs (Decidable (_ ∧ _))
  | .sql (.update .bookings _ _), _ | .sql (.update .tickets _ _), _ | .sql (.update .sessions _ _), _
  | .sql (.update .auditLog _ _), _ | .sql .begin, _ | .sql (.read _), _ | .sql (.insert ..), _ | .sql .lock, _
  | .sql .abort, _ | .now, _ | .ask _, _ => isTrue trivial

/-! ## What every commit respects -/

structure SameCard (v r : Customer) : Prop where
  name : r.name = v.name
  phone : r.phone = v.phone
  notes : r.notes = v.notes
  tags : r.tags = v.tags

structure Blank (i : Nat) (r : Customer) : Prop where
  name : r.name = ERASED_NAME
  phone : r.phone = erasedPhone i
  notes : r.notes = none
  tags : r.tags = []

/-- **A commit respects the erased**, of those that were not when the run began: it writes none of their cards, points
nothing new at them, and where it erases one it leaves a blank card and no login. -/
structure Respects (start : Rows schema) (d : Commit schema) : Prop where
  card : ∀ i, Living start i → ∀ v r : Customer, d.before .customers i = some v → d.writes .customers i = some r →
    v.erasedAt ≠ none → SameCard v r
  erased : ∀ i, Living d.before i → ∀ r : Customer, d.writes .customers i = some r → r.erasedAt ≠ none →
    Blank i r ∧ ∀ k (s : CustomerSession), d.after .sessions k = some s → s.customerId = i → s.deletedAt ≠ none
  bookings : ∀ k (b : Booking), d.writes .bookings k = some b → Living start b.customerId →
    Living d.before b.customerId ∨ ∃ b₀ : Booking, d.before .bookings k = some b₀ ∧ b₀.customerId = b.customerId
  tickets : ∀ k (a : AlterationTicket), d.writes .tickets k = some a → Living start a.customerId →
    Living d.before a.customerId
  sessions : ∀ k (s : CustomerSession), d.writes .sessions k = some s → Living start s.customerId → s.deletedAt = none →
    Living d.before s.customerId

abbrev respecting (start : Rows schema) : Ledger schema where
  Holds _ _ d := Respects start d
  stable _ _ _ _ _ _ _ h := h

def Erases (d : Commit schema) (i : Nat) : Prop :=
  Living d.before i ∧ ∃ r : Customer, d.writes .customers i = some r ∧ r.erasedAt ≠ none

/-- **Her record, erased**: a blank card and no login. -/
structure Stands (rows : Rows schema) (i : Nat) : Prop where
  card : ∃ r : Customer, rows .customers i = some r ∧ r.erasedAt ≠ none ∧ Blank i r
  sessions : ∀ k (s : CustomerSession), rows .sessions k = some s → s.customerId = i → s.deletedAt ≠ none

variable {v r : Customer} {w : World schema outside} {phone : Mobile} {at_ : Int} {page : List Nat}

section Histories

variable (hL : e.Lawful (conduct false).shared) (hd : ∀ d ∈ e.log, Respects (e.version 0) d)
include hL

theorem erased_later (hmn : m ≤ n) (hn : n ≤ e.log.length) (hv : e.version m .customers i = some v) :
    ∃ r : Customer, e.version n .customers i = some r ∧ Onward false true v r := by
  have hbecomes := hL.version_becomes (Cast.plays_common _) hmn hn .customers i
  rw [hv] at hbecomes
  obtain ⟨r, hr, honward⟩ := hbecomes.some_left
  exact ⟨r, hr, honward⟩

theorem living_before (hmn : m ≤ n) (hn : n ≤ e.log.length) (h : Living (e.version n) i) : Living (e.version m) i := by
  intro v hv
  by_contra herased
  obtain ⟨r, hr, honward⟩ := erased_later hL hmn hn hv
  exact honward.erased herased (h r hr)

include hd

theorem stands_step (hstart : Living (e.version 0) i) (hm : m < e.log.length) (h : Stands (e.version m) i) :
    Stands (e.version (m + 1)) i := by
  have hentry : e.log[m]? = some e.log[m] := List.getElem?_eq_getElem hm
  have hbefore : e.version m = e.log[m].before := by simp [Engine.version, hentry]
  have hrespects := hd _ (List.getElem_mem hm)
  obtain ⟨r, hr, herased, hblank⟩ := h.card
  have hnotliving : ¬ Living e.log[m].before i := fun hliving => herased (hliving r (by rw [← hbefore]; exact hr))
  rw [hL.linked m _ hentry]
  refine ⟨?_, fun k s hs hi => ?_⟩
  · obtain ⟨r', hr', honward⟩ := erased_later hL (Nat.le_succ m) hm hr
    rw [hL.linked m _ hentry] at hr'
    refine ⟨r', hr', honward.erased herased, ?_⟩
    rw [Commit.after] at hr'
    cases hw : e.log[m].writes .customers i with
    | none =>
      rw [Rows.over_none hw, ← hbefore, hr] at hr'
      cases hr'
      exact hblank
    | some q =>
      rw [Rows.over_some hw] at hr'
      cases hr'
      have hsame := hrespects.card i hstart r r' (by rw [← hbefore]; exact hr) hw herased
      exact ⟨hsame.name.trans hblank.name, hsame.phone.trans hblank.phone, hsame.notes.trans hblank.notes,
        hsame.tags.trans hblank.tags⟩
  · rw [Commit.after] at hs
    cases hw : e.log[m].writes .sessions k with
    | none =>
      rw [Rows.over_none hw, ← hbefore] at hs
      exact h.sessions k s hs hi
    | some q =>
      rw [Rows.over_some hw] at hs
      cases hs
      intro hlive
      exact hnotliving (hi ▸ hrespects.sessions k _ hw (hi.symm ▸ hstart) hlive)

theorem stands_erased {d : Commit schema} (hentry : e.log[m]? = some d) (h : Erases d i) : Stands (e.version (m + 1)) i := by
  obtain ⟨hliving, r, hr, herased⟩ := h
  obtain ⟨hblank, hsessions⟩ := (hd d (List.mem_of_getElem? hentry)).erased i hliving r hr herased
  rw [hL.linked m d hentry]
  exact ⟨⟨r, by rw [Commit.after, Rows.over_some hr], herased, hblank⟩, hsessions⟩

theorem pointers_step (hstart : Living (e.version 0) i) (hm : m < e.log.length) (h : Stands (e.version m) i) :
    (∀ k (b : Booking), e.version (m + 1) .bookings k = some b → b.customerId = i →
      ∃ b0 : Booking, e.version m .bookings k = some b0 ∧ b0.customerId = i) ∧
    ∀ k (a : AlterationTicket), e.version (m + 1) .tickets k = some a → a.customerId = i →
      e.version m .tickets k = some a := by
  have hentry : e.log[m]? = some e.log[m] := List.getElem?_eq_getElem hm
  have hbefore : e.version m = e.log[m].before := by simp [Engine.version, hentry]
  have hrespects := hd _ (List.getElem_mem hm)
  obtain ⟨r, hr, herased, -⟩ := h.card
  have hnotliving : ¬ Living e.log[m].before i := fun hliving => herased (hliving r (by rw [← hbefore]; exact hr))
  rw [hL.linked m _ hentry, hbefore]
  refine ⟨fun k b hb hi => ?_, fun k a ha hi => ?_⟩
  · rw [Commit.after] at hb
    cases hw : e.log[m].writes .bookings k with
    | none =>
      rw [Rows.over_none hw] at hb
      exact ⟨b, hb, hi⟩
    | some q =>
      rw [Rows.over_some hw] at hb
      cases hb
      rcases hrespects.bookings k _ hw (hi.symm ▸ hstart) with hliving | ⟨b0, hb0, hsame⟩
      · exact absurd (hi ▸ hliving) hnotliving
      · exact ⟨b0, hb0, hsame.trans hi⟩
  · rw [Commit.after] at ha
    cases hw : e.log[m].writes .tickets k with
    | none => rwa [Rows.over_none hw] at ha
    | some q =>
      rw [Rows.over_some hw] at ha
      cases ha
      exact absurd (hi ▸ hrespects.tickets k _ hw (hi.symm ▸ hstart)) hnotliving

/-- **From the commit that erases her on**, her record stands, and nothing new points at it. -/
theorem stands_later {d : Commit schema} (hentry : e.log[m]? = some d) (h : Erases d i) (hmn : m + 1 ≤ n)
    (hn : n ≤ e.log.length) : Stands (e.version n) i ∧
    (∀ k (b : Booking), e.version n .bookings k = some b → b.customerId = i →
      ∃ b0 : Booking, e.version (m + 1) .bookings k = some b0 ∧ b0.customerId = i) ∧
    ∀ k (a : AlterationTicket), e.version n .tickets k = some a → a.customerId = i →
      e.version (m + 1) .tickets k = some a := by
  have hbefore : Living (e.version m) i := by
    have hversion : e.version m = d.before := by simp [Engine.version, hentry]
    rw [hversion]
    exact h.1
  have hstart : Living (e.version 0) i := living_before hL (Nat.zero_le m) (by omega) hbefore
  induction hmn with
  | refl => exact ⟨stands_erased hL hd hentry h, fun k b hb hi => ⟨b, hb, hi⟩, fun k a ha _ => ha⟩
  | @step n hmn ih =>
    obtain ⟨hstands, hbookings, htickets⟩ := ih (by omega)
    obtain ⟨hbook, htick⟩ := pointers_step hL hd hstart hn hstands
    refine ⟨stands_step hL hd hstart hn hstands, fun k b hb hi => ?_, fun k a ha hi => ?_⟩
    · obtain ⟨b0, hb0, hi0⟩ := hbook k b hb hi
      exact hbookings k b0 hb0 hi0
    · exact htickets k a (htick k a ha hi) hi

/-- **Under a phone that is nobody's placeholder** nobody is found who was erased since the run began. -/
theorem living_of_phone (hstart : Living (e.version 0) i) (hv : e.committed .customers i = some v)
    (hphone : ∀ j, v.phone ≠ erasedPhone j) : v.erasedAt = none := by
  by_contra herased
  rw [← Engine.version_length] at hv
  obtain ⟨k, d, -, hlt, hentry, hnot, u, hu, hgone⟩ := hL.version_crossing (T := .customers) (i := i)
    (P := fun row => ∃ u : Customer, row = some u ∧ u.erasedAt ≠ none) (Nat.zero_le _) (Nat.le_refl _)
    (by
      rintro ⟨u, hu, hgone⟩
      exact hgone (hstart u hu))
    ⟨v, hv, herased⟩
  have herases : Erases d i := by
    refine ⟨fun u' hu' => ?_, ?_⟩
    · by_contra hgone'
      exact hnot ⟨u', hu', hgone'⟩
    · rw [Commit.after] at hu
      cases hw : d.writes .customers i with
      | none => exact absurd ⟨u, by rwa [Rows.over_none hw] at hu, hgone⟩ hnot
      | some q =>
        rw [Rows.over_some hw] at hu
        cases hu
        exact ⟨u, rfl, hgone⟩
  obtain ⟨r, hr, -, hblank⟩ := (stands_later hL hd hentry herases hlt (Nat.le_refl _)).1.card
  rw [hv] at hr
  cases hr
  exact hphone i hblank.phone

end Histories

/-! ## The requests without the lock -/

abbrev guarding (reqs : Tid → Request) (start : Rows schema) : Contract (conduct false).shared outside Err :=
  (respecting start).contract (conduct false).shared (Unovertaken reqs)

theorem guarding_historic : (guarding reqs start).Historic fun _ => true := (respecting start).historic _

structure Carries (start : Rows schema) (i : Nat) (v r : Customer) : Prop where
  erasedAt : r.erasedAt = v.erasedAt
  card : Living start i → v.erasedAt ≠ none → SameCard v r

theorem Carries.trans {u : Customer} (h : Carries start i u v) (h' : Carries start i v r) : Carries start i u r := by
  refine ⟨h'.erasedAt.trans h.erasedAt, fun hi hu => ?_⟩
  have huv := h.card hi hu
  have hvr := h'.card hi (by rw [h.erasedAt]; exact hu)
  exact ⟨hvr.name.trans huv.name, hvr.phone.trans huv.phone, hvr.notes.trans huv.notes, hvr.tags.trans huv.tags⟩

theorem carries_apply {g : CustomerChange} (h : CustomerChange.apply v g = some r)
    (hg : Proper false false l (.sql (.update .customers i g)))
    (hliving : CustomerChange.writesCard g = true → Living start i → v.erasedAt = none) : Carries start i v r := by
  cases g <;> simp only [CustomerChange.apply] at h
  case rename =>
    cases h
    exact ⟨rfl, fun hi hv => absurd (hliving rfl hi) hv⟩
  case setPhone | setNotesAndTags =>
    split at h <;> cases h
    exact ⟨rfl, fun hi hv => absurd (hliving rfl hi) hv⟩
  case recordMarketingConsent | withdrawMarketingConsent =>
    split at h <;> cases h
    exact ⟨rfl, fun _ _ => ⟨rfl, rfl, rfl, rfl⟩⟩
  case erase => cases hg.1
  case scrub => cases (show false = true from hg)

/-- **What thread `t` has in flight of the customers** erases nobody, and keeps the card of who has been erased. -/
structure Careful (start : Rows schema) (t : Tid) (e : Engine schema) : Prop where
  above : ∀ i (v r : Customer), e.committed .customers i = some v → e.pending t .customers i = some r → Carries start i v r
  fresh : ∀ i (r : Customer), e.committed .customers i = none → e.pending t .customers i = some r → r.erasedAt = none

theorem careful_idle (h : e.pending t .customers = fun _ => none) : Careful start t e := by
  refine ⟨fun i v r _ hr => ?_, fun i r _ hr => ?_⟩ <;> rw [h] at hr <;> cases hr

theorem Careful.evolves (h : Careful start t e) (hev : e.Evolves (conduct false).shared t e') : Careful start t e' := by
  refine ⟨fun i v r hv hr => ?_, fun i r hv hr => ?_⟩
  · rw [hev.pending] at hr
    exact h.above i v r (by rw [← hev.owned _ i r hr]; exact hv) hr
  · rw [hev.pending] at hr
    exact h.fresh i r (by rw [← hev.owned _ i r hr]; exact hv) hr

theorem Careful.congr (h : Careful start t e) (hc : e'.committed = e.committed)
    (hp : e'.pending t .customers = e.pending t .customers) : Careful start t e' := by
  refine ⟨fun i v r hv hr => h.above i v r ?_ ?_, fun i r hv hr => h.fresh i r ?_ ?_⟩
  all_goals first | rwa [← hc] | rwa [← hp]

theorem Careful.step (h : Careful start t e) (hc : e'.committed = e.committed)
    (hrow : ∀ i (r : Customer), e'.pending t .customers i = some r → e.pending t .customers i = some r ∨
      (∃ v : Customer, e.view t .customers i = some v ∧ Carries start i v r) ∨
        (e.committed .customers i = none ∧ r.erasedAt = none)) : Careful start t e' := by
  refine ⟨fun i u r hu hr => ?_, fun i r hu hr => ?_⟩
  · rw [hc] at hu
    rcases hrow i r hr with hr | ⟨v, hv, hcarries⟩ | ⟨hnone, -⟩
    · exact h.above i u r hu hr
    · cases hp : e.pending t .customers i with
      | none =>
        rw [Engine.view, Rows.over_none hp, hu] at hv
        cases hv
        exact hcarries
      | some b =>
        rw [Engine.view_pending hp] at hv
        cases hv
        exact (h.above i u _ hu hp).trans hcarries
    · cases hnone.symm.trans hu
  · rw [hc] at hu
    rcases hrow i r hr with hr | ⟨v, hv, hcarries⟩ | ⟨-, hnone⟩
    · exact h.fresh i r hu hr
    · cases hp : e.pending t .customers i with
      | none =>
        rw [Engine.view, Rows.over_none hp, hu] at hv
        cases hv
      | some b =>
        rw [Engine.view_pending hp] at hv
        cases hv
        exact hcarries.erasedAt.trans (h.fresh i _ hu hp)
    · exact hnone

theorem Careful.write (h : Careful start t e) (hv : e.view t .customers i = some v) (hr : Carries start i v r) :
    Careful start t (e.write t Table.customers i r) := by
  refine h.step rfl fun j q hq => ?_
  rcases Engine.write_pending_cases hq with ⟨-, heq, rfl⟩ | hq
  · cases heq
    exact .inr (.inl ⟨v, hv, hr⟩)
  · exact .inl hq

theorem Careful.insert {phone name : String} (h : Careful start t e) (hL : e.Lawful (conduct false).shared) :
    Careful start t (inserted e t Table.customers (newCustomer phone name)) := by
  refine h.step rfl fun j q hq => ?_
  rcases Engine.write_pending_cases hq with ⟨-, heq, rfl⟩ | hq
  · cases heq
    exact .inr (.inr ⟨hL.committed_none_of_le (Nat.le_refl _) _, rfl⟩)
  · exact .inl hq

/-- **One answered call of a request without the lock**, where its card UPDATEs meet the living. -/
theorem Careful.exec {o : Op schema outside} {x : o.Res} {n : outside.Input} {w' : World schema outside}
    (h : Careful start t w.db) (hL : w.db.Lawful (conduct false).shared) (ho : Proper false false l o)
    (hcommit : o ≠ .sql .commit) (he : w.exec t o n = some (x, w'))
    (hliving : ∀ i g, o = .sql (.update .customers i g) → CustomerChange.writesCard g = true →
      ∀ v : Customer, v ∈ w.db.view t Table.customers i → v.erasedAt = none) : Careful start t w'.db := by
  refine h.step (World.exec_log hcommit he).2 fun i r hr => ?_
  rcases World.exec_wrote he hr with hr | ⟨g, v, rfl, hv, hgr⟩ | ⟨r0, rfl, rfl, hstamp⟩
  · exact .inl hr
  · exact .inr (.inl ⟨v, hv, carries_apply hgr ho fun hcard _ => hliving i g rfl hcard v hv⟩)
  · obtain ⟨phone, name, rfl⟩ := ho
    cases hstamp
    exact .inr (.inr ⟨hL.committed_none_of_le (Nat.le_refl _) _, rfl⟩)

theorem Careful.respects (h : Careful start t e) (hL : e.Lawful (conduct false).shared) (hpoints : PointsAtLiving e t) :
    Respects start (e.entry t) := by
  refine ⟨fun i hi v r hv hr herased => (h.above i v r hv hr).card hi herased, fun i hliving r hr herased => ?_,
    fun k b hb _ => ?_, fun k a ha _ => ?_, fun k s hs _ hlive => ?_⟩
  · refine absurd ?_ herased
    cases hv : e.committed .customers i with
    | none => exact h.fresh i r hv hr
    | some v => exact (h.above i v r hv hr).erasedAt.trans (hliving v hv)
  · by_cases hold : ∃ b0 : Booking, e.committed .bookings k = some b0 ∧ b0.customerId = b.customerId
    · exact .inr hold
    · exact .inl ((hpoints k (hL.owned_lt t Table.bookings k b hb)).1 b hb fun b0 hb0 hsame => hold ⟨b0, hb0, hsame⟩)
  · exact (hpoints k (hL.owned_lt t Table.tickets k a ha)).2.1 a ha
  · exact (hpoints k (hL.owned_lt t Table.sessions k s hs)).2.2 s hs hlive

theorem unlocked_respects {α : Type} {p : Prg α} (hlocks : (reqs t).locksFirst = false)
    (hp : Within (Proper false false) false p) (h : Careful start t w.db) :
    (guarding reqs start).Ensures t p (fun _ _ => True) w := by
  refine ensures_mono (fun _ _ _ => trivial) (ensures_of_footprint (fun _ w => Careful start t w.db)
    (fun _ _ _ hev _ _ h => h.evolves hev.db) (fun l o w n x w' ho hL hI h he hL' hA => ?_) hp h)
  by_cases hc : o = .sql .commit
  · subst hc
    cases he
    exact ⟨Ledger.inv_commit hI (h.respects hL (hA.1 hlocks)), careful_idle (by rw [Engine.commit_pending_self])⟩
  · refine ⟨guarding_historic.exec hc (fun _ _ => rfl) he hI, h.exec hL ho hc he ?_⟩
    rintro i g rfl hcard
    exact hA hlocks hcard

/-! ## The storefront's booking -/

/-- The customer of this key, if nobody had erased her when the run began, has not been erased. -/
def Named (start : Rows schema) (e : Engine schema) (i : Nat) : Prop := Living start i → Living e.committed i

structure AtCounter (start : Rows schema) (t : Tid) (e : Engine schema) : Prop where
  begun : e.version 0 = start
  lock : e.advisory = some t
  careful : Careful start t e
  bookings : ∀ k (b : Booking), e.pending t .bookings k = some b → Named start e b.customerId
  tickets : e.pending t .tickets = fun _ => none
  sessions : e.pending t .sessions = fun _ => none

theorem living_held (h : Living e.committed i) (hlock : e.advisory = some t) (hev : e.Evolves (conduct false).shared t e') :
    Living e'.committed i := by
  intro r hr
  have hrow := hev.rows Table.customers i
  rw [show (!e.holds t) = false by simp [hlock]] at hrow
  rw [show e'.committed Table.customers i = some r from hr] at hrow
  cases hv : e.committed Table.customers i with
  | none =>
    rw [hv] at hrow
    have harrives : Arrives false false r := hrow
    exact harrives.kept rfl rfl
  | some v =>
    rw [hv] at hrow
    have honward : Onward false false v r := hrow
    exact honward.kept rfl rfl (h v hv)

theorem Named.evolves (h : Named start e i) (hlock : e.advisory = some t) (hev : e.Evolves (conduct false).shared t e') :
    Named start e' i := fun hi => living_held (h hi) hlock hev

theorem AtCounter.evolves (h : AtCounter start t e) (hev : e.Evolves (conduct false).shared t e') : AtCounter start t e' := by
  refine ⟨(hev.version 0 (Nat.zero_le _)).trans h.begun, hev.advisory.2 h.lock, h.careful.evolves hev, fun k b hb => ?_,
    by rw [hev.pending]; exact h.tickets, by rw [hev.pending]; exact h.sessions⟩
  rw [hev.pending] at hb
  exact (h.bookings k b hb).evolves h.lock hev

theorem AtCounter.beside (h : AtCounter start t e) (hb : e'.version 0 = e.version 0) (hc : e'.committed = e.committed)
    (ha : e'.advisory = e.advisory) (hcareful : Careful start t e')
    (hp : ∀ T, T ≠ Table.customers → e'.pending t T = e.pending t T) : AtCounter start t e' := by
  refine ⟨hb.trans h.begun, ha.trans h.lock, hcareful, fun k b hb => ?_, ?_, ?_⟩
  · rw [hp _ (by decide)] at hb
    intro hi
    rw [hc]
    exact h.bookings k b hb hi
  · rw [hp _ (by decide)]
    exact h.tickets
  · rw [hp _ (by decide)]
    exact h.sessions

theorem write_besides (T : Table) (hT : T ≠ .customers) :
    (e.write t Table.customers i r).pending t T = e.pending t T :=
  Engine.write_beside hT

theorem AtCounter.respects (h : AtCounter start t e) : Respects start (e.entry t) := by
  refine ⟨fun i hi v r hv hr herased => (h.careful.above i v r hv hr).card hi herased, fun i hliving r hr herased => ?_,
    fun k b hb hi => .inl (h.bookings k b hb hi), fun k a ha _ => ?_, fun k s hs _ _ => ?_⟩
  · refine absurd ?_ herased
    cases hv : e.committed .customers i with
    | none => exact h.careful.fresh i r hv hr
    | some v => exact (h.careful.above i v r hv hr).erasedAt.trans (hliving v hv)
  · have hnone : e.pending t .tickets k = none := by rw [h.tickets]
    cases hnone.symm.trans ha
  · have hnone : e.pending t .sessions k = none := by rw [h.sessions]
    cases hnone.symm.trans hs

theorem found_named (hL : e.Lawful (conduct false).shared) (hd : ∀ d ∈ e.log, Respects start d)
    (hbegun : e.version 0 = start) (hview : e.view t .customers = e.committed .customers)
    (hfound : ((⟨e.view t, e.next⟩ : Snapshot schema).all .customers).find?
      (fun (c : Customer) => c.phone = phone.e164 ∧ c.live) = some v) :
    e.committed .customers v.id = some v ∧ Named start e v.id := by
  have hmem := List.mem_of_find?_eq_some hfound
  obtain ⟨j, -, hj⟩ := Snapshot.mem_all.1 hmem
  have hcommitted : e.committed .customers j = some v := by
    rw [← hview]
    exact hj
  have hid : v.id = j := hL.rows.id .customers j v hcommitted
  have hphone : v.phone = phone.e164 := by
    have hp := List.find?_some hfound
    exact (of_decide_eq_true hp).1
  subst hid
  refine ⟨hcommitted, fun hi u hu => ?_⟩
  cases hcommitted.symm.trans hu
  refine living_of_phone hL (by rw [hbegun]; exact hd) (by rw [hbegun]; exact hi) hcommitted fun k hk => ?_
  have hplus := phone.plus
  rw [← hphone, hk] at hplus
  simp [erasedPhone, Retention.ERASED_PHONE_PREFIX] at hplus

section Counter

variable {β : Type} {Q : Except Err β → World schema outside → Prop} {w : World schema outside}

theorem log_respects (hI : (guarding reqs start).Inv w) : ∀ d ∈ w.db.log, Respects start d := by
  intro d hd
  obtain ⟨m, hm⟩ := List.mem_iff_getElem?.1 hd
  exact hI m d hm

variable {k : Option Customer → Prg β} {existing : Option Customer}

theorem byPhone_kept (h : AtCounter start t w.db) (hnone : w.db.pending t .customers = fun _ => none)
    (hk : ∀ found w', AtCounter start t w'.db → w'.db.pending t .customers = (fun _ => none) →
      (∀ v, found = some v → w'.db.committed .customers v.id = some v ∧ Named start w'.db v.id) →
      (guarding reqs start).Ensures t (k found) Q w') :
    (guarding reqs start).Ensures t (byPhone phone.e164 >>= k) Q w := by
  refine ensures_select guarding_historic fun w1 hev hL hI _ _ => ?_
  have hcounter := h.evolves hev.db
  have hpending : w1.db.pending t .customers = fun _ => none := by rw [hev.db.pending, hnone]
  refine hk _ ⟨w1.db.look t, w1.out⟩ (hcounter.beside rfl rfl rfl (hcounter.careful.congr rfl rfl) fun _ _ => rfl) hpending
    fun v hv => ?_
  have hfound : w1.db.committed .customers v.id = some v ∧ Named start w1.db v.id :=
    found_named hL (log_respects hI) hcounter.begun (Engine.view_table fun j => by rw [hpending]) hv
  exact hfound

theorem upsert_kept {loaded : Option Customer} {name : String} {k : Customer → Prg β} (h : AtCounter start t w.db)
    (hnone : w.db.pending t .customers = fun _ => none) (herr : ∀ e w', Q (.error e) w')
    (hk : ∀ customer w', AtCounter start t w'.db → Named start w'.db customer.id →
      (guarding reqs start).Ensures t (k customer) Q w') :
    (guarding reqs start).Ensures t (upsert loaded phone.e164 name >>= k) Q w := by
  refine ensures_first (byPhone_kept h hnone fun found w1 h1 hnone1 hfound => ?_)
  cases found with
  | none =>
    refine ensures_insert guarding_historic (fun _ _ _ _ _ => herr _ _) fun w2 hev hL _ _ => ?_
    have h2 := h1.evolves hev.db
    refine hk _ _ (h2.beside rfl rfl rfl (h2.careful.insert hL) fun T hT => ?_) fun hi u hu => ?_
    · exact Engine.write_beside hT
    · have hfresh : w2.db.committed .customers w2.db.next = none := hL.committed_none_of_le (Nat.le_refl _) _
      cases hfresh.symm.trans hu
  | some row =>
    obtain ⟨hrow, hnamed⟩ := hfound row rfl
    dsimp only
    split
    · refine ensures_first (ensures_update guarding_historic (fun _ _ _ _ => herr _ _) (fun w2 hev hL _ hmiss => ?_)
        fun w2 v r hev hL hv hr _ _ _ => ?_)
      · exact ensures_orRaise (fun _ => herr _ _) fun a ha => by cases ha
      · have h2 := h1.evolves hev.db
        have hnamed2 := hnamed.evolves h1.lock hev.db
        have hview : w2.db.view t .customers = w2.db.committed .customers :=
          Engine.view_table fun j => by rw [hev.db.pending, hnone1]
        have hcommitted : w2.db.committed .customers row.id = some v := by rw [← hview, hv]
        have hcarries : Carries start row.id v r :=
          carries_apply (l := true) (g := .rename name) hr trivial fun _ hi => hnamed2 hi v hcommitted
        have hid : Customer.id r = row.id :=
          (rowId_applyChange .customers (.rename name) v r hr).trans (hL.rows.id _ _ _ hcommitted)
        refine ensures_orRaise (fun _ => herr _ _) fun a ha => ?_
        cases ha
        refine hk _ ⟨w2.db.write t Table.customers row.id r, w2.out⟩
          (h2.beside rfl rfl rfl (h2.careful.write hv hcarries) write_besides) ?_
        rw [hid]
        exact hnamed2
    · refine ensures_first (ensures_select guarding_historic fun w2 hev hL _ _ _ => ?_)
      have h2 := h1.evolves hev.db
      have hnamed2 := hnamed.evolves h1.lock hev.db
      refine ensures_orRaise (fun _ => herr _ _) fun customer hcustomer => ?_
      have hview : w2.db.view t .customers = w2.db.committed .customers :=
        Engine.view_table fun j => by rw [hev.db.pending, hnone1]
      have hcommitted : w2.db.committed .customers row.id = some customer := by
        rw [← hview]
        exact hcustomer
      have hid : customer.id = row.id := hL.rows.id .customers _ customer hcommitted
      refine hk _ ⟨w2.db.look t, w2.out⟩ (h2.beside rfl rfl rfl (h2.careful.congr rfl rfl) fun _ _ => rfl) ?_
      rw [hid]
      exact hnamed2

theorem recordConsent_kept (h : AtCounter start t w.db) (herr : ∀ e w', Q (.error e) w')
    (hk : ∀ x w', AtCounter start t w'.db → (∀ j, Named start w.db j → Named start w'.db j) →
      (guarding reqs start).Ensures t (k x) Q w') :
    (guarding reqs start).Ensures t (update .customers i (.recordMarketingConsent at_) >>= k) Q w := by
  refine ensures_update guarding_historic (fun _ _ _ _ => herr _ _) (fun w1 hev _ _ _ => ?_) fun w1 v r hev _ hv hr _ _ _ => ?_
  · exact hk _ _ (h.evolves hev.db) fun j hj => hj.evolves h.lock hev.db
  · have h1 := h.evolves hev.db
    have hkept : ∀ j, Named start w.db j → Named start w1.db j := fun j hj => hj.evolves h.lock hev.db
    refine hk _ ⟨w1.db.write t Table.customers i r, w1.out⟩ (h1.beside rfl rfl rfl (h1.careful.write hv ?_) write_besides)
      hkept
    exact carries_apply (l := true) (g := .recordMarketingConsent at_) hr trivial fun hcard => by cases hcard

theorem claimSeat_kept {customerId : Nat} {startsAt : Int} {notes : Option String} {due : Bool} {k : Booking → Prg β}
    (h : AtCounter start t w.db) (hnamed : Named start w.db customerId) (herr : ∀ e w', Q (.error e) w')
    (hk : ∀ booking w', AtCounter start t w'.db → (guarding reqs start).Ensures t (k booking) Q w') :
    (guarding reqs start).Ensures t (claimSeat customerId startsAt notes due >>= k) Q w := by
  refine ensures_first (ensures_locked guarding_historic fun w1 hev _ _ => ?_)
  have h1 : AtCounter start t ({ w1.db with advisory := some t } : Engine schema) := by
    have h1 := h.evolves hev.db
    exact h1.beside rfl rfl h1.lock.symm (h1.careful.congr rfl rfl) fun _ _ => rfl
  have hnamed1 : Named start ({ w1.db with advisory := some t } : Engine schema) customerId := by
    have hkept := hnamed.evolves h.lock hev.db
    exact hkept
  refine ensures_first (ensures_ask guarding_historic rfl fun w2 x n hev _ _ _ => ?_)
  have h2 := h1.evolves hev.db
  have hnamed2 := hnamed1.evolves h1.lock hev.db
  refine ensures_first (ensures_orRaise (fun _ => herr _ _) fun seatIndex _ => ?_)
  refine ensures_first (ensures_ask guarding_historic rfl fun w3 x n hev _ _ _ => ?_)
  have h3 := h2.evolves hev.db
  have hnamed3 := hnamed2.evolves h2.lock hev.db
  refine ensures_insert guarding_historic (fun _ _ _ _ _ => herr _ _) fun w4 hev _ _ _ => ?_
  have h4 := h3.evolves hev.db
  have hnamed4 := hnamed3.evolves h3.lock hev.db
  refine hk _ ⟨inserted w4.db t Table.bookings _, w4.out⟩ ⟨h4.begun, h4.lock, ?_, fun j b hb => ?_, ?_, ?_⟩
  · exact h4.careful.congr rfl (Engine.write_beside (by decide))
  · rcases Engine.write_pending_cases hb with ⟨-, heq, -⟩ | hb
    · cases heq
      exact hnamed4
    · exact h4.bookings j b hb
  · rw [← h4.tickets]
    exact Engine.write_beside (by decide)
  · rw [← h4.sessions]
    exact Engine.write_beside (by decide)

theorem passes_kept {k : Unit → Prg β} (Φ : Engine schema → Prop)
    (hevolve : ∀ e e', e.Evolves (conduct false).shared t e' → Φ e → Φ e') (h : Φ w.db) (herr : ∀ e w', Q (.error e) w')
    (hk : ∀ w', Φ w'.db → (guarding reqs start).Ensures t (k ()) Q w') :
    (guarding reqs start).Ensures t (passes >>= k) Q w := by
  refine ensures_first (ensures_ask guarding_historic rfl fun w1 x n hev _ _ _ => ?_)
  have h1 := hevolve _ _ hev.db h
  cases hrefusal : (outside.serve t Ask.refusal x n w1.out).1 with
  | none => exact hk _ h1
  | some e => exact herr e _

/-- A thread with nothing in flight, in a run that began at `start`. -/
structure Quiet (start : Rows schema) (t : Tid) (e : Engine schema) : Prop where
  begun : e.version 0 = start
  idle : e.pending t = fun _ _ => none

theorem Quiet.evolves (h : Quiet start t e) (hev : e.Evolves (conduct false).shared t e') : Quiet start t e' :=
  ⟨(hev.version 0 (Nat.zero_le _)).trans h.begun, hev.pending.trans h.idle⟩

theorem closes_of_respects {reply : Reply} {Φ : Engine schema → Prop}
    (hevolve : ∀ e e', e.Evolves (conduct false).shared t e' → Φ e → Φ e')
    (hrespects : ∀ w : World schema outside, w.db.Lawful (conduct false).shared →
      Unovertaken reqs t (.sql .commit) w () ⟨w.db.commit t, w.out⟩ → Φ w.db → Respects start (w.db.entry t))
    (h : Φ w.db) :
    Closes (guarding reqs start) t (fun reply => (return reply : Prg Reply)) (fun _ _ => True) (.ok reply) w := by
  intro w1 hev hL hI hA _
  exact ⟨Ledger.inv_commit hI (hrespects w1 hL hA (hevolve _ _ hev.db h)), trivial⟩

theorem replayed_kept {startsAt : Int} {k : Option Booking → Prg β} (h : AtCounter start t w.db)
    (hnone : w.db.pending t .customers = fun _ => none)
    (hk : ∀ replay w', AtCounter start t w'.db → w'.db.pending t .customers = (fun _ => none) →
      (guarding reqs start).Ensures t (k replay) Q w') :
    (guarding reqs start).Ensures t (replayed existing startsAt >>= k) Q w := by
  cases existing with
  | none => exact hk none w h hnone
  | some customer =>
    refine ensures_select guarding_historic fun w1 hev _ _ _ _ => ?_
    have h1 := h.evolves hev.db
    refine hk _ ⟨w1.db.look t, w1.out⟩ (h1.beside rfl rfl rfl (h1.careful.congr rfl rfl) fun _ _ => rfl) ?_
    rw [Engine.look_pending, hev.db.pending, hnone]

theorem fresh_kept {q : CreateBookingRequest} {txNow : Int} {due : Bool} (h : AtCounter start t w.db)
    (hnone : w.db.pending t .customers = fun _ => none) (herr : ∀ e w', Q (.error e) w') {k : Booking → Prg β}
    (hk : ∀ booking w', AtCounter start t w'.db → (guarding reqs start).Ensures t (k booking) Q w') :
    (guarding reqs start).Ensures t (do
      passes
      let customer ← upsert existing q.phone.e164 q.name
      if q.marketingConsent then do
        let _ ← update .customers customer.id (.recordMarketingConsent txNow)
        let booking ← claimSeat customer.id q.startsAt q.notes due
        k booking
      else do
        let booking ← claimSeat customer.id q.startsAt q.notes due
        k booking) Q w := by
  refine passes_kept (fun e => AtCounter start t e ∧ e.pending t .customers = fun _ => none)
    (fun _ _ hev h => ⟨h.1.evolves hev, by rw [hev.pending, h.2]⟩) ⟨h, hnone⟩ herr fun w1 h1 => ?_
  refine upsert_kept h1.1 h1.2 herr fun customer w2 h2 hnamed => ?_
  split
  · exact recordConsent_kept h2 herr fun _ w3 h3 hkept => claimSeat_kept h3 (hkept _ hnamed) herr hk
  · exact claimSeat_kept h2 hnamed herr hk

/-- **A booking made at the storefront** respects the erased, whatever comes between its statements. -/
theorem createBooking_respects (q : CreateBookingRequest) (h : Quiet start t w.db) :
    (guarding reqs start).Ensures t (createBooking q) (fun _ _ => True) w := by
  have hcloses : ∀ {w : World schema outside} {reply : Reply}, AtCounter start t w.db →
      Closes (guarding reqs start) t (fun reply => (return reply : Prg Reply)) (fun _ _ => True) (.ok reply) w :=
    closes_of_respects (fun _ _ hev h => h.evolves hev) fun _ _ _ h => h.respects
  have herr : ∀ e w', Closes (guarding reqs start) t (fun reply => (return reply : Prg Reply)) (fun _ _ => True)
      (.error e) w' := fun _ _ _ _ _ => trivial
  refine ensures_ask guarding_historic rfl fun w1 x n hev _ _ _ => ?_
  replace h := h.evolves hev.db
  refine ensures_raiseIf (fun _ => trivial) fun _ => ensures_last (ensures_tenantSession guarding_historic fun w2 txNow hev _ _ => ?_)
  replace h : Quiet start t ({ w2.db with started := Function.update w2.db.started t txNow } : Engine schema) := by
    have hquiet := h.evolves hev.db
    exact ⟨hquiet.begun, hquiet.idle⟩
  refine ensures_ask guarding_historic rfl fun w3 x n hev _ _ _ => ?_
  replace h := h.evolves hev.db
  refine ensures_raiseIf (fun _ => herr _ _) fun _ => ensures_ask guarding_historic rfl fun w4 x n hev _ _ _ => ?_
  replace h := h.evolves hev.db
  refine passes_kept (Quiet start t) (fun _ _ hev h => h.evolves hev) h herr fun w5 h => ?_
  refine ensures_ask guarding_historic rfl fun w6 x n hev _ _ _ => ?_
  replace h := h.evolves hev.db
  refine ensures_locked guarding_historic fun w7 hev _ _ => ?_
  replace h := h.evolves hev.db
  have hcounter : AtCounter start t ({ w7.db with advisory := some t } : Engine schema) := by
    have hnone : ∀ T, w7.db.pending t T = fun _ => none := fun T => by rw [h.idle]
    refine ⟨h.begun, rfl, careful_idle (hnone _), fun k b hb => ?_, hnone _, hnone _⟩
    rw [show w7.db.pending t .bookings = _ from hnone _] at hb
    cases hb
  refine byPhone_kept hcounter (by rw [show w7.db.pending t = _ from h.idle]) fun existing w8 h8 hnone8 hfound => ?_
  refine replayed_kept h8 hnone8 fun replay w9 h9 hnone9 => ?_
  split
  · split
    · exact recordConsent_kept h9 herr fun _ w' h' _ => hcloses h'
    · exact hcloses h9
  · exact fresh_kept h9 hnone9 herr fun _ w' h' => hcloses h'

end Counter

/-! ## The erasure -/

/-- **An erasure under way**: what it has in flight of the customers is her blank card, of the bookings the same
customer's, of the sessions revoked ones. -/
structure Erasing (i : Nat) (t : Tid) (e : Engine schema) : Prop where
  lock : e.advisory = some t
  customers : ∀ j (r : Customer), e.pending t .customers j = some r → j = i ∧ Blank i r ∧ Living e.committed i
  bookings : ∀ k (b : Booking), e.pending t .bookings k = some b →
    ∃ b₀ : Booking, e.committed .bookings k = some b₀ ∧ b₀.customerId = b.customerId
  tickets : e.pending t .tickets = fun _ => none
  sessions : ∀ k (s : CustomerSession), e.pending t .sessions k = some s → s.deletedAt ≠ none

theorem Erasing.evolves (h : Erasing i t e) (hev : e.Evolves (conduct false).shared t e') : Erasing i t e' := by
  refine ⟨hev.advisory.2 h.lock, fun j r hr => ?_, fun k b hb => ?_, by rw [hev.pending]; exact h.tickets, ?_⟩
  · rw [hev.pending] at hr
    obtain ⟨hj, hblank, hliving⟩ := h.customers j r hr
    exact ⟨hj, hblank, living_held hliving h.lock hev⟩
  · rw [hev.pending] at hb
    rw [hev.owned _ k b hb]
    exact h.bookings k b hb
  · rw [hev.pending]
    exact h.sessions

theorem Erasing.congr (h : Erasing i t e) (hc : e'.committed = e.committed) (ha : e'.advisory = e.advisory)
    (hp : ∀ T, T ≠ Table.auditLog → e'.pending t T = e.pending t T) : Erasing i t e' := by
  refine ⟨ha.trans h.lock, ?_, ?_, ?_, ?_⟩
  · rw [hp _ (by decide), hc]
    exact h.customers
  · rw [hp _ (by decide), hc]
    exact h.bookings
  · rw [hp _ (by decide)]
    exact h.tickets
  · rw [hp _ (by decide)]
    exact h.sessions

theorem Erasing.blank (h : Erasing i t e) (hL : e.Lawful (conduct false).shared) (hliving : Living e.committed i)
    (hv : e.view t .customers i = some v) (hr : CustomerChange.apply v (.erase at_) = some r) :
    Erasing i t (e.write t Table.customers i r) := by
  have hid : v.id = i := (hL.view_consistent t).id .customers i v hv
  refine ⟨h.lock, fun j q hq => ?_, fun k b hb => ?_, ?_, fun k s hs => ?_⟩
  · rcases Engine.write_pending_cases hq with ⟨-, heq, rfl⟩ | hq
    · cases heq
      cases hr
      exact ⟨rfl, ⟨rfl, by rw [hid], rfl, rfl⟩, hliving⟩
    · exact h.customers j q hq
  · rw [write_besides _ (by decide)] at hb
    exact h.bookings k b hb
  · rw [write_besides _ (by decide)]
    exact h.tickets
  · rw [write_besides _ (by decide)] at hs
    exact h.sessions k s hs

theorem Erasing.scrub {k : Nat} {v r : Booking} (h : Erasing i t e) (hv : e.view t .bookings k = some v)
    (hr : BookingChange.apply v .scrub = some r) : Erasing i t (e.write t Table.bookings k r) := by
  have hother : ∀ T : Table, T ≠ .bookings → (e.write t Table.bookings k r).pending t T = e.pending t T := fun T hT =>
    Engine.write_beside hT
  refine ⟨h.lock, ?_, fun j b hb => ?_, ?_, ?_⟩
  · rw [hother _ (by decide)]
    exact h.customers
  · rcases Engine.write_pending_cases hb with ⟨-, heq, rfl⟩ | hb
    · cases heq
      cases hr
      cases hp : e.pending t .bookings j with
      | none => exact ⟨v, by rw [← hv, Engine.view, Rows.over_none hp]; rfl, rfl⟩
      | some b =>
        rw [Engine.view_pending hp] at hv
        cases hv
        obtain ⟨b0, hb0, hsame⟩ := h.bookings j v hp
        exact ⟨b0, hb0, hsame⟩
    · exact h.bookings j b hb
  · rw [hother _ (by decide)]
    exact h.tickets
  · rw [hother _ (by decide)]
    exact h.sessions

theorem Erasing.revoke {k : Nat} {v r : CustomerSession} (h : Erasing i t e)
    (hr : CustomerSessionChange.apply v (.revoke at_) = some r) : Erasing i t (e.write t Table.sessions k r) := by
  have hother : ∀ T : Table, T ≠ .sessions → (e.write t Table.sessions k r).pending t T = e.pending t T := fun T hT =>
    Engine.write_beside hT
  refine ⟨h.lock, ?_, ?_, ?_, fun j s hs => ?_⟩
  · rw [hother _ (by decide)]
    exact h.customers
  · rw [hother _ (by decide)]
    exact h.bookings
  · rw [hother _ (by decide)]
    exact h.tickets
  · rcases Engine.write_pending_cases hs with ⟨-, heq, -⟩ | hs
    · cases heq
      simp only [CustomerSessionChange.apply] at hr
      split at hr <;> cases hr
      exact Option.some_ne_none at_
    · exact h.sessions j s hs

/-- **The sessions as the erasure's SELECT left them**: her live ones are on the page, and one that is no longer left is
revoked. -/
structure Revoking (i : Nat) (t : Tid) (page left : List Nat) (e : Engine schema) : Prop where
  erasing : Erasing i t e
  page : e.Page Table.sessions (fun (s : CustomerSession) => s.customerId = i ∧ s.deletedAt = none)
    (fun (s : CustomerSession) => s.deletedAt ≠ none) t page left

theorem Revoking.evolves {left : List Nat} (h : Revoking i t page left e)
    (hev : e.Evolves (conduct false).shared t e') : Revoking i t page left e' := by
  refine ⟨h.erasing.evolves hev, h.page.evolves hev fun _ r r' hlogged hrevoked => ?_⟩
  have hlogged : LoggedIn r r' := hlogged
  rw [hlogged.revoked hrevoked]
  exact hrevoked

theorem Erasing.respects (h : Erasing i t e) (hsessions : e.pending t .customers i ≠ none →
    ∀ k (s : CustomerSession), e.view t .sessions k = some s → s.customerId = i → s.deletedAt ≠ none) :
    Respects start (e.entry t) := by
  refine ⟨fun j _ v r hv hr herased => ?_, fun j _ r hr _ => ?_, fun k b hb _ => .inr (h.bookings k b hb),
    fun k a ha _ => ?_, fun k s hs _ hlive => absurd hlive (h.sessions k s hs)⟩
  · obtain ⟨rfl, -, hliving⟩ := h.customers j r hr
    exact absurd (hliving v hv) herased
  · obtain ⟨rfl, hblank, -⟩ := h.customers j r hr
    exact ⟨hblank, hsessions (by rw [show e.pending t .customers j = some r from hr]; exact Option.some_ne_none r)⟩
  · have hnone : e.pending t .tickets k = none := by rw [h.tickets]
    cases hnone.symm.trans ha

theorem Revoking.unlogged (h : Revoking i t page [] e) (hL : e.Lawful (conduct false).shared)
    (hunjoined : Unjoined e (e.seen t) i) {k : Nat} {s : CustomerSession} (hs : e.view t .sessions k = some s)
    (hcustomer : s.customerId = i) : s.deletedAt ≠ none := by
  cases hp : e.pending t .sessions k with
  | some q =>
    rw [Engine.view_pending hp] at hs
    cases hs
    exact h.erasing.sessions k _ hp
  | none =>
    rw [Engine.view, Rows.over_none hp] at hs
    intro hlive
    refine h.page.settled hL hp (fun d hd k s hs hpicked => ?_) hs ⟨hcustomer, hlive⟩ hlive
    exact hunjoined d hd k (hL.written_lt (List.mem_of_mem_drop hd) hs) s hs hpicked.1 hpicked.2

section Erasures

variable {β : Type} {Q : Except Err β → World schema outside → Prop} {w : World schema outside}

theorem record_beside {actorId entity : Option Nat} {action : AuditAction} {k : Unit → Prg β} (Φ : Engine schema → Prop)
    (hevolve : ∀ e e', e.Evolves (conduct false).shared t e' → Φ e → Φ e')
    (hcongr : ∀ e e', e'.committed = e.committed → e'.advisory = e.advisory → e'.log = e.log → e'.seen = e.seen →
      (∀ T, T ≠ Table.auditLog → e'.pending t T = e.pending t T) → Φ e → Φ e')
    (h : Φ w.db) (herr : ∀ e w', Q (.error e) w')
    (hk : ∀ w', Φ w'.db → (guarding reqs start).Ensures t (k ()) Q w') :
    (guarding reqs start).Ensures t (record actorId entity action >>= k) Q w := by
  refine ensures_first (ensures_insert guarding_historic (fun _ _ _ _ _ => herr _ _) fun w1 hev _ _ _ => ?_)
  refine hk _ (hcongr w1.db _ rfl rfl rfl rfl (fun T hT => ?_) (hevolve _ _ hev.db h))
  exact Engine.write_beside hT

theorem Revoking.congr {left : List Nat} (hc : e'.committed = e.committed) (ha : e'.advisory = e.advisory)
    (hl : e'.log = e.log) (hs : e'.seen = e.seen) (hp : ∀ T, T ≠ Table.auditLog → e'.pending t T = e.pending t T)
    (h : Revoking i t page left e) : Revoking i t page left e' :=
  ⟨h.erasing.congr hc ha hp, h.page.congr hl hc (by rw [hs]) (hp _ (by decide))⟩

theorem revoke_kept {k : List CustomerSession → Prg β} (h : Erasing i t w.db)
    (hnone : w.db.pending t .sessions = fun _ => none) (herr : ∀ e w', Q (.error e) w')
    (hk : ∀ rs page w', Revoking i t page [] w'.db → (guarding reqs start).Ensures t (k rs) Q w') :
    (guarding reqs start).Ensures t (select .liveSessions (fun s => matching s .sessions fun (r : CustomerSession) =>
      r.customerId = i ∧ r.deletedAt = none) >>= fun sessions => updateEach .sessions (.revoke at_) sessions >>= k) Q w := by
  refine ensures_select guarding_historic fun w1 hev hL _ _ _ => ?_
  have hnone1 : w1.db.pending t .sessions = fun _ => none := by rw [hev.db.pending, hnone]
  have hrevoking : ∀ page, page = matching (⟨w1.db.view t, w1.db.next⟩ : Snapshot schema) .sessions
      (fun (r : CustomerSession) => r.customerId = i ∧ r.deletedAt = none) → Revoking i t page page (w1.db.look t) :=
    fun page hpage => ⟨(h.evolves hev.db).congr rfl rfl fun _ _ => rfl,
      Engine.page_look hL hnone1 (fun _ h => decide_eq_true h) hpage⟩
  refine ensures_updateLeft guarding_historic
    (fun left (w : World schema outside) => Revoking i t (matching (⟨w1.db.view t, w1.db.next⟩ : Snapshot schema) .sessions
      (fun (r : CustomerSession) => r.customerId = i ∧ r.deletedAt = none)) left w.db)
    (fun left w w' hev _ _ h => h.evolves hev.db) (fun j left w h hL hmiss => ⟨h.erasing, h.page.skip hmiss fun s hs hlive => ?_⟩)
    (fun j left w v r h _ hv hr => ⟨h.erasing.revoke hr, h.page.write⟩)
    (fun _ _ _ => herr _ _) (fun rs w' h' => hk rs _ w' h') _ ⟨w1.db.look t, w1.out⟩ [] (hrevoking _ rfl)
  have hs : CustomerSessionChange.apply s (.revoke at_) = none := hs
  rw [CustomerSessionChange.apply, if_pos hlive] at hs
  cases hs

theorem scrubs_kept {k : List Booking → Prg β} (h : Erasing i t w.db)
    (hnone : w.db.pending t .sessions = fun _ => none) (herr : ∀ e w', Q (.error e) w')
    (hk : ∀ rs w', Erasing i t w'.db → w'.db.pending t .sessions = (fun _ => none) →
      (guarding reqs start).Ensures t (k rs) Q w') (is : List Nat) :
    (guarding reqs start).Ensures t (updateEach .bookings .scrub is >>= k) Q w := by
  refine ensures_updateRows guarding_historic
    (fun _ (w : World schema outside) => Erasing i t w.db ∧ w.db.pending t .sessions = fun _ => none)
    (fun _ w w' hev _ _ h => ⟨h.1.evolves hev.db, by rw [hev.db.pending, h.2]⟩) (fun _ w j v r h _ hv hr => ?_)
    (fun _ _ _ => herr _ _) ⟨h, hnone⟩ fun rs w' h' => hk rs w' h'.1 h'.2
  refine ⟨h.1.scrub hv hr, ?_⟩
  rw [← h.2]
  exact Engine.write_beside (by decide)

theorem eraseSubject_respects (customerId : Nat) (reason : Option String) (actorId : Nat)
    (herases : (reqs t).erases = true) (h : w.db.pending t = fun _ _ => none) :
    (guarding reqs start).Ensures t (eraseSubject customerId reason actorId) (fun _ _ => True) w := by
  have herr : ∀ e w', Closes (guarding reqs start) t (fun reply => (return reply : Prg Reply)) (fun _ _ => True)
      (.error e) w' := fun _ _ _ _ _ => trivial
  refine ensures_ask guarding_historic rfl fun w1 x n hev _ _ _ => ?_
  replace h := hev.db.pending.trans h
  refine ensures_raiseIf (fun _ => trivial) fun _ => ensures_ask guarding_historic rfl fun w2 x n hev _ _ _ => ?_
  replace h := hev.db.pending.trans h
  refine ensures_last (ensures_tenantSession guarding_historic fun w3 txNow hev _ _ => ?_)
  replace h := hev.db.pending.trans h
  refine ensures_locked guarding_historic fun w4 hev _ _ => ?_
  replace h : ∀ T, w4.db.pending t T = fun _ => none := fun T => congrFun (hev.db.pending.trans h) T
  have hlocked : Erasing customerId t ({ w4.db with advisory := some t } : Engine schema) := by
    refine ⟨rfl, fun j r hr => ?_, fun k b hb => ?_, h _, fun k s hs => ?_⟩
    · rw [show w4.db.pending t .customers = _ from h _] at hr
      cases hr
    · rw [show w4.db.pending t .bookings = _ from h _] at hb
      cases hb
    · rw [show w4.db.pending t .sessions = _ from h _] at hs
      cases hs
  refine ensures_select guarding_historic fun w5 hev hL _ _ _ => ?_
  replace h : ∀ T, w5.db.pending t T = fun _ => none := fun T => by rw [hev.db.pending]; exact h T
  have hlook : Erasing customerId t (w5.db.look t) := (hlocked.evolves hev.db).congr rfl rfl fun _ _ => rfl
  refine ensures_orRaise (fun _ => herr _ _) fun customer hfound => ?_
  split
  · -- erased before: the call is noted, and writes no customer
    refine record_beside (fun e => Erasing customerId t e ∧ e.pending t .customers = fun _ => none)
      (fun _ _ hev h => ⟨h.1.evolves hev, by rw [hev.pending, h.2]⟩)
      (fun _ _ hc ha _ _ hp h => ⟨h.1.congr hc ha hp, by rw [hp _ (by decide), h.2]⟩) ⟨hlook, h _⟩ herr fun w' h' => ?_
    refine closes_of_respects (Φ := fun e => Erasing customerId t e ∧ e.pending t .customers = fun _ => none)
      (fun _ _ hev h => ⟨h.1.evolves hev, by rw [hev.pending, h.2]⟩) (fun w _ _ h => ?_) h'
    exact h.1.respects fun hpending => absurd (by rw [h.2]) hpending
  · rename_i hnot
    have hliving : Living (w5.db.look t).committed customerId := by
      intro v hv
      obtain ⟨hview, -⟩ := Option.filter_eq_some_iff.1 hfound
      have hcommitted : w5.db.committed .customers customerId = some customer := by
        rw [← Engine.view_table fun j => by rw [h]]
        exact hview
      cases hcommitted.symm.trans hv
      simpa using hnot
    refine ensures_select guarding_historic fun w6 hev _ _ _ _ => ?_
    have hlook6 : Erasing customerId t (w6.db.look t) := (hlook.evolves hev.db).congr rfl rfl fun _ _ => rfl
    have hliving6 : Living (w6.db.look t).committed customerId := by
      have hkept := living_held hliving hlook.lock hev.db
      exact hkept
    have hnone6 : (w6.db.look t).pending t .sessions = fun _ => none := by
      rw [Engine.look_pending, hev.db.pending]
      exact h _
    refine ensures_raiseIf (fun _ => herr _ _) fun _ => ?_
    -- her card is blanked, or is not there; then her bookings, her logins and the note
    have hrest : ∀ w' : World schema outside, Erasing customerId t w'.db → w'.db.pending t .sessions = (fun _ => none) →
        (guarding reqs start).Ensures t (do
          let hers ← select .bookingIds fun s => matching s .bookings fun (b : Booking) => b.customerId = customerId
          let scrubbed ← updateEach .bookings .scrub hers
          let sessions ← select .liveSessions fun s => matching s .sessions fun (r : CustomerSession) =>
            r.customerId = customerId ∧ r.deletedAt = none
          let _ ← updateEach .sessions (.revoke txNow) sessions
          record (some actorId) (some customerId) (.privacySubjectErased reason scrubbed.length false)
          return .erased false scrubbed.length) (Closes (guarding reqs start) t
            (fun reply => (return reply : Prg Reply)) (fun _ _ => True)) w' := by
      intro w' h' hnone'
      refine ensures_select guarding_historic fun w7 hev _ _ _ _ => ?_
      refine scrubs_kept (w := ⟨w7.db.look t, w7.out⟩) ((h'.evolves hev.db).congr rfl rfl fun _ _ => rfl) ?_ herr
        (fun rs w8 h8 hnone8 => ?_) _
      · rw [Engine.look_pending, hev.db.pending, hnone']
      refine revoke_kept h8 hnone8 herr fun _ page w9 h9 => ?_
      refine record_beside (fun e => Revoking customerId t page [] e) (fun _ _ hev h => h.evolves hev)
        (fun _ _ hc ha hl hs hp h => h.congr hc ha hl hs hp) h9 herr fun w' h' => ?_
      refine closes_of_respects (fun _ _ hev h => Revoking.evolves h hev) (fun w hL hA h => ?_) h'
      refine h.erasing.respects fun hpending k s hs hcustomer => ?_
      obtain ⟨r, hr⟩ := Option.ne_none_iff_exists'.1 hpending
      exact h.unlogged hL (hA.2 customerId (hL.owned_lt t _ customerId r hr) herases hpending) hs hcustomer
    refine ensures_update guarding_historic (fun _ _ _ _ => herr _ _) (fun w7 hev _ _ _ => ?_) fun w7 v r hev hL hv hr _ _ _ => ?_
    · exact hrest w7 (hlook6.evolves hev.db) (by rw [hev.db.pending]; exact hnone6)
    · refine hrest ⟨w7.db.write t Table.customers customerId r, w7.out⟩
        ((hlook6.evolves hev.db).blank hL (living_held hliving6 hlook6.lock hev.db) hv hr) ?_
      rw [write_besides _ (by decide), hev.db.pending]
      exact hnone6

end Erasures

/-! ## Whole runs -/

theorem run_respects (h : Shelved rows next) (hscrubs : ∀ t, (reqs t).scrubs = false)
    (hr : Conf.Steps (Unovertaken reqs) (serving settings reqs rows next clock) c) :
    c.state.db.Lawful (conduct false).shared ∧ c.state.db.version 0 = rows ∧ ∀ d ∈ c.state.db.log, Respects rows d := by
  have hob : Cast.Obeyed (conduct false).shared (serving settings reqs rows next clock) :=
    serving_obeyed h fun t ht => by rw [hscrubs t] at ht; cases ht
  have hsafe : ∀ t p, (serving settings reqs rows next clock).threads t = some p →
      (guarding reqs rows).logic.Safe t p (fun _ _ => True) (serving settings reqs rows next clock).state := by
    intro t p hp
    cases hp
    refine safe_of_ensures (Q := fun _ _ => True) ?_ fun _ _ _ _ _ _ _ => trivial
    have hwithin := within_request settings (reqs t)
    rw [hscrubs t] at hwithin
    change (guarding reqs rows).Ensures t ((reqs t).code settings) _ _
    cases hlocks : (reqs t).locksFirst with
    | false =>
      refine unlocked_respects hlocks ?_ (careful_idle rfl)
      rwa [show (reqs t).erases = false by cases hq : reqs t <;> rw [hq] at hlocks <;> first | rfl | cases hlocks]
        at hwithin
    | true =>
      cases hq : reqs t with
      | createBooking q => exact createBooking_respects q ⟨by simp [serving, staged, atRest, Engine.version], rfl⟩
      | eraseSubject customerId reason actorId =>
        exact eraseSubject_respects customerId reason actorId (by rw [hq]; rfl) rfl
      | _ =>
        rw [hq] at hlocks
        cases hlocks
  obtain ⟨hsound, hL⟩ := (guarding reqs rows).runs (Q := fun _ _ _ => True) hob
    (by simp [Ledger.contract, serving, staged, atRest]) hsafe hr
  exact ⟨hL, (hob.history hr).2 0 (Nat.le_refl 0), log_respects hsound.inv.2⟩

/-- **An erased record stays erased**: in every run in which no erasure is overtaken, from the commit that erases her on her
card is blank and no login of hers is live, and every booking and every ticket that points at her was there at the erasure. -/
theorem erasure_stands (h : Shelved rows next) (hscrubs : ∀ t, (reqs t).scrubs = false)
    (hr : Conf.Steps (Unovertaken reqs) (serving settings reqs rows next clock) c) :
    ∀ (m : Nat) (d : Commit schema) (i n : Nat), c.state.db.log[m]? = some d → Erases d i → m + 1 ≤ n →
      n ≤ c.state.db.log.length → Stands (c.state.db.version n) i ∧
      (∀ k (b : Booking), c.state.db.version n .bookings k = some b → b.customerId = i →
        ∃ b₀ : Booking, c.state.db.version (m + 1) .bookings k = some b₀ ∧ b₀.customerId = i) ∧
      ∀ k (a : AlterationTicket), c.state.db.version n .tickets k = some a → a.customerId = i →
        c.state.db.version (m + 1) .tickets k = some a := by
  obtain ⟨hL, hstart, hrespects⟩ := run_respects h hscrubs hr
  intro m d i n hentry herases hmn hn
  exact stands_later hL (by rw [hstart]; exact hrespects) hentry herases hmn hn

/-! ## An intake, overtaken -/

def noasPhone : Mobile := ⟨"+972501234567", rfl⟩

def onlyNoa : (T : Table) → List (Row T)
  | .customers => [(⟨0, 0, none, noasPhone.e164, "Noa", none, [], none, none, none, none⟩ : Customer)]
  | _ => []

theorem onlyNoa_shelved : Shelved (listed (S := schema) onlyNoa) 1 :=
  shelved_of_stocked [.customers, .bookings, .tickets, .sessions, .auditLog] (fun T => by cases T <;> decide)
    (by decide)

def intakeAndErasure : Tid → Request
  | 0 => .createTicket ⟨noasPhone, "Noa Levi", 100, 60, none⟩ 7
  | _ => .eraseSubject 0 none 7

def erasedFirst (e : Engine schema) : Bool :=
  e.log[0]?.any fun d => decide (Living d.before 0 ∧ ((d.writes Table.customers 0).bind Customer.erasedAt).isSome = true)

theorem erases_first (h : erasedFirst e = true) : ∃ d, e.log[0]? = some d ∧ Erases d 0 := by
  unfold erasedFirst at h
  cases hlog : e.log[0]? with
  | none =>
    rw [hlog] at h
    cases h
  | some d =>
    rw [hlog] at h
    obtain ⟨hliving, hwrites⟩ := of_decide_eq_true h
    obtain ⟨at_, hat⟩ := Option.isSome_iff_exists.1 hwrites
    obtain ⟨r, hr, hr'⟩ := Option.bind_eq_some_iff.1 hat
    exact ⟨d, rfl, hliving, r, hr, by rw [hr']; exact Option.some_ne_none at_⟩

/-- **The intake has found her before the erasure commits**, and writes her name over it. -/
theorem erasure_overtaken : ∃ c,
    (serving Retention.shipped intakeAndErasure (listed (S := schema) onlyNoa) 1 10).Reaches c ∧
    ∃ d : Commit schema, c.state.db.log[0]? = some d ∧ Erases d 0 ∧ ¬ Stands c.state.db.committed 0 := by
  obtain ⟨c, hc, hP⟩ := Conf.reached_freely (serving Retention.shipped intakeAndErasure (listed (S := schema) onlyNoa) 1 10)
    (calls 0 5 ++ calls 1 11 ++ calls 0 6)
    (fun c => erasedFirst c.state.db && decide ((c.state.db.committed .customers 0).map Customer.name = some "Noa Levi"))
    (by decide)
  obtain ⟨herased, hname⟩ := Bool.and_eq_true_iff.1 hP
  obtain ⟨d, hd, herases⟩ := erases_first herased
  refine ⟨c, hc, d, hd, herases, fun h => ?_⟩
  obtain ⟨r, hr, -, hblank⟩ := h.card
  have hname := of_decide_eq_true hname
  rw [hr, Option.map_some, hblank.name] at hname
  exact absurd hname (by decide)

/-- Erased before the intake has looked for her, she stands erased. -/
theorem erasure_stands_once : ∃ c, Conf.Steps (Unovertaken intakeAndErasure)
      (serving Retention.shipped intakeAndErasure (listed (S := schema) onlyNoa) 1 10) c ∧
    Stands c.state.db.committed 0 := by
  obtain ⟨c, hc, hP⟩ := Conf.reached_of_play (A := Unovertaken intakeAndErasure)
    (serving Retention.shipped intakeAndErasure (listed (S := schema) onlyNoa) 1 10) (calls 0 3 ++ calls 1 11)
    (fun c => erasedFirst c.state.db) (by decide)
  obtain ⟨d, hd, herases⟩ := erases_first hP
  have hscrubs : ∀ t, (intakeAndErasure t).scrubs = false := fun t => by cases t <;> rfl
  have hlast : 0 + 1 ≤ c.state.db.log.length := (List.getElem?_eq_some_iff.1 hd).1
  obtain ⟨hstands, -, -⟩ := erasure_stands onlyNoa_shelved hscrubs hc 0 d 0 _ hd herases hlast (Nat.le_refl _)
  rw [Engine.version_length] at hstands
  exact ⟨c, hc, hstands⟩

end Subjects
