import Boutique.Ownership
import Boutique.Traces
import Boutique.TxnAlone
/-!
# LastOwner — a boutique keeps an owner, and a refused request leaves nothing

Who takes ownership away has counted the owners with the lock, and nobody else takes any away before it commits.  What is
refused is refused before its commit; a photo that is turned away is the exception.
-/
namespace Staff

open Txn Session Contract

variable {cfg : Config} {reqs : Tid → Request} {t : Tid} {w w' : World schema outside} {e e' : Engine schema}
  {i : Nat} {actor : StaffContext} {K : List Kind} {l : Bool}

/-! ## The ledger -/

/-- **The boutique has an owner**, and she has not left. -/
def HasOwner (R : Rows schema) : Prop :=
  ∃ i, ∃ u : StaffUser, R .staffUsers i = some u ∧ u.role = .owner ∧ u.live = true

def SameAccount (v r : StaffUser) : Prop := r.role = v.role ∧ r.deletedAt = v.deletedAt

def Request.actorId : Request → Option Nat
  | .create _ _ _ _ _ _ _ actor | .update _ _ _ actor | .deactivate _ _ actor | .startBreak _ actor | .endBreak _ actor
  | .raiseSos _ _ _ actor | .acceptSos _ actor | .resolveSos _ actor | .cancelSos _ actor => some actor.id
  | .presignPhoto _ _ _ actorId | .confirmPhoto _ actorId | .deletePhoto _ actorId => some actorId
  | .postPhoto .. => none

/-- **A commit keeps an owner**, and leaves the role and the account of who asks as they are. -/
structure Kept (asks : Option Nat) (d : Commit schema) : Prop where
  owner : HasOwner d.before → HasOwner d.after
  self_ : ∀ i ∈ asks, ∀ v r : StaffUser, d.before .staffUsers i = some v → d.writes .staffUsers i = some r → SameAccount v r

theorem Trace.kept {I : Nat → Prop} {P : StaffUser → StaffUser → Prop} {d : Commit schema} (h : Trace K I P d)
    (hP : ∀ v r, P v r → SameAccount v r) (asks : Option Nat) : Kept asks d := by
  have hsame : ∀ i (v r : StaffUser), d.before .staffUsers i = some v → d.writes .staffUsers i = some r → SameAccount v r := by
    intro i v r hv hr
    rcases h.staff i r hr with ⟨-, u, hu, hur⟩ | ⟨-, hnone, -⟩
    · rw [hv] at hu
      cases hu
      exact hP v r hur
    · rw [hv] at hnone
      cases hnone
  refine ⟨?_, fun i _ => hsame i⟩
  rintro ⟨i, u, hu, howner, hlive⟩
  cases hw : d.writes .staffUsers i with
  | none => exact ⟨i, u, by rw [Commit.after, Rows.over_none hw]; exact hu, howner, hlive⟩
  | some r =>
    obtain ⟨hrole, hdeleted⟩ := hsame i u r hu hw
    exact ⟨i, r, by rw [Commit.after, Rows.over_some hw], hrole.trans howner, by simpa [StaffUser.live, hdeleted] using hlive⟩

abbrev kept (reqs : Tid → Request) : Ledger schema where
  Holds _ _ d := Kept (reqs d.by_).actorId d
  stable _ _ _ _ _ _ _ h := h

abbrev keeping (reqs : Tid → Request) : Contract conduct.shared outside Err :=
  (kept reqs).contract conduct.shared fun _ _ _ _ _ => True

theorem keeping_historic : (keeping reqs).Historic fun _ => true := (kept reqs).historic _

variable {E : Err → Prop}

section Sessions

variable {α β : Type} {I : Nat → Prop} {P : StaffUser → StaffUser → Prop} {Q : Except Err β → World schema outside → Prop}
  {L : List (Commit schema)}

/-- A thread with nothing in flight, whose commits so far are `L`. -/
structure Rested (t : Tid) (L : List (Commit schema)) (e : Engine schema) : Prop where
  idle : e.pending t = fun _ _ => none
  own : e.own t = L

theorem Rested.evolves (h : Rested t L e) (hev : e.Evolves conduct.shared t e') : Rested t L e' :=
  ⟨hev.pending.trans h.idle, hev.since.own.trans h.own⟩

theorem rested_bind {p : Prg α} {k : α → Prg β} (hp : Within (Among [.erase]) false p) (hE : Raising E p)
    (h : Rested t L w.db) (herr : ∀ e w', E e → Rested t L w'.db → Q (.error e) w')
    (hk : ∀ a w', Rested t L w'.db → (keeping reqs).Ensures t (k a) Q w') :
    (keeping reqs).Ensures t (p >>= k) Q w := by
  have hstretch : (keeping reqs).Ensures t p (fun _ w' => Rested t L w'.db) w :=
    ensures_last (reads_bind (k := pure) (Q := fun _ w' => Rested t L w'.db) keeping_historic (Rested t L)
      (fun _ _ hev h => h.evolves hev) (fun _ _ hl _ hp h => ⟨hp.trans h.idle, by rw [Engine.own, hl]; exact h.own⟩) hp h
      (fun _ _ h => h) fun _ _ h => h)
  refine ensures_bind (ensures_mono (fun x w' hx => ?_) (ensures_ends hE hstretch))
  cases x with
  | ok a => exact hk a w' hx.2
  | error e => exact herr e w' (hx.1 e rfl) hx.2

/-- **A transaction of some kinds**: refused, it leaves nothing; else its commit is of these kinds. -/
theorem trace_session {body : Int → Prg α} {k : α → Prg β} (hs : .session ∉ K) (hf : .forge ∉ K) (hP : Changing K P)
    (hsame : ∀ v r, P v r → SameAccount v r) (hbody : ∀ n, Within (Among K) false (body n))
    (hI : ∀ n, Only (Upon I) (body n)) (hE : ∀ n, Raising E (body n)) (h : Rested t L w.db)
    (herr : ∀ e w', E e → Rested t L w'.db → Q (.error e) w')
    (hk : ∀ a w' d, Rested t (L ++ [d]) w'.db → Trace K I P d → (keeping reqs).Ensures t (k a) Q w') :
    (keeping reqs).Ensures t (tenantSession body >>= k) Q w := by
  refine ensures_tenantSession keeping_historic fun w1 n hev1 _ _ => ?_
  have h1 := h.evolves hev1.db
  refine ensures_mono (fun x w2 hx => ?_) (ensures_ends (hE n) (ensures_of_uses
    (fun _ w => Trace K I P (w.db.entry t) ∧ w.db.own t = L)
    (fun _ _ _ hev h => ⟨h.1.evolves hev.db, hev.db.since.own.trans h.2⟩)
    (fun l o w x r w' ho hL hI h he hL' hA => ?_) (within_and (hbody n) (hI n false)) ⟨trace_idle h1.idle, h1.own⟩))
  · obtain ⟨hE, -, -, htrace, hown⟩ := hx
    cases x with
    | error e =>
      intro w3 hev _
      exact herr e _ (hE e rfl) ⟨Engine.release_pending_self, hev.db.since.own.trans hown⟩
    | ok a =>
      intro w3 hev _ hI3 _ _
      have htrace3 := htrace.evolves hev.db
      refine ⟨Ledger.inv_commit hI3 (htrace3.kept hsame _), hk a _ _ ⟨Engine.commit_pending_self, ?_⟩ htrace3⟩
      rw [Engine.commit_own, hev.db.since.own, hown]
  · have hcommit := (ho.1.not_session hs).1
    have hlog := World.exec_log hcommit he
    exact ⟨keeping_historic.exec hcommit (fun _ _ => rfl) he hI, h.1.step hP hs hf hL ho.1 ho.2 he,
      by rw [Engine.own, hlog.1]; exact h.2⟩

end Sessions

/-! ## Under the staff lock -/

def OtherOwner (R : Rows schema) (i : Nat) : Prop :=
  ∃ j, j ≠ i ∧ ∃ u : StaffUser, R .staffUsers j = some u ∧ u.role = .owner ∧ u.live = true

/-- **A row may be written so**: it keeps role and account, or no owner goes with it. -/
structure Spares (asks : Option Nat) (R : Rows schema) (i : Nat) (v r : StaffUser) : Prop where
  owner : SameAccount v r ∨ v.role ≠ .owner ∨ OtherOwner R i
  self_ : ∀ j ∈ asks, j = i → SameAccount v r

/-- **A thread with the lock**, and at most one row of the staff in flight, that may be written so. -/
structure Ready (asks : Option Nat) (L : List (Commit schema)) (t : Tid) (W : Work StaffUser) (e : Engine schema) : Prop where
  own : e.own t = L
  lock : e.advisory = some t
  work : e.AtWork t Table.staffUsers W
  spares : ∀ i v r, W = some (i, v, r) → ∃ u, v = some u ∧ Spares asks e.committed i u r

section Ready

variable {α β : Type} {asks : Option Nat} {L : List (Commit schema)} {W : Work StaffUser}
  {Q : Except Err β → World schema outside → Prop}

theorem OtherOwner.evolves (h : OtherOwner e.committed i) (hlock : e.advisory = some t)
    (hev : e.Evolves conduct.shared t e') : OtherOwner e'.committed i := by
  obtain ⟨j, hj, u, hu, howner, hlive⟩ := h
  have hrow := hev.rows .staffUsers j
  rw [hu, Engine.holds_iff.2 hlock] at hrow
  obtain ⟨u', hu', hstays⟩ := hrow.some_left
  have hstays : Stays false u u' := hstays
  refine ⟨j, hj, u', hu', (hstays.role rfl).trans howner, ?_⟩
  simpa [StaffUser.live, hstays.account rfl] using hlive

theorem Ready.evolves (h : Ready asks L t W e) (hev : e.Evolves conduct.shared t e') : Ready asks L t W e' := by
  refine ⟨hev.since.own.trans h.own, hev.advisory.2 h.lock, h.work.evolves hev, fun i v r hW => ?_⟩
  obtain ⟨u, hu, hspares⟩ := h.spares i v r hW
  exact ⟨u, hu, hspares.owner.imp id (Or.imp id fun ho => ho.evolves h.lock hev), hspares.self_⟩

theorem Ready.kept (h : Ready asks L t W e) : Kept asks (e.entry t) := by
  refine ⟨?_, fun j hj v r hv hr => ?_⟩
  · rintro ⟨j, u, hu, howner, hlive⟩
    cases hw : (e.entry t).writes .staffUsers j with
    | none => exact ⟨j, u, by rw [Commit.after, Rows.over_none hw]; exact hu, howner, hlive⟩
    | some r =>
      obtain ⟨v, hW, hbefore⟩ := h.work.entry hw
      obtain ⟨u', rfl, hspares⟩ := h.spares j v r hW
      have huu : u = u' := Option.some.inj (hu.symm.trans hbefore)
      subst huu
      have hafter : (e.entry t).after .staffUsers j = some r := by rw [Commit.after, Rows.over_some hw]
      rcases hspares.owner with ⟨hrole, hdeleted⟩ | hnot | ⟨k, hk, o, ho, hoowner, holive⟩
      · exact ⟨j, r, hafter, hrole.trans howner, by simpa [StaffUser.live, hdeleted] using hlive⟩
      · exact absurd howner hnot
      · refine ⟨k, o, ?_, hoowner, holive⟩
        have hother : (e.entry t).writes .staffUsers k = none := by
          show e.pending t .staffUsers k = none
          rw [h.work.pending, hW]
          simp [Work.overlay, hk]
        rw [Commit.after, Rows.over_none hother]
        exact ho
  · obtain ⟨v', hW, hbefore⟩ := h.work.entry hr
    obtain ⟨u, rfl, hspares⟩ := h.spares j v' r hW
    have hvu : v = u := Option.some.inj (hv.symm.trans hbefore)
    subst hvu
    exact hspares.self_ j hj rfl

theorem ready_bind {p : Prg α} {k : α → Prg β} (hs : .session ∉ K) (hks : ∀ k ∈ K, k.touches .staffUsers = false)
    (hp : Within (Among K) true p) (h : Ready asks L t W w.db) (herr : ∀ e w', w'.db.own t = L → Q (.error e) w')
    (hk : ∀ a w', Ready asks L t W w'.db → (keeping reqs).Ensures t (k a) Q w') :
    (keeping reqs).Ensures t (p >>= k) Q w := by
  refine ensures_bind (ensures_mono (fun x w' hx => ?_) (ensures_of_uses (fun _ w => Ready asks L t W w.db)
    (fun _ _ _ hev h => h.evolves hev.db) (fun l o w i r w' ho hL hI h he hL' hA => ?_) hp h))
  · obtain ⟨-, -, hx⟩ := hx
    cases x with
    | ok a => exact hk a w' hx
    | error e => exact herr e w' hx.own
  · have hcommit := (ho.not_session hs).1
    have hlog := World.exec_log hcommit he
    have hsince : w.db.Since conduct.shared t w'.db := World.since_exec (ho.inside hs) he
    have hpending : w'.db.pending t .staffUsers = w.db.pending t .staffUsers := by
      refine World.exec_pending (ho.inside hs) ?_ ?_ he
      · rintro j g rfl
        obtain ⟨k, hk⟩ := kind_update .staffUsers j g
        exact absurd (update_touches hk) (by simp [hks k (ho k hk).1])
      · rintro q rfl
        obtain ⟨k, hk⟩ := kind_insert .staffUsers q
        exact absurd (insert_touches hk) (by simp [hks k (ho k hk).1])
    refine ⟨keeping_historic.exec hcommit (fun _ _ => rfl) he hI, ?_, hsince.advisory h.lock, h.work.congr hlog.2 hpending,
      fun i v r hW => ?_⟩
    · rw [Engine.own, hlog.1]
      exact h.own
    · rw [hlog.2]
      exact h.spares i v r hW

structure Watching (L : List (Commit schema)) (t : Tid) (i : Nat) (target : StaffUser) (e : Engine schema) : Prop where
  rested : Rested t L e
  lock : e.advisory = some t
  id : target.id = i
  row : ∃ u : StaffUser, e.committed .staffUsers i = some u ∧ SameAccount target u

variable {target : StaffUser}

theorem Watching.evolves (h : Watching L t i target e) (hev : e.Evolves conduct.shared t e') : Watching L t i target e' := by
  obtain ⟨u, hu, hrole, hdeleted⟩ := h.row
  have hrow := hev.rows .staffUsers i
  rw [hu, Engine.holds_iff.2 h.lock] at hrow
  obtain ⟨u', hu', hstays⟩ := hrow.some_left
  have hstays : Stays false u u' := hstays
  exact ⟨h.rested.evolves hev, hev.advisory.2 h.lock, h.id, u', hu', (hstays.role rfl).trans hrole,
    (hstays.account rfl).trans hdeleted⟩

def Covered (leaving : Bool) (target : StaffUser) (R : Rows schema) (i : Nat) : Prop :=
  leaving = false ∨ target.role ≠ .owner ∨ OtherOwner R i

variable {leaving : Bool}

theorem Covered.evolves (h : Covered leaving target e.committed i) (hlock : e.advisory = some t)
    (hev : e.Evolves conduct.shared t e') : Covered leaving target e'.committed i :=
  h.imp id (Or.imp id fun ho => ho.evolves hlock hev)

theorem watching_bind {p : Prg α} {k : α → Prg β} (hp : Within (Among [.erase]) true p)
    (h : Watching L t i target w.db) (hc : Covered leaving target w.db.committed i)
    (herr : ∀ e w', w'.db.own t = L → Q (.error e) w')
    (hk : ∀ a w', Watching L t i target w'.db → Covered leaving target w'.db.committed i →
      (keeping reqs).Ensures t (k a) Q w') : (keeping reqs).Ensures t (p >>= k) Q w := by
  refine ensures_bind (ensures_mono (fun x w' hx => ?_) (ensures_of_uses
    (fun _ w => Watching L t i target w.db ∧ Covered leaving target w.db.committed i)
    (fun _ _ _ hev h => ⟨h.1.evolves hev.db, h.2.evolves h.1.lock hev.db⟩)
    (fun l o w i r w' ho hL hI h he hL' hA => ?_) hp ⟨h, hc⟩))
  · obtain ⟨-, -, hx, hc⟩ := hx
    cases x with
    | ok a => exact hk a w' hx hc
    | error e => exact herr e w' hx.rested.own
  · have hspares := ho.sparing
    have hlog := World.exec_log hspares.not_commit he
    have hsince : w.db.Since conduct.shared t w'.db := World.since_exec hspares.inside he
    refine ⟨keeping_historic.exec hspares.not_commit (fun _ _ => rfl) he hI, ⟨⟨?_, ?_⟩, hsince.advisory h.1.lock, h.1.id, ?_⟩, ?_⟩
    · rw [funext fun T => hspares.pending he (T := T) trivial]
      exact h.1.rested.idle
    · rw [Engine.own, hlog.1]
      exact h.1.rested.own
    · rw [hlog.2]
      exact h.1.row
    · rw [hlog.2]
      exact h.2

theorem read_locked {k : StaffUser → Prg β} (h : Rested t L w.db)
    (herr : ∀ e w', w'.db.own t = L → Q (.error e) w')
    (hk : ∀ target w', Watching L t i target w'.db → (keeping reqs).Ensures t (k target) Q w') :
    (keeping reqs).Ensures t (do
      staffLock
      let found ← StaffUsers.byId i
      let target ← orRaise found (.notFound .staffUser)
      k target) Q w := by
  refine ensures_locked keeping_historic fun w1 hev1 hL1 _ => ensures_select keeping_historic fun w2 hev2 hL2 _ _ _ => ?_
  have h1 := h.evolves hev1.db
  have h2 : Rested t L w2.db := (⟨h1.idle, h1.own⟩ : Rested t L { w1.db with advisory := some t }).evolves hev2.db
  refine ensures_orRaise (fun _ => herr _ _ h2.own) fun target ht => ?_
  have hread : w2.db.view t .staffUsers i = some target := (Option.filter_eq_some_iff.1 ht).1
  rw [Engine.view_idle h2.idle] at hread
  exact hk _ _ ⟨⟨h2.idle, h2.own⟩, hev2.db.advisory.2 rfl, hL2.rows.id _ _ _ hread, target, hread, rfl, rfl⟩

theorem other_of_count {s : Snapshot schema} {p : StaffUser → Bool} (h : 1 < (s.all .staffUsers).countP p) (i : Nat) :
    ∃ j, j ≠ i ∧ ∃ u : StaffUser, s.rows .staffUsers j = some u ∧ p u = true := by
  rw [Snapshot.all, countP_filterMap_range] at h
  obtain ⟨j, hj, hji⟩ := Finset.exists_mem_ne h i
  obtain ⟨u, hu, hp⟩ := (Option.any_eq_true _ _).1 (Finset.mem_filter.1 hj).2
  exact ⟨j, hji, u, hu, hp⟩

theorem guard_locked {k : Unit → Prg β} (h : Watching L t i target w.db)
    (herr : ∀ e w', w'.db.own t = L → Q (.error e) w')
    (hk : ∀ w', Watching L t i target w'.db → Covered leaving target w'.db.committed i →
      (keeping reqs).Ensures t (k ()) Q w') :
    (keeping reqs).Ensures t (guardLastOwner leaving target >>= k) Q w := by
  unfold guardLastOwner
  split
  · refine ensures_first (ensures_select keeping_historic fun w1 hev _ _ _ _ => ?_)
    have h1 := h.evolves hev.db
    refine ensures_raiseIf (fun _ => herr _ _ h1.rested.own) fun hmany => hk ⟨_, w1.out⟩
      ⟨⟨h1.rested.idle, h1.rested.own⟩, h1.lock, h1.id, h1.row⟩ (.inr (.inr ?_))
    simp only [decide_eq_false_iff_not, Nat.not_le] at hmany
    obtain ⟨j, hj, u, hu, howner⟩ := other_of_count hmany i
    rw [Engine.view_idle h1.rested.idle] at hu
    exact ⟨j, hj, u, hu, by simpa using howner⟩
  · rename_i hcalm
    refine hk w h ?_
    by_cases hleaving : leaving = true
    · exact .inr (.inl fun howner => hcalm ⟨hleaving, howner⟩)
    · exact .inl (by simpa using hleaving)

theorem write_locked {g : StaffUserChange} {k : Option StaffUser → Prg β} (h : Watching L t i target w.db)
    (hc : Covered leaving target w.db.committed i) (herr : ∀ e w', w'.db.own t = L → Q (.error e) w')
    (hstay : leaving = false → ∀ v r, StaffUserChange.apply v g = some r → SameAccount target v → SameAccount v r)
    (hself : ∀ j ∈ asks, j = i → leaving = false)
    (hk : ∀ x W w', Ready asks L t W w'.db → (keeping reqs).Ensures t (k x) Q w') :
    (keeping reqs).Ensures t (update .staffUsers i g >>= k) Q w := by
  refine ensures_updateFirst keeping_historic (Engine.atWork_none (by rw [h.rested.idle]))
    (fun w1 hev => herr _ _ (h.evolves hev.db).rested.own) (fun w1 hev _ _ _ => ?_) fun w1 v r hev _ hv hr _ hwork => ?_
  · have h1 := h.evolves hev.db
    exact hk _ none _ ⟨h1.rested.own, h1.lock, Engine.atWork_none (by rw [h1.rested.idle]), fun i v r hW => by cases hW⟩
  · have h1 := h.evolves hev.db
    have hc1 := hc.evolves h.lock hev.db
    obtain ⟨u, hu, hsame⟩ := h1.row
    rw [hv] at hu
    cases hu
    refine hk _ (some (i, some v, r)) _ ⟨h1.rested.own, h1.lock, hwork, fun j v' r' hW => ?_⟩
    cases hW
    refine ⟨v, rfl, ?_, fun j hj hji => hstay (hself j hj hji) v r hr hsame⟩
    rcases hc1 with hleaving | howner | hother
    · exact .inl (hstay hleaving v r hr hsame)
    · exact .inr (.inl (by rw [hsame.1]; exact howner))
    · exact .inr (.inr hother)

end Ready

/-! ## The verbs -/

theorem raising_deleteEach : ∀ keys : List PhotoKey, Raising E (deleteEach keys)
  | [] => raising_ret _
  | _ :: keys => raising_bind (raising_ask _) fun _ => raising_deleteEach keys

def Unsigned (v r : StaffUser) : Prop :=
  r = { v with photoPendingKey := none, photoPendingContentType := none, photoPendingAt := none }

def Repending (v r : StaffUser) : Prop :=
  r = { v with
    photoPendingKey := r.photoPendingKey
    photoPendingContentType := r.photoPendingContentType
    photoPendingAt := r.photoPendingAt }

/-- **What a refused request may leave in a commit of its own**: a rejected upload, a pending triple cleared; a form that
could not be signed, a pending triple moved and what was recorded of it; any other request, nothing. -/
def Residue : Request → Err → Commit schema → Prop
  | .confirmPhoto staffId _, .mediaMismatch _, d => Trace [.unsign] (fun i => i = staffId) Unsigned d
  | .presignPhoto staffId _ _ _, .media _, d | .presignPhoto staffId _ _ _, .integrity, d =>
    Trace [.pending, .unsign, .note] (fun i => i = staffId) Repending d
  | _, _, d => d.writes = fun _ _ => none

def Request.administers : Request → Bool
  | .create .. | .update .. | .deactivate .. | .presignPhoto .. | .confirmPhoto .. | .deletePhoto .. | .postPhoto .. => true
  | _ => false

/-- **A refused request has left no more than that.** -/
def Settled (reqs : Tid → Request) (t : Tid) (x : Except Err Response) (w : World schema outside) : Prop :=
  ∀ e, x = .error e → (reqs t).administers = true → ∀ d ∈ w.db.own t, Residue (reqs t) e d

theorem changing_account (he : Kind.edit ∉ K) (hl : Kind.leave ∉ K) : Changing K SameAccount := by
  refine ⟨fun g v r k hk hmem hr => ?_, fun a b c hab hbc => ⟨hbc.1.trans hab.1, hbc.2.trans hab.2⟩⟩
  cases g with
  | flush moves =>
    cases hk
    exact absurd hmem he
  | softDelete now lastDay =>
    cases hk
    exact absurd hmem hl
  | startBreak | endBreak | setPendingPhoto | promotePendingPhoto | clearPhoto | resetPassword =>
    simp only [StaffUserChange.apply] at hr
    split at hr <;> cases hr
    exact ⟨rfl, rfl⟩

theorem changing_unsigned : Changing [.unsign] Unsigned := by
  refine ⟨fun g v r k hk hmem hr => ?_, fun a b c hab hbc => ?_⟩
  · have hk' := List.mem_singleton.1 hmem
    subst hk'
    cases g with
    | setPendingPhoto storageKey contentType at_ =>
      simp only [StaffUserChange.apply] at hr
      split at hr <;> cases hr
      cases storageKey <;> cases contentType <;> cases at_ <;> first | rfl | cases hk
    | flush | startBreak | endBreak | promotePendingPhoto | clearPhoto | softDelete | resetPassword => cases hk
  · unfold Unsigned at *
    rw [hbc, hab]

theorem changing_repending : Changing [.pending, .unsign, .note] Repending := by
  refine ⟨fun g v r k hk hmem hr => ?_, fun a b c hab hbc => ?_⟩
  · cases g with
    | setPendingPhoto storageKey contentType at_ =>
      simp only [StaffUserChange.apply] at hr
      split at hr <;> cases hr
      rfl
    | flush | startBreak | endBreak | promotePendingPhoto | clearPhoto | softDelete | resetPassword =>
      cases hk
      simp at hmem
  · unfold Repending at *
    rw [hbc, hab]

theorem Unsigned.account {v r : StaffUser} (h : Unsigned v r) : SameAccount v r := by
  cases h
  exact ⟨rfl, rfl⟩

theorem Unsigned.repending {v r : StaffUser} (h : Unsigned v r) : Repending v r := by
  cases h
  rfl

theorem Repending.account {v r : StaffUser} (h : Repending v r) : SameAccount v r := by
  unfold Repending at h
  rw [h]
  exact ⟨rfl, rfl⟩

section Verbs

variable {α : Type} {L : List (Commit schema)} {d : Commit schema}

theorem settled_ok {r : Response} : Settled reqs t (.ok r) w := fun e he => by cases he

variable {x : Except Err Response} {asks : Option Nat} {actorId : Nat}

theorem settled_none (h : Rested t [] w.db) : Settled reqs t x w := by
  intro e _ _ d hd
  rw [h.own] at hd
  cases hd

theorem residue_silent {r : Request} {e : Err} (h : d.writes = fun _ _ => none) : Residue r e d := by
  have htrace : ∀ {K I P}, Trace K I P d := fun {K I P} => by
    refine ⟨fun i r hr => ?_, fun T _ => by rw [h]⟩
    rw [h] at hr
    cases hr
  unfold Residue
  split <;> first | exact htrace | exact h

theorem tail_settled {p : Prg Response} (hp : Within (Among [.erase]) false p) (hE : Raising (fun _ => False) p) (h : Rested t L w.db) :
    (keeping reqs).Ensures t p (Settled reqs t) w := by
  refine ensures_last (rested_bind hp hE h (fun _ _ he _ => he.elim) fun r _ _ => ?_)
  exact settled_ok

def Locked (asks : Option Nat) (L : List (Commit schema)) (t : Tid) : Except Err α → World schema outside → Prop
  | .ok _, w => ∃ W, Ready asks L t W w.db
  | .error _, w => w.db.own t = L

theorem locked_session {body : Int → Prg α} {k : α → Prg Response} (h : Rested t [] w.db)
    (hbody : ∀ w1 n, Rested t [] w1.db →
      (keeping reqs).Ensures t (body n) (Locked (reqs t).actorId [] t) w1)
    (hk : ∀ a w' d, Rested t [d] w'.db → (keeping reqs).Ensures t (k a) (Settled reqs t) w') :
    (keeping reqs).Ensures t (tenantSession body >>= k) (Settled reqs t) w := by
  refine ensures_tenantSession keeping_historic fun w1 n hev _ _ => ?_
  have h1 := h.evolves hev.db
  refine ensures_mono (fun x w2 hx => ?_) (hbody _ n ⟨h1.idle, h1.own⟩)
  cases x with
  | error e =>
    intro w3 hev3 _
    exact settled_none ⟨Engine.release_pending_self, hev3.db.since.own.trans hx⟩
  | ok a =>
    obtain ⟨W, hW⟩ := hx
    intro w3 hev3 _ hI _ _
    have h3 := hW.evolves hev3.db
    refine ⟨Ledger.inv_commit hI h3.kept, hk a _ (w3.db.entry t) ⟨Engine.commit_pending_self, ?_⟩⟩
    rw [Engine.commit_own, h3.own]
    rfl

theorem Watching.ready {target : StaffUser} (h : Watching L t i target w.db) : Ready asks L t none w.db :=
  ⟨h.rested.own, h.lock, Engine.atWork_none (by rw [h.rested.idle]), fun i v r hW => by cases hW⟩

theorem updateIn_locked {patch : StaffPatch} {stored hash acting : Option String} {txNow : Int}
    (hasks : ∀ j ∈ asks, j = actor.id) (h : Rested t L w.db) :
    (keeping reqs).Ensures t (updateIn i patch stored hash acting actor txNow) (Locked asks L t) w := by
  have hfail : ∀ e (w' : World schema outside), w'.db.own t = L → Locked asks L t (.error e : Except Err Response) w' :=
    fun _ _ h => h
  refine read_locked h hfail fun target w1 h1 => ensures_raiseIf (fun _ => h1.rested.own) fun hself => ?_
  refine guard_locked h1 hfail fun w2 h2 hc2 => ?_
  refine watching_bind (steady_checkCurrentPassword _ _ _).within h2 hc2 hfail fun _ w3 h3 hc3 => ?_
  dsimp only
  split
  · exact ⟨none, h3.ready⟩
  refine ensures_first (ensures_first (watching_bind (steady_query _ _).within h3 hc3 hfail fun row w4 h4 hc4 => ?_))
  have hdone : ∀ (updated : Option StaffUser) W (w' : World schema outside), Ready asks L t W w'.db →
      (keeping reqs).Ensures t (do
        let row ← orRaise updated (.notFound .staffUser)
        recordEach actor.id i (movedActions target stored (movesOf target patch stored hash))
        if hash.isSome then do
          endSessions i actor.id (decide (target.id = actor.id)) acting txNow
          return .staff row
        else return .staff row) (Locked asks L t : Except Err Response → World schema outside → Prop) w' := by
    intro updated W w' h'
    refine ensures_orRaise (fun _ => h'.own) fun row _ => ?_
    refine ready_bind (K := [.note]) (by decide) (by decide)
      (steady_recordEach _ _ _ fun a ha => by simp [movedActions_kind _ _ _ a ha]).within h' hfail fun _ w5 h5 => ?_
    split
    · exact ready_bind (K := [.revoke, .note]) (by decide) (by decide) (steady_endSessions (by decide) (by decide) _ _ _ _ _).within
        h5 hfail fun _ w6 h6 => ⟨W, h6⟩
    · exact ⟨W, h5⟩
  cases row with
  | none => exact hdone none none w4 h4.ready
  | some r =>
    rename_i hmoves
    show (keeping reqs).Ensures t ((if _ then _ else _) >>= _) _ _
    rw [if_neg hmoves]
    refine ensures_first (write_locked h4 hc4 hfail (fun hleaving v r hr _ => ?_) (fun j hj hji => ?_)
      fun x W w5 (h5 : Ready asks L t W w5.db) => ?_)
    · have hstays : (movesOf target patch stored hash).role = none := by
        cases hrole : patch.role with
        | none => simp [movesOf, hrole]
        | some role => simpa [movesOf, hrole] using hleaving
      cases hr
      exact ⟨by simp [hstays], rfl⟩
    · have hisSelf : target.id = actor.id := by rw [h4.id, ← hji, hasks j hj]
      simpa [hisSelf] using hself
    · refine ensures_first (ensures_raiseIf (fun _ => h5.own) fun _ => ?_)
      exact ready_bind (K := []) (by decide) (by decide) (steady_query _ _).within h5 hfail fun updated w6 h6 =>
        hdone updated W w6 h6

theorem deactivateIn_locked {lastDay : Option Int} {txNow : Int} (hasks : ∀ j ∈ asks, j = actor.id)
    (h : Rested t L w.db) :
    (keeping reqs).Ensures t (deactivateIn cfg i lastDay actor txNow) (Locked asks L t) w := by
  have hfail : ∀ e (w' : World schema outside), w'.db.own t = L → Locked asks L t (.error e : Except Err (List PhotoKey)) w' :=
    fun _ _ h => h
  refine read_locked h hfail fun target w1 h1 => ensures_raiseIf (fun _ => h1.rested.own) fun hself => ?_
  refine guard_locked h1 hfail fun w2 h2 hc2 => ?_
  refine watching_bind steady_clock.within h2 hc2 hfail fun clock w3 h3 hc3 => ?_
  refine watching_bind (steady_liftExcept _).within h3 hc3 hfail fun leaving w4 h4 hc4 => ?_
  refine ensures_first (write_locked h4 hc4 hfail (fun hleaving => by cases hleaving) (fun j hj hji => ?_)
    fun x W w5 (h5 : Ready asks L t W w5.db) => ?_)
  · have hisSelf : target.id = actor.id := by rw [h4.id, ← hji, hasks j hj]
    simp [hisSelf] at hself
  · show (keeping reqs).Ensures t (record _ _ _ >>= _) _ _
    exact ready_bind (K := [.note]) (by decide) (by decide) (steady_record (by simp [AuditAction.kind]) _ _).within h5 hfail
      fun _ w6 h6 => ⟨W, h6⟩

theorem updateStaff_settled {patch : StaffPatch} {acting : Option String} (hreq : reqs t = .update i patch acting actor)
    (h : Rested t [] w.db) : (keeping reqs).Ensures t (updateStaff i patch acting actor) (Settled reqs t) w := by
  refine rested_bind (steady_liftExcept _).within (raising_any _) h (fun _ _ _ h => settled_none h) fun stored w1 h1 => ?_
  refine rested_bind (E := fun _ => True) ?_ (raising_any _) h1 (fun _ _ _ h => settled_none h) fun hash w2 h2 => ?_
  · cases patch.password with
    | none => exact (steady_ret _).within
    | some password => exact ((steady_question _ rfl).bind fun _ => steady_ret _).within
  · refine ensures_last (locked_session h2 (fun w3 n h3 => updateIn_locked (fun j hj => ?_) h3) fun a w3 d _ => settled_ok)
    rw [hreq] at hj
    exact (Option.some.inj hj).symm

theorem deactivate_settled {lastDay : Option Int} (hreq : reqs t = .deactivate i lastDay actor)
    (h : Rested t [] w.db) : (keeping reqs).Ensures t (deactivate cfg i lastDay actor) (Settled reqs t) w := by
  refine locked_session h (fun w1 n h1 => deactivateIn_locked (fun j hj => ?_) h1) fun keys w1 d h1 => ?_
  · rw [hreq] at hj
    exact (Option.some.inj hj).symm
  · exact tail_settled ((steady_deleteEach (by decide) _).bind fun _ => steady_ret _).within
      (raising_bind (raising_deleteEach _) fun _ => raising_ret _) h1

theorem create_settled {email displayName : String} {role : StaffRole} {password : String} {phone : Option String}
    {startDate : Option Int} {eligible : Bool} (h : Rested t [] w.db) :
    (keeping reqs).Ensures t (create cfg email displayName role password phone startDate eligible actor)
      (Settled reqs t) w := by
  refine rested_bind (steady_liftExcept _).within (raising_any _) h (fun _ _ _ h => settled_none h) fun stored w1 h1 => ?_
  refine rested_bind (steady_question _ rfl).within (raising_any _) h1 (fun _ _ _ h => settled_none h) fun hash w2 h2 => ?_
  refine ensures_attempt (ensures_last (trace_session (K := [.hire, .note]) (I := fun _ => True) (by decide) (by decide)
    (changing_account (by decide) (by decide)) (fun _ _ h => h) (fun n => (steady_createIn _ _ _ _ _ _ _ _).within)
    (fun n => upon_all _) (fun n => raising_any _) h2 (fun e w3 _ h3 => ?_) fun a w3 d _ _ => settled_ok))
  · cases e <;> exact settled_none h3

theorem deletePhoto_settled (h : Rested t [] w.db) :
    (keeping reqs).Ensures t (deletePhoto i actorId) (Settled reqs t) w := by
  refine rested_bind (steady_question _ rfl).within (raising_any _) h (fun _ _ _ h => settled_none h) fun configured w1 h1 =>
    ensures_raiseIf (fun _ => settled_none h1) fun _ => ?_
  refine trace_session (K := [.clear, .note]) (I := fun _ => True) (by decide) (by decide) (changing_account (by decide) (by decide))
    (fun _ _ h => h) (fun n => within_deletePhotoIn _ _) (fun n => upon_all _)
    (fun n => raising_any _) h1 (fun e w2 _ h2 => settled_none h2)
    fun a w2 d h2 _ => ?_
  exact tail_settled ((steady_deleteEach (by decide) _).bind fun _ => steady_ret _).within
    (raising_bind (raising_deleteEach _) fun _ => raising_ret _) h2

theorem upon_unsign (staffId : Nat) : Only (Upon fun i => i = staffId) (StaffUsers.setPendingPhoto staffId none none none) :=
  only_bind (only_update (fun j g h => by cases h; rfl) _) fun _ => only_ret _

theorem upon_rejectIn (staffId : Nat) (key : PhotoKey) : Only (Upon fun i => i = staffId) (rejectIn staffId key) := by
  refine only_bind upon_lock fun _ => only_bind (upon_query _) fun current => ?_
  split
  · exact only_bind (upon_unsign _) fun _ => only_ret _
  · exact only_ret _

theorem upon_presignIn (staffId photoId : Nat) (contentType : String) (byteSize : Int) (actorId : Nat) :
    Only (Upon fun i => i = staffId) (presignIn staffId photoId contentType byteSize actorId) := by
  refine only_bind upon_lock fun _ => only_bind (upon_query _) fun found => only_bind (only_orRaise _ _) fun target => ?_
  refine only_bind (upon_liftExcept _) fun storageKey => ?_
  refine only_bind (only_now fun j g h => by cases h) fun at_ => ?_
  refine only_bind (only_bind (only_update (fun j g h => by cases h; rfl) _) fun _ => only_ret _) fun _ => ?_
  exact only_bind (only_bind (only_insert (fun j g h => by cases h) _) fun _ => only_ret _) fun _ => only_ret _

theorem rejectPhoto_settled {key : PhotoKey} {k : α → Prg Response} (hreq : reqs t = .confirmPhoto i actorId)
    (h : Rested t [d] w.db) (hd : d.writes = fun _ _ => none) :
    (keeping reqs).Ensures t (rejectPhoto i key >>= k) (Settled reqs t) w := by
  refine ensures_first (trace_session (K := [.unsign]) (by decide) (by decide) changing_unsigned (fun _ _ h => h.account)
    (fun n => within_rejectIn (by decide) _ _) (fun n => upon_rejectIn _ _) (fun n => raising_any _) h
    (fun e w1 _ h1 => ?_) fun a w1 d1 h1 htrace => ?_)
  · intro e' he _ c hc
    rw [h1.own, List.mem_singleton] at hc
    subst hc
    exact residue_silent hd
  · refine ensures_first (rested_bind (E := fun _ => False) (steady_deleteEach (by decide) _).within (raising_deleteEach _) h1
      (fun _ _ he => he.elim) fun _ w2 h2 => ?_)
    intro e he _ c hc
    cases he
    rw [h2.own] at hc
    rcases List.mem_append.1 hc with hc | hc
    · rw [List.mem_singleton.1 hc]
      exact residue_silent hd
    · rw [List.mem_singleton.1 hc, hreq]
      exact htrace

theorem settled_silent (h : Rested t [d] w.db) (hd : d.writes = fun _ _ => none) : Settled reqs t x w := by
  intro e _ _ c hc
  rw [h.own, List.mem_singleton] at hc
  subst hc
  exact residue_silent hd

theorem checkUpload_settled {key : PhotoKey} {type : String} {k : Unit → Prg Response}
    (hreq : reqs t = .confirmPhoto i actorId) (h : Rested t [d] w.db) (hd : d.writes = fun _ _ => none)
    (hk : ∀ w', Rested t [d] w'.db → (keeping reqs).Ensures t (k ()) (Settled reqs t) w') :
    (keeping reqs).Ensures t (checkUpload i key type >>= k) (Settled reqs t) w := by
  refine ensures_first (rested_bind (steady_question _ rfl).within (raising_any _) h (fun _ _ _ h => settled_silent h hd)
    fun answer w1 h1 => ensures_first (rested_bind (steady_liftMedia _).within (raising_any _) h1
      (fun _ _ _ h => settled_silent h hd) fun found w2 h2 =>
        ensures_first (ensures_orRaise (fun _ => settled_silent h2 hd) fun head _ => ?_)))
  split
  · exact rejectPhoto_settled hreq h2 hd
  · refine ensures_first (rested_bind (steady_question _ rfl).within (raising_any _) h2 (fun _ _ _ h => settled_silent h hd)
      fun answer w3 h3 => ensures_first (rested_bind (steady_liftMedia _).within (raising_any _) h3
        (fun _ _ _ h => settled_silent h hd) fun start w4 h4 => ?_))
    split
    · exact rejectPhoto_settled hreq h4 hd
    · exact hk w4 h4

theorem confirmPhoto_settled (hreq : reqs t = .confirmPhoto i actorId) (h : Rested t [] w.db) :
    (keeping reqs).Ensures t (confirmPhoto i actorId) (Settled reqs t) w := by
  refine rested_bind (steady_question _ rfl).within (raising_any _) h (fun _ _ _ h => settled_none h) fun configured w1 h1 =>
    ensures_raiseIf (fun _ => settled_none h1) fun _ => ?_
  refine trace_session (K := []) (I := fun _ => True) (by decide) (by decide) changing_none (fun _ _ h => h.elim)
    (fun n => ((steady_query _ _).bind fun found => steady_orRaise _ _).within) (fun n => upon_all _)
    (fun n => raising_any _) h1 (fun e w2 _ h2 => settled_none h2) fun target w2 d h2 htrace => ?_
  have hd := silent_of_trace htrace
  split
  · refine checkUpload_settled hreq h2 hd fun w3 h3 => ?_
    refine trace_session (K := [.promote, .note]) (I := fun _ => True) (by decide) (by decide)
      (changing_account (by decide) (by decide)) (fun _ _ h => h) (fun n => within_promoteIn _ _ _) (fun n => upon_all _)
      (fun n => raising_any _) h3 (fun e w4 _ h4 => settled_silent h4 hd) fun a w4 d' h4 _ => ?_
    exact tail_settled ((steady_deleteEach (by decide) _).bind fun _ => steady_ret _).within
      (raising_bind (raising_deleteEach _) fun _ => raising_ret _) h4
  · exact settled_ok

theorem presignPhoto_settled {contentType : String} {byteSize : Int}
    (hreq : reqs t = .presignPhoto i contentType byteSize actorId) (h : Rested t [] w.db) :
    (keeping reqs).Ensures t (presignPhoto i contentType byteSize actorId) (Settled reqs t) w := by
  refine rested_bind (steady_question _ rfl).within (raising_any _) h (fun _ _ _ h => settled_none h) fun blocked w1 h1 =>
    ensures_raiseIf (fun _ => settled_none h1) fun _ => ?_
  refine rested_bind (steady_liftExcept _).within (raising_any _) h1 (fun _ _ _ h => settled_none h) fun _ w2 h2 => ?_
  refine rested_bind (steady_question _ rfl).within (raising_any _) h2 (fun _ _ _ h => settled_none h) fun configured w3 h3 =>
    ensures_raiseIf (fun _ => settled_none h3) fun _ => ?_
  refine rested_bind (steady_question _ rfl).within (raising_any _) h3 (fun _ _ _ h => settled_none h) fun photoId w4 h4 => ?_
  refine trace_session (K := [.pending, .note]) (by decide) (by decide) (changing_repending.mono (by decide))
    (fun _ _ h => h.account) (fun n => within_presignIn _ _ _ _ _) (fun n => upon_presignIn _ _ _ _ _)
    (fun n => raising_any _) h4 (fun e w5 _ h5 => settled_none h5) fun signedFor w5 d h5 htrace => ?_
  refine rested_bind (steady_question _ rfl).within (raising_ask _) h5 (fun _ _ he _ => (he : False).elim) fun _ w6 h6 => ?_
  refine rested_bind (steady_deleteEach (by decide) _).within (raising_deleteEach _) h6 (fun _ _ he _ => (he : False).elim) fun _ w7 h7 => ?_
  refine rested_bind (steady_question _ rfl).within (raising_ask _) h7 (fun _ _ he _ => (he : False).elim) fun signed w8 h8 => ?_
  cases signed with
  | ok _ => exact settled_ok
  | error e =>
    have hd : Trace [.pending, .unsign, .note] (fun i' => i' = i) Repending d := htrace.mono (by decide) fun _ _ h => h
    refine trace_session (E := fun e => e = .integrity) (K := [.unsign]) (by decide) (by decide) changing_unsigned
      (fun _ _ h => h.account) (fun n => (steady_unsign (by decide) _).within) (fun n => upon_unsign _)
      (fun n => raising_bind (raising_update (E := fun e => e = Err.integrity) rfl _ _ _) fun _ => raising_ret _) h8 (fun e' w9 he h9 => ?_)
      fun _ w9 d' h9 htrace' => ?_
    · subst he
      intro e' he' _ c hc
      cases he'
      rw [h9.own, List.nil_append, List.mem_singleton] at hc
      rw [hc, hreq]
      exact hd
    · have hd' : Trace [.pending, .unsign, .note] (fun i' => i' = i) Repending d' :=
        htrace'.mono (by decide) fun _ _ h => h.repending
      intro e' he' _ c hc
      cases he'
      rw [h9.own, List.nil_append] at hc
      rw [hreq]
      rcases List.mem_append.1 hc with hc | hc
      · rw [List.mem_singleton.1 hc]
        exact hd
      · rw [List.mem_singleton.1 hc]
        exact hd'

end Verbs

/-! ## Whole runs -/

theorem aside_kept {p : Prg Response} (hs : .session ∉ K) (hf : .forge ∉ K) (he : .edit ∉ K) (hl : .leave ∉ K)
    (hp : Within (Among (.session :: K)) false p) (h : w.db.pending t = fun _ _ => none) :
    (keeping reqs).Ensures t p (fun _ _ => True) w := by
  refine ensures_mono (fun _ _ _ => trivial) (ensures_of_uses
    (fun _ w => Trace K (fun _ => True) SameAccount (w.db.entry t))
    (fun _ _ _ hev h => h.evolves hev.db) (fun l o w x r w' ho hL hI h hexec hL' hA => ?_) hp (trace_idle h))
  by_cases hcommit : o = .sql .commit
  · subst hcommit
    cases hexec
    exact ⟨Ledger.inv_commit hI (h.kept (fun _ _ h => h) _), trace_idle Engine.commit_pending_self⟩
  refine ⟨keeping_historic.exec hcommit (fun _ _ => rfl) hexec hI, ?_⟩
  by_cases habort : o = .sql .abort
  · subst habort
    cases hexec
    exact trace_idle Engine.release_pending_self
  by_cases hbegin : o = .sql .begin
  · subst hbegin
    cases hexec
    exact h
  exact h.step (changing_account he hl) hs hf hL (ho.tail hbegin hcommit habort) (fun _ _ _ => trivial) hexec

def floorKinds : List Kind := [.breaks, .raise, .accept, .close, .note, .breakNote, .acceptNote, .resolveNote]

section Runs

variable {out : Store} {rows : Rows schema} {next : Nat} {clock : Int} {c : Conf (machine schema outside Err) Response}

theorem request_settled (h : Rested t [] w.db) :
    (keeping reqs).Ensures t ((reqs t).code cfg) (Settled reqs t) w := by
  have haside : (reqs t).administers = false → (∀ k ∈ (reqs t).kinds, k ∈ Kind.session :: floorKinds) →
      (keeping reqs).Ensures t ((reqs t).code cfg) (Settled reqs t) w := by
    intro hfloor hkinds
    refine ensures_mono (fun x w' _ e he hadmin => ?_) (aside_kept (K := floorKinds) (by decide) (by decide) (by decide) (by decide)
      ((within_request cfg (reqs t)).mono fun _ _ ho => ho.mono hkinds) h.idle)
    rw [hfloor] at hadmin
    cases hadmin
  cases hreq : reqs t with
  | create email displayName role password phone startDate eligible actor => exact create_settled h
  | update staffId patch acting actor => exact updateStaff_settled hreq h
  | deactivate staffId lastDay actor => exact deactivate_settled hreq h
  | presignPhoto staffId contentType byteSize actorId => exact presignPhoto_settled hreq h
  | confirmPhoto staffId actorId => exact confirmPhoto_settled hreq h
  | deletePhoto staffId actorId => exact deletePhoto_settled h
  | postPhoto key contentType body =>
    exact tail_settled ((within_postPhoto _ _ _).mono fun _ _ ho => ho.mono (by decide)) (raising_bind (raising_ask _) fun _ => raising_ret _) h
  | startBreak | endBreak | raiseSos | acceptSos | resolveSos | cancelSos =>
    rw [hreq] at haside
    exact haside rfl (by simp [Request.kinds, floorKinds])

/-- **A boutique keeps an owner**: in every run from rows with one, every state has one; nobody changes her own role or her
own account; and a refused request of the administration has left its residue and nothing else. -/
theorem last_owner_kept (h : Shelved rows next) (howner : HasOwner rows)
    (hr : (serving cfg reqs out rows next clock).Reaches c) :
    HasOwner c.state.db.committed ∧
    (∀ d ∈ c.state.db.log, ∀ i, (reqs d.by_).actorId = some i → ∀ v r : StaffUser, d.before .staffUsers i = some v →
      d.writes .staffUsers i = some r → r.role = v.role ∧ r.deletedAt = v.deletedAt) ∧
    ∀ t e, c.threads t = some (.raise e) → (reqs t).administers = true → ∀ d ∈ c.state.db.log, d.by_ = t →
      Residue (reqs t) e d := by
  have hob : Cast.Obeyed conduct.shared (serving cfg reqs out rows next clock) := serving_obeyed h
  have hL := (hob.steps hr).1.lawful
  have hsafe : ∀ t p, (serving cfg reqs out rows next clock).threads t = some p →
      (keeping reqs).logic.Safe t p (Settled reqs t) (serving cfg reqs out rows next clock).state := by
    intro t p hp
    cases hp
    refine safe_of_ensures (request_settled ⟨rfl, rfl⟩) fun x w w' hx hev _ _ e he hadmin d hd => hx e he hadmin d ?_
    rwa [hev.db.since.own] at hd
  obtain ⟨hsound, -⟩ := (keeping reqs).runs (Q := Settled reqs) hob
    (by simp [Ledger.contract, serving, staged, atRest]) hsafe hr
  have hkept : ∀ d ∈ c.state.db.log, Kept (reqs d.by_).actorId d := by
    intro d hd
    obtain ⟨m, hm⟩ := List.mem_iff_getElem?.1 hd
    exact hsound.inv.2 m d hm
  refine ⟨?_, fun d hd i hi v r hv hw => (hkept d hd).self_ i hi v r hv hw, fun t e ht hadmin d hd hby => ?_⟩
  · have hstart : c.state.db.version 0 = rows := (hob.history hr).2 0 (Nat.le_refl 0)
    have hall := hL.version_induction (P := HasOwner) (by rw [hstart]; exact howner) fun m d hd _ _ hbefore =>
      (hkept d (List.mem_of_getElem? hd)).owner hbefore
    have hlast := hall _ (Nat.le_refl _)
    rwa [Engine.version_length] at hlast
  · exact hsound.raised ht e rfl hadmin d (List.mem_filter.2 ⟨hd, by simpa using hby⟩)

end Runs

/-! ## Two owners, and a photo that is none -/

def twoOwners : (T : Table) → List (Row T)
  | .staffUsers => [
    (⟨0, 0, none, "a@shop", "", "Noa", .owner, none, none, none, none, false, none, none, none, none, none, none⟩ : StaffUser),
    (⟨1, 0, none, "b@shop", "", "Rut", .owner, none, none, none, none, false, none, none, none, some ⟨1, 0, ".png"⟩,
      some "image/png", some 0⟩ : StaffUser)]
  | _ => []

theorem twoOwners_shelved : Shelved (listed (S := schema) twoOwners) 2 :=
  shelved_of_stocked [.staffUsers, .sessions, .sosAlerts, .auditLog, .notifications] (fun T => by cases T <;> decide)
    (by decide)

theorem twoOwners_owner : HasOwner (listed (S := schema) twoOwners) := ⟨0, _, rfl, rfl, rfl⟩

def eachOther : Tid → Request
  | 0 => .deactivate 1 none ⟨0, .owner⟩
  | _ => .deactivate 0 none ⟨1, .owner⟩

/-- One goes; the other one stays, and her own removal of the first is refused. -/
theorem last_owner_stays : ∃ c, (serving plainConfig eachOther emptyStore (listed (S := schema) twoOwners) 2 0).Reaches c ∧
    c.threads 1 = some (.raise .lastOwnerRequired) ∧ c.state.db.log.length = 1 ∧ HasOwner c.state.db.committed ∧
    ∀ d ∈ c.state.db.log, d.by_ = 1 → d.writes = fun _ _ => none := by
  obtain ⟨c, hc, hP⟩ := Conf.reached_freely (serving plainConfig eachOther emptyStore (listed (S := schema) twoOwners) 2 0)
    (answered 1 1 ++ answered 0 9 ++ answered 1 4)
    (fun c => decide (c.failure 1 = some .lastOwnerRequired ∧ c.state.db.log.length = 1)) (by decide)
  obtain ⟨hfailed, hlog⟩ := of_decide_eq_true hP
  have hfailed := Conf.failure_eq_some.1 hfailed
  obtain ⟨howner, -, hresidue⟩ := last_owner_kept twoOwners_shelved twoOwners_owner hc
  exact ⟨c, hc, hfailed, hlog, howner, fun d hd hby => hresidue 1 _ hfailed rfl d hd hby⟩

def badUpload : Store where
  objects key := if key = ⟨1, 0, ".png"⟩ then some ⟨"image/png", [0]⟩ else none
  forms := []
  deleted := []
  looks := []
  firstId := 1

def pendingCommits (c : Conf (machine schema outside Err) Response) :
    List (Tid × Option (Option PhotoKey) × Option (Option PhotoKey)) :=
  c.state.db.log.map fun d =>
    (d.by_, (d.before .staffUsers 1).map StaffUser.photoPendingKey, (d.writes .staffUsers 1).map StaffUser.photoPendingKey)

/-- **A confirm that is refused clears the pending triple.** -/
theorem rejected_clears : ∃ c,
    (serving plainConfig (fun _ => .confirmPhoto 1 0) badUpload (listed (S := schema) twoOwners) 2 0).Reaches c ∧
    c.threads 0 = some (.raise (.mediaMismatch "the uploaded file is not a valid image")) ∧
    ∃ d ∈ c.state.db.log, d.by_ = 0 ∧ ∃ v r : StaffUser, d.before .staffUsers 1 = some v ∧ d.writes .staffUsers 1 = some r ∧
      v.photoPendingKey = some ⟨1, 0, ".png"⟩ ∧ r.photoPendingKey = none := by
  obtain ⟨c, hc, hP⟩ := Conf.reached_freely
      (serving plainConfig (fun _ => .confirmPhoto 1 0) badUpload (listed (S := schema) twoOwners) 2 0) (answered 0 12)
    (fun c => decide (c.failure 0 = some (.mediaMismatch "the uploaded file is not a valid image") ∧
      (0, some (some ⟨1, 0, ".png"⟩), some none) ∈ pendingCommits c)) (by decide)
  obtain ⟨hfailed, hmem⟩ := of_decide_eq_true hP
  obtain ⟨d, hd, heq⟩ := List.mem_map.1 hmem
  simp only [Prod.mk.injEq, Option.map_eq_some_iff] at heq
  obtain ⟨hby, ⟨v, hv, hvkey⟩, r, hr, hrkey⟩ := heq
  exact ⟨c, hc, Conf.failure_eq_some.1 hfailed, d, hd, hby, v, r, hv, hr, hvkey, hrkey⟩

end Staff
