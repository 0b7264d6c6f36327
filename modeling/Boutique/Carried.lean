import Boutique.Fitting
import Boutique.TxnWatch
/-!
# Carried — what a fitting was given

Each request commits one deed or nothing: an add leaves one live binding of its dress, new or as it stood, a remove takes
out the one binding it names, and a release touches none.  So what the rooms hold is what the adds and the removes, in
the order they committed, make of what they held.
-/
namespace Fitting

open Txn Session Contract

variable {rounds : Nat} {reqs : Tid → Request} {w w' : World schema outside} {t : Tid} {e e' : Engine schema}

/-! ## What a row keeps -/

def FittingAssignmentDress.Stays (v r : FittingAssignmentDress) : Prop :=
  r = v ∨ v.live = true ∧ ∃ at_ actorId, r = { v with deletedAt := some at_, removedBy := some actorId }

variable {v r : FittingAssignmentDress} {b actorId a x : Nat} {d : Commit schema}

theorem FittingAssignmentDress.Stays.trans {u : FittingAssignmentDress} (h : u.Stays v) (h' : v.Stays r) :
    u.Stays r := by
  rcases h with rfl | ⟨hu, at_, actorId, rfl⟩
  · exact h'
  · rcases h' with rfl | ⟨hv, -⟩
    · exact .inr ⟨hu, at_, actorId, rfl⟩
    · simp [live] at hv

theorem BindingChange.stays {g : BindingChange} (h : BindingChange.apply v g = some r) : v.Stays r := by
  cases g with
  | touch assignmentId dressId =>
    simp only [BindingChange.apply] at h
    split at h <;> cases h
    exact .inl rfl
  | remove assignmentId actorId at_ =>
    simp only [BindingChange.apply] at h
    split at h
    · rename_i hc
      cases h
      exact .inr ⟨hc.2, at_, actorId, rfl⟩
    · cases h

def Becomes : (T : Table) → Row T → Row T → Prop
  | .assignments, (v : FittingRoomAssignment), (r : FittingRoomAssignment) =>
    v.releasedAt ≠ none → r.releasedAt = v.releasedAt
  | .bindings, (v : FittingAssignmentDress), (r : FittingAssignmentDress) => v.Stays r
  | _, _, _ => True

theorem becomes_refl (T : Table) (r : Row T) : Becomes T r r := by
  cases T with
  | assignments => exact fun _ => rfl
  | bindings => exact .inl rfl
  | tickets | auditLog => trivial

theorem becomes_trans (T : Table) (u v r : Row T) (h : Becomes T u v) (h' : Becomes T v r) : Becomes T u r := by
  cases T with
  | assignments =>
    intro hu
    have hv := h hu
    exact (h' (by rw [hv]; exact hu)).trans hv
  | bindings => exact FittingAssignmentDress.Stays.trans h h'
  | tickets | auditLog => trivial

def lasting : Discipline schema where
  Trans _ := Becomes
  New _ _ _ := True
  refl _ := becomes_refl
  trans _ := becomes_trans
  weaken _ _ _ h := h
  new_trans _ _ _ _ _ _ := trivial
  new_weaken _ _ _ := trivial

theorem lasting_legal (l : Bool) (o : Op schema outside) : lasting.Legal l o := by
  cases o with
  | now | ask => trivial
  | sql o =>
    cases o with
    | begin | read | lock | commit | abort => trivial
    | insert T r => exact fun _ _ => trivial
    | update T i g =>
      intro v r _ hr
      cases T with
      | assignments =>
        have hr : AssignmentChange.apply v g = some r := hr
        cases g with
        | release at_ =>
          simp only [AssignmentChange.apply] at hr
          split at hr
          · rename_i hc
            intro hv
            simp only [FittingRoomAssignment.active, decide_eq_true_eq] at hc
            exact absurd hc.1 hv
          · cases hr
      | bindings => exact BindingChange.stays hr
      | tickets | auditLog => trivial

/-! ## The deeds -/

/-- **The commit leaves one live binding of this dress in this fitting**: a new one, or the one that stood. -/
def Adds (assignmentId dressId : Nat) (d : Commit schema) : Prop :=
  ∃ b, ∃ r : FittingAssignmentDress, d.writes .bindings b = some r ∧ r.live = true ∧
    r.names assignmentId dressId = true ∧
    ((d.before .bindings b = none ∧ r.removedBy = none) ∨ d.before .bindings b = some r) ∧
    ∀ j, j ≠ b → d.writes .bindings j = none

/-- **The commit takes out the one binding**, and says who took it. -/
def Removes (assignmentId b actorId : Nat) (d : Commit schema) : Prop :=
  ∃ v : FittingAssignmentDress, ∃ at_, d.before .bindings b = some v ∧ v.live = true ∧ v.assignmentId = assignmentId ∧
    d.writes .bindings b = some ({ v with deletedAt := some at_, removedBy := some actorId } : FittingAssignmentDress) ∧
    ∀ j, j ≠ b → d.writes .bindings j = none

def Request.Does : Request → Commit schema → Prop
  | .addDress assignmentId dressId _, d => Adds assignmentId dressId d
  | .removeDress assignmentId b actor, d => Removes assignmentId b actor.id d
  | .release _ _, d => ∀ j, d.writes .bindings j = none

def deeds (reqs : Tid → Request) : Ledger schema where
  Holds _ _ c := (reqs c.by_).Does c
  stable _ _ _ _ _ _ _ h := h

abbrev doing (reqs : Tid → Request) : Contract lasting.shared outside Err :=
  (deeds reqs).contract lasting.shared fun _ _ _ _ _ => True

theorem doing_historic : (doing reqs).Historic fun _ => true := Ledger.historic _

/-- What thread `t` has done: it has committed nothing, and has `W` of the bindings in flight. -/
structure Standing (t : Tid) (W : Work FittingAssignmentDress) (e : Engine schema) : Prop where
  own : e.own t = []
  work : e.AtWork t Table.bindings W

variable {W : Work FittingAssignmentDress}

theorem Standing.evolves (h : Standing t W e) (hev : e.Evolves lasting.shared t e') : Standing t W e' :=
  ⟨hev.since.own.trans h.own, h.work.evolves hev⟩

theorem Standing.congr (h : Standing t W e) (hl : e'.log = e.log) (hc : e'.committed = e.committed)
    (hp : e'.pending t Table.bindings = e.pending t Table.bindings) : Standing t W e' :=
  ⟨by rw [Engine.own, hl]; exact h.own, h.work.congr hc hp⟩

/-! ## Footprints -/

abbrev Aside : Op schema outside → Prop := Sparing fun T => T = .bindings

theorem aside_ask (q : Ask) : Only Aside (ask q) :=
  only_ask ⟨trivial, fun _ _ _ h => (by cases h), fun _ _ h => (by cases h)⟩

theorem aside_select {α : Type} (q : Query) (f : Snapshot schema → α) :
    Only Aside (select q f : Prg α) := only_select ⟨trivial, fun _ _ _ h => (by cases h), fun _ _ h => (by cases h)⟩ f

theorem aside_update {T : Table} (hT : T ≠ .bindings) (i : Nat) (g : Change T) : Only Aside (update T i g) :=
  only_update ⟨trivial, fun _ _ _ h => (by cases h; exact hT), fun _ _ h => (by cases h)⟩ _

theorem aside_insert {T : Table} (hT : T ≠ .bindings) (r : Row T) : Only Aside (insert T r) :=
  only_insert ⟨trivial, fun _ _ _ h => (by cases h), fun _ _ h => (by cases h; exact hT)⟩ _

theorem aside_roomRead (roomId : Nat) : Only Aside (roomRead roomId) := by
  refine only_bind (aside_ask _) fun found => only_bind (only_orRaise _ _) fun label =>
    only_bind (aside_select _ _) fun occupant => ?_
  cases occupant with
  | none => exact only_ret _
  | some a => exact only_bind (aside_select _ _) fun _ => only_ret _

theorem aside_closeTicket (queueTicketId : Option Nat) : Only Aside (closeTicket queueTicketId) := by
  cases queueTicketId with
  | none => exact only_ret _
  | some ticketId =>
    exact only_bind (only_bind (aside_update (by decide) _ _) fun _ => only_ret _) fun _ => only_ret _

theorem aside_record (actorId entity : Nat) (action : AuditAction) : Only Aside (record actorId entity action) :=
  only_bind (aside_insert (by decide) _) fun _ => only_ret _

theorem aside_releaseAt (assignmentId : Nat) (actor : StaffContext) (at_ : Int) :
    Only Aside (releaseAt assignmentId actor at_) := by
  refine only_bind (aside_select _ _) fun found => only_bind (only_orRaise _ _) fun assignment =>
    only_bind (only_raiseIf _ _) fun _ => only_bind (only_bind (aside_update (by decide) _ _) fun _ =>
      only_bind (aside_select _ _) fun _ => only_ret _) fun released => only_bind (only_orRaise _ _) fun row => ?_
  split
  · exact only_bind (aside_closeTicket _) fun _ => only_bind (aside_record _ _ _) fun _ => aside_roomRead _
  · exact aside_roomRead _

/-! ## One request -/

section Requests

variable {α β : Type} {Q : Except Err β → World schema outside → Prop}

theorem aside_bind {p : Prg α} {k : α → Prg β} (hp : Only Aside p) (h : Standing t W w.db)
    (herr : ∀ e w', Standing t W w'.db → Q (.error e) w')
    (hk : ∀ a w', Standing t W w'.db → (doing reqs).Ensures t (k a) Q w') :
    (doing reqs).Ensures t (p >>= k) Q w :=
  ensures_sparing (K := fun T => T = .bindings) doing_historic (Standing t W) (fun _ _ hev _ h => h.evolves hev)
    (fun _ _ hl hc hp h => h.congr hl hc (hp _ rfl)) hp h herr hk

variable {assignmentId : Nat}

/-- **The upsert** has a live binding of its dress in flight, new or as it stood, or fails. -/
theorem add_ensures {dressId : Nat} {name : String} {size : Option String} {k : Bool × FittingAssignmentDress → Prg β}
    (h : Standing t none w.db) (herr : ∀ e w' W, Standing t W w'.db → Q (.error e) w')
    (hk : ∀ a b v (r : FittingAssignmentDress) w', r.live = true → r.names assignmentId dressId = true →
      ((v = none ∧ r.removedBy = none) ∨ v = some r) → Standing t (some (b, v, r)) w'.db →
      (doing reqs).Ensures t (k a) Q w') :
    (doing reqs).Ensures t (DressBindings.add assignmentId dressId name size rounds >>= k) Q w := by
  induction rounds generalizing w with
  | zero => exact herr _ _ _ h
  | succ rounds ih =>
    refine ensures_first (ensures_bind ?_)
    rw [Ensures, Prog.wp_attempt]
    refine ensures_last (Session.ensures_insert doing_historic (fun w1 n hev _ _ => ?_) fun w1 hev hL _ _ => ?_)
    · -- the index refused: the row it met is touched, or it is another round
      refine ensures_first (Session.ensures_ask doing_historic rfl fun w2 x m hev2 _ _ _ => ensures_first ?_)
      have h1 : Standing t none ({ w1.db with next := n } : Engine schema) := (h.evolves hev.db).congr rfl rfl rfl
      have h2 : Standing t none w2.db := h1.evolves hev2.db
      refine ensures_updateFirst doing_historic (h2.work.congr rfl rfl) (fun w3 hev3 => ?_) (fun w3 hev3 _ _ _ => ?_)
        fun w3 v r hev3 _ hv hr _ hwork => ?_
      · exact herr _ _ _ (h2.evolves hev3.db)
      · exact ih (h2.evolves hev3.db)
      · have hr : BindingChange.apply v (.touch assignmentId dressId) = some r := hr
        simp only [BindingChange.apply] at hr
        split at hr
        · rename_i hc
          cases hr
          exact hk _ _ _ _ _ hc.1 hc.2 (.inr rfl)
            ⟨(h2.evolves hev3.db).own, hwork⟩
        · cases hr
    · have h1 := h.evolves hev.db
      exact hk _ _ _ _ _ rfl (by simp [FittingAssignmentDress.names, stamp]) (.inl ⟨rfl, rfl⟩)
        ⟨h1.own, h1.work.insert hL⟩

theorem remove_ensures {at_ : Int} {k : Bool → Prg β} (h : Standing t none w.db)
    (herr : ∀ e w' W, Standing t W w'.db → Q (.error e) w')
    (hmissed : ∀ w', Standing t none w'.db → (doing reqs).Ensures t (k false) Q w')
    (hk : ∀ (v : FittingAssignmentDress) w', v.live = true → v.assignmentId = assignmentId →
      Standing t (some (b, some v, { v with deletedAt := some at_, removedBy := some actorId })) w'.db →
      (doing reqs).Ensures t (k true) Q w') :
    (doing reqs).Ensures t (DressBindings.remove assignmentId b actorId at_ >>= k) Q w := by
  refine ensures_first (ensures_updateFirst doing_historic h.work (fun w1 hev => herr _ _ _ (h.evolves hev.db))
    (fun w1 hev _ _ _ => hmissed _ (h.evolves hev.db)) fun w1 v r hev _ _ hr _ hwork => ?_)
  have hr : BindingChange.apply v (.remove assignmentId actorId at_) = some r := hr
  simp only [BindingChange.apply] at hr
  split at hr
  · rename_i hc
    cases hr
    exact hk v _ hc.2 hc.1 ⟨(h.evolves hev.db).own, hwork⟩
  · cases hr

def Ended (t : Tid) : Except Err RoomRead → World schema outside → Prop
  | .ok _, w => ∃ d, w.db.own t = [d]
  | .error _, w => w.db.own t = []

abbrev Done (reqs : Tid → Request) (t : Tid) : Except Err RoomRead → World schema outside → Prop :=
  Closes (doing reqs) t (pure : RoomRead → Prg RoomRead) (Ended t)

theorem done_error (x : Err) (h : Standing t W w.db) : Done reqs t (.error x) w :=
  fun _ hev _ => (h.evolves hev.db).own

theorem done_ok {room : RoomRead} (h : Standing t W w.db)
    (hdoes : ∀ e : Engine schema, e.AtWork t Table.bindings W → (reqs t).Does (e.entry t)) :
    Done reqs t (.ok room) w := by
  intro w1 hev _ hI _ _
  have h1 := h.evolves hev.db
  exact ⟨Ledger.inv_commit hI (hdoes _ h1.work), _, by rw [Engine.commit_own, h1.own, List.nil_append]⟩

theorem begun (h : Standing t W w.db) (hev : w.Evolves lasting.shared t w') (n : Int) :
    Standing t W ({ w'.db with started := Function.update w'.db.started t n } : Engine schema) :=
  (h.evolves hev.db).congr rfl rfl rfl

theorem addDress_ensures {dressId : Nat} {size : Option String}
    (hreq : reqs t = .addDress assignmentId dressId size) (h : Standing t none w.db) :
    (doing reqs).Ensures t (addDress rounds assignmentId dressId size) (Ended t) w := by
  refine ensures_last (Session.ensures_tenantSession doing_historic fun w1 n hev _ _ => ?_)
  refine aside_bind (aside_select _ _) (begun h hev n) (fun x _ h => done_error x h) fun found w2 h2 =>
    Session.ensures_orRaise (fun _ => done_error _ h2) fun assignment _ =>
    aside_bind (aside_ask _) h2 (fun x _ h => done_error x h) fun dress w3 h3 =>
    Session.ensures_orRaise (fun _ => done_error _ h3) fun name _ =>
    add_ensures h3 (fun x _ _ h => done_error x h) fun a b v r w4 hlive hnames hv h4 =>
    ensures_last (aside_bind (aside_roomRead _) h4 (fun x _ h => done_error x h) fun room w5 h5 =>
      done_ok h5 fun e hwork => ?_)
  rw [hreq]
  refine ⟨b, r, hwork.row, hlive, hnames, ?_, fun j hj => ?_⟩
  · have hbefore : (e.entry t).before Table.bindings b = v := hwork.found _ _ _ rfl
    rw [hbefore]
    exact hv
  · show e.pending t Table.bindings j = none
    simp [hwork.pending, Work.overlay, hj]

theorem removeDress_ensures {actor : StaffContext} (hreq : reqs t = .removeDress assignmentId b actor)
    (h : Standing t none w.db) : (doing reqs).Ensures t (removeDress assignmentId b actor) (Ended t) w := by
  refine Session.ensures_now doing_historic fun w0 hev0 _ _ => ensures_last (Session.ensures_tenantSession doing_historic
    fun w1 n hev _ _ => ?_)
  refine aside_bind (aside_select _ _) (begun (h.evolves hev0.db) hev n) (fun x _ h => done_error x h) fun found w2 h2 =>
    Session.ensures_orRaise (fun _ => done_error _ h2) fun assignment _ =>
    remove_ensures h2 (fun x _ _ h => done_error x h)
      (fun w3 h3 => Session.ensures_raiseIf (fun _ => done_error _ h3) fun hc => by cases hc)
      fun v w3 hlive hassignment h3 => Session.ensures_raiseIf (fun hc => by cases hc) fun _ =>
      ensures_last (aside_bind (aside_roomRead _) h3 (fun x _ h => done_error x h) fun room w5 h5 =>
        done_ok h5 fun e hwork => ?_)
  rw [hreq]
  refine ⟨v, w0.db.clock, hwork.found _ _ _ rfl, hlive, hassignment, hwork.row, fun j hj => ?_⟩
  show e.pending t Table.bindings j = none
  simp [hwork.pending, Work.overlay, hj]

theorem release_ensures {actor : StaffContext} (hreq : reqs t = .release assignmentId actor)
    (h : Standing t none w.db) : (doing reqs).Ensures t (release assignmentId actor) (Ended t) w := by
  refine Session.ensures_now doing_historic fun w0 hev0 _ _ => ensures_last (Session.ensures_tenantSession doing_historic
    fun w1 n hev _ _ => ?_)
  refine ensures_last (aside_bind (aside_releaseAt _ _ _) (begun (h.evolves hev0.db) hev n) (fun x _ h => done_error x h)
    fun room w2 h2 => done_ok h2 fun e hwork => ?_)
  rw [hreq]
  intro j
  show e.pending t Table.bindings j = none
  rw [hwork.pending]
  rfl

theorem request_ensures (h : Standing t none w.db) :
    (doing reqs).Ensures t ((reqs t).code rounds) (Ended t) w := by
  cases hreq : reqs t with
  | addDress assignmentId dressId size => exact addDress_ensures hreq h
  | removeDress assignmentId b actor => exact removeDress_ensures hreq h
  | release assignmentId actor => exact release_ensures hreq h

end Requests

/-! ## What the rooms hold -/

/-- **What the fittings hold**: the dresses with a live binding, each with its fitting. -/
def held (rows : Rows schema) : Set (Nat × Nat) := {p | ∃ b, ∃ r : FittingAssignmentDress, rows .bindings b = some r ∧
  r.live = true ∧ r.names p.1 p.2 = true}

/-- What a request that succeeds makes of what the fittings hold: a removal takes out the dress its binding is of. -/
def Request.deed : Request → Commit schema → Set (Nat × Nat) → Set (Nat × Nat)
  | .addDress assignmentId dressId _, _, held => {(assignmentId, dressId)} ∪ held
  | .removeDress _ b _, d, held => held \ {p | ∃ v : FittingAssignmentDress, d.before .bindings b = some v ∧
      v.names p.1 p.2 = true}
  | .release _ _, _, held => held

theorem names_iff : r.names a x = true ↔ r.assignmentId = a ∧ r.dressId = x := by
  simp [FittingAssignmentDress.names]

theorem one_live {rows : Rows schema} (h : Consistent rows) {b' : Nat} {r' : FittingAssignmentDress}
    (hr : rows .bindings b = some r) (hr' : rows .bindings b' = some r') (hlive : r.live = true)
    (hlive' : r'.live = true) (hnames : r.names a x = true) (hnames' : r'.names a x = true) : b = b' := by
  by_contra hne
  have hapart : (r.live && r'.live && (r.assignmentId = r'.assignmentId && r.dressId = r'.dressId)) = false :=
    h.apart Table.bindings b b' r r' hr hr' hne
  rw [names_iff] at hnames hnames'
  simp [hlive, hlive', hnames.1, hnames.2, hnames'.1, hnames'.2] at hapart

theorem Adds.held (h : Adds a x d) : held d.after = {(a, x)} ∪ held d.before := by
  obtain ⟨b, r, hw, hlive, hnames, hfound, hothers⟩ := h
  have hafter : d.after Table.bindings b = some r := Rows.over_some hw
  have hother : ∀ j, j ≠ b → d.after Table.bindings j = d.before Table.bindings j := fun j hj => Rows.over_none (hothers j hj)
  ext p
  rw [Set.mem_union, Set.mem_singleton_iff]
  constructor
  · rintro ⟨j, v, hv, hvlive, hvnames⟩
    by_cases hj : j = b
    · subst hj
      cases hafter.symm.trans hv
      rw [names_iff] at hnames hvnames
      exact .inl (Prod.ext (hvnames.1.symm.trans hnames.1) (hvnames.2.symm.trans hnames.2))
    · exact .inr ⟨j, v, (hother j hj).symm.trans hv, hvlive, hvnames⟩
  · rintro (rfl | ⟨j, v, hv, hvlive, hvnames⟩)
    · exact ⟨b, r, hafter, hlive, hnames⟩
    · by_cases hj : j = b
      · subst hj
        rcases hfound with ⟨hnone, -⟩ | hfound
        · cases hnone.symm.trans hv
        · cases hfound.symm.trans hv
          exact ⟨j, r, hafter, hlive, hvnames⟩
      · exact ⟨j, v, (hother j hj).trans hv, hvlive, hvnames⟩

theorem Removes.held (hbefore : Consistent d.before) (h : Removes a b actorId d) :
    held d.after = held d.before \ {p | ∃ v : FittingAssignmentDress, d.before .bindings b = some v ∧
      v.names p.1 p.2 = true} := by
  obtain ⟨u, at_, hu, hulive, -, hw, hothers⟩ := h
  have hafter : d.after Table.bindings b = _ := Rows.over_some hw
  have hother : ∀ j, j ≠ b → d.after Table.bindings j = d.before Table.bindings j := fun j hj => Rows.over_none (hothers j hj)
  ext p
  rw [Set.mem_sdiff]
  constructor
  · rintro ⟨j, v, hv, hvlive, hvnames⟩
    have hj : j ≠ b := by
      rintro rfl
      cases hafter.symm.trans hv
      cases hvlive
    have hv := (hother j hj).symm.trans hv
    refine ⟨⟨j, v, hv, hvlive, hvnames⟩, fun ⟨u', hu', hnames⟩ => hj ?_⟩
    cases hu.symm.trans hu'
    exact one_live hbefore hv hu hvlive hulive hvnames hnames
  · rintro ⟨⟨j, v, hv, hvlive, hvnames⟩, hnot⟩
    have hj : j ≠ b := by
      rintro rfl
      exact hnot ⟨v, hv, hvnames⟩
    exact ⟨j, v, (hother j hj).trans hv, hvlive, hvnames⟩

theorem Request.Does.held {request : Request} (hbefore : Consistent d.before) (h : request.Does d) :
    held d.after = request.deed d (held d.before) := by
  cases request with
  | addDress assignmentId dressId size => exact Adds.held h
  | removeDress assignmentId b actor => exact Removes.held hbefore h
  | release assignmentId actor =>
    have hafter : d.after Table.bindings = d.before Table.bindings := funext fun j => Rows.over_none (h j)
    simp only [Fitting.held, Request.deed, hafter]

/-! ## Whole runs -/

section Runs

variable {rows : Rows schema} {next : Nat} {clock : Int} {c : Conf (machine schema outside Err) RoomRead}

theorem serving_obeyed (h : Shelved rows next) : Cast.Obeyed lasting.shared (serving rounds reqs rows next clock) :=
  staged_obeyed h lasting_legal

theorem deeds_runs (h : Shelved rows next) (hr : Conf.Reaches (serving rounds reqs rows next clock) c) :
    (∀ d ∈ c.state.db.log, (reqs d.by_).Does d) ∧
      (∀ t room, c.threads t = some (.ret room) → ∃ d, c.state.db.own t = [d]) ∧
      ∀ t x, c.threads t = some (.raise x) → c.state.db.own t = [] := by
  have hI : (doing reqs).Inv (serving rounds reqs rows next clock).state := nofun
  have hsafe : ∀ t p, (serving rounds reqs rows next clock).threads t = some p →
      (doing reqs).logic.Safe t p (Ended t) (serving rounds reqs rows next clock).state := by
    intro t p hp
    cases hp
    refine safe_of_ensures (request_ensures ⟨rfl, Engine.atWork_none rfl⟩) fun x w w' hx hev _ _ => ?_
    cases x with
    | ok room =>
      obtain ⟨d, hd⟩ := hx
      exact ⟨d, hev.db.since.own.trans hd⟩
    | error e => exact hev.db.since.own.trans hx
  obtain ⟨hsound, -⟩ := (doing reqs).runs (Q := Ended) (serving_obeyed h) hI hsafe hr
  refine ⟨fun d hd => ?_, fun t room ht => hsound.finished ht, fun t x ht => hsound.raised ht⟩
  obtain ⟨m, hm⟩ := List.mem_iff_getElem?.1 hd
  exact hsound.inv.2 m d hm

/-- **What the fittings hold is what the deeds made of what they held**, in the order they committed. -/
theorem held_folds (h : Shelved rows next) (hr : Conf.Reaches (serving rounds reqs rows next clock) c) :
    held c.state.db.committed = c.state.db.log.foldl (fun had d => (reqs d.by_).deed d had) (held rows) := by
  have hL := ((serving_obeyed h).steps hr).1.lawful
  have hversion : c.state.db.version 0 = rows := ((serving_obeyed h).history hr).2 0 (Nat.le_refl 0)
  rw [← hversion]
  exact hL.version_fold fun d hd => ((deeds_runs h hr).1 d hd).held (hL.past d hd)

theorem removed_once (hL : e.Lawful lasting.shared) {m n a' actorId' : Nat} {d' : Commit schema}
    (hd : e.log[m]? = some d) (hd' : e.log[n]? = some d') (h : Removes a b actorId d) (h' : Removes a' b actorId' d') :
    ¬m < n := by
  intro hlt
  obtain ⟨v, at_, -, -, -, hw, -⟩ := h
  obtain ⟨u, -, hu, hulive, -⟩ := h'
  have hafter : e.version (m + 1) Table.bindings b =
      some ({ v with deletedAt := some at_, removedBy := some actorId } : FittingAssignmentDress) := by
    rw [hL.linked m d hd, Commit.after, Rows.over_some hw]
  have hrow := hL.version_becomes (Cast.plays_common _) hlt (List.getElem?_eq_some_iff.1 hd').1.le Table.bindings b
  rw [hafter, show e.version n = d'.before by simp [Engine.version, hd'], hu] at hrow
  have hstays : FittingAssignmentDress.Stays { v with deletedAt := some at_, removedBy := some actorId } u := hrow
  rcases hstays with rfl | ⟨hlive, -⟩
  · cases hulive
  · cases hlive

end Runs
end Fitting
