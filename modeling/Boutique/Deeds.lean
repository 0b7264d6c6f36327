import Boutique.Stages
/-!
# Deeds — what a ticket's verbs commit, and what they tell

`Deed` is one commit of one verb: the row its UPDATE found, the row it wrote, and the audit row beside it, which tells
what the verb's load had read.  Every run keeps the ledger of deeds; how the loaded row compares with the one the UPDATE
found is what an assumption on the run supplies.
-/
namespace Atelier

open Txn Session Contract

def nothing : Rows schema := fun _ _ => none

def Request.Asks (req : Request) (g : TicketChange) : Prop :=
  match req.verb with
  | .advance target => ∃ at_, g = .advanceStage target at_
  | .undo stage => g = .undoStage stage ∧ stage ≠ .intake
  | .assign target =>
    if req.actor.elevated then g = .assign target
    else match target with
      | none => g = .release req.actor.id
      | some _ => target = some req.actor.id ∧ g = .claim req.actor.id
  | .delete => ∃ at_, g = .softDelete at_

/-- What the audit row tells of the loaded row `ℓ` and the row answered, if one is written. -/
def Request.note (req : Request) (wrote : Bool) (ℓ r : AlterationTicket) : Option AuditAction :=
  match req.verb with
  | .advance target => if wrote then some (.atelierTicketStageAdvanced (stageOf ℓ) target) else none
  | .undo stage => if wrote then some (.atelierTicketStageUndone stage (ℓ.stamp stage)) else none
  | .assign _ =>
    if r.assignedStaffUserId ≠ ℓ.assignedStaffUserId then
      some (.atelierTicketAssigned ℓ.assignedStaffUserId r.assignedStaffUserId)
    else none
  | .delete => if wrote then some (.atelierTicketDeleted (stageOf ℓ)) else none

def Request.already (req : Request) (row : AlterationTicket) : Bool :=
  match req.verb with
  | .advance target => stageOf row = target
  | .undo stage => clearedThrough row stage
  | .assign target => req.actor.elevated || row.assignedStaffUserId = target
  | .delete => true

/-- `base`, with the audit row if there is something to tell. -/
def Noted (req : Request) (base : Rows schema) (note : Option AuditAction) (writes : Rows schema) : Prop :=
  match note with
  | none => writes = base
  | some action => ∃ n at_, writes = base.set .auditLog n (⟨n, at_, req.actor.id, action, req.ticketId⟩ : AuditLog)

/-- What is known of the loaded row and the one the UPDATE found (`true`), or the one re-read after it found none. -/
abbrev Hearsay : Type := Request → Bool → AlterationTicket → AlterationTicket → Prop

inductive Deed (R : Hearsay) (req : Request) (before writes : Rows schema) : Prop
  | changed {ℓ v r : AlterationTicket} {g : TicketChange} (found : before .alterationTickets req.ticketId = some v)
      (asked : req.Asks g) (change : TicketChange.apply v g = some r) (loaded : R req true ℓ v)
      (wrote : Noted req (nothing.set .alterationTickets req.ticketId r) (req.note true ℓ r) writes)
  | unchanged {ℓ x : AlterationTicket} (loaded : R req false ℓ x) (live : x.deletedAt = none)
      (already : req.already x = true) (wrote : Noted req nothing (req.note false ℓ x) writes)

def deeds (reqs : Tid → Request) (R : Hearsay) : Ledger schema where
  Holds _ _ c := Deed R (reqs c.by_) c.before c.writes
  stable _ _ _ _ _ _ _ h := h

structure Supplies (A : (machine schema nobody Err).Assumption) (reqs : Tid → Request) (R : Hearsay) : Prop where
  update : ∀ t g w r w', A t (.sql (.update Table.alterationTickets (reqs t).ticketId g)) w (.ok (some r)) w' →
    ∀ ℓ v, w.db.version (w.db.seen t) Table.alterationTickets (reqs t).ticketId = some ℓ →
      w.db.view t Table.alterationTickets (reqs t).ticketId = some v → R (reqs t) true ℓ v
  read : ∀ t w s w', A t (.sql (.read .ticketRefreshed)) w s w' → w.db.pending t = nothing →
    ∀ ℓ x, w.db.version (w.db.seen t) Table.alterationTickets (reqs t).ticketId = some ℓ →
      w.db.committed Table.alterationTickets (reqs t).ticketId = some x → R (reqs t) false ℓ x

/-! ## The answers -/

/-- The request, begun at version `L`, had its UPDATE find nothing to change, and the re-read after it found `row`. -/
def Missed (req : Request) (L : Nat) (e : Engine schema) (row : AlterationTicket) : Prop :=
  ∃ m₁ m₂ g, L ≤ m₁ ∧ m₁ ≤ m₂ ∧ m₂ ≤ e.log.length ∧ req.Asks g ∧
    (e.version m₁ Table.alterationTickets req.ticketId).bind (fun v => TicketChange.apply v g) = none ∧
    e.version m₂ Table.alterationTickets req.ticketId = some row ∧ row.deletedAt = none

def Gone (req : Request) (L : Nat) (e : Engine schema) : Prop :=
  ∃ m, L ≤ m ∧ m ≤ e.log.length ∧ find req.ticketId ⟨e.version m, 0⟩ = none

/-- **What an answer promises** of the history since version `L`, where the request began. -/
def Answered (req : Request) (t : Tid) (L : Nat) (e : Engine schema) : Except Err Response → Prop
  | .ok (.ticket row _) =>
    (∃ c ∈ e.log, c.by_ = t ∧ c.writes .alterationTickets req.ticketId = some row) ∨
      (Missed req L e row ∧ req.already row = true ∧ ∀ c ∈ e.log, c.by_ = t → ∀ i, c.writes .alterationTickets i = none)
  | .ok .deleted => ∃ c ∈ e.log, c.by_ = t ∧ ∃ r : AlterationTicket,
      c.writes .alterationTickets req.ticketId = some r ∧ r.deletedAt ≠ none
  | .error .ticketStageConflict => e.own t = [] ∧ ∃ row, Missed req L e row ∧ req.already row = false
  | .error .domainNotFound => e.own t = [] ∧ Gone req L e
  | .error _ => e.own t = []

section Later

variable {req : Request} {t : Tid} {L : Nat} {e e' : Engine schema} {row : AlterationTicket} {x : Except Err Response}

/-- The history has gone on, without thread `t`. -/
structure Onward (t : Tid) (e e' : Engine schema) : Prop where
  le : e.log.length ≤ e'.log.length
  sub : ∀ c ∈ e.log, c ∈ e'.log
  others : ∀ c ∈ e'.log, c.by_ = t → c ∈ e.log
  own : e'.own t = e.own t
  version : ∀ m, m ≤ e.log.length → e'.version m = e.version m

theorem onward_evolves {D : Cast schema} (h : e.Evolves D t e') : Onward t e e' := by
  obtain ⟨l, hl, hby⟩ := h.log
  refine ⟨h.log_le, fun c hc => ?_, fun c hc hct => ?_, h.since.own, h.version⟩
  · rw [hl]
    exact List.mem_append_left _ hc
  · rw [hl, List.mem_append] at hc
    exact hc.resolve_right fun hc => (hby c hc).1 hct

theorem onward_same (hl : e'.log = e.log) (hc : e'.committed = e.committed) : Onward t e e' := by
  refine ⟨by rw [hl], fun c h => hl ▸ h, fun c h _ => hl ▸ h, ?_, fun m _ => Engine.version_congr hl hc m⟩
  simp only [Engine.own, hl]

theorem Onward.trans {e'' : Engine schema} (h : Onward t e e') (h' : Onward t e' e'') : Onward t e e'' :=
  ⟨h.le.trans h'.le, fun c hc => h'.sub c (h.sub c hc), fun c hc hby => h.others c (h'.others c hc hby) hby,
    h'.own.trans h.own, fun m hm => (h'.version m (hm.trans h.le)).trans (h.version m hm)⟩

theorem Missed.later (h : Missed req L e row) (ho : Onward t e e') : Missed req L e' row := by
  obtain ⟨m1, m2, g, hL, hm, hm2, hg, hmiss, hrow, hlive⟩ := h
  refine ⟨m1, m2, g, hL, hm, hm2.trans ho.le, hg, ?_, ?_, hlive⟩
  · rw [ho.version m1 (hm.trans hm2)]
    exact hmiss
  · rw [ho.version m2 hm2]
    exact hrow

theorem Gone.later (h : Gone req L e) (ho : Onward t e e') : Gone req L e' := by
  obtain ⟨m, hL, hm, hgone⟩ := h
  refine ⟨m, hL, hm.trans ho.le, ?_⟩
  rw [ho.version m hm]
  exact hgone

theorem Answered.later (h : Answered req t L e x) (ho : Onward t e e') : Answered req t L e' x := by
  match x with
  | .ok (.ticket row _) =>
    rcases h with ⟨c, hc, hby, hw⟩ | ⟨hmiss, halready, hnone⟩
    · exact .inl ⟨c, ho.sub c hc, hby, hw⟩
    · exact .inr ⟨hmiss.later ho, halready, fun c hc hby => hnone c (ho.others c hc hby) hby⟩
  | .ok .deleted =>
    obtain ⟨c, hc, hw⟩ := h
    exact ⟨c, ho.sub c hc, hw⟩
  | .error .ticketStageConflict =>
    obtain ⟨hown, row, hmiss, halready⟩ := h
    exact ⟨ho.own.trans hown, row, hmiss.later ho, halready⟩
  | .error .domainNotFound => exact ⟨ho.own.trans h.1, h.2.later ho⟩
  | .error (.atelierValidation _) => exact ho.own.trans h
  | .error .notAuthorized => exact ho.own.trans h
  | .error .ticketAlreadyAssigned => exact ho.own.trans h
  | .error .integrity => exact ho.own.trans h

end Later

/-! ## Inside a transaction -/

variable {reqs : Tid → Request} {R : Hearsay} {A : (machine schema nobody Err).Assumption} {t : Tid}
  {L : Nat} {w w' : World schema nobody} {ℓ v r : AlterationTicket} {writes : Rows schema} {i : Nat}

/-- Thread `t`, whose request began at version `L`, has nothing in flight and nothing committed. -/
structure Rested (t : Tid) (L : Nat) (w : World schema nobody) : Prop where
  idle : w.db.pending t = nothing
  mine : w.db.own t = []
  begun : L ≤ w.db.log.length

/-- The verb has loaded `ℓ`, and looked at nothing since. -/
structure Loaded (t : Tid) (L : Nat) (w : World schema nobody) (i : Nat) (ℓ : AlterationTicket) : Prop extends Rested t L w where
  le : w.db.seen t ≤ w.db.log.length
  looked : w.db.version (w.db.seen t) .alterationTickets i = some ℓ

/-- `writes` is all the transaction has written; the row `x` its UPDATE found, if any, is the committed one. -/
structure Carrying (t : Tid) (w : World schema nobody) (i : Nat) (x : Option AlterationTicket) (writes : Rows schema) :
    Prop where
  pending : w.db.pending t = writes
  found : ∀ v, x = some v → w.db.committed .alterationTickets i = some v ∧ ∃ r, writes .alterationTickets i = some r
  mine : w.db.own t = []

theorem Rested.evolves (h : Rested t L w) (hev : w.Evolves Free t w') : Rested t L w' :=
  ⟨hev.db.pending.trans h.idle, hev.db.since.own.trans h.mine, h.begun.trans hev.db.log_le⟩

theorem Loaded.evolves (h : Loaded t L w i ℓ) (hev : w.Evolves Free t w') : Loaded t L w' i ℓ := by
  refine ⟨h.toRested.evolves hev, ?_, ?_⟩
  · rw [hev.db.seen]
    exact h.le.trans hev.db.log_le
  · rw [hev.db.seen, hev.db.version _ h.le]
    exact h.looked

theorem Carrying.evolves {x : Option AlterationTicket} (h : Carrying t w i x writes) (hev : w.Evolves Free t w') :
    Carrying t w' i x writes := by
  refine ⟨hev.db.pending.trans h.pending, fun v hv => ?_, hev.db.since.own.trans h.mine⟩
  obtain ⟨hcommitted, r, hr⟩ := h.found v hv
  rw [hev.db.owned _ i r (by rw [h.pending]; exact hr)]
  exact ⟨hcommitted, r, hr⟩

theorem Rested.look (h : Rested t L w) : Rested t L (⟨w.db.look t, w.out⟩ : World schema nobody) := ⟨h.idle, h.mine, h.begun⟩

theorem Rested.carrying (h : Rested t L w) : Carrying t w i none nothing := ⟨h.idle, fun _ hv => (by cases hv), h.mine⟩

theorem Carrying.look {x : Option AlterationTicket} (h : Carrying t w i x writes) :
    Carrying t (⟨w.db.look t, w.out⟩ : World schema nobody) i x writes := ⟨h.pending, h.found, h.mine⟩

theorem Carrying.noted {x : Option AlterationTicket} (h : Carrying t w i x writes) (a : AuditLog) :
    Carrying t (⟨inserted w.db t Table.auditLog a, w.out⟩ : World schema nobody) i x
      (writes.set .auditLog w.db.next (stamp .auditLog w.db.next (w.db.started t) a)) := by
  refine ⟨?_, fun v hv => ?_, h.mine⟩
  · simp only [Session.inserted, Engine.write, Function.update_self]
    rw [h.pending]
  · obtain ⟨hcommitted, r, hr⟩ := h.found v hv
    refine ⟨hcommitted, r, ?_⟩
    rw [Rows.set_table (by decide)]
    exact hr

variable {g : TicketChange}

theorem Loaded.written (h : Loaded t L w i ℓ) (hv : w.db.view t .alterationTickets i = some v)
    (_ : TicketChange.apply v g = some r) :
    Carrying t (⟨w.db.write t Table.alterationTickets i r, w.out⟩ : World schema nobody) i (some v)
      (nothing.set .alterationTickets i r) := by
  refine ⟨?_, fun v' hv' => ?_, h.mine⟩
  · simp only [Engine.write, Function.update_self]
    rw [h.idle]
  · cases hv'
    rw [Engine.view_idle h.idle] at hv
    exact ⟨hv, r, Rows.set_same⟩

abbrev atelier (reqs : Tid → Request) (R : Hearsay) (A : (machine schema nobody Err).Assumption) :
    Contract (Free : Cast schema) nobody Err := (deeds reqs R).contract Free A

theorem atelier_historic : (atelier reqs R A).Historic fun _ => true := Ledger.historic _

abbrev Ends (reqs : Tid → Request) (R : Hearsay) (A : (machine schema nobody Err).Assumption) (t : Tid) (L : Nat) :
    Except Err Response → World schema nobody → Prop :=
  Closes (atelier reqs R A) t pure fun x w => Answered (reqs t) t L w.db x

theorem ends_error {e : Err} (h : Answered (reqs t) t L w.db (.error e)) : Ends reqs R A t L (.error e) w := by
  intro w1 hev _
  exact (h.later (onward_evolves hev.db)).later (onward_same rfl rfl)

theorem ends_changed {a : Response} {base : Rows schema} (h : Carrying t w (reqs t).ticketId (some v) writes)
    (hbase : base = nothing.set .alterationTickets (reqs t).ticketId r) (hasked : (reqs t).Asks g)
    (hchange : TicketChange.apply v g = some r) (hR : R (reqs t) true ℓ v)
    (hnoted : Noted (reqs t) base ((reqs t).note true ℓ r) writes)
    (ha : ∀ e : Engine schema, (∃ c ∈ e.log, c.by_ = t ∧ c.writes .alterationTickets (reqs t).ticketId = some r) →
      Answered (reqs t) t L e (.ok a)) : Ends reqs R A t L (.ok a) w := by
  subst hbase
  intro w1 hev hL hI hA hL'
  have h1 := h.evolves hev
  have hrow : writes .alterationTickets (reqs t).ticketId = some r := by
    unfold Noted at hnoted
    split at hnoted
    · rw [hnoted]
      exact Rows.set_same
    · obtain ⟨n, at_, rfl⟩ := hnoted
      rw [Rows.set_table (by decide)]
      exact Rows.set_same
  refine ⟨Ledger.inv_commit hI ?_, ha _ ⟨w1.db.entry t, by simp [Engine.commit], rfl, ?_⟩⟩
  · show Deed R (reqs t) w1.db.committed (w1.db.pending t)
    rw [h1.pending]
    exact .changed (h1.found v rfl).1 hasked hchange hR hnoted
  · show w1.db.pending t .alterationTickets _ = _
    rw [h1.pending]
    exact hrow

theorem ends_unchanged {x : AlterationTicket} {name : String} (h : Carrying t w (reqs t).ticketId none writes)
    (hR : R (reqs t) false ℓ x) (hnoted : Noted (reqs t) nothing ((reqs t).note false ℓ x) writes)
    (hmissed : Missed (reqs t) L w.db x) (halready : (reqs t).already x = true) :
    Ends reqs R A t L (.ok (.ticket x name)) w := by
  intro w1 hev hL hI hA hL'
  have h1 := h.evolves hev
  have hnone : ∀ j, writes .alterationTickets j = none := by
    intro j
    unfold Noted at hnoted
    split at hnoted
    · rw [hnoted]
      rfl
    · obtain ⟨n, at_, rfl⟩ := hnoted
      rw [Rows.set_table (by decide)]
      rfl
  refine ⟨Ledger.inv_commit hI ?_, .inr ⟨?_, halready, fun c hc hby j => ?_⟩⟩
  · show Deed R (reqs t) w1.db.committed (w1.db.pending t)
    rw [h1.pending]
    obtain ⟨-, -, -, -, -, -, -, -, -, hlive⟩ := hmissed
    exact .unchanged hR hlive halready hnoted
  · obtain ⟨m1, m2, g, hL, hm, hm2, hg, hmiss, hrow, hlive⟩ := hmissed.later (onward_evolves hev.db)
    refine ⟨m1, m2, g, hL, hm, ?_, hg, ?_, ?_, hlive⟩
    · simp only [Engine.commit, List.length_append]
      omega
    · show (Engine.version (w1.db.commit t) m1 _ _).bind _ = none
      rw [Engine.commit_version_le (hm.trans hm2)]
      exact hmiss
    · show Engine.version (w1.db.commit t) m2 _ _ = _
      rw [Engine.commit_version_le hm2]
      exact hrow
  · have hmem : c ∈ w1.db.log ∨ c = w1.db.entry t := by simpa [Engine.commit] using hc
    rcases hmem with hold | rfl
    · have hown : c ∈ w1.db.own t := List.mem_filter.2 ⟨hold, by simpa using hby⟩
      rw [h1.mine] at hown
      cases hown
    · show w1.db.pending t .alterationTickets j = none
      rw [h1.pending]
      exact hnone j

/-! ## The statements of a verb -/

section Statements

variable {β : Type} {Q : Except Err β → World schema nobody → Prop}

theorem load_ensures {k : AlterationTicket → Prg β} (h : Rested t L w)
    (hgone : ∀ w', w'.db.own t = [] → Gone (reqs t) L w'.db → Q (.error .domainNotFound) w')
    (hok : ∀ w' ℓ, Loaded t L w' (reqs t).ticketId ℓ → (atelier reqs R A).Ensures t (k ℓ) Q w') :
    (atelier reqs R A).Ensures t (load (reqs t).ticketId >>= k) Q w := by
  unfold load
  refine ensures_first (ensures_select atelier_historic fun w1 hev1 _ _ _ _ => ?_)
  have h1 := h.evolves hev1
  rw [Engine.view_idle h1.idle]
  refine ensures_orRaise (fun hnone => hgone _ h1.mine ⟨w1.db.log.length, h1.begun, Nat.le_refl _, ?_⟩)
    fun ℓ hℓ => hok _ ℓ ⟨h1.look, by simp, ?_⟩
  · rw [Engine.look_version, Engine.version_length]
    exact hnone
  · simpa using (Option.filter_eq_some_iff.1 hℓ).1

theorem conditional_ensures {k : Bool × Option AlterationTicket → Prg β} (hA : Supplies A reqs R)
    (h : Loaded t L w (reqs t).ticketId ℓ) (hasked : (reqs t).Asks g)
    (hlive : ∀ v r, TicketChange.apply v g = some r → r.deletedAt = none)
    (hint : ∀ w', w'.db.own t = [] → Q (.error .integrity) w')
    (hwrote : ∀ w' v r, Carrying t w' (reqs t).ticketId (some v) (nothing.set .alterationTickets (reqs t).ticketId r) →
      TicketChange.apply v g = some r → R (reqs t) true ℓ v → (atelier reqs R A).Ensures t (k (true, some r)) Q w')
    (hgone : ∀ w', w'.db.own t = [] → Gone (reqs t) L w'.db → (atelier reqs R A).Ensures t (k (false, none)) Q w')
    (hmissed : ∀ w' x, Carrying t w' (reqs t).ticketId none nothing → Missed (reqs t) L w'.db x →
      R (reqs t) false ℓ x → (atelier reqs R A).Ensures t (k (false, some x)) Q w') :
    (atelier reqs R A).Ensures t (conditional (reqs t).ticketId g >>= k) Q w := by
  unfold conditional
  refine ensures_first (ensures_update atelier_historic (fun w1 hev1 _ _ => hint w1 (h.evolves hev1).mine)
    (fun w1 hev1 _ _ hmiss => ?_) fun w1 v r hev1 _ hv hr hA1 _ _ => ?_)
  · have h1 := h.evolves hev1
    refine ensures_first (ensures_select atelier_historic fun w2 hev2 _ _ hA2 _ => ?_)
    have h2 := h1.evolves hev2
    rw [Engine.view_idle h1.idle] at hmiss
    rw [Engine.view_idle h2.idle]
    cases hfind : find (reqs t).ticketId ⟨w2.db.committed, w2.db.next⟩ with
    | none =>
      refine hgone _ h2.mine ⟨w2.db.log.length, h2.begun, Nat.le_refl _, ?_⟩
      rw [Engine.look_version, Engine.version_length]
      exact hfind
    | some x =>
      obtain ⟨hx, hxlive⟩ := Option.filter_eq_some_iff.1 hfind
      refine hmissed _ x h2.toRested.look.carrying ⟨w1.db.log.length, w2.db.log.length, g, h1.begun, hev2.db.log_le, Nat.le_refl _,
        hasked, ?_, by simpa using hx, by simpa using hxlive⟩ (hA.read t w2 _ _ hA2 h2.idle ℓ x h2.looked hx)
      rw [Engine.look_version, hev2.db.version _ (Nat.le_refl _), Engine.version_length]
      exact hmiss
  · have h1 := h.evolves hev1
    have hR := hA.update t g w1 r _ hA1 ℓ v h1.looked hv
    have hc := h1.written hv hr
    refine ensures_first (ensures_select atelier_historic fun w2 hev2 _ _ _ _ => ?_)
    have hc2 := hc.evolves hev2
    have hview : w2.db.view t .alterationTickets (reqs t).ticketId = some r :=
      Engine.view_pending (by rw [hc2.pending]; exact Rows.set_same)
    have hfind : find (reqs t).ticketId ⟨w2.db.view t, w2.db.next⟩ = some r :=
      Option.filter_eq_some_iff.2 ⟨hview, by simpa using hlive v r hr⟩
    rw [hfind]
    exact hwrote _ v r hc2.look hr hR

theorem record_ensures {x : Option AlterationTicket} {action : AuditAction} {k : Prg β}
    (h : Carrying t w i x writes) (hint : ∀ w', w'.db.own t = [] → Q (.error .integrity) w')
    (hok : ∀ w' n at_, Carrying t w' i x (writes.set .auditLog n
      (⟨n, at_, (reqs t).actor.id, action, (reqs t).ticketId⟩ : AuditLog)) → Onward t w.db w'.db →
      (atelier reqs R A).Ensures t k Q w') :
    (atelier reqs R A).Ensures t (record (reqs t).actor (reqs t).ticketId action >>= fun _ => k) Q w := by
  refine ensures_insert atelier_historic (fun w1 n hev1 _ _ => hint _ (h.evolves hev1).mine) fun w1 hev1 _ _ _ => ?_
  exact hok _ w1.db.next (w1.db.started t) ((h.evolves hev1).noted _)
    ((onward_evolves hev1.db).trans (onward_same rfl rfl))

theorem respond_ensures {x : Option AlterationTicket} {row : AlterationTicket}
    {Q : Except Err Response → World schema nobody → Prop} (h : Carrying t w i x writes)
    (hok : ∀ w' name, Carrying t w' i x writes → Onward t w.db w'.db → Q (.ok (.ticket row name)) w') :
    (atelier reqs R A).Ensures t (respond row) Q w := by
  refine ensures_select atelier_historic fun w1 hev1 _ _ _ _ => hok _ _ (h.evolves hev1).look ?_
  exact (onward_evolves hev1.db).trans (onward_same rfl rfl)

end Statements

/-! ## The verbs -/

theorem conclude_changed {action : AuditAction} (already : Bool) (hnote : (reqs t).note true ℓ r = some action)
    (h : Carrying t w (reqs t).ticketId (some v) (nothing.set .alterationTickets (reqs t).ticketId r))
    (hasked : (reqs t).Asks g) (hchange : TicketChange.apply v g = some r) (hR : R (reqs t) true ℓ v) :
    (atelier reqs R A).Ensures t
      (concludeStage (reqs t).actor (reqs t).ticketId true r action already) (Ends reqs R A t L) w := by
  refine record_ensures h (fun w' hmine => ends_error hmine) fun w1 n at_ h1 _ => ?_
  refine respond_ensures h1 fun w2 name h2 _ => ?_
  refine ends_changed h2 rfl hasked hchange hR ?_ fun e hc => .inl hc
  rw [hnote]
  exact ⟨n, at_, rfl⟩

theorem conclude_missed {x : AlterationTicket} (action : AuditAction) (already : Bool)
    (hnote : (reqs t).note false ℓ x = none) (halready : (reqs t).already x = already)
    (h : Carrying t w (reqs t).ticketId none nothing) (hmissed : Missed (reqs t) L w.db x)
    (hR : R (reqs t) false ℓ x) : (atelier reqs R A).Ensures t
      (concludeStage (reqs t).actor (reqs t).ticketId false x action already) (Ends reqs R A t L) w := by
  refine ensures_raiseIf (fun hno => ends_error ⟨h.mine, x, hmissed, ?_⟩) fun hyes => ?_
  · simpa [halready] using hno
  · refine respond_ensures h fun w1 name h1 ho => ends_unchanged h1 hR ?_ (hmissed.later ho) ?_
    · rw [hnote]
      rfl
    · simpa [halready] using hyes

section Verbs

variable (hA : Supplies A reqs R)
include hA

theorem advance_ensures {target : TicketStage} (hverb : (reqs t).verb = .advance target) (h : Rested t L w) :
    (atelier reqs R A).Ensures t (advance (reqs t).actor (reqs t).ticketId target)
      (fun x w => Answered (reqs t) t L w.db x) w := by
  refine ensures_last (ensures_tenantSession atelier_historic fun w1 n hev1 _ _ => ?_)
  have h1 : Rested t L (⟨{ w1.db with started := Function.update w1.db.started t n }, w1.out⟩ : World schema nobody) :=
    ⟨(h.evolves hev1).idle, (h.evolves hev1).mine, (h.evolves hev1).begun⟩
  refine load_ensures h1 (fun w' hmine hgone => ends_error ⟨hmine, hgone⟩) fun w2 ℓ h2 => ?_
  refine ensures_raiseIf (fun _ => ends_error h2.mine) fun _ => ?_
  refine Session.ensures_now atelier_historic fun w3 hev3 _ _ => ?_
  have hasked : (reqs t).Asks (.advanceStage target w3.db.clock) := by
    unfold Request.Asks
    rw [hverb]
    exact ⟨_, rfl⟩
  refine conditional_ensures hA (h2.evolves hev3) hasked (fun v r hr => ?_) (fun w' hmine => ends_error hmine)
    (fun w' v r h' hr hR => ?_) (fun w' hmine hgone => ends_error ⟨hmine, hgone⟩) fun w' x h' hmissed hR => ?_
  · simp only [TicketChange.apply] at hr
    split at hr
    · rename_i hc
      cases hr
      cases target <;> exact hc.1
    · cases hr
  · exact conclude_changed (stageOf r = target) (by simp [Request.note, hverb]) h' hasked hr hR
  · exact conclude_missed (.atelierTicketStageAdvanced (stageOf ℓ) target) (stageOf x = target) (by simp [Request.note, hverb]) (by simp [Request.already, hverb]) h' hmissed hR

theorem undo_ensures {stage : TicketStage} (hverb : (reqs t).verb = .undo stage) (h : Rested t L w) :
    (atelier reqs R A).Ensures t (undo (reqs t).actor (reqs t).ticketId stage)
      (fun x w => Answered (reqs t) t L w.db x) w := by
  unfold undo
  refine ensures_raiseIf (fun _ => h.mine) fun hstage => ?_
  have hne : stage ≠ .intake := by simpa using hstage
  refine ensures_last (ensures_tenantSession atelier_historic fun w1 n hev1 _ _ => ?_)
  have h1 : Rested t L (⟨{ w1.db with started := Function.update w1.db.started t n }, w1.out⟩ : World schema nobody) :=
    ⟨(h.evolves hev1).idle, (h.evolves hev1).mine, (h.evolves hev1).begun⟩
  refine load_ensures h1 (fun w' hmine hgone => ends_error ⟨hmine, hgone⟩) fun w2 ℓ h2 => ?_
  refine ensures_raiseIf (fun _ => ends_error h2.mine) fun _ => ?_
  have hasked : (reqs t).Asks (.undoStage stage) := by
    unfold Request.Asks
    rw [hverb]
    exact ⟨rfl, hne⟩
  refine conditional_ensures hA h2 hasked (fun v r hr => ?_) (fun w' hmine => ends_error hmine)
    (fun w' v r h' hr hR => ?_) (fun w' hmine hgone => ends_error ⟨hmine, hgone⟩) fun w' x h' hmissed hR => ?_
  · simp only [TicketChange.apply] at hr
    split at hr
    · rename_i hc
      cases hr
      cases stage <;> exact hc.1
    · cases hr
  · exact conclude_changed (clearedThrough r stage) (by simp [Request.note, hverb]) h' hasked hr hR
  · exact conclude_missed (.atelierTicketStageUndone stage (ℓ.stamp stage)) (clearedThrough x stage) (by simp [Request.note, hverb]) (by simp [Request.already, hverb]) h' hmissed hR

variable {target : Option Nat}

theorem reassign_ensures {k : AlterationTicket → Prg β} {Q : Except Err β → World schema nobody → Prop}
    (hverb : (reqs t).verb = .assign target)
    (hmay : ((reqs t).actor.elevated || target = none || target = some (reqs t).actor.id) = true)
    (h : Loaded t L w (reqs t).ticketId ℓ) (herr : ∀ e w', w'.db.own t = [] →
      (e = .domainNotFound → Gone (reqs t) L w'.db) → e ≠ .ticketStageConflict → Q (.error e) w')
    (hwrote : ∀ w' v r g, Carrying t w' (reqs t).ticketId (some v)
      (nothing.set .alterationTickets (reqs t).ticketId r) → (reqs t).Asks g →
      TicketChange.apply v g = some r → R (reqs t) true ℓ v → (atelier reqs R A).Ensures t (k r) Q w')
    (hmissed : ∀ w' x, Carrying t w' (reqs t).ticketId none nothing → Missed (reqs t) L w'.db x →
      R (reqs t) false ℓ x → (reqs t).already x = true → (atelier reqs R A).Ensures t (k x) Q w') :
    (atelier reqs R A).Ensures t (reassign (reqs t).actor (reqs t).ticketId target >>= k) Q w := by
  have hint : ∀ w' : World schema nobody, w'.db.own t = [] → Q (.error .integrity) w' :=
    fun w' hmine => herr _ w' hmine (fun h => by cases h) (fun h => by cases h)
  have hgone : ∀ w' : World schema nobody, w'.db.own t = [] → Gone (reqs t) L w'.db → Q (.error .domainNotFound) w' :=
    fun w' hmine hgone => herr _ w' hmine (fun _ => hgone) (fun h => by cases h)
  unfold reassign
  split
  · rename_i helevated
    have hasked : (reqs t).Asks (.assign target) := by simp [Request.Asks, hverb, helevated]
    refine ensures_first (conditional_ensures hA h hasked (fun v r hr => ?_) hint (fun w' v r h' hr hR => ?_) hgone
      fun w' x h' hm hR => ?_)
    · simp only [TicketChange.apply] at hr
      split at hr
      · rename_i hc
        cases hr
        exact hc
      · cases hr
    · exact hwrote w' v r _ h' hasked hr hR
    · exact hmissed w' x h' hm hR (by simp [Request.already, hverb, helevated])
  · rename_i helevated
    cases target with
    | none =>
      have hasked : (reqs t).Asks (.release (reqs t).actor.id) := by simp [Request.Asks, hverb, helevated]
      refine ensures_first (conditional_ensures hA h hasked (fun v r hr => ?_) hint (fun w' v r h' hr hR => ?_) hgone
        fun w' x h' hm hR => ?_)
      · simp only [TicketChange.apply] at hr
        split at hr
        · rename_i hc
          cases hr
          exact hc.1
        · cases hr
      · exact hwrote w' v r _ h' hasked hr hR
      · change (atelier reqs R A).Ensures t ((raiseIf (!false && x.assignedStaffUserId.isSome)
          .ticketAlreadyAssigned >>= fun _ => pure x) >>= k) Q w'
        refine ensures_first (ensures_raiseIf (fun _ => herr _ w' h'.mine (fun h => by cases h) (fun h => by cases h)) fun hheld => ?_)
        exact hmissed w' x h' hm hR (by simpa [Request.already, hverb, helevated] using hheld)
    | some staffUserId =>
      have hself : some staffUserId = some (reqs t).actor.id := by simpa [helevated] using hmay
      have hasked : (reqs t).Asks (.claim (reqs t).actor.id) := by
        simp [Request.Asks, hverb, helevated, Option.some.inj hself]
      refine ensures_first (conditional_ensures hA h hasked (fun v r hr => ?_) hint (fun w' v r h' hr hR => ?_) hgone
        fun w' x h' hm hR => ?_)
      · simp only [TicketChange.apply] at hr
        split at hr
        · rename_i hc
          cases hr
          exact hc.1
        · cases hr
      · exact hwrote w' v r _ h' hasked hr hR
      · change (atelier reqs R A).Ensures t ((raiseIf (!false && x.assignedStaffUserId ≠ some (reqs t).actor.id)
          .ticketAlreadyAssigned >>= fun _ => pure x) >>= k) Q w'
        refine ensures_first (ensures_raiseIf (fun _ => herr _ w' h'.mine (fun h => by cases h) (fun h => by cases h)) fun hheld => ?_)
        exact hmissed w' x h' hm hR (by simpa [Request.already, hverb, helevated, hself] using hheld)

omit hA in
theorem tell_ensures {x : Option AlterationTicket} {Q : Except Err Response → World schema nobody → Prop}
    (hverb : (reqs t).verb = .assign target) (wrote : Bool) (h : Carrying t w (reqs t).ticketId x writes)
    (hint : ∀ w', w'.db.own t = [] → Q (.error .integrity) w')
    (hok : ∀ w' writes' name, Carrying t w' (reqs t).ticketId x writes' →
      Noted (reqs t) writes ((reqs t).note wrote ℓ r) writes' → Onward t w.db w'.db →
      Q (.ok (.ticket r name)) w') :
    (atelier reqs R A).Ensures t
      (if r.assignedStaffUserId ≠ ℓ.assignedStaffUserId then do
        let _ ← record (reqs t).actor (reqs t).ticketId
          (.atelierTicketAssigned ℓ.assignedStaffUserId r.assignedStaffUserId)
        respond r
      else respond r) Q w := by
  by_cases hne : r.assignedStaffUserId ≠ ℓ.assignedStaffUserId
  · rw [if_pos hne]
    refine record_ensures h hint fun w1 n at_ h1 ho1 => ?_
    refine respond_ensures h1 fun w2 name h2 ho2 => hok w2 _ name h2 ?_ (ho1.trans ho2)
    simp only [Request.note, hverb, if_pos hne]
    exact ⟨n, at_, rfl⟩
  · rw [if_neg hne]
    refine respond_ensures h fun w2 name h2 ho2 => hok w2 _ name h2 ?_ ho2
    simp only [Request.note, hverb, if_neg hne]
    rfl

theorem assign_ensures (hverb : (reqs t).verb = .assign target) (h : Rested t L w) :
    (atelier reqs R A).Ensures t (assign (reqs t).actor (reqs t).ticketId target)
      (fun x w => Answered (reqs t) t L w.db x) w := by
  unfold assign
  refine ensures_raiseIf (fun _ => h.mine) fun hmay => ?_
  refine ensures_last (ensures_tenantSession atelier_historic fun w1 n hev1 _ _ => ?_)
  have h1 : Rested t L (⟨{ w1.db with started := Function.update w1.db.started t n }, w1.out⟩ : World schema nobody) :=
    ⟨(h.evolves hev1).idle, (h.evolves hev1).mine, (h.evolves hev1).begun⟩
  have hrest : ∀ w2 : World schema nobody, Rested t L w2 → (atelier reqs R A).Ensures t (do
      let row ← load (reqs t).ticketId
      let before := row.assignedStaffUserId
      let row ← reassign (reqs t).actor (reqs t).ticketId target
      if row.assignedStaffUserId ≠ before then
        let _ ← record (reqs t).actor (reqs t).ticketId (.atelierTicketAssigned before row.assignedStaffUserId)
        respond row
      else respond row) (Ends reqs R A t L) w2 := by
    intro w2 h2
    refine load_ensures h2 (fun w' hmine hgone => ends_error ⟨hmine, hgone⟩) fun w3 ℓ h3 => ?_
    refine reassign_ensures hA hverb ?_ h3 (fun e w' hmine hgone hne => ends_error ?_)
      (fun w' v r g h' hasked hr hR => ?_) fun w' x h' hm hR halready => ?_
    · revert hmay
      cases (reqs t).actor.elevated <;> simp
      tauto
    · cases e with
      | domainNotFound => exact ⟨hmine, hgone rfl⟩
      | ticketStageConflict => exact absurd rfl hne
      | atelierValidation | notAuthorized | ticketAlreadyAssigned | integrity => exact hmine
    · exact tell_ensures hverb true h' (fun w' hmine => ends_error hmine) fun w'' writes' name h'' hnoted _ =>
        ends_changed h'' rfl hasked hr hR hnoted fun e hc => .inl hc
    · exact tell_ensures hverb false h' (fun w' hmine => ends_error hmine) fun w'' writes' name h'' hnoted ho =>
        ends_unchanged h'' hR hnoted (hm.later ho) halready
  unfold requireSeamstress
  split
  · exact hrest _ h1
  · refine ensures_first (ensures_select atelier_historic fun w2 hev2 _ _ _ _ => ?_)
    refine ensures_raiseIf (fun _ => ends_error (h1.evolves hev2).mine) fun _ => ?_
    exact hrest _ (h1.evolves hev2).look

theorem delete_ensures (hverb : (reqs t).verb = .delete) (h : Rested t L w) :
    (atelier reqs R A).Ensures t (delete (reqs t).actor (reqs t).ticketId)
      (fun x w => Answered (reqs t) t L w.db x) w := by
  refine ensures_last (ensures_tenantSession atelier_historic fun w1 n hev1 _ _ => ?_)
  have h1 : Rested t L (⟨{ w1.db with started := Function.update w1.db.started t n }, w1.out⟩ : World schema nobody) :=
    ⟨(h.evolves hev1).idle, (h.evolves hev1).mine, (h.evolves hev1).begun⟩
  refine load_ensures h1 (fun w' hmine hgone => ends_error ⟨hmine, hgone⟩) fun w2 ℓ h2 => ?_
  have hasked : (reqs t).Asks (.softDelete n) := by
    unfold Request.Asks
    rw [hverb]
    exact ⟨_, rfl⟩
  unfold Tickets.softDelete
  refine ensures_first (ensures_update atelier_historic (fun w3 hev3 _ _ => ends_error (h2.evolves hev3).mine)
    (fun w3 hev3 _ _ hmiss => ?_) fun w3 v r hev3 _ hv hr hA3 _ _ => ?_)
  · refine ensures_raiseIf (fun _ => ends_error ⟨(h2.evolves hev3).mine, w3.db.log.length, (h2.evolves hev3).begun, Nat.le_refl _, ?_⟩)
      fun hno => by simp at hno
    rw [Engine.view_idle (h2.evolves hev3).idle] at hmiss
    rw [Engine.version_length]
    show ((w3.db.committed Table.alterationTickets (reqs t).ticketId : Option AlterationTicket)).filter _ = none
    cases hc : w3.db.committed Table.alterationTickets (reqs t).ticketId with
    | none => rfl
    | some v =>
      rw [hc] at hmiss
      simp only [Option.bind_some, applyChange, TicketChange.apply] at hmiss
      split at hmiss
      · cases hmiss
      · rename_i hdeleted
        simpa using hdeleted
  · refine ensures_raiseIf (fun hno => by simp at hno) fun _ => ?_
    have h3 := h2.evolves hev3
    have hR := hA.update t _ w3 r _ hA3 ℓ v h3.looked hv
    have hr : TicketChange.apply v (.softDelete n) = some r := hr
    refine record_ensures (h3.written hv hr) (fun w' hmine => ends_error hmine) fun w4 m at_ h4 _ => ?_
    refine ends_changed h4 rfl hasked hr hR ?_ fun e hc => ?_
    · simp only [Request.note, hverb]
      exact ⟨m, at_, rfl⟩
    · obtain ⟨c, hc, hby, hw⟩ := hc
      refine ⟨c, hc, hby, r, hw, ?_⟩
      simp only [TicketChange.apply] at hr
      split at hr <;> cases hr
      simp

theorem request_ensures (h : Rested t L w) : (atelier reqs R A).Ensures t (reqs t).code
    (fun x w => Answered (reqs t) t L w.db x) w := by
  unfold Request.code
  cases hverb : (reqs t).verb with
  | advance target => exact advance_ensures hA hverb h
  | undo stage => exact undo_ensures hA hverb h
  | assign target => exact assign_ensures hA hverb h
  | delete => exact delete_ensures hA hverb h

variable {rows : Rows schema} {next : Nat} {clock : Int} {c c₀ : Conf (machine schema nobody Err) Response}

theorem atelier_runs (h : Shelved rows next)
    (hr : Conf.Steps A (opened (fun t => (reqs t).code) rows next clock) c) :
    ∀ (m : Nat) (d : Commit schema), c.state.db.log[m]? = some d → Deed R (reqs d.by_) d.before d.writes := by
  refine (Ledger.run (P := deeds reqs R) (Q := fun _ _ _ => True) h (fun t => ?_) hr).1
  exact safe_of_ensures (request_ensures hA (L := 0) ⟨rfl, rfl, Nat.zero_le _⟩) fun _ _ _ _ _ _ _ => trivial

/-- Every answer is true of the history between any state in which its request had made no call and now. -/
theorem atelier_answers (h : Shelved rows next)
    (h0 : Conf.Steps (fun u o w r w' => u ≠ t ∧ A u o w r w') (opened (fun t => (reqs t).code) rows next clock) c₀)
    (hr : Conf.Steps A c₀ c) :
    (∀ a, c.threads t = some (.ret a) → Answered (reqs t) t c₀.state.db.log.length c.state.db (.ok a)) ∧
      ∀ e, c.threads t = some (.raise e) → Answered (reqs t) t c₀.state.db.log.length c.state.db (.error e) := by
  have hob : Cast.Obeyed Free (opened (fun t => (reqs t).code) rows next clock) := opened_obeyed h
  obtain ⟨hidle, hcode⟩ := hob.unbegun ⟨rfl⟩ h0
  have hown : c₀.state.db.own t = [] := hob.unbegun_own h0
  have h0' := h0.mono fun _ _ _ _ _ hu => hu.2
  obtain ⟨hsound, -⟩ := (atelier reqs R A).runs (Q := fun _ _ _ => True) hob (by simp [Ledger.contract, opened, atRest])
    (fun u p hp => by
      cases hp
      exact safe_of_ensures (request_ensures hA (L := 0) ⟨rfl, rfl, Nat.zero_le _⟩) fun _ _ _ _ _ _ _ => trivial) h0'
  refine (atelier reqs R A).follows (Q := fun x w => Answered (reqs t) t c₀.state.db.log.length w.db x)
    (hob.steps h0').1 hsound.inv.2 (fun u p _ hp => hsound.safe u p hp) (fun p hp => ?_) hr
  cases hcode p hp
  exact safe_of_ensures (request_ensures hA ⟨hidle.pending, hown, Nat.le_refl _⟩) fun x w w' hx hev _ _ =>
    hx.later (onward_evolves hev.db)

end Verbs

end Atelier
