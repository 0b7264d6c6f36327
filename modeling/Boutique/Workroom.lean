import Boutique.Deeds
/-!
# Workroom — what holds of tickets over whole runs

The stage machine holds in every run.  What an audit row tells is what the verb's unlocked load had read, so it is true of
the change it stands beside while the load still says what the UPDATE finds.
-/
namespace Atelier

open Txn Session Contract

variable {reqs : Tid → Request} {rows : Rows schema} {next : Nat} {clock : Int}
  {c : Conf (machine schema nobody Err) Response}

/-! ## A ticket on the rack -/

/-- One ticket, stamped in order up to `stage`, its customer and a seamstress. -/
def rack (stage : TicketStage) : (T : Table) → List (Row T)
  | .alterationTickets =>
    let at_ (s : TicketStage) : Option Int := if s.rank ≤ stage.rank then some s.rank else none
    [(⟨0, 0, none, 1, none, at_ .intake, at_ .inProgress, at_ .qc, at_ .ready, at_ .delivered⟩ : AlterationTicket)]
  | .customers => [(⟨1, 0, none, "Noa"⟩ : Customer)]
  | .staffUsers => [(⟨2, 0, none, .seamstress⟩ : StaffUser)]
  | .auditLog => []

theorem rack_shelved (stage : TicketStage) : Shelved (listed (S := schema) (rack stage)) 3 :=
  shelved_of_stocked [.alterationTickets, .customers, .staffUsers, .auditLog] (fun T => by cases T <;> decide)
    (by cases stage <;> decide)

def handed (verbs : List Verb) : Tid → Request := fun t => ⟨⟨2, .seamstress⟩, 0, verbs.getD t .delete⟩

def atWork (stage : TicketStage) (verbs : List Verb) : Conf (machine schema nobody Err) Response :=
  opened (fun t => (handed verbs t).code) (listed (S := schema) (rack stage)) 3 10

def onRack (c : Conf (machine schema nobody Err) Response) : Option AlterationTicket :=
  c.state.db.committed .alterationTickets 0

def returned (c : Conf (machine schema nobody Err) Response) (t : Tid) : Option AlterationTicket :=
  match c.threads t with
  | some (.ret (.ticket row _)) => some row
  | _ => none

def told (c : Conf (machine schema nobody Err) Response) : List AuditAction :=
  ((⟨c.state.db.committed, c.state.db.next⟩ : Snapshot schema).all .auditLog).map AuditLog.action

def changes {α : Type} (f : AlterationTicket → α) (c : Conf (machine schema nobody Err) Response) :
    List (Option α × Option α) :=
  c.state.db.log.map fun d => (((d.before .alterationTickets 0 : Option AlterationTicket)).map f,
    ((d.after .alterationTickets 0 : Option AlterationTicket)).map f)

def rereading (c : Conf (machine schema nobody Err) Response) (t : Tid) : Bool :=
  match c.threads t with
  | some (.call (.sql (.read .ticketRefreshed)) _) => true
  | _ => false

def alone (t : Tid) (o : Op schema nobody) (w : World schema nobody) : Bool :=
  w.db.log.isEmpty && match o with
    | .sql (.update .alterationTickets i _) => (w.db.pending t .alterationTickets i).isNone
    | _ => true

/-! ## The stage machine -/

/-- **What a request's commit makes of a ticket's stamps.** -/
def Request.Restamps (req : Request) (v r : AlterationTicket) : Prop :=
  match req.verb with
  | .advance target => ∃ at_, r = v.setStamp target (some at_) ∧ v.stamp target = none ∧
      (stageOf v).rank < target.rank ∧ stageOf r = target
  | .undo stage => r = v.setStamp stage none ∧ stage ≠ .intake ∧ stageOf v = stage ∧ (stageOf r).rank < stage.rank
  | _ => ∀ s, r.stamp s = v.stamp s

variable {req : Request} {g : TicketChange} {v r : AlterationTicket} {i : Nat} {t : Tid} {o : Op schema nobody}
  {w w' : World schema nobody}

theorem restamps (hi : v.intakeAt.isSome) (hasked : req.Asks g) (hchange : TicketChange.apply v g = some r) :
    req.Restamps v r := by
  unfold Request.Asks at hasked
  unfold Request.Restamps
  cases hverb : req.verb with
  | advance target =>
    rw [hverb] at hasked
    obtain ⟨at_, rfl⟩ := hasked
    obtain ⟨hr, hlt, hstage⟩ := advanceStage_stage hi hchange
    refine ⟨at_, hr, ?_, hlt, hstage⟩
    simp only [TicketChange.apply] at hchange
    split at hchange
    · rename_i hc
      simp only [clearedThrough, Bool.and_eq_true] at hc
      exact Option.isNone_iff_eq_none.1 hc.2.1
    · cases hchange
  | undo stage =>
    rw [hverb] at hasked
    obtain ⟨rfl, hne⟩ := hasked
    obtain ⟨hr, hstage, hlt⟩ := undoStage_stage hne hi hchange
    exact ⟨hr, hne, hstage, hlt⟩
  | assign target =>
    rw [hverb] at hasked
    have hkeep : ∀ g', g = g' → (∀ target at_, g' ≠ .advanceStage target at_) → (∀ stage, g' ≠ .undoStage stage) →
        ∀ s, r.stamp s = v.stamp s := by
      intro g' hg hadv hundo s
      subst hg
      cases g with
      | advanceStage target at_ => exact absurd rfl (hadv target at_)
      | undoStage stage => exact absurd rfl (hundo stage)
      | claim | release | assign | softDelete =>
        simp only [TicketChange.apply] at hchange
        split at hchange <;> cases hchange
        cases s <;> rfl
    simp only at hasked
    split at hasked
    · exact hkeep _ hasked (fun _ _ h => by cases h) (fun _ h => by cases h)
    · split at hasked
      · exact hkeep _ hasked (fun _ _ h => by cases h) (fun _ h => by cases h)
      · exact hkeep _ hasked.2 (fun _ _ h => by cases h) (fun _ h => by cases h)
  | delete =>
    rw [hverb] at hasked
    obtain ⟨at_, rfl⟩ := hasked
    simp only [TicketChange.apply] at hchange
    split at hchange <;> cases hchange
    intro s
    cases s <;> rfl

theorem Request.Restamps.intake (h : req.Restamps v r) (hi : v.intakeAt.isSome) : r.intakeAt.isSome := by
  unfold Request.Restamps at h
  split at h
  · obtain ⟨at_, rfl, -⟩ := h
    rename_i target _
    cases target <;> first | exact hi | rfl
  · obtain ⟨rfl, hne, -⟩ := h
    rename_i stage _
    cases stage <;> first | exact hi | exact absurd rfl hne
  · have hsame := h .intake
    simp only [AlterationTicket.stamp] at hsame
    rw [hsame]
    exact hi

theorem Deed.written {R : Hearsay} {before writes : Rows schema} (h : Deed R req before writes)
    (hr : writes .alterationTickets i = some r) : i = req.ticketId ∧
      ∃ ℓ v g, before .alterationTickets i = some v ∧ req.Asks g ∧ TicketChange.apply v g = some r ∧ R req true ℓ v ∧
        Noted req (nothing.set .alterationTickets i r) (req.note true ℓ r) writes := by
  have hnoted : ∀ {base : Rows schema} {note : Option AuditAction}, Noted req base note writes →
      base .alterationTickets i = some r := by
    intro base note hn
    unfold Noted at hn
    split at hn
    · rw [← hn]
      exact hr
    · obtain ⟨n, at_, rfl⟩ := hn
      rw [Rows.set_table (by decide)] at hr
      exact hr
  cases h with
  | @changed ℓ v r' g found asked change loaded wrote =>
    have hbase := hnoted wrote
    by_cases hi : i = req.ticketId
    · subst hi
      rw [Rows.set_same] at hbase
      cases hbase
      exact ⟨rfl, ℓ, v, g, found, asked, change, loaded, wrote⟩
    · rw [Rows.set_row hi] at hbase
      cases hbase
  | unchanged loaded live already wrote =>
    have hbase := hnoted wrote
    cases hbase

def Taken (rows : Rows schema) : Prop := ∀ i (v : AlterationTicket), rows .alterationTickets i = some v → v.intakeAt.isSome

theorem Taken.deed {R : Hearsay} {d : Commit schema} (h : Taken d.before) (hd : Deed R req d.before d.writes) :
    Taken d.after := by
  intro i v hv
  cases hw : d.writes .alterationTickets i with
  | none => exact h i v ((Rows.over_none hw).symm.trans hv)
  | some r =>
    have hrv : some r = some v := (Rows.over_some hw).symm.trans hv
    obtain ⟨-, ℓ, v0, g, hfound, hasked, hchange, -⟩ := hd.written hw
    rw [← Option.some.inj hrv]
    exact (restamps (h i v0 hfound) hasked hchange).intake (h i v0 hfound)

def anyHearsay : Hearsay := fun _ _ _ _ => True

theorem any_supplies (A : (machine schema nobody Err).Assumption) : Supplies A reqs anyHearsay :=
  ⟨fun _ _ _ _ _ _ _ _ _ _ => trivial, fun _ _ _ _ _ _ _ _ _ _ => trivial⟩

/-- **The stage machine**, in every run: intakes stay stamped and the stage is a stamped one; an advance stamps its
target alone and raises the stage to it, an undo clears the stage the ticket was at and lowers it, and every answer is
right of the row the request wrote or, where its UPDATE found nothing to change, of the row it then re-read, both within
the request. -/
theorem stages_sound (h : Shelved rows next) (htaken : Taken rows)
    (hr : (opened (fun t => (reqs t).code) rows next clock).Reaches c) :
    (∀ i (v : AlterationTicket), c.state.db.committed .alterationTickets i = some v →
      v.intakeAt.isSome ∧ (v.stamp (stageOf v)).isSome) ∧
    (∀ d ∈ c.state.db.log, ∀ i (r : AlterationTicket), d.writes .alterationTickets i = some r →
      ∃ v, d.before .alterationTickets i = some v ∧ (reqs d.by_).Restamps v r) ∧
    ∀ t c₀, Conf.Steps (fun u _ _ _ _ => u ≠ t) (opened (fun t => (reqs t).code) rows next clock) c₀ → c₀.Reaches c →
      (∀ a, c.threads t = some (.ret a) → Answered (reqs t) t c₀.state.db.log.length c.state.db (.ok a)) ∧
      ∀ e, c.threads t = some (.raise e) → Answered (reqs t) t c₀.state.db.log.length c.state.db (.error e) := by
  have hdeeds := atelier_runs (any_supplies _) h hr
  have hL := ((opened_obeyed h).steps hr).1.lawful
  have hversions : ∀ m, m ≤ c.state.db.log.length → Taken (c.state.db.version m) := by
    refine hL.version_induction ?_ fun m d hd _ _ hbefore => hbefore.deed (hdeeds m d hd)
    rw [opened_version h hr]
    exact htaken
  refine ⟨fun i v hv => ?_, fun d hd i r hw => ?_, fun t c₀ h0 h1 =>
    atelier_answers (any_supplies _) h (h0.mono fun _ _ _ _ _ hu => ⟨hu, trivial⟩) h1⟩
  · have hi := hversions _ (Nat.le_refl _) i v (by rwa [Engine.version_length])
    exact ⟨hi, stamp_stageOf hi⟩
  · obtain ⟨m, hm⟩ := List.mem_iff_getElem?.1 hd
    obtain ⟨-, ℓ, v, g, hfound, hasked, hchange, -⟩ := (hdeeds m d hm).written hw
    have hversion : c.state.db.version m = d.before := by simp [Engine.version, hm]
    have hi := hversions m (List.getElem?_eq_some_iff.1 hm).1.le i v (by rwa [hversion])
    exact ⟨v, hfound, restamps hi hasked hchange⟩

/-- Taken from intake straight to ready, a ticket has no stamp for what it skipped; and a stale advance whose UPDATE met a
ticket past its target is answered that it is there already, once somebody has undone the stage it met. -/
theorem skipped_and_overtaken :
    (∃ c, (atWork .intake [.advance .ready]).Reaches c ∧
      (returned c 0).any (fun row => stageOf row = .ready ∧ row.qcAt = none) = true) ∧
    ∃ c c', (atWork .ready [.advance .qc, .undo .ready]).Reaches c ∧ c.Reaches c' ∧
      (rereading c 0 ∧ c.state.db.log = [] ∧ (onRack c).any (fun row => stageOf row = .ready) = true) ∧
      (returned c' 0).any (fun row => stageOf row = .qc) = true := by
  constructor
  · exact Conf.reached_freely _ (turns 0 8)
      (fun c => (returned c 0).any fun row => stageOf row = .ready ∧ row.qcAt = none) (by decide)
  · obtain ⟨c, hc, hP⟩ := Conf.reached_freely (atWork .ready [.advance .qc, .undo .ready])
      (turns 0 4) (fun c => (rereading c 0 && c.state.db.log.isEmpty && (onRack c).any fun row => stageOf row = .ready) &&
        (c.play (fun _ _ _ _ _ => True) (turns 1 7 ++ turns 0 3)).any
          fun c' => (returned c' 0).any fun row => stageOf row = .qc) (by decide)
    simp only [Bool.and_eq_true, List.isEmpty_iff] at hP
    obtain ⟨⟨⟨hreading, hlog⟩, hready⟩, hplay⟩ := hP
    obtain ⟨c', hc', hqc⟩ := Conf.reached_of_play c _ _ hplay
    exact ⟨c, c', hc, hc', ⟨hreading, hlog, hready⟩, hqc⟩

theorem rack_taken (stage : TicketStage) : Taken (listed (S := schema) (rack stage)) := by
  intro i v hv
  have hm : v ∈ rack stage .alterationTickets := List.mem_of_find?_eq_some hv
  simp only [rack, List.mem_singleton] at hm
  subst hm
  cases stage <;> rfl

theorem stages_sound_on_rack : ∃ c, (atWork .intake [.advance .ready]).Reaches c ∧ c.state.db.log.length = 1 ∧
    ∀ d ∈ c.state.db.log, ∀ i (r : AlterationTicket), d.writes .alterationTickets i = some r →
      ∃ v, d.before .alterationTickets i = some v ∧ (handed [.advance .ready] d.by_).Restamps v r := by
  obtain ⟨c, hc, hP⟩ := Conf.reached_freely (atWork .intake [.advance .ready]) (turns 0 8)
    (fun c => c.state.db.log.length = 1) (by decide)
  exact ⟨c, hc, of_decide_eq_true hP, (stages_sound (rack_shelved _) (rack_taken _) hc).2.1⟩

/-! ## What the audit rows tell -/

/-- **The commit's one audit row.** -/
def Tells (req : Request) (d : Commit schema) (action : AuditAction) : Prop :=
  ∃ n at_, ∀ k, d.writes .auditLog k =
    if k = n then some (⟨n, at_, req.actor.id, action, req.ticketId⟩ : AuditLog) else none

theorem tells_of_noted {d : Commit schema} {base : Rows schema} {action : AuditAction}
    (h : Noted req base (some action) d.writes) (hbase : ∀ k, base .auditLog k = none) : Tells req d action := by
  obtain ⟨n, at_, hw⟩ := h
  refine ⟨n, at_, fun k => ?_⟩
  rw [hw]
  by_cases hk : k = n
  · rw [if_pos hk, hk]
    exact Rows.set_same
  · rw [if_neg hk, Rows.set_row hk]
    exact hbase k

theorem base_silent (k : Nat) : nothing.set .alterationTickets i r .auditLog k = none := by
  rw [Rows.set_table (by decide)]
  rfl

/-- **The load still stands at the UPDATE**: the ticket is at the stage an advance has loaded, and has the stamp an undo
has loaded. -/
def Steadfast (reqs : Tid → Request) : (machine schema nobody Err).Assumption := fun t o w r _ =>
  match o, r with
  | .sql (.update .alterationTickets i _), .ok (some _) =>
    ∀ ℓ v : AlterationTicket, w.db.version (w.db.seen t) .alterationTickets i = some ℓ →
      w.db.view t .alterationTickets i = some v →
      match (reqs t).verb with
      | .advance _ => stageOf ℓ = stageOf v
      | .undo stage => ℓ.stamp stage = v.stamp stage
      | _ => True
  | _, _ => True

def stageHearsay : Hearsay := fun req matched ℓ v =>
  matched = true → match req.verb with
    | .advance _ => stageOf ℓ = stageOf v
    | .undo stage => ℓ.stamp stage = v.stamp stage
    | _ => True

theorem steadfast_supplies : Supplies (Steadfast reqs) reqs stageHearsay :=
  ⟨fun _ _ _ _ _ h ℓ v hℓ hv _ => h ℓ v hℓ hv, fun _ _ _ _ _ _ _ _ _ _ hm => by cases hm⟩

/-- **No undo destroys evidence**, while the load stands: the stamp it clears is the one its audit row keeps, and an
advance tells the stage its UPDATE found. -/
theorem undo_keeps_evidence (h : Shelved rows next)
    (hr : Conf.Steps (Steadfast reqs) (opened (fun t => (reqs t).code) rows next clock) c) :
    ∀ d ∈ c.state.db.log, ∀ i (r : AlterationTicket), d.writes .alterationTickets i = some r →
      ∃ v : AlterationTicket, d.before .alterationTickets i = some v ∧
        match (reqs d.by_).verb with
        | .advance target => Tells (reqs d.by_) d (.atelierTicketStageAdvanced (stageOf v) target)
        | .undo stage => (∀ s x, v.stamp s = some x → r.stamp s = none → s = stage) ∧
            Tells (reqs d.by_) d (.atelierTicketStageUndone stage (v.stamp stage))
        | _ => True := by
  intro d hd i r hw
  obtain ⟨m, hm⟩ := List.mem_iff_getElem?.1 hd
  obtain ⟨-, ℓ, v, g, hfound, hasked, hchange, hR, hnoted⟩ :=
    (atelier_runs steadfast_supplies h hr m d hm).written hw
  refine ⟨v, hfound, ?_⟩
  have hR := hR rfl
  unfold Request.Asks at hasked
  unfold Request.note at hnoted
  cases hverb : (reqs d.by_).verb with
  | advance target =>
    simp only [hverb, if_true] at hR hnoted ⊢
    rw [← hR]
    exact tells_of_noted hnoted base_silent
  | undo stage =>
    simp only [hverb, if_true] at hR hnoted hasked ⊢
    obtain ⟨rfl, -⟩ := hasked
    rw [← hR]
    refine ⟨fun s x hs hclear => ?_, tells_of_noted hnoted base_silent⟩
    by_contra hne
    simp only [TicketChange.apply] at hchange
    split at hchange <;> cases hchange
    rw [stamp_setStamp_ne hne, hs] at hclear
    cases hclear
  | assign target => trivial
  | delete => trivial

/-- **Evidence lost**: an undo has loaded one stamp, the same stage is undone and reached again beside it, and the stamp
it then clears is in no audit row. -/
theorem evidence_lost : ∃ c, (atWork .qc [.undo .qc, .undo .qc, .advance .qc]).Reaches c ∧
    changes AlterationTicket.qcAt c =
      [(some (some 2), some none), (some none, some (some 10)), (some (some 10), some none)] ∧
    told c = [.atelierTicketStageUndone .qc (some 2), .atelierTicketStageAdvanced .inProgress .qc,
      .atelierTicketStageUndone .qc (some 2)] := by
  obtain ⟨c, hc, hP⟩ := Conf.reached_freely
      (atWork .qc [.undo .qc, .undo .qc, .advance .qc]) (turns 0 2 ++ turns 1 7 ++ turns 2 8 ++ turns 0 5)
    (fun c => decide (changes AlterationTicket.qcAt c =
        [(some (some 2), some none), (some none, some (some 10)), (some (some 10), some none)] ∧
      told c = [.atelierTicketStageUndone .qc (some 2), .atelierTicketStageAdvanced .inProgress .qc,
        .atelierTicketStageUndone .qc (some 2)])) (by decide)
  exact ⟨c, hc, of_decide_eq_true hP⟩

theorem loaded_of_alone (h : alone t o w = true) (ho : o = .sql (.update .alterationTickets i g)) :
    w.db.version (w.db.seen t) .alterationTickets i = w.db.view t .alterationTickets i := by
  subst ho
  simp only [alone, Bool.and_eq_true, List.isEmpty_iff, Option.isNone_iff_eq_none] at h
  rw [Engine.view, Rows.over_none h.2]
  simp [Engine.version, h.1]

theorem steadfast_of_alone {reqs : Tid → Request} {r : o.Res} (h : alone t o w = true) :
    Steadfast reqs t o w r w' := by
  unfold Steadfast
  split
  · intro ℓ v hℓ hv
    rw [loaded_of_alone h rfl, hv] at hℓ
    cases hℓ
    split <;> trivial
  · trivial

theorem undo_keeps_evidence_alone : ∃ c, Conf.Steps (Steadfast (handed [.undo .qc])) (atWork .qc [.undo .qc]) c ∧
    c.state.db.log.length = 1 ∧
    ∀ d ∈ c.state.db.log, ∀ i (r : AlterationTicket), d.writes .alterationTickets i = some r →
      ∃ v : AlterationTicket, d.before .alterationTickets i = some v ∧
        match (handed [.undo .qc] d.by_).verb with
        | .advance target => Tells (handed [.undo .qc] d.by_) d (.atelierTicketStageAdvanced (stageOf v) target)
        | .undo stage => (∀ s x, v.stamp s = some x → r.stamp s = none → s = stage) ∧
            Tells (handed [.undo .qc] d.by_) d (.atelierTicketStageUndone stage (v.stamp stage))
        | _ => True := by
  obtain ⟨c, hc, hP⟩ := Conf.reached_of_play (A := fun t o w _ _ => alone t o w = true) (atWork .qc [.undo .qc])
    (turns 0 7) (fun c => c.state.db.log.length = 1) (by decide)
  have hc' : Conf.Steps (Steadfast (handed [.undo .qc])) (atWork .qc [.undo .qc]) c :=
    hc.mono fun _ _ _ _ _ h => steadfast_of_alone h
  exact ⟨c, hc', of_decide_eq_true hP, undo_keeps_evidence (rack_shelved _) hc'⟩

/-! ## What an assignment tells -/

/-- **The assignee a request loaded still stands**: at its UPDATE, and, where that found nothing to change, at the re-read
that finds the ticket as the request wants it. -/
def Undisputed (reqs : Tid → Request) : (machine schema nobody Err).Assumption := fun t o w r _ =>
  match (reqs t).verb, o, r with
  | .assign _, .sql (.update .alterationTickets i _), .ok (some _) =>
    ∀ ℓ v : AlterationTicket, w.db.version (w.db.seen t) .alterationTickets i = some ℓ →
      w.db.view t .alterationTickets i = some v → ℓ.assignedStaffUserId = v.assignedStaffUserId
  | .assign _, .sql (.read .ticketRefreshed), _ => w.db.pending t = nothing →
    ∀ ℓ x : AlterationTicket, w.db.version (w.db.seen t) .alterationTickets (reqs t).ticketId = some ℓ →
      w.db.committed .alterationTickets (reqs t).ticketId = some x → x.deletedAt = none →
      (reqs t).already x = true → ℓ.assignedStaffUserId = x.assignedStaffUserId
  | _, _, _ => True

def assigneeHearsay : Hearsay := fun req matched ℓ v =>
  match req.verb with
  | .assign _ => (matched = false → v.deletedAt = none ∧ req.already v = true) → ℓ.assignedStaffUserId = v.assignedStaffUserId
  | _ => True

theorem undisputed_supplies : Supplies (Undisputed reqs) reqs assigneeHearsay := by
  refine ⟨fun t g w r w' h ℓ v hℓ hv => ?_, fun t w s w' h hidle ℓ x hℓ hx => ?_⟩
  · unfold assigneeHearsay
    cases hverb : (reqs t).verb with
    | assign target =>
      simp only [Undisputed, hverb] at h
      exact fun _ => h ℓ v hℓ hv
    | advance | undo | delete => trivial
  · unfold assigneeHearsay
    cases hverb : (reqs t).verb with
    | assign target =>
      simp only [Undisputed, hverb] at h
      exact fun hsame => h hidle ℓ x hℓ hx (hsame rfl).1 (hsame rfl).2
    | advance | undo | delete => trivial

theorem assignee_kept (hasked : req.Asks g) (hchange : TicketChange.apply v g = some r)
    (hne : v.assignedStaffUserId ≠ r.assignedStaffUserId) : ∃ target, req.verb = .assign target := by
  unfold Request.Asks at hasked
  cases hverb : req.verb with
  | assign target => exact ⟨target, rfl⟩
  | advance target =>
    rw [hverb] at hasked
    obtain ⟨at_, rfl⟩ := hasked
    simp only [TicketChange.apply] at hchange
    split at hchange <;> cases hchange
    cases target <;> exact absurd rfl hne
  | undo stage =>
    rw [hverb] at hasked
    obtain ⟨rfl, -⟩ := hasked
    simp only [TicketChange.apply] at hchange
    split at hchange <;> cases hchange
    cases stage <;> exact absurd rfl hne
  | delete =>
    rw [hverb] at hasked
    obtain ⟨at_, rfl⟩ := hasked
    simp only [TicketChange.apply] at hchange
    split at hchange <;> cases hchange
    exact absurd rfl hne

/-- **The assignment audit is complete**, while the loaded assignee stands: a commit that changes it is an assignment's
and has one audit row, from the assignee before to the one after; an assignment that changes nothing writes none. -/
theorem assignment_audited (h : Shelved rows next)
    (hr : Conf.Steps (Undisputed reqs) (opened (fun t => (reqs t).code) rows next clock) c) :
    ∀ d ∈ c.state.db.log,
      (∀ i (v r : AlterationTicket), d.before .alterationTickets i = some v → d.writes .alterationTickets i = some r →
        v.assignedStaffUserId ≠ r.assignedStaffUserId → (∃ target, (reqs d.by_).verb = .assign target) ∧
          i = (reqs d.by_).ticketId ∧
          Tells (reqs d.by_) d (.atelierTicketAssigned v.assignedStaffUserId r.assignedStaffUserId)) ∧
      ((∃ target, (reqs d.by_).verb = .assign target) →
        (∀ i (v r : AlterationTicket), d.before .alterationTickets i = some v → d.writes .alterationTickets i = some r →
          v.assignedStaffUserId = r.assignedStaffUserId) → ∀ k, d.writes .auditLog k = none) := by
  intro d hd
  obtain ⟨m, hm⟩ := List.mem_iff_getElem?.1 hd
  have hdeed := atelier_runs undisputed_supplies h hr m d hm
  refine ⟨fun i v r hv hw hne => ?_, fun hassign hsame k => ?_⟩
  · obtain ⟨hi, ℓ, v', g, hfound, hasked, hchange, hR, hnoted⟩ := hdeed.written hw
    rw [hv] at hfound
    cases hfound
    obtain ⟨target, hverb⟩ := assignee_kept hasked hchange hne
    refine ⟨⟨target, hverb⟩, hi, ?_⟩
    simp only [assigneeHearsay, hverb] at hR
    have hℓ := hR (fun h => by cases h)
    simp only [Request.note, hverb, hℓ, if_pos hne.symm] at hnoted
    exact tells_of_noted hnoted base_silent
  · obtain ⟨target, hverb⟩ := hassign
    cases hdeed with
    | @changed ℓ v r g found asked change loaded wrote =>
      have hw : d.writes .alterationTickets (reqs d.by_).ticketId = some r := by
        unfold Noted at wrote
        split at wrote
        · rw [wrote]
          exact Rows.set_same
        · obtain ⟨n, at_, hw⟩ := wrote
          rw [hw, Rows.set_table (by decide)]
          exact Rows.set_same
      simp only [assigneeHearsay, hverb] at loaded
      have heq := hsame _ v r found hw
      have hnot : ¬r.assignedStaffUserId ≠ ℓ.assignedStaffUserId := by simp [loaded (fun h => by cases h), heq]
      simp only [Request.note, hverb, if_neg hnot, Noted] at wrote
      rw [wrote]
      exact base_silent k
    | @unchanged ℓ x loaded live already wrote =>
      simp only [assigneeHearsay, hverb] at loaded
      have hnot : ¬x.assignedStaffUserId ≠ ℓ.assignedStaffUserId := by simp [loaded fun _ => ⟨live, already⟩]
      simp only [Request.note, hverb, if_neg hnot, Noted] at wrote
      rw [wrote]
      rfl

/-- **A change told of twice**: two devices of one seamstress claim a ticket; the second changes nothing and has its audit
row all the same. -/
theorem claim_told_twice : ∃ c, (atWork .intake [.assign (some 2), .assign (some 2)]).Reaches c ∧
    changes AlterationTicket.assignedStaffUserId c = [(some none, some (some 2)), (some (some 2), some (some 2))] ∧
    told c = [.atelierTicketAssigned none (some 2), .atelierTicketAssigned none (some 2)] := by
  obtain ⟨c, hc, hP⟩ := Conf.reached_freely
      (atWork .intake [.assign (some 2), .assign (some 2)]) (turns 0 3 ++ turns 1 8 ++ turns 0 5)
    (fun c => decide (changes AlterationTicket.assignedStaffUserId c =
        [(some none, some (some 2)), (some (some 2), some (some 2))] ∧
      told c = [.atelierTicketAssigned none (some 2), .atelierTicketAssigned none (some 2)])) (by decide)
  exact ⟨c, hc, of_decide_eq_true hP⟩

theorem undisputed_of_alone {reqs : Tid → Request} {r : o.Res} (h : alone t o w = true) :
    Undisputed reqs t o w r w' := by
  unfold Undisputed
  split
  · intro ℓ v hℓ hv
    rw [loaded_of_alone h rfl, hv] at hℓ
    cases hℓ
    rfl
  · intro _ ℓ x hℓ hx _ _
    simp only [alone, Bool.and_eq_true, List.isEmpty_iff] at h
    simp only [Engine.version, h.1, List.getElem?_nil] at hℓ
    rw [hx] at hℓ
    cases hℓ
    rfl
  · trivial

theorem assignment_audited_alone : ∃ c,
    Conf.Steps (Undisputed (handed [.assign (some 2)])) (atWork .intake [.assign (some 2)]) c ∧
    c.state.db.log.length = 1 ∧ ∀ d ∈ c.state.db.log,
      (∀ i (v r : AlterationTicket), d.before .alterationTickets i = some v → d.writes .alterationTickets i = some r →
        v.assignedStaffUserId ≠ r.assignedStaffUserId → (∃ target, (handed [.assign (some 2)] d.by_).verb = .assign target) ∧
          i = (handed [.assign (some 2)] d.by_).ticketId ∧
          Tells (handed [.assign (some 2)] d.by_) d
            (.atelierTicketAssigned v.assignedStaffUserId r.assignedStaffUserId)) := by
  obtain ⟨c, hc, hP⟩ := Conf.reached_of_play (A := fun t o w _ _ => alone t o w = true) (atWork .intake [.assign (some 2)])
    (turns 0 8) (fun c => c.state.db.log.length = 1) (by decide)
  have hc' : Conf.Steps (Undisputed (handed [.assign (some 2)])) (atWork .intake [.assign (some 2)]) c :=
    hc.mono fun _ _ _ _ _ h => undisputed_of_alone h
  exact ⟨c, hc', of_decide_eq_true hP, fun d hd => (assignment_audited (rack_shelved _) hc' d hd).1⟩

end Atelier
