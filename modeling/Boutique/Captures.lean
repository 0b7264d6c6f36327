import Boutique.Ownership
import Boutique.Succession
/-!
# Captures — what the trail of the floor says of the row it is about

The end of a break and the resolve of an alert keep what they have read of the row, and their UPDATEs take the row they
find.  What the trail says is so where nobody has changed that in between.
-/
namespace Staff

open Txn Session Contract

variable {cfg : Config} {reqs : Tid → Request} {t : Tid} {w w' : World schema outside} {e e' : Engine schema}
  {i : Nat} {actor : StaffContext}

/-- **What an audit row tells is so of the commit that writes it**: the row it is about was written, and had what is told. -/
def Describes (d : Commit schema) : AuditAction → Prop
  | .staffBreakEnded target previous => ∃ v : StaffUser, d.before .staffUsers target = some v ∧
      d.writes .staffUsers target = some { v with breakStartedAt := none } ∧ v.breakStartedAt = previous
  | .sosResolved alert fromStatus => ∃ a : SosAlert, d.before .sosAlerts alert = some a ∧
      d.writes .sosAlerts alert = some { a with status := .resolved } ∧ a.status = fromStatus
  | _ => True

abbrev described : Ledger schema where
  Holds _ _ d := ∀ k (n : AuditLog), d.writes .auditLog k = some n → Describes d n.action
  stable _ _ _ _ _ _ _ h := h

/-- **The break that was read still stands**: the end of a break has found somebody on one, whose row it had read and whose
break nobody has started or ended since. -/
def BreakStands (e : Engine schema) (t : Tid) (i : Nat) : Prop :=
  ∀ u : StaffUser, e.committed .staffUsers i = some u → u.live = true → u.breakStartedAt ≠ none →
    e.version (e.seen t) .staffUsers i ≠ none ∧
      Engine.Untouched (S := schema) (T := Table.staffUsers) StaffUser.breakStartedAt e (e.seen t) i

/-- **The status that was read still stands**: a resolve has found the alert live, and nobody has moved it since. -/
def StatusStands (e : Engine schema) (t : Tid) (i : Nat) : Prop :=
  ∀ a : SosAlert, e.committed .sosAlerts i = some a → a.status ∈ LIVE_STATUSES → a.deletedAt = none →
    Engine.Untouched (S := schema) (T := Table.sosAlerts) SosAlert.status e (e.seen t) i

/-- **Nothing is changed between a capture and its UPDATE.** -/
def Undisturbed : (machine schema outside Err).Assumption := fun t o w _ _ =>
  match o with
  | .sql (.update .staffUsers i .endBreak) => BreakStands w.db t i
  | .sql (.update .sosAlerts i (.close .resolved)) => StatusStands w.db t i
  | _ => True

abbrev describing : Contract conduct.shared outside Err := described.contract conduct.shared Undisturbed

theorem describing_historic : describing.Historic fun _ => true := described.historic _

/-! ## Audit rows that describe nothing -/

theorem describes_plain {d : Commit schema} {action : AuditAction} (hb : action.kind ≠ .breakNote)
    (hr : action.kind ≠ .resolveNote) : Describes d action := by
  cases action with
  | staffBreakEnded target previous => exact absurd rfl hb
  | sosResolved alert fromStatus => exact absurd rfl hr
  | _ => trivial

def Light (t : Tid) (e : Engine schema) : Prop :=
  ∀ k (n : AuditLog), e.pending t .auditLog k = some n → ∀ d, Describes d n.action

theorem light_idle (h : e.pending t = fun _ _ => none) : Light t e := fun k n hn => by
  rw [h] at hn
  cases hn

theorem Light.evolves (h : Light t e) (hev : e.Evolves conduct.shared t e') : Light t e' := by
  unfold Light
  rw [hev.pending]
  exact h

def light : List Kind :=
  [.hire, .edit, .breaks, .pending, .unsign, .promote, .clear, .leave, .revoke, .raise, .accept, .close, .note, .acceptNote,
    .erase]

theorem Light.step {l : Bool} {o : Op schema outside} {x : Input} {r : o.Res} (h : Light t w.db)
    (ho : Among light l o) (he : w.exec t o x = some (r, w')) : Light t w'.db := by
  intro k n hn d
  rcases World.exec_wrote he hn with hn | ⟨g, -, -, -, -⟩ | ⟨r0, rfl, rfl, rfl⟩
  · exact h k n hn d
  · cases g
  · have hkind : kind (.sql (.insert .auditLog r0)) = some (AuditLog.action r0).kind := rfl
    have hmem := (ho _ hkind).1
    show Describes d (AuditLog.action r0)
    refine describes_plain (fun hb => ?_) fun hr => ?_
    · rw [hb] at hmem
      exact absurd hmem (by decide)
    · rw [hr] at hmem
      exact absurd hmem (by decide)

theorem light_ensures {p : Prg Response} (hp : Within (Among (.session :: light)) false p) (h : Light t w.db) :
    describing.Ensures t p (fun _ _ => True) w := by
  refine ensures_mono (fun _ _ _ => trivial) (ensures_of_uses (fun _ w => Light t w.db)
    (fun _ _ _ hev h => h.evolves hev.db) (fun l o w x r w' ho hL hI h he hL' hA => ?_) hp h)
  by_cases hcommit : o = .sql .commit
  · subst hcommit
    cases he
    exact ⟨Ledger.inv_commit hI fun k n hn => h k n hn _, light_idle Engine.commit_pending_self⟩
  refine ⟨describing_historic.exec hcommit (fun _ _ => rfl) he hI, ?_⟩
  by_cases habort : o = .sql .abort
  · subst habort
    cases he
    exact light_idle Engine.release_pending_self
  by_cases hbegin : o = .sql .begin
  · subst hbegin
    cases he
    exact h
  exact h.step (ho.tail hbegin hcommit habort) he

/-! ## A capture in flight -/

/-- **What a capture has in flight**: a row written over the one that was found, and audit rows of one action. -/
structure Having (t : Tid) (T : Table) (i : Nat) (v r : Row T) (action : AuditAction) (e : Engine schema) : Prop where
  work : e.AtWork t T (some (i, some v, r))
  audit : ∀ k (n : AuditLog), e.pending t .auditLog k = some n → n.action = action

section Having

variable {β α : Type} {T : Table} {v r : Row T} {action : AuditAction} {Q : Except Err β → World schema outside → Prop}

theorem Having.evolves (h : Having t T i v r action e) (hev : e.Evolves conduct.shared t e') : Having t T i v r action e' :=
  ⟨h.work.evolves hev, by rw [hev.pending]; exact h.audit⟩

theorem Having.congr (h : Having t T i v r action e) (hc : e'.committed = e.committed) (hp : e'.pending t = e.pending t) :
    Having t T i v r action e' :=
  ⟨h.work.congr hc (by rw [hp]), by rw [hp]; exact h.audit⟩

theorem having_written (hT : T ≠ .auditLog) (h : e.pending t = fun _ _ => none)
    (hwork : (e.write t T i r).AtWork t T (some (i, some v, r))) : Having t T i v r action (e.write t T i r) := by
  refine ⟨hwork, fun k n hn => ?_⟩
  rw [Engine.write_pending_row (by simp [hT.symm]), h] at hn
  cases hn

theorem having_reads {p : Prg α} {k : α → Prg β} (hp : Within (Among [.erase]) false p) (h : Having t T i v r action w.db)
    (herr : ∀ e w', Q (.error e) w')
    (hk : ∀ a w', Having t T i v r action w'.db → describing.Ensures t (k a) Q w') : describing.Ensures t (p >>= k) Q w :=
  reads_bind describing_historic (Having t T i v r action) (fun _ _ hev h => h.evolves hev)
    (fun _ _ _ hc hp h => h.congr hc hp) hp h (fun _ _ _ => herr _ _) hk

theorem having_record {k : Unit → Prg β} (hT : T ≠ .auditLog) (h : Having t T i v r action w.db)
    (herr : ∀ e w', Q (.error e) w') (hk : ∀ w', Having t T i v r action w'.db → describing.Ensures t (k ()) Q w') :
    describing.Ensures t (record actor.id i action >>= k) Q w := by
  refine ensures_first (ensures_insert describing_historic (fun w1 _ _ _ _ => herr _ _) fun w1 hev _ _ _ => ?_)
  have h1 := h.evolves hev.db
  refine hk ⟨_, w1.out⟩ ⟨h1.work.insertBeside hT, fun j n hn => ?_⟩
  rcases Engine.inserted_pending hn with heq | hn
  · cases heq
    rfl
  · exact h1.audit j n hn

theorem closes_having {x : Response} (h : Having t T i v r action w.db)
    (hD : ∀ d : Commit schema, d.before T i = some v → d.writes T i = some r → Describes d action) :
    Closes describing t pure (fun _ _ => True) (.ok x) w := by
  refine fun w1 hev _ hI _ _ => ⟨Ledger.inv_commit hI fun k n hn => ?_, trivial⟩
  have h1 := h.evolves hev.db
  rw [h1.audit k n hn]
  exact hD _ (h1.work.found i _ _ rfl) h1.work.row

end Having

section Light

variable {β α : Type} {Q : Except Err β → World schema outside → Prop}

theorem light_reads {p : Prg α} {k : α → Prg β} (hp : Within (Among [.erase]) false p) (h : Light t w.db)
    (herr : ∀ e w', Q (.error e) w') (hk : ∀ a w', Light t w'.db → describing.Ensures t (k a) Q w') :
    describing.Ensures t (p >>= k) Q w :=
  reads_bind describing_historic (Light t) (fun _ _ hev h => h.evolves hev)
    (fun _ _ _ _ hp h => by unfold Light; rw [hp]; exact h) hp h (fun _ _ _ => herr _ _) hk

theorem closes_light {x : Response} (h : Light t w.db) : Closes describing t pure (fun _ _ => True) (.ok x) w :=
  fun _ hev _ hI _ _ => ⟨Ledger.inv_commit hI fun k n hn => (h.evolves hev.db) k n hn _, trivial⟩

end Light

theorem closes_error {e : Err} : Closes describing t pure (fun (_ : Except Err Response) _ => True) (.error e) w :=
  fun _ _ _ => trivial

/-! ## The verbs -/

theorem endBreak_describes (h : w.db.pending t = fun _ _ => none) :
    describing.Ensures t (endBreak i actor) (fun _ _ => True) w := by
  refine ensures_raiseIf (fun _ => trivial) fun _ => ensures_last (ensures_tenantSession describing_historic
    fun w1 x hev1 _ _ => ensures_select describing_historic fun w2 hev2 _ _ _ _ => ?_)
  have hidle : w2.db.pending t = fun _ _ => none := by
    rw [hev2.db.pending]
    rw [hev1.db.pending, h]
  have hidle' : (w2.db.look t).pending t = fun _ _ => none := by rw [Engine.look_pending, hidle]
  refine ensures_first (ensures_updateFirst describing_historic (Engine.atWork_none (by rw [hidle']))
    (fun _ _ => closes_error) (fun w3 hev3 _ _ _ => ?_) fun w3 v r hev3 hL3 hv hr hA hwork => ?_)
  · have h3 : Light t w3.db := light_idle (by rw [hev3.db.pending, hidle'])
    refine ensures_first (light_reads (steady_query _ _).within h3 (fun _ _ => closes_error) fun row w4 h4 => ?_)
    show describing.Ensures t (orRaise row (.notFound .staffUser) >>= _) _ _
    exact light_reads (steady_orRaise _ _).within h4 (fun _ _ => closes_error) fun _ w5 h5 => closes_light h5
  have hr' : StaffUserChange.apply v .endBreak = some r := hr
  simp only [StaffUserChange.apply] at hr'
  split at hr' <;> cases hr'
  rename_i hon
  obtain ⟨hthere, huntouched⟩ := hA v hv hon.2 hon.1
  obtain ⟨u, hu, hsame⟩ := hL3.kept_read hidle hev3.db hv hthere huntouched
  have hlive : StaffUser.live u = true := by
    by_contra hdead
    have hrow := hev3.db.rows .staffUsers i
    rw [Engine.view_idle hidle] at hu
    rw [show (w2.db.look t).committed .staffUsers i = some u from hu, hv] at hrow
    have hstays : Stays _ u v := hrow
    have hleft := hstays.left (by simpa [StaffUser.live] using hdead)
    have hgone : u.deletedAt = none := by rw [← hleft]; simpa [StaffUser.live] using hon.2
    exact hdead (by simpa [StaffUser.live] using hgone)
  have hprevious : (Option.filter StaffUser.live
      ((⟨w2.db.view t, w2.db.next⟩ : Snapshot schema).rows Table.staffUsers i)).bind StaffUser.breakStartedAt =
        v.breakStartedAt := by
    have hread : ((⟨w2.db.view t, w2.db.next⟩ : Snapshot schema).rows Table.staffUsers i : Option StaffUser) = some u := hu
    rw [hread, Option.filter_some, if_pos hlive]
    exact hsame
  rw [hprevious]
  have h3 : Having t .staffUsers i v { v with breakStartedAt := none } (.staffBreakEnded i v.breakStartedAt)
      (w3.db.write t Table.staffUsers i { v with breakStartedAt := none }) :=
    having_written (by decide) (by rw [hev3.db.pending, hidle']) hwork
  refine ensures_first (having_reads (steady_query _ _).within h3 (fun _ _ => closes_error) fun row w4 h4 => ?_)
  show describing.Ensures t (orRaise row (.notFound .staffUser) >>= _) _ _
  refine having_reads (steady_orRaise _ _).within h4 (fun _ _ => closes_error) fun row w5 h5 => ?_
  refine having_record (by decide) h5 (fun _ _ => closes_error) fun w6 h6 => closes_having h6 fun d hbefore hwrites => ?_
  exact ⟨v, hbefore, hwrites, rfl⟩

theorem resolveSos_describes (h : w.db.pending t = fun _ _ => none) :
    describing.Ensures t (resolveSos i actor) (fun _ _ => True) w := by
  refine ensures_last (ensures_tenantSession describing_historic fun w1 x hev1 _ _ =>
    ensures_first (ensures_select describing_historic fun w2 hev2 _ _ _ _ => ?_))
  have hidle : w2.db.pending t = fun _ _ => none := by
    rw [hev2.db.pending]
    rw [hev1.db.pending, h]
  have hidle' : (w2.db.look t).pending t = fun _ _ => none := by rw [Engine.look_pending, hidle]
  refine ensures_first (ensures_orRaise (fun _ => closes_error) fun a ha => ?_)
  have hread : w2.db.view t .sosAlerts i = some a := (Option.filter_eq_some_iff.1 ha).1
  refine ensures_first (ensures_raiseIf (fun _ => closes_error) fun _ => ?_)
  refine ensures_raiseIf (fun _ => closes_error) fun _ => ensures_first (ensures_updateFirst describing_historic
    (Engine.atWork_none (by rw [hidle'])) (fun _ _ => closes_error) (fun w3 hev3 _ _ _ => ?_)
    fun w3 v r hev3 hL3 hv hr hA hwork => ?_)
  · have h3 : Light t w3.db := light_idle (by rw [hev3.db.pending, hidle'])
    refine ensures_first (light_reads (steady_query _ _).within h3 (fun _ _ => closes_error) fun after w4 h4 => ?_)
    show describing.Ensures t (orRaise after (.notFound .sosAlert) >>= _) _ _
    refine light_reads (steady_orRaise _ _).within h4 (fun _ _ => closes_error) fun b w5 h5 => ?_
    unfold explainResolve
    split
    · exact ensures_last (light_reads (steady_sosAnswer _).within h5 (fun _ _ => closes_error) fun _ _ h => closes_light h)
    · exact closes_error
  have hr' : SosAlertChange.apply v (.close .resolved) = some r := hr
  simp only [SosAlertChange.apply] at hr'
  split at hr' <;> cases hr'
  rename_i hclosable
  have hthere : w3.db.version (w3.db.seen t) .sosAlerts i ≠ none := by
    rw [Engine.version_seen hidle hev3.db, hread]
    exact fun h => by cases h
  obtain ⟨u, hu, hsame⟩ := hL3.kept_read hidle hev3.db hv hthere
    (hA v hv (by simpa [allowed] using hclosable.1) hclosable.2)
  have hstatus : a.status = v.status := by
    rw [hread] at hu
    cases hu
    exact hsame
  rw [hstatus]
  have h3 : Having t .sosAlerts i v { v with status := .resolved } (.sosResolved i v.status)
      (w3.db.write t Table.sosAlerts i { v with status := .resolved }) :=
    having_written (by decide) (by rw [hev3.db.pending, hidle']) hwork
  refine ensures_first (having_reads (steady_query _ _).within h3 (fun _ _ => closes_error) fun after w4 h4 => ?_)
  refine having_record (by decide) h4 (fun _ _ => closes_error) fun w5 h5 => ensures_last ?_
  refine having_reads (steady_sosAnswer _).within h5 (fun _ _ => closes_error) fun _ w6 h6 =>
    closes_having h6 fun d hbefore hwrites => ?_
  exact ⟨v, hbefore, hwrites, rfl⟩

/-! ## Whole runs -/

section Runs

variable {out : Store} {rows : Rows schema} {next : Nat} {clock : Int} {c : Conf (machine schema outside Err) Response}

theorem request_describes (h : w.db.pending t = fun _ _ => none) :
    describing.Ensures t ((reqs t).code cfg) (fun _ _ => True) w := by
  have hlight : (∀ k ∈ (reqs t).kinds, k ∈ Kind.session :: light) →
      describing.Ensures t ((reqs t).code cfg) (fun _ _ => True) w := fun hkinds =>
    light_ensures ((within_request cfg (reqs t)).mono fun _ _ ho => ho.mono hkinds) (light_idle h)
  cases hreq : reqs t with
  | endBreak staffId actor => exact endBreak_describes h
  | resolveSos alertId actor => exact resolveSos_describes h
  | create | update | deactivate | presignPhoto | confirmPhoto | deletePhoto | postPhoto | startBreak | raiseSos | acceptSos
  | cancelSos =>
    rw [hreq] at hlight
    exact hlight (by simp [Request.kinds, light])

/-- **What every audit row tells**, in every run that changes nothing between a capture and its UPDATE. -/
theorem captures_described (h : Shelved rows next) (hr : Conf.Steps Undisturbed (serving cfg reqs out rows next clock) c) :
    ∀ d ∈ c.state.db.log, ∀ k (n : AuditLog), d.writes .auditLog k = some n → Describes d n.action := by
  have hsafe : ∀ t p, (serving cfg reqs out rows next clock).threads t = some p →
      describing.logic.Safe t p (fun _ _ => True) (serving cfg reqs out rows next clock).state := by
    intro t p hp
    cases hp
    exact safe_of_ensures (Q := fun _ _ => True) (request_describes rfl) fun _ _ _ _ _ _ _ => trivial
  obtain ⟨hsound, -⟩ := describing.runs (Q := fun _ _ _ => True) (serving_obeyed h)
    (by simp [Ledger.contract, serving, staged, atRest]) hsafe hr
  intro d hd
  obtain ⟨m, hm⟩ := List.mem_iff_getElem?.1 hd
  exact hsound.inv.2 m d hm

/-- **The trail of the floor tells what was written over**, in every run where nobody changes, between a capture and its
UPDATE, what was captured, and no handover is to the holder. -/
theorem trail_describes {roomConfig : Floor.Config} {moves : Tid → Floor.Request} {rooms : Rows Floor.schema} {first : Nat}
    {start : Int} {c₀ : Conf (machine Floor.schema Floor.outside Floor.Err) Floor.Response} (h₀ : Shelved rooms first)
    (hr₀ : Conf.Steps Floor.Unsurpassed (Floor.routing roomConfig moves rooms first start) c₀) (h : Shelved rows next)
    (hr : Conf.Steps Undisturbed (serving cfg reqs out rows next clock) c) :
    (∀ d ∈ c₀.state.db.log, ∀ a n actor, moves d.by_ = .handover a n actor → Floor.Told a n d) ∧
      ∀ d ∈ c.state.db.log, ∀ k (n : AuditLog), d.writes .auditLog k = some n → Describes d n.action :=
  ⟨Floor.handovers_told h₀ hr₀, captures_described h hr⟩

end Runs

/-! ## A room handed to its holder, and an alert accepted under a resolve -/

def toHolder : Tid → Floor.Request := fun _ => .handover 1 10 ⟨20, .shiftManager⟩

def bothAct : Tid → Request
  | 0 => .resolveSos 3 ⟨2, .owner⟩
  | _ => .acceptSos 3 ⟨1, .shiftManager⟩

/-- What is committed of the alert, before and after, and the audit row `k` beside it. -/
def alertCommits (k : Nat) (c : Conf (machine schema outside Err) Response) :
    List (Tid × Option SosAlert × Option SosAlert × Option AuditLog) :=
  c.state.db.log.map fun d => (d.by_, d.before .sosAlerts 3, d.writes .sosAlerts 3, d.writes .auditLog k)

/-- **A handover to the holder is recorded and notified, and a resolve overtaken by an accept says that the alert was
open.** -/
theorem trail_misleads :
    (∃ c, (Floor.routing ⟨Floor.utc⟩ toHolder (listed (S := Floor.schema) Floor.oneSeated) 2 0).Reaches c ∧
      ∃ d ∈ c.state.db.log, d.before .assignments 1 = some (⟨1, 0, none, 0, 10, none, none, none⟩ : Floor.FittingRoomAssignment) ∧
        (d.writes .auditLog 2).isSome = true ∧ (d.writes .notifications 3).isSome = true) ∧
    ∃ c, (serving plainConfig bothAct emptyStore (listed (S := schema) oneCall) 4 0).Reaches c ∧
      ∃ d ∈ c.state.db.log, d.before .sosAlerts 3 = some (⟨3, 0, none, 0, none, none, none, .accepted, some 1, some 0⟩ : SosAlert) ∧
        d.writes .auditLog 5 = some (⟨5, 0, 2, 3, .sosResolved 3 .open_⟩ : AuditLog) := by
  constructor
  · obtain ⟨c, hc, hP⟩ := Conf.reached_freely
        (Floor.routing ⟨Floor.utc⟩ toHolder (listed (S := Floor.schema) Floor.oneSeated) 2 0) (Floor.served 0 9)
      (fun c => decide ((c.state.db.log.map fun d => (d.before .assignments 1, (d.writes .auditLog 2).isSome,
        (d.writes .notifications 3).isSome)) = [(some ⟨1, 0, none, 0, 10, none, none, none⟩, true, true)])) (by decide)
    have hmem := List.mem_singleton_self (some (⟨1, 0, none, 0, 10, none, none, none⟩ : Floor.FittingRoomAssignment), true, true)
    rw [← of_decide_eq_true hP] at hmem
    obtain ⟨d, hd, heq⟩ := List.mem_map.1 hmem
    simp only [Prod.mk.injEq] at heq
    exact ⟨c, hc, d, hd, heq⟩
  · obtain ⟨c, hc, hP⟩ := Conf.reached_freely (serving plainConfig bothAct emptyStore (listed (S := schema) oneCall) 4 0)
      (answered 0 2 ++ answered 1 8 ++ answered 0 5)
      (fun c => decide ((0, some ⟨3, 0, none, 0, none, none, none, .accepted, some 1, some 0⟩,
        some ⟨3, 0, none, 0, none, none, none, .resolved, some 1, some 0⟩, some ⟨5, 0, 2, 3, .sosResolved 3 .open_⟩) ∈
          alertCommits 5 c)) (by decide)
    obtain ⟨d, hd, heq⟩ := List.mem_map.1 (of_decide_eq_true hP)
    simp only [Prod.mk.injEq] at heq
    exact ⟨c, hc, d, hd, heq.2.1, heq.2.2.2⟩

def calmly (o : Op Floor.schema Floor.outside) (e : Engine Floor.schema) : Bool :=
  match o with
  | .sql (.update .assignments a (.handover n)) => e.log.isEmpty ∧ (e.committed .assignments a).any
      fun (v : Floor.FittingRoomAssignment) => v.deletedAt = none ∧ v.staffUserId ≠ n
  | _ => true

theorem unsurpassed_of_calm {o : Op Floor.schema Floor.outside} {r : o.Res} {w w' : World Floor.schema Floor.outside}
    (h : calmly o w.db = true) : Floor.Unsurpassed t o w r w' := by
  unfold Floor.Unsurpassed
  split
  · rename_i a n
    simp only [calmly, decide_eq_true_eq, List.isEmpty_iff] at h
    obtain ⟨hlog, hthere⟩ := h
    intro u hu _
    rw [hu, Option.any_some, decide_eq_true_eq] at hthere
    refine ⟨⟨u, ?_, hthere.1⟩, fun k d _ hd => ?_, hthere.2⟩
    · simp [Engine.version, hlog, hu]
    · rw [hlog] at hd
      cases hd
  · trivial

theorem undisturbed_of_calm {o : Op schema outside} {r : o.Res} (h : w.db.log.isEmpty = true) :
    Undisturbed t o w r w' := by
  have hlog := List.isEmpty_iff.1 h
  unfold Undisturbed
  split
  · intro u hu _ _
    refine ⟨by simp [Engine.version, hlog, hu], fun k d _ hd => ?_⟩
    rw [hlog] at hd
    cases hd
  · intro a _ _ _ k d _ hd
    rw [hlog] at hd
    cases hd
  · trivial

/-- Left alone, a handover tells whom it relieves, and a resolve what it closes. -/
theorem trail_describes_alone : ∃ c₀ c,
    Conf.Steps Floor.Unsurpassed (Floor.routing ⟨Floor.utc⟩ (fun _ => .handover 1 11 ⟨20, .shiftManager⟩)
      (listed (S := Floor.schema) Floor.oneSeated) 2 0) c₀ ∧
    Conf.Steps Undisturbed (serving plainConfig bothAct emptyStore (listed (S := schema) oneCall) 4 0) c ∧
    c₀.state.db.log.length = 1 ∧ c.state.db.log.length = 1 ∧
    (∀ d ∈ c₀.state.db.log, Floor.Told 1 11 d) ∧
    ∀ d ∈ c.state.db.log, ∀ k (n : AuditLog), d.writes .auditLog k = some n → Describes d n.action := by
  obtain ⟨c₀, hc0, hlog0⟩ := Conf.reached_of_play
    (A := fun _ o (w : World Floor.schema Floor.outside) _ _ => calmly o w.db = true)
    (Floor.routing ⟨Floor.utc⟩ (fun _ => .handover 1 11 ⟨20, .shiftManager⟩)
      (listed (S := Floor.schema) Floor.oneSeated) 2 0) (Floor.served 0 9)
    (fun c => decide (c.state.db.log.length = 1)) (by decide)
  obtain ⟨c, hc, hlog⟩ := Conf.reached_of_play (A := fun _ _ (w : World schema outside) _ _ => w.db.log.isEmpty = true)
    (serving plainConfig bothAct emptyStore (listed (S := schema) oneCall) 4 0) (answered 0 7)
    (fun c => decide (c.state.db.log.length = 1)) (by decide)
  have hc0' : Conf.Steps Floor.Unsurpassed (Floor.routing ⟨Floor.utc⟩ (fun _ => .handover 1 11 ⟨20, .shiftManager⟩)
      (listed (S := Floor.schema) Floor.oneSeated) 2 0) c₀ := hc0.mono fun _ _ _ _ _ h => unsurpassed_of_calm h
  have hc' : Conf.Steps Undisturbed (serving plainConfig bothAct emptyStore (listed (S := schema) oneCall) 4 0) c :=
    hc.mono fun _ _ _ _ _ h => undisturbed_of_calm h
  obtain ⟨htold, hdescribed⟩ := trail_describes Floor.oneSeated_shelved hc0' oneCall_shelved hc'
  exact ⟨c₀, c, hc0', hc', of_decide_eq_true hlog0, of_decide_eq_true hlog, fun d hd => htold d hd 1 11 _ rfl, hdescribed⟩

end Staff
