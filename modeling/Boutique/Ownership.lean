import Boutique.Conduct
/-!
# Ownership — who answers a call for help

Each commit moves an alert by one conditional UPDATE, and an accept is recorded with the write that makes it; so the first
accept owns the alert, and whoever loses is told the owner's name.
-/
namespace Staff

open Txn Session Contract

variable {cfg : Config} {reqs : Tid → Request} {t : Tid} {w w' : World schema outside} {e e' : Engine schema}
  {W : Work SosAlert} {N : Option (Nat × Nat)} {i : Nat} {actor : StaffContext}

/-- **One move of an alert.** -/
inductive Moved (a : SosAlert) : SosAlert → Prop
  | accepted {o : Nat} {n : Int} (status : a.status = .open_) (other : o ≠ a.raisedBy) :
      Moved a { a with status := .accepted, acceptedBy := some o, acknowledgedAt := some n }
  | resolved (status : a.status = .open_ ∨ a.status = .accepted) : Moved a { a with status := .resolved }
  | cancelled (status : a.status = .open_) : Moved a { a with status := .cancelled }

inductive Written : Option SosAlert → SosAlert → Prop
  | raised {r : SosAlert} (status : r.status = .open_) (owner : r.acceptedBy = none) (at_ : r.acknowledgedAt = none) :
      Written none r
  | moved {a r : SosAlert} (h : Moved a r) : Written (some a) r

def Accepts (d : Commit schema) (i : Nat) : Prop :=
  ∃ a r : SosAlert, d.before .sosAlerts i = some a ∧ d.writes .sosAlerts i = some r ∧ a.status = .open_ ∧
    r.status = .accepted

def Notes (d : Commit schema) (k i : Nat) : Prop :=
  ∃ (n : AuditLog) (b : Nat), d.writes .auditLog k = some n ∧ n.action = .sosAccepted i b

structure Deed (d : Commit schema) : Prop where
  written : ∀ i (r : SosAlert), d.writes .sosAlerts i = some r → Written (d.before .sosAlerts i) r
  noted : ∀ k i, Notes d k i → Accepts d i
  once : ∀ k k' i i', Notes d k i → Notes d k' i' → k = k' ∧ i = i'

abbrev deeds : Ledger schema where
  Holds _ _ d := Deed d
  stable _ _ _ _ _ _ _ h := h

abbrev owning : Contract conduct.shared outside Err := deeds.contract conduct.shared fun _ _ _ _ _ => True

theorem owning_historic : owning.Historic fun _ => true := deeds.historic _

/-! ## A thread at work -/

/-- **What a thread has in flight**: one alert at most, and the audit rows of accepts. -/
structure Working (t : Tid) (W : Work SosAlert) (N : Option (Nat × Nat)) (e : Engine schema) : Prop where
  alerts : e.AtWork t Table.sosAlerts W
  notes : ∀ k (n : AuditLog) i b, e.pending t .auditLog k = some n → n.action = .sosAccepted i b → N = some (k, i)

structure Rightful (W : Work SosAlert) (N : Option (Nat × Nat)) : Prop where
  written : ∀ i v r, W = some (i, v, r) → Written v r
  noted : ∀ k i, N = some (k, i) → ∃ a r : SosAlert, W = some (i, some a, r) ∧ a.status = .open_ ∧ r.status = .accepted

theorem working_idle (h : e.pending t = fun _ _ => none) : Working t none none e :=
  ⟨Engine.atWork_none (by rw [h]), fun k n i b hn => by rw [h] at hn; cases hn⟩

theorem rightful_none : Rightful none none :=
  ⟨(fun i v r h => by cases h), fun k i h => by cases h⟩

theorem Working.evolves (h : Working t W N e) (hev : e.Evolves conduct.shared t e') : Working t W N e' :=
  ⟨h.alerts.evolves hev, by rw [hev.pending]; exact h.notes⟩

theorem Working.deed (h : Working t W N e) (hr : Rightful W N) : Deed (e.entry t) := by
  have hnote : ∀ k i, Notes (e.entry t) k i → N = some (k, i) := by
    rintro k i ⟨n, b, hn, haction⟩
    exact h.notes k n i b hn haction
  refine ⟨fun i r hw => ?_, fun k i hn => ?_, fun k k' i i' hn hn' => ?_⟩
  · obtain ⟨v, hW, hbefore⟩ := h.alerts.entry hw
    rw [hbefore]
    exact hr.written i v r hW
  · obtain ⟨a, r, hW, hopen, haccepted⟩ := hr.noted k i (hnote k i hn)
    subst hW
    exact ⟨a, r, h.alerts.found i _ r rfl, h.alerts.row, hopen, haccepted⟩
  · have hpair := (hnote k i hn).symm.trans (hnote k' i' hn')
    cases hpair
    exact ⟨rfl, rfl⟩

def plain : List Kind :=
  [.hire, .edit, .breaks, .pending, .unsign, .promote, .clear, .leave, .revoke, .note, .breakNote, .resolveNote, .erase]

theorem kind_alerts (i : Nat) (g : SosAlertChange) :
    kind (.sql (.update .sosAlerts i g)) ∈ [some .accept, some .close, some .reopen] := by
  cases g with
  | accept actorId at_ => simp [kind]
  | close to_ => cases to_ <;> simp [kind]

variable {o : Op schema outside} {a r : SosAlert}

theorem Among.spares_alerts {ks : List Kind} {l : Bool} (h : Among ks l o)
    (hks : ∀ k ∈ [Kind.raise, .accept, .close, .reopen], k ∉ ks) :
    (∀ j g, o ≠ .sql (.update .sosAlerts j g)) ∧ ∀ r, o ≠ .sql (.insert .sosAlerts r) := by
  constructor
  · rintro j g rfl
    have hkind := kind_alerts j g
    simp only [List.mem_cons, List.not_mem_nil, or_false] at hkind
    rcases hkind with hk | hk | hk
    · exact hks .accept (by decide) (h _ hk).1
    · exact hks .close (by decide) (h _ hk).1
    · exact hks .reopen (by decide) (h _ hk).1
  · rintro r rfl
    exact hks .raise (by decide) (h _ rfl).1

theorem Working.step {l : Bool} {x : Input} {r : o.Res} (h : Working t W N w.db) (ho : Among plain l o)
    (he : w.exec t o x = some (r, w')) : Working t W N w'.db := by
  have hin : o.Inside := ho.inside (by decide)
  have hspares := ho.spares_alerts (by decide)
  have hlog := World.exec_log (ho.not_session (by decide)).1 he
  refine ⟨h.alerts.congr hlog.2 (World.exec_pending hin hspares.1 hspares.2 he), fun k n i b hn haction => ?_⟩
  rcases World.exec_wrote he hn with hn | ⟨g, -, -, -, -⟩ | ⟨r0, rfl, rfl, rfl⟩
  · exact h.notes k n i b hn haction
  · cases g
  · have hnote : (AuditLog.action r0).kind = .acceptNote := by
      rw [show AuditLog.action r0 = .sosAccepted i b from haction]
      rfl
    have hkind : kind (.sql (.insert .auditLog r0)) = some .acceptNote := congrArg some hnote
    exact absurd (ho _ hkind).1 (by decide)

section Stretches

variable {α β : Type} {Q : Except Err β → World schema outside → Prop}

theorem plain_bind {E : Err → Prop} {p : Prg α} {k : α → Prg β} (hp : Within (Among plain) false p) (hE : Raising E p)
    (h : Working t W N w.db) (herr : ∀ e w', E e → Q (.error e) w')
    (hk : ∀ a w', Working t W N w'.db → owning.Ensures t (k a) Q w') : owning.Ensures t (p >>= k) Q w := by
  have hstretch : owning.Ensures t p (fun _ w' => Working t W N w'.db) w := by
    refine ensures_mono (fun x w' hx => ?_) (ensures_of_uses (fun _ w => Working t W N w.db)
      (fun _ _ _ hev h => h.evolves hev.db) (fun l o w x r w' ho hL hI h he hL' hA => ?_) hp h)
    · obtain ⟨-, -, hx⟩ := hx
      exact hx
    · exact ⟨owning_historic.exec (ho.not_session (by decide)).1 (fun _ _ => rfl) he hI, h.step ho he⟩
  refine ensures_bind (ensures_mono (fun x w' hx => ?_) (ensures_ends hE hstretch))
  cases x with
  | ok a => exact hk a w' hx.2
  | error e => exact herr e w' (hx.1 e rfl)

end Stretches

theorem aside_ensures {p : Prg Response} (hp : Within (Among (.session :: plain)) false p)
    (h : w.db.pending t = fun _ _ => none) : owning.Ensures t p (fun _ _ => True) w := by
  refine ensures_mono (fun _ _ _ => trivial) (ensures_of_uses (fun _ w => Working t none none w.db)
    (fun _ _ _ hev h => h.evolves hev.db) (fun l o w x r w' ho hL hI h he hL' hA => ?_) hp (working_idle h))
  by_cases hcommit : o = .sql .commit
  · subst hcommit
    cases he
    exact ⟨Ledger.inv_commit hI (h.deed rightful_none), working_idle Engine.commit_pending_self⟩
  refine ⟨owning_historic.exec hcommit (fun _ _ => rfl) he hI, ?_⟩
  by_cases habort : o = .sql .abort
  · subst habort
    cases he
    exact working_idle Engine.release_pending_self
  by_cases hbegin : o = .sql .begin
  · subst hbegin
    cases he
    exact ⟨h.alerts.congr rfl rfl, h.notes⟩
  exact h.step (ho.tail hbegin hcommit habort) he

/-! ## The verbs -/

def Request.contests : Request → Option Nat
  | .acceptSos alertId _ | .cancelSos alertId _ => some alertId
  | _ => none

/-- **The name is that of the alert's owner**, as her row stood: alert `i` was read accepted. -/
def Named (i : Nat) (details : Option String) (e : Engine schema) : Prop :=
  ∃ m, m ≤ e.log.length ∧ ∃ m', m' ≤ e.log.length ∧ ∃ a : SosAlert, e.version m .sosAlerts i = some a ∧
    a.status = .accepted ∧ details = a.acceptedBy.bind fun o =>
      ((e.version m' .staffUsers o).filter StaffUser.live).map StaffUser.displayName

theorem lasts_named (i : Nat) (details : Option String) : Lasts (Named i details) := by
  rintro e e' hl hv ⟨m, hm, m', hm', a, ha, hstatus, hname⟩
  refine ⟨m, Nat.le_trans hm hl.length_le, m', Nat.le_trans hm' hl.length_le, a, by rw [hv m hm]; exact ha, hstatus, ?_⟩
  rw [hname, hv m' hm']

def Told (reqs : Tid → Request) (t : Tid) (x : Except Err Response) (w : World schema outside) : Prop :=
  ∀ i details, (reqs t).contests = some i → x = .error (.sosAlreadyAccepted details) → Named i details w.db

def Mute (e : Err) : Prop := ∀ details, e ≠ .sosAlreadyAccepted details

theorem told_mute {e : Err} (h : Mute e) : Told reqs t (.error e) w := by
  intro i details _ he
  cases he
  exact absurd rfl (h details)

theorem closes_mute {e : Err} (h : Mute e) : Closes owning t pure (Told reqs t) (.error e) w :=
  fun _ _ _ => told_mute h

theorem closes_named {details : Option String} (hreq : (reqs t).contests = some i) (h : Named i details w.db) :
    Closes owning t pure (Told reqs t) (.error (.sosAlreadyAccepted details)) w := by
  intro w1 hev _ j details' hreq' he
  have hij : i = j := Option.some.inj (hreq.symm.trans hreq')
  cases he
  subst hij
  have h1 : Named i details w1.db := (lasts_named i details).evolves hev.db h
  exact (lasts_named i details).congr rfl rfl h1

theorem closes_rightful {r : Response} (hr : Rightful W N) (h : Working t W N w.db) :
    Closes owning t pure (Told reqs t) (.ok r) w := by
  intro w1 hev _ hI _ _
  refine ⟨Ledger.inv_commit hI ((h.evolves hev.db).deed hr), ?_⟩
  intro i details _ he
  cases he

section Verbs

variable {β : Type} {Q : Except Err β → World schema outside → Prop}

theorem mute_sosAnswer (i : Nat) : Raising Mute (sosAnswer i) :=
  raising_bind (raising_bind (raising_select _ _) fun _ => raising_orRaise _ (by intro details h; cases h))
    fun _ => raising_ret _

theorem mute_integrity : Mute .integrity := fun details h => by cases h

theorem mute_record (actorId entity : Nat) (action : AuditAction) : Raising Mute (record actorId entity action) :=
  raising_bind (raising_insert mute_integrity _ _) fun _ => raising_ret _

structure Read (t : Tid) (i : Nat) (a : SosAlert) (e : Engine schema) : Prop where
  idle : e.pending t = fun _ _ => none
  row : e.committed .sosAlerts i = some a

theorem visibleAlert_ensures {k : SosAlert → Prg β} (h : w.db.pending t = fun _ _ => none)
    (herr : ∀ e w', Mute e → Q (.error e) w')
    (hk : ∀ a w', Read t i a w'.db → owning.Ensures t (k a) Q w') :
    owning.Ensures t (visibleAlert i actor >>= k) Q w := by
  refine ensures_first (ensures_select owning_historic fun w1 hev hL hI _ _ => ?_)
  have hidle : w1.db.pending t = fun _ _ => none := by rw [hev.db.pending, h]
  have hmute : Mute (.notFound .sosAlert) := fun details h => by cases h
  refine ensures_first (ensures_orRaise (fun _ => herr _ _ hmute) fun a ha => ?_)
  refine ensures_first (ensures_raiseIf (fun _ => herr _ _ hmute) fun _ => hk a _ ⟨hidle, ?_⟩)
  have hview := (Option.filter_eq_some_iff.1 ha).1
  change w1.db.view t .sosAlerts i = some a at hview
  rwa [Engine.view_idle hidle] at hview

/-- **The conditional UPDATE of an alert**, and the re-read behind it: it wrote over the alert that was read, or it wrote
nothing and the alert is read again. -/
theorem conditional_ensures {g : SosAlertChange} {k : Bool × Option SosAlert → Prg β} (h : Read t i a w.db)
    (herr : ∀ e w', Mute e → Q (.error e) w')
    (hwrote : ∀ (v r : SosAlert) after w', Onward a v → SosAlertChange.apply v g = some r →
      Working t (some (i, some v, r)) none w'.db → owning.Ensures t (k (true, after)) Q w')
    (hmissed : ∀ after w', w'.db.pending t = (fun _ _ => none) →
      (∀ b, after = some b → w'.db.committed .sosAlerts i = some b) → owning.Ensures t (k (false, after)) Q w') :
    owning.Ensures t ((do
      let wrote ← update .sosAlerts i g
      let refreshed ← SosAlerts.byId i
      return (Option.isSome wrote, refreshed) : Prg (Bool × Option SosAlert)) >>= k) Q w := by
  have hwork : w.db.AtWork t Table.sosAlerts none := Engine.atWork_none (by rw [h.idle])
  refine ensures_first (ensures_updateFirst owning_historic hwork (fun w1 _ => herr _ _ fun details h => by cases h)
    (fun w1 hev hL _ hn => ?_) fun w1 v r hev hL hv hr _ hwrote1 => ?_)
  · have hidle : w1.db.pending t = fun _ _ => none := by rw [hev.db.pending, h.idle]
    refine ensures_first (ensures_select owning_historic fun w2 hev2 _ _ _ _ => ?_)
    have hidle2 : w2.db.pending t = fun _ _ => none := by rw [hev2.db.pending, hidle]
    refine hmissed _ _ hidle2 fun b hb => ?_
    have hview := (Option.filter_eq_some_iff.1 hb).1
    change w2.db.view t .sosAlerts i = some b at hview
    rwa [Engine.view_idle hidle2] at hview
  · have hrow := hev.db.rows .sosAlerts i
    rw [h.row, hv] at hrow
    have h1 : Working t (some (i, some v, r)) none (w1.db.write t Table.sosAlerts i r) := by
      refine ⟨hwrote1, fun k n j b hn _ => ?_⟩
      rw [Engine.write_pending_row (by simp), hev.db.pending, h.idle] at hn
      cases hn
    refine ensures_first (plain_bind (E := fun _ => False) (steady_query _ _).within ?_ h1 (fun _ _ h => h.elim)
      fun after w2 h2 => hwrote v r after w2 hrow hr h2)
    exact raising_select _ _

theorem nameOf_ensures {k : Option String → Prg β} (h : Read t i a w.db) (hstatus : a.status = .accepted)
    (hk : ∀ name w', Named i name w'.db → owning.Ensures t (k name) Q w') :
    owning.Ensures t (nameOf a.acceptedBy >>= k) Q w := by
  have hsaw : w.db.version w.db.log.length .sosAlerts i = some a := by rw [Engine.version_length]; exact h.row
  cases howner : a.acceptedBy with
  | none => exact hk none w ⟨_, Nat.le_refl _, _, Nat.le_refl _, a, hsaw, hstatus, by rw [howner]; rfl⟩
  | some o =>
    refine ensures_first (ensures_select owning_historic fun w1 hev _ _ _ _ => hk _ _ ?_)
    have hidle : w1.db.pending t = fun _ _ => none := by rw [hev.db.pending, h.idle]
    refine ⟨w.db.log.length, hev.db.log_le, w1.db.log.length, Nat.le_refl _, a, ?_, hstatus, ?_⟩
    · rw [Engine.look_version, hev.db.version _ (Nat.le_refl _)]
      exact hsaw
    · rw [howner, Option.bind_some, Engine.look_version, Engine.version_length, Engine.view_idle hidle]

end Verbs

theorem accepted_moved {v : SosAlert} {at_ : Int} (hon : Onward a v) (hother : a.raisedBy ≠ actor.id)
    (h : SosAlertChange.apply v (.accept actor.id at_) = some r) :
    Moved v r ∧ v.status = .open_ ∧ r.status = .accepted := by
  simp only [SosAlertChange.apply] at h
  split at h <;> cases h
  rename_i hopen
  exact ⟨.accepted hopen.1 fun heq => hother (by rw [← hon.raisedBy, ← heq]), hopen.1, rfl⟩

theorem closed_moved {v : SosAlert} {to_ : SosStatus} (hto : to_ = .resolved ∨ to_ = .cancelled)
    (h : SosAlertChange.apply v (.close to_) = some r) : Moved v r := by
  simp only [SosAlertChange.apply] at h
  split at h <;> cases h
  rename_i hstatus
  rcases hto with rfl | rfl
  · exact .resolved (by simpa [allowed, LIVE_STATUSES] using hstatus.1)
  · exact .cancelled (by simpa [allowed] using hstatus.1)

theorem rightful_moved {v : Option SosAlert} (h : Written v r) : Rightful (some (i, v, r)) none := by
  refine ⟨fun j v' r' hW => ?_, fun k j hN => by cases hN⟩
  cases hW
  exact h

theorem acceptSos_ensures (hreq : (reqs t).contests = some i) (h : w.db.pending t = fun _ _ => none) :
    owning.Ensures t (acceptSos i actor) (Told reqs t) w := by
  have hmute : ∀ e w', Mute e → Closes owning t pure (Told reqs t) (.error e) w' := fun e w' he => closes_mute he
  refine ensures_now owning_historic fun w1 hev1 _ _ => ensures_last (ensures_tenantSession owning_historic
    fun w2 n hev2 _ _ => visibleAlert_ensures ?_ hmute fun a w3 h3 => ensures_raiseIf (fun _ => hmute _ _ ?_) fun hmay => ?_)
  · show w2.db.pending t = _
    rw [hev2.db.pending, hev1.db.pending, h]
  · intro details h
    cases h
  have hother : a.raisedBy ≠ actor.id := by
    simp only [decide_eq_false_iff_not, not_or] at hmay
    exact hmay.1
  split
  · exact ensures_last (plain_bind (steady_sosAnswer _).within (mute_sosAnswer _) (working_idle h3.idle) hmute
      fun r w4 h4 => closes_rightful rightful_none h4)
  refine conditional_ensures h3 hmute (fun v r after w4 hon hr h4 => ?_) fun after w4 hidle hafter => ?_
  · obtain ⟨hmoved, hopen, haccepted⟩ := accepted_moved hon hother hr
    refine ensures_first (ensures_insert owning_historic (fun w5 _ _ _ _ => hmute _ _ (by intro details h; cases h))
      fun w5 hev5 _ _ _ => ?_)
    have h5 := h4.evolves hev5.db
    have hnoted : Working t (some (i, some v, r)) (some (w5.db.next, i))
        (Session.inserted w5.db t Table.auditLog ⟨0, 0, actor.id, i, .sosAccepted i a.raisedBy⟩) := by
      refine ⟨h5.alerts.insertBeside (by decide), fun k m j b hm haction => ?_⟩
      rcases Engine.write_pending_cases hm with ⟨-, heq, rfl⟩ | hm
      · cases heq
        cases haction
        rfl
      · exact absurd (h5.notes k m j b hm haction) (by simp)
    refine ensures_raiseIf (fun _ => hmute _ _ (by intro details h; cases h)) fun _ => ?_
    refine ensures_last (plain_bind (steady_sosAnswer _).within (mute_sosAnswer _) hnoted hmute fun x w6 h6 =>
      closes_rightful ⟨fun j v' r' hW => ?_, fun k j hN => ?_⟩ h6)
    · cases hW
      exact .moved hmoved
    · cases hN
      exact ⟨v, r, rfl, hopen, haccepted⟩
  · refine ensures_orRaise (fun _ => hmute _ _ (by intro details h; cases h)) fun b hb => ?_
    unfold refuseAccept
    split
    · exact hmute _ _ (by intro details h; cases h)
    · exact hmute _ _ (by intro details h; cases h)
    · rename_i hstatus
      exact nameOf_ensures ⟨hidle, hafter b hb⟩ hstatus fun name w5 h5 => closes_named hreq h5
    · exact hmute _ _ (by intro details h; cases h)

/-- A resolve or a cancellation: one body, with who may, what is noted and what a miss is told. -/
theorem closeSos_ensures {to_ : SosStatus} (hto : to_ = .resolved ∨ to_ = .cancelled) {refuses : SosAlert → Prop}
    [DecidablePred refuses] {action : SosAlert → AuditAction} (haction : ∀ a, (action a).kind ∈ plain)
    {explain : SosAlert → Prg Response} (h : w.db.pending t = fun _ _ => none)
    (hexplain : ∀ b w', Read t i b w'.db → owning.Ensures t (explain b) (Closes owning t pure (Told reqs t)) w') :
    owning.Ensures t (tenantSession fun _ => do
      let row ← visibleAlert i actor
      raiseIf (refuses row) (.notFound .sosAlert)
      let (wrote, after) ← SosAlerts.close i to_
      if wrote then do
        record actor.id i (action row)
        sosAnswer i
      else do
        let row ← orRaise after (.notFound .sosAlert)
        explain row) (Told reqs t) w := by
  have hmute : ∀ e w', Mute e → Closes owning t pure (Told reqs t) (.error e) w' := fun e w' he => closes_mute he
  refine ensures_last (ensures_tenantSession owning_historic fun w2 n hev2 _ _ =>
    visibleAlert_ensures (by show w2.db.pending t = _; rw [hev2.db.pending, h]) hmute fun a w3 h3 =>
    ensures_raiseIf (fun _ => hmute _ _ (by intro details h; cases h)) fun _ => ?_)
  refine conditional_ensures h3 hmute (fun v r after w4 _ hr h4 => ?_) fun after w4 hidle hafter => ?_
  · refine plain_bind (steady_record (haction a) _ _).within (mute_record _ _ _) h4 hmute fun _ w5 h5 => ?_
    exact ensures_last (plain_bind (steady_sosAnswer _).within (mute_sosAnswer _) h5 hmute fun x w6 h6 =>
      closes_rightful (rightful_moved (.moved (closed_moved hto hr))) h6)
  · exact ensures_orRaise (fun _ => hmute _ _ (by intro details h; cases h)) fun b hb => hexplain b w4 ⟨hidle, hafter b hb⟩

theorem sosAnswer_closes (h : Read t i b w.db) :
    owning.Ensures t (sosAnswer i) (Closes owning t pure (Told reqs t)) w :=
  ensures_last (plain_bind (steady_sosAnswer _).within (mute_sosAnswer _) (working_idle h.idle) (fun _ _ he => closes_mute he)
    fun _ _ h1 => closes_rightful rightful_none h1)

theorem resolveSos_ensures (h : w.db.pending t = fun _ _ => none) :
    owning.Ensures t (resolveSos i actor) (Told reqs t) w := by
  refine closeSos_ensures (.inl rfl) (fun a => by simp [AuditAction.kind, plain]) h fun b w4 hread => ?_
  unfold explainResolve
  split
  · exact sosAnswer_closes hread
  · exact closes_mute (by intro details h; cases h)

theorem cancelSos_ensures (hreq : (reqs t).contests = some i) (h : w.db.pending t = fun _ _ => none) :
    owning.Ensures t (cancelSos i actor) (Told reqs t) w := by
  refine closeSos_ensures (.inr rfl) (fun a => by simp [AuditAction.kind, plain]) h fun b w4 hread => ?_
  unfold explainCancel
  split
  · exact nameOf_ensures hread ‹_› fun name w5 h5 => closes_named hreq h5
  · exact sosAnswer_closes hread
  · exact sosAnswer_closes hread
  · exact closes_mute (by intro details h; cases h)

theorem raiseSos_ensures {target assignment : Option Nat} {note : Option String}
    (h : w.db.pending t = fun _ _ => none) (hreq : (reqs t).contests = none) :
    owning.Ensures t (raiseSos target assignment note actor) (Told reqs t) w := by
  have htold : ∀ x w', Told reqs t x w' := by
    intro x w' i details hreq'
    rw [hreq] at hreq'
    cases hreq'
  have hfail : ∀ e w', True → Closes owning t pure (Told reqs t) (.error e) w' := fun _ _ _ _ _ _ => htold _ _
  refine plain_bind (steady_liftExcept _).within (raising_any _) (working_idle h) (fun _ _ _ => htold _ _)
    fun note w1 h1 => ensures_raiseIf (fun _ => htold _ _) fun _ => ?_
  refine plain_bind steady_clock.within (raising_any _) h1 (fun _ _ _ => htold _ _) fun at_ w2 h2 => ?_
  refine ensures_last (ensures_tenantSession owning_historic fun w3 n hev3 _ _ => ?_)
  have h3 : Working t none none ({ w3.db with started := Function.update w3.db.started t n } : Engine schema) :=
    ⟨(h2.evolves hev3.db).alerts.congr rfl rfl, (h2.evolves hev3.db).notes⟩
  refine plain_bind (steady_ownAssignment _ _).within (raising_any _) h3 hfail fun assignmentId w4 h4 => ?_
  refine plain_bind (steady_reachableTarget _ _).within (raising_any _) h4 hfail fun targetId w5 h5 => ?_
  refine ensures_insert owning_historic (fun w6 _ _ _ _ => hfail _ _ trivial) fun w6 hev6 hL6 _ _ => ?_
  have h6 := h5.evolves hev6.db
  have hraised : Working t (some (w6.db.next, none, stamp .sosAlerts w6.db.next (w6.db.started t)
      (⟨0, 0, none, actor.id, targetId, assignmentId, note, .open_, none, none⟩ : SosAlert))) none
      (Session.inserted w6.db t Table.sosAlerts
        (⟨0, 0, none, actor.id, targetId, assignmentId, note, .open_, none, none⟩ : SosAlert)) := by
    refine ⟨h6.alerts.insert hL6, fun k m j b hm haction => ?_⟩
    rcases Engine.inserted_pending hm with heq | hm
    · cases heq
    · exact h6.notes k m j b hm haction
  refine plain_bind (steady_record (by simp [AuditAction.kind, plain]) _ _).within (raising_any _) hraised hfail
    fun _ w7 h7 => ?_
  refine plain_bind (steady_notifyTarget (by decide) _ _ _).within (raising_any _) h7 hfail fun _ w8 h8 => ?_
  refine plain_bind (steady_sosView _).within (raising_any _) h8 hfail fun view w9 h9 => ?_
  exact closes_rightful (rightful_moved (.raised rfl rfl rfl)) h9

/-! ## Whole runs -/

section Runs

variable {out : Store} {rows : Rows schema} {next : Nat} {clock : Int} {c : Conf (machine schema outside Err) Response}

theorem told_of_none {x : Except Err Response} (h : (reqs t).contests = none) : Told reqs t x w := by
  intro i details hreq
  rw [h] at hreq
  cases hreq

theorem request_owned (h : w.db.pending t = fun _ _ => none) :
    owning.Ensures t ((reqs t).code cfg) (Told reqs t) w := by
  have haside : (reqs t).contests = none → (∀ k ∈ (reqs t).kinds, k ∈ Kind.session :: plain) →
      owning.Ensures t ((reqs t).code cfg) (Told reqs t) w := fun hnone hkinds =>
    ensures_mono (fun _ _ _ => told_of_none hnone)
      (aside_ensures ((within_request cfg (reqs t)).mono fun _ _ ho => ho.mono hkinds) h)
  cases hreq : reqs t with
  | acceptSos alertId actor => exact acceptSos_ensures (by rw [hreq]; rfl) h
  | resolveSos alertId actor => exact resolveSos_ensures h
  | cancelSos alertId actor => exact cancelSos_ensures (by rw [hreq]; rfl) h
  | raiseSos target assignment note actor => exact raiseSos_ensures h (by rw [hreq]; rfl)
  | create | update | deactivate | presignPhoto | confirmPhoto | deletePhoto | postPhoto | startBreak | endBreak =>
    rw [hreq] at haside
    exact haside rfl (by simp [Request.kinds, plain])

theorem owning_runs (h : Shelved rows next) (hr : (serving cfg reqs out rows next clock).Reaches c) :
    (∀ d ∈ c.state.db.log, Deed d) ∧
      ∀ t e, c.threads t = some (.raise e) → Told reqs t (.error e) c.state := by
  have hsafe : ∀ t p, (serving cfg reqs out rows next clock).threads t = some p →
      owning.logic.Safe t p (Told reqs t) (serving cfg reqs out rows next clock).state := by
    intro t p hp
    cases hp
    refine safe_of_ensures (request_owned rfl) fun x w w' hx hev _ _ i details hreq he => ?_
    exact (lasts_named i details).evolves hev.db (hx i details hreq he)
  obtain ⟨hsound, -⟩ := owning.runs (Q := Told reqs) (serving_obeyed h)
    (by simp [Ledger.contract, serving, staged, atRest]) hsafe hr
  refine ⟨fun d hd => ?_, fun t e ht => hsound.raised ht⟩
  obtain ⟨m, hm⟩ := List.mem_iff_getElem?.1 hd
  exact hsound.inv.2 m d hm

/-- **A coherent alert**: its owner and the instant she took it come together, and she is not who raised it. -/
structure Coherent (a : SosAlert) : Prop where
  pair : a.acceptedBy = none ↔ a.acknowledgedAt = none
  opened : a.status = .open_ → a.acceptedBy = none
  owned : a.status = .accepted → a.acceptedBy ≠ none
  cancelled : a.status = .cancelled → a.acceptedBy = none
  other : a.acceptedBy ≠ some a.raisedBy

theorem Coherent.moved (h : Coherent a) (hm : Moved a r) : Coherent r := by
  cases hm with
  | accepted status other =>
    exact ⟨by simp, (fun h => by cases h), (fun _ => by simp), (fun h => by cases h), by simpa using other⟩
  | resolved status =>
    exact ⟨h.pair, (fun h => by cases h), (fun h => by cases h), (fun h => by cases h), h.other⟩
  | cancelled status =>
    exact ⟨h.pair, (fun h => by cases h), (fun h => by cases h), fun _ => h.opened status, h.other⟩

theorem coherent_runs (hL : e.Lawful conduct.shared) (h0 : ∀ i (a : SosAlert), e.version 0 .sosAlerts i = some a → Coherent a)
    (hdeeds : ∀ d ∈ e.log, Deed d) :
    ∀ m, m ≤ e.log.length → ∀ i (a : SosAlert), e.version m .sosAlerts i = some a → Coherent a := by
  refine hL.version_induction (P := fun R => ∀ i (a : SosAlert), R .sosAlerts i = some a → Coherent a) h0 ?_
  intro m d hd _ _ hbefore i a ha
  have hdeed := hdeeds d (List.mem_of_getElem? hd)
  cases hw : d.writes .sosAlerts i with
  | none =>
    rw [Commit.after, Rows.over_none hw] at ha
    exact hbefore i a ha
  | some r =>
    rw [Commit.after, Rows.over_some hw] at ha
    cases ha
    have hwritten := hdeed.written i a hw
    cases hv : d.before .sosAlerts i with
    | none =>
      rw [hv] at hwritten
      cases hwritten with
      | raised status owner at_ =>
        exact ⟨by simp [owner, at_], fun _ => owner, (fun h => by rw [status] at h; cases h), fun _ => owner, by simp [owner]⟩
    | some v =>
      rw [hv] at hwritten
      cases hwritten with
      | moved h => exact (hbefore i v hv).moved h

theorem accepted_once (hL : e.Lawful conduct.shared) {m m' : Nat} {d d' : Commit schema} (hd : e.log[m]? = some d)
    (hd' : e.log[m']? = some d') (h : Accepts d i) (h' : Accepts d' i) : ¬m < m' := by
  intro hlt
  obtain ⟨a, r, -, hr, -, haccepted⟩ := h
  obtain ⟨a', r', ha', -, hopen, -⟩ := h'
  have hafter : e.version (m + 1) .sosAlerts i = some r := by
    rw [hL.linked m d hd, Commit.after, Rows.over_some hr]
  have hbefore : e.version m' .sosAlerts i = some a' := by
    rw [← ha']
    simp [Engine.version, hd']
  have hrow := hL.version_becomes (Cast.plays_common _) (Nat.succ_le_of_lt hlt) (List.getElem?_eq_some_iff.1 hd').1.le
    Table.sosAlerts i
  rw [hafter, hbefore] at hrow
  have honward : Onward r a' := hrow
  exact honward.left (by rw [haccepted]; exact fun h => by cases h) hopen

inductive StatusMove : SosStatus → SosStatus → Prop
  | accept : StatusMove .open_ .accepted
  | resolve : StatusMove .accepted .resolved
  | resolveOpen : StatusMove .open_ .resolved
  | cancel : StatusMove .open_ .cancelled

theorem Moved.status (h : Moved a r) : StatusMove a.status r.status := by
  cases h with
  | accepted status other =>
    rw [status]
    exact .accept
  | resolved status =>
    rcases status with hs | hs <;> rw [hs]
    · exact .resolveOpen
    · exact .resolve
  | cancelled status =>
    rw [status]
    exact .cancel

/-- **Who answers a call for help**: in every run an alert moves only from open to accepted to resolved, from open to resolved
or from open to cancelled; its owner and the instant come together, are kept, and are not the raiser's; it is accepted in
one commit at most, with one audit row; whoever loses is told the owner's name; and no cancel closes an alert with an
owner. -/
theorem sos_ownership (h : Shelved rows next) (hcoherent : ∀ i (a : SosAlert), rows .sosAlerts i = some a → Coherent a)
    (hr : (serving cfg reqs out rows next clock).Reaches c) :
    (∀ d ∈ c.state.db.log, ∀ i (a r : SosAlert), d.before .sosAlerts i = some a → d.writes .sosAlerts i = some r →
      StatusMove a.status r.status ∧ (r.status = .cancelled → a.acceptedBy = none)) ∧
    (∀ i (a : SosAlert), c.state.db.committed .sosAlerts i = some a →
      (a.acceptedBy = none ↔ a.acknowledgedAt = none) ∧ a.acceptedBy ≠ some a.raisedBy ∧
        (a.status = .cancelled → a.acceptedBy = none)) ∧
    (∀ m n i (a b : SosAlert), m ≤ n → n ≤ c.state.db.log.length → c.state.db.version m .sosAlerts i = some a →
      c.state.db.version n .sosAlerts i = some b → a.acceptedBy ≠ none →
      b.acceptedBy = a.acceptedBy ∧ b.acknowledgedAt = a.acknowledgedAt) ∧
    (∀ (m m' : Nat) (d d' : Commit schema) k k' i, c.state.db.log[m]? = some d → c.state.db.log[m']? = some d' →
      Notes d k i → Notes d' k' i → m = m' ∧ k = k') ∧
    ∀ t i details, (reqs t).contests = some i → c.threads t = some (.raise (.sosAlreadyAccepted details)) →
      ∃ (a : SosAlert) (o : Nat), c.state.db.committed .sosAlerts i = some a ∧ a.acceptedBy = some o ∧
        (∃ m, m ≤ c.state.db.log.length ∧
          details = ((c.state.db.version m .staffUsers o).filter StaffUser.live).map StaffUser.displayName) ∧
        ∀ u u' : StaffUser, rows .staffUsers o = some u → c.state.db.committed .staffUsers o = some u' → u'.live = true →
          details ≠ none := by
  have hob : Cast.Obeyed conduct.shared (serving cfg reqs out rows next clock) := serving_obeyed h
  have hL := (hob.steps hr).1.lawful
  have hstart : c.state.db.version 0 = rows := (hob.history hr).2 0 (Nat.le_refl 0)
  obtain ⟨hdeeds, htold⟩ := owning_runs h hr
  have hsound := coherent_runs hL (by rw [hstart]; exact hcoherent) hdeeds
  have honward : ∀ {m n i} {a b : SosAlert}, m ≤ n → n ≤ c.state.db.log.length →
      c.state.db.version m .sosAlerts i = some a → c.state.db.version n .sosAlerts i = some b → Onward a b := by
    intro m n i a b hmn hn ha hb
    have hrow := hL.version_becomes (Cast.plays_common _) hmn hn Table.sosAlerts i
    rw [ha, hb] at hrow
    exact hrow
  refine ⟨fun d hd i a r ha hr => ?_, fun i a ha => ?_, fun m n i a b hmn hn ha hb howner => ?_,
    fun m m' d d' k k' i hd hd' hn hn' => ?_, fun t i details hreq ht => ?_⟩
  · have hwritten := (hdeeds d hd).written i r hr
    rw [ha] at hwritten
    cases hwritten with
    | moved hm =>
      obtain ⟨m, hdm⟩ := List.mem_iff_getElem?.1 hd
      have hbefore : c.state.db.version m .sosAlerts i = some a := by
        rw [← ha]
        simp [Engine.version, hdm]
      have hcoh := hsound m (List.getElem?_eq_some_iff.1 hdm).1.le i a hbefore
      refine ⟨hm.status, fun hcancelled => ?_⟩
      cases hm with
      | accepted => cases hcancelled
      | resolved => cases hcancelled
      | cancelled status => exact hcoh.opened status
  · rw [← Engine.version_length] at ha
    have hcoh := hsound _ (Nat.le_refl _) i a ha
    exact ⟨hcoh.pair, hcoh.other, hcoh.cancelled⟩
  · have hnot : a.status ≠ .open_ := fun hopen => howner ((hsound m (Nat.le_trans hmn hn) i a ha).opened hopen)
    exact (honward hmn hn ha hb).owner hnot
  · have hacc := (hdeeds d (List.mem_of_getElem? hd)).noted k i hn
    have hacc' := (hdeeds d' (List.mem_of_getElem? hd')).noted k' i hn'
    have hlt := accepted_once hL hd hd' hacc hacc'
    have hgt := accepted_once hL hd' hd hacc' hacc
    have hm : m = m' := by omega
    subst hm
    cases hd.symm.trans hd'
    exact ⟨rfl, ((hdeeds d (List.mem_of_getElem? hd)).once k k' i i hn hn').1⟩
  · obtain ⟨m, hm, m', hm', a, ha, hstatus, hname⟩ := htold t _ ht i details hreq rfl
    obtain ⟨o, ho⟩ := Option.ne_none_iff_exists'.1 ((hsound m hm i a ha).owned hstatus)
    have hrow := hL.version_becomes (Cast.plays_common _) hm (Nat.le_refl _) Table.sosAlerts i
    rw [ha] at hrow
    obtain ⟨b, hb, hab⟩ := hrow.some_left
    have hab : Onward a b := hab
    rw [ho, Option.bind_some] at hname
    refine ⟨b, o, by rwa [Engine.version_length] at hb, ?_, ⟨m', hm', hname⟩, fun u u' hu hu' hlive hnone => ?_⟩
    · rw [(hab.owner (by rw [hstatus]; exact fun h => by cases h)).1, ho]
    -- her row was there all along, and has not been deleted since
    have hrow0 := hL.version_becomes (Cast.plays_common _) (Nat.zero_le m') hm' Table.staffUsers o
    rw [hstart, hu] at hrow0
    obtain ⟨x, hx, -⟩ := hrow0.some_left
    have hrow1 := hL.version_becomes (Cast.plays_common _) hm' (Nat.le_refl _) Table.staffUsers o
    rw [hx, Engine.version_length, hu'] at hrow1
    have hstays : Stays true x u' := hrow1
    have hthere : StaffUser.live x = true := by
      by_contra hdead
      have hleft : x.deletedAt ≠ none := by simpa [StaffUser.live] using hdead
      have hgone := hstays.left hleft
      rw [show u'.deletedAt = none from by simpa [StaffUser.live] using hlive] at hgone
      exact hleft hgone.symm
    rw [hx, Option.filter_some, if_pos hthere] at hname
    rw [hnone] at hname
    cases hname

end Runs

/-! ## Two managers, one call -/

/-- A seamstress, a shift manager and an owner, and the alert of the seamstress. -/
def oneCall : (T : Table) → List (Row T)
  | .staffUsers => [
    (⟨0, 0, none, "a@shop", "", "Noa", .seamstress, none, none, none, none, false, none, none, none, none, none, none⟩ :
      StaffUser),
    (⟨1, 0, none, "b@shop", "", "Dana", .shiftManager, none, none, none, none, false, none, none, none, none, none, none⟩ :
      StaffUser),
    (⟨2, 0, none, "c@shop", "", "Rut", .owner, none, none, none, none, false, none, none, none, none, none, none⟩ :
      StaffUser)]
  | .sosAlerts => [(⟨3, 0, none, 0, none, none, none, .open_, none, none⟩ : SosAlert)]
  | _ => []

theorem oneCall_shelved : Shelved (listed (S := schema) oneCall) 4 :=
  shelved_of_stocked [.staffUsers, .sessions, .sosAlerts, .auditLog, .notifications] (fun T => by cases T <;> decide)
    (by decide)

theorem oneCall_coherent : ∀ i (a : SosAlert), listed (S := schema) oneCall .sosAlerts i = some a → Coherent a := by
  intro i a ha
  have hmem : a ∈ oneCall .sosAlerts := List.mem_of_find?_eq_some ha
  simp only [oneCall, List.mem_singleton] at hmem
  subst hmem
  exact ⟨by simp, (fun _ => rfl), (fun h => by cases h), (fun h => by cases h), by simp⟩

def emptyStore : Store := ⟨fun _ => none, [], [], [], 0⟩

def utc : Boutique.Zone where
  wallOf x := x
  instantOf x := x
  midnight_le x := Int.ediv_mul_le x Boutique.day_ne_zero
  lt_midnight x := Int.lt_ediv_add_one_mul_self x Boutique.day_pos

def plainConfig : Config := ⟨utc, id⟩

def bothAccept : Tid → Request
  | 0 => .acceptSos 3 ⟨1, .shiftManager⟩
  | _ => .acceptSos 3 ⟨2, .owner⟩

def answered (t : Tid) (n : Nat) : List (Action (machine schema outside Err)) :=
  List.replicate n (.call t ⟨true, "", none⟩)

/-- The second reads the alert while it is open, and is told that Dana is on her way. -/
theorem sos_ownership_raced : ∃ c, (serving plainConfig bothAccept emptyStore (listed (S := schema) oneCall) 4 0).Reaches c ∧
    c.threads 1 = some (.raise (.sosAlreadyAccepted (some "Dana"))) ∧
    ∃ (a : SosAlert) (o : Nat), c.state.db.committed .sosAlerts 3 = some a ∧ a.acceptedBy = some o := by
  obtain ⟨c, hc, hP⟩ := Conf.reached_freely (serving plainConfig bothAccept emptyStore (listed (S := schema) oneCall) 4 0)
    (answered 1 3 ++ answered 0 8 ++ answered 1 4)
    (fun c => decide (c.failure 1 = some (.sosAlreadyAccepted (some "Dana")))) (by decide)
  have hfailed := Conf.failure_eq_some.1 (of_decide_eq_true hP)
  obtain ⟨a, o, ha, ho, -, -⟩ :=
    (sos_ownership oneCall_shelved oneCall_coherent hc).2.2.2.2 1 3 _ rfl hfailed
  exact ⟨c, hc, hfailed, a, o, ha, ho⟩

end Staff
