import Boutique.Blocks
import Boutique.LastWriter
import Boutique.TxnFlight
/-!
# Replayed — the trail over the first settings gives the stored ones

Every merge is one patch over the row as it stands, so nothing a patch does not name is lost.  The trail says the same as
the merges where no two rows of one block, or of a common toggle, stand in the other order than their merges.
-/
namespace Settings

open Txn Session Contract

variable {v : Validators} {tenantId : Nat} {reqs : Tid → Request} {t : Tid} {w : World schema nobody}
  {rows : Rows schema} {next : Nat} {clock : Int} {c : Conf (machine schema nobody Err) Reply} {s s' : Blocks} {p : Patch}

/-! ## What a merge leaves alone -/

inductive Part
  | profile | toggle (key : String) | atelier | scheduling | privacy

def Part.Named (p : Patch) : Part → Prop
  | .profile => p.profile ≠ none
  | .toggle key => p.toggles.bind (fun toggles => toggles.lookup key) ≠ none
  | .atelier => p.atelier ≠ none
  | .scheduling => p.scheduling ≠ none
  | .privacy => p.privacy ≠ none

def Part.Same (s s' : Blocks) : Part → Prop
  | .profile => s.profile = s'.profile
  | .toggle key => s.toggles.bind (fun stored => stored key) = s'.toggles.bind (fun stored => stored key)
  | .atelier => s.atelier = s'.atelier
  | .scheduling => s.scheduling = s'.scheduling
  | .privacy => s.privacy = s'.privacy

theorem Part.same_refl (part : Part) (s : Blocks) : part.Same s s := by
  cases part <;> rfl

theorem merge_same {part : Part} (h : ¬part.Named p) : part.Same (s.merge p) s := by
  cases part with
  | toggle key =>
    have hnone := not_not.1 h
    unfold Part.Same Blocks.merge
    cases ht : p.toggles with
    | none => rfl
    | some toggles =>
      rw [ht, Option.bind_some] at hnone
      change mergeToggles s.toggles toggles key = _
      rw [mergeToggles, hnone, Option.none_or]
  | profile | atelier | scheduling | privacy =>
    have hnone := not_not.1 h
    change Option.or _ _ = _
    rw [hnone, Option.none_or]

/-! ## The registers of the trail -/

def AuditAction.onto (s : Blocks) : AuditAction → Blocks
  | .atelierSettingsUpdated details => s.merge ⟨none, none, some details, none, none⟩
  | .togglesUpdated details => s.merge ⟨none, some details, none, none, none⟩
  | .schedulingSettingsUpdated details => s.merge ⟨none, none, none, some details, none⟩

/-- **The trail replayed.** -/
def replay (s : Blocks) (trail : List AuditLog) : Blocks := trail.foldl (fun s r => r.action.onto s) s

def AuditAction.clashes : AuditAction → AuditAction → Bool
  | .atelierSettingsUpdated _, .atelierSettingsUpdated _ => true
  | .schedulingSettingsUpdated _, .schedulingSettingsUpdated _ => true
  | .togglesUpdated toggles, .togglesUpdated toggles' => toggles.any fun x => (toggles'.lookup x.1).isSome
  | _, _ => false

/-- **A register of the settings** that rows of the trail write: a block, a toggle, or whether there are toggles. -/
structure Register (α : Type) where
  gives : AuditAction → Option α
  read : Blocks → Option α
  onto : ∀ s a, read (a.onto s) = (gives a).or (read s)
  merge : ∀ (s : Blocks) p, read (s.merge p) = (LastWriter.last gives p.actions).or (read s)
  one : ∀ (p : Patch) a a' x x', a ∈ p.actions → a' ∈ p.actions → gives a = some x → gives a' = some x' → x = x'
  apart : ∀ a a' x x', gives a = some x → gives a' = some x' → x = x' ∨ a.clashes a' = true

theorem lookup_any {l l' : Toggles} {key : String} (h : (l.lookup key).isSome) (h' : (l'.lookup key).isSome) :
    (l.any fun x => (l'.lookup x.1).isSome) = true := by
  induction l with
  | nil => cases h
  | cons x l ih =>
    obtain ⟨k, b⟩ := x
    by_cases hk : key = k
    · subst hk
      simp [h']
    · have hne : (key == k) = false := by simp [hk]
      rw [List.lookup_cons, hne] at h
      simp only [List.any_cons, Bool.or_eq_true]
      exact .inr (ih h)

def atelierRegister : Register AtelierSettings where
  gives
    | .atelierSettingsUpdated details => some details
    | _ => none
  read s := s.atelier
  onto s a := by cases a <;> rfl
  merge s p := by
    obtain ⟨_, toggles, atelier, scheduling, _⟩ := p
    cases toggles <;> cases atelier <;> cases scheduling <;> rfl
  one p a a' x x' ha ha' hx hx' := by
    obtain ⟨_, toggles, atelier, scheduling, _⟩ := p
    cases a <;> cases hx
    cases a' <;> cases hx'
    cases toggles <;> cases atelier <;> cases scheduling <;> simp_all [Patch.actions]
  apart a a' x x' hx hx' := by
    cases a <;> cases hx
    cases a' <;> cases hx'
    exact .inr rfl

def schedulingRegister : Register SchedulingSettings where
  gives
    | .schedulingSettingsUpdated details => some details
    | _ => none
  read s := s.scheduling
  onto s a := by cases a <;> rfl
  merge s p := by
    obtain ⟨_, toggles, atelier, scheduling, _⟩ := p
    cases toggles <;> cases atelier <;> cases scheduling <;> rfl
  one p a a' x x' ha ha' hx hx' := by
    obtain ⟨_, toggles, atelier, scheduling, _⟩ := p
    cases a <;> cases hx
    cases a' <;> cases hx'
    cases toggles <;> cases atelier <;> cases scheduling <;> simp_all [Patch.actions]
  apart a a' x x' hx hx' := by
    cases a <;> cases hx
    cases a' <;> cases hx'
    exact .inr rfl

def toggleRegister (key : String) : Register Bool where
  gives
    | .togglesUpdated details => details.lookup key
    | _ => none
  read s := s.toggles.bind fun stored => stored key
  onto s a := by cases a <;> rfl
  merge s p := by
    obtain ⟨_, toggles, atelier, scheduling, _⟩ := p
    cases toggles with
    | none => cases atelier <;> cases scheduling <;> rfl
    | some toggles =>
      change mergeToggles s.toggles toggles key = _
      unfold mergeToggles
      cases hl : toggles.lookup key <;> cases atelier <;> cases scheduling <;>
        simp [LastWriter.last, Patch.actions, hl]
  one p a a' x x' ha ha' hx hx' := by
    obtain ⟨_, toggles, atelier, scheduling, _⟩ := p
    cases a <;> try cases hx
    cases a' <;> try cases hx'
    cases toggles <;> cases atelier <;> cases scheduling <;> simp_all [Patch.actions]
  apart a a' x x' hx hx' := by
    cases a <;> try cases hx
    cases a' <;> try cases hx'
    exact .inr (lookup_any (Option.isSome_of_eq_some hx) (Option.isSome_of_eq_some hx'))

def presenceRegister : Register Unit where
  gives
    | .togglesUpdated _ => some ()
    | _ => none
  read s := s.toggles.map fun _ => ()
  onto s a := by cases a <;> rfl
  merge s p := by
    obtain ⟨_, toggles, atelier, scheduling, _⟩ := p
    cases toggles <;> cases atelier <;> cases scheduling <;> rfl
  one _ _ _ _ _ _ _ _ _ := rfl
  apart _ _ _ _ _ _ := .inl rfl

/-! ## What a commit does -/

def mergedAt (tenantId : Nat) (log : List (Commit schema)) (u : Tid) (k : Nat) : Bool :=
  (log[k]?).any fun d => decide (d.by_ = u) && (d.writes .tenants tenantId).isSome

/-- **Two rows stand in the order of their merges**: of thread `u` the row `r'`, of thread `t` the row `r`. -/
def InOrder (tenantId : Nat) (log : List (Commit schema)) (u t : Tid) (r' r : AuditLog) : Prop :=
  ∀ a, a < log.length → ∀ b, b < log.length → mergedAt tenantId log u a = true ∧ mergedAt tenantId log t b = true →
    (a < b → r'.createdAt < r.createdAt) ∧ (b < a → r.createdAt < r'.createdAt)

instance (log : List (Commit schema)) (u t : Tid) (r' r : AuditLog) : Decidable (InOrder tenantId log u t r' r) := by
  unfold InOrder
  infer_instance

/-- **Rows are recorded in the order of the merges**: a commit adds no row on the wrong side of another request's, of the
same block or of toggles with a key in common. -/
def RecordedInOrder (tenantId : Nat) : (machine schema nobody Err).Assumption := fun t o w _ _ =>
  match o with
  | .sql .commit => ∀ i, i < w.db.next → (w.db.pending t .auditLog i).all (fun (r : AuditLog) =>
      w.db.log.all fun d => decide (d.by_ ≠ t → ∀ j, j < w.db.next → (d.writes .auditLog j).all (fun (r' : AuditLog) =>
        decide (r'.action.clashes r.action = true → InOrder tenantId w.db.log d.by_ t r' r)) = true)) = true
  | _ => True

instance (t : Tid) (o : Op schema nobody) (w : World schema nobody) (r : o.Res) (w' : World schema nobody) :
    Decidable (RecordedInOrder tenantId t o w r w') :=
  match o, r with
  | .sql .commit, _ => inferInstanceAs (Decidable (∀ i, i < w.db.next → _ = true))
  | .sql .begin, _ | .sql (.read _), _ | .sql (.update ..), _ | .sql (.insert ..), _ | .sql .lock, _ | .sql .abort, _ |
    .now, _ | .ask _, _ => isTrue trivial

/-- What is so of row `i` that a commit adds to the trail: its thread has merged the patch it is of, and it stands right to
the rows before it. -/
structure Records (tenantId : Nat) (reqs : Tid → Request) (past : List (Commit schema)) (d : Commit schema) (i : Nat)
    (r : AuditLog) : Prop where
  fresh : d.before .auditLog i = none
  entity : r.entity = tenantId
  action : r.action ∈ (reqs d.by_).patch.actions
  after : ∃ d' ∈ past, d'.by_ = d.by_ ∧ (d'.writes .tenants tenantId).isSome = true
  order : ∀ d' ∈ past, d'.by_ ≠ d.by_ → ∀ j (r' : AuditLog), d'.writes .auditLog j = some r' →
    r'.action.clashes r.action = true → InOrder tenantId past d'.by_ d.by_ r' r

/-- **What a commit does**: nothing, its thread's one merge, or one audit row. -/
inductive Did (tenantId : Nat) (reqs : Tid → Request) (past : List (Commit schema)) (d : Commit schema) : Prop
  | nothing (writes : d.writes = fun _ _ => none)
  | merged (r : Tenant) (before : d.before .tenants tenantId = some r)
      (writes : d.writes = Rows.set (fun _ _ => none) Table.tenants tenantId
        { r with settings := r.settings.merge (reqs d.by_).patch })
      (first : ∀ d' ∈ past, d'.by_ ≠ d.by_)
  | recorded (i : Nat) (r : AuditLog) (writes : d.writes = Rows.set (fun _ _ => none) Table.auditLog i r)
      (records : Records tenantId reqs past d i r)

variable {i : Nat} {r : AuditLog} {α : Type} {e : Engine schema} {d : Commit schema}

section Did

variable {past : List (Commit schema)} {d : Commit schema}

theorem Did.merge (h : Did tenantId reqs past d) (hw : (d.writes .tenants tenantId).isSome = true) :
    ∃ r : Tenant, d.before .tenants tenantId = some r ∧
      d.after .tenants tenantId = some { r with settings := r.settings.merge (reqs d.by_).patch } ∧
      ∀ d' ∈ past, d'.by_ ≠ d.by_ := by
  cases h with
  | nothing writes =>
    rw [writes] at hw
    cases hw
  | merged r before writes first =>
    refine ⟨r, before, ?_, first⟩
    rw [Commit.after, Rows.over_some]
    rw [writes, Rows.set_same]
  | recorded i r writes records =>
    rw [writes, Rows.set_table (by decide)] at hw
    cases hw

theorem Did.record (h : Did tenantId reqs past d) (hr : d.writes .auditLog i = some r) :
    Records tenantId reqs past d i r := by
  cases h with
  | nothing writes =>
    rw [writes] at hr
    cases hr
  | merged r' before writes first =>
    rw [writes, Rows.set_table (by decide)] at hr
    cases hr
  | recorded j r' writes records =>
    by_cases hij : i = j
    · subst hij
      rw [writes, Rows.set_same] at hr
      cases hr
      exact records
    · rw [writes, Rows.set_row hij] at hr
      cases hr

end Did

theorem take_stays {l l' : List α} {m : Nat} {x : α} (hl : l <+: l') (h : l[m]? = some x) : l'.take m = l.take m := by
  obtain ⟨k, rfl⟩ := hl
  exact List.take_append_of_le_length (List.getElem?_eq_some_iff.1 h).1.le

abbrev deeds (tenantId : Nat) (reqs : Tid → Request) : Ledger schema where
  Holds e m d := Did tenantId reqs (e.log.take m) d
  stable e e' m d hm hl _ h := by
    rw [take_stays hl hm]
    exact h

def kept : Discipline schema where
  Trans _ T r r' := match T, r, r' with
    | .tenants, (r : Tenant), (r' : Tenant) => r'.deletedAt = r.deletedAt
    | .auditLog, (r : AuditLog), (r' : AuditLog) => r' = r
  New _ _ _ := True
  refl _ T r := by cases T <;> rfl
  trans _ T r r' r'' h h' := by
    cases T with
    | tenants => exact Eq.trans h' h
    | auditLog => exact Eq.trans h' h
  weaken _ _ _ h := h
  new_trans _ _ _ _ _ _ := trivial
  new_weaken _ _ _ := trivial

theorem kept_legal (l : Bool) (o : Op schema nobody) : kept.Legal l o := by
  cases o with
  | sql o =>
    cases o with
    | update T i g =>
      intro r r' _ hr
      cases T with
      | tenants =>
        obtain ⟨patch⟩ := g
        obtain ⟨-, hr'⟩ := Option.ite_none_right_eq_some.1 (hr : TenantChange.apply r (.mergeSettings patch) = some r')
        cases hr'
        rfl
      | auditLog => cases g
    | insert T r => exact fun _ _ => trivial
    | _ => trivial
  | now | ask => trivial

abbrev books (tenantId : Nat) (reqs : Tid → Request) : Contract kept.shared nobody Err :=
  (deeds tenantId reqs).contract kept.shared (RecordedInOrder tenantId)

theorem books_historic : (books tenantId reqs).Historic fun _ => true := (deeds tenantId reqs).historic _

/-! ## What a request does -/

/-- **How far a request has come**: its merge is committed, and the rows `done` are. -/
structure Told (tenantId : Nat) (t : Tid) (done : List AuditAction) (e : Engine schema) : Prop where
  merged : ∃ d ∈ e.own t, (d.writes .tenants tenantId).isSome = true
  recorded : ∀ a ∈ done, ∃ d ∈ e.own t, ∃ i, ∃ r : AuditLog, d.writes .auditLog i = some r ∧ r.action = a

theorem Told.congr {done : List AuditAction} {e' : Engine schema} (h : Told tenantId t done e)
    (ho : e'.own t = e.own t) : Told tenantId t done e' :=
  ⟨ho ▸ h.merged, ho ▸ h.recorded⟩

theorem mem_own (h : d ∈ e.own t) : d ∈ e.log ∧ d.by_ = t := by
  simpa [Engine.own] using h

section Rules

variable {α β : Type} {Q : Except Err β → World schema nobody → Prop} {done : List AuditAction} {action : AuditAction}
  {actorId : Nat}

variable {k : Unit → Prg β}

theorem ensures_checked {check : α → Option String} {sent : Option α} (herr : ∀ e, Q (.error e) w)
    (hk : (books tenantId reqs).Ensures t (k ()) Q w) :
    (books tenantId reqs).Ensures t (checked check sent >>= k) Q w := by
  unfold checked
  cases sent.bind check with
  | none => exact hk
  | some message => exact herr _

theorem ensures_merge {k : Option Blocks → Prg β} (hp : (reqs t).patch = p) (hidle : w.db.Idle t) (hown : w.db.own t = [])
    (herr : ∀ e w', Q (.error e) w')
    (hnone : ∀ w', w'.db.Idle t → (books tenantId reqs).Ensures t (k none) Q w')
    (hsome : ∀ w' s, w'.db.Idle t → Told tenantId t [] w'.db → (books tenantId reqs).Ensures t (k (some s)) Q w') :
    (books tenantId reqs).Ensures t (mergeSettings tenantId p >>= k) Q w := by
  refine ensures_tenantSession books_historic fun w1 n hev1 _ _ => ?_
  have hidle1 := hev1.db.idle hidle
  refine ensures_update books_historic (fun w2 _ _ _ w3 _ _ => herr _ _) (fun w2 hev2 _ _ _ => ?_)
    fun w2 r r' hev2 hL2 hr hr' _ _ _ => ?_
  · -- no row to merge into: the transaction closes on nothing
    intro w3 hev3 hL3 hI3 _ _
    have hpending : w3.db.pending t = fun _ _ => none :=
      (hev3.db.idle (hev2.db.idle (e := { w1.db with started := _ }) ⟨hidle1.pending⟩)).pending
    exact ⟨Ledger.inv_commit hI3 (Did.nothing hpending), hnone _ (Engine.idle_commit _ t)⟩
  · obtain ⟨-, hrow⟩ := Option.ite_none_right_eq_some.1 (hr' : TenantChange.apply r (.mergeSettings p) = some r')
    cases hrow
    have hidle2 : w2.db.Idle t := hev2.db.idle (e := { w1.db with started := _ }) ⟨hidle1.pending⟩
    intro w3 hev3 hL3 hI3 _ _
    have hpending : w3.db.pending t = Rows.set (fun _ _ => none) Table.tenants tenantId
        { r with settings := r.settings.merge (reqs t).patch } := by
      rw [hev3.db.pending, hp]
      simp [Engine.write, hidle2.pending]
    have hbefore : w3.db.committed .tenants tenantId = some r := by
      rw [hev3.db.owned .tenants tenantId _ Engine.write_pending_self]
      rwa [hidle2.view] at hr
    have hown3 : w3.db.own t = [] := by
      rw [hev3.db.since.own]
      change w2.db.own t = []
      rw [hev2.db.since.own]
      change w1.db.own t = []
      rw [hev1.db.since.own, hown]
    refine ⟨Ledger.inv_commit hI3 (Did.merged r hbefore hpending fun d hd hby => ?_), hsome _ _ (Engine.idle_commit _ t)
      ⟨⟨w3.db.entry t, ?_, ?_⟩, fun a ha => by cases ha⟩⟩
    · have hmem : d ∈ w3.db.own t := by
        refine List.mem_filter.2 ⟨?_, decide_eq_true hby⟩
        have hlog : (w3.db.commit t).log = w3.db.log ++ [w3.db.entry t] := rfl
        rwa [hlog, List.take_left' rfl] at hd
      rw [hown3] at hmem
      cases hmem
    · change _ ∈ (w3.db.commit t).own t
      rw [Engine.commit_own]
      exact List.mem_append_right _ (List.mem_singleton_self _)
    · change (w3.db.pending t .tenants tenantId).isSome = true
      rw [hpending, Rows.set_same]
      rfl

theorem ensures_recorded (haction : action ∈ (reqs t).patch.actions) (hidle : w.db.Idle t)
    (h : Told tenantId t done w.db) (herr : ∀ e w', Q (.error e) w')
    (hk : ∀ w', w'.db.Idle t → Told tenantId t (done ++ [action]) w'.db → (books tenantId reqs).Ensures t (k ()) Q w') :
    (books tenantId reqs).Ensures t (recordSettingsAudit tenantId actorId action >>= k) Q w := by
  refine ensures_tenantSession books_historic fun w1 n hev1 _ _ => ?_
  refine ensures_insert books_historic (fun w2 _ _ _ _ w3 _ _ => herr _ _) fun w2 hev2 hL2 _ _ => ?_
  have hidle2 : w2.db.Idle t := hev2.db.idle (e := { w1.db with started := _ }) ⟨(hev1.db.idle hidle).pending⟩
  have hown2 : w2.db.own t = w.db.own t := by
    rw [hev2.db.since.own]
    exact hev1.db.since.own
  intro w3 hev3 hL3 hI3 hA3 hL4
  have hpending : w3.db.pending t = Rows.set (fun _ _ => none) Table.auditLog w2.db.next
      (⟨w2.db.next, w2.db.started t, actorId, tenantId, action⟩ : AuditLog) := by
    rw [hev3.db.pending]
    simp [inserted, Engine.write, hidle2.pending, stamp]
  have hrow : w3.db.pending t .auditLog w2.db.next =
      some (⟨w2.db.next, w2.db.started t, actorId, tenantId, action⟩ : AuditLog) := by
    rw [hpending, Rows.set_same]
  have hfresh : w3.db.committed .auditLog w2.db.next = none := by
    rw [hev3.db.owned .auditLog w2.db.next _ Engine.write_pending_self]
    exact hL2.committed_none_of_le (Nat.le_refl _) .auditLog
  have hown3 : w3.db.own t = w.db.own t := by
    rw [hev3.db.since.own]
    exact hown2
  have hpast : (w3.db.commit t).log.take w3.db.log.length = w3.db.log := List.take_left' rfl
  have hmerged := h.merged
  rw [← hown3] at hmerged
  obtain ⟨d, hd, hwrote⟩ := hmerged
  obtain ⟨hdlog, hdby⟩ := mem_own hd
  refine ⟨Ledger.inv_commit hI3 (Did.recorded w2.db.next _ hpending ⟨hfresh, rfl, haction, ?_, ?_⟩), hk _ (Engine.idle_commit _ t) ?_⟩
  · rw [hpast]
    exact ⟨d, hdlog, hdby, hwrote⟩
  · rw [hpast]
    intro d' hd' hby j r' hr' hclash
    have hall := hA3 w2.db.next (hL3.owned_lt t .auditLog _ _ hrow)
    rw [hrow, Option.all_some, List.all_eq_true] at hall
    have hone := of_decide_eq_true (hall d' hd') hby j (hL3.written_lt hd' hr')
    rw [hr', Option.all_some] at hone
    exact of_decide_eq_true hone hclash
  · have hcommit : (w3.db.commit t).own t = w3.db.own t ++ [w3.db.entry t] := Engine.commit_own
    refine ⟨⟨d, ?_, hwrote⟩, fun a ha => ?_⟩
    · rw [hcommit]
      exact List.mem_append_left _ hd
    · rw [hcommit]
      rcases List.mem_append.1 ha with ha | ha
      · obtain ⟨d', hd', hrest⟩ := h.recorded a ha
        rw [← hown3] at hd'
        exact ⟨d', List.mem_append_left _ hd', hrest⟩
      · cases List.mem_singleton.1 ha
        exact ⟨_, List.mem_append_right _ (List.mem_singleton_self _), w2.db.next, _, hrow, rfl⟩

theorem ensures_recordIf {action : Option AuditAction}
    (haction : ∀ a, action = some a → a ∈ (reqs t).patch.actions) (hidle : w.db.Idle t)
    (h : Told tenantId t done w.db) (herr : ∀ e w', Q (.error e) w')
    (hk : ∀ w', w'.db.Idle t → Told tenantId t (done ++ action.toList) w'.db →
      (books tenantId reqs).Ensures t (k ()) Q w') :
    (books tenantId reqs).Ensures t (recordIf tenantId actorId action >>= k) Q w := by
  cases action with
  | none =>
    refine hk w hidle ?_
    simpa using h
  | some a => exact ensures_recorded (haction a rfl) hidle h herr hk

end Rules

/-! ## Whole requests -/

def Finished (tenantId : Nat) (reqs : Tid → Request) (t : Tid) : Except Err Reply → World schema nobody → Prop
  | .ok _, w => Told tenantId t (reqs t).patch.actions w.db
  | .error _, _ => True

theorem updateSettings_tells {actorId : Nat} {profile : Option Profile} {toggles : Option Toggles}
    {atelier : Option AtelierSettings} {scheduling : Option SchedulingSettings}
    (hp : (reqs t).patch = ⟨profile, toggles, atelier, scheduling, none⟩) (hidle : w.db.Idle t) (hown : w.db.own t = []) :
    (books tenantId reqs).Ensures t (updateSettings v tenantId actorId profile toggles atelier scheduling)
      (Finished tenantId reqs t) w := by
  have herr : ∀ e w', Finished tenantId reqs t (.error e) w' := fun _ _ => trivial
  have hactions : (reqs t).patch.actions = (atelier.map AuditAction.atelierSettingsUpdated).toList ++
      (toggles.map AuditAction.togglesUpdated).toList ++ (scheduling.map AuditAction.schedulingSettingsUpdated).toList := by
    rw [hp]
    rfl
  refine ensures_checked (fun e => herr e w) (ensures_checked (fun e => herr e w) (ensures_checked (fun e => herr e w)
    (ensures_checked (fun e => herr e w) (ensures_merge hp hidle hown herr (fun w1 _ => ?_) fun w1 s hidle1 htold1 => ?_))))
  · exact ensures_orRaise (fun _ => trivial) fun s hs => by cases hs
  refine ensures_orRaise (fun _ => trivial) fun s _ => ?_
  refine ensures_recordIf (fun a ha => ?_) hidle1 htold1 herr fun w2 hidle2 htold2 => ?_
  · simp [hactions, ha]
  refine ensures_recordIf (fun a ha => ?_) hidle2 htold2 herr fun w3 hidle3 htold3 => ?_
  · simp [hactions, ha]
  refine ensures_recordIf (fun a ha => ?_) hidle3 htold3 herr fun w4 _ htold4 => ?_
  · simp [hactions, ha]
  change Told tenantId t (reqs t).patch.actions w4.db
  rw [hactions]
  exact htold4

theorem updatePrivacy_tells {noticeText dpaText : Option String}
    (hp : (reqs t).patch = ⟨none, none, none, none, some (privacyTexts noticeText dpaText)⟩) (hidle : w.db.Idle t)
    (hown : w.db.own t = []) :
    (books tenantId reqs).Ensures t (updatePrivacy v tenantId noticeText dpaText) (Finished tenantId reqs t) w := by
  have herr : ∀ e w', Finished tenantId reqs t (.error e) w' := fun _ _ => trivial
  refine ensures_checked (fun e => herr e w) (ensures_checked (fun e => herr e w)
    (ensures_merge hp hidle hown herr (fun w1 _ => ?_) fun w1 s hidle1 htold1 => ?_))
  · exact ensures_orRaise (fun _ => trivial) fun s hs => by cases hs
  refine ensures_orRaise (fun _ => trivial) fun s _ => ?_
  change Told tenantId t (reqs t).patch.actions w1.db
  rw [hp]
  exact htold1

theorem request_tells (hidle : w.db.Idle t) (hown : w.db.own t = []) :
    (books tenantId reqs).Ensures t ((reqs t).code v tenantId) (Finished tenantId reqs t) w := by
  cases hreq : reqs t with
  | updateSettings actorId profile toggles atelier scheduling =>
    exact updateSettings_tells (by rw [hreq]; rfl) hidle hown
  | updatePrivacy noticeText dpaText => exact updatePrivacy_tells (by rw [hreq]; rfl) hidle hown

/-- **What every run does**: each commit is a deed, and a request that has returned has told all of its patch. -/
theorem console_run (h : Shelved rows next)
    (hr : Conf.Steps (RecordedInOrder tenantId) (console v tenantId reqs rows next clock) c) :
    c.state.db.Lawful kept.shared ∧ c.state.db.version 0 = rows ∧
      (∀ m d, c.state.db.log[m]? = some d → Did tenantId reqs (c.state.db.log.take m) d) ∧
      ∀ t r, c.threads t = some (.ret r) → Told tenantId t (reqs t).patch.actions c.state.db := by
  have hob : Cast.Obeyed kept.shared (console v tenantId reqs rows next clock) :=
    staged_obeyed (V := nobody) h kept_legal
  have hsafe : ∀ t p, (console v tenantId reqs rows next clock).threads t = some p →
      (books tenantId reqs).logic.Safe t p (Finished tenantId reqs t)
        (console v tenantId reqs rows next clock).state := by
    intro t p hp
    cases hp
    refine safe_of_ensures (request_tells ⟨rfl⟩ rfl) fun x w w' hx hev _ _ => ?_
    cases x with
    | ok r => exact Told.congr hx hev.db.since.own
    | error e => trivial
  obtain ⟨hsound, hL⟩ := (books tenantId reqs).runs hob (fun m d hm => by cases hm) hsafe hr
  exact ⟨hL, (hob.history hr).2 0 (Nat.le_refl 0), hsound.inv.2, fun t r ht => hsound.finished ht⟩

/-! ## The stored settings, register by register -/

section Registers

variable {α : Type} (R : Register α) {e : Engine schema}

def merges (R : Register α) (tenantId : Nat) (reqs : Tid → Request) (d : Commit schema) : Option α :=
  if (d.writes .tenants tenantId).isSome = true then LastWriter.last R.gives (reqs d.by_).patch.actions else none

theorem read_version (hL : e.Lawful kept.shared) (hdid : ∀ m d, e.log[m]? = some d → Did tenantId reqs (e.log.take m) d)
    {r0 : Tenant} (h0 : e.version 0 .tenants tenantId = some r0) : ∀ n, n ≤ e.log.length → ∃ r : Tenant,
      e.version n .tenants tenantId = some r ∧
      R.read r.settings = (LastWriter.last (merges R tenantId reqs) (e.log.take n)).or (R.read r0.settings) := by
  intro n hn
  induction n with
  | zero => exact ⟨r0, h0, rfl⟩
  | succ n ih =>
    obtain ⟨r, hr, hread⟩ := ih (by omega)
    have hentry : e.log[n]? = some e.log[n] := List.getElem?_eq_getElem hn
    have hbefore : e.version n = e.log[n].before := by simp [Engine.version, hentry]
    rw [hbefore] at hr
    rw [hL.linked n _ hentry, List.take_add_one, hentry, Option.toList_some, LastWriter.last_concat]
    by_cases hw : (e.log[n].writes .tenants tenantId).isSome = true
    · obtain ⟨r', hr', hafter, -⟩ := (hdid n _ hentry).merge hw
      rw [hr] at hr'
      cases hr'
      refine ⟨_, hafter, ?_⟩
      rw [R.merge, hread, merges, if_pos hw, Option.or_assoc]
    · refine ⟨r, ?_, ?_⟩
      · rw [Commit.after, Rows.over_none (by simpa using hw), hr]
      · rw [hread, merges, if_neg hw, Option.none_or]

theorem exists_commit (hL : e.Lawful kept.shared) (h0 : e.version 0 .auditLog i = none)
    (hr : e.committed .auditLog i = some r) :
    ∃ k : Nat, ∃ d : Commit schema, e.log[k]? = some d ∧ d.writes .auditLog i = some r := by
  obtain ⟨k, d, -, hk, hd, hbefore, hafter⟩ := hL.version_crossing (T := Table.auditLog) (i := i)
    (P := fun row => row ≠ none) (Nat.zero_le _) (Nat.le_refl _) (fun h => h h0) (by
      rw [Engine.version_length, hr]
      exact fun h => by cases h)
  obtain ⟨r', hr'⟩ := Option.ne_none_iff_exists'.1 hafter
  refine ⟨k, d, hd, ?_⟩
  have hwrites : d.writes .auditLog i = some r' := by
    cases hw : d.writes .auditLog i with
    | some x => rwa [Commit.after, Rows.over_some hw] at hr'
    | none =>
      rw [Commit.after, Rows.over_none hw] at hr'
      exact absurd (fun h => by rw [h] at hr'; cases hr') hbefore
  have hrow := hL.version_becomes (Cast.plays_common _) (m := k + 1) hk (Nat.le_refl _) .auditLog i
  rw [hL.linked k d hd, hr', Engine.version_length, hr] at hrow
  rw [hwrites]
  exact congrArg some (Eq.symm hrow)

theorem stays_recorded (hL : e.Lawful kept.shared) {k : Nat} (hd : e.log[k]? = some d)
    (hr : d.writes .auditLog i = some r) : e.committed .auditLog i = some r := by
  have hk : k < e.log.length := (List.getElem?_eq_some_iff.1 hd).1
  have hrow := hL.version_becomes (Cast.plays_common _) (m := k + 1) hk (Nat.le_refl _) .auditLog i
  have hafter : e.version (k + 1) .auditLog i = some r := by
    rw [hL.linked k d hd, Commit.after, Rows.over_some hr]
  rw [hafter, Engine.version_length] at hrow
  obtain ⟨r', hr', hsame⟩ := hrow.some_left
  rw [hr']
  exact congrArg some hsame

theorem mem_take {l : List α} {k : Nat} {x : α} : x ∈ l.take k ↔ ∃ j, j < k ∧ l[j]? = some x := by
  rw [List.mem_iff_getElem?]
  constructor
  · rintro ⟨j, hj⟩
    rw [List.getElem?_take] at hj
    by_cases hjk : j < k
    · rw [if_pos hjk] at hj
      exact ⟨j, hjk, hj⟩
    · rw [if_neg hjk] at hj
      cases hj
  · rintro ⟨j, hjk, hj⟩
    exact ⟨j, by rw [List.getElem?_take, if_pos hjk, hj]⟩

theorem mergedAt_iff {log : List (Commit schema)} {u : Tid} {k : Nat} : mergedAt tenantId log u k = true ↔
    ∃ d, log[k]? = some d ∧ d.by_ = u ∧ (d.writes .tenants tenantId).isSome = true := by
  unfold mergedAt
  cases log[k]? with
  | none => simp
  | some d => simp

variable (hdid : ∀ m d, e.log[m]? = some d → Did tenantId reqs (e.log.take m) d)
include hdid

theorem merge_unique {a b : Nat} {d' : Commit schema} (ha : e.log[a]? = some d) (hb : e.log[b]? = some d')
    (hw : (d.writes .tenants tenantId).isSome = true) (hw' : (d'.writes .tenants tenantId).isSome = true)
    (hby : d.by_ = d'.by_) : a = b := by
  rcases Nat.lt_trichotomy a b with hab | hab | hab
  · obtain ⟨-, -, -, hfirst⟩ := (hdid b d' hb).merge hw'
    exact absurd hby (hfirst d (mem_take.2 ⟨a, hab, ha⟩))
  · exact hab
  · obtain ⟨-, -, -, hfirst⟩ := (hdid a d ha).merge hw
    exact absurd hby.symm (hfirst d' (mem_take.2 ⟨b, hab, hb⟩))

theorem older_of_merged {a b k k' i' : Nat} {d' m m' : Commit schema} {r' : AuditLog} (hd : e.log[k]? = some d)
    (hd' : e.log[k']? = some d') (hr : d.writes .auditLog i = some r) (hr' : d'.writes .auditLog i' = some r')
    (hne : d'.by_ ≠ d.by_) (hm : e.log[b]? = some m) (hm' : e.log[a]? = some m') (hby : m.by_ = d.by_)
    (hby' : m'.by_ = d'.by_) (hw : (m.writes .tenants tenantId).isSome = true)
    (hw' : (m'.writes .tenants tenantId).isSome = true) (hab : a < b) (hclash : r'.action.clashes r.action = true)
    (hclash' : r.action.clashes r'.action = true) : r'.createdAt < r.createdAt := by
  -- the merge of a row's thread lies before the row
  have hbefore : ∀ {k j i : Nat} {d x : Commit schema} {r : AuditLog}, e.log[k]? = some d → d.writes .auditLog i = some r →
      e.log[j]? = some x → x.by_ = d.by_ → (x.writes .tenants tenantId).isSome = true → j < k := by
    intro k j i d x r hd hr hx hby hw
    obtain ⟨y, hy, hyby, hyw⟩ := ((hdid k d hd).record hr).after
    obtain ⟨l, hl, hly⟩ := mem_take.1 hy
    have hlj := merge_unique hdid hly hx hyw hw (hyby.trans hby.symm)
    omega
  have hbk := hbefore hd hr hm hby hw
  have hak := hbefore hd' hr' hm' hby' hw'
  have hk := (List.getElem?_eq_some_iff.1 hd).1
  have hk' := (List.getElem?_eq_some_iff.1 hd').1
  have hat : ∀ {n j : Nat} {x : Commit schema} {u : Tid}, j < n → e.log[j]? = some x → x.by_ = u →
      (x.writes .tenants tenantId).isSome = true → mergedAt tenantId (e.log.take n) u j = true := by
    intro n j x u hjn hx hu hw
    refine mergedAt_iff.2 ⟨x, ?_, hu, hw⟩
    rw [List.getElem?_take, if_pos hjn, hx]
  have hlen : ∀ {n j : Nat}, j < n → n < e.log.length → j < (e.log.take n).length := by
    intro n j hjn hn
    rw [List.length_take]
    omega
  rcases Nat.lt_trichotomy k' k with hlt | heq | hlt
  · have horder := ((hdid k d hd).record hr).order d' (mem_take.2 ⟨k', hlt, hd'⟩) hne i' r' hr' hclash
    exact (horder a (hlen (by omega) hk) b (hlen hbk hk) ⟨hat (by omega) hm' hby' hw', hat hbk hm hby hw⟩).1 hab
  · subst heq
    cases hd.symm.trans hd'
    exact absurd rfl hne
  · have horder := ((hdid k' d' hd').record hr').order d (mem_take.2 ⟨k, hlt, hd⟩) (Ne.symm hne) i r hr hclash'
    exact (horder b (hlen (by omega) hk') a (hlen hak hk') ⟨hat (by omega) hm hby hw, hat hak hm' hby' hw'⟩).2 hab

end Registers

/-! ## The trail -/

def recorded (tenantId : Nat) (first : Rows schema) (s : Snapshot schema) : List AuditLog :=
  (s.all .auditLog).filter fun (r : AuditLog) => decide (r.entity = tenantId) && (first .auditLog r.id).isNone

abbrev stored (e : Engine schema) : Snapshot schema := ⟨e.committed, e.next⟩

theorem mem_recorded (hL : e.Lawful kept.shared) :
    r ∈ recorded tenantId rows (stored e) ↔
      ∃ i, e.committed .auditLog i = some r ∧ r.entity = tenantId ∧ rows .auditLog i = none := by
  unfold recorded
  rw [List.mem_filter, Snapshot.mem_all]
  constructor
  · rintro ⟨⟨i, -, hr⟩, hkeep⟩
    rw [Bool.and_eq_true, decide_eq_true_eq, Option.isNone_iff_eq_none, show r.id = i from hL.rows.id .auditLog i r hr] at hkeep
    exact ⟨i, hr, hkeep⟩
  · rintro ⟨i, hr, hkeep⟩
    refine ⟨⟨i, hL.committed_lt .auditLog i r hr, hr⟩, ?_⟩
    rwa [Bool.and_eq_true, decide_eq_true_eq, Option.isNone_iff_eq_none, show r.id = i from hL.rows.id .auditLog i r hr]

/-- **No request is under way**: whoever has merged has returned. -/
def Settled (tenantId : Nat) (c : Conf (machine schema nobody Err) Reply) : Prop :=
  ∀ t, (∃ d ∈ c.state.db.own t, (d.writes .tenants tenantId).isSome = true) → c.returned t = true

structure Trail (tenantId : Nat) (first : Rows schema) (s : Snapshot schema) (trail : List AuditLog) : Prop where
  perm : trail.Perm (recorded tenantId first s)
  sorted : trail.Pairwise fun r r' => r.createdAt ≤ r'.createdAt

theorem last_trail (R : Register α) (h : Shelved rows next)
    (hr : Conf.Steps (RecordedInOrder tenantId) (console v tenantId reqs rows next clock) c)
    (hsettled : Settled tenantId c) {trail : List AuditLog} (htrail : Trail tenantId rows (stored c.state.db) trail) :
    LastWriter.last (fun r : AuditLog => R.gives r.action) trail =
      LastWriter.last (merges R tenantId reqs) c.state.db.log := by
  obtain ⟨hL, h0, hdid, htold⟩ := console_run h hr
  have hrow : ∀ r ∈ trail, ∃ k i : Nat, ∃ d : Commit schema, c.state.db.log[k]? = some d ∧ d.writes .auditLog i = some r := by
    intro r hr
    obtain ⟨i, hri, -, hnone⟩ := (mem_recorded hL).1 (htrail.perm.mem_iff.1 hr)
    obtain ⟨k, d, hd, hw⟩ := exists_commit hL (by rw [h0]; exact hnone) hri
    exact ⟨k, i, d, hd, hw⟩
  -- the merge of a row's thread names what the row names
  have hnamed : ∀ (k i : Nat) (d : Commit schema) (r : AuditLog) x, c.state.db.log[k]? = some d → d.writes .auditLog i = some r →
      R.gives r.action = some x → ∃ (a : Nat) (m : Commit schema), c.state.db.log[a]? = some m ∧ m.by_ = d.by_ ∧
        (m.writes .tenants tenantId).isSome = true ∧ merges R tenantId reqs m ≠ none := by
    intro k i d r x hd hw hx
    have hrec := (hdid k d hd).record hw
    obtain ⟨m, hm, hby, hmw⟩ := hrec.after
    obtain ⟨a, -, ha⟩ := mem_take.1 hm
    refine ⟨a, m, ha, hby, hmw, fun hnone => ?_⟩
    rw [merges, if_pos hmw, hby] at hnone
    have hsilent := LastWriter.silent_of_last hnone r.action hrec.action
    rw [hx] at hsilent
    cases hsilent
  cases hlast : LastWriter.last (merges R tenantId reqs) c.state.db.log with
  | none =>
    refine LastWriter.last_silent fun r hr => ?_
    obtain ⟨k, i, d, hd, hw⟩ := hrow r hr
    by_contra hne
    obtain ⟨x, hx⟩ := Option.ne_none_iff_exists'.1 hne
    obtain ⟨a, m, ha, -, -, hgives⟩ := hnamed k i d r x hd hw hx
    exact hgives (LastWriter.silent_of_last hlast m (List.mem_of_getElem? ha))
  | some x =>
    obtain ⟨pre, m, post, hlog, hm, hpost⟩ := LastWriter.exists_of_last hlast
    have hmlog : c.state.db.log[pre.length]? = some m := by
      rw [hlog, List.getElem?_append_right (Nat.le_refl _), Nat.sub_self]
      rfl
    have hmw : (m.writes .tenants tenantId).isSome = true := by
      by_contra hno
      rw [merges, if_neg hno] at hm
      cases hm
    rw [merges, if_pos hmw] at hm
    obtain ⟨front, action, back, hactions, haction, -⟩ := LastWriter.exists_of_last hm
    have hmem : action ∈ (reqs m.by_).patch.actions := by
      rw [hactions]
      exact List.mem_append_right _ (List.mem_cons_self ..)
    -- the row of the last merge is in the trail
    have hown : m ∈ c.state.db.own m.by_ := List.mem_filter.2 ⟨List.mem_of_getElem? hmlog, decide_eq_true rfl⟩
    obtain ⟨reply, hreply⟩ := Conf.returned_iff.1 (hsettled m.by_ ⟨m, hown, hmw⟩)
    obtain ⟨d, hd, i, r, hw, hra⟩ := (htold m.by_ reply hreply).recorded action hmem
    obtain ⟨hdlog, hdby⟩ := mem_own hd
    obtain ⟨k, hk⟩ := List.mem_iff_getElem?.1 hdlog
    have hrec := (hdid k d hk).record hw
    have hrt : r ∈ trail := by
      refine htrail.perm.mem_iff.2 ((mem_recorded hL).2 ⟨i, stays_recorded hL hk hw, hrec.entity, ?_⟩)
      have hrow := hL.version_becomes (Cast.plays_common _) (Nat.zero_le k) (List.getElem?_eq_some_iff.1 hk).1.le .auditLog i
      have hbefore : c.state.db.version k .auditLog i = none := by
        rw [show c.state.db.version k = d.before from by simp [Engine.version, hk]]
        exact hrec.fresh
      rw [h0, hbefore] at hrow
      cases hfirst : rows .auditLog i with
      | none => rfl
      | some y =>
        rw [hfirst] at hrow
        exact hrow.elim
    have hgives : R.gives r.action = some x := by
      rw [hra]
      exact haction
    refine LastWriter.last_of_greatest htrail.sorted hrt hgives fun r' hr' x' hx' => ?_
    obtain ⟨k', i', d', hk', hw'⟩ := hrow r' hr'
    have hrec' := (hdid k' d' hk').record hw'
    by_cases hby : d'.by_ = d.by_
    · refine .inl (R.one (reqs d.by_).patch _ _ _ _ ?_ hrec.action hx' hgives)
      rw [← hby]
      exact hrec'.action
    rcases R.apart _ _ _ _ hx' hgives with heq | hclash
    · exact .inl heq
    rcases R.apart _ _ _ _ hgives hx' with heq | hclash'
    · exact .inl heq.symm
    refine .inr ?_
    obtain ⟨a, m', ha, hby', hmw', hgives'⟩ := hnamed k' i' d' r' x' hk' hw' hx'
    refine older_of_merged hdid hk hk' hw hw' hby hmlog ha hdby.symm hby' hmw hmw' ?_ hclash hclash'
    -- the last merge that names the register is the last
    rcases Nat.lt_trichotomy a pre.length with hlt | heq | hgt
    · exact hlt
    · rw [heq, hmlog] at ha
      cases ha
      exact absurd (hby'.symm.trans hdby.symm) hby
    · refine absurd (hpost m' ?_) hgives'
      rw [hlog, List.getElem?_append_right hgt.le] at ha
      obtain ⟨j, hj⟩ : ∃ j, a - pre.length = j + 1 := ⟨a - pre.length - 1, by omega⟩
      rw [hj, List.getElem?_cons_succ] at ha
      exact List.mem_of_getElem? ha

theorem read_replay (R : Register α) (s : Blocks) (trail : List AuditLog) :
    R.read (replay s trail) = (LastWriter.last (fun r : AuditLog => R.gives r.action) trail).or (R.read s) :=
  LastWriter.read_foldl (fun s r => R.onto s r.action) s trail

structure SameAudited (s s' : Blocks) : Prop where
  atelier : s.atelier = s'.atelier
  scheduling : s.scheduling = s'.scheduling
  toggles : s.toggles = s'.toggles

theorem sameAudited_of_registers (h : ∀ (α : Type) (R : Register α), R.read s = R.read s') : SameAudited s s' := by
  refine ⟨h _ atelierRegister, h _ schedulingRegister, ?_⟩
  have hthere : s.toggles.map (fun _ => ()) = s'.toggles.map fun _ => () := h _ presenceRegister
  have hkeys : ∀ key, s.toggles.bind (fun stored => stored key) = s'.toggles.bind fun stored => stored key :=
    fun key => h _ (toggleRegister key)
  cases hs : s.toggles with
  | none =>
    rw [hs, Option.map_none] at hthere
    exact (Option.map_eq_none_iff.1 hthere.symm).symm
  | some f =>
    cases hs' : s'.toggles with
    | none =>
      rw [hs, hs'] at hthere
      cases hthere
    | some f' =>
      refine congrArg some ?_
      funext key
      have hkey := hkeys key
      rwa [hs, hs'] at hkey

/-- **The settings trail is a recoverable history** in every run that records in the order of the merges: a commit keeps
every part its request does not name, a request that has returned has merged its patch, and while no request is under
way the trail replayed over the first settings gives the stored ones. -/
theorem settings_recoverable (h : Shelved rows next)
    (hr : Conf.Steps (RecordedInOrder tenantId) (console v tenantId reqs rows next clock) c) :
    (∀ d ∈ c.state.db.log, ∀ r r' : Tenant, d.before .tenants tenantId = some r → d.after .tenants tenantId = some r' →
      ∀ part : Part, ¬part.Named (reqs d.by_).patch → part.Same r'.settings r.settings) ∧
    (∀ t reply, c.threads t = some (.ret reply) → ∃ d ∈ c.state.db.own t, ∃ r : Tenant,
      d.before .tenants tenantId = some r ∧
      d.after .tenants tenantId = some { r with settings := r.settings.merge (reqs t).patch }) ∧
    (Settled tenantId c → ∀ r r' : Tenant, rows .tenants tenantId = some r →
      c.state.db.committed .tenants tenantId = some r' → ∀ trail, Trail tenantId rows (stored c.state.db) trail →
        SameAudited (replay r.settings trail) r'.settings) := by
  obtain ⟨hL, h0, hdid, htold⟩ := console_run h hr
  refine ⟨fun d hd r r' hbefore hafter part hnot => ?_, fun t reply ht => ?_, fun hsettled r r' hfirst hnow trail htrail => ?_⟩
  · obtain ⟨m, hm⟩ := List.mem_iff_getElem?.1 hd
    by_cases hw : (d.writes .tenants tenantId).isSome = true
    · obtain ⟨x, hx, hx', -⟩ := (hdid m d hm).merge hw
      rw [hbefore] at hx
      rw [hafter] at hx'
      cases hx
      cases hx'
      exact merge_same hnot
    · rw [Commit.after, Rows.over_none (by simpa using hw), hbefore] at hafter
      cases hafter
      exact part.same_refl _
  · obtain ⟨d, hd, hw⟩ := (htold t reply ht).merged
    obtain ⟨hlog, hby⟩ := mem_own hd
    obtain ⟨m, hm⟩ := List.mem_iff_getElem?.1 hlog
    obtain ⟨x, hx, hx', -⟩ := (hdid m d hm).merge hw
    rw [hby] at hx'
    exact ⟨d, hd, x, hx, hx'⟩
  · refine sameAudited_of_registers fun α R => ?_
    obtain ⟨x, hx, hread⟩ := read_version R hL hdid (by rw [h0]; exact hfirst) _ (Nat.le_refl _)
    rw [Engine.version_length, hnow] at hx
    cases hx
    rw [List.take_length] at hread
    rw [read_replay, last_trail R h hr hsettled htrail, hread]

/-! ## Two saves of the workroom's block -/

def unsaved : Blocks := ⟨none, none, none, none, none⟩

def boutique : Tenant := ⟨0, 0, none, unsaved⟩

def boutiqueRows : Rows schema := listed (S := schema) fun
  | .tenants => [boutique]
  | .auditLog => []

theorem boutiqueRows_shelved : Shelved boutiqueRows 1 :=
  shelved_of_stocked [.tenants, .auditLog] (fun T => by cases T <;> decide) (by decide)

def lenient : Validators := ⟨fun _ => none, fun _ => none, fun _ => none, fun _ => none, fun _ _ => none⟩

def twoSaves : Tid → Request
  | 0 => .updateSettings 10 none none (some ⟨[(.halfDay, 240)], none⟩) none
  | _ => .updateSettings 11 none none (some ⟨[(.halfDay, 300)], some 40⟩) none

theorem settled_of_all {c : Conf (machine schema nobody Err) Reply} (h : ∀ d ∈ c.state.db.log, c.returned d.by_ = true) :
    Settled tenantId c := by
  rintro t ⟨d, hd, -⟩
  obtain ⟨hlog, rfl⟩ := mem_own hd
  exact h d hlog

def workrooms (c : Conf (machine schema nobody Err) Reply) : Option AtelierSettings × Option (Option AtelierSettings) :=
  ((replay unsaved (recorded 0 boutiqueRows (stored c.state.db))).atelier,
    (c.state.db.committed .tenants 0).map fun (r : Tenant) => r.settings.atelier)

/-- The first save is recorded last: the trail ends with the block that was written over. -/
theorem settings_unrecoverable : ∃ c, (console lenient 0 twoSaves boutiqueRows 1 0).Reaches c ∧ Settled 0 c ∧
    boutiqueRows .tenants 0 = some boutique ∧ ∃ r : Tenant, c.state.db.committed .tenants 0 = some r ∧
      ∃ trail, Trail 0 boutiqueRows (stored c.state.db) trail ∧ ¬SameAudited (replay boutique.settings trail) r.settings := by
  obtain ⟨c, hc, hrun⟩ := Conf.reached_freely (console lenient 0 twoSaves boutiqueRows 1 0)
    (turns 0 3 ++ turns 1 3 ++ turns 1 3 ++ [.happen 1] ++ turns 0 3)
    (fun c => decide ((∀ d ∈ c.state.db.log, c.returned d.by_ = true) ∧
      ((recorded 0 boutiqueRows (stored c.state.db)).Pairwise fun (r r' : AuditLog) => r.createdAt ≤ r'.createdAt) ∧
      workrooms c = (some ⟨[(.halfDay, 240)], none⟩, some (some ⟨[(.halfDay, 300)], some 40⟩)))) (by decide)
  obtain ⟨hall, hsorted, hrooms⟩ := of_decide_eq_true hrun
  obtain ⟨hreplayed, hstored⟩ := Prod.mk.inj hrooms
  obtain ⟨r, hr, hroom⟩ := Option.map_eq_some_iff.1 hstored
  refine ⟨c, hc, settled_of_all hall, rfl, r, hr, _, ⟨.refl _, hsorted⟩, fun hsame => ?_⟩
  have hatelier := hreplayed.symm.trans (hsame.atelier.trans hroom)
  exact absurd hatelier (by decide)

/-- One after the other, the trail ends with the stored block. -/
theorem settings_recoverable_saves : ∃ c, Conf.Steps (RecordedInOrder 0) (console lenient 0 twoSaves boutiqueRows 1 0) c ∧
    c.returned 0 = true ∧ c.returned 1 = true ∧ ∃ r : Tenant, c.state.db.committed .tenants 0 = some r ∧
      ∀ trail, Trail 0 boutiqueRows (stored c.state.db) trail → SameAudited (replay boutique.settings trail) r.settings := by
  obtain ⟨c, hc, hrun⟩ := Conf.reached_of_play (A := RecordedInOrder 0) (console lenient 0 twoSaves boutiqueRows 1 0)
    (turns 0 3 ++ turns 0 3 ++ [.happen 1] ++ turns 1 3 ++ turns 1 3)
    (fun c => decide ((∀ d ∈ c.state.db.log, c.returned d.by_ = true) ∧ c.returned 0 = true ∧ c.returned 1 = true ∧
      (c.state.db.committed .tenants 0).isSome = true)) (by decide)
  obtain ⟨hall, h0, h1, hthere⟩ := of_decide_eq_true hrun
  obtain ⟨r, hr⟩ := Option.isSome_iff_exists.1 hthere
  exact ⟨c, hc, h0, h1, r, hr, (settings_recoverable boutiqueRows_shelved hc).2.2 (settled_of_all hall) boutique r rfl hr⟩

end Settings
