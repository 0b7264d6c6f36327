import Boutique.Gateway
import Boutique.TxnQuiet
/-!
# OneActive — a connect replaces the credentials whole, or not at all

Whatever fails, a connect that fails has committed nothing; one that answers has committed its row as the provider's only
active one.  Rows are never removed and what is sealed in them never changes, so a verification still finds the newest.
-/
namespace Gateway

open Txn Session Contract

def TenantGatewayCredential.sealed (r : TenantGatewayCredential) : TenantGatewayCredential :=
  { r with deletedAt := none, status := .valid, lastValidatedAt := 0, validationError := none }

/-- **What a row may become**: a credential keeps what is sealed in it, and once superseded it stays as it is. -/
def Lasts : (T : Table) → Row T → Row T → Prop
  | .credentials, (r : TenantGatewayCredential), (r' : TenantGatewayCredential) =>
    r'.sealed = r.sealed ∧ (r.deletedAt ≠ none → r' = r)
  | .auditLog, _, _ => True

theorem lasts_refl (T : Table) (r : Row T) : Lasts T r r := by
  cases T with
  | credentials => exact ⟨rfl, fun _ => rfl⟩
  | auditLog => trivial

theorem lasts_trans (T : Table) (r r' r'' : Row T) (h : Lasts T r r') (h' : Lasts T r' r'') : Lasts T r r'' := by
  cases T with
  | credentials =>
    refine ⟨h'.1.trans h.1, fun hdeleted => ?_⟩
    have hsame := h.2 hdeleted
    subst hsame
    exact h'.2 hdeleted
  | auditLog => trivial

def lasting : Discipline schema where
  Trans _ := Lasts
  New _ _ _ := True
  refl _ := lasts_refl
  trans _ := lasts_trans
  weaken _ _ _ h := h
  new_trans _ _ _ _ _ _ := trivial
  new_weaken _ _ _ := trivial

theorem lasting_legal (l : Bool) (o : Op schema nobody) : lasting.Legal l o := by
  cases o with
  | now | ask => trivial
  | sql o =>
    cases o with
    | update T i g =>
      intro r r' hid happly
      cases T with
      | credentials =>
        have happly : CredentialChange.apply r g = some r' := happly
        cases g with
        | softDeleteActive provider now =>
          simp only [CredentialChange.apply, Option.ite_none_right_eq_some] at happly
          obtain ⟨hactive, heq⟩ := happly
          cases heq
          simp only [TenantGatewayCredential.active, decide_eq_true_eq] at hactive
          exact ⟨rfl, fun hdeleted => absurd hactive.2 hdeleted⟩
        | markStatus status lastValidatedAt validationError =>
          simp only [CredentialChange.apply, Option.ite_none_right_eq_some] at happly
          obtain ⟨hlive, heq⟩ := happly
          cases heq
          exact ⟨rfl, fun hdeleted => absurd hlive hdeleted⟩
      | auditLog => trivial
    | insert => exact fun _ _ => trivial
    | _ => trivial

/-! ## One active row -/

/-- **The provider's one active row.** -/
structure OnlyActive (rows : Rows schema) (provider : String) (i : Nat) (r : TenantGatewayCredential) : Prop where
  row : rows .credentials i = some r
  active : r.active provider = true
  only : ∀ j (r' : TenantGatewayCredential), rows .credentials j = some r' → r'.active provider = true → j = i

variable {rows : Rows schema} {i actorId : Nat} {r : TenantGatewayCredential} {service : GatewayCredentialService}
  {fields : Fields}

theorem active_once {provider : String} {j : Nat} {r' : TenantGatewayCredential} (h : Consistent rows)
    (hr : rows .credentials i = some r) (hr' : rows .credentials j = some r') (hactive : r.active provider = true)
    (hactive' : r'.active provider = true) : i = j := by
  by_contra hne
  have hclash : clash .credentials r r' = false := h.apart .credentials i j r r' hr hr' hne
  simp only [TenantGatewayCredential.active, decide_eq_true_eq] at hactive hactive'
  simp [clash, hactive.1, hactive.2, hactive'.1, hactive'.2] at hclash

theorem one_or_none {s : Snapshot schema} (h : Consistent s.rows) (provider : String) :
    ∃ row, scalarOneOrNone (activeRows provider s) = .ok row := by
  have hkeys := matching_cases (s := s) (T := Table.credentials) (p := fun r : TenantGatewayCredential => r.active provider)
    (h.id .credentials) fun i j r r' hr hr' ha ha' => active_once h hr hr' ha ha'
  have hlength : (activeRows provider s).length =
      (matching s Table.credentials fun r : TenantGatewayCredential => r.active provider).length := by
    simp [matching, activeRows]
  rcases hrows : activeRows provider s with _ | ⟨r, _ | ⟨r', rest⟩⟩
  · exact ⟨none, rfl⟩
  · exact ⟨some r, rfl⟩
  · rw [hrows] at hlength
    rcases hkeys with hnil | ⟨j, hsingle⟩
    · rw [hnil] at hlength
      cases hlength
    · rw [hsingle] at hlength
      simp at hlength

/-! ## One connect -/

abbrev plain : Contract lasting.shared nobody Err where
  Inv _ := True
  Assume _ _ _ _ _ := True
  crash_inv _ _ _ _ := trivial
  tick_inv _ _ _ _ := trivial

theorem plain_historic : plain.Historic fun _ => true := ⟨fun _ _ _ _ _ _ => trivial, fun _ _ _ _ _ _ _ => trivial⟩

/-- The thread has committed `ds`, and has nothing in flight. -/
structure Clear (t : Tid) (ds : List (Commit schema)) (e : Engine schema) : Prop where
  idle : e.pending t = fun _ _ => none
  own : e.own t = ds

abbrev Superseded (provider : String) (e : Engine schema) (j : Nat) (r : TenantGatewayCredential) : Prop :=
  ∃ (v : TenantGatewayCredential) (at_ : Int), e.committed .credentials j = some v ∧ v.active provider = true ∧
    r = { v with deletedAt := some at_ }

/-- **The transaction of a connect, superseding**: it has nothing else of the credentials in flight. -/
structure Superseding (t : Tid) (provider : String) (e : Engine schema) : Prop where
  own : e.own t = []
  rows : ∀ j (r : TenantGatewayCredential), e.pending t .credentials j = some r → Superseded provider e j r

def TenantGatewayCredential.content (r : TenantGatewayCredential) : TenantGatewayCredential := { r with id := 0, createdAt := 0 }

structure Replacing (t : Tid) (provider : String) (row : TenantGatewayCredential) (n : Nat) (e : Engine schema) : Prop where
  own : e.own t = []
  fresh : ∃ r : TenantGatewayCredential, e.pending t .credentials n = some r ∧ e.committed .credentials n = none ∧ r.content = row
  rows : ∀ j (r : TenantGatewayCredential), j ≠ n → e.pending t .credentials j = some r → Superseded provider e j r

/-- **What the commit of a connect makes of the rows**: the new one is the provider's only active row, and those that were
active are superseded. -/
structure Replaces (provider : String) (row : TenantGatewayCredential) (before after : Rows schema) : Prop where
  fresh : ∃ i r, before .credentials i = none ∧ OnlyActive after provider i r ∧ r.content = row
  others : ∀ i (r : TenantGatewayCredential), before .credentials i = some r → after .credentials i = some r ∨
    (r.active provider = true ∧ ∃ at_ : Int, after .credentials i = some ({ r with deletedAt := some at_ } : TenantGatewayCredential))

section Connect

variable {t : Tid} {ds : List (Commit schema)} {e e' : Engine schema} {provider : String} {row : TenantGatewayCredential}
  {n : Nat} {w : World schema nobody} {α β : Type} {Q : Except Err β → World schema nobody → Prop}

theorem Clear.evolves (h : Clear t ds e) (hev : e.Evolves lasting.shared t e') : Clear t ds e' :=
  ⟨hev.pending.trans h.idle, hev.since.own.trans h.own⟩

theorem Clear.superseding (h : Clear t [] e) : Superseding t provider e := by
  refine ⟨h.own, fun j r hr => ?_⟩
  rw [h.idle] at hr
  cases hr

theorem superseded_evolves {j : Nat} (hev : e.Evolves lasting.shared t e') (hr : e.pending t .credentials j = some r)
    (h : Superseded provider e j r) : Superseded provider e' j r := by
  obtain ⟨v, at_, hv, hactive, heq⟩ := h
  exact ⟨v, at_, (hev.owned .credentials j r hr).trans hv, hactive, heq⟩

theorem Superseding.evolves (h : Superseding t provider e) (hev : e.Evolves lasting.shared t e') : Superseding t provider e' := by
  refine ⟨hev.since.own.trans h.own, fun j r hr => ?_⟩
  rw [hev.pending] at hr
  exact superseded_evolves hev hr (h.rows j r hr)

theorem Superseding.write {v : TenantGatewayCredential} {at_ : Int} (h : Superseding t provider e)
    (hv : e.view t .credentials i = some v) (hr : CredentialChange.apply v (.softDeleteActive provider at_) = some r) :
    Superseding t provider (e.write t Table.credentials i r) := by
  simp only [CredentialChange.apply, Option.ite_none_right_eq_some] at hr
  obtain ⟨hactive, heq⟩ := hr
  cases heq
  refine ⟨h.own, fun j r hr => ?_⟩
  by_cases hj : j = i
  · subst hj
    rw [Engine.write_pending_self] at hr
    cases hr
    refine ⟨v, at_, ?_, hactive, rfl⟩
    cases hp : e.pending t .credentials j with
    | none => exact (Rows.over_none hp).symm.trans hv
    | some r =>
      -- a row it has superseded is not active
      obtain ⟨u, at', -, -, rfl⟩ := h.rows j r hp
      cases (Engine.view_pending hp).symm.trans hv
      simp [TenantGatewayCredential.active] at hactive
  · rw [Engine.write_pending_row fun hc => hj hc.2] at hr
    exact h.rows j r hr

theorem Superseding.insert {D : Cast schema} (h : Superseding t provider e) (hL : e.Lawful D) (row : TenantGatewayCredential)
    (hrow : row.content = row) : Replacing t provider row e.next (inserted e t Table.credentials row) := by
  refine ⟨h.own, ⟨_, Engine.write_pending_self, hL.committed_none_of_le (Nat.le_refl _) _, ?_⟩, fun j r hj hr => ?_⟩
  · rw [← hrow]
    rfl
  · rw [inserted, Engine.write_pending_row fun hc => hj hc.2] at hr
    exact h.rows j r hr

theorem Replacing.evolves (h : Replacing t provider row n e) (hev : e.Evolves lasting.shared t e') :
    Replacing t provider row n e' := by
  obtain ⟨hown, ⟨r, hr, hnone, hrow⟩, hrows⟩ := h
  refine ⟨hev.since.own.trans hown, ⟨r, ?_, (hev.owned .credentials n r hr).trans hnone, hrow⟩, fun j r' hj hr' => ?_⟩
  · rw [hev.pending]
    exact hr
  · rw [hev.pending] at hr'
    exact superseded_evolves hev hr' (hrows j r' hj hr')

theorem Replacing.record (h : Replacing t provider row n e) (audit : AuditLog) :
    Replacing t provider row n (inserted e t Table.auditLog audit) := by
  have hsame : ∀ j, (inserted e t Table.auditLog audit).pending t .credentials j = e.pending t .credentials j :=
    fun j => Engine.write_pending_row fun hc => by cases hc.1
  obtain ⟨hown, ⟨r, hr, hnone, hrow⟩, hrows⟩ := h
  refine ⟨hown, ⟨r, (hsame n).trans hr, hnone, hrow⟩, fun j r' hj hr' => ?_⟩
  rw [hsame] at hr'
  exact hrows j r' hj hr'

theorem Replacing.replaces {D : Cast schema} (h : Replacing t provider row n e) (hL : e.Lawful D)
    (hrow : row.active provider = true) : Replaces provider row (e.entry t).before (e.entry t).after := by
  obtain ⟨-, ⟨r, hr, hnone, rfl⟩, hrows⟩ := h
  have hview : e.view t .credentials n = some r := Engine.view_pending hr
  refine ⟨⟨n, r, hnone, ⟨hview, hrow, fun j r' hr' hactive => ?_⟩, rfl⟩, fun i v hv => ?_⟩
  · exact active_once (hL.view_consistent t) hr' hview hactive hrow
  · have hi : i ≠ n := by
      rintro rfl
      cases hnone.symm.trans hv
    cases hp : e.pending t .credentials i with
    | none => exact Or.inl ((Rows.over_none hp).trans hv)
    | some r' =>
      obtain ⟨u, at_, hu, hactive, rfl⟩ := hrows i r' hi hp
      cases hu.symm.trans hv
      exact Or.inr ⟨hactive, at_, Engine.view_pending hp⟩

/-! ## The programs -/

theorem ensures_liftExcept {x : Except Err α} {k : α → Prg β} (herr : ∀ e, x = .error e → Q (.error e) w)
    (hok : ∀ a, x = .ok a → plain.Ensures t (k a) Q w) : plain.Ensures t (liftExcept x >>= k) Q w := by
  cases x with
  | error e => exact herr e rfl
  | ok a => exact hok a rfl

theorem ensures_orUnavailable {p : Prg α} {k : α → Prg β}
    (h : plain.Ensures t p (fun x w' =>
      match x with
      | .ok a => plain.Ensures t (k a) Q w'
      | .error _ => ∀ e, Q (.error e) w') w) : plain.Ensures t (orUnavailable p >>= k) Q w := by
  refine ensures_first (ensures_bind ?_)
  rw [Ensures, Prog.wp_attempt]
  refine ensures_mono (fun x w' hx => ?_) h
  cases x with
  | ok a => exact hx
  | error e => cases e <;> exact hx _

theorem supersede_ensures {cleaned : Fields} {ciphertext : String} {at_ : Int} {k : Unit → Prg β}
    (h : Clear t [] w.db) (herr : ∀ e w', w'.db.own t = [] → Q (.error e) w') (hok : ∀ w' d, Clear t [d] w'.db →
      Replaces provider (draft provider ciphertext service.secretBox.keyRef at_ actorId) d.before d.after →
        plain.Ensures t (k ()) Q w') :
    plain.Ensures t (orUnavailable (service.supersede provider cleaned ciphertext at_ actorId) >>= k) Q w := by
  have hactive : (draft provider ciphertext service.secretBox.keyRef at_ actorId).active provider = true := by
    simp [draft, TenantGatewayCredential.active]
  refine ensures_orUnavailable (ensures_last (ensures_tenantSession plain_historic fun w1 txNow hev1 _ _ => ?_))
  have h1 : Clear t [] w1.db := h.evolves hev1.db
  -- the lock
  refine ensures_call fun w2 hev2 _ _ i r w3 hexec hL3 _ => ⟨trivial, ?_⟩
  obtain ⟨⟨y, e'⟩, hlock, hx⟩ := Option.map_eq_some_iff.1 hexec
  obtain ⟨-, rfl⟩ := Engine.lock_cases hlock
  cases hx
  have hbegun : Clear t [] ({ w1.db with started := Function.update w1.db.started t txNow } : Engine schema) := ⟨h1.idle, h1.own⟩
  have h2 : Superseding t provider ({ w2.db with advisory := some t } : Engine schema) :=
    ⟨(hbegun.evolves hev2.db).own, (hbegun.evolves hev2.db).superseding.rows⟩
  -- the rows that were active
  refine ensures_first (ensures_select plain_historic fun w4 hev4 _ _ _ _ => ?_)
  have h4 : Superseding t provider (w4.db.look t) := ⟨(h2.evolves hev4.db).own, (h2.evolves hev4.db).rows⟩
  refine ensures_first (ensures_updateRows plain_historic (fun _ w => Superseding t provider w.db)
    (fun _ _ _ hev _ _ h => h.evolves hev.db) (fun _ _ _ v r h _ hv hr => ?_)
    (fun _ w' h w'' hev _ => ?_) h4 fun rs w5 h5 => ?_)
  · have hr : CredentialChange.apply v (.softDeleteActive provider at_) = some r := hr
    exact h.write hv hr
  · exact fun e => herr e _ ((h.evolves hev.db).own)
  -- the new one
  refine ensures_insert plain_historic (fun w' m hev _ _ w'' hev' _ => ?_) fun w6 hev6 hL6 _ _ => ?_
  · have hown : ({ w'.db with next := m } : Engine schema).own t = [] := (h5.evolves hev.db).own
    exact fun e => herr e _ (hev'.db.since.own.trans hown)
  have h6 := (h5.evolves hev6.db).insert hL6 (draft provider ciphertext service.secretBox.keyRef at_ actorId) rfl
  refine ensures_insert plain_historic (fun w' m hev _ _ w'' hev' _ => ?_) fun w7 hev7 hL7 _ _ => ?_
  · have hown : ({ w'.db with next := m } : Engine schema).own t = [] := (h6.evolves hev.db).own
    exact fun e => herr e _ (hev'.db.since.own.trans hown)
  have h7 := (h6.evolves hev7.db).record ⟨0, 0, actorId, .gatewayConnected provider (sorted (cleaned.map Prod.fst))⟩
  intro w8 hev8 hL8 _ _ _
  have h8 := h7.evolves hev8.db
  refine ⟨trivial, hok _ (w8.db.entry t) ⟨Engine.commit_pending_self, ?_⟩ (h8.replaces hL8 hactive)⟩
  rw [Engine.commit_own, h8.own]
  rfl

theorem active_ensures {k : Option TenantGatewayCredential → Prg β} (h : Clear t ds w.db)
    (hk : ∀ found w' d, Clear t (ds ++ [d]) w'.db → d.writes = (fun _ _ => none) → plain.Ensures t (k found) Q w') :
    plain.Ensures t (GatewayCredentialService.active provider >>= k) Q w := by
  refine ensures_tenantSession plain_historic fun w1 txNow hev1 _ _ => ?_
  have h1 : Clear t ds ({ w1.db with started := Function.update w1.db.started t txNow } : Engine schema) :=
    ⟨(h.evolves hev1.db).idle, (h.evolves hev1.db).own⟩
  refine ensures_select plain_historic fun w2 hev2 hL2 _ _ _ => ?_
  have h2 : Clear t ds (w2.db.look t) := ⟨(h1.evolves hev2.db).idle, (h1.evolves hev2.db).own⟩
  obtain ⟨found, hfound⟩ := one_or_none (s := ⟨w2.db.view t, w2.db.next⟩) (hL2.view_consistent t) provider
  rw [hfound]
  intro w3 hev3 _ _ _ _
  have h3 := h2.evolves hev3.db
  refine ⟨trivial, hk found _ (w3.db.entry t) ⟨Engine.commit_pending_self, ?_⟩ h3.idle⟩
  rw [Engine.commit_own, h3.own]

theorem status_ensures {k : GatewayStatus → Prg β} (h : Clear t ds w.db)
    (hprovider : service.gateway.provider = some provider)
    (hk : ∀ status w' d, Clear t (ds ++ [d]) w'.db → d.writes = (fun _ _ => none) → plain.Ensures t (k status) Q w') :
    plain.Ensures t (service.status >>= k) Q w := by
  unfold GatewayCredentialService.status
  rw [hprovider]
  refine ensures_first (active_ensures h fun found w' d h' hd => ?_)
  cases found with
  | none => exact hk _ w' d h' hd
  | some row => exact hk _ w' d h' hd

/-- **How a connect ends**: with nothing committed, or with its checks passed, the replacement and one read. -/
def ConnectEnds (service : GatewayCredentialService) (fields : Fields) (actorId : Nat) (t : Tid) :
    Except Err Reply → World schema nobody → Prop
  | .error _, w => w.db.own t = []
  | .ok _, w => ∃ provider cleaned ciphertext at_ d d', service.requireProvider = .ok provider ∧
      validateCredentialFields fields service.gateway.credentialFields = .ok cleaned ∧ service.ping cleaned = .ok () ∧
      service.encrypt cleaned = .ok ciphertext ∧ w.db.own t = [d, d'] ∧ d'.writes = (fun _ _ => none) ∧
      Replaces provider (draft provider ciphertext service.secretBox.keyRef at_ actorId) d.before d.after

theorem requireProvider_ok (h : service.requireProvider = .ok provider) :
    service.gateway.provider = some provider := by
  unfold GatewayCredentialService.requireProvider at h
  split at h
  · cases h
  · rename_i found hfound
    split at h
    · cases h
    · split at h
      · cases h
      · cases h
        exact hfound

theorem connect_ensures (h : Clear t [] w.db) :
    plain.Ensures t (Request.connect service fields actorId).code (ConnectEnds service fields actorId t) w := by
  refine ensures_first (ensures_liftExcept (fun _ _ => h.own) fun provider hprovider => ?_)
  refine ensures_first (ensures_raiseIf (fun _ => h.own) fun _ => ?_)
  refine ensures_first (ensures_liftExcept (fun _ _ => h.own) fun cleaned hcleaned => ?_)
  refine ensures_first (ensures_liftExcept (fun _ _ => h.own) fun _ hping => ?_)
  refine ensures_first (ensures_liftExcept (fun _ _ => h.own) fun ciphertext hciphertext => ?_)
  refine ensures_first (Session.ensures_now plain_historic fun w1 hev1 _ _ => ?_)
  refine ensures_first (supersede_ensures (h.evolves hev1.db) (fun _ _ hown => hown) fun w2 d h2 hd => ?_)
  refine status_ensures h2 (requireProvider_ok hprovider) fun status w3 d' h3 hd' => ?_
  exact ⟨provider, cleaned, ciphertext, _, d, d', hprovider, hcleaned, hping, hciphertext, h3.own, hd', hd⟩

/-! ## The newest row -/

/-- **A row of the provider than which none is newer.** -/
structure Newest (rows : Rows schema) (provider : String) (i : Nat) (r : TenantGatewayCredential) : Prop where
  row : rows .credentials i = some r
  mine : r.provider = provider
  newest : ∀ j (r' : TenantGatewayCredential), rows .credentials j = some r' → r'.provider = provider → r'.createdAt ≤ r.createdAt

theorem mem_providerRows {next : Nat} :
    r ∈ providerRows provider ⟨rows, next⟩ ↔ (∃ i, i < next ∧ rows .credentials i = some r) ∧ r.provider = provider := by
  unfold providerRows
  rw [List.mem_filter, Snapshot.mem_all, decide_eq_true_eq]

theorem newest_found (provider : String) (scan : Scan) {next : Nat}
    (hlt : ∀ i (r : TenantGatewayCredential), rows .credentials i = some r → i < next) :
    (newest scan (providerRows provider ⟨rows, next⟩) = none ∧
      ∀ i (r : TenantGatewayCredential), rows .credentials i = some r → r.provider ≠ provider) ∨
    ∃ i r, newest scan (providerRows provider ⟨rows, next⟩) = some r ∧ Newest rows provider i r := by
  have hmem : ∀ i (r : TenantGatewayCredential), rows .credentials i = some r → r.provider = provider →
      r ∈ scan.order (providerRows provider ⟨rows, next⟩) := fun i r hr hp =>
    (scan.perm _).mem_iff.2 (mem_providerRows.2 ⟨⟨i, hlt i r hr, hr⟩, hp⟩)
  cases hfound : newest scan (providerRows provider ⟨rows, next⟩) with
  | none =>
    refine Or.inl ⟨rfl, fun i r hr hp => ?_⟩
    have hin := hmem i r hr hp
    rw [latestBy_none hfound] at hin
    cases hin
  | some r =>
    obtain ⟨⟨i, -, hr⟩, hp⟩ := mem_providerRows.1 ((scan.perm _).mem_iff.1 (latestBy_mem hfound))
    exact Or.inr ⟨i, r, rfl, hr, hp, fun j r' hr' hp' => latestBy_le hfound (hmem j r' hr' hp')⟩

/-- **How a verification ends**: nobody has ever connected the provider, or the newest row of a version it saw is opened. -/
def Resolves (service : GatewayCredentialService) (provider : String) (L : Nat) (x : Except Err Reply)
    (w : World schema nobody) : Prop :=
  ∃ m, L ≤ m ∧ m ≤ w.db.log.length ∧
    ((∀ i (r : TenantGatewayCredential), w.db.version m .credentials i = some r → r.provider ≠ provider) ∨
      ∃ i r, Newest (w.db.version m) provider i r ∧ x = (service.decrypt r.ciphertext provider).map Reply.credentials)

theorem verification_ensures {L : Nat} (hprovider : service.requireProvider = .ok provider) (h : w.db.Idle t)
    (hL : L ≤ w.db.log.length) :
    plain.Ensures t (Request.verificationCredentialsFor service).code (Resolves service provider L) w := by
  refine ensures_first (ensures_liftExcept (fun e he => ?_) fun found hfound => ?_)
  · cases hprovider.symm.trans he
  cases hprovider.symm.trans hfound
  refine ensures_first (ensures_tenantSession plain_historic fun w1 txNow hev1 _ _ => ?_)
  refine ensures_last (ensures_select plain_historic fun w2 hev2 hL2 _ _ _ => ?_)
  have hidle : w2.db.pending t = fun _ _ => none := hev2.db.pending.trans (hev1.db.pending.trans h.pending)
  have hseen : L ≤ w2.db.log.length := Nat.le_trans hL (Nat.le_trans hev1.db.log_le hev2.db.log_le)
  rw [Engine.view_idle hidle]
  intro w3 hev3 _ _ _ _
  refine ⟨trivial, ?_⟩
  have hle : w2.db.log.length ≤ w3.db.log.length := hev3.db.log_le
  have hversion : (w3.db.commit t).version w2.db.log.length = w2.db.committed := by
    rw [Engine.commit_version_le hle, hev3.db.version w2.db.log.length (Nat.le_refl _)]
    exact Engine.version_length
  have hlog : w2.db.log.length ≤ (w3.db.commit t).log.length := by
    simp only [Engine.commit, List.length_append]
    omega
  rcases newest_found provider service.scan (fun i r => hL2.committed_lt .credentials i r) with
    ⟨hnone, hnobody⟩ | ⟨i, r, hsome, hnewest⟩
  · rw [hnone]
    exact ⟨_, hseen, hlog, Or.inl (hversion ▸ hnobody)⟩
  · rw [hsome]
    refine ensures_first (ensures_orRaise nofun fun found hfound => ?_)
    cases hfound
    have hnewest : Newest ((w3.db.commit t).version w2.db.log.length) provider i r := hversion ▸ hnewest
    refine ensures_liftExcept (fun e he => ?_) fun credentials hcredentials => ?_
    · exact ⟨_, hseen, hlog, Or.inr ⟨i, r, hnewest, by rw [he]; rfl⟩⟩
    · exact ⟨_, hseen, hlog, Or.inr ⟨i, r, hnewest, by rw [hcredentials]; rfl⟩⟩

end Connect

/-! ## The runs -/

section Runs

variable {reqs : Tid → Request} {rows : Rows schema} {next : Nat} {clock : Int} {t : Tid} {provider : String}
  {c c' : Conf (machine schema nobody Err) Reply}

abbrev begun (reqs : Tid → Request) (rows : Rows schema) (next : Nat) (clock : Int) :
    Conf (machine schema nobody Err) Reply := opened (fun t => (reqs t).code) rows next clock

theorem begun_obeyed (reqs : Tid → Request) (clock : Int) (h : Shelved rows next) :
    Cast.Obeyed lasting.shared (begun reqs rows next clock) :=
  staged_obeyed (V := nobody) h lasting_legal

variable {x : Except Err Reply} {w w' : World schema nobody}

theorem ConnectEnds.evolves (h : ConnectEnds service fields actorId t x w) (hev : w.Evolves lasting.shared t w') :
    ConnectEnds service fields actorId t x w' := by
  have hown : w'.db.own t = w.db.own t := hev.db.since.own
  cases x with
  | error e => exact hown.trans h
  | ok reply =>
    obtain ⟨provider, cleaned, ciphertext, at_, d, d', hprovider, hcleaned, hping, hciphertext, hds, hend⟩ := h
    exact ⟨provider, cleaned, ciphertext, at_, d, d', hprovider, hcleaned, hping, hciphertext, hown.trans hds, hend⟩

theorem Resolves.evolves {L : Nat} (h : Resolves service provider L x w) (hev : w.Evolves lasting.shared t w') :
    Resolves service provider L x w' := by
  obtain ⟨m, hLm, hm, hx⟩ := h
  refine ⟨m, hLm, Nat.le_trans hm hev.db.log_le, ?_⟩
  rwa [hev.db.version m hm]

theorem plain_safe (p : Prg Reply) (w : World schema nobody) : plain.logic.Safe t p (fun _ _ => True) w :=
  safe_of_free ⟨fun _ _ _ _ _ _ => trivial, fun _ _ _ _ _ _ _ => trivial⟩ (fun _ _ _ _ _ => trivial) (fun _ _ _ _ => trivial)
    fun _ _ => trivial

theorem version_sealed {e : Engine schema} (h : e.Lawful lasting.shared) {m k : Nat} (hkm : k ≤ m)
    (hm : m ≤ e.log.length) (hr : e.version k .credentials i = some r) :
    ∃ r' : TenantGatewayCredential, e.version m .credentials i = some r' ∧ r'.sealed = r.sealed := by
  have hbecomes := h.version_becomes (Cast.plays_common lasting.shared) hkm hm .credentials i
  rw [hr] at hbecomes
  obtain ⟨r', hr', hlasts⟩ := hbecomes.some_left
  exact ⟨r', hr', hlasts.1⟩

theorem connect_ends (h : Shelved rows next) (ht : reqs t = .connect service fields actorId)
    (hr : (begun reqs rows next clock).Reaches c) :
    (∀ reply, c.threads t = some (.ret reply) → ConnectEnds service fields actorId t (.ok reply) c.state) ∧
      ∀ e, c.threads t = some (.raise e) → ConnectEnds service fields actorId t (.error e) c.state := by
  refine plain.follows (begun_obeyed reqs clock h) trivial (fun _ p _ _ => plain_safe p _) (fun p hp => ?_) hr
  have hp : (reqs t).code = p := by simpa [begun, opened] using hp
  rw [← hp, ht]
  exact safe_of_ensures (connect_ensures ⟨rfl, rfl⟩) fun x w w' hx hev _ _ => hx.evolves hev

theorem verification_ends (h : Shelved rows next) (ht : reqs t = .verificationCredentialsFor service)
    (hprovider : service.requireProvider = .ok provider)
    (hr : Conf.Steps (fun u _ _ _ _ => u ≠ t) (begun reqs rows next clock) c) (hr' : c.Reaches c') :
    (∀ reply, c'.threads t = some (.ret reply) → Resolves service provider c.state.db.log.length (.ok reply) c'.state) ∧
      ∀ e, c'.threads t = some (.raise e) → Resolves service provider c.state.db.log.length (.error e) c'.state := by
  have hob := begun_obeyed reqs clock h
  obtain ⟨hidle, hthread⟩ := hob.unbegun (t := t) ⟨rfl⟩ (hr.mono fun _ _ _ _ _ hu => ⟨hu, trivial⟩)
  refine plain.follows (hob.steps hr).1 trivial (fun _ p _ _ => plain_safe p _) (fun p hp => ?_) hr'
  have hp : (reqs t).code = p := by simpa [begun, opened] using hthread p hp
  rw [← hp, ht]
  exact safe_of_ensures (verification_ensures hprovider hidle (Nat.le_refl _)) fun x w w' hx hev _ _ => hx.evolves hev

/-- **A connect is all or nothing.**  One that fails, wherever it does, has committed nothing; one that answers passed its
checks and in one commit left its own row as the provider's only active one, those it superseded otherwise as they were.  At
no point of any run has a provider two active rows, and a verification opens the newest row once there has been any. -/
theorem connect_atomic (reqs : Tid → Request) (clock : Int) (h : Shelved rows next) :
    (∀ c t service fields actorId, (begun reqs rows next clock).Reaches c → reqs t = .connect service fields actorId →
      (∀ e, c.threads t = some (.raise e) → c.state.db.own t = []) ∧
      ∀ reply, c.threads t = some (.ret reply) → ∃ provider cleaned ciphertext at_ m d d',
        service.requireProvider = .ok provider ∧
        validateCredentialFields fields service.gateway.credentialFields = .ok cleaned ∧
        service.ping cleaned = .ok () ∧ service.encrypt cleaned = .ok ciphertext ∧
        c.state.db.own t = [d, d'] ∧ d'.writes = (fun _ _ => none) ∧ c.state.db.log[m]? = some d ∧
        Replaces provider (draft provider ciphertext service.secretBox.keyRef at_ actorId) (c.state.db.version m)
          (c.state.db.version (m + 1))) ∧
    (∀ c m provider i j (r r' : TenantGatewayCredential), (begun reqs rows next clock).Reaches c →
      c.state.db.version m .credentials i = some r → c.state.db.version m .credentials j = some r' →
      r.active provider = true → r'.active provider = true → i = j) ∧
    ∀ c c' t service provider, Conf.Steps (fun u _ _ _ _ => u ≠ t) (begun reqs rows next clock) c → c.Reaches c' →
      reqs t = .verificationCredentialsFor service → service.requireProvider = .ok provider →
      ∀ k i (row : TenantGatewayCredential), k ≤ c.state.db.log.length → c.state.db.version k .credentials i = some row →
        row.provider = provider → ∀ x, c'.threads t = some (liftExcept x) →
          ∃ m j r, c.state.db.log.length ≤ m ∧ m ≤ c'.state.db.log.length ∧ Newest (c'.state.db.version m) provider j r ∧
            row.createdAt ≤ r.createdAt ∧ x = (service.decrypt r.ciphertext provider).map Reply.credentials := by
  refine ⟨fun c t service fields actorId hr ht => ⟨(connect_ends h ht hr).2, fun reply hreply => ?_⟩,
    fun c m provider i j r r' hr hi hj ha ha' => ?_,
    fun c c' t service provider hr hr' ht hprovider k i row hk hrow hmine x hx => ?_⟩
  · obtain ⟨provider, cleaned, ciphertext, at_, d, d', hprovider, hcleaned, hping, hciphertext, hown, hread, hd⟩ :=
      (connect_ends h ht hr).1 reply hreply
    have hmine : d ∈ c.state.db.own t := by
      rw [hown]
      exact List.mem_cons_self
    have hmem : d ∈ c.state.db.log := List.mem_of_mem_filter hmine
    obtain ⟨m, hm⟩ := List.getElem?_of_mem hmem
    have hlawful := ((begun_obeyed reqs clock h).steps hr).1.lawful
    have hbefore : c.state.db.version m = d.before := by
      unfold Engine.version
      rw [hm]
    refine ⟨provider, cleaned, ciphertext, at_, m, d, d', hprovider, hcleaned, hping, hciphertext, hown, hread, hm, ?_⟩
    rw [hbefore, hlawful.linked m d hm]
    exact hd
  · have hrows : Consistent (c.state.db.version m) := ((begun_obeyed reqs clock h).steps hr).1.lawful.version_consistent m
    exact active_once hrows hi hj ha ha'
  · have hends : Resolves service provider c.state.db.log.length x c'.state := by
      cases x with
      | error e => exact (verification_ends h ht hprovider hr hr').2 e hx
      | ok reply => exact (verification_ends h ht hprovider hr hr').1 reply hx
    have hob := (begun_obeyed reqs clock h).steps hr
    obtain ⟨m, hcm, hm, hfound⟩ := hends
    -- the row is still there, as it was sealed
    have hrow' : c'.state.db.version k .credentials i = some row := by
      rw [(hob.1.history hr').2 k hk]
      exact hrow
    obtain ⟨row', hlater, hsealed⟩ := version_sealed (hob.1.steps hr').1.lawful (Nat.le_trans hk hcm) hm hrow'
    have hmine' : row'.provider = provider := (congrArg TenantGatewayCredential.provider hsealed).trans hmine
    have hcreated := congrArg TenantGatewayCredential.createdAt hsealed
    have hcreated : row'.createdAt = row.createdAt := hcreated
    rcases hfound with hnobody | ⟨j, r, hnewest, hx⟩
    · exact absurd hmine' (hnobody i row' hlater)
    · exact ⟨m, j, r, hcm, hm, hnewest, hcreated ▸ hnewest.newest i row' hlater hmine', hx⟩

end Runs

/-! ## Two owners -/

def merchantId : Boutique.Text := ['i', 'd']

def fakeService (answer : Except PingFailure Unit) : GatewayCredentialService where
  gateway := ⟨some "fake", true, [merchantId], fun _ => answer⟩
  secretBox := ⟨true, "fake", fun _ => .ok "sealed", fun ciphertext =>
    if ciphertext = "sealed" then .ok [] else .error .secretDecrypt⟩
  isBlocked := false
  loads _ := .ok (.flat [(merchantId, ['m'])])
  scan := ⟨id, fun rows => List.Perm.refl rows⟩

/-- One connects, one is told by the provider that its credentials are bad, the others verify. -/
def twoConnects : Tid → Request
  | 0 => .connect (fakeService (.ok ())) [(merchantId, ['m'])] 7
  | 1 => .connect (fakeService (.error (.credentialsRejected []))) [(merchantId, ['x'])] 8
  | _ => .verificationCredentialsFor (fakeService (.ok ()))

/-- A boutique connected long ago, under a key that is gone. -/
def longConnected : (T : Table) → List (Row T)
  | .credentials => [⟨0, 0, none, "fake", "old", "fake", .valid, 0, none, 6⟩]
  | _ => []

theorem longConnected_shelved : Shelved (listed (S := schema) longConnected) 1 :=
  shelved_of_stocked [.credentials, .auditLog] (fun T => by cases T <;> decide) (by decide)

/-- The first is connected and the old row superseded, the second has committed nothing, and a verification that begins after
opens the new row. -/
theorem connect_atomic_twice : ∃ c c',
    Conf.Steps (fun u _ _ _ _ => u ≠ 2) (begun twoConnects (listed (S := schema) longConnected) 1 0) c ∧ c.Reaches c' ∧
    c.state.db.own 1 = [] ∧
    (∃ m i r, OnlyActive (c.state.db.version (m + 1)) "fake" i r ∧ r.ciphertext = "sealed") ∧
    (c.state.db.committed .credentials 0).map TenantGatewayCredential.deletedAt = some (some 5) ∧
    ∃ m j r, Newest (c'.state.db.version m) "fake" j r ∧ 5 ≤ r.createdAt ∧
      (fakeService (.ok ())).decrypt r.ciphertext "fake" = .ok ⟨"fake", [(merchantId, ['m'])]⟩ := by
  obtain ⟨c, c', hr, hr', hP⟩ := Conf.reached_of_plays (A := fun u _ _ _ _ => u ≠ 2) (B := fun _ _ _ _ _ => True)
    (begun twoConnects (listed (S := schema) longConnected) 1 0) ([.happen 5] ++ turns 0 11) (turns 2 3)
    (fun c c' => (c.returned 0 && (c.failure 1).isSome) &&
      (decide ((c.state.db.committed .credentials 0).map TenantGatewayCredential.deletedAt = some (some 5)) &&
        (c.state.db.committed .credentials 1).any fun (r : TenantGatewayCredential) =>
          decide (r.provider = "fake" ∧ r.createdAt = 5)) &&
      decide (c'.reply 2 = some (.credentials ⟨"fake", [(merchantId, ['m'])]⟩))) (by decide)
  simp only [Bool.and_eq_true, Option.any_eq_true, decide_eq_true_eq] at hP
  obtain ⟨⟨⟨hreturned, hfailed⟩, hold, row, hrow, hmine, hcreated⟩, hverified⟩ := hP
  obtain ⟨e, he⟩ := Option.isSome_iff_exists.1 hfailed
  obtain ⟨reply, hreply⟩ := Conf.returned_iff.1 hreturned
  have hreach : (begun twoConnects (listed (S := schema) longConnected) 1 0).Reaches c := hr.mono fun _ _ _ _ _ _ => trivial
  obtain ⟨hconnects, -, hverifies⟩ := connect_atomic twoConnects 0 longConnected_shelved
  obtain ⟨provider, cleaned, ciphertext, at_, m, d, d', hprovider, -, -, hciphertext, -, -, -, hreplaces⟩ :=
    (hconnects c 0 _ _ _ hreach rfl).2 reply hreply
  cases hprovider
  cases hciphertext
  obtain ⟨i, r, -, hactive, hsealed⟩ := hreplaces.fresh
  rw [← Engine.version_length] at hrow
  obtain ⟨n, j, r', -, -, hnewest, hlater, hopened⟩ := hverifies c c' 2 _ "fake" hr hr' rfl rfl _ 1 row (Nat.le_refl _) hrow hmine
    (.ok (.credentials ⟨"fake", [(merchantId, ['m'])]⟩)) (Conf.reply_eq_some.1 hverified)
  refine ⟨c, c', hr, hr', (hconnects c 1 _ _ _ hreach rfl).1 e (Conf.failure_eq_some.1 he),
    ⟨m, i, r, hactive, congrArg TenantGatewayCredential.ciphertext hsealed⟩, hold, n, j, r', hnewest, hcreated ▸ hlater, ?_⟩
  cases hd : (fakeService (.ok ())).decrypt r'.ciphertext "fake" with
  | error e =>
    rw [hd] at hopened
    cases hopened
  | ok credentials =>
    rw [hd] at hopened
    cases hopened
    rfl

-- a connect that began first and had the lock last is the active one, and not the newest
example : ((begun (fun _ => twoConnects 0) (fun _ _ => none) 0 0).play (fun _ _ _ _ _ => True)
    (turns 0 2 ++ [.happen 1] ++ turns 1 10 ++ turns 0 9)).any (fun c =>
      let rows : Snapshot schema := ⟨c.state.db.committed, c.state.db.next⟩
      (activeRows "fake" rows).map TenantGatewayCredential.createdAt = [0] ∧
        (newest (fakeService (.ok ())).scan (providerRows "fake" rows)).map TenantGatewayCredential.createdAt = some 1) = true := by
  decide

end Gateway
