import Boutique.Invites
import Boutique.TxnFresh
/-!
# Founded — what the platform commits

A boutique, its owner and its row of the book are one commit, and so is the claim of the invite it came from.  A claim
finds its invite open and leaves it spent for good; a refusal leaves one row of the book and nothing else.
-/
namespace Platform

open Txn Session Contract

variable {cfg : Config} {reqs : Tid → Request} {t : Tid} {w : World schema outside} {rows : Rows schema} {next : Nat}
  {clock : Int} {c : Conf (machine schema outside Err) Reply} {d : Commit schema} {x : Nat} {G : Tid → Int → Prop}

/-! ## What a commit does -/

def Grows (T : Table) : Prop := T ≠ .platformInvites

instance : DecidablePred Grows := fun T => inferInstanceAs (Decidable (T ≠ .platformInvites))

/-- **A boutique comes into existence**: one tenant, one owner. -/
structure Birth (d : Commit schema) (x : Nat) : Prop where
  tenant : ∃ k, ∃ a : Tenant, d.writes .tenants k = some a ∧ a.tenantId = x ∧ ∀ j, j ≠ k → d.writes .tenants j = none
  owner : ∃ k, ∃ b : StaffUser, d.writes .staffUsers k = some b ∧ b.tenantId = x ∧ b.role = .owner ∧
    ∀ j, j ≠ k → d.writes .staffUsers j = none

def PlatformAuditLog.provisioned (x : Nat) (r : PlatformAuditLog) : Prop :=
  r.targetTenantId = some x ∧ ∃ slug, r.action = .tenantProvisioned slug

def PlatformAuditLog.redeemed (x : Nat) (r : PlatformAuditLog) : Prop :=
  r.targetTenantId = some x ∧ ∃ slug ownerEmail, r.action = .inviteRedeemed slug ownerEmail

/-- **The claim of invite `i` for boutique `x`**: it was neither redeemed nor revoked, and not expired at an instant the
request read off the clock once its transaction had begun. -/
structure Claims (G : Tid → Int → Prop) (d : Commit schema) (i x : Nat) : Prop where
  row : ∃ r : PlatformInvite, ∃ now, G d.by_ now ∧ (∀ k (a : Tenant), d.writes .tenants k = some a → a.createdAt ≤ now) ∧
    d.before .platformInvites i = some r ∧ r.redeemedAt = none ∧ r.deletedAt = none ∧ now < r.expiresAt ∧
    d.writes .platformInvites i = some { r with redeemedAt := some now, redeemedTenantId := some x }
  only : ∀ j, j ≠ i → d.writes .platformInvites j = none

inductive Deed (G : Tid → Int → Prop) (d : Commit schema) : Prop
  | aside (tenants : ∀ k, d.writes .tenants k = none) (staff : ∀ k, d.writes .staffUsers k = none)
      (book : ∀ k (r : PlatformAuditLog), d.writes .platformAuditLog k = some r → r.targetTenantId = none)
      (invites : ∀ i (r' : PlatformInvite), d.writes .platformInvites i = some r' →
        (∃ r : PlatformInvite, d.before .platformInvites i = some r ∧ r'.redeemedAt = r.redeemedAt ∧
          r'.redeemedTenantId = r.redeemedTenantId) ∨
        (d.before .platformInvites i = none ∧ r'.redeemedAt = none ∧ r'.redeemedTenantId = none))
  | provisioned (x : Nat) (birth : Birth d x) (invites : ∀ i, d.writes .platformInvites i = none)
      (book : ∃ k, ∃ r : PlatformAuditLog, d.writes .platformAuditLog k = some r ∧ r.provisioned x ∧
        ∀ j, j ≠ k → d.writes .platformAuditLog j = none)
  | redeemed (x : Nat) (birth : Birth d x) (claims : ∃ i, Claims G d i x)
      (book : ∃ k k', ∃ r r' : PlatformAuditLog, k ≠ k' ∧ d.writes .platformAuditLog k = some r ∧ r.provisioned x ∧
        d.writes .platformAuditLog k' = some r' ∧ r'.redeemed x ∧
        ∀ j, j ≠ k → j ≠ k' → d.writes .platformAuditLog j = none)

def Fresh (d : Commit schema) : Prop := ∀ T k, Grows T → (d.writes T k).isSome = true → d.before T k = none

def Redeems (G : Tid → Int → Prop) (reqs : Tid → Request) (d : Commit schema) : Prop :=
  ∀ code ownerPassword, reqs d.by_ = .redeemInvite code ownerPassword →
    (∀ k, d.writes .tenants k = none) ∨ ∃ i x, Claims G d i x ∧ Birth d x

abbrev deeds (G : Tid → Int → Prop) (reqs : Tid → Request) : Ledger schema where
  Holds _ _ d := Deed G d ∧ Fresh d ∧ Redeems G reqs d
  stable _ _ _ _ _ _ _ h := h

def spent : Discipline schema where
  Trans _ T r r' := match T, r, r' with
    | .platformInvites, (r : PlatformInvite), (r' : PlatformInvite) =>
      r.redeemedAt ≠ none → r'.redeemedAt = r.redeemedAt ∧ r'.redeemedTenantId = r.redeemedTenantId
    | _, r, r' => r' = r
  New _ _ _ := True
  refl _ T r := by
    cases T with
    | platformInvites => exact fun _ => ⟨rfl, rfl⟩
    | _ => rfl
  trans _ T r r' r'' h h' := by
    cases T with
    | platformInvites =>
      intro hr
      have hr' : PlatformInvite.redeemedAt r' ≠ none := by
        rw [(h hr).1]
        exact hr
      exact ⟨(h' hr').1.trans (h hr).1, (h' hr').2.trans (h hr).2⟩
    | tenants | staffUsers | platformAuditLog => exact Eq.trans h' h
  weaken _ _ _ h := h
  new_trans _ _ _ _ _ _ := trivial
  new_weaken _ _ _ := trivial

abbrev books (G : Tid → Int → Prop) (reqs : Tid → Request) : Contract spent.shared outside Err :=
  (deeds G reqs).contract spent.shared (Readings G)

theorem books_historic : (books G reqs).Historic fun _ => true := (deeds G reqs).historic _

/-! ## Inside a transaction -/

/-- **A transaction of a request that has committed nothing**: what it has in flight, and the invite it has written over. -/
structure Draft (t : Tid) (K : Table → Prop) (F : Option (Nat × PlatformInvite)) (P : Rows schema) (e : Engine schema) :
    Prop where
  drafts : e.Drafts t K P
  own : e.own t = []
  found : ∀ i v, F = some (i, v) → (P .platformInvites i).isSome = true ∧ e.committed .platformInvites i = some v

abbrev Unspoken (t : Tid) (e : Engine schema) : Prop := Draft t (fun _ => True) none (fun _ _ => none) e

variable {T : Table} {i j tenantId : Nat} {operator slug name ownerEmail codeHash reason : String}
  {action : PlatformAuditAction}

section Draft

variable {K : Table → Prop} {F : Option (Nat × PlatformInvite)} {P : Rows schema} {e e' : Engine schema}

theorem Draft.evolves (h : Draft t K F P e) (hev : e.Evolves spent.shared t e') : Draft t K F P e' := by
  refine ⟨h.drafts.evolves hev, by rw [hev.since.own, h.own], fun i v hF => ?_⟩
  obtain ⟨hsome, hv⟩ := h.found i v hF
  obtain ⟨r, hr⟩ := Option.isSome_iff_exists.1 hsome
  refine ⟨hsome, ?_⟩
  rw [hev.owned .platformInvites i r (by rw [h.drafts.pending]; exact hr), hv]

theorem Draft.congr (h : Draft t K F P e) (hp : e'.pending t = e.pending t) (hc : e'.committed = e.committed)
    (hl : e'.log = e.log) : Draft t K F P e' := by
  refine ⟨h.drafts.congr hp hc, ?_, ?_⟩
  · rw [Engine.own, hl]
    exact h.own
  · rw [hc]
    exact h.found

theorem Draft.weaken (h : Draft t (fun _ => True) F P e) : Draft t K F P e :=
  ⟨⟨h.drafts.pending, fun T k _ hk => h.drafts.fresh T k trivial hk⟩, h.own, h.found⟩

theorem Draft.fresh (h : Draft t K F P e) (hK : ∀ T, Grows T → K T) : Fresh (e.entry t) := by
  intro T k hT hk
  exact h.drafts.fresh T k (hK T hT) (h.drafts.pending ▸ hk)

theorem Draft.release (h : Draft t K F P e) : Unspoken t (e.release t) :=
  ⟨Engine.drafts_idle (Engine.idle_release e t), h.own, fun _ _ hF => by cases hF⟩

theorem set_isSome {T' : Table} {r : Row T'} (h : (P T i).isSome = true) :
    ((P.set T' j r : Rows schema) T i).isSome = true := by
  by_cases hsame : T = T' ∧ i = j
  · obtain ⟨rfl, rfl⟩ := hsame
    rw [Rows.set_same]
    rfl
  · rwa [Rows.set_other hsame]

theorem Draft.inserted {r : Row T} (h : Draft t K F P e) (hL : e.Lawful spent.shared) :
    Draft t K F (P.set T e.next (stamp T e.next (e.started t) r)) (Session.inserted e t T r) ∧ P T e.next = none := by
  obtain ⟨hdrafts, hnone⟩ := h.drafts.inserted (r := r) hL
  exact ⟨⟨hdrafts, h.own, fun i v hF => ⟨set_isSome (h.found i v hF).1, (h.found i v hF).2⟩⟩, hnone⟩

theorem Draft.overwritten {v r : PlatformInvite} (h : Draft t Grows none P e)
    (hv : e.committed .platformInvites i = some v) :
    Draft t Grows (some (i, v)) (P.set Table.platformInvites i r) (e.write t Table.platformInvites i r) := by
  refine ⟨h.drafts.write fun hT => hT rfl, h.own, fun j u hF => ?_⟩
  cases hF
  refine ⟨?_, hv⟩
  rw [Rows.set_same]
  rfl

end Draft

section Rules

variable {α β : Type} {Q : Except Err β → World schema outside → Prop} {K : Table → Prop}
  {F : Option (Nat × PlatformInvite)} {P : Rows schema}

theorem draft_insert {r : Row T} {k : Row T → Prg β} (h : Draft t K F P w.db)
    (herr : ∀ w', Draft t K F P w'.db → Q (.error .integrity) w')
    (hok : ∀ w' i, Draft t K F (P.set T i (stamp T i (w.db.started t) r)) w'.db →
      (books G reqs).Ensures t (k (stamp T i (w.db.started t) r)) Q w') :
    (books G reqs).Ensures t (insert T r >>= k) Q w := by
  refine ensures_insert books_historic (fun w1 n hev _ _ => herr _ ((h.evolves hev.db).congr rfl rfl rfl))
    fun w1 hev hL _ _ => ?_
  rw [hev.db.started]
  refine hok ⟨inserted w1.db t T r, w1.out⟩ w1.db.next ?_
  rw [← hev.db.started]
  exact ((h.evolves hev.db).inserted hL).1

theorem draft_record {target : Option Nat} {k : Unit → Prg β} (h : Draft t K F P w.db)
    (hok : ∀ w' i (r : PlatformAuditLog), P .platformAuditLog i = none → r.action = action → r.targetTenantId = target →
      Draft t K F (P.set .platformAuditLog i r) w'.db → (books G reqs).Ensures t (k ()) Q w') :
    (books G reqs).Ensures t (record operator action target >>= k) Q w := by
  refine ensures_first (ensures_unrefused (C := books G reqs) books_historic (fun _ => rfl) (fun _ _ => rfl) fun w1 hev hL _ _ => ?_)
  obtain ⟨hdraft, hnone⟩ := (h.evolves hev.db).inserted (T := Table.platformAuditLog)
    (r := (⟨0, 0, operator, action, target⟩ : PlatformAuditLog)) hL
  exact hok ⟨inserted w1.db t .platformAuditLog _, w1.out⟩ w1.db.next _ hnone rfl rfl hdraft

theorem draft_createTenant {k : Unit → Prg β} (h : Draft t K F P w.db)
    (herr : ∀ w' P', Draft t K F P' w'.db → Q (.error .integrity) w')
    (hok : ∀ w' i j l (a : Tenant) (b : StaffUser) (r : PlatformAuditLog), a.tenantId = tenantId →
      a.createdAt = w.db.started t → b.tenantId = tenantId → b.role = .owner → r.provisioned tenantId →
      Draft t K F (((P.set .tenants i a).set .staffUsers j b).set .platformAuditLog l r) w'.db →
      (books G reqs).Ensures t (k ()) Q w') :
    (books G reqs).Ensures t (createTenant cfg tenantId slug name ownerEmail operator >>= k) Q w := by
  refine ensures_first (draft_insert h (fun w' h' => herr w' P h') fun w1 i h1 => ?_)
  refine ensures_first (draft_insert h1 (fun w' h' => herr w' _ h') fun w2 j h2 => ?_)
  refine draft_record h2 fun w3 l r _ hr htarget h3 => ?_
  exact hok w3 i j l _ _ r rfl rfl rfl rfl ⟨htarget, slug, hr⟩ h3

theorem draft_update {g : PlatformInviteChange} {k : Option PlatformInvite → Prg β} (h : Unspoken t w.db)
    (herr : ∀ w', Unspoken t w'.db → Q (.error .integrity) w')
    (hnone : ∀ w', Unspoken t w'.db → (books G reqs).Ensures t (k none) Q w')
    (hsome : ∀ w' v r, PlatformInviteChange.apply v g = some r → w'.db.started t = w.db.started t →
      Draft t Grows (some (i, v)) (Rows.set (fun _ _ => none) Table.platformInvites i r) w'.db →
      (books G reqs).Ensures t (k (some r)) Q w') :
    (books G reqs).Ensures t (update .platformInvites i g >>= k) Q w := by
  refine ensures_update books_historic (fun w1 hev _ _ => herr w1 (h.evolves hev.db))
    (fun w1 hev _ _ _ => hnone w1 (h.evolves hev.db)) fun w1 v r hev _ hv hr _ _ _ => ?_
  have h1 := h.evolves hev.db
  have hview : w1.db.committed .platformInvites i = some v := by
    rw [← hv, Engine.view_idle h1.drafts.pending]
  exact hsome ⟨w1.db.write t .platformInvites i r, w1.out⟩ v r hr hev.db.started (h1.weaken.overwritten hview)

theorem draft_session {body : Int → Prg α} {k : α → Prg β} (h : Unspoken t w.db)
    (hbody : ∀ w' n, w'.db.started t = w'.db.clock → Unspoken t w'.db →
      (books G reqs).Ensures t (body n) (Closes (books G reqs) t k Q) w') :
    (books G reqs).Ensures t (tenantSession body >>= k) Q w :=
  ensures_tenantSessionAt books_historic fun w1 hev _ _ =>
    hbody _ w1.db.clock (Function.update_self ..) ((h.evolves hev.db).congr rfl rfl rfl)

theorem draft_now {k : Int → Prg β} (h : Unspoken t w.db)
    (hk : ∀ w', w.db.Evolves spent.shared t w'.db → G t w'.db.clock → Unspoken t w'.db →
      (books G reqs).Ensures t (k w'.db.clock) Q w') :
    (books G reqs).Ensures t (now >>= k) Q w :=
  ensures_reading books_historic fun w1 hev _ _ hread => hk w1 hev.db hread (h.evolves hev.db)

theorem closes_draft {a : α} {k : α → Prg β} (h : Draft t K F P w.db) (hK : ∀ T, Grows T → K T)
    (hdeed : ∀ d : Commit schema, d.writes = P → d.by_ = t → (∀ i v, F = some (i, v) → d.before .platformInvites i = some v) →
      (∀ T j, K T → (P T j).isSome = true → d.before T j = none) → Deed G d ∧ Redeems G reqs d)
    (hk : ∀ (w' : World schema outside) (d : Commit schema), d.writes = P → d.by_ = t →
      (∀ i v, F = some (i, v) → d.before .platformInvites i = some v) → w'.db.own t = [d] → (books G reqs).Ensures t (k a) Q w') :
    Closes (books G reqs) t k Q (.ok a) w := by
  intro w1 hev _ hI _ _
  have h1 := h.evolves hev.db
  obtain ⟨hd, hredeems⟩ := hdeed (w1.db.entry t) h1.drafts.pending rfl (fun i v hF => (h1.found i v hF).2) h1.drafts.fresh
  refine ⟨Ledger.inv_commit hI ⟨hd, h1.fresh hK, hredeems⟩, ?_⟩
  refine hk ⟨w1.db.commit t, w1.out⟩ (w1.db.entry t) h1.drafts.pending rfl (fun i v hF => (h1.found i v hF).2) ?_
  change (w1.db.commit t).own t = _
  rw [Engine.commit_own, h1.own, List.nil_append]

theorem closes_error {e : Err} {k : α → Prg β} (h : Draft t K F P w.db) (hk : ∀ w', Unspoken t w'.db → Q (.error e) w') :
    Closes (books G reqs) t k Q (.error e) w :=
  fun _ hev _ => hk _ (h.evolves hev.db).release

end Rules

/-! ## The requests -/

def PlatformAuditLog.refusal (r : PlatformAuditLog) : Prop :=
  ∃ reason codeHashPrefix slug, r.action = .inviteRedeemFailed reason codeHashPrefix slug

/-- **What a request leaves behind**: a refused redemption one commit, with the row of its refusal and nothing else; a
redemption that succeeds one commit, with the claim for its boutique. -/
def Answered (G : Tid → Int → Prop) (reqs : Tid → Request) (t : Tid) : Except Err Reply → World schema outside → Prop
  | .ok (.redeem false _ _ _), w => ∃ d, w.db.own t = [d] ∧ ∃ j, ∃ r : PlatformAuditLog,
      d.writes = Rows.set (fun _ _ => none) Table.platformAuditLog j r ∧ r.refusal
  | .ok (.redeem true _ _ x), w => ∃ d, w.db.own t = [d] ∧ ∃ i y, x = some y ∧ Claims G d i y ∧ Birth d y
  | .ok _, _ => True
  | .error _, _ => ∀ code ownerPassword, reqs t ≠ .redeemInvite code ownerPassword

theorem deed_of_note {r : PlatformAuditLog} (hw : d.writes = Rows.set (fun _ _ => none) Table.platformAuditLog j r)
    (htarget : r.targetTenantId = none) : Deed G d := by
  refine .aside (fun k => ?_) (fun k => ?_) (fun k r' hr' => ?_) fun i r' hr' => ?_
  · rw [hw, Rows.set_table (by decide)]
  · rw [hw, Rows.set_table (by decide)]
  · rw [hw] at hr'
    by_cases hk : k = j
    · subst hk
      rw [Rows.set_same] at hr'
      cases hr'
      exact htarget
    · rw [Rows.set_row hk] at hr'
      cases hr'
  · rw [hw, Rows.set_table (by decide)] at hr'
    cases hr'

theorem birth_of_rows {P : Rows schema} {a : Tenant} {b : StaffUser}
    (ht : d.writes .tenants = (P.set Table.tenants i a) .tenants)
    (hs : d.writes .staffUsers = (P.set Table.staffUsers j b) .staffUsers) (hPt : ∀ k, P .tenants k = none)
    (hPs : ∀ k, P .staffUsers k = none) (ha : a.tenantId = x) (hb : b.tenantId = x) (hrole : b.role = .owner) :
    Birth d x := by
  refine ⟨⟨i, a, ?_, ha, fun k hk => ?_⟩, ⟨j, b, ?_, hb, hrole, fun k hk => ?_⟩⟩
  · rw [ht, Rows.set_same]
  · rw [ht, Rows.set_row hk, hPt]
  · rw [hs, Rows.set_same]
  · rw [hs, Rows.set_row hk, hPs]

section Requests

variable {β : Type} {Q : Except Err β → World schema outside → Prop}

theorem draft_refusal {k : Unit → Prg β} (h : Unspoken t w.db)
    (hk : ∀ (w' : World schema outside) d, w'.db.own t = [d] → (∃ j, ∃ r : PlatformAuditLog,
      d.writes = Rows.set (fun _ _ => none) Table.platformAuditLog j r ∧ r.action = action) → (books G reqs).Ensures t (k ()) Q w') :
    (books G reqs).Ensures t ((tenantSession fun _ => record operator action none) >>= k) Q w := by
  refine draft_session h fun w1 n _ h1 => ensures_last (draft_record h1 fun w2 i r _ hr htarget h2 => ?_)
  exact closes_draft h2 (fun _ _ => trivial) (fun d hd _ _ _ => ⟨deed_of_note hd htarget, fun _ _ _ => .inl fun k => by
    rw [hd, Rows.set_table (by decide)]⟩) fun w3 d hd _ _ hown => hk w3 d hown ⟨i, r, hd, hr⟩

variable {k : Except Err Unit → Prg β}

theorem draft_provisioned (hreq : ∀ code pw, reqs t ≠ .redeemInvite code pw) (h : Unspoken t w.db)
    (hok : ∀ w', (books G reqs).Ensures t (k (.ok ())) Q w')
    (herr : ∀ e w', Unspoken t w'.db → (books G reqs).Ensures t (k (.error e)) Q w') :
    (books G reqs).Ensures t
      (((tenantSession fun _ => createTenant cfg tenantId slug name ownerEmail operator).attempt : Prg (Except Err Unit)) >>= k) Q w := by
  refine ensures_attempt (ensures_last (draft_session h fun w1 n _ h1 => ensures_last (draft_createTenant h1
    (fun w2 P h2 => closes_error h2 fun w3 h3 => herr _ w3 h3) fun w2 i j l a b r ha _ hb hrole hr h2 => ?_)))
  refine closes_draft h2 (fun _ _ => trivial) (fun d hd hby _ _ => ⟨?_, fun code pw hc => absurd (hby ▸ hc) (hreq code pw)⟩)
    fun w3 _ _ _ _ _ => hok w3
  refine .provisioned tenantId (birth_of_rows (P := fun _ _ => none) (i := i) (j := j) ?_ ?_ (fun _ => rfl) (fun _ => rfl) ha hb
    hrole) (fun m => ?_) ⟨l, r, ?_, hr, fun m hm => ?_⟩
  · rw [hd, Rows.set_table (by decide), Rows.set_table (by decide)]
  · funext m
    rw [hd, Rows.set_table (by decide)]
    by_cases hm : m = j
    · subst hm
      rw [Rows.set_same, Rows.set_same]
    · rw [Rows.set_row hm, Rows.set_row hm, Rows.set_table (by decide)]
  · rw [hd, Rows.set_table (by decide), Rows.set_table (by decide), Rows.set_table (by decide)]
  · rw [hd, Rows.set_same]
  · rw [hd, Rows.set_row hm, Rows.set_table (by decide), Rows.set_table (by decide)]

theorem draft_claim {now : Int} {k : Option Nat → Prg β} (h : Unspoken t w.db)
    (herr : ∀ w', Unspoken t w'.db → Q (.error .integrity) w')
    (hnone : ∀ w', Unspoken t w'.db → (books G reqs).Ensures t (k none) Q w')
    (hsome : ∀ w' i j (v : PlatformInvite), v.claimable codeHash now = true → w'.db.started t = w.db.started t →
      Draft t Grows (some (i, v)) (Rows.set (fun _ _ => none) Table.platformInvites i
        { v with redeemedAt := some now, redeemedTenantId := some tenantId }) w'.db →
      (books G reqs).Ensures t (k (some j)) Q w') :
    (books G reqs).Ensures t (claim codeHash tenantId now >>= k) Q w := by
  refine ensures_first (ensures_select books_historic fun w1 hev _ _ _ _ => ?_)
  have h1 : Unspoken t (w1.db.look t) := (h.evolves hev.db).congr rfl rfl rfl
  split
  · exact hnone _ h1
  · refine ensures_first (draft_update h1 herr hnone fun w2 v r hr hstarted h2 => ?_)
    obtain ⟨hclaim, hrow⟩ := Option.ite_none_right_eq_some.1 hr
    cases hrow
    exact hsome w2 _ _ v hclaim (hstarted.trans hev.db.started) h2

theorem draft_redeemed {row : PlatformInvite} (h : Unspoken t w.db)
    (hok : ∀ (w' : World schema outside) d i, w'.db.own t = [d] → Claims G d i tenantId → Birth d tenantId →
      (books G reqs).Ensures t (k (.ok ())) Q w')
    (herr : ∀ e w', Unspoken t w'.db → (books G reqs).Ensures t (k (.error e)) Q w') :
    (books G reqs).Ensures t (((claimAndFound cfg row codeHash tenantId).attempt : Prg (Except Err Unit)) >>= k) Q w := by
  refine ensures_attempt (ensures_last (draft_session h fun w1 n hbegun h1 => draft_now h1 fun w2 hev2 hread h2 =>
    draft_claim h2 (fun w3 h3 => closes_error h3 fun w4 h4 => herr _ w4 h4) (fun w3 h3 => ?_)
    fun w3 i _ v hclaim hstarted h3 => ?_))
  · exact ensures_raiseIf (fun _ => closes_error h3 fun w4 h4 => herr _ w4 h4) nofun
  refine ensures_raiseIf nofun fun _ => draft_createTenant h3 (fun w4 P h4 => closes_error h4 fun w5 h5 => herr _ w5 h5)
    fun w4 k l m a b r ha hcreated hb hrole hr h4 => ?_
  refine ensures_last (draft_record h4 fun w5 m' r' hnone hr' htarget h5 => ?_)
  have hmoment : a.createdAt ≤ w2.db.clock := by
    rw [hcreated, hstarted, hev2.started, hbegun]
    exact hev2.clock_le
  have hne : m ≠ m' := by
    rintro rfl
    rw [Rows.set_same] at hnone
    cases hnone
  have hfacts : ∀ d : Commit schema, d.writes = (((((Rows.set (fun _ _ => none) Table.platformInvites i
      { v with redeemedAt := some w2.db.clock, redeemedTenantId := some tenantId } : Rows schema).set Table.tenants k a).set
        Table.staffUsers l b).set Table.platformAuditLog m r).set Table.platformAuditLog m' r') →
      d.by_ = t → d.before .platformInvites i = some v → Claims G d i tenantId ∧ Birth d tenantId := by
    intro d hd hby hbefore
    obtain ⟨-, hredeemed, hlive, hopen⟩ := of_decide_eq_true hclaim
    have htenants : d.writes .tenants = (Rows.set (fun _ _ => none) Table.tenants k a : Rows schema) .tenants := by
      funext j
      rw [hd, Rows.set_table (by decide), Rows.set_table (by decide), Rows.set_table (by decide)]
      by_cases hj : j = k
      · subst hj
        rw [Rows.set_same, Rows.set_same]
      · rw [Rows.set_row hj, Rows.set_row hj, Rows.set_table (by decide)]
    refine ⟨⟨⟨v, w2.db.clock, hby ▸ hread, fun j a' ha' => ?_, hbefore, hredeemed, hlive, hopen, ?_⟩, fun j hj => ?_⟩,
      birth_of_rows (P := fun _ _ => none) (i := k) (j := l) htenants ?_ (fun _ => rfl) (fun _ => rfl) ha hb hrole⟩
    · rw [htenants] at ha'
      by_cases hj : j = k
      · subst hj
        rw [Rows.set_same] at ha'
        cases ha'
        exact hmoment
      · rw [Rows.set_row hj] at ha'
        cases ha'
    · rw [hd, Rows.set_table (by decide), Rows.set_table (by decide), Rows.set_table (by decide), Rows.set_table (by decide),
        Rows.set_same]
    · rw [hd, Rows.set_table (by decide), Rows.set_table (by decide), Rows.set_table (by decide), Rows.set_table (by decide),
        Rows.set_row hj]
    · funext j
      rw [hd, Rows.set_table (by decide), Rows.set_table (by decide)]
      by_cases hj : j = l
      · subst hj
        rw [Rows.set_same, Rows.set_same]
      · rw [Rows.set_row hj, Rows.set_row hj, Rows.set_table (by decide), Rows.set_table (by decide)]
  refine closes_draft h5 (fun _ hT => hT) (fun d hd hby hfound _ => ?_) fun w6 d hd hby hfound hown => ?_
  · obtain ⟨hclaims, hbirth⟩ := hfacts d hd hby (hfound i v rfl)
    refine ⟨?_, fun _ _ _ => .inr ⟨i, tenantId, hclaims, hbirth⟩⟩
    refine .redeemed tenantId hbirth ⟨i, hclaims⟩ ⟨m, m', r, r', hne, ?_, hr, ?_, ⟨htarget, _, _, hr'⟩, fun j hj hj' => ?_⟩
    · rw [hd, Rows.set_row hne, Rows.set_same]
    · rw [hd, Rows.set_same]
    · rw [hd, Rows.set_row hj', Rows.set_row hj, Rows.set_table (by decide), Rows.set_table (by decide),
        Rows.set_table (by decide)]
  · obtain ⟨hclaims, hbirth⟩ := hfacts d hd hby (hfound i v rfl)
    exact hok w6 d i hown hclaims hbirth

end Requests

/-! ## Each service -/

theorem answered_command {ok : Bool} {message : String} {y : Option Nat} : Answered G reqs t (.ok (.command ok message y)) w :=
  trivial

theorem answered_invite {ok : Bool} {message : String} {code : Option String} {y : Option Nat} :
    Answered G reqs t (.ok (.invite ok message code y)) w := trivial

theorem failProvision_answered (h : Unspoken t w.db) :
    (books G reqs).Ensures t (failProvision operator slug reason) (Answered G reqs t) w :=
  draft_refusal h fun _ _ _ _ => answered_command

theorem failInvite_answered (h : Unspoken t w.db) :
    (books G reqs).Ensures t (failInvite operator slug reason) (Answered G reqs t) w :=
  draft_refusal h fun _ _ _ _ => answered_invite

theorem failRedeem_answered {row : Option PlatformInvite} (h : Unspoken t w.db) :
    (books G reqs).Ensures t (failRedeem codeHash row reason) (Answered G reqs t) w :=
  draft_refusal h fun _ d hown hrow => by
    obtain ⟨j, r, hd, hr⟩ := hrow
    exact ⟨d, hown, j, r, hd, _, _, _, hr⟩

theorem provision_answered {ownerPassword : String} (hreq : ∀ code pw, reqs t ≠ .redeemInvite code pw)
    (h : Unspoken t w.db) :
    (books G reqs).Ensures t (provision cfg slug name ownerEmail ownerPassword operator) (Answered G reqs t) w := by
  unfold provision
  split
  · exact failProvision_answered h
  split
  · exact failProvision_answered h
  refine ensures_select books_historic fun w1 hev1 _ _ _ _ => ?_
  have h1 : Unspoken t (w1.db.look t) := (h.evolves hev1.db).congr rfl rfl rfl
  split
  · exact failProvision_answered h1
  refine Session.ensures_ask books_historic rfl fun w2 i n hev2 _ _ _ => ?_
  refine draft_provisioned hreq (h1.evolves hev2.db) (fun w3 => answered_command) fun e w3 h3 => failProvision_answered h3

theorem createInvite_answered (hreq : ∀ code pw, reqs t ≠ .redeemInvite code pw) (h : Unspoken t w.db) :
    (books G reqs).Ensures t (createInvite cfg slug name ownerEmail operator) (Answered G reqs t) w := by
  unfold createInvite
  split
  · exact failInvite_answered h
  refine ensures_select books_historic fun w1 hev1 _ _ _ _ => ?_
  have h1 : Unspoken t (w1.db.look t) := (h.evolves hev1.db).congr rfl rfl rfl
  split
  · exact failInvite_answered h1
  refine Session.ensures_ask books_historic rfl fun w2 i n hev2 _ _ _ => Session.ensures_now books_historic fun w3 hev3 _ _ => ?_
  refine draft_session ((h1.evolves hev2.db).evolves hev3.db) fun w4 m _ h4 =>
    draft_insert h4 (fun w5 h5 => closes_error h5 fun w6 _ => hreq) fun w5 j h5 => ?_
  refine draft_record h5 fun w6 k r _ hr htarget h6 => closes_draft h6 (fun _ _ => trivial)
    (fun d hd hby _ hfresh => ⟨?_, fun code pw hc => absurd (hby ▸ hc) (hreq code pw)⟩) fun w7 d _ _ _ _ => answered_invite
  refine .aside (fun k' => ?_) (fun k' => ?_) (fun k' r' hr' => ?_) fun k' r' hr' => .inr ?_
  · rw [hd, Rows.set_table (by decide), Rows.set_table (by decide)]
  · rw [hd, Rows.set_table (by decide), Rows.set_table (by decide)]
  · rw [hd] at hr'
    by_cases hk : k' = k
    · subst hk
      rw [Rows.set_same] at hr'
      cases hr'
      exact htarget
    · rw [Rows.set_row hk, Rows.set_table (by decide)] at hr'
      cases hr'
  · rw [hd, Rows.set_table (by decide)] at hr'
    by_cases hk : k' = j
    · subst hk
      rw [Rows.set_same] at hr'
      cases hr'
      refine ⟨hfresh .platformInvites k' trivial ?_, rfl, rfl⟩
      rw [Rows.set_table (by decide), Rows.set_same]
      rfl
    · rw [Rows.set_row hk] at hr'
      cases hr'

theorem revokeInvite_answered {inviteId : Nat} (hreq : ∀ code pw, reqs t ≠ .redeemInvite code pw)
    (h : Unspoken t w.db) :
    (books G reqs).Ensures t (revokeInvite inviteId operator) (Answered G reqs t) w := by
  refine draft_session h fun w1 n _ h1 => draft_update h1 (fun w2 h2 => closes_error h2 fun w3 _ => hreq) (fun w2 h2 => ?_)
    fun w2 v r hr _ h2 => ?_
  · refine closes_draft h2 (fun _ _ => trivial)
      (fun d hd hby _ _ => ⟨?_, fun code pw hc => absurd (hby ▸ hc) (hreq code pw)⟩) fun w3 d _ _ _ _ => ?_
    · refine .aside (fun k => ?_) (fun k => ?_) (fun k r' hr' => ?_) fun k r' hr' => ?_
      · rw [hd]
      · rw [hd]
      · rw [hd] at hr'
        cases hr'
      · rw [hd] at hr'
        cases hr'
    · exact answered_command
  · obtain ⟨-, hrow⟩ := Option.ite_none_right_eq_some.1 hr
    cases hrow
    refine draft_record h2 fun w3 k r' _ hr' htarget h3 => closes_draft h3 (fun _ hT => hT)
      (fun d hd hby hfound _ => ⟨?_, fun code pw hc => absurd (hby ▸ hc) (hreq code pw)⟩) fun w4 d _ _ _ _ => answered_command
    refine .aside (fun j => ?_) (fun j => ?_) (fun j r'' hr'' => ?_) fun j r'' hr'' => .inl ?_
    · rw [hd, Rows.set_table (by decide), Rows.set_table (by decide)]
    · rw [hd, Rows.set_table (by decide), Rows.set_table (by decide)]
    · rw [hd] at hr''
      by_cases hj : j = k
      · subst hj
        rw [Rows.set_same] at hr''
        cases hr''
        exact htarget
      · rw [Rows.set_row hj, Rows.set_table (by decide)] at hr''
        cases hr''
    · rw [hd, Rows.set_table (by decide)] at hr''
      by_cases hj : j = inviteId
      · subst hj
        rw [Rows.set_same] at hr''
        cases hr''
        exact ⟨v, hfound j v rfl, rfl, rfl⟩
      · rw [Rows.set_row hj] at hr''
        cases hr''

theorem redeemInvite_answered {code ownerPassword : String} (h : Unspoken t w.db) :
    (books G reqs).Ensures t (redeemInvite cfg code ownerPassword) (Answered G reqs t) w := by
  refine ensures_select books_historic fun w1 hev1 _ _ _ _ => Session.ensures_now books_historic fun w2 hev2 _ _ => ?_
  have h1 : Unspoken t (w1.db.look t) := (h.evolves hev1.db).congr rfl rfl rfl
  have h2 := h1.evolves hev2.db
  split
  · exact failRedeem_answered h2
  split
  · exact failRedeem_answered h2
  refine Session.ensures_ask books_historic rfl fun w3 i n hev3 _ _ _ => ?_
  refine draft_redeemed (h2.evolves hev3.db) (fun w4 d j hown hclaims hbirth => ⟨d, hown, j, _, rfl, hclaims, hbirth⟩)
    fun e w4 h4 => ?_
  cases e with
  | integrity => exact failRedeem_answered h4
  | inviteAlreadyClaimed => exact failRedeem_answered h4

theorem request_answered (h : Unspoken t w.db) : (books G reqs).Ensures t ((reqs t).code cfg) (Answered G reqs t) w := by
  cases hreq : reqs t with
  | provision => exact provision_answered (fun _ _ hc => by rw [hreq] at hc; cases hc) h
  | createInvite => exact createInvite_answered (fun _ _ hc => by rw [hreq] at hc; cases hc) h
  | revokeInvite => exact revokeInvite_answered (fun _ _ hc => by rw [hreq] at hc; cases hc) h
  | redeemInvite => exact redeemInvite_answered h

/-! ## Whole runs -/

end Platform
