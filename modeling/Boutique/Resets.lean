import Boutique.LastOwner
import Boutique.Passwords
import Boutique.TxnPage
/-!
# Resets — what a reset ends

While no login and no change of password straddles a reset, a commit that opens a session verified the hash that stands, and a
commit that writes another hash leaves no session of the account but the acting one.  From there a session that resolves was
opened with a hash no older than any reset before it.
-/
namespace Staff

open Txn Session Contract

variable {cfg : AuthConfig} {reqs : Tid → Access} {req : Access} {out : Store} {rows : Rows schema} {next : Nat}
  {clock : Int} {c : Conf (machine schema outside Err) Answer} {t : Tid} {w w' : World schema outside} {e e' : Engine schema}
  {i k m n : Nat} {d : Commit schema} {looks : List Look}

/-! ## The rows -/

structure Continues (s s' : StaffSession) : Prop where
  staffUserId : s'.staffUserId = s.staffUserId
  tokenHash : s'.tokenHash = s.tokenHash
  verified : s'.verified = s.verified
  ended : s.deletedAt ≠ none → s' = s

variable {s : StaffSession} {v r : StaffUser}

theorem Continues.trans {s' s'' : StaffSession} (h : Continues s s') (h' : Continues s' s'') : Continues s s'' := by
  refine ⟨h'.staffUserId.trans h.staffUserId, h'.tokenHash.trans h.tokenHash, h'.verified.trans h.verified, fun hs => ?_⟩
  have hsame := h.ended hs
  subst hsame
  exact h'.ended hs

abbrev accounts : Discipline schema where
  Trans
    | _, .staffUsers, (v : StaffUser), (r : StaffUser) => v.deletedAt ≠ none → r.deletedAt ≠ none
    | _, .sessions, (s : StaffSession), (s' : StaffSession) => Continues s s'
    | _, _, _, _ => True
  New _ _ _ := True
  refl _ T r := by cases T <;> first | exact id | exact ⟨rfl, rfl, rfl, fun _ => rfl⟩ | trivial
  trans _ T r r' r'' h h' := by
    cases T with
    | staffUsers => exact h' ∘ h
    | sessions => exact Continues.trans h h'
    | sosAlerts | auditLog | notifications => trivial
  weaken T _ _ h := by cases T <;> exact h
  new_trans _ _ _ _ _ _ := trivial
  new_weaken _ _ _ := trivial

theorem gone_apply {g : StaffUserChange} (h : StaffUserChange.apply v g = some r) (hv : v.deletedAt ≠ none) :
    r.deletedAt ≠ none := by
  cases g <;> simp only [StaffUserChange.apply] at h
  case flush =>
    cases h
    exact hv
  case softDelete now _ =>
    split at h <;> cases h
    exact Option.some_ne_none now
  all_goals (split at h <;> cases h)
  all_goals exact hv

theorem continues_apply {g : SessionChange} {s' : StaffSession} (h : SessionChange.apply s g = some s') :
    Continues s s' := by
  cases g
  simp only [SessionChange.apply] at h
  split at h <;> cases h
  rename_i hlive
  exact ⟨rfl, rfl, rfl, fun hs => absurd hlive.1 hs⟩

theorem legal_accounts (l : Bool) (o : Op schema outside) : accounts.Legal l o := by
  cases o with
  | sql o =>
    cases o with
    | update T j g =>
      intro v r _ hr
      cases T with
      | staffUsers => exact gone_apply hr
      | sessions => exact continues_apply hr
      | sosAlerts | auditLog | notifications => trivial
    | insert T r => exact fun _ _ => trivial
    | _ => trivial
  | now | ask => trivial

/-! ## What a commit secures -/

/-- **The current password was verified**, where the holder changes her own, against the hash. -/
def Proves (req : Access) (t : Tid) (looks : List Look) (hash : String) : Prop :=
  ∃ current, req.currentPassword = some current ∧ Look.matched t current hash ∈ looks

/-- **A commit in order**: the sessions it opens verified the hash that it leaves; where it gives an account another hash no
session of the account's is left but the acting one; and what it replaces of the holder's own is what her password was
verified against. -/
structure Secures (req : Access) (looks : List Look) (d : Commit schema) : Prop where
  opened : ∀ k (s : StaffSession), d.writes .sessions k = some s → s.deletedAt = none →
    ∃ v : StaffUser, d.after .staffUsers s.staffUserId = some v ∧ v.passwordHash = s.verified
  swept : ∀ i, Rehashes d.before d.writes i → ∀ k (s : StaffSession), d.after .sessions k = some s → s.staffUserId = i →
    s.deletedAt = none → req.acts i s.tokenHash = true
  checked : ∀ i ∈ req.ownPassword, ∀ r : StaffUser, d.writes .staffUsers i = some r →
    ∃ v : StaffUser, d.before .staffUsers i = some v ∧ Proves req d.by_ looks v.passwordHash

theorem Secures.mono {looks' : List Look} (h : Secures req looks d) (hl : looks ⊆ looks') : Secures req looks' d := by
  refine ⟨h.opened, h.swept, fun i hi r hr => ?_⟩
  obtain ⟨v, hv, current, hcurrent, hlook⟩ := h.checked i hi r hr
  exact ⟨v, hv, current, hcurrent, hl hlook⟩

theorem serve_looks (t : Tid) (q : Ask) (x : Input) (n : Nat) (s : Store) : s.looks ⊆ (serve t q x n s).2.looks := by
  cases q with
  | verifyPassword password hash =>
    simp only [serve]
    split
    · exact fun _ hl => List.mem_cons_of_mem _ hl
    · exact fun _ hl => hl
  | presignedPost key contentType exactBytes => cases hf : x.failure <;> simp [serve, hf]
  | postObject key contentType body =>
    simp only [serve]
    split <;> exact fun _ hl => hl
  | headObject key => cases hf : x.failure <;> cases ho : s.objects key <;> simp [serve, hf, ho]
  | readPrefix key length => cases hf : x.failure <;> cases ho : s.objects key <;> simp [serve, hf, ho]
  | deleteObject key => cases hf : x.failure <;> simp [serve, hf]
  | hashPassword | generateToken | isBlocked | recordFailure | isConfigured | uuid4 | assignmentOf => exact fun _ hl => hl

abbrev securing (reqs : Tid → Access) : Contract accounts.shared outside Err where
  Inv w := ∀ d ∈ w.db.log, Secures (reqs d.by_) w.out.looks d
  Assume := Unstraddled reqs
  crash_inv _ _ _ h := h
  tick_inv _ _ _ h := h

theorem securing_historic : (securing reqs).Historic fun _ => true := by
  refine ⟨fun w w' hl _ ho h d hd => ?_, fun t q x n w _ h d hd => (h d hd).mono (serve_looks t q x n w.out)⟩
  rw [hl] at hd
  rw [ho]
  exact h d hd

theorem secures_commit (hI : (securing reqs).Inv w) (h : Secures (reqs t) w.out.looks (w.db.entry t)) :
    (securing reqs).Inv ⟨w.db.commit t, w.out⟩ := by
  intro d hd
  rcases List.mem_append.1 hd with hd | hd
  · exact hI d hd
  · cases List.mem_singleton.1 hd
    exact h

/-! ## From one version to a later one -/

section Histories

variable (hL : e.Lawful accounts.shared) (hd : ∀ d ∈ e.log, Secures (reqs d.by_) looks d)
include hL

theorem session_later (hmn : m ≤ n) (hn : n ≤ e.log.length) (hs : e.version m .sessions k = some s) :
    ∃ s' : StaffSession, e.version n .sessions k = some s' ∧ Continues s s' := by
  have hbecomes := hL.version_becomes (Cast.plays_common _) hmn hn .sessions k
  rw [hs] at hbecomes
  obtain ⟨s', hs', hcontinues⟩ := hbecomes.some_left
  exact ⟨s', hs', hcontinues⟩

theorem here_before (hmn : m ≤ n) (hn : n ≤ e.log.length) (hr : e.version n .staffUsers i = some r)
    (hlive : r.deletedAt = none) (hv : e.version m .staffUsers i = some v) : v.deletedAt = none := by
  have hbecomes := hL.version_becomes (Cast.plays_common _) hmn hn .staffUsers i
  rw [hv] at hbecomes
  obtain ⟨r', hr', hgone⟩ := hbecomes.some_left
  have hgone : v.deletedAt ≠ none → StaffUser.deletedAt r' ≠ none := hgone
  rw [hr] at hr'
  cases hr'
  by_contra hnot
  exact hgone hnot hlive

include hd

/-- **A session that lives after a reset** is the acting one, or verified a hash that has stood since. -/
theorem session_since (hentry : e.log[m]? = some d) (hrehash : Rehashes d.before d.writes i) (hmn : m < n)
    (hn : n ≤ e.log.length) (hs : e.version n .sessions k = some s) (hi : s.staffUserId = i)
    (hlive : s.deletedAt = none) :
    (reqs d.by_).acts i s.tokenHash = true ∨
      ∃ n', m < n' ∧ n' ≤ n ∧ ∃ v : StaffUser, e.version n' .staffUsers i = some v ∧ v.passwordHash = s.verified := by
  have hsecures := hd d (List.mem_of_getElem? hentry)
  cases hafter : e.version (m + 1) .sessions k with
  | some s0 =>
    obtain ⟨s', hs', hcontinues⟩ := session_later hL hmn hn hafter
    rw [hs] at hs'
    cases hs'
    have hlive0 : StaffSession.deletedAt s0 = none := by
      by_contra hended
      rw [hcontinues.ended hended] at hlive
      exact hended hlive
    rw [hL.linked m d hentry] at hafter
    refine .inl ?_
    rw [hcontinues.tokenHash]
    exact hsecures.swept i hrehash k s0 hafter (hcontinues.staffUserId.symm.trans hi) hlive0
  | none =>
    obtain ⟨j, c, hj, hjn, hc, hnone, hsome⟩ := hL.version_crossing (T := .sessions) (i := k)
      (P := fun row => row ≠ none) hmn hn (fun h => h hafter) (by rw [hs]; exact Option.some_ne_none s)
    obtain ⟨s', hs'⟩ := Option.ne_none_iff_exists'.1 hsome
    have hversion := hL.linked j c hc
    obtain ⟨s'', hs'', hcontinues⟩ := session_later hL (Nat.succ_le_of_lt hjn) hn (by rw [hversion]; exact hs')
    rw [hs] at hs''
    cases hs''
    have hwrote : c.writes .sessions k = some s' := by
      cases hw : c.writes .sessions k with
      | none =>
        rw [Commit.after, Rows.over_none hw] at hsome
        exact absurd hsome hnone
      | some q =>
        rw [Commit.after, Rows.over_some hw] at hs'
        exact hs'
    have hlive' : StaffSession.deletedAt s' = none := by
      by_contra hended
      rw [hcontinues.ended hended] at hlive
      exact hended hlive
    obtain ⟨v, hv, hhash⟩ := (hd c (List.mem_of_getElem? hc)).opened k s' hwrote hlive'
    refine .inr ⟨j + 1, by omega, hjn, v, ?_, by rw [hcontinues.verified]; exact hhash⟩
    rw [hversion, ← hi, hcontinues.staffUserId]
    exact hv

end Histories

/-! ## The requests -/

section Programs

variable {α β : Type} {Q : Except Err β → World schema outside → Prop} {W : Work StaffUser}

abbrev Idle (t : Tid) (w : World schema outside) : Prop := w.db.pending t = fun _ _ => none

def SameHash (v r : StaffUser) : Prop := r.passwordHash = v.passwordHash

theorem changing_hash : Changing [.leave, .note, .erase] SameHash := by
  refine ⟨fun g v r k hk hmem hr => ?_, fun a b c h h' => h'.trans h⟩
  cases g with
  | softDelete now lastDay =>
    simp only [StaffUserChange.apply] at hr
    split at hr <;> cases hr
    rfl
  | setPendingPhoto storageKey contentType at_ =>
    cases storageKey <;> cases contentType <;> cases at_ <;> cases hk <;> exact absurd hmem (by decide)
  | flush | startBreak | endBreak | promotePendingPhoto | clearPhoto | resetPassword =>
    cases hk
    exact absurd hmem (by decide)

theorem Trace.secures {ks : List Kind} {I : Nat → Prop} (h : Trace ks I SameHash d) (hhire : .hire ∉ ks)
    (hsessions : ∀ k ∈ ks, k.touches .sessions = false) (hown : req.ownPassword = none) : Secures req looks d := by
  have hnone : d.writes .sessions = fun _ => none := h.rest .sessions hsessions
  refine ⟨fun k s hs _ => ?_, fun i hrehash => ?_, fun i hi => ?_⟩
  · rw [hnone] at hs
    cases hs
  · obtain ⟨v, hv, r, hr, hne⟩ := hrehash
    rcases h.staff i r hr with ⟨-, u, hu, hur⟩ | ⟨hmem, -⟩
    · cases hv.symm.trans hu
      exact absurd hur hne
    · exact absurd hmem hhire
  · rw [hown] at hi
    cases hi

theorem sober_session {ks : List Kind} {body : Int → Prg α} {k : α → Prg β} (hs : .session ∉ ks) (hf : .forge ∉ ks)
    (hhire : .hire ∉ ks) (hsessions : ∀ k ∈ ks, k.touches .sessions = false) (hP : Changing ks SameHash)
    (hown : (reqs t).ownPassword = none) (hbody : ∀ n, Within (Among ks) false (body n)) (hidle : Idle t w)
    (herr : ∀ e w', Q (.error e) w') (hk : ∀ a w', Idle t w' → (securing reqs).Ensures t (k a) Q w') :
    (securing reqs).Ensures t (tenantSession body >>= k) Q w := by
  refine ensures_tenantSession securing_historic fun w1 n hev1 _ _ => ?_
  refine ensures_mono (fun x w2 hx => ?_) (ensures_of_uses (fun _ w => Trace ks (fun _ => True) SameHash (w.db.entry t))
    (fun _ _ _ hev h => h.evolves hev.db) (fun l o w x r w' ho hL hI h he hL' hA => ?_) (hbody n)
    (trace_idle (hev1.db.pending.trans hidle)))
  · obtain ⟨-, -, htrace⟩ := hx
    cases x with
    | error e =>
      intro w3 _ _
      exact herr e _
    | ok a =>
      intro w3 hev _ hI3 _ _
      exact ⟨secures_commit hI3 ((htrace.evolves hev.db).secures hhire hsessions hown), hk a _ Engine.commit_pending_self⟩
  · exact ⟨securing_historic.exec (ho.not_session hs).1 (fun _ _ => rfl) he hI,
      h.step hP hs hf hL ho (fun _ _ _ => trivial) he⟩

theorem tail_secures {p : Prg β} (hp : Only (Sparing fun _ => True) p) (w : World schema outside) :
    (securing reqs).Ensures t p (fun _ _ => True) w :=
  ensures_last (ensures_sparing securing_historic (fun _ => True) (fun _ _ _ _ h => h) (fun _ _ _ _ _ h => h) hp trivial
    (fun _ _ _ => trivial) fun _ _ _ => trivial)

theorem deactivate_secures {staffId : Nat} {lastDay : Option Int} {actor : StaffContext}
    (hown : (reqs t).ownPassword = none) (hidle : Idle t w) :
    (securing reqs).Ensures t ((Access.deactivate staffId lastDay actor).code cfg) (fun _ _ => True) w := by
  refine ensures_first (sober_session (by decide) (by decide) (by decide) (by decide) changing_hash hown
    (fun n => (within_deactivateIn _ _ _ _ _).mono fun _ _ ho => ho.mono (by decide)) hidle (fun _ _ => trivial)
    fun keys w1 _ => ?_)
  refine tail_secures (fun l => ?_) w1
  have hdelete : Within (Among [.erase]) l ((deleteEach keys >>= fun _ => (return .deactivated : Prg Response)) >>=
      fun response => (return .staff response : Prg Answer)) :=
    (((steady_deleteEach (by decide) keys).bind fun _ => steady_ret _).bind fun _ => steady_ret _).within
  exact hdelete.mono fun _ _ ho => ho.sparing

theorem ensures_scalar {C : Contract accounts.shared outside Err} {x : List α} {k : Option α → Prg β}
    (herr : Q (.error .multipleResultsFound) w) (hk : ∀ o, (∀ a, o = some a → a ∈ x) → C.Ensures t (k o) Q w) :
    C.Ensures t (scalarOneOrNone x >>= k) Q w := by
  match x with
  | [] => exact hk none fun a ha => by cases ha
  | [a] => exact hk (some a) fun b hb => by cases hb; exact List.mem_singleton_self a
  | _ :: _ :: _ => exact herr

structure Reads (i : Nat) (hash : String) (t : Tid) (e : Engine schema) : Prop where
  past : e.seen t ≤ e.log.length
  found : ∃ v : StaffUser, e.version (e.seen t) .staffUsers i = some v ∧ v.passwordHash = hash

variable {hash : String} {Φ : Engine schema → Prop}

theorem Reads.evolves (h : Reads i hash t e) (hev : e.Evolves accounts.shared t e') : Reads i hash t e' := by
  refine ⟨?_, ?_⟩
  · rw [hev.seen]
    exact h.past.trans hev.log_le
  · rw [hev.seen, hev.version _ h.past]
    exact h.found

theorem reads_look (hr : e.committed .staffUsers i = some r) : Reads i r.passwordHash t (e.look t) := by
  refine ⟨Nat.le_of_eq Engine.look_seen, r, ?_, rfl⟩
  rw [Engine.look_seen, Engine.look_version, Engine.version_length]
  exact hr

theorem Reads.stands (h : Reads i hash t e) (hL : e.Lawful accounts.shared) (hunreset : Unreset e t i) :
    ∃ r : StaffUser, e.committed .staffUsers i = some r ∧ r.passwordHash = hash := by
  obtain ⟨v, hv, hhash⟩ := h.found
  have hrow := hL.version_becomes (Cast.plays_common _) h.past (Nat.le_refl _) .staffUsers i
  rw [hv, Engine.version_length] at hrow
  obtain ⟨r, hr, -⟩ := hrow.some_left
  exact ⟨r, hr, (hunreset v hv r hr).trans hhash⟩

structure Opening (i : Nat) (hash : String) (t : Tid) (e : Engine schema) : Prop extends Reads i hash t e where
  staff : e.pending t .staffUsers = fun _ => none
  sessions : ∀ k (s : StaffSession), e.pending t .sessions k = some s → s.staffUserId = i ∧ s.verified = hash

theorem Opening.evolves (h : Opening i hash t e) (hev : e.Evolves accounts.shared t e') : Opening i hash t e' :=
  ⟨h.toReads.evolves hev, by rw [hev.pending, h.staff], by rw [hev.pending]; exact h.sessions⟩

theorem Opening.secures (h : Opening i hash t w.db) (hL : w.db.Lawful accounts.shared) (hA : LogsInUnreset w t)
    (hown : req.ownPassword = none) : Secures req looks (w.db.entry t) := by
  have hafter : (w.db.entry t).after .staffUsers = w.db.committed .staffUsers :=
    funext fun j => Rows.over_none (by rw [show (w.db.entry t).writes .staffUsers = _ from h.staff])
  refine ⟨fun k s hs hlive => ?_, fun j hrehash => ?_, fun j hj => ?_⟩
  · obtain ⟨hi, hverified⟩ := h.sessions k s hs
    have hunreset := hA k (hL.owned_lt t .sessions k s hs) s hs hlive
    rw [hi] at hunreset
    obtain ⟨r, hr, hhash⟩ := h.toReads.stands hL hunreset
    exact ⟨r, by rw [hafter, hi]; exact hr, hhash.trans hverified.symm⟩
  · obtain ⟨v, hv, r, hr, -⟩ := hrehash
    rw [show (w.db.entry t).writes .staffUsers = _ from h.staff] at hr
    cases hr
  · rw [hown] at hj
    cases hj

theorem idle_secures (hidle : Idle t w) : Secures req looks (w.db.entry t) := by
  have hw : (w.db.entry t).writes = fun _ _ => none := hidle
  refine ⟨fun k s hs _ => ?_, fun i hrehash => ?_, fun i _ r hr => ?_⟩
  · rw [hw] at hs
    cases hs
  · obtain ⟨v, -, r, hr, -⟩ := hrehash
    rw [hw] at hr
    cases hr
  · rw [hw] at hr
    cases hr

theorem closes_secures {a : α} {k : α → Prg β} (hevolve : ∀ e e', e.Evolves accounts.shared t e' → Φ e → Φ e')
    (hcommit : ∀ w : World schema outside, w.db.Lawful accounts.shared → LogsInUnreset w t → ResetsUnopened (reqs t) w t →
      outside.mine t w.out = outside.mine t w'.out → Φ w.db → Secures (reqs t) w.out.looks (w.db.entry t))
    (h : Φ w'.db) (hk : ∀ w1, (securing reqs).Ensures t (k a) Q w1) :
    Closes (securing reqs) t k Q (.ok a) w' := by
  intro w1 hev hL hI hA _
  obtain ⟨hlogs, hresets⟩ := hA.2 rfl
  exact ⟨secures_commit hI (hcommit w1 hL hlogs hresets hev.mine (hevolve _ _ hev.db h)), hk _⟩

theorem refused_secures {e : Err} {k : α → Prg Answer} :
    Closes (securing reqs) t k (fun _ _ => True) (.error e) w := fun _ _ _ => trivial

theorem login_secures {email password : String} (hown : (reqs t).ownPassword = none) (hidle : Idle t w) :
    (securing reqs).Ensures t ((Access.login email password).code cfg) (fun _ _ => True) w := by
  refine ensures_tenantSession securing_historic fun w1 n hev _ _ => ?_
  replace hidle : Idle t w1 := hev.db.pending.trans hidle
  have hidly : ∀ w' : World schema outside, Idle t w' →
      Closes (securing reqs) t (fun outcome => (match outcome with
        | none => .raise .invalidCredentials
        | some (context, token) => return .loggedIn context token : Prg Answer)) (fun _ _ => True) (.ok none) w' :=
    fun w' h => closes_secures (Φ := fun e => e.pending t = fun _ _ => none) (fun _ _ hev h => hev.pending.trans h)
      (fun _ _ _ _ _ h => idle_secures h) h fun _ => trivial
  refine ensures_first (ensures_select securing_historic fun w2 hev2 hL2 _ _ _ => ensures_scalar refused_secures fun staff hstaff => ?_)
  have hidle2 : Idle t w2 := hev2.db.pending.trans hidle
  cases staff with
  | none => exact ensures_ask securing_historic rfl fun w3 x n hev3 _ _ _ => hidly _ (hev3.db.pending.trans hidle2)
  | some r =>
    obtain ⟨j, -, hr⟩ := Snapshot.mem_all.1 (List.mem_filter.1 (hstaff r rfl)).1
    rw [Engine.view_idle hidle2] at hr
    have hid : StaffUser.id r = j := hL2.rows.id .staffUsers j r hr
    subst hid
    have hopening : Opening r.id r.passwordHash t (w2.db.look t) := by
      refine ⟨reads_look hr, by rw [Engine.look_pending, hidle2], fun k s hs => ?_⟩
      rw [Engine.look_pending, hidle2] at hs
      cases hs
    refine ensures_ask securing_historic rfl fun w3 x n hev3 _ _ _ => ?_
    have hidle3 : Idle t w3 := hev3.db.pending.trans hidle2
    split
    · refine Session.ensures_ask securing_historic rfl fun w4 x n hev4 _ _ _ => ?_
      refine Session.ensures_now securing_historic fun w5 hev5 _ _ => ?_
      refine Session.ensures_insert securing_historic (fun _ _ _ _ _ => refused_secures) fun w6 hev6 _ _ _ => ?_
      have h6 : Opening r.id r.passwordHash t w6.db :=
        (((hopening.evolves hev3.db).evolves hev4.db).evolves hev5.db).evolves hev6.db
      refine closes_secures (Φ := Opening r.id r.passwordHash t) (fun _ _ hev h => h.evolves hev)
        (fun w hL hlogs _ _ h => h.secures hL hlogs hown) ?_ fun _ => trivial
      refine ⟨⟨h6.past, h6.found⟩, ?_, fun k s hs => ?_⟩
      · rw [← h6.staff]
        exact Engine.write_beside (by decide)
      · rcases Engine.inserted_pending hs with heq | hs
        · cases heq
          exact ⟨rfl, rfl⟩
        · exact h6.sessions k s hs
    · exact hidly _ hidle3

/-- **The sessions as the sweep found them**: the account's live ones, less the spared, are on the page, and one that is no longer
left is ended. -/
structure Sweeping (i : Nat) (spared : Option String) (W : Work StaffUser) (t : Tid) (page left : List Nat) (e : Engine schema) :
    Prop where
  work : e.AtWork t Table.staffUsers W
  ended : ∀ k (s : StaffSession), e.pending t .sessions k = some s → s.deletedAt ≠ none
  page : e.Page Table.sessions (fun (s : StaffSession) => s.staffUserId = i ∧ s.deletedAt = none ∧ some s.tokenHash ≠ spared)
    (fun (s : StaffSession) => s.deletedAt ≠ none ∨ some s.tokenHash = spared) t page left

variable {spared : Option String} {page left : List Nat}

theorem Sweeping.evolves (h : Sweeping i spared W t page left e) (hev : e.Evolves accounts.shared t e') :
    Sweeping i spared W t page left e' := by
  refine ⟨h.work.evolves hev, by rw [hev.pending]; exact h.ended, h.page.evolves hev fun _ r r' hcontinues => ?_⟩
  have hcontinues : Continues r r' := hcontinues
  rw [hcontinues.tokenHash]
  exact Or.imp (fun hended => by rw [hcontinues.ended hended]; exact hended) id

theorem Sweeping.congr (h : Sweeping i spared W t page left e) (hl : e'.log = e.log) (hc : e'.committed = e.committed)
    (hs : e'.seen t = e.seen t) (hp : ∀ T, T = Table.staffUsers ∨ T = Table.sessions → e'.pending t T = e.pending t T) :
    Sweeping i spared W t page left e' :=
  ⟨h.work.congr hc (hp _ (.inl rfl)), by rw [hp _ (.inr rfl)]; exact h.ended, h.page.congr hl hc hs (hp _ (.inr rfl))⟩

theorem Sweeping.spares (h : Sweeping i spared W t page [] e) (hL : e.Lawful accounts.shared)
    (hunopened : Unopened e (e.seen t) i) (hs : e.view t .sessions k = some s) (hi : s.staffUserId = i)
    (hlive : s.deletedAt = none) : some s.tokenHash = spared := by
  cases hp : e.pending t .sessions k with
  | some q =>
    rw [Engine.view_pending hp] at hs
    cases hs
    exact absurd hlive (h.ended k _ hp)
  | none =>
    rw [Engine.view, Rows.over_none hp] at hs
    by_contra hnot
    refine (h.page.settled hL hp (fun d hd k s hs hpicked => ?_) hs ⟨hi, hlive, hnot⟩).elim (fun hended => hended hlive) hnot
    exact hunopened d hd k (hL.written_lt (List.mem_of_mem_drop hd) hs) s hs hpicked.1 hpicked.2.1

theorem revoke_sweeps {at_ : Int} {k : Unit → Prg β} (hwork : w.db.AtWork t Table.staffUsers W)
    (hnone : w.db.pending t .sessions = fun _ => none) (herr : ∀ e w', Q (.error e) w')
    (hk : ∀ page w', Sweeping i spared W t page [] w'.db → outside.mine t w'.out = outside.mine t w.out →
      (securing reqs).Ensures t (k ()) Q w') :
    (securing reqs).Ensures t (Sessions.revokeForStaffUser i spared at_ >>= k) Q w := by
  refine ensures_first (ensures_select securing_historic fun w1 hev hL _ _ _ => ?_)
  have hnone1 : w1.db.pending t .sessions = fun _ => none := by rw [hev.db.pending, hnone]
  have hsweeping : ∀ page, page = matching (⟨w1.db.view t, w1.db.next⟩ : Snapshot schema) .sessions
      (fun (r : StaffSession) => r.staffUserId = i ∧ r.deletedAt = none ∧ some r.tokenHash ≠ spared) →
      Sweeping i spared W t page page (w1.db.look t) := fun page hpage => by
    refine ⟨(hwork.evolves hev.db).congr rfl rfl, fun j s hs => ?_, Engine.page_look hL hnone1 (fun _ h => decide_eq_true h) hpage⟩
    rw [Engine.look_pending, hnone1] at hs
    cases hs
  refine ensures_first (ensures_updateLeft securing_historic (fun left (w' : World schema outside) => Sweeping i spared W t
    (matching (⟨w1.db.view t, w1.db.next⟩ : Snapshot schema) .sessions (fun (r : StaffSession) => r.staffUserId = i ∧
      r.deletedAt = none ∧ some r.tokenHash ≠ spared)) left w'.db ∧ outside.mine t w'.out = outside.mine t w.out)
    (fun left w w' hev _ _ h => ⟨h.1.evolves hev.db, hev.mine.trans h.2⟩) (fun j left w h hL hmiss => ⟨?_, h.2⟩)
    (fun j left w v r h _ hv hr => ⟨?_, h.2⟩) (fun _ _ _ => herr _ _) (fun rs w' h' => hk _ w' h'.1 h'.2) _
    ⟨w1.db.look t, w1.out⟩ [] ⟨hsweeping _ rfl, hev.mine⟩)
  · refine ⟨h.1.work, h.1.ended, h.1.page.skip hmiss fun s hs => ?_⟩
    have hs : SessionChange.apply s (.revoke spared at_) = none := hs
    rw [SessionChange.apply] at hs
    split at hs
    · cases hs
    · rename_i hnot
      by_cases hlive : s.deletedAt = none
      · exact .inr (by_contra fun htoken => hnot ⟨hlive, htoken⟩)
      · exact .inl hlive
  · refine ⟨h.1.work.beside (by decide), fun k s hs => ?_, h.1.page.write⟩
    rcases Engine.write_pending_cases hs with ⟨-, heq, -⟩ | hs
    · cases heq
      have hr : SessionChange.apply v (.revoke spared at_) = some r := hr
      rw [SessionChange.apply] at hr
      split at hr <;> cases hr
      exact Option.some_ne_none at_
    · exact h.1.ended k s hs

theorem Sweeping.secures (h : Sweeping i spared W t page [] w.db) (hL : w.db.Lawful accounts.shared)
    (hA : ResetsUnopened req w t) (hW : ∀ j v r, W = some (j, v, r) → j = i) (hspared : ∀ token, some token = spared →
      req.spares token = true) (hchecked : ∀ j ∈ req.ownPassword, ∀ v r, W = some (j, v, r) →
      ∃ u, v = some u ∧ Proves req t looks u.passwordHash) : Secures req looks (w.db.entry t) := by
  refine ⟨fun k s hs hlive => absurd hlive (h.ended k s hs), fun j hrehash k s hs hi hlive => ?_, fun j hj r hr => ?_⟩
  · obtain ⟨v, hv, r, hr, hne⟩ := hrehash
    obtain ⟨u, hu, -⟩ := h.work.entry hr
    cases hW j u r hu
    have hlt : i < w.db.next := hL.owned_lt t .staffUsers i r hr
    obtain ⟨hunopened, hself⟩ := hA i hlt ⟨v, hv, r, hr, hne⟩
    have hs : w.db.view t .sessions k = some s := hs
    exact hself k (hL.view_lt hs) s hs hi (hspared _ (h.spares hL hunopened hs hi hlive))
  · obtain ⟨v, hu, hbefore⟩ := h.work.entry hr
    obtain ⟨u, rfl, hproves⟩ := hchecked j hj v r hu
    exact ⟨u, hbefore, hproves⟩

theorem reset_secures {ownerEmail newPassword : String} (hreq : reqs t = .resetOwnerPassword ownerEmail newPassword)
    (hidle : Idle t w) :
    (securing reqs).Ensures t ((Access.resetOwnerPassword ownerEmail newPassword).code cfg) (fun _ _ => True) w := by
  have hown : (reqs t).ownPassword = none := by rw [hreq]; rfl
  change (securing reqs).Ensures t (Staff.resetOwnerPassword cfg ownerEmail newPassword) _ w
  unfold Staff.resetOwnerPassword
  split
  · exact trivial
  refine ensures_last (ensures_tenantSession securing_historic fun w1 n hev _ _ => ?_)
  replace hidle : Idle t w1 := hev.db.pending.trans hidle
  refine Session.ensures_ask securing_historic rfl fun w2 x n hev2 _ _ _ => ?_
  refine ensures_select securing_historic fun w3 hev3 _ _ _ _ => ?_
  have hidle3 : Idle t w3 := hev3.db.pending.trans (hev2.db.pending.trans hidle)
  refine ensures_updateRows securing_historic (fun rs (w : World schema outside) => w.db.pending t .sessions = (fun _ => none) ∧
    (rs = [] → Idle t w) ∧ ∀ r, rs = [r] → ∃ v : StaffUser, w.db.AtWork t Table.staffUsers (some (StaffUser.id r, some v, r)))
    (fun rs w w' hev _ _ h => ⟨by rw [hev.db.pending, h.1], fun hrs => hev.db.pending.trans (h.2.1 hrs), fun r hrs => ?_⟩)
    (fun rs w j v r h hL hv hr => ⟨?_, fun hrs => ?_, fun r' hrs => ?_⟩) (fun _ _ _ => refused_secures) ?_
    fun rs w4 h => ?_
  · obtain ⟨v, hwork⟩ := h.2.2 r hrs
    exact ⟨v, hwork.evolves hev.db⟩
  · rw [← h.1]
    exact Engine.write_beside (by decide)
  · simp at hrs
  · cases rs with
    | nil =>
      cases hrs
      have hidle := h.2.1 rfl
      have hcommitted : w.db.committed .staffUsers j = some v := by rw [← Engine.view_idle hidle]; exact hv
      have hid : StaffUser.id r = j :=
        (schema.id_apply .staffUsers _ v r hr).trans (hL.rows.id .staffUsers j v hcommitted)
      subst hid
      have hwork : w.db.AtWork t Table.staffUsers none := Engine.atWork_none (by rw [hidle])
      have hwrote := hwork.write (i := StaffUser.id r) (r := r)
      rw [hcommitted] at hwrote
      exact ⟨v, hwrote⟩
    | cons q rs => simp at hrs
  · exact ⟨by rw [Engine.look_pending, hidle3], fun _ => hidle3, fun r hrs => by cases hrs⟩
  · match rs, h with
    | [], h =>
      exact closes_secures (Φ := fun e => e.pending t = fun _ _ => none) (fun _ _ hev h => hev.pending.trans h)
        (fun _ _ _ _ _ h => idle_secures h) (h.2.1 rfl) fun _ => trivial
    | [r], h =>
      obtain ⟨v, hwork⟩ := h.2.2 r rfl
      refine revoke_sweeps hwork h.1 (fun _ _ => refused_secures) fun page w5 hsweeping _ => ?_
      refine closes_secures (Φ := Sweeping r.id none (some (r.id, some v, r)) t page []) (fun _ _ hev h => h.evolves hev)
        (fun w hL _ hresets _ h => h.secures hL hresets (fun j v r hW => ?_) (fun _ hc => by cases hc) fun j hj => ?_) hsweeping
        fun _ => trivial
      · cases hW
        rfl
      · rw [hown] at hj
        cases hj
    | _ :: _ :: _, _ => exact refused_secures

/-! ### A change of one's own, and of another's -/

/-- **What the check has shown**, where the holder changes her own. -/
def Shown (reqs : Tid → Access) (t : Tid) (hash : String) (w : World schema outside) : Prop :=
  ∀ j ∈ (reqs t).ownPassword, Proves (reqs t) t (ownLooks t w.out) hash

theorem Shown.of_mine (h : Shown reqs t hash w) (hm : outside.mine t w'.out = outside.mine t w.out) :
    Shown reqs t hash w' := by
  intro j hj
  rw [Proves, show ownLooks t w'.out = ownLooks t w.out from hm]
  exact h j hj

theorem ownLooks_subset (t : Tid) (s : Store) : ownLooks t s ⊆ s.looks := List.filter_subset_self _

/-- **An edit, flushed**: one row of the staff in flight, over the one that the password was verified against. -/
structure Edited (reqs : Tid → Access) (i : Nat) (v r : StaffUser) (t : Tid) (w : World schema outside) : Prop where
  work : w.db.AtWork t Table.staffUsers (some (i, some v, r))
  sessions : w.db.pending t .sessions = fun _ => none
  shown : Shown reqs t v.passwordHash w

theorem Edited.evolves (h : Edited reqs i v r t w) (hev : w.Evolves accounts.shared t w') :
    Edited reqs i v r t w' :=
  ⟨h.work.evolves hev.db, by rw [hev.db.pending, h.sessions], h.shown.of_mine hev.mine⟩

theorem Edited.look (h : Edited reqs i v r t w) :
    Edited reqs i v r t (⟨w.db.look t, w.out⟩ : World schema outside) :=
  ⟨h.work.congr rfl rfl, h.sessions, h.shown⟩

def ReadsOwn (reqs : Tid → Access) (hash : String) (t : Tid) (e : Engine schema) : Prop :=
  ∀ j ∈ (reqs t).ownPassword, Reads j hash t e

/-- **The load and the flush** of an edit: where the holder changes her own, over the hash that she has read. -/
theorem flush_edited {moves : Moves} {k : Option StaffUser → Prg β} (hidle : Idle t w)
    (hreads : ReadsOwn reqs hash t w.db) (hshown : Shown reqs t hash w)
    (hself : ∀ j ∈ (reqs t).ownPassword, j = i) (hempty : moves.isEmpty = false)
    (herr : ∀ e w', Q (.error e) w') (hnone : ∀ w', (securing reqs).Ensures t (k none) Q w')
    (hk : ∀ x v r w', StaffUserChange.apply v (.flush moves) = some r → Edited reqs i v r t w' →
      (securing reqs).Ensures t (k x) Q w') :
    (securing reqs).Ensures t (StaffUsers.update i moves >>= k) Q w := by
  refine ensures_first (ensures_select securing_historic fun w1 hev1 hL1 _ hA1 _ => ?_)
  have hidle1 : Idle t w1 := hev1.db.pending.trans hidle
  have hreads1 : ReadsOwn reqs hash t (w1.db.look t) := by
    intro j hj
    obtain ⟨r, hr, hhash⟩ := ((hreads j hj).evolves hev1.db).stands hL1 (hA1.1 rfl j hj)
    rw [← hhash]
    exact reads_look hr
  cases hfound : ((⟨w1.db.view t, w1.db.next⟩ : Snapshot schema).rows .staffUsers i).filter StaffUser.live with
  | none => exact hnone _
  | some row =>
    dsimp only
    rw [if_neg (by rw [hempty]; decide)]
    refine ensures_first (ensures_updateFirst securing_historic (Engine.atWork_none (by rw [Engine.look_pending, hidle1]))
      (fun _ _ => herr _ _) (fun w2 _ _ _ _ => herr _ _) fun w2 v r hev2 hL2 hv hr hA2 hwork => ?_)
    have hhash : ∀ j ∈ (reqs t).ownPassword, StaffUser.passwordHash v = hash := by
      intro j hj
      obtain ⟨u, hu, hhash⟩ := ((hreads1 j hj).evolves hev2.db).stands hL2 (hA2.1 rfl j hj)
      rw [hself j hj, hv] at hu
      cases hu
      exact hhash
    refine ensures_first (ensures_raiseIf (fun _ => herr _ _) fun _ => ?_)
    have hedited : Edited reqs i v r t ⟨w2.db.write t Table.staffUsers i r, w2.out⟩ := by
      refine ⟨hwork, ?_, fun j hj => ?_⟩
      · have hsessions : w2.db.pending t .sessions = fun _ => none := by
          rw [hev2.db.pending, Engine.look_pending, hidle1]
        rw [← hsessions]
        exact Engine.write_beside (by decide)
      · rw [hhash j hj]
        exact (hshown.of_mine (hev2.mine.trans hev1.mine)) j hj
    refine ensures_select securing_historic fun w3 hev3 _ _ _ _ => ?_
    exact hk _ v r _ hr (hedited.evolves hev3).look

theorem record_edited {actorId entity : Nat} {action : AuditAction} {k : Unit → Prg β} (h : Edited reqs i v r t w)
    (herr : ∀ e w', Q (.error e) w')
    (hk : ∀ w', Edited reqs i v r t w' → (securing reqs).Ensures t (k ()) Q w') :
    (securing reqs).Ensures t (record actorId entity action >>= k) Q w := by
  refine ensures_first (Session.ensures_insert securing_historic (fun _ _ _ _ _ => herr _ _) fun w1 hev _ _ _ => ?_)
  have h1 := h.evolves hev
  refine hk _ ⟨h1.work.insertBeside (by decide), ?_, h1.shown⟩
  rw [← h1.sessions]
  exact Engine.write_beside (by decide)

theorem recordEach_edited {actorId entity : Nat} {k : Unit → Prg β} (herr : ∀ e w', Q (.error e) w')
    (hk : ∀ w', Edited reqs i v r t w' → (securing reqs).Ensures t (k ()) Q w') :
    ∀ (actions : List AuditAction) (w : World schema outside), Edited reqs i v r t w →
      (securing reqs).Ensures t (recordEach actorId entity actions >>= k) Q w
  | [], w, h => hk w h
  | _ :: actions, _, h => ensures_first (record_edited h herr fun _ h' => recordEach_edited herr hk actions _ h')

theorem guard_reads {leaving : Bool} {target : StaffUser} {k : Unit → Prg β} (hidle : Idle t w)
    (hreads : leaving = false → ReadsOwn reqs target.passwordHash t w.db) (herr : ∀ e w', Q (.error e) w')
    (hk : ∀ w', Idle t w' → (leaving = false → ReadsOwn reqs target.passwordHash t w'.db) →
      (securing reqs).Ensures t (k ()) Q w') :
    (securing reqs).Ensures t (guardLastOwner leaving target >>= k) Q w := by
  unfold guardLastOwner
  split
  · rename_i h
    refine ensures_first (ensures_select securing_historic fun w1 hev _ _ _ _ => ensures_raiseIf (fun _ => herr _ _) fun _ => ?_)
    refine hk ⟨w1.db.look t, w1.out⟩ (hev.db.pending.trans hidle) fun hstays => ?_
    rw [h.1] at hstays
    cases hstays
  · exact hk w hidle hreads

theorem check_shows {target : StaffUser} {isSelf : Bool} {patch : StaffPatch} {k : Unit → Prg β} (hidle : Idle t w)
    (hevolve : ∀ e e', e.Evolves accounts.shared t e' → Φ e → Φ e') (hΦ : Φ w.db)
    (hown : ∀ j ∈ (reqs t).ownPassword, patch.password.isSome = true ∧ isSelf = true)
    (hcurrent : (reqs t).currentPassword = patch.currentPassword) (herr : ∀ e w', Q (.error e) w')
    (hk : ∀ w', Idle t w' → Φ w'.db → Shown reqs t target.passwordHash w' → (securing reqs).Ensures t (k ()) Q w') :
    (securing reqs).Ensures t (checkCurrentPassword target isSelf patch >>= k) Q w := by
  unfold checkCurrentPassword
  split
  · split
    · exact herr _ _
    · rename_i current hpatch
      refine ensures_first (Session.ensures_ask securing_historic rfl fun w1 x n hev _ _ _ => ?_)
      refine ensures_raiseIf (fun _ => herr _ _) fun hmatches => ?_
      refine hk _ (hev.db.pending.trans hidle) (hevolve _ _ hev.db hΦ) fun j hj => ⟨current, hcurrent.trans hpatch, ?_⟩
      have hyes : x.yes = true := by
        by_contra hno
        simp [serve, hno] at hmatches
      simp [serve, hyes, ownLooks, Look.by_]
  · rename_i hnot
    exact hk w hidle hΦ fun j hj => absurd (hown j hj) hnot

theorem Edited.secures (h : Edited reqs i v r t w) (hhash : r.passwordHash = v.passwordHash) :
    Secures (reqs t) w.out.looks (w.db.entry t) := by
  have hsessions : (w.db.entry t).writes .sessions = fun _ => none := h.sessions
  refine ⟨fun k s hs _ => ?_, fun j hrehash => ?_, fun j hj q hq => ?_⟩
  · rw [hsessions] at hs
    cases hs
  · obtain ⟨u, hu, q, hq, hne⟩ := hrehash
    obtain ⟨x, hx, hbefore⟩ := h.work.entry hq
    cases hx
    rw [hbefore] at hu
    cases hu
    exact absurd hhash hne
  · obtain ⟨x, hx, hbefore⟩ := h.work.entry hq
    obtain ⟨current, hcurrent, hlook⟩ := h.shown j hj
    cases hx
    exact ⟨v, hbefore, current, hcurrent, ownLooks_subset t _ hlook⟩

section Update

variable {staffId : Nat} {patch : StaffPatch} {acting : Option String} {actor : StaffContext} {k : Response → Prg Answer}
  (hreq : reqs t = .update staffId patch acting actor)
include hreq

theorem own_of_update {j : Nat} (hj : j ∈ (reqs t).ownPassword) :
    j = staffId ∧ patch.password.isSome = true ∧ actor.id = staffId := by
  rw [hreq] at hj
  simp only [Access.ownPassword, Option.mem_def] at hj
  split at hj <;> cases hj
  rename_i h
  exact ⟨rfl, h⟩

theorem endSessions_closes {isSelf : Bool} {txNow : Int} {updated : Response} (h : Edited reqs staffId v r t w)
    (hk : ∀ w', (securing reqs).Ensures t (k updated) (fun _ _ => True) w') :
    (securing reqs).Ensures t (do
      endSessions staffId actor.id isSelf acting txNow
      return updated) (Closes (securing reqs) t k fun _ _ => True) w := by
  refine ensures_first (revoke_sweeps h.work h.sessions (fun _ _ => fun _ _ _ => trivial) fun page w1 hsweeping hmine => ?_)
  have hshown : Shown reqs t v.passwordHash w1 := h.shown.of_mine hmine
  refine ensures_first (Session.ensures_insert securing_historic (fun _ _ _ _ _ => fun _ _ _ => trivial) fun w2 hev _ _ _ => ?_)
  have hsweeping2 : Sweeping staffId acting (some (staffId, some v, r)) t page []
      (inserted w2.db t Table.auditLog ⟨0, 0, actor.id, staffId, .staffPasswordReset isSelf⟩) := by
    refine (hsweeping.evolves hev.db).congr rfl rfl rfl fun T hT => ?_
    exact funext fun _ => Engine.write_pending_row fun hc => by rcases hT with rfl | rfl <;> cases hc.1
  have hshown2 := hshown.of_mine hev.mine
  refine closes_secures (Φ := Sweeping staffId acting (some (staffId, some v, r)) t page []) (fun _ _ hev h => h.evolves hev)
    (fun w3 hL _ hresets hm h => h.secures hL hresets (fun j x q hW => ?_) (fun token htoken => ?_) fun j hj x q hW => ?_)
    hsweeping2 hk
  · cases hW
    rfl
  · rw [hreq]
    exact decide_eq_true htoken.symm
  · obtain ⟨current, hcurrent, hlook⟩ := hshown2.of_mine hm j hj
    cases hW
    exact ⟨v, rfl, current, hcurrent, ownLooks_subset t _ hlook⟩

theorem updateIn_closes {storedPhone newPasswordHash : Option String} {txNow : Int}
    (hhash : newPasswordHash.isSome = patch.password.isSome) (hidle : Idle t w)
    (hk : ∀ r w', (securing reqs).Ensures t (k r) (fun _ _ => True) w') :
    (securing reqs).Ensures t (updateIn staffId patch storedPhone newPasswordHash acting actor txNow)
      (Closes (securing reqs) t k fun _ _ => True) w := by
  have herr : ∀ e w', Closes (securing reqs) t k (fun _ _ => True) (.error e) w' := fun _ _ _ _ _ => trivial
  refine ensures_locked securing_historic fun w1 hev1 _ _ => ensures_select securing_historic fun w2 hev2 hL2 _ _ _ => ?_
  have hidle2 : Idle t w2 := hev2.db.pending.trans (hev1.db.pending.trans hidle)
  refine ensures_orRaise (fun _ => herr _ _) fun target htarget => ?_
  have hread : w2.db.view t .staffUsers staffId = some target := (Option.filter_eq_some_iff.1 htarget).1
  rw [Engine.view_idle hidle2] at hread
  have hid : target.id = staffId := hL2.rows.id _ _ _ hread
  refine ensures_raiseIf (fun _ => herr _ _) fun hself => ?_
  refine guard_reads hidle2 (fun _ j hj => ?_) herr fun w3 hidle3 hreads => ?_
  · rw [(own_of_update hreq hj).1]
    exact reads_look hread
  refine check_shows (Φ := fun e => ∀ j ∈ (reqs t).ownPassword, Reads j target.passwordHash t e) hidle3
    (fun _ _ hev h j hj => (h j hj).evolves hev) (fun j hj => ?_) (fun j hj => ?_) (by rw [hreq]; rfl) herr
    fun w4 hidle4 hreads4 hshown => ?_
  · refine hreads ?_ j hj
    have hactor : target.id = actor.id := hid.trans (own_of_update hreq hj).2.2.symm
    simpa [hactor] using hself
  · obtain ⟨-, hpassword, hactor⟩ := own_of_update hreq hj
    exact ⟨hpassword, decide_eq_true (hid.trans hactor.symm)⟩
  dsimp only
  split
  · exact closes_secures (Φ := fun e => e.pending t = fun _ _ => none) (fun _ _ hev h => hev.pending.trans h)
      (fun _ _ _ _ _ h => idle_secures h) hidle4 fun w' => hk _ w'
  · rename_i hempty
    refine flush_edited hidle4 hreads4 hshown (fun j hj => (own_of_update hreq hj).1) (by simpa using hempty) herr
      (fun w' => herr _ _) fun x v r w5 hr hedited => ?_
    refine ensures_orRaise (fun _ => herr _ _) fun updated _ => ?_
    refine recordEach_edited herr (fun w6 h6 => ?_) _ w5 hedited
    split
    · exact endSessions_closes hreq h6 fun w' => hk _ w'
    · rename_i hnone
      refine fun w7 hev hL hI hA _ => ⟨secures_commit hI ((h6.evolves hev).secures ?_), hk _ _⟩
      cases hr
      cases newPasswordHash with
      | none => rfl
      | some hash => exact absurd rfl hnone

theorem update_secures (hidle : Idle t w) :
    (securing reqs).Ensures t ((Access.update staffId patch acting actor).code cfg) (fun _ _ => True) w := by
  refine ensures_first ?_
  cases normalizePhone patch.phone with
  | error e => exact trivial
  | ok storedPhone =>
    have hrest : ∀ newPasswordHash w', newPasswordHash.isSome = patch.password.isSome → Idle t w' →
        (securing reqs).Ensures t ((tenantSession fun txNow =>
          updateIn staffId patch storedPhone newPasswordHash acting actor txNow : Prg Response) >>= fun response =>
            (return .staff response : Prg Answer)) (fun _ _ => True) w' := fun newPasswordHash w' hhash hidle' =>
      ensures_tenantSession securing_historic fun w1 n hev _ _ =>
        updateIn_closes hreq hhash (hev.db.pending.trans hidle') fun _ _ => trivial
    refine ensures_first ?_
    cases hpassword : patch.password with
    | none => exact hrest none w (by rw [hpassword]) hidle
    | some password =>
      refine ensures_first (Session.ensures_ask securing_historic rfl fun w1 x n hev _ _ _ => ?_)
      exact hrest _ _ (by rw [hpassword]; rfl) (hev.db.pending.trans hidle)

end Update

theorem within_resolveSessionIn (token : String) (n : Int) : Within (Among []) false
    ((fun _ => resolveSessionIn cfg token) n) := by
  refine Steady.within (steady_clock.bind fun now => ?_)
  refine ((steady_query _ _).bind fun rows => steady_scalarOneOrNone rows).bind fun row => ?_
  cases row with
  | none => exact steady_ret _
  | some s => exact (steady_query _ _).bind fun staff => steady_ret _

theorem access_secures (hidle : Idle t w) :
    (securing reqs).Ensures t ((reqs t).code cfg) (fun _ _ => True) w := by
  cases hreq : reqs t with
  | login email password => exact login_secures (by rw [hreq]; rfl) hidle
  | update staffId patch acting actor => exact update_secures hreq hidle
  | resetOwnerPassword ownerEmail newPassword => exact reset_secures hreq hidle
  | deactivate staffId lastDay actor => exact deactivate_secures (by rw [hreq]; rfl) hidle
  | resolveSession token =>
    exact sober_session (by decide) (by decide) (by decide) (by decide) (changing_hash.mono (by simp)) (by rw [hreq]; rfl)
      (within_resolveSessionIn token) hidle (fun _ _ => trivial) fun _ _ _ => trivial

/-! ### The answer to a cookie -/

/-- **A session with the token was live, and then its account**, in versions from `L` on. -/
def Resolved (L : Nat) (tokenHash : String) (i : Nat) (e : Engine schema) : Prop :=
  ∃ n, L ≤ n ∧ n ≤ e.log.length ∧ (∃ k, ∃ s : StaffSession, e.version n .sessions k = some s ∧ s.tokenHash = tokenHash ∧
    s.staffUserId = i ∧ s.deletedAt = none) ∧
    Saw Table.staffUsers i n (fun x => ∃ v : StaffUser, x = some v ∧ v.deletedAt = none) e

theorem lasts_resolved {L : Nat} {tokenHash : String} : Lasts (Resolved L tokenHash i) := by
  rintro e e' hl hv ⟨n, hLn, hn, hsession, hsaw⟩
  exact ⟨n, hLn, Nat.le_trans hn hl.length_le, by rw [hv n hn]; exact hsession, lasts_saw e e' hl hv hsaw⟩

abbrev watching (reqs : Tid → Access) : Contract accounts.shared outside Err where
  Inv _ := True
  Assume := Unstraddled reqs
  crash_inv _ _ _ h := h
  tick_inv _ _ _ h := h

theorem watching_historic (calm : Ask → Bool) : (watching reqs).Historic calm := ⟨fun _ _ _ _ _ h => h, fun _ _ _ _ _ _ h => h⟩

def Vouched (cfg : AuthConfig) (token : String) (L : Nat) (x : Except Err Answer) (e : Engine schema) : Prop :=
  ∀ context, x = .ok (.resolved (some context)) → Resolved L (cfg.hashToken token) context.id e

theorem resolveSession_vouched {token : String} {L : Nat} (hpast : L ≤ w.db.log.length) (hidle : Idle t w) :
    (watching reqs).Ensures t (Staff.resolveSession cfg token) (fun x w' => Vouched cfg token L x w'.db) w := by
  have hC : (watching reqs).Historic fun _ => true := watching_historic _
  have herr : ∀ e (w' : World schema outside), Closes (watching reqs) t (fun context => (return .resolved context :
      Prg Answer)) (fun x w' => Vouched cfg token L x w'.db) (.error e) w' := fun e w' _ _ _ context hx => by cases hx
  have hclose : ∀ context (w' : World schema outside), (∀ c, context = some c → Resolved L (cfg.hashToken token) c.id w'.db) →
      Closes (watching reqs) t (fun context => (return .resolved context : Prg Answer))
        (fun x w' => Vouched cfg token L x w'.db) (.ok context) w' := by
    intro context w' h w1 hev _ _ _ _
    refine ⟨trivial, fun c hc => ?_⟩
    cases hc
    exact lasts_resolved.commit (lasts_resolved.evolves hev.db (h c rfl))
  refine ensures_tenantSession hC fun w1 n hev1 _ _ => Session.ensures_now hC fun w2 hev2 _ _ => ?_
  have hidle2 : Idle t w2 := hev2.db.pending.trans (hev1.db.pending.trans hidle)
  have hpast2 : L ≤ w2.db.log.length := hpast.trans (hev1.db.log_le.trans hev2.db.log_le)
  refine ensures_first (ensures_select hC fun w3 hev3 hL3 _ _ _ => ensures_scalar (herr _ _) fun row hrow => ?_)
  have hidle3 : Idle t w3 := hev3.db.pending.trans hidle2
  cases row with
  | none => exact hclose none _ fun c hc => by cases hc
  | some s =>
    obtain ⟨hmem, hmatch⟩ := List.mem_filter.1 (hrow s rfl)
    obtain ⟨k, -, hs⟩ := Snapshot.mem_all.1 hmem
    rw [Engine.view_idle hidle3] at hs
    obtain ⟨htoken, hlive, -⟩ := of_decide_eq_true hmatch
    refine ensures_select hC fun w4 hev4 hL4 _ _ _ => hclose _ _ fun context hcontext => ?_
    have hidle4 : Idle t w4 := hev4.db.pending.trans hidle3
    obtain ⟨r, hr, rfl⟩ := Option.map_eq_some_iff.1 hcontext
    obtain ⟨hr, hhere⟩ := Option.filter_eq_some_iff.1 hr
    rw [Engine.view_idle hidle4] at hr
    have hid : StaffUser.id r = s.staffUserId := hL4.rows.id _ _ _ hr
    refine ⟨w3.db.log.length, hpast2.trans hev3.db.log_le, hev4.db.log_le, ⟨k, s, ?_, htoken, hid.symm, hlive⟩, ?_⟩
    · have hversion : w4.db.version w3.db.log.length = w3.db.committed :=
        (hev4.db.version w3.db.log.length (Nat.le_refl _)).trans (Engine.version_length (e := w3.db.look t))
      rw [Engine.look_version, hversion]
      exact hs
    · refine saw_committed (e := w4.db.look t) hev4.db.log_le ⟨r, ?_, by simpa [StaffUser.live] using hhere⟩
      rw [Engine.look_committed, show StaffContext.id r.toContext = s.staffUserId from hid]
      exact hr

end Programs

/-! ## Every run -/

theorem accessing_obeyed (h : Shelved rows next) : Cast.Obeyed accounts.shared (accessing cfg reqs out rows next clock) :=
  staged_obeyed h legal_accounts

theorem run_secures (h : Shelved rows next)
    (hr : Conf.Steps (Unstraddled reqs) (accessing cfg reqs out rows next clock) c) :
    ∀ d ∈ c.state.db.log, Secures (reqs d.by_) c.state.out.looks d := by
  have hsafe : ∀ u p, (accessing cfg reqs out rows next clock).threads u = some p →
      (securing reqs).logic.Safe u p (fun _ _ => True) (accessing cfg reqs out rows next clock).state := by
    intro u p hp
    cases hp
    exact safe_of_ensures (access_secures rfl) fun _ _ _ _ _ _ _ => trivial
  obtain ⟨hsound, -⟩ := (securing reqs).runs (Q := fun _ _ _ => True) (accessing_obeyed h)
    (fun d hd => by cases hd) hsafe hr
  exact hsound.inv.2

/-- **A session that may resolve**: it was live in a version from `L` on, for every reset before that version it is the acting
session or verified a hash that has stood since, and its account had not been deactivated at `L`. -/
def Entitled (reqs : Tid → Access) (L : Nat) (tokenHash : String) (i : Nat) (e : Engine schema) : Prop :=
  ∃ n, L ≤ n ∧ n ≤ e.log.length ∧ (∃ k, ∃ s : StaffSession, e.version n .sessions k = some s ∧ s.tokenHash = tokenHash ∧
    s.staffUserId = i ∧ s.deletedAt = none ∧ ∀ m d, m < n → e.log[m]? = some d → Rehashes d.before d.writes i →
      (reqs d.by_).acts i tokenHash = true ∨
        ∃ n', m < n' ∧ n' ≤ n ∧ ∃ v : StaffUser, e.version n' .staffUsers i = some v ∧ v.passwordHash = s.verified) ∧
    ∀ m, m ≤ L → ∀ v : StaffUser, e.version m .staffUsers i = some v → v.deletedAt = none

/-- **A reset ends what the old password opened**: in every run in which no reset is straddled, a token that resolves for a
request that began in any state `c₀` is of a session that is entitled to; and every change of one's own password replaced the
hash that the current one was verified against. -/
theorem reset_ends (h : Shelved rows next) {token : String} (hrequest : reqs t = .resolveSession token)
    {c₀ : Conf (machine schema outside Err) Answer}
    (h₀ : Conf.Steps (fun u o w x w' => u ≠ t ∧ Unstraddled reqs u o w x w')
      (accessing cfg reqs out rows next clock) c₀)
    (hr : Conf.Steps (Unstraddled reqs) c₀ c) :
    (∀ context, c.threads t = some (.ret (.resolved (some context))) →
      Entitled reqs c₀.state.db.log.length (cfg.hashToken token) context.id c.state.db) ∧
    ∀ d ∈ c.state.db.log, ∀ i ∈ (reqs d.by_).ownPassword, ∀ r : StaffUser, d.writes .staffUsers i = some r →
      ∃ v : StaffUser, d.before .staffUsers i = some v ∧ Proves (reqs d.by_) d.by_ c.state.out.looks v.passwordHash := by
  have hob : Cast.Obeyed accounts.shared (accessing cfg reqs out rows next clock) := accessing_obeyed h
  have hwhole : Conf.Steps (Unstraddled reqs) (accessing cfg reqs out rows next clock) c :=
    (h₀.mono fun _ _ _ _ _ hA => hA.2).trans hr
  have hsecures := run_secures h hwhole
  refine ⟨fun context hcontext => ?_, fun d hd => (hsecures d hd).checked⟩
  obtain ⟨hidle, hcode⟩ := hob.unbegun ⟨rfl⟩ h₀
  have hL := (hob.steps hwhole).1.lawful
  obtain ⟨hfinished, -⟩ := (watching reqs).follows (Q := fun x w' => Vouched cfg token c₀.state.db.log.length x w'.db)
    (hob.steps h₀).1 trivial (fun u p _ _ => safe_of_free (watching_historic _) (fun _ _ _ _ _ => trivial)
      (fun _ _ _ _ => trivial) fun _ _ => trivial) (fun p hp => by
      cases hcode p hp
      change (watching reqs).logic.Safe t ((reqs t).code cfg) _ _
      rw [hrequest]
      refine safe_of_ensures (resolveSession_vouched (Nat.le_refl _) hidle.pending) fun x w w' hvouched hev _ _ context hx => ?_
      exact lasts_resolved.evolves hev.db (hvouched context hx)) hr
  obtain ⟨n, hLn, hn, ⟨k, s, hs, htoken, hi, hlive⟩, n', hnn', hn', v, hv, hhere⟩ := hfinished _ hcontext context rfl
  refine ⟨n, hLn, hn, ⟨k, s, hs, htoken, hi, hlive, fun m d hmn hd hrehash => ?_⟩, fun m hm u hu => ?_⟩
  · rw [← htoken]
    exact session_since hL hsecures hd hrehash hmn hn hs hi hlive
  · exact here_before hL (hm.trans (hLn.trans hnn')) hn' hv hhere hu

/-! ## A login, straddled by a reset -/

def authConfig : AuthConfig := ⟨plainConfig, id, 3600, "dummy"⟩

def oneOwner : (T : Table) → List (Row T)
  | .staffUsers => [
    (⟨0, 0, none, "a@shop", "first", "Noa", .owner, none, none, none, none, false, none, none, none, none, none, none⟩ : StaffUser)]
  | _ => []

theorem oneOwner_shelved : Shelved (listed (S := schema) oneOwner) 1 :=
  shelved_of_stocked [.staffUsers, .sessions, .sosAlerts, .auditLog, .notifications] (fun T => by cases T <;> decide)
    (by decide)

/-- A login of hers, the operator's reset, and the request of a cookie. -/
def loginAndReset : Tid → Access
  | 0 => .login "a@shop" "her password"
  | 1 => .resetOwnerPassword "a@shop" "another one"
  | _ => .resolveSession ""

abbrev resetting : Conf (machine schema outside Err) Answer :=
  accessing authConfig loginAndReset emptyStore (listed (S := schema) oneOwner) 1 0

def outlived (e : Engine schema) : Prop :=
  ∀ n, n ≤ e.log.length → (∀ k, k < e.next → ∀ s : StaffSession, s ∈ e.version n Table.sessions k → s.verified = "first") ∧
    (0 < n → ∀ v : StaffUser, v ∈ e.version n Table.staffUsers 0 → v.passwordHash = "")

instance (e : Engine schema) : Decidable (outlived e) := by
  unfold outlived
  infer_instance

def resetFirst (e : Engine schema) : Bool :=
  e.log[0]?.any fun d => decide (d.by_ = 1 ∧ Rehashes d.before d.writes 0)

def contextOf : Option Answer → Option (Nat × Bool)
  | some (.resolved (some context)) => some (context.id, context.role = .owner)
  | _ => none

theorem resolved_of_context {b : Bool} (h : contextOf (c.reply t) = some (i, b)) :
    ∃ context, c.threads t = some (.ret (.resolved (some context))) ∧ context.id = i := by
  cases hanswer : c.reply t with
  | none =>
    rw [hanswer] at h
    cases h
  | some answer =>
    rw [hanswer] at h
    cases answer with
    | resolved context =>
      cases context with
      | none => cases h
      | some context =>
        simp only [contextOf, Option.some.injEq, Prod.mk.injEq] at h
        exact ⟨context, Conf.reply_eq_some.1 hanswer, h.1⟩
    | loggedIn | staff | command => cases h

/-- **The reset commits while the login verifies**: both have been answered, and her cookie still resolves to a session that
verified the first hash. -/
theorem reset_outlived : ∃ c₀ c, Conf.Reaches resetting c₀ ∧ c₀.returned 0 = true ∧ c₀.returned 1 = true ∧
    Conf.Reaches c₀ c ∧ (∃ context, c.threads 2 = some (.ret (.resolved (some context))) ∧ context.id = 0) ∧
    ¬Entitled loginAndReset c₀.state.db.log.length "" 0 c.state.db := by
  obtain ⟨c₀, c, h0, hc, hP⟩ := Conf.reached_of_plays (A := fun _ _ _ _ _ => True) (B := fun _ _ _ _ _ => True) resetting
    (answered 0 3 ++ answered 1 6 ++ answered 0 4) (answered 2 5)
    (fun c₀ c => decide (c₀.returned 0 = true ∧ c₀.returned 1 = true ∧ 0 < c₀.state.db.log.length ∧
      contextOf (c.reply 2) = some (0, true) ∧ resetFirst c.state.db = true ∧ outlived c.state.db)) (by decide)
  obtain ⟨hlogin, hreset, hpast, hreply, hfirst, houtlived⟩ := of_decide_eq_true hP
  have hL := ((accessing_obeyed oneOwner_shelved).steps (h0.trans hc)).1.lawful
  refine ⟨c₀, c, h0, hlogin, hreset, hc, ?_, ?_⟩
  · exact resolved_of_context hreply
  · rintro ⟨n, hn, hlen, ⟨k, s, hs, -, -, -, hsince⟩, -⟩
    unfold resetFirst at hfirst
    cases hlog : c.state.db.log[0]? with
    | none =>
      rw [hlog] at hfirst
      cases hfirst
    | some d =>
      rw [hlog] at hfirst
      obtain ⟨hby, hrehash⟩ := of_decide_eq_true hfirst
      obtain ⟨hverified, -⟩ := houtlived n hlen
      rcases hsince 0 d (by omega) hlog hrehash with hacts | ⟨n', hpos, hn', v, hv, hhash⟩
      · rw [hby] at hacts
        cases hacts
      · obtain ⟨-, hstands⟩ := houtlived n' (hn'.trans hlen)
        rw [hverified k (hL.version_lt hlen hs) s hs, hstands hpos v hv] at hhash
        exact absurd hhash (by decide)

/-- The login begins after the reset, and opens a session that is entitled. -/
theorem reset_ends_once : ∃ c₀ c, Conf.Steps (Unstraddled loginAndReset) resetting c₀ ∧
    Conf.Steps (Unstraddled loginAndReset) c₀ c ∧ Entitled loginAndReset c₀.state.db.log.length "" 0 c.state.db := by
  obtain ⟨c₀, c, h0, hc, hP⟩ := Conf.reached_of_plays (A := fun u o w x w' => u ≠ 2 ∧ Unstraddled loginAndReset u o w x w')
    (B := Unstraddled loginAndReset) resetting (answered 1 6 ++ answered 0 7) (answered 2 5)
    (fun _ c => decide (contextOf (c.reply 2) = some (0, true))) (by decide)
  refine ⟨c₀, c, h0.mono fun _ _ _ _ _ hA => hA.2, hc, ?_⟩
  have hreply := of_decide_eq_true hP
  have hrequest : loginAndReset 2 = .resolveSession "" := rfl
  obtain ⟨hentitled, -⟩ := reset_ends oneOwner_shelved hrequest h0 hc
  obtain ⟨context, hcontext, hid⟩ := resolved_of_context hreply
  have hthis := hentitled context hcontext
  rwa [hid] at hthis

end Staff
