import Boutique.Attempts
/-!
# Proofs — what a verification token authorizes

Every commit of a request is a deed: it leaves the tokens alone, mints one on an unconsumed row, or burns one beside the
booking it authorizes.  Tokens are told apart by the thread they were generated for, so a token stands on one row.
-/
namespace Otp

open Txn Session Contract

variable {devCode : Option Secret}

/-! ## Deeds -/

def Plain (before : Option OtpCode) (r : OtpCode) : Prop :=
  (∃ v, before = some v ∧ r.phone = v.phone ∧ r.consumedAt = v.consumedAt ∧
    r.verificationTokenHash = v.verificationTokenHash ∧ r.verificationConsumedAt = v.verificationConsumedAt) ∨
    before = none ∧ r.verificationTokenHash = none

def OtpCode.minted (v : OtpCode) (attempts : Nat) (token : Secret) (at_ expiresAt : Int) : OtpCode :=
  { v with
    attempts := attempts
    consumedAt := some at_
    verificationTokenHash := some (hashToken token)
    verificationExpiresAt := some expiresAt }

def OtpCode.burnt (v : OtpCode) (at_ : Int) : OtpCode := { v with verificationConsumedAt := some at_ }

inductive Deed (G : Tid → Int → Prop) (req : Request) (t : Tid) (before writes : Rows schema) : Prop
  | plain (verb : ∀ phone token, req ≠ .create phone token)
      (codes : ∀ i (r : OtpCode), writes .otpCodes i = some r → Plain (before .otpCodes i) r)
      (bookings : ∀ i, writes .bookings i = none)
  | minted {phone : String} {code : Secret} {i n a : Nat} {v : OtpCode} {at_ x : Int} (verb : req = .verify phone code)
      (found : before .otpCodes i = some v) (owner : v.phone = phone) (unconsumed : v.consumedAt = none)
      (wrote : writes = nothing.set .otpCodes i (v.minted a (.session t n) at_ x))
  | burnt {phone : String} {token : Secret} {i k : Nat} {v : OtpCode} {now at_ : Int}
      (verb : req = .create phone token) (found : before .otpCodes i = some v)
      (proof : v.proves phone (hashToken token) now = true) (read : G t now) (early : at_ ≤ now)
      (wrote : writes = (nothing.set .otpCodes i (v.burnt at_)).set .bookings k (⟨k, at_, phone⟩ : Booking))

def deeds (G : Tid → Int → Prop) (reqs : Tid → Request) : Ledger schema where
  Holds e m d := Deed G (reqs d.by_) d.by_ d.before d.writes ∧
    ∀ k < m, ∀ d', e.log[k]? = some d' → d'.by_ ≠ d.by_
  stable e e' m d hd hlog _ h := by
    refine ⟨h.1, fun k hk d' hd' => h.2 k hk d' ?_⟩
    obtain ⟨l, hl⟩ := hlog
    rw [← hl, List.getElem?_append_left (by have := (List.getElem?_eq_some_iff.1 hd).1; omega)] at hd'
    exact hd'

variable {G : Tid → Int → Prop} {reqs : Tid → Request} {t : Tid} {e e' : Engine schema}
  {w w' : World schema (outside devCode)} {β : Type}
  {Q : Except Err β → World schema (outside devCode) → Prop}

/-- The raises find their rows, and `G` knows the instants that are read. -/
def Reading (G : Tid → Int → Prop) : (machine schema (outside devCode) Err).Assumption := fun t o w r w' =>
  Found t o w r w' ∧ Readings G t o w r w'

abbrev issuing (devCode : Option Secret) (G : Tid → Int → Prop) (reqs : Tid → Request) :
    Contract aging.shared (outside devCode) Err :=
  (deeds G reqs).contract aging.shared (Reading G)

theorem issuing_historic : (issuing devCode G reqs).Historic fun _ => true := Ledger.historic _

structure Writing (t : Tid) (writes : Rows schema) (e : Engine schema) : Prop where
  pending : e.pending t = writes
  mine : e.own t = []

variable {writes : Rows schema} {phone : String} {i : Nat} {v r : OtpCode} {token : Secret}

theorem Writing.evolves (h : Writing t writes e) (hev : e.Evolves aging.shared t e') :
    Writing t writes e' := ⟨hev.pending.trans h.pending, hev.since.own.trans h.mine⟩

theorem Writing.congr (h : Writing t writes e) (hp : e'.pending = e.pending) (hl : e'.log = e.log) :
    Writing t writes e' := ⟨by rw [hp]; exact h.pending, (own_congr hl t).trans h.mine⟩

theorem issuing_commit (h : Writing t writes w.db) (hI : (issuing devCode G reqs).Inv w)
    (hdeed : Deed G (reqs t) t w.db.committed writes) :
    (issuing devCode G reqs).Inv ⟨w.db.commit t, w.out⟩ := by
  refine Ledger.inv_commit hI ⟨?_, fun k hk d hd hby => ?_⟩
  · show Deed G (reqs t) t w.db.committed (w.db.pending t)
    rw [h.pending]
    exact hdeed
  · have hd' : w.db.log[k]? = some d := by
      rw [← hd]
      exact (List.getElem?_append_left hk).symm
    have hmem : d ∈ w.db.own t := List.mem_filter.2 ⟨List.mem_of_getElem? hd', by simpa [Engine.entry] using hby⟩
    rw [h.mine] at hmem
    cases hmem

def Known (phone : String) (i : Nat) (e : Engine schema) : Prop :=
  ∃ v : OtpCode, e.committed .otpCodes i = some v ∧ v.phone = phone

theorem Known.evolves (h : Known phone i e) (hev : e.Evolves aging.shared t e') : Known phone i e' := by
  obtain ⟨v, hv, hphone⟩ := h
  have hrow := hev.rows Table.otpCodes i
  rw [hv] at hrow
  obtain ⟨r, hr, hages⟩ := hrow.some_left
  have hages' : Ages v r := hages
  exact ⟨r, hr, hages'.phone.trans hphone⟩

structure Marked (t : Tid) (e : Engine schema) : Prop where
  codes : ∀ i (r : OtpCode), e.pending t .otpCodes i = some r → Plain (e.committed .otpCodes i) r
  bookings : ∀ i, e.pending t .bookings i = none
  mine : e.own t = []

theorem Marked.evolves (h : Marked t e) (hev : e.Evolves aging.shared t e') : Marked t e' := by
  refine ⟨fun i r hr => ?_, fun i => ?_, hev.since.own.trans h.mine⟩
  · rw [hev.pending] at hr
    rw [hev.owned _ i r hr]
    exact h.codes i r hr
  · rw [hev.pending]
    exact h.bookings i

theorem Marked.congr (h : Marked t e) (hp : e'.pending = e.pending) (hc : e'.committed = e.committed)
    (hl : e'.log = e.log) : Marked t e' :=
  ⟨by rw [hp, hc]; exact h.codes, by rw [hp]; exact h.bookings, (own_congr hl t).trans h.mine⟩

theorem Writing.marked (h : Writing t nothing e) : Marked t e := by
  refine ⟨fun i r hr => ?_, fun i => ?_, h.mine⟩
  · rw [h.pending] at hr
    cases hr
  · rw [h.pending]
    rfl

theorem Marked.write (h : Marked t e) (hv : e.view t .otpCodes i = some v)
    (hkeep : r.phone = v.phone ∧ r.consumedAt = v.consumedAt ∧ r.verificationTokenHash = v.verificationTokenHash ∧
      r.verificationConsumedAt = v.verificationConsumedAt) : Marked t (e.write t Table.otpCodes i r) := by
  obtain ⟨h1, h2, h3, h4⟩ := hkeep
  refine ⟨fun j r' hr' => ?_, fun j => ?_, h.mine⟩
  · by_cases hj : j = i
    · subst hj
      have hrr : r = r' := by simpa [Engine.write] using hr'
      subst hrr
      cases hp : e.pending t .otpCodes j with
      | none =>
        rw [Engine.view, Rows.over_none hp] at hv
        exact .inl ⟨v, hv, h1, h2, h3, h4⟩
      | some r0 =>
        rw [Engine.view_pending hp] at hv
        cases hv
        rcases h.codes j v hp with ⟨v0, hv0, k1, k2, k3, k4⟩ | ⟨hnew, hnone⟩
        · exact .inl ⟨v0, hv0, h1.trans k1, h2.trans k2, h3.trans k3, h4.trans k4⟩
        · exact .inr ⟨hnew, h3.trans hnone⟩
    · refine h.codes j r' ?_
      rw [← hr']
      simp [Engine.write, Rows.set_row hj]
  · rw [← h.bookings j]
    simp [Engine.write, Rows.set_table]

theorem Marked.insert (h : Marked t e) (hL : e.Lawful aging.shared) (hr : r.verificationTokenHash = none) :
    Marked t (inserted e t Table.otpCodes r) := by
  have hnew : e.committed .otpCodes e.next = none := by
    cases hc : e.committed .otpCodes e.next with
    | none => rfl
    | some v => exact absurd (hL.committed_lt _ _ _ hc) (Nat.lt_irrefl _)
  refine ⟨fun j r' hr' => ?_, fun j => ?_, h.mine⟩
  · by_cases hj : j = e.next
    · subst hj
      have hrr : stamp .otpCodes e.next (e.started t) r = r' := by
        simpa [Session.inserted, Engine.write] using hr'
      subst hrr
      exact .inr ⟨hnew, hr⟩
    · refine h.codes j r' ?_
      rw [← hr']
      simp [Session.inserted, Engine.write, Rows.set_row hj]
  · rw [← h.bookings j]
    simp [Session.inserted, Engine.write, Rows.set_table]

theorem Marked.closes {α : Type} {a : α} {k : α → Prg devCode β} (h : Marked t w.db)
    (hverb : ∀ phone token, reqs t ≠ .create phone token)
    (hk : ∀ w', (issuing devCode G reqs).Ensures t (k a) Q w') :
    Closes (issuing devCode G reqs) t k Q (.ok a) w := by
  intro w1 hev hL hI _ _
  have h1 := h.evolves hev.db
  exact ⟨issuing_commit ⟨rfl, h1.mine⟩ hI (.plain hverb h1.codes h1.bookings), hk _⟩

def Mints (d : Commit schema) (i : Nat) (token : Secret) : Prop :=
  ∃ v r : OtpCode, d.before .otpCodes i = some v ∧ v.consumedAt = none ∧ d.writes .otpCodes i = some r ∧
    r.consumedAt ≠ none ∧ r.verificationTokenHash = some (hashToken token)

def Promised (t : Tid) : Except Err Response → World schema (outside devCode) → Prop
  | .ok (.verified token _), w => ∃ d ∈ w.db.log, d.by_ = t ∧ ∃ i, Mints d i token
  | _, _ => True

/-! ## The requests -/

theorem send_ensures (hverb : reqs t = .send phone) (h : Writing t nothing w.db) :
    (issuing devCode G reqs).Ensures t (OtpService.send phone) (Promised t) w := by
  have hnot : ∀ phone' token, reqs t ≠ .create phone' token := by
    intro phone' token
    rw [hverb]
    nofun
  unfold OtpService.send
  refine ensures_ask issuing_historic rfl fun w1 _ _ hev1 _ _ _ => ensures_raiseIf (fun _ => trivial) fun _ => ?_
  refine ensures_ask issuing_historic rfl fun w2 _ _ hev2 _ _ _ => ensures_raiseIf (fun _ => trivial) fun _ => ?_
  refine ensures_ask issuing_historic rfl fun w3 _ _ hev3 _ _ _ => ?_
  split
  · trivial
  refine ensures_ask issuing_historic rfl fun w4 _ _ hev4 _ _ _ => ?_
  split
  · trivial
  refine ensures_ask issuing_historic rfl fun w5 _ _ hev5 _ _ _ => ?_
  refine Session.ensures_now issuing_historic fun w6 hev6 _ _ => ?_
  have h6 : Marked t w6.db :=
    ((((((h.evolves hev1.db).evolves hev2.db).evolves hev3.db).evolves hev4.db).evolves hev5.db).evolves hev6.db).marked
  refine ensures_tenantSession issuing_historic fun w7 n hev7 _ _ => ?_
  have h7 : Marked t ({ w7.db with started := Function.update w7.db.started t n } : Engine schema) :=
    (h6.evolves hev7.db).congr rfl rfl rfl
  refine ensures_last (ensures_first (ensures_first (ensures_select issuing_historic fun w8 hev8 _ _ _ _ => ?_)))
  refine ensures_first (ensures_updateRows issuing_historic (fun _ w => Marked t w.db) (fun _ _ _ hev _ _ h => h.evolves hev.db)
    (fun _ w' i v r h' _ hv hr => h'.write hv ?_) (fun _ w' h' => ?_) ((h7.evolves hev8.db).congr rfl rfl rfl)
    fun rows w9 h9 => ?_)
  · have hr' : OtpCodeChange.apply v (.softDeleteActive phone n) = some r := hr
    simp only [OtpCodeChange.apply] at hr'
    split at hr' <;> cases hr'
    exact ⟨rfl, rfl, rfl, rfl⟩
  · exact fun w1 _ _ => trivial
  · refine ensures_insert issuing_historic (fun _ _ _ _ _ => fun w1 _ _ => trivial) fun w10 hev10 hL10 _ _ => ?_
    refine ((h9.evolves hev10.db).insert hL10 rfl).closes hnot fun w' => ?_
    refine ensures_ask issuing_historic rfl fun w11 _ _ _ _ _ _ => ensures_raiseIf (fun _ => trivial) fun _ => trivial

theorem known_of_latest {row : OtpCode} (hL : e.Lawful aging.shared) (h : Writing t nothing e)
    (hrow : latestBy OtpCode.createdAt ((Snapshot.all ⟨e.view t, e.next⟩ .otpCodes).filter fun (r : OtpCode) =>
      r.active phone) = some row) : Known phone row.id e := by
  have hmem := List.mem_filter.1 (latestBy_mem hrow)
  obtain ⟨i, -, hi⟩ := Snapshot.mem_all.1 hmem.1
  have hc : e.committed .otpCodes i = some row := by rwa [Engine.view_idle h.pending] at hi
  have hid : row.id = i := hL.rows.id _ _ _ hc
  have hactive := hmem.2
  simp only [OtpCode.active, decide_eq_true_eq] at hactive
  rw [hid.symm] at hc
  exact ⟨row, hc, hactive.1⟩

/-- The verification has read row `i`, and at most raised its counter. -/
structure Bumped (phone : String) (t : Tid) (i : Nat) (e : Engine schema) : Prop where
  mine : e.own t = []
  known : Known phone i e
  pending : e.pending t = nothing ∨ ∃ (v : OtpCode) (a : Nat), e.committed .otpCodes i = some v ∧
    e.pending t = nothing.set .otpCodes i ({ v with attempts := a } : OtpCode)

structure Minting (phone : String) (t : Tid) (i : Nat) (token : Secret) (e : Engine schema) : Prop where
  mine : e.own t = []
  row : ∃ (v : OtpCode) (a : Nat) (at_ x : Int), e.committed .otpCodes i = some v ∧ v.phone = phone ∧ v.consumedAt = none ∧
    e.pending t = nothing.set .otpCodes i (v.minted a token at_ x)

theorem Bumped.evolves (h : Bumped phone t i e) (hev : e.Evolves aging.shared t e') : Bumped phone t i e' := by
  refine ⟨hev.since.own.trans h.mine, h.known.evolves hev, h.pending.imp hev.pending.trans fun ⟨v, a, hv, hp⟩ => ?_⟩
  refine ⟨v, a, ?_, hev.pending.trans hp⟩
  rw [hev.owned _ i _ (by rw [hp]; exact Rows.set_same)]
  exact hv

theorem Bumped.marked (h : Bumped phone t i e) : Marked t e := by
  rcases h.pending with hp | ⟨v, a, hv, hp⟩
  · exact Writing.marked ⟨hp, h.mine⟩
  · refine ⟨fun j r hr => ?_, fun j => ?_, h.mine⟩
    · rw [hp] at hr
      by_cases hj : j = i
      · subst hj
        rw [Rows.set_same] at hr
        cases hr
        exact .inl ⟨v, hv, rfl, rfl, rfl, rfl⟩
      · rw [Rows.set_row hj] at hr
        cases hr
    · rw [hp, Rows.set_table (by decide)]
      rfl

theorem Minting.evolves (h : Minting phone t i token e) (hev : e.Evolves aging.shared t e') :
    Minting phone t i token e' := by
  obtain ⟨v, a, at_, x, hv, hphone, hnone, hp⟩ := h.row
  refine ⟨hev.since.own.trans h.mine, v, a, at_, x, ?_, hphone, hnone, hev.pending.trans hp⟩
  rw [hev.owned _ i _ (by rw [hp]; exact Rows.set_same)]
  exact hv

section Verify

variable {phone : String} {code : Secret}

def Decides (phone : String) (t : Tid) : Except Err OtpService.Outcome → World schema (outside devCode) → Prop
  | .ok (.failure _), w => Marked t w.db
  | .ok (.result token _), w => ∃ n i, token = .session t n ∧ Minting phone t i token w.db
  | .error _, _ => True

theorem bump_ensures {k : Nat → Prg devCode β} (h : Writing t nothing w.db) (hknown : Known phone i w.db)
    (herr : ∀ e w', Q (.error e) w')
    (hok : ∀ n w', Bumped phone t i w'.db → (issuing devCode G reqs).Ensures t (k n) Q w') :
    (issuing devCode G reqs).Ensures t (OtpCodes.incrementAttempts i >>= k) Q w := by
  unfold OtpCodes.incrementAttempts
  refine ensures_first (ensures_update issuing_historic (fun _ _ _ _ => herr _ _) (fun w1 hev1 _ _ _ => ?_)
    fun w1 v r hev1 _ hv hr _ _ _ => ?_)
  · exact hok _ w1 ⟨(h.evolves hev1.db).mine, hknown.evolves hev1.db, .inl (h.evolves hev1.db).pending⟩
  · have h1 := h.evolves hev1.db
    have hr' : OtpCodeChange.apply v .incrementAttempts = some r := hr
    simp only [OtpCodeChange.apply] at hr'
    split at hr' <;> cases hr'
    rw [Engine.view_idle h1.pending] at hv
    have hknown1 : Known phone i w1.db := hknown.evolves hev1.db
    refine hok _ _ ⟨h1.mine, hknown1, .inr ⟨v, v.attempts + 1, hv, ?_⟩⟩
    simp [Engine.write, h1.pending]

theorem minted_of_apply {expiresAt txNow : Int}
    (h : OtpCodeChange.apply v (.markConsumed (hashToken token) expiresAt txNow) = some r) :
    v.consumedAt = none ∧ r = v.minted v.attempts token txNow expiresAt := by
  simp only [OtpCodeChange.apply] at h
  split at h
  · rename_i hfresh
    cases h
    exact ⟨hfresh.1, rfl⟩
  · cases h

theorem mint_ensures {expiresAt txNow : Int} {k : Option OtpCode → Prg devCode β} (h : Bumped phone t i w.db)
    (herr : ∀ e w', Q (.error e) w')
    (hnone : ∀ w', Bumped phone t i w'.db → (issuing devCode G reqs).Ensures t (k none) Q w')
    (hsome : ∀ r w', Minting phone t i token w'.db → (issuing devCode G reqs).Ensures t (k (some r)) Q w') :
    (issuing devCode G reqs).Ensures t (OtpCodes.markConsumed i (hashToken token) expiresAt txNow >>= k) Q w := by
  unfold OtpCodes.markConsumed
  refine ensures_first (ensures_update issuing_historic (fun _ _ _ _ => herr _ _) (fun w1 hev1 _ _ _ => ?_)
    fun w1 v' r hev1 _ hv hr _ _ _ => ?_)
  · exact hnone _ (h.evolves hev1.db)
  have h1 := h.evolves hev1.db
  have hmint : Minting phone t i token (w1.db.write t Table.otpCodes i r) := by
    obtain ⟨hfresh, rfl⟩ := minted_of_apply hr
    obtain ⟨v0, hv0, hphone⟩ := h1.known
    rcases h1.pending with hp | ⟨v, a, hv1, hp⟩
    · rw [Engine.view_idle hp, hv0] at hv
      cases hv
      exact ⟨h1.mine, v', v'.attempts, txNow, expiresAt, hv0, hphone, hfresh, by simp [Engine.write, hp]⟩
    · rw [Engine.view_pending (by rw [hp]; exact Rows.set_same)] at hv
      cases hv
      rw [hv1] at hv0
      cases hv0
      exact ⟨h1.mine, v0, a, txNow, expiresAt, hv1, hphone, hfresh, by simp [Engine.write, hp, OtpCode.minted]⟩
  refine ensures_first (ensures_select issuing_historic fun w2 hev2 _ _ _ _ => ?_)
  have h2 := hmint.evolves hev2.db
  obtain ⟨v, a, at_, x, hrow⟩ := h2.row
  have hview : w2.db.view t .otpCodes i = some (v.minted a token at_ x) :=
    Engine.view_pending (by rw [hrow.2.2.2]; exact Rows.set_same)
  dsimp only
  rw [hview]
  exact hsome _ _ ⟨h2.mine, v, a, at_, x, hrow⟩

theorem tryCode_decides {row : OtpCode} {now txNow : Int} (h : Writing t nothing w.db) (hknown : Known phone row.id w.db) :
    (issuing devCode G reqs).Ensures t (OtpService.tryCode row code now txNow) (Decides phone t) w := by
  unfold OtpService.tryCode
  refine bump_ensures h hknown (fun _ _ => trivial) fun n w1 h1 => ?_
  split
  · exact h1.marked
  split
  · exact h1.marked
  refine ensures_ask issuing_historic rfl fun w2 _ _ hev2 _ _ _ => ?_
  split
  · exact (h1.evolves hev2.db).marked
  refine ensures_ask issuing_historic rfl fun w3 _ m hev3 _ _ _ => ?_
  refine mint_ensures ((h1.evolves hev2.db).evolves hev3.db) (fun _ _ => trivial) (fun w4 h4 => h4.marked) fun r w4 h4 => ?_
  exact ⟨_, _, rfl, h4⟩

theorem verify_issues (hverb : reqs t = .verify phone code) (h : Writing t nothing w.db) :
    (issuing devCode G reqs).Ensures t (OtpService.verify phone code) (Promised t) w := by
  unfold OtpService.verify
  refine Session.ensures_now issuing_historic fun w1 hev1 _ _ => ?_
  refine ensures_ask issuing_historic rfl fun w2 _ _ hev2 _ _ _ => ensures_raiseIf (fun _ => trivial) fun _ => ?_
  refine ensures_tenantSession issuing_historic fun w3 n hev3 _ _ => ?_
  have h3 : Writing t nothing ({ w3.db with started := Function.update w3.db.started t n } : Engine schema) :=
    (((h.evolves hev1.db).evolves hev2.db).evolves hev3.db).congr rfl rfl
  have hnot : ∀ phone' token, reqs t ≠ .create phone' token := by
    intro phone' token
    rw [hverb]
    intro h
    cases h
  refine ensures_mono (Q := Decides phone t) (fun x w' hx => ?_) ?_
  · rcases x with e | ⟨e | ⟨token, expiresAt⟩⟩
    · exact fun _ _ _ => trivial
    · exact Marked.closes (w := w') hx hnot fun _ => trivial
    · obtain ⟨m, i, rfl, hmint⟩ := hx
      intro w4 hev4 _ hI _ _
      have h4 := hmint.evolves hev4.db
      obtain ⟨v, a, at_, x, hv, hphone, hfresh, hp⟩ := h4.row
      refine ⟨issuing_commit ⟨hp, h4.mine⟩ hI (.minted hverb hv hphone hfresh rfl), w4.db.entry t, ?_, rfl, i, v,
        v.minted a (.session t m) at_ x, hv, hfresh, ?_, (fun h => by cases h), rfl⟩
      · simp [Engine.commit]
      · show w4.db.pending t .otpCodes i = _
        rw [hp]
        exact Rows.set_same
  unfold OtpCodes.latestActiveByPhone
  refine ensures_select issuing_historic fun w4 hev4 hL4 _ _ _ => ?_
  have h4 := h3.evolves hev4.db
  split
  · exact h4.marked.congr rfl rfl rfl
  rename_i row hrow
  split
  · exact h4.marked.congr rfl rfl rfl
  · have hknown : Known phone row.id w4.db := known_of_latest hL4 h4 hrow
    exact tryCode_decides (h4.congr rfl rfl) hknown

end Verify

def Burning (phone : String) (token : Secret) (now at_ : Int) (t : Tid) : List OtpCode → Engine schema → Prop
  | [], e => Writing t nothing e
  | [_], e => ∃ (i : Nat) (v : OtpCode), e.committed .otpCodes i = some v ∧ v.proves phone (hashToken token) now = true ∧
      Writing t (nothing.set .otpCodes i (v.burnt at_)) e
  | _ :: _ :: _, _ => True

section Create

variable {phone : String} {token : Secret} {now at_ : Int}

theorem Burning.evolves {rs : List OtpCode} (h : Burning phone token now at_ t rs e) (hev : e.Evolves aging.shared t e') :
    Burning phone token now at_ t rs e' := by
  match rs with
  | [] => exact Writing.evolves h hev
  | [_] =>
    obtain ⟨i, v, hv, hproof, hw⟩ := h
    refine ⟨i, v, ?_, hproof, hw.evolves hev⟩
    rw [hev.owned _ i _ (by rw [hw.pending]; exact Rows.set_same)]
    exact hv
  | _ :: _ :: _ => trivial

theorem Burning.write {rs : List OtpCode} (h : Burning phone token now at_ t rs e)
    (hv : e.view t .otpCodes i = some v)
    (hr : OtpCodeChange.apply v (.consumeVerification phone (hashToken token) now at_) = some r) :
    Burning phone token now at_ t (rs ++ [r]) (e.write t Table.otpCodes i r) := by
  match rs with
  | [] =>
    have h : Writing t nothing e := h
    rw [Engine.view_idle h.pending] at hv
    simp only [OtpCodeChange.apply] at hr
    split at hr
    · rename_i hproof
      cases hr
      exact ⟨i, v, hv, hproof, by simp [Engine.write, h.pending, OtpCode.burnt], h.mine⟩
    · cases hr
  | [_] => trivial
  | _ :: _ :: _ => trivial

theorem create_issues (hverb : reqs t = .create phone token) (h : Writing t nothing w.db) :
    (issuing devCode G reqs).Ensures t (create phone token) (Promised t) w := by
  unfold create
  refine ensures_last (ensures_tenantSessionAt issuing_historic fun w1 hev1 _ _ => ?_)
  have herr : ∀ e w', Closes (issuing devCode G reqs) t pure (Promised t) (.error e) w' := fun _ _ _ _ _ => trivial
  have h1 : Writing t nothing ({ w1.db with started := Function.update w1.db.started t w1.db.clock } : Engine schema) :=
    (h.evolves hev1.db).congr rfl rfl
  unfold OtpService.consumeVerification OtpCodes.consumeVerification
  refine ensures_first (ensures_reading issuing_historic fun w2 hev2 _ _ hread => ?_)
  have hearly : w1.db.clock ≤ w2.db.clock := hev2.db.clock_le
  refine ensures_first (ensures_select issuing_historic fun w3 hev3 _ _ _ _ => ?_)
  have h3 : Burning phone token w2.db.clock w1.db.clock t [] (w3.db.look t) :=
    ((h1.evolves hev2.db).evolves hev3.db).congr rfl rfl
  have hbegun : (w3.db.look t).started t = w1.db.clock := by
    show w3.db.started t = _
    rw [hev3.db.started, hev2.db.started]
    exact Function.update_self ..
  refine ensures_first (ensures_updateRows (T := Table.otpCodes) issuing_historic
    (fun rs w => Burning phone token w2.db.clock w1.db.clock t rs w.db ∧ w.db.started t = w1.db.clock)
    (fun (rs : List OtpCode) w w' hev _ _ h => ?_) (fun (rs : List OtpCode) w i v r h _ hv hr => ?_) (fun _ _ _ => herr _ _)
    ⟨h3, hbegun⟩ fun (rs : List OtpCode) w4 h4 => ?_)
  · exact ⟨Burning.evolves h.1 hev.db, hev.db.started.trans h.2⟩
  · exact ⟨Burning.write h.1 hv hr, h.2⟩
  match rs with
  | [] => exact herr _ _
  | _ :: _ :: _ => exact herr _ _
  | [_] =>
    obtain ⟨⟨i, v, hv, hproof, hw⟩, hstarted⟩ := h4
    refine ensures_raiseIf (fun _ => herr _ _) fun _ => ensures_ask issuing_historic rfl fun w5 _ _ hev5 _ _ _ => ?_
    have hw5 := hw.evolves hev5.db
    have hv5 : w5.db.committed .otpCodes i = some v := by
      rw [hev5.db.owned _ i _ (by rw [hw.pending]; exact Rows.set_same)]
      exact hv
    refine ensures_raiseIf (fun _ => herr _ _) fun _ => ?_
    refine ensures_insert issuing_historic (fun _ _ _ _ _ => herr _ _) fun w6 hev6 _ _ _ => ?_
    have hw6 := hw5.evolves hev6.db
    intro w7 hev7 _ hI _ _
    have hpending : w7.db.pending t = (nothing.set .otpCodes i (v.burnt w1.db.clock)).set .bookings w6.db.next
        (⟨w6.db.next, w1.db.clock, phone⟩ : Booking) := by
      have hstamp : w6.db.started t = w1.db.clock := hev6.db.started.trans (hev5.db.started.trans hstarted)
      have hbooked : (⟨w6.db.next, w1.db.clock, phone⟩ : Booking) = ⟨w6.db.next, w6.db.started t, phone⟩ := by rw [hstamp]
      rw [hev7.db.pending, hbooked]
      simp only [Session.inserted, Engine.write, Function.update_self, hw6.pending]
      rfl
    have hv7 : w7.db.committed .otpCodes i = some v := by
      have hrow : (inserted w6.db t Table.bookings (⟨0, 0, phone⟩ : Booking)).pending t .otpCodes i =
          some (v.burnt w1.db.clock) := by
        rw [← hev7.db.pending, hpending, Rows.set_table (by decide)]
        exact Rows.set_same
      rw [hev7.db.owned _ i _ hrow]
      show w6.db.committed .otpCodes i = some v
      rw [hev6.db.owned _ i _ (by rw [hw5.pending]; exact Rows.set_same)]
      exact hv5
    have hmine : w7.db.own t = [] := hev7.db.since.own.trans hw6.mine
    exact ⟨issuing_commit ⟨hpending, hmine⟩ hI (.burnt hverb hv7 hproof hread.2 hearly rfl), trivial⟩

end Create

end Otp
