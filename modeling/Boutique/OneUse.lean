import Boutique.Proofs
/-!
# OneUse — the budget of a code and the one use of its token, over whole runs
-/
namespace Otp

open Txn Session Contract

variable {devCode : Option Secret} {reqs : Tid → Request} {rows : Rows schema} {next : Nat} {clock : Int}
  {e : Engine schema} {G : Tid → Int → Prop}

/-- Tokens issued before the run: on consumed rows, one each, and none that the run will generate. -/
structure Issued (rows : Rows schema) : Prop where
  consumed : ∀ i (v : OtpCode), rows .otpCodes i = some v → v.verificationTokenHash ≠ none → v.consumedAt ≠ none
  given : ∀ i (v : OtpCode) d, rows .otpCodes i = some v → v.verificationTokenHash = some d →
    ∃ s, d = hashToken (.text s)
  distinct : ∀ i j (v v' : OtpCode) d, rows .otpCodes i = some v → rows .otpCodes j = some v' →
    v.verificationTokenHash = some d → v'.verificationTokenHash = some d → i = j

/-- The token is from before the run, or from one of the first `m` commits. -/
def Dated (e : Engine schema) (m : Nat) (d : Digest) : Prop :=
  (∃ s, d = hashToken (.text s)) ∨
    ∃ k < m, ∃ c : Commit schema, e.log[k]? = some c ∧ ∃ n, d = hashToken (.session c.by_ n)

/-- **Each token of version `m` stands on one row.** -/
structure Sole (e : Engine schema) (m : Nat) : Prop where
  dated : ∀ i (v : OtpCode) d, e.version m .otpCodes i = some v → v.verificationTokenHash = some d → Dated e m d
  distinct : ∀ i j (v v' : OtpCode) d, e.version m .otpCodes i = some v → e.version m .otpCodes j = some v' →
    v.verificationTokenHash = some d → v'.verificationTokenHash = some d → i = j

theorem Deed.tokens {req : Request} {t : Tid} {before writes : Rows schema} (h : Deed G req t before writes) :
    (∀ i (r : OtpCode) d, before.overlay writes .otpCodes i = some r → r.verificationTokenHash = some d →
      ∃ v : OtpCode, before .otpCodes i = some v ∧ v.verificationTokenHash = some d) ∨
    ∃ j n, ∀ i (r : OtpCode) d, before.overlay writes .otpCodes i = some r → r.verificationTokenHash = some d →
      (i ≠ j ∧ ∃ v : OtpCode, before .otpCodes i = some v ∧ v.verificationTokenHash = some d) ∨
        i = j ∧ d = hashToken (.session t n) := by
  have hkeep : ∀ i (r : OtpCode) d, writes .otpCodes i = none → before.overlay writes .otpCodes i = some r →
      r.verificationTokenHash = some d → ∃ v : OtpCode, before .otpCodes i = some v ∧ v.verificationTokenHash = some d :=
    fun i r d hw hr hd => ⟨r, by rwa [Rows.over_none hw] at hr, hd⟩
  cases h with
  | plain verb codes bookings =>
    refine .inl fun i r d hr hd => ?_
    cases hw : writes .otpCodes i with
    | none => exact hkeep i r d hw hr hd
    | some r' =>
      rw [Rows.over_some hw] at hr
      cases hr
      rcases codes i r hw with ⟨v, hv, -, -, htoken, -⟩ | ⟨-, hnone⟩
      · exact ⟨v, hv, htoken.symm.trans hd⟩
      · rw [hnone] at hd
        cases hd
  | @minted phone code j n a v at_ x verb found owner unconsumed wrote =>
    refine .inr ⟨j, n, fun i r d hr hd => ?_⟩
    subst wrote
    by_cases hi : i = j
    · subst hi
      rw [Rows.over_some Rows.set_same] at hr
      cases hr
      exact .inr ⟨rfl, (Option.some.inj hd).symm⟩
    · exact .inl ⟨hi, hkeep i r d (by rw [Rows.set_row hi]; rfl) hr hd⟩
  | @burnt phone token j k v now at_ verb found proof read early wrote =>
    refine .inl fun i r d hr hd => ?_
    subst wrote
    by_cases hi : i = j
    · subst hi
      rw [Rows.over_some (by rw [Rows.set_table (by decide)]; exact Rows.set_same)] at hr
      cases hr
      exact ⟨v, found, hd⟩
    · exact hkeep i r d (by rw [Rows.set_table (by decide), Rows.set_row hi]; rfl) hr hd

theorem sole_versions (hL : e.Lawful aging.shared)
    (hledger : ∀ m d, e.log[m]? = some d → (deeds G reqs).Holds e m d) (hissued : Issued (e.version 0)) :
    ∀ m, m ≤ e.log.length → Sole e m := by
  intro m hm
  induction m with
  | zero =>
    exact ⟨fun i v d hv hd => .inl (hissued.given i v d hv hd), hissued.distinct⟩
  | succ m ih =>
    obtain ⟨hdated, hdistinct⟩ := ih (by omega)
    obtain ⟨c, hc⟩ : ∃ c, e.log[m]? = some c := ⟨_, List.getElem?_eq_getElem (by omega)⟩
    have hbefore : e.version m = c.before := by simp [Engine.version, hc]
    have hafter : e.version (m + 1) = c.before.overlay c.writes := hL.linked m c hc
    have hlater : ∀ d, Dated e m d → Dated e (m + 1) d := by
      rintro d (hs | ⟨k, hk, hrest⟩)
      · exact .inl hs
      · exact .inr ⟨k, by omega, hrest⟩
    rw [hbefore] at hdated hdistinct
    obtain ⟨hdeed, hfirst⟩ := hledger m c hc
    rcases hdeed.tokens with hsame | ⟨j, n, hmint⟩
    · refine ⟨fun i v d hv hd => ?_, fun i i' v v' d hv hv' hd hd' => ?_⟩
      · rw [hafter] at hv
        obtain ⟨v0, hv0, hd0⟩ := hsame i v d hv hd
        exact hlater d (hdated i v0 d hv0 hd0)
      · rw [hafter] at hv hv'
        obtain ⟨v0, hv0, hd0⟩ := hsame i v d hv hd
        obtain ⟨v1, hv1, hd1⟩ := hsame i' v' d hv' hd'
        exact hdistinct i i' v0 v1 d hv0 hv1 hd0 hd1
    · -- a token of this commit's thread is on no row before it
      have hfresh : ∀ i (v : OtpCode), c.before .otpCodes i = some v →
          v.verificationTokenHash ≠ some (hashToken (.session c.by_ n)) := by
        intro i v hv hd
        rcases hdated i v _ hv hd with ⟨s, hs⟩ | ⟨k, hk, c', hc', n', hn'⟩
        · cases hs
        · simp only [hashToken, Digest.mk.injEq, Secret.session.injEq] at hn'
          exact hfirst k hk c' hc' hn'.1.symm
      refine ⟨fun i v d hv hd => ?_, fun i i' v v' d hv hv' hd hd' => ?_⟩
      · rw [hafter] at hv
        rcases hmint i v d hv hd with ⟨-, v0, hv0, hd0⟩ | ⟨-, rfl⟩
        · exact hlater d (hdated i v0 d hv0 hd0)
        · exact .inr ⟨m, Nat.lt_succ_self m, c, hc, n, rfl⟩
      · rw [hafter] at hv hv'
        rcases hmint i v d hv hd with ⟨-, v0, hv0, hd0⟩ | ⟨rfl, rfl⟩ <;>
          rcases hmint i' v' _ hv' hd' with ⟨-, v1, hv1, hd1⟩ | ⟨rfl, hnew⟩
        · exact hdistinct i i' v0 v1 d hv0 hv1 hd0 hd1
        · subst hnew
          exact absurd hd0 (hfresh i v0 hv0)
        · exact absurd hd1 (hfresh i' v1 hv1)
        · rfl

/-- A commit of a caller burns the token it was given, for the phone it was given, unexpired at an instant the caller read
off the clock once its transaction had begun: the stamp of the booking it writes is that beginning. -/
def Burns (G : Tid → Int → Prop) (d : Commit schema) (i : Nat) (phone : String) (token : Secret) : Prop :=
  ∃ (v : OtpCode) (x at_ now : Int), d.before .otpCodes i = some v ∧ v.phone = phone ∧
    v.verificationTokenHash = some (hashToken token) ∧ v.verificationConsumedAt = none ∧
    v.verificationExpiresAt = some x ∧ now < x ∧ at_ ≤ now ∧ G d.by_ now ∧ d.writes .otpCodes i = some (v.burnt at_) ∧
    ∃ k, d.writes .bookings k = some (⟨k, at_, phone⟩ : Booking)

theorem Deed.burns {req : Request} {d : Commit schema} {phone : String} {token : Secret}
    (h : Deed G req d.by_ d.before d.writes) (hverb : req = .create phone token) : ∃ i, Burns G d i phone token := by
  cases h with
  | plain verb codes bookings => exact absurd hverb (verb phone token)
  | minted verb found owner unconsumed wrote =>
    rw [hverb] at verb
    cases verb
  | @burnt phone' token' j k v now at_ verb found proof read early wrote =>
    rw [hverb] at verb
    cases verb
    simp only [OtpCode.proves, Bool.decide_and, Bool.and_eq_true, decide_eq_true_eq] at proof
    obtain ⟨hphone, htoken, hunspent, hexpires, -⟩ := proof
    cases hx : v.verificationExpiresAt with
    | none =>
      rw [hx] at hexpires
      cases hexpires
    | some x =>
      rw [hx] at hexpires
      refine ⟨j, v, x, at_, now, found, hphone, htoken, hunspent, hx, of_decide_eq_true hexpires, early, read, ?_, k, ?_⟩
      · rw [wrote, Rows.set_table (by decide)]
        exact Rows.set_same
      · rw [wrote, Rows.set_same]

theorem consumed_versions (hL : e.Lawful aging.shared)
    (hledger : ∀ m d, e.log[m]? = some d → (deeds G reqs).Holds e m d) (hissued : Issued (e.version 0)) {m : Nat}
    (hm : m ≤ e.log.length) {i : Nat} {v : OtpCode} (hv : e.version m .otpCodes i = some v)
    (htoken : v.verificationTokenHash ≠ none) : v.consumedAt ≠ none := by
  refine hL.version_induction (P := fun rows => ∀ i (v : OtpCode), rows .otpCodes i = some v →
    v.verificationTokenHash ≠ none → v.consumedAt ≠ none) hissued.consumed (fun m c hc _ _ hbefore i v hv ht => ?_) m hm i v
    hv htoken
  change c.before.overlay c.writes .otpCodes i = some v at hv
  cases hw : c.writes .otpCodes i with
  | none => exact hbefore i v (by rwa [Rows.over_none hw] at hv) ht
  | some r =>
    rw [Rows.over_some hw] at hv
    cases hv
    cases (hledger m c hc).1 with
    | plain verb codes bookings =>
      rcases codes i v hw with ⟨v0, hv0, -, hcon, htok, -⟩ | ⟨-, hnone⟩
      · rw [hcon]
        exact hbefore i v0 hv0 (by rwa [← htok])
      · exact absurd hnone ht
    | @minted phone code j n a v0 at_ x verb found owner unconsumed wrote =>
      rw [wrote] at hw
      by_cases hi : i = j
      · subst hi
        rw [Rows.set_same] at hw
        cases hw
        nofun
      · rw [Rows.set_row hi] at hw
        cases hw
    | @burnt phone token j k v0 now at_ verb found proof read early wrote =>
      rw [wrote, Rows.set_table (by decide)] at hw
      by_cases hi : i = j
      · subst hi
        rw [Rows.set_same] at hw
        cases hw
        exact hbefore i v0 found ht
      · rw [Rows.set_row hi] at hw
        cases hw

theorem Deed.mint {req : Request} {t : Tid} {d : Commit schema} {i : Nat} {token : Secret}
    (h : Deed G req t d.before d.writes) (hmint : Mints d i token) : ∃ phone code n v, req = .verify phone code ∧
      token = .session t n ∧ d.before .otpCodes i = some v ∧ v.phone = phone := by
  obtain ⟨v, r, hv, hnone, hr, hsome, htoken⟩ := hmint
  cases h with
  | plain verb codes bookings =>
    rcases codes i r hr with ⟨v0, hv0, -, hcon, -⟩ | ⟨hnew, -⟩
    · rw [hv] at hv0
      cases hv0
      exact absurd (hcon.trans hnone) hsome
    · rw [hv] at hnew
      cases hnew
  | @minted phone code j n a v0 at_ x verb found owner unconsumed wrote =>
    rw [wrote] at hr
    by_cases hi : i = j
    · subst hi
      rw [Rows.set_same] at hr
      cases hr
      simp only [OtpCode.minted, hashToken, Option.some.injEq, Digest.mk.injEq] at htoken
      exact ⟨phone, code, n, v0, verb, htoken.symm, found, owner⟩
    · rw [Rows.set_row hi] at hr
      cases hr
  | @burnt phone token' j k v0 now at_ verb found proof read early wrote =>
    rw [wrote, Rows.set_table (by decide)] at hr
    by_cases hi : i = j
    · subst hi
      rw [Rows.set_same] at hr
      cases hr
      rw [hv] at found
      cases found
      exact absurd hnone hsome
    · rw [Rows.set_row hi] at hr
      cases hr

section Uses

variable {m m' : Nat} {d d' : Commit schema} {i i' : Nat} {token token' : Secret} {phone phone' : String}

theorem version_before (h : e.log[m]? = some d) : e.version m = d.before := by
  simp [Engine.version, h]

theorem aged (hL : e.Lawful aging.shared) (hd : e.log[m]? = some d) (hd' : e.log[m']? = some d') (hlt : m < m')
    {r : OtpCode} (hr : d.writes .otpCodes i = some r) : ∃ v : OtpCode, d'.before .otpCodes i = some v ∧ Ages r v := by
  have hle := (List.getElem?_eq_some_iff.1 hd').1.le
  have hrow := hL.version_becomes (Cast.plays_common _) (m := m + 1) (by omega) hle Table.otpCodes i
  rw [hL.linked m d hd, version_before hd', Commit.after, Rows.over_some hr] at hrow
  exact hrow.some_left

theorem mint_once (hL : e.Lawful aging.shared) (hd : e.log[m]? = some d) (hd' : e.log[m']? = some d')
    (h : Mints d i token) (h' : Mints d' i token') : ¬m < m' := by
  intro hlt
  obtain ⟨v, r, -, -, hr, hsome, -⟩ := h
  obtain ⟨v', r', hv', hnone, -⟩ := h'
  obtain ⟨v0, hv0, hages⟩ := aged hL hd hd' hlt hr
  rw [hv'] at hv0
  cases hv0
  obtain ⟨x, hx⟩ := Option.ne_none_iff_exists'.1 hsome
  rw [(hages.consumed x hx).1] at hnone
  cases hnone

theorem burn_once (hL : e.Lawful aging.shared) (hledger : ∀ m d, e.log[m]? = some d → (deeds G reqs).Holds e m d)
    (hissued : Issued (e.version 0)) (hd : e.log[m]? = some d) (hd' : e.log[m']? = some d') (h : Burns G d i phone token)
    (h' : Burns G d' i' phone' token) : ¬m < m' := by
  intro hlt
  obtain ⟨v, x, at_, now, hv, -, htoken, -, -, -, -, -, hw, -⟩ := h
  obtain ⟨v', x', at', now', hv', -, htoken', hunspent, -⟩ := h'
  have hm := (List.getElem?_eq_some_iff.1 hd).1.le
  have hm' := (List.getElem?_eq_some_iff.1 hd').1.le
  have hcon := consumed_versions hL hledger hissued hm (by rw [version_before hd]; exact hv) (by rw [htoken]; nofun)
  obtain ⟨y, hy⟩ := Option.ne_none_iff_exists'.1 hcon
  obtain ⟨v0, hv0, hages⟩ := aged hL hd hd' hlt hw
  have htoken0 : v0.verificationTokenHash = some (hashToken token) := (hages.consumed y hy).2.1.trans htoken
  have hrow := (sole_versions hL hledger hissued m' hm').distinct i i' v0 v' _ (by rw [version_before hd']; exact hv0)
    (by rw [version_before hd']; exact hv') htoken0 htoken'
  subst hrow
  rw [hv'] at hv0
  cases hv0
  rw [hages.burnt at_ rfl] at hunspent
  cases hunspent

theorem burn_phone (hL : e.Lawful aging.shared) (hledger : ∀ m d, e.log[m]? = some d → (deeds G reqs).Holds e m d)
    (hissued : Issued (e.version 0)) (hd : e.log[m]? = some d) (hd' : e.log[m']? = some d') (h : Mints d i token)
    (h' : Burns G d' i' phone' token) : ∃ code, reqs d.by_ = .verify phone' code := by
  obtain ⟨phone, code, n, v, hverb, rfl, hv, hphone⟩ := (hledger m d hd).1.mint h
  obtain ⟨v1, r, hv1, hnone, hr, hsome, htoken⟩ := h
  rw [hv] at hv1
  cases hv1
  obtain ⟨v', x', at', now', hv', hphone', htoken', -⟩ := h'
  have hm' := (List.getElem?_eq_some_iff.1 hd').1.le
  have hsole := sole_versions hL hledger hissued m' hm'
  have hlt : m < m' := by
    by_contra hge
    rcases hsole.dated i' v' _ (by rw [version_before hd']; exact hv') htoken' with ⟨s, hs⟩ | ⟨k, hk, c', hc', n', hn'⟩
    · cases hs
    · simp only [hashToken, Digest.mk.injEq, Secret.session.injEq] at hn'
      exact (hledger m d hd).2 k (by omega) c' hc' hn'.1.symm
  obtain ⟨v0, hv0, hages⟩ := aged hL hd hd' hlt hr
  obtain ⟨y, hy⟩ := Option.ne_none_iff_exists'.1 hsome
  have hrow := hsole.distinct i i' v0 v' _ (by rw [version_before hd']; exact hv0) (by rw [version_before hd']; exact hv')
    ((hages.consumed y hy).2.1.trans htoken) htoken'
  subst hrow
  rw [hv'] at hv0
  cases hv0
  have hrv : r.phone = v.phone := by
    have hentry := hL.entries d (List.mem_of_getElem? hd) Table.otpCodes i
    rw [hv, Commit.after, Rows.over_some hr] at hentry
    have hages' : Ages v r := hentry
    exact hages'.phone
  exact ⟨code, by rw [hverb, ← hphone, ← hphone', hages.phone, hrv]⟩

end Uses

section Runs

variable {c : Conf (machine schema (outside devCode) Err) Response}

def serving (devCode : Option Secret) (reqs : Tid → Request) (rows : Rows schema) (next : Nat) (clock : Int) :
    Conf (machine schema (outside devCode) Err) Response :=
  staged (V := outside devCode) ⟨[], 0⟩ (fun t => (reqs t).code) rows next clock

theorem serving_obeyed (h : Shelved rows next) : Cast.Obeyed aging.shared (serving devCode reqs rows next clock) :=
  staged_obeyed h legal_aging

/-- **Every run keeps the budget**, and every finished request has committed what it compared. -/
theorem budget_runs (h : Shelved rows next) (hr : Conf.Steps Found (serving devCode reqs rows next clock) c) :
    Budgeted c.state ∧ (∀ t a, c.threads t = some (.ret a) → Accounted t c.state) ∧
      ∀ t e, c.threads t = some (.raise e) → Accounted t c.state := by
  have hI : (budget devCode).Inv (serving devCode reqs rows next clock).state := ⟨List.nodup_nil, fun _ hc => by cases hc⟩
  have hsafe : ∀ t p, (serving devCode reqs rows next clock).threads t = some p →
      (budget devCode).logic.Safe t p (fun _ w => Accounted t w) (serving devCode reqs rows next clock).state := by
    intro t p hp
    cases hp
    refine safe_of_ensures (request_budgeted (reqs t) ⟨rfl, rfl, rfl⟩) fun _ w w' hw hev _ _ => ?_
    exact hw.imp (fun hu => hu.evolves hev) fun hown hnil => hown (hev.db.since.own.symm.trans hnil)
  obtain ⟨hsound, -⟩ := (budget devCode).runs (Q := fun t _ w => Accounted t w) (serving_obeyed h) hI hsafe hr
  exact ⟨hsound.inv.2, fun t a ht => hsound.finished ht, fun t e ht => hsound.raised ht⟩

theorem ledger_runs (h : Shelved rows next) (hr : Conf.Steps (Reading G) (serving devCode reqs rows next clock) c) :
    (∀ m d, c.state.db.log[m]? = some d → (deeds G reqs).Holds c.state.db m d) ∧
      ∀ t token x, c.threads t = some (.ret (.verified token x)) → ∃ d ∈ c.state.db.log, d.by_ = t ∧ ∃ i, Mints d i token := by
  have hI : (issuing devCode G reqs).Inv (serving devCode reqs rows next clock).state := by
    intro m d hd
    cases hd
  have hsafe : ∀ t p, (serving devCode reqs rows next clock).threads t = some p →
      (issuing devCode G reqs).logic.Safe t p (Promised t) (serving devCode reqs rows next clock).state := by
    intro t p hp
    cases hp
    have hidle : Writing t nothing (serving devCode reqs rows next clock).state.db := ⟨rfl, rfl⟩
    have hcode : (issuing devCode G reqs).Ensures t (reqs t).code (Promised t)
        (serving devCode reqs rows next clock).state := by
      unfold Request.code
      cases hverb : reqs t with
      | send phone => exact send_ensures hverb hidle
      | verify phone code => exact verify_issues hverb hidle
      | create phone token => exact create_issues hverb hidle
    refine safe_of_ensures hcode fun x w w' hx hev _ _ => ?_
    match x with
    | .ok (.verified token _) =>
      obtain ⟨d, hd, hrest⟩ := hx
      obtain ⟨l, hl, -⟩ := hev.db.log
      exact ⟨d, by rw [hl]; exact List.mem_append_left _ hd, hrest⟩
    | .ok .sent | .ok (.booked _) | .error _ => trivial
  obtain ⟨hsound, -⟩ := (issuing devCode G reqs).runs (Q := Promised) (serving_obeyed h) hI hsafe hr
  exact ⟨hsound.inv.2, fun t token x ht => hsound.finished ht⟩

/-- **The budget of a code and the one use of its token**, in every run in which each raise of a counter finds its row
live: of a row's comparisons at most the maximum are not rolled back, and no finished request's is; at most one token is
minted from a row, by the request that answers it; and each commit of a caller burns its token, unexpired and for the
phone it was minted for, at most one commit for each token. -/
theorem otp_sound (h : Shelved rows next) (hissued : Issued rows)
    (hr : Conf.Steps (Reading G) (serving devCode reqs rows next clock) c) :
    (∀ i (l : List Comparison), l.Sublist c.state.out.compared →
      (∀ x ∈ l, x.otpId = i ∧ ¬RolledBack c.state.db x.by_) → l.length ≤ OTP_MAX_VERIFY_ATTEMPTS) ∧
    (∀ t, ((∃ a, c.threads t = some (.ret a)) ∨ ∃ e, c.threads t = some (.raise e)) →
      ∀ x ∈ c.state.out.compared, x.by_ = t → ¬RolledBack c.state.db t) ∧
    (∀ (m m' : Nat) (d d' : Commit schema) i token token', c.state.db.log[m]? = some d → c.state.db.log[m']? = some d' → Mints d i token →
      Mints d' i token' → m = m') ∧
    (∀ t token x, c.threads t = some (.ret (.verified token x)) →
      ∃ d ∈ c.state.db.log, d.by_ = t ∧ ∃ i, Mints d i token) ∧
    (∀ d ∈ c.state.db.log, ∀ phone token, reqs d.by_ = .create phone token → ∃ i, Burns G d i phone token) ∧
    (∀ (m m' : Nat) (d d' : Commit schema) phone phone' token, c.state.db.log[m]? = some d → c.state.db.log[m']? = some d' →
      reqs d.by_ = .create phone token → reqs d'.by_ = .create phone' token → m = m') ∧
    ∀ d ∈ c.state.db.log, ∀ d' ∈ c.state.db.log, ∀ i token phone, Mints d i token →
      reqs d'.by_ = .create phone token → ∃ code, reqs d.by_ = .verify phone code := by
  have hL := ((serving_obeyed h).steps hr).1.lawful
  have hversion : c.state.db.version 0 = rows := ((serving_obeyed h).history hr).2 0 (Nat.le_refl 0)
  have hissued : Issued (c.state.db.version 0) := hversion ▸ hissued
  obtain ⟨hbudget, hret, hraise⟩ := budget_runs h (hr.mono fun _ _ _ _ _ hx => hx.1)
  obtain ⟨hledger, hanswers⟩ := ledger_runs h hr
  refine ⟨fun i l hl hrow => hbudget.capped hL hl hrow, fun t ht x hx hxt hback => ?_,
    fun m m' d d' i token token' hd hd' h1 h2 => ?_, hanswers, fun d hd phone token hverb => ?_,
    fun m m' d d' phone phone' token hd hd' h1 h2 => ?_, fun d hd d' hd' i token phone hmint hverb => ?_⟩
  · have haccounted : Accounted t c.state := ht.elim (fun ⟨a, ha⟩ => hret t a ha) fun ⟨e, he⟩ => hraise t e he
    rcases haccounted with hu | hown
    · exact hu.ne hx hxt
    · exact hown hback.2
  · have hlt := mint_once hL hd hd' h1 h2
    have hgt := mint_once hL hd' hd h2 h1
    omega
  · obtain ⟨m, hm⟩ := List.mem_iff_getElem?.1 hd
    exact (hledger m d hm).1.burns hverb
  · obtain ⟨i, hb⟩ := (hledger m d hd).1.burns h1
    obtain ⟨i', hb'⟩ := (hledger m' d' hd').1.burns h2
    have hlt := burn_once hL hledger hissued hd hd' hb hb'
    have hgt := burn_once hL hledger hissued hd' hd hb' hb
    omega
  · obtain ⟨m, hm⟩ := List.mem_iff_getElem?.1 hd
    obtain ⟨m', hm'⟩ := List.mem_iff_getElem?.1 hd'
    obtain ⟨i', hb⟩ := (hledger m' d' hm').1.burns hverb
    exact burn_phone hL hledger hissued hm hm' hmint hb

end Runs

/-! ## One code, six guesses -/

def oneCode : (T : Table) → List (Row T)
  | .otpCodes => [(⟨0, 0, none, "0501234567", hashToken (.text "123456"), 1000, 0, none, none, none, none⟩ : OtpCode)]
  | .bookings => []

theorem oneCode_shelved : Shelved (listed (S := schema) oneCode) 1 :=
  shelved_of_stocked [.otpCodes, .bookings] (fun T => by cases T <;> decide) (by decide)

theorem oneCode_issued : Issued (listed (S := schema) oneCode) := by
  have hrow : ∀ i (v : OtpCode), listed (S := schema) oneCode .otpCodes i = some v → v.verificationTokenHash = none := by
    intro i v hv
    have hm : v ∈ oneCode .otpCodes := List.mem_of_find?_eq_some hv
    simp only [oneCode, List.mem_singleton] at hm
    rw [hm]
  refine ⟨fun i v hv ht => absurd (hrow i v hv) ht, fun i v d hv hd => ?_, fun i j v v' d hv _ hd _ => ?_⟩ <;>
    · rw [hrow i v hv] at hd
      cases hd

def told (t : Tid) (answers : List Bool) : List (Action (machine schema (outside devCode) Err)) :=
  answers.map fun yes => .call t ⟨yes, "654321"⟩

def guesses : Tid → Request := fun t => if t < 6 then .verify "0501234567" (.text "000000") else .send "0501234567"

def guessing : Conf (machine schema (outside none) Err) Response :=
  serving none guesses (listed (S := schema) oneCode) 1 10

def guessRead (t : Tid) : List (Action (machine schema (outside none) Err)) := told t [false, false, false, false]

def guessMade (t : Tid) : List (Action (machine schema (outside none) Err)) := told t [false, false, false]

def resent (t : Tid) : List (Action (machine schema (outside none) Err)) :=
  told t [true, false, false, false, false, false, false, false, false, false, false]

def refusedGuess (c : Conf (machine schema (outside none) Err) Response) (t : Tid) : Bool :=
  match c.threads t with
  | some (.raise .otpInvalid) => true
  | _ => false

/-- **A sixth guess**: six verifications have read the code, a resend deletes it, and each of them, its raise finding no
row, compares all the same. -/
theorem sixth_guess : ∃ c, guessing.Reaches c ∧ c.state.out.compared.length = 6 ∧
    (∀ x ∈ c.state.out.compared, x.otpId = 0 ∧ ¬RolledBack c.state.db x.by_) ∧
    ∀ t < 6, c.threads t = some (.raise .otpInvalid) := by
  obtain ⟨c, hc, hP⟩ := Conf.reached_freely guessing
    ((List.range 6).flatMap guessRead ++ resent 6 ++ (List.range 6).flatMap guessMade)
    (fun c => decide (c.state.out.compared.length = 6 ∧
      (∀ x ∈ c.state.out.compared, x.otpId = 0 ∧ (c.state.db.own x.by_).isEmpty = false) ∧
      ∀ t ∈ List.range 6, refusedGuess c t = true)) (by decide)
  obtain ⟨hlength, hrows, hrefused⟩ := of_decide_eq_true hP
  refine ⟨c, hc, hlength, fun x hx => ⟨(hrows x hx).1, fun hback => ?_⟩, fun t ht => ?_⟩
  · have hown := (hrows x hx).2
    rw [hback.2] at hown
    cases hown
  · have ht := hrefused t (List.mem_range.2 ht)
    unfold refusedGuess at ht
    split at ht
    · assumption
    · cases ht

def proving : Tid → Request := fun t =>
  if t = 0 then .verify "0501234567" (.text "123456") else .create "0501234567" (.session 0 0)

def finds (t : Tid) (o : Op schema (outside none)) (w : World schema (outside none)) : Bool :=
  match o with
  | .sql (.update .otpCodes i .incrementAttempts) =>
    ((w.db.view t .otpCodes i : Option OtpCode)).any fun v => v.deletedAt = none
  | _ => true

theorem found_of_finds {t : Tid} {o : Op schema (outside none)} {w w' : World schema (outside none)} {r : o.Res}
    (h : finds t o w = true) : Found t o w r w' := by
  unfold Found
  split
  · simp only [finds] at h
    cases hv : (w.db.view t .otpCodes _ : Option OtpCode) with
    | none =>
      rw [hv] at h
      cases h
    | some v =>
      rw [hv] at h
      exact ⟨v, rfl, of_decide_eq_true h⟩
  · trivial

def provingReads (t : Tid) (n : Int) : Prop := (t = 0 ∧ n = 10) ∨ (t = 1 ∧ n = 45)

instance (t : Tid) (n : Int) : Decidable (provingReads t n) := inferInstanceAs (Decidable (_ ∨ _))

theorem otp_sound_proving :
    ∃ c, Conf.Steps (Reading provingReads) (serving none proving (listed (S := schema) oneCode) 1 10) c ∧
      c.state.out.compared.length = 1 ∧ c.state.db.log.length = 2 ∧ ∀ d ∈ c.state.db.log, ∀ phone token,
        proving d.by_ = .create phone token → ∃ i, Burns provingReads d i phone token := by
  obtain ⟨c, hc, hP⟩ := Conf.reached_of_play (A := fun t o w r w' => finds t o w = true ∧ Readings provingReads t o w r w')
    (serving none proving (listed (S := schema) oneCode) 1 10)
    (told 0 [false, false, false, false, false, false, false, false, false, false] ++ [.happen 30] ++ told 1 [false] ++
      [.happen 5] ++ told 1 [false, false, false, true, false, false])
    (fun c => decide (c.state.out.compared.length = 1 ∧ c.state.db.log.length = 2)) (by decide)
  have hc' : Conf.Steps (Reading provingReads) (serving none proving (listed (S := schema) oneCode) 1 10) c :=
    hc.mono fun _ _ _ _ _ h => ⟨found_of_finds h.1, h.2⟩
  obtain ⟨hcompared, hlog⟩ := of_decide_eq_true hP
  exact ⟨c, hc', hcompared, hlog, (otp_sound oneCode_shelved oneCode_issued hc').2.2.2.2.1⟩

end Otp
