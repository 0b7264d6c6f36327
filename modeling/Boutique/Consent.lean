import Boutique.Custody
import Boutique.TxnFlight
/-!
# Consent — the evidence of a marketing consent

A consent is stamped once, and a withdrawal stands only on a consent.  Every writer but one leaves a withdrawal as it is: the
erasure's CASE looks at the consent alone, and writes the erasure's own instant over an earlier withdrawal.
-/
namespace Subjects

open Txn Session Contract

variable {settings : Retention.Settings} {reqs : Tid → Request} {rows : Rows schema} {next : Nat} {clock : Int}
  {c : Conf (machine schema outside Err) Reply} {t : Tid} {e e' : Engine schema}

/-- **No erasure is of a customer who has withdrawn her consent.** -/
def Timely : (machine schema outside Err).Assumption := fun t o w _ _ =>
  match o with
  | .sql (.update .customers i (.erase _)) =>
    ∀ v : Customer, v ∈ w.db.view t Table.customers i → v.marketingConsentWithdrawnAt = none
  | _ => True

instance (t : Tid) (o : Op schema outside) (w : World schema outside) (x : o.Res) (w' : World schema outside) :
    Decidable (Timely t o w x w') := by
  unfold Timely
  split <;> infer_instance

structure Evidence (v r : Customer) : Prop where
  consent : v.marketingConsentAt ≠ none → r.marketingConsentAt = v.marketingConsentAt
  withdrawal : v.marketingConsentWithdrawnAt ≠ none → r.marketingConsentWithdrawnAt = v.marketingConsentWithdrawnAt

def evident : (T : Table) → Row T → Row T → Prop
  | .customers, (v : Customer), (r : Customer) => Evidence v r
  | _, _, _ => True

theorem Evidence.trans {v r s : Customer} (h : Evidence v r) (h' : Evidence r s) : Evidence v s := by
  refine ⟨fun hv => ?_, fun hv => ?_⟩
  · rw [h'.consent (by rw [h.consent hv]; exact hv), h.consent hv]
  · rw [h'.withdrawal (by rw [h.withdrawal hv]; exact hv), h.withdrawal hv]

theorem evident_refl (T : Table) (r : Row T) : evident T r r := by
  cases T with
  | customers => exact ⟨fun _ => rfl, fun _ => rfl⟩
  | bookings | tickets | sessions | auditLog => trivial

theorem evident_trans (T : Table) (a b d : Row T) (hab : evident T a b) (hbd : evident T b d) : evident T a d := by
  cases T with
  | customers => exact Evidence.trans hab hbd
  | bookings | tickets | sessions | auditLog => trivial

theorem evidence_apply {g : CustomerChange} {v r : Customer} (h : CustomerChange.apply v g = some r)
    (hg : ∀ at_, g = .erase at_ → v.marketingConsentWithdrawnAt = none) : Evidence v r := by
  cases g <;> simp only [CustomerChange.apply] at h
  case rename | scrub =>
    cases h
    exact ⟨fun _ => rfl, fun _ => rfl⟩
  case setPhone | setNotesAndTags =>
    split at h <;> cases h
    exact ⟨fun _ => rfl, fun _ => rfl⟩
  case recordMarketingConsent =>
    split at h <;> cases h
    rename_i hfresh
    exact ⟨fun hv => absurd hfresh.2 hv, fun _ => rfl⟩
  case withdrawMarketingConsent =>
    split at h <;> cases h
    rename_i hfresh
    exact ⟨fun _ => rfl, fun hv => absurd hfresh.2.2 hv⟩
  case erase at_ =>
    cases h
    exact ⟨fun _ => rfl, fun hv => absurd (hg at_ rfl) hv⟩

/-! ## What a withdrawal answers -/

/-- **The commit moved the customer** from consented to withdrawn. -/
def Withdraws (d : Commit schema) (customerId : Nat) : Prop :=
  ∃ v r : Customer, d.before .customers customerId = some v ∧ d.writes .customers customerId = some r ∧
    v.marketingConsentAt ≠ none ∧ v.marketingConsentWithdrawnAt = none ∧ r.marketingConsentWithdrawnAt ≠ none

/-- The request has committed nothing, and has `W` of the customers in flight. -/
structure Stamping (t : Tid) (W : Work Customer) (e : Engine schema) : Prop where
  work : e.AtWork t Table.customers W
  own : e.own t = []

theorem Stamping.evolves {W : Work Customer} (h : Stamping t W e) (hev : e.Evolves (conduct true).shared t e') :
    Stamping t W e' := ⟨h.work.evolves hev, hev.since.own.trans h.own⟩

theorem Stamping.congr {W : Work Customer} (h : Stamping t W e) (hl : e'.log = e.log) (hc : e'.committed = e.committed)
    (hp : e'.pending t .customers = e.pending t .customers) : Stamping t W e' :=
  ⟨h.work.congr hc hp, by rw [← h.own, Engine.own, Engine.own, hl]⟩

abbrev timely : Contract (conduct true).shared outside Err where
  Inv _ := True
  Assume := Timely
  crash_inv _ _ _ _ := trivial
  tick_inv _ _ _ _ := trivial

theorem timely_historic : timely.Historic fun _ => true := ⟨fun _ _ _ _ _ _ => trivial, fun _ _ _ _ _ _ _ => trivial⟩

def Told (reqs : Tid → Request) (t : Tid) (x : Except Err Reply) (w : World schema outside) : Prop :=
  ∀ customerId actorId b, reqs t = .withdrawMarketing customerId actorId → x = .ok (.withdrawn b) →
    (b = true ↔ ∃ d ∈ w.db.own t, Withdraws d customerId)

theorem stamping_told {customerId : Nat} {W : Work Customer} {w : World schema outside} (h : Stamping t W w.db) {b : Bool}
    (hb : b = true ↔ Withdraws (w.db.entry t) customerId) :
    b = true ↔ ∃ d ∈ (w.db.commit t).own t, Withdraws d customerId := by
  rw [hb, Engine.commit_own, h.own]
  simp

theorem withdraw_told (customerId actorId : Nat) {w : World schema outside} (h : Stamping t none w.db)
    (Q : Except Err Reply → World schema outside → Prop) (herr : ∀ e w', Q (.error e) w')
    (hok : ∀ b w', (b = true ↔ ∃ d ∈ w'.db.own t, Withdraws d customerId) → Q (.ok (.withdrawn b)) w') :
    timely.Ensures t (withdrawMarketing customerId actorId) Q w := by
  refine ensures_ask timely_historic rfl fun w1 i n hev _ _ _ => ?_
  replace h := h.evolves hev.db
  refine ensures_raiseIf (fun _ => herr _ _) fun _ => ensures_ask timely_historic rfl fun w2 i n hev _ _ _ => ?_
  replace h := h.evolves hev.db
  refine ensures_last (ensures_tenantSession timely_historic fun w3 txNow hev _ _ => ?_)
  replace h := h.evolves hev.db
  refine ensures_select timely_historic fun w4 hev _ _ _ _ => ?_
  have hbegun : Stamping t none ({ w3.db with started := Function.update w3.db.started t txNow } : Engine schema) :=
    h.congr rfl rfl rfl
  replace h : Stamping t none (w4.db.look t) := (hbegun.evolves hev.db).congr rfl rfl rfl
  refine ensures_orRaise (fun _ _ _ _ => herr _ _) fun customer _ => ?_
  refine ensures_updateFirst timely_historic h.work (fun _ _ _ _ _ => herr _ _) (fun w5 hev _ _ _ => ?_)
    fun w5 v r hev _ hv hr hA hwork => ?_
  · -- the row took no withdrawal: the commit writes no customer
    intro w6 hev' _ _ _ _
    replace h := (h.evolves hev.db).evolves hev'.db
    refine ⟨trivial, hok false _ (stamping_told h ⟨(fun hb => by cases hb), ?_⟩)⟩
    rintro ⟨v, r, -, hr, -⟩
    have hnone : w6.db.pending t .customers customerId = none := by
      rw [h.work.pending]
      rfl
    cases hnone.symm.trans hr
  · -- the row has gone from consented to withdrawn, and the audit row is written beside it
    have hstamping : Stamping t (some (customerId, some v, r)) (w5.db.write t Table.customers customerId r) :=
      ⟨hwork, (h.evolves hev.db).own⟩
    have hr : CustomerChange.apply v (.withdrawMarketingConsent txNow) = some r := hr
    simp only [CustomerChange.apply] at hr
    clear hA
    split at hr <;> cases hr
    rename_i hfresh
    refine ensures_sparing timely_historic (K := fun T => T = .customers) (Stamping t _)
      (fun _ _ hev _ h => h.evolves hev) (fun _ _ hl hc hp h => h.congr hl hc (hp _ rfl)) ?_ hstamping
      (fun _ _ _ _ _ _ => herr _ _) fun _ w6 h => ?_
    · exact only_bind (only_insert ⟨trivial, (fun T j g h => by cases h), fun T r h => by cases h; exact fun hT => by cases hT⟩ _)
        fun _ => only_ret _
    · intro w7 hev' _ _ _ _
      replace h := h.evolves hev'.db
      refine ⟨trivial, hok true _ (stamping_told h ⟨fun _ => ?_, fun _ => rfl⟩)⟩
      exact ⟨v, _, h.work.found _ _ _ rfl, h.work.row, hfresh.2.1, hfresh.2.2, by simp⟩

/-! ## Whole runs -/

/-- **No UPDATE or INSERT of the thread is refused by a CHECK.** -/
def Unchecked (e : Engine schema) (t : Tid) : Op schema outside → Prop
  | .sql (.update T i g) => ∀ v r, e.view t T i = some v → applyChange T g v = some r → check T r = true
  | .sql (.insert T r) => ∀ i n, check T (stamp T i n r) = true
  | _ => True

theorem unchecked_of_legal {o : Op schema outside} {l : Bool} (hL : e.Lawful (conduct true).shared)
    (h : (conduct true).Legal l o) : Unchecked e t o := by
  cases o with
  | sql o =>
    cases o with
    | update T i g =>
      intro v r hv hr
      have hrow := (hL.view_consistent t).check T i v hv
      cases T with
      | customers =>
        have honward : Onward true l v r := h v r ((hL.view_consistent t).id _ i v hv) hr
        exact honward.check hrow
      | bookings | tickets | sessions | auditLog => rfl
    | insert T r =>
      intro i n
      cases T with
      | customers =>
        have harrives : Arrives true l (stamp .customers i n r) := h i n
        exact harrives.check
      | bookings | tickets | sessions | auditLog => rfl
    | _ => trivial
  | now | ask => trivial

theorem evidence_flight (h : Shelved rows next) (hr : Conf.Steps Timely (serving settings reqs rows next clock) c) :
    c.state.db.Flight evident := by
  refine flight_steps (serving_obeyed (S := true) h fun _ _ => rfl) ⟨fun u T i v r _ hp => ?_, fun d hd => ?_⟩ ?_ hr
  · simp [serving, staged, atRest] at hp
  · simp [serving, staged, atRest] at hd
  · intro t T j g w x w' v r htimely hv hr
    have hevident : evident T v r := by
      cases T with
      | customers =>
        refine evidence_apply hr fun at_ hg => ?_
        subst hg
        exact htimely v hv
      | bookings | tickets | sessions | auditLog => trivial
    exact ⟨hevident, fun b hb => evident_trans T b v r hb hevident⟩

/-- **The evidence is never restated**: in every run in which no erasure is of a customer who has withdrawn, from any version
to any later one each instant stands once it is set; a withdrawal stands on a consent in every version; no CHECK refuses a
write; and a withdrawal answers that it changed something exactly when its own commit moved the row. -/
theorem consent_evident (h : Shelved rows next) (hr : Conf.Steps Timely (serving settings reqs rows next clock) c) :
    (∀ m n i (v : Customer), m ≤ n → n ≤ c.state.db.log.length → c.state.db.version m .customers i = some v →
      ∃ r : Customer, c.state.db.version n .customers i = some r ∧ Evidence v r) ∧
    (∀ m i (v : Customer), c.state.db.version m .customers i = some v → v.marketingConsentWithdrawnAt ≠ none →
      v.marketingConsentAt ≠ none) ∧
    (∀ t o k, c.threads t = some (.call o k) → Unchecked c.state.db t o) ∧
    ∀ t customerId actorId b, reqs t = .withdrawMarketing customerId actorId →
      c.threads t = some (.ret (.withdrawn b)) →
      (b = true ↔ ∃ d ∈ c.state.db.log, d.by_ = t ∧ Withdraws d customerId) := by
  have hob : Cast.Obeyed (conduct true).shared (serving settings reqs rows next clock) :=
    serving_obeyed h fun _ _ => rfl
  obtain ⟨hL, hkeeps⟩ := (hob.steps hr).1
  refine ⟨fun m n i v hmn hn hv => ?_, fun m i v hv hwithdrawn => ?_, fun t o k ht => ?_, ?_⟩
  · exact (evidence_flight h hr).versions hL evident_refl evident_trans hmn hn hv
  · have hcheck : v.consented = true := (hL.version_consistent m).check Table.customers i v hv
    simpa [Customer.consented, hwithdrawn] using hcheck
  · obtain ⟨l, -, hlegal, -⟩ := hkeeps t _ ht
    exact unchecked_of_legal hL hlegal
  · intro t customerId actorId b hrequest ht
    have hsafe : ∀ t p, (serving settings reqs rows next clock).threads t = some p →
        timely.logic.Safe t p (Told reqs t) (serving settings reqs rows next clock).state := by
      intro t p hp
      cases hp
      change timely.logic.Safe t ((reqs t).code settings) _ _
      cases hq : reqs t with
      | withdrawMarketing customerId actorId =>
        refine safe_of_ensures (withdraw_told customerId actorId ⟨Engine.atWork_none rfl, rfl⟩ (Told reqs t) ?_ ?_)
          fun x w w' hx hev _ _ customerId actorId b hrequest hb => ?_
        · rintro e w' _ _ _ _ hb
          cases hb
        · rintro b w' hb customerId' actorId' b' hrequest hret
          rw [hq] at hrequest
          cases hrequest
          cases hret
          exact hb
        · rw [hev.db.since.own]
          exact hx customerId actorId b hrequest hb
      | _ =>
        refine safe_of_free ⟨fun _ _ _ _ _ _ => trivial, fun _ _ _ _ _ _ _ => trivial⟩ (fun _ _ _ _ _ => trivial)
          (fun _ _ _ _ => trivial) fun x w customerId actorId b hrequest _ => ?_
        rw [hq] at hrequest
        cases hrequest
    obtain ⟨hsound, -⟩ := timely.runs (Q := Told reqs) hob trivial hsafe hr
    rw [hsound.finished ht customerId actorId b hrequest rfl]
    simp [Engine.own, and_assoc]

/-! ## A withdrawal, restated -/

def oneConsent : (T : Table) → List (Row T)
  | .customers => [(⟨0, 0, none, "0501", "Noa", none, [], some 5, some .bookingForm, none, none⟩ : Customer)]
  | _ => []

theorem oneConsent_shelved : Shelved (listed (S := schema) oneConsent) 1 :=
  shelved_of_stocked [.customers, .bookings, .tickets, .sessions, .auditLog] (fun T => by cases T <;> decide)
    (by decide)

def withdrawThenErase : Tid → Request
  | 0 => .withdrawMarketing 0 7
  | _ => .eraseSubject 0 none 7

/-- **An erasure restates the withdrawal**: the customer withdrew at 10, and her record says 20. -/
theorem consent_restated : ∃ c, (serving Retention.shipped withdrawThenErase (listed (S := schema) oneConsent) 1 10).Reaches c ∧
    ∃ m n, m ≤ n ∧ n ≤ c.state.db.log.length ∧ ∃ v r : Customer, c.state.db.version m .customers 0 = some v ∧
      c.state.db.version n .customers 0 = some r ∧ v.marketingConsentWithdrawnAt = some 10 ∧
      r.marketingConsentWithdrawnAt = some 20 := by
  obtain ⟨c, hc, hP⟩ := Conf.reached_freely (serving Retention.shipped withdrawThenErase (listed (S := schema) oneConsent) 1 10)
    (calls 0 7 ++ [.happen 10] ++ calls 1 11)
    (fun c => decide (2 ≤ c.state.db.log.length ∧
      (c.state.db.version 1 .customers 0).bind Customer.marketingConsentWithdrawnAt = some 10 ∧
      (c.state.db.version 2 .customers 0).bind Customer.marketingConsentWithdrawnAt = some 20)) (by decide)
  obtain ⟨hlog, hfirst, hlast⟩ := of_decide_eq_true hP
  obtain ⟨v, hv, hv'⟩ := Option.bind_eq_some_iff.1 hfirst
  obtain ⟨r, hr, hr'⟩ := Option.bind_eq_some_iff.1 hlast
  exact ⟨c, hc, 1, 2, by decide, hlog, v, r, hv, hr, hv', hr'⟩

def twoConsents : (T : Table) → List (Row T)
  | .customers => [(⟨0, 0, none, "0501", "Noa", none, [], some 5, some .bookingForm, none, none⟩ : Customer),
      (⟨1, 0, none, "0502", "Maya", none, [], some 6, some .bookingForm, none, none⟩ : Customer)]
  | _ => []

theorem twoConsents_shelved : Shelved (listed (S := schema) twoConsents) 2 :=
  shelved_of_stocked [.customers, .bookings, .tickets, .sessions, .auditLog] (fun T => by cases T <;> decide)
    (by decide)

/-- One withdraws; the other is erased, and then asked to be withdrawn. -/
def eraseThenWithdraw : Tid → Request
  | 0 => .withdrawMarketing 0 7
  | 1 => .eraseSubject 1 none 7
  | _ => .withdrawMarketing 1 7

/-- A withdrawal and one that an erasure has made before it are told as they are, and from then on both instants stand. -/
theorem consent_evident_once : ∃ c,
    Conf.Steps Timely (serving Retention.shipped eraseThenWithdraw (listed (S := schema) twoConsents) 2 10) c ∧
    (∃ d ∈ c.state.db.log, d.by_ = 0 ∧ Withdraws d 0) ∧ (¬∃ d ∈ c.state.db.log, d.by_ = 2 ∧ Withdraws d 1) ∧
    ∀ n, 2 ≤ n → n ≤ c.state.db.log.length → ∃ v r : Customer, c.state.db.version n .customers 0 = some v ∧
      v.marketingConsentWithdrawnAt = some 10 ∧ c.state.db.version n .customers 1 = some r ∧
      r.marketingConsentWithdrawnAt = some 20 := by
  obtain ⟨c, hc, hP⟩ := Conf.reached_of_play (A := Timely)
    (serving Retention.shipped eraseThenWithdraw (listed (S := schema) twoConsents) 2 10)
    (calls 0 7 ++ [.happen 10] ++ calls 1 11 ++ [.happen 10] ++ calls 2 6)
    (fun c => decide (c.reply 0 = some (.withdrawn true) ∧ c.reply 2 = some (.withdrawn false)) &&
      decide ((c.state.db.version 2 .customers 0).bind Customer.marketingConsentWithdrawnAt = some 10 ∧
        (c.state.db.version 2 .customers 1).bind Customer.marketingConsentWithdrawnAt = some 20)) (by decide)
  simp only [Bool.and_eq_true, decide_eq_true_eq, Option.bind_eq_some_iff] at hP
  obtain ⟨⟨hfirst, hlast⟩, ⟨v, hv, hwithdrawn⟩, u, hu, herased⟩ := hP
  obtain ⟨hkept, -, -, htold⟩ := consent_evident twoConsents_shelved hc
  refine ⟨c, hc, (htold 0 0 7 true rfl (Conf.reply_eq_some.1 hfirst)).1 rfl, fun hd => ?_, fun n hn hlen => ?_⟩
  · cases (htold 2 1 7 false rfl (Conf.reply_eq_some.1 hlast)).2 hd
  · obtain ⟨v', hv', hsame⟩ := hkept 2 n 0 v hn hlen hv
    obtain ⟨u', hu', hsame'⟩ := hkept 2 n 1 u hn hlen hu
    refine ⟨v', u', hv', ?_, hu', ?_⟩
    · rw [hsame.withdrawal (by rw [hwithdrawn]; exact Option.some_ne_none _), hwithdrawn]
    · rw [hsame'.withdrawal (by rw [herased]; exact Option.some_ne_none _), herased]

end Subjects
