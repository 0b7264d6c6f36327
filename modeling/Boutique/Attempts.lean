import Boutique.Otp
import Mathlib.Data.List.Nodup
import Mathlib.Data.List.Perm.Subperm
/-!
# Attempts — how often a code is compared

A comparison is made with its row's counter raised and uncommitted, under the row's lock; so while every raise finds its
row, the comparisons of one row stand at different counts, and the cap bounds them.
-/
namespace Otp

open Txn Session Contract

variable {devCode : Option Secret}

/-! ## What a code row keeps -/

/-- **What becomes of a code row**: attempts are not given back, what was minted or burnt stays. -/
structure Ages (v r : OtpCode) : Prop where
  phone : r.phone = v.phone
  attempts : v.attempts ≤ r.attempts
  consumed : ∀ x, v.consumedAt = some x → r.consumedAt = some x ∧ r.verificationTokenHash = v.verificationTokenHash ∧
    r.verificationExpiresAt = v.verificationExpiresAt
  burnt : ∀ x, v.verificationConsumedAt = some x → r.verificationConsumedAt = some x

theorem ages_apply {g : OtpCodeChange} {v r : OtpCode} (h : OtpCodeChange.apply v g = some r) : Ages v r := by
  cases g <;> simp only [OtpCodeChange.apply] at h
  all_goals (split at h <;> cases h)
  · exact ⟨rfl, Nat.le_refl _, fun _ hx => ⟨hx, rfl, rfl⟩, fun _ hx => hx⟩
  · exact ⟨rfl, Nat.le_succ _, fun _ hx => ⟨hx, rfl, rfl⟩, fun _ hx => hx⟩
  · rename_i hc
    exact ⟨rfl, Nat.le_refl _, fun _ hx => (by rw [hc.1] at hx; cases hx), fun _ hx => hx⟩
  · rename_i hc
    simp only [OtpCode.proves, Bool.decide_and, Bool.and_eq_true, decide_eq_true_eq] at hc
    exact ⟨rfl, Nat.le_refl _, fun _ hx => ⟨hx, rfl, rfl⟩, fun _ hx => (by rw [hc.2.2.1] at hx; cases hx)⟩

def agesIn : (T : Table) → Row T → Row T → Prop
  | .otpCodes, (v : OtpCode), (r : OtpCode) => Ages v r
  | .bookings, _, _ => True

abbrev aging : Discipline schema where
  Trans _ T v r := agesIn T v r
  New _ _ _ := True
  refl _ T v := by
    cases T with
    | otpCodes => exact ⟨rfl, Nat.le_refl _, fun _ hx => ⟨hx, rfl, rfl⟩, fun _ hx => hx⟩
    | bookings => trivial
  trans _ T a b c hab hbc := by
    cases T with
    | otpCodes =>
      refine ⟨hbc.phone.trans hab.phone, hab.attempts.trans hbc.attempts, fun x hx => ?_, fun x hx => ?_⟩
      · obtain ⟨h₁, h₂, h₃⟩ := hab.consumed x hx
        obtain ⟨h₁', h₂', h₃'⟩ := hbc.consumed x h₁
        exact ⟨h₁', h₂'.trans h₂, h₃'.trans h₃⟩
      · exact hbc.burnt x (hab.burnt x hx)
    | bookings => trivial
  weaken _ _ _ h := h
  new_trans _ _ _ _ _ _ := trivial
  new_weaken _ _ _ := trivial

theorem legal_aging (l : Bool) (o : Op schema (outside devCode)) : aging.Legal l o := by
  cases o with
  | sql o =>
    cases o with
    | update T i g =>
      intro v r _ hr
      cases T with
      | otpCodes => exact ages_apply hr
      | bookings => trivial
    | insert T r => exact fun _ _ => trivial
    | _ => trivial
  | now | ask => trivial

variable {e : Engine schema} {w w' : World schema (outside devCode)} {t : Tid}

variable {m n i : Nat} {e' : Engine schema} {c : Comparison}

theorem version_ages (h : e.Lawful aging.shared) {v r : OtpCode} (hmn : m ≤ n) (hn : n ≤ e.log.length)
    (hv : e.version m .otpCodes i = some v) (hr : e.version n .otpCodes i = some r) : Ages v r := by
  have hrow := h.version_becomes (Cast.plays_common _) hmn hn Table.otpCodes i
  rw [hv, hr] at hrow
  exact hrow

/-! ## The comparisons -/

structure Counted (v r : OtpCode) : Prop where
  raised : r.attempts = v.attempts + 1
  capped : r.attempts ≤ OTP_MAX_VERIFY_ATTEMPTS

def nothing : Rows schema := fun _ _ => none

def Held (e : Engine schema) (c : Comparison) : Prop :=
  e.own c.by_ = [] ∧ ∃ v r : OtpCode, e.committed .otpCodes c.otpId = some v ∧ e.pending c.by_ .otpCodes c.otpId = some r ∧
    Counted v r

def Kept (e : Engine schema) (c : Comparison) : Prop :=
  ∃ (m : Nat) (d : Commit schema), e.log[m]? = some d ∧ d.by_ = c.by_ ∧ ∃ v r : OtpCode, d.before .otpCodes c.otpId = some v ∧
    d.writes .otpCodes c.otpId = some r ∧ Counted v r

def RolledBack (e : Engine schema) (t : Tid) : Prop := e.pending t = nothing ∧ e.own t = []

inductive Spent (e : Engine schema) (c : Comparison) : Prop
  | held (h : Held e c)
  | kept (h : Kept e c)
  | rolledBack (h : RolledBack e c.by_)

theorem Kept.later (h : Kept e c) (hlog : e.log <+: e'.log) : Kept e' c := by
  obtain ⟨m, d, hd, hrest⟩ := h
  refine ⟨m, d, ?_, hrest⟩
  obtain ⟨l, hl⟩ := hlog
  rw [← hl, List.getElem?_append_left (List.getElem?_eq_some_iff.1 hd).1]
  exact hd

theorem Held.evolves (h : Held e c) (hev : e.Evolves aging.shared c.by_ e') : Held e' c := by
  obtain ⟨hown, v, r, hv, hr, hc⟩ := h
  refine ⟨hev.since.own.trans hown, v, r, ?_, ?_, hc⟩
  · rw [hev.owned _ _ _ hr]
    exact hv
  · rw [hev.pending]
    exact hr

theorem Spent.evolves (h : Spent e c) (hev : e.Evolves aging.shared c.by_ e') : Spent e' c := by
  cases h with
  | held h => exact .held (h.evolves hev)
  | kept h =>
    obtain ⟨l, hl, -⟩ := hev.log
    exact .kept (h.later ⟨l, hl.symm⟩)
  | rolledBack h => exact .rolledBack ⟨hev.pending.trans h.1, hev.since.own.trans h.2⟩

/-- **Each raise of a counter finds its row live.** -/
def Found : (machine schema (outside devCode) Err).Assumption := fun t o w _ _ =>
  match o with
  | .sql (.update .otpCodes i .incrementAttempts) =>
    ∃ v : OtpCode, w.db.view t .otpCodes i = some v ∧ v.deletedAt = none
  | _ => True

def Budgeted (w : World schema (outside devCode)) : Prop :=
  (w.out.compared.map Comparison.by_).Nodup ∧ ∀ c ∈ w.out.compared, Spent w.db c

theorem Budgeted.step (h : Budgeted w) (hL : w.db.Lawful aging.shared) (hmove : w.db.Move t w'.db)
    (hout : w'.out.compared = w.out.compared) (hown : ∀ c ∈ w.out.compared, c.by_ = t → Spent w'.db c) : Budgeted w' := by
  refine ⟨by rw [hout]; exact h.1, fun c hc => ?_⟩
  rw [hout] at hc
  by_cases hct : c.by_ = t
  · exact hown c hc hct
  · exact (h.2 c hc).evolves (hmove.evolves hL (Ne.symm hct))

def budget (devCode : Option Secret) : Contract aging.shared (outside devCode) Err where
  Inv := Budgeted
  Assume := Found
  crash_inv t w hL h := by
    refine h.step (t := t) hL (Engine.move_release t _) rfl fun c hc hct => ?_
    subst hct
    have hpending : (w.db.release c.by_).pending c.by_ = nothing := by
      simp only [Engine.release, Function.update_self]
      rfl
    cases h.2 c hc with
    | held hheld => exact .rolledBack ⟨hpending, hheld.1⟩
    | kept hkept => exact .kept (hkept.later List.prefix_rfl)
    | rolledBack hback => exact .rolledBack ⟨hpending, hback.2⟩
  tick_inv d w hL h := ⟨h.1, fun c hc => (h.2 c hc).evolves (Engine.evolves_tick _ _ _)⟩

/-! ## Threads that make no comparison -/

def Untried (t : Tid) (w : World schema (outside devCode)) : Prop := w.out.comparedBy t = []

theorem Untried.ne (h : Untried t w) (hc : c ∈ w.out.compared) : c.by_ ≠ t := by
  intro hct
  have hmem : c ∈ w.out.comparedBy t := List.mem_filter.2 ⟨hc, by simpa using hct⟩
  rw [h] at hmem
  cases hmem

theorem Untried.evolves (h : Untried t w) (hev : w.Evolves aging.shared t w') : Untried t w' := hev.mine.trans h

def Mute : Op schema (outside devCode) → Prop
  | .ask (.compare ..) => False
  | _ => True

variable {o : Op schema (outside devCode)} {input : Input} {x : o.Res}

theorem exec_move (h : w.exec t o input = some (x, w')) : w.db.Move t w'.db := by
  cases o with
  | sql o =>
    obtain ⟨⟨y, e'⟩, he, hx⟩ := Option.map_eq_some_iff.1 h
    cases hx
    exact Engine.exec_move he
  | now | ask =>
    cases h
    exact Engine.move_refl t _

theorem mute_compared (ho : Mute o) (h : w.exec t o input = some (x, w')) : w'.out.compared = w.out.compared := by
  cases o with
  | sql o =>
    obtain ⟨⟨y, e'⟩, he, hx⟩ := Option.map_eq_some_iff.1 h
    cases hx
    rfl
  | now =>
    cases h
    rfl
  | ask q =>
    cases h
    cases q <;> first | rfl | exact ho.elim

theorem mute_step (ho : Mute o) (hL : w.db.Lawful aging.shared) (hI : Budgeted w) (hq : Untried t w)
    (h : w.exec t o input = some (x, w')) : Budgeted w' ∧ Untried t w' := by
  have hout := mute_compared ho h
  refine ⟨hI.step hL (exec_move h) hout fun c hc hct => absurd hct (hq.ne hc), ?_⟩
  unfold Untried Store.comparedBy
  rw [hout]
  exact hq

theorem mute_ensures {α : Type} {p : Prg devCode α} (hp : Only Mute p) (h : Untried t w) :
    (budget devCode).Ensures t p (fun _ w' => Untried t w') w :=
  ensures_mono (fun _ _ ⟨_, _, h⟩ => h) (ensures_of_footprint (fun _ w => Untried t w)
    (fun _ _ _ hev _ _ h => h.evolves hev) (fun _ _ _ _ _ _ ho hL hI hq he _ _ => mute_step ho hL hI hq he) (hp false) h)

theorem mute_sql (o : Stmt schema) : Mute (.sql o : Op schema (outside devCode)) := trivial

theorem mute_send (phone : String) : Only Mute (OtpService.send phone : Prg devCode Response) := by
  unfold OtpService.send
  refine only_bind (only_ask trivial) fun _ => only_bind (only_raiseIf _ _) fun _ =>
    only_bind (only_ask trivial) fun _ => only_bind (only_raiseIf _ _) fun _ => only_bind (only_ask trivial) fun _ => ?_
  split
  · exact only_ret _
  refine only_bind (only_ask trivial) fun _ => ?_
  split
  · exact only_ret _
  refine only_bind (only_ask trivial) fun _ => only_bind (only_now trivial) fun _ =>
    only_bind (only_tenantSession (mute_sql _) (mute_sql _) (mute_sql _) fun txNow => ?_) fun _ => only_bind (only_ask trivial) fun _ =>
      only_bind (only_raiseIf _ _) fun _ => only_ret _
  refine only_bind (only_bind (only_select (mute_sql _) _) fun _ => only_bind (only_updateEach (fun _ => mute_sql _) _ _) fun _ =>
    only_ret _) fun _ => only_insert (mute_sql _) _

theorem mute_create (phone : String) (token : Secret) : Only Mute (create phone token : Prg devCode Response) := by
  unfold create
  refine only_tenantSession (mute_sql _) (mute_sql _) (mute_sql _) fun txNow => only_bind (only_bind (only_now trivial) fun _ =>
    only_bind (only_select (mute_sql _) _) fun _ => only_bind (only_updateEach (fun _ => mute_sql _) _ _) fun rows => ?_) fun _ =>
      only_bind (only_raiseIf _ _) fun _ => only_bind (only_ask trivial) fun _ => only_bind (only_raiseIf _ _) fun _ =>
        only_bind (only_insert (mute_sql _) _) fun _ => only_ret _
  split
  · exact only_ret _
  · exact only_ret _
  · exact only_raise _

/-! ## The thread that compares -/

structure Rested (t : Tid) (w : World schema (outside devCode)) : Prop where
  untried : Untried t w
  idle : w.db.pending t = nothing
  mine : w.db.own t = []

/-- The counter of row `i` is raised to `n` in flight. -/
structure Raised (t : Tid) (i n : Nat) (w : World schema (outside devCode)) : Prop where
  untried : Untried t w
  mine : w.db.own t = []
  raised : ∃ v r : OtpCode, w.db.committed .otpCodes i = some v ∧ w.db.pending t .otpCodes i = some r ∧
    r.attempts = v.attempts + 1 ∧ r.attempts = n

/-- The code is compared with row `i`, its counter raised in flight. -/
structure Tried (t : Tid) (i : Nat) (w : World schema (outside devCode)) : Prop where
  compared : w.out.comparedBy t = [⟨t, i⟩]
  held : Held w.db ⟨t, i⟩

def Accounted (t : Tid) (w : World schema (outside devCode)) : Prop := Untried t w ∨ w.db.own t ≠ []

/-- **An assertion about what a thread has written and compared.** -/
structure Settled (t : Tid) (Φ : World schema (outside devCode) → Prop) : Prop where
  evolves : ∀ w w', w.Evolves aging.shared t w' → Φ w → Φ w'
  same : ∀ w w' : World schema (outside devCode), w'.db.pending = w.db.pending → w'.db.log = w.db.log →
    w'.db.committed = w.db.committed → w'.out.compared = w.out.compared → Φ w → Φ w'

theorem own_congr {e : Engine schema} (h : e'.log = e.log) (t : Tid) : e'.own t = e.own t := by
  simp only [Engine.own, h]

theorem rested_settled : Settled t (Rested t : World schema (outside devCode) → Prop) where
  evolves w w' hev h := ⟨h.untried.evolves hev, hev.db.pending.trans h.idle, hev.db.since.own.trans h.mine⟩
  same w w' hp hl _ ho h := by
    refine ⟨?_, by rw [hp]; exact h.idle, (own_congr hl t).trans h.mine⟩
    unfold Untried Store.comparedBy
    rw [ho]
    exact h.untried

theorem raised_settled : Settled t (Raised t i n : World schema (outside devCode) → Prop) where
  evolves w w' hev h := by
    obtain ⟨hu, hm, v, r, hv, hr, hn⟩ := h
    refine ⟨hu.evolves hev, hev.db.since.own.trans hm, v, r, ?_, ?_, hn⟩
    · rw [hev.db.owned _ _ _ hr]
      exact hv
    · rw [hev.db.pending]
      exact hr
  same w w' hp hl hc ho h := by
    refine ⟨?_, (own_congr hl t).trans h.mine, by rw [hp, hc]; exact h.raised⟩
    unfold Untried Store.comparedBy
    rw [ho]
    exact h.untried

theorem tried_settled : Settled t (Tried t i : World schema (outside devCode) → Prop) where
  evolves w w' hev h := ⟨hev.mine.trans h.compared, h.held.evolves hev.db⟩
  same w w' hp hl hc ho h := by
    obtain ⟨hown, hrow⟩ := h.held
    refine ⟨?_, (own_congr hl t).trans hown, by rw [hp, hc]; exact hrow⟩
    unfold Store.comparedBy
    rw [ho]
    exact h.compared

def Still : Op schema (outside devCode) → Prop
  | .now => True
  | .ask (.compare ..) => False
  | .ask _ => True
  | .sql .begin => True
  | .sql (.read _) => True
  | .sql _ => False

section Verify

variable {α β : Type} {Q : Except Err β → World schema (outside devCode) → Prop}

variable {Φ : World schema (outside devCode) → Prop} {code : Secret}

theorem still_call (hΦ : Settled t Φ) (ho : Still o) {k : o.Res → Prg devCode β} (h : Φ w)
    (hk : ∀ x w', Φ w' → (budget devCode).Ensures t (k x) Q w') : (budget devCode).Ensures t (.call o k) Q w := by
  refine ensures_call fun w1 hev hL hI input x w2 he _ _ => ?_
  have h1 := hΦ.evolves w w1 hev h
  have hsame : w2.db.pending = w1.db.pending ∧ w2.db.log = w1.db.log ∧ w2.db.committed = w1.db.committed ∧
      w2.out.compared = w1.out.compared := by
    cases o with
    | now =>
      cases he
      exact ⟨rfl, rfl, rfl, rfl⟩
    | ask q =>
      cases he
      cases q <;> first | exact ⟨rfl, rfl, rfl, rfl⟩ | exact ho.elim
    | sql o =>
      cases o with
      | begin | read =>
        cases he
        exact ⟨rfl, rfl, rfl, rfl⟩
      | update | insert | lock | commit | abort => exact ho.elim
  obtain ⟨hp, hl, hc, hout⟩ := hsame
  refine ⟨⟨by rw [hout]; exact hI.1, fun c hcm => ?_⟩, hk x w2 (hΦ.same w1 w2 hp hl hc hout h1)⟩
  rw [hout] at hcm
  cases hI.2 c hcm with
  | held hheld => exact .held ⟨(own_congr hl _).trans hheld.1, by rw [hp, hc]; exact hheld.2⟩
  | kept hkept => exact .kept (hkept.later (hl ▸ List.prefix_rfl))
  | rolledBack hback => exact .rolledBack ⟨by rw [hp]; exact hback.1, (own_congr hl _).trans hback.2⟩

theorem still_select (hΦ : Settled t Φ) {q : Query} {f : Snapshot schema → α} {k : α → Prg devCode β} (h : Φ w)
    (hk : ∀ a w', Φ w' → (budget devCode).Ensures t (k a) Q w') : (budget devCode).Ensures t (select q f >>= k) Q w :=
  still_call (o := .sql (.read q)) hΦ trivial h fun s w' h' => hk (f s) w' h'

def Shuts (t : Tid) : Except Err α → World schema (outside devCode) → Prop
  | .ok _, w => Untried t w ∨ ∃ i, Tried t i w
  | .error _, w => Untried t w

/-- **The transaction of a decision**: the comparison it may have made is committed with its raise. -/
theorem decide_ensures {body : Int → Prg devCode α} {f : α → Prg devCode β} (h : Rested t w)
    (hbody : ∀ n w', Rested t w' → (budget devCode).Ensures t (body n) (Shuts t) w')
    (herr : ∀ e w', Untried t w' → Q (.error e) w')
    (hok : ∀ a w', Accounted t w' → (budget devCode).Ensures t (f a) Q w') :
    (budget devCode).Ensures t (tenantSession body >>= f) Q w := by
  refine ensures_bind (still_call (o := .sql .begin) rested_settled trivial h fun n w1 h1 => ?_)
  change (budget devCode).Ensures t ((body n).attempt >>= _) _ _
  refine ensures_bind ?_
  rw [Ensures, Prog.wp_attempt]
  refine ensures_mono (fun x w2 hx => ?_) (hbody n w1 h1)
  cases x with
  | error e =>
    refine ensures_call fun w3 hev hL hI _ _ w4 he _ _ => ?_
    obtain ⟨hI4, hu⟩ := mute_step (mute_sql _) hL hI (Untried.evolves hx hev) he
    exact ⟨hI4, herr e w4 hu⟩
  | ok a =>
    refine ensures_call fun w3 hev hL hI _ _ w4 he _ _ => ?_
    rcases hx with hu | ⟨i, htried⟩
    · obtain ⟨hI4, hu4⟩ := mute_step (mute_sql _) hL hI (hu.evolves hev) he
      exact ⟨hI4, hok a w4 (.inl hu4)⟩
    · have h3 := tried_settled.evolves _ _ hev htried
      cases he
      obtain ⟨-, v, r, hv, hr, hcounted⟩ := h3.held
      have hentry : (w3.db.commit t).log[w3.db.log.length]? = some (w3.db.entry t) := by simp [Engine.commit]
      refine ⟨hI.step hL (Engine.move_commit t _) rfl fun c hc hct => ?_, hok a _ (.inr ?_)⟩
      · have hmem : c ∈ w3.out.comparedBy t := List.mem_filter.2 ⟨hc, by simpa using hct⟩
        rw [h3.compared, List.mem_singleton] at hmem
        subst hmem
        exact .kept ⟨_, _, hentry, rfl, v, r, hv, hr, hcounted⟩
      · have hmem : w3.db.entry t ∈ (w3.db.commit t).own t :=
          List.mem_filter.2 ⟨List.mem_of_getElem? hentry, by simp [Engine.entry]⟩
        exact List.ne_nil_of_mem hmem

theorem raise_ensures {k : Nat → Prg devCode β} (h : Rested t w) (herr : ∀ e w', Untried t w' → Q (.error e) w')
    (hok : ∀ n w', Raised t i n w' → (budget devCode).Ensures t (k n) Q w') :
    (budget devCode).Ensures t (OtpCodes.incrementAttempts i >>= k) Q w := by
  refine ensures_call fun w1 hev hL hI _ x w2 he _ hA => ?_
  have h1 := rested_settled.evolves _ _ hev h
  obtain ⟨hI2, hu⟩ := mute_step (mute_sql _) hL hI h1.untried he
  refine ⟨hI2, ?_⟩
  obtain ⟨⟨y, e'⟩, he', hx⟩ := Option.map_eq_some_iff.1 he
  cases hx
  rcases Engine.update_cases he' with ⟨hn, rfl, rfl⟩ | ⟨v, r, hv, hr, -, ⟨rfl, rfl, -⟩ | ⟨rfl, rfl, -⟩⟩
  · obtain ⟨v, hv, hlive⟩ : ∃ v : OtpCode, w1.db.view t .otpCodes i = some v ∧ v.deletedAt = none := hA
    rw [hv] at hn
    simp [applyChange, OtpCodeChange.apply, hlive] at hn
  · exact herr _ _ hu
  · have hr' : OtpCodeChange.apply v .incrementAttempts = some r := hr
    simp only [OtpCodeChange.apply] at hr'
    split at hr' <;> cases hr'
    rw [Engine.view_idle h1.idle] at hv
    exact hok _ _ ⟨hu, h1.mine, v, _, hv, by simp [Engine.write], rfl, rfl⟩

theorem compare_ensures {stored : Digest} {k : Bool → Prg devCode β} (h : Raised t i n w)
    (hn : n ≤ OTP_MAX_VERIFY_ATTEMPTS) (hok : ∀ a w', Tried t i w' → (budget devCode).Ensures t (k a) Q w') :
    (budget devCode).Ensures t (ask (.compare i code stored) >>= k) Q w := by
  refine ensures_call fun w1 hev hL hI _ x w2 he _ _ => ?_
  have h1 := raised_settled.evolves _ _ hev h
  cases he
  obtain ⟨v, r, hv, hr, hraised, rfl⟩ := h1.raised
  have hheld : Held w1.db ⟨t, i⟩ := ⟨h1.mine, v, r, hv, hr, hraised, hn⟩
  refine ⟨⟨?_, fun c hc => ?_⟩, hok _ _ ⟨?_, hheld⟩⟩
  · have hnot : t ∉ w1.out.compared.map Comparison.by_ := by
      intro hm
      obtain ⟨c, hc, hct⟩ := List.mem_map.1 hm
      exact h1.untried.ne hc hct
    simpa [serve, List.nodup_append] using ⟨hI.1, fun c hc hct => hnot (List.mem_map.2 ⟨c, hc, hct⟩)⟩
  · have hmem : c ∈ w1.out.compared ++ [⟨t, i⟩] := hc
    rcases List.mem_append.1 hmem with hc | hc
    · exact hI.2 c hc
    · rw [List.mem_singleton] at hc
      subst hc
      exact .held hheld
  · have hu : w1.out.comparedBy t = [] := h1.untried
    simp [serve, Store.comparedBy] at hu ⊢
    simpa using hu

theorem mark_ensures {hash : Digest} {expiresAt txNow : Int} {k : Option OtpCode → Prg devCode β} (h : Tried t i w)
    (hok : ∀ a w', Tried t i w' → (budget devCode).Ensures t (k a) Q w') :
    (budget devCode).Ensures t (OtpCodes.markConsumed i hash expiresAt txNow >>= k) Q w := by
  refine ensures_call fun w1 hev hL hI _ x w2 he _ _ => ?_
  have h1 := tried_settled.evolves _ _ hev h
  obtain ⟨⟨y, e'⟩, he', hx⟩ := Option.map_eq_some_iff.1 he
  cases hx
  obtain ⟨hown, v0, r0, hv0, hr0, hcounted⟩ := h1.held
  have hsame : ∀ r : OtpCode, OtpCodeChange.apply r0 (.markConsumed hash expiresAt txNow) = some r →
      r.attempts = r0.attempts := by
    intro r hr
    simp only [OtpCodeChange.apply] at hr
    split at hr <;> cases hr
    rfl
  rcases Engine.update_cases he' with ⟨hn, rfl, rfl⟩ | ⟨v, r, hv, hr, -, ⟨rfl, rfl, hrefused⟩ | ⟨rfl, rfl, -⟩⟩
  · exact ⟨hI, hok none _ h1⟩
  · exfalso
    rw [Engine.view_pending hr0] at hv
    cases hv
    rcases hrefused with hcheck | ⟨j, -, -, hj⟩
    · have hcap := hcounted.capped
      have hattempts := hsame r hr
      simp only [check, decide_eq_false_iff_not] at hcheck
      simp only [OTP_MAX_VERIFY_ATTEMPTS] at hcap
      omega
    · simp [Engine.settled] at hj
  · rw [Engine.view_pending hr0] at hv
    cases hv
    have hattempts := hsame r hr
    have hheld : Held (w1.db.write t Table.otpCodes i r) ⟨t, i⟩ := by
      refine ⟨hown, v0, r, hv0, by simp [Engine.write], ?_, ?_⟩
      · rw [hattempts]
        exact hcounted.raised
      · rw [hattempts]
        exact hcounted.capped
    refine ⟨hI.step hL (exec_move he) rfl fun c hc hct => ?_, ?_⟩
    · have hmem : c ∈ w1.out.comparedBy t := List.mem_filter.2 ⟨hc, by simpa using hct⟩
      rw [h1.compared, List.mem_singleton] at hmem
      subst hmem
      exact .held hheld
    · have h2 : Tried t i (⟨w1.db.write t Table.otpCodes i r, w1.out⟩ : World schema (outside devCode)) :=
        ⟨h1.compared, hheld⟩
      exact still_select tried_settled h2 hok

theorem tryCode_ensures {row : OtpCode} {now txNow : Int} (h : Rested t w) :
    (budget devCode).Ensures t (OtpService.tryCode row code now txNow) (Shuts t) w := by
  unfold OtpService.tryCode
  refine raise_ensures h (fun _ _ h => h) fun n w1 h1 => ?_
  split
  · exact .inl h1.untried
  split
  · exact .inl h1.untried
  · rename_i hn _
    refine compare_ensures h1 (by omega) fun same w2 h2 => ?_
    split
    · exact .inr ⟨_, h2⟩
    refine still_call (o := .ask .generateSessionToken) tried_settled trivial h2 fun token w3 h3 => ?_
    refine mark_ensures h3 fun consumed w4 h4 => ?_
    split <;> exact .inr ⟨_, h4⟩

theorem verify_ensures {phone : String} (h : Rested t w) :
    (budget devCode).Ensures t (OtpService.verify phone code) (fun _ w' => Accounted t w') w := by
  unfold OtpService.verify
  refine still_call (o := .now) rested_settled trivial h fun now w1 h1 => ?_
  refine still_call (o := .ask (.isBlocked .verify)) rested_settled trivial h1 fun blocked w2 h2 => ?_
  refine ensures_raiseIf (fun _ => .inl h2.untried) fun _ => ?_
  refine decide_ensures h2 (fun txNow w3 h3 => ?_) (fun e w' hu => .inl hu) fun outcome w3 h3 => ?_
  · unfold OtpCodes.latestActiveByPhone
    refine still_select rested_settled h3 fun row w4 h4 => ?_
    split
    · exact .inl h4.untried
    split
    · exact .inl h4.untried
    · exact tryCode_ensures h4
  · split <;> exact h3

end Verify

theorem request_budgeted (req : Request) (h : Rested t w) :
    (budget devCode).Ensures t (req.code : Prg devCode Response) (fun _ w' => Accounted t w') w := by
  cases req with
  | send phone => exact ensures_mono (fun _ _ h => .inl h) (mute_ensures (mute_send phone) h.untried)
  | verify phone code => exact verify_ensures h
  | create phone token => exact ensures_mono (fun _ _ h => .inl h) (mute_ensures (mute_create phone token) h.untried)

/-! ## The cap -/

/-- The comparison stands at count `n`, raised from version `m` of its row. -/
structure At (e : Engine schema) (c : Comparison) (m n : Nat) : Prop where
  le : m ≤ e.log.length
  from_ : ∃ v : OtpCode, e.version m .otpCodes c.otpId = some v ∧ n = v.attempts + 1
  capped : n ≤ OTP_MAX_VERIFY_ATTEMPTS
  by_ : ∀ d, e.log[m]? = some d → d.by_ = c.by_ ∧ ∃ r : OtpCode, d.writes .otpCodes c.otpId = some r ∧ r.attempts = n
  open_ : m = e.log.length → (e.pending c.by_ .otpCodes c.otpId).isSome

theorem at_of_spent (h : Spent e c) (hstands : ¬RolledBack e c.by_) : ∃ m n, At e c m n := by
  cases h with
  | held h =>
    obtain ⟨-, v, r, hv, hr, hraised, hcap⟩ := h
    refine ⟨e.log.length, r.attempts, Nat.le_refl _, ⟨v, ?_, hraised⟩, hcap, fun d hd => ?_, fun _ => by rw [hr]; rfl⟩
    · rw [Engine.version_length]
      exact hv
    · simp at hd
  | kept h =>
    obtain ⟨m, d, hd, hby, v, r, hv, hr, hraised, hcap⟩ := h
    have hlt := (List.getElem?_eq_some_iff.1 hd).1
    refine ⟨m, r.attempts, hlt.le, ⟨v, ?_, hraised⟩, hcap, fun d' hd' => ?_, fun hm => by omega⟩
    · simp only [Engine.version, hd]
      exact hv
    · rw [hd] at hd'
      cases hd'
      exact ⟨hby, r, hr, rfl⟩
  | rolledBack h => exact absurd h hstands

theorem At.lt {c' : Comparison} {m' n' : Nat} (hL : e.Lawful aging.shared) (h : At e c m n) (h' : At e c' m' n')
    (hrow : c.otpId = c'.otpId) (hlt : m < m') : n < n' := by
  have hm : m < e.log.length := hlt.trans_le h'.le
  have hd : e.log[m]? = some e.log[m] := List.getElem?_eq_getElem hm
  obtain ⟨-, r, hr, hrn⟩ := h.by_ _ hd
  obtain ⟨v', hv', hn'⟩ := h'.from_
  have hafter : e.version (m + 1) .otpCodes c.otpId = some r := by
    rw [hL.linked m _ hd]
    exact Rows.over_some hr
  rw [← hrow] at hv'
  have hages := (version_ages hL (m := m + 1) (by omega) h'.le hafter hv').attempts
  omega

theorem At.ne {c' : Comparison} {m' n' : Nat} (hL : e.Lawful aging.shared) (h : At e c m n) (h' : At e c' m' n')
    (hrow : c.otpId = c'.otpId) (hby : c.by_ ≠ c'.by_) : n ≠ n' := by
  rcases Nat.lt_trichotomy m m' with hlt | rfl | hlt
  · exact (h.lt hL h' hrow hlt).ne
  · exfalso
    by_cases hm : m < e.log.length
    · have hd : e.log[m]? = some e.log[m] := List.getElem?_eq_getElem hm
      exact hby ((h.by_ _ hd).1.symm.trans (h'.by_ _ hd).1)
    · have hlen : m = e.log.length := by
        have := h.le
        omega
      obtain ⟨r, hr⟩ := Option.isSome_iff_exists.1 (h.open_ hlen)
      obtain ⟨r', hr'⟩ := Option.isSome_iff_exists.1 (h'.open_ hlen)
      have howner := hL.owner_of_pending hr
      rw [hrow] at howner
      exact hby (Option.some.inj (howner.symm.trans (hL.owner_of_pending hr')))
  · exact (h'.lt hL h hrow.symm hlt).ne'

theorem Budgeted.capped (hL : w.db.Lawful aging.shared) (h : Budgeted w) {l : List Comparison}
    (hl : l.Sublist w.out.compared) (hrow : ∀ c ∈ l, c.otpId = i ∧ ¬RolledBack w.db c.by_) :
    l.length ≤ OTP_MAX_VERIFY_ATTEMPTS := by
  have hat : ∀ c, c ∈ l → ∃ n m, At w.db c m n := fun c hc =>
    let ⟨m, n, hmn⟩ := at_of_spent (h.2 c (hl.subset hc)) (hrow c hc).2
    ⟨n, m, hmn⟩
  choose! count place hcount using hat
  have hnodup : (l.map Comparison.by_).Nodup := h.1.sublist (hl.map _)
  have hcounts : (l.map count).Nodup := by
    refine List.Nodup.map_on (fun c hc c' hc' heq => ?_) hnodup.of_map
    by_contra hne
    have hby : c.by_ ≠ c'.by_ := fun hby => hne (List.inj_on_of_nodup_map hnodup hc hc' hby)
    exact (hcount c hc).ne hL (hcount c' hc') ((hrow c hc).1.trans (hrow c' hc').1.symm) hby heq
  have hsub : l.map count ⊆ List.range' 1 OTP_MAX_VERIFY_ATTEMPTS := by
    intro n hn
    obtain ⟨c, hc, rfl⟩ := List.mem_map.1 hn
    obtain ⟨v, -, hn⟩ := (hcount c hc).from_
    have hcap := (hcount c hc).capped
    rw [List.mem_range'_1]
    omega
  have hle := (hcounts.subperm hsub).length_le
  simpa using hle

end Otp
