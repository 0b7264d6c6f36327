import Boutique.Tending
/-!
# Skips — the law of the queue's skips

Over every run: the count of a ticket tells its skips, each count is skipped from once, only a skip that carried the last
count removes, a ticket leaves the queue once, and every answer was so while its request ran.
-/
namespace Floor

open Txn Session Contract

variable {cfg : Config} {reqs : Tid → Request} {t : Tid} {e e' : Engine schema} {rows : Rows schema} {next : Nat}
  {clock : Int} {c c₁ : Conf (machine schema outside Err) Response} {i : Nat}

def skips (reqs : Tid → Request) (i : Nat) (d : Commit schema) : Bool :=
  match reqs d.by_ with
  | .skip j _ _ => j = i ∧ (d.writes .tickets i).isSome
  | _ => false

variable {d : Commit schema} {q : QueueTicket} {n seen : Int} {k : Nat}

theorem skips_iff : skips reqs i d = true ↔
    ∃ seen actor, reqs d.by_ = .skip i seen actor ∧ (d.writes .tickets i).isSome = true := by
  unfold skips
  cases hreq : reqs d.by_ with
  | skip j seen actor =>
    simp only [decide_eq_true_eq, Request.skip.injEq]
    constructor
    · rintro ⟨rfl, hw⟩
      exact ⟨seen, actor, ⟨rfl, rfl, rfl⟩, hw⟩
    · rintro ⟨_, _, ⟨rfl, -, -⟩, hw⟩
      exact ⟨rfl, hw⟩
  | _ => simp

/-! ## One change of a ticket -/

theorem apply_skip_row {v : QueueTicket} (h : TicketChange.apply v (.skip n seen) = some q) :
    v.waiting = true ∧ v.skipCount = seen ∧ q.skipCount = seen + 1 ∧ q.calledAt = none ∧
      (q.status = .removed ↔ SKIP_LIMIT ≤ seen + 1) := by
  simp only [TicketChange.apply] at h
  split at h <;> cases h
  rename_i hc
  obtain ⟨hw, hcount⟩ := hc
  refine ⟨hw, hcount, by rw [hcount], rfl, ?_⟩
  rw [← hcount]
  dsimp only
  split <;> simp_all

theorem apply_kept {v : QueueTicket} {g : TicketChange} (hg : ∀ n seen, g ≠ .skip n seen)
    (h : TicketChange.apply v g = some q) :
    q.skipCount = v.skipCount ∧ (v.calledAt.isSome = true → q.calledAt = v.calledAt) := by
  rcases g with _ | _ | _ | ⟨n, seen⟩ | _ | _ <;> simp only [TicketChange.apply] at h
  case skip => exact absurd rfl (hg n seen)
  all_goals (split at h <;> cases h)
  case call =>
    rename_i hc
    refine ⟨rfl, fun hcalled => ?_⟩
    rw [hc.2] at hcalled
    cases hcalled
  all_goals exact ⟨rfl, fun _ => rfl⟩

theorem tends_skip {req : Request} (h : req.tends i (.skip n seen)) : ∃ actor, req = .skip i seen actor := by
  cases req with
  | skip j seen' actor =>
    obtain ⟨rfl, rfl⟩ := h
    exact ⟨actor, rfl⟩
  | _ => exact h.elim

/-- **A ticket a commit wrote**: skipped by a skip, or with its count and its summons kept. -/
theorem Tends.cases (h : Tends (reqs d.by_) i (d.before .tickets i) q) (hw : d.writes .tickets i = some q) :
    ∃ v : QueueTicket, d.before .tickets i = some v ∧
      ((∃ n seen actor, reqs d.by_ = .skip i seen actor ∧ skips reqs i d = true ∧
          TicketChange.apply v (.skip n seen) = some q) ∨
        (skips reqs i d = false ∧ q.skipCount = v.skipCount ∧ (v.calledAt.isSome = true → q.calledAt = v.calledAt))) := by
  obtain ⟨v, g, hv, hg, htends⟩ := h
  refine ⟨v, hv, ?_⟩
  by_cases hskip : ∃ n seen, g = .skip n seen
  · obtain ⟨n, seen, rfl⟩ := hskip
    obtain ⟨actor, hreq⟩ := tends_skip htends
    exact .inl ⟨n, seen, actor, hreq, skips_iff.2 ⟨seen, actor, hreq, by rw [hw]; rfl⟩, hg⟩
  · refine .inr ⟨?_, apply_kept (fun n seen hn => hskip ⟨n, seen, hn⟩) hg⟩
    by_contra htrue
    obtain ⟨seen, actor, hreq, -⟩ := skips_iff.1 (by simpa using htrue)
    rw [hreq] at htends
    cases g with
    | skip n seen' => exact hskip ⟨n, seen', rfl⟩
    | _ => exact htends

/-! ## The versions of a ticket -/

def skipsTo (reqs : Tid → Request) (i k : Nat) (e : Engine schema) : Nat :=
  (e.log.take k).countP (skips reqs i)

theorem skipsTo_mono {k' : Nat} (h : k ≤ k') : skipsTo reqs i k e ≤ skipsTo reqs i k' e :=
  ((List.take_prefix_take_left (l := e.log) h).sublist).countP_le

theorem skipsTo_succ (hd : e.log[k]? = some d) :
    skipsTo reqs i (k + 1) e = skipsTo reqs i k e + if skips reqs i d then 1 else 0 := by
  simp [skipsTo, List.take_add_one, hd, List.countP_append, List.countP_singleton]

section Versions

variable {q₀ : QueueTicket} (hL : e.Lawful lasting.shared)
  (hI : ∀ m d, e.log[m]? = some d → (tended reqs).Holds e m d) (h0 : e.version 0 .tickets i = some q₀)
include hL hI

omit hI in
theorem version_entry (hk : k < e.log.length) :
    ∃ d, e.log[k]? = some d ∧ d.before = e.version k ∧ e.version (k + 1) .tickets i =
      (match d.writes .tickets i with | some q => some q | none => d.before .tickets i) := by
  have hd : e.log[k]? = some e.log[k] := List.getElem?_eq_getElem hk
  refine ⟨_, hd, by simp [Engine.version, hd], ?_⟩
  rw [hL.linked k _ hd, Commit.after]
  cases hw : e.log[k].writes .tickets i with
  | none => exact Rows.over_none hw
  | some q => exact Rows.over_some hw

include h0

theorem count_law : ∀ k, k ≤ e.log.length → ∃ q : QueueTicket, e.version k .tickets i = some q ∧
    q.skipCount = q₀.skipCount + skipsTo reqs i k e
  | 0, _ => ⟨q₀, h0, by simp [skipsTo]⟩
  | k + 1, hk => by
    obtain ⟨q, hq, hcount⟩ := count_law k (by omega)
    obtain ⟨d, hd, hbefore, hafter⟩ := version_entry hL hk (i := i)
    rw [hbefore, hq] at hafter
    rw [skipsTo_succ hd]
    cases hw : d.writes .tickets i with
    | none =>
      rw [hw] at hafter
      have hnot : skips reqs i d = false := by
        by_contra htrue
        obtain ⟨_, _, -, hsome⟩ := skips_iff.1 (by simpa using htrue)
        rw [hw] at hsome
        cases hsome
      exact ⟨q, hafter, by simp [hnot, hcount]⟩
    | some r =>
      rw [hw] at hafter
      obtain ⟨v, hv, hcases⟩ := (hI k d hd i r hw).cases hw
      rw [hbefore, hq] at hv
      cases hv
      refine ⟨r, hafter, ?_⟩
      rcases hcases with ⟨n, seen, actor, -, hskips, hg⟩ | ⟨hskips, hsame, -⟩
      · obtain ⟨-, hseen, hr, -, -⟩ := apply_skip_row hg
        simp only [hskips, if_true, hr, ← hseen, hcount]
        omega
      · rw [hskips, hsame, hcount]
        simp

theorem below_limit (hstart : q₀.waiting = true → q₀.skipCount < SKIP_LIMIT) : ∀ k, k ≤ e.log.length →
    ∀ q : QueueTicket, e.version k .tickets i = some q → q.waiting = true → q.skipCount < SKIP_LIMIT
  | 0, _, q, hq, hw => by
    rw [h0] at hq
    cases hq
    exact hstart hw
  | k + 1, hk, q, hq, hw => by
    obtain ⟨u, hu, -⟩ := count_law hL hI h0 k (by omega)
    have ih := below_limit hstart k (by omega) u hu
    obtain ⟨d, hd, hbefore, hafter⟩ := version_entry hL hk (i := i)
    rw [hbefore, hu, hq] at hafter
    cases hwrite : d.writes .tickets i with
    | none =>
      rw [hwrite] at hafter
      cases hafter
      exact ih hw
    | some r =>
      rw [hwrite] at hafter
      cases hafter
      obtain ⟨v, hv, hcases⟩ := (hI k d hd i q hwrite).cases hwrite
      rw [hbefore, hu] at hv
      cases hv
      rcases hcases with ⟨n, seen, actor, -, -, hg⟩ | ⟨-, hsame, -⟩
      · obtain ⟨-, hseen, hcount, -, hremoved⟩ := apply_skip_row hg
        by_contra hge
        have hgone : q.status = .removed := hremoved.2 (by omega)
        rw [(waiting_live hw).2] at hgone
        cases hgone
      · have hback := waits_back hL hI (Nat.le_succ k) hk (i := i) ⟨q, hq, hw⟩
        obtain ⟨u', hu', hwu⟩ := hback
        rw [hu] at hu'
        cases hu'
        rw [hsame]
        exact ih hwu

omit hL h0 in
theorem skip_entry {m : Nat} {actor : StaffContext} (hd : e.log[m]? = some d)
    (hreq : reqs d.by_ = .skip i seen actor) (hs : skips reqs i d = true) : ∃ v q : QueueTicket,
      e.version m .tickets i = some v ∧ d.writes .tickets i = some q ∧ v.waiting = true ∧ v.skipCount = seen ∧
        (q.status = .removed ↔ SKIP_LIMIT ≤ seen + 1) := by
  obtain ⟨_, _, -, hsome⟩ := skips_iff.1 hs
  obtain ⟨q, hw⟩ := Option.isSome_iff_exists.1 hsome
  obtain ⟨v, hv, ⟨n, seen', actor', hreq', -, hg⟩ | ⟨hnot, -⟩⟩ := (hI m d hd i q hw).cases hw
  · rw [hreq] at hreq'
    cases hreq'
    obtain ⟨hvw, hcount, -, -, hremoved⟩ := apply_skip_row hg
    have hbefore : e.version m = d.before := by simp [Engine.version, hd]
    exact ⟨v, q, by rw [hbefore]; exact hv, hw, hvw, hcount, hremoved⟩
  · rw [hs] at hnot
    cases hnot

theorem skip_once {m m' : Nat} {d' : Commit schema} {actor actor' : StaffContext} (hd : e.log[m]? = some d)
    (hd' : e.log[m']? = some d') (hreq : reqs d.by_ = .skip i seen actor)
    (hreq' : reqs d'.by_ = .skip i seen actor') (hs : skips reqs i d = true)
    (hs' : skips reqs i d' = true) : ¬m < m' := by
  intro hlt
  have hm' : m' ≤ e.log.length := (List.getElem?_eq_some_iff.1 hd').1.le
  obtain ⟨v, -, hv, -, -, hseen, -⟩ := skip_entry hI hd hreq hs
  obtain ⟨v', -, hv', -, -, hseen', -⟩ := skip_entry hI hd' hreq' hs'
  obtain ⟨u, hu, hcount⟩ := count_law hL hI h0 m (by omega)
  obtain ⟨u', hu', hcount'⟩ := count_law hL hI h0 m' hm'
  rw [hv] at hu
  rw [hv'] at hu'
  cases hu
  cases hu'
  have hsucc : skipsTo reqs i (m + 1) e = skipsTo reqs i m e + if skips reqs i d then 1 else 0 := skipsTo_succ hd
  have hmono : skipsTo reqs i (m + 1) e ≤ skipsTo reqs i m' e := skipsTo_mono hlt
  simp only [hs, if_true] at hsucc
  omega

theorem changed_apart {L m0 : Nat} (h : Changed i seen n L e) (hm0 : m0 ≤ L) (hq : e.version m0 .tickets i = some q)
    (hseen : q.skipCount = seen) : n ≠ seen := by
  obtain ⟨m, m', hLm, hmm, hm', ⟨u, hu, -, hne⟩, u', hu', -, hn⟩ := h
  obtain ⟨v0, hv0, h₀⟩ := count_law hL hI h0 m0 (by omega)
  obtain ⟨v, hv, h1⟩ := count_law hL hI h0 m (by omega)
  obtain ⟨v', hv', h2⟩ := count_law hL hI h0 m' hm'
  rw [hq] at hv0
  rw [hu] at hv
  rw [hu'] at hv'
  cases hv0
  cases hv
  cases hv'
  have hfirst : skipsTo reqs i m0 e ≤ skipsTo reqs i m e := skipsTo_mono (Nat.le_trans hm0 hLm)
  have hsecond : skipsTo reqs i m e ≤ skipsTo reqs i m' e := skipsTo_mono hmm
  omega

end Versions

/-! ## Whole runs -/

theorem tended_runs (h : Shelved rows next) (hr : Conf.Reaches (serving cfg reqs rows next clock) c) :
    Logic.Sound (tending reqs).logic (fun _ _ _ => True) c := by
  refine ((tending reqs).runs (serving_obeyed h) (by simp [Ledger.contract, serving, staged, atRest])
    (fun t p hp => ?_) hr).1
  cases hp
  exact safe_of_ensures (request_answered (L := 0) rfl (Nat.zero_le _)) fun _ _ _ _ _ _ _ => trivial

theorem answered_runs (h : Shelved rows next)
    (h1 : Conf.Steps (fun u _ _ _ _ => u ≠ t) (serving cfg reqs rows next clock) c₁) (h2 : c₁.Reaches c) :
    (∀ r, c.threads t = some (.ret r) → Answered (reqs t) t c₁.state.db.log.length c.state.db (.ok r)) ∧
      ∀ x, c.threads t = some (.raise x) → Answered (reqs t) t c₁.state.db.log.length c.state.db (.error x) := by
  have hob : Cast.Obeyed lasting.shared (serving cfg reqs rows next clock) := serving_obeyed h
  obtain ⟨hidle, hcode⟩ := hob.unbegun (A := fun _ _ _ _ _ => True) ⟨rfl⟩
    (Conf.Steps.mono (fun _ _ _ _ _ hu => ⟨hu, trivial⟩) h1)
  have h1' : Conf.Reaches (serving cfg reqs rows next clock) c₁ := Conf.Steps.mono (fun _ _ _ _ _ _ => trivial) h1
  have hsound1 := tended_runs h h1'
  refine (tending reqs).follows (Q := fun x w => Answered (reqs t) t c₁.state.db.log.length w.db x)
    (hob.steps h1').1 hsound1.inv.2 (fun u p _ hp => hsound1.safe u p hp) (fun p hp => ?_) h2
  cases hcode p hp
  exact safe_of_ensures (request_answered hidle.pending (Nat.le_refl _)) fun x w w' hx hev _ _ =>
    (lasts_answered x).evolves hev.db hx

/-- **The law of the skips**, over every run: each commit makes one change of its request to the ticket it found; the
count of the ticket tells the skips that succeeded, and no two succeed from one count; only a skip that carried the count 1
removes; a ticket that waits has waited in every version before; a skip clears the summons and nothing else moves one; and
every answer is true of a moment of its request, a changed count being another than the one that was rendered. -/
theorem skip_law (h : Shelved rows next) {q₀ : QueueTicket} (hq : rows .tickets i = some q₀)
    (hlimit : q₀.waiting = true → q₀.skipCount < SKIP_LIMIT)
    (hr : Conf.Reaches (serving cfg reqs rows next clock) c) :
    (∀ d ∈ c.state.db.log, ∀ q : QueueTicket, d.writes .tickets i = some q → ∃ v g, d.before .tickets i = some v ∧
      TicketChange.apply v g = some q ∧ (reqs d.by_).tends i g) ∧
    (∃ q : QueueTicket, c.state.db.committed .tickets i = some q ∧
      q.skipCount = q₀.skipCount + c.state.db.log.countP (skips reqs i)) ∧
    (∀ (m m' : Nat) (d d' : Commit schema) seen actor actor', c.state.db.log[m]? = some d → c.state.db.log[m']? = some d' →
      reqs d.by_ = .skip i seen actor → reqs d'.by_ = .skip i seen actor' → skips reqs i d = true →
      skips reqs i d' = true → m = m') ∧
    (∀ d ∈ c.state.db.log, ∀ seen actor (q : QueueTicket), reqs d.by_ = .skip i seen actor →
      d.writes .tickets i = some q → q.status = .removed → seen = 1) ∧
    (∀ m n, m ≤ n → n ≤ c.state.db.log.length → Waits (c.state.db.version n .tickets i) →
      Waits (c.state.db.version m .tickets i)) ∧
    (∀ d ∈ c.state.db.log, ∀ v q : QueueTicket, d.before .tickets i = some v → d.writes .tickets i = some q →
      if skips reqs i d then q.calledAt = none else v.calledAt.isSome = true → q.calledAt = v.calledAt) ∧
    ∀ t c₁, Conf.Steps (fun u _ _ _ _ => u ≠ t) (serving cfg reqs rows next clock) c₁ → c₁.Reaches c →
      (∀ r, c.threads t = some (.ret r) → Answered (reqs t) t c₁.state.db.log.length c.state.db (.ok r)) ∧
      (∀ x, c.threads t = some (.raise x) → Answered (reqs t) t c₁.state.db.log.length c.state.db (.error x)) ∧
      ∀ seen actor n, reqs t = .skip i seen actor → c.threads t = some (.raise (.queueTicketChanged n)) →
        (∃ m, m ≤ c₁.state.db.log.length ∧ ∃ q : QueueTicket, c.state.db.version m .tickets i = some q ∧
          q.skipCount = seen) → n ≠ seen := by
  have hob : Cast.Obeyed lasting.shared (serving cfg reqs rows next clock) := serving_obeyed h
  have hL := (hob.steps hr).1.lawful
  have hI := (tended_runs h hr).inv.2
  have hledger : ∀ d ∈ c.state.db.log, ∀ q : QueueTicket, d.writes .tickets i = some q →
      Tends (reqs d.by_) i (d.before .tickets i) q := by
    intro d hd q hw
    obtain ⟨m, hm⟩ := List.mem_iff_getElem?.1 hd
    exact hI m d hm i q hw
  have h0 : c.state.db.version 0 .tickets i = some q₀ := by
    rw [(hob.history hr).2 0 (Nat.le_refl 0)]
    exact hq
  have hcount := count_law hL hI h0
  refine ⟨hledger, ?_, fun m m' d d' seen actor actor' hd hd' hreq hreq' hs hs' => ?_,
    fun d hd seen actor q hreq hw hremoved => ?_, fun m n hmn hn => waits_back hL hI hmn hn,
    fun d hd v q hv hw => ?_, fun t c₁ h1 h2 => ?_⟩
  · obtain ⟨q, hq, hc⟩ := hcount _ (Nat.le_refl _)
    rw [Engine.version_length] at hq
    exact ⟨q, hq, by simpa [skipsTo] using hc⟩
  · have hlt := skip_once hL hI h0 hd hd' hreq hreq' hs hs'
    have hgt := skip_once hL hI h0 hd' hd hreq' hreq hs' hs
    omega
  · obtain ⟨m, hm⟩ := List.mem_iff_getElem?.1 hd
    have hs : skips reqs i d = true := skips_iff.2 ⟨seen, actor, hreq, by rw [hw]; rfl⟩
    obtain ⟨v, r, hv, hr, hvw, hseen, hlast⟩ := skip_entry hI hm hreq hs
    rw [hw] at hr
    cases hr
    have hlt := below_limit hL hI h0 hlimit m (List.getElem?_eq_some_iff.1 hm).1.le v hv hvw
    have hge := hlast.1 hremoved
    simp only [SKIP_LIMIT] at hlt hge
    omega
  · obtain ⟨u, hu, ⟨n, seen, actor, -, hskips, hg⟩ | ⟨hskips, -, hkept⟩⟩ := (hledger d hd q hw).cases hw
    · rw [if_pos hskips]
      exact (apply_skip_row hg).2.2.2.1
    · rw [hv] at hu
      cases hu
      rw [if_neg (by rw [hskips]; nofun)]
      exact hkept
  · obtain ⟨hok, hraised⟩ := answered_runs h h1 h2
    refine ⟨hok, hraised, fun seen actor n hreq hraise ⟨m, hm, u, hu, hseen⟩ => ?_⟩
    have hrefused : Refused (reqs t) i c₁.state.db.log.length c.state.db (.queueTicketChanged n) :=
      hraised _ hraise i (by rw [hreq]; rfl)
    obtain ⟨seen', actor', hreq', hchanged⟩ := hrefused
    rw [hreq] at hreq'
    cases hreq'
    exact changed_apart hL hI h0 hchanged hm hu hseen

def twoSkips : Tid → Request := fun t => .skip 2 0 ⟨10 + t, .shiftManager⟩

/-- The first tap moves her back, and the second is told of it. -/
theorem skip_law_raced : ∃ c, (serving ⟨utc⟩ twoSkips (listed (S := schema) oneWaiting) 3 0).Reaches c ∧
    c.state.db.log.countP (skips twoSkips 2) = 1 ∧
    (∃ q : QueueTicket, c.state.db.committed .tickets 2 = some q ∧
      q.skipCount = 0 + c.state.db.log.countP (skips twoSkips 2)) ∧
    ∃ x, c.threads 1 = some (.raise x) ∧ x = .queueTicketChanged 1 ∧ Answered (twoSkips 1) 1 0 c.state.db (.error x) := by
  obtain ⟨c, hc, hP⟩ := Conf.reached_freely (serving ⟨utc⟩ twoSkips (listed (S := schema) oneWaiting) 3 0)
    (List.replicate 8 (.call 0 ⟨none, none, false, none⟩) ++ List.replicate 5 (.call 1 ⟨none, none, false, none⟩))
    (fun c => decide (c.state.db.log.countP (skips twoSkips 2) = 1) &&
      decide (c.failure 1 = some (.queueTicketChanged 1))) (by decide)
  simp only [Bool.and_eq_true, decide_eq_true_eq] at hP
  obtain ⟨hcount, hsecond⟩ := hP
  have hlaw := skip_law (i := 2) oneWaiting_shelved rfl (by decide) hc
  refine ⟨c, hc, hcount, hlaw.2.1, ?_⟩
  have hx := Conf.failure_eq_some.1 hsecond
  exact ⟨_, hx, rfl, (hlaw.2.2.2.2.2.2 1 _ .refl hc).2.1 _ hx⟩

end Floor
