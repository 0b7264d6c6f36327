import Boutique.NoOversell
import Boutique.TxnSession
/-!
# OneWeek — the weekly hours are always one saved week

A replacement is judged before its transaction opens, by neighbours in the order of the day.  Under the lock it retires
the live rules and inserts its own, one by one; nobody else writes a rule.
-/
namespace Boutique

open Txn Contract

/-! ## Which weeks are accepted -/

def WeeklyRuleInput.Overlaps (rule rule' : WeeklyRuleInput) : Prop :=
  rule.dayOfWeek = rule'.dayOfWeek ∧ rule.openTime.micros < rule'.closeTime.micros ∧
    rule'.openTime.micros < rule.closeTime.micros

/-- A window on a day of the week that closes after it opens, with seats. -/
structure WeeklyRuleInput.WellFormed (rule : WeeklyRuleInput) : Prop where
  day : 0 ≤ rule.dayOfWeek ∧ rule.dayOfWeek ≤ 6
  opens : rule.openTime.micros < rule.closeTime.micros
  capacity : 0 < rule.capacity ∧ rule.capacity ≤ MAX_RULE_CAPACITY

/-- **A week that can be saved.** -/
structure Week (rules : List WeeklyRuleInput) : Prop where
  few : rules.length ≤ MAX_WEEKLY_RULES
  formed : ∀ rule ∈ rules, rule.WellFormed
  apart : rules.Pairwise fun rule rule' => ¬rule.Overlaps rule'

variable {rule rule' : WeeklyRuleInput} {α : Type} {rules : List WeeklyRuleInput} {rows : Rows schema}
  {r : AvailabilityRule} {job : Job} {e : Engine schema} {log : List (Commit schema)}

theorem WeeklyRuleInput.Overlaps.symm (h : rule.Overlaps rule') : rule'.Overlaps rule :=
  ⟨h.1.symm, h.2.2, h.2.1⟩

theorem validateWeeklyRule_iff (rule : WeeklyRuleInput) : validateWeeklyRule rule = .ok () ↔ rule.WellFormed := by
  unfold validateWeeklyRule
  constructor
  · intro h
    split at h
    · cases h
    split at h
    · cases h
    split at h
    · cases h
    rename_i hday hopens hcap
    exact ⟨not_not.1 hday, by omega, not_not.1 hcap⟩
  · rintro ⟨hday, hopens, hcap⟩
    rw [if_neg (not_not.2 hday), if_neg (by omega), if_neg (not_not.2 hcap)]

theorem forM_ok_iff {f : α → Except Err Unit} :
    ∀ {l : List α}, l.forM f = .ok () ↔ ∀ a ∈ l, f a = .ok ()
  | [] => by simp [pure, Except.pure]
  | a :: l => by
    have ih := forM_ok_iff (f := f) (l := l)
    cases ha : f a with
    | error e => simp [bind, Except.bind, ha]
    | ok u =>
      rw [show (a :: l).forM f = l.forM f by rw [List.forM, ha]; rfl, List.forall_mem_cons]
      exact ih.trans ⟨fun h => ⟨ha, h⟩, fun h => h.2⟩

theorem apart_iff : ∀ {l : List WeeklyRuleInput}, (∀ rule ∈ l, rule.WellFormed) →
    (apart l = true ↔ l.Pairwise fun rule rule' => rule.closeTime.micros ≤ rule'.openTime.micros)
  | [], _ => by simp [apart]
  | [rule], _ => by simp [apart]
  | rule :: next :: l, h => by
    have ih := apart_iff (l := next :: l) fun rule' hm => h rule' (List.mem_cons_of_mem _ hm)
    have hnext := (h next (by simp)).opens
    rw [apart, Bool.and_eq_true, decide_eq_true_eq, ih, List.pairwise_cons (a := rule)]
    refine and_congr_left fun hp => ⟨fun hle rule' hm => ?_, fun hall => hall next (by simp)⟩
    rcases List.mem_cons.1 hm with rfl | hm
    · exact hle
    · have hlater := (List.pairwise_cons.1 hp).1 rule' hm
      omega

def WeeklyRuleInput.before (rule rule' : WeeklyRuleInput) : Prop :=
  rule.openTime.micros < rule'.openTime.micros ∨
    rule.openTime = rule'.openTime ∧ rule.closeTime.micros ≤ rule'.closeTime.micros

theorem ordered_perm (rules : List WeeklyRuleInput) (dayOfWeek : Int) :
    (ordered rules dayOfWeek).Perm (rules.filter fun rule => rule.dayOfWeek = dayOfWeek) := List.perm_insertionSort _ _

theorem ordered_sorted (rules : List WeeklyRuleInput) (dayOfWeek : Int) :
    (ordered rules dayOfWeek).Pairwise WeeklyRuleInput.before := by
  have htotal : Std.Total WeeklyRuleInput.before := ⟨fun rule rule' => by
    rcases Int.lt_trichotomy rule.openTime.micros rule'.openTime.micros with h | h | h
    · exact .inl (.inl h)
    · have hopen : rule.openTime = rule'.openTime := by
        cases ho : rule.openTime
        cases ho' : rule'.openTime
        simp_all
      rcases Int.le_total rule.closeTime.micros rule'.closeTime.micros with hc | hc
      · exact .inl (.inr ⟨hopen, hc⟩)
      · exact .inr (.inr ⟨hopen.symm, hc⟩)
    · exact .inr (.inl h)⟩
  have htrans : IsTrans _ WeeklyRuleInput.before := ⟨fun rule rule' rule'' h h' => by
    unfold WeeklyRuleInput.before at *
    rcases h with h | ⟨h, hc⟩ <;> rcases h' with h' | ⟨h', hc'⟩
    · exact .inl (h.trans h')
    · exact .inl (h' ▸ h)
    · exact .inl (h ▸ h')
    · exact .inr ⟨h.trans h', hc.trans hc'⟩⟩
  exact @List.pairwise_insertionSort _ WeeklyRuleInput.before (fun _ _ => instDecidableOr) htotal htrans _

theorem before_le (h : rule.before rule') : rule.openTime.micros ≤ rule'.openTime.micros := by
  rcases h with h | ⟨h, -⟩
  · exact h.le
  · rw [h]

/-- **One day's windows, judged by neighbours in their order, keep apart exactly when no two of them overlap.** -/
theorem apart_ordered_iff (h : ∀ rule ∈ rules, rule.WellFormed) (dayOfWeek : Int) :
    apart (ordered rules dayOfWeek) = true ↔
      (rules.filter fun rule => rule.dayOfWeek = dayOfWeek).Pairwise fun rule rule' => ¬rule.Overlaps rule' := by
  have hmem : ∀ {rule}, rule ∈ ordered rules dayOfWeek → rule ∈ rules ∧ rule.dayOfWeek = dayOfWeek := fun hm => by
    simpa using (ordered_perm rules dayOfWeek).mem_iff.1 hm
  rw [apart_iff fun rule hm => h rule (hmem hm).1,
    ← (ordered_perm rules dayOfWeek).pairwise_iff fun hn ho => hn ho.symm]
  have hsorted := ordered_sorted rules dayOfWeek
  constructor
  · intro hp
    exact hp.imp fun hle ho => absurd ho.2.2 (by omega)
  · intro hp
    refine (hp.and hsorted).imp_of_mem fun {rule rule'} hm hm' hb => ?_
    have hopens := (h rule' (hmem hm').1).opens
    have hle := before_le hb.2
    by_contra hlt
    exact hb.1 ⟨(hmem hm).2.trans (hmem hm').2.symm, by omega, by omega⟩

theorem validateWeeklyRules_iff (rules : List WeeklyRuleInput) : validateWeeklyRules rules = .ok () ↔ Week rules := by
  have hdays (h : ∀ rule ∈ rules, rule.WellFormed) :
      (rules.all fun rule => apart (ordered rules rule.dayOfWeek)) = true ↔ rules.Pairwise fun rule rule' => ¬rule.Overlaps rule' := by
    rw [List.all_eq_true]
    constructor
    · intro hall
      refine List.pairwise_iff_forall_sublist.2 fun {rule rule'} hs ho => ?_
      have hfilter : [rule, rule'].Sublist (rules.filter fun r => r.dayOfWeek = rule.dayOfWeek) := by
        have := hs.filter fun r => r.dayOfWeek = rule.dayOfWeek
        simpa [ho.1.symm] using this
      have hp := (apart_ordered_iff h rule.dayOfWeek).1 (hall rule (hs.subset (by simp)))
      exact List.pairwise_iff_forall_sublist.1 hp hfilter ho
    · intro hp rule hm
      exact (apart_ordered_iff h rule.dayOfWeek).2 (hp.filter _)
  have hbody : validateWeeklyRules rules = if MAX_WEEKLY_RULES < rules.length then
        .error (.boutiqueValidation ("at most " ++ toString MAX_WEEKLY_RULES ++ " weekly windows are allowed"))
      else (rules.forM validateWeeklyRule).bind fun _ => if rules.all fun rule => apart (ordered rules rule.dayOfWeek) then
        .ok () else .error (.boutiqueValidation "windows on the same day must not overlap") := by
    unfold validateWeeklyRules
    by_cases hfew : MAX_WEEKLY_RULES < rules.length
    · simp only [if_pos hfew]
      rfl
    · simp only [if_neg hfew]
      cases rules.forM validateWeeklyRule with
      | error e => rfl
      | ok u => cases rules.all fun rule => apart (ordered rules rule.dayOfWeek) <;> rfl
  rw [hbody]
  constructor
  · intro h
    split at h
    · cases h
    rename_i hfew
    cases hformed : rules.forM validateWeeklyRule with
    | error e =>
      rw [hformed] at h
      cases h
    | ok u =>
      have hwell : ∀ rule ∈ rules, rule.WellFormed := fun rule hm =>
        (validateWeeklyRule_iff rule).1 (forM_ok_iff.1 hformed rule hm)
      rw [hformed, Except.bind] at h
      split at h
      · rename_i hall
        exact ⟨Nat.le_of_not_lt hfew, hwell, (hdays hwell).1 hall⟩
      · cases h
  · rintro ⟨hfew, hwell, hp⟩
    rw [if_neg (Nat.not_lt.2 hfew), forM_ok_iff.2 fun rule hm => (validateWeeklyRule_iff rule).2 (hwell rule hm),
      Except.bind, if_pos ((hdays hwell).2 hp)]

/-! ## What is live -/

def AvailabilityRule.window (r : AvailabilityRule) : WeeklyRuleInput :=
  ⟨r.dayOfWeek, r.openTime, r.closeTime, r.capacity⟩

/-- **The live rules**, in the order they were inserted. -/
def liveHours (s : Snapshot schema) : List WeeklyRuleInput :=
  ((s.all .availabilityRules).filter fun (r : AvailabilityRule) => r.deletedAt = none).map AvailabilityRule.window

theorem active_hours (s : Snapshot schema) : ((Rules.active s).map AvailabilityRule.window).Perm (liveHours s) :=
  (List.perm_insertionSort _ _).map _

def Say (rows : Rows schema) (rules : List WeeklyRuleInput) : Prop :=
  ∀ n, (∀ i, n ≤ i → rows .availabilityRules i = none) → liveHours ⟨rows, n⟩ = rules

theorem Say.congr {rows' : Rows schema} (h : Say rows rules) (hs : rows' .availabilityRules = rows .availabilityRules) :
    Say rows' rules := by
  intro n hn
  rw [hs] at hn
  rw [← h n hn]
  unfold liveHours
  rw [all_congr (s := ⟨rows', n⟩) (u := ⟨rows, n⟩) hs rfl]

theorem liveHours_of_bounded {n n' : Nat} (h : ∀ i, n ≤ i → rows .availabilityRules i = none)
    (h' : ∀ i, n' ≤ i → rows .availabilityRules i = none) : liveHours ⟨rows, n⟩ = liveHours ⟨rows, n'⟩ := by
  unfold liveHours
  rw [all_of_none h h']

theorem say_nil (h : ∀ i (r : AvailabilityRule), rows .availabilityRules i = some r → r.deletedAt ≠ none) :
    Say rows [] := by
  intro n _
  have hnone : (Snapshot.all ⟨rows, n⟩ .availabilityRules).filter
      (fun (r : AvailabilityRule) => r.deletedAt = none) = [] := by
    rw [List.filter_eq_nil_iff]
    intro r hr
    obtain ⟨i, -, hi⟩ := Snapshot.mem_all.1 hr
    simpa using h i r hi
  unfold liveHours
  rw [hnone]
  rfl

theorem Say.insert {i : Nat} (h : Say rows rules) (hi : ∀ j, i ≤ j → rows .availabilityRules j = none)
    (hr : r.deletedAt = none) : Say (rows.set .availabilityRules i r) (rules ++ [r.window]) := by
  intro n hn
  have hsucc : ∀ j, i + 1 ≤ j → rows.set .availabilityRules i r .availabilityRules j = none := fun j hj => by
    rw [set_other_row (by omega)]
    exact hi j (by omega)
  have hold : (List.range i).filterMap (rows.set .availabilityRules i r .availabilityRules) =
      (List.range i).filterMap (rows .availabilityRules) :=
    List.filterMap_congr fun j hj => set_other_row (List.mem_range.1 hj).ne
  have hall : Snapshot.all ⟨rows.set .availabilityRules i r, i + 1⟩ .availabilityRules =
      Snapshot.all ⟨rows, i⟩ .availabilityRules ++ [r] := by
    unfold Snapshot.all
    rw [List.range_succ, List.filterMap_append, hold]
    simp
  rw [liveHours_of_bounded hn hsucc, ← h i hi]
  unfold liveHours
  rw [hall, List.filter_append, List.map_append]
  simp [hr]

/-! ## What the commits do to them -/

def Job.week : Job → Option (List WeeklyRuleInput)
  | .replaceWeeklyRules rules => some rules
  | _ => none

def Job.edits : Job → Bool
  | .replaceWeeklyRules _ | .addException .. | .removeException _ => true
  | _ => false

/-- **A replacement commits the whole of its own week**, any other request leaves the rules alone. -/
def hoursLedger (jobs : Tid → Job) : Ledger schema where
  Holds _ _ c := (∀ rules, (jobs c.by_).week = some rules → Week rules ∧ Say c.after rules) ∧
    ((jobs c.by_).week = none → c.after .availabilityRules = c.before .availabilityRules)
  stable _ _ _ _ _ _ _ h := h

def OpRuleless : Op schema service → Prop
  | .sql (.update .availabilityRules _ _) => False
  | .sql (.insert .availabilityRules _) => False
  | _ => True

section

variable {l : Bool} {o : Op schema service} {b : Nat} {event : WebhookEvent} {G : Int → Prop}

theorem ReminderWrites.ruleless (h : ReminderWrites b l o) : OpRuleless o := by
  cases h <;> trivial

theorem SendWrites.ruleless {kind : MessageKind} (h : SendWrites kind b l o) : OpRuleless o := by
  cases h <;> trivial

theorem ClaimWrites.ruleless (h : ClaimWrites l o) : OpRuleless o := by
  cases h <;> trivial

theorem OpenWrites.ruleless (h : OpenWrites b l o) : OpRuleless o := by
  cases h <;> trivial

theorem EffectWrites.ruleless (h : EffectWrites G l o) : OpRuleless o := by
  cases h with
  | reminder _ _ h => exact h.ruleless
  | send _ _ _ h => exact h.ruleless
  | _ => trivial

theorem VerbWrites.ruleless (h : VerbWrites G l o) : OpRuleless o := by
  cases h <;> trivial

theorem MoveWrites.ruleless (h : MoveWrites G b l o) : OpRuleless o := by
  cases h with
  | reminder _ h => exact h.ruleless
  | _ => trivial

theorem RouteWrites.ruleless (h : RouteWrites l o) : OpRuleless o := by
  cases h with
  | claim h => exact h.ruleless
  | tail h =>
    cases h with
    | open_ _ h => exact h.ruleless
    | send _ h => exact h.ruleless

theorem Job.ruleless (hjob : job.edits = false) (h : job.Writes l o) : OpRuleless o := by
  cases job with
  | createBooking | claim => exact ClaimWrites.ruleless h
  | postBookings | claimOffer => exact RouteWrites.ruleless h
  | delivery =>
    cases h with
    | settle h => cases h <;> trivial
    | effect h => exact h.ruleless
  | sweep => cases h <;> trivial
  | reschedule => exact MoveWrites.ruleless h
  | checkIn | undoCheckIn => cases h <;> trivial
  | ownerConfirm | ownerNoShow | ownerComplete | ownerCancel | customerCancel => exact VerbWrites.ruleless h
  | replaceWeeklyRules | addException | removeException => cases hjob

end

def ruleless : Discipline schema where
  Trans _ T r r' := T = .availabilityRules → r' = r
  New _ T _ := T ≠ .availabilityRules
  refl _ _ _ _ := rfl
  trans _ _ _ _ _ h h' hT := (h' hT).trans (h hT)
  weaken _ _ _ h := h
  new_trans _ _ _ _ h _ := h
  new_weaken _ _ h := h

theorem ruleless_legal (hjob : job.edits = false) {l : Bool} {o : Op schema service} (h : job.Writes l o) :
    ruleless.Legal l o := by
  have ho := Job.ruleless hjob h
  cases o with
  | sql o =>
    cases o with
    | update T i g =>
      rintro r r' - hr rfl
      exact ho.elim
    | insert T r =>
      rintro i n rfl
      exact ho.elim
    | _ => trivial
  | now | ask => trivial

variable {jobs : Tid → Job} {cfg : Config} {t : Tid}

theorem rules_seen (hjob : (jobs t).edits = false) (he : e.Lawful (Jobs jobs)) :
    e.view t .availabilityRules = e.committed .availabilityRules := by
  funext i
  have hin := he.inflight t .availabilityRules i
  cases hc : e.committed .availabilityRules i with
  | none =>
    rw [hc] at hin
    cases hv : e.view t .availabilityRules i with
    | none => rfl
    | some r =>
      rw [hv] at hin
      have hnew : (Discipline.ofWrites (jobs t).Writes fun _ => Job.locked).New (e.holds t) .availabilityRules r := hin
      exact absurd rfl (Discipline.ofWrites_new (D := ruleless) (fun o ho => ruleless_legal hjob ho) hnew)
  | some r =>
    rw [hc] at hin
    obtain ⟨r', hr', htrans⟩ := hin.some_left
    have hpart : (Discipline.ofWrites (jobs t).Writes fun _ => Job.locked).Trans (e.holds t) .availabilityRules r r' :=
      htrans
    rw [hr', Discipline.ofWrites_trans (D := ruleless) (fun o ho => ruleless_legal hjob ho) hpart rfl]

abbrev weekly (jobs : Tid → Job) : Contract (Jobs jobs) service Err :=
  (hoursLedger jobs).contract (Jobs jobs) fun _ _ _ _ _ => True

theorem weekly_historic : (weekly jobs).Historic calm := Ledger.historic _

theorem hours_of_same (hjob : (jobs t).week = none) (h : e.view t .availabilityRules = e.committed .availabilityRules) :
    (hoursLedger jobs).Holds (e.commit t) e.log.length (e.entry t) := by
  refine ⟨fun rules hr => ?_, fun _ => h⟩
  rw [show (jobs (e.entry t).by_).week = none from hjob] at hr
  cases hr

/-! ## A replacement -/

structure Laying (t : Tid) (rules : List WeeklyRuleInput) (w : BWorld) : Prop where
  locked : w.db.advisory = some t
  sight : Say (w.db.view t) rules

structure Retiring (t : Tid) (ids : List Nat) (w : BWorld) : Prop where
  locked : w.db.advisory = some t
  live : ∀ i (r : AvailabilityRule), w.db.view t .availabilityRules i = some r → r.deletedAt = none → i ∈ ids

variable {w w' : BWorld}

theorem rules_view (h : (weekly jobs).Point t w w') (hp : w'.db.pending t = w.db.pending t)
    (hlock : w.db.advisory = some t) : w'.db.view t .availabilityRules = w.db.view t .availabilityRules := by
  funext i
  unfold Engine.view Rows.overlay
  rw [hp, rules_since (jobs_under jobs) h.since hlock i]

theorem Laying.point (h : Laying t rules w) (hw : (weekly jobs).Point t w w') (hp : w'.db.pending t = w.db.pending t) :
    Laying t rules w' :=
  ⟨hw.since.advisory h.locked, h.sight.congr (rules_view hw hp h.locked)⟩

theorem Retiring.point {ids : List Nat} (h : Retiring t ids w) (hw : (weekly jobs).Point t w w')
    (hp : w'.db.pending t = w.db.pending t) : Retiring t ids w' := by
  refine ⟨hw.since.advisory h.locked, fun i r hr => h.live i r ?_⟩
  rwa [← rules_view hw hp h.locked]

theorem not_refuses {i : Nat} (h : rowCheck .availabilityRules r = true) : ¬e.Refuses t .availabilityRules i r := by
  rintro (hcheck | ⟨j, -, -, hset⟩)
  · rw [show schema.check .availabilityRules r = rowCheck .availabilityRules r from rfl, h] at hcheck
    cases hcheck
  · unfold Engine.settled at hset
    cases hv : e.view t .availabilityRules j with
    | none => simp [hv] at hset
    | some r' =>
      rw [hv, Bool.and_eq_true] at hset
      cases hset.2

theorem retired_of_apply {at_ : Int} {v : AvailabilityRule}
    (h : applyChange .availabilityRules (.softDelete at_) v = some r) : r = { v with deletedAt := some at_ } := by
  change (if v.deletedAt = none then some { v with deletedAt := some at_ } else none) = some r at h
  split at h <;> cases h
  rfl

theorem ensures_insertClear {k : AvailabilityRule → Prg α} {Q : Except Err α → BWorld → Prop}
    {C : Contract (Jobs jobs) service Err} (hC : C.Historic calm)
    (hcheck : ∀ i n, rowCheck .availabilityRules (stamp .availabilityRules i n r) = true) (hok : ∀ (w1 w2 : BWorld) n,
      C.Wrote t w w1 w2 .availabilityRules w1.db.next (stamp .availabilityRules w1.db.next n r) →
      C.Ensures t (k (stamp .availabilityRules w1.db.next n r)) Q w2) :
    C.Ensures t (Boutique.insert .availabilityRules r >>= k) Q w := by
  refine ensures_call fun w1 hev hL hI i x w2 he hL2 hA => ?_
  have hI2 := hC.exec (by simp) (by simp) he hI
  obtain ⟨⟨y, e'⟩, he', hx⟩ := Option.map_eq_some_iff.1 he
  cases hx
  rcases Engine.insert_cases he' with ⟨rfl, rfl, href⟩ | ⟨rfl, rfl, -⟩
  · exact absurd href (not_refuses (hcheck _ _))
  · exact ⟨hI2, hok w1 _ _ (wrote_write hev (point_evolves hev hL hI) (Nat.le_succ _) (Nat.lt_succ_self _) hL2 hI2)⟩

theorem retire_ensures {at_ : Int} : ∀ {ids : List Nat} {w : BWorld}, w.db.Lawful (Jobs jobs) → (weekly jobs).Inv w →
    Retiring t ids w → (weekly jobs).Ensures t (updateEach .availabilityRules (.softDelete at_) ids)
      (fun x w' => (∃ rs, x = .ok rs) ∧ (weekly jobs).Point t w w' ∧ Retiring t [] w') w
  | [], w, hL, hI, h => ⟨⟨[], rfl⟩, ⟨Engine.Since.refl _, hL, hI, rfl⟩, h⟩
  | i :: ids, w, hL, hI, h => by
    unfold updateEach
    have hrest : ∀ (r : Option AvailabilityRule) w1, (weekly jobs).Point t w w1 → Retiring t ids w1 →
        (weekly jobs).Ensures t (updateEach .availabilityRules (.softDelete at_) ids >>= fun rs => pure (r.toList ++ rs))
          (fun x w' => (∃ rs, x = .ok rs) ∧ (weekly jobs).Point t w w' ∧ Retiring t [] w') w1 := by
      intro r w1 h1 hr1
      refine ensures_bind (ensures_mono (fun x w2 hx => ?_) (retire_ensures h1.lawful h1.inv hr1))
      obtain ⟨⟨rs, rfl⟩, h2, hr2⟩ := hx
      exact ⟨⟨_, rfl⟩, h1.trans h2, hr2⟩
    refine ensures_updateRow weekly_historic (fun w1 v r h1 hp1 hv hr href => ?_) (fun w1 h1 hp1 hnone => ?_)
      fun w1 w2 v r h2 hv hr _ => ?_
    · have hcheck := (h1.lawful.view_consistent t).check .availabilityRules i v hv
      cases retired_of_apply hr
      exact absurd href (not_refuses hcheck)
    · refine hrest none w1 h1 ⟨(h.point h1 hp1).locked, fun j r hj hlive => ?_⟩
      rcases List.mem_cons.1 ((h.point h1 hp1).live j r hj hlive) with rfl | hmem
      · rw [hj] at hnone
        change applyChange .availabilityRules (.softDelete at_) r = none at hnone
        simp [applyChange, hlive] at hnone
      · exact hmem
    · refine hrest (some r) w2 h2.after
        ⟨h2.step.since.advisory (h.point h2.before h2.kept).locked, fun j r' hj hlive => ?_⟩
      rw [h2.view] at hj
      by_cases hji : j = i
      · subst hji
        rw [set_same_row] at hj
        cases hj
        cases retired_of_apply hr
        cases hlive
      · rw [set_other_row hji] at hj
        exact (List.mem_cons.1 ((h.point h2.before h2.kept).live j r' hj hlive)).resolve_left hji

def WeeklyRuleInput.row (rule : WeeklyRuleInput) : AvailabilityRule :=
  { id := 0, createdAt := 0, deletedAt := none, dayOfWeek := rule.dayOfWeek, openTime := rule.openTime,
    closeTime := rule.closeTime, capacity := rule.capacity.toNat }

theorem window_stamp (h : rule.WellFormed) (i : Nat) (n : Int) :
    AvailabilityRule.window (stamp .availabilityRules i n rule.row) = rule := by
  have hcap : ((rule.capacity.toNat : Nat) : Int) = rule.capacity := Int.toNat_of_nonneg h.capacity.1.le
  show (⟨rule.dayOfWeek, rule.openTime, rule.closeTime, ((rule.capacity.toNat : Nat) : Int)⟩ : WeeklyRuleInput) = rule
  rw [hcap]

theorem check_stamp (h : rule.WellFormed) (i : Nat) (n : Int) :
    rowCheck .availabilityRules (stamp .availabilityRules i n rule.row) = true := by
  have hcap := h.capacity.1
  show decide ((0 ≤ rule.dayOfWeek ∧ rule.dayOfWeek ≤ 6) ∧ 0 < rule.capacity.toNat ∧
    rule.openTime.micros < rule.closeTime.micros) = true
  exact decide_eq_true ⟨h.day, by omega, h.opens⟩

theorem insertEach_ensures : ∀ {rules done : List WeeklyRuleInput} {w : BWorld}, w.db.Lawful (Jobs jobs) →
    (weekly jobs).Inv w → (∀ rule ∈ rules, rule.WellFormed) → Laying t done w →
    (weekly jobs).Ensures t (BoutiqueService.insertEach rules)
      (fun x w' => (∃ rs, x = .ok rs) ∧ (weekly jobs).Point t w w' ∧ Laying t (done ++ rules) w') w
  | [], done, w, hL, hI, _, h => ⟨⟨[], rfl⟩, ⟨Engine.Since.refl _, hL, hI, rfl⟩, by rwa [List.append_nil]⟩
  | rule :: rules, done, w, hL, hI, hformed, h => by
    have hrule := hformed rule List.mem_cons_self
    change (weekly jobs).Ensures t (Boutique.insert .availabilityRules rule.row >>= fun row =>
      BoutiqueService.insertEach rules >>= fun rows => pure (row :: rows)) _ w
    refine ensures_insertClear weekly_historic (check_stamp hrule) fun w1 w2 n h2 => ?_
    have hlaid : Laying t (done ++ [rule]) w2 := by
      refine ⟨h2.step.since.advisory (h.point h2.before h2.kept).locked, ?_⟩
      have hbeyond : ∀ j, w1.db.next ≤ j → w1.db.view t .availabilityRules j = none := fun j hj => by
        cases hv : w1.db.view t .availabilityRules j with
        | none => rfl
        | some r => exact absurd (h2.before.lawful.view_lt hv) (by omega)
      have hnew := (h.point h2.before h2.kept).sight.insert (r := stamp .availabilityRules w1.db.next n rule.row)
        hbeyond rfl
      rw [window_stamp hrule] at hnew
      exact h2.view ▸ hnew
    refine ensures_bind (ensures_mono (fun x w3 hx => ?_)
      (insertEach_ensures h2.after.lawful h2.after.inv (fun r hr => hformed r (List.mem_cons_of_mem _ hr)) hlaid))
    obtain ⟨⟨rs, rfl⟩, h3, hl3⟩ := hx
    refine ⟨⟨_, rfl⟩, h2.after.trans h3, ?_⟩
    rwa [List.append_assoc] at hl3

/-- **A replacement** is refused exactly for its own list, before it opens a transaction, or commits that list. -/
theorem replace_ensures {k : List AvailabilityRule → Prg α} {Q : Except Err α → BWorld → Prop}
    (hjob : (jobs t).week = some rules) (hw : w.db.Idle t) (hbad : ¬Week rules → ∀ e, Q (.error e) w)
    (hok : Week rules → ∀ rs w', w'.db.own t ≠ [] → (weekly jobs).Ensures t (k rs) Q w') :
    (weekly jobs).Ensures t (BoutiqueService.replaceWeeklyRules rules >>= k) Q w := by
  unfold BoutiqueService.replaceWeeklyRules
  refine ensures_first (ensures_liftExcept (fun e he => hbad (fun hweek => ?_) e) fun _ hvalid => ?_)
  · rw [(validateWeeklyRules_iff rules).2 hweek] at he
    cases he
  have hweek : Week rules := (validateWeeklyRules_iff rules).1 hvalid
  refine ensures_session weekly_historic hw fun w1 n h1 _ => ?_
  refine ensures_advisoryLock weekly_historic fun w2 h2 _ hlock => ?_
  unfold Rules.softDeleteAll updateWhere
  refine ensures_first (ensures_select weekly_historic fun w3 h3 hp3 _ => ?_)
  have hretiring : Retiring t (matching ⟨w3.db.view t, w3.db.next⟩ .availabilityRules fun r =>
      (applyChange .availabilityRules (.softDelete n) r).isSome) w3 := by
    refine ⟨h3.since.advisory hlock, fun i r hr hlive => ?_⟩
    refine List.mem_map.2 ⟨r, List.mem_filter.2 ⟨Snapshot.mem_all.2 ⟨i, h3.lawful.view_lt hr, hr⟩, ?_⟩,
      (h3.lawful.view_consistent t).id .availabilityRules i r hr⟩
    simp [applyChange, hlive]
  refine ensures_bind (ensures_mono (fun x w4 hx => ?_) (retire_ensures h3.lawful h3.inv hretiring))
  obtain ⟨⟨rs, rfl⟩, h4, hretired⟩ := hx
  have hbare : Laying t [] w4 :=
    ⟨hretired.locked, say_nil fun i r hr hlive => by cases hretired.live i r hr hlive⟩
  refine ensures_mono (fun x w5 hx => ?_) (insertEach_ensures h4.lawful h4.inv hweek.formed hbare)
  obtain ⟨⟨rs', rfl⟩, -, hlaid⟩ := hx
  intro w6 h6 hp6 _ _ _ _
  have hsay := (hlaid.point h6 hp6).sight
  refine ⟨Ledger.inv_commit h6.inv ⟨fun rules' hr => ?_, fun hnone => ?_⟩, hok hweek rs' _ ?_⟩
  · rw [show (jobs (w6.db.entry t).by_).week = some rules from hjob] at hr
    cases hr
    exact ⟨hweek, hsay⟩
  · rw [show (jobs (w6.db.entry t).by_).week = some rules from hjob] at hnone
    cases hnone
  · rw [Engine.commit_own]
    simp

theorem exceptions_ensures {β : Type} {body : Int → Prg α} {k : α → Prg β} {Q : Except Err β → BWorld → Prop}
    (hjob : (jobs t).week = none) (hp : ∀ n, Within (Writes false (Touches [.availabilityExceptions])) false (body n))
    (hw : w.db.Idle t) (herr : ∀ e w', Q (.error e) w') (hok : ∀ a w', (weekly jobs).Ensures t (k a) Q w') :
    (weekly jobs).Ensures t (tenantSession body >>= k) Q w := by
  refine ensures_touching weekly_historic [.availabilityExceptions] hp hw (fun w' h hpend => ?_) (fun e w' _ => herr e w')
    fun a w' _ _ _ => hok a w'
  refine Ledger.inv_commit h.inv (hours_of_same hjob (Engine.view_table fun i => hpend _ (by decide) i))

theorem addException_ensures (hjob : (jobs t).week = none) (hw : w.db.Idle t) (date : Int)
    (openTime closeTime : Option WallTime) (note : Option String) :
    (weekly jobs).Ensures t (BoutiqueService.addAvailabilityException date openTime closeTime note) (fun _ _ => True) w := by
  unfold BoutiqueService.addAvailabilityException
  refine ensures_liftExcept (fun _ _ => trivial) fun _ _ => ?_
  refine ensures_liftExcept (fun _ _ => trivial) fun _ _ => ?_
  refine ensures_last (ensures_onIntegrity (ensures_last (exceptions_ensures hjob
    (fun n => (steady_insert (by simp [Touches])).within) hw (fun e w' => ?_) fun _ _ => trivial)))
  show if e = .integrity then _ else _
  split <;> trivial

theorem removeException_ensures (hjob : (jobs t).week = none) (hw : w.db.Idle t) (exceptionId : Nat) :
    (weekly jobs).Ensures t (BoutiqueService.removeAvailabilityException exceptionId) (fun _ _ => True) w := by
  unfold BoutiqueService.removeAvailabilityException
  exact exceptions_ensures hjob
    (fun n => ((steady_update (by simp [Touches])).bind fun _ => steady_pure _).within) hw (fun _ _ => trivial)
    fun removed w' => ensures_last (ensures_raiseIf (fun _ => trivial) fun _ => trivial)

def HoursEnd (job : Job) (t : Tid) (x : Except Err Reply) (w : BWorld) : Prop :=
  ∀ rules, job.week = some rules → (∀ reply, x = .ok reply → Week rules ∧ w.db.own t ≠ []) ∧
    ∀ e, x = .error e → ¬Week rules ∧ w.db.own t = []

theorem hoursEnd_of_none {x : Except Err Reply} (h : job.week = none) : HoursEnd job t x w := by
  intro rules hr
  rw [h] at hr
  cases hr

theorem replace_safe (hjob : jobs t = .replaceWeeklyRules rules) (hw : w.db.Idle t) (hown : w.db.own t = []) :
    (weekly jobs).logic.Safe t (Job.code cfg (.replaceWeeklyRules rules)) (HoursEnd (.replaceWeeklyRules rules) t) w := by
  refine safe_of_ensures (Q := HoursEnd (.replaceWeeklyRules rules) t) ?_ fun x w1 w2 h hev _ _ rules' hr => ?_
  · refine replace_ensures (by rw [hjob]; rfl) hw (fun hbad e rules' hr => ?_) fun hweek rs w' hown' rules' hr => ?_
    · cases hr
      exact ⟨fun reply hx => (by cases hx), fun e' _ => ⟨hbad, hown⟩⟩
    · cases hr
      exact ⟨fun reply _ => ⟨hweek, hown'⟩, fun e' hx => by cases hx⟩
  · rw [hev.db.since.own]
    exact h rules' hr

theorem hours_safe (job : Job) (hjob : jobs t = job) (hw : w.db.Idle t) (hown : w.db.own t = []) :
    (weekly jobs).logic.Safe t (job.code cfg) (HoursEnd job t) w := by
  have hplain {p : Prg Reply} {job : Job} (hnone : job.week = none)
      (hp : (weekly jobs).Ensures t p (fun _ _ => True) w) : (weekly jobs).logic.Safe t p (HoursEnd job t) w :=
    safe_of_ensures hp fun _ _ _ _ _ _ _ => hoursEnd_of_none hnone
  by_cases hedit : job.edits = true
  · cases job with
    | replaceWeeklyRules rules => exact replace_safe hjob hw hown
    | addException date openTime closeTime note =>
      exact hplain rfl (ensures_bind (ensures_mono (fun x _ _ => by cases x <;> trivial)
        (addException_ensures (hjob ▸ rfl) hw date openTime closeTime note)))
    | removeException id =>
      exact hplain rfl (ensures_bind (ensures_mono (fun x _ _ => by cases x <;> trivial)
        (removeException_ensures (hjob ▸ rfl) hw id)))
    | _ => cases hedit
  · have hother : (jobs t).edits = false := by
      rw [hjob]
      exact Bool.eq_false_iff.2 hedit
    have hnone : job.week = none := by
      cases job with
      | replaceWeeklyRules => exact absurd rfl hedit
      | _ => rfl
    exact Ledger.safe_of_lawful (fun e he _ => hours_of_same (hjob ▸ hnone) (rules_seen hother he)) fun x w' =>
      hoursEnd_of_none hnone

/-! ## The run -/

/-- **The week the commits leave**: the last one a replacement committed, or the one the run started with. -/
def weekAfter (jobs : Tid → Job) (week : List WeeklyRuleInput) (log : List (Commit schema)) : List WeeklyRuleInput :=
  log.foldl (fun week entry => (jobs entry.by_).week.getD week) week

theorem weekAfter_succ {week : List WeeklyRuleInput} {m : Nat} {entry : Commit schema} (h : log[m]? = some entry) :
    weekAfter jobs week (log.take (m + 1)) = (jobs entry.by_).week.getD (weekAfter jobs week (log.take m)) := by
  unfold weekAfter
  rw [List.take_add_one, h, Option.toList_some, List.foldl_append]
  rfl

theorem Week.after {week : List WeeklyRuleInput} (h : Week week)
    (hlog : ∀ entry ∈ log, ∀ rules, (jobs entry.by_).week = some rules → Week rules) :
    Week (weekAfter jobs week log) := by
  unfold weekAfter
  induction log generalizing week with
  | nil => exact h
  | cons entry log ih =>
    refine ih ?_ fun e he => hlog e (List.mem_cons_of_mem _ he)
    change Week ((jobs entry.by_).week.getD week)
    cases hweek : (jobs entry.by_).week with
    | none => exact h
    | some rules => exact hlog entry List.mem_cons_self rules hweek

/-- **The weekly hours are always one saved week.**  A list is accepted exactly when it is short enough, well formed and
without overlap on a day.  In every run: a replacement that returns has committed, and one that raises asked for no such week
and has committed nothing; at every version the live rules are the whole list of the last replacement to commit, or those the
run started with; and every statement of a booking, a waitlist claim or any other request reads them whole. -/
theorem hours_are_one_week {rows : Rows schema} {next : Nat} {now : Int} {c : Conf server Reply} (h : Tables rows next)
    (hr : (start cfg jobs rows next now).Reaches c) :
    (∀ rules, validateWeeklyRules rules = .ok () ↔ Week rules) ∧
    (∀ t rules, jobs t = .replaceWeeklyRules rules →
      (∀ reply, c.threads t = some (.ret reply) → Week rules ∧ c.state.db.own t ≠ []) ∧
      ∀ e, c.threads t = some (.raise e) → ¬Week rules ∧ c.state.db.own t = []) ∧
    (∀ entry ∈ c.state.db.log, ∀ rules, jobs entry.by_ = .replaceWeeklyRules rules → Week rules) ∧
    (∀ m, m ≤ c.state.db.log.length →
      liveHours ⟨c.state.db.version m, c.state.db.next⟩ =
        weekAfter jobs (liveHours ⟨rows, next⟩) (c.state.db.log.take m)) ∧
    (Week (liveHours ⟨rows, next⟩) → ∀ m, m ≤ c.state.db.log.length →
      Week (liveHours ⟨c.state.db.version m, c.state.db.next⟩)) ∧
    ∀ t, (jobs t).edits = false → ((Rules.active ⟨c.state.db.view t, c.state.db.next⟩).map AvailabilityRule.window).Perm
      (weekAfter jobs (liveHours ⟨rows, next⟩) c.state.db.log) := by
  have hI : (weekly jobs).Inv (start cfg jobs rows next now).state := fun m entry hm => by cases hm
  have hsafe : ∀ t p, (start cfg jobs rows next now).threads t = some p →
      (weekly jobs).logic.Safe t p (HoursEnd (jobs t) t) (start cfg jobs rows next now).state := by
    intro t p hp
    cases hp
    exact hours_safe (jobs t) rfl ⟨rfl⟩ rfl
  obtain ⟨hsound, hL⟩ := (weekly jobs).runs (start_obeyed h) hI hsafe hr
  have hledger : ∀ m entry, c.state.db.log[m]? = some entry → _ := hsound.inv.2
  have hweek : ∀ entry ∈ c.state.db.log, ∀ rules, (jobs entry.by_).week = some rules → Week rules := by
    intro entry hmem rules hrules
    obtain ⟨m, hm⟩ := List.mem_iff_getElem?.1 hmem
    exact ((hledger m entry hm).1 rules hrules).1
  have hbeyond : ∀ m, m ≤ c.state.db.log.length → ∀ i, c.state.db.next ≤ i →
      c.state.db.version m .availabilityRules i = none := by
    intro m hm i hi
    cases hv : c.state.db.version m .availabilityRules i with
    | none => rfl
    | some r => exact absurd (hL.version_lt hm hv) (by omega)
  have hstart : c.state.db.version 0 = rows := ((start_obeyed h).history hr).2 0 (Nat.le_refl 0)
  have hversions : ∀ m, m ≤ c.state.db.log.length →
      liveHours ⟨c.state.db.version m, c.state.db.next⟩ =
        weekAfter jobs (liveHours ⟨rows, next⟩) (c.state.db.log.take m) := by
    intro m hm
    induction m with
    | zero =>
      refine Eq.trans (liveHours_of_bounded (hbeyond 0 hm) fun i hi => ?_) (by rw [hstart]; rfl)
      rw [hstart]
      cases hv : rows .availabilityRules i with
      | none => rfl
      | some r => exact absurd (h.lt _ _ _ hv) (by omega)
    | succ m ih =>
      have hentry : c.state.db.log[m]? = some c.state.db.log[m] := List.getElem?_eq_getElem hm
      have hbefore : c.state.db.version m = c.state.db.log[m].before := by
        unfold Engine.version
        rw [hentry]
      have hafter := hL.linked m _ hentry
      have hholds := hledger m _ hentry
      rw [weekAfter_succ hentry, ← ih (by omega)]
      cases hjob : (jobs c.state.db.log[m].by_).week with
      | none =>
        have hsame := hholds.2 hjob
        rw [← hafter, ← hbefore] at hsame
        unfold liveHours
        rw [all_congr (s := ⟨c.state.db.version (m + 1), _⟩) (u := ⟨c.state.db.version m, _⟩) hsame rfl]
        rfl
      | some rules =>
        have hsay := (hholds.1 rules hjob).2
        rw [← hafter] at hsay
        exact hsay _ (hbeyond (m + 1) hm)
  refine ⟨validateWeeklyRules_iff, fun t rules hjob => ⟨fun reply ht => ?_, fun e ht => ?_⟩,
    fun entry hmem rules hjob => ?_, hversions, fun hinit m hm => ?_, fun t hjob => ?_⟩
  · exact (hsound.finished ht rules (by rw [hjob]; rfl)).1 reply rfl
  · exact (hsound.raised ht rules (by rw [hjob]; rfl)).2 e rfl
  · exact hweek entry hmem rules (by rw [hjob]; rfl)
  · rw [hversions m hm]
    exact hinit.after fun entry hmem => hweek entry (List.mem_of_mem_take hmem)
  · have hall := hversions _ (Nat.le_refl _)
    rw [List.take_length, Engine.version_length] at hall
    rw [← hall]
    refine (active_hours _).trans (.of_eq ?_)
    unfold liveHours
    rw [all_congr (s := ⟨c.state.db.view t, _⟩) (u := ⟨c.state.db.committed, _⟩) (rules_seen hjob hL) rfl]

/-- Sundays from nine to noon and Mondays the same, while Dana books. -/
def sundaysAndMondays : List WeeklyRuleInput :=
  [⟨0, ⟨9 * 3600 * second, nine_nonneg, nine_lt_day⟩, ⟨12 * 3600 * second, noon_nonneg, noon_lt_day⟩, 2⟩,
    ⟨1, ⟨9 * 3600 * second, nine_nonneg, nine_lt_day⟩, ⟨12 * 3600 * second, noon_nonneg, noon_lt_day⟩, 1⟩]

def newHours : Tid → Job
  | 0 => .replaceWeeklyRules sundaysAndMondays
  | _ => .createBooking dana

theorem hours_are_one_week_shop :
    ∃ c, (start shop newHours (tableOf shelf) 5 0).Reaches c ∧ claimedSeat c 1 = some 1 ∧ Week sundaysAndMondays ∧
      c.state.db.own 0 ≠ [] := by
  obtain ⟨c, hc, hdone⟩ := reaches_of_play (start shop newHours (tableOf shelf) 5 0) (turns 0 fine 7 ++ turns 1 fine 25)
    (fun c => decide (c.returned 0 = true ∧ claimedSeat c 1 = some 1)) (by decide)
  obtain ⟨hsaved, hdana⟩ := of_decide_eq_true hdone
  obtain ⟨reply, hreply⟩ := Conf.returned_iff.1 hsaved
  obtain ⟨hweek, hown⟩ := ((hours_are_one_week shelf_tables hc).2.1 0 sundaysAndMondays rfl).1 reply hreply
  exact ⟨c, hc, hdana, hweek, hown⟩

end Boutique
