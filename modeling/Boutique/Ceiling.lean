import Boutique.Grid
import Boutique.TxnAlone
import Mathlib
/-!
# Ceiling — how many shift templates a weekday can hold

Only `create_template` counts before it writes.  The ceiling holds of every weekday while an edit that moves a template
finds room on its new weekday, and a seeding reads no more rules of one weekday than that.
-/
namespace Shifts

open Txn Session Contract

def onDay (d : Int) (r : Option ShiftTemplate) : Bool := r.any fun r => r.deletedAt = none ∧ r.dayOfWeek = d

def dayKeys (rows : Nat → Option ShiftTemplate) (n : Nat) (d : Int) : Finset Nat :=
  (Finset.range n).filter fun i => onDay d (rows i)

variable {n i : Nat} {d : Int} {r v : ShiftTemplate} {t : Tid} {w : World schema nobody} {zone : Boutique.Zone}

theorem mem_dayKeys {rows : Nat → Option ShiftTemplate} : i ∈ dayKeys rows n d ↔ i < n ∧ onDay d (rows i) = true := by
  simp [dayKeys]

theorem onDay_iff {r : Option ShiftTemplate} :
    onDay d r = true ↔ ∃ r', r = some r' ∧ r'.deletedAt = none ∧ r'.dayOfWeek = d := by
  cases r <;> simp [onDay]

theorem dayCount_eq (d : Int) (s : Snapshot schema) :
    Templates.dayCount d s = (dayKeys (s.rows .shiftTemplates) s.next d).card := by
  unfold Templates.dayCount Templates.live Snapshot.all
  rw [List.countP_filter, dayKeys]
  rw [countP_filterMap_range]
  congr 1
  ext i
  simp [onDay, and_comm]

theorem live_length (s : Snapshot schema) : (Templates.live s).length =
    ((Finset.range s.next).filter fun i =>
      ((s.rows .shiftTemplates i : Option ShiftTemplate)).any fun r => decide (r.deletedAt = none)).card := by
  unfold Templates.live Snapshot.all
  rw [← List.countP_eq_length_filter, countP_filterMap_range]

/-- **At most six live templates on each weekday.** -/
def Capped (rows : Rows schema) : Prop :=
  ∀ n d, (dayKeys (rows .shiftTemplates) n d).card ≤ MAX_TEMPLATES_PER_DAY

section Counting

variable {rows rows' : Nat → Option ShiftTemplate} {n m : Nat} {d : Int} {j : Nat}

theorem card_dayKeys_succ (h : ∀ i, i ≠ j → rows' i = rows i) :
    (dayKeys rows' n d).card ≤ (dayKeys rows n d).card + 1 := by
  have hsub : dayKeys rows' n d ⊆ Insert.insert j (dayKeys rows n d) := by
    intro i hi
    rw [mem_dayKeys] at hi
    by_cases hij : i = j
    · simp [hij]
    · rw [h i hij] at hi
      exact Finset.mem_insert_of_mem (mem_dayKeys.2 hi)
  exact (Finset.card_le_card hsub).trans (Finset.card_insert_le _ _)

theorem card_dayKeys_le (h : ∀ i, i ≠ j → rows' i = rows i) (hj : onDay d (rows' j) = true → onDay d (rows j) = true) :
    (dayKeys rows' n d).card ≤ (dayKeys rows n d).card := by
  apply Finset.card_le_card
  intro i hi
  rw [mem_dayKeys] at hi ⊢
  by_cases hij : i = j
  · subst hij
    exact ⟨hi.1, hj hi.2⟩
  · rw [h i hij] at hi
    exact hi

theorem card_dayKeys_bound (h : ∀ i r, rows i = some r → i < m) : (dayKeys rows n d).card ≤ (dayKeys rows m d).card := by
  apply Finset.card_le_card
  intro i hi
  rw [mem_dayKeys] at hi ⊢
  obtain ⟨r, hr, -, -⟩ := onDay_iff.1 hi.2
  exact ⟨h i r hr, hi.2⟩

end Counting

theorem weekday_of_check (h : rowCheck .shiftTemplates r = true) : r.dayOfWeek ∈ (Finset.Icc 0 6 : Finset Int) := by
  simp only [rowCheck, Bool.decide_and, Bool.and_eq_true, decide_eq_true_eq] at h
  exact Finset.mem_Icc.2 h.1

theorem live_le {rows : Rows schema} (hcap : Capped rows)
    (hcheck : ∀ i (r : ShiftTemplate), rows .shiftTemplates i = some r → rowCheck .shiftTemplates r = true) :
    (Templates.live ⟨rows, n⟩).length ≤ MAX_TEMPLATES := by
  rw [live_length]
  have hsub : ((Finset.range n).filter fun i => ((rows .shiftTemplates i : Option ShiftTemplate)).any
      fun r => decide (r.deletedAt = none)) ⊆ (Finset.Icc (0 : Int) 6).biUnion (dayKeys (rows .shiftTemplates) n) := by
    intro i hi
    simp only [Finset.mem_filter, Finset.mem_range, Option.any_eq_true, decide_eq_true_eq] at hi
    obtain ⟨hlt, r, hr, hlive⟩ := hi
    rw [Finset.mem_biUnion]
    exact ⟨r.dayOfWeek, weekday_of_check (hcheck i r hr), mem_dayKeys.2 ⟨hlt, onDay_iff.2 ⟨r, hr, hlive, rfl⟩⟩⟩
  calc _ ≤ ((Finset.Icc (0 : Int) 6).biUnion (dayKeys (rows .shiftTemplates) n)).card := Finset.card_le_card hsub
    _ ≤ (Finset.Icc (0 : Int) 6).card * MAX_TEMPLATES_PER_DAY :=
      Finset.card_biUnion_le_card_mul _ _ _ fun d _ => hcap n d
    _ = MAX_TEMPLATES := by decide

/-! ## What a transaction adds -/

/-- **One template changed**: the ceiling is kept where its weekday had it already or has room. -/
theorem capped_of_single {e : Engine schema} {j : Nat} (hcap : Capped e.committed)
    (hone : ∀ i, i ≠ j → e.pending t .shiftTemplates i = none)
    (hroom : ∀ d, onDay d (e.view t .shiftTemplates j) = true → onDay d (e.committed .shiftTemplates j) = true ∨
      ∀ n, (dayKeys (e.committed .shiftTemplates) n d).card < MAX_TEMPLATES_PER_DAY) : Capped (e.view t) := by
  intro n d
  have hsame : ∀ i, i ≠ j → e.view t .shiftTemplates i = e.committed .shiftTemplates i :=
    fun i hi => Rows.over_none (hone i hi)
  by_cases hd : onDay d (e.view t .shiftTemplates j) = true
  · rcases hroom d hd with hold | hlt
    · exact (card_dayKeys_le hsame fun _ => hold).trans (hcap n d)
    · exact (card_dayKeys_succ hsame).trans (hlt n)
  · exact (card_dayKeys_le hsame fun h => absurd h hd).trans (hcap n d)

theorem Sown.capped {rows : Rows schema} {created : List ShiftTemplate} {rules : List Boutique.AvailabilityRule}
    (h : Sown t w rows created) (hbare : Bare w.db.committed)
    (hcontent : created.map ShiftTemplate.content = seedRows 0 rules)
    (hrules : ∀ d : Int, rules.countP (fun r => r.dayOfWeek = d) ≤ MAX_TEMPLATES_PER_DAY) : Capped (w.db.view t) := by
  intro n d
  have hsub : dayKeys (w.db.view t .shiftTemplates) n d ⊆
      ((created.filter fun r => r.dayOfWeek = d).map ShiftTemplate.id).toFinset := by
    intro i hi
    obtain ⟨-, hday⟩ := mem_dayKeys.1 hi
    obtain ⟨r, hr, hlive, hrd⟩ := onDay_iff.1 hday
    cases hp : w.db.pending t .shiftTemplates i with
    | none =>
      have hold : w.db.committed .shiftTemplates i = some r := (Rows.over_none hp).symm.trans hr
      exact absurd hlive (hbare i r hold)
    | some r' =>
      have heq : some r' = some r := (Rows.over_some hp).symm.trans hr
      rw [Option.some.inj heq] at hp
      obtain ⟨hmem, hid⟩ := (h.pending i r).1 hp
      simp only [List.mem_toFinset, List.mem_map, List.mem_filter, decide_eq_true_eq]
      exact ⟨r, ⟨hmem, hrd⟩, hid⟩
  have hcount : created.countP (fun r => r.dayOfWeek = d) = rules.countP fun r => r.dayOfWeek = d := by
    rw [← seedRows_countP rules 0 d, ← hcontent, List.countP_map]
    rfl
  calc (dayKeys (w.db.view t .shiftTemplates) n d).card
      ≤ ((created.filter fun r => r.dayOfWeek = d).map ShiftTemplate.id).toFinset.card := Finset.card_le_card hsub
    _ ≤ ((created.filter fun r => r.dayOfWeek = d).map ShiftTemplate.id).length := List.toFinset_card_le _
    _ = rules.countP fun r => r.dayOfWeek = d := by rw [List.length_map, ← List.countP_eq_length_filter, hcount]
    _ ≤ MAX_TEMPLATES_PER_DAY := hrules d

/-! ## The condition -/

/-- **Every request finds room**: a creation counts again what it counted, an edit that moves a template finds its new
weekday below the ceiling, and a seeding is not overtaken and reads no weekday with more rules than that. -/
def Roomy (reqs : Tid → Request) : (machine schema nobody Err).Assumption := fun t o w r _ =>
  match reqs t, o, r with
  | .create _ _, .sql .commit, _ => w.db.Undisturbed t Table.shiftTemplates
  | .update _ i body, .sql .commit, _ => ∀ v : ShiftTemplate, w.db.committed .shiftTemplates i = some v →
      v.deletedAt = none → v.dayOfWeek ≠ body.dayOfWeek →
      Templates.dayCount body.dayOfWeek ⟨w.db.committed, w.db.next⟩ < MAX_TEMPLATES_PER_DAY
  | .seed _, .sql .commit, _ => w.db.Undisturbed t Table.shiftTemplates
  | .seed _, .sql (.read .rulesListActive), s => w.db.Undisturbed t Table.shiftTemplates ∧
      ∀ d : Int, (activeRules s).countP (fun r => r.dayOfWeek = d) ≤ MAX_TEMPLATES_PER_DAY
  | _, _, _ => True

abbrev ceiling (A : (machine schema nobody Err).Assumption) : Contract (Free : Cast schema) nobody Err where
  Inv w := Capped w.db.committed
  Assume := A
  crash_inv _ _ _ h := h
  tick_inv _ _ _ h := h

variable {A : (machine schema nobody Err).Assumption} {t : Tid} {w w' : World schema nobody} {α β : Type}
  {Q : Except Err β → World schema nobody → Prop}

theorem ceiling_historic : (ceiling A).Historic fun _ => true := by
  refine ⟨fun w w' hl hc ho h => ?_, fun _ _ _ _ _ _ h => h⟩
  show Capped w'.db.committed
  rw [hc]
  exact h

/-- **A template changed in flight**: row `i`, from `v` to `r`, and no other. -/
structure Patched (t : Tid) (w : World schema nobody) (i : Nat) (v r : ShiftTemplate) : Prop where
  others : ∀ j, j ≠ i → w.db.pending t .shiftTemplates j = none
  row : w.db.pending t .shiftTemplates i = some r
  committed : w.db.committed .shiftTemplates i = some v

theorem Patched.evolves (h : Patched t w i v r) (hev : w.Evolves Free t w') : Patched t w' i v r := by
  refine ⟨fun j hj => ?_, ?_, ?_⟩
  · rw [hev.db.pending]
    exact h.others j hj
  · rw [hev.db.pending]
    exact h.row
  · rw [hev.db.owned _ i r h.row]
    exact h.committed

theorem Patched.write {T : Table} {j : Nat} {r' : Row T} (h : Patched t w i v r) (hT : T ≠ .shiftTemplates) :
    Patched t ⟨({ w.db with next := n } : Engine schema).write t T j r', w.out⟩ i v r := by
  have hrow : ∀ k, (({ w.db with next := n } : Engine schema).write t T j r').pending t .shiftTemplates k =
      w.db.pending t .shiftTemplates k := by
    intro k
    simp only [Engine.write, Function.update_self]
    rw [Rows.set_table hT.symm]
  exact ⟨fun k hk => (hrow k).trans (h.others k hk), (hrow i).trans h.row, h.committed⟩

theorem patched_write (hpend : w.db.pending t = fun _ _ => none) (hv : w.db.view t .shiftTemplates i = some v) :
    Patched t ⟨w.db.write t .shiftTemplates i r, w.out⟩ i v r := by
  rw [Engine.view_idle hpend] at hv
  refine ⟨fun j hj => ?_, ?_, hv⟩
  · simp only [Engine.write, Function.update_self]
    rw [Rows.set_row hj, hpend]
  · simp only [Engine.write, Function.update_self]
    exact Rows.set_same

/-! ## The requests -/

section Chains

variable {reqs : Tid → Request} {k : α → Prg β}

theorem ensures_liftExcept {x : Except Err α} (herr : ∀ e, Q (.error e) w)
    (hok : ∀ a, (ceiling A).Ensures t (k a) Q w) : (ceiling A).Ensures t (liftExcept x >>= k) Q w := by
  cases x with
  | ok a => exact hok a
  | error e => exact herr e

variable {actorId templateId : Nat} {body : ShiftTemplateInput}

theorem create_ensures {k : ShiftTemplate → Prg β} (hidle : w.db.Idle t)
    (hA : ∀ w r w', A t (.sql .commit) w r w' → w.db.Undisturbed t Table.shiftTemplates)
    (hk : ∀ a w, (ceiling A).Ensures t (k a) (fun _ _ => True) w) :
    (ceiling A).Ensures t (createTemplate actorId body >>= k) (fun _ _ => True) w := by
  unfold createTemplate
  refine ensures_first (ensures_liftExcept (fun _ => trivial) fun label => ?_)
  refine ensures_first (ensures_liftExcept (fun _ => trivial) fun targets => ?_)
  refine ensures_tenantSession ceiling_historic fun w1 n hev1 hL1 hI1 => ?_
  have hpend1 : w1.db.pending t = fun _ _ => none := hev1.db.pending.trans hidle.pending
  refine ensures_select ceiling_historic fun w2 hev2 hL2 hI2 _ _ => ?_
  have hpend2 : w2.db.pending t = fun _ _ => none := hev2.db.pending.trans hpend1
  have hview2 : w2.db.view t = w2.db.committed := Engine.view_idle hpend2
  refine ensures_raiseIf (fun _ _ _ _ => trivial) fun hroom => ?_
  have hlt : (dayKeys (w2.db.committed .shiftTemplates) w2.db.next body.dayOfWeek).card < MAX_TEMPLATES_PER_DAY := by
    simp only [Bool.or_eq_false_iff, decide_eq_false_iff_not, not_le] at hroom
    have hcount := hroom.1
    rw [dayCount_eq, hview2] at hcount
    exact hcount
  have hsown : Sown t (⟨w2.db.look t, w2.out⟩ : World schema nobody) w2.db.committed [] :=
    ⟨fun i r => by simp [hpend2], by simp, by simp, by simp⟩
  refine ensures_insert ceiling_historic (fun _ _ _ _ _ _ _ _ => trivial) fun w3 hev3 hL3 _ _ => ?_
  have hgrown := (hsown.evolves hev3).grown hL3
    (Templates.draft body.dayOfWeek label body.startsAtTime body.endsAtTime body.sortOrder targets)
  refine ensures_insert ceiling_historic (fun _ _ _ _ _ _ _ _ => trivial) fun w4 hev4 hL4 _ _ => ?_
  intro w5 hev5 hL5 hI5 hA5 _
  have hsown5 := ((hgrown.evolves hev4).elsewhere (T := .auditLog)
    (r := ⟨0, 0, actorId, .shiftTemplateCreated w3.db.next body.dayOfWeek⟩) (by decide)).evolves hev5
  have hrows := hL5.undisturbed (hA _ _ _ hA5) hsown5.le
  rw [hsown5.looked] at hrows
  refine ⟨capped_of_single (j := w3.db.next) hI5 (fun i hi => ?_) fun d hd => .inr fun n => ?_, hk _ _⟩
  · cases hp : w5.db.pending t .shiftTemplates i with
    | none => rfl
    | some r =>
      obtain ⟨hmem, rfl⟩ := (hsown5.pending i r).1 hp
      rw [List.nil_append, List.mem_singleton] at hmem
      rw [hmem] at hi
      exact absurd rfl hi
  · have hp : w5.db.pending t .shiftTemplates w3.db.next = some _ :=
      (hsown5.pending _ _).2 ⟨List.mem_singleton_self _, rfl⟩
    rw [Engine.view_pending hp] at hd
    obtain ⟨r, hr, -, hrd⟩ := onDay_iff.1 hd
    cases hr
    have hday : body.dayOfWeek = d := hrd
    rw [hrows, ← hday]
    exact (card_dayKeys_bound fun i r hr => hL2.committed_lt .shiftTemplates i r hr).trans_lt hlt

theorem softDeleteFuture_ensures {afterWeek txNow : Int} (h : Patched t w i v r) :
    (ceiling A).Ensures t (softDeleteFutureByTemplate templateId afterWeek txNow)
      (fun _ w' => Patched t w' i v r) w := by
  unfold softDeleteFutureByTemplate
  refine ensures_select ceiling_historic fun w1 hev1 _ _ _ _ => ?_
  have h1 : Patched t (⟨w1.db.look t, w1.out⟩ : World schema nobody) i v r :=
    ⟨(h.evolves hev1).others, (h.evolves hev1).row, (h.evolves hev1).committed⟩
  refine ensures_bind (ensures_mono (fun x w' hx => ?_) (ensures_updateEach ceiling_historic
    (fun w => Patched t w i v r) (fun w w' hev _ _ h => h.evolves hev) (fun w j r' h => h.write (by decide)) _ _ h1))
  cases x with
  | ok rows => exact hx
  | error e => exact hx

/-- **The end of an edit**: once a template is patched, what is left keeps the ceiling where its weekday has room. -/
theorem closes_of_patched {action : AuditAction} {a : α} {k : α → Prg β} (h : Patched t w i v r)
    (hroom : ∀ w r' w', A t (.sql .commit) w r' w' → w.db.Lawful Free → Patched t w i v r → ∀ d, onDay d (some r) = true →
      onDay d (some v) = true ∨
        ∀ n, (dayKeys (w.db.committed .shiftTemplates) n d).card < MAX_TEMPLATES_PER_DAY)
    (hk : ∀ a w, (ceiling A).Ensures t (k a) (fun _ _ => True) w) :
    (ceiling A).Ensures t (record actorId action >>= fun _ => pure a) (Closes (ceiling A) t k fun _ _ => True) w := by
  refine ensures_insert ceiling_historic (fun _ _ _ _ _ _ _ _ => trivial) fun w1 hev1 _ _ _ => ?_
  intro w2 hev2 hL2 hI2 hA2 _
  have h2 := ((h.evolves hev1).write (n := w1.db.next + 1) (T := .auditLog) (by decide)).evolves hev2
  refine ⟨capped_of_single hI2 h2.others fun d hd => ?_, hk _ _⟩
  rw [Engine.view_pending h2.row] at hd
  rw [h2.committed]
  exact hroom w2 _ _ hA2 hL2 h2 d hd

theorem update_ensures {k : ShiftTemplate × Nat → Prg β} (hidle : w.db.Idle t)
    (hA : ∀ w r w', A t (.sql .commit) w r w' → ∀ v : ShiftTemplate, w.db.committed .shiftTemplates templateId = some v →
      v.deletedAt = none → v.dayOfWeek ≠ body.dayOfWeek →
      Templates.dayCount body.dayOfWeek ⟨w.db.committed, w.db.next⟩ < MAX_TEMPLATES_PER_DAY)
    (hk : ∀ a w, (ceiling A).Ensures t (k a) (fun _ _ => True) w) :
    (ceiling A).Ensures t (updateTemplate zone actorId templateId body >>= k) (fun _ _ => True) w := by
  unfold updateTemplate
  refine ensures_first (ensures_liftExcept (fun _ => trivial) fun label => ?_)
  refine ensures_first (ensures_liftExcept (fun _ => trivial) fun targets => ?_)
  refine ensures_first (Session.ensures_now ceiling_historic fun w0 hev0 _ _ => ?_)
  refine ensures_tenantSession ceiling_historic fun w1 n hev1 hL1 hI1 => ?_
  have hpend1 : w1.db.pending t = fun _ _ => none := (hev1.db.pending.trans hev0.db.pending).trans hidle.pending
  refine ensures_select ceiling_historic fun w2 hev2 _ _ _ _ => ?_
  have hpend2 : w2.db.pending t = fun _ _ => none := hev2.db.pending.trans hpend1
  refine ensures_orRaise (fun _ _ _ _ => trivial) fun before _ => ?_
  unfold Templates.replace
  refine ensures_first (ensures_update ceiling_historic (fun _ _ _ _ _ _ _ => trivial) (fun w3 _ _ _ _ => ?_)
    fun w3 v r hev3 hL3 hv hr _ _ _ => ?_)
  · exact ensures_orRaise (fun _ _ _ _ => trivial) fun a ha => by cases ha
  have hpend3 : w3.db.pending t = fun _ _ => none := hev3.db.pending.trans hpend2
  have hpatched := patched_write (r := r) hpend3 hv
  refine ensures_select ceiling_historic fun w4 hev4 _ _ _ _ => ?_
  have h4 := hpatched.evolves hev4
  have h4' : Patched t (⟨w4.db.look t, w4.out⟩ : World schema nobody) templateId v r := ⟨h4.others, h4.row, h4.committed⟩
  refine ensures_orRaise (fun _ _ _ _ => trivial) fun row _ => ?_
  have hroom : ∀ w r' w', A t (.sql .commit) w r' w' → w.db.Lawful Free → Patched t w templateId v r → ∀ d,
      onDay d (some r) = true → onDay d (some v) = true ∨
        ∀ n, (dayKeys (w.db.committed .shiftTemplates) n d).card < MAX_TEMPLATES_PER_DAY := by
    intro w r' w' hA' hL hp d hd
    simp only [applyChange, ShiftTemplateChange.apply] at hr
    split at hr
    · rename_i hlive
      cases hr
      have hday : body.dayOfWeek = d := by
        obtain ⟨r, hr, -, hrd⟩ := onDay_iff.1 hd
        cases hr
        exact hrd
      by_cases hmoved : v.dayOfWeek = body.dayOfWeek
      · exact .inl (onDay_iff.2 ⟨v, rfl, hlive, hmoved.trans hday⟩)
      · have hlt := hA w r' w' hA' v hp.committed hlive hmoved
        rw [dayCount_eq, hday] at hlt
        exact .inr fun n => (card_dayKeys_bound fun i r hr => hL.committed_lt .shiftTemplates i r hr).trans_lt hlt
    · cases hr
  unfold invalidateIf
  split
  · refine ensures_bind (ensures_mono (fun x w' hx => ?_) (softDeleteFuture_ensures h4'))
    cases x with
    | ok a => exact closes_of_patched hx hroom hk
    | error e => exact fun _ _ _ => trivial
  · exact closes_of_patched h4' hroom hk

theorem delete_ensures {k : Nat → Prg β} (hidle : w.db.Idle t)
    (hk : ∀ a w, (ceiling A).Ensures t (k a) (fun _ _ => True) w) :
    (ceiling A).Ensures t (deleteTemplate zone actorId templateId >>= k) (fun _ _ => True) w := by
  unfold deleteTemplate
  refine ensures_first (Session.ensures_now ceiling_historic fun w0 hev0 _ _ => ?_)
  refine ensures_tenantSession ceiling_historic fun w1 n hev1 hL1 hI1 => ?_
  have hpend1 : w1.db.pending t = fun _ _ => none := (hev1.db.pending.trans hev0.db.pending).trans hidle.pending
  unfold Templates.softDelete
  refine ensures_first (ensures_update ceiling_historic (fun _ _ _ _ _ _ _ => trivial) (fun w2 _ _ _ _ => ?_)
    fun w2 v r hev2 hL2 hv hr _ _ _ => ?_)
  · exact ensures_raiseIf (fun _ _ _ _ => trivial) fun h => by simp at h
  have hpend2 : w2.db.pending t = fun _ _ => none := hev2.db.pending.trans hpend1
  have hpatched := patched_write (r := r) hpend2 hv
  refine ensures_raiseIf (fun _ _ _ _ => trivial) fun _ => ?_
  refine ensures_bind (ensures_mono (fun x w' hx => ?_) (softDeleteFuture_ensures hpatched))
  cases x with
  | error e => exact fun _ _ _ => trivial
  | ok a =>
    refine closes_of_patched hx (fun _ _ _ _ _ _ d hd => ?_) hk
    simp only [applyChange, ShiftTemplateChange.apply] at hr
    split at hr
    · cases hr
      simp [onDay] at hd
    · cases hr

end Chains

theorem request_safe {reqs : Tid → Request} (hidle : w.db.Idle t) :
    (ceiling (Roomy reqs)).logic.Safe t ((reqs t).code zone) (fun _ _ => True) w := by
  refine safe_of_ensures (Q := fun _ _ => True) ?_ fun _ _ _ _ _ _ _ => trivial
  cases hreq : reqs t with
  | create actorId body =>
    refine create_ensures hidle (fun w r w' hA => ?_) fun _ _ => trivial
    simpa only [Roomy, hreq] using hA
  | update actorId templateId body =>
    refine update_ensures hidle (fun w r w' hA => ?_) fun _ _ => trivial
    simpa only [Roomy, hreq] using hA
  | delete actorId templateId => exact delete_ensures hidle fun _ _ => trivial
  | seed actorId =>
    refine seedTemplates_ensures ceiling_historic hidle
      (P := fun rules => ∀ d : Int, rules.countP (fun r => r.dayOfWeek = d) ≤ MAX_TEMPLATES_PER_DAY)
      (fun w r w' hA => ?_) (fun w r w' hA => ?_) (fun _ _ => trivial)
      fun w1 rows n created hL hI hsown hbare _ hrules hcontent => ⟨hsown.capped hbare hcontent hrules, trivial⟩
    · simpa only [Roomy, hreq] using hA
    · simpa only [Roomy, hreq] using hA

/-- **While every request finds room, no weekday holds more than six live templates**, and the grid no more than
forty-two. -/
theorem grid_capped {reqs : Tid → Request} {zone : Boutique.Zone} {rows : Rows schema} {next : Nat} {clock : Int}
    {c : Conf (machine schema nobody Err) Response} (h : Shelved rows next) (hcap : Capped rows)
    (hr : Conf.Steps (Roomy reqs) (opened (fun t => (reqs t).code zone) rows next clock) c) :
    (∀ d, Templates.dayCount d ⟨c.state.db.committed, c.state.db.next⟩ ≤ MAX_TEMPLATES_PER_DAY) ∧
      (Templates.live ⟨c.state.db.committed, c.state.db.next⟩).length ≤ MAX_TEMPLATES_PER_DAY * 7 := by
  have hsafe : ∀ t p, (opened (fun t => (reqs t).code zone) rows next clock).threads t = some p →
      (ceiling (Roomy reqs)).logic.Safe t p (fun _ _ => True)
        (opened (fun t => (reqs t).code zone) rows next clock).state := by
    intro t p hp
    cases hp
    exact request_safe ⟨rfl⟩
  obtain ⟨hsound, hL⟩ := (ceiling (Roomy reqs)).runs (Q := fun _ _ _ => True) (opened_obeyed h) hcap hsafe hr
  refine ⟨fun d => ?_, live_le hsound.inv.2 fun i r hi => hL.rows.check .shiftTemplates i r hi⟩
  rw [dayCount_eq]
  exact hsound.inv.2 _ _

/-! ## A full Sunday -/

def morning (dayOfWeek : Int) : ShiftTemplateInput :=
  ⟨dayOfWeek, "morning", ⟨9 * 3600 * Boutique.second, Boutique.nine_nonneg, Boutique.nine_lt_day⟩,
    ⟨12 * 3600 * Boutique.second, Boutique.noon_nonneg, Boutique.noon_lt_day⟩, 0, []⟩

/-- Six shifts on Sunday, one on Monday, and the last one moved to Sunday. -/
def fillsSunday (t : Tid) : Request :=
  if t < 6 then .create 0 (morning 0) else if t = 6 then .create 0 (morning 1) else .update 0 12 (morning 0)

def emptyShop (reqs : Tid → Request) : Conf (machine schema nobody Err) Response :=
  opened (fun t => (reqs t).code utc) (listed (S := schema) fun _ => []) 0 0

def inTurn : List (Action (machine schema nobody Err)) :=
  (List.range 7).flatMap (fun t => turns t 5) ++ turns 7 8

/-- **Seven shifts on one weekday**: a move is not counted. -/
theorem sunday_overfull : ∃ c, (emptyShop fillsSunday).Reaches c ∧ (List.range 8).all (answered c) = true ∧
    Templates.dayCount 0 ⟨c.state.db.committed, c.state.db.next⟩ = 7 ∧ MAX_TEMPLATES_PER_DAY = 6 := by
  obtain ⟨c, hc, hP⟩ := Conf.reached_freely (emptyShop fillsSunday) inTurn
    (fun c => decide ((List.range 8).all (answered c) = true ∧
      Templates.dayCount 0 ⟨c.state.db.committed, c.state.db.next⟩ = 7 ∧ MAX_TEMPLATES_PER_DAY = 6)) (by decide)
  exact ⟨c, hc, of_decide_eq_true hP⟩

theorem emptyShop_shelved : Shelved (listed (S := schema) fun _ => []) 0 :=
  shelved_of_stocked [.shiftTemplates, .staffAvailability, .availabilityRules, .auditLog]
    (fun T => by cases T <;> decide) (by decide)

theorem roomy_of_first {o : Op schema nobody} {r : o.Res} {w' : World schema nobody} (h : w.db.log.isEmpty = true) :
    Roomy (fun _ => .create 0 (morning d)) t o w r w' := by
  have hquiet : w.db.Undisturbed t Table.shiftTemplates := by
    intro n c _ hc
    rw [List.isEmpty_iff.1 h] at hc
    cases hc
  unfold Roomy
  split <;> trivial

theorem grid_capped_sunday : ∃ c, Conf.Steps (Roomy fun _ => .create 0 (morning 0))
      (emptyShop fun _ => .create 0 (morning 0)) c ∧ answered c 0 = true ∧
    Templates.dayCount 0 ⟨c.state.db.committed, c.state.db.next⟩ ≤ MAX_TEMPLATES_PER_DAY := by
  obtain ⟨c, hc, hP⟩ := Conf.reached_of_play (A := fun _ _ (w : World schema nobody) _ _ => w.db.log.isEmpty = true)
    (emptyShop fun _ => .create 0 (morning 0)) (turns 0 5) (fun c => answered c 0) (by decide)
  have hc' : Conf.Steps (Roomy fun _ => .create 0 (morning 0)) (emptyShop fun _ => .create 0 (morning 0)) c :=
    hc.mono fun _ _ _ _ _ h => roomy_of_first h
  have hcap : Capped (listed (S := schema) fun _ => []) := by
    intro n d
    rw [Finset.card_eq_zero.2]
    · exact Nat.zero_le _
    · rw [Finset.eq_empty_iff_forall_notMem]
      intro i hi
      have := (mem_dayKeys.1 hi).2
      simp [listed, onDay] at this
  exact ⟨c, hc', hP, (grid_capped emptyShop_shelved hcap hc').1 0⟩

end Shifts
