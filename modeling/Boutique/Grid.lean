import Boutique.Shifts
/-!
# Grid — how often the grid of shift templates is seeded

A seeding checks that the grid is empty and then writes one template for each opening rule, under no lock.  It happens
once while no other seeding commits between that check and its own commit.
-/
namespace Shifts

open Txn Session Contract

def Bare (rows : Rows schema) : Prop :=
  ∀ i (r : ShiftTemplate), rows .shiftTemplates i = some r → r.deletedAt ≠ none

/-! ## One seeding -/

def ShiftTemplate.content (r : ShiftTemplate) : ShiftTemplate := { r with id := 0, createdAt := 0 }

def seedRow (sortOrder : Int) (rule : Boutique.AvailabilityRule) : ShiftTemplate :=
  Templates.draft rule.dayOfWeek (seedLabel rule.dayOfWeek rule.openTime rule.closeTime) rule.openTime rule.closeTime
    sortOrder []

def seedRows : Int → List Boutique.AvailabilityRule → List ShiftTemplate
  | _, [] => []
  | sortOrder, rule :: rules => seedRow sortOrder rule :: seedRows (sortOrder + 1) rules

theorem seedRows_live {rules : List Boutique.AvailabilityRule} {k : Int} {r : ShiftTemplate} (h : r ∈ seedRows k rules) :
    r.deletedAt = none := by
  induction rules generalizing k with
  | nil => simp [seedRows] at h
  | cons rule rules ih =>
    rw [seedRows, List.mem_cons] at h
    rcases h with rfl | h
    · rfl
    · exact ih h

theorem seedRows_countP (rules : List Boutique.AvailabilityRule) (k : Int) (d : Int) :
    (seedRows k rules).countP (fun r => r.dayOfWeek = d) = rules.countP fun r => r.dayOfWeek = d := by
  induction rules generalizing k with
  | nil => rfl
  | cons rule rules ih => simp [seedRows, List.countP_cons, ih, seedRow, Templates.draft]

/-- **A seeding in progress**: the templates in flight are the rows it has created, and `rows` stood at its last SELECT. -/
structure Sown (t : Tid) (w : World schema nobody) (rows : Rows schema) (created : List ShiftTemplate) : Prop where
  pending : ∀ i (r : ShiftTemplate), w.db.pending t .shiftTemplates i = some r ↔ r ∈ created ∧ r.id = i
  nodup : (created.map ShiftTemplate.id).Nodup
  le : w.db.seen t ≤ w.db.log.length
  looked : w.db.version (w.db.seen t) = rows

variable {D : Cast schema} {C : Contract D nobody Err} {calm : Empty → Bool} {t : Tid} {w w' : World schema nobody}
  {rows : Rows schema} {created : List ShiftTemplate}

theorem Sown.evolves (h : Sown t w rows created) (hev : w.Evolves D t w') : Sown t w' rows created := by
  refine ⟨fun i r => ?_, h.nodup, ?_, ?_⟩
  · rw [hev.db.pending]
    exact h.pending i r
  · rw [hev.db.seen]
    exact h.le.trans hev.db.log_le
  · rw [hev.db.seen, hev.db.version _ h.le]
    exact h.looked

theorem Sown.elsewhere {T : Table} {r : Row T} (h : Sown t w rows created) (hT : T ≠ .shiftTemplates) :
    Sown t ⟨inserted w.db t T r, w.out⟩ rows created := by
  refine ⟨fun i r' => ?_, h.nodup, h.le, h.looked⟩
  rw [← h.pending i r']
  simp only [Session.inserted, Engine.write, Function.update_self]
  rw [Rows.set_table hT.symm]

theorem Sown.joined {r : ShiftTemplate} (h : Sown t w rows created) (hL : w.db.Lawful D) (hid : r.id = w.db.next) (n : Nat) :
    Sown t ⟨({ w.db with next := n } : Engine schema).write t .shiftTemplates w.db.next r, w.out⟩ rows (created ++ [r]) := by
  have hfresh : ∀ r' ∈ created, r'.id ≠ w.db.next := by
    intro r' hr' hid'
    have := hL.owned_lt t .shiftTemplates _ r' ((h.pending _ r').2 ⟨hr', hid'⟩)
    omega
  refine ⟨fun i r' => ?_, ?_, h.le, h.looked⟩
  swap
  · rw [List.map_append, List.nodup_append]
    refine ⟨h.nodup, by simp, fun a ha b hb hab => ?_⟩
    obtain ⟨r', hr', rfl⟩ := List.mem_map.1 ha
    simp only [List.map_cons, List.map_nil, List.mem_singleton] at hb
    exact hfresh r' hr' (hab.trans (hb.trans hid))
  simp only [Engine.write, Function.update_self]
  by_cases hi : i = w.db.next
  · subst hi
    rw [Rows.set_same]
    constructor
    · intro hr
      cases hr
      exact ⟨by simp, hid⟩
    · rintro ⟨hmem, hr⟩
      rcases List.mem_append.1 hmem with hmem | hmem
      · exact absurd hr (hfresh r' hmem)
      · rw [List.mem_singleton.1 hmem]
  · rw [Rows.set_row hi]
    have hiff := h.pending i r'
    rw [hiff]
    constructor
    · rintro ⟨hmem, hr⟩
      exact ⟨List.mem_append_left _ hmem, hr⟩
    · rintro ⟨hmem, hr⟩
      rcases List.mem_append.1 hmem with hmem | hmem
      · exact ⟨hmem, hr⟩
      · rw [List.mem_singleton.1 hmem] at hr
        exact absurd (hr.symm.trans hid) hi

theorem Sown.grown (h : Sown t w rows created) (hL : w.db.Lawful D) (r0 : ShiftTemplate) :
    Sown t ⟨inserted w.db t Table.shiftTemplates r0, w.out⟩ rows
      (created ++ [stamp .shiftTemplates w.db.next (w.db.started t) r0]) := h.joined hL rfl _

section Chains

variable (hC : C.Historic calm)
include hC

theorem seedEach_ensures : ∀ (rules : List Boutique.AvailabilityRule) (k : Int) (w : World schema nobody)
    (created : List ShiftTemplate), Sown t w rows created →
    C.Ensures t (seedEach k rules) (fun x w' => ∀ seeds, x = .ok seeds →
      Sown t w' rows (created ++ seeds) ∧ seeds.map ShiftTemplate.content = seedRows k rules) w
  | [], k, w, created, h => by
    intro seeds hx
    cases hx
    simpa [seedRows] using h
  | rule :: rules, k, w, created, h => by
    unfold seedEach
    refine ensures_insert hC (fun w1 n _ _ _ seeds hx => by cases hx) fun w1 hev hL hL2 hI => ?_
    have hgrown := (h.evolves hev).grown hL (seedRow k rule)
    refine ensures_bind (ensures_mono (fun x w' hx => ?_) (seedEach_ensures rules (k + 1) _ _ hgrown))
    cases x with
    | error e => exact fun seeds hx' => by cases hx'
    | ok seeds =>
      intro seeds' hx'
      cases hx'
      obtain ⟨hsown, hseeds⟩ := hx seeds rfl
      rw [List.append_assoc] at hsown
      refine ⟨hsown, ?_⟩
      rw [List.map_cons, hseeds]
      rfl

/-- **A seeding that nobody disturbs** commits one template for each active rule, on a grid that is still bare. -/
theorem seedTemplates_ensures {actorId : Nat} {β : Type} {k : List ShiftTemplate → Prg β}
    {Q : Except Err β → World schema nobody → Prop} {P : List Boutique.AvailabilityRule → Prop} (hidle : w.db.Idle t)
    (hread : ∀ w r w', C.Assume t (.sql (.read .rulesListActive)) w r w' →
      w.db.Undisturbed t Table.shiftTemplates ∧ P (activeRules r))
    (hquiet : ∀ w r w', C.Assume t (.sql .commit) w r w' → w.db.Undisturbed t Table.shiftTemplates)
    (herr : ∀ e w, Q (.error e) w)
    (hclose : ∀ w1 rows n created, w1.db.Lawful D → C.Inv w1 → Sown t w1 rows created → Bare w1.db.committed →
      activeRules ⟨rows, n⟩ ≠ [] → P (activeRules ⟨rows, n⟩) →
      created.map ShiftTemplate.content = seedRows 0 (activeRules ⟨rows, n⟩) →
      C.Inv ⟨w1.db.commit t, w1.out⟩ ∧ C.Ensures t (k created) Q ⟨w1.db.commit t, w1.out⟩) :
    C.Ensures t (seedTemplates actorId >>= k) Q w := by
  unfold seedTemplates
  refine ensures_tenantSession hC fun w1 n hev1 hL1 hI1 => ?_
  have hpend1 : w1.db.pending t = fun _ _ => none := hev1.db.pending.trans hidle.pending
  -- the grid is bare when it is listed
  refine ensures_select hC fun w2 hev2 hL2 hI2 _ _ => ?_
  have hpend2 : w2.db.pending t = fun _ _ => none := hev2.db.pending.trans hpend1
  refine ensures_raiseIf (fun _ w _ _ => herr _ _) fun hempty => ?_
  have hbare : Bare w2.db.committed := by
    intro i r hr hlive
    have hmem : r ∈ Templates.live ⟨w2.db.view t, w2.db.next⟩ := by
      refine List.mem_filter.2 ⟨Snapshot.mem_all.2 ⟨i, hL2.committed_lt .shiftTemplates i r hr, ?_⟩, by simpa using hlive⟩
      rw [Engine.view, hpend2, Rows.over_empty]
      exact hr
    have hnil : (Templates.live ⟨w2.db.view t, w2.db.next⟩).length = 0 := by
      have hsorted := congrArg List.length (List.isEmpty_iff.1 (by simpa using hempty))
      simpa using hsorted
    rw [List.length_eq_zero_iff.1 hnil] at hmem
    cases hmem
  refine ensures_select hC fun w3 hev3 hL3 hI3 hA3 _ => ?_
  have hpend3 : w3.db.pending t = fun _ _ => none := hev3.db.pending.trans hpend2
  have hseen3 : w3.db.seen t = w2.db.log.length := hev3.db.seen.trans Engine.look_seen
  obtain ⟨hquiet3, hok⟩ := hread _ _ _ hA3
  have hbare3 : Bare w3.db.committed := by
    have hrows := hL3.undisturbed hquiet3 (hseen3 ▸ hev3.db.log_le)
    have hversion : w3.db.version w2.db.log.length = w2.db.committed :=
      (hev3.db.version _ (Nat.le_refl _)).trans Engine.version_length
    rw [hseen3, hversion] at hrows
    intro i r hr
    rw [hrows] at hr
    exact hbare i r hr
  refine ensures_raiseIf (fun _ w _ _ => herr _ _) fun hrules => ?_
  have hview : w3.db.view t = w3.db.committed := by
    rw [Engine.view, hpend3, Rows.over_empty]
  rw [hview] at hok hrules ⊢
  have hsown : Sown t (⟨w3.db.look t, w3.out⟩ : World schema nobody) w3.db.committed [] :=
    ⟨fun i r => by simp [hpend3], by simp, by simp, by simp⟩
  refine ensures_bind (ensures_mono (fun x w4 hx => ?_) (seedEach_ensures hC _ 0 _ [] hsown))
  cases x with
  | error e => exact fun w5 _ _ => herr _ _
  | ok created =>
    obtain ⟨hsown4, hcontent⟩ := hx created rfl
    refine ensures_insert hC (fun _ _ _ _ _ _ _ _ => herr _ _) fun w5 hev5 hL5 _ _ => ?_
    intro w6 hev6 hL6 hI6 hA6 _
    have hsown6 := ((hsown4.evolves hev5).elsewhere (by decide)).evolves hev6
    have hbare6 : Bare w6.db.committed := by
      have hrows := hL6.undisturbed (hquiet _ _ _ hA6) hsown6.le
      rw [hsown6.looked] at hrows
      intro i r hr
      rw [hrows] at hr
      exact hbare3 i r hr
    exact hclose w6 _ _ created hL6 hI6 hsown6 hbare6 (by simpa using hrules) hok hcontent

end Chains

/-! ## The grid is seeded once -/

/-- **The live templates are one seeding's**: one for each rule that was active when the seeding read them. -/
def SeededOnce (e : Engine schema) : Prop :=
  ∃ (m n : Nat) (created : List ShiftTemplate), m ≤ e.log.length ∧ created.map ShiftTemplate.content = seedRows 0 (activeRules ⟨e.version m, n⟩) ∧
    (created.map ShiftTemplate.id).Nodup ∧
    ∀ r : ShiftTemplate, r ∈ created ↔ e.committed .shiftTemplates r.id = some r ∧ r.deletedAt = none

theorem SeededOnce.congr {e e' : Engine schema} (h : SeededOnce e) (hl : e'.log = e.log) (hc : e'.committed = e.committed) :
    SeededOnce e' := by
  obtain ⟨m, n, created, hm, hcontent, hnodup, hrows⟩ := h
  refine ⟨m, n, created, ?_, ?_, hnodup, ?_⟩
  · rw [hl]
    exact hm
  · rw [Engine.version_congr hl hc]
    exact hcontent
  · rw [hc]
    exact hrows

def Sprouts (e : Engine schema) : Prop := (e.log = [] ∧ Bare e.committed) ∨ (e.log ≠ [] ∧ SeededOnce e)

theorem Sprouts.congr {e e' : Engine schema} (h : Sprouts e) (hl : e'.log = e.log) (hc : e'.committed = e.committed) :
    Sprouts e' := by
  rcases h with ⟨hlog, hbare⟩ | ⟨hlog, hseeded⟩
  · exact .inl ⟨hl.trans hlog, hc ▸ hbare⟩
  · exact .inr ⟨fun h => hlog (hl.symm.trans h), hseeded.congr hl hc⟩

/-- **No seeding commits between another's emptiness check and its own commit.** -/
def Unhurried : (machine schema nobody Err).Assumption := fun t o w _ _ =>
  match o with
  | .sql (.read .rulesListActive) => w.db.Undisturbed t Table.shiftTemplates
  | .sql .commit => w.db.Undisturbed t Table.shiftTemplates
  | _ => True

abbrev sprouting : Contract (Free : Cast schema) nobody Err where
  Inv w := Sprouts w.db
  Assume := Unhurried
  crash_inv _ _ _ h := h.congr rfl rfl
  tick_inv _ _ _ h := h.congr rfl rfl

theorem sprouting_historic : sprouting.Historic fun _ => true :=
  ⟨fun _ _ hl hc _ h => h.congr hl hc, fun _ _ _ _ _ _ h => h⟩

theorem Sown.seeded {n : Nat} (h : Sown t w rows created) (hbare : Bare w.db.committed)
    (hcontent : created.map ShiftTemplate.content = seedRows 0 (activeRules ⟨rows, n⟩)) :
    SeededOnce (w.db.commit t) := by
  have hlive : ∀ r ∈ created, r.deletedAt = none := by
    intro r hr
    have hmem : r.content ∈ seedRows 0 (activeRules ⟨rows, n⟩) := hcontent ▸ List.mem_map_of_mem hr
    exact (seedRows_live hmem : r.content.deletedAt = none)
  refine ⟨w.db.seen t, n, created, ?_, ?_, h.nodup, fun r => ?_⟩
  · have := h.le
    simp only [Engine.commit, List.length_append]
    omega
  · rw [Engine.commit_version_le h.le, h.looked]
    exact hcontent
  · dsimp only
    constructor
    · intro hr
      exact ⟨Rows.over_some ((h.pending _ r).2 ⟨hr, rfl⟩), hlive r hr⟩
    · rintro ⟨hview, hdeleted⟩
      cases hp : w.db.pending t .shiftTemplates r.id with
      | some r' =>
        have : some r' = some r := (Rows.over_some hp).symm.trans hview
        rw [Option.some.inj this] at hp
        exact ((h.pending _ r).1 hp).1
      | none => exact absurd hdeleted (hbare _ r ((Rows.over_none hp).symm.trans hview))

section Seeding

variable {zone : Boutique.Zone} {next : Nat} {clock : Int} {actors : Tid → Nat}
  {c : Conf (machine schema nobody Err) Response}

theorem seeding_safe (actorId : Nat) (hidle : w.db.Idle t) :
    sprouting.logic.Safe t ((Request.seed actorId).code zone) (fun x w => ∀ a, x = .ok a → w.db.log ≠ []) w := by
  refine safe_of_ensures (Q := fun x w => ∀ a, x = .ok a → w.db.log ≠ []) ?_ ?_
  · refine seedTemplates_ensures sprouting_historic (P := fun _ => True) hidle (fun _ _ _ h => ⟨h, trivial⟩)
      (fun _ _ _ h => h) (fun e w a h => by cases h) fun w1 rows n created hL hI hsown hbare hne _ hcontent => ?_
    have hlog : (w1.db.commit t).log ≠ [] := by simp [Engine.commit]
    exact ⟨.inr ⟨hlog, hsown.seeded hbare hcontent⟩, fun a _ => hlog⟩
  · intro x w w' hx hev hL hI a ha hnil
    obtain ⟨l, hl, -⟩ := hev.db.log
    rw [hnil] at hl
    exact hx a ha (List.append_eq_nil_iff.1 hl.symm).1

/-- **While no seeding overtakes another, the grid is seeded once**: it stays bare until a request has answered, and from
then on its live templates are one for each availability rule. -/
theorem seeded_once {rows : Rows schema} (h : Shelved rows next) (hbare : Bare rows)
    (hr : Conf.Steps Unhurried (opened (fun t => (Request.seed (actors t)).code zone) rows next clock) c) :
    (Bare c.state.db.committed ∨ SeededOnce c.state.db) ∧
      ∀ t a, c.threads t = some (.ret a) → SeededOnce c.state.db := by
  have hI : sprouting.Inv (opened (fun t => (Request.seed (actors t)).code zone) rows next clock).state :=
    .inl ⟨rfl, hbare⟩
  have hsafe : ∀ t p, (opened (fun t => (Request.seed (actors t)).code zone) rows next clock).threads t = some p →
      sprouting.logic.Safe t p (fun x w => ∀ a, x = .ok a → w.db.log ≠ [])
        (opened (fun t => (Request.seed (actors t)).code zone) rows next clock).state := by
    intro t p hp
    cases hp
    exact seeding_safe _ ⟨rfl⟩
  obtain ⟨hsound, -⟩ := sprouting.runs (Q := fun _ x w => ∀ a, x = .ok a → w.db.log ≠ []) (opened_obeyed h) hI hsafe hr
  refine ⟨hsound.inv.2.imp And.right And.right, fun t a ht => ?_⟩
  have hlog := hsound.finished ht a rfl
  rcases hsound.inv.2 with ⟨hnil, -⟩ | ⟨-, hseeded⟩
  · exact absurd hnil hlog
  · exact hseeded

end Seeding

/-! ## A boutique open on Sunday mornings -/

def openingHours : (T : Table) → List (Row T)
  | .availabilityRules => [(⟨0, 0, none, 0, ⟨9 * 3600 * Boutique.second, Boutique.nine_nonneg, Boutique.nine_lt_day⟩,
      ⟨12 * 3600 * Boutique.second, Boutique.noon_nonneg, Boutique.noon_lt_day⟩, 2⟩ : Boutique.AvailabilityRule)]
  | _ => []

def utc : Boutique.Zone where
  wallOf x := x
  instantOf w := w
  midnight_le x := Int.ediv_mul_le x Boutique.day_ne_zero
  lt_midnight x := Int.lt_ediv_add_one_mul_self x Boutique.day_pos

def twoOwners : Conf (machine schema nobody Err) Response :=
  opened (fun t => (Request.seed t).code utc) (listed (S := schema) openingHours) 1 0

def committedGrid (c : Conf (machine schema nobody Err) Response) : List ShiftTemplate :=
  Templates.live ⟨c.state.db.committed, c.state.db.next⟩

def answered (c : Conf (machine schema nobody Err) Response) (t : Tid) : Bool :=
  match c.threads t with
  | some (.ret _) => true
  | _ => false

theorem openingHours_shelved : Shelved (listed (S := schema) openingHours) 1 :=
  shelved_of_stocked [.shiftTemplates, .staffAvailability, .availabilityRules, .auditLog]
    (fun T => by cases T <;> decide) (by decide)

/-- **Two owners seed one grid**: both find it empty, both are answered, and the one rule has two templates. -/
theorem seeded_twice : ∃ c, twoOwners.Reaches c ∧ (answered c 0 && answered c 1) = true ∧
    (activeRules ⟨c.state.db.committed, c.state.db.next⟩).length = 1 ∧ (committedGrid c).length = 2 := by
  obtain ⟨c, hc, hP⟩ := Conf.reached_freely twoOwners
    (turns 0 3 ++ turns 1 6 ++ turns 0 3)
    (fun c => decide ((answered c 0 && answered c 1) = true ∧
      (activeRules ⟨c.state.db.committed, c.state.db.next⟩).length = 1 ∧ (committedGrid c).length = 2)) (by decide)
  exact ⟨c, hc, of_decide_eq_true hP⟩

def caughtUp (t : Tid) (o : Op schema nobody) (w : World schema nobody) : Bool :=
  match o with
  | .sql (.read .rulesListActive) => w.db.log.length ≤ w.db.seen t
  | .sql .commit => w.db.log.length ≤ w.db.seen t
  | _ => true

theorem unhurried_of_caughtUp {t : Tid} {o : Op schema nobody} {w : World schema nobody} {r : o.Res}
    {w' : World schema nobody} (h : caughtUp t o w = true) : Unhurried t o w r w' := by
  have hquiet : w.db.log.length ≤ w.db.seen t → w.db.Undisturbed t Table.shiftTemplates := by
    intro hle n c hn hc
    have := (List.getElem?_eq_some_iff.1 hc).1
    omega
  unfold caughtUp at h
  unfold Unhurried
  split at h
  · exact hquiet (of_decide_eq_true h)
  · exact hquiet (of_decide_eq_true h)
  · split <;> simp_all

/-- Two owners begin, one seeds; the other, whose check comes afterwards, is refused, and the grid stays as it was seeded. -/
theorem seeded_once_sunday : ∃ c, Conf.Steps Unhurried twoOwners c ∧ answered c 0 = true ∧
    c.threads 1 = some (.raise Err.templatesAlreadySeeded) ∧ (committedGrid c).length = 1 ∧ SeededOnce c.state.db := by
  obtain ⟨c, hc, hP⟩ := Conf.reached_of_play (A := fun t o w _ _ => caughtUp t o w = true) twoOwners
    (turns 1 1 ++ turns 0 6 ++ turns 1 2) (fun c => answered c 0 && decide (c.failure 1 = some Err.templatesAlreadySeeded) &&
      decide ((committedGrid c).length = 1)) (by decide)
  simp only [Bool.and_eq_true, decide_eq_true_eq] at hP
  obtain ⟨⟨hfirst, hsecond⟩, hgrid⟩ := hP
  have hc' : Conf.Steps Unhurried twoOwners c := hc.mono fun _ _ _ _ _ h => unhurried_of_caughtUp h
  refine ⟨c, hc', hfirst, Conf.failure_eq_some.1 hsecond, hgrid, ?_⟩
  unfold answered at hfirst
  split at hfirst
  · rename_i a ha
    exact (seeded_once openingHours_shelved (fun i r hr => by cases hr) hc').2 0 a ha
  · cases hfirst

end Shifts
