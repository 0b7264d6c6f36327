import Boutique.Gregorian
import Mathlib.Algebra.BigOperators.Group.List.Basic
import Mathlib.Algebra.Group.Prod
import Mathlib.Data.Prod.Lex
import Mathlib.Data.List.Sort
import Mathlib.Data.Rat.Floor
import Mathlib.Tactic.Linarith
/-!
# Capacity — the load of a seamstress, and what the console says of it

The server sums the effort of the undelivered tickets by assignee, in minutes; the console alone divides it by her
week's hours.  What the assign cue foretells is the sum the server computes once the ticket is hers (`load_assign`),
and the order of the picker is that of one key (`comparator_nonpos`).
-/
namespace Capacity

open Gregorian

variable {Id Name : Type}

/-! ## The server -/

/-- Dates are day numbers. -/
structure AlterationTicket (Id : Type) where
  id : Nat
  assignedStaffUserId : Option Id
  dueDate : Int
  effortMinutes : Int
  deliveredAt : Option Int
  deletedAt : Option Int

structure StaffUser (Id Name : Type) where
  id : Id
  displayName : Name
  weeklyCapacityHours : Option Int
  isSeamstress : Bool
  deletedAt : Option Int

def assign (tickets : List (AlterationTicket Id)) (ticketId : Nat) (staffUserId : Option Id) :
    List (AlterationTicket Id) :=
  tickets.map fun t =>
    if t.id = ticketId ∧ t.deletedAt = none then { t with assignedStaffUserId := staffUserId } else t

def heldBy [DecidableEq Id] (assignee : Option Id) (t : AlterationTicket Id) : Bool :=
  t.deletedAt = none ∧ t.deliveredAt = none ∧ t.assignedStaffUserId = assignee

/-- **Due-soon and assigned minutes, by assignee**, the unassigned pile among them.  A group exists only if it has
a row. -/
def loadByAssignee [DecidableEq Id] (tickets : List (AlterationTicket Id)) (horizon : Int)
    (assignee : Option Id) : Option (Int × Int) :=
  let rows := tickets.filter (heldBy assignee)
  if rows.isEmpty then none
  else some (((rows.filter fun t => t.dueDate ≤ horizon).map AlterationTicket.effortMinutes).sum,
    (rows.map AlterationTicket.effortMinutes).sum)

/-- Her own hours before the boutique's default; zero is her own. -/
def resolveCapacity (row : StaffUser Id Name) (tenantDefault : Option Int) : Option Int × Bool :=
  match row.weeklyCapacityHours with
  | some hours => (some hours, false)
  | none => (tenantDefault, tenantDefault.isSome)

structure SeamstressRef (Id Name : Type) where
  id : Id
  displayName : Name
  assignable : Bool
  weeklyCapacityHours : Option Int
  capacityIsDefault : Bool
  assignedMinutes : Int
  dueSoonMinutes : Int

def SeamstressRef.fromRow (row : StaffUser Id Name) (load : Option Id → Option (Int × Int))
    (tenantDefault : Option Int) : SeamstressRef Id Name :=
  let (dueSoonMinutes, assignedMinutes) := (load (some row.id)).getD (0, 0)
  let (hours, isDefault) := resolveCapacity row tenantDefault
  ⟨row.id, row.displayName, decide (row.deletedAt = none) && row.isSeamstress, hours, isDefault, assignedMinutes,
    dueSoonMinutes⟩

/-- What the cue reads of a ticket on the wire; the date by the parts of its ISO string. -/
structure AtelierTicket where
  effortMinutes : Int
  dueDate : Date

def AtelierTicket.fromRow (t : AlterationTicket Id) : AtelierTicket := ⟨t.effortMinutes, civil t.dueDate⟩

/-! ## The console -/

def capacityMinutes (hours : Option Int) : Option Int := hours.map (· * 60)

def remainingMinutes (row : SeamstressRef Id Name) : Option Int :=
  (capacityMinutes row.weeklyCapacityHours).map (· - row.dueSoonMinutes)

def overloaded (row : SeamstressRef Id Name) : Bool :=
  match capacityMinutes row.weeklyCapacityHours with
  | none => false
  | some capacity => capacity < row.dueSoonMinutes

def isoLe (a b : Date) : Bool :=
  a.year < b.year ∨ a.year = b.year ∧ (a.month < b.month ∨ a.month = b.month ∧ a.day ≤ b.day)

def loadMinutes (ticket : AtelierTicket) (dueSoonThrough : Date) : Int :=
  if isoLe ticket.dueDate dueSoonThrough then ticket.effortMinutes else 0

def wouldOverload (row : SeamstressRef Id Name) (extraMinutes : Int) : Bool :=
  overloaded { row with dueSoonMinutes := row.dueSoonMinutes + extraMinutes }

def hoursFromMinutes (minutes : Int) : ℚ := ⌈(minutes : ℚ) / 6⌉ / 10

/-- Headroom, unknown, and none left. -/
def group (row : SeamstressRef Id Name) : Int :=
  match remainingMinutes row with
  | none => 2
  | some remaining => if 0 < remaining then 1 else 3

def comparator [LinearOrder Id] [LinearOrder Name] (a b : SeamstressRef Id Name) : Int :=
  let groupDelta := group a - group b
  let assignedDelta := a.assignedMinutes - b.assignedMinutes
  let remainingDelta := (remainingMinutes b).getD 0 - (remainingMinutes a).getD 0
  if groupDelta ≠ 0 then groupDelta
  else if group a = 2 ∧ assignedDelta ≠ 0 then assignedDelta
  else if group a ≠ 2 ∧ remainingDelta ≠ 0 then remainingDelta
  else if a.displayName ≠ b.displayName then (if a.displayName < b.displayName then -1 else 1)
  else if a.id = b.id then 0
  else if a.id < b.id then -1
  else 1

def sortByRemainingCapacity [LinearOrder Id] [LinearOrder Name] (rows : List (SeamstressRef Id Name)) :
    List (SeamstressRef Id Name) :=
  rows.mergeSort fun a b => comparator a b ≤ 0

/-! ## The horizon on the wire -/

theorem isoLe_civil (d d' : Int) : isoLe (civil d) (civil d') = decide (d ≤ d') := by
  by_cases hle : d ≤ d'
  · rw [decide_eq_true hle]
    exact decide_eq_true (civil_le hle)
  · rw [decide_eq_false hle]
    apply decide_eq_false
    intro hiso
    have hback := civil_le (show d' ≤ d by omega)
    have hyear : (civil d).year = (civil d').year := by omega
    have hmonth : (civil d).month = (civil d').month := by omega
    have hday : (civil d).day = (civil d').day := by omega
    have hsame : civil d = civil d' := by
      calc civil d = ⟨(civil d).year, (civil d).month, (civil d).day⟩ := rfl
        _ = civil d' := by rw [hyear, hmonth, hday]
    exact hle (Int.le_of_eq (civil_injective hsame))

theorem loadMinutes_fromRow (t : AlterationTicket Id) (horizon : Int) :
    loadMinutes (.fromRow t) (civil horizon) = if t.dueDate ≤ horizon then t.effortMinutes else 0 := by
  simp only [loadMinutes, AtelierTicket.fromRow, isoLe_civil, decide_eq_true_eq]

/-! ## The sums -/

def share [DecidableEq Id] (horizon : Int) (assignee : Option Id) (t : AlterationTicket Id) : Int × Int :=
  if heldBy assignee t then (if t.dueDate ≤ horizon then t.effortMinutes else 0, t.effortMinutes) else (0, 0)

theorem load_eq_sums [DecidableEq Id] (tickets : List (AlterationTicket Id)) (horizon : Int) (assignee : Option Id) :
    (loadByAssignee tickets horizon assignee).getD (0, 0) =
      ((((tickets.filter (heldBy assignee)).filter fun t => t.dueDate ≤ horizon).map
          AlterationTicket.effortMinutes).sum,
        ((tickets.filter (heldBy assignee)).map AlterationTicket.effortMinutes).sum) := by
  simp only [loadByAssignee]
  split
  · rename_i hempty
    rw [List.isEmpty_iff.1 hempty]
    rfl
  · rfl

theorem load_eq_sum [DecidableEq Id] (tickets : List (AlterationTicket Id)) (horizon : Int) (assignee : Option Id) :
    (loadByAssignee tickets horizon assignee).getD (0, 0) = (tickets.map (share horizon assignee)).sum := by
  rw [load_eq_sums]
  induction tickets with
  | nil => rfl
  | cons t tickets ih =>
    rw [List.map_cons, List.sum_cons, ← ih]
    by_cases hheld : heldBy assignee t
    · by_cases hdue : t.dueDate ≤ horizon <;> simp [share, hheld, hdue]
    · simp [share, hheld]

/-! ## The assignment -/

variable {tickets : List (AlterationTicket Id)} {T : AlterationTicket Id} {S : Id} {horizon : Int}

theorem assign_eq (hids : (tickets.map AlterationTicket.id).Nodup) (hT : T ∈ tickets) (hlive : T.deletedAt = none) :
    ∃ before after_, tickets = before ++ T :: after_ ∧
      assign tickets T.id (some S) = before ++ { T with assignedStaffUserId := some S } :: after_ := by
  obtain ⟨before, after_, rfl⟩ := List.append_of_mem hT
  have hkept : ∀ l : List (AlterationTicket Id), (∀ t ∈ l, t.id ≠ T.id) → assign l T.id (some S) = l := by
    intro l hl
    calc assign l T.id (some S) = l.map id := by
          apply List.map_congr_left
          intro t ht
          rw [if_neg fun h => hl t ht h.1, id]
      _ = l := List.map_id l
  rw [List.map_append, List.map_cons, List.nodup_append, List.nodup_cons] at hids
  obtain ⟨-, ⟨hafter, -⟩, hbefore⟩ := hids
  refine ⟨before, after_, rfl, ?_⟩
  have hb : assign before T.id (some S) = before := by
    apply hkept
    intro t ht
    exact hbefore _ (List.mem_map_of_mem ht) _ List.mem_cons_self
  have ha : assign after_ T.id (some S) = after_ := by
    apply hkept
    rintro t ht heq
    exact hafter (heq ▸ List.mem_map_of_mem ht)
  calc assign (before ++ T :: after_) T.id (some S)
      = assign before T.id (some S) ++ assign (T :: after_) T.id (some S) := List.map_append
    _ = before ++ { T with assignedStaffUserId := some S } :: after_ := by
        rw [hb]
        conv_rhs => rw [← ha]
        simp only [assign, List.map_cons, hlive, and_self, if_true]

theorem share_self [DecidableEq Id] (hlive : T.deletedAt = none) (hundelivered : T.deliveredAt = none) :
    share horizon T.assignedStaffUserId T = (loadMinutes (.fromRow T) (civil horizon), T.effortMinutes) := by
  simp [share, heldBy, hlive, hundelivered, loadMinutes_fromRow]

theorem share_other [DecidableEq Id] {a : Option Id} (h : a ≠ T.assignedStaffUserId) :
    share horizon a T = (0, 0) := by
  have hnot : heldBy a T = false := decide_eq_false fun hheld => h hheld.2.2.symm
  rw [share, hnot]
  rfl

/-- **What the assignment does to the loads**: hers grow by the ticket's share, its last holder's fall by it. -/
theorem load_assign [DecidableEq Id] (horizon : Int) (hids : (tickets.map AlterationTicket.id).Nodup) (hT : T ∈ tickets)
    (hlive : T.deletedAt = none) (hundelivered : T.deliveredAt = none) (hother : T.assignedStaffUserId ≠ some S) :
    (loadByAssignee (assign tickets T.id (some S)) horizon (some S)).getD (0, 0) =
        (loadByAssignee tickets horizon (some S)).getD (0, 0) +
          (loadMinutes (.fromRow T) (civil horizon), T.effortMinutes) ∧
      (loadByAssignee tickets horizon T.assignedStaffUserId).getD (0, 0) =
        (loadByAssignee (assign tickets T.id (some S)) horizon T.assignedStaffUserId).getD (0, 0) +
          (loadMinutes (.fromRow T) (civil horizon), T.effortMinutes) := by
  obtain ⟨before, after_, rfl, hassigned⟩ := assign_eq (S := S) hids hT hlive
  have hnew : share horizon (some S) { T with assignedStaffUserId := some S } =
      (loadMinutes (.fromRow T) (civil horizon), T.effortMinutes) :=
    share_self (T := { T with assignedStaffUserId := some S }) hlive hundelivered
  have hleft : share horizon T.assignedStaffUserId { T with assignedStaffUserId := some S } = (0, 0) :=
    share_other hother
  have hnone : share horizon (some S) T = (0, 0) := share_other hother.symm
  rw [hassigned]
  simp only [load_eq_sum, List.map_append, List.map_cons, List.sum_append, List.sum_cons, hnew, hleft, hnone,
    share_self hlive hundelivered]
  simp only [Prod.mk_zero_zero, zero_add]
  constructor <;> ac_rfl

theorem load_elsewhere [DecidableEq Id] (hids : (tickets.map AlterationTicket.id).Nodup) (hT : T ∈ tickets)
    (hlive : T.deletedAt = none) {a : Option Id} (hS : a ≠ some S) (hlast : a ≠ T.assignedStaffUserId) :
    loadByAssignee (assign tickets T.id (some S)) horizon a = loadByAssignee tickets horizon a := by
  obtain ⟨before, after_, rfl, hassigned⟩ := assign_eq (S := S) hids hT hlive
  have hnew : heldBy a { T with assignedStaffUserId := some S } = false := decide_eq_false fun h => hS h.2.2.symm
  have hnone : heldBy a T = false := decide_eq_false fun h => hlast h.2.2.symm
  have hrows : (before ++ { T with assignedStaffUserId := some S } :: after_).filter (heldBy a) =
      (before ++ T :: after_).filter (heldBy a) := by
    simp only [List.filter_append, List.filter_cons, hnew, hnone, Bool.false_eq_true, if_false]
  rw [hassigned]
  simp only [loadByAssignee, hrows]

variable {row a b : SeamstressRef Id Name}

theorem wouldOverload_eq {row' : SeamstressRef Id Name} {extraMinutes : Int}
    (hhours : row'.weeklyCapacityHours = row.weeklyCapacityHours)
    (hload : row'.dueSoonMinutes = row.dueSoonMinutes + extraMinutes) :
    wouldOverload row extraMinutes = overloaded row' := by
  simp only [wouldOverload, overloaded, hhours, hload]

theorem fromRow_dueSoon (row : StaffUser Id Name) (load : Option Id → Option (Int × Int))
    (tenantDefault : Option Int) : (SeamstressRef.fromRow row load tenantDefault).dueSoonMinutes = ((load (some row.id)).getD (0, 0)).1 := rfl

/-! ## The displayed hours -/

theorem overloaded_iff_hours (row : SeamstressRef Id Name) : overloaded row = true ↔
    ∃ hours, row.weeklyCapacityHours = some hours ∧ (hours : ℚ) < hoursFromMinutes row.dueSoonMinutes := by
  have hceil : ∀ hours : Int, (hours : ℚ) < hoursFromMinutes row.dueSoonMinutes ↔ hours * 60 < row.dueSoonMinutes := by
    intro hours
    calc (hours : ℚ) < hoursFromMinutes row.dueSoonMinutes
        ↔ ((hours * 10 : Int) : ℚ) < (⌈(row.dueSoonMinutes : ℚ) / 6⌉ : ℚ) := by
          rw [hoursFromMinutes, lt_div_iff₀ (by norm_num)]
          push_cast
          rfl
      _ ↔ hours * 10 < ⌈(row.dueSoonMinutes : ℚ) / 6⌉ := Int.cast_lt
      _ ↔ ((hours * 10 : Int) : ℚ) < (row.dueSoonMinutes : ℚ) / 6 := Int.lt_ceil
      _ ↔ ((hours * 60 : Int) : ℚ) < (row.dueSoonMinutes : ℚ) := by
          rw [lt_div_iff₀ (by norm_num)]
          push_cast
          ring_nf
      _ ↔ hours * 60 < row.dueSoonMinutes := Int.cast_lt
  cases hhours : row.weeklyCapacityHours with
  | none => simp [overloaded, capacityMinutes, hhours]
  | some hours => simp [overloaded, capacityMinutes, hhours, hceil]

/-! ## The order of the picker -/

theorem group_of_overloaded (h : overloaded row = true) : group row = 3 := by
  cases hcapacity : capacityMinutes row.weeklyCapacityHours with
  | none => simp [overloaded, hcapacity] at h
  | some capacity =>
    simp only [overloaded, hcapacity, decide_eq_true_eq] at h
    simp only [group, remainingMinutes, hcapacity, Option.map_some]
    exact if_neg (by omega)

theorem remaining_of_group (h : 3 ≤ group row) :
    ∃ remaining, remainingMinutes row = some remaining ∧ remaining ≤ 0 := by
  cases hremaining : remainingMinutes row with
  | none => simp [group, hremaining] at h
  | some remaining =>
    refine ⟨remaining, rfl, ?_⟩
    by_contra hpos
    rw [group, hremaining] at h
    simp only [if_pos (show 0 < remaining by omega)] at h
    omega

/-- **The key of the order**: the group, then the number its surface shows, then the name and the id. -/
def key (row : SeamstressRef Id Name) : Int ×ₗ Int ×ₗ Name ×ₗ Id :=
  toLex (group row,
    toLex (if group row = 2 then row.assignedMinutes else -(remainingMinutes row).getD 0,
      toLex (row.displayName, row.id)))

theorem id_of_key (h : key a = key b) : a.id = b.id :=
  congrArg (fun k : Int ×ₗ Int ×ₗ Name ×ₗ Id => (ofLex (ofLex (ofLex k).2).2).2) h

variable [LinearOrder Id] [LinearOrder Name]

theorem tiebreak_nonpos (a b : SeamstressRef Id Name) :
    (if a.displayName ≠ b.displayName then (if a.displayName < b.displayName then -1 else 1)
      else if a.id = b.id then 0 else if a.id < b.id then -1 else (1 : Int)) ≤ 0 ↔
      a.displayName < b.displayName ∨ a.displayName = b.displayName ∧ a.id ≤ b.id := by
  by_cases hname : a.displayName = b.displayName
  · rw [if_neg (not_not_intro hname), hname]
    obtain hlt | heq | hgt := lt_trichotomy a.id b.id
    · simp [hlt, hlt.ne, hlt.le]
    · simp [heq]
    · simp [hgt.ne', hgt.not_gt, hgt]
  · rw [if_pos hname]
    by_cases hlt : a.displayName < b.displayName
    · simp [hlt]
    · simp [hlt, hname]

theorem comparator_nonpos (a b : SeamstressRef Id Name) : comparator a b ≤ 0 ↔ key a ≤ key b := by
  simp only [key, Prod.Lex.toLex_le_toLex]
  rw [← tiebreak_nonpos]
  simp only [comparator]
  by_cases hgroup : group a = group b
  · by_cases hunknown : group b = 2
    · by_cases hassigned : a.assignedMinutes = b.assignedMinutes
      · simp [hgroup, hunknown, hassigned]
      · have hdelta : a.assignedMinutes - b.assignedMinutes ≠ 0 := by omega
        simp [hgroup, hunknown, hassigned, hdelta]
        omega
    · by_cases hremaining : (remainingMinutes a).getD 0 = (remainingMinutes b).getD 0
      · simp [hgroup, hunknown, hremaining]
      · have hdelta : (remainingMinutes b).getD 0 - (remainingMinutes a).getD 0 ≠ 0 := by omega
        simp [hgroup, hunknown, hremaining, hdelta]
        omega
  · have hdelta : group a - group b ≠ 0 := by omega
    simp [hgroup, hdelta]
    omega

theorem comparator_total (a b : SeamstressRef Id Name) :
    (decide (comparator a b ≤ 0) || decide (comparator b a ≤ 0)) = true := by
  simpa [comparator_nonpos] using le_total (key a) (key b)

theorem comparator_trans (a b c : SeamstressRef Id Name) (hab : decide (comparator a b ≤ 0) = true)
    (hbc : decide (comparator b c ≤ 0) = true) : decide (comparator a c ≤ 0) = true := by
  simp only [comparator_nonpos, decide_eq_true_eq] at *
  exact hab.trans hbc

variable {rows : List (SeamstressRef Id Name)}

theorem sort_perm (rows : List (SeamstressRef Id Name)) : (sortByRemainingCapacity rows).Perm rows :=
  List.mergeSort_perm _ _

theorem sort_sorted (rows : List (SeamstressRef Id Name)) :
    (sortByRemainingCapacity rows).Pairwise fun a b => key a ≤ key b := by
  have hsorted := List.pairwise_mergeSort comparator_trans comparator_total rows
  exact hsorted.imp fun {a b} h => (comparator_nonpos a b).1 (of_decide_eq_true h)

theorem sort_unique {rows' : List (SeamstressRef Id Name)} (hids : (rows.map SeamstressRef.id).Nodup)
    (hperm : rows.Perm rows') : sortByRemainingCapacity rows' = sortByRemainingCapacity rows := by
  have hsame : (sortByRemainingCapacity rows').Perm (sortByRemainingCapacity rows) :=
    (sort_perm rows').trans (hperm.symm.trans (sort_perm rows).symm)
  apply hsame.eq_of_pairwise _ (sort_sorted rows') (sort_sorted rows)
  intro a b ha hb hab hba
  have ha' : a ∈ rows := hperm.mem_iff.2 ((sort_perm rows').mem_iff.1 ha)
  have hb' : b ∈ rows := (sort_perm rows).mem_iff.1 hb
  exact List.inj_on_of_nodup_map hids ha' hb' (id_of_key (le_antisymm hab hba))

theorem group_le_of_key (h : key a ≤ key b) : group a ≤ group b := by
  simp only [key, Prod.Lex.toLex_le_toLex] at h
  omega

theorem overloaded_last (rows : List (SeamstressRef Id Name)) : (sortByRemainingCapacity rows).Pairwise fun a b =>
    overloaded a = true → ∃ remaining, remainingMinutes b = some remaining ∧ remaining ≤ 0 := by
  apply (sort_sorted rows).imp
  intro a b hkey hover
  apply remaining_of_group
  rw [← group_of_overloaded hover]
  exact group_le_of_key hkey

/-! ## What the cue and the picker promise -/

/-- **The overload cue predicts the board**, the picker's order is one order of the rows, and the displayed hours agree
with the word. -/
theorem cue_foretells (hids : (tickets.map AlterationTicket.id).Nodup) (hT : T ∈ tickets) (hlive : T.deletedAt = none)
    (hundelivered : T.deliveredAt = none) (hother : T.assignedStaffUserId ≠ some S)
    (hrows : (rows.map SeamstressRef.id).Nodup) :
    (loadByAssignee (assign tickets T.id (some S)) horizon (some S)).getD (0, 0) =
        (loadByAssignee tickets horizon (some S)).getD (0, 0) +
          (loadMinutes (.fromRow T) (civil horizon), T.effortMinutes) ∧
      (loadByAssignee tickets horizon T.assignedStaffUserId).getD (0, 0) =
        (loadByAssignee (assign tickets T.id (some S)) horizon T.assignedStaffUserId).getD (0, 0) +
          (loadMinutes (.fromRow T) (civil horizon), T.effortMinutes) ∧
      (∀ a, a ≠ some S → a ≠ T.assignedStaffUserId →
        loadByAssignee (assign tickets T.id (some S)) horizon a = loadByAssignee tickets horizon a) ∧
      (∀ (row : StaffUser Id Name) (tenantDefault : Option Int), row.id = S →
        wouldOverload (.fromRow row (loadByAssignee tickets horizon) tenantDefault)
            (loadMinutes (.fromRow T) (civil horizon)) =
          overloaded (.fromRow row (loadByAssignee (assign tickets T.id (some S)) horizon) tenantDefault)) ∧
      (∀ rows', rows.Perm rows' → sortByRemainingCapacity rows' = sortByRemainingCapacity rows) ∧
      (sortByRemainingCapacity rows).Perm rows ∧
      ((sortByRemainingCapacity rows).Pairwise fun a b =>
        overloaded a = true → ∃ remaining, remainingMinutes b = some remaining ∧ remaining ≤ 0) ∧
      ∀ row : SeamstressRef Id Name, overloaded row = true ↔
        ∃ hours, row.weeklyCapacityHours = some hours ∧ (hours : ℚ) < hoursFromMinutes row.dueSoonMinutes := by
  obtain ⟨hhers, hlast⟩ := load_assign horizon hids hT hlive hundelivered hother
  refine ⟨hhers, hlast, fun a hS ha => load_elsewhere hids hT hlive hS ha, ?_, fun rows' => sort_unique hrows,
    sort_perm rows, overloaded_last rows, overloaded_iff_hours⟩
  rintro row tenantDefault rfl
  have hload : (SeamstressRef.fromRow row (loadByAssignee (assign tickets T.id (some row.id)) horizon)
        tenantDefault).dueSoonMinutes =
      (SeamstressRef.fromRow row (loadByAssignee tickets horizon) tenantDefault).dueSoonMinutes +
        loadMinutes (.fromRow T) (civil horizon) := by
    rw [fromRow_dueSoon, fromRow_dueSoon, hhers]
    rfl
  exact wouldOverload_eq rfl hload

/-- One garment in the unassigned pile and one of seamstress 7's, both due within the horizon. -/
def pile : List (AlterationTicket Nat) := [⟨0, none, 3, 120, none, none⟩, ⟨1, some 7, 9, 300, none, none⟩]

/-- A seamstress over her week, one without a week, one with room. -/
def picker : List (SeamstressRef Nat Nat) :=
  [⟨7, 0, true, some 1, false, 300, 300⟩, ⟨8, 1, true, none, false, 60, 60⟩, ⟨9, 2, true, some 8, false, 30, 30⟩]

/-- A garment of two hours from the unassigned pile, for a seamstress whose week is one hour: she is over it already, will be
with it, and stands last in the picker, whose order is that of the rows reversed. -/
theorem cue_foretells_reached :
    (wouldOverload (.fromRow (⟨7, 0, some 1, true, none⟩ : StaffUser Nat Nat) (loadByAssignee pile 10) none)
        (loadMinutes (.fromRow (⟨0, none, 3, 120, none, none⟩ : AlterationTicket Nat)) (civil 10)) =
      overloaded (.fromRow (⟨7, 0, some 1, true, none⟩ : StaffUser Nat Nat)
        (loadByAssignee (assign pile 0 (some 7)) 10) none)) ∧
    sortByRemainingCapacity picker = picker.reverse ∧
    ((sortByRemainingCapacity picker).Pairwise fun a b =>
      overloaded a = true → ∃ remaining, remainingMinutes b = some remaining ∧ remaining ≤ 0) ∧
    ∃ hours, (some 1 : Option Int) = some hours ∧ (hours : ℚ) < hoursFromMinutes 300 := by
  obtain ⟨-, -, -, hcue, hperm, -, hlast, hhours⟩ := @cue_foretells Nat Nat pile ⟨0, none, 3, 120, none, none⟩ 7 10 _ _ picker
    (by decide) List.mem_cons_self rfl rfl (by decide) (by decide)
  have hsorted : sortByRemainingCapacity picker.reverse = picker.reverse := List.mergeSort_of_pairwise (by decide)
  refine ⟨hcue ⟨7, 0, some 1, true, none⟩ none rfl, (hperm _ (List.reverse_perm _).symm).symm.trans hsorted, hlast, ?_⟩
  exact (hhours ⟨7, 0, true, some 1, false, 300, 300⟩).1 (by decide)

end Capacity
