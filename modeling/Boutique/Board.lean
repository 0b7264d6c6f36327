import Boutique.Dispatches
import Boutique.TxnAlone
/-!
# Board — four screens over one queue

A phone counts the tickets before its own; the wall and the console list the first of the day; a dispatch takes the head.
`screens_agree` says they read one order, and what a ticket that leaves it or goes to its back does to the others.
-/
namespace Floor

open Txn Session

/-! ## The public reads -/

def BOARD_ROW_LIMIT : Nat := 5
def BOARD_NAME_MAX : Nat := 12

/-- `indexError` is Python's own, a 500. -/
inductive QueueErr
  | checkinThrottled | queueTicketNotFound | indexError
deriving DecidableEq

abbrev Poll (α : Type) : Type := Code schema outside QueueErr α

def words (name : String) : List (List Char) := (name.toList.splitOnP Boutique.isSpace).filter (· ≠ [])

def boardDisplayName (name : String) : Except QueueErr String :=
  match words name with
  | [] => .error .indexError
  | first :: _ =>
    if first.length ≤ BOARD_NAME_MAX then .ok (String.ofList first)
    else .ok (String.ofList (first.take (BOARD_NAME_MAX - 1) ++ ['…']))

theorem splitOnP_filter_ne_nil {cs : List Char} (h : ∃ c ∈ cs, Boutique.isSpace c = false) :
    (cs.splitOnP Boutique.isSpace).filter (· ≠ []) ≠ [] := by
  induction cs with
  | nil => simp at h
  | cons c cs ih =>
    obtain ⟨a, ha, hspace⟩ := h
    rw [List.splitOnP_cons_eq_if_modifyHead]
    by_cases hc : Boutique.isSpace c = true
    · rw [if_pos hc, List.filter_cons_of_neg (by simp)]
      rcases List.mem_cons.1 ha with rfl | ha
      · rw [hc] at hspace
        cases hspace
      · exact ih ⟨a, ha, hspace⟩
    · obtain ⟨first, rest, hsplit⟩ := List.exists_cons_of_ne_nil (List.splitOnP_ne_nil Boutique.isSpace cs)
      rw [if_neg hc, hsplit, List.modifyHead_cons, List.filter_cons_of_pos (by simp)]
      exact List.cons_ne_nil _ _

/-- Only a blank name is without a first word, and no check-in takes one. -/
theorem boardDisplayName_ok {name : String} (h : ∃ c ∈ name.toList, Boutique.isSpace c = false) :
    ∃ shown, boardDisplayName name = .ok shown := by
  obtain ⟨first, rest, hfirst⟩ := List.exists_cons_of_ne_nil (splitOnP_filter_ne_nil h)
  have hfirst : words name = first :: rest := hfirst
  simp only [boardDisplayName, hfirst]
  split
  · exact ⟨_, rfl⟩
  · exact ⟨_, rfl⟩

theorem mapM_boardDisplayName_ok {α : Type} (name : α → String) :
    ∀ l : List α, (∀ q ∈ l, ∃ c ∈ (name q).toList, Boutique.isSpace c = false) →
      ∃ shown, (l.mapM fun q => boardDisplayName (name q)) = .ok shown := by
  intro l
  induction l with
  | nil => exact fun _ => ⟨[], rfl⟩
  | cons q l ih =>
    intro hnamed
    obtain ⟨first, hfirst⟩ := boardDisplayName_ok (hnamed q List.mem_cons_self)
    obtain ⟨rest, hrest⟩ := ih fun r hr => hnamed r (List.mem_cons_of_mem _ hr)
    refine ⟨first :: rest, ?_⟩
    rw [List.mapM_cons, hfirst, hrest]
    rfl

namespace Tickets

def byId (ticketId : Nat) : Poll (Option QueueTicket) :=
  select .ticketById fun s => (s.rows .tickets ticketId).filter QueueTicket.live

/-- 1-based, among the waiting of the ticket's own day. -/
def position (ticket : QueueTicket) : Poll (Option Nat) :=
  if ticket.status ≠ .waiting then return none
  else do
    let earlier ← select .position fun s => (s.all .tickets).countP fun (q : QueueTicket) =>
      liveWaiting ticket.queueDay q ∧ sortKey q < sortKey ticket
    return some (earlier + 1)

def board (queueDay : Int) (limit : Nat) : Poll (List (String × Option Int) × Nat) := do
  let rows ← select .boardRows fun s => ((queue queueDay s).take limit).map fun (q : QueueTicket) => (q.name, q.calledAt)
  let total ← select .boardTotal fun s => (s.all .tickets).countP (liveWaiting queueDay)
  return (rows, total)

end Tickets

structure TicketView where
  id : Nat
  status : QueueTicketStatus
  position : Option Nat
  calledAt : Option Int

structure QueueBoardEntry where
  position : Nat
  firstName : String
  called : Bool

structure QueueBoardView where
  entries : List QueueBoardEntry
  waitingTotal : Nat

/-- A pure computation that can raise. -/
def ofExcept {α : Type} : Except QueueErr α → Poll α
  | .ok a => return a
  | .error e => .raise e

variable {t : Tid} {a : Input} {order : List QueueTicket} {i : Nat}

theorem alone_ofExcept {α β : Type} {x : Except QueueErr α} {k : α → Poll β}
    {Q : Except QueueErr β → World schema outside → Prop} {w : World schema outside}
    (hok : ∀ v, x = .ok v → Alone t a (k v) Q w) (hraised : ∀ e, x = .error e → Q (.error e) w) :
    Alone t a (ofExcept x >>= k) Q w := by
  cases x with
  | ok v => exact hok v rfl
  | error e => exact alone_raise (hraised e rfl)

namespace QueueService

/-- The ticket's budget is asked first, the miss brake on a miss only. -/
def position (ticketBlocked missBlocked : Bool) (ticketId : Nat) : Poll TicketView := do
  raiseIf ticketBlocked .checkinThrottled
  tenantSession fun _ => do
    let ticket ← Tickets.byId ticketId
    match ticket with
    | none => do
      raiseIf missBlocked .checkinThrottled
      .raise .queueTicketNotFound
    | some ticket => do
      let position ← Tickets.position ticket
      return ⟨ticket.id, ticket.status, position, ticket.calledAt⟩

def board (cfg : Config) (boardBlocked : Bool) : Poll QueueBoardView := do
  raiseIf boardBlocked .checkinThrottled
  let now ← Session.now
  tenantSession fun _ => do
    let (rows, waitingTotal) ← Tickets.board (cfg.zone.dateOf now) BOARD_ROW_LIMIT
    let firstNames ← ofExcept (rows.mapM fun row => boardDisplayName row.1)
    return ⟨(rows.zip firstNames).mapIdx fun index row => ⟨index + 1, row.2, row.1.2.isSome⟩, waitingTotal⟩

end QueueService

/-! ## What the screens show -/

/-- **What her phone shows** for a ticket, in whichever thread it is answered. -/
def Phone (w : World schema outside) (ticketId : Nat) (place : Option Nat) : Prop :=
  ∀ t i missBlocked, Alone t i (QueueService.position false missBlocked ticketId)
    (fun x _ => ∃ view, x = .ok view ∧ view.id = ticketId ∧ view.position = place) w

def Apart (day : Int) (w : World schema outside) : Prop :=
  ∀ i j (q r : QueueTicket), w.db.committed .tickets i = some q → w.db.committed .tickets j = some r →
    liveWaiting day q = true → liveWaiting day r = true → sortKey q = sortKey r → i = j

/-- **Every screen shows this order.** -/
structure Screens (cfg : Config) (w : World schema outside) (order : List QueueTicket) : Prop where
  apart : (order.map QueueTicket.id).Nodup
  today : ∀ q ∈ order, w.db.committed .tickets q.id = some q ∧ q.queueDay = cfg.zone.dateOf w.db.clock
  phones : ∀ k (q : QueueTicket), order[k]? = some q → Phone w q.id (some (k + 1))
  everyone : ∀ i (q : QueueTicket) n, w.db.committed .tickets i = some q →
    q.queueDay = cfg.zone.dateOf w.db.clock → Phone w i (some n) → q ∈ order
  rows : ∀ t i limit, Alone t i (Tickets.board (cfg.zone.dateOf w.db.clock) limit) (fun x _ =>
    x = .ok ((order.take limit).map fun q => (q.name, q.calledAt), order.length)) w
  wall : ∀ t i, Alone t i (QueueService.board cfg false) (fun x _ =>
    x = ((order.take BOARD_ROW_LIMIT).mapM fun q => boardDisplayName q.name).map fun firstNames =>
      ⟨((order.take BOARD_ROW_LIMIT).zip firstNames).mapIdx fun k shown => ⟨k + 1, shown.2, shown.1.calledAt.isSome⟩,
        order.length⟩) w
  panel : ∀ t i limit, Alone t i (Tickets.waitingForPanel (cfg.zone.dateOf w.db.clock) limit) (fun x _ =>
    x = .ok (order.take limit)) w
  console : ∀ t i, Alone t i (tenantSession fun _ => waitlist cfg) (fun x _ => ∃ read, x = .ok read ∧
    read.entries.map WaitlistEntryRead.id = (order.take WAITLIST_LIMIT).map QueueTicket.id) w
  head : ∀ t (i : Input), i.locked = false →
    Alone t i (tenantSession fun _ => Tickets.claimNext (cfg.zone.dateOf w.db.clock)) (fun x w' =>
      match order with
      | [] => x = .ok none ∧ w'.db.committed = w.db.committed
      | q :: _ => x = .ok (some { q with status := .inService }) ∧
          w'.db.committed = w.db.committed.set .tickets q.id ({ q with status := .inService } : QueueTicket)) w

/-- Ticket `j` stands behind ticket `i`, in one day's queue. -/
def Behind (w : World schema outside) (i j : Nat) : Prop :=
  ∃ (q r : QueueTicket) (m n : Nat), w.db.committed .tickets i = some q ∧ w.db.committed .tickets j = some r ∧
    r.queueDay = q.queueDay ∧ Phone w i (some m) ∧ Phone w j (some n) ∧ m < n

/-- **Ticket `i` is gone and those behind it are one nearer.** -/
def StepUp (w w' : World schema outside) (i : Nat) : Prop :=
  Phone w' i none ∧ ∀ j place, j ≠ i → Phone w j place →
    (Behind w i j → Phone w' j (place.map (· - 1))) ∧ (¬Behind w i j → Phone w' j place)

/-- **Ticket `i` is last and the others stand as they stood.** -/
def GoLast (w w' : World schema outside) (i : Nat) : Prop :=
  (∃ (q : QueueTicket) (total : Nat), w'.db.committed .tickets i = some q ∧ Phone w' i (some total) ∧
    ∀ t a limit, Alone t a (Tickets.board q.queueDay limit) (fun x _ => ∃ rows, x = .ok (rows, total)) w') ∧
  ∀ j k, j ≠ i → k ≠ i → (Behind w j k ↔ Behind w' j k)

/-! ## The line -/

abbrev shelf (w : World schema outside) : Snapshot schema := ⟨w.db.committed, w.db.next⟩

def earlier (s : Snapshot schema) (day key : Int) : Nat :=
  (s.all .tickets).countP fun (q : QueueTicket) => liveWaiting day q ∧ sortKey q < key

def place (w : World schema outside) (q : QueueTicket) : Option Nat :=
  if q.status = .waiting then some (earlier (shelf w) q.queueDay (sortKey q) + 1) else none

def Ahead (q q' : QueueTicket) : Prop := sortKey q < sortKey q' ∨ (sortKey q = sortKey q' ∧ q.id ≤ q'.id)

instance : DecidableRel Ahead := fun _ _ => inferInstanceAs (Decidable (_ ∨ _))

instance : Std.Total Ahead := ⟨fun _ _ => by unfold Ahead; omega⟩

instance : IsTrans QueueTicket Ahead := ⟨fun _ _ _ _ _ => by unfold Ahead at *; omega⟩

variable {w w' : World schema outside} {day : Int} {s : Snapshot schema} {q r : QueueTicket}

theorem queue_sorted : (Tickets.queue day s).Pairwise Ahead := List.pairwise_insertionSort Ahead _

theorem queue_perm : (Tickets.queue day s).Perm ((s.all .tickets).filter (liveWaiting day)) :=
  List.perm_insertionSort Ahead _

theorem mem_queue : q ∈ Tickets.queue day s ↔ q ∈ s.all .tickets ∧ liveWaiting day q = true := by
  rw [queue_perm.mem_iff, List.mem_filter]

theorem queue_length : (Tickets.queue day s).length = (s.all .tickets).countP (liveWaiting day) := by
  rw [queue_perm.length_eq, List.countP_eq_length_filter]

theorem earlier_queue (key : Int) : earlier s day key = (Tickets.queue day s).countP fun q => sortKey q < key := by
  rw [queue_perm.countP_eq, List.countP_filter]
  exact List.countP_congr fun q _ => by simp [and_comm]

theorem countP_before (h : order.Pairwise fun q q' => sortKey q < sortKey q') :
    ∀ {k : Nat}, order[k]? = some q → (order.countP fun q' => sortKey q' < sortKey q) = k := by
  induction order with
  | nil => simp
  | cons a order ih =>
    obtain ⟨ha, horder⟩ := List.pairwise_cons.1 h
    rintro (_ | k) hk
    · simp only [List.getElem?_cons_zero, Option.some.injEq] at hk
      subst hk
      rw [List.countP_eq_zero]
      intro b hb
      rcases List.mem_cons.1 hb with rfl | hb
      · simp
      · have := ha b hb
        simp only [decide_eq_true_eq]
        omega
    · simp only [List.getElem?_cons_succ] at hk
      have hlt := ha q (List.mem_of_getElem? hk)
      rw [List.countP_cons_of_pos (by simpa using hlt), ih horder hk]

section Unheld

variable (hw : w.db.Unheld)
include hw

theorem mem_shelf : q ∈ (shelf w).all .tickets ↔ w.db.committed .tickets q.id = some q := by
  rw [Snapshot.mem_all]
  constructor
  · rintro ⟨i, -, hi⟩
    have hid : q.id = i := hw.consistent.id .tickets i q hi
    rw [hid]
    exact hi
  · intro h
    exact ⟨q.id, hw.lt _ _ _ h, h⟩

theorem shelf_nodup : ((shelf w).all .tickets).Nodup :=
  List.Nodup.filterMap (fun i j r hi hj =>
    (hw.consistent.id .tickets i r hi).symm.trans (hw.consistent.id .tickets j r hj)) List.nodup_range

theorem queue_nodup : (Tickets.queue day (shelf w)).Nodup :=
  queue_perm.nodup_iff.2 ((shelf_nodup hw).filter _)

theorem queue_strict (hkeys : Apart day w) :
    (Tickets.queue day (shelf w)).Pairwise fun q q' => sortKey q < sortKey q' := by
  have hsorted : (Tickets.queue day (shelf w)).Pairwise Ahead := queue_sorted
  refine (hsorted.and (queue_nodup hw)).imp_of_mem fun {a b} ha hb hab => ?_
  obtain ⟨hahead | ⟨heq, -⟩, hne⟩ := hab
  · exact hahead
  · obtain ⟨ha, hla⟩ := mem_queue.1 ha
    obtain ⟨hb, hlb⟩ := mem_queue.1 hb
    have ha := (mem_shelf hw).1 ha
    have hb := (mem_shelf hw).1 hb
    have hid := hkeys a.id b.id a b ha hb hla hlb heq
    rw [hid, hb] at ha
    cases ha
    exact absurd rfl hne

theorem view_begun :
    ({ w.db with started := Function.update w.db.started t w.db.clock } : Engine schema).view t = w.db.committed :=
  hw.begun.view

theorem position_alone {Q : Except QueueErr (Option Nat) → World schema outside → Prop}
    (hQ : ∀ w', Q (.ok (place w q)) w') : Alone t a (Tickets.position q) Q w := by
  by_cases hs : q.status = .waiting
  · simp only [place, hs, if_true] at hQ
    simp only [Tickets.position, hs, ne_eq, not_true_eq_false, if_false]
    refine alone_select (a := earlier (shelf w) q.queueDay (sortKey q)) ?_ (alone_ret (hQ _))
    rw [hw.view]
    rfl
  · simp only [place, hs, if_false] at hQ
    simp only [Tickets.position, ne_eq, hs, not_false_eq_true, if_true]
    exact alone_ret (hQ _)

theorem board_alone {limit : Nat} : Alone t a (Tickets.board day limit) (fun x _ =>
    x = .ok (((Tickets.queue day (shelf w)).take limit).map fun q => (q.name, q.calledAt),
      (Tickets.queue day (shelf w)).length)) w := by
  refine alone_select (a := ((Tickets.queue day (shelf w)).take limit).map fun q => (q.name, q.calledAt)) ?_
    (alone_select (a := (Tickets.queue day (shelf w)).length) ?_ (alone_ret rfl))
  · rw [hw.view]
  · rw [queue_length]
    rw [hw.look.view]
    rfl

def silent : Input := ⟨none, none, false, none⟩

theorem phone_of (hq : w.db.committed .tickets i = some q) (hlive : q.live = true) : Phone w i (place w q) := by
  intro t a missBlocked
  have hid : q.id = i := hw.consistent.id .tickets i q hq
  refine alone_raiseIf (fun h => by cases h) fun _ => alone_tenantSession (alone_select (a := some q) ?_ ?_)
  · show Option.filter _ _ = _
    rw [view_begun hw]
    dsimp only
    rw [hq, Option.filter_some, hlive]
    rfl
  · refine alone_bind (position_alone ?_ fun w' => alone_ret ⟨_, rfl, hid, rfl⟩)
    exact hw.begun.look

theorem phone_iff {p : Option Nat} :
    Phone w i p ↔ ∃ q : QueueTicket, w.db.committed .tickets i = some q ∧ q.live = true ∧ p = place w q := by
  constructor
  · intro h
    have hphone := h 0 silent false
    cases hfound : Option.filter QueueTicket.live (w.db.committed .tickets i) with
    | none =>
      have hmiss : Alone 0 silent (QueueService.position false false i)
          (fun x _ => x = .error .queueTicketNotFound) w := by
        refine alone_raiseIf (fun h => by cases h) fun _ => alone_tenantSession (alone_select (a := none) ?_ ?_)
        · show Option.filter _ _ = _
          rw [view_begun hw]
          exact hfound
        · exact alone_raiseIf (fun h => by cases h) fun _ => alone_raise rfl
      obtain ⟨x, _, -, ⟨view, rfl, -⟩, hx⟩ := hphone.and hmiss
      cases hx
    | some q =>
      obtain ⟨hq, hlive⟩ := Option.filter_eq_some_iff.1 hfound
      obtain ⟨x, _, -, ⟨view, rfl, -, hp⟩, view', hx, -, hp'⟩ :=
        hphone.and (phone_of hw hq hlive 0 silent false)
      cases hx
      exact ⟨q, hq, hlive, hp.symm.trans hp'⟩
  · rintro ⟨q, hq, hlive, rfl⟩
    exact phone_of hw hq hlive

end Unheld

/-! ## Standing behind -/

theorem liveWaiting_iff : liveWaiting day q = true ↔ q.queueDay = day ∧ q.waiting = true := by
  simp [liveWaiting]

theorem waiting_iff : q.waiting = true ↔ q.live = true ∧ q.status = .waiting := by
  simp [QueueTicket.waiting]

theorem earlier_mono {key key' : Int} (h : key ≤ key') : earlier s day key ≤ earlier s day key' := by
  refine List.countP_mono_left fun q _ hq => ?_
  simp only [decide_eq_true_eq] at hq ⊢
  exact ⟨hq.1, by omega⟩

theorem earlier_lt {key : Int} (hq : q ∈ s.all .tickets) (hl : liveWaiting day q = true) (h : sortKey q < key) :
    earlier s day (sortKey q) < earlier s day key := by
  unfold earlier
  rw [(List.perm_cons_erase hq).countP_eq, (List.perm_cons_erase hq).countP_eq,
    List.countP_cons_of_neg (by simp), List.countP_cons_of_pos (by simpa [hl] using h)]
  refine Nat.lt_succ_of_le (List.countP_mono_left fun r _ hr => ?_)
  simp only [decide_eq_true_eq] at hr ⊢
  exact ⟨hr.1, by omega⟩

theorem behind_iff (hw : w.db.Unheld) {j : Nat} : Behind w i j ↔
    ∃ q r : QueueTicket, w.db.committed .tickets i = some q ∧ w.db.committed .tickets j = some r ∧ q.waiting = true ∧
      r.waiting = true ∧ r.queueDay = q.queueDay ∧ sortKey q < sortKey r := by
  constructor
  · rintro ⟨q, r, m, n, hq, hr, hday, hm, hn, hlt⟩
    obtain ⟨q', hq', hlive, hm⟩ := (phone_iff hw).1 hm
    obtain ⟨r', hr', hlive', hn⟩ := (phone_iff hw).1 hn
    rw [hq] at hq'
    rw [hr] at hr'
    cases hq'
    cases hr'
    unfold place at hm hn
    split at hm <;> cases hm
    split at hn <;> cases hn
    rename_i hs hs'
    refine ⟨q, r, hq, hr, waiting_iff.2 ⟨hlive, hs⟩, waiting_iff.2 ⟨hlive', hs'⟩, hday, ?_⟩
    by_contra hkey
    have hle : earlier (shelf w) q.queueDay _ ≤ earlier (shelf w) q.queueDay _ := earlier_mono (Int.not_lt.1 hkey)
    rw [hday] at hlt
    omega
  · rintro ⟨q, r, hq, hr, hqw, hrw, hday, hkey⟩
    obtain ⟨hlive, hs⟩ := waiting_iff.1 hqw
    obtain ⟨hlive', hs'⟩ := waiting_iff.1 hrw
    have hpq := phone_of hw hq hlive
    have hpr := phone_of hw hr hlive'
    rw [place, if_pos hs] at hpq
    rw [place, if_pos hs'] at hpr
    have hid : q.id = i := hw.consistent.id .tickets i q hq
    subst hid
    have hlt := earlier_lt ((mem_shelf hw).2 hq) (liveWaiting_iff.2 ⟨rfl, hqw⟩) hkey
    rw [hday] at hpr
    exact ⟨q, r, _, _, hq, hr, hday, hpq, hpr, Nat.succ_lt_succ hlt⟩

/-! ## What one write does to the line -/

section Written

variable {i : Nat} {q' : QueueTicket} (hw : w.db.Unheld) (hq : w.db.committed .tickets i = some q)
  (hleft : w.db.Left w'.db (w.db.committed.set .tickets i q'))
include hleft

theorem written_self : w'.db.committed .tickets i = some q' := by
  rw [hleft.committed, Rows.set_same]

theorem written_other {j : Nat} (hj : j ≠ i) : w'.db.committed .tickets j = w.db.committed .tickets j := by
  rw [hleft.committed, Rows.set_row hj]

include hw hq

theorem earlier_set (d key : Int) :
    earlier (shelf w') d key + (if liveWaiting d q = true ∧ sortKey q < key then 1 else 0) =
      earlier (shelf w) d key + if liveWaiting d q' = true ∧ sortKey q' < key then 1 else 0 := by
  have hcount := Snapshot.countP_set (S := schema) (T := Table.tickets) q'
    (fun r : QueueTicket => liveWaiting d r ∧ sortKey r < key) hq (hw.lt _ _ _ hq)
  simp only [decide_eq_true_eq] at hcount
  unfold earlier shelf
  rw [hleft.committed, hleft.next]
  exact hcount

theorem stepUp_of_left (hqw : q.waiting = true) (hlive : q'.live = true) (hgone : q'.status ≠ .waiting) :
    StepUp w w' i := by
  have hstill : ∀ d, liveWaiting d q' = false := by
    intro d
    rw [Bool.eq_false_iff]
    intro h
    exact hgone (waiting_iff.1 (liveWaiting_iff.1 h).2).2
  refine ⟨(phone_iff hleft.unheld).2 ⟨q', written_self hleft, hlive, by rw [place, if_neg hgone]⟩, ?_⟩
  intro j p hj hp
  obtain ⟨r, hr, hrlive, rfl⟩ := (phone_iff hw).1 hp
  have hr' := (written_other hleft hj).trans hr
  have hcount := earlier_set hw hq hleft r.queueDay (sortKey r)
  simp only [hstill, Bool.false_eq_true, false_and, if_false] at hcount
  constructor
  · intro hbehind
    obtain ⟨q1, r1, hq1, hr1, -, hrw, hday, hkey⟩ := (behind_iff hw).1 hbehind
    rw [hq] at hq1
    rw [hr] at hr1
    cases hq1
    cases hr1
    rw [if_pos ⟨liveWaiting_iff.2 ⟨hday.symm, hqw⟩, hkey⟩] at hcount
    refine (phone_iff hleft.unheld).2 ⟨r, hr', hrlive, ?_⟩
    simp only [place, (waiting_iff.1 hrw).2, if_true, Option.map_some, Option.some.injEq]
    omega
  · intro hbehind
    refine (phone_iff hleft.unheld).2 ⟨r, hr', hrlive, ?_⟩
    by_cases hs : r.status = .waiting
    · have hnot : ¬(liveWaiting r.queueDay q = true ∧ sortKey q < sortKey r) := fun ⟨hday, hkey⟩ =>
        hbehind ((behind_iff hw).2 ⟨q, r, hq, hr, hqw, waiting_iff.2 ⟨hrlive, hs⟩, (liveWaiting_iff.1 hday).1.symm, hkey⟩)
      rw [if_neg hnot] at hcount
      simp only [place, hs, if_true, Option.some.injEq]
      omega
    · simp only [place, hs, if_false]

omit hq in
theorem goLast_of_requeued {now : Int} (hday : q'.queueDay = q.queueDay) (hqw : q'.waiting = true)
    (hkey : sortKey q' = now) (hlast : ∀ j (r : QueueTicket), w.db.committed .tickets j = some r →
      liveWaiting q.queueDay r = true → sortKey r < now) : GoLast w w' i := by
  have hw' := hleft.unheld
  have hself := written_self hleft
  have hid : q'.id = i := hw'.consistent.id .tickets i q' hself
  have hmem : q' ∈ (shelf w').all .tickets := (mem_shelf hw').2 (by rw [hid]; exact hself)
  obtain ⟨hlive, hs⟩ := waiting_iff.1 hqw
  have htotal : (Tickets.queue q'.queueDay (shelf w')).length = earlier (shelf w') q'.queueDay (sortKey q') + 1 := by
    rw [queue_length, earlier, (List.perm_cons_erase hmem).countP_eq, (List.perm_cons_erase hmem).countP_eq,
      List.countP_cons_of_pos (liveWaiting_iff.2 ⟨rfl, hqw⟩), List.countP_cons_of_neg (by simp)]
    congr 1
    refine List.countP_congr fun r hr => ?_
    obtain ⟨hne, hr⟩ := (shelf_nodup hw').mem_erase_iff.1 hr
    have hr := (mem_shelf hw').1 hr
    have hj : r.id ≠ i := by
      intro heq
      rw [heq, hself] at hr
      cases hr
      exact hne rfl
    rw [written_other hleft hj] at hr
    simp only [decide_eq_true_eq, iff_self_and]
    intro hl
    rw [hkey]
    exact hlast r.id r hr (hday ▸ hl)
  refine ⟨⟨q', _, hself, (phone_iff hw').2 ⟨q', hself, hlive, by rw [place, if_pos hs]⟩, fun t a limit => ?_⟩, ?_⟩
  · refine (board_alone hw').mono fun x _ hx => ⟨((Tickets.queue q'.queueDay (shelf w')).take limit).map
      fun q => (q.name, q.calledAt), ?_⟩
    rw [hx, htotal]
  · intro j k hj hk
    rw [behind_iff hw, behind_iff hw', written_other hleft hj, written_other hleft hk]

end Written

/-! ## The statements that move a ticket -/

theorem claimNext_alone (hw : w.db.Unheld) (ha : a.locked = false) :
    Alone t a (tenantSession fun _ => Tickets.claimNext day) (fun x w' =>
      match Tickets.queue day (shelf w) with
      | [] => x = .ok none ∧ w.db.Left w'.db w.db.committed
      | q :: _ => x = .ok (some { q with status := .inService }) ∧
          w.db.Left w'.db (w.db.committed.set .tickets q.id ({ q with status := .inService } : QueueTicket))) w := by
  have hbegun := hw.begun (t := t)
  refine alone_tenantSession (alone_select (a := (Tickets.queue day (shelf w)).map QueueTicket.id) ?_ ?_)
  · rw [hbegun.view]
  cases horder : Tickets.queue day (shelf w) with
  | nil =>
    have hl := (hbegun.look (t := t)).closed (t := t) (.ok none : Except Err (Option QueueTicket))
    exact alone_ret ⟨rfl, hl.unheld, hl.committed, hl.next, hl.clock⟩
  | cons q rest =>
    obtain ⟨hmem, hlw⟩ := mem_queue.1 (horder ▸ List.mem_cons_self : q ∈ Tickets.queue day (shelf w))
    have hq := (mem_shelf hw).1 hmem
    have hcheck : 0 ≤ q.skipCount := by simpa [check] using hw.consistent.check _ _ _ hq
    refine alone_ask ?_
    simp only [serve, ha, Bool.false_eq_true, if_false]
    have happly : TicketChange.apply q (.claimNext day) = some { q with status := .inService } := by
      simp [TicketChange.apply, hlw]
    refine alone_updateRow hbegun.look hq happly (fun hR => ?_) fun hA => alone_ret ?_
    · rcases hR with hbad | ⟨j, -, -, hj⟩
      · simp [check, hcheck] at hbad
      · simp only [Engine.settled, Bool.and_eq_true, Option.any_eq_true] at hj
        obtain ⟨-, r, -, hr⟩ := hj
        cases hr
    · exact ⟨rfl, (hbegun.look (t := t)).write_commit hA rfl (hw.lt _ _ _ hq), (hbegun.look (t := t)).committed_write,
        rfl, rfl⟩

theorem skip_alone (hw : w.db.Unheld) {now seen : Int} (hq : w.db.committed .tickets i = some q)
    (hlast : ∀ j (r : QueueTicket), w.db.committed .tickets j = some r →
      liveWaiting q.queueDay r = true → sortKey r < now) :
    Alone t a (tenantSession fun _ => Tickets.skip i now seen) (fun x w' => ∀ q', x = .ok (some q') →
      (q'.status = .waiting ↔ seen + 1 < SKIP_LIMIT) ∧
        if q'.status = .waiting then GoLast w w' i else StepUp w w' i) w := by
  refine (alone_change hw).mono ?_
  rintro x w' hx q' rfl
  obtain ⟨v, hfound, happlied, hleft⟩ := hx.row
  rw [hq] at hfound
  cases hfound
  have hskip : TicketChange.apply q (.skip now seen) = some q' := happlied
  by_cases hc : q.waiting = true ∧ q.skipCount = seen
  · rw [TicketChange.apply, if_pos hc] at hskip
    obtain ⟨hqw, rfl⟩ := hc
    have hlive := (waiting_iff.1 hqw).1
    cases hskip
    by_cases hlimit : SKIP_LIMIT ≤ q.skipCount + 1
    · simp only [hlimit, if_true, reduceCtorEq, if_false, false_iff, not_lt, true_and]
      exact stepUp_of_left hw hq hleft hqw hlive (by simp [hlimit])
    · simp only [hlimit, if_false, if_true, true_iff]
      refine ⟨by omega, goLast_of_requeued hw hleft rfl ?_ rfl hlast⟩
      exact waiting_iff.2 ⟨hlive, by simp [hlimit]⟩
  · rw [TicketChange.apply, if_neg hc] at hskip
    cases hskip

theorem gone_alone (hw : w.db.Unheld) {g : TicketChange} {status : QueueTicketStatus} (hs : status ≠ .waiting)
    (hg : ∀ q q' : QueueTicket, g.apply q = some q' → q.waiting = true ∧ q' = { q with status := status }) :
    Alone t a (tenantSession fun _ => update .tickets i g) (fun x w' => ∀ q', x = .ok (some q') → StepUp w w' i) w := by
  refine (alone_change hw).mono ?_
  rintro x w' hx q' rfl
  obtain ⟨v, hfound, happlied, hleft⟩ := hx.row
  obtain ⟨hqw, rfl⟩ := hg _ _ happlied
  exact stepUp_of_left hw hfound hleft hqw (waiting_iff.1 hqw).1 hs

theorem apply_claimById {q' : QueueTicket} (h : TicketChange.claimById.apply q = some q') :
    q.waiting = true ∧ q' = { q with status := .inService } := by
  simp only [TicketChange.apply] at h
  split at h
  · cases h
    exact ⟨by assumption, rfl⟩
  · cases h

theorem apply_removed {q' : QueueTicket} (h : TicketChange.remove.apply q = some q') :
    q.waiting = true ∧ q' = { q with status := .removed } := by
  simp only [TicketChange.apply] at h
  split at h
  · cases h
    exact ⟨by assumption, rfl⟩
  · cases h

theorem remove_alone (hw : w.db.Unheld) :
    Alone t a (tenantSession fun _ => Tickets.remove i) (fun x w' => x = .ok true → StepUp w w' i) w := by
  refine (alone_changeMap (f := Option.isSome) hw).mono ?_
  rintro y w' ⟨x, rfl, hx⟩ hy
  rcases x with e | _ | r
  · cases hy
  · cases hy
  · obtain ⟨v, hfound, happlied, hleft⟩ := hx.row
    obtain ⟨hqw, rfl⟩ := apply_removed happlied
    exact stepUp_of_left hw hfound hleft hqw (waiting_iff.1 hqw).1 fun h => by cases h

/-! ## The screens -/

theorem alone_numbered (l : List QueueTicket) (total : Nat) :
    Alone t a (do
      let firstNames ← ofExcept ((l.map fun q => (q.name, q.calledAt)).mapM fun row => boardDisplayName row.1)
      return (⟨((l.map fun q => (q.name, q.calledAt)).zip firstNames).mapIdx fun index row =>
        ⟨index + 1, row.2, row.1.2.isSome⟩, total⟩ : QueueBoardView))
      (fun x _ => x = (l.mapM fun q => boardDisplayName q.name).map fun firstNames =>
        ⟨(l.zip firstNames).mapIdx fun k shown => ⟨k + 1, shown.2, shown.1.calledAt.isSome⟩, total⟩) w := by
  have hnames : (l.map fun q => (q.name, q.calledAt)).mapM (fun row => boardDisplayName row.1) =
      l.mapM fun q => boardDisplayName q.name := by
    rw [List.mapM_map]
    rfl
  rw [hnames]
  refine alone_ofExcept (fun firstNames hok => alone_ret ?_) fun e hraised => ?_
  · rw [hok]
    refine congrArg Except.ok (congrArg (QueueBoardView.mk · total) (List.ext_getElem? fun k => ?_))
    simp only [List.getElem?_mapIdx, List.zip_map_left, List.getElem?_map, Option.map_map]
    rfl
  · rw [hraised]
    rfl

theorem screens_of_apart (cfg : Config) (hw : w.db.Unheld) (hkeys : Apart (cfg.zone.dateOf w.db.clock) w) :
    Screens cfg w (Tickets.queue (cfg.zone.dateOf w.db.clock) (shelf w)) := by
  have hrow : ∀ {q : QueueTicket}, q ∈ Tickets.queue (cfg.zone.dateOf w.db.clock) (shelf w) →
      w.db.committed .tickets q.id = some q ∧ q.queueDay = cfg.zone.dateOf w.db.clock ∧ q.waiting = true := by
    intro q hq
    obtain ⟨hmem, hl⟩ := mem_queue.1 hq
    exact ⟨(mem_shelf hw).1 hmem, liveWaiting_iff.1 hl⟩
  constructor
  · refine List.Nodup.map_on (fun q hq r hr hid => ?_) (queue_nodup hw)
    have hq := (hrow hq).1
    rw [hid, (hrow hr).1] at hq
    cases hq
    rfl
  · intro q hq
    exact ⟨(hrow hq).1, (hrow hq).2.1⟩
  · intro k q hk
    obtain ⟨hq, hday, hqw⟩ := hrow (List.mem_of_getElem? hk)
    have hphone := phone_of hw hq (waiting_iff.1 hqw).1
    rwa [place, if_pos (waiting_iff.1 hqw).2, hday, earlier_queue, countP_before (queue_strict hw hkeys) hk] at hphone
  · intro i q n hq hday hn
    obtain ⟨q', hq', hlive, hplace⟩ := (phone_iff hw).1 hn
    rw [hq] at hq'
    cases hq'
    have hs : q.status = .waiting := by
      by_contra hs
      rw [place, if_neg hs] at hplace
      cases hplace
    have hid : q.id = i := hw.consistent.id .tickets i q hq
    refine mem_queue.2 ⟨(mem_shelf hw).2 (by rw [hid]; exact hq), liveWaiting_iff.2 ⟨hday, waiting_iff.2 ⟨hlive, hs⟩⟩⟩
  · exact fun t i limit => board_alone hw
  · intro t i
    refine alone_raiseIf (fun h => by cases h) fun _ => alone_now (alone_tenantSession (alone_bind ?_))
    refine (board_alone (hw.begun (t := t))).mono fun x w' hx => ?_
    subst hx
    exact alone_numbered _ _
  · intro t i limit
    exact alone_select (by rw [hw.view]) (alone_ret rfl)
  · intro t i
    have hbegun := hw.begun (t := t)
    refine alone_tenantSession (alone_now (alone_select (by rw [hbegun.view]) (alone_select rfl (alone_ret ⟨_, rfl, ?_⟩))))
    rw [List.map_map]
    rfl
  · intro t i hi
    refine (claimNext_alone hw hi).mono fun x w' hx => ?_
    split at hx <;> exact ⟨hx.1, hx.2.committed⟩

/-- Where nobody's name is blank the wall never fails. -/
theorem Screens.served {cfg : Config} (h : Screens cfg w order)
    (hnamed : ∀ q ∈ order, ∃ c ∈ q.name.toList, Boutique.isSpace c = false) (t : Tid) (i : Input) :
    Alone t i (QueueService.board cfg false) (fun x _ => ∃ view, x = .ok view ∧ view.waitingTotal = order.length) w := by
  obtain ⟨firstNames, hnames⟩ := mapM_boardDisplayName_ok QueueTicket.name (order.take BOARD_ROW_LIMIT)
    fun q hq => hnamed q (List.mem_of_mem_take hq)
  refine (h.wall t i).mono fun x w' hx => ?_
  rw [hnames] at hx
  exact ⟨_, hx, rfl⟩

/-- **Four screens, one queue.**  Where no row is in anybody's hands and no two of today's waiting tickets share an instant,
the wall, the console, the phones of today's tickets and a dispatch all read one order.  On any day a first skip, later
than every ticket of the day, sends hers to the last place and leaves the others as they stood; a second skip, a removal
and a dispatch take a ticket out, and exactly those behind it come one nearer. -/
theorem screens_agree (cfg : Config) (hw : w.db.Unheld) (hkeys : Apart (cfg.zone.dateOf w.db.clock) w) :
    (∃ order, Screens cfg w order) ∧
    (∀ i (q : QueueTicket) t a now seen, w.db.committed .tickets i = some q →
      (∀ j (r : QueueTicket), w.db.committed .tickets j = some r → liveWaiting q.queueDay r = true → sortKey r < now) →
      Alone t a (tenantSession fun _ => Tickets.skip i now seen) (fun x w' => ∀ q', x = .ok (some q') →
        (q'.status = .waiting ↔ seen + 1 < SKIP_LIMIT) ∧
          if q'.status = .waiting then GoLast w w' i else StepUp w w' i) w) ∧
    (∀ i t a, Alone t a (tenantSession fun _ => Tickets.remove i) (fun x w' => x = .ok true → StepUp w w' i) w) ∧
    (∀ i t a, Alone t a (tenantSession fun _ => Tickets.claimById i) (fun x w' =>
      ∀ q', x = .ok (some q') → StepUp w w' i) w) ∧
    ∀ day t (a : Input), a.locked = false → Alone t a (tenantSession fun _ => Tickets.claimNext day) (fun x w' =>
      ∀ q', x = .ok (some q') → StepUp w w' q'.id) w := by
  refine ⟨⟨_, screens_of_apart cfg hw hkeys⟩, fun i q t a now seen hq hlast => skip_alone hw hq hlast, fun i t a => ?_,
    fun i t a => gone_alone hw (by decide) fun _ _ => apply_claimById, fun day t a ha => ?_⟩
  · exact remove_alone hw
  · refine (claimNext_alone hw ha).mono ?_
    rintro x w' hx q' rfl
    cases horder : Tickets.queue day (shelf w) with
    | nil =>
      rw [horder] at hx
      cases hx.1
    | cons q rest =>
      rw [horder] at hx
      obtain ⟨heq, hleft⟩ := hx
      cases heq
      obtain ⟨hmem, hl⟩ := mem_queue.1 (horder ▸ List.mem_cons_self : q ∈ Tickets.queue day (shelf w))
      have hrow := (mem_shelf hw).1 hmem
      have hqw := (liveWaiting_iff.1 hl).2
      exact stepUp_of_left hw hrow hleft hqw (waiting_iff.1 hqw).1 fun h => by cases h

/-! ## One evening -/

/-- A ticket left over from the day before, and two of today's, the first of which was skipped once. -/
def leftOver : (T : Table) → List (Row T)
  | .tickets => [(⟨0, 5, none, 0, "Dana", "0501111111", "bride", .waiting, none, none, 0⟩ : QueueTicket),
      (⟨1, 10, none, 1, "Noa", "0502222222", "bride", .waiting, none, none, 1⟩ : QueueTicket),
      (⟨2, 20, none, 1, "Tamar", "0503333333", "bride", .waiting, none, none, 0⟩ : QueueTicket)]
  | _ => []

theorem leftOver_shelved : Shelved (listed (S := schema) leftOver) 3 :=
  shelved_of_stocked [.rooms, .assignments, .tickets, .auditLog, .notifications] (fun T => by cases T <;> decide)
    (by decide)

def evening : World schema outside := ⟨atRest (listed (S := schema) leftOver) 3 Boutique.day, ()⟩

theorem evening_unheld : evening.db.Unheld := atRest_unheld leftOver_shelved

theorem evening_apart : Apart (utc.dateOf evening.db.clock) evening := by
  have hfound : ∀ {i : Nat} {q : QueueTicket}, evening.db.committed .tickets i = some q → q ∈ leftOver .tickets :=
    fun {i q} h => List.mem_of_find?_eq_some (p := fun r => rowId .tickets r = i) h
  intro i j q r hq hr hlq hlr hkey
  have hq' := hfound hq
  have hr' := hfound hr
  have hi : q.id = i := evening_unheld.consistent.id .tickets i q hq
  have hj : r.id = j := evening_unheld.consistent.id .tickets j r hr
  subst hi hj
  simp only [leftOver, List.mem_cons, List.not_mem_nil, or_false] at hq' hr'
  rcases hq' with rfl | rfl | rfl <;> rcases hr' with rfl | rfl | rfl <;> first | rfl | cases hkey

/-- **The left-over ticket has a place and is not in the board's total; the second skip sends nobody to the back.** -/
theorem second_skip_removes :
    Phone evening 0 (some 1) ∧ Phone evening 1 (some 1) ∧ Phone evening 2 (some 2) ∧
    (∀ t a limit, Alone t a (Tickets.board (utc.dateOf evening.db.clock) limit) (fun x _ => ∃ rows, x = .ok (rows, 2))
      evening) ∧
    Alone 0 silent (tenantSession fun _ => Tickets.skip 1 100 1) (fun x w' =>
      (∃ q', x = .ok (some q')) ∧ Phone w' 1 none) evening := by
  have hphone : ∀ i (q : QueueTicket) n, evening.db.committed .tickets i = some q → q.live = true →
      place evening q = n → Phone evening i n := by
    rintro i q n hq hlive rfl
    exact phone_of evening_unheld hq hlive
  refine ⟨hphone 0 _ _ rfl rfl (by decide), hphone 1 _ _ rfl rfl (by decide +kernel),
    hphone 2 _ _ rfl rfl (by decide), fun t a limit => ?_, ?_⟩
  · have htotal : (Tickets.queue (utc.dateOf evening.db.clock) (shelf evening)).length = 2 := by decide
    refine (board_alone evening_unheld).mono fun x _ hx => ⟨((Tickets.queue (utc.dateOf evening.db.clock)
      (shelf evening)).take limit).map fun q => (q.name, q.calledAt), ?_⟩
    rw [hx, htotal]
  · have hdone : Alone 0 silent (tenantSession fun _ => Tickets.skip 1 100 1) (fun x _ => ∃ q', x = .ok (some q'))
        evening := ⟨_, _, rfl, _, rfl⟩
    refine (hdone.and (alone_change evening_unheld)).mono ?_
    rintro x w' ⟨⟨q', rfl⟩, hx⟩
    obtain ⟨v, hfound, happlied, hleft⟩ := hx.row
    cases hfound
    cases happlied
    exact ⟨⟨_, rfl⟩, (phone_iff hleft.unheld).2 ⟨_, written_self hleft, rfl, rfl⟩⟩

/-- The screens of that evening. -/
theorem screens_agree_in_the_evening : ∃ order, Screens ⟨utc⟩ evening order :=
  (screens_agree ⟨utc⟩ evening_unheld evening_apart).1

end Floor
