import Boutique.Rules
import Boutique.Stock
/-!
# Arrivals — the check-in, its undo, and what they answer

A check-in writes once and says so once; its undo likewise.  A check-in that did not write learns why from a second read,
and the second read tells the truth unless an undo came between.
-/
namespace Boutique

open Txn Contract

/-! ## Counting rows -/

variable {j n : Nat} {q : AuditLog → Bool} {a : AuditLog} {job : Job} {e e' : Engine schema} {P : Booking → Prop}
  {m : OwnerMutation}

theorem countP_range_one {q q' : Nat → Bool} (hj : j < n) (hsame : ∀ i, i ≠ j → q' i = q i) (hq : q j = false)
    (hq' : q' j = true) : (List.range n).countP q' = (List.range n).countP q + 1 := by
  induction n with
  | zero => cases hj
  | succ n ih =>
    rw [List.range_succ, List.countP_append, List.countP_append]
    by_cases hjn : j = n
    · subst hjn
      have hbelow : (List.range j).countP q' = (List.range j).countP q := by
        refine List.countP_congr fun i hi => ?_
        have hne : i ≠ j := by
          have := List.mem_range.1 hi
          omega
        rw [hsame i hne]
      simp [hbelow, hq, hq']
    · have hlt : j < n := by omega
      rw [ih hlt, List.countP_singleton, List.countP_singleton, hsame n (Ne.symm hjn)]
      omega

def auditCount (s : Snapshot schema) (q : AuditLog → Bool) : Nat := (s.all .auditLog).countP q

theorem auditCount_eq (rows : Rows schema) (n : Nat) (q : AuditLog → Bool) :
    auditCount ⟨rows, n⟩ q = (List.range n).countP fun i => (rows .auditLog i).any q := by
  unfold auditCount Snapshot.all
  rw [List.countP_filterMap]
  refine List.countP_congr fun i _ => ?_
  dsimp only
  cases rows .auditLog i <;> exact Iff.rfl

/-! ## What a commit does to an arrival -/

def AuditLog.arrivalOf (b : Nat) (a : AuditLog) : Bool :=
  match a.action with
  | .bookingCheckedIn b' _ => b' = b
  | _ => false

def AuditLog.undoneOf (b : Nat) (a : AuditLog) : Bool :=
  match a.action with
  | .bookingCheckInUndone b' _ => b' = b
  | _ => false

def arrivedAt (rows : Rows schema) (b : Nat) : Option Int := (rows .bookings b).bind Booking.checkedInAt

def Same (q : AuditLog → Bool) (c : Commit schema) : Prop :=
  ∀ i, (c.after .auditLog i).any q = (c.before .auditLog i).any q

def OneMore (q : AuditLog → Bool) (c : Commit schema) : Prop :=
  ∃ j, (c.after .auditLog j).any q = true ∧ (c.before .auditLog j).any q = false ∧
    ∀ i, i ≠ j → (c.after .auditLog i).any q = (c.before .auditLog i).any q

structure Keeps (b : Nat) (c : Commit schema) : Prop where
  at_ : arrivedAt c.after b = arrivedAt c.before b
  arrivals : Same (AuditLog.arrivalOf b) c
  undone : Same (AuditLog.undoneOf b) c

structure Arrives (b : Nat) (c : Commit schema) : Prop where
  before : arrivedAt c.before b = none
  after : arrivedAt c.after b ≠ none
  arrivals : OneMore (AuditLog.arrivalOf b) c
  undone : Same (AuditLog.undoneOf b) c

structure Undoes (b : Nat) (c : Commit schema) : Prop where
  before : arrivedAt c.before b ≠ none
  after : arrivedAt c.after b = none
  arrivals : Same (AuditLog.arrivalOf b) c
  undone : OneMore (AuditLog.undoneOf b) c

def arrivalLedger : Ledger schema where
  Holds _ _ c := ∀ b, Keeps b c ∨ Arrives b c ∨ Undoes b c
  stable _ _ _ _ _ _ _ h := h

theorem keeps_of_none {c : Commit schema} (hb : c.writes .bookings = fun _ => none)
    (ha : c.writes .auditLog = fun _ => none) (b : Nat) : Keeps b c := by
  have hbookings : ∀ i, c.after .bookings i = c.before .bookings i := fun i => Rows.over_none (congrFun hb i)
  have haudit : ∀ i, c.after .auditLog i = c.before .auditLog i := fun i => Rows.over_none (congrFun ha i)
  exact ⟨by unfold arrivedAt; rw [hbookings], fun i => by rw [haudit], fun i => by rw [haudit]⟩

theorem oneMore_of_writes {c : Commit schema} (hj : c.writes .auditLog j = some a)
    (hother : ∀ i, i ≠ j → c.writes .auditLog i = none) (hbefore : c.before .auditLog j = none) (hq : q a = true) :
    OneMore q c := by
  refine ⟨j, ?_, ?_, fun i hi => ?_⟩
  · have hafter : c.after .auditLog j = some a := Rows.over_some hj
    rw [hafter]
    exact hq
  · rw [hbefore]
    rfl
  · have hafter : c.after .auditLog i = c.before .auditLog i := Rows.over_none (hother i hi)
    rw [hafter]

theorem same_of_writes {c : Commit schema} (hj : c.writes .auditLog j = some a)
    (hother : ∀ i, i ≠ j → c.writes .auditLog i = none) (hbefore : c.before .auditLog j = none) (hq : q a = false) :
    Same q c := by
  intro i
  by_cases hi : i = j
  · subst hi
    have hafter : c.after .auditLog i = some a := Rows.over_some hj
    rw [hafter, hbefore]
    exact hq
  · have hafter : c.after .auditLog i = c.before .auditLog i := Rows.over_none (hother i hi)
    rw [hafter]

/-! ## The other jobs -/

def Job.desk : Job → Option Nat
  | .checkIn b _ => some b
  | .undoCheckIn b _ => some b
  | _ => none

def Job.checksIn : Job → Option Nat
  | .checkIn b _ => some b
  | _ => none

def OpElsewhere : Op schema service → Prop
  | .sql (.update .bookings _ (.checkIn _)) => False
  | .sql (.update .bookings _ .undoCheckIn) => False
  | .sql (.insert .bookings b) => Booking.checkedInAt b = none
  | .sql (.insert .auditLog a) => ∀ b, AuditLog.arrivalOf b a = false ∧ AuditLog.undoneOf b a = false
  | _ => True

section

variable {l : Bool} {o : Op schema service} {b : Nat} {event : WebhookEvent} {G : Int → Prop}

theorem ReminderWrites.elsewhere (h : ReminderWrites b l o) : OpElsewhere o := by
  cases h <;> trivial

theorem SendWrites.elsewhere {kind : MessageKind} (h : SendWrites kind b l o) : OpElsewhere o := by
  cases h <;> trivial

theorem ClaimWrites.elsewhere (h : ClaimWrites l o) : OpElsewhere o := by
  cases h with
  | seat => rfl
  | _ => trivial

theorem OpenWrites.elsewhere (h : OpenWrites b l o) : OpElsewhere o := by
  cases h with
  | evidence => exact fun _ => ⟨rfl, rfl⟩
  | _ => trivial

theorem elsewhere_of_action (h : a.action.plain = true ∨ a.action.effect = true) (b : Nat) :
    a.arrivalOf b = false ∧ a.undoneOf b = false := by
  unfold AuditLog.arrivalOf AuditLog.undoneOf
  cases hact : a.action <;> first | exact ⟨rfl, rfl⟩ | (rw [hact] at h; rcases h with h | h <;> cases h)

theorem SettleWrites.elsewhere (h : SettleWrites event l o) : OpElsewhere o := by
  cases h with
  | evidence l a h => exact elsewhere_of_action (.inl h)
  | _ => trivial

theorem EffectWrites.elsewhere (h : EffectWrites G l o) : OpElsewhere o := by
  cases h with
  | reminder l b h => exact h.elsewhere
  | send l kind b h => exact h.elsewhere
  | effect l a h => exact elsewhere_of_action (.inr h)
  | _ => trivial

theorem SweepWrites.elsewhere (h : SweepWrites l o) : OpElsewhere o := by
  cases h with
  | evidence l entity a h => exact elsewhere_of_action (.inl h)
  | _ => trivial

theorem VerbWrites.elsewhere (h : VerbWrites G l o) : OpElsewhere o := by
  cases h with
  | evidence => exact fun _ => ⟨rfl, rfl⟩
  | _ => trivial

theorem MoveWrites.elsewhere (h : MoveWrites G b l o) : OpElsewhere o := by
  cases h with
  | reminder l h => exact h.elsewhere
  | evidence => exact fun _ => ⟨rfl, rfl⟩
  | _ => trivial

theorem EditWrites.elsewhere (h : EditWrites l o) : OpElsewhere o := by
  cases h <;> trivial

theorem RouteWrites.elsewhere (h : RouteWrites l o) : OpElsewhere o := by
  cases h with
  | claim h => exact h.elsewhere
  | tail h =>
    cases h with
    | open_ b h => exact h.elsewhere
    | send b h => exact h.elsewhere

theorem Job.elsewhere (hjob : job.desk = none) (h : job.Writes l o) : OpElsewhere o := by
  cases job with
  | createBooking | claim => exact ClaimWrites.elsewhere h
  | postBookings | claimOffer => exact RouteWrites.elsewhere h
  | delivery =>
    cases h with
    | settle h => exact h.elsewhere
    | effect h => exact h.elsewhere
  | sweep => exact SweepWrites.elsewhere h
  | reschedule => exact MoveWrites.elsewhere h
  | replaceWeeklyRules | addException | removeException => exact EditWrites.elsewhere h
  | ownerConfirm | ownerNoShow | ownerComplete | ownerCancel | customerCancel => exact VerbWrites.elsewhere h
  | checkIn | undoCheckIn => cases hjob

end

def elsewhere : Discipline schema where
  Trans _ T r r' := match T, r, r' with
    | .bookings, (b : Booking), (b' : Booking) => b'.checkedInAt = b.checkedInAt
    | .auditLog, (a : AuditLog), (a' : AuditLog) => a' = a
    | _, _, _ => True
  New _ T r := match T, r with
    | .bookings, (b : Booking) => b.checkedInAt = none
    | .auditLog, (a : AuditLog) => ∀ b, a.arrivalOf b = false ∧ a.undoneOf b = false
    | _, _ => True
  refl _ T r := by
    cases T with
    | bookings | auditLog => rfl
    | _ => trivial
  trans _ T r r' r'' h h' := by
    cases T with
    | bookings | auditLog => exact Eq.trans h' h
    | _ => trivial
  weaken _ _ _ h := h
  new_trans _ T r r' h h' := by
    cases T with
    | bookings => exact Eq.trans h' h
    | auditLog =>
      have hsame : r' = r := h'
      rw [hsame]
      exact h
    | _ => trivial
  new_weaken _ _ h := h

theorem BookingChange.keepsArrival {g : BookingChange} {b b' : Booking} {i : Nat} (hg : OpElsewhere (Op.update .bookings i g))
    (h : g.apply b = some b') : b'.checkedInAt = b.checkedInAt := by
  cases g <;> first | exact hg.elim | (simp only [BookingChange.apply] at h; split at h <;> cases h; rfl)

theorem elsewhere_legal (hjob : job.desk = none) {l : Bool} {o : Op schema service} (h : job.Writes l o) :
    elsewhere.Legal l o := by
  have ho := Job.elsewhere hjob h
  cases o with
  | sql o =>
    cases o with
    | update T i g =>
      intro r r' _ hr
      cases T with
      | bookings => exact BookingChange.keepsArrival ho hr
      | auditLog => cases g
      | _ => trivial
    | insert T r =>
      intro i n
      cases T with
      | bookings | auditLog => exact ho
      | _ => trivial
    | _ => trivial
  | now | ask => trivial

variable {jobs : Tid → Job} {A : server.Assumption} {t : Tid} {w w' : BWorld} {b : Nat}

theorem keeps_of_elsewhere (hjob : (jobs t).desk = none) (he : e.Lawful (Jobs jobs)) (b : Nat) :
    Keeps b (e.entry t) := by
  have hpart : ∀ T i, elsewhere.Becomes (e.holds t) T (e.committed T i) (e.view t T i) := by
    intro T i
    have hin := he.inflight t T i
    cases hc : e.committed T i with
    | none =>
      rw [hc] at hin
      cases hv : e.view t T i with
      | none => trivial
      | some r =>
        rw [hv] at hin
        have hnew : (Discipline.ofWrites (jobs t).Writes fun _ => Job.locked).New (e.holds t) T r := hin
        exact Discipline.ofWrites_new (fun o ho => elsewhere_legal hjob ho) hnew
    | some r =>
      rw [hc] at hin
      obtain ⟨r', hr', htrans⟩ := hin.some_left
      rw [hr']
      have hpart : (Discipline.ofWrites (jobs t).Writes fun _ => Job.locked).Trans (e.holds t) T r r' := htrans
      exact Discipline.ofWrites_trans (fun o ho => elsewhere_legal hjob ho) hpart
  have haudit : ∀ (q : AuditLog → Bool), (∀ a : AuditLog, (∀ b, a.arrivalOf b = false ∧ a.undoneOf b = false) → q a = false) →
      Same q (e.entry t) := by
    intro q hq i
    have hrow := hpart .auditLog i
    show (e.view t .auditLog i).any q = (e.committed .auditLog i).any q
    cases hc : e.committed .auditLog i with
    | none =>
      rw [hc] at hrow
      cases hv : e.view t .auditLog i with
      | none => rfl
      | some a =>
        rw [hv] at hrow
        exact hq a hrow
    | some a =>
      rw [hc] at hrow
      obtain ⟨a', ha', hsame⟩ := hrow.some_left
      rw [ha', show a' = a from hsame]
  refine ⟨?_, haudit _ fun a ha => (ha b).1, haudit _ fun a ha => (ha b).2⟩
  have hrow := hpart .bookings b
  show (e.view t .bookings b).bind Booking.checkedInAt = (e.committed .bookings b).bind Booking.checkedInAt
  cases hc : e.committed .bookings b with
  | none =>
    rw [hc] at hrow
    cases hv : e.view t .bookings b with
    | none => rfl
    | some x =>
      rw [hv] at hrow
      exact hrow
  | some x =>
    rw [hc] at hrow
    obtain ⟨x', hx', hsame⟩ := hrow.some_left
    rw [hx']
    exact hsame

/-! ## The balance -/

theorem auditCount_same {c : Commit schema} (h : Same q c) (n : Nat) :
    auditCount ⟨c.after, n⟩ q = auditCount ⟨c.before, n⟩ q := by
  rw [auditCount_eq, auditCount_eq]
  exact List.countP_congr fun i _ => by rw [h i]

theorem auditCount_oneMore {c : Commit schema} (h : OneMore q c) (hlt : ∀ j a, c.after .auditLog j = some a → j < n) :
    auditCount ⟨c.after, n⟩ q = auditCount ⟨c.before, n⟩ q + 1 := by
  obtain ⟨j, hafter, hbefore, hother⟩ := h
  rw [auditCount_eq, auditCount_eq]
  refine countP_range_one (j := j) ?_ hother hbefore hafter
  obtain ⟨a, ha, -⟩ := (Option.any_eq_true _ _).1 hafter
  exact hlt j a ha

/-- **The audit rows balance**: one more check-in than undo while she is checked in, as many as undos while she is not. -/
def Balanced (s : Snapshot schema) (b : Nat) : Prop :=
  (auditCount s (AuditLog.arrivalOf b) : Int) - auditCount s (AuditLog.undoneOf b) =
    if (arrivedAt s.rows b).isSome then 1 else 0

theorem auditCount_later {rows : Rows schema} {m : Nat} (h : ∀ j a, rows .auditLog j = some a → j < n) (hm : n ≤ m) :
    auditCount ⟨rows, m⟩ q = auditCount ⟨rows, n⟩ q := by
  obtain ⟨k, rfl⟩ := Nat.exists_eq_add_of_le hm
  rw [auditCount_eq, auditCount_eq, List.range_add, List.countP_append, List.countP_map]
  refine Nat.add_eq_left.2 (List.countP_eq_zero.2 fun i _ hi => ?_)
  obtain ⟨a, ha, -⟩ := (Option.any_eq_true _ _).1 hi
  have hlt : n + i < n := h _ a ha
  omega

theorem Balanced.later {rows : Rows schema} {m : Nat} (hb : Balanced ⟨rows, n⟩ b)
    (h : ∀ j a, rows .auditLog j = some a → j < n) (hm : n ≤ m) : Balanced ⟨rows, m⟩ b := by
  unfold Balanced at hb ⊢
  rw [auditCount_later h hm, auditCount_later h hm]
  exact hb

theorem balanced_step {c : Commit schema} (h : Keeps b c ∨ Arrives b c ∨ Undoes b c)
    (hlt : ∀ j a, c.after .auditLog j = some a → j < n) (hb : Balanced ⟨c.before, n⟩ b) : Balanced ⟨c.after, n⟩ b := by
  unfold Balanced at hb ⊢
  rcases h with h | h | h
  · rw [auditCount_same h.arrivals, auditCount_same h.undone, show arrivedAt c.after b = _ from h.at_]
    exact hb
  · rw [auditCount_oneMore h.arrivals hlt, auditCount_same h.undone, if_pos (Option.isSome_iff_ne_none.2 h.after)]
    rw [show arrivedAt c.before b = none from h.before] at hb
    simp only [Option.isSome_none, Bool.false_eq_true, if_false] at hb
    omega
  · rw [auditCount_same h.arrivals, auditCount_oneMore h.undone hlt, show arrivedAt c.after b = none from h.after]
    rw [if_pos (Option.isSome_iff_ne_none.2 h.before)] at hb
    simp only [Option.isSome_none, Bool.false_eq_true, if_false]
    omega

/-! ## What the desk answers -/

/-- **What a request at the desk may answer**, between two moments: a rendered row says when she arrived as the database had
it, and a check-in is refused only where the booking was not confirmed. -/
def Answered (job : Job) (e e' : Engine schema) : Except Err Reply → Prop
  | .ok (.mutation m) => ∀ b, job.desk = some b → ∃ n x, e.log.length ≤ n ∧ n ≤ e'.log.length ∧
      e'.version n .bookings b = some x ∧ Booking.checkedInAt x = m.booking.checkedInAt
  | .error (.bookingTransitionInvalid _) => ∀ b, job.checksIn = some b → ∃ n x, e.log.length ≤ n ∧ n ≤ e'.log.length ∧
      e'.version n .bookings b = some x ∧ Booking.status x ≠ .confirmed
  | _ => True

/-- **No undo comes between** a check-in's own SELECT and its second read, where that finds the booking confirmed and not
checked in. -/
def NotUndone (jobs : Tid → Job) : server.Assumption := fun t o w _ _ =>
  match o with
  | .sql (.read (.bookingRefreshed b)) => (jobs t).checksIn = some b →
      (w.db.view t .bookings b).any (fun x => decide (Booking.status x = .confirmed ∧ Booking.checkedInAt x = none)) = true →
      ∀ k, k < w.db.log.length + 1 → w.db.seen t ≤ k → arrivedAt (w.db.version k) b = none
  | _ => True

instance (jobs : Tid → Job) (t : Tid) (o : server.Op) (w : server.State) (r : server.Res o) (w' : server.State) :
    Decidable (NotUndone jobs t o w r w') := by
  unfold NotUndone
  split <;> infer_instance

abbrev arrival (jobs : Tid → Job) (A : server.Assumption) : Contract (Jobs jobs) service Err :=
  arrivalLedger.contract (Jobs jobs) A

theorem arrival_historic : (arrival jobs A).Historic calm := Ledger.historic _

theorem Answered.later {e'' : Engine schema} {x : Except Err Reply} (h : Answered job e e' x)
    (hlog : e'.log.length ≤ e''.log.length) (hv : ∀ m, m ≤ e'.log.length → e''.version m = e'.version m) :
    Answered job e e'' x := by
  unfold Answered at h ⊢
  split
  · intro b hb
    obtain ⟨n, x, hn, hn', hx, hat⟩ := h b hb
    exact ⟨n, x, hn, hn'.trans hlog, by rw [hv n hn']; exact hx, hat⟩
  · intro b hb
    obtain ⟨n, x, hn, hn', hx, hs⟩ := h b hb
    exact ⟨n, x, hn, hn'.trans hlog, by rw [hv n hn']; exact hx, hs⟩
  · trivial

def Held (e e' : Engine schema) (b : Nat) (P : Booking → Prop) : Prop :=
  ∃ n x, e.log.length ≤ n ∧ n ≤ e'.log.length ∧ e'.version n .bookings b = some x ∧ P x

theorem Held.since {D : Cast schema} {e'' : Engine schema} (h : Held e e' b P) (hs : e'.Since D t e'') :
    Held e e'' b P := by
  obtain ⟨n, x, hn, hn', hx, hP⟩ := h
  exact ⟨n, x, hn, hn'.trans hs.after.log.length_le, by rw [hs.version n hn']; exact hx, hP⟩

theorem held_now {x : Booking} (hlog : e.log.length ≤ e'.log.length) (hx : e'.committed .bookings b = some x)
    (hP : P x) : Held e e' b P :=
  ⟨e'.log.length, x, hlog, Nat.le_refl _, by rw [Engine.version_length]; exact hx, hP⟩

theorem Held.commit (h : Held e e' b P) : Held e (e'.commit t) b P := by
  obtain ⟨n, x, hn, hn', hx, hP⟩ := h
  refine ⟨n, x, hn, by simp; omega, ?_, hP⟩
  rw [show (e'.commit t).version n = e'.version n from Engine.commit_version_le hn']
  exact hx

/-! ## The transactions of the desk -/

section

variable {e₀ : Engine schema} {job : Job} {cfg : Config} {staffId : Nat}

abbrev answer (m : OwnerMutation) : Prg Reply := pure (.mutation m)

theorem desk_fails {err : Err} (h : ∀ move, err = .bookingTransitionInvalid move → ∀ b, job.checksIn = some b →
    Held e₀ w.db b fun x => x.status ≠ .confirmed) :
    Closes (arrival jobs A) t answer (fun x w' => Answered job e₀ w'.db x) (.error err) w := by
  intro w1 h1 _
  cases err with
  | bookingTransitionInvalid move =>
    intro b hb
    have hheld := (h move rfl b hb).since h1.since
    exact hheld
  | _ => trivial

theorem desk_closes (hjob : job.desk = some b)
    (h : ∀ w1, (arrival jobs A).Point t w w1 → w1.db.pending t = w.db.pending t →
      (∀ b, Keeps b (w1.db.entry t) ∨ Arrives b (w1.db.entry t) ∨ Undoes b (w1.db.entry t)) ∧
      Held e₀ (w1.db.commit t) b fun x => x.checkedInAt = m.booking.checkedInAt) :
    Closes (arrival jobs A) t answer (fun x w' => Answered job e₀ w'.db x) (.ok m) w := by
  intro w1 h1 hp1 _ _ _ _
  obtain ⟨hledger, hheld⟩ := h w1 h1 hp1
  refine ⟨Ledger.inv_commit h1.inv hledger, fun b' hb' => ?_⟩
  rw [hjob] at hb'
  cases hb'
  exact hheld

theorem desk_reads (hjob : job.desk = some b) (hw : w.db.Idle t)
    (h : Held e₀ w.db b fun x => x.checkedInAt = m.booking.checkedInAt) :
    Closes (arrival jobs A) t answer (fun x w' => Answered job e₀ w'.db x) (.ok m) w :=
  desk_closes hjob fun w1 h1 hp1 =>
    ⟨fun b => .inl (keeps_of_none (by show w1.db.pending t .bookings = _; rw [hp1, hw.pending])
      (by show w1.db.pending t .auditLog = _; rw [hp1, hw.pending]) b), (h.since h1.since).commit⟩

theorem loaded_row {x : Booking} (hw : w.db.Idle t)
    (h : Option.filter (fun (b : Booking) => decide (b.deletedAt = none)) (w.db.view t .bookings b) = some x) :
    w.db.committed .bookings b = some x ∧ x.deletedAt = none := by
  obtain ⟨hx, hdel⟩ := Option.filter_eq_some_iff.1 h
  rw [show w.db.view t = w.db.committed from hw.view] at hx
  exact ⟨hx, of_decide_eq_true hdel⟩

def noRows : Rows schema := fun _ _ => none

variable {r : Booking} {Q : Except Err OwnerMutation → BWorld → Prop}

theorem entry_of_two (hp : e.pending t = (noRows.set .bookings b r).set .auditLog j a) :
    (∀ i, (e.entry t).writes .auditLog i = if i = j then some a else none) ∧
    ∀ i, (e.entry t).after .bookings i = if i = b then some r else (e.entry t).before .bookings i := by
  refine ⟨fun i => ?_, fun i => ?_⟩
  · show e.pending t .auditLog i = _
    rw [hp]
    by_cases hi : i = j
    · subst hi
      rw [if_pos rfl]
      exact set_same_row
    · rw [if_neg hi, set_other_row hi, set_other_table (by decide), noRows]
  · show (e.committed.overlay (e.pending t)) .bookings i = _
    by_cases hi : i = b
    · subst hi
      rw [if_pos rfl]
      refine Rows.over_some ?_
      rw [hp, set_other_table (by decide)]
      exact set_same_row
    · rw [if_neg hi]
      refine Rows.over_none ?_
      rw [hp, set_other_table (by decide), set_other_row hi, noRows]

theorem arrivals_of_two {c : Commit schema} {v : Booking}
    (hwrites : ∀ i, c.writes .auditLog i = if i = j then some a else none)
    (hafter : ∀ i, c.after .bookings i = if i = b then some r else c.before .bookings i)
    (hfresh : c.before .auditLog j = none) (hv : c.before .bookings b = some v)
    (h : (v.checkedInAt = none ∧ r.checkedInAt ≠ none ∧ ∀ b', a.arrivalOf b' = decide (b = b') ∧ a.undoneOf b' = false) ∨
      (v.checkedInAt ≠ none ∧ r.checkedInAt = none ∧ ∀ b', a.arrivalOf b' = false ∧ a.undoneOf b' = decide (b = b')))
    (b' : Nat) : Keeps b' c ∨ Arrives b' c ∨ Undoes b' c := by
  have hj : c.writes .auditLog j = some a := by rw [hwrites, if_pos rfl]
  have hother : ∀ i, i ≠ j → c.writes .auditLog i = none := fun i hi => by rw [hwrites, if_neg hi]
  have hbefore : arrivedAt c.before b = v.checkedInAt := by
    unfold arrivedAt
    rw [hv]
    rfl
  have hnow : arrivedAt c.after b = r.checkedInAt := by
    unfold arrivedAt
    rw [hafter, if_pos rfl]
    rfl
  by_cases hb : b' = b
  · subst hb
    rcases h with ⟨hnone, hset, ha⟩ | ⟨hset, hnone, ha⟩
    · refine .inr (.inl ⟨hbefore.trans hnone, hnow ▸ hset, oneMore_of_writes hj hother hfresh ?_,
        same_of_writes hj hother hfresh (ha b').2⟩)
      rw [(ha b').1]
      exact decide_eq_true rfl
    · refine .inr (.inr ⟨hbefore ▸ hset, hnow.trans hnone, same_of_writes hj hother hfresh (ha b').1,
        oneMore_of_writes hj hother hfresh ?_⟩)
      rw [(ha b').2]
      exact decide_eq_true rfl
  · have hne : decide (b = b') = false := decide_eq_false fun h => hb h.symm
    refine .inl ⟨?_, same_of_writes hj hother hfresh ?_, same_of_writes hj hother hfresh ?_⟩
    · unfold arrivedAt
      rw [hafter, if_neg hb]
    · rcases h with ⟨-, -, ha⟩ | ⟨-, -, ha⟩
      · rw [(ha b').1, hne]
      · exact (ha b').1
    · rcases h with ⟨-, -, ha⟩ | ⟨-, -, ha⟩
      · exact (ha b').2
      · rw [(ha b').2, hne]

theorem desk_records {v : Booking} (hjob : job.desk = some b) (hlog : e₀.log.length ≤ w.db.log.length)
    (hpend : w.db.pending t = noRows.set .bookings b r) (hv : w.db.committed .bookings b = some v)
    (hm : m.booking.checkedInAt = r.checkedInAt)
    (h : (v.checkedInAt = none ∧ r.checkedInAt ≠ none ∧ ∀ b', a.arrivalOf b' = decide (b = b') ∧ a.undoneOf b' = false) ∨
      (v.checkedInAt ≠ none ∧ r.checkedInAt = none ∧ ∀ b', a.arrivalOf b' = false ∧ a.undoneOf b' = decide (b = b'))) :
    (arrival jobs A).Ensures t (insert .auditLog a >>= fun _ => pure m)
      (Closes (arrival jobs A) t answer fun x w' => Answered job e₀ w'.db x) w := by
  refine ensures_insertRow arrival_historic (fun w1 _ _ => desk_fails fun _ h => by cases h) fun w1 w2 n h2 _ => ?_
  refine desk_closes hjob fun w3 h3 hp3 => ?_
  have hpend3 : w3.db.pending t = (noRows.set .bookings b r).set .auditLog w1.db.next
      (stamp .auditLog w1.db.next n a) := by rw [hp3, h2.pending, hpend]
  obtain ⟨hwrites, hafter⟩ := entry_of_two hpend3
  have hv3 : w3.db.committed .bookings b = some v := by
    have hrow : w.db.pending t .bookings b = some r := by
      rw [hpend]
      exact set_same_row
    rw [((h2.after.trans h3).since.written .bookings b r hrow).2, hv]
  have hfresh : w3.db.committed .auditLog w1.db.next = none := by
    rw [(h3.since.written .auditLog w1.db.next _ h2.row).2, h2.committed]
    exact h2.before.lawful.committed_none_of_le (Nat.le_refl _) _
  refine ⟨arrivals_of_two hwrites hafter hfresh hv3 h, ?_⟩
  refine held_now ?_ (x := r) ?_ hm.symm
  · have hlen := (h2.after.trans h3).since.after.log.length_le
    simp only [Engine.commit_log, List.length_append]
    omega
  · rw [Engine.commit_committed]
    have hview := hafter b
    rw [if_pos rfl] at hview
    exact hview

theorem refreshed_own (hpend : w.db.pending t .bookings b = some r) (hdel : r.deletedAt = none) :
    (w.db.view t .bookings b).filter (fun (x : Booking) => decide (x.deletedAt = none)) = some r := by
  have hview : w.db.view t .bookings b = some r := Rows.over_some hpend
  rw [hview]
  exact Option.filter_eq_some_iff.2 ⟨rfl, decide_eq_true hdel⟩

theorem missed_answers (row : Option Booking) {now : Int} {move : String}
    (hnone : row = none → Q (.error .bookingNotFound) w)
    (hin : ∀ y, row = some y → y.checkedInAt.isSome → Q (.ok ⟨y, false⟩) w)
    (hnot : ∀ y, row = some y → y.checkedInAt = none → Q (.error (.bookingTransitionInvalid move)) w) :
    (arrival jobs A).Ensures t ((match row with
      | none => pure (.missing, none)
      | some (b : Booking) => pure (if b.checkedInAt.isSome then .alreadyCheckedIn else .notConfirmed, some b)) >>=
        OwnerBooking.settleCheckIn b staffId now move) Q w := by
  cases row with
  | none => exact hnone rfl
  | some y =>
    dsimp only
    cases hat : y.checkedInAt with
    | some at_ => exact hin y rfl (by rw [hat]; rfl)
    | none => exact hnot y rfl hat

theorem checkIn_ensures (hA : ∀ t o w r w', A t o w r w' → NotUndone jobs t o w r w') {staffId : Nat}
    (hjob : jobs t = .checkIn b staffId) (hw : w.db.Idle t) :
    (arrival jobs A).Ensures t ((jobs t).code cfg) (fun x w' => Answered (jobs t) w.db w'.db x) w := by
  have hdesk : (jobs t).desk = some b := by rw [hjob]; rfl
  have hchecks : (jobs t).checksIn = some b := by rw [hjob]; rfl
  have hcode : (jobs t).code cfg = OwnerBooking.checkIn b staffId >>= answer := by rw [hjob]; rfl
  rw [hcode]
  unfold OwnerBooking.checkIn
  refine ensures_first (ensures_clock arrival_historic fun w1 h1 hp1 => ?_)
  have hw1 : w1.db.Idle t := ⟨hp1.trans hw.pending⟩
  unfold OwnerBooking.checkInAt Bookings.byId Bookings.checkIn Bookings.refreshed
  refine ensures_session arrival_historic hw1 fun w2 _ h2 hw2 => ?_
  refine ensures_select arrival_historic fun w3 h3 hp3 hseen3 => ?_
  have hw3 : w3.db.Idle t := ⟨hp3.trans hw2.pending⟩
  have hlog3 : w.db.log.length ≤ w3.db.log.length := (h1.trans (h2.trans h3)).since.after.log.length_le
  refine ensures_orRaise (fun _ => desk_fails fun _ h => by cases h) fun booking hbooking => ?_
  obtain ⟨hrow3, hdel3⟩ := loaded_row hw3 hbooking
  split
  · exact desk_reads hdesk hw3 (held_now hlog3 hrow3 rfl)
  rename_i hnot
  refine ensures_raiseIf (fun hs => desk_fails fun _ _ b' hb' => ?_) fun hs => ?_
  · rw [hchecks] at hb'
    cases hb'
    exact held_now hlog3 hrow3 (of_decide_eq_true hs)
  refine ensures_first (ensures_update arrival_historic (fun w4 h4 hp4 hseen4 hmiss => ?_)
    (fun _ _ _ _ _ _ _ _ => desk_fails fun _ h => by cases h) fun w4 w5 v r h5 hv hr hassume => ?_)
  · -- the UPDATE matched nothing: the row was checked in by then, or was confirmed no more
    have hw4 : w4.db.Idle t := ⟨hp4.trans hw3.pending⟩
    have hlog4 : w3.db.log.length ≤ w4.db.log.length := h4.since.after.log.length_le
    have hbecomes4 := h4.since.after.rows .bookings b
    rw [hrow3] at hbecomes4
    obtain ⟨x4, hx4, hstep4⟩ := hbecomes4.some_left
    have hdel4 : x4.deletedAt = none := (BookingBecomes.deletedAt hstep4).trans hdel3
    refine ensures_call fun w5 hev hL hI i y w6 he hL6 hassume => ?_
    have hI6 := arrival_historic.exec (by simp) (by simp) he hI
    have hs := World.since_exec (D := Jobs jobs) (by trivial) he
    have hundone := hA _ _ _ _ _ hassume
    cases he
    have hw5 : w5.db.Idle t := hev.db.idle hw4
    have hw6 : (⟨w5.db.look t, w5.out⟩ : BWorld).db.Idle t := ⟨hw5.pending⟩
    have hlog5 : w.db.log.length ≤ w5.db.log.length := hlog3.trans (hlog4.trans hev.db.log_le)
    have hview5 : w5.db.view t = w5.db.committed := hw5.view
    refine ⟨hI6, ?_⟩
    refine missed_answers (Option.filter (fun (x : Booking) => decide (x.deletedAt = none)) (w5.db.view t .bookings b))
      (fun _ => desk_fails fun _ h => by cases h) (fun y hread hin => ?_) fun y hread hat => ?_
    · obtain ⟨hrow5, -⟩ := loaded_row hw5 hread
      exact desk_reads hdesk hw6 (held_now hlog5 (show (w5.db.look t).committed .bookings b = some y from hrow5) rfl)
    · obtain ⟨hrow5, hdel5⟩ := loaded_row hw5 hread
      have hrow6 : (w5.db.look t).committed .bookings b = some y := hrow5
      refine desk_fails fun _ _ b' hb' => ?_
      rw [hchecks] at hb'
      cases hb'
      by_cases hconfirmed : y.status = .confirmed
      · refine Held.since (D := Jobs jobs) (t := t) (held_now (hlog3.trans hlog4) hx4 fun hs4 => ?_)
          (hev.db.since.trans hs)
        have hfound : (w5.db.view t .bookings b).any
            (fun x => decide (Booking.status x = .confirmed ∧ Booking.checkedInAt x = none)) = true := by
          rw [hview5, hrow5]
          exact decide_eq_true ⟨hconfirmed, hat⟩
        have hnever := hundone hchecks hfound w4.db.log.length
          (by have := hev.db.log_le; omega) (by rw [hev.db.seen, hseen4, hseen3]; exact hlog4)
        rw [hev.db.version _ (Nat.le_refl _), Engine.version_length] at hnever
        have hnone4 : x4.checkedInAt = none := by
          unfold arrivedAt at hnever
          rw [hx4] at hnever
          exact hnever
        rw [show w4.db.view t = w4.db.committed from hw4.view, hx4] at hmiss
        simp [schema, applyChange, BookingChange.apply, hdel4, hnone4, hs4] at hmiss
      · exact held_now hlog5 hrow6 hconfirmed
  · -- the UPDATE wrote
    have hw4 : w4.db.pending t = fun _ _ => none := h5.kept.trans hw3.pending
    have hv4 : w4.db.committed .bookings b = some v := by
      rw [← show w4.db.view t = w4.db.committed from Engine.Idle.view ⟨hw4⟩]
      exact hv
    have happly : BookingChange.apply v (.checkIn w1.db.clock) = some r := hr
    simp only [BookingChange.apply] at happly
    clear hassume
    split at happly <;> cases happly
    rename_i hguard
    refine ensures_select arrival_historic fun w6 h6 hp6 _ => ?_
    have hrow6 := h5.row
    rw [← hp6] at hrow6
    have hown := refreshed_own hrow6 hguard.1
    dsimp only
    rw [hown]
    refine desk_records hdesk (hlog3.trans (h5.after.trans h6).since.after.log.length_le) ?_ ?_ rfl
      (.inl ⟨hguard.2.1, (fun h => by cases h), fun _ => ⟨rfl, rfl⟩⟩)
    · rw [hp6, h5.pending, hw3.pending]
      rfl
    · rw [(h6.since.written .bookings b _ h5.row).2, h5.committed]
      exact hv4

theorem unmoved_answers (row : Option Booking) {previous : Int} (hnone : row = none → Q (.error .bookingNotFound) w)
    (hin : ∀ y, row = some y → Q (.ok ⟨y, false⟩) w) :
    (arrival jobs A).Ensures t ((match row with
      | none => pure (.missing, none)
      | some (b : Booking) => pure (.alreadyCheckedIn, some b)) >>= OwnerBooking.settleUndo b staffId previous) Q w := by
  cases row with
  | none => exact hnone rfl
  | some y => exact hin y rfl

theorem undo_ensures {staffId : Nat} (hjob : jobs t = .undoCheckIn b staffId) (hw : w.db.Idle t) :
    (arrival jobs A).Ensures t ((jobs t).code cfg) (fun x w' => Answered (jobs t) w.db w'.db x) w := by
  have hdesk : (jobs t).desk = some b := by rw [hjob]; rfl
  have hchecks : (jobs t).checksIn = none := by rw [hjob]; rfl
  have hcode : (jobs t).code cfg = OwnerBooking.undoCheckIn b staffId >>= answer := by rw [hjob]; rfl
  have hfails : ∀ err (w' : BWorld),
      Closes (arrival jobs A) t answer (fun x w' => Answered (jobs t) w.db w'.db x) (.error err) w' := fun err w' =>
    desk_fails fun _ _ b' hb' => by
      rw [hchecks] at hb'
      cases hb'
  rw [hcode]
  unfold OwnerBooking.undoCheckIn Bookings.byId
  refine ensures_session arrival_historic hw fun w1 _ h1 hw1 => ?_
  refine ensures_select arrival_historic fun w2 h2 hp2 _ => ?_
  have hw2 : w2.db.Idle t := ⟨hp2.trans hw1.pending⟩
  have hlog2 : w.db.log.length ≤ w2.db.log.length := (h1.trans h2).since.after.log.length_le
  refine ensures_orRaise (fun _ => hfails _ _) fun booking hbooking => ?_
  obtain ⟨hrow2, -⟩ := loaded_row hw2 hbooking
  cases hat : booking.checkedInAt with
  | none => exact desk_reads hdesk hw2 (held_now hlog2 hrow2 rfl)
  | some previous =>
    unfold Bookings.undoCheckIn Bookings.refreshed
    refine ensures_first (ensures_update arrival_historic (fun w3 h3 hp3 _ hmiss => ?_) (fun _ _ _ _ _ _ _ _ => hfails _ _)
      fun w3 w4 v r h4 hv hr hassume => ?_)
    · -- the UPDATE matched nothing
      refine ensures_first (ensures_select arrival_historic fun w4 h4 hp4 _ => ?_)
      have hw4 : w4.db.Idle t := ⟨hp4.trans (hp3.trans hw2.pending)⟩
      have hlog4 : w.db.log.length ≤ w4.db.log.length := hlog2.trans (h3.trans h4).since.after.log.length_le
      refine unmoved_answers (Option.filter (fun (x : Booking) => decide (x.deletedAt = none)) (w4.db.view t .bookings b))
        (fun _ => hfails _ _) fun y hread => ?_
      obtain ⟨hrow4, -⟩ := loaded_row hw4 hread
      exact desk_reads hdesk hw4 (held_now hlog4 hrow4 rfl)
    · -- the UPDATE wrote
      clear hassume
      have hw3 : w3.db.pending t = fun _ _ => none := h4.kept.trans hw2.pending
      have hv3 : w3.db.committed .bookings b = some v := by
        rw [← show w3.db.view t = w3.db.committed from Engine.Idle.view ⟨hw3⟩]
        exact hv
      have happly : BookingChange.apply v .undoCheckIn = some r := hr
      simp only [BookingChange.apply] at happly
      split at happly <;> cases happly
      rename_i hguard
      refine ensures_select arrival_historic fun w5 h5 hp5 _ => ?_
      have hrow5 := h4.row
      rw [← hp5] at hrow5
      have hown := refreshed_own hrow5 hguard.1
      dsimp only
      rw [hown]
      refine desk_records hdesk (hlog2.trans (h4.after.trans h5).since.after.log.length_le) ?_ ?_ rfl
        (.inr ⟨Option.isSome_iff_ne_none.1 hguard.2, rfl, fun _ => ⟨rfl, rfl⟩⟩)
      · rw [hp5, h4.pending, hw2.pending]
        rfl
      · rw [(h5.since.written .bookings b _ h4.row).2, h4.committed]
        exact hv3

theorem safe_job (hA : ∀ t o w r w', A t o w r w' → NotUndone jobs t o w r w') (hw : w.db.Idle t) :
    (arrival jobs A).logic.Safe t ((jobs t).code cfg) (fun x w' => Answered (jobs t) w.db w'.db x) w := by
  have hlater : ∀ (x : Except Err Reply) (w1 w2 : BWorld), Answered (jobs t) w.db w1.db x →
      w1.Evolves (Jobs jobs) t w2 → Answered (jobs t) w.db w2.db x :=
    fun x w1 w2 h hev => h.later hev.db.log_le hev.db.version
  by_cases hdesk : (jobs t).desk = none
  · have hchecks : (jobs t).checksIn = none := by
      cases hj : jobs t <;> first | rfl | (rw [hj] at hdesk; cases hdesk)
    refine Ledger.safe_of_lawful (fun e he _ b => .inl (keeps_of_elsewhere hdesk he b)) fun x w' => ?_
    unfold Answered
    split
    · intro b hb
      rw [hdesk] at hb
      cases hb
    · intro b hb
      rw [hchecks] at hb
      cases hb
    · trivial
  · cases hj : jobs t with
    | checkIn b staffId =>
      rw [← hj]
      exact safe_of_ensures (checkIn_ensures hA hj hw) fun x w1 w2 h hev _ _ => hlater x w1 w2 h hev
    | undoCheckIn b staffId =>
      rw [← hj]
      exact safe_of_ensures (undo_ensures hj hw) fun x w1 w2 h hev _ _ => hlater x w1 w2 h hev
    | _ =>
      rw [hj] at hdesk
      exact (hdesk rfl).elim

end

/-! ## Whole runs -/

variable {cfg : Config} {rows : Rows schema} {next : Nat} {now : Int} {c c₁ : Conf server Reply}

theorem run_sound (htables : Tables rows next) (hr : Conf.Steps (NotUndone jobs) (start cfg jobs rows next now) c) :
    Logic.Sound (arrival jobs (NotUndone jobs)).logic (fun _ _ _ => True) c :=
  ((arrival jobs (NotUndone jobs)).runs (start_obeyed htables) (fun m entry hm => by cases hm)
    (fun t p hp => by
      cases hp
      exact (safe_job (fun _ _ _ _ _ h => h) ⟨rfl⟩).mono fun _ _ _ => trivial) hr).1

theorem run_arrivals (htables : Tables rows next) (hr : Conf.Steps (NotUndone jobs) (start cfg jobs rows next now) c)
    {entry : Commit schema} (hn : c.state.db.log[n]? = some entry) (b : Nat) :
    Keeps b entry ∨ Arrives b entry ∨ Undoes b entry :=
  (run_sound htables hr).inv.2 n entry hn b

/-- What each commit may do to the arrival of a booking, and to the audit rows that tell of it. -/
structure Recorded (e : Engine schema) (next : Nat) (b : Nat) : Prop where
  kept : ∀ (n : Nat) (entry : Commit schema) (x : Int), e.log[n]? = some entry → arrivedAt entry.before b = some x →
    arrivedAt entry.after b = some x ∨ (arrivedAt entry.after b = none ∧ OneMore (AuditLog.undoneOf b) entry)
  balanced : ∀ m, m ≤ e.log.length → Balanced ⟨e.version m, next⟩ b

theorem run_recorded (htables : Tables rows next) (hstart : Balanced ⟨rows, next⟩ b)
    (hr : Conf.Steps (NotUndone jobs) (start cfg jobs rows next now) c) : Recorded c.state.db c.state.db.next b := by
  obtain ⟨hL, h0⟩ := run_lawful htables hr
  have hledger : ∀ n entry, c.state.db.log[n]? = some entry → Keeps b entry ∨ Arrives b entry ∨ Undoes b entry :=
    fun n entry hn => run_arrivals htables hr hn b
  refine ⟨fun n entry x hn hx => ?_, hL.version_induction (P := fun rows => Balanced ⟨rows, c.state.db.next⟩ b) ?_ ?_⟩
  · rcases hledger n entry hn with h | h | h
    · exact .inl (h.at_.trans hx)
    · rw [h.before] at hx
      cases hx
    · exact .inr ⟨h.after, h.undone⟩
  · rw [h0]
    exact hstart.later (fun j a hj => htables.lt .auditLog j a hj) ((start_obeyed htables).next_le hr)
  · intro m entry hn _ hafter
    refine balanced_step (hledger m entry hn) fun j a hj => ?_
    rw [← hafter] at hj
    have hm : m < c.state.db.log.length := (List.getElem?_eq_some_iff.1 hn).1
    exact hL.version_lt hm hj

/-- **In a run where no undo comes between, the desk is honest**: an arrival is kept until it is undone, the audit rows
balance in every version, and every answer is true of a moment of its own request. -/
theorem check_in_honest (htables : Tables rows next) (hstart : Balanced ⟨rows, next⟩ b)
    (hr : Conf.Steps (NotUndone jobs) (start cfg jobs rows next now) c) :
    Recorded c.state.db c.state.db.next b ∧ ∀ (t : Tid) (c₁ : Conf server Reply),
      Conf.Steps (fun u o w r w' => u ≠ t ∧ NotUndone jobs u o w r w') (start cfg jobs rows next now) c₁ →
      Conf.Steps (NotUndone jobs) c₁ c →
      (∀ reply, c.threads t = some (.ret reply) → Answered (jobs t) c₁.state.db c.state.db (.ok reply)) ∧
      ∀ err, c.threads t = some (.raise err) → Answered (jobs t) c₁.state.db c.state.db (.error err) := by
  refine ⟨run_recorded htables hstart hr, fun t c₁ h1 h2 => ?_⟩
  have hob : Cast.Obeyed (Jobs jobs) (start cfg jobs rows next now) := start_obeyed htables
  obtain ⟨hidle, hcode⟩ := hob.unbegun ⟨rfl⟩ h1
  have h1' := Conf.Steps.mono (fun _ _ _ _ _ h => h.2) h1
  have hsound1 := run_sound htables h1'
  refine (arrival jobs (NotUndone jobs)).follows (Q := fun x w' => Answered (jobs t) c₁.state.db w'.db x)
    (hob.steps h1').1 hsound1.inv.2 (fun u p _ hp => hsound1.safe u p hp) (fun p hp => ?_) h2
  cases hcode p hp
  exact safe_job (fun _ _ _ _ _ h => h) hidle

def tappedTwice : Tid → Job
  | 0 => .checkIn 6 1
  | 1 => .checkIn 6 2
  | _ => .undoCheckIn 6 3

def confirmedShelf : (T : Table) → List (Row T) := shelfWith [danaRow] [fitting] []

theorem confirmed_tables : Tables (tableOf confirmedShelf) 7 := tables_of_stock (by decide)

instance (s : Snapshot schema) (b : Nat) : Decidable (Balanced s b) := by
  unfold Balanced
  infer_instance

theorem confirmed_balanced : Balanced ⟨tableOf confirmedShelf, 7⟩ 6 := by decide

def failedWith (c : Conf server Reply) (t : Tid) : Option Err :=
  match c.threads t with
  | some (.raise e) => some e
  | _ => none

theorem failedWith_eq {t : Tid} {e : Err} (h : failedWith c t = some e) : c.threads t = some (.raise e) := by
  unfold failedWith at h
  split at h
  · rename_i heq
    cases h
    exact heq
  · cases h

def confirmedAt (c : Conf server Reply) (b m : Nat) : Bool :=
  (c.state.db.version m .bookings b).any fun (x : Booking) => x.status = .confirmed

/-- The first tap is refused as not confirmed, although the fitting was confirmed all along. -/
theorem check_in_misanswers : ∃ c, (start shop tappedTwice (tableOf confirmedShelf) 7 0).Reaches c ∧
    Balanced ⟨tableOf confirmedShelf, 7⟩ 6 ∧ ∃ move, c.threads 0 = some (.raise (.bookingTransitionInvalid move)) ∧
      ∀ m, m ≤ c.state.db.log.length → ∃ x, c.state.db.version m .bookings 6 = some x ∧ Booking.status x = .confirmed := by
  obtain ⟨c, hc, hwrong⟩ := reaches_of_play (start shop tappedTwice (tableOf confirmedShelf) 7 0)
    (turns 0 fine 3 ++ turns 1 fine 7 ++ turns 0 fine 1 ++ turns 2 fine 6 ++ turns 0 fine 2)
    (fun c => decide (failedWith c 0 = some (.bookingTransitionInvalid "confirmed -> checked_in") ∧
      ∀ m, m < c.state.db.log.length + 1 → confirmedAt c 6 m = true)) (by decide)
  obtain ⟨hfailed, hall⟩ := of_decide_eq_true hwrong
  refine ⟨c, hc, confirmed_balanced, _, failedWith_eq hfailed, fun m hm => ?_⟩
  obtain ⟨x, hx, hs⟩ := (Option.any_eq_true _ _).1 (hall m (by omega))
  exact ⟨x, hx, of_decide_eq_true hs⟩

def mutated (c : Conf server Reply) (t : Tid) : Option OwnerMutation :=
  match c.threads t with
  | some (.ret (.mutation m)) => some m
  | _ => none

theorem mutated_eq {t : Tid} (h : mutated c t = some m) : c.threads t = some (.ret (.mutation m)) := by
  unfold mutated at h
  split at h
  · rename_i heq
    cases h
    exact heq
  · cases h

/-- The second tap writes, the first finds it, and then the tap is undone. -/
theorem check_in_honest_shop : ∃ c, Conf.Steps (NotUndone tappedTwice) (start shop tappedTwice (tableOf confirmedShelf) 7 0) c ∧
    Recorded c.state.db c.state.db.next 6 ∧ ∃ m, m.changed = false ∧
      Answered (tappedTwice 0) (quiet (tableOf confirmedShelf) 7 0) c.state.db (.ok (.mutation m)) := by
  obtain ⟨c, hc, hdone⟩ := steps_of_play (NotUndone tappedTwice) (start shop tappedTwice (tableOf confirmedShelf) 7 0)
    (turns 0 fine 3 ++ turns 1 fine 7 ++ turns 0 fine 3 ++ turns 2 fine 6)
    (fun c => (mutated c 0).any fun m => !m.changed) (by decide)
  obtain ⟨m, hm, hunchanged⟩ := (Option.any_eq_true _ _).1 hdone
  obtain ⟨hrecorded, hanswers⟩ := check_in_honest confirmed_tables confirmed_balanced hc
  exact ⟨c, hc, hrecorded, m, by simpa using hunchanged, (hanswers 0 _ .refl hc).1 _ (mutated_eq hm)⟩

end Boutique
