import Boutique.Rules
/-!
# Seats — occupancy at one instant, and what a thread under the lock knows of it

`seatsAt` and `capacityAt` are the two numbers behind every seat decision.  While a thread holds the lock the others can
only empty seats, so what it counted stays an upper bound until it commits.
-/
namespace Boutique

open Txn Contract

def seatsAt (s : Snapshot schema) (x : Int) : List Nat := (Bookings.liveAt s x).map (·.seatIndex)

def capacityAt (cfg : Config) (s : Snapshot schema) (now x : Int) : Nat :=
  gridCapacity cfg.zone (Rules.active s) (Exceptions.active (cfg.zone.dateOf x) (cfg.zone.dateOf x) s) now x

def seatOf (rows : Rows schema) (x : Int) (i : Nat) : Option Nat :=
  ((rows .bookings i).filter fun (b : Booking) => b.live && b.startsAt = x).map (·.seatIndex)

def Bounded (rows : Rows schema) (n : Nat) : Prop := ∀ T i, n ≤ i → rows T i = none

variable {α β : Type} {T : Table} {rows : Rows schema} {n n' i k token : Nat} {D : Cast schema} {e e' : Engine schema}
  {x now : Int} {b : Booking} {t : Tid} {w' : BWorld} {cfg : Config} {row : Slot → Nat → Booking}

theorem filterMap_sublist {f g : α → Option β} :
    ∀ {l : List α}, (∀ a ∈ l, g a = none ∨ g a = f a) → (l.filterMap g).Sublist (l.filterMap f)
  | [], _ => .slnil
  | a :: l, h => by
    have ih := filterMap_sublist fun c hc => h c (List.mem_cons_of_mem _ hc)
    rw [List.filterMap_cons, List.filterMap_cons]
    rcases h a List.mem_cons_self with ha | ha
    · rw [ha]
      cases f a with
      | none => exact ih
      | some b => exact ih.cons b
    · rw [ha]
      cases f a with
      | none => exact ih
      | some b => exact ih.cons_cons b

theorem length_filterMap_cons (f : α → Option β) (a : α) (l : List α) :
    ((a :: l).filterMap f).length = (f a).toList.length + (l.filterMap f).length := by
  rw [List.filterMap_cons]
  cases f a with
  | none => simp
  | some b =>
    show (l.filterMap f).length + 1 = 1 + (l.filterMap f).length
    omega

theorem length_filterMap_le_succ {f g : α → Option β} {a : α} (h : ∀ b, b ≠ a → g b = none ∨ g b = f b) :
    ∀ {l : List α}, l.Nodup → (l.filterMap g).length ≤ (l.filterMap f).length + 1
  | [], _ => by simp
  | b :: l, hl => by
    obtain ⟨hb, hl⟩ := List.nodup_cons.1 hl
    rw [length_filterMap_cons, length_filterMap_cons]
    have hone : (g b).toList.length ≤ 1 := by cases g b <;> simp
    by_cases hba : b = a
    · subst hba
      have hrest := (filterMap_sublist (l := l) (f := f) (g := g) fun c hc => h c fun he => hb (he ▸ hc)).length_le
      omega
    · have ih := length_filterMap_le_succ h hl
      have hle : (g b).toList.length ≤ (f b).toList.length := by
        rcases h b hba with hb' | hb' <;> simp [hb']
      omega

theorem seatsAt_eq (s : Snapshot schema) (x : Int) : seatsAt s x = (List.range s.next).filterMap (seatOf s.rows x) := by
  unfold seatsAt Bookings.liveAt Snapshot.all seatOf
  induction List.range s.next with
  | nil => rfl
  | cons i l ih =>
    rw [List.filterMap_cons, List.filterMap_cons]
    cases hb : s.rows .bookings i with
    | none => exact ih
    | some b =>
      by_cases hc : (b.live && decide (b.startsAt = x)) = true
      · simp only [List.filter_cons, hc, if_true, List.map_cons, Option.filter_some, Option.map_some]
        rw [ih]
      · simp only [List.filter_cons, hc, Option.filter_some, Bool.false_eq_true, if_false, Option.map_none]
        exact ih

theorem all_congr {s u : Snapshot schema} (hr : s.rows T = u.rows T) (hn : s.next = u.next) : s.all T = u.all T := by
  unfold Snapshot.all
  rw [hr, hn]

theorem all_of_none (h : ∀ i, n ≤ i → rows T i = none) (h' : ∀ i, n' ≤ i → rows T i = none) :
    Snapshot.all ⟨rows, n⟩ T = Snapshot.all ⟨rows, n'⟩ T := by
  have hle : ∀ {a b : Nat}, a ≤ b → (∀ i, a ≤ i → rows T i = none) → Snapshot.all ⟨rows, b⟩ T = Snapshot.all ⟨rows, a⟩ T := by
    intro a b hab ha
    obtain ⟨d, rfl⟩ := Nat.exists_eq_add_of_le hab
    have hnone : (List.range d |>.map (a + ·)).filterMap (rows T) = [] := by
      rw [List.filterMap_eq_nil_iff]
      intro i hi
      obtain ⟨k, -, rfl⟩ := List.mem_map.1 hi
      exact ha _ (Nat.le_add_right _ _)
    unfold Snapshot.all
    rw [List.range_add, List.filterMap_append, hnone, List.append_nil]
  rcases Nat.le_total n n' with hn | hn
  · exact (hle hn h).symm
  · exact hle hn h'

theorem all_of_bounded (h : Bounded rows n) (h' : Bounded rows n') (T : Table) :
    Snapshot.all ⟨rows, n⟩ T = Snapshot.all ⟨rows, n'⟩ T := all_of_none (h T) (h' T)

theorem seatsAt_of_bounded (h : Bounded rows n) (h' : Bounded rows n') (x : Int) :
    seatsAt ⟨rows, n⟩ x = seatsAt ⟨rows, n'⟩ x := by
  unfold seatsAt Bookings.liveAt
  rw [all_of_bounded h h']

theorem capacityAt_of_bounded (h : Bounded rows n) (h' : Bounded rows n') (cfg : Config) (now x : Int) :
    capacityAt cfg ⟨rows, n⟩ now x = capacityAt cfg ⟨rows, n'⟩ now x := by
  unfold capacityAt Rules.active Exceptions.active
  rw [all_of_bounded h h', all_of_bounded h h']

theorem lawful_bounded (h : e.Lawful D) : Bounded e.committed e.next :=
  fun T _ hi => h.committed_none_of_le hi T

theorem seatOf_some (h : rows .bookings i = some b) :
    seatOf rows x i = if b.live = true ∧ b.startsAt = x then some b.seatIndex else none := by
  unfold seatOf
  rw [h]
  by_cases hl : b.live = true ∧ b.startsAt = x
  · rw [if_pos hl, Option.filter_some, if_pos (by simpa using hl)]
    rfl
  · rw [if_neg hl, Option.filter_some, if_neg (by simpa using hl)]
    rfl

theorem seatOf_none (h : rows .bookings i = none) : seatOf rows x i = none := by
  unfold seatOf
  rw [h]
  rfl

theorem BookingBecomes.live {b' : Booking} (h : BookingBecomes false b b') (hl : b'.live = true) : b.live = true := by
  simp only [Booking.live, decide_eq_true_eq] at hl ⊢
  exact ⟨h.deletedAt ▸ hl.1, fun hc => hl.2 (h.dead rfl hc)⟩

theorem seatOf_becomes {rows' : Rows schema}
    (h : boutique.Becomes false .bookings (rows .bookings i) (rows' .bookings i)) :
    seatOf rows' x i = none ∨ seatOf rows' x i = seatOf rows x i := by
  cases hr' : rows' .bookings i with
  | none => exact .inl (seatOf_none hr')
  | some r' =>
    cases hr : rows .bookings i with
    | none =>
      rw [hr, hr'] at h
      cases h.1
    | some r =>
      rw [hr, hr'] at h
      have hb : BookingBecomes false r r' := h
      rw [seatOf_some hr', seatOf_some hr]
      by_cases hl : Booking.live r' = true ∧ Booking.startsAt r' = x
      · have hl' : Booking.live r = true ∧ Booking.startsAt r = x := ⟨hb.live hl.1, (hb.place rfl).1 ▸ hl.2⟩
        rw [if_pos hl, if_pos hl', (hb.place rfl).2]
        exact .inr rfl
      · exact .inl (if_neg hl)

theorem seatsAt_sublist (hD : D.Under boutique) (h : e.Since D t e') (hlock : e.advisory = some t) (he : e.Lawful D)
    (x : Int) : (seatsAt ⟨e'.committed, e'.next⟩ x).Sublist (seatsAt ⟨e.committed, e.next⟩ x) := by
  have hb : Bounded e.committed e'.next := fun T i hi => he.committed_none_of_le (Nat.le_trans h.next_le hi) T
  rw [seatsAt_of_bounded (lawful_bounded he) hb, seatsAt_eq, seatsAt_eq]
  refine filterMap_sublist fun i _ => ?_
  have hrow := h.rows .bookings i
  rw [Engine.holds_iff.2 hlock] at hrow
  exact seatOf_becomes (hD.becomes hrow)

theorem rules_since (hD : D.Under boutique) (h : e.Since D t e') (hlock : e.advisory = some t) (i : Nat) :
    e'.committed .availabilityRules i = e.committed .availabilityRules i := by
  have hrow := hD.becomes (h.rows .availabilityRules i)
  rw [Engine.holds_iff.2 hlock] at hrow
  cases hr : e.committed .availabilityRules i with
  | none =>
    cases hr' : e'.committed .availabilityRules i with
    | none => rfl
    | some r' =>
      rw [hr, hr'] at hrow
      exact absurd hrow Bool.false_ne_true
  | some r =>
    rw [hr] at hrow
    obtain ⟨r', hr', htr⟩ := Discipline.Becomes.some_left hrow
    rw [hr']
    exact congrArg some (htr rfl)

theorem seatsAt_set (b : Booking) (x : Int) :
    (seatsAt ⟨rows.set .bookings i b, n⟩ x).length ≤ (seatsAt ⟨rows, n⟩ x).length + 1 := by
  rw [seatsAt_eq, seatsAt_eq]
  refine length_filterMap_le_succ (a := i) (fun j hj => .inr ?_) List.nodup_range
  show Option.map _ (Option.filter _ (rows.set .bookings i b .bookings j)) = _
  rw [Rows.set_row hj]
  rfl

/-! ## What the lock holder reads -/

def Unwritten (t : Tid) (w : BWorld) : Prop :=
  (∀ i, w.db.pending t .bookings i = none) ∧ (∀ i, w.db.pending t .availabilityRules i = none) ∧
    ∀ i, w.db.pending t .availabilityExceptions i = none

theorem Unwritten.of_pending {w : BWorld} (h : Unwritten t w) (hp : w'.db.pending t = w.db.pending t) :
    Unwritten t w' := by
  unfold Unwritten
  rw [hp]
  exact h

variable {D : Cast schema} {C : Contract D service Err} {t : Tid} {w : BWorld}

theorem all_view (h : ∀ i, w.db.pending t T i = none) :
    Snapshot.all ⟨w.db.view t, w.db.next⟩ T = Snapshot.all ⟨w.db.committed, w.db.next⟩ T :=
  all_congr (Engine.view_table h) rfl

abbrev now_ (w : BWorld) : Snapshot schema := ⟨w.db.committed, w.db.next⟩

theorem liveAt_view (h : Unwritten t w) (x : Int) :
    Bookings.liveAt ⟨w.db.view t, w.db.next⟩ x = Bookings.liveAt (now_ w) x := by
  unfold Bookings.liveAt
  rw [all_view h.1]

theorem booked_eq (zone : Zone) (s : Snapshot schema) (x : Int) :
    (if zone.midnight (zone.dateOf x) ≤ x ∧ x < zone.midnight (zone.dateOf x + 1) then (Bookings.liveAt s x).length
      else 0) = (seatsAt s x).length := by
  have h1 : zone.midnight (zone.dateOf x) ≤ x := zone.midnight_le x
  have h2 : x < zone.midnight (zone.dateOf x + 1) := zone.lt_midnight x
  rw [if_pos ⟨h1, h2⟩, seatsAt, List.length_map]

/-- **What `offeredSlot` answers under the lock**: the slot exactly when the seats counted at the end are fewer than the
capacity the grid had on the way there. -/
theorem offeredSlot_ensures (hC : C.Historic calm) (hD : D.Under boutique) (hw : Unwritten t w)
    (hlock : w.db.advisory = some t) (cfg : Config) (x now : Int) :
    C.Ensures t (offeredSlot cfg x now) (fun r w2 => ∃ w1 n, C.Point t w w1 ∧ C.Point t w1 w2 ∧
      w2.db.pending t = w.db.pending t ∧
      r = .ok (if (seatsAt (now_ w2) x).length < capacityAt cfg (now_ w1) now x then
        some ⟨x, capacityAt cfg (now_ w1) now x, n⟩ else none)) w := by
  unfold offeredSlot daySlots Rules.listActive Exceptions.listActive Bookings.countByStart
  refine ensures_bind ?_
  refine ensures_select hC fun w1 h1 hp1 _ => ensures_select hC fun w2 h2 hp2 _ => ensures_select hC fun w3 h3 hp3 _ => ?_
  have hu1 := hw.of_pending hp1
  have hu2 := hu1.of_pending hp2
  have hu3 := hu2.of_pending hp3
  refine ⟨w2, (seatsAt (now_ w3) x).length, h1.trans h2, h3, hp3.trans (hp2.trans hp1), ?_⟩
  have hrules : Rules.active ⟨w1.db.view t, w1.db.next⟩ = Rules.active (now_ w2) := by
    unfold Rules.active
    rw [all_view hu1.2.1]
    have hb : Bounded w1.db.committed w2.db.next := fun T i hi =>
      h1.lawful.committed_none_of_le (Nat.le_trans h2.since.next_le hi) T
    have hsame : w2.db.committed .availabilityRules = w1.db.committed .availabilityRules :=
      funext fun i => rules_since hD h2.since (h1.since.advisory hlock) i
    have hall : Snapshot.all ⟨w1.db.committed, w2.db.next⟩ .availabilityRules = (now_ w2).all .availabilityRules :=
      all_congr hsame.symm rfl
    rw [all_of_bounded (lawful_bounded h1.lawful) hb, hall]
  have hexceptions : Exceptions.active (cfg.zone.dateOf x) (cfg.zone.dateOf x) ⟨w2.db.view t, w2.db.next⟩ =
      Exceptions.active (cfg.zone.dateOf x) (cfg.zone.dateOf x) (now_ w2) := by
    unfold Exceptions.active
    rw [all_view hu2.2.2]
  have hbooked := booked_eq cfg.zone ⟨w3.db.view t, w3.db.next⟩ x
  have hseats : seatsAt ⟨w3.db.view t, w3.db.next⟩ x = seatsAt (now_ w3) x := by
    unfold seatsAt
    rw [liveAt_view hu3]
  rw [materializeSlots_find, hbooked, hseats, hrules, hexceptions]
  rfl

/-! ## The lowest free seat -/

/-- **Seat `k` at instant `x` is the one to take**: under the lock, the grid had more capacity than seats were then held,
and `k` is the lowest of its seats that none of them is. -/
def Fair (C : Contract D service Err) (t : Tid) (cfg : Config) (now x : Int) (k : Nat) (w : BWorld) : Prop :=
  ∃ g s, C.Point t g s ∧ C.Point t s w ∧ g.db.Lawful D ∧ g.db.advisory = some t ∧
    (seatsAt (now_ s) x).length < capacityAt cfg (now_ g) now x ∧ 1 ≤ k ∧ k ≤ capacityAt cfg (now_ g) now x ∧
    k ∉ seatsAt (now_ s) x ∧ ∀ j, 1 ≤ j → j < k → j ∈ seatsAt (now_ s) x

theorem Fair.later (h : Fair C t cfg now x k w) (hp : C.Point t w w') : Fair C t cfg now x k w' := by
  obtain ⟨g, s, hgs, hsw, hrest⟩ := h
  exact ⟨g, s, hgs, hsw.trans hp, hrest⟩

/-- **Commit `m` took seat `k` at instant `x` fairly**: `grid` and `seats` are the versions its two decisions saw, with
no locked commit between them and it. -/
def Seated (cfg : Config) (e : Engine schema) (m n : Nat) (now x : Int) (k : Nat) : Prop :=
  ∃ grid seats, grid ≤ seats ∧ seats ≤ m ∧
    (∀ j c, grid ≤ j → j < m → e.log[j]? = some c → c.locked = false) ∧
    1 ≤ k ∧ k ≤ capacityAt cfg ⟨e.version grid, n⟩ now x ∧
    k ∉ seatsAt ⟨e.version seats, n⟩ x ∧ (∀ j, 1 ≤ j → j < k → j ∈ seatsAt ⟨e.version seats, n⟩ x) ∧
    (seatsAt ⟨e.version (m + 1), n⟩ x).length ≤ capacityAt cfg ⟨e.version grid, n⟩ now x

theorem Seated.later {m : Nat} (hm : m < e.log.length) (hlog : e.log <+: e'.log)
    (hv : ∀ j, j ≤ m + 1 → e'.version j = e.version j) (h : Seated cfg e m n now x k) : Seated cfg e' m n now x k := by
  obtain ⟨grid, seats, hgs, hsm, hfree, h1, h2, h3, h4, h5⟩ := h
  refine ⟨grid, seats, hgs, hsm, fun j c hgj hjm hc => ?_, h1, ?_, ?_, ?_, ?_⟩
  · obtain ⟨l, hl⟩ := hlog
    rw [← hl, List.getElem?_append_left (by omega)] at hc
    exact hfree j c hgj hjm hc
  · rwa [hv grid (by omega)]
  · rwa [hv seats (by omega)]
  · rwa [hv seats (by omega)]
  · rwa [hv _ (Nat.le_refl _), hv grid (by omega)]

theorem Bounded.earlier (h : e.After D e') (hb : Bounded e'.committed n) : Bounded e.committed n := by
  intro T i hi
  have hrow := h.rows T i
  rw [hb T i hi] at hrow
  cases hc : e.committed T i with
  | none => rfl
  | some r =>
    rw [hc] at hrow
    exact hrow.elim

/-- **A fair seat, committed in the only booking the transaction wrote, is fairly taken.** -/
theorem Fair.seated (hD : D.Under boutique) (h : Fair C t cfg now x k w) (hL : w.db.Lawful D)
    (hrow : w.db.view t .bookings = (w.db.committed.set .bookings i b) .bookings) (hb : Bounded (w.db.view t) n) :
    Seated cfg (w.db.commit t) w.db.log.length n now x k := by
  obtain ⟨g, s, hgs, hsw, hgL, hlock, hlt, h1, h2, h3, h4⟩ := h
  have hslock := hgs.since.advisory hlock
  have hbw : Bounded w.db.committed n := fun T j hj => by
    cases hc : w.db.committed T j with
    | none => rfl
    | some r =>
      have hin := Cast.becomes_common (hL.inflight t T j)
      rw [hc, hb T j hj] at hin
      exact hin.elim
  have hbs := Bounded.earlier hsw.since.after hbw
  have hbg := Bounded.earlier hgs.since.after hbs
  have hversion : ∀ v : BWorld, v.db.log.length ≤ w.db.log.length → w.db.version v.db.log.length = v.db.committed →
      (w.db.commit t).version v.db.log.length = v.db.committed := fun v hle hv => by
    rw [Engine.commit_version_le hle, hv]
  have hgle := hgs.since.after.log.length_le
  have hsle := hsw.since.after.log.length_le
  have hvs := hversion s hsle (by rw [hsw.since.version _ (Nat.le_refl _), Engine.version_length])
  have hvg := hversion g (hgle.trans hsle) (by
    rw [(hgs.since.trans hsw.since).version _ (Nat.le_refl _), Engine.version_length])
  have hcap : capacityAt cfg ⟨g.db.committed, n⟩ now x = capacityAt cfg (now_ g) now x :=
    capacityAt_of_bounded hbg (lawful_bounded hgL) cfg now x
  have hseats : seatsAt ⟨s.db.committed, n⟩ x = seatsAt (now_ s) x :=
    seatsAt_of_bounded hbs (lawful_bounded hgs.lawful) x
  refine ⟨g.db.log.length, s.db.log.length, hgle, hsle, fun j c hgj hjm hc => ?_, h1, ?_, ?_, ?_, ?_⟩
  · obtain ⟨l, hl, hfree⟩ := (hgs.since.trans hsw.since).log
    rw [Engine.commit_log, List.getElem?_append_left hjm, hl, List.getElem?_append_right hgj] at hc
    exact (hfree c (List.mem_of_getElem? hc)).2 hlock
  · rwa [hvg, hcap]
  · rwa [hvs, hseats]
  · rwa [hvs, hseats]
  · rw [Engine.commit_version_last, hvg, hcap]
    have hset : seatsAt ⟨w.db.view t, n⟩ x = seatsAt ⟨w.db.committed.set .bookings i b, n⟩ x := by
      have hall : Snapshot.all ⟨w.db.view t, n⟩ .bookings = Snapshot.all ⟨w.db.committed.set .bookings i b, n⟩ .bookings :=
        all_congr hrow rfl
      unfold seatsAt Bookings.liveAt
      rw [hall]
    have hle : (seatsAt ⟨w.db.committed.set .bookings i b, n⟩ x).length ≤ (seatsAt ⟨w.db.committed, n⟩ x).length + 1 :=
      seatsAt_set b x
    have hsub : _ ≤ (seatsAt (now_ s) x).length := (seatsAt_sublist hD hsw.since hslock hgs.lawful x).length_le
    rw [seatsAt_of_bounded (lawful_bounded hsw.lawful) hbw] at hsub
    rw [hset]
    omega

/-- **The seat search under the lock**: once the grid offers the instant, a seat is found, and it is the one to take. -/
theorem lowestFree_ensures (hC : C.Historic calm) (hw : Unwritten t w) {g : BWorld} (hgw : C.Point t g w)
    (hgL : g.db.Lawful D) (hlock : g.db.advisory = some t) (hD : D.Under boutique)
    (hoffered : (seatsAt (now_ w) x).length < capacityAt cfg (now_ g) now x) {k : Nat → Prg β} {e : Err}
    {Q : Except Err β → BWorld → Prop}
    (h : ∀ w1 i, C.Point t w w1 → w1.db.pending t = w.db.pending t → Fair C t cfg now x i w1 → C.Ensures t (k i) Q w1) :
    C.Ensures t (Bookings.activeSeatsAt x >>= fun seats => orRaise (lowestFree (capacityAt cfg (now_ g) now x) seats) e >>= k)
      Q w := by
  unfold Bookings.activeSeatsAt
  refine ensures_select hC fun w1 h1 hp1 _ => ?_
  rw [liveAt_view (hw.of_pending hp1)]
  have hless := (seatsAt_sublist hD h1.since (hgw.since.advisory hlock) hgw.lawful x).length_le
  have hlt : (seatsAt (now_ w1) x).length < capacityAt cfg (now_ g) now x := Nat.lt_of_le_of_lt hless hoffered
  obtain ⟨i, hi⟩ := lowestFree_of_lt hlt
  obtain ⟨hi1, hi2, hi3, hi4⟩ := lowestFree_some hi
  refine ensures_orRaise (fun hnone => ?_) fun a ha => ?_
  · exact absurd (hi.symm.trans hnone) (by simp)
  · have hai : a = i := Option.some.inj (ha.symm.trans hi)
    subst hai
    exact h w1 a h1 hp1 ⟨g, w1, hgw.trans h1, ⟨.refl _, h1.lawful, h1.inv, rfl⟩, hgL, hlock, hlt, hi1, hi2, hi3, hi4⟩

/-! ## The claim -/

/-- The transaction's writes with the reminder of booking `b`, where one goes out. -/
def Reminded (w : BWorld) (rows rows' : Rows schema) (b : Nat) (token : Nat) : Option Int → Prop
  | none => rows' = rows
  | some at_ => ∃ k n, w.db.committed .scheduledMessages k = none ∧
      rows' = rows.set .scheduledMessages k
        (stamp .scheduledMessages k n (Scheduled.pending b .reminder at_ (some token)))

/-- **What a successful claim has written**: its row, in a fair seat, and the reminder; nothing else. -/
structure Claimed (C : Contract D service Err) (t : Tid) (cfg : Config) (w : BWorld) (now : Int) (row : Slot → Nat → Booking)
    (x : Int) (token : Nat) (b : Booking) (w' : BWorld) : Prop where
  point : C.Point t w w'
  fair : Fair C t cfg now x b.seatIndex w'
  row : ∃ slot i j n, slot.startsAt = x ∧ b = stamp .bookings j n (row slot i)
  fresh : w.db.next ≤ b.id
  new : w'.db.committed .bookings b.id = none
  wrote : Reminded w' ((w.db.pending t).set .bookings b.id b) (w'.db.pending t) b.id token (reminderSendAfter x now)

theorem Reminded.table {rows' : Rows schema} {b : Nat} {x : Option Int} (h : Reminded w rows rows' b token x)
    (hT : T ≠ .scheduledMessages) : rows' T = rows T := by
  cases x with
  | none => rw [show rows' = rows from h]
  | some at_ =>
    obtain ⟨k, n, -, hrows⟩ := h
    rw [hrows]
    exact Rows.set_table hT

theorem Claimed.others (h : Claimed C t cfg w now row x token b w') (hb : T ≠ .bookings) (hm : T ≠ .scheduledMessages) :
    w'.db.pending t T = w.db.pending t T := (h.wrote.table hm).trans (Rows.set_table hb)

theorem Claimed.bookings (h : Claimed C t cfg w now row x token b w') :
    w'.db.pending t .bookings = ((w.db.pending t).set .bookings b.id b) .bookings := h.wrote.table nofun

theorem scheduleReminder_ensures (hC : C.Historic calm) (hI : C.Inv w) (hL : w.db.Lawful D) (b : Booking) (now : Int)
    (token : Nat) : C.Ensures t (scheduleReminder b now token) (fun r w' => C.Point t w w' ∧ match r with
      | .error e => e = .integrity
      | .ok _ => Reminded w' (w.db.pending t) (w'.db.pending t) b.id token (reminderSendAfter b.startsAt now)) w := by
  unfold scheduleReminder
  cases reminderSendAfter b.startsAt now with
  | none => exact ⟨⟨.refl _, hL, hI, rfl⟩, rfl⟩
  | some at_ =>
    refine ensures_insertRow hC (fun w1 h1 _ => ⟨h1, rfl⟩) fun w1 w2 n hw _ => ⟨hw.after, _, n, ?_, hw.pending⟩
    rw [hw.committed]
    exact hw.before.lawful.committed_none_of_le (Nat.le_refl _) _

theorem claimSeat_ensures (hC : C.Historic calm) (hD : D.Under boutique) (hw : Unwritten t w) (cfg : Config)
    (x now : Int) (customerId : Nat) (a : AppointmentType) (v token : Nat) (due : Bool) (text : ClaimText) :
    C.Ensures t (claimSeat cfg x now customerId a v token due text) (fun r w' => C.Point t w w' ∧ match r with
      | .error e => e ≠ .slotUnavailable .noFreeSeat
      | .ok b => Claimed C t cfg w now (fun slot i => seatRow slot i now customerId a v token due text) x token b w') w := by
  unfold claimSeat
  refine ensures_advisoryLock hC fun w1 h1 hp1 hlock => ?_
  refine ensures_bind (ensures_mono ?_ (offeredSlot_ensures hC hD (hw.of_pending hp1) hlock cfg x now))
  rintro r w2 ⟨g, n, h1g, hg2, hp2, rfl⟩
  have h2 := h1.trans (h1g.trans hg2)
  have hpend2 := hp2.trans hp1
  by_cases hlt : (seatsAt (now_ w2) x).length < capacityAt cfg (now_ g) now x
  · rw [if_pos hlt]
    refine lowestFree_ensures hC (hw.of_pending hpend2) hg2 h1g.lawful (h1g.since.advisory hlock) hD hlt ?_
    intro w3 i h23 hp3 hfair
    have h3 := h2.trans h23
    refine ensures_onIntegrity (ensures_last (ensures_insertRow hC (fun w4 h4 _ => ⟨h3.trans h4, fun h => by cases h⟩)
      fun w4 w5 n' hwrote _ => ?_))
    have h5 := h3.trans hwrote.after
    refine ensures_bind (ensures_mono ?_ (scheduleReminder_ensures hC h5.inv h5.lawful _ now token))
    rintro r w6 ⟨h56, hr⟩
    cases r with
    | error e =>
      refine ⟨h5.trans h56, ?_⟩
      rw [show e = .integrity from hr]
      intro h
      cases h
    | ok u =>
      refine ⟨h5.trans h56, h5.trans h56, hfair.later (hwrote.after.trans h56), ⟨_, i, _, n', rfl, rfl⟩,
        (h3.trans hwrote.before).since.next_le, ?_, ?_⟩
      · show w6.db.committed .bookings w4.db.next = none
        rw [(h56.since.written _ _ _ hwrote.row).2, hwrote.committed]
        exact hwrote.before.lawful.committed_none_of_le (Nat.le_refl _) _
      · have hpend : w5.db.pending t = _ := hwrote.pending
        rw [hp3.trans hpend2] at hpend
        exact hpend ▸ hr
  · rw [if_neg hlt]
    exact ⟨h2, fun h => by cases h⟩

end Boutique
