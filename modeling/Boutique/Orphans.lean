import Boutique.Erasure
/-!
# Orphans — customers that the retention run anonymises

A page of the run is the customers no booking points at, as one SELECT sees them; the scrub writes them by their keys and
shares no lock with the writers that attach a booking or a ticket.  A ticket is not looked at.
-/
namespace Subjects

open Txn Session Contract
open Retention (CHUNK_SIZE MAX_CHUNKS)

variable {settings : Retention.Settings} {reqs : Tid → Request} {rows : Rows schema} {next : Nat} {clock : Int}
  {c : Conf (machine schema outside Err) Reply} {t : Tid} {e e' : Engine schema} {i : Nat}

def AlterationTicket.undelivered (a : AlterationTicket) : Bool := a.deletedAt = none ∧ a.deliveredAt = none

/-- **From version `m` on, nothing points at the customer** that the SELECT of version `m` had not seen: no ticket was
undelivered then, and no booking and no ticket of hers was committed since. -/
def Unattached (e : Engine schema) (m i : Nat) : Prop :=
  (∀ k, k < e.next → ∀ a : AlterationTicket, a ∈ e.version m Table.tickets k → a.undelivered = true → a.customerId ≠ i) ∧
  ∀ d ∈ e.log.drop m, ∀ k, k < e.next → (∀ b : Booking, b ∈ d.writes Table.bookings k → b.customerId ≠ i) ∧
    ∀ a : AlterationTicket, a ∈ d.writes Table.tickets k → a.customerId ≠ i

instance (e : Engine schema) (m i : Nat) : Decidable (Unattached e m i) := by
  unfold Unattached
  infer_instance

/-- **Whom a retention run scrubs has been left alone since its SELECT.** -/
def LeftAlone (reqs : Tid → Request) : (machine schema outside Err).Assumption := fun t o w _ _ =>
  match o with
  | .sql .commit => (reqs t).scrubs = true → ∀ i, i < w.db.next → w.db.pending t Table.customers i ≠ none →
      Unattached w.db (w.db.seen t) i
  | _ => True

instance (reqs : Tid → Request) (t : Tid) (o : Op schema outside) (w : World schema outside) (x : o.Res)
    (w' : World schema outside) : Decidable (LeftAlone reqs t o w x w') :=
  match o, x with
  | .sql .commit, _ => inferInstanceAs (Decidable ((reqs t).scrubs = true → ∀ i, i < w.db.next →
      w.db.pending t Table.customers i ≠ none → Unattached w.db (w.db.seen t) i))
  | .sql .begin, _ | .sql (.read _), _ | .sql (.update ..), _ | .sql (.insert ..), _ | .sql .lock, _ | .sql .abort, _
  | .now, _ | .ask _, _ => isTrue trivial

/-- **Nobody is being served under this key**: no booking points at her, and no live undelivered ticket. -/
structure Unserved (rows : Rows schema) (i : Nat) : Prop where
  bookings : ∀ k (b : Booking), rows .bookings k = some b → b.customerId ≠ i
  tickets : ∀ k (a : AlterationTicket), rows .tickets k = some a → a.undelivered = true → a.customerId ≠ i

abbrev scrubbing (reqs : Tid → Request) : Ledger schema where
  Holds _ _ d := (reqs d.by_).scrubs = true → ∀ i, d.writes .customers i ≠ none → Unserved d.after i
  stable _ _ _ _ _ _ _ h := h

abbrev sweeping (reqs : Tid → Request) : Contract (conduct true).shared outside Err :=
  (scrubbing reqs).contract (conduct true).shared (LeftAlone reqs)

theorem sweeping_historic : (sweeping reqs).Historic fun _ => true := (scrubbing reqs).historic _

/-! ## One page -/

/-- **The page as its SELECT left it**: only its customers are in flight, and no booking pointed at any of them then. -/
structure Scanned (t : Tid) (page : List Nat) (e : Engine schema) : Prop where
  customers : ∀ i, e.pending t .customers i ≠ none → i ∈ page
  bookings : e.pending t .bookings = fun _ => none
  tickets : e.pending t .tickets = fun _ => none
  past : e.seen t ≤ e.log.length
  free : ∀ i ∈ page, ∀ k (b : Booking), e.version (e.seen t) .bookings k = some b → b.customerId ≠ i

variable {page : List Nat} {at_ : Int} {α : Type} {w : World schema outside}

theorem Scanned.evolves (h : Scanned t page e) (hev : e.Evolves (conduct true).shared t e') : Scanned t page e' := by
  refine ⟨?_, by rw [hev.pending]; exact h.bookings, by rw [hev.pending]; exact h.tickets, ?_, ?_⟩
  · rw [hev.pending]
    exact h.customers
  · rw [hev.seen]
    exact h.past.trans hev.log_le
  · rw [hev.seen, hev.version _ h.past]
    exact h.free

theorem Scanned.write {r : Customer} (h : Scanned t page e) (hi : i ∈ page) :
    Scanned t page (e.write t Table.customers i r) := by
  refine ⟨fun j hj => ?_, ?_, ?_, h.past, h.free⟩
  · by_cases hij : j = i
    · exact hij ▸ hi
    · rw [Engine.write_pending_row fun hc => hij hc.2] at hj
      exact h.customers j hj
  · rw [← h.bookings]
    exact Engine.write_beside (by decide)
  · rw [← h.tickets]
    exact Engine.write_beside (by decide)

theorem Scanned.unserved (h : Scanned t page e) (hL : e.Lawful (conduct true).shared)
    (hpending : e.pending t .customers i ≠ none) (halone : Unattached e (e.seen t) i) :
    Unserved (e.entry t).after i := by
  obtain ⟨hthen, hsince⟩ := halone
  rw [Engine.entry_after]
  refine ⟨fun k b hb => ?_, fun k a ha => ?_⟩
  · rw [Engine.view, Rows.over_none (by rw [h.bookings])] at hb
    exact hL.since_version h.past (fun j (b : Booking) hb => h.free i (h.customers i hpending) j b hb)
      (fun d hd j b hb => (hsince d hd j (hL.written_lt (List.mem_of_mem_drop hd) hb)).1 b hb) k b hb
  · rw [Engine.view, Rows.over_none (by rw [h.tickets])] at ha
    exact hL.since_version h.past (fun j (a : AlterationTicket) ha => hthen j (hL.version_lt h.past ha) a ha)
      (fun d hd j a ha _ => (hsince d hd j (hL.written_lt (List.mem_of_mem_drop hd) ha)).2 a ha) k a ha

def orphans (settings : Retention.Settings) (at_ : Int) (s : Snapshot schema) : List Nat :=
  Paging.page Customer.id (orphaned settings at_ (s.all .bookings)) CHUNK_SIZE (s.all .customers)

theorem scanned_look (h : e.Idle t) (hL : e.Lawful (conduct true).shared) :
    Scanned t (orphans settings at_ ⟨e.view t, e.next⟩) (e.look t) := by
  have hnone : ∀ T, e.pending t T = fun _ => none := fun T => by rw [h.pending]
  refine ⟨fun i hi => ?_, hnone _, hnone _, ?_, fun i hi k b hb => ?_⟩
  · exact absurd (by rw [Engine.look_pending, h.pending]) hi
  · rw [Engine.look_seen]
    exact Nat.le_refl _
  · rw [Engine.look_seen, Engine.look_version, Engine.version_length] at hb
    obtain ⟨c, -, horphan, rfl⟩ := Paging.mem_page hi
    have hmem : b ∈ (⟨e.view t, e.next⟩ : Snapshot schema).all Table.bookings :=
      Snapshot.mem_all.2 ⟨k, hL.committed_lt Table.bookings k b hb, by rw [h.view]; exact hb⟩
    have hfree := (of_decide_eq_true horphan).2.2
    simpa using List.all_eq_true.1 hfree b hmem

abbrev Anyhow {α : Type} : Except Err α → World schema outside → Prop := fun _ _ => True

theorem scrubCustomers_swept {k : Nat → Prg α} (h : w.db.Idle t)
    (hk : ∀ n w', w'.db.Idle t → (sweeping reqs).Ensures t (k n) Anyhow w') :
    (sweeping reqs).Ensures t (scrubCustomers settings at_ >>= k) Anyhow w := by
  refine ensures_tenantSession sweeping_historic fun w1 n hev _ _ => ?_
  have hidle : ({ w1.db with started := Function.update w1.db.started t n } : Engine schema).Idle t :=
    ⟨(hev.db.idle h).pending⟩
  refine ensures_select sweeping_historic fun w2 hev hL _ _ _ => ?_
  have hscanned : Scanned t (orphans settings at_ ⟨w2.db.view t, w2.db.next⟩) (w2.db.look t) :=
    scanned_look (hev.db.idle hidle) hL
  refine ensures_updateLeft (k := fun rs => (return rs.length : Prg Nat)) sweeping_historic
    (fun is (w : World schema outside) => Scanned t (orphans settings at_ ⟨w2.db.view t, w2.db.next⟩) w.db ∧
      ∀ i ∈ is, i ∈ orphans settings at_ ⟨w2.db.view t, w2.db.next⟩)
    (fun is w w' hev _ _ h => ⟨h.1.evolves hev.db, h.2⟩)
    (fun i is w h _ _ => ⟨h.1, fun j hj => h.2 j (List.mem_cons_of_mem i hj)⟩)
    (fun i is w v r h _ _ _ => ⟨h.1.write (h.2 i (List.mem_cons_self ..)), fun j hj => h.2 j (List.mem_cons_of_mem i hj)⟩)
    (fun _ _ _ _ _ _ => trivial) (fun rs w3 h => ?_) _ ⟨w2.db.look t, w2.out⟩ [] ⟨hscanned, fun _ hi => hi⟩
  intro w4 hev hL hI halone _
  have hscanned := h.1.evolves hev.db
  refine ⟨Ledger.inv_commit hI fun hscrubs i hi => ?_, hk _ _ (Engine.idle_commit _ t)⟩
  obtain ⟨r, hr⟩ := Option.ne_none_iff_exists'.1 hi
  exact hscanned.unserved hL hi (halone hscrubs i (hL.owned_lt t _ i r hr) hi)

theorem drainCustomers_swept :
    ∀ (n : Nat) (k : Nat → Prg α) (w : World schema outside), w.db.Idle t →
      (∀ n w', w'.db.Idle t → (sweeping reqs).Ensures t (k n) Anyhow w') →
      (sweeping reqs).Ensures t (drainCustomers settings at_ n >>= k) Anyhow w
  | 0, k, w, h, hk => hk 0 w h
  | n + 1, k, w, h, hk => by
    refine ensures_first (scrubCustomers_swept h fun count w' h' => ?_)
    split
    · exact hk count w' h'
    · exact ensures_first (drainCustomers_swept n _ w' h' fun rest w'' h'' => hk (count + rest) w'' h'')

theorem record_swept {k : Unit → Prg α} {action : AuditAction} (h : w.db.Idle t)
    (hk : ∀ w', w'.db.Idle t → (sweeping reqs).Ensures t (k ()) Anyhow w') :
    (sweeping reqs).Ensures t (tenantSession (fun _ => record none none action) >>= k) Anyhow w := by
  refine ensures_tenantSession sweeping_historic fun w1 n hev _ _ => ?_
  have hidle : ({ w1.db with started := Function.update w1.db.started t n } : Engine schema).Idle t :=
    ⟨(hev.db.idle h).pending⟩
  refine ensures_insert sweeping_historic (fun _ _ _ _ _ _ _ _ => trivial) fun w2 hev _ _ _ w3 hev' _ hI _ _ => ?_
  refine ⟨Ledger.inv_commit hI fun _ i hi => ?_, hk _ (Engine.idle_commit _ t)⟩
  refine absurd ?_ hi
  change w3.db.pending t .customers i = none
  rw [hev'.db.pending]
  refine (Engine.write_pending_row fun hc => by cases hc.1).trans ?_
  exact congrFun (congrFun (hev.db.idle hidle).pending _) _

theorem runRetention_swept (h : w.db.Idle t) : (sweeping reqs).Ensures t (runRetention settings) Anyhow w := by
  refine Session.ensures_now sweeping_historic fun w1 hev _ _ => ?_
  refine drainCustomers_swept MAX_CHUNKS _ w1 (hev.db.idle h) fun count w2 h2 => ?_
  split
  · trivial
  · exact record_swept h2 fun _ _ => trivial

/-! ## Whole runs -/

/-- **A retention run anonymises nobody who is being served**: in every run in which whom it scrubs has been left alone
since its SELECT, no booking and no live undelivered ticket points at her as the scrub commits. -/
theorem retention_spares (h : Shelved rows next)
    (hr : Conf.Steps (LeftAlone reqs) (serving settings reqs rows next clock) c) :
    ∀ d ∈ c.state.db.log, reqs d.by_ = .runRetention → ∀ i (r : Customer), d.writes .customers i = some r →
      Unserved d.after i := by
  have hsafe : ∀ t p, (serving settings reqs rows next clock).threads t = some p →
      (sweeping reqs).logic.Safe t p Anyhow (serving settings reqs rows next clock).state := by
    intro t p hp
    cases hp
    change (sweeping reqs).logic.Safe t ((reqs t).code settings) _ _
    cases hs : (reqs t).scrubs with
    | false =>
      refine (scrubbing reqs).safe_of_lawful (fun e _ _ hscrubs => ?_) fun _ _ => trivial
      rw [show (e.entry t).by_ = t from rfl, hs] at hscrubs
      cases hscrubs
    | true =>
      cases hq : reqs t with
      | runRetention => exact safe_of_ensures (runRetention_swept ⟨rfl⟩) fun _ _ _ _ _ _ _ => trivial
      | _ =>
        rw [hq] at hs
        cases hs
  obtain ⟨hsound, -⟩ := (sweeping reqs).runs (Q := fun _ => Anyhow)
    (serving_obeyed (S := true) h fun _ _ => rfl) (by simp [Ledger.contract, serving, staged, atRest]) hsafe hr
  intro d hd hrequest i r hr
  obtain ⟨m, hm⟩ := List.mem_iff_getElem?.1 hd
  exact hsound.inv.2 m d hm (by rw [hrequest]; rfl) i (by rw [hr]; exact Option.some_ne_none r)

/-! ## A gown in the atelier -/

/-- A customer of 99 days ago whom no booking points at, and whose gown may be in the atelier. -/
def walkedIn (tickets : List AlterationTicket) : (T : Table) → List (Row T)
  | .customers => [(⟨0, Boutique.day, none, "0501", "Noa", none, [], none, none, none, none⟩ : Customer)]
  | .tickets => tickets
  | _ => []

def gown : AlterationTicket := ⟨1, 90 * Boutique.day, none, 0, 120 * Boutique.day, 60, none, some (90 * Boutique.day), none⟩

/-- **A customer whose gown is in the atelier is anonymised**: the run never looks at the tickets. -/
theorem retention_disserves : ∃ c, (serving Retention.shipped (fun _ => .runRetention)
      (listed (S := schema) (walkedIn [gown])) 2 (100 * Boutique.day)).Reaches c ∧
    ∃ d ∈ c.state.db.log, ∃ r : Customer, d.writes .customers 0 = some r ∧ r.erasedAt = some (100 * Boutique.day) ∧
      ¬ Unserved d.after 0 := by
  obtain ⟨c, hc, hP⟩ := Conf.reached_freely
      (serving Retention.shipped (fun _ => .runRetention) (listed (S := schema) (walkedIn [gown])) 2 (100 * Boutique.day))
    (calls 0 5)
    (fun c => decide (∃ d ∈ c.state.db.log, (d.writes .customers 0).bind Customer.erasedAt = some (100 * Boutique.day) ∧
      d.after .tickets 1 = some gown)) (by decide)
  obtain ⟨d, hd, hscrubbed, hgown⟩ := of_decide_eq_true hP
  obtain ⟨r, hr, hr'⟩ := Option.bind_eq_some_iff.1 hscrubbed
  exact ⟨c, hc, d, hd, r, hr, hr', fun h => h.tickets 1 gown hgown (by decide) rfl⟩

theorem walkedIn_shelved : Shelved (listed (S := schema) (walkedIn [])) 1 :=
  shelved_of_stocked [.customers, .bookings, .tickets, .sessions, .auditLog] (fun T => by cases T <;> decide)
    (by decide)

/-- One with nothing in the atelier is anonymised, and nobody is serving her. -/
theorem retention_spares_once : ∃ c, Conf.Steps (LeftAlone fun _ => .runRetention) (serving Retention.shipped
      (fun _ => .runRetention) (listed (S := schema) (walkedIn [])) 1 (100 * Boutique.day)) c ∧
    ∃ d ∈ c.state.db.log, d.writes .customers 0 ≠ none ∧ Unserved d.after 0 := by
  obtain ⟨c, hc, hP⟩ := Conf.reached_of_play (A := LeftAlone fun _ => .runRetention)
    (serving Retention.shipped (fun _ => .runRetention) (listed (S := schema) (walkedIn [])) 1 (100 * Boutique.day))
    (calls 0 5)
    (fun c => decide (∃ d ∈ c.state.db.log, (d.writes .customers 0).isSome = true)) (by decide)
  obtain ⟨d, hd, hscrubbed⟩ := of_decide_eq_true hP
  obtain ⟨r, hr⟩ := Option.isSome_iff_exists.1 hscrubbed
  exact ⟨c, hc, d, hd, by rw [hr]; exact Option.some_ne_none r, retention_spares walkedIn_shelved hc d hd rfl 0 r hr⟩

end Subjects
