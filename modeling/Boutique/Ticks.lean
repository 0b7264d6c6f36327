import Boutique.Cascade
import Boutique.Picker
import Boutique.TxnSolo
/-!
# Ticks — what one tick of the cascade does to the waitlist

A single worker's tick: the offers that are due close, by what became of their texts, and the pairs that wait are offered
what the grid still has.  `Expires` is the first half, `Offering` one offer of the second.
-/
namespace Waitlist

open Txn Session

variable {A : Ask → Input → Prop} {t : Tid} {cfg : Config} {now : Int} {s s' s'' : Draft schema outside}

/-! ## What the expiry reads -/

def told (s : Snapshot schema) (entryId : Nat) : Bool :=
  (latestBy ScheduledMessage.createdAt ((s.all .messages).filter fun (m : ScheduledMessage) =>
    m.subject = .entry entryId ∧ m.deletedAt = none)).any fun m => m.status = .sent

def ScheduledMessage.refused (m : ScheduledMessage) (entryId : Nat) : Bool :=
  m.subject = .entry entryId ∧ m.status = .failed ∧ m.deletedAt = none

def refusals (s : Snapshot schema) (entryId : Nat) : Nat :=
  ((s.all .messages).filter fun (m : ScheduledMessage) => m.refused entryId).length

def spent (s : Snapshot schema) (entryId : Nat) : Bool :=
  told s entryId || MAX_OFFER_SEND_FAILURES ≤ refusals s entryId

def dueIds (now : Int) (s : Snapshot schema) : List Nat :=
  ((((s.all .entries).filter fun (w : WaitlistEntry) => w.offered ∧ w.offerExpiresAt.any (· ≤ now)).insertionSort
    fun (w w' : WaitlistEntry) => w.offerExpiresAt.getD 0 ≤ w'.offerExpiresAt.getD 0).take EXPIRY_BATCH_SIZE).map
      WaitlistEntry.id

structure Splits (s : Snapshot schema) (due : List Nat) (d d' : WaitlistCascade.Due) : Prop where
  gone : ∀ i, i ∈ d'.sent ++ d'.undeliverable ↔ i ∈ d.sent ++ d.undeliverable ∨ i ∈ due ∧ spent s i = true
  back : ∀ i, i ∈ d'.unsent ↔ i ∈ d.unsent ∨ i ∈ due ∧ spent s i = false

variable {i : Nat} {d : WaitlistCascade.Due} {c : Closing} {w v r : WaitlistEntry} {done : List Nat}
  {m : ScheduledMessage} {Q : Except Err CascadeResult → Draft schema outside → Prop} {pair : Int × Nat} {day : Int}
  {s₁ : Draft schema outside} {rest : List (Int × Nat)}

theorem Splits.cons {due : List Nat} {d1 d' : WaitlistCascade.Due} (h : Splits s.snapshot due d1 d')
    (hgone : ∀ j, j ∈ d1.sent ++ d1.undeliverable ↔ j ∈ d.sent ++ d.undeliverable ∨ j = i ∧ spent s.snapshot j = true)
    (hback : ∀ j, j ∈ d1.unsent ↔ j ∈ d.unsent ∨ j = i ∧ spent s.snapshot j = false) :
    Splits s.snapshot (i :: due) d d' where
  gone j := by rw [h.gone, hgone, List.mem_cons, or_assoc, ← or_and_right]
  back j := by rw [h.back, hback, List.mem_cons, or_assoc, ← or_and_right]

theorem splitDue_rule {due : List WaitlistEntry} {Q : Except Err WaitlistCascade.Due → Draft schema outside → Prop}
    (hok : ∀ d', Splits s.snapshot (due.map WaitlistEntry.id) d d' → Q (.ok d') s) :
    (WaitlistCascade.splitDue due d).wp (drafts A t) Q s := by
  induction due generalizing d with
  | nil => exact hok d ⟨fun i => by simp, fun i => by simp⟩
  | cons entry due ih =>
    refine drafts_select (drafts_ite (fun htold => ?_) fun htold => ?_)
    · have htold : told s.snapshot entry.id = true := htold
      have hspent : spent s.snapshot entry.id = true := by rw [spent, htold, Bool.true_or]
      refine ih fun d' h => hok d' (h.cons (fun j => ?_) fun j => ?_)
      · simp only [List.mem_append, List.mem_singleton]
        grind
      · grind
    have htold : told s.snapshot entry.id = false := Bool.eq_false_of_not_eq_true htold
    refine drafts_select (drafts_ite (fun hfailed => ?_) fun hfailed => ?_)
    · have hspent : spent s.snapshot entry.id = true := by
        rw [spent, htold, Bool.false_or]
        exact decide_eq_true hfailed
      refine ih fun d' h => hok d' (h.cons (fun j => ?_) fun j => ?_)
      · simp only [List.mem_append, List.mem_singleton]
        grind
      · grind
    · have hspent : spent s.snapshot entry.id = false := by
        rw [spent, htold, Bool.false_or]
        exact decide_eq_false hfailed
      refine ih fun d' h => hok d' (h.cons (fun j => ?_) fun j => ?_)
      · grind
      · simp only [List.mem_append, List.mem_singleton]
        grind

/-! ## Offers closed -/

def closedAs : Closing → WaitlistEntry → WaitlistEntry
  | .expired, w => { w with status := .expired, offerExpiresAt := none }
  | .waiting, w => { w with status := .waiting, offerExpiresAt := none, offerTokenHash := none, offerStartsAt := none }

def swept (c : Closing) (w : WaitlistEntry) : WaitlistEntry := if w.offered then closedAs c w else w

theorem apply_close : EntryChange.apply w (.closeOffer c) = if w.offered then some (closedAs c w) else none := by
  cases c <;> rfl

theorem closedAs_offered : (closedAs c w).offered = false := by
  cases c <;> simp [closedAs, WaitlistEntry.offered]

theorem swept_offered : (swept c w).offered = false := by
  unfold swept
  split
  · exact closedAs_offered
  · rename_i h
    exact Bool.eq_false_of_not_eq_true h

structure Closes (c : Closing) (is : List Nat) (s s' : Draft schema outside) : Prop where
  base : s'.base = s.base
  next : s'.next = s.next
  entries : ∀ i, s'.rows .entries i =
    if i ∈ is then (s.rows .entries i).map (swept c : WaitlistEntry → WaitlistEntry) else s.rows .entries i
  others : ∀ T, T ≠ .entries → s'.rows T = s.rows T

theorem Closes.cons (h : Closes c done s s') (hnext : s''.next = s'.next) (hbase : s''.base = s'.base)
    (hothers : ∀ T, T ≠ .entries → s''.rows T = s'.rows T)
    (hself : i ∉ done → s''.rows .entries i = (s.rows .entries i).map (swept c : WaitlistEntry → WaitlistEntry))
    (hdone : i ∈ done → s''.rows .entries i = s'.rows .entries i)
    (hrows : ∀ j, j ≠ i → s''.rows .entries j = s'.rows .entries j) : Closes c (i :: done) s s'' where
  base := hbase.trans h.base
  next := hnext.trans h.next
  entries j := by
    by_cases hji : j = i
    · subst hji
      rw [if_pos List.mem_cons_self]
      by_cases hj : j ∈ done
      · rw [hdone hj, h.entries, if_pos hj]
      · exact hself hj
    · rw [hrows j hji, h.entries]
      simp only [List.mem_cons, hji, false_or]
  others T hT := (hothers T hT).trans (h.others T hT)

theorem Closes.skip (h : Closes c done s s')
    (hnone : (s'.rows .entries i).bind (schema.apply .entries (.closeOffer c : EntryChange)) = none) :
    Closes c (i :: done) s s' := by
  refine h.cons rfl rfl (fun _ _ => rfl) (fun hi => ?_) (fun _ => rfl) fun _ _ => rfl
  have hrow : s'.rows .entries i = s.rows .entries i := by rw [h.entries, if_neg hi]
  rw [hrow] at hnone ⊢
  cases hv : s.rows .entries i with
  | none => rfl
  | some v =>
    rw [hv] at hnone
    have hnone : EntryChange.apply v (.closeOffer c) = none := hnone
    rw [apply_close] at hnone
    have hoffered : v.offered = false := by
      by_contra hyes
      simp [hyes] at hnone
    simp [swept, hoffered]

theorem Closes.write (h : Closes c done s s') (hv : s'.rows .entries i = some v)
    (hr : EntryChange.apply v (.closeOffer c) = some r) : Closes c (i :: done) s (s'.write .entries i r) := by
  rw [apply_close] at hr
  split at hr
  · rename_i hoffered
    cases hr
    refine h.cons rfl rfl (fun T hT => Draft.write_table hT) (fun hi => ?_) (fun hi => ?_)
      fun j hj => Draft.write_row hj
    · have hrow : s.rows .entries i = some v := by rw [← hv, h.entries, if_neg hi]
      rw [hrow, Draft.write_same]
      simp [swept, hoffered]
    · rw [h.entries, if_pos hi] at hv
      obtain ⟨w, -, rfl⟩ := Option.map_eq_some_iff.1 hv
      rw [swept_offered] at hoffered
      cases hoffered
  · cases hr

theorem closeOffer_rule {is : List Nat} {Q : Except Err (List Nat) → Draft schema outside → Prop} (hs : s.Sound)
    (herr : ∀ e s', s'.base = s.base → Q (.error e) s')
    (hok : ∀ closed s', Closes c is s s' → s'.Sound → Q (.ok closed) s') :
    (Entries.closeOffer is c).wp (drafts A t) Q s := by
  refine drafts_updateEach (fun done s' => Closes c done s s') [] ⟨rfl, rfl, fun i => by simp, fun _ _ => rfl⟩ hs
    (fun done i s' h hn => h.skip hn) (fun done i s' v r h hv hr => h.write hv hr) (fun _ _ s' _ _ h _ _ _ _ => herr _ s' h.base) ?_
  intro rs done s' h hdone hs'
  refine hok _ s' ⟨h.base, h.next, fun i => ?_, h.others⟩ hs'
  simp only [h.entries, hdone, List.not_mem_nil, or_false]

/-! ## Texts withdrawn -/

def withdrawn (m : ScheduledMessage) : ScheduledMessage := { m with status := .cancelled, manageToken := none }

theorem withdrawn_pending : (withdrawn m).pending = false := by
  simp [withdrawn, ScheduledMessage.pending]

structure Hushes (s s' : Draft schema outside) : Prop where
  base : s'.base = s.base
  next : s'.next = s.next
  messages : ∀ j, s'.rows .messages j = s.rows .messages j ∨
    ∃ m : ScheduledMessage, s.rows .messages j = some m ∧ m.pending = true ∧ s'.rows .messages j = some (withdrawn m)
  others : ∀ T, T ≠ .messages → s'.rows T = s.rows T

theorem Hushes.refl (s : Draft schema outside) : Hushes s s := ⟨rfl, rfl, fun _ => .inl rfl, fun _ _ => rfl⟩

theorem Hushes.trans (h : Hushes s s') (h' : Hushes s' s'') : Hushes s s'' where
  base := h'.base.trans h.base
  next := h'.next.trans h.next
  messages j := by
    rcases h'.messages j with hsame | ⟨m, hm, hpending, hr⟩
    · rw [hsame]
      exact h.messages j
    · rcases h.messages j with hsame | ⟨m', -, -, hr'⟩
      · exact .inr ⟨m, hsame ▸ hm, hpending, hr⟩
      · rw [hr'] at hm
        obtain rfl := Option.some.inj hm
        rw [withdrawn_pending] at hpending
        cases hpending
  others T hT := (h'.others T hT).trans (h.others T hT)

theorem hushes_write {entryId : Nat} {v r : ScheduledMessage} (hv : s.rows .messages i = some v)
    (hr : MessageChange.apply v (.cancelPendingForEntry entryId) = some r) : Hushes s (s.write .messages i r) where
  base := rfl
  next := rfl
  messages j := by
    by_cases hji : j = i
    · subst hji
      simp only [MessageChange.apply] at hr
      split at hr
      · rename_i hc
        exact .inr ⟨v, hv, hc.1, by rw [Draft.write_same]; exact hr.symm⟩
      · cases hr
    · exact .inl (Draft.write_row hji)
  others T hT := Draft.write_table hT

theorem cancelEach_rule {is : List Nat} {Q : Except Err Unit → Draft schema outside → Prop} (hs : s.Sound)
    (herr : ∀ e s', s'.base = s.base → Q (.error e) s') (hok : ∀ s', Hushes s s' → s'.Sound → Q (.ok ()) s') :
    (WaitlistCascade.cancelEach is).wp (drafts A t) Q s := by
  induction is generalizing s with
  | nil => exact hok s (.refl s) hs
  | cons i is ih =>
    refine drafts_bind (drafts_select (drafts_updateEach (fun _ s' => Hushes s s') [] (.refl s) hs
      (fun _ _ _ h _ => h) (fun _ _ _ v r h hv hr => h.trans (hushes_write hv hr)) (fun _ _ s' _ _ h _ _ _ _ => herr _ s' h.base) ?_))
    intro rs done s' h hdone hs'
    exact ih hs' (fun e s'' hbase => herr e s'' (hbase.trans h.base)) fun s'' h' hs'' => hok s'' (h.trans h') hs''

/-! ## The expiry -/

def closing (s : Snapshot schema) (entryId : Nat) : Closing := if spent s entryId then .expired else .waiting

/-- **The expiry**: the page of due offers closes, each by what became of its texts; theirs that wait are withdrawn. -/
structure Expires (now : Int) (s s' : Draft schema outside) : Prop where
  base : s'.base = s.base
  next : s'.next = s.next
  entries : ∀ i, s'.rows .entries i =
    if i ∈ dueIds now s.snapshot then
      (s.rows .entries i).map (swept (closing s.snapshot i) : WaitlistEntry → WaitlistEntry)
    else s.rows .entries i
  messages : ∀ j, s'.rows .messages j = s.rows .messages j ∨
    ∃ m : ScheduledMessage, s.rows .messages j = some m ∧ m.pending = true ∧ s'.rows .messages j = some (withdrawn m)
  others : ∀ T, T ≠ .entries → T ≠ .messages → s'.rows T = s.rows T

theorem expire_rule (hs : s.Sound) (herr : ∀ e s', s'.base = s.base → Q (.error e) s')
    (hok : ∀ r s', Expires now s s' → s'.Sound → Q (.ok r) s') :
    (WaitlistCascade.expire now).wp (drafts A t) Q s := by
  refine drafts_select (drafts_bind (splitDue_rule fun d hsplit => ?_))
  refine drafts_bind (closeOffer_rule hs herr fun _ s₁ h1 hs1 => ?_)
  refine drafts_bind (closeOffer_rule hs1 (fun e s' hbase => herr e s' (hbase.trans h1.base)) fun _ s2 h2 hs2 => ?_)
  have hbase2 : s2.base = s.base := h2.base.trans h1.base
  refine drafts_bind (cancelEach_rule hs2 (fun e s' hbase => herr e s' (hbase.trans hbase2)) fun s3 h3 hs3 => ?_)
  refine hok _ s3 ⟨h3.base.trans hbase2, h3.next.trans (h2.next.trans h1.next), fun i => ?_, fun j => ?_, fun T he hm => ?_⟩ hs3
  · have hgone : i ∈ d.sent ++ d.undeliverable ↔ i ∈ dueIds now s.snapshot ∧ spent s.snapshot i = true :=
      (hsplit.gone i).trans (by simp only [List.append_nil, List.not_mem_nil, false_or]; rfl)
    have hback : i ∈ d.unsent ↔ i ∈ dueIds now s.snapshot ∧ spent s.snapshot i = false :=
      (hsplit.back i).trans (by simp only [List.not_mem_nil, false_or]; rfl)
    rw [h3.others .entries (by decide), h2.entries, h1.entries]
    by_cases hdue : i ∈ dueIds now s.snapshot
    · cases hspent : spent s.snapshot i with
      | true => simp [hgone, hback, hdue, hspent, closing]
      | false => simp [hgone, hback, hdue, hspent, closing]
    · simp [hgone, hback, hdue]
  · rw [← h1.others .messages (by decide), ← h2.others .messages (by decide)]
    exact h3.messages j
  · rw [h3.others T hm, h2.others T he, h1.others T he]

/-! ## One offer -/

def seatsTaken (s : Snapshot schema) (from_ upTo : Int) (x : Int) : Nat :=
  ((s.all .bookings).filter fun (b : Booking) => b.live ∧ b.startsAt = x ∧ from_ ≤ x ∧ x < upTo).length

/-- **The grid of a day**, from the rules and the day's exceptions as they stand. -/
def gridOf (cfg : Config) (rules : List Boutique.AvailabilityRule) (exceptions : Int → List Boutique.AvailabilityException)
    (now day : Int) (s : Snapshot schema) : List Boutique.Slot :=
  Boutique.materializeSlots cfg.zone rules (exceptions day)
    (seatsTaken s (cfg.zone.midnight day) (cfg.zone.midnight (day + 1))) day day now

def WaitlistEntry.names (w : WaitlistEntry) (day x : Int) : Bool := w.offered ∧ w.day = day ∧ w.offerStartsAt = some x

def offersAt (s : Snapshot schema) (day x : Int) : Nat :=
  (s.all .entries).countP fun (w : WaitlistEntry) => w.names day x

def oldestOf (s : Snapshot schema) (pair : Int × Nat) : Option WaitlistEntry :=
  earliestBy WaitlistEntry.createdAt ((s.all .entries).filter fun (w : WaitlistEntry) => w.waiting ∧ w.pair = pair)

def offeredAs (v : WaitlistEntry) (now startsAt expiresAt : Int) (token : Nat) : WaitlistEntry :=
  { v with
    status := .offered
    offeredAt := some now
    offerStartsAt := some startsAt
    offerExpiresAt := some expiresAt
    offerTokenHash := some (manageTokenHash token) }

variable {rules : List Boutique.AvailabilityRule} {exceptions : Int → List Boutique.AvailabilityException}

/-- **One offer of the tick**: to the oldest of the queue, of a seat of the day's grid that no offer names yet. -/
structure Offering (cfg : Config) (rules : List Boutique.AvailabilityRule)
    (exceptions : Int → List Boutique.AvailabilityException) (now : Int) (pair : Int × Nat) (v r : WaitlistEntry)
    (s s' : Draft schema outside) : Prop where
  oldest : oldestOf s.snapshot pair = some v
  row : ∃ slot ∈ gridOf cfg rules exceptions now pair.1 s.snapshot,
    offersAt s.snapshot pair.1 slot.startsAt < slot.capacity - slot.booked ∧
      ∃ expiresAt, offerExpiry cfg now slot.startsAt = some expiresAt ∧
        ∃ token, r = offeredAs v now slot.startsAt expiresAt token
  base : s'.base = s.base
  next : s.next ≤ s'.next
  entries : s'.rows .entries = (s.rows.set .entries v.id r) .entries
  bookings : s'.rows .bookings = s.rows .bookings
  messages : ∀ j (m : ScheduledMessage), s.rows .messages j = some m → s'.rows .messages j = some m
  queued : ∀ j (m : ScheduledMessage), s'.rows .messages j = some m → s.rows .messages j = some m ∨ m.status = .pending

theorem apply_offer_iff {startsAt expiresAt : Int} {token : Nat} :
    EntryChange.apply v (.offer now startsAt expiresAt (manageTokenHash token)) =
      if v.waiting then some (offeredAs v now startsAt expiresAt token) else none := rfl

theorem oldestOf_mem {s : Snapshot schema} (h : oldestOf s pair = some v) :
    v ∈ s.all .entries ∧ v.waiting = true ∧ v.pair = pair := by
  obtain ⟨hin, hwaits⟩ := List.mem_filter.1 (earliestBy_mem h)
  exact ⟨hin, of_decide_eq_true hwaits⟩

theorem count_instants {l : List WaitlistEntry} {x : Int} :
    ((l.filter fun w => w.day = day ∧ w.offered).filterMap WaitlistEntry.offerStartsAt).count x =
      l.countP fun w => w.names day x := by
  rw [List.count, List.countP_filterMap, List.countP_filter]
  refine List.countP_congr fun w _ => ?_
  cases hx : w.offerStartsAt with
  | none => simp [WaitlistEntry.names, hx]
  | some y =>
    simp only [WaitlistEntry.names, hx, Bool.and_eq_true, decide_eq_true_eq, Option.some.injEq, Option.map_some,
      Option.getD_some, beq_iff_eq]
    tauto

theorem offerable_some {held : List Int} {slots : List Boutique.Slot} {startsAt expiresAt : Int}
    (h : WaitlistCascade.offerable cfg now held slots = some (startsAt, expiresAt)) :
    ∃ slot ∈ slots, slot.startsAt = startsAt ∧ held.count startsAt < slot.capacity - slot.booked ∧
      offerExpiry cfg now startsAt = some expiresAt := by
  obtain ⟨slot, hin, hslot⟩ := List.exists_of_findSome?_eq_some h
  split at hslot
  · cases hslot
  · rename_i hfree
    obtain ⟨y, hy, heq⟩ := Option.map_eq_some_iff.1 hslot
    cases heq
    exact ⟨slot, hin, rfl, Nat.lt_of_not_le hfree, hy⟩

theorem daySlots_rule {β : Type} {k : List Boutique.Slot → Prg β} {Q : Except Err β → Draft schema outside → Prop}
    (hrules : ∀ i, A .listActiveRules i → i.rules = rules)
    (hexceptions : ∀ day i, A (.listActiveExceptions day) i → i.exceptions = exceptions day)
    (h : (k (gridOf cfg rules exceptions now day s.snapshot)).wp (drafts A t) Q s) :
    (daySlots cfg day now >>= k).wp (drafts A t) Q s := by
  refine drafts_bind (drafts_ask (V := outside) (q := Ask.listActiveRules) fun i hi => ?_)
  refine drafts_ask (V := outside) (q := Ask.listActiveExceptions day) fun i' hi' => ?_
  rw [gridOf, ← hrules i hi, ← hexceptions day i' hi'] at h
  exact drafts_select h

theorem unlessRefused_rule {β : Type} {T : Table} {r : Row T} {k : Option (Row T) → Prg β}
    {Q : Except Err β → Draft schema outside → Prop} (hrefused : (k none).wp (drafts A t) Q s.grown)
    (hsome : (s.grown.write T s.next (s.stamped T r)).Sound →
      (k (some (s.stamped T r))).wp (drafts A t) Q (s.grown.write T s.next (s.stamped T r))) :
    (unlessRefused (insert T r) >>= k).wp (drafts A t) Q s :=
  ⟨fun _ => hrefused, fun _ hw => hsome hw⟩

section Written

variable {pair : Int × Nat} {v r : WaitlistEntry} (holdest : oldestOf s.snapshot pair = some v)
  (hrow : ∃ slot ∈ gridOf cfg rules exceptions now pair.1 s.snapshot,
    offersAt s.snapshot pair.1 slot.startsAt < slot.capacity - slot.booked ∧
      ∃ expiresAt, offerExpiry cfg now slot.startsAt = some expiresAt ∧
        ∃ token, r = offeredAs v now slot.startsAt expiresAt token)
  (hbase : s'.base = s.base) (hnext : s.next ≤ s'.next)

include holdest hrow hbase hnext

theorem offering_unqueued (hrows : s'.rows = s.rows.set .entries v.id r) :
    Offering cfg rules exceptions now pair v r s s' := by
  have hother : ∀ T, T ≠ .entries → s'.rows T = s.rows T := fun T hT => by rw [hrows, Rows.set_table hT]
  refine ⟨holdest, hrow, hbase, hnext, by rw [hrows], hother _ (by decide), fun j m hm => ?_, fun j m hm => .inl ?_⟩
  · rwa [hother _ (by decide)]
  · rwa [hother _ (by decide)] at hm

theorem offering_queued (hs : s.Sound) (hrows : s'.rows = (s.rows.set .entries v.id r).set .messages s.next m)
    (hm : m.status = .pending) : Offering cfg rules exceptions now pair v r s s' := by
  refine ⟨holdest, hrow, hbase, hnext, by rw [hrows, Rows.set_table (by decide)], ?_, fun j m' hm' => ?_, fun j m' hm' => ?_⟩
  · rw [hrows, Rows.set_table (by decide), Rows.set_table (by decide)]
  · have hne : j ≠ s.next := Nat.ne_of_lt (hs.rows.lt .messages j m' hm')
    rw [hrows, Rows.set_row hne, Rows.set_table (by decide)]
    exact hm'
  · by_cases hj : j = s.next
    · subst hj
      rw [hrows, Rows.set_same] at hm'
      obtain rfl := Option.some.inj hm'
      exact .inr hm
    · rw [hrows, Rows.set_row hj, Rows.set_table (by decide)] at hm'
      exact .inl hm'

end Written

theorem offerOne_rule {Q : Except Err Bool → Draft schema outside → Prop} (hs : s.Sound)
    (hrules : ∀ i, A .listActiveRules i → i.rules = rules)
    (hexceptions : ∀ day i, A (.listActiveExceptions day) i → i.exceptions = exceptions day)
    (herr : ∀ e s', s'.base = s.base → Q (.error e) s') (hnone : Q (.ok false) s)
    (hoffer : ∀ made v r s', Offering cfg rules exceptions now pair v r s s' → s'.Sound → Q (.ok made) s') :
    (WaitlistCascade.offerOne cfg now pair).wp (drafts A t) Q s := by
  refine drafts_select ?_
  generalize holdest : earliestBy WaitlistEntry.createdAt _ = found
  have holdest : oldestOf s.snapshot pair = found := holdest
  cases found with
  | none => exact hnone
  | some v =>
    obtain ⟨hin, hwaiting, hpair⟩ := oldestOf_mem holdest
    obtain ⟨i, -, hi⟩ := Snapshot.mem_all.1 hin
    have hid : v.id = i := hs.rows.consistent.id .entries i v hi
    have hv : s.rows .entries v.id = some v := hid ▸ hi
    refine daySlots_rule hrules hexceptions (drafts_select ?_)
    generalize hslot : WaitlistCascade.offerable cfg now _ _ = slot
    cases slot with
    | none => exact hnone
    | some o =>
      obtain ⟨startsAt, expiresAt⟩ := o
      obtain ⟨slot, hgrid, rfl, hfree, hexpiry⟩ := offerable_some hslot
      rw [count_instants] at hfree
      refine drafts_ask (V := outside) (q := Ask.mintManageToken) fun a _ => ?_
      refine drafts_bind (drafts_update (fun hmissed => ?_) (herr _ _ rfl) fun v' r hv' hr hw => ?_)
      · have hmissed : (s.rows .entries v.id).bind (schema.apply .entries _) = none := hmissed
        rw [hv] at hmissed
        have hmissed : EntryChange.apply v (.offer now slot.startsAt expiresAt (manageTokenHash a.number)) = none := hmissed
        rw [apply_offer_iff, if_pos hwaiting] at hmissed
        cases hmissed
      obtain rfl : v = v' := Option.some.inj (hv.symm.trans hv')
      have hr : EntryChange.apply v (.offer now slot.startsAt expiresAt (manageTokenHash a.number)) = some r := hr
      rw [apply_offer_iff, if_pos hwaiting] at hr
      have hrow : ∃ slot ∈ gridOf cfg rules exceptions now pair.1 s.snapshot,
          offersAt s.snapshot pair.1 slot.startsAt < slot.capacity - slot.booked ∧
            ∃ expiresAt, offerExpiry cfg now slot.startsAt = some expiresAt ∧
              ∃ token, r = offeredAs v now slot.startsAt expiresAt token :=
        ⟨slot, hgrid, hfree, expiresAt, hexpiry, _, (Option.some.inj hr).symm⟩
      refine drafts_bind (unlessRefused_rule ?_ fun hw' => ?_)
      · exact hoffer _ v r _ (offering_unqueued holdest hrow rfl (Nat.le_succ _) rfl) hw.grown
      · exact hoffer _ v r _ (offering_queued holdest hrow rfl (Nat.le_succ _) hs rfl rfl) hw'

/-! ## The walk of the pairs -/

/-- **An offer of the tick**: to the oldest that waited in the queue, of a seat the grid has, by an instant that is to come. -/
structure Fresh (cfg : Config) (rules : List Boutique.AvailabilityRule)
    (exceptions : Int → List Boutique.AvailabilityException) (now : Int) (s₁ s : Draft schema outside) (v r : WaitlistEntry) : Prop where
  waited : v.waiting = true
  oldest : ∀ j (w : WaitlistEntry), s₁.rows .entries j = some w → w.waiting = true → w.pair = v.pair → v.createdAt ≤ w.createdAt
  row : ∃ slot ∈ gridOf cfg rules exceptions now v.day s₁.snapshot,
    offersAt s.snapshot v.day slot.startsAt ≤ slot.capacity - slot.booked ∧
      ∃ expiresAt, offerExpiry cfg now slot.startsAt = some expiresAt ∧
        ∃ token, r = offeredAs v now slot.startsAt expiresAt token

/-- **The walk so far**, from the draft `s₁` that the expiry left; `rest` are the pairs to come. -/
structure Issuing (cfg : Config) (rules : List Boutique.AvailabilityRule)
    (exceptions : Int → List Boutique.AvailabilityException) (now : Int)
    (s₁ : Draft schema outside) (rest : List (Int × Nat)) (s : Draft schema outside) : Prop where
  base : s.base = s₁.base
  next : s₁.next ≤ s.next
  bookings : s.rows .bookings = s₁.rows .bookings
  entries : ∀ i, s.rows .entries i = s₁.rows .entries i ∨ ∃ v r : WaitlistEntry, s₁.rows .entries i = some v ∧
    s.rows .entries i = some r ∧ v.pair ∉ rest ∧ Fresh cfg rules exceptions now s₁ s v r
  messages : ∀ j (m : ScheduledMessage), s₁.rows .messages j = some m → s.rows .messages j = some m
  queued : ∀ j (m : ScheduledMessage), s.rows .messages j = some m → s₁.rows .messages j = some m ∨ m.status = .pending

theorem issuing_start (s₁ : Draft schema outside) (rest : List (Int × Nat)) :
    Issuing cfg rules exceptions now s₁ rest s₁ :=
  ⟨rfl, Nat.le_refl _, rfl, fun _ => .inl rfl, fun _ _ h => h, fun _ _ h => .inl h⟩

theorem gridOf_grown (hs : s.Sound) (hbookings : s'.rows .bookings = s.rows .bookings) (hnext : s.next ≤ s'.next) :
    gridOf cfg rules exceptions now day s'.snapshot = gridOf cfg rules exceptions now day s.snapshot := by
  have htaken : ∀ a b, seatsTaken s'.snapshot a b = seatsTaken s.snapshot a b := fun a b => by
    funext x
    rw [seatsTaken, seatsTaken, show s'.snapshot.all .bookings = s.snapshot.all .bookings from
      Snapshot.all_grown hbookings hnext (hs.rows.lt .bookings)]
  rw [gridOf, gridOf, htaken]

theorem Offering.count (h : Offering cfg rules exceptions now pair v r s s') (hs : s.Sound) (day x : Int) :
    offersAt s'.snapshot day x =
      offersAt s.snapshot day x + if v.day = day ∧ r.offerStartsAt = some x then 1 else 0 := by
  obtain ⟨hin, hwaiting, -⟩ := oldestOf_mem h.oldest
  obtain ⟨i, hlt, hi⟩ := Snapshot.mem_all.1 hin
  have hid : v.id = i := hs.rows.consistent.id .entries i v hi
  subst hid
  have hall : s'.snapshot.all .entries = (⟨s.rows.set .entries v.id r, s.next⟩ : Snapshot schema).all .entries := by
    refine Snapshot.all_grown h.entries h.next fun j w hw => ?_
    by_cases hj : j = v.id
    · exact hj ▸ hlt
    · exact hs.rows.lt .entries j w ((Rows.set_row hj).symm.trans hw)
  have hrow : s.rows .entries v.id = some v := hi
  have hcount := Snapshot.countP_set (S := schema) (T := .entries) r (fun (w : WaitlistEntry) => w.names day x) hrow hlt
  have hbefore : v.names day x = false := by
    simp [WaitlistEntry.names, WaitlistEntry.offered, waiting_status hwaiting]
  have hlive : v.deletedAt = none := by
    simp [WaitlistEntry.waiting] at hwaiting
    exact hwaiting.1
  have hafter : r.names day x = decide (v.day = day ∧ r.offerStartsAt = some x) := by
    obtain ⟨slot, -, -, expiresAt, -, token, rfl⟩ := h.row
    simp [WaitlistEntry.names, WaitlistEntry.offered, offeredAs, hlive]
  rw [hbefore, hafter] at hcount
  simp only [Bool.false_eq_true, if_false, Nat.add_zero, decide_eq_true_eq] at hcount
  rw [offersAt, hall]
  exact hcount

theorem oldestOf_le {s : Snapshot schema} (h : oldestOf s pair = some v) (hin : w ∈ s.all .entries)
    (hw : w.waiting = true) (hpair : w.pair = pair) : v.createdAt ≤ w.createdAt := by
  have hmem : w ∈ (s.all .entries).filter fun (w : WaitlistEntry) => w.waiting ∧ w.pair = pair :=
    List.mem_filter.2 ⟨hin, decide_eq_true ⟨hw, hpair⟩⟩
  exact earliestBy_le h hmem

theorem offeredAs_waiting {x y : Int} {token : Nat} : (offeredAs v now x y token).waiting = false := by
  simp [offeredAs, WaitlistEntry.waiting]

theorem Fresh.waiting (h : Fresh cfg rules exceptions now s₁ s v r) : r.waiting = false := by
  obtain ⟨slot, -, -, expiresAt, -, token, rfl⟩ := h.row
  exact offeredAs_waiting

theorem gridOf_unique {s : Snapshot schema} {slot slot' : Boutique.Slot}
    (h : slot ∈ gridOf cfg rules exceptions now day s) (h' : slot' ∈ gridOf cfg rules exceptions now day s)
    (hat : slot.startsAt = slot'.startsAt) : slot = slot' := by
  have h := Boutique.mem_materializeSlots.1 h
  have h' := Boutique.mem_materializeSlots.1 h'
  rw [hat] at h
  exact Option.some.inj (h.symm.trans h')

theorem Issuing.skip {p : Int × Nat} (h : Issuing cfg rules exceptions now s₁ (p :: rest) s) :
    Issuing cfg rules exceptions now s₁ rest s := by
  refine ⟨h.base, h.next, h.bookings, fun i => ?_, h.messages, h.queued⟩
  rcases h.entries i with hsame | ⟨v, r, hv, hr, hpair, hfresh⟩
  · exact .inl hsame
  · exact .inr ⟨v, r, hv, hr, fun hin => hpair (List.mem_cons_of_mem _ hin), hfresh⟩

theorem Issuing.step {p : Int × Nat} (h : Issuing cfg rules exceptions now s₁ (p :: rest) s)
    (ho : Offering cfg rules exceptions now p v r s s') (hs1 : s₁.Sound) (hs : s.Sound) (hnot : p ∉ rest) :
    Issuing cfg rules exceptions now s₁ rest s' := by
  obtain ⟨hin, hwaiting, hpair⟩ := oldestOf_mem ho.oldest
  obtain ⟨i, hlt, hi⟩ := Snapshot.mem_all.1 hin
  have hid : v.id = i := hs.rows.consistent.id .entries i v hi
  subst hid
  have hv : s.rows .entries v.id = some v := hi
  have hgrid : ∀ day, gridOf cfg rules exceptions now day s.snapshot = gridOf cfg rules exceptions now day s₁.snapshot :=
    fun day => gridOf_grown hs1 h.bookings h.next
  obtain ⟨slot, hslot, hfree, expiresAt, hexpiry, token, hrow⟩ := ho.row
  have hday : p.1 = v.day := by rw [← hpair]; rfl
  rw [hgrid, hday] at hslot
  rw [hday] at hfree
  have hnamed : r.offerStartsAt = some slot.startsAt := by rw [hrow]; rfl
  -- the entry offered waited when the walk began, as did every other of its queue
  have hwaited : ∀ j (w : WaitlistEntry), s₁.rows .entries j = some w → w.pair = p → s.rows .entries j = some w := by
    intro j w hw hwp
    rcases h.entries j with hsame | ⟨v', -, hv', -, hpair', -⟩
    · rwa [hsame]
    · obtain rfl := Option.some.inj (hw.symm.trans hv')
      exact absurd (hwp ▸ List.mem_cons_self) hpair'
  refine ⟨ho.base.trans h.base, Nat.le_trans h.next ho.next, ho.bookings.trans h.bookings, fun j => ?_,
    fun j m hm => ho.messages j m (h.messages j m hm), fun j m hm => ?_⟩
  · by_cases hj : j = v.id
    · subst hj
      have hv1 : s₁.rows .entries v.id = some v := by
        rcases h.entries v.id with hsame | ⟨v', r', -, hr', -, hfresh⟩
        · rw [← hsame, hv]
        · obtain rfl := Option.some.inj (hv.symm.trans hr')
          rw [hfresh.waiting] at hwaiting
          cases hwaiting
      refine .inr ⟨v, r, hv1, by rw [ho.entries, Rows.set_same], hpair ▸ hnot, hwaiting, fun k w hw hww hwp => ?_, slot, hslot,
        ?_, expiresAt, hexpiry, token, hrow⟩
      · have hk := hwaited k w hw (hwp.trans hpair)
        exact oldestOf_le ho.oldest (Snapshot.mem_all.2 ⟨k, hs.rows.lt .entries k w hk, hk⟩) hww (hwp.trans hpair)
      · rw [ho.count hs, if_pos ⟨rfl, hnamed⟩]
        exact hfree
    · rw [ho.entries, Rows.set_row hj]
      rcases h.entries j with hsame | ⟨v', r', hv', hr', hpair', hfresh⟩
      · exact .inl hsame
      · refine .inr ⟨v', r', hv', hr', fun hmem => hpair' (List.mem_cons_of_mem _ hmem), hfresh.waited, hfresh.oldest, ?_⟩
        obtain ⟨slot', hslot', hseats, hrow'⟩ := hfresh.row
        refine ⟨slot', hslot', ?_, hrow'⟩
        rw [ho.count hs]
        split
        · rename_i hsame
          -- the two offers name one instant of one day: they share the slot
          rw [hsame.1] at hslot hfree
          have heq : slot.startsAt = slot'.startsAt := Option.some.inj (hnamed.symm.trans hsame.2)
          rw [gridOf_unique hslot hslot' heq] at hfree
          exact hfree
        · exact hseats
  · rcases ho.queued j m hm with hold | hpending
    · exact h.queued j m hold
    · exact .inr hpending

theorem offerEach_rule {pairs : List (Int × Nat)} {n : Nat} {Q : Except Err Nat → Draft schema outside → Prop}
    (hrules : ∀ i, A .listActiveRules i → i.rules = rules)
    (hexceptions : ∀ day i, A (.listActiveExceptions day) i → i.exceptions = exceptions day) (hs1 : s₁.Sound)
    (hs : s.Sound) (hnodup : pairs.Nodup) (h : Issuing cfg rules exceptions now s₁ pairs s)
    (herr : ∀ e s', s'.base = s₁.base → Q (.error e) s')
    (hok : ∀ n s', Issuing cfg rules exceptions now s₁ [] s' → s'.Sound → Q (.ok n) s') :
    (WaitlistCascade.offerEach cfg now pairs n).wp (drafts A t) Q s := by
  induction pairs generalizing s n with
  | nil => exact hok n s h hs
  | cons p pairs ih =>
    obtain ⟨hnot, hnodup⟩ := List.nodup_cons.1 hnodup
    refine drafts_bind (offerOne_rule hs hrules hexceptions (fun e s' hbase => herr e s' (hbase.trans h.base)) ?_ ?_)
    · exact ih hs hnodup h.skip
    · exact fun made v r s' ho hs' => ih hs' hnodup (h.step ho hs1 hs hnot)

theorem issue_rule {Q : Except Err Nat → Draft schema outside → Prop}
    (hrules : ∀ i, A .listActiveRules i → i.rules = rules)
    (hexceptions : ∀ day i, A (.listActiveExceptions day) i → i.exceptions = exceptions day) (hs : s.Sound)
    (herr : ∀ e s', s'.base = s.base → Q (.error e) s')
    (hok : ∀ n s', Issuing cfg rules exceptions now s [] s' → s'.Sound → Q (.ok n) s') :
    (WaitlistCascade.issue cfg now).wp (drafts A t) Q s := by
  refine drafts_ask (V := outside) (q := Ask.issueCursor) fun i _ => drafts_select ?_
  refine drafts_ask (V := outside) (q := Ask.keepCursor _) fun _ _ => ?_
  exact offerEach_rule hrules hexceptions hs (s := { s with out := _ }) ⟨hs.base, hs.rows⟩ (waitingPairs_nodup ..)
    ⟨rfl, Nat.le_refl _, rfl, fun _ => .inl rfl, fun _ _ h => h, fun _ _ h => .inl h⟩ herr hok

/-! ## The tick -/

/-- **One tick**, from `s` to `s'`: the expiry and, outside the quiet hours, the walk. -/
def Ticked (cfg : Config) (rules : List Boutique.AvailabilityRule)
    (exceptions : Int → List Boutique.AvailabilityException) (now : Int) (s s' : Draft schema outside) : Prop :=
  ∃ s₁ : Draft schema outside, s₁.Sound ∧ Expires now s s₁ ∧ Issuing cfg rules exceptions now s₁ [] s'

theorem run_rule (hrules : ∀ i, A .listActiveRules i → i.rules = rules)
    (hexceptions : ∀ day i, A (.listActiveExceptions day) i → i.exceptions = exceptions day) (hs : s.Sound)
    (herr : ∀ e s', s'.base = s.base → s'.idle = true → Q (.error e) s')
    (hok : ∀ r s2 s', Ticked cfg rules exceptions s.clock { s with started := s.clock } s2 → s2.Sound → s'.base = s2.rows →
      s'.next = s2.next → s'.idle = true → Q (.ok r) s') : (WaitlistCascade.run cfg).wp (drafts A t) Q s := by
  refine drafts_now (drafts_tenantSession ?_)
  refine drafts_bind (expire_rule ⟨hs.base, hs.rows⟩ (fun e s' hbase => herr e _ hbase rfl) fun r s₁ h1 hs1 => ?_)
  refine drafts_ite (fun _ => ?_) fun _ => ?_
  · exact hok _ s₁ _ ⟨s₁, hs1, h1, issuing_start ..⟩ hs1 rfl rfl rfl
  · refine drafts_bind (issue_rule hrules hexceptions hs1 (fun e s' hbase => ?_) fun n s2 h2 hs2 => ?_)
    · exact herr e _ (hbase.trans h1.base) rfl
    · exact hok _ s2 _ ⟨s₁, hs1, h1, h2⟩ hs2 rfl rfl rfl

end Waitlist
