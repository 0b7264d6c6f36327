import Boutique.Ranked
import Boutique.Relink
import Boutique.TxnSolo
/-!
# Correction — a phone correction cuts the old number off

The correction gives every booking whose number it changed a new link, and the pending reminder with it; one booking it
cannot relink undoes the whole of it.
-/
namespace Boutique

open Txn

variable {A : Ask → Input → Prop} {t : Tid}

/-! ## What a correction does to the rows -/

def contactPhone (rows : Rows schema) (bookingId : Nat) : Option String :=
  (rows .bookings bookingId).bind fun (b : Booking) => (rows .customers b.customerId).map fun (c : Customer) => c.phone

def Reminds (m : ScheduledMessage) (bookingId : Nat) : Prop :=
  m.bookingId = some bookingId ∧ m.kind = .reminder ∧ m.status = .pending ∧ m.deletedAt = none

/-- **A booking relinked**: its link is a token minted since `before`, and its pending reminders carry it. -/
def Relinked (before after_ : Nat) (rows : Rows schema) (bookingId : Nat) : Prop :=
  ∃ (token : Nat) (b : Booking), before ≤ token ∧ token < after_ ∧ rows .bookings bookingId = some b ∧
    b.manageTokenHash = some (manageTokenHash token) ∧
    ∀ j (m : ScheduledMessage), rows .scheduledMessages j = some m → Reminds m bookingId → m.manageToken = some token

/-- **The rotations so far**, from the rows `R`: those done are relinked and changed in nothing else, the rest stand. -/
structure Rotating (R : Rows schema) (before : Nat) (done : List Nat) (s : Draft schema service) : Prop where
  customers : s.rows .customers = R .customers
  others : ∀ k, k ∉ done → s.rows .bookings k = R .bookings k
  same : ∀ k (b' : Booking), s.rows .bookings k = some b' →
    ∃ b : Booking, R .bookings k = some b ∧ b' = { b with manageTokenHash := b'.manageTokenHash }
  relinked : ∀ k ∈ done, Relinked before s.out.tokens s.rows k
  tokens : before ≤ s.out.tokens

theorem rotating_start {s : Draft schema service} : Rotating s.rows s.out.tokens [] s :=
  ⟨rfl, fun _ _ => rfl, fun _ b h => ⟨b, h, rfl⟩, fun _ h => absurd h List.not_mem_nil, Nat.le_refl _⟩

variable {R : Rows schema} {before now : Nat} {done : List Nat} {s : Draft schema service}

variable {v booking : Booking} {allowed : List BookingStatus} {k token : Nat} {rows rows' : Rows schema}
  {phone : String} {Q : Except Err OwnerBooking.Corrected → Draft schema service → Prop}

theorem rotate_apply {r : Booking} {d : Digest} {at_ : Int}
    (h : BookingChange.apply v (.rotateManageTokenHash d allowed at_) = some r) :
    r = { v with manageTokenHash := some d } := by
  simp only [BookingChange.apply] at h
  split at h
  · exact (Option.some.inj h).symm
  · contradiction

theorem Relinked.congr {before after_ after' : Nat} (h : Relinked before after_ rows k) (hafter : after_ ≤ after')
    (hbooking : rows' .bookings k = rows .bookings k)
    (hreminders : ∀ j (m : ScheduledMessage), rows' .scheduledMessages j = some m → Reminds m k →
      rows .scheduledMessages j = some m) : Relinked before after' rows' k := by
  obtain ⟨token, b, hle, hlt, hb, hhash, hm⟩ := h
  exact ⟨token, b, hle, Nat.lt_of_lt_of_le hlt hafter, hbooking.trans hb, hhash,
    fun j m hj hr => hm j m (hreminders j m hj hr) hr⟩

theorem Rotating.step {s' : Draft schema service} {i : Nat} (h : Rotating R before done s)
    (hv : s.rows .bookings i = some v) (hcustomers : s'.rows .customers = s.rows .customers)
    (hself : s'.rows .bookings i = some { v with manageTokenHash := some (manageTokenHash s.out.tokens) })
    (hothers : ∀ k, k ≠ i → s'.rows .bookings k = s.rows .bookings k) (htokens : s'.out.tokens = s.out.tokens + 1)
    (hkept : ∀ k, k ≠ i → ∀ j (m : ScheduledMessage), s'.rows .scheduledMessages j = some m → Reminds m k →
      s.rows .scheduledMessages j = some m)
    (hmine : ∀ j (m : ScheduledMessage), s'.rows .scheduledMessages j = some m → Reminds m i →
      m.manageToken = some s.out.tokens) : Rotating R before (i :: done) s' where
  customers := hcustomers.trans h.customers
  others k hk := by
    rw [List.mem_cons, not_or] at hk
    exact (hothers k hk.1).trans (h.others k hk.2)
  same k b' hb' := by
    by_cases hki : k = i
    · subst hki
      rw [hself] at hb'
      obtain rfl := Option.some.inj hb'
      obtain ⟨b, hb, heq⟩ := h.same k v hv
      exact ⟨b, hb, by rw [heq]⟩
    · rw [hothers k hki] at hb'
      exact h.same k b' hb'
  relinked k hk := by
    by_cases hki : k = i
    · subst hki
      exact ⟨s.out.tokens, _, h.tokens, by omega, hself, rfl, hmine⟩
    · have hdone : k ∈ done := (List.mem_cons.1 hk).resolve_left hki
      exact (h.relinked k hdone).congr (by omega) (hothers k hki) (hkept k hki)
  tokens := by
    have hle := h.tokens
    omega

def LinkIs (rows : Rows schema) (k token : Nat) : Prop :=
  ∃ b : Booking, rows .bookings k = some b ∧ b.manageTokenHash = some (manageTokenHash token)

theorem LinkIs.congr (h : LinkIs rows k token) (hk : rows' .bookings k = rows .bookings k) : LinkIs rows' k token := by
  obtain ⟨b, hb, hhash⟩ := h
  exact ⟨b, hk.trans hb, hhash⟩

theorem rotateLink_rule {now : Int} {Q : Except Err Nat → Draft schema service → Prop} (h : Rotating R before done s)
    (herr : ∀ e s', s'.base = s.base → Q (.error e) s')
    (hok : ∀ token s', Rotating R before (booking.id :: done) s' → LinkIs s'.rows booking.id token →
      (∀ k, k ≠ booking.id → s'.rows .bookings k = s.rows .bookings k) → s'.Sound → s'.base = s.base → Q (.ok token) s') :
    (OwnerBooking.rotateLink booking now).wp (drafts A t) Q s := by
  refine drafts_ask (V := service) (q := Ask.mintManageToken) fun _ _ => ?_
  refine drafts_update (e := Err.integrity) (fun _ => herr _ _ rfl) (herr _ _ rfl) fun v r hv hr hw => ?_
  obtain rfl := rotate_apply hr
  -- the draft with the new hash, and the pending reminders it shows
  generalize hs1 : Draft.write (S := schema) (V := service) _ .bookings booking.id _ = s1 at hw ⊢
  have hbase : s1.base = s.base := by rw [← hs1]; rfl
  have htokens : s1.out.tokens = s.out.tokens + 1 := by rw [← hs1]; rfl
  have hself : s1.rows .bookings booking.id = some { v with manageTokenHash := some (manageTokenHash s.out.tokens) } := by
    rw [← hs1]
    exact Draft.write_same
  have hothers : ∀ k, k ≠ booking.id → s1.rows .bookings k = s.rows .bookings k := by
    intro k hk
    rw [← hs1]
    exact Draft.write_row hk
  have htables : ∀ T, T ≠ .bookings → s1.rows T = s.rows T := by
    intro T hT
    rw [← hs1]
    exact Draft.write_table hT
  show ((scalarOneOrNone ((s1.snapshot.all .scheduledMessages).filter fun (m : ScheduledMessage) =>
    m.bookingId = some booking.id ∧ m.kind = .reminder ∧ m.status = .pending ∧ m.deletedAt = none) >>= fun pending =>
      (Scheduled.repoint pending s.out.tokens >>= fun _ => pure s.out.tokens)) : Prg Nat).wp (drafts A t) Q s1
  generalize hrows : (s1.snapshot.all .scheduledMessages).filter _ = rows
  have hmem : ∀ j (m : ScheduledMessage), s1.rows .scheduledMessages j = some m → Reminds m booking.id → m ∈ rows := by
    intro j m hj hm
    rw [← hrows, List.mem_filter]
    exact ⟨Snapshot.mem_all.2 ⟨j, hw.rows.lt .scheduledMessages j m hj, hj⟩, decide_eq_true hm⟩
  cases rows with
  | nil =>
    refine hok _ s1 (h.step hv (htables _ (by decide)) hself hothers htokens ?_ ?_) ⟨_, hself, rfl⟩ hothers hw hbase
    · intro k _ j m hj _
      rwa [htables _ (by decide)] at hj
    · intro j m hj hm
      exact absurd (hmem j m hj hm) List.not_mem_nil
  | cons m rows =>
    cases rows with
    | cons m' rows => exact herr _ _ hbase
    | nil =>
      have hin : m ∈ [m] := List.mem_singleton.2 rfl
      rw [← hrows, List.mem_filter] at hin
      obtain ⟨hin, hreminds⟩ := hin
      obtain ⟨hbooking, -⟩ := of_decide_eq_true hreminds
      obtain ⟨i, -, hi⟩ := Snapshot.mem_all.1 hin
      have hid : m.id = i := hw.rows.consistent.id .scheduledMessages i m hi
      show ((update .scheduledMessages m.id (.setManageToken s.out.tokens) >>= fun _ => pure s.out.tokens) :
        Prg Nat).wp (drafts A t) Q s1
      refine drafts_update (e := Err.integrity) (fun hnone => ?_) (herr _ _ hbase) fun v' r hv' hr hw' => ?_
      · exact absurd hnone (by rw [hid, show s1.rows .scheduledMessages i = some m from hi]; exact Option.some_ne_none _)
      · rw [hid] at hv'
        obtain rfl : m = v' := Option.some.inj (hi.symm.trans hv')
        obtain rfl := Option.some.inj hr
        have hkept : ∀ k, (s1.write .scheduledMessages m.id { m with manageToken := some s.out.tokens }).rows .bookings k =
            s1.rows .bookings k := fun k => congrFun (Draft.write_table (by decide)) k
        refine hok _ _ (h.step hv ?_ ?_ ?_ htokens ?_ ?_) (LinkIs.congr ⟨_, hself, rfl⟩ (hkept _))
          (fun k hk => (hkept k).trans (hothers k hk)) hw' hbase
        · exact (Draft.write_table (by decide)).trans (htables _ (by decide))
        · exact (hkept _).trans hself
        · intro k hk
          exact (hkept k).trans (hothers k hk)
        · intro k hk j m' hj hm'
          by_cases hji : j = m.id
          · subst hji
            obtain rfl := Option.some.inj (Draft.write_same.symm.trans hj)
            exact absurd (Option.some.inj (hm'.1.symm.trans hbooking)) hk
          · rw [Draft.write_row hji, htables _ (by decide)] at hj
            exact hj
        · intro j m' hj hm'
          by_cases hji : j = m.id
          · subst hji
            obtain rfl := Option.some.inj (Draft.write_same.symm.trans hj)
            rfl
          · rw [Draft.write_row hji] at hj
            obtain rfl := List.mem_singleton.1 (hmem j m' hj hm')
            exact absurd (hw.rows.consistent.id .scheduledMessages j _ hj).symm hji

/-- **What a rotation hands out**: the token of a booking is its link now, and nobody else's link has moved. -/
structure HandsOut (bookings : List Booking) (tokens : List (Nat × Nat)) (rows rows' : Rows schema) : Prop where
  linked : (bookings.map (·.id)).Nodup → ∀ k token, tokens.lookup k = some token → LinkIs rows' k token
  others : ∀ k, k ∉ bookings.map (·.id) → rows' .bookings k = rows .bookings k

theorem HandsOut.cons {bookings : List Booking} {tokens : List (Nat × Nat)} {rows1 : Rows schema}
    (h : HandsOut bookings tokens rows1 rows') (hlinked : LinkIs rows1 booking.id token)
    (hothers : ∀ k, k ≠ booking.id → rows1 .bookings k = rows .bookings k) :
    HandsOut (booking :: bookings) ((booking.id, token) :: tokens) rows rows' := by
  refine ⟨fun hnodup k token' hk => ?_, fun k hk => ?_⟩
  · obtain ⟨hfresh, hnodup⟩ := List.nodup_cons.1 hnodup
    by_cases hki : k = booking.id
    · subst hki
      rw [List.lookup_cons_self] at hk
      cases hk
      exact hlinked.congr (h.others _ hfresh)
    · have hne : (k == booking.id) = false := by simpa using hki
      rw [List.lookup_cons, hne] at hk
      exact h.linked hnodup k token' hk
  · rw [List.map_cons, List.mem_cons, not_or] at hk
    exact (h.others k hk.2).trans (hothers k hk.1)

theorem rotateLinks_rule {now : Int} {bookings : List Booking} {Q : Except Err (List (Nat × Nat)) → Draft schema service → Prop}
    (h : Rotating R before done s) (hs : s.Sound) (herr : ∀ e s', s'.base = s.base → Q (.error e) s')
    (hok : ∀ tokens done' s', Rotating R before done' s' → (∀ k, k ∈ done' ↔ k ∈ bookings.map (·.id) ∨ k ∈ done) →
      HandsOut bookings tokens s.rows s'.rows → s'.Sound → s'.base = s.base → Q (.ok tokens) s') :
    (OwnerBooking.rotateLinks now bookings).wp (drafts A t) Q s := by
  induction bookings generalizing done s Q with
  | nil => exact hok [] done s h (fun k => by simp) ⟨fun _ _ _ hk => by simp at hk, fun _ _ => rfl⟩ hs rfl
  | cons booking bookings ih =>
    refine drafts_bind (rotateLink_rule h herr fun token s1 h1 hlinked hothers hs1 hbase1 => ?_)
    refine drafts_bind (ih h1 hs1 (fun e s' hbase => herr e s' (hbase.trans hbase1)) ?_)
    intro tokens done' s2 h2 hdone hhanded hs2 hbase2
    refine hok _ done' s2 h2 (fun k => ?_) (hhanded.cons hlinked hothers) hs2 (hbase2.trans hbase1)
    rw [hdone, List.map_cons, List.mem_cons, List.mem_cons, or_left_comm, ← or_assoc]

/-! ## The old number cut off -/

def Resolves (rows : Rows schema) (token bookingId : Nat) : Prop :=
  ∃ b : Booking, rows .bookings bookingId = some b ∧ b.manageTokenHash = some (manageTokenHash token) ∧ b.deletedAt = none

def Booking.Ahead (b : Booking) (now : Int) : Prop := b.status = .confirmed ∧ now < b.startsAt ∧ b.deletedAt = none

/-- **What a successful correction leaves**, tokens below `before` being the old ones: a booking ahead whose number changed
opens to none of them, one token minted since is in its pending reminders, and no other customer's booking has moved. -/
structure CutOff (R R' : Rows schema) (now : Int) (before after_ customerId : Nat) : Prop where
  unopened : ∀ k (b : Booking), R' .bookings k = some b → b.Ahead now → contactPhone R' k ≠ contactPhone R k →
    ∀ token, token < before → ¬Resolves R' token k
  reminded : ∀ k (b : Booking), R' .bookings k = some b → b.Ahead now → contactPhone R' k ≠ contactPhone R k →
    ∃ token, before ≤ token ∧ token < after_ ∧ Resolves R' token k ∧
      ∀ j (m : ScheduledMessage), R' .scheduledMessages j = some m → Reminds m k → m.manageToken = some token
  others : ∀ k, (∀ b : Booking, R .bookings k = some b → b.customerId ≠ customerId) → R' .bookings k = R .bookings k

variable {R' : Rows schema} {now : Int} {customerId : Nat}

theorem Relinked.unopened {after_ : Nat} (h : Relinked before after_ R k) (ht : token < before) :
    ¬Resolves R token k := by
  rintro ⟨b', hb', hhash', -⟩
  obtain ⟨token', b, hle, -, hb, hhash, -⟩ := h
  obtain rfl := Option.some.inj (hb.symm.trans hb')
  have heq : token' = token := congrArg Digest.token (Option.some.inj (hhash.symm.trans hhash'))
  omega

/-- **From the rotations to the cut.**  `R1` is what the correction wrote before it rotated: a booking ahead that is not
rotated keeps its number there, and the rotated ones were hers. -/
theorem Rotating.cutOff {R1 : Rows schema} (h : Rotating R1 before done s)
    (hkeeps : ∀ k (b : Booking), k ∉ done → R1 .bookings k = some b → b.Ahead now →
      contactPhone R1 k = contactPhone R k)
    (hhers : ∀ k ∈ done, ∃ b : Booking, R .bookings k = some b ∧ b.customerId = customerId)
    (hothers : ∀ k, k ∉ done → R1 .bookings k = R .bookings k) (hbookings : s.rows .bookings = R' .bookings)
    (hcustomers : s.rows .customers = R' .customers) (hmessages : s.rows .scheduledMessages = R' .scheduledMessages) :
    CutOff R R' now before s.out.tokens customerId := by
  -- a changed number is a rotated booking's
  have hrelinked : ∀ k (b : Booking), R' .bookings k = some b → b.Ahead now → contactPhone R' k ≠ contactPhone R k →
      Relinked before s.out.tokens R' k := by
    intro k b hb hahead hchanged
    by_cases hk : k ∈ done
    · exact (h.relinked k hk).congr (Nat.le_refl _) (congrFun hbookings k).symm
        fun j m hj _ => (congrFun hmessages j).trans hj
    · have hbk : R1 .bookings k = some b := (h.others k hk).symm.trans ((congrFun hbookings k).trans hb)
      refine absurd ?_ hchanged
      rw [← hkeeps k b hk hbk hahead]
      unfold contactPhone
      rw [← hbookings, ← hcustomers, h.others k hk, h.customers]
  refine ⟨fun k b hb ha hc token ht => (hrelinked k b hb ha hc).unopened ht, fun k b hb ha hc => ?_, fun k hk => ?_⟩
  · obtain ⟨token, b', hle, hlt, hb', hhash, hm⟩ := hrelinked k b hb ha hc
    obtain rfl := Option.some.inj (hb.symm.trans hb')
    exact ⟨token, hle, hlt, ⟨b, hb, hhash, ha.2.2⟩, hm⟩
  · have hout : k ∉ done := by
      intro hin
      obtain ⟨b, hb, hcustomer⟩ := hhers k hin
      exact hk b hb hcustomer
    rw [← hbookings, h.others k hout, hothers k hout]

/-! ## What the correction writes before it rotates -/

/-- **What a correction has written and is about to rotate**, over the rows `R`. -/
structure Written (R : Rows schema) (booking : Booking) (now : Int) (before : Nat) (rotate : List Booking) (newCustomerId : Nat)
    (s : Draft schema service) : Prop where
  sound : s.Sound
  mine : s.rows .bookings booking.id = some { booking with customerId := newCustomerId }
  once : (rotate.map (·.id)).Nodup
  tokens : s.out.tokens = before
  keeps : ∀ k (b : Booking), k ∉ rotate.map (·.id) → s.rows .bookings k = some b → b.Ahead now →
    contactPhone s.rows k = contactPhone R k
  hers : ∀ k ∈ rotate.map (·.id), ∃ b : Booking, R .bookings k = some b ∧ b.customerId = booking.customerId
  others : ∀ k, k ∉ rotate.map (·.id) → s.rows .bookings k = R .bookings k

theorem setCustomerId_apply {r : Booking} {customerId : Nat} {at_ : Int}
    (h : BookingChange.apply v (.setCustomerId customerId allowed at_) = some r) :
    r = { v with customerId := customerId } := by
  simp only [BookingChange.apply] at h
  split at h
  · exact (Option.some.inj h).symm
  · contradiction

theorem scalar_rule {α : Type} {rows : List α} {Q : Except Err (Option α) → Draft schema service → Prop}
    (herr : ∀ e, Q (.error e) s) (hok : ∀ a, Q (.ok a) s) : (scalarOneOrNone rows).wp (drafts A t) Q s := by
  cases rows with
  | nil => exact hok none
  | cons a rows =>
    cases rows with
    | nil => exact hok (some a)
    | cons a' rows => exact herr _

theorem byPhone_rule {Q : Except Err (Option Customer) → Draft schema service → Prop} (herr : ∀ e, Q (.error e) s)
    (hok : ∀ a, Q (.ok a) s) : (Customers.byPhone phone).wp (drafts A t) Q s :=
  drafts_select (scalar_rule herr hok)

theorem activeAt_rule {startsAt : Int} {Q : Except Err (Option Booking) → Draft schema service → Prop}
    (herr : ∀ e, Q (.error e) s) (hok : ∀ a, Q (.ok a) s) :
    (Bookings.activeAt customerId startsAt).wp (drafts A t) Q s :=
  drafts_select (scalar_rule herr hok)

theorem onIntegrity_rule {β : Type} {T : Table} {i : Nat} {g : Change T} {e : Err} {k : Option (Row T) → Prg β}
    {Q : Except Err β → Draft schema service → Prop}
    (hnone : (s.rows T i).bind (schema.apply T g) = none → (k none).wp (drafts A t) Q s) (hrefused : Q (.error e) s)
    (hsome : ∀ v r, s.rows T i = some v → schema.apply T g v = some r → (s.write T i r).Sound →
      (k (some r)).wp (drafts A t) Q (s.write T i r)) :
    (onIntegrity (update T i g) (throw e) >>= k).wp (drafts A t) Q s := by
  refine ⟨hnone, fun r hr => ⟨fun _ => hrefused, fun _ hw => ?_⟩⟩
  obtain ⟨v, hv, hg⟩ := Option.bind_eq_some_iff.1 hr
  exact hsome v r hv hg hw

theorem repointTo_rule {target : Customer} (hb : s.rows .bookings booking.id = some booking)
    (herr : ∀ e s', s'.base = s.base → Q (.error e) s')
    (hok : ∀ corrected s', Written s.rows booking now s.out.tokens corrected.rotate corrected.newCustomerId s' → s'.base = s.base →
      Q (.ok corrected) s') : (OwnerBooking.repointTo booking target now).wp (drafts A t) Q s := by
  refine drafts_bind (activeAt_rule (fun e => herr e s rfl) fun collision => ?_)
  refine drafts_raiseIf (fun _ => herr _ s rfl) fun _ => ?_
  refine onIntegrity_rule (fun _ => herr _ s rfl) (herr _ s rfl) fun v r hv hr hw => ?_
  have hother : ∀ k, k ∉ [booking].map (·.id) → (s.write .bookings booking.id r).rows .bookings k = s.rows .bookings k :=
    fun k hk => Draft.write_row fun heq => hk (heq ▸ List.mem_singleton.2 rfl)
  have hmine : r = { booking with customerId := target.id } := by
    obtain rfl : booking = v := Option.some.inj (hb.symm.trans hv)
    exact setCustomerId_apply hr
  refine hok _ _ ⟨hw, by rw [← hmine]; exact Draft.write_same, List.nodup_singleton _, rfl, fun k b hk _ _ => ?_, fun k hk => ?_,
    hother⟩ rfl
  · unfold contactPhone
    rw [hother k hk, show (s.write .bookings booking.id r).rows .customers = s.rows .customers from
      Draft.write_table (by decide)]
  · obtain rfl := List.mem_singleton.1 hk
    exact ⟨booking, hb, rfl⟩

/-- **The digits corrected**: the bookings ahead whose number changes are the customer's, and all of them rotate. -/
theorem correctDigits_rule (hb : s.rows .bookings booking.id = some booking)
    (herr : ∀ e s', s'.base = s.base → Q (.error e) s')
    (hok : ∀ corrected s', Written s.rows booking now s.out.tokens corrected.rotate corrected.newCustomerId s' → s'.base = s.base →
      Q (.ok corrected) s') : (OwnerBooking.correctDigits booking phone now).wp (drafts A t) Q s := by
  refine onIntegrity_rule (fun _ => herr _ s rfl) (herr _ s rfl) fun v r hv hr hw => ?_
  have hbookings : (s.write .customers booking.customerId r).rows .bookings = s.rows .bookings :=
    Draft.write_table (by decide)
  generalize hs1 : s.write .customers booking.customerId r = s1 at hw hbookings ⊢
  refine hok _ s1 ⟨hw, (congrFun hbookings _).trans hb, ?_, by rw [← hs1]; rfl, fun k b hk hb ha => ?_, fun k hk => ?_,
    fun k _ => congrFun hbookings k⟩ (by rw [← hs1]; rfl)
  · have hall : ((s1.snapshot.all .bookings).map fun (b : Booking) => b.id).Nodup :=
      Ranked.nodup_rowsOf (hw.rows.consistent.id .bookings) s1.next
    refine ((List.perm_insertionSort _ _).map _).nodup_iff.2 (hall.sublist ?_)
    exact List.filter_sublist.map _
  · by_cases hcustomer : b.customerId = booking.customerId
    · refine absurd (List.mem_map.2 ⟨b, ?_, hw.rows.consistent.id .bookings k b hb⟩) hk
      rw [List.mem_insertionSort, List.mem_filter]
      exact ⟨Snapshot.mem_all.2 ⟨k, hw.rows.lt .bookings k b hb, hb⟩,
        decide_eq_true ⟨hcustomer, ha.1, ha.2.1, ha.2.2⟩⟩
    · have hb' : s.rows .bookings k = some b := (congrFun hbookings k).symm.trans hb
      have hphone : s1.rows .customers b.customerId = s.rows .customers b.customerId := by
        rw [← hs1]
        exact Draft.write_row hcustomer
      simp only [contactPhone, hb, hb', Option.bind_some, hphone]
  · obtain ⟨b, hin, rfl⟩ := List.mem_map.1 hk
    rw [List.mem_insertionSort, List.mem_filter] at hin
    obtain ⟨hin, hlive⟩ := hin
    obtain ⟨i, -, hi⟩ := Snapshot.mem_all.1 hin
    have hid : b.id = i := hw.rows.consistent.id .bookings i b hi
    exact ⟨b, by rw [hid, ← hbookings]; exact hi, (of_decide_eq_true hlive).1⟩

theorem correct_rule (hb : s.rows .bookings booking.id = some booking)
    (herr : ∀ e s', s'.base = s.base → Q (.error e) s')
    (hok : ∀ corrected s', Written s.rows booking now s.out.tokens corrected.rotate corrected.newCustomerId s' → s'.base = s.base →
      Q (.ok corrected) s') : (OwnerBooking.correct booking phone now).wp (drafts A t) Q s := by
  refine drafts_bind (byPhone_rule (fun e => herr e s rfl) fun found => ?_)
  cases found with
  | none => exact correctDigits_rule hb herr hok
  | some target =>
    by_cases hother : target.id ≠ booking.customerId
    · dsimp only
      rw [if_pos hother]
      exact repointTo_rule hb herr hok
    · dsimp only
      rw [if_neg hother]
      exact correctDigits_rule hb herr hok

/-! ## The correction -/

theorem correctIn_rule {bookingId staffId : Nat} {Q : Except Err (Booking × Nat) → Draft schema service → Prop}
    (hs : s.Sound) (herr : ∀ e s', s'.base = s.base → Q (.error e) s')
    (hok : ∀ old booking token s', s.rows .bookings bookingId = some old → s'.rows .bookings bookingId = some booking →
      booking.manageTokenHash = some (manageTokenHash token) →
      CutOff s.rows s'.rows now s.out.tokens s'.out.tokens old.customerId → Q (.ok (booking, token)) s') :
    (OwnerBooking.correctIn bookingId phone now staffId).wp (drafts A t) Q s := by
  -- the booking, live
  refine drafts_bind (drafts_select (drafts_orRaise (fun _ => herr _ s rfl) fun old hfound => ?_))
  refine drafts_raiseIf (fun _ => herr _ s rfl) fun _ => drafts_raiseIf (fun _ => herr _ s rfl) fun _ => ?_
  have hb : s.rows .bookings bookingId = some old := (Option.filter_eq_some_iff.1 hfound).1
  have hid : old.id = bookingId := hs.rows.consistent.id .bookings bookingId old hb
  refine drafts_select ?_
  refine drafts_bind (correct_rule (hid ▸ hb) herr fun corrected s1 hwritten hbase1 => ?_)
  -- the links
  have hstart : Rotating s1.rows s.out.tokens [] s1 := hwritten.tokens ▸ rotating_start
  refine drafts_bind (rotateLinks_rule hstart hwritten.sound (fun e s' hbase => herr e s' (hbase.trans hbase1)) ?_)
  intro tokens done s2 hrotating hdone hhands hs2 hbase2
  have hmem : ∀ k, k ∈ done ↔ k ∈ corrected.rotate.map (·.id) := fun k => (hdone k).trans (by simp)
  -- the audit row, and the token of the edited booking
  refine drafts_insert (e := Err.integrity) (herr _ _ (hbase2.trans hbase1)) fun _ => ?_
  refine drafts_orRaise (fun _ => herr _ _ (hbase2.trans hbase1)) fun token htoken => ?_
  have hstamped : s2.rows .bookings bookingId = some (OwnerBooking.stamped old corrected.newCustomerId token) := by
    obtain ⟨b, hrow, hhash⟩ := hhands.linked hwritten.once bookingId token htoken
    obtain ⟨b1, hb1, heq⟩ := hrotating.same bookingId b hrow
    have hmine : s1.rows .bookings bookingId = some { old with customerId := corrected.newCustomerId } := by
      rw [← hid]
      exact hwritten.mine
    obtain rfl := Option.some.inj (hb1.symm.trans hmine)
    rw [hrow, heq, hhash]
    rfl
  refine hok old _ token _ hb ((congrFun (Draft.write_table (by decide)) _).trans hstamped) rfl
    (hrotating.cutOff (fun k b hk => hwritten.keeps k b (mt (hmem k).2 hk))
      (fun k hk => hwritten.hers k ((hmem k).1 hk)) (fun k hk => hwritten.others k (mt (hmem k).2 hk)) ?_ ?_ ?_)
  all_goals exact (Draft.write_table (by decide)).symm

theorem session_rule {β : Type} {body : Int → Prg β} {Q : Except Err β → Draft schema service → Prop}
    (h : (body s.clock).wp (drafts A t) (fun x s' => Q x (s'.closed x)) { s with started := s.clock }) :
    (tenantSession body).wp (drafts A t) Q s := by
  show ((body s.clock).attempt >>= _).wp (drafts A t) Q { s with started := s.clock }
  apply drafts_bind
  rw [Prog.wp_attempt]
  refine Prog.wp_mono (drafts_mono (V := service) A t) (fun x s' hx => ?_) h
  cases x <;> exact hx

theorem correctPhone_rule {bookingId staffId : Nat} {rawPhone : String}
    {Q : Except Err (Booking × Nat) → Draft schema service → Prop} (hs : s.Sound)
    (herr : ∀ e s', s'.base = s.base → Q (.error e) s')
    (hok : ∀ old booking token s', s.rows .bookings bookingId = some old → s'.base .bookings bookingId = some booking →
      booking.manageTokenHash = some (manageTokenHash token) →
      CutOff s.rows s'.base s.clock s.out.tokens s'.out.tokens old.customerId → Q (.ok (booking, token)) s') :
    (OwnerBooking.correctPhone bookingId rawPhone staffId).wp (drafts A t) Q s := by
  unfold OwnerBooking.correctPhone
  cases normalizeIsraeliMobile rawPhone with
  | error e => exact herr e s rfl
  | ok phone =>
    refine drafts_ask (V := service) (q := Ask.isBlocked .ownerSms) fun _ _ => ?_
    refine drafts_raiseIf (fun _ => herr _ _ rfl) fun _ => ?_
    show (tenantSession (fun _ => OwnerBooking.correctIn bookingId phone s.clock staffId) >>= _).wp (drafts A t) Q s
    refine drafts_bind (session_rule ?_)
    refine correctIn_rule ⟨hs.base, hs.rows⟩ (fun e s' hbase => herr e _ hbase) fun old booking token s' hb hnow hhash hcut => ?_
    exact drafts_ask (V := service) (q := Ask.recordFailure .ownerSms) fun _ _ => hok old booking token _ hb hnow hhash hcut

/-- **A correction that succeeds cuts the old number off**, and returns the booking as it is committed with the token of its
link; one that fails leaves the tables as they were. -/
theorem correctPhone_cuts {bookingId staffId : Nat} {rawPhone : String} {w w' : BWorld} {x : Except Err (Booking × Nat)}
    (hw : w.db.Unheld) (hrun : Solo A t (OwnerBooking.correctPhone bookingId rawPhone staffId) w x w') :
    (∀ booking token, x = .ok (booking, token) → w'.db.committed .bookings bookingId = some booking ∧
      booking.manageTokenHash = some (manageTokenHash token) ∧ ∃ old : Booking, w.db.committed .bookings bookingId = some old ∧
      CutOff w.db.committed w'.db.committed w.db.clock w.out.tokens w'.out.tokens old.customerId) ∧
    ∀ e, x = .error e → w'.db.committed = w.db.committed := by
  have hs : (w.draft t).Sound := ⟨⟨hw.consistent, hw.lt⟩, ⟨hw.consistent, hw.lt⟩⟩
  have hprogram : (OwnerBooking.correctPhone bookingId rawPhone staffId).wp (drafts A t) (fun x s' =>
      (∀ booking token, x = .ok (booking, token) → s'.base .bookings bookingId = some booking ∧
        booking.manageTokenHash = some (manageTokenHash token) ∧ ∃ old : Booking, w.db.committed .bookings bookingId = some old ∧
        CutOff w.db.committed s'.base w.db.clock w.out.tokens s'.out.tokens old.customerId) ∧
      ∀ e, x = .error e → s'.base = w.db.committed) (w.draft t) := by
    apply correctPhone_rule hs
    · intro e s' hbase
      exact ⟨fun _ _ heq => (by cases heq), fun _ _ => hbase⟩
    · intro old booking token s' hb hnow hhash hcut
      refine ⟨fun _ _ heq => ?_, fun _ heq => (by cases heq)⟩
      cases heq
      exact ⟨hnow, hhash, old, hb, hcut⟩
  obtain ⟨s', hdraws, -, hend⟩ := solo_sound (draws_start hw) hs hprogram hrun
  rw [hdraws.base, hdraws.out]
  exact hend

/-! ## A number corrected -/

def stranger : (T : Table) → List (Row T)
  | .customers => [(⟨0, 0, none, "+972500000000", "Noa", none⟩ : Customer)]
  | .bookings => [(⟨1, 0, none, 0, 0, 100, 1, .confirmed, .storefront, some 1, some 0, "fitting", none, none, none, none,
      some (manageTokenHash 7), none, none, none⟩ : Booking)]
  | .scheduledMessages => [(⟨2, 0, none, some 1, none, .reminder, 50, .pending, some 7⟩ : ScheduledMessage)]
  | _ => []

theorem stranger_shelved : Shelved (listed (S := schema) stranger) 3 :=
  shelved_of_stocked [.bookings, .payments, .customers, .otpCodes, .scheduledMessages, .auditLog, .messageLog,
    .availabilityRules, .availabilityExceptions, .appointmentTypes, .termsVersions, .dresses, .dressVariants,
    .dressReservations, .waitlistEntries] (fun T => by cases T <;> decide) (by decide)

def beforeCorrection : BWorld := ⟨Txn.atRest (listed (S := schema) stranger) 3 10, ⟨[], [], 8, []⟩⟩

def quietly : Input := ⟨false, false, none, false, .error .unexpected, false, .sent, false, .sent⟩

def correction : Option (Except Err (Booking × Nat) × BWorld) :=
  Txn.alone 0 quietly (OwnerBooking.correctPhone 1 "0501234567" 9) beforeCorrection

def relinks (p : Except Err (Booking × Nat) × BWorld) : Bool :=
  p.1.isOk && ((p.2.db.committed .bookings 1).bind fun (b : Booking) => b.manageTokenHash) = some (manageTokenHash 8) &&
    contactPhone p.2.db.committed 1 = some "+972501234567"

/-- **Noa's number corrected**: the booking's number has changed, no token of the eight opens it, and its reminder has the
new link. -/
theorem correction_cuts : ∃ booking token w', Solo (fun _ _ => True) 0 (OwnerBooking.correctPhone 1 "0501234567" 9) beforeCorrection
    (.ok (booking, token)) w' ∧ contactPhone w'.db.committed 1 = some "+972501234567" ∧
    w'.db.committed .bookings 1 = some booking ∧ CutOff beforeCorrection.db.committed w'.db.committed 10 8 w'.out.tokens 0 := by
  have hruns : correction.any relinks = true := by decide
  obtain ⟨⟨x, w'⟩, hrun, hP⟩ := (Option.any_eq_true ..).1 hruns
  have hsolo := solo_of_alone (A := fun _ _ => True) (fun _ => trivial) (Option.mem_def.1 hrun)
  cases x with
  | error e => cases hP
  | ok result =>
    simp only [relinks, Bool.and_eq_true, decide_eq_true_eq] at hP
    obtain ⟨hnow, -, old, hold, hcuts⟩ := (correctPhone_cuts (atRest_unheld stranger_shelved) hsolo).1 result.1 result.2 rfl
    cases hold
    exact ⟨result.1, result.2, w', hsolo, hP.2, hnow, hcuts⟩

end Boutique
