import Boutique.Fair
import Mathlib.Data.Finset.Card
import Mathlib.Data.Finset.Range
/-!
# Places — a text that failed costs nobody her place

Ticks and drains take turns.  A drain marks the texts, and fails one only while its offer stands; a tick reads what became of
them, and puts back at her place whoever was never told.
-/
namespace Waitlist

open Txn Session

variable {A : Ask → Input → Prop} {t : Tid} {cfg : Config} {now : Int} {s s' : Draft schema outside} {R : Rows schema}
  {rules : List Boutique.AvailabilityRule} {exceptions : Int → List Boutique.AvailabilityException}

/-! ## The drain -/

def marked (m : ScheduledMessage) (status : Mark) : ScheduledMessage :=
  { m with status := status.status, manageToken := none }

variable {m r : ScheduledMessage} {status : Mark} {i : Nat} {x : Except Err CascadeResult}

theorem marked_pending : (marked m status).pending = false := by
  cases status <;> simp [marked, ScheduledMessage.pending, Mark.status]

def Stands (R : Rows schema) (m : ScheduledMessage) : Prop :=
  ∀ i, m.subject = .entry i → ∃ w : WaitlistEntry, R .entries i = some w ∧ w.offered = true

/-- **What a drain has done** to the rows `R`: texts marked, and none failed whose offer does not stand. -/
structure Drained (R : Rows schema) (s : Draft schema outside) : Prop where
  messages : ∀ j, s.rows .messages j = R .messages j ∨ ∃ (m : ScheduledMessage) (status : Mark),
    R .messages j = some m ∧ m.pending = true ∧ s.rows .messages j = some (marked m status) ∧
      (status = .failed → Stands R m)
  others : ∀ T, T ≠ .messages → s.rows T = R T

theorem Drained.write {j : Nat} {v row : ScheduledMessage} (h : Drained R s) (hv : s.rows .messages j = some v)
    (hr : MessageChange.apply v (.mark status) = some r) (hrow : R .messages j = some row)
    (hstands : status = .failed → Stands R row) : Drained R (s.write .messages j r) := by
  simp only [MessageChange.apply] at hr
  split at hr
  · rename_i hpending
    cases hr
    have hold : R .messages j = some v := by
      rcases h.messages j with hsame | ⟨m, _, -, -, hm, -⟩
      · rw [← hsame, hv]
      · rw [hm] at hv
        cases hv
        rw [marked_pending] at hpending
        cases hpending
    obtain rfl := Option.some.inj (hold.symm.trans hrow)
    refine ⟨fun k => ?_, fun T hT => (Draft.write_table hT).trans (h.others T hT)⟩
    by_cases hk : k = j
    · subst hk
      exact .inr ⟨v, status, hold, hpending, Draft.write_same, hstands⟩
    · rw [Draft.write_row hk]
      exact h.messages k
  · cases hr

section Drain

variable {β : Type} {Q : Except Err β → Draft schema outside → Prop} {row : ScheduledMessage}

theorem mark_rule {k : Option ScheduledMessage → Prg β} (h : Drained R s) (hs : s.Sound)
    (hrow : R .messages row.id = some row) (hstands : status = .failed → Stands R row)
    (herr : ∀ e s', s'.base = s.base → Q (.error e) s')
    (hok : ∀ x s', Drained R s' → s'.Sound → s'.base = s.base → s'.next = s.next → (k x).wp (drafts A t) Q s') :
    (Scheduled.mark row.id status >>= k).wp (drafts A t) Q s :=
  drafts_update (fun _ => hok none s h hs rfl rfl) (herr _ s rfl) fun _ _ hv hr hw =>
    hok _ _ (h.write hv hr hrow hstands) hw rfl rfl

end Drain

section Row

variable {row : ScheduledMessage}

theorem sendOrFail_rule {phone : Option String} {Q : Except Err Unit → Draft schema outside → Prop} (h : Drained R s)
    (hs : s.Sound) (hrow : R .messages row.id = some row) (hstands : Stands R row)
    (herr : ∀ e s', s'.base = s.base → Q (.error e) s')
    (hok : ∀ s', Drained R s' → s'.Sound → s'.base = s.base → s'.next = s.next → Q (.ok ()) s') :
    (BookingComms.sendOrFail row phone).wp (drafts A t) Q s := by
  unfold BookingComms.sendOrFail
  split
  · rename_i token phone _
    refine drafts_ask (V := outside) (q := Ask.sendSms phone row.id token) fun i _ => ?_
    split
    · exact herr _ _ rfl
    · exact mark_rule ⟨h.messages, h.others⟩ ⟨hs.base, hs.rows⟩ hrow nofun herr fun _ s' h' hs' hb hn => hok s' h' hs' hb hn
    · exact mark_rule ⟨h.messages, h.others⟩ ⟨hs.base, hs.rows⟩ hrow (fun _ => hstands) herr
        fun _ s' h' hs' hb hn => hok s' h' hs' hb hn
  · exact mark_rule h hs hrow (fun _ => hstands) herr fun _ s' h' hs' hb hn => hok s' h' hs' hb hn

variable {Q : Except Err Bool → Draft schema outside → Prop} (h : Drained R s) (hs : s.Sound)
  (hrow : R .messages row.id = some row) (herr : ∀ e s', s'.base = s.base → Q (.error e) s')
  (hok : ∀ x s', Drained R s' → s'.Sound → s'.base = s.base → s'.next = s.next → Q (.ok x) s')

include h hs hrow herr hok

theorem drainNone_rule : (BookingComms.drainSubject row none).wp (drafts A t) Q s :=
  mark_rule h hs hrow nofun herr fun _ s' h' hs' hb hn => hok true s' h' hs' hb hn

theorem drainSome_rule {p : Prg (Option String)} (hstands : Stands R row)
    (hp : ∀ (Q : Except Err (Option String) → Draft schema outside → Prop) (s : Draft schema outside),
      (∀ phone, Q (.ok phone) s) → p.wp (drafts A t) Q s) :
    (BookingComms.drainSubject row (some p)).wp (drafts A t) Q s := by
  refine drafts_ask (V := outside) (q := Ask.smsConfigured) fun i _ => drafts_ite (fun _ => ?_) fun _ => ?_
  · exact hok false _ ⟨h.messages, h.others⟩ ⟨hs.base, hs.rows⟩ rfl rfl
  · refine drafts_bind (hp _ _ fun phone => drafts_bind ?_)
    exact sendOrFail_rule ⟨h.messages, h.others⟩ ⟨hs.base, hs.rows⟩ hrow hstands herr
      fun s' h' hs' hb hn => hok true s' h' hs' hb hn

theorem drainRow_rule : (BookingComms.drainRow row now).wp (drafts A t) Q s := by
  unfold BookingComms.drainRow
  split
  · rename_i bookingId hsubject
    have hstands : Stands R row := fun i hi => by rw [hsubject] at hi; cases hi
    refine drafts_select ?_
    split
    · exact drainNone_rule h hs hrow herr hok
    · refine drafts_ite (fun _ => drainNone_rule h hs hrow herr hok) fun _ => ?_
      exact drainSome_rule h hs hrow herr hok hstands fun Q s hQ => hQ _
  · rename_i entryId hsubject
    refine drafts_select ?_
    split
    · exact drainNone_rule h hs hrow herr hok
    · rename_i w hw
      refine drafts_ite (fun _ => drainNone_rule h hs hrow herr hok) fun hstanding => ?_
      refine drainSome_rule h hs hrow herr hok (fun i hi => ?_) fun Q s hQ => hQ _
      obtain rfl : entryId = i := Subject.entry.inj (hsubject.symm.trans hi)
      obtain ⟨hrow', hlive⟩ := Option.filter_eq_some_iff.1 hw
      have hrow' : s.rows .entries entryId = some w := hrow'
      have hstatus : w.status = .offered := by
        by_contra hne
        exact hstanding (.inl hne)
      refine ⟨w, by rw [← h.others .entries (by decide)]; exact hrow', ?_⟩
      rw [WaitlistEntry.offered, decide_eq_true_eq]
      exact ⟨of_decide_eq_true hlive, hstatus⟩

end Row

theorem claimDue_row (h : MessageChange.apply m (.claimDue now) = some r) : r = m := by
  simp only [MessageChange.apply] at h
  split at h
  · exact (Option.some.inj h).symm
  · cases h

theorem set_self {T : Table} {r : Row T} (h : R T i = some r) : R.set T i r = R := by
  funext T' j
  by_cases hj : T' = T ∧ j = i
  · obtain ⟨rfl, rfl⟩ := hj
    rw [Rows.set_same, h]
  · exact Rows.set_other hj

theorem lockDue_rule {is : List Nat} {limit : Nat} {Q : Except Err (List ScheduledMessage) → Draft schema outside → Prop}
    (hs : s.Sound) (herr : ∀ e s', s'.base = s.base → Q (.error e) s')
    (hok : ∀ rows s', (∀ row ∈ rows, s.rows .messages row.id = some row) → s'.rows = s.rows → s'.Sound → s'.base = s.base →
      s'.next = s.next → Q (.ok rows) s') : (Scheduled.lockDue now is limit).wp (drafts A t) Q s := by
  induction is generalizing s limit Q with
  | nil => exact hok [] s nofun rfl hs rfl rfl
  | cons i is ih =>
    cases limit with
    | zero => exact hok [] s nofun rfl hs rfl rfl
    | succ limit =>
      refine drafts_ask (V := outside) (q := Ask.rowLocked i) fun a _ => drafts_ite (fun _ => ?_) fun _ => ?_
      · exact ih ⟨hs.base, hs.rows⟩ herr hok
      refine drafts_update (fun _ => ?_) (herr _ _ rfl) fun v r hv hr hw => ?_
      · exact ih ⟨hs.base, hs.rows⟩ herr hok
      obtain rfl : r = v := claimDue_row hr
      have hv : s.rows .messages i = some r := hv
      have hid : ScheduledMessage.id r = i := hs.rows.consistent.id .messages i r hv
      have hrows : (s.rows.set .messages i r) = s.rows := set_self hv
      refine drafts_bind (ih hw herr fun rows s' hin hrows' hs' hb hn => ?_)
      have hrows' : s'.rows = s.rows := hrows'.trans hrows
      refine hok (r :: rows) s' (fun row hrow => ?_) hrows' hs' hb hn
      rcases List.mem_cons.1 hrow with rfl | hrow
      · rw [hid]
        exact hv
      · have := hin row hrow
        rw [← hrows]
        exact this

theorem drainRows_rule {rows : List ScheduledMessage} {Q : Except Err Unit → Draft schema outside → Prop} (h : Drained R s)
    (hs : s.Sound) (hrows : ∀ row ∈ rows, R .messages row.id = some row)
    (herr : ∀ e s', s'.base = s.base → Q (.error e) s')
    (hok : ∀ s', Drained R s' → s'.Sound → s'.base = s.base → s'.next = s.next → Q (.ok ()) s') :
    (BookingComms.drainRows now rows).wp (drafts A t) Q s := by
  induction rows generalizing s with
  | nil => exact hok s h hs rfl rfl
  | cons row rows ih =>
    refine drafts_bind (drainRow_rule h hs (hrows row List.mem_cons_self) herr fun goOn s' h' hs' hb hn => ?_)
    refine drafts_ite (fun _ => ?_) fun _ => hok s' h' hs' hb hn
    exact ih h' hs' (fun row hrow => hrows row (List.mem_cons_of_mem _ hrow)) (fun e s'' hbase => herr e s'' (hbase.trans hb))
      fun s'' h'' hs'' hb' hn' => hok s'' h'' hs'' (hb'.trans hb) (hn'.trans hn)

theorem drainDue_rule {Q : Except Err Response → Draft schema outside → Prop} (hs : s.Sound)
    (herr : ∀ e s', s'.base = s.base → s'.idle = true → Q (.error e) s')
    (hok : ∀ r s1 s', Drained s.rows s1 → s1.Sound → s1.next = s.next → s'.base = s1.rows → s'.next = s.next →
      s'.idle = true → Q (.ok r) s') : BookingComms.drainDue.wp (drafts A t) Q s := by
  refine drafts_now (drafts_tenantSession (drafts_bind (drafts_select ?_)))
  refine lockDue_rule ⟨hs.base, hs.rows⟩ (fun e s' hbase => herr e _ hbase rfl) fun rows s1 hin hrows hs1 hb hn => ?_
  have hstart : Drained s.rows s1 := ⟨fun j => .inl (by rw [hrows]), fun T _ => by rw [hrows]⟩
  refine drafts_bind (drainRows_rule hstart hs1 hin (fun e s' hbase => herr e _ (hbase.trans hb) rfl) ?_)
  exact fun s2 h2 hs2 _ hn2 => hok _ s2 _ h2 hs2 (hn2.trans hn) rfl (hn2.trans hn) rfl

/-! ## Refusals -/

theorem refusals_card (s : Snapshot schema) (i : Nat) : refusals s i = ((Finset.range s.next).filter fun j =>
    (s.rows .messages j).any (fun (m : ScheduledMessage) => m.refused i) = true).card := by
  have hcount : refusals s i = ((List.range s.next).filter fun j =>
      (s.rows .messages j).any fun (m : ScheduledMessage) => m.refused i).length := by
    rw [refusals, ← List.countP_eq_length_filter, ← List.countP_eq_length_filter, Snapshot.all, List.countP_filterMap]
    refine List.countP_congr fun j _ => ?_
    cases s.rows .messages j <;> simp
  rw [hcount, ← List.toFinset_card_of_nodup (List.nodup_range.filter _)]
  congr 1
  ext j
  simp

theorem refusals_le {s s' : Snapshot schema} (h : ∀ j (m : ScheduledMessage), j < s.next →
    s.rows .messages j = some m → m.refused i = true →
      j < s'.next ∧ ∃ m' : ScheduledMessage, s'.rows .messages j = some m' ∧ m'.refused i = true) :
    refusals s i ≤ refusals s' i := by
  rw [refusals_card, refusals_card]
  refine Finset.card_le_card fun j hj => ?_
  obtain ⟨hlt, hany⟩ := Finset.mem_filter.1 hj
  obtain ⟨m, hm, hrefused⟩ := (Option.any_eq_true ..).1 hany
  obtain ⟨hlt', m', hm', hrefused'⟩ := h j m (Finset.mem_range.1 hlt) hm hrefused
  refine Finset.mem_filter.2 ⟨Finset.mem_range.2 hlt', ?_⟩
  rw [hm', Option.any_some, hrefused']

theorem refused_status (h : m.refused i = true) : m.status = .failed :=
  (of_decide_eq_true h).2.1

theorem refused_pending (h : m.refused i = true) : m.pending = false := by
  simp [ScheduledMessage.pending, refused_status h]

theorem Ticked.refusals (h : Ticked cfg rules exceptions now s s') (hs : s.Sound) (hs' : s'.Sound) (i : Nat) :
    refusals s'.snapshot i = refusals s.snapshot i := by
  obtain ⟨s1, hs1, hexpires, hissuing⟩ := h
  refine Nat.le_antisymm (refusals_le fun j m _ hm hrefused => ?_) (refusals_le fun j m _ hm hrefused => ?_)
  · -- a refusal after it was one before: what it queues waits, and what it withdraws is cancelled
    rcases hissuing.queued j m hm with hold | hpending
    · rcases hexpires.messages j with hsame | ⟨m0, -, -, hr⟩
      · have hold : s.rows .messages j = some m := hsame.symm.trans hold
        exact ⟨hs.rows.lt .messages j m hold, m, hold, hrefused⟩
      · obtain rfl := Option.some.inj (hold.symm.trans hr)
        cases refused_status hrefused
    · rw [refused_status hrefused] at hpending
      cases hpending
  · rcases hexpires.messages j with hsame | ⟨m0, hm0, hpending, -⟩
    · have hkept := hissuing.messages j m (hsame.trans hm)
      exact ⟨hs'.rows.lt .messages j m hkept, m, hkept, hrefused⟩
    · obtain rfl := Option.some.inj (hm.symm.trans hm0)
      rw [refused_pending hrefused] at hpending
      cases hpending

theorem Drained.le_refusals (h : Drained s.rows s') (hnext : s'.next = s.next) :
    Waitlist.refusals s.snapshot i ≤ Waitlist.refusals s'.snapshot i := by
  refine refusals_le fun j m hlt hm hrefused => ⟨Nat.lt_of_lt_of_eq hlt hnext.symm, ?_⟩
  rcases h.messages j with hsame | ⟨m0, _, hm0, hpending, -⟩
  · exact ⟨m, hsame.trans hm, hrefused⟩
  · obtain rfl := Option.some.inj (hm.symm.trans hm0)
    rw [refused_pending hrefused] at hpending
    cases hpending

theorem Drained.refusals_waiting {w : WaitlistEntry} (h : Drained s.rows s') (hnext : s'.next = s.next)
    (hw : s.rows .entries i = some w) (hwaiting : w.waiting = true) :
    Waitlist.refusals s'.snapshot i ≤ Waitlist.refusals s.snapshot i := by
  refine refusals_le fun j m hlt hm hrefused => ⟨Nat.lt_of_lt_of_eq hlt hnext, ?_⟩
  rcases h.messages j with hsame | ⟨m0, status, hm0, -, hmarked, hstands⟩
  · exact ⟨m, hsame.symm.trans hm, hrefused⟩
  · obtain rfl := Option.some.inj (hm.symm.trans hmarked)
    obtain ⟨hsubject, hfailed, -⟩ := of_decide_eq_true hrefused
    have hstatus : status = .failed := by
      cases status <;> first | rfl | cases hfailed
    obtain ⟨w', hw', hoffered⟩ := hstands hstatus i hsubject
    obtain rfl := Option.some.inj (hw.symm.trans hw')
    have := offered_status hoffered
    rw [waiting_status hwaiting] at this
    cases this

/-! ## Ticks and drains by turns -/

def Deserving (s : Snapshot schema) : Prop :=
  ∀ i (w : WaitlistEntry), s.rows .entries i = some w → w.waiting = true → refusals s i < MAX_OFFER_SEND_FAILURES

/-- **What a tick may make of an offer that stood**: it stands unless its turn to close has come; it is over where it was
had; else she is back at her place and holds nothing of it, or has the next offer already. -/
def Settles (R : Snapshot schema) (now : Int) (i : Nat) (v r : WaitlistEntry) : Prop :=
  (i ∉ dueIds now R ∧ r = v) ∨
    (r = closedAs .expired v ∧ (told R i = true ∨ MAX_OFFER_SEND_FAILURES ≤ refusals R i)) ∨
      (told R i = false ∧ refusals R i < MAX_OFFER_SEND_FAILURES ∧
        (r = closedAs .waiting v ∨ ∃ x y token, r = offeredAs (closedAs .waiting v) now x y token))

theorem spent_eq_true {R : Snapshot schema} :
    spent R i = true ↔ told R i = true ∨ MAX_OFFER_SEND_FAILURES ≤ refusals R i := by
  simp [spent]

theorem spent_eq_false {R : Snapshot schema} :
    spent R i = false ↔ told R i = false ∧ refusals R i < MAX_OFFER_SEND_FAILURES := by
  simp [spent]

theorem Ticked.settles {v : WaitlistEntry} (h : Ticked cfg rules exceptions now s s')
    (hv : s.rows .entries i = some v) (hoffered : v.offered = true) :
    ∃ r, s'.rows .entries i = some r ∧ Settles s.snapshot now i v r := by
  obtain ⟨s1, hs1, hexpires, hissuing⟩ := h
  have hrow := hexpires.entries i
  rw [hv] at hrow
  split at hrow
  · rw [Option.map_some, swept, if_pos hoffered] at hrow
    unfold closing at hrow
    cases hspent : spent s.snapshot i with
    | true =>
      rw [hspent, if_pos rfl] at hrow
      rcases hissuing.entries i with hsame | ⟨v', r, hv', -, -, hfresh⟩
      · exact ⟨_, hsame.trans hrow, .inr (.inl ⟨rfl, spent_eq_true.1 hspent⟩)⟩
      · obtain rfl := Option.some.inj (hrow.symm.trans hv')
        have := waiting_status hfresh.waited
        cases this
    | false =>
      rw [hspent, if_neg Bool.false_ne_true] at hrow
      obtain ⟨htold, hfew⟩ := spent_eq_false.1 hspent
      rcases hissuing.entries i with hsame | ⟨v', r, hv', hr, -, hfresh⟩
      · exact ⟨_, hsame.trans hrow, .inr (.inr ⟨htold, hfew, .inl rfl⟩)⟩
      · obtain rfl := Option.some.inj (hrow.symm.trans hv')
        obtain ⟨slot, -, -, y, -, token, rfl⟩ := hfresh.row
        exact ⟨_, hr, .inr (.inr ⟨htold, hfew, .inr ⟨_, _, _, rfl⟩⟩)⟩
  · rename_i hdue
    rcases hissuing.entries i with hsame | ⟨v', r, hv', -, -, hfresh⟩
    · exact ⟨v, hsame.trans hrow, .inl ⟨hdue, rfl⟩⟩
    · obtain rfl := Option.some.inj (hrow.symm.trans hv')
      have hstatus := offered_status hoffered
      rw [waiting_status hfresh.waited] at hstatus
      cases hstatus

theorem Expires.spare {s1 : Draft schema outside} {v : WaitlistEntry} (h : Expires now s s1) (hs : s.Sound)
    (hdeserving : Deserving s.snapshot) (hv : s1.rows .entries i = some v) (hwaiting : v.waiting = true) :
    Waitlist.refusals s.snapshot i < MAX_OFFER_SEND_FAILURES := by
  rcases h.entry hs hv with hold | ⟨v0, -, -, -, rfl⟩
  · exact hdeserving i v hold hwaiting
  · unfold closing at hwaiting
    cases hspent : spent s.snapshot i with
    | true =>
      rw [hspent, if_pos rfl] at hwaiting
      cases waiting_status hwaiting
    | false => exact (spent_eq_false.1 hspent).2

theorem Ticked.spare {r : WaitlistEntry} (h : Ticked cfg rules exceptions now s s') (hs : s.Sound)
    (hdeserving : Deserving s.snapshot) (hr : s'.rows .entries i = some r) (hoffered : r.offered = true)
    (hmoved : s.rows .entries i ≠ some r) : Waitlist.refusals s.snapshot i < MAX_OFFER_SEND_FAILURES := by
  obtain ⟨s1, hs1, hexpires, hissuing⟩ := h
  rcases hissuing.entries i with hsame | ⟨v, r', hv, -, -, hfresh⟩
  · rw [hsame] at hr
    rcases hexpires.entry hs hr with hold | ⟨v0, -, -, -, rfl⟩
    · exact absurd hold hmoved
    · rw [closedAs_offered] at hoffered
      cases hoffered
  · exact hexpires.spare hs hdeserving hv hfresh.waited

theorem Ticked.deserving (h : Ticked cfg rules exceptions now s s') (hs : s.Sound) (hs' : s'.Sound)
    (hdeserving : Deserving s.snapshot) : Deserving s'.snapshot := by
  intro i w hw hwaiting
  rw [h.refusals hs hs']
  obtain ⟨s1, hs1, hexpires, hissuing⟩ := h
  rcases hissuing.entries i with hsame | ⟨v, r, -, hr, -, hfresh⟩
  · exact hexpires.spare hs hdeserving (hsame.symm.trans hw) hwaiting
  · obtain rfl := Option.some.inj (hr.symm.trans hw)
    rw [hfresh.waiting] at hwaiting
    cases hwaiting

theorem Drained.deserving (h : Drained s.rows s') (hnext : s'.next = s.next) (hdeserving : Deserving s.snapshot) :
    Deserving s'.snapshot := by
  intro i w hw hwaiting
  have hw : s.rows .entries i = some w := (congrFun (h.others .entries (by decide)) i).symm.trans hw
  exact Nat.lt_of_le_of_lt (h.refusals_waiting hnext hw hwaiting) (hdeserving i w hw hwaiting)

/-- **A single worker's turns**: ticks and drains, whole, and time in between. -/
inductive Turns (cfg : Config) (t : Tid) : World schema outside → World schema outside → Prop
  | refl (w : World schema outside) : Turns cfg t w w
  | tick {w w₁ w₂ : World schema outside} {rules : List Boutique.AvailabilityRule}
      {exceptions : Int → List Boutique.AvailabilityException} {x : Except Err CascadeResult} (before : Turns cfg t w w₁)
      (run : Solo (standing rules exceptions) t (WaitlistCascade.run cfg) w₁ x w₂) : Turns cfg t w w₂
  | drain {w w₁ w₂ : World schema outside} {x : Except Err Response} (before : Turns cfg t w w₁)
      (run : Solo (fun _ _ => True) t BookingComms.drainDue w₁ x w₂) : Turns cfg t w w₂
  | wait {w w₁ : World schema outside} (before : Turns cfg t w w₁) (now : Int) (later : w₁.db.clock ≤ now) :
      Turns cfg t w { w₁ with db := { w₁.db with clock := now } }

variable {w w₁ w₂ w₃ : World schema outside}

theorem draft_sound (hw : w.db.Unheld) : (w.draft t).Sound := ⟨⟨hw.consistent, hw.lt⟩, ⟨hw.consistent, hw.lt⟩⟩

theorem tick_ticked (hw : w.db.Unheld) (hrun : Solo (standing rules exceptions) t (WaitlistCascade.run cfg) w x w₁) :
    w₁.db.Unheld ∧ match x with
      | .error _ => w₁.db.committed = w.db.committed
      | .ok _ => ∃ s s' : Draft schema outside, s.Sound ∧ s'.Sound ∧ s.snapshot = shelf w ∧ s'.snapshot = shelf w₁ ∧
          Ticked cfg rules exceptions w.db.clock s s' := by
  have hs : (w.draft t).Sound := draft_sound hw
  have hprogram : (WaitlistCascade.run cfg).wp (drafts (standing rules exceptions) t) (fun x s' => s'.idle = true ∧
      match x with
      | .error _ => s'.base = w.db.committed
      | .ok _ => ∃ s2, Ticked cfg rules exceptions w.db.clock { w.draft t with started := w.db.clock } s2 ∧
          s2.Sound ∧ s'.base = s2.rows ∧ s'.next = s2.next) (w.draft t) :=
    run_rule (fun _ h => h) (fun _ _ h => h) hs (fun e s' hbase hidle => ⟨hidle, hbase⟩)
      fun r s2 s' h hs2 hbase hnext hidle => ⟨hidle, s2, h, hs2, hbase, hnext⟩
  obtain ⟨s', hdraws, hs', hidle, hend⟩ := solo_sound (draws_start hw) hs hprogram hrun
  refine ⟨hdraws.unheld hs' hidle, ?_⟩
  rw [← hdraws.base] at hend
  cases x with
  | error e => exact hend
  | ok r =>
    obtain ⟨s2, hticked, hs2, hrows, hnext⟩ := hend
    have hshelf : s2.snapshot = shelf w₁ := by rw [shelf, hrows, hdraws.next, hnext]; rfl
    exact ⟨{ w.draft t with started := w.db.clock }, s2, ⟨hs.base, hs.rows⟩, hs2, rfl, hshelf, hticked⟩

theorem drain_drained {x : Except Err Response} (hw : w.db.Unheld)
    (hrun : Solo (fun _ _ => True) t BookingComms.drainDue w x w₁) :
    w₁.db.Unheld ∧ (w₁.db.committed = w.db.committed ∨ ∃ s s' : Draft schema outside, s.snapshot = shelf w ∧
      s'.snapshot = shelf w₁ ∧ s'.next = s.next ∧ Drained s.rows s') := by
  have hs : (w.draft t).Sound := draft_sound hw
  have hprogram : BookingComms.drainDue.wp (drafts (fun _ _ => True) t) (fun _ s' => s'.idle = true ∧
      (s'.base = w.db.committed ∨ ∃ s1 : Draft schema outside, Drained (w.draft t).rows s1 ∧ s1.next = (w.draft t).next ∧
        s'.base = s1.rows ∧ s'.next = (w.draft t).next)) (w.draft t) :=
    drainDue_rule hs (fun e s' hbase hidle => ⟨hidle, .inl hbase⟩)
      fun r s1 s' h _ hnext hbase hnext' hidle => ⟨hidle, .inr ⟨s1, h, hnext, hbase, hnext'⟩⟩
  obtain ⟨s', hdraws, hs', hidle, hend⟩ := solo_sound (draws_start hw) hs hprogram hrun
  refine ⟨hdraws.unheld hs' hidle, ?_⟩
  rw [← hdraws.base] at hend
  rcases hend with hfailed | ⟨s1, hdrained, hnext, hrows, hnext'⟩
  · exact .inl hfailed
  · have hshelf : s1.snapshot = shelf w₁ := by rw [shelf, hrows, hdraws.next, hnext', ← hnext]; rfl
    exact .inr ⟨w.draft t, s1, rfl, hshelf, hnext, hdrained⟩

theorem refusals_committed (hw : w.db.Unheld) (hw1 : w₁.db.Unheld) (h : w₁.db.committed = w.db.committed) :
    refusals (shelf w₁) i = refusals (shelf w) i := by
  refine Nat.le_antisymm (refusals_le fun j m _ hm hrefused => ?_) (refusals_le fun j m _ hm hrefused => ?_)
  · have hm : w.db.committed .messages j = some m := h ▸ hm
    exact ⟨hw.lt .messages j m hm, m, hm, hrefused⟩
  · have hm : w₁.db.committed .messages j = some m := h.symm ▸ hm
    exact ⟨hw1.lt .messages j m hm, m, hm, hrefused⟩

/-- **What every turn keeps**: nothing is held between turns, nobody waits undeserving, and no refusal is forgotten. -/
structure Keeps (w w₁ : World schema outside) : Prop where
  unheld : w₁.db.Unheld
  deserving : Deserving (shelf w) → Deserving (shelf w₁)
  refusals : ∀ i, Waitlist.refusals (shelf w) i ≤ Waitlist.refusals (shelf w₁) i

theorem keeps_committed (hw : w.db.Unheld) (hw1 : w₁.db.Unheld) (h : w₁.db.committed = w.db.committed) : Keeps w w₁ where
  unheld := hw1
  deserving hdeserving i v hv hwaiting := by
    rw [refusals_committed hw hw1 h]
    exact hdeserving i v (show w.db.committed .entries i = some v from h ▸ hv) hwaiting
  refusals i := Nat.le_of_eq (refusals_committed hw hw1 h).symm

theorem tick_keeps (hw : w.db.Unheld) (hrun : Solo (standing rules exceptions) t (WaitlistCascade.run cfg) w x w₁) :
    Keeps w w₁ := by
  obtain ⟨hw1, hticked⟩ := tick_ticked hw hrun
  cases x with
  | error e => exact keeps_committed hw hw1 hticked
  | ok r =>
    obtain ⟨s, s', hs, hs', hshelf, hshelf', hticked⟩ := hticked
    refine ⟨hw1, fun hdeserving => ?_, fun i => ?_⟩
    · rw [← hshelf']
      exact hticked.deserving hs hs' (hshelf ▸ hdeserving)
    · rw [← hshelf, ← hshelf', hticked.refusals hs hs']

theorem drain_keeps {x : Except Err Response} (hw : w.db.Unheld)
    (hrun : Solo (fun _ _ => True) t BookingComms.drainDue w x w₁) : Keeps w w₁ := by
  obtain ⟨hw1, hsame | ⟨s, s', hshelf, hshelf', hnext, hdrained⟩⟩ := drain_drained hw hrun
  · exact keeps_committed hw hw1 hsame
  · refine ⟨hw1, fun hdeserving => ?_, fun i => ?_⟩
    · rw [← hshelf']
      exact hdrained.deserving hnext (hshelf ▸ hdeserving)
    · rw [← hshelf, ← hshelf']
      exact hdrained.le_refusals hnext

theorem Keeps.trans (h : Keeps w w₁) (h' : Keeps w₁ w₂) : Keeps w w₂ :=
  ⟨h'.unheld, fun hd => h'.deserving (h.deserving hd), fun i => Nat.le_trans (h.refusals i) (h'.refusals i)⟩

theorem keeps_later (hw : w.db.Unheld) (now : Int) : Keeps w { w with db := { w.db with clock := now } } :=
  ⟨⟨hw.unowned, hw.unwritten, hw.consistent, hw.lt⟩, id, fun _ => Nat.le_refl _⟩

theorem Turns.keeps (h : Turns cfg t w w₁) (hw : w.db.Unheld) : Keeps w w₁ := by
  induction h with
  | refl => exact ⟨hw, id, fun _ => Nat.le_refl _⟩
  | tick before run ih => exact ih.trans (tick_keeps ih.unheld run)
  | drain before run ih => exact ih.trans (drain_keeps ih.unheld run)
  | wait before now later ih => exact ih.trans (keeps_later ih.unheld now)

def answered : Except Err CascadeResult → Bool
  | .ok _ => true
  | .error _ => false

def moves (w : World schema outside) (p : Except Err CascadeResult × World schema outside) : Bool :=
  decide (w.db.clock ≤ 7200 * Boutique.second) && (w.db.committed .entries 0).any (fun (v : WaitlistEntry) => v.offered) &&
    decide (p.2.db.committed .entries 0 ≠ w.db.committed .entries 0) && answered p.1

end Waitlist
