import Boutique.Inbox
/-!
# Attribution — whose messages a customer is shown

A message goes to the number that a customer's row stored when its request read it, the booking being hers as that request had
loaded or written it.  The reads find it where the booking points, so it is another's only after a correction has moved the
booking; and what the provider took is in the log of whoever the booking points at.
-/
namespace Inbox

open Txn Session Contract

variable {G : Tid → Query → Nat → Prop} {reqs : Tid → Request} {t : Tid} {e e' : Engine schema}

/-! ## What requests may write -/

def SameMessage (r r' : MessageLog) : Prop :=
  r'.phone = r.phone ∧ r'.bookingId = r.bookingId ∧ r'.recipient = r.recipient ∧ r'.deletedAt = r.deletedAt

def letters : Discipline schema where
  Trans _ T r r' := match T with
    | .customers => True
    | .bookings => Booking.deletedAt r' = Booking.deletedAt r
    | .messageLog => SameMessage r r'
  New _ T r := match T with
    | .messageLog => MessageLog.deletedAt r = none
    | _ => True
  refl _ T r := by
    cases T with
    | customers => trivial
    | bookings => rfl
    | messageLog => exact ⟨rfl, rfl, rfl, rfl⟩
  trans _ T r r' r'' h h' := by
    cases T with
    | customers => trivial
    | bookings => exact Eq.trans h' h
    | messageLog =>
      exact ⟨h'.1.trans h.1, h'.2.1.trans h.2.1, h'.2.2.1.trans h.2.2.1, h'.2.2.2.trans h.2.2.2⟩
  weaken T _ _ h := by cases T <;> exact h
  new_trans _ T r r' h h' := by
    cases T with
    | customers | bookings => trivial
    | messageLog => exact h'.2.2.2.trans h
  new_weaken T _ h := by cases T <;> exact h

def moves (req : Request) : Discipline schema where
  Trans _ T r r' := match T with
    | .bookings => Booking.id r' = Booking.id r ∧
      (Booking.customerId r' = Booking.customerId r ∨ ∃ phone, req = .correctPhone (Booking.id r) phone)
    | _ => True
  New _ _ _ := True
  refl _ T r := by
    cases T with
    | customers | messageLog => trivial
    | bookings => exact ⟨rfl, .inl rfl⟩
  trans _ T r r' r'' h h' := by
    cases T with
    | customers | messageLog => trivial
    | bookings =>
      obtain ⟨hid, hmoved⟩ := h
      obtain ⟨hid', hmoved'⟩ := h'
      refine ⟨hid'.trans hid, ?_⟩
      rcases hmoved with hsame | hby
      · rcases hmoved' with hsame' | hby'
        · exact .inl (hsame'.trans hsame)
        · exact .inr (hid ▸ hby')
      · exact .inr hby
  weaken T _ _ h := by cases T <;> exact h
  new_trans _ _ _ _ _ _ := trivial
  new_weaken _ _ _ := trivial

abbrev posting (reqs : Tid → Request) : Cast schema := letters.cast fun t => moves (reqs t)

def Fitting (req : Request) : Op schema outside → Prop
  | .sql (.update .bookings i (.setCustomerId _ _)) => ∃ phone, req = .correctPhone i phone
  | .sql (.insert .messageLog r) => MessageLog.deletedAt r = none
  | _ => True

variable {req : Request} {α : Type} {phone : Phone} {now : Int} {body : Prg (Booking × Bool)} {kind : MessageKind}
  {linked : Bool} {b : Booking} {i n customerId : Nat} {sn : Snapshot schema}

theorem fitting_legal {l : Bool} {o : Op schema outside} (h : Fitting req o) :
    (letters.both (moves req)).Legal l o := by
  cases o with
  | now | ask => trivial
  | sql o =>
    cases o with
    | begin | read | lock | commit | abort => trivial
    | insert T r =>
      cases T with
      | customers | bookings => exact fun _ _ => ⟨trivial, trivial⟩
      | messageLog => exact fun _ _ => ⟨h, trivial⟩
    | update T i g =>
      intro r r' hid hr
      cases T with
      | customers => exact ⟨trivial, trivial⟩
      | messageLog =>
        cases g with
        | updateStatus status =>
          cases hr
          exact ⟨⟨rfl, rfl, rfl, rfl⟩, trivial⟩
      | bookings =>
        have happly : BookingChange.apply r g = some r' := hr
        cases g with
        | setCustomerId customerId now =>
          obtain ⟨-, hr⟩ := Option.ite_none_right_eq_some.1 happly
          cases hr
          subst hid
          exact ⟨rfl, rfl, .inr h⟩
        | setStatus | reschedule | setManageTokenHash =>
          obtain ⟨-, hr⟩ := Option.ite_none_right_eq_some.1 happly
          cases hr
          exact ⟨rfl, rfl, .inl rfl⟩

section Footprints

variable {req : Request}

theorem only_session {body : Int → Prg α} (h : ∀ n, Only (Fitting req) (body n)) :
    Only (Fitting req) (tenantSession body : Prg α) :=
  only_tenantSession trivial trivial trivial h

theorem only_checks {P : Op schema outside → Prop} (h : P (.ask .checks)) : Only P checks := by
  refine only_bind (only_ask h) fun refusal => ?_
  cases refusal with
  | none => exact only_ret _
  | some e => exact only_raise _

theorem only_mark (k : Nat) (status : MessageStatus) : Only (Fitting req) (mark k status) := by
  refine only_session fun _ => only_bind (only_select trivial _) fun found => ?_
  cases found with
  | none => exact only_ret _
  | some r => exact only_update trivial _

theorem only_sendSms (phone : Phone) (kind : MessageKind) (bookingId recipient : Option Nat) :
    Only (Fitting req) (sendSms phone kind bookingId recipient) := by
  have hrow : Fitting req (.sql (.insert .messageLog (⟨0, 0, none, phone, kind, .queued, bookingId, recipient⟩ : MessageLog))) :=
    rfl
  refine only_bind (only_ask trivial) fun _ => only_bind (only_raiseIf _ _) fun _ => only_bind (only_raiseIf _ _) fun _ =>
    only_bind (only_session fun _ => only_insert hrow _) fun row => only_bind (only_ask trivial) fun result => ?_
  cases result with
  | accepted => exact only_bind (only_mark _ _) fun _ => only_ret _
  | refused | notConfigured => exact only_bind (only_mark _ _) fun _ => only_raise _

theorem only_deliver (phone : Phone) (kind : MessageKind) (booking : Booking) :
    Only (Fitting req) (deliver phone kind booking) := by
  refine only_bind (only_attempt (only_sendSms _ _ _ _)) fun outcome => ?_
  cases outcome with
  | ok _ => exact only_ret _
  | error e =>
    dsimp only
    split
    · exact only_ret _
    · exact only_raise _

theorem only_notify (kind : MessageKind) (linked : Bool) (booking : Booking) :
    Only (Fitting req) (notify kind linked booking) := by
  refine only_bind (only_ask trivial) fun configured => ?_
  cases configured with
  | false => exact only_ret _
  | true =>
    refine only_bind (only_bind (only_session fun _ => only_select trivial _) fun _ => only_ret _) fun phone => ?_
    cases phone with
    | none => exact only_ret _
    | some phone =>
      refine only_bind (only_ask trivial) fun atHand => ?_
      split
      · exact only_ret _
      · exact only_deliver _ _ _

theorem only_rotateLinks (now : Int) : ∀ is, Only (Fitting req) (rotateLinks now is)
  | [] => only_ret _
  | _ :: is => only_bind (only_update trivial _) fun _ => only_bind (only_raiseIf _ _) fun _ => only_rotateLinks now is

theorem only_guardLive (bookingId : Nat) (now : Int) : Only (Fitting req) (guardLive bookingId now) :=
  only_bind (only_select trivial _) fun _ => only_bind (only_orRaise _ _) fun _ => only_bind (only_raiseIf _ _) fun _ =>
    only_bind (only_raiseIf _ _) fun _ => only_ret _

theorem only_correctPhoneIn {bookingId : Nat} (hreq : req = .correctPhone bookingId phone) :
    Only (Fitting req) (correctPhoneIn bookingId phone now) := by
  have hdigits : ∀ booking, Only (Fitting req) (correctDigits booking phone now) := fun booking =>
    only_bind (only_update trivial _) fun _ => only_bind (only_raiseIf _ _) fun _ => only_bind (only_select trivial _) fun _ =>
      only_bind (only_rotateLinks _ _) fun _ => only_ret _
  refine only_bind (only_guardLive _ _) fun booking => only_bind (only_select trivial _) fun found => ?_
  cases found with
  | none => exact hdigits booking
  | some target =>
    dsimp only
    split
    · exact only_bind (only_select trivial _) fun _ => only_bind (only_raiseIf _ _) fun _ =>
        only_bind (only_update ⟨phone, hreq⟩ _) fun _ => only_bind (only_raiseIf _ _) fun _ =>
          only_bind (only_rotateLinks _ _) fun _ => only_ret _
    · exact hdigits booking

theorem only_createBookingIn (phone : Phone) (name : String) (startsAt : Int) :
    Only (Fitting req) (createBookingIn phone name startsAt) := by
  refine only_bind (only_checks trivial) fun _ => only_bind (fun _ => within_lock trivial trivial) fun _ =>
    only_bind (only_select trivial _) fun existing => only_bind ?_ fun replayed => only_bind (only_ask trivial) fun due => ?_
  · cases existing with
    | none => exact only_ret _
    | some r => exact only_select trivial _
  · cases replayed with
    | some b => exact only_ret _
    | none =>
      refine only_bind (only_checks trivial) fun _ => only_bind (only_bind (only_select trivial _) fun existing => ?_) fun customer =>
        only_bind (only_checks trivial) fun _ => only_bind (only_insert trivial _) fun _ => only_ret _
      cases existing with
      | none => exact only_insert trivial _
      | some r => exact only_bind (only_update trivial _) fun _ => only_ret _

theorem only_openDeposit (claim : BookingClaim) : Only (Fitting req) (openDeposit claim) := by
  unfold openDeposit
  split
  · refine only_bind (only_ask trivial) fun outstanding => ?_
    cases outstanding with
    | true => exact only_ret _
    | false => exact only_bind (only_session fun _ => only_update trivial _) fun _ => only_ret _
  · exact only_ret _

theorem only_told (h : Only (Fitting req) body) :
    Only (Fitting req) (do
      let result ← tenantSession fun _ => body
      if result.2 then do
        let _ ← notify kind linked result.1
        return Answer.booking result.1
      else return .booking result.1) := by
  refine only_bind (only_session fun _ => h) fun result => ?_
  obtain ⟨booking, changed⟩ := result
  cases changed with
  | false => exact only_ret _
  | true => exact only_bind (only_notify _ _ _) fun _ => only_ret _

theorem only_telling {booking : Booking} (answer : Answer) :
    Only (Fitting req) (notify kind linked booking >>= fun _ => (return answer : Prg Answer)) :=
  only_bind (only_notify _ _ _) fun _ => only_ret _

theorem only_cancelIn (bookingId : Nat) (now : Int) : Only (Fitting req) (cancelIn bookingId now) := by
  refine only_bind (only_select trivial _) fun _ => only_bind (only_orRaise _ _) fun booking => ?_
  split
  · exact only_ret _
  · exact only_bind (only_raiseIf _ _) fun _ => only_bind (only_update trivial _) fun _ =>
      only_bind (only_orRaise _ _) fun _ => only_ret _

theorem only_restore (booking : Booking) (now : Int) : Only (Fitting req) (restore booking now) := by
  unfold restore
  split
  · exact only_bind (only_update trivial _) fun _ => only_raiseIf _ _
  · exact only_ret _

theorem only_rescheduleIn (bookingId : Nat) (startsAt now : Int) :
    Only (Fitting req) (rescheduleIn bookingId startsAt now) := by
  refine only_bind (fun _ => within_lock trivial trivial) fun _ => only_bind (only_select trivial _) fun _ =>
    only_bind (only_orRaise _ _) fun booking => only_bind (only_raiseIf _ _) fun _ => only_bind (only_raiseIf _ _) fun _ =>
      only_bind (only_checks trivial) fun _ => ?_
  split
  · exact only_ret _
  · exact only_bind (only_checks trivial) fun _ => only_bind (only_select trivial _) fun _ => only_bind (only_raiseIf _ _) fun _ =>
      only_bind (only_restore _ _) fun _ => only_bind (only_update trivial _) fun _ => only_bind (only_orRaise _ _) fun _ =>
        only_ret _

theorem only_request (req : Request) : Only (Fitting req) req.code := by
  cases req with
  | createBooking phone name startsAt =>
    refine only_bind (only_session fun _ => only_createBookingIn _ _ _) fun claim =>
      only_bind (only_openDeposit _) fun outstanding => ?_
    split
    · exact only_telling _
    · exact only_ret _
  | cancelBooking bookingId => exact only_bind (only_now trivial) fun _ => only_told (only_cancelIn _ _)
  | rescheduleBooking bookingId startsAt =>
    exact only_bind (only_checks trivial) fun _ => only_bind (only_now trivial) fun _ => only_told (only_rescheduleIn _ _ _)
  | settleDeposit bookingId =>
    exact only_bind (only_session fun _ => only_bind (only_select trivial _) fun _ => only_bind (only_orRaise _ _) fun _ =>
      only_bind (only_update trivial _) fun _ => only_orRaise _ _) fun _ => only_telling _
  | settleWithoutSlot bookingId =>
    exact only_bind (only_session fun _ => only_bind (only_select trivial _) fun _ => only_orRaise _ _) fun _ =>
      only_bind (only_checks trivial) fun _ => only_telling _
  | drainReminder bookingId =>
    refine only_bind (only_now trivial) fun now => only_bind (only_session fun _ => only_select trivial _) fun found => ?_
    cases found with
    | none => exact only_ret _
    | some booking =>
      dsimp only
      split
      · exact only_ret _
      · exact only_telling _
  | sendOtp phone => exact only_bind (only_checks trivial) fun _ => only_bind (only_sendSms _ _ _ _) fun _ => only_ret _
  | correctPhone bookingId phone =>
    exact only_bind (only_checks trivial) fun _ => only_bind (only_now trivial) fun _ =>
      only_bind (only_session fun _ => only_correctPhoneIn rfl) fun _ => only_telling _
  | resendLink bookingId =>
    exact only_bind (only_checks trivial) fun _ => only_bind (only_now trivial) fun _ =>
      only_bind (only_session fun _ => only_bind (only_guardLive _ _) fun _ =>
        only_bind (only_rotateLinks _ _) fun _ => only_ret _) fun _ => only_telling _
  | bell customerId =>
    exact only_session fun _ => only_bind (only_select trivial _) fun _ => only_bind (only_select trivial _) fun _ => only_ret _
  | markBellSeen customerId =>
    exact only_bind (only_now trivial) fun _ => only_bind (only_session fun _ => only_bind (only_update trivial _) fun _ =>
      only_ret _) fun _ => only_ret _
  | customerDetail customerId =>
    exact only_session fun _ => only_bind (only_select trivial _) fun _ => only_bind (only_orRaise _ _) fun _ =>
      only_bind (only_select trivial _) fun _ => only_bind (only_select trivial _) fun _ => only_ret _

end Footprints

/-! ## What is known of a message -/

def Hers (e : Engine schema) (n b i : Nat) : Prop :=
  ∃ v : Booking, e.version n .bookings b = some v ∧ v.customerId = i ∧ v.deletedAt = none

def Stores (e : Engine schema) (n i : Nat) (phone : Phone) : Prop :=
  ∃ v : Customer, e.version n .customers i = some v ∧ v.phone = phone

def Unmoved (b : Nat) (d : Commit schema) : Prop :=
  ∀ r : Booking, d.writes .bookings b = some r → ∃ v : Booking, d.before .bookings b = some v ∧ r.customerId = v.customerId

def Unwritten (i : Nat) (d : Commit schema) : Prop := d.writes .customers i = none

def Loaded (G : Tid → Query → Nat → Prop) (u : Tid) (b n : Nat) (e : Engine schema) : Prop :=
  G u .bookingById n ∨ ∃ k d, n = k + 1 ∧ e.log[k]? = some d ∧ d.by_ = u ∧ (d.writes .bookings b).isSome = true

/-- **What a message of request `u` came from**, by version `m`: the booking, the recipient's in version `n₀` that the request
read or wrote, and not moved by it since; and the number that the recipient's row stored in version `n₁`, which the request
read later, and has not written since. -/
structure Sourced (G : Tid → Query → Nat → Prop) (u : Tid) (m : Nat) (phone : Phone) (b i n₀ n₁ : Nat) (e : Engine schema) :
    Prop where
  loaded : Loaded G u b n₀ e
  hers : Hers e n₀ b i
  unmoved : OwnCommits (Unmoved b) u n₀ m e
  le : n₀ ≤ n₁
  read : G u .customerById n₁
  stores : Stores e n₁ i phone
  unwritten : OwnCommits (Unwritten i) u n₁ m e
  le' : n₁ ≤ m

def Addressed (G : Tid → Query → Nat → Prop) (u : Tid) (m : Nat) (phone : Phone) (bookingId recipient : Option Nat)
    (e : Engine schema) : Prop :=
  m ≤ e.log.length ∧ ∀ b, bookingId = some b → ∃ i n₀ n₁, recipient = some i ∧ Sourced G u m phone b i n₀ n₁ e

section Addressed

variable {u : Tid} {m n : Nat} {phone : Phone} {bookingId recipient : Option Nat}

theorem Loaded.stays {b : Nat} (h : Loaded G u b n e) (hl : e.log <+: e'.log) : Loaded G u b n e' := by
  rcases h with hread | ⟨k, d, hk, hd, hrest⟩
  · exact .inl hread
  · exact .inr ⟨k, d, hk, entry_stays hl hd, hrest⟩

theorem lasts_addressed : Lasts (Addressed G u m phone bookingId recipient) := by
  rintro e e' hl hv ⟨hm, h⟩
  refine ⟨hm.trans hl.length_le, fun b hb => ?_⟩
  obtain ⟨i, n0, n1, hi, hs⟩ := h b hb
  refine ⟨i, n0, n1, hi, hs.loaded.stays hl, ?_, hs.unmoved.stays hl hm, hs.le, hs.read, ?_, hs.unwritten.stays hl hm, hs.le'⟩
  · rw [Hers, hv n0 (hs.le.trans (hs.le'.trans hm))]
    exact hs.hers
  · rw [Stores, hv n1 (hs.le'.trans hm)]
    exact hs.stores

theorem Addressed.later (h : Addressed G u m phone bookingId recipient e) (hmn : m ≤ n) (hn : n ≤ e.log.length)
    (hown : OwnCommits (fun d => ∀ i, Unmoved i d ∧ Unwritten i d) u m n e) : Addressed G u n phone bookingId recipient e := by
  refine ⟨hn, fun b hb => ?_⟩
  obtain ⟨i, n0, n1, hi, hs⟩ := h.2 b hb
  exact ⟨i, n0, n1, hi, hs.loaded, hs.hers, hs.unmoved.append fun k d hk hk' hd hu => (hown k d hk hk' hd hu b).1, hs.le, hs.read,
    hs.stores, hs.unwritten.append fun k d hk hk' hd hu => (hown k d hk hk' hd hu i).2, hs.le'.trans hmn⟩

end Addressed

def Entered (k : Nat) (phone : Phone) (bookingId recipient : Option Nat) (e : Engine schema) : Prop :=
  ∃ r : MessageLog, e.committed .messageLog k = some r ∧ r.phone = phone ∧ r.bookingId = bookingId ∧ r.recipient = recipient

def Took (out : Store) (k : Nat) (phone : Phone) : Prop := ∃ u, ⟨k, phone⟩ ∈ out u

/-- **The log of a run**: a message that a commit enters is addressed, one that it marks as sent the provider took, and what the
provider took is there. -/
structure Posted (G : Tid → Query → Nat → Prop) (w : World schema outside) : Prop where
  written : ∀ m d, w.db.log[m]? = some d → ∀ k (r : MessageLog), d.writes .messageLog k = some r →
    (d.before .messageLog k = none → Addressed G d.by_ m r.phone r.bookingId r.recipient w.db) ∧
      (r.status = .sent → Took w.out k r.phone)
  taken : ∀ u s, s ∈ w.out u → ∃ r : MessageLog, w.db.committed .messageLog s.logId = some r ∧ r.phone = s.phone

variable {w w' : World schema outside}

theorem Posted.same (h : Posted G w) (hlog : w'.db.log = w.db.log) (hc : w'.db.committed = w.db.committed)
    (hout : w'.out = w.out) : Posted G w' := by
  refine ⟨fun m d hd k r hr => ?_, fun u s hs => by rw [hc]; exact h.taken u s (hout ▸ hs)⟩
  rw [hlog] at hd
  obtain ⟨haddressed, hsent⟩ := h.written m d hd k r hr
  exact ⟨fun hnew => lasts_addressed.congr hlog hc (haddressed hnew), by rw [hout]; exact hsent⟩

abbrev carrying (G : Tid → Query → Nat → Prop) (reqs : Tid → Request) : Contract (posting reqs) outside Err where
  Inv := Posted G
  Assume := Looks G
  crash_inv _ _ _ h := h.same rfl rfl rfl
  tick_inv _ _ _ h := h.same rfl rfl rfl

def silent : Ask → Bool
  | .send .. => false
  | _ => true

theorem carrying_historic : (carrying G reqs).Historic silent := by
  refine ⟨fun _ _ hlog hc hout h => h.same hlog hc hout, fun u q x n w hq h => ?_⟩
  cases q with
  | checks | holds => exact h.same rfl rfl rfl
  | send => cases hq

theorem posted_commit (h : Posted G w) (hL : w.db.Lawful (posting reqs))
    (hfair : ∀ k (r : MessageLog), w.db.pending t .messageLog k = some r →
      (w.db.committed .messageLog k = none → Addressed G t w.db.log.length r.phone r.bookingId r.recipient w.db) ∧
        (r.status = .sent → Took w.out k r.phone)) :
    Posted G ⟨w.db.commit t, w.out⟩ := by
  refine ⟨fun m d hd k r hr => ?_, fun u s hs => ?_⟩
  · rcases Nat.lt_or_ge m w.db.log.length with hm | hm
    · rw [Engine.commit_log, List.getElem?_append_left hm] at hd
      obtain ⟨haddressed, hsent⟩ := h.written m d hd k r hr
      exact ⟨fun hnew => lasts_addressed.commit (haddressed hnew), hsent⟩
    · have hlen := (List.getElem?_eq_some_iff.1 hd).1
      have hlast : m = w.db.log.length := by
        simp only [Engine.commit_log, List.length_append, List.length_singleton] at hlen
        omega
      subst hlast
      rw [Engine.commit_log, List.getElem?_concat_length] at hd
      cases hd
      obtain ⟨haddressed, hsent⟩ := hfair k r hr
      exact ⟨fun hnew => lasts_addressed.commit (haddressed hnew), hsent⟩
  · obtain ⟨r, hr, hphone⟩ := h.taken u s hs
    have hrow := Cast.becomes_common (hL.inflight t .messageLog s.logId)
    rw [hr] at hrow
    obtain ⟨r', hr', hsame⟩ := hrow.some_left
    have hsame : SameMessage r r' := hsame
    exact ⟨r', hr', hsame.1.trans hphone⟩

theorem posted_plain (h : Posted G w) (hL : w.db.Lawful (posting reqs))
    (hnone : w.db.pending t .messageLog = fun _ => none) : Posted G ⟨w.db.commit t, w.out⟩ :=
  posted_commit h hL fun k r hr => by
    rw [hnone] at hr
    cases hr

theorem Entered.evolves {k : Nat} {bookingId recipient : Option Nat} (h : Entered k phone bookingId recipient e)
    (hev : e.Evolves (posting reqs) t e') : Entered k phone bookingId recipient e' := by
  obtain ⟨r, hr, hphone, hbooking, hrecipient⟩ := h
  have hrow := hev.rows .messageLog k
  rw [hr] at hrow
  obtain ⟨r', hr', hsame⟩ := hrow.some_left
  have hsame : SameMessage r r' := hsame
  exact ⟨r', hr', hsame.1.trans hphone, hsame.2.1.trans hbooking, hsame.2.2.1.trans hrecipient⟩

/-! ## The sends -/

section Sends

variable {α β : Type} {Q : Except Err β → World schema outside → Prop}

abbrev Idle (t : Tid) (w : World schema outside) : Prop := w.db.pending t = fun _ _ => none

abbrev Anyhow {β : Type} (_ : Except Err β) (_ : World schema outside) : Prop := True

theorem closes_error {x : Err} {k : α → Prg β} : Closes (carrying G reqs) t k Anyhow (.error x) w := fun _ _ _ => trivial

theorem closes_plain {a : α} {k : α → Prg β} (Φ Φ' : Engine schema → Prop)
    (hevolve : ∀ e e', e.Evolves (posting reqs) t e' → Φ e → Φ e')
    (hcommit : ∀ e, e.Lawful (posting reqs) → Φ e → Φ' (e.commit t)) (hnone : w.db.pending t .messageLog = fun _ => none)
    (h : Φ w.db) (hk : ∀ w', Idle t w' → Φ' w'.db → (carrying G reqs).Ensures t (k a) Anyhow w') :
    Closes (carrying G reqs) t k Anyhow (.ok a) w := by
  intro w1 hev hL hI _ _
  have hnone1 : w1.db.pending t .messageLog = fun _ => none := by rw [hev.db.pending]; exact hnone
  exact ⟨posted_plain hI hL hnone1, hk _ Engine.commit_pending_self (hcommit _ hL (hevolve _ _ hev.db h))⟩

theorem closes_done {a : α} {k : α → Prg β} (hnone : w.db.pending t .messageLog = fun _ => none)
    (hk : ∀ w', (carrying G reqs).Ensures t (k a) Anyhow w') : Closes (carrying G reqs) t k Anyhow (.ok a) w :=
  closes_plain (fun _ => True) (fun _ => True) (fun _ _ _ h => h) (fun _ _ h => h) hnone trivial fun w' _ _ => hk w'

/-- **What request `t` knows, it still knows** after others have committed, and after a commit of its own that writes nothing. -/
structure Rides (t : Tid) (Ψ : Engine schema → Prop) : Prop where
  evolves : ∀ reqs e e', e.Evolves (posting reqs) t e' → Ψ e → Ψ e'
  congr : ∀ e e' : Engine schema, e'.log = e.log → e'.committed = e.committed → Ψ e → Ψ e'
  commit : ∀ e : Engine schema, (e.pending t = fun _ _ => none) → Ψ e → Ψ (e.commit t)

theorem rides_true : Rides t fun _ => True := ⟨fun _ _ _ _ h => h, fun _ _ _ _ h => h, fun _ _ h => h⟩

variable {Ψ : Engine schema → Prop}

theorem closes_idle {a : α} {k : α → Prg β} (hΨ : Rides t Ψ) (hidle : Idle t w) (h : Ψ w.db)
    (hk : ∀ w', Idle t w' → Ψ w'.db → (carrying G reqs).Ensures t (k a) Anyhow w') :
    Closes (carrying G reqs) t k Anyhow (.ok a) w :=
  closes_plain (fun e => (e.pending t = fun _ _ => none) ∧ Ψ e) Ψ
    (fun e e' hev he => ⟨hev.pending.trans he.1, hΨ.evolves _ e e' hev he.2⟩) (fun e _ he => hΨ.commit e he.1 he.2)
    (by rw [hidle]) ⟨hidle, h⟩ hk

variable {phone : Phone} {bookingId recipient : Option Nat} {k : Nat}

abbrev Ready (G : Tid → Query → Nat → Prop) (t : Tid) (phone : Phone) (bookingId recipient : Option Nat) (e : Engine schema) :
    Prop := Addressed G t e.log.length phone bookingId recipient e

theorem rides_ready : Rides t (Ready G t phone bookingId recipient) := by
  refine ⟨fun _ e e' hev h => ?_, fun e e' hl hc h => ?_, fun e hidle h => ?_⟩
  · exact (lasts_addressed.evolves hev h).later hev.log_le (Nat.le_refl _) hev.own_commits
  · rw [Ready, hl]
    exact lasts_addressed.congr hl hc h
  · refine (lasts_addressed.commit h).later ?_ (Nat.le_refl _) (commit_own_commits fun i => ⟨fun r hr => ?_, ?_⟩)
    · simp [Engine.commit_log]
    · have hr : e.pending t .bookings i = some r := hr
      rw [hidle] at hr
      cases hr
    · show e.pending t .customers i = none
      rw [hidle]

theorem closes_message {a : α} {f : α → Prg β} {v : Option MessageLog} {r : MessageLog}
    (hwork : w.db.AtWork t Table.messageLog (some (k, v, r)))
    (haddressed : v = none → Ready G t r.phone r.bookingId r.recipient w.db)
    (hsent : r.status = .sent → ⟨k, r.phone⟩ ∈ w.out t)
    (hk : ∀ w', Idle t w' → Entered k r.phone r.bookingId r.recipient w'.db → (carrying G reqs).Ensures t (f a) Anyhow w') :
    Closes (carrying G reqs) t f Anyhow (.ok a) w := by
  intro w1 hev hL hI _ _
  have hwork1 := hwork.evolves hev.db
  refine ⟨posted_commit hI hL fun j q hq => ?_, hk _ Engine.commit_pending_self ⟨r, ?_, rfl, rfl, rfl⟩⟩
  · obtain ⟨x, hx, hbefore⟩ := hwork1.entry hq
    cases hx
    refine ⟨fun hnew => ?_, fun hs => ⟨t, by rw [show w1.out t = w.out t from hev.mine]; exact hsent hs⟩⟩
    have hv : v = none := hbefore.symm.trans hnew
    exact rides_ready.evolves _ _ _ hev.db (haddressed hv)
  · exact Rows.over_some hwork1.row

theorem Entered.congr (h : Entered k phone bookingId recipient e) (hc : e'.committed = e.committed) :
    Entered k phone bookingId recipient e' := by
  rw [Entered, hc]
  exact h

theorem mark_ensures {status : MessageStatus} {f : Option MessageLog → Prg β} (hidle : Idle t w)
    (h : Entered k phone bookingId recipient w.db) (hsent : status = .sent → ⟨k, phone⟩ ∈ w.out t)
    (hk : ∀ a w', (carrying G reqs).Ensures t (f a) Anyhow w') :
    (carrying G reqs).Ensures t (mark k status >>= f) Anyhow w := by
  refine ensures_tenantSession carrying_historic fun w1 n hev1 _ _ =>
    ensures_select carrying_historic fun w2 hev2 hL2 _ _ _ => ?_
  have hidle2 : Idle t w2 := hev2.db.pending.trans (hev1.db.pending.trans hidle)
  have hsent2 : status = .sent → ⟨k, phone⟩ ∈ w2.out t := fun hs => by
    rw [show w2.out t = w.out t from hev2.mine.trans hev1.mine]
    exact hsent hs
  have h2 : Entered k phone bookingId recipient w2.db := by
    refine Entered.evolves ?_ hev2.db
    exact (h.evolves hev1.db).congr rfl
  obtain ⟨r, hr, hphone, hbooking, hrecipient⟩ := id h2
  rw [Engine.view_idle hidle2]
  dsimp only
  cases hfound : Option.filter MessageLog.live (w2.db.committed Table.messageLog k) with
  | none => exact closes_done (by rw [Engine.look_pending, hidle2]) fun w' => hk _ w'
  | some r' =>
    have hr' := (Option.filter_eq_some_iff.1 hfound).1
    rw [hr] at hr'
    cases hr'
    have hid : MessageLog.id r = k := hL2.rows.id _ _ _ hr
    dsimp only
    rw [hid]
    have hwork2 : (w2.db.look t).AtWork t Table.messageLog none := Engine.atWork_none (by rw [Engine.look_pending, hidle2])
    refine ensures_last (ensures_updateFirst carrying_historic hwork2
      (fun _ _ => closes_error) (fun w3 hev3 hL3 _ _ => ?_) fun w3 v q hev3 hL3 hv hq _ hwork => ?_)
    · exact closes_done (hwork2.evolves hev3.db).pending fun w' => hk _ w'
    · have h3 : Entered k phone bookingId recipient w3.db := by
        refine Entered.evolves ?_ hev3.db
        exact h2.congr rfl
      obtain ⟨u, hu, hu'⟩ := h3
      rw [hv] at hu
      cases hu
      cases hq
      refine closes_message hwork (fun hnone => by cases hnone) (fun hs => ?_) fun w' _ _ => hk _ w'
      · rw [show w3.out t = w2.out t from hev3.mine, show MessageLog.phone _ = phone from hu'.1]
        exact hsent2 hs

theorem ask_idle {q : Ask} {f : Ans q → Prg β} (hq : silent q = true) (hΨ : Rides t Ψ) (hidle : Idle t w) (h : Ψ w.db)
    (hk : ∀ a w', Idle t w' → Ψ w'.db → (carrying G reqs).Ensures t (f a) Q w') :
    (carrying G reqs).Ensures t (ask q >>= f) Q w :=
  ensures_ask carrying_historic hq fun _ _ _ hev _ _ _ =>
    hk _ _ (hev.db.pending.trans hidle) (hΨ.evolves _ _ _ hev.db h)

theorem posted_send (h : Posted G w) (hentered : Entered k phone bookingId recipient w.db) (x : Input) :
    Posted G ⟨w.db, (serve t (.send k phone) x w.out).2⟩ := by
  have hmem : ∀ u s, s ∈ (serve t (.send k phone) x w.out).2 u → s ∈ w.out u ∨ s = ⟨k, phone⟩ := by
    intro u s hs
    simp only [serve] at hs
    split at hs
    · by_cases hu : u = t
      · subst hu
        simpa [or_comm] using hs
      · rw [Function.update_of_ne hu] at hs
        exact .inl hs
    · exact .inl hs
  have hkept : ∀ u, w.out u ⊆ (serve t (.send k phone) x w.out).2 u := by
    intro u s hs
    simp only [serve]
    split
    · by_cases hu : u = t
      · subst hu
        simp [hs]
      · rwa [Function.update_of_ne hu]
    · exact hs
  refine ⟨fun m d hd j r hr => ?_, fun u s hs => ?_⟩
  · obtain ⟨haddressed, hsent⟩ := h.written m d hd j r hr
    refine ⟨haddressed, fun hs => ?_⟩
    obtain ⟨u, hu⟩ := hsent hs
    exact ⟨u, hkept u hu⟩
  · rcases hmem u s hs with hold | rfl
    · exact h.taken u s hold
    · obtain ⟨r, hr, hphone, -⟩ := hentered
      exact ⟨r, hr, hphone⟩

theorem select_idle {q : Query} {g : Snapshot schema → α} {f : α → Prg β} (hΨ : Rides t Ψ) (hidle : Idle t w)
    (h : Ψ w.db) (hk : ∀ a w', Idle t w' → Ψ w'.db → (carrying G reqs).Ensures t (f a) Q w') :
    (carrying G reqs).Ensures t (select q g >>= f) Q w :=
  ensures_select carrying_historic fun w1 hev _ _ _ _ => by
    have h1 : Ψ w1.db := hΨ.evolves _ _ _ hev.db h
    exact hk _ _ (hev.db.pending.trans hidle) (hΨ.congr w1.db _ rfl rfl h1)

theorem sendSms_ensures (hidle : Idle t w) (h : Ready G t phone bookingId recipient w.db) :
    (carrying G reqs).Ensures t (sendSms phone kind bookingId recipient) Anyhow w := by
  refine ask_idle rfl rides_ready hidle h fun configured w1 hidle1 h1 => ensures_raiseIf (fun _ => trivial) fun _ =>
    ensures_raiseIf (fun _ => trivial) fun _ => ensures_tenantSession carrying_historic fun w2 n hev2 _ _ => ?_
  have h2 : Ready G t phone bookingId recipient w2.db := rides_ready.evolves _ _ _ hev2.db h1
  refine ensures_last (Session.ensures_insert carrying_historic (fun _ _ _ _ _ => closes_error) fun w3 hev3 hL3 _ _ => ?_)
  have hidle3 : Idle t w3 := hev3.db.pending.trans (hev2.db.pending.trans hidle1)
  have hwork := (Engine.atWork_none (T := Table.messageLog) (by rw [hidle3])).insert hL3
    (r := (⟨0, 0, none, phone, kind, .queued, bookingId, recipient⟩ : MessageLog))
  have h3 : Ready G t phone bookingId recipient w3.db :=
    rides_ready.evolves _ _ _ hev3.db (rides_ready.congr w2.db _ rfl rfl h2)
  refine closes_message hwork (fun _ => rides_ready.congr w3.db _ rfl rfl h3) (fun hs => by cases hs)
    fun w4 hidle4 hentered => ?_
  -- the provider answers for the row that is there
  refine ensures_call fun w5 hev5 hL5 hI5 x result w6 he _ _ => ?_
  have hidle5 : Idle t w5 := hev5.db.pending.trans hidle4
  have hentered5 := hentered.evolves hev5.db
  cases he
  refine ⟨posted_send hI5 hentered5 x, ?_⟩
  have hentered6 : Entered w3.db.next phone bookingId recipient
      (⟨w5.db, (serve t (.send w3.db.next phone) x w5.out).2⟩ : World schema outside).db := hentered5
  obtain ⟨refusal, yes, result⟩ := x
  cases result with
  | accepted => exact mark_ensures hidle5 hentered6 (fun _ => by simp [serve]) fun _ _ => trivial
  | refused | notConfigured => exact mark_ensures hidle5 hentered6 (fun hs => by cases hs) fun _ _ => trivial

/-- **Request `t` has the booking at hand as it read or wrote it**, and has not moved it since. -/
def Known (G : Tid → Query → Nat → Prop) (t : Tid) (b : Booking) (e : Engine schema) : Prop :=
  ∃ n, n ≤ e.log.length ∧ Loaded G t b.id n e ∧ Hers e n b.id b.customerId ∧ OwnCommits (Unmoved b.id) t n e.log.length e

theorem known_lasts (h : Known G t b e) (hl : e.log <+: e'.log)
    (hv : ∀ m, m ≤ e.log.length → e'.version m = e.version m)
    (hown : OwnCommits (Unmoved b.id) t e.log.length e'.log.length e') : Known G t b e' := by
  obtain ⟨n, hn, hloaded, hhers, hunmoved⟩ := h
  exact ⟨n, hn.trans hl.length_le, hloaded.stays hl, by rwa [Hers, hv n hn], (hunmoved.stays hl (Nat.le_refl _)).append hown⟩

theorem Known.commit (h : Known G t b e) (hkept : Unmoved b.id (e.entry t)) : Known G t b (e.commit t) :=
  known_lasts h (List.prefix_append _ _) (fun _ hm => Engine.commit_version_le hm) (commit_own_commits hkept)

theorem unmoved_idle {b : Nat} (hidle : e.pending t .bookings b = none) : Unmoved b (e.entry t) := by
  intro r hr
  have hr : e.pending t .bookings b = some r := hr
  rw [hidle] at hr
  cases hr

theorem rides_known : Rides t (Known G t b) := by
  refine ⟨fun _ e e' hev h => ?_, fun e e' hl hc h => ?_, fun e hidle h => h.commit (unmoved_idle (by rw [hidle]))⟩
  · obtain ⟨l, hl, -⟩ := hev.log
    exact known_lasts h (hl ▸ List.prefix_append _ _) hev.version hev.own_commits
  · refine known_lasts h (hl ▸ List.prefix_rfl) (fun m _ => Engine.version_congr hl hc m) ?_
    rw [hl]
    exact own_commits_none

theorem Known.ready {v : Customer} (h : Known G t b e) (hread : G t .customerById e.log.length)
    (hv : e.committed .customers b.customerId = some v) : Ready G t v.phone (some b.id) (some b.customerId) e := by
  obtain ⟨n, hn, hloaded, hhers, hunmoved⟩ := h
  refine ⟨Nat.le_refl _, fun i hi => ?_⟩
  cases hi
  exact ⟨_, n, e.log.length, rfl, hloaded, hhers, hunmoved, hn, hread, ⟨v, by rw [Engine.version_length]; exact hv, rfl⟩,
    own_commits_none, Nat.le_refl _⟩

variable {b : Booking}

theorem deliver_ensures (hidle : Idle t w) (h : Ready G t phone (some b.id) (some b.customerId) w.db) :
    (carrying G reqs).Ensures t (deliver phone kind b) Anyhow w := by
  refine ensures_attempt (ensures_mono (fun outcome w' _ => ?_) (sendSms_ensures hidle h))
  cases outcome with
  | ok a => trivial
  | error e =>
    dsimp only
    split <;> trivial

theorem notify_ensures (hidle : Idle t w) (h : Known G t b w.db) :
    (carrying G reqs).Ensures t (notify kind linked b) Anyhow w := by
  refine ask_idle rfl rides_known hidle h fun configured w1 hidle1 h1 => ?_
  cases configured with
  | false => trivial
  | true =>
    refine ensures_first (ensures_tenantSession carrying_historic fun w2 n hev2 _ _ => ensures_last
      (ensures_select carrying_historic fun w3 hev3 hL3 _ hread _ => ?_))
    have hidle3 : Idle t w3 := hev3.db.pending.trans (hev2.db.pending.trans hidle1)
    have h2 : Known G t b w2.db := rides_known.evolves _ _ _ hev2.db h1
    have h3 : Known G t b w3.db := rides_known.evolves _ _ _ hev3.db (rides_known.congr w2.db _ rfl rfl h2)
    rw [Engine.view_idle hidle3]
    cases hfound : Option.filter Customer.live (w3.db.committed Table.customers b.customerId) with
    | none => exact closes_done (by rw [Engine.look_pending, hidle3]) fun _ => trivial
    | some v =>
      have hready : Ready G t (Customer.phone v) (some b.id) (some b.customerId) w3.db :=
        h3.ready hread (Option.filter_eq_some_iff.1 hfound).1
      refine closes_idle rides_ready (by rw [Idle, Engine.look_pending, hidle3]) (rides_ready.congr w3.db _ rfl rfl hready)
        fun w4 hidle4 h4 => ?_
      refine ask_idle rfl rides_ready hidle4 h4 fun atHand w5 hidle5 h5 => ?_
      split
      · trivial
      · exact deliver_ensures hidle5 h5

theorem telling_ensures {answer : Answer} (hidle : Idle t w) (h : Known G t b w.db) :
    (carrying G reqs).Ensures t (notify kind linked b >>= fun _ => (return answer : Prg Answer)) Anyhow w := by
  refine ensures_bind (ensures_mono (fun x _ _ => ?_) (notify_ensures hidle h))
  cases x <;> trivial

end Sends

/-! ## The bookings of the requests -/

abbrev Unsaid (t : Tid) (e : Engine schema) : Prop := e.pending t .messageLog = fun _ => none

/-- The booking at hand is one that was read and is not being moved, or one that is being written. -/
structure Hand (G : Tid → Query → Nat → Prop) (t : Tid) (b : Booking) (e : Engine schema) : Prop where
  unsaid : Unsaid t e
  hers : (Known G t b e ∧ Unmoved b.id (e.entry t)) ∨
    ∃ v : Booking, e.pending t .bookings b.id = some v ∧ v.customerId = b.customerId ∧ v.deletedAt = none

variable {b : Booking}

theorem Hand.congr (h : Hand G t b e) (hl : e'.log = e.log) (hc : e'.committed = e.committed)
    (hp : e'.pending t = e.pending t) : Hand G t b e' := by
  refine ⟨by rw [Unsaid, hp]; exact h.unsaid, ?_⟩
  rcases h.hers with ⟨hknown, hkept⟩ | hflight
  · refine .inl ⟨rides_known.congr _ _ hl hc hknown, ?_⟩
    rw [Unmoved, Engine.entry, hp, hc]
    exact hkept
  · exact .inr (by rw [hp]; exact hflight)

theorem Hand.evolves (h : Hand G t b e) (hev : e.Evolves (posting reqs) t e') : Hand G t b e' := by
  refine ⟨by rw [Unsaid, hev.pending]; exact h.unsaid, ?_⟩
  rcases h.hers with ⟨hknown, hkept⟩ | hflight
  · refine .inl ⟨rides_known.evolves _ _ _ hev hknown, fun r hr => ?_⟩
    have hr : e'.pending t .bookings b.id = some r := hr
    rw [hev.pending] at hr
    obtain ⟨v, hv, hsame⟩ := hkept r hr
    exact ⟨v, (hev.owned .bookings b.id r hr).trans hv, hsame⟩
  · exact .inr (by rw [hev.pending]; exact hflight)

theorem Hand.commit (h : Hand G t b e) : Known G t b (e.commit t) := by
  rcases h.hers with ⟨hknown, hkept⟩ | ⟨v, hv, hcustomer, hlive⟩
  · exact hknown.commit hkept
  · have hlen : (e.commit t).log.length = e.log.length + 1 := by simp [Engine.commit_log]
    refine ⟨e.log.length + 1, hlen.ge, .inr ⟨e.log.length, e.entry t, rfl, by simp [Engine.commit_log], rfl, ?_⟩,
      ⟨v, ?_, hcustomer, hlive⟩, hlen ▸ own_commits_none⟩
    · show (e.pending t .bookings b.id).isSome = true
      rw [hv]
      rfl
    · rw [← hlen, Engine.version_length]
      exact Rows.over_some hv

theorem hand_known (hidle : e.pending t = fun _ _ => none) (h : Known G t b e) : Hand G t b e :=
  ⟨by rw [Unsaid, hidle], .inl ⟨h, unmoved_idle (by rw [hidle])⟩⟩

theorem hand_write {r : Booking} (hunsaid : Unsaid t e) (hlive : r.deletedAt = none) :
    Hand G t r (e.write t Table.bookings r.id r) := by
  refine ⟨?_, .inr ⟨r, Engine.write_pending_self, rfl, hlive⟩⟩
  rw [Unsaid, ← hunsaid]
  exact Engine.write_beside (by decide)

theorem BookingChange.apply_live {v r : Booking} {g : BookingChange} (h : BookingChange.apply v g = some r) :
    r.id = v.id ∧ r.deletedAt = none := by
  cases g with
  | setStatus | reschedule | setCustomerId | setManageTokenHash =>
    obtain ⟨hmatch, hr⟩ := Option.ite_none_right_eq_some.1 h
    cases hr
    simp_all [Booking.current, Booking.live]

section Bodies

variable {α β : Type} {Q : Except Err β → World schema outside → Prop} {f : α → Prg β}

def Aside : Op schema outside → Prop
  | .sql (.update .messageLog _ _) => False
  | .sql (.insert .messageLog _) => False
  | .sql .commit => False
  | .sql .abort => False
  | .ask (.send ..) => False
  | _ => True

theorem aside_bind {p : Prg α} (hp : Only Aside p) (hunsaid : Unsaid t w.db) (herr : ∀ e w', Q (.error e) w')
    (hk : ∀ a w', Unsaid t w'.db → (carrying G reqs).Ensures t (f a) Q w') :
    (carrying G reqs).Ensures t (p >>= f) Q w := by
  refine ensures_bind (ensures_mono (fun x w' hx => ?_) (ensures_of_uses (fun _ w => Unsaid t w.db)
    (fun _ _ _ hev h => by rw [Unsaid, hev.db.pending]; exact h) (fun l o w i r w' ho _ hI hΦ he _ _ => ?_) (hp false) hunsaid))
  · obtain ⟨-, -, hx⟩ := hx
    cases x with
    | ok a => exact hk a w' hx
    | error e => exact herr e w'
  · have hcommit : o ≠ .sql .commit := fun hc => by
      subst hc
      exact ho
    have hinside : o.Inside := by
      cases o with
      | now | ask => trivial
      | sql o => cases o <;> trivial
    refine ⟨carrying_historic.exec hcommit (fun q hq => ?_) he hI, ?_⟩
    · subst hq
      cases q with
      | checks | holds => rfl
      | send => exact ho.elim
    · show w'.db.pending t .messageLog = _
      rw [World.exec_pending hinside (fun j g hc => by subst hc; exact ho) (fun r hc => by subst hc; exact ho) he]
      exact hΦ

theorem byId_ensures {f : Option Booking → Prg β} (hidle : Idle t w)
    (hk : ∀ found w', Idle t w' → (∀ b, found = some b → b.id = i ∧ Known G t b w'.db) → (carrying G reqs).Ensures t (f found) Q w') :
    (carrying G reqs).Ensures t (Bookings.byId i >>= f) Q w := by
  refine ensures_select carrying_historic fun w1 hev hL _ hread _ => hk _ _ (hev.db.pending.trans hidle) fun b hb => ?_
  have hidle1 : Idle t w1 := hev.db.pending.trans hidle
  obtain ⟨hb, hlive⟩ := Option.filter_eq_some_iff.1 hb
  rw [Engine.view_idle hidle1] at hb
  have hid : Booking.id b = i := hL.rows.id _ _ _ hb
  refine ⟨hid, w1.db.log.length, Nat.le_refl _, .inl hread, ⟨b, ?_, rfl, by simpa [Booking.live] using hlive⟩, own_commits_none⟩
  rw [Engine.look_version, Engine.version_length, hid]
  exact hb

theorem write_ensures {refused : Err} {g : BookingChange} {f : Option Booking → Prg β} (hunsaid : Unsaid t w.db)
    (herr : ∀ e w', Q (.error e) w') (hnone : ∀ w', Unsaid t w'.db → (carrying G reqs).Ensures t (f none) Q w')
    (hsome : ∀ v r w', BookingChange.apply v g = some r → Hand G t r w'.db → (carrying G reqs).Ensures t (f (some r)) Q w') :
    (carrying G reqs).Ensures t (update refused .bookings i g >>= f) Q w := by
  have hstill : ∀ w1 : World schema outside, w.Evolves (posting reqs) t w1 → Unsaid t w1.db := fun w1 hev => by
    rw [Unsaid, hev.db.pending]
    exact hunsaid
  refine ensures_update carrying_historic (fun _ _ _ _ => herr _ _) (fun w1 hev _ _ _ => hnone w1 (hstill w1 hev))
    fun w1 v r hev hL hv hr _ hL' _ => ?_
  obtain ⟨hid, hlive⟩ := BookingChange.apply_live hr
  have hi : Booking.id v = i := (hL.view_consistent t).id _ _ _ hv
  have hhand := hand_write (G := G) (r := r) (hstill w1 hev) hlive
  rw [show Booking.id r = i from hid.trans hi] at hhand
  exact hsome v r _ hr hhand

theorem unmoved_write {j : Nat} {v : Booking} (h : Unmoved i (e.entry t)) (hv : e.view t .bookings j = some v) :
    Unmoved i ((e.write t Table.bookings j v).entry t) := by
  intro r hr
  by_cases hi : i = j
  · subst hi
    have hr : (e.write t Table.bookings i v).pending t .bookings i = some r := hr
    rw [Engine.write_pending_self] at hr
    cases hr
    cases hp : e.pending t .bookings i with
    | none =>
      rw [Engine.view, Rows.over_none hp] at hv
      exact ⟨v, hv, rfl⟩
    | some q =>
      rw [Engine.view_pending hp] at hv
      cases hv
      exact h v hp
  · exact h r ((Engine.write_pending_row fun hc => hi hc.2).symm.trans hr)

theorem rotateLinks_ensures {f : Unit → Prg β} (herr : ∀ e w', Q (.error e) w')
    (hk : ∀ w', Hand G t b w'.db → (carrying G reqs).Ensures t (f ()) Q w') :
    ∀ is (w : World schema outside), Hand G t b w.db → (carrying G reqs).Ensures t (rotateLinks now is >>= f) Q w
  | [], w, h => hk w h
  | i :: is, w, h => by
    refine ensures_first (ensures_update carrying_historic (fun _ _ _ _ => herr _ _) (fun w1 hev _ _ _ => ?_)
      fun w1 v r hev hL hv hr _ _ _ => ?_)
    · exact herr _ _
    · have happly : (if Booking.current v now then some v else none) = some r := hr
      obtain ⟨-, hsame⟩ := Option.ite_none_right_eq_some.1 happly
      cases hsame
      have h1 := h.evolves hev.db
      refine ensures_first (ensures_raiseIf (fun _ => herr _ _) fun _ => rotateLinks_ensures herr hk is _ ⟨?_, ?_⟩)
      · rw [Unsaid, ← h1.unsaid]
        exact Engine.write_beside (by decide)
      · rcases h1.hers with ⟨hknown, hkept⟩ | ⟨q, hq, hrest⟩
        · exact .inl ⟨rides_known.congr w1.db _ rfl rfl hknown, unmoved_write hkept hv⟩
        · refine .inr ⟨q, ?_, hrest⟩
          by_cases hi : b.id = i
          · subst hi
            rw [Engine.view_pending hq] at hv
            cases hv
            exact Engine.write_pending_self
          · exact (Engine.write_pending_row fun hc => hi hc.2).trans hq

theorem closes_hand {a : α} {f : α → Prg β} (h : Hand G t b w.db)
    (hk : ∀ w', Idle t w' → Known G t b w'.db → (carrying G reqs).Ensures t (f a) Anyhow w') :
    Closes (carrying G reqs) t f Anyhow (.ok a) w :=
  closes_plain (Hand G t b) (Known G t b) (fun _ _ hev h => h.evolves hev) (fun _ _ h => h.commit) h.unsaid h hk

/-- **A change of a booking, and the text that tells of it**, from the booking as it was loaded. -/
theorem told_ensures (hidle : Idle t w)
    (hbody : ∀ {γ : Type} {k : Booking × Bool → Prg γ} (w' : World schema outside), Idle t w' →
      (∀ result w'', Hand G t result.1 w''.db → Closes (carrying G reqs) t k Anyhow (.ok result) w'') →
      (carrying G reqs).Ensures t body (Closes (carrying G reqs) t k Anyhow) w') :
    (carrying G reqs).Ensures t (do
      let result ← tenantSession fun _ => body
      if result.2 then do
        let _ ← notify kind linked result.1
        return Answer.booking result.1
      else return .booking result.1) Anyhow w := by
  refine ensures_tenantSession carrying_historic fun w1 n hev _ _ =>
    hbody _ (hev.db.pending.trans hidle) fun result w2 hhand => closes_hand hhand fun w3 hidle3 hknown => ?_
  obtain ⟨booking, changed⟩ := result
  cases changed with
  | false => trivial
  | true => exact telling_ensures hidle3 hknown

section Requests

variable {γ : Type} {k : Booking × Bool → Prg γ}

theorem cancelIn_ensures {bookingId : Nat} (hidle : Idle t w)
    (hk : ∀ result w', Hand G t result.1 w'.db → Closes (carrying G reqs) t k Anyhow (.ok result) w') :
    (carrying G reqs).Ensures t (cancelIn bookingId now) (Closes (carrying G reqs) t k Anyhow) w := by
  refine byId_ensures hidle fun found w1 hidle1 hfound => ensures_orRaise (fun _ => closes_error) fun booking hbooking => ?_
  have hunsaid : Unsaid t w1.db := by rw [Unsaid, hidle1]
  split
  · exact hk _ w1 (hand_known hidle1 (hfound booking hbooking).2)
  · refine ensures_raiseIf (fun _ => closes_error) fun _ => write_ensures hunsaid (fun _ _ => closes_error)
      (fun w' _ => closes_error) fun v r w' _ hhand => hk _ w' hhand

theorem rescheduleIn_ensures {bookingId : Nat} {startsAt : Int} (hidle : Idle t w)
    (hk : ∀ result w', Hand G t result.1 w'.db → Closes (carrying G reqs) t k Anyhow (.ok result) w') :
    (carrying G reqs).Ensures t (rescheduleIn bookingId startsAt now) (Closes (carrying G reqs) t k Anyhow) w := by
  refine ensures_locked carrying_historic fun w0 hev0 _ _ => ?_
  have hidle0 : Idle t (⟨{ w0.db with advisory := some t }, w0.out⟩ : World schema outside) := hev0.db.pending.trans hidle
  refine byId_ensures hidle0 fun found w1 hidle1 hfound => ensures_orRaise (fun _ => closes_error) fun booking hbooking =>
    ensures_raiseIf (fun _ => closes_error) fun _ => ensures_raiseIf (fun _ => closes_error) fun _ => ?_
  refine ensures_first (ask_idle rfl rides_known hidle1 (hfound booking hbooking).2 fun refusal w2 hidle2 hknown => ?_)
  have hunsaid : Unsaid t w2.db := by rw [Unsaid, hidle2]
  cases refusal with
  | some e => exact closes_error
  | none =>
    show (carrying G reqs).Ensures t
      (if startsAt = booking.startsAt ∧ booking.status = .confirmed then (return (booking, false)) else _) _ _
    have hmove : ∀ w' : World schema outside, Unsaid t w'.db → (carrying G reqs).Ensures t
        (update .slotUnavailable .bookings bookingId (.reschedule startsAt now : BookingChange) >>= fun written =>
          orRaise written Err.bookingTransitionInvalid >>= fun updated => (return (updated, true) : Prg (Booking × Bool)))
        (Closes (carrying G reqs) t k Anyhow) w' := fun w' hunsaid' =>
      write_ensures hunsaid' (fun _ _ => closes_error) (fun w'' _ => closes_error) fun v r w'' _ hhand => hk _ w'' hhand
    split
    · exact hk _ w2 (hand_known hidle2 hknown)
    · refine aside_bind (only_checks trivial) hunsaid (fun _ _ => closes_error) fun _ w3 h3 =>
        aside_bind (p := Bookings.activeAt booking.customerId startsAt) (only_select trivial _) h3 (fun _ _ => closes_error)
          fun collision w4 h4 => ensures_raiseIf (fun _ => closes_error) fun _ =>
            aside_bind (p := restore booking now) ?_ h4 (fun _ _ => closes_error) fun _ w5 h5 => hmove w5 h5
      unfold restore
      split
      · exact only_bind (only_update trivial _) fun _ => only_raiseIf _ _
      · exact only_ret _

theorem guardLive_ensures {bookingId : Nat} {Q : Except Err β → World schema outside → Prop} {f : Booking → Prg β}
    (hidle : Idle t w) (herr : ∀ e w', Q (.error e) w')
    (hk : ∀ b w', Idle t w' → b.id = bookingId ∧ Known G t b w'.db → (carrying G reqs).Ensures t (f b) Q w') :
    (carrying G reqs).Ensures t (guardLive bookingId now >>= f) Q w :=
  ensures_first (byId_ensures hidle fun _ w1 hidle1 hfound => ensures_first (ensures_orRaise (fun _ => herr _ _)
    fun booking hbooking => ensures_first (ensures_raiseIf (fun _ => herr _ _) fun _ =>
      ensures_first (ensures_raiseIf (fun _ => herr _ _) fun _ => hk booking w1 hidle1 (hfound booking hbooking)))))

theorem correctDigits_ensures {k : Booking → Prg γ} (hidle : Idle t w) (h : Known G t b w.db)
    (hk : ∀ w', Hand G t b w'.db → Closes (carrying G reqs) t k Anyhow (.ok b) w') :
    (carrying G reqs).Ensures t (correctDigits b phone now) (Closes (carrying G reqs) t k Anyhow) w := by
  have hkeeps : ∀ w1 : World schema outside, w.Evolves (posting reqs) t w1 → Hand G t b w1.db := fun w1 hev =>
    hand_known (hev.db.pending.trans hidle) (rides_known.evolves _ _ _ hev.db h)
  have hrest : ∀ w', Hand G t b w'.db → (carrying G reqs).Ensures t
      (Bookings.listLiveForCustomer b.customerId now >>= fun rotate => rotateLinks now rotate >>= fun _ => (return b : Prg Booking))
      (Closes (carrying G reqs) t k Anyhow) w' := fun w' hhand =>
    ensures_select carrying_historic fun w2 hev2 _ _ _ _ => rotateLinks_ensures (fun _ _ => closes_error) hk _ _
      ((hhand.evolves hev2.db).congr rfl rfl rfl)
  refine ensures_update carrying_historic (fun _ _ _ _ => closes_error) (fun w1 hev _ _ _ => closes_error)
    fun w1 v r hev hL hv hr _ _ _ => hrest _ ⟨?_, ?_⟩
  · rw [Unsaid, ← (hkeeps w1 hev).unsaid]
    exact Engine.write_beside (by decide)
  · have hknown : Known G t b w1.db := rides_known.evolves _ _ _ hev.db h
    refine .inl ⟨rides_known.congr w1.db _ rfl rfl hknown, unmoved_idle ?_⟩
    have hnone : w1.db.pending t .bookings b.id = none := by rw [hev.db.pending, hidle]
    exact (Engine.write_pending_row fun hc => by cases hc.1).trans hnone

theorem repointTo_ensures {bookingId : Nat} {target : Customer} {k : Booking → Prg γ} (hidle : Idle t w)
    (hid : b.id = bookingId) (hk : ∀ b' w', Hand G t b' w'.db → Closes (carrying G reqs) t k Anyhow (.ok b') w') :
    (carrying G reqs).Ensures t (repointTo bookingId b target now) (Closes (carrying G reqs) t k Anyhow) w := by
  refine ensures_select carrying_historic fun w1 hev1 _ _ _ _ => ensures_raiseIf (fun _ => closes_error) fun _ =>
    ensures_update carrying_historic (fun _ _ _ _ => closes_error) (fun _ _ _ _ _ => closes_error)
    fun w2 v r hev2 hL2 hv hr _ _ _ => ?_
  have hidle2 : Idle t w2 := hev2.db.pending.trans (hev1.db.pending.trans hidle)
  obtain ⟨hmatch, hmoved⟩ := Option.ite_none_right_eq_some.1
    (show (if Booking.current v now then some { v with customerId := target.id } else none) = some r from hr)
  have hhand : Hand G t { b with customerId := target.id } (w2.db.write t Table.bookings bookingId r) := by
    refine ⟨?_, .inr ⟨r, ?_, ?_, ?_⟩⟩
    · rw [Unsaid, ← congrFun hidle2 Table.messageLog]
      exact Engine.write_beside (by decide)
    · dsimp only
      rw [hid]
      exact Engine.write_pending_self
    · cases hmoved
      rfl
    · have happly : BookingChange.apply v (.setCustomerId target.id now) = some r := hr
      exact (BookingChange.apply_live happly).2
  exact ensures_raiseIf (fun _ => closes_error) fun _ => rotateLinks_ensures (fun _ _ => closes_error) (hk _) _ _ hhand

theorem correctPhoneIn_ensures {bookingId : Nat} {k : Booking → Prg γ} (hidle : Idle t w)
    (hk : ∀ b' w', Hand G t b' w'.db → Closes (carrying G reqs) t k Anyhow (.ok b') w') :
    (carrying G reqs).Ensures t (correctPhoneIn bookingId phone now) (Closes (carrying G reqs) t k Anyhow) w := by
  refine guardLive_ensures hidle (fun _ _ => closes_error) fun booking w1 hidle1 hbooking =>
    select_idle rides_known hidle1 hbooking.2 fun found w2 hidle2 hknown => ?_
  have hdigits : (carrying G reqs).Ensures t (correctDigits booking phone now) (Closes (carrying G reqs) t k Anyhow) w2 :=
    correctDigits_ensures hidle2 hknown (hk booking)
  cases found with
  | none => exact hdigits
  | some target =>
    dsimp only
    split
    · exact repointTo_ensures hidle2 hbooking.1 hk
    · exact hdigits

theorem createBookingIn_ensures {name : String} {startsAt : Int} {k : BookingClaim → Prg γ} (hidle : Idle t w)
    (hk : ∀ claim w', Unsaid t w'.db → (claim.created = true → Hand G t claim.booking w'.db) →
      Closes (carrying G reqs) t k Anyhow (.ok claim) w') :
    (carrying G reqs).Ensures t (createBookingIn phone name startsAt) (Closes (carrying G reqs) t k Anyhow) w := by
  have hunsaid : Unsaid t w.db := by rw [Unsaid, hidle]
  refine aside_bind (only_checks trivial) hunsaid (fun _ _ => closes_error) fun _ w1 h1 => ?_
  refine ensures_locked carrying_historic fun w2 hev2 _ _ => ?_
  have h2 : Unsaid t ({ w2.db with advisory := some t } : Engine schema) := by
    show w2.db.pending t .messageLog = _
    rw [hev2.db.pending, h1]
  refine aside_bind (p := Customers.byPhone phone) (only_select trivial _) h2 (fun _ _ => closes_error) fun existing w3 h3 => ?_
  refine aside_bind (p := replay existing startsAt) ?_ h3 (fun _ _ => closes_error) fun replayed w4 h4 =>
    aside_bind (only_ask trivial) h4 (fun _ _ => closes_error) fun due w5 h5 => ?_
  · cases existing with
    | none => exact only_ret _
    | some r => exact only_select trivial _
  cases replayed with
  | some b => exact hk _ w5 h5 fun hc => by cases hc
  | none =>
    refine aside_bind (only_checks trivial) h5 (fun _ _ => closes_error) fun _ w6 h6 =>
      aside_bind (p := Customers.upsert phone name) (only_bind (only_select trivial _) fun existing => ?_) h6
        (fun _ _ => closes_error) fun customer w7 h7 =>
          aside_bind (only_checks trivial) h7 (fun _ _ => closes_error) fun _ w8 h8 => ?_
    · cases existing with
      | none => exact only_insert trivial _
      | some r => exact only_bind (only_update trivial _) fun _ => only_ret _
    refine Session.ensures_insert carrying_historic (fun _ _ _ _ _ => closes_error) fun w9 hev9 _ _ _ => ?_
    have h9 : Unsaid t ({ w9.db with next := w9.db.next + 1 } : Engine schema) := by
      show w9.db.pending t .messageLog = _
      rw [hev9.db.pending, h8]
    have hhand := hand_write (G := G) (r := schema.stamp Table.bookings w9.db.next (w9.db.started t)
      (⟨0, 0, none, customer.id, startsAt, if due then .pendingPayment else .confirmed⟩ : Booking)) h9 rfl
    exact hk _ _ hhand.unsaid fun _ => hhand

theorem openDeposit_ensures {claim : BookingClaim} {f : Bool → Prg β} (hidle : Idle t w)
    (h : claim.created = true → Known G t claim.booking w.db)
    (hk : ∀ a w', Idle t w' → (claim.created = true → Known G t claim.booking w'.db) →
      (carrying G reqs).Ensures t (f a) Anyhow w') :
    (carrying G reqs).Ensures t (openDeposit claim >>= f) Anyhow w := by
  have hΨ : Rides t fun e => claim.created = true → Known G t claim.booking e :=
    ⟨fun reqs e e' hev h hc => rides_known.evolves reqs e e' hev (h hc),
      fun e e' hl hcommitted h hc => rides_known.congr e e' hl hcommitted (h hc),
      fun e hidle h hc => rides_known.commit e hidle (h hc)⟩
  unfold openDeposit
  split
  · refine ensures_first (ask_idle rfl hΨ hidle h fun outstanding w1 hidle1 h1 => ?_)
    cases outstanding with
    | true => exact hk true w1 hidle1 h1
    | false =>
      refine ensures_first (ensures_tenantSession carrying_historic fun w2 n hev2 _ _ => ?_)
      have h2 := hΨ.evolves _ _ _ hev2.db h1
      have hidle2 : Idle t w2 := hev2.db.pending.trans hidle1
      refine ensures_last (ensures_update carrying_historic (fun _ _ _ _ => closes_error) (fun w3 hev3 _ _ _ => ?_)
        fun w3 v r hev3 _ hv hr _ _ _ => ?_)
      · have h3 := hΨ.evolves _ _ _ hev3.db (hΨ.congr w2.db _ rfl rfl h2)
        exact closes_idle hΨ (hev3.db.pending.trans hidle2) h3 fun w' hidle' h' => hk _ w' hidle' h'
      · have h3 := hΨ.evolves _ _ _ hev3.db (hΨ.congr w2.db _ rfl rfl h2)
        have hidle3 : Idle t w3 := hev3.db.pending.trans hidle2
        -- the deposit changes the booking's status, not whose it is
        have hhand : claim.created = true → Hand G t claim.booking (w3.db.write t Table.bookings claim.booking.id r) := by
          refine fun hc => ⟨?_, .inl ⟨rides_known.congr w3.db _ rfl rfl (h3 hc), fun q hq => ⟨v, ?_, ?_⟩⟩⟩
          · rw [Unsaid, ← congrFun hidle3 Table.messageLog]
            exact Engine.write_beside (by decide)
          · dsimp only
            rwa [Engine.view_idle hidle3] at hv
          · have hq : (w3.db.write t Table.bookings claim.booking.id r).pending t .bookings claim.booking.id = some q := hq
            rw [Engine.write_pending_self] at hq
            cases hq
            have happly : BookingChange.apply v (.setStatus .confirmed [.pendingPayment] none) = some r := hr
            obtain ⟨-, hset⟩ := Option.ite_none_right_eq_some.1 happly
            cases hset
            rfl
        refine closes_plain (fun e => claim.created = true → Hand G t claim.booking e)
          (fun e => claim.created = true → Known G t claim.booking e) (fun _ _ hev h hc => (h hc).evolves hev)
          (fun _ _ h hc => (h hc).commit) ?_ hhand fun w' hidle' h' => hk _ w' hidle' h'
        rw [← congrFun hidle3 Table.messageLog]
        exact Engine.write_beside (by decide)
  · exact hk false w hidle h

theorem sent_ensures {body : Prg Booking} {g : Booking → Answer} (hidle : Idle t w)
    (hbody : ∀ {δ : Type} {k : Booking → Prg δ} (w' : World schema outside), Idle t w' →
      (∀ b w'', Hand G t b w''.db → Closes (carrying G reqs) t k Anyhow (.ok b) w'') →
      (carrying G reqs).Ensures t body (Closes (carrying G reqs) t k Anyhow) w') :
    (carrying G reqs).Ensures t (do
      let booking ← tenantSession fun _ => body
      let _ ← notify kind linked booking
      return g booking) Anyhow w :=
  ensures_tenantSession carrying_historic fun _ _ hev _ _ =>
    hbody _ (hev.db.pending.trans hidle) fun _ _ hhand => closes_hand hhand fun _ hidle3 hknown =>
      telling_ensures hidle3 hknown

theorem aside_session {body : Int → Prg α} {f : α → Prg β} (hidle : Idle t w) (hp : ∀ n, Only Aside (body n))
    (hk : ∀ a w', (carrying G reqs).Ensures t (f a) Anyhow w') :
    (carrying G reqs).Ensures t (tenantSession body >>= f) Anyhow w := by
  refine ensures_tenantSession carrying_historic fun w1 n hev _ _ => ensures_last (aside_bind (hp n) ?_ (fun _ _ => closes_error)
    fun a w' hunsaid => closes_done hunsaid fun w'' => hk a w'')
  show w1.db.pending t .messageLog = _
  rw [show w1.db.pending t = _ from hev.db.pending.trans hidle]

theorem checks_idle {f : Unit → Prg β} (hidle : Idle t w)
    (hk : ∀ w', Idle t w' → (carrying G reqs).Ensures t (f ()) Anyhow w') :
    (carrying G reqs).Ensures t (checks >>= f) Anyhow w := by
  refine ensures_first (ask_idle rfl rides_true hidle trivial fun refusal w1 hidle1 _ => ?_)
  cases refusal with
  | none => exact hk w1 hidle1
  | some e => trivial

theorem now_idle {f : Int → Prg β} (hidle : Idle t w)
    (hk : ∀ a w', Idle t w' → (carrying G reqs).Ensures t (f a) Anyhow w') :
    (carrying G reqs).Ensures t (Session.now >>= f) Anyhow w :=
  Session.ensures_now carrying_historic fun w1 hev _ _ => hk _ w1 (hev.db.pending.trans hidle)

theorem request_ensures (req : Request) (hidle : Idle t w) : (carrying G reqs).Ensures t req.code Anyhow w := by
  have hunsaid : ∀ w' : World schema outside, Idle t w' → Unsaid t w'.db := fun w' h => by rw [Unsaid, h]
  cases req with
  | createBooking phone name startsAt =>
    refine ensures_tenantSession carrying_historic fun w1 n hev _ _ =>
      createBookingIn_ensures (hev.db.pending.trans hidle) fun claim w2 h2 hhand => ?_
    refine closes_plain (fun e => claim.created = true → Hand G t claim.booking e)
      (fun e => claim.created = true → Known G t claim.booking e) (fun _ _ hev h hc => (h hc).evolves hev)
      (fun _ _ h hc => (h hc).commit) h2 hhand fun w3 hidle3 h3 =>
        openDeposit_ensures hidle3 h3 fun outstanding w4 hidle4 h4 => ?_
    cases hcreated : claim.created with
    | false => trivial
    | true =>
      cases outstanding with
      | true => trivial
      | false => exact telling_ensures hidle4 (h4 hcreated)
  | cancelBooking bookingId =>
    exact now_idle hidle fun now w1 hidle1 => told_ensures hidle1 fun _ hidle' hk => cancelIn_ensures hidle' hk
  | rescheduleBooking bookingId startsAt =>
    exact checks_idle hidle fun w1 hidle1 => now_idle hidle1 fun now w2 hidle2 =>
      told_ensures hidle2 fun _ hidle' hk => rescheduleIn_ensures hidle' hk
  | settleDeposit bookingId =>
    exact sent_ensures hidle fun w' hidle' hk => byId_ensures hidle' fun found w1 hidle1 _ =>
      ensures_orRaise (fun _ => closes_error) fun booking _ => write_ensures (hunsaid w1 hidle1) (fun _ _ => closes_error)
        (fun _ _ => closes_error) fun v r w2 _ hhand => hk r w2 hhand
  | settleWithoutSlot bookingId =>
    refine ensures_tenantSession carrying_historic fun w1 n hev _ _ =>
      ensures_last (ensures_first (byId_ensures (hev.db.pending.trans hidle) fun found w2 hidle2 hfound =>
        ensures_orRaise (fun _ => closes_error) fun booking hbooking => closes_hand (hand_known hidle2
          (hfound booking hbooking).2) fun w3 hidle3 hknown => ?_))
    refine ensures_first (ask_idle rfl rides_known hidle3 hknown fun refusal w4 hidle4 h4 => ?_)
    cases refusal with
    | none => exact telling_ensures hidle4 h4
    | some e => trivial
  | drainReminder bookingId =>
    refine now_idle hidle fun now w1 hidle1 => ensures_tenantSession carrying_historic fun w2 n hev _ _ =>
      ensures_last (byId_ensures (hev.db.pending.trans hidle1) fun found w3 hidle3 hfound => ?_)
    cases found with
    | none => exact closes_done (hunsaid w3 hidle3) fun _ => trivial
    | some booking =>
      refine closes_hand (hand_known hidle3 (hfound booking rfl).2) fun w4 hidle4 hknown => ?_
      dsimp only
      split
      · trivial
      · exact telling_ensures hidle4 hknown
  | sendOtp phone =>
    refine checks_idle hidle fun w1 hidle1 => ensures_bind (ensures_mono (fun x _ _ => ?_)
      (sendSms_ensures hidle1 ⟨Nat.le_refl _, fun b hb => by cases hb⟩))
    cases x <;> trivial
  | correctPhone bookingId phone =>
    exact checks_idle hidle fun w1 hidle1 => now_idle hidle1 fun now w2 hidle2 =>
      sent_ensures hidle2 fun _ hidle' hk => correctPhoneIn_ensures hidle' hk
  | resendLink bookingId =>
    exact checks_idle hidle fun w1 hidle1 => now_idle hidle1 fun now w2 hidle2 =>
      sent_ensures hidle2 fun _ hidle' hk => guardLive_ensures hidle' (fun _ _ => closes_error) fun b w3 hidle3 hb =>
        rotateLinks_ensures (fun _ _ => closes_error) (hk b) _ _ (hand_known hidle3 hb.2)
  | bell customerId =>
    exact ensures_last (aside_session hidle (fun _ => only_bind (only_select trivial _) fun _ =>
      only_bind (only_select trivial _) fun _ => only_ret _) fun _ _ => trivial)
  | markBellSeen customerId =>
    exact now_idle hidle fun now w1 hidle1 => aside_session hidle1 (fun _ => only_bind (only_update trivial _) fun _ =>
      only_ret _) fun _ _ => trivial
  | customerDetail customerId =>
    exact ensures_last (aside_session hidle (fun _ => only_bind (only_select trivial _) fun _ =>
      only_bind (only_orRaise _ _) fun _ => only_bind (only_select trivial _) fun _ =>
        only_bind (only_select trivial _) fun _ => only_ret _) fun _ _ => trivial)

end Requests

end Bodies

/-! ## Where a booking has been -/

/-- **A correction of its phone has moved the booking** away from the customer, between the two versions. -/
def Repointed (reqs : Tid → Request) (e : Engine schema) (m n b i : Nat) : Prop :=
  ∃ k d phone, m ≤ k ∧ k < n ∧ e.log[k]? = some d ∧ reqs d.by_ = .correctPhone b phone ∧
    ∃ v r : Booking, d.before .bookings b = some v ∧ d.after .bookings b = some r ∧ v.customerId = i ∧ r.customerId ≠ i

theorem Hers.since {m b : Nat} (h : Hers e m b i) (hL : e.Lawful (posting reqs)) (hmn : m ≤ n)
    (hn : n ≤ e.log.length) : Hers e n b i ∨ Repointed reqs e m n b i := by
  by_cases hhers : Hers e n b i
  · exact .inl hhers
  · obtain ⟨k, c, hmk, hkn, hc, hbefore, hafter⟩ := hL.version_crossing (T := Table.bookings) (i := b)
      (P := fun x => ¬∃ v : Booking, x = some v ∧ v.customerId = i ∧ v.deletedAt = none) hmn hn (not_not.2 h) hhers
    obtain ⟨v, hv, hcustomer, hlive⟩ := not_not.1 hbefore
    have hmem : c ∈ e.log := List.mem_of_getElem? hc
    have hrow := hL.entries c hmem .bookings b
    rw [hv] at hrow
    obtain ⟨r, hr, hcommon, hid, hmoved⟩ := hrow.some_left
    have hlive' : Booking.deletedAt r = none := Eq.trans hcommon hlive
    have hi : Booking.id v = b := (hL.past c hmem).id _ _ _ hv
    have hne : Booking.customerId r ≠ i := fun hc => hafter ⟨r, hr, hc, hlive'⟩
    rcases hmoved with hsame | ⟨phone, hby⟩
    · exact absurd (hsame.trans hcustomer) hne
    · exact .inr ⟨k, c, phone, hmk, hkn, hc, hi ▸ hby, v, r, hv, hr, hcustomer, hne⟩

/-- **Where a message of a booking went**: a request entered it for the number that the recipient's row stored when it read it,
having read or written the booking as the recipient's; and hers it is still, unless a correction has moved it since. -/
structure Traced (G : Tid → Query → Nat → Prop) (reqs : Tid → Request) (e : Engine schema) (n : Nat) (m : MessageLog)
    (b i n₀ : Nat) : Prop where
  booking : m.bookingId = some b
  recipient : m.recipient = some i
  sent : ∃ j d n₁, j < n ∧ e.log[j]? = some d ∧ d.before .messageLog m.id = none ∧
    (∃ r : MessageLog, d.writes .messageLog m.id = some r ∧ r.phone = m.phone) ∧ Sourced G d.by_ j m.phone b i n₀ n₁ e
  since : Hers e n b i ∨ Repointed reqs e n₀ n b i

theorem entered_before {k : Nat} {m : MessageLog} (hL : e.Lawful (posting reqs))
    (hempty : ∀ j, e.version 0 .messageLog j = none) (hn : n ≤ e.log.length) (hm : e.version n .messageLog k = some m) :
    ∃ j d, ∃ r : MessageLog, j < n ∧ e.log[j]? = some d ∧ d.before .messageLog k = none ∧ d.writes .messageLog k = some r ∧
      SameMessage r m := by
  obtain ⟨j, d, -, hjn, hd, hbefore, hafter⟩ := hL.version_crossing (T := Table.messageLog) (i := k)
    (P := fun x => x ≠ none) (Nat.zero_le n) hn (by rw [hempty]; exact fun h => h rfl) (by rw [hm]; nofun)
  have hbefore : d.before .messageLog k = none := not_not.1 hbefore
  obtain ⟨r, hr⟩ := Option.ne_none_iff_exists'.1 hafter
  have hw : d.writes .messageLog k = some r := by
    cases hw : d.writes .messageLog k with
    | none =>
      rw [Commit.after, Rows.over_none hw, hbefore] at hr
      cases hr
    | some r' => rwa [Commit.after, Rows.over_some hw] at hr
  have hrow := hL.version_becomes (Cast.plays_common _) (Nat.succ_le_of_lt hjn) hn .messageLog k
  rw [hL.linked j d hd, hr, hm] at hrow
  exact ⟨j, d, r, hjn, hd, hbefore, hw, hrow⟩

theorem written_before {k : Nat} {m : MessageLog} (hL : e.Lawful (posting reqs))
    (hempty : ∀ j, e.version 0 .messageLog j = none) (hn : n ≤ e.log.length) (hm : e.version n .messageLog k = some m) :
    ∃ j d, j < n ∧ e.log[j]? = some d ∧ d.writes .messageLog k = some m := by
  obtain ⟨j, d, -, hjn, hd, hbefore, hafter⟩ := hL.version_crossing (T := Table.messageLog) (i := k)
    (P := fun x => x = some m) (Nat.zero_le n) hn (by rw [hempty]; exact fun h => by cases h) hm
  refine ⟨j, d, hjn, hd, ?_⟩
  cases hw : d.writes .messageLog k with
  | none =>
    rw [Commit.after, Rows.over_none hw] at hafter
    exact absurd hafter hbefore
  | some r =>
    rw [Commit.after, Rows.over_some hw] at hafter
    exact hafter

theorem traced {w : World schema outside} {m : MessageLog} (hI : Posted G w) (hL : w.db.Lawful (posting reqs))
    (hempty : ∀ j, w.db.version 0 .messageLog j = none) (hn : n ≤ w.db.log.length)
    (hm : w.db.version n .messageLog m.id = some m) :
    (m.status = .sent → Took w.out m.id m.phone) ∧
      ∀ b, m.bookingId = some b → ∃ i n0, Traced G reqs w.db n m b i n0 := by
  constructor
  · obtain ⟨j, d, -, hd, hw⟩ := written_before hL hempty hn hm
    exact (hI.written j d hd m.id m hw).2
  · intro b hb
    obtain ⟨j, d, r, hjn, hd, hnew, hw, hphone, hbooking, hrecipient, -⟩ := entered_before hL hempty hn hm
    obtain ⟨i, n0, n1, hi, hs⟩ := ((hI.written j d hd m.id r hw).1 hnew).2 b (hbooking.symm.trans hb)
    exact ⟨i, n0, hb, hrecipient.trans hi, ⟨j, d, n1, hjn, hd, hnew, ⟨r, hw, hphone.symm⟩, hphone ▸ hs⟩,
      hs.hers.since hL (hs.le.trans (hs.le'.trans hjn.le)) hn⟩

theorem message_live {k : Nat} {m : MessageLog} (hL : e.Lawful (posting reqs))
    (hempty : ∀ j, e.version 0 .messageLog j = none) (hn : n ≤ e.log.length) (hm : e.version n .messageLog k = some m) :
    m.live = true := by
  have hrow := hL.version_becomes (Cast.plays_common _) (Nat.zero_le n) hn .messageLog k
  rw [hempty, hm] at hrow
  have hnew : MessageLog.deletedAt m = none := hrow
  simpa [MessageLog.live] using hnew

/-! ## What the reads show -/

theorem newer_total (m m' : MessageLog) : newer m m' = true ∨ newer m' m = true := by
  simp only [newer, decide_eq_true_eq]
  omega

theorem newer_trans (m m' m'' : MessageLog) (h : newer m m' = true) (h' : newer m' m'' = true) : newer m m'' = true := by
  simp only [newer, decide_eq_true_eq] at h h' ⊢
  omega

instance : Std.Total fun m m' : MessageLog => newer m m' = true := ⟨newer_total⟩

instance : IsTrans MessageLog fun m m' => newer m m' = true := ⟨newer_trans⟩

theorem mem_take_or_full {r : α → α → Prop} {l : List α} (n : Nat) (hl : l.Pairwise r) {x : α} (hx : x ∈ l) :
    x ∈ l.take n ∨ ((l.take n).length = n ∧ ∀ y ∈ l.take n, r y x) := by
  rw [← List.take_append_drop n l, List.pairwise_append] at hl
  rw [← List.take_append_drop n l, List.mem_append] at hx
  rcases hx with hx | hx
  · exact .inl hx
  · refine .inr ⟨?_, fun y hy => hl.2.2 y hy x hx⟩
    have hlt : n < l.length := by
      by_contra hle
      rw [List.drop_eq_nil_of_le (by omega)] at hx
      cases hx
    rw [List.length_take]
    omega

/-- The log's page has the message, or is full of messages at least as new. -/
def Shown (items : List SmsLogRow) (m : MessageLog) : Prop :=
  (∃ x ∈ items, x.id = m.id) ∨ (items.length = SMS_LOG_LIMIT ∧
    ∀ x ∈ items, m.createdAt < x.createdAt ∨ (x.createdAt = m.createdAt ∧ m.id ≤ x.id))

theorem shown_of_mem {s : Snapshot schema} {m : MessageLog} (h : m ∈ customerLog s customerId phone) :
    Shown (((customerLog s customerId phone).take SMS_LOG_LIMIT).map MessageLog.row) m := by
  rcases mem_take_or_full SMS_LOG_LIMIT (List.pairwise_insertionSort _ _) h with hmem | ⟨hlen, hall⟩
  · exact .inl ⟨m.row, List.mem_map_of_mem hmem, rfl⟩
  · refine .inr ⟨by rw [List.length_map]; exact hlen, fun x hx => ?_⟩
    obtain ⟨y, hy, rfl⟩ := List.mem_map.1 hx
    exact of_decide_eq_true (hall y hy)

/-- **A page was read** of a version from `L` on. -/
def Pages (L : Nat) (P : Snapshot schema → Prop) (e : Engine schema) : Prop :=
  ∃ n s, L ≤ n ∧ n ≤ e.log.length ∧ s.rows = e.version n ∧ (∀ T i r, s.rows T i = some r → i < s.next) ∧ P s

theorem lasts_pages {L : Nat} {P : Snapshot schema → Prop} : Lasts (Pages L P) := by
  rintro e e' hl hv ⟨n, s, hLn, hn, hs, hrest⟩
  exact ⟨n, s, hLn, hn.trans hl.length_le, by rw [hv n hn]; exact hs, hrest⟩

abbrev reading (reqs : Tid → Request) : Contract (posting reqs) outside Err where
  Inv _ := True
  Assume _ _ _ _ _ := True
  crash_inv _ _ _ h := h
  tick_inv _ _ _ h := h

theorem reading_historic (calm : Ask → Bool) : (reading reqs).Historic calm := ⟨fun _ _ _ _ _ h => h, fun _ _ _ _ _ _ h => h⟩

def Answers (req : Request) (L : Nat) (x : Except Err Answer) (e : Engine schema) : Prop :=
  (∀ customerId unread items, req = .bell customerId → x = .ok (.bell unread items) →
    Pages L (fun s => items = bellRows s customerId) e) ∧
  ∀ customerId messages total, req = .customerDetail customerId → x = .ok (.log messages total) →
    Pages L (fun s => ∃ phone, messages = ((customerLog s customerId phone).take SMS_LOG_LIMIT).map MessageLog.row) e

theorem Answers.evolves {L : Nat} {x : Except Err Answer} (h : Answers req L x e)
    (hev : e.Evolves (posting reqs) t e') : Answers req L x e' :=
  ⟨fun i n items hreq hx => lasts_pages.evolves hev (h.1 i n items hreq hx),
    fun i messages n hreq hx => lasts_pages.evolves hev (h.2 i messages n hreq hx)⟩

section Reads

variable {β : Type} {L : Nat} {Q : Except Err β → World schema outside → Prop}

theorem page_ensures {q : Query} {g : Snapshot schema → α} {f : α → Prg β} (hpast : L ≤ w.db.log.length)
    (hidle : Idle t w) (hk : ∀ a w', L ≤ w'.db.log.length → Idle t w' → Pages L (fun s => a = g s) w'.db →
      (reading reqs).Ensures t (f a) Q w') : (reading reqs).Ensures t (select q g >>= f) Q w := by
  refine ensures_select (reading_historic fun _ => true) fun w1 hev hL _ _ _ => ?_
  have hidle1 : Idle t w1 := hev.db.pending.trans hidle
  have hpast1 : L ≤ w1.db.log.length := hpast.trans hev.db.log_le
  refine hk _ _ hpast1 hidle1 ⟨w1.db.log.length, ⟨w1.db.view t, w1.db.next⟩, hpast1, Nat.le_refl _, ?_, ?_, rfl⟩
  · rw [Engine.look_version, Engine.version_length]
    exact Engine.view_idle hidle1
  · exact fun T i r hr => hL.view_lt hr

theorem reading_session {body : Prg Answer} (hpast : L ≤ w.db.log.length) (hidle : Idle t w)
    (hbody : ∀ w', L ≤ w'.db.log.length → Idle t w' →
      (reading reqs).Ensures t body (fun x w'' => Answers req L x w''.db) w') :
    (reading reqs).Ensures t (tenantSession fun _ => body) (fun x w' => Answers req L x w'.db) w := by
  refine ensures_last (ensures_tenantSession (reading_historic fun _ => true) fun w1 n hev _ _ => ensures_mono (fun x w2 hx => ?_)
    (hbody _ (hpast.trans hev.db.log_le) (hev.db.pending.trans hidle)))
  cases x with
  | error e => exact fun w3 _ _ => ⟨fun _ _ _ _ hx => (by cases hx), fun _ _ _ _ hx => (by cases hx)⟩
  | ok answer =>
    intro w3 hev3 _ _ _ _
    have h3 := hx.evolves hev3.db
    exact ⟨trivial, fun i n items hreq hx => lasts_pages.commit (h3.1 i n items hreq hx),
      fun i messages n hreq hx => lasts_pages.commit (h3.2 i messages n hreq hx)⟩

theorem bell_answers (hpast : L ≤ w.db.log.length) (hidle : Idle t w) :
    (reading reqs).Ensures t (Inbox.bell customerId) (fun x w' => Answers (.bell customerId) L x w'.db) w := by
  refine reading_session hpast hidle fun w1 hpast1 hidle1 => page_ensures hpast1 hidle1 fun items w2 hpast2 hidle2 hpages =>
    ensures_select (reading_historic fun _ => true) fun w3 hev3 _ _ _ _ => ⟨fun i n items' hreq hx => ?_, fun _ _ _ hreq _ => (by cases hreq)⟩
  cases hreq
  cases hx
  have h3 := lasts_pages.evolves hev3.db hpages
  exact lasts_pages.congr (e := w3.db) rfl rfl h3

theorem customerDetail_answers (hpast : L ≤ w.db.log.length) (hidle : Idle t w) :
    (reading reqs).Ensures t (Inbox.customerDetail customerId)
      (fun x w' => Answers (.customerDetail customerId) L x w'.db) w := by
  refine reading_session hpast hidle fun w1 hpast1 hidle1 => ensures_select (reading_historic fun _ => true) fun w2 hev2 hL2 _ _ _ => ?_
  have hidle2 : Idle t (⟨w2.db.look t, w2.out⟩ : World schema outside) := hev2.db.pending.trans hidle1
  have hpast2 : L ≤ w2.db.log.length := hpast1.trans hev2.db.log_le
  refine ensures_orRaise (fun _ => ⟨fun _ _ _ _ hx => (by cases hx), fun _ _ _ _ hx => (by cases hx)⟩) fun customer hfound => ?_
  have hid : Customer.id customer = customerId :=
    (hL2.view_consistent t).id _ _ _ (Option.filter_eq_some_iff.1 hfound).1
  refine page_ensures hpast2 hidle2 fun messages w3 _ _ hpages =>
    ensures_select (reading_historic fun _ => true) fun w4 hev4 _ _ _ _ => ⟨fun _ _ _ hreq _ => (by cases hreq), fun i messages' n hreq hx => ?_⟩
  cases hreq
  cases hx
  have h4 := lasts_pages.evolves hev4.db hpages
  have hread : Pages L (fun s => messages = ((customerLog s customer.id customer.phone).take SMS_LOG_LIMIT).map MessageLog.row)
      (w4.db.look t) := lasts_pages.congr (e := w4.db) rfl rfl h4
  obtain ⟨n, s, hLn, hn, hs, hlt, hmessages⟩ := hread
  rw [hid] at hmessages
  exact ⟨n, s, hLn, hn, hs, hlt, customer.phone, hmessages⟩

end Reads

/-! ## Every run -/

variable {rows : Rows schema} {next : Nat} {clock : Int} {c : Conf (machine schema outside Err) Answer}

theorem mailing_obeyed (h : Shelved rows next) : Cast.Obeyed (posting reqs) (mailing reqs rows next clock) := by
  refine ⟨atRest_lawful h _, fun t p hp => ?_⟩
  cases hp
  exact ⟨false, (fun h => by cases h), uses_mono (fun _ _ hf => fitting_legal hf) (fun _ _ h => h) (only_request (reqs t) false)⟩

theorem posted_run (h : Shelved rows next) (hr : Conf.Steps (Looks G) (mailing reqs rows next clock) c) :
    Posted G c.state := by
  have hsafe : ∀ u p, (mailing reqs rows next clock).threads u = some p →
      (carrying G reqs).logic.Safe u p (fun _ _ => True) (mailing reqs rows next clock).state := by
    intro u p hp
    cases hp
    exact safe_of_ensures (request_ensures (reqs u) rfl) fun _ _ _ _ _ _ _ => trivial
  obtain ⟨hsound, -⟩ := (carrying G reqs).runs (Q := fun _ _ _ => True) (mailing_obeyed h)
    ⟨fun m d hd => (by cases hd), fun u s hs => (by cases hs)⟩ hsafe hr
  exact hsound.inv.2

theorem mem_bellRows {item : PortalBellItem} (h : item ∈ bellRows sn customerId) :
    ∃ k m b, sn.rows .messageLog k = some m ∧ bellBooking sn.rows customerId m = some b ∧ item = m.item b := by
  obtain ⟨m, hm, hitem⟩ := List.mem_filterMap.1 (List.mem_of_mem_take h)
  obtain ⟨b, hb, rfl⟩ := Option.map_eq_some_iff.1 hitem
  obtain ⟨k, -, hk⟩ := Snapshot.mem_all.1 ((List.mem_insertionSort (α := MessageLog) _).1 hm)
  exact ⟨k, m, b, hk, hb, rfl⟩

theorem bellBooking_some {rows : Rows schema} {m : MessageLog} (h : bellBooking rows customerId m = some b) :
    m.status = .sent ∧
      ∃ i, m.bookingId = some i ∧ rows .bookings i = some b ∧ b.customerId = customerId ∧ b.deletedAt = none := by
  obtain ⟨⟨-, -, hsent⟩, hbooking⟩ := Option.ite_none_right_eq_some.1 h
  obtain ⟨i, hi, hb⟩ := Option.bind_eq_some_iff.1 hbooking
  obtain ⟨hb, hhers⟩ := Option.filter_eq_some_iff.1 hb
  obtain ⟨hcustomer, hlive⟩ := of_decide_eq_true hhers
  exact ⟨hsent, i, hi, hb, hcustomer, by simpa [Booking.live] using hlive⟩

theorem mem_customerLog {m : MessageLog} :
    m ∈ customerLog sn customerId phone ↔
      (∃ k, k < sn.next ∧ sn.rows .messageLog k = some m) ∧ inCustomerLog sn.rows customerId phone m = true := by
  rw [customerLog, List.mem_insertionSort, List.mem_filter, Snapshot.mem_all]

theorem hers_of_log {m : MessageLog} (h : inCustomerLog (e.version n) customerId phone m = true) {b : Nat}
    (hb : m.bookingId = some b) : Hers e n b customerId := by
  simp only [inCustomerLog, hb, Bool.and_eq_true, Option.any_eq_true, decide_eq_true_eq] at h
  obtain ⟨-, v, hv, hcustomer, hlive⟩ := h
  exact ⟨v, hv, hcustomer, by simpa [Booking.live] using hlive⟩

theorem log_of_hers {m : MessageLog} {b : Nat} (hm : m.live = true) (hb : m.bookingId = some b)
    (h : Hers e n b customerId) : inCustomerLog (e.version n) customerId phone m = true := by
  obtain ⟨v, hv, hcustomer, hlive⟩ := h
  simp only [inCustomerLog, hb, Bool.and_eq_true, Option.any_eq_true, decide_eq_true_eq]
  exact ⟨hm, v, hv, hcustomer, by simpa [Booking.live] using hlive⟩

/-- **Every item of a bell and every message of a booking in a console's log is of a booking that is hers when it is read, and
went to the number that the recipient's row stored when the request that sent it read it, the booking being the recipient's as
that request had read or written it: and hers is the recipient unless a correction has moved the booking since.  Of a bell's
item the provider took it; and every message of a booking that the provider took before the read is shown to whoever the booking
points at, up to the page.** -/
theorem attributed (h : Shelved rows next) (hempty : ∀ k, rows .messageLog k = none)
    {c₀ : Conf (machine schema outside Err) Answer}
    (h₀ : Conf.Steps (fun u o w r w' => u ≠ t ∧ Looks G u o w r w') (mailing reqs rows next clock) c₀)
    (hr : Conf.Steps (Looks G) c₀ c) :
    (∀ customerId unread items, reqs t = .bell customerId → c.threads t = some (.ret (.bell unread items)) →
      ∃ n, c₀.state.db.log.length ≤ n ∧ n ≤ c.state.db.log.length ∧ ∀ item ∈ items,
        ∃ m : MessageLog, c.state.db.version n .messageLog item.id = some m ∧ m.id = item.id ∧ Took c.state.out item.id m.phone ∧
          m.bookingId = some item.bookingId ∧ Hers c.state.db n item.bookingId customerId ∧
          ∃ i n₀, Traced G reqs c.state.db n m item.bookingId i n₀) ∧
    ∀ customerId messages total, reqs t = .customerDetail customerId →
      c.threads t = some (.ret (.log messages total)) →
      ∃ n, c₀.state.db.log.length ≤ n ∧ n ≤ c.state.db.log.length ∧
        (∀ x ∈ messages, ∃ m : MessageLog, c.state.db.version n .messageLog x.id = some m ∧ m.id = x.id ∧
          ∀ b, m.bookingId = some b →
            Hers c.state.db n b customerId ∧ ∃ i n₀, Traced G reqs c.state.db n m b i n₀) ∧
        ∀ u s, s ∈ c₀.state.out u → ∃ m : MessageLog, c.state.db.version n .messageLog s.logId = some m ∧ m.id = s.logId ∧
          m.phone = s.phone ∧ ∀ b, m.bookingId = some b → (∃ i n₀, Traced G reqs c.state.db n m b i n₀) ∧
            (Hers c.state.db n b customerId → Shown messages m) := by
  have hob : Cast.Obeyed (posting reqs) (mailing reqs rows next clock) := mailing_obeyed h
  have hstart : Conf.Steps (Looks G) (mailing reqs rows next clock) c₀ := h₀.mono fun _ _ _ _ _ hu => hu.2
  have hposted : Posted G c.state := posted_run h (hstart.trans hr)
  have hnone : ∀ j, c.state.db.version 0 .messageLog j = none := by
    intro j
    rw [(hob.history (hstart.trans hr)).2 0 (Nat.le_refl 0)]
    exact hempty j
  obtain ⟨hidle, hcode⟩ := hob.unbegun (A := fun _ _ _ _ _ => True) ⟨rfl⟩ (h₀.mono fun _ _ _ _ _ hu => ⟨hu.1, trivial⟩)
  have hanswers : ∀ x (e : Engine schema), (∀ i, reqs t ≠ .bell i) → (∀ i, reqs t ≠ .customerDetail i) →
      Answers (reqs t) c₀.state.db.log.length x e := fun x e hbell hdetail =>
    ⟨fun i _ _ hreq _ => absurd hreq (hbell i), fun i _ _ hreq _ => absurd hreq (hdetail i)⟩
  have hfree : ∀ {u : Tid} {p : Code schema outside Err Answer} {Q : Except Err Answer → World schema outside → Prop},
      (∀ x w', Q x w') → (reading reqs).logic.Safe u p Q c₀.state := fun hQ =>
    safe_of_free (reading_historic _) (fun _ _ _ _ _ => trivial) (fun _ _ _ _ => trivial) hQ
  have hmine : (reading reqs).logic.Safe t (reqs t).code
      (fun x w' => Answers (reqs t) c₀.state.db.log.length x w'.db) c₀.state := by
    cases hreq : reqs t with
    | bell customerId =>
      exact safe_of_ensures (bell_answers (Nat.le_refl _) hidle.pending) fun x w w' h hev _ _ => h.evolves hev.db
    | customerDetail customerId =>
      exact safe_of_ensures (customerDetail_answers (Nat.le_refl _) hidle.pending) fun x w w' h hev _ _ => h.evolves hev.db
    | _ =>
      rw [← hreq]
      exact hfree fun x w' => hanswers x w'.db (fun i hc => by rw [hreq] at hc; cases hc)
        fun i hc => by rw [hreq] at hc; cases hc
  have hL := (hob.steps (hstart.trans hr)).1.lawful
  obtain ⟨hfinished, -⟩ := (reading reqs).follows
    (Q := fun x w' => Answers (reqs t) c₀.state.db.log.length x w'.db) (hob.steps hstart).1 trivial
    (fun u p _ _ => hfree fun _ _ => trivial) (fun p hp => by cases hcode p hp; exact hmine) (hr.mono fun _ _ _ _ _ _ => trivial)
  refine ⟨fun customerId unread items hreq hc => ?_, fun customerId messages total hreq hc => ?_⟩
  · obtain ⟨n, s, hLn, hn, hs, -, rfl⟩ := (hfinished _ hc).1 customerId unread items hreq rfl
    refine ⟨n, hLn, hn, fun item hitem => ?_⟩
    obtain ⟨k, m, b, hm, hb, rfl⟩ := mem_bellRows hitem
    obtain ⟨hsent, i, hi, hbooking, hcustomer, hlive⟩ := bellBooking_some hb
    rw [hs] at hm hbooking
    have hmid : MessageLog.id m = k := (hL.version_consistent n).id _ _ _ hm
    have hbid : Booking.id b = i := (hL.version_consistent n).id _ _ _ hbooking
    subst hmid hbid
    obtain ⟨htook, htraced⟩ := traced hposted hL hnone hn hm
    exact ⟨m, hm, rfl, htook hsent, hi, ⟨b, hbooking, hcustomer, hlive⟩, htraced _ hi⟩
  · obtain ⟨n, s, hLn, hn, hs, hlt, phone, rfl⟩ := (hfinished _ hc).2 customerId messages total hreq rfl
    refine ⟨n, hLn, hn, fun x hx => ?_, fun u q hq => ?_⟩
    · obtain ⟨m, hm, rfl⟩ := List.mem_map.1 hx
      obtain ⟨⟨k, -, hk⟩, hin⟩ := mem_customerLog.1 (List.mem_of_mem_take hm)
      rw [hs] at hk hin
      have hmid : MessageLog.id m = k := (hL.version_consistent n).id _ _ _ hk
      subst hmid
      exact ⟨m, hk, rfl, fun b hb => ⟨hers_of_log hin hb, (traced hposted hL hnone hn hk).2 b hb⟩⟩
    · obtain ⟨r, hr0, hphone⟩ := (posted_run h hstart).taken u q hq
      have hrow := hL.version_becomes (Cast.plays_common _) hLn hn .messageLog q.logId
      rw [((hob.steps hstart).1.history hr).2 _ (Nat.le_refl _), Engine.version_length, hr0] at hrow
      obtain ⟨m, hm, hsame⟩ := hrow.some_left
      have hsame : SameMessage r m := hsame
      have hmid : MessageLog.id m = q.logId := (hL.version_consistent n).id _ _ _ hm
      refine ⟨m, hm, hmid, hsame.1.trans hphone, fun b hb => ⟨(traced hposted hL hnone hn (by rw [hmid]; exact hm)).2 b hb,
        fun hhers => ?_⟩⟩
      refine shown_of_mem (mem_customerLog.2 ⟨⟨q.logId, hlt _ _ _ (by rw [hs]; exact hm), by rw [hs]; exact hm⟩, ?_⟩)
      rw [hs]
      exact log_of_hers (message_live hL hnone hn hm) hb hhers

/-! ## A booking moved between two texts -/

/-- Noa has the booking; Maya has the number that it is corrected to. -/
def twoCustomers : (T : Table) → List (Row T)
  | .customers => [
    (⟨0, 0, none, .mobile 1, "Noa", none⟩ : Customer),
    (⟨1, 0, none, .mobile 2, "Maya", none⟩ : Customer)]
  | .bookings => [(⟨2, 0, none, 0, 100, .confirmed⟩ : Booking)]
  | .messageLog => []

theorem twoCustomers_shelved : Shelved (listed (S := schema) twoCustomers) 3 :=
  shelved_of_stocked [.customers, .bookings, .messageLog] (fun T => by cases T <;> decide) (by decide)

/-- The link is sent again, the phone is corrected to Maya's, and Maya opens her bell. -/
def resentAndCorrected : Tid → Request
  | 0 => .resendLink 2
  | 1 => .correctPhone 2 (.mobile 2)
  | 2 => .bell 1
  | _ => .customerDetail 0

def calls (t n : Nat) : List (Action (machine schema outside Err)) := List.replicate n (.call t ⟨none, true, .accepted⟩)

abbrev moved : Conf (machine schema outside Err) Answer :=
  mailing resentAndCorrected (listed (S := schema) twoCustomers) 3 0

def belled (c : Conf (machine schema outside Err) Answer) (t : Tid) : List Nat :=
  match c.threads t with
  | some (.ret (.bell _ items)) => items.map PortalBellItem.id
  | _ => []

def strays (c : Conf (machine schema outside Err) Answer) : Prop :=
  3 ∈ belled c 2 ∧ (∃ m : MessageLog, m ∈ c.state.db.committed Table.messageLog 3 ∧ m.phone = .mobile 1) ∧
    ∀ n, n ≤ c.state.db.log.length → ∀ v : Customer, v ∈ c.state.db.version n Table.customers 1 → v.phone ≠ .mobile 1

instance (c : Conf (machine schema outside Err) Answer) : Decidable (strays c) :=
  inferInstanceAs (Decidable (_ ∧ _ ∧ _))

/-- **Maya's bell lists the text that was sent to Noa**: the correction has moved the booking to her. -/
theorem bell_strays : ∃ c, moved.Reaches c ∧ ∃ unread items, c.threads 2 = some (.ret (.bell unread items)) ∧
    ∃ item ∈ items, ∃ m : MessageLog, c.state.db.committed .messageLog item.id = some m ∧
      ∀ n, n ≤ c.state.db.log.length → ¬Stores c.state.db n 1 m.phone := by
  obtain ⟨c, hc, hP⟩ := Conf.reached_freely moved (calls 0 20 ++ calls 1 23 ++ calls 2 4)
    (fun c => decide (strays c)) (by decide)
  obtain ⟨hbell, ⟨m, hm, hphone⟩, hnever⟩ := of_decide_eq_true hP
  refine ⟨c, hc, ?_⟩
  unfold belled at hbell
  split at hbell
  · rename_i unread items hthread
    obtain ⟨item, hitem, hid⟩ := List.mem_map.1 hbell
    refine ⟨unread, items, hthread, item, hitem, m, by rw [hid]; exact hm, fun n hn hstores => ?_⟩
    obtain ⟨v, hv, hv'⟩ := hstores
    exact hnever n hn v hv (hv'.trans hphone)
  · cases hbell

/-- The link's request reads the booking at 0 and Noa's number at 1; the correction reads the booking at 4, and Maya's number once
it has moved the booking. -/
def sees (t : Tid) (q : schema.Query) (n : Nat) : Prop :=
  (t = 0 → (q = Query.bookingById → n = 0) ∧ (q = Query.customerById → n = 1)) ∧
    (t = 1 → (q = Query.bookingById → n = 4) ∧ (q = Query.customerById → n = 5))

instance (t : Tid) (q : schema.Query) (n : Nat) : Decidable (sees t q n) := inferInstanceAs (Decidable (_ ∧ _))

/-- Both of the bell's texts are traced, the first to Noa. -/
theorem bell_traced : ∃ c, Conf.Steps (Looks sees) moved c ∧ ∃ unread items, c.threads 2 = some (.ret (.bell unread items)) ∧
    items.length = 2 ∧ ∃ n, ∀ item ∈ items, ∃ m : MessageLog, c.state.db.version n .messageLog item.id = some m ∧
      ∃ i n₀, Traced sees resentAndCorrected c.state.db n m item.bookingId i n₀ := by
  obtain ⟨c0, c, h0, hc, hP⟩ := Conf.reached_of_plays (A := fun u o w r w' => u ≠ 2 ∧ Looks sees u o w r w')
    (B := Looks sees) moved (calls 0 20 ++ calls 1 23) (calls 2 4) (fun _ c => decide ((belled c 2).length = 2)) (by decide)
  have hbell : (belled c 2).length = 2 := of_decide_eq_true hP
  unfold belled at hbell
  split at hbell
  · rename_i unread items hthread
    have hempty : ∀ k, listed (S := schema) twoCustomers .messageLog k = none := fun _ => rfl
    obtain ⟨n, -, -, hitems⟩ := (attributed twoCustomers_shelved hempty h0 hc).1 1 unread items rfl hthread
    refine ⟨c, (h0.mono fun _ _ _ _ _ hu => hu.2).trans hc, unread, items, hthread, ?_, n, fun item hitem => ?_⟩
    · rwa [List.length_map] at hbell
    · obtain ⟨m, hm, -, -, -, -, htraced⟩ := hitems item hitem
      exact ⟨m, hm, htraced⟩
  · cases hbell

end Inbox
