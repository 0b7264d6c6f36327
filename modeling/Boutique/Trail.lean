import Boutique.Rules
import Boutique.Stock
/-!
# Trail — the owner's verbs and the audit rows they leave

Each verb reads the booking, then moves it with a guarded UPDATE, then records from where to where.  What it records is
what it read; the guard of three of the verbs admits two statuses, so the record is right exactly while the status has not
changed since the read.
-/
namespace Boutique

open Txn Contract

def Records (entry : Commit schema) (i : Nat) (f t : BookingStatus) : Prop :=
  ∃ j a, entry.before .auditLog j = none ∧ entry.after .auditLog j = some a ∧ AuditLog.action a = .bookingTransition i f t

/-- **The audit rows of a commit are faithful**: each says what the booking was and what it became. -/
def FaithfulTrail (entry : Commit schema) : Prop :=
  ∀ i f t, Records entry i f t → (entry.before .bookings i).map Booking.status = some f ∧
    (entry.after .bookings i).map Booking.status = some t

def Job.verb : Job → Bool
  | .ownerConfirm .. => true
  | .ownerNoShow .. => true
  | .ownerComplete .. => true
  | .ownerCancel .. => true
  | _ => false

def CompleteTrail (jobs : Tid → Job) (entry : Commit schema) : Prop :=
  (jobs entry.by_).verb = true → ∀ i, (entry.before .bookings i).map Booking.status ≠
    (entry.after .bookings i).map Booking.status → ∃ f t, Records entry i f t

/-- What the rows of a commit lead to waits for no money. -/
def SettledTrail (entry : Commit schema) : Prop := ∀ i f t, Records entry i f t → t ≠ .pendingPayment

/-- The commit moves booking `i` and no row of the trail tells it: the customer's own cancellation, or a cancelled booking
given its seat back under the lock. -/
def Sidesteps (jobs : Tid → Job) (entry : Commit schema) (i : Nat) : Prop :=
  (entry.before .bookings i).map Booking.status ≠ (entry.after .bookings i).map Booking.status ∧
    ((∃ token, jobs entry.by_ = .customerCancel token) ∨
      entry.locked = true ∧ (entry.before .bookings i).map Booking.status = some .cancelled)

/-- **No verb is raced**: its UPDATE finds the booking in the status in which its last SELECT did. -/
def Unraced (jobs : Tid → Job) : server.Assumption := fun t o w r _ =>
  match o, r with
  | .sql (.update .bookings i (.setStatus ..)), .ok (some _) => (jobs t).verb = true →
      (w.db.version (w.db.seen t) .bookings i).map Booking.status = (w.db.committed .bookings i).map Booking.status
  | _, _ => True

def unracedAt (jobs : Tid → Job) (t : Tid) (w : server.State) : (o : server.Op) → server.Res o → Bool
  | .sql (.update .bookings i (.setStatus ..)), .ok (some _) => decide ((jobs t).verb = true →
      (w.db.version (w.db.seen t) .bookings i).map Booking.status = (w.db.committed .bookings i).map Booking.status)
  | _, _ => true

theorem unraced_iff {jobs : Tid → Job} {t : Tid} {o : server.Op} {w w' : server.State} {r : server.Res o} :
    unracedAt jobs t w o r = true ↔ Unraced jobs t o w r w' := by
  unfold Unraced unracedAt
  split
  · exact decide_eq_true_iff
  · exact ⟨fun _ => trivial, fun _ => rfl⟩

instance (jobs : Tid → Job) (t : Tid) (o : server.Op) (w : server.State) (r : server.Res o) (w' : server.State) :
    Decidable (Unraced jobs t o w r w') := decidable_of_iff _ unraced_iff

def trailLedger (jobs : Tid → Job) : Ledger schema where
  Holds _ _ c := (FaithfulTrail c ∧ SettledTrail c) ∧ CompleteTrail jobs c
  stable _ _ _ _ _ _ _ h := h

abbrev trail (jobs : Tid → Job) : Contract (Jobs jobs) service Err :=
  (trailLedger jobs).contract (Jobs jobs) (Unraced jobs)

variable {job : Job} {l : Bool} {i : Nat} {f to_ : BookingStatus} {e : Engine schema} {entry : Commit schema}
  {g : BookingChange}

theorem plain_of_insert {a : AuditLog} {t : BookingStatus} (h : job.Writes l (Op.insert .auditLog a))
    (ha : a.action = .bookingTransition i f t) : job.verb = true ∨ ∃ token, job = .customerCancel token := by
  cases job with
  | ownerConfirm | ownerNoShow | ownerComplete | ownerCancel => exact .inl rfl
  | customerCancel token => exact .inr ⟨token, rfl⟩
  | createBooking | claim => cases h
  | postBookings | claimOffer =>
    cases h with
    | claim h => cases h
    | tail h =>
      cases h with
      | open_ b h =>
        cases h
        cases ha
      | send b h => cases h
  | delivery =>
    cases h with
    | settle h =>
      cases h with
      | evidence l a h =>
        rw [show a = _ from ha] at h
        cases h
    | effect h =>
      cases h with
      | reminder l b h => cases h
      | effect l a h =>
        rw [show a = _ from ha] at h
        cases h
      | send l kind b h => cases h
  | sweep =>
    cases h with
    | evidence l entity a h =>
      rw [show a = _ from ha] at h
      cases h
  | reschedule =>
    cases h with
    | reminder l h => cases h
    | evidence => cases ha
  | checkIn | undoCheckIn =>
    cases h
    cases ha
  | replaceWeeklyRules | addException | removeException => cases h

variable {jobs : Tid → Job} {t : Tid} {w : BWorld}

theorem unrecorded_of_none (h : ∀ j, e.pending t .auditLog j = none) (i : Nat) (f to_ : BookingStatus) :
    ¬Records (e.entry t) i f to_ := by
  rintro ⟨j, a, hj, ha, -⟩
  have hview : e.view t .auditLog j = e.committed .auditLog j := Rows.over_none (h j)
  rw [show e.committed .auditLog j = none from hj, show e.view t .auditLog j = some a from ha] at hview
  cases hview

theorem unrecorded_of_other (hv : (jobs t).verb = false) (hc : ∀ token, jobs t ≠ .customerCancel token)
    (he : e.Lawful (Jobs jobs)) (i : Nat) (f to_ : BookingStatus) : ¬Records (e.entry t) i f to_ := by
  rintro ⟨j, a, hj, ha, haction⟩
  have hin := he.inflight t .auditLog j
  rw [show e.committed .auditLog j = none from hj, show e.view t .auditLog j = some a from ha] at hin
  obtain ⟨r0, k, n, hw, hr⟩ := hin
  have hpart : (Discipline.ofWrites (jobs t).Writes fun _ => Job.locked).Trans (e.holds t) .auditLog
    (stamp .auditLog k n r0) a := hr
  have hsame : a = stamp .auditLog k n r0 :=
    Discipline.ofWrites_trans (D := boutique) (fun o ho => (Job.inOrder ho).legal) hpart
  have haction0 : r0.action = .bookingTransition i f to_ := by
    rw [hsame] at haction
    exact haction
  rcases plain_of_insert hw haction0 with h | ⟨token, h⟩
  · rw [hv] at h
    cases h
  · exact absurd h (hc token)

theorem faithful_of_unrecorded (h : ∀ i f to_, ¬Records entry i f to_) : FaithfulTrail entry ∧ SettledTrail entry :=
  ⟨fun i f to_ hr => (h i f to_ hr).elim, fun i f to_ hr => (h i f to_ hr).elim⟩

theorem complete_of_none (h : ∀ i, e.pending t .bookings i = none) : CompleteTrail jobs (e.entry t) := by
  intro _ i hi
  have hview : e.view t .bookings i = e.committed .bookings i := Rows.over_none (h i)
  exact absurd (congrArg (Option.map Booking.status) hview.symm) hi

theorem faithful_commit {b : Nat} {r v : Booking} (hb : e.pending t .bookings b = some r) (hr : r.status = to_)
    (hc : e.committed .bookings b = some v) (hv : v.status = f) (hto : to_ ≠ .pendingPayment)
    (ha : ∀ j a, e.pending t .auditLog j = some a → AuditLog.action a = .bookingTransition b f to_) :
    FaithfulTrail (e.entry t) ∧ SettledTrail (e.entry t) := by
  have hsame : ∀ {i f' t'}, Records (e.entry t) i f' t' → AuditAction.bookingTransition i f' t' = .bookingTransition b f to_ := by
    rintro i f' t' ⟨j, a, hj, hja, haction⟩
    have hpending : e.pending t .auditLog j = some a := by
      cases hp : e.pending t .auditLog j with
      | some a' =>
        have hview : e.view t .auditLog j = some a' := Rows.over_some hp
        rw [show e.view t .auditLog j = some a from hja] at hview
        exact hview.symm
      | none =>
        have hview : e.view t .auditLog j = e.committed .auditLog j := Rows.over_none hp
        rw [show e.committed .auditLog j = none from hj, show e.view t .auditLog j = some a from hja] at hview
        cases hview
    exact haction.symm.trans (ha j a hpending)
  have hafter : e.view t .bookings b = some r := Rows.over_some hb
  refine ⟨fun i f' t' hr' => ?_, fun i f' t' hr' => ?_⟩
  · cases hsame hr'
    refine ⟨?_, ?_⟩
    · rw [show (e.entry t).before .bookings b = some v from hc, Option.map_some, hv]
    · rw [show (e.entry t).after .bookings b = some r from hafter, Option.map_some, hr]
  · cases hsame hr'
    exact hto

/-! ## The verbs -/

section

variable {α : Type} {k : OwnerMutation → Prg α} {b staffId : Nat}

theorem trail_historic : (trail jobs).Historic calm := Ledger.historic _

theorem trail_closes {m : OwnerMutation} (hpure : ∀ m w, (trail jobs).Ensures t (k m) (fun _ _ => True) w)
    (h : ∀ w1, (trail jobs).Point t w w1 → w1.db.pending t = w.db.pending t →
      (FaithfulTrail (w1.db.entry t) ∧ SettledTrail (w1.db.entry t)) ∧ CompleteTrail jobs (w1.db.entry t)) :
    Closes (trail jobs) t k (fun _ _ => True) (.ok m) w :=
  fun w1 h1 hp _ _ _ _ => ⟨Ledger.inv_commit h1.inv (h w1 h1 hp), hpure _ _⟩

theorem trail_closes_idle {m : OwnerMutation} (hpure : ∀ m w, (trail jobs).Ensures t (k m) (fun _ _ => True) w)
    (hw : w.db.Idle t) : Closes (trail jobs) t k (fun _ _ => True) (.ok m) w := by
  refine trail_closes hpure fun w1 _ hp => ⟨faithful_of_unrecorded (unrecorded_of_none fun j => ?_), complete_of_none fun i => ?_⟩
  · rw [hp, hw.pending]
  · rw [hp, hw.pending]

theorem loaded_committed {booking : Booking} (hw : w.db.Idle t)
    (h : Option.filter (fun (b : Booking) => decide (b.deletedAt = none)) (w.db.view t .bookings b) = some booking) :
    w.db.committed .bookings b = some booking := by
  have hview : w.db.view t .bookings b = some booking := (Option.filter_eq_some_iff.1 h).1
  rwa [show w.db.view t = w.db.committed from hw.view] at hview

theorem recorded_ensures {w4 : BWorld} {v r : Booking} {x : OwnerMutation}
    (hpure : ∀ m w, (trail jobs).Ensures t (k m) (fun _ _ => True) w) (hr : r.status = to_) (hv : v.status = f)
    (hto : to_ ≠ .pendingPayment) (hb : w4.db.pending t .bookings b = some r)
    (hc : w4.db.committed .bookings b = some v) (hone : ∀ i, i ≠ b → w4.db.pending t .bookings i = none)
    (ha : ∀ j, w4.db.pending t .auditLog j = none) :
    (trail jobs).Ensures t (OwnerBooking.record staffId b (.bookingTransition b f to_) >>= fun _ => pure x)
      (Closes (trail jobs) t k fun _ _ => True) w4 := by
  unfold OwnerBooking.record Audit.record
  refine ensures_insertRow trail_historic (fun _ _ _ _ _ _ => trivial) fun w5 w6 n hw6 _ => trail_closes hpure ?_
  intro w7 h7 hp7
  have hpend : w7.db.pending t = (w4.db.pending t).set .auditLog w5.db.next
      (stamp .auditLog w5.db.next n (Audit.entry (some staffId) (toString b) (.bookingTransition b f to_))) :=
    hp7.trans hw6.pending
  have hb7 : w7.db.pending t .bookings b = some r := by
    rw [hpend, set_other_table (by decide)]
    exact hb
  have hc7 : w7.db.committed .bookings b = some v := by
    rw [((hw6.after.trans h7).since.written _ _ _ hb).2]
    exact hc
  refine ⟨faithful_commit hb7 hr hc7 hv hto fun j a hj => ?_, fun _ i hi => ?_⟩
  rotate_left
  · have hib : i = b := by
      by_contra hne
      have hnone : w7.db.pending t .bookings i = none := by
        rw [hpend, set_other_table (by decide)]
        exact hone i hne
      have hview : w7.db.view t .bookings i = w7.db.committed .bookings i := Rows.over_none hnone
      exact hi (congrArg (Option.map Booking.status) hview.symm)
    subst hib
    have hrow : w7.db.pending t .auditLog w5.db.next = some (stamp .auditLog w5.db.next n
        (Audit.entry (some staffId) (toString i) (.bookingTransition i f to_))) := by
      rw [hpend]
      exact set_same_row
    refine ⟨f, to_, w5.db.next, _, ?_, Rows.over_some hrow, rfl⟩
    rw [show (w7.db.entry t).before = w7.db.committed from rfl, (h7.since.written _ _ _ hw6.row).2, hw6.committed]
    exact hw6.before.lawful.committed_none_of_le (Nat.le_refl _) _
  rw [hpend] at hj
  by_cases hjn : j = w5.db.next
  · subst hjn
    rw [set_same_row] at hj
    cases hj
    rfl
  · rw [set_other_row hjn, ha j] at hj
    cases hj

variable {from_ : List BookingStatus}

theorem setStatus_some {b b' : Booking} {before after : Option Int}
    (h : BookingChange.apply b (.setStatus to_ from_ before after) = some b') : b.status ∈ from_ ∧ b'.status = to_ := by
  simp only [BookingChange.apply] at h
  split at h
  · rename_i hc
    cases h
    exact ⟨hc.2.1, rfl⟩
  · cases h

theorem transition_trail (hjob : (jobs t).verb = true) (to_ : BookingStatus) (allowedFrom : List BookingStatus)
    (pastOnly : Bool) (hto : to_ ≠ .pendingPayment) (hpure : ∀ m w, (trail jobs).Ensures t (k m) (fun _ _ => True) w)
    (hw : w.db.Idle t) : (trail jobs).Ensures t (OwnerBooking.transition b staffId to_ allowedFrom pastOnly >>= k) (fun _ _ => True) w := by
  unfold OwnerBooking.transition OwnerBooking.transitionAt
  refine ensures_first (ensures_clock trail_historic fun w0 h0 hp0 => ?_)
  refine ensures_session trail_historic ⟨hp0.trans hw.pending⟩ fun w1 n h1 hidle => ?_
  refine ensures_select trail_historic fun w2 h2 hp2 hseen => ?_
  have hidle2 : w2.db.Idle t := ⟨hp2.trans hidle.pending⟩
  refine ensures_orRaise (fun _ _ _ _ => trivial) fun booking hloaded => ?_
  have hcommitted := loaded_committed hidle2 hloaded
  split
  · exact trail_closes_idle hpure hidle2
  · refine ensures_raiseIf (fun _ _ _ _ => trivial) fun _ => ensures_raiseIf (fun _ _ _ _ => trivial) fun _ => ?_
    refine ensures_updateRow trail_historic (fun _ _ _ _ _ _ _ _ _ _ _ => trivial) (fun _ _ _ _ _ _ _ => trivial)
      fun w3 w4 v r hw4 hv hr hA => ensures_orRaise nofun fun updated hu => ?_
    cases hu
    have hidle3 : w3.db.Idle t := ⟨hw4.kept.trans hidle2.pending⟩
    have hv3 : w3.db.committed .bookings b = some v := by
      rw [← show w3.db.view t = w3.db.committed from hidle3.view]
      exact hv
    -- the version the read saw is the one the UPDATE found
    have hversion : w3.db.version (w3.db.seen t) .bookings b = some booking := by
      rw [hw4.seen, hseen, hw4.before.since.version _ (Nat.le_refl _), Engine.version_length]
      exact hcommitted
    have hstatus : v.status = booking.status := by
      have hraced := hA hjob
      rw [hversion, hv3] at hraced
      exact (Option.some.inj hraced).symm
    refine recorded_ensures hpure (setStatus_some hr).2 hstatus hto hw4.row (by rw [hw4.committed]; exact hv3) (fun i hi => ?_)
      fun j => ?_
    · rw [hw4.pending, set_other_row hi, hidle2.pending]
    · rw [hw4.pending, set_other_table (by decide), hidle2.pending]

theorem cancel_some {b b' : Booking} {at_ : Int} {by_ : BookingCancelledBy} {before : Option Int}
    (h : BookingChange.apply b (.cancel at_ by_ from_ before) = some b') :
    b.status ∈ from_ ∧ b'.status = .cancelled := by
  simp only [BookingChange.apply] at h
  split at h
  · rename_i hc
    cases h
    exact ⟨hc.2.1, rfl⟩
  · cases h

theorem cancel_trail (hpure : ∀ m w, (trail jobs).Ensures t (k m) (fun _ _ => True) w) (hw : w.db.Idle t) :
    (trail jobs).Ensures t (OwnerBooking.cancel b staffId >>= k) (fun _ _ => True) w := by
  unfold OwnerBooking.cancel
  refine ensures_first (ensures_clock trail_historic fun w0 h0 hp0 => ?_)
  refine ensures_session trail_historic ⟨hp0.trans hw.pending⟩ fun w1 n h1 hidle => ?_
  refine ensures_select trail_historic fun w2 h2 hp2 _ => ?_
  have hidle2 : w2.db.Idle t := ⟨hp2.trans hidle.pending⟩
  refine ensures_orRaise (fun _ _ _ _ => trivial) fun booking _ => ?_
  split
  · exact trail_closes_idle hpure hidle2
  · refine ensures_raiseIf (fun _ _ _ _ => trivial) fun hconfirmed => ensures_raiseIf (fun _ _ _ _ => trivial) fun _ => ?_
    have hbooking : booking.status = .confirmed := by simpa using hconfirmed
    refine ensures_updateRow trail_historic (fun _ _ _ _ _ _ _ _ _ _ _ => trivial) (fun _ _ _ _ _ _ _ => trivial)
      fun w3 w4 v r hw4 hv hr _ => ensures_orRaise nofun fun updated hu => ensures_raiseIf (fun _ _ _ _ => trivial) fun _ => ?_
    cases hu
    have hidle3 : w3.db.Idle t := ⟨hw4.kept.trans hidle2.pending⟩
    obtain ⟨hfrom, hto⟩ := cancel_some hr
    have hv3 : w3.db.committed .bookings b = some v := by
      rw [← show w3.db.view t = w3.db.committed from hidle3.view]
      exact hv
    refine ensures_stretch trail_historic [.scheduledMessages] (steady_updateWhere fun _ => List.mem_singleton_self _).within
      hw4.after.lawful hw4.after.inv .notFound (never_updateWhere (by nofun)) (fun _ _ _ _ _ _ _ => trivial) fun _ w5 h5 hp5 => ?_
    rw [hbooking]
    refine recorded_ensures hpure hto (List.mem_singleton.1 hfrom) (by decide) (v := v) (r := r) ?_ ?_ (fun i hi => ?_) fun j => ?_
    · rw [hp5 _ (by decide)]
      exact hw4.row
    · rw [(h5.since.written _ _ _ hw4.row).2, hw4.committed]
      exact hv3
    · rw [hp5 _ (by decide), hw4.pending, set_other_row hi, hidle2.pending]
    · rw [hp5 _ (by decide), hw4.pending, set_other_table (by decide), hidle2.pending]

theorem silent_trail {Ts : List Table} {p : Prg Reply} (hjob : (jobs t).verb = false) (hp : Steady (Writes true (Touches Ts)) false p)
    (hTs : Table.auditLog ∉ Ts) (hw : w.db.Idle t) : (trail jobs).Ensures t p (fun _ _ => True) w := by
  refine ensures_mono (fun _ _ _ => trivial) (ensures_of_uses (fun _ (w : BWorld) => ∀ j, w.db.pending t .auditLog j = none)
    (fun _ _ _ hev h j => by rw [hev.db.pending]; exact h j) ?_ hp fun j => by rw [hw.pending])
  intro l o w i x w' ho hL hI h he _ _
  by_cases hc : o = .sql .commit
  · subst hc
    cases he
    exact ⟨Ledger.inv_commit hI ⟨faithful_of_unrecorded (unrecorded_of_none h), fun hv => by simp [Engine.entry, hjob] at hv⟩, fun j => by simp⟩
  · refine ⟨(Ledger.historic fun _ => true).exec hc (fun _ _ => rfl) he hI, ?_⟩
    by_cases ha : o = .sql .abort
    · subst ha
      cases he
      exact fun j => by simp
    · have hin : o.Inside := by
        cases o with
        | sql o => cases o <;> trivial
        | now | ask => trivial
      have hupdate : ∀ j g, o ≠ .sql (.update .auditLog j g) := fun _ g => by cases g
      have hinsert : ∀ r, o ≠ .sql (.insert .auditLog r) := by
        rintro r rfl
        rcases ho with ho | ⟨-, ho⟩ | ho
        · cases ho
        · cases ho
        · exact hTs ho
      rw [World.exec_pending hin hupdate hinsert he]
      exact h

theorem steady_customerCancel_touches (token : Nat) :
    Steady (Writes true (Touches [.bookings, .scheduledMessages])) false (ManageBooking.cancel token) := by
  unfold ManageBooking.cancel ManageBooking.resolve
  refine steady_session fun _ => Steady.within ?_
  refine Steady.bind ((steady_oneOrNone _ _).bind fun _ => (steady_orRaise _ _).bind fun _ =>
    (steady_raiseIf _ _).bind fun _ => steady_pure _) fun booking => steady_clock.bind fun now => ?_
  split
  · exact steady_pure _
  · refine (steady_raiseIf _ _).bind fun _ => (steady_raiseIf _ _).bind fun _ => ?_
    exact Steady.bind (steady_update (List.mem_cons_self ..)) fun _ =>
      (steady_updateWhere fun _ => List.mem_cons_of_mem _ (List.mem_singleton_self _)).bind fun _ => steady_pure _

end

theorem trail_safe (cfg : Config) (job : Job) (hjob : jobs t = job) (hw : w.db.Idle t) :
    (trail jobs).logic.Safe t (job.code cfg) (fun _ _ => True) w := by
  have hpure : ∀ (m : OwnerMutation) w', (trail jobs).Ensures t (pure (Reply.mutation m)) (fun _ _ => True) w' :=
    fun _ _ => trivial
  have hverb : (trail jobs).Ensures t (job.code cfg) (fun _ _ => True) w →
      (trail jobs).logic.Safe t (job.code cfg) (fun _ _ => True) w := fun h => safe_of_ensures h fun _ _ _ _ _ _ _ => trivial
  have hother : job.verb = false → (∀ token, job ≠ .customerCancel token) →
      (trail jobs).logic.Safe t (job.code cfg) (fun _ _ => True) w := fun hv hc =>
    Ledger.safe_of_lawful (fun e he _ => ⟨faithful_of_unrecorded (unrecorded_of_other (hjob ▸ hv) (fun token => hjob ▸ hc token) he), fun hv' => by
      simp [Engine.entry, hjob, hv] at hv'⟩) fun _ _ => trivial
  cases job with
  | ownerConfirm b s => exact hverb (transition_trail (by rw [hjob]; rfl) _ _ _ (by decide) hpure hw)
  | ownerNoShow b s => exact hverb (transition_trail (by rw [hjob]; rfl) _ _ _ (by decide) hpure hw)
  | ownerComplete b s => exact hverb (transition_trail (by rw [hjob]; rfl) _ _ _ (by decide) hpure hw)
  | ownerCancel b s => exact hverb (cancel_trail hpure hw)
  | customerCancel token =>
    exact hverb (silent_trail (by rw [hjob]; rfl) ((steady_customerCancel_touches token).bind fun _ => steady_pure _) (by decide) hw)
  | _ => exact hother rfl fun _ h => by cases h

/-! ## What the others do to a status -/

def Spared (l : Bool) (b b' : Booking) : Prop :=
  b'.status = b.status ∨ b.status = .pendingPayment ∨ l = true ∧ b.status = .cancelled

theorem Spared.trans {b b' b'' : Booking} (h : Spared l b b') (h' : Spared l b' b'') : Spared l b b'' := by
  rcases h with h | h
  · unfold Spared at h' ⊢
    rwa [h] at h'
  · exact .inr h

def outsiders : Discipline schema where
  Trans l T r r' := match T with
    | .bookings => Spared l r r'
    | _ => True
  New _ _ _ := True
  refl l T r := by cases T <;> first | trivial | exact .inl rfl
  trans l T r r' r'' h h' := by
    cases T with
    | bookings => exact Spared.trans h h'
    | _ => trivial
  weaken T r r' h := by
    cases T with
    | bookings => exact h.imp_right (Or.imp_right fun h => absurd h.1 (by decide))
    | _ => trivial
  new_trans _ _ _ _ _ _ := trivial
  new_weaken _ _ _ := trivial

def BookingChange.Outsider (l : Bool) : BookingChange → Prop
  | .setStatus _ allowedFrom _ _ => allowedFrom = [.pendingPayment]
  | .cancel _ _ allowedFrom _ => allowedFrom = [.pendingPayment]
  | .rebind _ allowedFrom _ => l = true ∧ ∀ s ∈ allowedFrom, s = .cancelled ∨ s = .pendingPayment
  | _ => True

theorem BookingChange.spared {b b' : Booking} (hg : g.Outsider l) (h : g.apply b = some b') : Spared l b b' := by
  cases g <;> simp only [BookingChange.apply] at h <;> split at h <;> cases h
  case setStatus hc => exact .inr (.inl (List.mem_singleton.1 (hg ▸ hc.2.1)))
  case cancel hc => exact .inr (.inl (List.mem_singleton.1 (hg ▸ hc.2.1)))
  case rebind hc => exact .inr ((hg.2 _ hc.2.1).symm.imp_right fun hs => ⟨hg.1, hs⟩)
  case cancelOrphan hc => exact .inr (.inl hc.2.1)
  all_goals exact .inl rfl

theorem ReminderWrites.outsider {b : Nat} (h : ReminderWrites b l (Op.update .bookings i g)) : g.Outsider l := by
  cases h
  trivial

theorem ClaimWrites.outsider (h : ClaimWrites l (Op.update .bookings i g)) : g.Outsider l := by
  cases h

theorem Job.outsider (hv : job.verb = false) (hc : ∀ token, job ≠ .customerCancel token)
    (h : job.Writes l (Op.update .bookings i g)) : g.Outsider l := by
  cases job with
  | createBooking | claim => exact ClaimWrites.outsider h
  | postBookings | claimOffer =>
    cases h with
    | claim h => exact h.outsider
    | tail h =>
      cases h with
      | open_ b h =>
        cases h
        rfl
      | send b h => cases h
  | delivery =>
    cases h with
    | settle h => cases h
    | effect h =>
      cases h with
      | confirm => rfl
      | rebind b seatIndex now h => exact ⟨rfl, by simp⟩
      | token => trivial
      | reminder l b h => exact h.outsider
      | send l kind b h => cases h
  | sweep =>
    cases h with
    | release => rfl
    | orphan => trivial
  | reschedule =>
    cases h with
    | restore seatIndex now h => exact ⟨rfl, by simp⟩
    | move => trivial
    | reminder l h => exact h.outsider
  | checkIn | undoCheckIn =>
    cases h
    trivial
  | replaceWeeklyRules | addException | removeException => cases h
  | ownerConfirm | ownerNoShow | ownerComplete | ownerCancel => cases hv
  | customerCancel token => exact absurd rfl (hc token)

theorem outsiders_legal {o : Op schema service} (hv : job.verb = false) (hc : ∀ token, job ≠ .customerCancel token)
    (h : job.Writes l o) : outsiders.Legal l o := by
  cases o with
  | sql o =>
    cases o with
    | update T i g =>
      intro r r' _ hr
      cases T with
      | bookings => exact BookingChange.spared (Job.outsider hv hc h) hr
      | _ => trivial
    | insert T r => exact fun _ _ => trivial
    | _ => trivial
  | now | ask => trivial

/-- **A deposit's confirmation, a sweep and every other commit without the lock** that is neither a verb's nor the customer's
cancellation moves only a booking that waits for money; with the lock, also a cancelled one. -/
theorem outsider_spares {b b' : Booking} (he : e.Lawful (Jobs jobs)) (hmem : entry ∈ e.log)
    (hv : (jobs entry.by_).verb = false) (hc : ∀ token, jobs entry.by_ ≠ .customerCancel token)
    (hb : entry.before .bookings i = some b) (hb' : entry.after .bookings i = some b') : Spared entry.locked b b' := by
  have hrow := he.entries entry hmem .bookings i
  rw [hb, hb'] at hrow
  have hpart : (Discipline.ofWrites (jobs entry.by_).Writes fun _ => Job.locked).Trans entry.locked .bookings b b' := hrow
  exact Discipline.ofWrites_trans (D := outsiders) (fun o ho => outsiders_legal hv hc ho) hpart

/-! ## The claim of the trail, and where it fails -/

/-- **The audit rows of the owner's verbs are a faithful history**: each says what its booking was right before and what it
became, and of two that follow each other the second starts where the first ended.  A deposit's confirmation in between
breaks nothing; only a commit that sidesteps the trail does. -/
def TrailIsHistory (jobs : Tid → Job) (e : Engine schema) : Prop :=
  (∀ (m : Nat) (entry : Commit schema), e.log[m]? = some entry → FaithfulTrail entry) ∧
  ∀ (m n : Nat) (em en : Commit schema) i f to_ f' to', m < n → e.log[m]? = some em → e.log[n]? = some en →
    Records em i f to_ → Records en i f' to' →
    (∀ k (ek : Commit schema), m < k → k < n → e.log[k]? = some ek →
      (∀ f'' t'', ¬Records ek i f'' t'') ∧ ¬Sidesteps jobs ek i) →
    f' = to_

/-- A commit that neither records nor sidesteps leaves the status of a booking that waits for no money. -/
theorem status_kept {s : BookingStatus} (he : e.Lawful (Jobs jobs)) (hmem : entry ∈ e.log)
    (hcomplete : CompleteTrail jobs entry) (hnone : ∀ f t, ¬Records entry i f t) (hstep : ¬Sidesteps jobs entry i)
    (hs : (entry.before .bookings i).map Booking.status = some s) (hpending : s ≠ .pendingPayment) :
    (entry.after .bookings i).map Booking.status = some s := by
  by_contra hne
  have hmoved : (entry.before .bookings i).map Booking.status ≠ (entry.after .bookings i).map Booking.status :=
    fun h => hne (h.symm.trans hs)
  have hv : (jobs entry.by_).verb = false := by
    by_contra hv
    obtain ⟨f, t, hr⟩ := hcomplete (by simpa using hv) i hmoved
    exact hnone f t hr
  have hc : ∀ token, jobs entry.by_ ≠ .customerCancel token := fun token h => hstep ⟨hmoved, .inl ⟨token, h⟩⟩
  obtain ⟨b, hb, rfl⟩ := Option.map_eq_some_iff.1 hs
  obtain ⟨b', hb', -⟩ := (hb ▸ he.entries entry hmem .bookings i).some_left
  rcases outsider_spares he hmem hv hc hb hb' with hsame | hwaits | ⟨hlocked, hdead⟩
  · exact hne (by rw [hb', Option.map_some, hsame])
  · exact hpending hwaits
  · exact hstep ⟨hmoved, .inr ⟨hlocked, by rw [hb, Option.map_some, hdead]⟩⟩

theorem chain_of_faithful (hL : e.Lawful (Jobs jobs)) (h : ∀ (m : Nat) (entry : Commit schema),
      e.log[m]? = some entry → (FaithfulTrail entry ∧ SettledTrail entry) ∧ CompleteTrail jobs entry) :
    TrailIsHistory jobs e := by
  refine ⟨fun m entry hm => (h m entry hm).1.1, fun m n em en i f to_ f' to' hmn hm hn hfirst hsecond hbetween => ?_⟩
  have hkeep : ∀ k, m + 1 ≤ k → k ≤ n → (e.version k .bookings i).map Booking.status = some to_ := by
    intro k hk
    induction hk with
    | refl =>
      intro _
      rw [hL.linked m em hm]
      exact ((h m em hm).1.1 i f to_ hfirst).2
    | @step k hk ih =>
      intro hkn
      have hlen := (List.getElem?_eq_some_iff.1 hn).1
      have hmk : m + 1 ≤ k := hk
      have hklen : k < e.log.length := by omega
      obtain ⟨ek, hek⟩ : ∃ ek, e.log[k]? = some ek := ⟨e.log[k], List.getElem?_eq_getElem hklen⟩
      have hbefore : e.version k = ek.before := by
        unfold Engine.version
        rw [hek]
      obtain ⟨hnone, hstep⟩ := hbetween k ek (by omega) (by omega) hek
      rw [hL.linked k ek hek]
      exact status_kept hL (List.mem_of_getElem? hek) (h k ek hek).2 hnone hstep (hbefore ▸ ih (by omega))
        ((h m em hm).1.2 i f to_ hfirst)
  have hlast := hkeep n hmn (Nat.le_refl n)
  have hbefore : e.version n = en.before := by
    unfold Engine.version
    rw [hn]
  rw [hbefore, ((h n en hn).1.1 i f' to' hsecond).1] at hlast
  exact Option.some.inj hlast

/-- **On every run where no verb is raced, the trail is a faithful history.** -/
theorem trail_is_history {cfg : Config} {rows : Rows schema} {next : Nat} {now : Int} {c : Conf server Reply}
    (h : Tables rows next) (hr : Conf.Steps (Unraced jobs) (start cfg jobs rows next now) c) :
    TrailIsHistory jobs c.state.db := by
  have hI : (trail jobs).Inv (start cfg jobs rows next now).state := fun m entry hm => by cases hm
  have hsafe : ∀ t p, (start cfg jobs rows next now).threads t = some p →
      (trail jobs).logic.Safe t p (fun _ _ => True) (start cfg jobs rows next now).state := by
    intro t p hp
    cases hp
    exact trail_safe cfg (jobs t) rfl ⟨rfl⟩
  obtain ⟨hsound, hL⟩ := (trail jobs).runs (Q := fun _ _ _ => True) (start_obeyed h) hI hsafe hr
  exact chain_of_faithful hL hsound.inv.2

/-- The owner marks the fitting completed on one screen and as a no-show on another. -/
def twoVerbs : Tid → Job
  | 0 => .ownerComplete 6 1
  | _ => .ownerNoShow 6 2

def recordsWrongly (c : Conf server Reply) : Bool :=
  c.state.db.log[1]?.any fun entry =>
    decide ((entry.before .auditLog 8).isNone = true ∧
      (entry.after .auditLog 8).map AuditLog.action = some (.bookingTransition 6 .confirmed .completed) ∧
      (entry.before .bookings 6).map Booking.status = some .noShow)

theorem trail_broken : ∃ c, (start shop twoVerbs (tableOf (shelfWith [danaRow] [fitting] [])) 7 (4 * day)).Reaches c ∧
    ¬TrailIsHistory twoVerbs c.state.db := by
  obtain ⟨c, hc, hwrong⟩ := reaches_of_play (start shop twoVerbs (tableOf (shelfWith [danaRow] [fitting] [])) 7 (4 * day))
    (turns 0 fine 3 ++ turns 1 fine 6 ++ turns 0 fine 3) recordsWrongly (by decide)
  refine ⟨c, hc, fun hhistory => ?_⟩
  obtain ⟨entry, hentry, hfound⟩ := Option.any_eq_true _ _ |>.1 hwrong
  obtain ⟨hnew, haction, hstatus⟩ := of_decide_eq_true hfound
  obtain ⟨a, ha, hmeans⟩ := Option.map_eq_some_iff.1 haction
  have hfaithful := (hhistory.1 1 entry hentry 6 .confirmed .completed
    ⟨8, a, Option.isNone_iff_eq_none.1 hnew, ha, hmeans⟩).1
  rw [hstatus] at hfaithful
  cases hfaithful

/-- One verb after the other. -/
theorem trail_is_history_shop :
    ∃ c, Conf.Steps (Unraced twoVerbs) (start shop twoVerbs (tableOf (shelfWith [danaRow] [fitting] [])) 7 (4 * day)) c ∧
      committedStatus c 6 = some .completed ∧ TrailIsHistory twoVerbs c.state.db := by
  obtain ⟨c, hc, hdone⟩ := steps_of_play (Unraced twoVerbs)
    (start shop twoVerbs (tableOf (shelfWith [danaRow] [fitting] [])) 7 (4 * day)) (turns 1 fine 6 ++ turns 0 fine 6)
    (fun c => decide (committedStatus c 6 = some .completed)) (by decide)
  exact ⟨c, hc, of_decide_eq_true hdone, trail_is_history (tables_of_stock (by decide)) hc⟩

end Boutique
