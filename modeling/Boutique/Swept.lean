import Boutique.RunOut
/-!
# Swept — the bookings a sweep cancels

A sweep cancels the booking of a hold it runs out, or one its SELECT found without a payment that could bring money.  The
first kind has no other hold; the second has none while no hold is opened between that SELECT and the commit.
-/
namespace Boutique

open Txn Contract

variable {jobs : Tid → Job} {A : server.Assumption} {t : Tid} {w w' : BWorld}

def Job.sweeps : Job → Bool
  | .sweep => true
  | _ => false

/-- **No sweep is overtaken**: at its commit, every hold of a booking it has in flight was there when it last looked. -/
def Unovertaken (jobs : Tid → Job) : server.Assumption := fun t o w _ _ =>
  match o with
  | .sql .commit => (jobs t).sweeps = true → ∀ j, j < w.db.next →
      (w.db.committed .payments j).all (fun (p : Payment) => decide (p.status ≠ .failed →
        (w.db.pending t .bookings p.bookingId).isSome = true → (w.db.version (w.db.seen t) .payments j).isSome = true)) = true
  | _ => True

instance (jobs : Tid → Job) (t : Tid) (o : server.Op) (w : server.State) (r : server.Res o) (w' : server.State) :
    Decidable (Unovertaken jobs t o w r w') :=
  match o, r with
  | .sql .commit, _ => inferInstanceAs (Decidable ((jobs t).sweeps = true → ∀ j, j < w.db.next → _ = true))
  | .sql .begin, _ | .sql (.read _), _ | .sql (.update ..), _ | .sql (.insert ..), _ | .sql .lock, _ | .sql .abort, _ |
    .now, _ | .ask _, _ => isTrue trivial

def RunsOut (c : Commit schema) (i : Nat) : Prop :=
  ∃ j p, c.after .payments j = some p ∧ Payment.bookingId p = i ∧ Payment.status p = .expired

/-- The booking was found, `n` commits in, to wait with no payment that could bring money, and no hold came since. -/
structure Stranded (e : Engine schema) (m n : Nat) (c : Commit schema) (i : Nat) : Prop where
  le : n ≤ m
  waits : ∃ b, e.version n .bookings i = some b ∧ Booking.status b = .pendingPayment
  unpaid : ∀ j p, e.version n .payments j = some p → Payment.bookingId p = i → Payment.deletedAt p = none →
    Payment.status p ≠ .pending ∧ Payment.status p ≠ .paid
  known : ∀ j p, c.before .payments j = some p → Payment.bookingId p = i → Payment.isHold p →
    (e.version n .payments j).isSome = true

def sweepLedger (jobs : Tid → Job) : Ledger schema where
  Holds e m c := (jobs c.by_).sweeps = true → ∀ i b, c.after .bookings i = some b → Booking.status b = .cancelled →
    (c.before .bookings i).map Booking.status ≠ some .cancelled → RunsOut c i ∨ ∃ n, Stranded e m n c i
  stable e e' m c _ _ hv h := fun hs i b hb hbs hne => (h hs i b hb hbs hne).imp_right fun ⟨n, hn⟩ => by
    have hle := hn.le
    have hvn : e'.version n = e.version n := hv n (by omega)
    exact ⟨n, hn.le, hvn ▸ hn.waits, hvn ▸ hn.unpaid, hvn ▸ hn.known⟩

abbrev swept (jobs : Tid → Job) (A : server.Assumption) : Contract (Jobs jobs) service Err :=
  (sweepLedger jobs).contract (Jobs jobs) A

theorem swept_historic : (swept jobs A).Historic calm := Ledger.historic _

/-! ## The sweep's transaction -/

def Lapses (t : Tid) (w : BWorld) (i : Nat) : Prop :=
  ∃ j p, w.db.pending t .payments j = some p ∧ Payment.bookingId p = i ∧ Payment.status p = .expired

/-- What a sweep has in flight: holds run out, and bookings cancelled for one of them or because `N` says so. -/
structure Sweeping (t : Tid) (N : Nat → Prop) (w : BWorld) : Prop where
  expired : ∀ j p, w.db.pending t .payments j = some p → Payment.status p = .expired
  cancelled : ∀ i b, w.db.pending t .bookings i = some b → Booking.status b = .cancelled ∧ (Lapses t w i ∨ N i)

variable {N : Nat → Prop} {C : Contract (Jobs jobs) service Err}

variable {i j : Nat} {w₁ w₂ : BWorld} {ids : List Nat}

theorem Lapses.congr (h : Lapses t w i) (hp : w'.db.pending t = w.db.pending t) : Lapses t w' i := by
  unfold Lapses
  rw [hp]
  exact h

theorem Sweeping.congr (h : Sweeping t N w) (hp : w'.db.pending t = w.db.pending t) : Sweeping t N w' := by
  refine ⟨fun j p hrow => ?_, fun i b hrow => ?_⟩
  · rw [hp] at hrow
    exact h.expired j p hrow
  · rw [hp] at hrow
    obtain ⟨hs, hr⟩ := h.cancelled i b hrow
    exact ⟨hs, hr.imp_left fun hl => hl.congr hp⟩

theorem sweeping_of_idle (h : w.db.Idle t) : Sweeping t N w := by
  refine ⟨fun j p hrow => ?_, fun i b hrow => ?_⟩
  all_goals
    rw [h.pending] at hrow
    cases hrow

theorem Lapses.wrote {T : Table} {r : Row T} (h : Lapses t w i) (hw : C.Wrote t w w₁ w₂ T j r) (hT : T ≠ .payments) :
    Lapses t w₂ i := by
  obtain ⟨k, p, hp, hb, hs⟩ := h
  refine ⟨k, p, ?_, hb, hs⟩
  rw [hw.pending, set_other_table hT.symm]
  exact hp

theorem Lapses.expired {v p : Payment} (h : Lapses t w i) (hw : C.Wrote t w w₁ w₂ .payments j p)
    (hv : w₁.db.view t .payments j = some v) (hb : p.bookingId = v.bookingId) (hs : p.status = .expired) :
    Lapses t w₂ i := by
  obtain ⟨k, q, hq, hqb, hqs⟩ := h
  by_cases hk : k = j
  · subst hk
    have hview : w₁.db.view t .payments k = some q := Rows.over_some (by rw [hw.kept]; exact hq)
    rw [hv] at hview
    cases hview
    exact ⟨k, p, hw.row, hb.trans hqb, hs⟩
  · refine ⟨k, q, ?_, hqb, hqs⟩
    rw [hw.pending, set_other_row hk]
    exact hq

theorem Sweeping.expires {v p : Payment} (h : Sweeping t N w) (hw : C.Wrote t w w₁ w₂ .payments j p)
    (hv : w₁.db.view t .payments j = some v) (hb : p.bookingId = v.bookingId) (hs : p.status = .expired) :
    Sweeping t N w₂ := by
  refine ⟨fun k q hq => ?_, fun i b hrow => ?_⟩
  · by_cases hk : k = j
    · subst hk
      cases hw.row.symm.trans hq
      exact hs
    · rw [hw.pending, set_other_row hk] at hq
      exact h.expired k q hq
  · rw [hw.pending, set_other_table (by decide)] at hrow
    obtain ⟨hc, hr⟩ := h.cancelled i b hrow
    exact ⟨hc, hr.imp_left fun hl => hl.expired hw hv hb hs⟩

theorem Sweeping.cancels {b : Booking} (h : Sweeping t N w) (hw : C.Wrote t w w₁ w₂ .bookings i b)
    (hb : b.status = .cancelled) (hi : Lapses t w i) : Sweeping t N w₂ := by
  refine ⟨fun k q hq => ?_, fun k b' hrow => ?_⟩
  · rw [hw.pending, set_other_table (by decide)] at hq
    exact h.expired k q hq
  · by_cases hk : k = i
    · subst hk
      cases hw.row.symm.trans hrow
      exact ⟨hb, .inl (hi.wrote hw (by decide))⟩
    · rw [hw.pending, set_other_row hk] at hrow
      obtain ⟨hc, hr⟩ := h.cancelled k b' hrow
      exact ⟨hc, hr.imp_left fun hl => hl.wrote hw (by decide)⟩

theorem Sweeping.records {a : AuditLog} (h : Sweeping t N w) (hw : C.Wrote t w w₁ w₂ .auditLog i a) :
    Sweeping t N w₂ := by
  refine ⟨fun k q hq => ?_, fun k b hrow => ?_⟩
  · rw [hw.pending, set_other_table (by decide)] at hq
    exact h.expired k q hq
  · rw [hw.pending, set_other_table (by decide)] at hrow
    obtain ⟨hc, hr⟩ := h.cancelled k b hrow
    exact ⟨hc, hr.imp_left fun hl => hl.wrote hw (by decide)⟩

theorem expireHolds_swept (now : Int) (hw : w.db.Idle t) :
    (swept jobs A).Ensures t (DepositSweeper.expireHolds now) (fun x w' => ∀ claimed, x = .ok claimed →
      Sweeping t N w' ∧ ∀ p ∈ claimed, Lapses t w' (Payment.bookingId p)) w := by
  unfold DepositSweeper.expireHolds
  refine ensures_select swept_historic fun w₁ _ hp1 _ => ?_
  have hidle : w₁.db.Idle t := ⟨hp1.trans hw.pending⟩
  refine ensures_updateEach swept_historic (T := .payments)
    (J := fun (rs : List Payment) w => Sweeping t N w ∧ ∀ p ∈ rs, Lapses t w p.bookingId)
    (fun rs w w₁ h _ hp => ⟨h.1.congr hp, fun p hmem => (h.2 p hmem).congr hp⟩)
    (fun rs w w₁ w₂ i v p h hwrote hv hp => ?_) _ [] ⟨sweeping_of_idle hidle, fun p hmem => by cases hmem⟩
  have happly : PaymentChange.apply v (.expireHold now) = some p := hp
  have hb := (PaymentChange.becomes happly).bookingId
  have hs : p.status = .expired := by
    simp only [PaymentChange.apply] at happly
    split at happly <;> cases happly
    rfl
  refine ⟨h.1.expires hwrote hv hb hs, fun q hmem => ?_⟩
  rcases List.mem_append.1 hmem with hmem | hmem
  · exact (h.2 q hmem).expired hwrote hv hb hs
  · cases List.mem_singleton.1 hmem
    exact ⟨i, p, hwrote.row, rfl, hs⟩

theorem releaseEach_swept (now : Int) (todo : List Payment) (h : Sweeping t N w)
    (hl : ∀ p ∈ todo, Lapses t w (Payment.bookingId p)) :
    (swept jobs A).Ensures t (DepositSweeper.releaseEach now todo) (fun x w' => ∀ n, x = .ok n → Sweeping t N w') w := by
  induction todo generalizing w with
  | nil => exact fun _ _ => h
  | cons p ps ih =>
    have hrest : ∀ q ∈ ps, Lapses t w (Payment.bookingId q) := fun q hq => hl q (List.mem_cons_of_mem p hq)
    unfold DepositSweeper.releaseEach Bookings.cancel Audit.record
    refine ensures_updateRow swept_historic (fun _ _ _ _ _ _ _ _ _ h => by cases h) (fun w₁ _ hp1 _ => ?_)
      fun w₁ w₂ v b h2 _ hb _ => ?_
    · refine ensures_insertRow swept_historic (fun _ _ _ _ h => by cases h) fun w₂ w3 n h3 _ => ?_
      refine ensures_bind (ensures_mono (fun x w' hx => ?_) (ih ((h.congr hp1).records h3) fun q hq =>
        ((hrest q hq).congr hp1).wrote h3 (by decide)))
      cases x with
      | error e => exact fun _ h => by cases h
      | ok n => exact fun _ _ => hx n rfl
    · have hdead : b.status = .cancelled := by
        simp only [schema, applyChange, BookingChange.apply] at hb
        split at hb <;> cases hb
        rfl
      refine ensures_insertRow swept_historic (fun _ _ _ _ h => by cases h) fun w3 w4 n h3 _ => ?_
      refine ensures_bind (ensures_mono (fun x w' hx => ?_)
        (ih ((h.cancels h2 hdead (hl p (List.mem_cons_self ..))).records h3) fun q hq =>
          ((hrest q hq).wrote h2 (by decide)).wrote h3 (by decide)))
      cases x with
      | error e => exact fun _ h => by cases h
      | ok n => exact fun _ _ => hx n rfl

def StrandedRows (rows : Rows schema) (i : Nat) : Prop :=
  (∃ b, rows .bookings i = some b ∧ Booking.status b = .pendingPayment) ∧
  ∀ j p, rows .payments j = some p → Payment.bookingId p = i → Payment.deletedAt p = none →
    Payment.status p ≠ .pending ∧ Payment.status p ≠ .paid

theorem found_stranded (hL : w.db.Lawful (Jobs jobs)) (h : Sweeping t N w) {now grace : Int}
    (hi : i ∈ matching ⟨w.db.view t, w.db.next⟩ .bookings fun (b : Booking) =>
      (BookingChange.apply b (.cancelOrphan now grace)).isSome && DepositSweeper.orphaned ⟨w.db.view t, w.db.next⟩ b) :
    Lapses t w i ∨ StrandedRows w.db.committed i := by
  unfold matching at hi
  obtain ⟨b, hmem, hid⟩ := List.mem_map.1 hi
  obtain ⟨hall, hb⟩ := List.mem_filter.1 hmem
  obtain ⟨k, -, hrow⟩ := Snapshot.mem_all.1 hall
  have hki : k = i := ((hL.view_consistent t).id .bookings k b hrow).symm.trans hid
  subst hki
  obtain ⟨happly, horphan⟩ := Bool.and_eq_true_iff.1 hb
  have hwaits : Booking.status b = .pendingPayment := by
    simp only [BookingChange.apply] at happly
    split at happly
    · rename_i h
      exact h.2.1
    · cases happly
  by_cases hl : Lapses t w k
  · exact .inl hl
  · refine .inr ⟨⟨b, ?_, hwaits⟩, fun j p hp hpb hdel => ?_⟩
    · cases hpend : w.db.pending t .bookings k with
      | none => exact (Rows.over_none hpend).symm.trans hrow
      | some b' =>
        cases (Rows.over_some hpend).symm.trans hrow
        rw [(h.cancelled k b hpend).1] at hwaits
        cases hwaits
    · have hview : w.db.view t .payments j = some p := by
        cases hpend : w.db.pending t .payments j with
        | none => exact (Rows.over_none hpend).trans hp
        | some q =>
          obtain ⟨q', hq', hbecomes⟩ := view_becomes hL hp
          have hq : w.db.view t .payments j = some q := Rows.over_some hpend
          rw [hq] at hq'
          cases hq'
          exact absurd ⟨j, q, hpend, (PaymentBecomes.bookingId hbecomes).trans hpb, h.expired j q hpend⟩ hl
      have hmem : p ∈ Snapshot.all ⟨w.db.view t, w.db.next⟩ .payments :=
        Snapshot.mem_all.2 ⟨j, hL.committed_lt .payments j p hp, hview⟩
      unfold DepositSweeper.orphaned at horphan
      have hid' : b.id = k := hid
      have hnot : ∀ q ∈ Snapshot.all ⟨w.db.view t, w.db.next⟩ .payments, Payment.bookingId q = b.id →
          Payment.deletedAt q = none → Payment.status q ≠ .pending ∧ Payment.status q ≠ .paid := by simpa using horphan
      exact hnot p hmem (hpb.trans hid'.symm) hdel

def Orphans (ids : List Nat) : Op schema service → Prop
  | .sql (.update .bookings i (.cancelOrphan _ _)) => i ∈ ids
  | .sql (.insert .auditLog _) => True
  | _ => False

theorem steady_cancelEach {l : Bool} (now grace : Int) :
    ∀ is : List Nat, (∀ i ∈ is, i ∈ ids) →
      Steady (fun _ o => Orphans ids o) l (updateEach .bookings (.cancelOrphan now grace) is)
  | [], _ => rfl
  | i :: is, h => by
    refine Steady.bind ⟨h i (List.mem_cons_self ..), fun r => by cases r <;> rfl⟩ fun _ => ?_
    exact (steady_cancelEach now grace is fun j hj => h j (List.mem_cons_of_mem i hj)).bind fun _ => rfl

theorem steady_recordEach {l : Bool} :
    ∀ bs : List Booking, Steady (fun _ o => Orphans ids o) l (DepositSweeper.recordOrphans bs)
  | [] => rfl
  | _ :: bs => Steady.bind ⟨trivial, fun r => by cases r <;> rfl⟩ fun _ => steady_recordEach bs

/-- What the sweep carries from its last SELECT, `n` commits in on these rows, to its commit. -/
structure Orphaning (t : Tid) (rows : Rows schema) (held : Nat → Option Payment) (n : Nat) (w : BWorld) : Prop where
  sweeping : Sweeping t (StrandedRows rows) w
  payments : w.db.pending t .payments = held
  seen : w.db.seen t = n
  le : n ≤ w.db.log.length
  version : w.db.version n = rows

variable {rows : Rows schema} {held : Nat → Option Payment} {n : Nat}

theorem Orphaning.evolves (h : Orphaning t rows held n w) (hev : w.Evolves (Jobs jobs) t w') :
    Orphaning t rows held n w' :=
  ⟨h.sweeping.congr hev.db.pending, by rw [hev.db.pending]; exact h.payments, hev.db.seen.trans h.seen,
    Nat.le_trans h.le hev.db.log_le, (hev.db.version n h.le).trans h.version⟩

theorem Orphaning.point (h : Orphaning t rows held n w) (hp : C.Point t w w') (hpend : w'.db.pending t = w.db.pending t)
    (hseen : w'.db.seen t = w.db.seen t) : Orphaning t rows held n w' :=
  ⟨h.sweeping.congr hpend, by rw [hpend]; exact h.payments, hseen.trans h.seen,
    Nat.le_trans h.le hp.since.after.log.length_le, (hp.since.version n h.le).trans h.version⟩

theorem Orphaning.exec {o : Op schema service} {i : Input} {r : o.Res} (h : Orphaning t rows held n w)
    (ho : Orphans ids o)
    (hids : ∀ k ∈ ids, (∃ j p, held j = some p ∧ Payment.bookingId p = k ∧ Payment.status p = .expired) ∨ StrandedRows rows k)
    (he : w.exec t o i = some (r, w')) : o ≠ .sql .commit ∧ Orphaning t rows held n w' := by
  have hinside : o.Inside := by
    cases o with
    | sql o =>
      cases o with
      | begin | commit | abort => exact ho.elim
      | _ => trivial
    | now | ask => trivial
  have hread : ∀ q, o ≠ .sql (.read q) := by
    rintro q rfl
    exact ho
  have hpayments : w'.db.pending t .payments = w.db.pending t .payments := by
    refine World.exec_pending hinside (fun j g hq => ?_) (fun r0 hq => ?_) he
    · subst hq
      exact ho
    · subst hq
      exact ho
  have hsince := World.since_exec (D := Jobs fun _ => .sweep) hinside he
  have hlapses : ∀ k, Lapses t w k → Lapses t w' k := by
    rintro k ⟨j, p, hp, hb⟩
    exact ⟨j, p, by rw [hpayments]; exact hp, hb⟩
  refine ⟨fun hc => by subst hc; exact ho, ⟨fun j p hp => ?_, fun k b hb => ?_⟩, hpayments.trans h.payments,
    (World.exec_seen hinside hread he).trans h.seen, Nat.le_trans h.le hsince.after.log.length_le,
    (hsince.version n h.le).trans h.version⟩
  · rw [hpayments] at hp
    exact h.sweeping.expired j p hp
  · rcases World.exec_wrote he hb with hb | ⟨g, v, rfl, -, happly⟩ | ⟨r0, rfl, -, -⟩
    · obtain ⟨hs, hr⟩ := h.sweeping.cancelled k b hb
      exact ⟨hs, hr.imp_left (hlapses k)⟩
    · cases g with
      | cancelOrphan now grace =>
        refine ⟨?_, (hids k ho).imp_left fun ⟨j, p, hp, hp'⟩ => ⟨j, p, by rw [hpayments, h.payments]; exact hp, hp'⟩⟩
        simp only [schema, applyChange, BookingChange.apply] at happly
        split at happly <;> cases happly
        rfl
      | _ => exact ho.elim
    · exact ho.elim

theorem Orphaning.commit (h : Orphaning t rows held n w) (hL : w.db.Lawful (Jobs jobs)) (hI : (swept jobs A).Inv w)
    (hkeep : Unovertaken jobs t (.sql .commit) w () ⟨w.db.commit t, w.out⟩) : (swept jobs A).Inv ⟨w.db.commit t, w.out⟩ := by
  refine Ledger.inv_commit hI fun hsweeps i b hb hbs hne => ?_
  have hview : w.db.view t .bookings i = some b := hb
  cases hpend : w.db.pending t .bookings i with
  | none =>
    have hcommitted : w.db.committed .bookings i = some b := (Rows.over_none hpend).symm.trans hview
    refine absurd ?_ hne
    show (w.db.committed .bookings i).map Booking.status = _
    rw [hcommitted]
    exact congrArg some hbs
  | some b' =>
    obtain ⟨-, ⟨j, p, hp, hpb⟩ | ⟨⟨b0, hb0, hwaits⟩, hunpaid⟩⟩ := h.sweeping.cancelled i b' hpend
    · exact .inl ⟨j, p, Rows.over_some hp, hpb⟩
    · have hversion : (w.db.commit t).version n = rows := (Engine.commit_version_le h.le).trans h.version
      refine .inr ⟨n, h.le, ⟨b0, hversion ▸ hb0, hwaits⟩, hversion ▸ hunpaid, fun j p hp hpb hhold => ?_⟩
      have hall := hkeep hsweeps j (hL.committed_lt .payments j p hp)
      have hcommitted : w.db.committed .payments j = some p := hp
      rw [hcommitted, Option.all_some, decide_eq_true_eq] at hall
      have hthere := hall hhold (by rw [hpb, hpend]; rfl)
      rw [h.seen, h.version] at hthere
      rw [hversion]
      exact hthere

theorem sweep_swept (hA : ∀ t o w r w', A t o w r w' → Unovertaken jobs t o w r w') (cfg : Config) (hw : w.db.Idle t) :
    (swept jobs A).Ensures t (DepositSweeper.sweep cfg) (fun _ _ => True) w := by
  unfold DepositSweeper.sweep
  refine ensures_clock swept_historic fun w₁ _ hp1 => ?_
  have hw1 : w₁.db.Idle t := ⟨hp1.trans hw.pending⟩
  refine ensures_last (ensures_session swept_historic hw1 fun w₂ _ _ hw2 => ?_)
  refine ensures_bind (ensures_mono (fun x w3 hx => ?_) (expireHolds_swept (N := fun _ => False) w₁.db.clock hw2))
  cases x with
  | error e => exact fun _ _ _ => trivial
  | ok claimed =>
    obtain ⟨hsweeping, hlapses⟩ := hx claimed rfl
    refine ensures_bind (ensures_mono (fun x w4 hx => ?_) (releaseEach_swept w₁.db.clock claimed hsweeping hlapses))
    cases x with
    | error e => exact fun _ _ _ => trivial
    | ok released =>
      have hsweeping4 := hx released rfl
      unfold DepositSweeper.cancelOrphans
      refine ensures_first (ensures_select swept_historic fun w5 h5 hp5 hseen => ?_)
      have hsweeping5 := hsweeping4.congr hp5
      have hlen : w5.db.version w5.db.log.length = w5.db.committed := Engine.version_length
      have horphaning : Orphaning t w5.db.committed (w5.db.pending t .payments) w5.db.log.length w5 :=
        ⟨⟨hsweeping5.expired, fun i b hb => ((hsweeping5.cancelled i b hb).imp_right fun h => .inl (h.resolve_right id))⟩,
          rfl, hseen, Nat.le_refl _, hlen⟩
      refine ensures_mono (fun x w6 hx => ?_) (ensures_of_uses
        (fun _ w => Orphaning t w5.db.committed (w5.db.pending t .payments) w5.db.log.length w)
        (fun _ _ _ hev h => h.evolves hev) (fun l o w i r w' ho hL hI h he _ _ => ?_)
        ((steady_cancelEach (l := false) _ _ _ fun _ hi => hi).bind fun orphans => (steady_recordEach orphans).bind fun _ => rfl) horphaning)
      · obtain ⟨-, -, hx⟩ := hx
        cases x with
        | error e => exact fun _ _ _ => trivial
        | ok result =>
          intro w7 h7 hp7 _ hseen7 hassume _
          exact ⟨(hx.point h7 hp7 hseen7).commit h7.lawful h7.inv (hA _ _ _ _ _ hassume), trivial⟩
      · obtain ⟨hc, hnext⟩ := h.exec ho (fun k hk => found_stranded h5.lawful hsweeping5 (List.mem_of_mem_take hk)) he
        exact ⟨swept_historic.exec hc (fun q hq => by subst hq; exact ho.elim) he hI, hnext⟩

/-- **In a run whose sweeps are not overtaken, every booking a sweep cancels had its hold run out, or was stranded.** -/
theorem run_swept (hA : ∀ t o w r w', A t o w r w' → Unovertaken jobs t o w r w') {cfg : Config} {rows : Rows schema}
    {next : Nat} {now : Int} (htables : Tables rows next) {c : Conf server Reply}
    (hr : Conf.Steps A (start cfg jobs rows next now) c) (m : Nat) (entry : Commit schema)
    (hm : c.state.db.log[m]? = some entry) : (sweepLedger jobs).Holds c.state.db m entry := by
  have hI : (swept jobs A).Inv (start cfg jobs rows next now).state := fun m entry hm => by cases hm
  have hsafe : ∀ t p, (start cfg jobs rows next now).threads t = some p →
      (swept jobs A).logic.Safe t p (fun _ _ => True) (start cfg jobs rows next now).state := by
    intro t p hp
    cases hp
    cases hjob : (jobs t).sweeps with
    | false => exact Ledger.safe_of_lawful (fun e _ _ hs => by
        change (jobs t).sweeps = true at hs
        rw [hjob] at hs
        cases hs) fun _ _ => trivial
    | true =>
      have hsweep : jobs t = .sweep := by
        cases hj : jobs t with
        | sweep => rfl
        | _ =>
          rw [hj] at hjob
          cases hjob
      rw [hsweep]
      refine safe_of_ensures (Q := fun _ _ => True) (ensures_bind (ensures_mono (fun x _ _ => ?_) (sweep_swept hA cfg ⟨rfl⟩)))
        fun _ _ _ _ _ _ _ => trivial
      cases x <;> trivial
  obtain ⟨hsound, -⟩ := (swept jobs A).runs (Q := fun _ _ _ => True) (start_obeyed htables) hI hsafe hr
  exact hsound.inv.2 m entry hm

/-! ## What a sweep may cancel -/

/-- **The sweeper is safe for the money**: no sweep cancels a booking of which a payment is paid, and none commits a hold run
out with its booking still waiting. -/
def SweepsSafely (jobs : Tid → Job) (e : Engine schema) : Prop :=
  ∀ (m : Nat) (entry : Commit schema), e.log[m]? = some entry → (jobs entry.by_).sweeps = true →
    (∀ i b, entry.after .bookings i = some b → Booking.status b = .cancelled →
      (entry.before .bookings i).map Booking.status ≠ some .cancelled → NoPaid entry.before i ∧ NoPaid entry.after i) ∧
    ∀ j p b, entry.after .payments j = some p → Payment.status p = .expired →
      (entry.before .payments j).map Payment.status ≠ some .expired →
      entry.after .bookings (Payment.bookingId p) = some b → Booking.status b ≠ .pendingPayment

theorem noPaid_before {entry : Commit schema}
    (hrows : ∀ j p, entry.before .payments j = some p → ∃ q, entry.after .payments j = some q ∧ PaymentBecomes p q)
    (h : NoPaid entry.after i) : NoPaid entry.before i := by
  intro j p hp hb hs
  obtain ⟨q, hq, hbecomes⟩ := hrows j p hp
  exact h j q hq (hbecomes.bookingId.trans hb) (hbecomes.paid hs)

/-- **In a run whose deposits are awaited and whose sweeps are not overtaken, the sweeps are safe.** -/
theorem sweeps_safely {cfg : Config} {rows : Rows schema} {next : Nat} {now : Int} {c : Conf server Reply}
    (htables : Tables rows next) (h : Orderly rows)
    (hr : Conf.Steps (fun t o w r w' => Awaited t o w r w' ∧ Unovertaken jobs t o w r w') (start cfg jobs rows next now) c) :
    SweepsSafely jobs c.state.db := by
  obtain ⟨horderly, -⟩ := run_orderly (fun _ _ _ _ _ h => h.1) htables h hr
  obtain ⟨hL, -⟩ := run_lawful htables hr
  intro m entry hm hsweeps
  have hmem := List.mem_of_getElem? hm
  have hafter : c.state.db.version (m + 1) = entry.after := hL.linked m entry hm
  have hbefore : c.state.db.version m = entry.before := by
    unfold Engine.version
    rw [hm]
  have hO := horderly (m + 1)
  rw [hafter] at hO
  have hrows : ∀ j p, entry.before .payments j = some p → ∃ q, entry.after .payments j = some q ∧ PaymentBecomes p q := by
    intro j p hp
    have hrow := Cast.becomes_common (hL.entries entry hmem .payments j)
    rw [hp] at hrow
    obtain ⟨q, hq, htrans⟩ := hrow.some_left
    exact ⟨q, hq, htrans⟩
  have hold : ∀ j q, entry.after .payments j = some q → ∃ p, entry.before .payments j = some p ∧ PaymentBecomes p q := by
    intro j q hq
    cases hp : entry.before .payments j with
    | some p =>
      obtain ⟨q', hq', hbecomes⟩ := hrows j p hp
      rw [hq] at hq'
      cases hq'
      exact ⟨p, rfl, hbecomes⟩
    | none =>
      have hrow := hL.entries entry hmem .payments j
      rw [hp, hq] at hrow
      obtain ⟨r0, -, -, hw, -⟩ := hrow
      have hopen := opens_of_payment hw
      cases hj : jobs entry.by_ with
      | sweep =>
        rw [hj] at hopen
        cases hopen
      | _ =>
        rw [hj] at hsweeps
        cases hsweeps
  refine ⟨fun i b hb hs hne => ?_, fun j p b hp hs _ hb => hO.lapsed j p b hp hs hb⟩
  have hpaid : NoPaid entry.after i := by
    intro j q hq hqb hqs
    have hhold : Payment.isHold q := by
      rw [Payment.isHold, hqs]
      intro h
      cases h
    rcases run_swept (fun _ _ _ _ _ h => h.2) htables hr m entry hm hsweeps i b hb hs hne with ⟨k, p, hp, hpb, hps⟩ | ⟨n, hn⟩
    · have hjk := hO.single k j p q hp hq (by rw [Payment.isHold, hps]; intro h; cases h) hhold (hpb.trans hqb.symm)
      subst hjk
      rw [hp] at hq
      cases hq
      rw [hps] at hqs
      cases hqs
    · obtain ⟨p, hp, hbecomes⟩ := hold j q hq
      obtain ⟨r, hr'⟩ := Option.isSome_iff_exists.1 (hn.known j p hp (hbecomes.bookingId.symm.trans hqb) (hbecomes.isHold.1 hhold))
      have hlen := (List.getElem?_eq_some_iff.1 hm).1
      have hrow := hL.version_becomes (Cast.plays_common _) hn.le (Nat.le_of_lt hlen) .payments j
      rw [hr', hbefore, hp] at hrow
      have hrp : PaymentBecomes r p := hrow
      have hrb : Payment.bookingId r = i := hrp.bookingId.symm.trans (hbecomes.bookingId.symm.trans hqb)
      have hOn := horderly n
      obtain ⟨hdel, hflow⟩ := hOn.flow j r hr'
      obtain ⟨hnp, hnpaid⟩ := hn.unpaid j r hr' hrb hdel
      obtain ⟨b0, hb0, hwaits⟩ := hn.waits
      rcases hflow with hf | hf | hf | hf
      · exact hnp hf
      · exact hnpaid hf
      · exact (hrp.isHold.1 (hbecomes.isHold.1 hhold)) hf
      · exact hOn.lapsed j r b0 hr' hf (hrb ▸ hb0) hwaits
  exact ⟨noPaid_before hrows hpaid, hpaid⟩

/-- Dana has paid and asks again before the process confirms it; the sweeper comes when the second hold has run out. -/
def paidReplayedSwept : Tid → Job
  | 0 => .delivery paysHold
  | 1 => .postBookings dana
  | _ => .sweep

def cancelsPaid (c : Conf server Reply) : Bool :=
  c.state.db.log[3]?.any fun entry =>
    decide (entry.by_ = 2 ∧ (entry.after .bookings 6).map Booking.status = some .cancelled ∧
      (entry.before .bookings 6).map Booking.status = some .pendingPayment ∧
      (entry.after .payments 7).map (fun (p : Payment) => (p.bookingId, p.status)) = some (6, .paid))

/-- The sweep cancels the paid booking. -/
theorem sweep_cancels_paid : ∃ c, (start shop paidReplayedSwept (tableOf unpaid) 8 0).Reaches c ∧
    Orderly (tableOf unpaid) ∧ ¬SweepsSafely paidReplayedSwept c.state.db := by
  obtain ⟨c, hc, hwrong⟩ := reaches_of_play (start shop paidReplayedSwept (tableOf unpaid) 8 0)
    (turns 0 fine 8 ++ turns 1 another 24 ++ [.happen (1000 * second).toNat] ++ turns 2 fine 8) cancelsPaid
    (by decide)
  refine ⟨c, hc, unpaid_orderly, fun hsafe => ?_⟩
  obtain ⟨entry, hentry, hfound⟩ := Option.any_eq_true _ _ |>.1 hwrong
  obtain ⟨hby, hcancelled, hwaited, hpaid⟩ := of_decide_eq_true hfound
  obtain ⟨b, hb, hs⟩ := Option.map_eq_some_iff.1 hcancelled
  obtain ⟨p, hp, hps⟩ := Option.map_eq_some_iff.1 hpaid
  obtain ⟨hpb, hps⟩ := Prod.mk.inj hps
  have hjob : (paidReplayedSwept entry.by_).sweeps = true := by
    rw [hby]
    rfl
  exact (((hsafe 3 entry hentry hjob).1 6 b hb hs (by rw [hwaited]; decide)).2 7 p hp hpb) hps

/-- Nobody pays, and the sweeper releases the hour. -/
theorem sweeps_safely_shop : ∃ c, Conf.Steps (fun t o w r w' => Awaited t o w r w' ∧
      Unovertaken (fun _ => .sweep) t o w r w') (start shop (fun _ => .sweep) (tableOf unpaid) 8 0) c ∧
    committedPayments c = [(7, .expired)] ∧ committedStatus c 6 = some .cancelled ∧
    SweepsSafely (fun _ => .sweep) c.state.db := by
  obtain ⟨c, hc, hdone⟩ := steps_of_play (fun t o w r w' => Awaited t o w r w' ∧ Unovertaken (fun _ => .sweep) t o w r w')
    (start shop (fun _ => .sweep) (tableOf unpaid) 8 0) ([.happen (1000 * second).toNat] ++ turns 2 fine 8)
    (fun c => decide (committedPayments c = [(7, .expired)] ∧ committedStatus c 6 = some .cancelled)) (by decide)
  obtain ⟨hexpired, hcancelled⟩ := of_decide_eq_true hdone
  exact ⟨c, hc, hexpired, hcancelled, sweeps_safely unpaid_tables unpaid_orderly hc⟩

end Boutique
