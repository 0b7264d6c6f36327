import Boutique.Stock
import Boutique.Terms
import Boutique.TxnSession
/-!
# Accepted — the versions of the policy, and what a booking accepted of them

The numbers of the versions are `1..n` in every state: a publisher writes one more than the highest it saw, the versions it
saw are still there, and the index leaves it only the next number.  A booking carries the version its request named, which
was current when the request looked, and carries it for good.
-/
namespace Boutique

open Txn Contract

variable {cfg : Config} {parties : Tid → Party} {rows : Rows schema} {next : Nat} {now : Int} {c : Conf server Answer}
  {p : Party} {s l : Bool} {t : Tid} {w : BWorld}

/-! ## Everybody plays their part -/

variable {r : CreateRequest} {e : Engine schema} {m n : Nat} {d : Commit schema} {α : Type}

section Parts

variable {o : Op schema service} {v : Nat}

theorem within_claimSeat_adds (h : p.books = some r) (x n : Int) (customerId : Nat) (a : AppointmentType)
    (token : Nat) (due : Bool) (text : ClaimText) :
    Within (Writes s p.Adds) l (claimSeat cfg x n customerId a r.termsVersion token due text) := by
  have hseat : ∀ (slot : Slot) (i : Nat) (r' : CreateRequest), p.books = some r' →
      (seatRow slot i n customerId a r.termsVersion token due text).termsVersionAccepted = some r'.termsVersion := by
    intro slot i r' hr'
    rw [h] at hr'
    cases hr'
    rfl
  have hremind : ∀ b : Booking, Steady (Writes s p.Adds) true (scheduleReminder b n token) := by
    intro b
    unfold scheduleReminder
    cases reminderSendAfter b.startsAt n with
    | none => exact steady_pure _
    | some at_ => exact (steady_insert trivial).bind fun _ => steady_pure _
  unfold claimSeat
  refine within_lock (Steady.within ?_)
  refine (steady_offeredSlot cfg x n).bind fun _ => (steady_orRaise _ _).bind fun slot => ?_
  refine (steady_select _ _).bind fun _ => (steady_orRaise _ _).bind fun seatIndex => ?_
  exact (steady_insertSeat (hseat slot seatIndex)).bind fun b => (hremind b).bind fun _ => steady_pure _

theorem within_lockedCreate_adds (h : p.books = some r) (phone : String) (n txNow : Int) (a : AppointmentType)
    (due : Bool) (dress : Option String × Option String) :
    Within (Writes s p.Adds) l (BookingService.lockedCreate cfg r phone n txNow a due dress) := by
  unfold BookingService.lockedCreate BookingService.freshClaim
  refine within_lock ((steady_replayed phone r.startsAt).then_ fun found => ?_)
  cases found with
  | some x => exact ((steady_stampConsent (fun _ _ => trivial) _ x.1.id txNow).bind fun _ => steady_pure _).within
  | none =>
    refine (steady_checkDress cfg r.dressId r.startsAt).then_ fun _ => ?_
    refine (steady_upsert (fun _ _ => trivial) (fun _ _ => trivial) phone _).then_ fun x => ?_
    refine (steady_stampConsent (fun _ _ => trivial) _ x.id txNow).then_ fun _ => Steady.then_ (steady_ask rfl) fun token => ?_
    exact uses_bind (within_claimSeat_adds h ..) (fun _ _ _ => trivial) fun _ _ _ => trivial

theorem steady_createBooking_adds (h : p.books = some r) :
    Steady (Writes true p.Adds) false (BookingService.createBooking cfg r) := by
  unfold BookingService.createBooking
  refine (steady_liftExcept _).bind fun _ => (steady_liftExcept _).bind fun phone => ?_
  refine steady_clock.bind fun n => (steady_raiseIf _ _).bind fun _ => (steady_checkBudgets phone).bind fun _ => ?_
  refine steady_session fun txNow => ?_
  unfold BookingService.createIn
  refine (steady_provePhone (fun _ _ _ _ _ => trivial) phone _ txNow).then_ fun _ => (steady_typeAndTerms _ _).then_ fun a => ?_
  refine (steady_gatewayConnected cfg).then_ fun _ => (steady_snapshotDress cfg _ _).then_ fun dress => ?_
  exact within_lockedCreate_adds h phone n txNow a _ dress

theorem TailWrites.adds (h : TailWrites l o) : p.Adds l o := by
  cases h with
  | open_ b h => cases h <;> trivial
  | send b h => cases h <;> trivial

theorem ErrandWrites.adds (h : ErrandWrites l o) (hp : p.books = none) : p.Adds l o := by
  have hbooks : ∀ b : Booking, ∀ r, p.books = some r → b.termsVersionAccepted = some r.termsVersion := by
    intro b r hr
    rw [hp] at hr
    cases hr
  cases h with
  | job j h =>
    cases o with
    | sql o =>
      cases o with
      | insert T r =>
        cases T with
        | bookings => exact hbooks r
        | termsVersions => exact ((Job.inOrder h).legal 0 0).elim
        | _ => trivial
      | _ => trivial
    | _ => trivial
  | relink h =>
    cases h with
    | send l kind b h => cases h <;> trivial
    | _ => trivial

theorem steady_drainRow (row : ScheduledMessage) (n : Int) :
    Steady (Writes s p.Adds) l (BookingComms.drainRow row n) := by
  have hmarked : ∀ status, Steady (Writes s p.Adds) l (BookingComms.marked row status) := fun status =>
    (steady_update trivial).bind fun _ => steady_pure _
  have hdue : ∀ phone kind token, Steady (Writes s p.Adds) l (BookingComms.deliverDue row phone kind token) := by
    intro phone kind token
    have hsend : Steady (Writes s p.Adds) l (BookingComms.sendDue row phone kind token) := by
      unfold BookingComms.sendDue
      refine (steady_ask rfl).bind fun _ => (steady_raiseIf _ _).bind fun _ => (steady_raiseIf _ _).bind fun _ => ?_
      refine Steady.bind ⟨.inr (.inr trivial), fun _ => rfl⟩ fun r => ?_
      cases r with
      | sent => exact steady_pure _
      | refused | notConfigured | fault => exact steady_throw _
    refine Steady.bind (hsend.bind fun _ => steady_pure _).attempt fun x => ?_
    cases x with
    | ok a => exact steady_pure _
    | error e =>
      show Steady _ _ (if _ then _ else _)
      split
      · exact steady_pure _
      · exact steady_throw _
  have hsend : ∀ phone kind, Steady (Writes s p.Adds) l (BookingComms.sendOrFail row phone kind) := by
    intro phone kind
    unfold BookingComms.sendOrFail
    split
    · exact (hdue _ _ _).bind fun _ => hmarked _
    · exact hmarked _
  unfold BookingComms.drainRow BookingComms.drainOffer BookingComms.drainReminder
  split
  · split
    · refine Steady.bind (steady_select _ _) fun found => ?_
      cases found with
      | none => exact hmarked _
      | some entry =>
        show Steady _ _ (if _ then _ else _)
        split
        · exact hmarked _
        · refine (steady_ask rfl).bind fun configured => ?_
          cases configured with
          | true => exact hsend _ _
          | false => exact steady_pure _
    · exact steady_pure _
  · split
    · refine Steady.bind (steady_select _ _) fun found => ?_
      cases found with
      | none => exact hmarked _
      | some booking =>
        show Steady _ _ (if _ then _ else _)
        split
        · exact hmarked _
        · refine (steady_ask rfl).bind fun configured => ?_
          cases configured with
          | true => exact (steady_select _ _).bind fun _ => hsend _ _
          | false => exact steady_pure _
    · exact steady_pure _

theorem steady_drainRows (n : Int) : ∀ (due : List ScheduledMessage) (r : DrainResult),
    Steady (Writes s p.Adds) l (BookingComms.drainRows n due r)
  | [], _ => rfl
  | row :: due, r => by
    refine (steady_drainRow row n).bind fun x => ?_
    cases x with
    | none => exact steady_pure _
    | some status => exact steady_drainRows n due _

theorem steady_lockDue (n : Int) : ∀ (due : List Nat) (k : Nat),
    Steady (Writes s p.Adds) l (Scheduled.lockDue n due k)
  | [], _ => rfl
  | _ :: _, 0 => rfl
  | i :: due, k + 1 => by
    refine Steady.bind (steady_ask (q := .rowLocked i) rfl) fun locked => ?_
    cases locked with
    | true => exact steady_lockDue n due (k + 1)
    | false =>
      refine Steady.bind (steady_update trivial) fun row => ?_
      cases row with
      | none => exact steady_lockDue n due (k + 1)
      | some m' => exact (steady_lockDue n due k).bind fun _ => steady_pure _

theorem steady_drainDue (limit : Nat) : Steady (Writes true p.Adds) false (BookingComms.drainDue limit) :=
  steady_clock.bind fun n => steady_session fun _ => Steady.within
    (((steady_select _ _).bind fun due => steady_lockDue n due limit).bind fun due => steady_drainRows n due _)

attribute [local irreducible] validateTerms in
theorem steady_createTermsVersion (r : TermsInput) :
    Steady (Writes true (Party.createTermsVersion r).Adds) false (BoutiqueService.createTermsVersion r) := by
  have hinsert : Steady (Writes true (Party.createTermsVersion r).Adds) false (BoutiqueService.insertNextTermsVersion r) :=
    steady_session fun _ => Steady.within ((steady_select _ _).bind fun _ => steady_insert rfl)
  unfold BoutiqueService.createTermsVersion
  refine (steady_liftExcept _).bind fun _ => (steady_ask rfl).bind fun _ => (steady_raiseIf _ _).bind fun _ => ?_
  refine (steady_onIntegrity hinsert (steady_onIntegrity hinsert (steady_throw _))).bind fun created => ?_
  exact (steady_ask rfl).bind fun _ => steady_pure _

attribute [local irreducible] validateTerms in
theorem steady_party (cfg : Config) (p : Party) : Steady (Writes true p.Adds) false (p.code cfg) := by
  cases p with
  | createTermsVersion r => exact (steady_createTermsVersion r).bind fun _ => steady_pure _
  | errand e =>
    refine Steady.bind ?_ fun _ => steady_pure _
    cases hbooks : (Party.errand e).books with
    | none =>
      cases hdrains : e.drains with
      | false => exact (steady_errand cfg hdrains).mono (writes_mono fun _ _ h => h.adds hbooks)
      | true =>
        cases e with
        | drain limit => exact (steady_drainDue limit).bind fun _ => steady_pure _
        | _ => cases hdrains
    | some r =>
      cases e with
      | job j =>
        cases j with
        | createBooking r' =>
          cases hbooks
          exact (steady_createBooking_adds rfl).bind fun _ => steady_pure _
        | postBookings r' =>
          cases hbooks
          refine Steady.bind (Steady.bind (steady_createBooking_adds rfl) fun claim => ?_) fun _ => steady_pure _
          exact (steady_answerClaim cfg claim).mono (writes_mono fun _ _ h => h.adds)
        | _ => cases hbooks
      | _ => cases hbooks

end Parts

theorem opening_obeyed (h : Tables rows next) : Cast.Obeyed (Parties parties) (opening cfg parties rows next now) := by
  refine ⟨quiet_lawful h _, fun t p hp => ⟨false, nofun, ?_⟩⟩
  cases hp
  refine uses_mono (fun l o ho => ?_) (fun _ _ _ => trivial) (steady_party cfg (parties t))
  rcases ho with ho | ⟨-, ho⟩ | ho
  · refine Party.part_legal ?_
    cases o with
    | sql o => cases o <;> trivial
    | now | ask => trivial
  · refine Party.part_legal ?_
    cases o with
    | sql o => cases o <;> trivial
    | now | ask => trivial
  · exact Party.part_legal ho

/-! ## The numbers -/

structure Highest (rows : Rows schema) (n : Nat) : Prop where
  le : ∀ k (v : TermsVersion), rows .termsVersions k = some v → v.deletedAt = none → v.version ≤ n
  attained : n = 0 ∨ ∃ k, ∃ v : TermsVersion, rows .termsVersions k = some v ∧ v.deletedAt = none ∧ v.version = n

/-- **The current version**: the highest, where there is one. -/
def Current (rows : Rows schema) (n : Nat) : Prop :=
  (∃ k, ∃ v : TermsVersion, rows .termsVersions k = some v ∧ v.deletedAt = none ∧ v.version = n) ∧
    ∀ k (v : TermsVersion), rows .termsVersions k = some v → v.deletedAt = none → v.version ≤ n

theorem foldr_max_spec : ∀ ns : List Nat, (∀ n ∈ ns, n ≤ ns.foldr max 0) ∧ (ns.foldr max 0 = 0 ∨ ns.foldr max 0 ∈ ns)
  | [] => ⟨fun _ hn => absurd hn List.not_mem_nil, .inl rfl⟩
  | n :: ns => by
    obtain ⟨hle, hmem⟩ := foldr_max_spec ns
    rw [List.foldr_cons]
    refine ⟨fun m hm => ?_, ?_⟩
    · rcases List.mem_cons.1 hm with rfl | hm
      · exact Nat.le_max_left _ _
      · exact Nat.le_trans (hle m hm) (Nat.le_max_right _ _)
    · rcases Nat.le_total n (ns.foldr max 0) with h | h
      · rw [Nat.max_eq_right h]
        exact hmem.imp id (List.mem_cons_of_mem n)
      · rw [Nat.max_eq_left h]
        exact .inr List.mem_cons_self

theorem highest_spec {s : Snapshot schema} (hlt : ∀ k v, s.rows .termsVersions k = some v → k < s.next) :
    Highest s.rows (Terms.highest s) := by
  obtain ⟨hle, hmem⟩ := foldr_max_spec
    (((s.all .termsVersions).filter fun (v : TermsVersion) => v.deletedAt = none).map TermsVersion.version)
  refine ⟨fun k v hv hlive => hle _ (List.mem_map.2 ⟨v, List.mem_filter.2
    ⟨Snapshot.mem_all.2 ⟨k, hlt k v hv, hv⟩, decide_eq_true hlive⟩, rfl⟩), hmem.imp id fun hn => ?_⟩
  obtain ⟨v, hv, hn⟩ := List.mem_map.1 hn
  obtain ⟨hall, hlive⟩ := List.mem_filter.1 hv
  obtain ⟨k, -, hk⟩ := Snapshot.mem_all.1 hall
  exact ⟨k, v, hk, of_decide_eq_true hlive, hn⟩

theorem newest_spec {s : Snapshot schema} {v : TermsVersion} (hlt : ∀ k v, s.rows .termsVersions k = some v → k < s.next)
    (h : Terms.newest s = some v) : Current s.rows v.version := by
  have hsorted := List.pairwise_insertionSort (fun (v v' : TermsVersion) => v'.version ≤ v.version)
    ((s.all .termsVersions).filter fun (v : TermsVersion) => v.deletedAt = none)
  obtain ⟨vs, hvs⟩ := List.head?_eq_some_iff.1 h
  rw [hvs] at hsorted
  have hmem : ∀ u : TermsVersion, u ∈ v :: vs ↔
      u ∈ (s.all .termsVersions).filter fun (v : TermsVersion) => v.deletedAt = none := by
    intro u
    rw [← hvs]
    exact List.mem_insertionSort _
  obtain ⟨hall, hlive⟩ := List.mem_filter.1 ((hmem v).1 List.mem_cons_self)
  obtain ⟨k, -, hk⟩ := Snapshot.mem_all.1 hall
  refine ⟨⟨k, v, hk, of_decide_eq_true hlive, rfl⟩, fun j u hu hlive' => ?_⟩
  rcases List.mem_cons.1 ((hmem u).2 (List.mem_filter.2 ⟨Snapshot.mem_all.2 ⟨j, hlt j u hu, hu⟩, decide_eq_true hlive'⟩))
    with rfl | hu'
  · exact Nat.le_refl _
  · exact (List.pairwise_cons.1 hsorted).1 u hu'

/-! ## Publishing -/

/-- One version more, its number the successor of the highest of version `n` of the tables. -/
structure Adds (d : Commit schema) (n : Rows schema) (v : TermsVersion) : Prop where
  writes : ∃ k, d.before .termsVersions k = none ∧ d.writes = Rows.set (fun _ _ => none) Table.termsVersions k v
  live : v.deletedAt = none
  number : ∃ m, Highest n m ∧ v.version = m + 1

theorem adds_stable {e' : Engine schema} (hversion : ∀ n, n ≤ m → e'.version n = e.version n)
    (h : (∀ k, d.after .termsVersions k = d.before .termsVersions k) ∨ ∃ n, n ≤ m ∧ ∃ v, Adds d (e.version n) v) :
    (∀ k, d.after .termsVersions k = d.before .termsVersions k) ∨ ∃ n, n ≤ m ∧ ∃ v, Adds d (e'.version n) v := by
  rcases h with hnone | ⟨n, hn, v, hv⟩
  · exact .inl hnone
  · exact .inr ⟨n, hn, v, hversion n hn ▸ hv⟩

abbrev publications : Ledger schema where
  Holds e m d := (∀ k, d.after .termsVersions k = d.before .termsVersions k) ∨ ∃ n, n ≤ m ∧ ∃ v, Adds d (e.version n) v
  stable _ _ _ _ _ _ hversion h := adds_stable (fun n hn => hversion n (Nat.le_succ_of_le hn)) h

abbrev publishing (parties : Tid → Party) : Contract (Parties parties) service Err :=
  publications.contract (Parties parties) fun _ _ _ _ _ => True

theorem publishing_historic : (publishing parties).Historic calm := publications.historic _

structure Unheard (t : Tid) (e : Engine schema) : Prop where
  idle : e.Idle t
  own : e.own t = []

theorem insertNext_ensures {r : TermsInput} {k : TermsVersion → Prg α} {Q : Except Err α → BWorld → Prop}
    (h : Unheard t w.db) (herr : ∀ w', Unheard t w'.db → Q (.error .integrity) w')
    (hok : ∀ v (w' : BWorld) d n, w'.db.Idle t → w'.db.own t = [d] → Adds d n v → (publishing parties).Ensures t (k v) Q w') :
    (publishing parties).Ensures t (BoutiqueService.insertNextTermsVersion r >>= k) Q w := by
  refine ensures_session publishing_historic h.idle fun w1 n h1 hidle1 => ?_
  refine ensures_select publishing_historic fun w2 h2 hp2 _ => ?_
  have hidle2 : w2.db.Idle t := ⟨hp2.trans hidle1.pending⟩
  have hhighest : Highest (w2.db.version w2.db.log.length) (Terms.highest ⟨w2.db.view t, w2.db.next⟩) := by
    have hspec := highest_spec (s := ⟨w2.db.view t, w2.db.next⟩) fun k v hv => h2.lawful.view_lt hv
    generalize Terms.highest ⟨w2.db.view t, w2.db.next⟩ = n at hspec ⊢
    rwa [Engine.version_length, ← hidle2.view]
  have hsame : ∀ {w' : BWorld}, (publishing parties).Point t w2 w' → w'.db.own t = [] := by
    intro w' h'
    rw [h'.since.own, h2.since.own, h1.since.own, h.own]
  refine ensures_last (ensures_insertRow publishing_historic (fun w3 h3 hp3 w4 h4 _ => ?_) fun w3 w4 n' hwrote _ => ?_)
  · have hown : w4.db.own t = [] := hsame (h3.trans h4)
    exact herr _ ⟨Engine.idle_release _ _, hown⟩
  · intro w5 h5 hp5 _ _ _ hL
    have hwrites := hp5.trans hwrote.pending
    rw [hidle2.pending] at hwrites
    have hbefore : (w5.db.entry t).before .termsVersions w3.db.next = none := by
      change w5.db.committed .termsVersions w3.db.next = none
      rw [(h5.since.written .termsVersions w3.db.next _ hwrote.row).2, hwrote.committed]
      exact hwrote.before.lawful.committed_none_of_le (Nat.le_refl _) _
    have hversion : (w5.db.commit t).version w2.db.log.length = w2.db.version w2.db.log.length := by
      have hle : w2.db.log.length ≤ w5.db.log.length := (hwrote.after.since.trans h5.since).after.log.length_le
      rw [Engine.commit_version_le hle, (hwrote.after.since.trans h5.since).version _ (Nat.le_refl _)]
    have hadds := Adds.mk (d := w5.db.entry t) (n := (w5.db.commit t).version w2.db.log.length) ⟨_, hbefore, hwrites⟩ rfl
      ⟨_, hversion ▸ hhighest, rfl⟩
    refine ⟨Ledger.inv_commit h5.inv (.inr ⟨_, (hwrote.after.since.trans h5.since).after.log.length_le, _, hadds⟩), ?_⟩
    refine hok _ _ (w5.db.entry t) _ (Engine.idle_commit _ _) ?_ hadds
    change (w5.db.commit t).own t = _
    rw [Engine.commit_own, h5.since.own, hsame hwrote.after, List.nil_append]

/-- **A publisher that answers has added one version, and one that is refused none.** -/
def Published (t : Tid) : Except Err Answer → BWorld → Prop
  | .ok (.terms v), w => ∃ d n, w.db.own t = [d] ∧ Adds d n v
  | .ok (.errand _), _ => False
  | .error _, w => w.db.own t = []

attribute [local irreducible] validateTerms in
theorem createTermsVersion_ensures {r : TermsInput} (h : Unheard t w.db) :
    (publishing parties).Ensures t ((Party.createTermsVersion r).code cfg) (Published t) w := by
  have hend : ∀ v (w' : BWorld) d n, w'.db.own t = [d] → Adds d n v →
      (publishing parties).Ensures t (ask (.recordFailure .terms) >>= fun _ => pure (Answer.terms v)) (Published t) w' := by
    intro v w' d n hown hadds
    refine ensures_question publishing_historic rfl fun w1 a h1 _ => ?_
    exact ⟨d, n, h1.since.own.trans hown, hadds⟩
  refine ensures_first (ensures_liftExcept (fun _ _ => h.own) fun _ _ => ?_)
  refine ensures_first (ensures_question publishing_historic rfl fun w1 blocked h1 hp1 => ?_)
  have hquiet1 : Unheard t w1.db := ⟨⟨hp1.trans h.idle.pending⟩, h1.since.own.trans h.own⟩
  refine ensures_first (ensures_raiseIf (fun _ => hquiet1.own) fun _ => ?_)
  refine ensures_first (ensures_onIntegrity (ensures_last (insertNext_ensures hquiet1 (fun w2 h2 => ?_)
    fun v w2 d n _ hown hadds => hend v w2 d n hown hadds)))
  refine ensures_onIntegrity (ensures_last (insertNext_ensures h2 (fun w3 h3 => ?_)
    fun v w3 d n _ hown hadds => hend v w3 d n hown hadds))
  exact h3.own

/-! ## Whole runs -/

theorem version_stands (hL : e.Lawful (Parties parties)) (hmn : m ≤ n) (hn : n ≤ e.log.length) {k : Nat}
    {v : TermsVersion} (h : e.version m .termsVersions k = some v) : e.version n .termsVersions k = some v := by
  have hrow := hL.version_becomes (Cast.plays_common _) hmn hn .termsVersions k
  rw [h] at hrow
  obtain ⟨v', hv', hsame⟩ := hrow.some_left
  cases hsame
  exact hv'

theorem errand_adds_none (hL : e.Lawful (Parties parties)) (ht : (parties t).publishes = false) (k : Nat) :
    (e.entry t).after .termsVersions k = (e.entry t).before .termsVersions k := by
  have hrow := hL.inflight t .termsVersions k
  change e.view t .termsVersions k = e.committed .termsVersions k
  cases hc : e.committed .termsVersions k with
  | none =>
    rw [hc] at hrow
    cases hv : e.view t .termsVersions k with
    | none => rfl
    | some v =>
      rw [hv] at hrow
      have hnew : (parties t).publishes = true := hrow
      rw [ht] at hnew
      cases hnew
  | some v =>
    rw [hc] at hrow
    obtain ⟨v', hv', hsame⟩ := hrow.some_left
    rw [hv']
    exact congrArg some hsame

attribute [local irreducible] validateTerms in
theorem opening_run (h : Tables rows next) (hr : (opening cfg parties rows next now).Reaches c) :
    c.state.db.Lawful (Parties parties) ∧ c.state.db.version 0 = rows ∧
      (∀ m d, c.state.db.log[m]? = some d → publications.Holds c.state.db m d) ∧
      (∀ t a, (parties t).publishes = true → c.threads t = some (.ret a) → Published t (.ok a) c.state) ∧
      ∀ t e, (parties t).publishes = true → c.threads t = some (.raise e) → Published t (.error e) c.state := by
  have hsafe : ∀ t p, (opening cfg parties rows next now).threads t = some p → (publishing parties).logic.Safe t p
      (fun x w => (parties t).publishes = true → Published t x w) (opening cfg parties rows next now).state := by
    intro t p hp
    cases hp
    cases ht : parties t with
    | errand e =>
      exact Ledger.safe_of_lawful (fun e hL _ => .inl (errand_adds_none hL (by rw [ht]; rfl))) fun _ _ h => by cases h
    | createTermsVersion r =>
      refine safe_of_ensures (createTermsVersion_ensures ⟨⟨rfl⟩, rfl⟩) fun x w w' hx hev _ _ _ => ?_
      have hown := hev.db.since.own
      cases x with
      | error e => exact hown.trans hx
      | ok a =>
        cases a with
        | errand => exact hx
        | terms v =>
          obtain ⟨d, n, hd, hadds⟩ := hx
          exact ⟨d, n, hown.trans hd, hadds⟩
  obtain ⟨hsound, hL⟩ := (publishing parties).runs (opening_obeyed h) (fun m d hm => by cases hm) hsafe hr
  exact ⟨hL, ((opening_obeyed h).history hr).2 0 (Nat.le_refl 0), hsound.inv.2,
    fun t a ht hret => hsound.finished hret ht, fun t e ht hraise => hsound.raised hraise ht⟩

/-- **The versions are exactly `1..n`.** -/
structure Numbered (rows : Rows schema) (n : Nat) : Prop where
  live : ∀ k (v : TermsVersion), rows .termsVersions k = some v → v.deletedAt = none
  numbers : ∀ m, (∃ k, ∃ v : TermsVersion, rows .termsVersions k = some v ∧ v.version = m) ↔ 1 ≤ m ∧ m ≤ n

theorem Numbered.congr {rows' : Rows schema} (h : Numbered rows n)
    (hsame : ∀ k, rows' .termsVersions k = rows .termsVersions k) : Numbered rows' n := by
  refine ⟨fun k v hv => h.live k v (hsame k ▸ hv), fun m => ?_⟩
  rw [← h.numbers m]
  simp only [hsame]

theorem Numbered.adds {seen : Rows schema} {v : TermsVersion} (h : Numbered d.before n) (hadds : Adds d seen v)
    (hseen : ∀ k u, seen .termsVersions k = some u → d.before .termsVersions k = some u) (hrows : Consistent d.after) :
    Numbered d.after (n + 1) := by
  obtain ⟨k, hfresh, hw⟩ := hadds.writes
  obtain ⟨m, hhighest, hnumber⟩ := hadds.number
  have hnew : d.after .termsVersions k = some v := by
    refine Rows.over_some ?_
    rw [hw, Rows.set_same]
  have hold : ∀ j, j ≠ k → d.after .termsVersions j = d.before .termsVersions j := by
    intro j hj
    refine Rows.over_none ?_
    rw [hw, Rows.set_row hj]
  have hne : ∀ {j : Nat} {u : TermsVersion}, d.before .termsVersions j = some u → j ≠ k := by
    rintro j u hu rfl
    rw [hfresh] at hu
    cases hu
  -- what it saw is still there, so it is no higher than `n`; and nobody else has its number
  have hle : m ≤ n := by
    rcases hhighest.attained with rfl | ⟨j, u, hu, -, rfl⟩
    · exact Nat.zero_le n
    · exact ((h.numbers u.version).1 ⟨j, u, hseen j u hu, rfl⟩).2
  have hgt : ¬m + 1 ≤ n := by
    intro hmn
    obtain ⟨j, u, hu, hum⟩ := (h.numbers (m + 1)).2 ⟨Nat.succ_pos m, hmn⟩
    have hapart := hrows.apart .termsVersions j k u v ((hold j (hne hu)).trans hu) hnew (hne hu)
    exact of_decide_eq_false hapart (hum.trans hnumber.symm)
  refine ⟨fun j u hu => ?_, fun i => ⟨?_, ?_⟩⟩
  · by_cases hj : j = k
    · subst hj
      rw [hnew] at hu
      cases hu
      exact hadds.live
    · exact h.live j u (hold j hj ▸ hu)
  · rintro ⟨j, u, hu, rfl⟩
    by_cases hj : j = k
    · subst hj
      rw [hnew] at hu
      cases hu
      omega
    · have := (h.numbers u.version).1 ⟨j, u, hold j hj ▸ hu, rfl⟩
      omega
  · rintro ⟨hpos, hi⟩
    by_cases hin : i ≤ n
    · obtain ⟨j, u, hu, hum⟩ := (h.numbers i).2 ⟨hpos, hin⟩
      exact ⟨j, u, (hold j (hne hu)).trans hu, hum⟩
    · exact ⟨k, v, hnew, by omega⟩

theorem versions_numbered (hL : e.Lawful (Parties parties)) (h0 : Numbered (e.version 0) n)
    (hledger : ∀ m d, e.log[m]? = some d → publications.Holds e m d) :
    ∀ m, m ≤ e.log.length → ∃ n, Numbered (e.version m) n := by
  refine hL.version_induction (P := fun rows => ∃ n, Numbered rows n) ⟨n, h0⟩ fun m d hm hbefore hafter hn => ?_
  obtain ⟨n, hn⟩ := hn
  rcases hledger m d hm with hsame | ⟨m', hle, v, hadds⟩
  · exact ⟨n, hn.congr hsame⟩
  · refine ⟨n + 1, hn.adds hadds (fun k u hu => ?_) (hafter ▸ hL.version_consistent (m + 1))⟩
    rw [← hbefore]
    exact version_stands hL hle (List.getElem?_eq_some_iff.1 hm).1.le hu

/-! ## What a booking accepts -/

def CurrentSince (L v : Nat) (e : Engine schema) : Prop := ∃ n, L ≤ n ∧ n ≤ e.log.length ∧ Current (e.version n) v

theorem CurrentSince.mono {L v : Nat} {e' : Engine schema} (h : CurrentSince L v e)
    (hlog : e.log.length ≤ e'.log.length) (hversion : ∀ n, n ≤ e.log.length → e'.version n = e.version n) :
    CurrentSince L v e' := by
  obtain ⟨n, hL, hn, hcurrent⟩ := h
  exact ⟨n, hL, Nat.le_trans hn hlog, hversion n hn ▸ hcurrent⟩

abbrev acceptance (u : Tid) (L v : Nat) : Ledger schema where
  Holds e m d := d.by_ = u → L ≤ m → (∃ i, ∃ b : Booking, d.before .bookings i = none ∧ d.writes .bookings i = some b) →
    ∃ n, L ≤ n ∧ n ≤ m ∧ Current (e.version n) v
  stable e e' m d _ _ hversion h hu hL hb := by
    obtain ⟨n, hLn, hn, hcurrent⟩ := h hu hL hb
    exact ⟨n, hLn, hn, hversion n (Nat.le_succ_of_le hn) ▸ hcurrent⟩

abbrev accepting (parties : Tid → Party) (u : Tid) (L v : Nat) : Contract (Parties parties) service Err :=
  (acceptance u L v).contract (Parties parties) fun _ _ _ _ _ => True

variable {L v : Nat}

theorem accepting_historic {u : Tid} : (accepting parties u L v).Historic calm := (acceptance u L v).historic _

theorem view_versions (hL : e.Lawful (Parties parties)) (ht : (parties t).publishes = false) (k : Nat) :
    e.view t .termsVersions k = e.committed .termsVersions k := errand_adds_none hL ht k

theorem accepted_ensures (p : Prg α) (h : CurrentSince L v w.db) :
    (accepting parties t L v).Ensures t p (fun _ w' => CurrentSince L v w'.db) w := by
  refine ensures_mono (fun x w' hx => ?_) (ensures_of_footprint (F := fun _ _ => True) (l := false) (Q := fun _ _ => True)
    (fun _ w => CurrentSince L v w.db) (fun _ _ _ hev _ _ hw => hw.mono hev.db.since.after.log.length_le hev.db.version)
    (fun l o w i r w' _ hlaw hI hw he hlaw' _ => ?_) (uses_all (fun _ _ => trivial) p false) h)
  · obtain ⟨-, -, hx⟩ := hx
    exact hx
  by_cases hc : o = .sql .commit
  · subst hc
    cases he
    obtain ⟨n, hLn, hn, hcurrent⟩ := hw
    have hversion : (w.db.commit t).version n = w.db.version n := Engine.commit_version_le hn
    refine ⟨Ledger.inv_commit hI fun _ _ _ => ⟨n, hLn, hn, hversion.symm ▸ hcurrent⟩, n, hLn, ?_, hversion.symm ▸ hcurrent⟩
    change n ≤ (w.db.log ++ [w.db.entry t]).length
    rw [List.length_append]
    omega
  · obtain ⟨hlog, hcommitted⟩ := World.exec_log hc he
    have hhistoric : (accepting parties t L v).Historic fun _ => true := (acceptance t L v).historic _
    exact ⟨hhistoric.exec hc (fun _ _ => rfl) he hI, hw.mono (Nat.le_of_eq (congrArg List.length hlog.symm))
      fun n _ => Engine.version_congr hlog hcommitted n⟩

theorem prelude_ensures {β : Type} {p : Prg α} {k : α → Prg β} {Q : Except Err β → BWorld → Prop}
    (hp : Within (Writes false (Touches claimTables)) false p) (h : L ≤ w.db.log.length)
    (herr : ∀ e w', Q (.error e) w')
    (hk : ∀ a w', L ≤ w'.db.log.length → (accepting parties t L v).Ensures t (k a) Q w') :
    (accepting parties t L v).Ensures t (p >>= k) Q w := by
  refine ensures_bind (ensures_mono (fun x w' hx => ?_) (ensures_of_footprint (fun _ w => L ≤ w.db.log.length)
    (fun _ _ _ hev _ _ hw => Nat.le_trans hw hev.db.since.after.log.length_le)
    (fun l o w i r w' ho hlaw hI hw he hlaw' _ => ?_) hp h))
  · obtain ⟨-, -, hx⟩ := hx
    cases x with
    | ok a => exact hk a w' hx
    | error e => exact herr e w'
  · have hinside := (touches_inside (t := t) claimTables l o ho).1
    have hc : o ≠ .sql .commit := by
      rintro rfl
      exact hinside
    have hhistoric : (accepting parties t L v).Historic fun _ => true := (acceptance t L v).historic _
    exact ⟨hhistoric.exec hc (fun _ _ => rfl) he hI, by rwa [(World.exec_log hc he).1]⟩

theorem tenantSession_eq (body : Int → Prg α) : tenantSession body = Session.tenantSession body := by
  unfold tenantSession Session.tenantSession
  refine congrArg (Prog.call (Op.sql .begin)) (funext fun n => ?_)
  refine congrArg (Prog.bind (body n).attempt) (funext fun x => ?_)
  cases x <;> rfl

theorem createBooking_accepts {k : BookingClaim → Prg α} (ht : (parties t).publishes = false)
    (h : L ≤ w.db.log.length) :
    (accepting parties t L r.termsVersion).Ensures t (BookingService.createBooking cfg r >>= k) (fun _ _ => True) w := by
  have hhistoric : (accepting parties t L r.termsVersion).Historic fun _ => true := (acceptance t L r.termsVersion).historic _
  unfold BookingService.createBooking
  refine ensures_first (ensures_liftExcept (fun _ _ => trivial) fun _ _ => ?_)
  refine ensures_first (ensures_liftExcept (fun _ _ => trivial) fun phone _ => ?_)
  refine ensures_first (prelude_ensures steady_clock.within h (fun _ _ => trivial) fun n w1 h1 => ?_)
  refine ensures_first (ensures_raiseIf (fun _ => trivial) fun _ => ?_)
  refine ensures_first (prelude_ensures (steady_checkBudgets phone).within h1 (fun _ _ => trivial) fun _ w2 h2 => ?_)
  rw [tenantSession_eq]
  refine Session.ensures_tenantSession hhistoric fun w3 n' hev _ _ => ?_
  have h3 : L ≤ w3.db.log.length := Nat.le_trans h2 hev.db.since.after.log.length_le
  have hcloses : ∀ x w', CurrentSince L r.termsVersion w'.db →
      Session.Closes (accepting parties t L r.termsVersion) t k (fun _ _ => True) x w' := by
    intro x w' hw
    cases x with
    | error e => exact fun _ _ _ => trivial
    | ok a =>
      intro w1 hev1 _ hI _ _
      obtain ⟨m, hLm, hm, hcurrent⟩ := hw.mono hev1.db.since.after.log.length_le hev1.db.version
      have hversion : (w1.db.commit t).version m = w1.db.version m := Engine.commit_version_le hm
      refine ⟨Ledger.inv_commit hI fun _ _ _ => ⟨m, hLm, hm, hversion.symm ▸ hcurrent⟩, ?_⟩
      refine ensures_mono (fun _ _ _ => trivial) (accepted_ensures (k a) ⟨m, hLm, ?_, hversion.symm ▸ hcurrent⟩)
      change m ≤ (w1.db.log ++ [w1.db.entry t]).length
      rw [List.length_append]
      omega
  unfold BookingService.createIn BookingService.typeAndTerms
  have hprove : Within (Writes false (Touches claimTables)) false (BookingService.provePhone phone r.verificationToken n') :=
    (steady_provePhone (fun _ _ _ _ _ => by simp [Touches, claimTables]) phone _ n').within
  have hraise : ∀ (e : Err) w', Session.Closes (accepting parties t L r.termsVersion) t k (fun _ _ => True) (.error e) w' :=
    fun _ _ _ _ _ => trivial
  refine prelude_ensures hprove h3 hraise fun _ w4 h4 => ?_
  refine ensures_first (prelude_ensures (steady_select _ _).within h4 hraise fun found w5 h5 => ?_)
  refine ensures_first (ensures_orRaise (fun _ => hraise _ _) fun a _ => ?_)
  refine ensures_first (ensures_select accepting_historic fun w6 h6 _ _ => ?_)
  refine ensures_first (ensures_raiseIf (fun _ => hraise _ _) fun hfresh => ?_)
  -- the terms that were read are the committed ones, and they are the ones that were submitted
  have hcurrent : CurrentSince L r.termsVersion w6.db := by
    refine ⟨w6.db.log.length, Nat.le_trans h5 h6.since.after.log.length_le, Nat.le_refl _, ?_⟩
    cases hnewest : Terms.newest ⟨w6.db.view t, w6.db.next⟩ with
    | none =>
      rw [hnewest] at hfresh
      cases hfresh
    | some terms =>
      have hspec := newest_spec (s := ⟨w6.db.view t, w6.db.next⟩) (fun k u hu => h6.lawful.view_lt hu) hnewest
      rw [hnewest] at hfresh
      have hsame : terms.version = r.termsVersion := by simpa using hfresh
      rw [← hsame, Engine.version_length]
      simp only [Current, view_versions h6.lawful ht] at hspec ⊢
      exact hspec
  exact ensures_mono (fun x w' hw => hcloses x w' hw) (accepted_ensures _ hcurrent)

theorem books_code (cfg : Config) (h : p.books = some r) :
    p.publishes = false ∧ ∃ k : BookingClaim → Prg Answer, p.code cfg = BookingService.createBooking cfg r >>= k := by
  cases p with
  | createTermsVersion => cases h
  | errand e =>
    refine ⟨rfl, ?_⟩
    cases e with
    | job j =>
      cases j with
      | createBooking r' =>
        cases h
        refine ⟨fun claim => (pure (Reply.claim claim) : Prg Reply) >>= fun reply => pure (.errand reply), ?_⟩
        exact Prog.bind_bind _ _ _
      | postBookings r' =>
        cases h
        refine ⟨fun claim => answerClaim cfg claim >>= fun response => (pure (Reply.created response) : Prg Reply) >>=
          fun reply => pure (.errand reply), ?_⟩
        exact (Prog.bind_bind _ _ _).trans (Prog.bind_bind _ _ _)
      | _ => cases h
    | _ => cases h

/-- **From a state in which the request has not begun**: the version was current at a moment between that and its commit. -/
theorem opening_accepts (h : Tables rows next) {c0 : Conf server Answer}
    (h0 : (opening cfg parties rows next now).Reaches c0) (hr : c0.Reaches c) (hbooks : (parties t).books = some r)
    (hcode : c0.threads t = some ((parties t).code cfg)) (hm : c.state.db.log[m]? = some d) (hby : d.by_ = t)
    (hlater : c0.state.db.log.length ≤ m)
    (hb : ∃ i, ∃ b : Booking, d.before .bookings i = none ∧ d.writes .bookings i = some b) :
    ∃ n, c0.state.db.log.length ≤ n ∧ n ≤ m ∧ Current (c.state.db.version n) r.termsVersion := by
  obtain ⟨hpublishes, k, hk⟩ := books_code cfg hbooks
  have hsafe : ∀ u p, c0.threads u = some p →
      (accepting parties t c0.state.db.log.length r.termsVersion).logic.Safe u p (fun _ _ => True) c0.state := by
    intro u p hp
    by_cases hu : u = t
    · subst hu
      rw [hcode] at hp
      cases hp
      rw [hk]
      exact safe_of_ensures (createBooking_accepts hpublishes (Nat.le_refl _)) fun _ _ _ _ _ _ _ => trivial
    · exact Ledger.safe_of_lawful (fun e _ _ hby => absurd hby hu) fun _ _ => trivial
  have hobeyed := ((opening_obeyed h).steps h0).1
  obtain ⟨hsound, -⟩ := (accepting parties t c0.state.db.log.length r.termsVersion).runs (Q := fun _ _ _ => True) hobeyed
    (fun m d hm _ hL _ => absurd (List.getElem?_eq_some_iff.1 hm).1 (Nat.not_lt.2 hL)) hsafe hr
  exact hsound.inv.2 m d hm hby hlater hb

/-- **Accepted-terms evidence.**  In every reachable state: the versions are `1..n`, each number once; a version stands as it
was written; a publisher that has answered has added one version, one that was refused none; a booking that a request
commits carries the version it named, which was current at a moment between any state in which the request had not begun
and the commit; and what a booking has accepted is never changed. -/
theorem terms_evidence {n : Nat} (h : Tables rows next) (h0 : Numbered rows n)
    (hr : (opening cfg parties rows next now).Reaches c) :
    (∀ m, m ≤ c.state.db.log.length → ∃ n, Numbered (c.state.db.version m) n) ∧
    (∀ (j k : Nat) (v v' : TermsVersion), c.state.db.committed .termsVersions j = some v →
      c.state.db.committed .termsVersions k = some v' → v.version = v'.version → j = k) ∧
    (∀ (m n k : Nat) (v : TermsVersion), m ≤ n → n ≤ c.state.db.log.length → c.state.db.version m .termsVersions k = some v →
      c.state.db.version n .termsVersions k = some v) ∧
    (∀ (t : Tid) (a : Answer), (parties t).publishes = true → c.threads t = some (.ret a) →
      ∃ v d seen, a = .terms v ∧ c.state.db.own t = [d] ∧ Adds d seen v) ∧
    (∀ (t : Tid) (e : Err), (parties t).publishes = true → c.threads t = some (.raise e) → c.state.db.own t = []) ∧
    (∀ (c₀ : Conf server Answer) (t : Tid) (r : CreateRequest), (opening cfg parties rows next now).Reaches c₀ → c₀.Reaches c →
      (parties t).books = some r → c₀.threads t = some ((parties t).code cfg) →
      ∀ (m : Nat) (d : Commit schema) (i : Nat) (b : Booking), c.state.db.log[m]? = some d → d.by_ = t →
        c₀.state.db.log.length ≤ m → d.before .bookings i = none → d.writes .bookings i = some b →
        b.termsVersionAccepted = some r.termsVersion ∧
          ∃ n, c₀.state.db.log.length ≤ n ∧ n ≤ m ∧ Current (c.state.db.version n) r.termsVersion) ∧
    ∀ (m n i : Nat) (b : Booking), m ≤ n → n ≤ c.state.db.log.length → c.state.db.version m .bookings i = some b →
      ∃ b' : Booking, c.state.db.version n .bookings i = some b' ∧ b'.termsVersionAccepted = b.termsVersionAccepted := by
  obtain ⟨hL, hfirst, hledger, hret, hraise⟩ := opening_run h hr
  refine ⟨versions_numbered hL (hfirst.symm ▸ h0) hledger, fun j k v v' hj hk hsame => ?_,
    fun m n k v hmn hn hv => version_stands hL hmn hn hv, fun t a ht ha => ?_, fun t e ht he => hraise t e ht he,
    fun c₀ t r h₀ hr0 hbooks hcode m d i b hm hby hlater hbefore hb => ⟨?_, ?_⟩, fun m n i b hmn hn hb => ?_⟩
  · by_contra hne
    exact of_decide_eq_false (hL.rows.apart .termsVersions j k v v' hj hk hne) hsame
  · have hpublished := hret t a ht ha
    cases a with
    | errand => exact hpublished.elim
    | terms v =>
      obtain ⟨d, seen, hown, hadds⟩ := hpublished
      exact ⟨v, d, seen, rfl, hown, hadds⟩
  · have hentry := hL.entries d (List.mem_of_getElem? hm) .bookings i
    rw [hbefore, show d.after .bookings i = some b from Rows.over_some hb, hby] at hentry
    have hnew : ∀ r, (parties t).books = some r → b.termsVersionAccepted = some r.termsVersion := hentry
    exact hnew r hbooks
  · exact opening_accepts h h₀ hr0 hbooks hcode hm hby hlater ⟨i, b, hbefore, hb⟩
  · have hrow := hL.version_becomes (Cast.plays_common _) hmn hn .bookings i
    rw [hb] at hrow
    obtain ⟨b', hb', hkept⟩ := hrow.some_left
    have hkept' : b'.termsVersionAccepted = Booking.termsVersionAccepted b ∧ b'.termsAcceptedAt = Booking.termsAcceptedAt b := hkept
    exact ⟨b', hb', hkept'.1⟩

/-! ## A policy published under a booking -/

def danaAndOwner : Tid → Party
  | 0 => .errand (.job (.createBooking dana))
  | _ => .createTermsVersion ⟨"more terms", 48, 100, 9⟩

theorem shelf_numbered : Numbered (tableOf shelf) 1 := by
  have hone : ∀ k (v : TermsVersion), tableOf shelf .termsVersions k = some v → v.deletedAt = none ∧ v.version = 1 := by
    intro k v hv
    have hmem := List.mem_singleton.1 (tableOf_some hv).1
    cases hmem
    exact ⟨rfl, rfl⟩
  refine ⟨fun k v hv => (hone k v hv).1, fun m => ⟨?_, fun hm => ⟨1, _, rfl, ?_⟩⟩⟩
  · rintro ⟨k, v, hv, rfl⟩
    rw [(hone k v hv).2]
    exact ⟨Nat.le_refl 1, Nat.le_refl 1⟩
  · exact Nat.le_antisymm hm.1 hm.2

/-- Version 2 is published after Dana has looked at version 1, and before she books. -/
theorem terms_evidence_shop : ∃ c, (opening shop danaAndOwner (tableOf shelf) 5 0).Reaches c ∧ c.state.db.log.length = 2 ∧
    (∃ v d seen, c.threads 1 = some (.ret (.terms v)) ∧ c.state.db.own 1 = [d] ∧ Adds d seen v) ∧
    ∃ n, Numbered (c.state.db.version 2) n := by
  obtain ⟨c, hc, hdone⟩ := Conf.reached_freely (opening shop danaAndOwner (tableOf shelf) 5 0)
    (List.replicate 11 (.call 0 fine) ++ List.replicate 6 (.call 1 fine) ++ List.replicate 14 (.call 0 fine))
    (fun c => decide (c.state.db.log.length = 2 ∧ c.returned 1 = true)) (by decide)
  obtain ⟨hlog, hreturned⟩ := of_decide_eq_true hdone
  obtain ⟨a, ha⟩ := Conf.returned_iff.1 hreturned
  obtain ⟨hversions, -, -, hpublished, -⟩ := terms_evidence shelf_tables shelf_numbered hc
  obtain ⟨v, d, seen, rfl, hown, hadds⟩ := hpublished 1 a rfl ha
  exact ⟨c, hc, hlog, ⟨v, d, seen, ha, hown, hadds⟩, hversions 2 (Nat.le_of_eq hlog.symm)⟩

end Boutique
