import Boutique.Cascade
import Boutique.Offers
/-!
# Taken — an offer taken is a seat booked

What a claim commits: one entry claimed and one booking, or nothing at all; and no other request claims or books.  With
it, the whole account of the waitlist over its runs.
-/
namespace Waitlist

open Txn Session Contract

variable {cfg : Config} {reqs : Tid → Request} {w w' : World schema outside} {t : Tid} {e e' : Engine schema}

def Claims (d : Commit schema) (i : Nat) : Prop :=
  ∃ v : WaitlistEntry, d.before .entries i = some v ∧ v.offered = true ∧
    d.writes .entries i = some ({ v with status := .claimed } : WaitlistEntry)

def Books (d : Commit schema) (b : Nat) : Prop := ∃ r : Booking, d.writes .bookings b = some r

def Request.claiming : Request → Bool
  | .claim .. => true
  | _ => false

/-- **A commit of a claim**: one entry, and one booking of its appointment type. -/
def Takes (d : Commit schema) : Prop :=
  ∃ i b, Claims d i ∧ (∀ j (r : WaitlistEntry), d.writes .entries j = some r → j = i) ∧ Books d b ∧
    (∀ j, Books d j → j = b) ∧ ∀ (v : WaitlistEntry) (r : Booking), d.before .entries i = some v →
      d.writes .bookings b = some r → r.appointmentTypeId = v.appointmentTypeId

def Leaves (d : Commit schema) : Prop :=
  (∀ j (r : WaitlistEntry), d.writes .entries j = some r → r.status ≠ .claimed) ∧ ∀ b, ¬Books d b

def takings (reqs : Tid → Request) : Ledger schema where
  Holds _ _ c := if (reqs c.by_).claiming then Takes c else Leaves c
  stable _ _ _ _ _ _ _ h := h

abbrev taking (reqs : Tid → Request) : Contract lasting.shared outside Err :=
  (takings reqs).contract lasting.shared fun _ _ _ _ _ => True

theorem taking_historic : (taking reqs).Historic fun _ => true := Ledger.historic _

/-! ## Requests that claim nothing -/

def unclaiming : List Kind :=
  [.session, .enter .waiting, .cancel, .offer, .close, .touch, .queue, .remind, .customer, .audit, .keep]

/-- Thread `t` has no claim and no booking in flight. -/
structure Clear (t : Tid) (e : Engine schema) : Prop where
  entries : ∀ i (r : WaitlistEntry), e.pending t .entries i = some r → r.status ≠ .claimed
  bookings : ∀ b (r : Booking), e.pending t .bookings b ≠ some r

theorem Clear.congr (h : Clear t e) (hp : e'.pending t = e.pending t) : Clear t e' :=
  ⟨by rw [hp]; exact h.entries, by rw [hp]; exact h.bookings⟩

theorem apply_unclaiming {g : EntryChange} {v r : WaitlistEntry} (h : EntryChange.apply v g = some r)
    (hg : ∀ n, g ≠ .claim n) : r.status ≠ .claimed := by
  rcases g with _ | ⟨n, s, x, d⟩ | ⟨_ | _⟩ | n <;> simp only [EntryChange.apply] at h
  · split at h <;> cases h
    intro h
    cases h
  · split at h <;> cases h
    intro h
    cases h
  · split at h <;> cases h
    intro h
    cases h
  · split at h <;> cases h
    intro h
    cases h
  · exact absurd rfl (hg n)

theorem Clear.step {o : Op schema outside} {i : Input} {x : o.Res} (h : Clear t w.db) (ho : Among unclaiming o)
    (he : w.exec t o i = some (x, w')) : Clear t w'.db := by
  refine ⟨fun j r hr => ?_, fun b r hr => ?_⟩
  · rcases World.exec_wrote he hr with hp | ⟨g, v, rfl, -, hg⟩ | ⟨r0, rfl, -, rfl⟩
    · exact h.entries j r hp
    · refine apply_unclaiming hg fun n hgeq => ?_
      subst hgeq
      exact absurd (ho .claim rfl) (by decide)
    · have hstatus : WaitlistEntry.status r0 = .waiting := by simpa [unclaiming] using ho (.enter (WaitlistEntry.status r0)) rfl
      simp [stamp, hstatus]
  · rcases World.exec_wrote he hr with hp | ⟨g, v, rfl, -, hg⟩ | ⟨r0, rfl, -, rfl⟩
    · exact h.bookings b r hp
    · cases g
    · exact absurd (ho .book rfl) (by decide)

theorem unclaiming_ensures {α : Type} {p : Prg α} (hreq : (reqs t).claiming = false) (hp : Only (Among unclaiming) p)
    (h : Clear t w.db) : (taking reqs).Ensures t p (fun _ _ => True) w := by
  refine ensures_mono (fun _ _ _ => trivial) (ensures_of_footprint (fun _ w => Clear t w.db)
    (fun _ _ _ hev _ _ h => h.congr hev.db.pending) (fun l o w i r w' ho hL hI hq he hL' hA => ⟨?_, hq.step ho he⟩) (hp false) h)
  by_cases hc : o = .sql .commit
  · subst hc
    cases he
    refine Ledger.inv_commit hI ?_
    show if (reqs t).claiming then _ else _
    rw [hreq]
    exact ⟨hq.entries, fun b ⟨r, hr⟩ => hq.bookings b r hr⟩
  · exact taking_historic.exec hc (fun _ _ => rfl) he hI

/-! ## The claim -/

def beside : List Kind := [.touch, .remind, .customer]

/-- **Where a claim stands**: thread `t` has committed nothing, has the entries `E` and the bookings `B` in flight, and
found its entries as `F`. -/
structure Standing (t : Tid) (F E : Nat → Option WaitlistEntry) (B : Nat → Option Booking) (e : Engine schema) : Prop where
  own : e.own t = []
  entries : e.pending t .entries = E
  bookings : e.pending t .bookings = B
  found : ∀ i (r : WaitlistEntry), E i = some r → e.committed .entries i = F i

variable {F E : Nat → Option WaitlistEntry} {B : Nat → Option Booking}

theorem Standing.evolves (h : Standing t F E B e) (hev : e.Evolves lasting.shared t e') : Standing t F E B e' :=
  ⟨hev.since.own.trans h.own, by rw [hev.pending]; exact h.entries, by rw [hev.pending]; exact h.bookings,
    fun i r hr => (hev.owned Table.entries i r (by rw [h.entries]; exact hr)).trans (h.found i r hr)⟩

theorem Standing.congr (h : Standing t F E B e) (hl : e'.log = e.log) (hc : e'.committed = e.committed)
    (hentries : e'.pending t Table.entries = e.pending t Table.entries)
    (hbookings : e'.pending t Table.bookings = e.pending t Table.bookings) : Standing t F E B e' :=
  ⟨by rw [Engine.own, hl]; exact h.own, hentries.trans h.entries, hbookings.trans h.bookings, by rw [hc]; exact h.found⟩

theorem Standing.step {o : Op schema outside} {i : Input} {x : o.Res} (h : Standing t F E B w.db) (ho : Among beside o)
    (he : w.exec t o i = some (x, w')) : Standing t F E B w'.db := by
  have hin : o.Inside := by
    cases o with
    | now | ask => trivial
    | sql o =>
      cases o with
      | commit | abort => exact absurd (ho .session rfl) (by decide)
      | begin | read | update | insert | lock => trivial
  have hlog := World.exec_log (fun hc => by subst hc; exact hin) he
  refine h.congr hlog.1 hlog.2 (World.exec_pending hin (fun j g hc => ?_) (fun r hc => ?_) he)
    (World.exec_pending hin (fun j g _ => by cases g) (fun r hc => ?_) he)
  · subst hc
    cases g <;> exact absurd (ho _ rfl) (by decide)
  · subst hc
    have := ho (.enter (WaitlistEntry.status r)) rfl
    simp [beside] at this
  · subst hc
    exact absurd (ho .book rfl) (by decide)

section Claim

variable {α β : Type} {Q : Except Err β → World schema outside → Prop}

theorem beside_bind {p : Prg α} {k : α → Prg β} (hp : Only (Among beside) p) (h : Standing t F E B w.db)
    (herr : ∀ e w', Standing t F E B w'.db → Q (.error e) w')
    (hk : ∀ a w', Standing t F E B w'.db → (taking reqs).Ensures t (k a) Q w') :
    (taking reqs).Ensures t (p >>= k) Q w := by
  refine ensures_bind (ensures_mono (fun x w' hx => ?_) (ensures_of_footprint (fun _ w => Standing t F E B w.db)
    (fun _ _ _ hev _ _ h => h.evolves hev.db) (fun l o w i r w' ho hL hI hq he hL' hA => ⟨?_, hq.step ho he⟩) (hp false) h))
  · obtain ⟨-, -, hx⟩ := hx
    cases x with
    | ok a => exact hk a w' hx
    | error e => exact herr e w' hx
  · refine taking_historic.exec (fun hc => ?_) (fun _ _ => rfl) he hI
    subst hc
    exact absurd (ho .session rfl) (by decide)

def vacant {α : Type} : Nat → Option α := fun _ => none

theorem resolve_ensures {token : Nat} {k : WaitlistEntry → Prg β} (h : Standing t F E B w.db)
    (herr : ∀ e w', Standing t F E B w'.db → Q (.error e) w')
    (hk : ∀ entry w', Standing t F E B w'.db → InPair t entry.id entry.pair w'.db →
      (taking reqs).Ensures t (k entry) Q w') :
    (taking reqs).Ensures t (WaitlistOfferService.resolve token >>= k) Q w := by
  refine ensures_first (ensures_first (Session.ensures_select taking_historic fun w1 hev hL hI _ _ => ?_))
  have h1 : Standing t F E B (w1.db.look t) := (h.evolves hev.db).congr rfl rfl rfl rfl
  generalize hrows : (((⟨w1.db.view t, w1.db.next⟩ : Snapshot schema).all Table.entries).filter _) = rows
  match rows, hrows with
  | [], _ => exact herr _ _ h1
  | [entry], hrows =>
    refine ensures_first (Session.ensures_orRaise nofun fun x hx => ensures_first (Session.ensures_raiseIf
      (fun _ => herr _ _ h1) fun _ => hk x _ h1 ?_))
    cases hx
    have hmem : entry ∈ (⟨w1.db.view t, w1.db.next⟩ : Snapshot schema).all Table.entries :=
      (List.mem_filter.1 (hrows ▸ List.mem_singleton_self entry)).1
    obtain ⟨j, -, hj⟩ := Snapshot.mem_all.1 hmem
    have hid : entry.id = j := (hL.view_consistent t).id Table.entries j entry hj
    exact ⟨entry, by rw [hid]; exact hj, rfl⟩
  | _ :: _ :: _, _ => exact herr _ _ h1

theorem claimEntry_ensures {i : Nat} {p : Int × Nat} {now : Int} {k : Unit → Prg β} (h : Standing t vacant vacant vacant w.db)
    (hi : InPair t i p w.db) (herr : ∀ e w' F E B, Standing t F E B w'.db → Q (.error e) w')
    (hk : ∀ (v : WaitlistEntry) w', v.offered = true → v.pair = p → Standing t (fun _ => some v)
      (Function.update vacant i (some { v with status := .claimed })) vacant w'.db → (taking reqs).Ensures t (k ()) Q w') :
    (taking reqs).Ensures t (WaitlistOfferService.claimEntry i now >>= k) Q w := by
  refine ensures_first (ensures_first (Session.ensures_update taking_historic
    (fun w1 hev _ _ => herr _ _ _ _ _ (h.evolves hev.db)) (fun w1 hev _ _ _ => ?_) fun w1 v r hev _ hv hr _ _ _ => ?_))
  · exact ensures_first (beside_bind (only_select (among_read _) _) (h.evolves hev.db)
      (fun e w' h' => herr e w' _ _ _ h') fun _ w' h' => herr _ w' _ _ _ h')
  · have h1 := h.evolves hev.db
    obtain ⟨v', hv', hp⟩ := hi.evolves hev.db
    rw [hv] at hv'
    cases hv'
    have hr' : EntryChange.apply v (.claim now) = some r := hr
    simp only [EntryChange.apply] at hr'
    split at hr'
    · rename_i hc
      cases hr'
      refine hk v _ hc.1 hp ⟨h1.own, ?_, ?_, fun j x hx => ?_⟩
      · rw [← h1.entries]
        simp [Engine.write, Rows.set]
      · rw [← h1.bookings]
        exact Engine.write_beside (by decide)
      · by_cases hj : j = i
        · subst hj
          have hfree : w1.db.pending t Table.entries j = none := by
            rw [h1.entries]
            rfl
          rwa [Engine.view, Rows.over_none hfree] at hv
        · rw [Function.update_of_ne hj] at hx
          cases hx
    · cases hr'

theorem claimSeat_ensures {startsAt now : Int} {customerId typeId termsVersion token : Nat} {due : Bool} {k : Booking → Prg β}
    (h : Standing t F E vacant w.db) (herr : ∀ e w' B, Standing t F E B w'.db → Q (.error e) w')
    (hk : ∀ a b (r : Booking) w', r.appointmentTypeId = typeId →
      Standing t F E (Function.update vacant b (some r)) w'.db → (taking reqs).Ensures t (k a) Q w') :
    (taking reqs).Ensures t (claimSeat cfg startsAt now customerId typeId termsVersion token due >>= k) Q w := by
  refine ensures_first (beside_bind (p := advisoryLock) (fun _ => ⟨among_none rfl, fun _ => trivial⟩) h
    (fun e w' h' => herr e w' _ h') fun _ w1 h1 => ensures_first (beside_bind (within_offeredSlot _ _ _) h1
      (fun e w' h' => herr e w' _ h') fun offered w2 h2 => ensures_first (Session.ensures_orRaise
        (fun _ => herr _ _ _ h2) fun slot _ => ensures_first (beside_bind (only_select (among_read _) _) h2
          (fun e w' h' => herr e w' _ h') fun seats w3 h3 => ensures_first (Session.ensures_orRaise
            (fun _ => herr _ _ _ h3) fun seatIndex _ => ?_)))))
  refine ensures_first (ensures_first (ensures_bind ?_))
  rw [Ensures, Prog.wp_attempt]
  refine ensures_last (Session.ensures_insert taking_historic (fun w4 n hev _ _ => ?_) fun w4 hev _ _ _ => ?_)
  · exact herr _ _ _ ((h3.evolves hev.db).congr rfl rfl rfl rfl)
  · have h4 := h3.evolves hev.db
    have hwrote : ∀ r : Booking, Standing t F E (Function.update vacant w4.db.next (some r))
        (({ w4.db with next := w4.db.next + 1 } : Engine schema).write t Table.bookings w4.db.next r) := by
      refine fun r => ⟨h4.own, ?_, ?_, h4.found⟩
      · rw [← h4.entries]
        exact Engine.write_beside (by decide)
      · rw [← h4.bookings]
        simp [Engine.write, Rows.set]
    refine ensures_first (Session.ensures_orRaise (x := some _) (fun h => by cases h) fun booking hbooking => ?_)
    cases hbooking
    split
    · exact hk _ _ _ _ rfl (hwrote _)
    · exact ensures_first (beside_bind (only_insert (among_kind rfl (by decide)) _) (hwrote _)
        (fun e w' h' => herr e w' _ h') fun _ w' h' => hk _ _ _ w' rfl h')

def Left (t : Tid) : Except Err Response → World schema outside → Prop
  | .ok _, _ => True
  | .error _, w => w.db.own t = [] ∧ w.db.pending t = fun _ _ => none

theorem claim_ensures {token : Nat} {name : String} {termsVersion : Nat} (hreq : (reqs t).claiming = true)
    (hidle : w.db.pending t = fun _ _ => none) (hown : w.db.own t = []) :
    (taking reqs).Ensures t (WaitlistOfferService.claim cfg token name termsVersion) (Left t) w := by
  unfold WaitlistOfferService.claim
  split
  · exact ⟨hown, hidle⟩
  refine Session.ensures_now taking_historic fun w1 hev1 _ _ => ensures_last (Session.ensures_tenantSession taking_historic
    fun w2 n hev2 _ _ => ?_)
  have hpending : w2.db.pending t = fun _ _ => none := (hev2.db.pending.trans hev1.db.pending).trans hidle
  have h2 : Standing t vacant vacant vacant w2.db := ⟨(hev2.db.since.own.trans hev1.db.since.own).trans hown,
    by rw [hpending]; rfl, by rw [hpending]; rfl, fun i r hi => by cases hi⟩
  have herr : ∀ (e : Err) (w' : World schema outside) F E B, Standing t F E B w'.db →
      Closes (taking reqs) t (pure : Response → Prg Response) (Left t) (.error e) w' := by
    intro e w' F E B h w3 hev _
    exact ⟨(h.evolves hev.db).own, Engine.release_pending_self⟩
  refine resolve_ensures (h2.congr rfl rfl rfl rfl) (fun e w' h' => herr e w' _ _ _ h') fun entry w3 h3 hi3 => ?_
  refine Session.ensures_ask taking_historic rfl fun w4 x m hev4 _ _ _ => Session.ensures_raiseIf
    (fun _ => herr _ _ _ _ _ ((h3.evolves hev4.db).congr rfl rfl rfl rfl)) fun _ =>
    Session.ensures_ask taking_historic rfl fun w5 y l hev5 _ _ _ => ?_
  have h5 : Standing t vacant vacant vacant w5.db := ((h3.evolves hev4.db).evolves hev5.db)
  have hi5 : InPair t entry.id entry.pair w5.db := ((hi3.evolves hev4.db).evolves hev5.db)
  refine Session.ensures_raiseIf (fun _ => herr _ _ _ _ _ (h5.congr rfl rfl rfl rfl)) fun _ =>
    Session.ensures_orRaise (fun _ => herr _ _ _ _ _ (h5.congr rfl rfl rfl rfl)) fun startsAt _ =>
    claimEntry_ensures (h5.congr rfl rfl rfl rfl) hi5 (fun e w' F E B h' => herr e w' _ _ _ h') fun v w6 hoffered hpair h6 => ?_
  refine beside_bind (within_cancelPending (by decide) _) h6 (fun e w' h' => herr e w' _ _ _ h') fun _ w7 h7 =>
    beside_bind (within_ask _ rfl) h7 (fun e w' h' => herr e w' _ _ _ h') fun due w8 h8 =>
    beside_bind (within_upsert (by decide) _ _) h8 (fun e w' h' => herr e w' _ _ _ h') fun customer w9 h9 =>
    beside_bind (within_ask _ rfl) h9 (fun e w' h' => herr e w' _ _ _ h') fun manageToken w10 h10 =>
    claimSeat_ensures h10 (fun e w' B h' => herr e w' _ _ _ h') fun booking b row w11 htype h11 => ?_
  intro w12 hev hL hI _ _
  refine ⟨Ledger.inv_commit hI ?_, trivial⟩
  show if (reqs t).claiming then _ else _
  rw [if_pos hreq]
  have h := h11.evolves hev.db
  have hentries : ∀ j (x : WaitlistEntry), w12.db.pending t .entries j = some x → j = entry.id := by
    intro j x hx
    rw [h.entries] at hx
    by_contra hj
    rw [Function.update_of_ne hj] at hx
    cases hx
  have hbookings : ∀ j (x : Booking), w12.db.pending t .bookings j = some x → j = b ∧ x = row := by
    intro j x hx
    rw [h.bookings] at hx
    by_cases hj : j = b
    · subst hj
      rw [Function.update_self] at hx
      exact ⟨rfl, (Option.some.inj hx).symm⟩
    · rw [Function.update_of_ne hj] at hx
      cases hx
  have hfound : w12.db.committed .entries entry.id = some v :=
    h.found entry.id _ (Function.update_self ..)
  refine ⟨entry.id, b, ⟨v, hfound, hoffered, ?_⟩, hentries, ⟨row, ?_⟩, fun j ⟨x, hx⟩ => (hbookings j x hx).1,
    fun u x hu hx => ?_⟩
  · show w12.db.pending t .entries entry.id = _
    rw [h.entries, Function.update_self]
  · show w12.db.pending t .bookings b = _
    rw [h.bookings, Function.update_self]
  · rw [show u = v from Option.some.inj (hu.symm.trans hfound), (hbookings b x hx).2, htype]
    exact (congrArg Prod.snd hpair).symm

end Claim

/-! ## Whole runs -/

section Runs

variable {rows : Rows schema} {next : Nat} {clock : Int} {c : Conf (machine schema outside Err) Response}

theorem texts_runs (h : Shelved rows next) (hlinked : Linked rows)
    (hr : Conf.Reaches (serving cfg reqs rows next clock) c) : Texts c.state.db := by
  have hI : texts.Inv (serving cfg reqs rows next clock).state := ⟨hlinked, nofun⟩
  have hsafe : ∀ t p, (serving cfg reqs rows next clock).threads t = some p →
      texts.logic.Safe t p (fun _ _ => True) (serving cfg reqs rows next clock).state := by
    intro t p hp
    cases hp
    exact safe_of_ensures (request_texts (reqs t) (balanced_idle hlinked rfl)) fun _ _ _ _ _ _ _ => trivial
  exact (texts.runs (Q := fun _ _ _ => True) (serving_obeyed h) hI hsafe hr).1.inv.2

def Ended (reqs : Tid → Request) (t : Tid) (x : Except Err Response) (w : World schema outside) : Prop :=
  (reqs t).claiming = true → Left t x w

theorem request_taking (h : Clear t w.db) (hidle : w.db.pending t = fun _ _ => none) (hown : w.db.own t = []) :
    (taking reqs).Ensures t ((reqs t).code cfg) (Ended reqs t) w := by
  cases hreq : reqs t with
  | claim token name termsVersion =>
    exact ensures_mono (fun x w' hx _ => hx) (claim_ensures (by rw [hreq]; rfl) hidle hown)
  | tick =>
    exact ensures_mono (fun x w' hx hc => by rw [hreq] at hc; cases hc) (unclaiming_ensures (by rw [hreq]; rfl)
      (only_bind (within_tick (by decide) (by decide) (by decide) (by decide) (by decide) (by decide) cfg) fun _ => only_ret _) h)
  | join phone token day typeId =>
    exact ensures_mono (fun x w' hx hc => by rw [hreq] at hc; cases hc) (unclaiming_ensures (by rw [hreq]; rfl)
      (within_join (by decide) (by decide) cfg phone token day typeId) h)
  | cancelEntry entryId actorId =>
    exact ensures_mono (fun x w' hx hc => by rw [hreq] at hc; cases hc) (unclaiming_ensures (by rw [hreq]; rfl)
      (within_cancelEntry (by decide) (by decide) (by decide) (by decide) entryId actorId) h)
  | decline token =>
    exact ensures_mono (fun x w' hx hc => by rw [hreq] at hc; cases hc) (unclaiming_ensures (by rw [hreq]; rfl)
      (within_decline (by decide) (by decide) (by decide) token) h)
  | drain =>
    exact ensures_mono (fun x w' hx hc => by rw [hreq] at hc; cases hc) (unclaiming_ensures (by rw [hreq]; rfl)
      (within_drain (by decide) (by decide)) h)

theorem takings_runs (h : Shelved rows next) (hr : Conf.Reaches (serving cfg reqs rows next clock) c) :
    (∀ d ∈ c.state.db.log, if (reqs d.by_).claiming then Takes d else Leaves d) ∧
      ∀ t e, c.threads t = some (.raise e) → Ended reqs t (.error e) c.state := by
  have hI : (taking reqs).Inv (serving cfg reqs rows next clock).state := nofun
  have hsafe : ∀ t p, (serving cfg reqs rows next clock).threads t = some p →
      (taking reqs).logic.Safe t p (Ended reqs t) (serving cfg reqs rows next clock).state := by
    intro t p hp
    cases hp
    have hclear : Clear t (serving cfg reqs rows next clock).state.db :=
      ⟨fun i r hi => (by cases hi), fun b r hb => (by cases hb)⟩
    refine safe_of_ensures (request_taking hclear rfl rfl) fun x w w' hx hev _ _ hreq => ?_
    have hleft := hx hreq
    cases x with
    | ok r => trivial
    | error e => exact ⟨hev.db.since.own.trans hleft.1, hev.db.pending.trans hleft.2⟩
  obtain ⟨hsound, -⟩ := (taking reqs).runs (Q := Ended reqs) (serving_obeyed h) hI hsafe hr
  refine ⟨fun d hd => ?_, fun t e ht => hsound.raised ht⟩
  obtain ⟨m, hm⟩ := List.mem_iff_getElem?.1 hd
  exact hsound.inv.2 m d hm

theorem claimed_after (hL : e.Lawful lasting.shared) {m n i : Nat} {d : Commit schema} (hd : e.log[m]? = some d)
    (h : Claims d i) (hmn : m < n) (hn : n ≤ e.log.length) :
    ∃ v : WaitlistEntry, e.version n .entries i = some v ∧ v.status = .claimed := by
  obtain ⟨v, -, -, hw⟩ := h
  have hafter : e.version (m + 1) .entries i = some ({ v with status := .claimed } : WaitlistEntry) := by
    rw [hL.linked m d hd, Commit.after, Rows.over_some hw]
  have hrow := hL.version_becomes (Cast.plays_common _) hmn hn Table.entries i
  rw [hafter] at hrow
  obtain ⟨r, hr, hlasts⟩ := hrow.some_left
  have hlasts : Lasts { v with status := .claimed } r := hlasts
  exact ⟨r, hr, hlasts.claimed rfl⟩

theorem claim_once (hL : e.Lawful lasting.shared) {m m' i : Nat} {d d' : Commit schema} (hd : e.log[m]? = some d)
    (hd' : e.log[m']? = some d') (h : Claims d i) (h' : Claims d' i) : ¬m < m' := by
  intro hlt
  obtain ⟨r, hr, hclaimed⟩ := claimed_after hL hd h hlt (List.getElem?_eq_some_iff.1 hd').1.le
  obtain ⟨v, hv, hoffered, -⟩ := h'
  have hbefore : e.version m' = d'.before := by simp [Engine.version, hd']
  rw [hbefore, hv] at hr
  cases hr
  rw [offered_status hoffered] at hclaimed
  cases hclaimed

/-- **The account of the waitlist**: in every state of every run, a queued text is about an entry that is offered, with
the token whose hash the entry holds, and no entry has two; an entry that has become claimed was claimed by one commit,
of a claim, which found it offered, claimed nothing else and booked one seat, and every booking comes with such a claim;
and a claim that fails has committed nothing and has nothing in flight. -/
theorem offers_kept (h : Shelved rows next) (hlinked : Linked rows)
    (hr : Conf.Reaches (serving cfg reqs rows next clock) c) :
    Linked c.state.db.committed ∧
    (∀ k k' (m m' : ScheduledMessage) i, c.state.db.committed .messages k = some m →
      c.state.db.committed .messages k' = some m' → Queued m i → Queued m' i → k = k') ∧
    (∀ i, ((∃ v : WaitlistEntry, c.state.db.committed .entries i = some v ∧ v.status = .claimed) ∧
        ¬∃ v : WaitlistEntry, rows .entries i = some v ∧ v.status = .claimed) →
      ∃ d ∈ c.state.db.log, Claims d i) ∧
    (∀ d ∈ c.state.db.log, ∀ i, Claims d i →
      ∃ v : WaitlistEntry, c.state.db.committed .entries i = some v ∧ v.status = .claimed) ∧
    (∀ d ∈ c.state.db.log, ((∃ i, Claims d i) ↔ ∃ b, Books d b) ∧
      ((∃ b, Books d b) → (reqs d.by_).claiming = true ∧ Takes d)) ∧
    (∀ (m m' : Nat) (d d' : Commit schema) i, c.state.db.log[m]? = some d → c.state.db.log[m']? = some d' →
      Claims d i → Claims d' i → m = m') ∧
    ∀ t e, c.threads t = some (.raise e) → (reqs t).claiming = true →
      c.state.db.own t = [] ∧ c.state.db.pending t = fun _ _ => none := by
  have hob : Cast.Obeyed lasting.shared (serving cfg reqs rows next clock) := serving_obeyed h
  have hL := (hob.steps hr).1.lawful
  have hversion : c.state.db.version 0 = rows := ((serving_obeyed h).history hr).2 0 (Nat.le_refl 0)
  have htexts := texts_runs h hlinked hr
  obtain ⟨hledger, hraised⟩ := takings_runs h hr
  have hclaims : ∀ d ∈ c.state.db.log, ((∃ i, Claims d i) ↔ ∃ b, Books d b) ∧
      ((∃ b, Books d b) → (reqs d.by_).claiming = true ∧ Takes d) := by
    intro d hd
    have hdeed := hledger d hd
    split at hdeed
    · rename_i hreq
      have htakes := hdeed
      obtain ⟨i, b, hi, -, hb, -⟩ := hdeed
      exact ⟨⟨fun _ => ⟨b, hb⟩, fun _ => ⟨i, hi⟩⟩, fun _ => ⟨hreq, htakes⟩⟩
    · obtain ⟨hentries, hbookings⟩ := hdeed
      refine ⟨⟨fun ⟨i, v, _, _, hw⟩ => absurd rfl (hentries i _ hw), fun ⟨b, hb⟩ => absurd hb (hbookings b)⟩,
        fun ⟨b, hb⟩ => absurd hb (hbookings b)⟩
  refine ⟨htexts.linked, fun k k' m m' i hm hm' hq hq' => ?_, fun i ⟨hnow, hthen⟩ => ?_, fun d hd i hi => ?_, hclaims,
    fun m m' d d' i hd hd' hi hi' => ?_, fun t e ht hreq => hraised t e ht hreq⟩
  · by_contra hne
    have hapart := hL.rows.apart Table.messages k k' m m' hm hm' hne
    simp [clash, hq.pending, hq'.pending, hq.subject, hq'.subject] at hapart
  · obtain ⟨k, d, -, -, hd, hnot, v, hv, hstatus⟩ := hL.version_crossing (T := Table.entries) (i := i)
      (P := fun x => ∃ v : WaitlistEntry, x = some v ∧ v.status = .claimed) (Nat.zero_le _) (Nat.le_refl _)
      (by rw [hversion]; exact hthen) (by rw [Engine.version_length]; exact hnow)
    have hmem := List.mem_of_getElem? hd
    cases hw : d.writes Table.entries i with
    | none =>
      rw [Commit.after, Rows.over_none hw] at hv
      exact absurd ⟨v, hv, hstatus⟩ hnot
    | some r =>
      rw [Commit.after, Rows.over_some hw] at hv
      cases hv
      have hdeed := hledger d hmem
      split at hdeed
      · obtain ⟨j, b, hj, honly, -⟩ := hdeed
        rw [honly i v hw]
        exact ⟨d, hmem, hj⟩
      · exact absurd hstatus (hdeed.1 i v hw)
  · obtain ⟨m, hm⟩ := List.mem_iff_getElem?.1 hd
    have hlt := (List.getElem?_eq_some_iff.1 hm).1
    obtain ⟨v, hv, hstatus⟩ := claimed_after hL hm hi hlt (Nat.le_refl _)
    rw [Engine.version_length] at hv
    exact ⟨v, hv, hstatus⟩
  · have hlt := claim_once hL hd hd' hi hi'
    have hgt := claim_once hL hd' hd hi' hi
    omega

end Runs

/-! ## An offer made and taken -/

def offeredThenTaken : Tid → Request := fun t => if t = 0 then .tick else .claim 100 "Dana" 1

theorem twoWaiting_linked : Linked (listed (S := schema) twoWaiting) := by
  intro k m i hm
  have hmem : m ∈ twoWaiting .messages := List.mem_of_find?_eq_some hm
  simp [twoWaiting] at hmem

theorem offers_kept_taken : ∃ c, (serving twoHours offeredThenTaken (listed (S := schema) twoWaiting) 2 0).Reaches c ∧
    c.state.db.log.length = 2 ∧ ((c.state.db.committed Table.entries 0 : Option WaitlistEntry).map (·.status) = some .claimed) ∧
    ∃ d ∈ c.state.db.log, Claims d 0 := by
  obtain ⟨c, hc, hP⟩ := Conf.reached_freely (serving twoHours offeredThenTaken (listed (S := schema) twoWaiting) 2 0)
    (calls 0 15 100 ++ List.replicate 20 (.call 1 ⟨true, 1, none, [friday], [], .delivered⟩))
    (fun c => decide (c.state.db.log.length = 2 ∧
      (c.state.db.committed Table.entries 0 : Option WaitlistEntry).map (·.status) = some .claimed)) (by decide)
  obtain ⟨hlog, hstatus⟩ := of_decide_eq_true hP
  obtain ⟨v, hv, hclaimed⟩ := Option.map_eq_some_iff.1 hstatus
  refine ⟨c, hc, hlog, hstatus, (offers_kept twoWaiting_shelved twoWaiting_linked hc).2.2.1 0 ⟨⟨v, hv, hclaimed⟩, ?_⟩⟩
  rintro ⟨u, hu, hwas⟩
  have hm : u ∈ twoWaiting .entries := List.mem_of_find?_eq_some hu
  simp only [twoWaiting, List.mem_cons, List.not_mem_nil, or_false] at hm
  rcases hm with rfl | rfl <;> cases hwas

end Waitlist
