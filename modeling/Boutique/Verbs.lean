import Boutique.Waitlist
/-!
# Verbs — what each request of the waitlist may write

The kinds of statement each request issues, and what a row of an entry or of a text becomes under any of them.
-/
namespace Waitlist

open Txn Session Contract

variable {t : Tid} {e e' : Engine schema}

/-! ## What an entry keeps -/

structure Lasts (v r : WaitlistEntry) : Prop where
  pair : r.pair = v.pair
  phone : r.phone = v.phone
  claimed : v.status = .claimed → r.status = .claimed

theorem Lasts.refl (v : WaitlistEntry) : Lasts v v := ⟨rfl, rfl, id⟩

theorem Lasts.trans {a b c : WaitlistEntry} (h : Lasts a b) (h' : Lasts b c) : Lasts a c :=
  ⟨h'.pair.trans h.pair, h'.phone.trans h.phone, fun ha => h'.claimed (h.claimed ha)⟩

variable {v : WaitlistEntry} {o : Op schema outside} {α : Type} {P : Op schema outside → Prop}

theorem offered_status (h : v.offered = true) : v.status = .offered := by
  simp [WaitlistEntry.offered] at h
  exact h.2

theorem waiting_status (h : v.waiting = true) : v.status = .waiting := by
  simp [WaitlistEntry.waiting] at h
  exact h.2

theorem lasts_apply {g : EntryChange} {r : WaitlistEntry} (h : EntryChange.apply v g = some r) : Lasts v r := by
  rcases g with _ | _ | ⟨_ | _⟩ | _ <;> simp only [EntryChange.apply] at h
  all_goals (split at h <;> cases h)
  · rename_i hc
    refine ⟨rfl, rfl, fun hv => ?_⟩
    simp [WaitlistEntry.active, hv] at hc
  · rename_i hc
    exact ⟨rfl, rfl, fun hv => by rw [waiting_status hc] at hv; cases hv⟩
  · rename_i hc
    exact ⟨rfl, rfl, fun hv => by rw [offered_status hc] at hv; cases hv⟩
  · rename_i hc
    exact ⟨rfl, rfl, fun hv => by rw [offered_status hc] at hv; cases hv⟩
  · exact ⟨rfl, rfl, fun _ => rfl⟩

def Kept (m r : ScheduledMessage) : Prop := r.pending = true → r = m

theorem kept_apply {g : MessageChange} {m r : ScheduledMessage} (h : MessageChange.apply m g = some r) : Kept m r := by
  intro hr
  cases g <;> simp only [MessageChange.apply] at h
  all_goals (split at h <;> cases h)
  · simp [ScheduledMessage.pending] at hr
  · rfl
  · rename_i status _
    cases status <;> simp [ScheduledMessage.pending, Mark.status] at hr

def lastsIn : (T : Table) → Row T → Row T → Prop
  | .entries, (v : WaitlistEntry), (r : WaitlistEntry) => Lasts v r
  | .messages, (m : ScheduledMessage), (r : ScheduledMessage) => Kept m r
  | _, _, _ => True

abbrev lasting : Discipline schema where
  Trans _ T v r := lastsIn T v r
  New _ _ _ := True
  refl _ T v := by
    cases T with
    | entries => exact Lasts.refl v
    | messages => exact fun _ => rfl
    | bookings | customers | auditLog => trivial
  trans _ T a b c hab hbc := by
    cases T with
    | entries => exact Lasts.trans hab hbc
    | messages =>
      intro hc
      have hbc : c = b := hbc hc
      subst hbc
      exact hab hc
    | bookings | customers | auditLog => trivial
  weaken _ _ _ h := h
  new_trans _ _ _ _ _ _ := trivial
  new_weaken _ _ _ := trivial

theorem legal_lasting (l : Bool) (o : Op schema outside) : lasting.Legal l o := by
  cases o with
  | sql o =>
    cases o with
    | update T i g =>
      intro v r _ hr
      cases T with
      | entries => exact lasts_apply hr
      | messages => exact kept_apply hr
      | bookings | customers | auditLog => trivial
    | insert T r => exact fun _ _ => trivial
    | _ => trivial
  | now | ask => trivial

def InPair (t : Tid) (i : Nat) (p : Int × Nat) (e : Engine schema) : Prop :=
  ∃ v : WaitlistEntry, e.view t .entries i = some v ∧ v.pair = p

theorem InPair.evolves {i : Nat} {p : Int × Nat} (h : InPair t i p e) (hev : e.Evolves lasting.shared t e') :
    InPair t i p e' := by
  obtain ⟨v, hv, hp⟩ := h
  have hrow := hev.view Table.entries i
  rw [hv] at hrow
  obtain ⟨r, hr, hlasts⟩ := hrow.some_left
  have hlasts : Lasts v r := hlasts
  exact ⟨r, hr, hlasts.pair.trans hp⟩

theorem InPair.look {i : Nat} {p : Int × Nat} (h : InPair t i p e) : InPair t i p (e.look t) := h

/-! ## Footprints -/

inductive Kind
  | session
  | enter (status : Boutique.WaitlistEntryStatus)
  | cancel | offer | close | claim
  | touch | queue | remind
  | book | customer | audit
  | keep
deriving DecidableEq

def kind : Op schema outside → Option Kind
  | .sql .begin | .sql .commit | .sql .abort => some .session
  | .sql (.insert .entries r) => some (.enter (WaitlistEntry.status r))
  | .sql (.update .entries _ .cancel) => some .cancel
  | .sql (.update .entries _ (.offer ..)) => some .offer
  | .sql (.update .entries _ (.closeOffer _)) => some .close
  | .sql (.update .entries _ (.claim _)) => some .claim
  | .sql (.update .messages _ _) => some .touch
  | .sql (.insert .messages m) => match ScheduledMessage.subject m with
    | .entry _ => some .queue
    | .booking _ => some .remind
  | .sql (.insert .bookings _) => some .book
  | .sql (.update .customers _ _) | .sql (.insert .customers _) => some .customer
  | .sql (.insert .auditLog _) => some .audit
  | .ask (.keepCursor _) => some .keep
  | _ => none

def Among (ks : List Kind) (o : Op schema outside) : Prop := ∀ k, kind o = some k → k ∈ ks

variable {ks : List Kind}

theorem among_none (h : kind o = none) : Among ks o := fun k hk => by rw [h] at hk; cases hk

theorem among_kind {k : Kind} (h : kind o = some k) (hk : k ∈ ks) : Among ks o := by
  intro k' hk'
  rw [h] at hk'
  cases hk'
  exact hk

theorem among_read (q : Query) : Among ks (.sql (.read q)) := among_none rfl

theorem Among.mono {ks' : List Kind} (h : Among ks o) (hsub : ks ⊆ ks') : Among ks' o :=
  fun k hk => hsub (h k hk)

theorem only_scalar (rows : List α) : Only P (scalarOneOrNone rows) := by
  unfold scalarOneOrNone
  split
  · exact only_ret _
  · exact only_ret _
  · exact only_raise _

theorem only_unlessRefused {p : Prg α} (h : Only P p) : Only P (unlessRefused p) := by
  refine only_bind (only_attempt h) fun x => ?_
  split
  · exact only_ret _
  · exact only_ret _
  · exact only_raise _

theorem within_session {body : Int → Prg α} (hs : .session ∈ ks) (h : ∀ n, Only (Among ks) (body n)) :
    Only (Among ks) (tenantSession body : Prg α) :=
  only_tenantSession (among_kind rfl hs) (among_kind rfl hs) (among_kind rfl hs) h

theorem within_now : Only (Among ks) (Session.now : Prg Int) := only_now (among_none rfl)

theorem within_ask (q : Ask) (hq : kind (.ask q) = none) : Only (Among ks) (ask q) := only_ask (among_none hq)

theorem within_cancelPending (ht : .touch ∈ ks) (entryId : Nat) : Only (Among ks) (Scheduled.cancelPendingForEntry entryId) :=
  only_bind (only_select (among_read _) _) fun _ => only_bind (only_updateEach (fun _ => among_kind rfl ht) _ _) fun _ =>
    only_ret _

theorem within_cancel (hc : .cancel ∈ ks) (entryId : Nat) : Only (Among ks) (Entries.cancel entryId) := by
  refine only_bind (only_update (among_kind rfl hc) _) fun cancelled => ?_
  split
  · exact only_ret _
  · exact only_select (among_read _) _

theorem within_resolve (token : Nat) : Only (Among ks) (WaitlistOfferService.resolve token) :=
  only_bind (only_bind (only_select (among_read _) _) fun _ => only_scalar _) fun _ =>
    only_bind (only_orRaise _ _) fun _ => only_bind (only_raiseIf _ _) fun _ => only_ret _

theorem within_joinBody (he : .enter .waiting ∈ ks) (phone verificationToken : String) (day : Int) (typeId : Nat) :
    Only (Among ks) (do
      let verified ← ask (.consumeVerification phone verificationToken)
      raiseIf (!verified) .phoneNotVerified
      let listed ← ask (.typeListed typeId)
      raiseIf (!listed) .bookingNotFound
      let inserted ← unlessRefused (Entries.insert day typeId phone)
      match inserted with
      | some row => return .joined row
      | none => do
        let existing ← Entries.byActiveTuple phone day typeId
        let row ← orRaise existing .bookingNotFound
        return .joined row : Prg Response) := by
  refine only_bind (within_ask _ rfl) fun _ => only_bind (only_raiseIf _ _) fun _ => only_bind (within_ask _ rfl) fun _ =>
    only_bind (only_raiseIf _ _) fun _ => only_bind (only_unlessRefused (only_insert (among_kind rfl he) _))
      fun inserted => ?_
  split
  · exact only_ret _
  · exact only_bind (only_bind (only_select (among_read _) _) fun _ => only_scalar _) fun _ =>
      only_bind (only_orRaise _ _) fun _ => only_ret _

theorem within_join (hs : .session ∈ ks) (he : .enter .waiting ∈ ks) (cfg : Config) (phone verificationToken : String)
    (day : Int) (typeId : Nat) : Only (Among ks) (WaitlistService.join cfg phone verificationToken day typeId) :=
  only_bind within_now fun _ => only_bind (only_raiseIf _ _) fun _ => only_bind (within_ask _ rfl) fun _ =>
    only_bind (only_raiseIf _ _) fun _ => within_session hs fun _ => within_joinBody he phone verificationToken day typeId

theorem within_cancelEntry (hs : .session ∈ ks) (hc : .cancel ∈ ks) (ht : .touch ∈ ks) (ha : .audit ∈ ks)
    (entryId actorId : Nat) : Only (Among ks) (WaitlistService.cancelEntry entryId actorId) := by
  refine within_session hs fun _ => only_bind (within_cancel hc entryId) fun cancelled => ?_
  split
  · exact only_bind (only_select (among_read _) _) fun _ => only_bind (only_orRaise _ _) fun _ => only_ret _
  · exact only_bind (within_cancelPending ht _) fun _ => only_bind (only_insert (among_kind rfl ha) _) fun _ => only_ret _

theorem within_decline (hs : .session ∈ ks) (hc : .cancel ∈ ks) (ht : .touch ∈ ks) (token : Nat) :
    Only (Among ks) (WaitlistOfferService.decline token) := by
  refine only_bind within_now fun now => within_session hs fun _ =>
    only_bind (within_resolve token) fun entry => only_bind (within_cancel hc _) fun cancelled => ?_
  split
  · exact only_ret _
  · exact only_bind (within_cancelPending ht _) fun _ => only_ret _

theorem within_daySlots (cfg : Config) (day now : Int) : Only (Among ks) (daySlots cfg day now) :=
  only_bind (within_ask _ rfl) fun _ => only_bind (within_ask _ rfl) fun _ =>
    only_bind (only_select (among_read _) _) fun _ => only_ret _

theorem within_offeredSlot (cfg : Config) (startsAt now : Int) : Only (Among ks) (offeredSlot cfg startsAt now) :=
  only_bind (within_daySlots _ _ _) fun _ => only_ret _

theorem within_claimSeat (hb : .book ∈ ks) (hr : .remind ∈ ks) (cfg : Config) (startsAt now : Int)
    (customerId typeId termsVersion token : Nat) (due : Bool) :
    Only (Among ks) (claimSeat cfg startsAt now customerId typeId termsVersion token due) := by
  refine only_bind (fun _ => ⟨among_none rfl, fun _ => trivial⟩) fun _ =>
    only_bind (within_offeredSlot _ _ _) fun _ => only_bind (only_orRaise _ _) fun slot =>
    only_bind (only_select (among_read _) _) fun _ => only_bind (only_orRaise _ _) fun _ =>
    only_bind (only_unlessRefused (only_insert (among_kind rfl hb) _)) fun _ => only_bind (only_orRaise _ _) fun booking => ?_
  split
  · exact only_ret _
  · exact only_bind (only_insert (among_kind rfl hr) _) fun _ => only_ret _

theorem within_upsert (hc : .customer ∈ ks) (phone name : String) : Only (Among ks) (Customers.upsert phone name) := by
  refine only_bind (only_select (among_read _) _) fun _ => only_bind (only_scalar _) fun existing => ?_
  split
  · exact only_insert (among_kind rfl hc) _
  · split
    · exact only_ret _
    · exact only_bind (only_update (among_kind rfl hc) _) fun _ => only_ret _

theorem within_claimEntry (hc : .claim ∈ ks) (entryId : Nat) (now : Int) :
    Only (Among ks) (WaitlistOfferService.claimEntry entryId now) := by
  refine only_bind (only_bind (only_update (among_kind rfl hc) _) fun _ => only_ret _) fun moved => ?_
  split
  · exact only_ret _
  · exact only_bind (only_select (among_read _) _) fun _ => only_raise _

theorem within_claim (hs : .session ∈ ks) (hc : .claim ∈ ks) (ht : .touch ∈ ks) (hcu : .customer ∈ ks) (hb : .book ∈ ks)
    (hr : .remind ∈ ks) (cfg : Config) (token : Nat) (name : String) (termsVersion : Nat) :
    Only (Among ks) (WaitlistOfferService.claim cfg token name termsVersion) := by
  unfold WaitlistOfferService.claim
  split
  · exact only_raise _
  · refine only_bind within_now fun now => within_session hs fun _ => ?_
    refine only_bind (within_resolve token) fun entry => only_bind (within_ask _ rfl) fun _ =>
      only_bind (only_raiseIf _ _) fun _ => only_bind (within_ask _ rfl) fun _ => only_bind (only_raiseIf _ _) fun _ =>
      only_bind (only_orRaise _ _) fun startsAt => only_bind (within_claimEntry hc _ _) fun _ =>
      only_bind (within_cancelPending ht _) fun _ => only_bind (within_ask _ rfl) fun _ =>
      only_bind (within_upsert hcu _ _) fun customer => only_bind (within_ask _ rfl) fun _ =>
      only_bind (within_claimSeat hb hr _ _ _ _ _ _ _ _) fun _ => only_ret _

theorem within_mark (ht : .touch ∈ ks) (messageId : Nat) (status : Mark) : Only (Among ks) (Scheduled.mark messageId status) :=
  only_update (among_kind rfl ht) _

theorem within_sendOrFail (ht : .touch ∈ ks) (row : ScheduledMessage) (phone : Option String) :
    Only (Among ks) (BookingComms.sendOrFail row phone) := by
  unfold BookingComms.sendOrFail
  split
  · refine only_bind (within_ask _ rfl) fun result => ?_
    split
    · exact only_raise _
    · exact only_bind (within_mark ht _ _) fun _ => only_ret _
    · exact only_bind (within_mark ht _ _) fun _ => only_ret _
  · exact only_bind (within_mark ht _ _) fun _ => only_ret _

theorem within_drainSubject (ht : .touch ∈ ks) (row : ScheduledMessage) {recipient : Option (Prg (Option String))}
    (h : ∀ p, recipient = some p → Only (Among ks) p) : Only (Among ks) (BookingComms.drainSubject row recipient) := by
  unfold BookingComms.drainSubject
  split
  · exact only_bind (within_mark ht _ _) fun _ => only_ret _
  · rename_i p
    refine only_bind (within_ask _ rfl) fun configured => ?_
    split
    · exact only_ret _
    · exact only_bind (h p rfl) fun _ => only_bind (within_sendOrFail ht _ _) fun _ => only_ret _

theorem within_drainRow (ht : .touch ∈ ks) (row : ScheduledMessage) (now : Int) :
    Only (Among ks) (BookingComms.drainRow row now) := by
  unfold BookingComms.drainRow
  split
  · refine only_bind (only_select (among_read _) _) fun booking => ?_
    split
    · exact within_drainSubject ht row nofun
    · split
      · exact within_drainSubject ht row nofun
      · refine within_drainSubject ht row fun p hp => ?_
        cases hp
        exact only_bind (only_select (among_read _) _) fun _ => only_ret _
  · refine only_bind (only_select (among_read _) _) fun entry => ?_
    split
    · exact within_drainSubject ht row nofun
    · split
      · exact within_drainSubject ht row nofun
      · refine within_drainSubject ht row fun p hp => ?_
        cases hp
        exact only_ret _

theorem within_drainRows (ht : .touch ∈ ks) (now : Int) : ∀ rows, Only (Among ks) (BookingComms.drainRows now rows)
  | [] => only_ret _
  | row :: rows => by
    refine only_bind (within_drainRow ht row now) fun goOn => ?_
    split
    · exact within_drainRows ht now rows
    · exact only_ret _

theorem within_lockDue (ht : .touch ∈ ks) (now : Int) : ∀ ids limit, Only (Among ks) (Scheduled.lockDue now ids limit)
  | [], _ => only_ret _
  | _ :: _, 0 => only_ret _
  | i :: is, limit + 1 => by
    refine only_bind (within_ask _ rfl) fun locked => ?_
    split
    · exact within_lockDue ht now is (limit + 1)
    · refine only_bind (only_update (among_kind rfl ht) _) fun row => ?_
      split
      · exact within_lockDue ht now is (limit + 1)
      · exact only_bind (within_lockDue ht now is limit) fun _ => only_ret _

theorem within_drainBody (ht : .touch ∈ ks) (now : Int) : Only (Among ks) (do
    let rows ← Scheduled.claimDue now DRAIN_BATCH_SIZE
    BookingComms.drainRows now rows
    return .drained : Prg Response) :=
  only_bind (only_bind (only_select (among_read _) _) fun _ => within_lockDue ht _ _ _) fun _ =>
    only_bind (within_drainRows ht _ _) fun _ => only_ret _

theorem within_drain (hs : .session ∈ ks) (ht : .touch ∈ ks) : Only (Among ks) BookingComms.drainDue :=
  only_bind within_now fun now => within_session hs fun _ => within_drainBody ht now

theorem within_splitDue : ∀ due d, Only (Among ks) (WaitlistCascade.splitDue due d)
  | [], _ => only_ret _
  | entry :: rest, d => by
    refine only_bind (only_select (among_read _) _) fun message => ?_
    split
    · exact within_splitDue rest _
    · refine only_bind (only_select (among_read _) _) fun failures => ?_
      split
      · exact within_splitDue rest _
      · exact within_splitDue rest _

theorem within_cancelEach (ht : .touch ∈ ks) : ∀ ids, Only (Among ks) (WaitlistCascade.cancelEach ids)
  | [] => only_ret _
  | i :: is => only_bind (within_cancelPending ht i) fun _ => within_cancelEach ht is

theorem within_closeOffer (hc : .close ∈ ks) (ids : List Nat) (status : Closing) :
    Only (Among ks) (Entries.closeOffer ids status) :=
  only_bind (only_updateEach (fun _ => among_kind rfl hc) _ _) fun _ => only_ret _

theorem within_expire (hc : .close ∈ ks) (ht : .touch ∈ ks) (now : Int) : Only (Among ks) (WaitlistCascade.expire now) :=
  only_bind (only_select (among_read _) _) fun _ => only_bind (within_splitDue _ _) fun _ =>
    only_bind (within_closeOffer hc _ _) fun _ => only_bind (within_closeOffer hc _ _) fun _ =>
    only_bind (within_cancelEach ht _) fun _ => only_ret _

theorem within_offerOne (ho : .offer ∈ ks) (hq : .queue ∈ ks) (cfg : Config) (now : Int) (p : Int × Nat) :
    Only (Among ks) (WaitlistCascade.offerOne cfg now p) := by
  refine only_bind (only_select (among_read _) _) fun oldest => ?_
  split
  · exact only_ret _
  refine only_bind (within_daySlots _ _ _) fun slots => only_bind (only_select (among_read _) _) fun held => ?_
  split
  · exact only_ret _
  refine only_bind (within_ask _ rfl) fun token => only_bind (only_bind (only_update (among_kind rfl ho) _) fun _ => only_ret _)
    fun moved => ?_
  split
  · exact only_ret _
  · exact only_bind (only_unlessRefused (only_insert (among_kind rfl hq) _)) fun _ => only_ret _

theorem within_offerEach (ho : .offer ∈ ks) (hq : .queue ∈ ks) (cfg : Config) (now : Int) :
    ∀ pairs n, Only (Among ks) (WaitlistCascade.offerEach cfg now pairs n)
  | [], _ => only_ret _
  | p :: pairs, _ => only_bind (within_offerOne ho hq cfg now p) fun _ => within_offerEach ho hq cfg now pairs _

theorem within_issue (ho : .offer ∈ ks) (hq : .queue ∈ ks) (hk : .keep ∈ ks) (cfg : Config) (now : Int) :
    Only (Among ks) (WaitlistCascade.issue cfg now) :=
  only_bind (within_ask _ rfl) fun _ => only_bind (only_select (among_read _) _) fun _ =>
    only_bind (only_ask (among_kind rfl hk)) fun _ => within_offerEach ho hq cfg now _ _

theorem within_tick (hs : .session ∈ ks) (hc : .close ∈ ks) (ht : .touch ∈ ks) (ho : .offer ∈ ks) (hq : .queue ∈ ks)
    (hk : .keep ∈ ks) (cfg : Config) : Only (Among ks) (WaitlistCascade.run cfg) := by
  refine only_bind within_now fun now => within_session hs fun _ => only_bind (within_expire hc ht _) fun closed => ?_
  split
  · exact only_ret _
  · exact only_bind (within_issue ho hq hk _ _) fun _ => only_ret _

end Waitlist
