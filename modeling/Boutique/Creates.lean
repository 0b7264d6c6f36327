import Boutique.Seats
/-!
# Creates — what the claiming transactions have written when they close

The create transaction ends as a replay, which has written no booking, or as a fresh claim; the waitlist transaction ends
as a fresh claim.  Neither raises the refusal of a search that found no seat.
-/
namespace Boutique

open Txn Contract

variable {D : Cast schema} {C : Contract D service Err} {t : Tid} {w : BWorld}

def HasPhone (rows : Rows schema) (i : Nat) (phone : String) : Prop :=
  ∃ c : Customer, rows .customers i = some c ∧ c.phone = phone ∧ c.deletedAt = none

theorem view_later {T : Table} {w' : BWorld} (h : C.Point t w w')
    (hp : w'.db.pending t T = w.db.pending t T) (i : Nat) :
    D.common.Becomes true T (w.db.view t T i) (w'.db.view t T i) := by
  unfold Engine.view Rows.overlay
  rw [hp]
  cases w.db.pending t T i with
  | some r => exact Discipline.becomes_refl _ _ _
  | none => exact h.since.after.rows T i

theorem HasPhone.later {phone : String} {i : Nat} {w' : BWorld} (hD : D.Under boutique) (h : HasPhone (w.db.view t) i phone)
    (hw : C.Point t w w') (hp : w'.db.pending t .customers = w.db.pending t .customers) :
    HasPhone (w'.db.view t) i phone := by
  obtain ⟨c, hc, hphone, hdel⟩ := h
  have hrow := hD.becomes (view_later hw hp i)
  rw [hc] at hrow
  obtain ⟨c', hc', htr⟩ := Discipline.Becomes.some_left hrow
  exact ⟨c', hc', htr.1.trans hphone, htr.2.trans hdel⟩

theorem row_of_mem (hL : w.db.Lawful D) {T : Table} {r : Row T}
    (h : r ∈ Snapshot.all ⟨w.db.view t, w.db.next⟩ T) : w.db.view t T (rowId T r) = some r := by
  obtain ⟨i, -, hi⟩ := Snapshot.mem_all.1 h
  have hid : rowId T r = i := (hL.view_consistent t).id T i r hi
  rw [hid]
  exact hi

theorem hasPhone_wrote {phone : String} {i j : Nat} {w1 w2 : BWorld} {v r : Customer} {g : CustomerChange}
    (hg : g.Fits) (h : C.Wrote t w w1 w2 .customers j r) (hv : w1.db.view t .customers j = some v)
    (hr : applyChange .customers g v = some r)
    (hp : HasPhone (w1.db.view t) i phone) : HasPhone (w2.db.view t) i phone := by
  obtain ⟨c, hc, hphone, hdel⟩ := hp
  rw [h.view]
  by_cases hij : i = j
  · subst hij
    rw [hv] at hc
    cases hc
    obtain ⟨h1, h2⟩ := CustomerChange.becomes hg hr
    exact ⟨r, Rows.set_same, h1.trans hphone, h2.trans hdel⟩
  · exact ⟨c, (Rows.set_row hij).trans hc, hphone, hdel⟩

theorem upsert_ensures (hC : C.Historic calm) (hD : D.Under boutique) (phone name : String) {β : Type}
    {k : Customer → Prg β} {Q : Except Err β → BWorld → Prop}
    (herr : ∀ e w', C.Point t w w' → e ≠ noSeat → Q (.error e) w')
    (hok : ∀ c w', C.Point t w w' → (∀ T, T ≠ .customers → w'.db.pending t T = w.db.pending t T) →
      HasPhone (w'.db.view t) c.id phone → C.Ensures t (k c) Q w') :
    C.Ensures t (Customers.upsert phone name >>= k) Q w := by
  unfold Customers.upsert Customers.byPhone
  refine ensures_first (ensures_first (ensures_select hC fun w1 h₁ hp1 _ =>
    ensures_scalarOneOrNone (herr _ _ h₁ nofun) (fun hnone => ?_) fun c hc => ?_))
  · refine ensures_insertRow hC (fun w2 h₂ _ => herr _ _ (h₁.trans h₂) nofun) fun w2 w3 n hw _ => ?_
    refine hok _ w3 (h₁.trans hw.after) (fun T hT => ?_) ⟨_, Rows.over_some hw.row, rfl, rfl⟩
    rw [hw.pending, Rows.set_table hT, hp1]
  · have hmem : c ∈ (Snapshot.all ⟨w1.db.view t, w1.db.next⟩ .customers).filter
        fun c : Customer => c.phone = phone ∧ c.deletedAt = none := by
      rw [hc]
      exact List.mem_singleton_self c
    obtain ⟨hall, hprop⟩ := List.mem_filter.1 hmem
    have hview := row_of_mem h₁.lawful hall
    simp only [decide_eq_true_eq] at hprop
    have hhas : HasPhone (w1.db.view t) c.id phone := ⟨c, hview, hprop⟩
    dsimp only
    split
    · exact hok c w1 h₁ (fun T _ => by rw [hp1]) hhas
    · refine ensures_first (ensures_updateRow hC (fun w2 _ _ h₂ _ _ _ _ => herr _ _ (h₁.trans h₂) nofun)
        (fun w2 h₂ hp2 _ => ?_) fun w2 w3 v r hw hv hr _ => ?_)
      · exact hok c w2 (h₁.trans h₂) (fun T _ => by rw [hp2, hp1]) (hhas.later hD h₂ (by rw [hp2]))
      · have hid : Customer.id r = c.id := by
          have h1 := rowId_applyChange .customers _ _ _ hr
          have h2 : rowId .customers v = c.id := (hw.before.lawful.view_consistent t).id _ _ _ hv
          exact h1.trans h2
        refine hok r w3 (h₁.trans hw.after) (fun T hT => ?_) ?_
        · rw [hw.pending, Rows.set_table hT, hp1]
        · show HasPhone _ (Customer.id r) phone
          rw [hid]
          exact hasPhone_wrote (g := .setName name) trivial hw hv hr (hhas.later hD hw.before (by rw [hw.kept]))

theorem stampConsent_ensures (hC : C.Historic calm) (hD : D.Under boutique) (hL : w.db.Lawful D) (hI : C.Inv w)
    (consent : Bool) (i : Nat) (n : Int) {β : Type} {k : Unit → Prg β} {Q : Except Err β → BWorld → Prop}
    (herr : ∀ e w', C.Point t w w' → e ≠ noSeat → Q (.error e) w')
    (hok : ∀ w', C.Point t w w' → (∀ T, T ≠ .customers → w'.db.pending t T = w.db.pending t T) →
      (∀ j phone, HasPhone (w.db.view t) j phone → HasPhone (w'.db.view t) j phone) → C.Ensures t (k ()) Q w') :
    C.Ensures t (BookingService.stampConsent consent i n >>= k) Q w := by
  cases consent with
  | false => exact hok w ⟨.refl _, hL, hI, rfl⟩ (fun _ _ => rfl) fun _ _ h => h
  | true =>
    refine ensures_first (ensures_updateRow hC (fun w2 _ _ h2 _ _ _ _ => herr _ _ h2 nofun) (fun w2 h2 hp2 _ => ?_)
      fun w2 w3 v r hw hv hr _ => ?_)
    · exact hok w2 h2 (fun T _ => by rw [hp2]) fun j phone h => h.later hD h2 (by rw [hp2])
    · refine hok w3 hw.after (fun T hT => ?_) fun j phone h => ?_
      · rw [hw.pending, Rows.set_table hT]
      · exact hasPhone_wrote (g := .recordMarketingConsent _) trivial hw hv hr (h.later hD hw.before (by rw [hw.kept]))

def proofTables : List Table := [.otpCodes, .customers]

/-- **A replay**: the live booking of that phone at that instant, as it stood under the lock, and no booking written. -/
structure Replay (C : Contract D service Err) (t : Tid) (w : BWorld) (r : CreateRequest) (phone : String) (c : BookingClaim)
    (w' : BWorld) : Prop where
  point : C.Point t w w'
  created : c.created = false
  manageToken : c.manageToken = none
  pending : ∀ T, T ∉ proofTables → w'.db.pending t T = w.db.pending t T
  seen : ∃ w₁, C.Point t w w₁ ∧ C.Point t w₁ w' ∧ w₁.db.view t .bookings c.booking.id = some c.booking ∧
    c.booking.live = true ∧ c.booking.startsAt = r.startsAt ∧ HasPhone (w₁.db.view t) c.booking.customerId phone

/-- **A fresh claim**: the seat claimed from a point where nothing but the proof and the customer was written, for a
customer with that phone. -/
structure Fresh (C : Contract D service Err) (t : Tid) (cfg : Config) (w : BWorld) (now x : Int) (phone : String)
    (c : BookingClaim) (w' : BWorld) : Prop where
  created : c.created = true
  claimed : ∃ w₁ a v token due text, c.manageToken = some token ∧ C.Point t w w₁ ∧
    (∀ T, T ∉ proofTables → w₁.db.pending t T = w.db.pending t T) ∧
    Claimed C t cfg w₁ now (fun slot i => seatRow slot i now c.booking.customerId a v token due text) x token c.booking w'
  phone : HasPhone (w'.db.view t) c.booking.customerId phone

def CreateEnds (C : Contract D service Err) (t : Tid) (cfg : Config) (w : BWorld) (now : Int) (r : CreateRequest)
    (phone : String) (x : Except Err BookingClaim) (w' : BWorld) : Prop :=
  C.Point t w w' ∧ match x with
    | .error e => e ≠ noSeat
    | .ok c => Replay C t w r phone c w' ∨ Fresh C t cfg w now r.startsAt phone c w'

theorem unwritten_of {w' : BWorld} (Ts : List Table)
    (hTs : ∀ T ∈ Ts, T ∈ [Table.otpCodes, .customers, .waitlistEntries, .scheduledMessages])
    (h : Unwritten t w) (hp : ∀ T, T ∉ Ts → w'.db.pending t T = w.db.pending t T) : Unwritten t w' := by
  have hb : Table.bookings ∉ Ts := fun hm => absurd (hTs _ hm) (by decide)
  have hr : Table.availabilityRules ∉ Ts := fun hm => absurd (hTs _ hm) (by decide)
  have hx : Table.availabilityExceptions ∉ Ts := fun hm => absurd (hTs _ hm) (by decide)
  unfold Unwritten
  rw [hp _ hb, hp _ hr, hp _ hx]
  exact h

section

variable (hC : C.Historic calm) (hD : D.Under boutique)
include hC hD

theorem freshClaim_ensures (hw : Unwritten t w) (cfg : Config) (r : CreateRequest) (phone : String) (now txNow : Int)
    (a : AppointmentType) (due : Bool) (dress : Option String × Option String) {w0 : BWorld} (h0 : C.Point t w w0)
    (hp0 : ∀ T, T ∉ proofTables → w0.db.pending t T = w.db.pending t T) :
    C.Ensures t (BookingService.freshClaim cfg r phone now txNow a due dress) (CreateEnds C t cfg w now r phone) w0 := by
  unfold BookingService.freshClaim
  refine ensures_stretch hC [] (steady_checkDress cfg r.dressId r.startsAt).within h0.lawful h0.inv noSeat
    (never_checkDress cfg _ _) (fun e w1 h1 he => ⟨h0.trans h1, he⟩) fun _ w1 h1 hp1 => ?_
  refine upsert_ensures hC hD _ _ (fun e w2 h2 he => ⟨(h0.trans h1).trans h2, he⟩) fun c w2 h2 hp2 hphone => ?_
  refine stampConsent_ensures hC hD h2.lawful h2.inv _ _ _ (fun e w3 h3 he => ⟨((h0.trans h1).trans h2).trans h3, he⟩)
    fun w3 h3 hp3 hkeep => ?_
  refine ensures_question hC rfl fun w4 token h₄ hp4 => ?_
  have hw4 := (((h0.trans h1).trans h2).trans h3).trans h₄
  have hpend : ∀ T, T ∉ proofTables → w4.db.pending t T = w.db.pending t T := fun T hT => by
    have hc : T ≠ .customers := fun hc => hT (by rw [hc]; decide)
    rw [hp4, hp3 T hc, hp2 T hc, hp1 T List.not_mem_nil, hp0 T hT]
  have hu : Unwritten t w4 := unwritten_of _ (by decide) hw hpend
  refine ensures_bind (ensures_mono ?_ (claimSeat_ensures hC hD hu cfg r.startsAt now c.id a r.termsVersion token due _))
  rintro x w5 ⟨h5, hx⟩
  cases x with
  | error e => exact ⟨hw4.trans h5, hx⟩
  | ok b =>
    obtain ⟨slot, i, j, n, hslot, hb⟩ := hx.row
    have hcustomer : b.customerId = c.id := by rw [hb]; rfl
    refine ⟨hw4.trans h5, .inr ⟨rfl, ⟨w4, a, r.termsVersion, token, due,
      ⟨r.dressId, dress.1, dress.2, r.notes⟩, rfl, hw4, hpend, ?_⟩, ?_⟩⟩
    · dsimp only
      rw [hcustomer]
      exact hx
    · show HasPhone _ b.customerId phone
      rw [hcustomer]
      have h4 : HasPhone (w4.db.view t) c.id phone := (hkeep _ _ hphone).later hD h₄ (by rw [hp4])
      exact h4.later hD hx.point (hx.others nofun nofun)

theorem lockedCreate_ensures (hw : Unwritten t w) (cfg : Config) (r : CreateRequest) (phone : String) (now txNow : Int)
    (a : AppointmentType) (due : Bool) (dress : Option String × Option String) {w0 : BWorld} (h0 : C.Point t w w0)
    (hp0 : ∀ T, T ∉ proofTables → w0.db.pending t T = w.db.pending t T) :
    C.Ensures t (BookingService.lockedCreate cfg r phone now txNow a due dress) (CreateEnds C t cfg w now r phone) w0 := by
  unfold BookingService.lockedCreate BookingService.replayed Customers.byPhone
  refine ensures_advisoryLock hC fun w1 h1 hp1 _ => ?_
  refine ensures_first (ensures_first (ensures_select hC fun w2 h2 hp2 _ => ensures_scalarOneOrNone
    ⟨h0.trans (h1.trans h2), nofun⟩ (fun _ => ?_) fun c hc => ?_))
  · refine freshClaim_ensures hC hD hw cfg r phone now txNow a due dress (h0.trans (h1.trans h2)) fun T hT => ?_
    rw [hp2, hp1, hp0 T hT]
  · have hmem : c ∈ (Snapshot.all ⟨w2.db.view t, w2.db.next⟩ .customers).filter
        fun c : Customer => c.phone = phone ∧ c.deletedAt = none := by
      rw [hc]
      exact List.mem_singleton_self c
    obtain ⟨hall, hprop⟩ := List.mem_filter.1 hmem
    simp only [decide_eq_true_eq] at hprop
    have hphone : HasPhone (w2.db.view t) c.id phone := ⟨c, row_of_mem h2.lawful hall, hprop⟩
    have h02 := h0.trans (h1.trans h2)
    unfold Bookings.activeAt
    refine ensures_first (ensures_first (ensures_select hC fun w3 h3 hp3 _ => ensures_scalarOneOrNone
      ⟨h02.trans h3, nofun⟩ (fun _ => ?_) fun b hb => ?_))
    · refine freshClaim_ensures hC hD hw cfg r phone now txNow a due dress (h02.trans h3) fun T hT => ?_
      rw [hp3, hp2, hp1, hp0 T hT]
    · have hbmem : b ∈ (Bookings.liveAt ⟨w3.db.view t, w3.db.next⟩ r.startsAt).filter fun b => b.customerId = c.id := by
        rw [hb]
        exact List.mem_singleton_self b
      obtain ⟨hlive, hcust⟩ := List.mem_filter.1 hbmem
      obtain ⟨hball, hblive⟩ := List.mem_filter.1 hlive
      simp only [Bool.and_eq_true, decide_eq_true_eq] at hblive hcust
      refine stampConsent_ensures hC hD h3.lawful h3.inv _ _ _ (fun e w4 h4 he => ⟨(h02.trans h3).trans h4, he⟩)
        fun w4 h4 hp4 _ => ?_
      have h04 := (h02.trans h3).trans h4
      refine ⟨h04, .inl ⟨h04, rfl, rfl, fun T hT => ?_, w3, h02.trans h3, h4, row_of_mem h3.lawful hball, hblive.1,
        hblive.2, ?_⟩⟩
      · have hc : T ≠ .customers := fun hc => hT (by rw [hc]; decide)
        rw [hp4 T hc, hp3, hp2, hp1, hp0 T hT]
      · rw [hcust]
        exact hphone.later hD h3 (by rw [hp3])

theorem createIn_ensures (hw : Unwritten t w) (hL : w.db.Lawful D) (hI : C.Inv w) (cfg : Config) (r : CreateRequest)
    (phone : String) (now txNow : Int) :
    C.Ensures t (BookingService.createIn cfg r phone now txNow) (CreateEnds C t cfg w now r phone) w := by
  unfold BookingService.createIn
  refine ensures_stretch hC [.otpCodes] (steady_provePhone (fun _ _ _ _ _ => List.mem_singleton_self _) phone _ _).within
    hL hI noSeat (never_provePhone _ _ _) (fun e w1 h1 he => ⟨h1, he⟩) fun _ w1 h1 hp1 => ?_
  refine ensures_stretch hC [] (steady_typeAndTerms _ _).within h1.lawful h1.inv noSeat (never_typeAndTerms _ _)
    (fun e w2 h2 he => ⟨h1.trans h2, he⟩) fun a w2 h2 hp2 => ?_
  refine ensures_stretch hC [] (steady_gatewayConnected cfg).within h2.lawful h2.inv noSeat
    (never_gatewayConnected cfg) (fun e w3 h3 he => ⟨(h1.trans h2).trans h3, he⟩) fun connected w3 h3 hp3 => ?_
  refine ensures_stretch hC [] (steady_snapshotDress cfg _ _).within h3.lawful h3.inv noSeat
    (never_snapshotDress cfg _ _) (fun e w4 h4 he => ⟨((h1.trans h2).trans h3).trans h4, he⟩) fun dress w4 h4 hp4 => ?_
  refine lockedCreate_ensures hC hD hw cfg r phone now txNow a _ dress (((h1.trans h2).trans h3).trans h4) fun T hT => ?_
  rw [hp4 T List.not_mem_nil, hp3 T List.not_mem_nil, hp2 T List.not_mem_nil, hp1 T]
  exact fun hm => hT (by rw [List.mem_singleton.1 hm]; decide)

theorem claimIn_ensures (hw : Unwritten t w) (hL : w.db.Lawful D) (hI : C.Inv w) (cfg : Config) (r : OfferClaimRequest) (now : Int) :
    C.Ensures t (WaitlistOffer.claimIn cfg r now) (fun x w' => C.Point t w w' ∧ match x with
      | .error e => e ≠ noSeat
      | .ok c => c.created = true ∧ ∃ w1 x row token, Unwritten t w1 ∧ C.Point t w w1 ∧
        (∀ slot i, (row slot i).startsAt = slot.startsAt ∧ (row slot i).termsAcceptedAt = some now) ∧
        Claimed C t cfg w1 now row x token c.booking w') w := by
  unfold WaitlistOffer.claimIn
  refine ensures_stretch hC [] ((steady_oneOrNone _ _).bind fun _ => (steady_orRaise _ _).bind fun _ =>
    (steady_raiseIf _ _).bind fun _ => steady_pure _).within hL hI noSeat (never_resolve _) (fun e w1 h1 he => ⟨h1, he⟩)
    fun entry w1 h1 hp1 => ?_
  refine ensures_select hC fun w2 h2 hp2 _ => ensures_raiseIf (fun _ => ⟨h1.trans h2, nofun⟩) fun _ => ?_
  refine ensures_select hC fun w3 h3 hp3 _ => ensures_orRaise (fun _ => ⟨(h1.trans h2).trans h3, nofun⟩) fun a _ => ?_
  refine ensures_orRaise (fun _ => ⟨(h1.trans h2).trans h3, nofun⟩) fun x _ => ?_
  have h03 := (h1.trans h2).trans h3
  refine ensures_stretch hC [.waitlistEntries] (steady_claimEntry (fun _ _ => List.mem_singleton_self _) entry.id now).within
    h3.lawful h3.inv noSeat (never_claimEntry _ _) (fun e w4 h4 he => ⟨h03.trans h4, he⟩) fun _ w4 h4 hp4 => ?_
  refine ensures_stretch hC [.scheduledMessages] (steady_updateWhere fun _ => List.mem_singleton_self _).within h4.lawful h4.inv
    noSeat (never_updateWhere (by nofun)) (fun e w5 h5 he => ⟨(h03.trans h4).trans h5, he⟩) fun _ w5 h5 hp5 => ?_
  refine ensures_stretch hC [] (steady_gatewayConnected cfg).within h5.lawful h5.inv noSeat
    (never_gatewayConnected cfg) (fun e w6 h6 he => ⟨((h03.trans h4).trans h5).trans h6, he⟩) fun connected w6 h6 hp6 => ?_
  have h06 := ((h03.trans h4).trans h5).trans h6
  refine upsert_ensures hC hD _ _ (fun e w7 h7 he => ⟨h06.trans h7, he⟩) fun c w7 h7 hp7 _ => ?_
  refine ensures_question hC rfl fun w8 token h8 hp8 => ?_
  have h08 := (h06.trans h7).trans h8
  have hu : Unwritten t w8 := by
    refine unwritten_of [.waitlistEntries, .scheduledMessages, .customers] (by decide) hw fun T hT => ?_
    simp only [List.mem_cons, List.not_mem_nil, or_false, not_or] at hT
    rw [hp8, hp7 T hT.2.2, hp6 T List.not_mem_nil, hp5 T fun h => hT.2.1 (List.mem_singleton.1 h),
      hp4 T fun h => hT.1 (List.mem_singleton.1 h), hp3, hp2, hp1 T List.not_mem_nil]
  refine ensures_bind (ensures_mono ?_ (claimSeat_ensures hC hD hu cfg x now c.id a r.termsVersion token _ _))
  rintro y w9 ⟨h9, hy⟩
  cases y with
  | error e => exact ⟨h08.trans h9, hy⟩
  | ok b => exact ⟨h08.trans h9, rfl, w8, x, _, token, hu, h08, fun slot i => ⟨rfl, rfl⟩, hy⟩

end

end Boutique
