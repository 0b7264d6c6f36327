import Boutique.Subjects
import Boutique.TxnLocked
/-!
# Custody — what the requests write of a customer

New customers come in without a consent, only an erasure made with the lock erases one, and only the retention run scrubs
one.  Whatever else is written of her keeps her consent and never takes a withdrawal away.
-/
namespace Subjects

open Txn Session Contract

variable {settings : Retention.Settings} {E S l : Bool}

/-- **What a request may write of customers**: new ones as they are typed at intake, where erasures are made (`E`) one with
the lock, and where scrubs are made (`S`) a scrub. -/
def Proper (E S : Bool) : Bool → Op schema outside → Prop
  | l, .sql (.update .customers _ (.erase _)) => E = true ∧ l = true
  | _, .sql (.update .customers _ (.scrub _)) => S = true
  | _, .sql (.insert .customers r) => ∃ phone name, r = newCustomer phone name
  | _, _ => True

theorem Proper.weaken {o : Op schema outside} (h : Proper E false l o) : Proper E S l o := by
  unfold Proper at h ⊢
  split at h <;> simp_all

section Footprints

variable {α : Type}

theorem steady_query (q : Query) (f : Snapshot schema → α) : Steady (Proper E S) l (select q f : Prg α) :=
  steady_select trivial f

theorem steady_question (q : Ask) : Steady (Proper E S) l (ask q) := steady_ask trivial

theorem steady_passes : Steady (Proper E S) l passes := by
  refine (steady_question _).bind fun refusal => ?_
  cases refusal with
  | none => exact steady_ret _
  | some e => exact steady_raise e

theorem steady_record (actorId entity : Option Nat) (action : AuditAction) :
    Steady (Proper E S) l (record actorId entity action) :=
  Steady.bind (steady_insert trivial _) fun _ => steady_ret _

theorem steady_upsert (loaded : Option Customer) (phone name : String) : Steady (Proper E S) l (upsert loaded phone name) := by
  refine (steady_query _ _).bind fun existing => ?_
  cases existing with
  | none => exact steady_insert ⟨phone, name, rfl⟩ _
  | some row =>
    dsimp only
    split
    · exact Steady.bind (steady_update trivial _) fun _ => steady_orRaise _ _
    · exact (steady_query _ _).bind fun _ => steady_orRaise _ _

theorem within_claimSeat (customerId : Nat) (startsAt : Int) (notes : Option String) (due : Bool) :
    Within (Proper E S) l (claimSeat customerId startsAt notes due) := by
  refine within_lock trivial (Steady.within ?_)
  refine (steady_question _).bind fun seat => (steady_orRaise _ _).bind fun seatIndex => ?_
  exact (steady_question _).bind fun token => steady_insert trivial _

theorem within_booked (customerId : Nat) (startsAt : Int) (notes : Option String) (due : Bool) :
    Within (Proper E S) l (claimSeat customerId startsAt notes due >>= fun booking => (return .booked booking true : Prg Reply)) :=
  uses_bind (within_claimSeat _ _ _ _) (fun _ _ _ => trivial) fun _ _ _ => trivial

theorem steady_session {body : Int → Prg α} (h : ∀ n, Within (Proper E S) false (body n)) :
    Steady (Proper E S) false (tenantSession body : Prg α) :=
  steady_tenantSession (fun _ => trivial) (fun _ => trivial) (fun _ => trivial) h

theorem steady_replayed (existing : Option Customer) (startsAt : Int) : Steady (Proper E S) l (replayed existing startsAt) := by
  cases existing with
  | none => exact steady_ret _
  | some customer => exact steady_query _ _

theorem within_createBooking (q : CreateBookingRequest) : Within (Proper E S) false (createBooking q) := by
  refine (steady_question _).then_ fun blocked => (steady_raiseIf _ _).then_ fun _ => (steady_session fun txNow => ?_).within
  refine (steady_question _).then_ fun verified => (steady_raiseIf _ _).then_ fun _ => (steady_question _).then_ fun _ => ?_
  refine steady_passes.then_ fun _ => (steady_question _).then_ fun due => within_lock trivial ?_
  refine (steady_query _ _).then_ fun existing => ?_
  refine (steady_replayed _ _).then_ fun replay => ?_
  have hfresh : Within (Proper E S) true (do
      passes
      let customer ← upsert existing q.phone.e164 q.name
      if q.marketingConsent then do
        let _ ← update .customers customer.id (.recordMarketingConsent txNow)
        let booking ← claimSeat customer.id q.startsAt q.notes due
        return .booked booking true
      else do
        let booking ← claimSeat customer.id q.startsAt q.notes due
        return .booked booking true : Prg Reply) := by
    refine steady_passes.then_ fun _ => (steady_upsert _ _ _).then_ fun customer => ?_
    split
    · exact (steady_update trivial _).then_ fun _ => within_booked _ _ _ _
    · exact within_booked _ _ _ _
  split
  · split
    · exact (steady_update trivial _).then_ fun _ => trivial
    · trivial
  · exact hfresh

theorem within_claim (name : String) : Within (Proper E S) false (claim name) := by
  refine (steady_session fun _ => (steady_question _).then_ fun entry => ?_).within
  cases entry with
  | error e => trivial
  | ok found =>
    obtain ⟨phone, startsAt⟩ := found
    exact (steady_question _).then_ fun due => (steady_upsert _ _ _).then_ fun customer => within_booked _ _ _ _

theorem steady_resolveCustomer (phone name : String) : Steady (Proper E S) l (resolveCustomer phone name) := by
  refine (steady_query _ _).bind fun existing => (Steady.attempt (steady_upsert _ _ _)).bind fun saved => ?_
  split
  · exact steady_ret _
  · exact (steady_query _ _).bind fun winner => (steady_orRaise _ _).bind fun customer => steady_ret _
  · exact steady_raise _

theorem steady_recordRename (renamed : Bool) (actorId customerId : Nat) :
    Steady (Proper E S) l (recordRename renamed actorId customerId) := by
  unfold recordRename
  split
  · exact steady_record _ _ _
  · exact steady_ret _

theorem within_createTicket (q : CreateTicketRequest) (actorId : Nat) : Within (Proper E S) false (createTicket q actorId) := by
  refine steady_passes.then_ fun _ => (steady_session fun _ => Steady.within ?_).within
  refine steady_passes.bind fun _ => (steady_resolveCustomer _ _).bind ?_
  rintro ⟨customer, renamed⟩
  refine (steady_recordRename _ _ _).bind fun _ => (steady_now trivial).bind fun at_ => ?_
  exact Steady.bind (steady_insert trivial _) fun ticket => (steady_record _ _ _).bind fun _ => steady_ret _

theorem within_createWalkIn (customerId appointmentTypeId actorId : Nat) :
    Within (Proper E S) false (createWalkIn customerId appointmentTypeId actorId) := by
  refine (steady_now trivial).then_ fun at_ => (steady_session fun _ => Steady.within ?_).within
  refine (steady_query _ _).bind fun found => (steady_orRaise _ _).bind fun _ => steady_passes.bind fun _ => ?_
  exact Steady.bind (steady_insert trivial _) fun booking => (steady_record _ _ _).bind fun _ => steady_ret _

theorem steady_rotateLinks (at_ : Int) : ∀ bookingIds, Steady (Proper E S) l (rotateLinks at_ bookingIds)
  | [] => steady_ret _
  | _ :: rest => (steady_question _).bind fun _ => Steady.bind (steady_update trivial _) fun _ =>
    (steady_orRaise _ _).bind fun _ => steady_rotateLinks at_ rest

theorem within_correctPhone (bookingId : Nat) (phone : Mobile) (actorId : Nat) :
    Within (Proper E S) false (correctPhone bookingId phone actorId) := by
  refine (steady_question _).then_ fun blocked => (steady_raiseIf _ _).then_ fun _ => (steady_now trivial).then_ fun at_ => ?_
  refine (steady_session fun _ => Steady.within ?_).within
  refine (steady_query _ _).bind fun found => (steady_orRaise _ _).bind fun booking => (steady_raiseIf _ _).bind fun _ => ?_
  refine (steady_query _ _).bind fun _ => (steady_query _ _).bind fun target => ?_
  split
  · refine (steady_query _ _).bind fun collision => (steady_raiseIf _ _).bind fun _ => ?_
    exact Steady.bind (steady_update trivial _) fun moved => (steady_orRaise _ _).bind fun _ =>
      (steady_rotateLinks _ _).bind fun _ => (steady_record _ _ _).bind fun _ => steady_ret _
  · refine Steady.bind (steady_update trivial _) fun written => (steady_orRaise _ _).bind fun _ => ?_
    exact (steady_query _ _).bind fun rotate => (steady_rotateLinks _ _).bind fun _ => (steady_record _ _ _).bind fun _ =>
      steady_ret _

theorem within_updateCustomer (customerId : Nat) (notes : Option String) (tags : Option (List String)) (actorId : Nat) :
    Within (Proper E S) false (updateCustomer customerId notes tags actorId) := by
  refine steady_passes.then_ fun _ => (steady_session fun _ => Steady.within ?_).within
  refine (steady_query _ _).bind fun found => (steady_orRaise _ _).bind fun current => ?_
  dsimp only
  split
  · exact Steady.bind (steady_update trivial _) fun _ => (steady_record _ _ _).bind fun _ => steady_ret _
  · exact steady_ret _

theorem within_createSession (phone : Mobile) (sessionTtl : Int) :
    Within (Proper E S) false (createSession phone sessionTtl) := by
  refine (steady_question _).then_ fun blocked => (steady_raiseIf _ _).then_ fun _ => (steady_question _).then_ fun _ => ?_
  refine (steady_now trivial).then_ fun at_ => (steady_session fun _ => Steady.within ?_).then_ fun minted =>
    (steady_orRaise _ _).within
  refine (steady_question _).bind fun verified => (steady_raiseIf _ _).bind fun _ => (steady_query _ _).bind fun found => ?_
  cases found with
  | none => exact steady_ret _
  | some customer =>
    exact (steady_question _).bind fun token => Steady.bind (steady_insert trivial _) fun _ => steady_ret _

theorem within_resolveSession (tokenHash : String) : Within (Proper E S) false (resolveSession tokenHash) := by
  refine (steady_session fun _ => Steady.within ?_).within
  refine (steady_now trivial).bind fun at_ => (steady_query _ _).bind fun row => ?_
  cases row with
  | none => exact steady_ret _
  | some session => exact (steady_query _ _).bind fun _ => steady_ret _

theorem within_logout (tokenHash : String) : Within (Proper E S) false (logout tokenHash) :=
  (steady_session fun _ => Steady.within ((steady_query _ _).bind fun _ =>
    Steady.bind (steady_updateEach (fun _ => trivial) _ _) fun _ => steady_ret _)).within

theorem within_eraseSubject (customerId : Nat) (reason : Option String) (actorId : Nat) :
    Within (Proper true S) false (eraseSubject customerId reason actorId) := by
  refine (steady_question _).then_ fun blocked => (steady_raiseIf _ _).then_ fun _ => (steady_question _).then_ fun _ => ?_
  refine (steady_session fun txNow => within_lock trivial (Steady.within ?_)).within
  refine (steady_query _ _).bind fun found => (steady_orRaise _ _).bind fun customer => ?_
  split
  · exact (steady_record _ _ _).bind fun _ => steady_ret _
  · refine (steady_query _ _).bind fun live => (steady_raiseIf _ _).bind fun _ => ?_
    refine Steady.bind (steady_update ⟨rfl, rfl⟩ _) fun _ => (steady_query _ _).bind fun hers => ?_
    refine Steady.bind (steady_updateEach (fun _ => trivial) _ _) fun scrubbed => (steady_query _ _).bind fun sessions => ?_
    exact Steady.bind (steady_updateEach (fun _ => trivial) _ _) fun _ => (steady_record _ _ _).bind fun _ => steady_ret _

theorem within_withdrawMarketing (customerId actorId : Nat) :
    Within (Proper E S) false (withdrawMarketing customerId actorId) := by
  refine (steady_question _).then_ fun blocked => (steady_raiseIf _ _).then_ fun _ => (steady_question _).then_ fun _ => ?_
  refine (steady_session fun txNow => Steady.within ?_).within
  refine (steady_query _ _).bind fun found => (steady_orRaise _ _).bind fun _ => ?_
  refine Steady.bind (steady_update trivial _) fun withdrawn => ?_
  split
  · exact (steady_record _ _ _).bind fun _ => steady_ret _
  · exact steady_ret _

theorem steady_scrubCustomers (at_ : Int) : Steady (Proper E true) false (scrubCustomers settings at_) :=
  steady_session fun _ => Steady.within ((steady_query _ _).bind fun _ =>
    Steady.bind (steady_updateEach (fun _ => rfl) _ _) fun _ => steady_ret _)

theorem steady_drainCustomers (at_ : Int) : ∀ n, Steady (Proper E true) false (drainCustomers settings at_ n)
  | 0 => steady_ret _
  | n + 1 => by
    refine (steady_scrubCustomers at_).bind fun count => ?_
    split
    · exact steady_ret _
    · exact (steady_drainCustomers at_ n).bind fun _ => steady_ret _

theorem within_runRetention : Within (Proper E true) false (runRetention settings) := by
  refine (steady_now trivial).then_ fun at_ => (steady_drainCustomers at_ _).then_ fun count => ?_
  split
  · trivial
  · exact (steady_session fun _ => (steady_record _ _ _).within).then_ fun _ => trivial

end Footprints

def Request.scrubs : Request → Bool
  | .runRetention => true
  | _ => false

def Request.erases : Request → Bool
  | .eraseSubject .. => true
  | _ => false

theorem within_request (settings : Retention.Settings) (request : Request) :
    Within (Proper request.erases request.scrubs) false (request.code settings) := by
  cases request with
  | createBooking q => exact within_createBooking q
  | claim name => exact within_claim name
  | createTicket q actorId => exact within_createTicket q actorId
  | createWalkIn customerId appointmentTypeId actorId => exact within_createWalkIn _ _ _
  | correctPhone bookingId phone actorId => exact within_correctPhone _ _ _
  | updateCustomer customerId notes tags actorId => exact within_updateCustomer _ _ _ _
  | createSession phone sessionTtl => exact within_createSession _ _
  | resolveSession tokenHash => exact within_resolveSession _
  | logout tokenHash => exact within_logout _
  | eraseSubject customerId reason actorId => exact within_eraseSubject _ _ _
  | withdrawMarketing customerId actorId => exact within_withdrawMarketing _ _
  | runRetention => exact within_runRetention

/-! ## The discipline -/

/-- **How a customer goes on**, where scrubs are made (`S`) and where the lock is held (`l`). -/
structure Onward (S l : Bool) (v r : Customer) : Prop where
  consent : v.marketingConsentAt ≠ none → r.marketingConsentAt = v.marketingConsentAt
  withdrawn : v.marketingConsentWithdrawnAt ≠ none → r.marketingConsentWithdrawnAt ≠ none
  check : v.consented = true → r.consented = true
  erased : v.erasedAt ≠ none → r.erasedAt ≠ none
  kept : S = false → l = false → v.erasedAt = none → r.erasedAt = none

structure LoggedIn (v r : CustomerSession) : Prop where
  customerId : r.customerId = v.customerId
  revoked : v.deletedAt ≠ none → r = v

def goesOn (S l : Bool) : (T : Table) → Row T → Row T → Prop
  | .customers, (v : Customer), (r : Customer) => Onward S l v r
  | .sessions, (v : CustomerSession), (r : CustomerSession) => LoggedIn v r
  | .tickets, (v : AlterationTicket), (r : AlterationTicket) => r = v
  | _, _, _ => True

structure Arrives (S l : Bool) (r : Customer) : Prop where
  check : r.consented = true
  kept : S = false → l = false → r.erasedAt = none

def comesIn (S l : Bool) : (T : Table) → Row T → Prop
  | .customers, (r : Customer) => Arrives S l r
  | _, _ => True

theorem onward_refl (v : Customer) : Onward S l v v := ⟨fun _ => rfl, id, id, id, fun _ _ => id⟩

theorem Onward.trans {v r s : Customer} (h : Onward S l v r) (h' : Onward S l r s) : Onward S l v s := by
  refine ⟨fun hv => ?_, fun hv => h'.withdrawn (h.withdrawn hv), fun hv => h'.check (h.check hv),
    fun hv => h'.erased (h.erased hv), fun hS hl hv => h'.kept hS hl (h.kept hS hl hv)⟩
  rw [h'.consent (by rw [h.consent hv]; exact hv), h.consent hv]

theorem LoggedIn.trans {v r s : CustomerSession} (h : LoggedIn v r) (h' : LoggedIn r s) : LoggedIn v s := by
  refine ⟨h'.customerId.trans h.customerId, fun hv => ?_⟩
  have hr := h.revoked hv
  subst hr
  exact h'.revoked hv

/-- **The discipline of every request**, where scrubs are made (`S`). -/
abbrev conduct (S : Bool) : Discipline schema where
  Trans l T r r' := goesOn S l T r r'
  New l T r := comesIn S l T r
  refl l T r := by
    cases T with
    | customers => exact onward_refl r
    | sessions => exact ⟨rfl, fun _ => rfl⟩
    | tickets => rfl
    | bookings | auditLog => trivial
  trans l T a b c hab hbc := by
    cases T with
    | customers => exact Onward.trans hab hbc
    | sessions => exact LoggedIn.trans hab hbc
    | tickets =>
      have hab : b = a := hab
      exact hab ▸ hbc
    | bookings | auditLog => trivial
  weaken T r r' h := by
    cases T with
    | customers =>
      have h : Onward S false r r' := h
      exact ⟨h.consent, h.withdrawn, h.check, h.erased, fun _ hl => by cases hl⟩
    | sessions | tickets => exact h
    | bookings | auditLog => trivial
  new_trans l T r r' h h' := by
    cases T with
    | customers =>
      have h : Arrives S l r := h
      have h' : Onward S l r r' := h'
      exact ⟨h'.check h.check, fun hS hl => h'.kept hS hl (h.kept hS hl)⟩
    | sessions | tickets | bookings | auditLog => trivial
  new_weaken T r h := by
    cases T with
    | customers =>
      have h : Arrives S false r := h
      exact ⟨h.check, fun _ hl => by cases hl⟩
    | sessions | tickets | bookings | auditLog => trivial

theorem onward_apply {g : CustomerChange} {i : Nat} {v r : Customer} (h : CustomerChange.apply v g = some r)
    (hg : Proper E S l (.sql (.update .customers i g))) : Onward S l v r := by
  cases g <;> simp only [CustomerChange.apply] at h
  case rename =>
    cases h
    exact ⟨fun _ => rfl, id, id, id, fun _ _ => id⟩
  case setPhone | setNotesAndTags =>
    split at h <;> cases h
    exact ⟨fun _ => rfl, id, id, id, fun _ _ => id⟩
  case recordMarketingConsent now =>
    split at h <;> cases h
    rename_i hfresh
    refine ⟨fun hv => absurd hfresh.2 hv, id, fun _ => ?_, id, fun _ _ => id⟩
    simp [Customer.consented]
  case withdrawMarketingConsent now =>
    split at h <;> cases h
    rename_i hfresh
    refine ⟨fun _ => rfl, (fun _ hr => by cases hr), fun _ => ?_, id, fun _ _ => id⟩
    simp [Customer.consented, hfresh.2.1]
  case erase now =>
    cases h
    refine ⟨fun _ => rfl, fun hv => ?_, fun hv => ?_, (fun _ hr => by cases hr), fun _ hl => ?_⟩
    · by_cases hc : v.marketingConsentAt = none <;> simp [withdrawCase, hc, hv]
    · by_cases hc : v.marketingConsentAt = none
      · simpa [Customer.consented, withdrawCase, hc] using hv
      · simp [Customer.consented, hc]
    · have hheld : l = true := hg.2
      rw [hl] at hheld
      cases hheld
  case scrub now =>
    cases h
    refine ⟨fun _ => rfl, id, id, (fun _ hr => by cases hr), fun hS _ => ?_⟩
    have hscrubs : S = true := hg
    rw [hS] at hscrubs
    cases hscrubs

theorem legal_proper {o : Op schema outside} (h : Proper E S l o) : (conduct S).Legal l o := by
  cases o with
  | sql o =>
    cases o with
    | update T i g =>
      intro v r _ hr
      cases T with
      | customers => exact onward_apply hr h
      | sessions =>
        cases g with
        | revoke now =>
          have hr : CustomerSessionChange.apply v (.revoke now) = some r := hr
          simp only [CustomerSessionChange.apply] at hr
          split at hr <;> cases hr
          rename_i hlive
          exact ⟨rfl, fun hv => absurd hlive hv⟩
      | tickets => cases g
      | bookings | auditLog => trivial
    | insert T r =>
      intro i n
      cases T with
      | customers =>
        obtain ⟨phone, name, rfl⟩ := h
        exact ⟨rfl, fun _ _ => rfl⟩
      | sessions | tickets | bookings | auditLog => trivial
    | _ => trivial
  | now | ask => trivial

theorem serving_obeyed {reqs : Tid → Request} {rows : Rows schema} {next : Nat} {clock : Int} (h : Shelved rows next)
    (hS : ∀ t, (reqs t).scrubs = true → S = true) :
    Cast.Obeyed (conduct S).shared (serving settings reqs rows next clock) := by
  refine ⟨atRest_lawful h _, fun t p hp => ?_⟩
  cases hp
  refine ⟨false, (fun h => by cases h), uses_mono (fun l o ho => legal_proper (E := (reqs t).erases) ?_) (fun _ _ h => h)
    (within_request settings (reqs t))⟩
  cases hs : (reqs t).scrubs with
  | false => exact (hs ▸ ho).weaken
  | true =>
    rw [hs] at ho
    rw [hS t hs]
    exact ho

end Subjects
