import Boutique.Rules
/-!
# Errands — the jobs about links and messages

The routes and ticks that write manage links and scheduled messages, beside every job there is.  Nothing is asked of what
they do to rows but what every statement of the schema does: a booking and a message stay what they are of, and a message
that has left `pending` never comes back.
-/
namespace Boutique

open Txn

inductive Errand
  | job (job : Job)
  | rescheduleBooking (bookingId : Nat) (newStartsAt : Int) (staffId : Nat)
  | correctPhone (bookingId : Nat) (rawPhone : String) (staffId : Nat)
  | resendLink (bookingId staffId : Nat)
  | reissue (bookingId : Nat)
  | backfill
  | drain (limit : Nat)

def Errand.drains : Errand → Bool
  | .drain _ => true
  | _ => false

def Errand.code (cfg : Config) : Errand → Prg Reply
  | .job j => j.code cfg
  | .rescheduleBooking b x s => do return .mutation (← OwnerBooking.rescheduleBooking cfg b x s)
  | .correctPhone b phone s => do
    let (booking, token) ← OwnerBooking.sendRotation (OwnerBooking.correctPhone b phone s)
    return .relinked booking token
  | .resendLink b s => do
    let (booking, token) ← OwnerBooking.sendRotation (OwnerBooking.resendLink b s)
    return .relinked booking token
  | .reissue b => do return .reissued (← BookingComms.reissueManageToken b)
  | .backfill => do return .backfilled (← ManageLinkBackfill.run)
  | .drain limit => do return .drained (← BookingComms.drainDue limit)

/-- The server and its worker about to run their errands on quiet tables. -/
def setOut (cfg : Config) (errands : Tid → Errand) (rows : Rows schema) (next : Nat) (now : Int) : Conf server Reply where
  state := ⟨quiet rows next now, ⟨[], [], 0, []⟩⟩
  threads t := some ((errands t).code cfg)

/-! ## The cast -/

def anything : Discipline schema where
  Trans _ T r r' := match T, r, r' with
    | .bookings, (b : Booking), (b' : Booking) => b'.deletedAt = b.deletedAt
    | .scheduledMessages, (m : ScheduledMessage), (m' : ScheduledMessage) => MessageBecomes m m'
    | _, _, _ => True
  New _ _ _ := True
  refl _ T r := by
    cases T with
    | bookings => rfl
    | scheduledMessages => exact ⟨rfl, rfl, rfl, fun h => h⟩
    | _ => trivial
  trans _ T r r' r'' h h' := by
    cases T with
    | bookings => exact Eq.trans h' h
    | scheduledMessages => exact MessageBecomes.trans h h'
    | _ => trivial
  weaken _ _ _ h := h
  new_trans _ _ _ _ h _ := h
  new_weaken _ _ h := h

def Anyone : Cast schema where
  common := anything
  role _ := anything
  sub _ _ _ _ _ h := h
  new_sub _ _ _ _ h := h

theorem BookingChange.keepsDeleted {g : BookingChange} {b b' : Booking} (h : g.apply b = some b') :
    b'.deletedAt = b.deletedAt := by
  cases g <;> simp only [BookingChange.apply] at h <;> split at h <;> cases h <;> rfl

theorem anything_legal (l : Bool) (o : Op schema service) : anything.Legal l o := by
  cases o with
  | sql o =>
    cases o with
    | update T i g =>
      intro r r' _ hr
      cases T with
      | bookings => exact BookingChange.keepsDeleted hr
      | scheduledMessages => exact ScheduledMessageChange.becomes hr
      | _ => trivial
    | insert => exact fun _ _ => trivial
    | _ => trivial
  | now | ask => trivial

theorem uses_all {F : Foot} (hF : ∀ l o, F l o) {α : Type} (p : Prg α) (l : Bool) : Within F l p := by
  induction p generalizing l with
  | ret a => trivial
  | raise e => trivial
  | call o k ih => exact ⟨hF l o, fun r => ih r _⟩

variable {cfg : Config} {errands : Tid → Errand} {rows : Rows schema} {next : Nat} {now : Int} {c : Conf server Reply}
  {A : server.Assumption}

theorem setOut_obeyed (h : Tables rows next) : Cast.Obeyed Anyone (setOut cfg errands rows next now) := by
  refine ⟨quiet_lawful h _, fun t p _ => ⟨false, nofun, uses_all (fun l o => anything_legal l o) p false⟩⟩

/-! ## The writes -/

inductive RelinkWrites : Foot
  | rotate (l : Bool) (b : Nat) (h : Digest) (from_ : List BookingStatus) (n : Int) : RelinkWrites l
      (Op.update .bookings b (.rotateManageTokenHash h from_ n))
  | token (l : Bool) (b : Nat) (h : Digest) : RelinkWrites l (Op.update .bookings b (.setManageTokenHash h))
  | customer (l : Bool) (b i : Nat) (from_ : List BookingStatus) (n : Int) : RelinkWrites l
      (Op.update .bookings b (.setCustomerId i from_ n))
  | phone (l : Bool) (i : Nat) (phone : String) : RelinkWrites l (Op.update .customers i (.setPhone phone))
  | repoint (l : Bool) (i token : Nat) : RelinkWrites l (Op.update .scheduledMessages i (.setManageToken token))
  | remind (l : Bool) (b : Nat) (at_ : Int) (token : Option Nat) : RelinkWrites l
      (Op.insert .scheduledMessages (Scheduled.pending b .reminder at_ token))
  | evidence (l : Bool) (staffId b : Nat) (action : AuditAction) : RelinkWrites l
      (Op.insert .auditLog (Audit.entry (some staffId) (toString b) action))
  | send (l : Bool) (kind : MessageKind) (b : Nat) {o : Op schema service} (h : SendWrites kind b l o) : RelinkWrites l o

inductive ErrandWrites : Foot
  | job (j : Job) {l : Bool} {o : Op schema service} (h : j.Writes l o) : ErrandWrites l o
  | relink {l : Bool} {o : Op schema service} (h : RelinkWrites l o) : ErrandWrites l o

section Services

variable {s l : Bool}

theorem steady_send (kind : MessageKind) (booking : Booking) :
    Steady (Writes true RelinkWrites) false (notify kind booking) :=
  (steady_notify kind booking).mono (writes_mono fun l _ h => .send l kind booking.id h)

theorem steady_repoint (pending : Option ScheduledMessage) (token : Nat) :
    Steady (Writes s RelinkWrites) l (Scheduled.repoint pending token) := by
  cases pending with
  | none => exact steady_pure _
  | some row => exact (steady_update (.repoint _ _ _)).bind fun _ => steady_pure _

theorem steady_notifyOwnerReschedule (booking : Booking) :
    Steady (Writes true RelinkWrites) false (BookingComms.notifyOwnerReschedule booking) := by
  unfold BookingComms.notifyOwnerReschedule customerPhone BookingComms.noticeToken BookingComms.liveToken BookingComms.rotate
  refine (steady_ask rfl).bind fun configured => ?_
  cases configured with
  | false => exact steady_pure _
  | true =>
    refine Steady.bind ((steady_session fun _ => (steady_select _ _).within).bind fun _ => steady_pure _) fun phone => ?_
    cases phone with
    | none => exact steady_pure _
    | some phone =>
      refine Steady.bind (Steady.bind (steady_session fun _ => Steady.within ((steady_oneOrNone _ _).bind fun _ =>
        steady_pure _)) fun live => ?_) fun token => ?_
      · cases live with
        | some token => exact steady_pure _
        | none =>
          refine (steady_ask rfl).bind fun token => ?_
          exact (steady_session fun _ => (steady_update (.token _ _ _)).within).bind fun _ => steady_pure _
      · cases token with
        | none => exact steady_pure _
        | some token => exact (steady_deliver phone _ _).mono (writes_mono fun l _ h => .send l _ _ h)

theorem steady_reissue (b : Nat) : Steady (Writes true RelinkWrites) false (BookingComms.reissueManageToken b) := by
  unfold BookingComms.reissueManageToken BookingComms.reissueIn
  refine Steady.bind (steady_session fun _ => Steady.within ((steady_select _ _).bind fun found => ?_)) fun r => ?_
  · cases found with
    | none => exact steady_pure _
    | some booking =>
      refine (steady_ask rfl).bind fun token => (steady_update (.token _ b _)).bind fun _ => ?_
      exact (steady_oneOrNone _ _).bind fun _ => (steady_repoint _ _).bind fun _ => steady_pure _
  · cases r with
    | none => exact steady_pure _
    | some r => exact (steady_send _ _).bind fun _ => steady_pure _

theorem steady_guardLive (b : Nat) (now : Int) : Steady (Writes s RelinkWrites) l (OwnerBooking.guardLive b now) := by
  unfold OwnerBooking.guardLive
  refine (steady_select _ _).bind fun _ => (steady_orRaise _ _).bind fun _ => ?_
  exact (steady_raiseIf _ _).bind fun _ => (steady_raiseIf _ _).bind fun _ => steady_pure _

theorem steady_rotateLinks (now : Int) : ∀ bs : List Booking,
    Steady (Writes s RelinkWrites) l (OwnerBooking.rotateLinks now bs)
  | [] => rfl
  | b :: bs => by
    have hone : Steady (Writes s RelinkWrites) l (OwnerBooking.rotateLink b now) := by
      unfold OwnerBooking.rotateLink
      refine (steady_ask rfl).bind fun token => (steady_update (.rotate _ _ _ _ _)).bind fun _ => ?_
      refine (steady_raiseIf _ _).bind fun _ => (steady_oneOrNone _ _).bind fun _ => ?_
      exact (steady_repoint _ _).bind fun _ => steady_pure _
    exact hone.bind fun _ => (steady_rotateLinks now bs).bind fun _ => rfl

theorem steady_correct (booking : Booking) (phone : String) (now : Int) :
    Steady (Writes s RelinkWrites) l (OwnerBooking.correct booking phone now) := by
  have hdigits : Steady (Writes s RelinkWrites) l (OwnerBooking.correctDigits booking phone now) := by
    unfold OwnerBooking.correctDigits
    refine (steady_onIntegrity (steady_update (.phone _ _ _)) (steady_throw _)).bind fun _ => ?_
    exact (steady_raiseIf _ _).bind fun _ => (steady_select _ _).bind fun _ => steady_pure _
  unfold OwnerBooking.correct
  refine Steady.bind (steady_oneOrNone _ _) fun target => ?_
  cases target with
  | none => exact hdigits
  | some target =>
    show Steady _ _ (if _ then _ else _)
    split
    · unfold OwnerBooking.repointTo
      refine Steady.bind (steady_oneOrNone _ _) fun _ => (steady_raiseIf _ _).bind fun _ => ?_
      refine (steady_onIntegrity (steady_update (.customer _ _ _ _ _)) (steady_throw _)).bind fun _ => ?_
      exact (steady_raiseIf _ _).bind fun _ => steady_pure _
    · exact hdigits

theorem steady_correctPhone (b : Nat) (raw : String) (staffId : Nat) :
    Steady (Writes true RelinkWrites) false (OwnerBooking.correctPhone b raw staffId) := by
  unfold OwnerBooking.correctPhone OwnerBooking.correctIn OwnerBooking.record
  refine (steady_liftExcept _).bind fun phone => (steady_ask rfl).bind fun _ => (steady_raiseIf _ _).bind fun _ => ?_
  refine steady_clock.bind fun now => Steady.bind (steady_session fun _ => Steady.within ?_) fun _ =>
    (steady_ask rfl).bind fun _ => steady_pure _
  refine (steady_guardLive b now).bind fun booking => (steady_select _ _).bind fun old => ?_
  refine (steady_correct booking phone now).bind fun corrected => (steady_rotateLinks now _).bind fun tokens => ?_
  exact (steady_insert (.evidence _ staffId _ _)).bind fun _ => (steady_orRaise _ _).bind fun _ => steady_pure _

theorem steady_resendLink (b staffId : Nat) :
    Steady (Writes true RelinkWrites) false (OwnerBooking.resendLink b staffId) := by
  unfold OwnerBooking.resendLink OwnerBooking.resendIn OwnerBooking.record
  refine (steady_ask rfl).bind fun _ => (steady_raiseIf _ _).bind fun _ => ?_
  refine steady_clock.bind fun now => Steady.bind (steady_session fun _ => Steady.within ?_) fun _ =>
    (steady_ask rfl).bind fun _ => steady_pure _
  refine (steady_guardLive b now).bind fun booking => (steady_rotateLinks now _).bind fun tokens => ?_
  exact (steady_insert (.evidence _ staffId _ _)).bind fun _ => (steady_orRaise _ _).bind fun _ => steady_pure _

theorem steady_fillEach (now : Int) : ∀ (bs : List Booking) (r : ManageLinkBackfill.BackfillResult),
    Steady (Writes s RelinkWrites) l (ManageLinkBackfill.fillEach now bs r)
  | [], _ => rfl
  | b :: bs, r => by
    have hone : Steady (Writes s RelinkWrites) l (ManageLinkBackfill.fill b now) := by
      unfold ManageLinkBackfill.fill
      refine (steady_ask rfl).bind fun token => (steady_update (.token _ _ _)).bind fun _ => ?_
      cases reminderSendAfter b.startsAt now with
      | none => exact steady_pure _
      | some at_ => exact (steady_insert (.remind _ _ _ _)).bind fun _ => steady_pure _
    exact hone.bind fun _ => steady_fillEach now bs _

theorem steady_chunks (now : Int) : ∀ (n : Nat) (r : ManageLinkBackfill.BackfillResult),
    Steady (Writes true RelinkWrites) false (ManageLinkBackfill.chunks now n r)
  | 0, _ => rfl
  | n + 1, r => by
    refine Steady.bind (steady_session fun _ => Steady.within ((steady_select _ _).bind fun rows =>
      (steady_fillEach now rows r).bind fun _ => steady_pure _)) fun page => ?_
    obtain ⟨k, r'⟩ := page
    show Steady _ _ (if _ then _ else _)
    split
    · exact steady_pure _
    · exact steady_chunks now n r'

theorem steady_errand (cfg : Config) {e : Errand} (h : e.drains = false) :
    Steady (Writes true ErrandWrites) false (e.code cfg) := by
  have hrelink : ∀ {α : Type} {p : Prg α}, Steady (Writes true RelinkWrites) false p →
      Steady (Writes true ErrandWrites) false p := fun hp => hp.mono (writes_mono fun _ _ h => .relink h)
  cases e with
  | job j => exact (steady_code cfg j).mono (writes_mono fun _ _ h => .job j h)
  | rescheduleBooking b x staffId =>
    have hmove : Steady (Writes true ErrandWrites) false (OwnerBooking.reschedule cfg b x staffId) :=
      (steady_reschedule cfg b x staffId).mono (writes_mono fun _ _ h => .job (.reschedule b x staffId) h)
    refine Steady.bind (hmove.bind fun m => ?_) fun _ => steady_pure _
    split
    · exact (hrelink (steady_notifyOwnerReschedule m.booking)).bind fun _ => steady_pure _
    · exact steady_pure _
  | correctPhone b phone staffId =>
    refine Steady.bind (Steady.bind (hrelink (steady_correctPhone b phone staffId)) fun r => ?_) fun r => steady_pure _
    exact (hrelink (steady_send _ _)).bind fun _ => steady_pure _
  | resendLink b staffId =>
    refine Steady.bind (Steady.bind (hrelink (steady_resendLink b staffId)) fun r => ?_) fun r => steady_pure _
    exact (hrelink (steady_send _ _)).bind fun _ => steady_pure _
  | reissue b => exact (hrelink (steady_reissue b)).bind fun _ => steady_pure _
  | backfill => exact (steady_clock.bind fun now => hrelink (steady_chunks now _ _)).bind fun _ => steady_pure _
  | drain => cases h

end Services

end Boutique
