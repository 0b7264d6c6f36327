import Boutique.Deposits
import Boutique.Drain
import Boutique.Relink
import Boutique.Sweeper
/-!
# Jobs — the server's threads

Every coroutine the process runs for one tenant: the requests of customers and staff, the webhook deliveries, the
sweeper's ticks.  A run starts from quiet tables, one thread for each job.
-/
namespace Boutique

open Txn

inductive Job
  | createBooking (r : CreateRequest)
  | postBookings (r : CreateRequest)
  | claim (r : OfferClaimRequest)
  | claimOffer (r : OfferClaimRequest)
  | delivery (event : WebhookEvent)
  | sweep
  | ownerConfirm (bookingId staffId : Nat)
  | ownerNoShow (bookingId staffId : Nat)
  | ownerComplete (bookingId staffId : Nat)
  | ownerCancel (bookingId staffId : Nat)
  | reschedule (bookingId : Nat) (newStartsAt : Int) (staffId : Nat)
  | customerCancel (token : Nat)
  | checkIn (bookingId staffId : Nat)
  | undoCheckIn (bookingId staffId : Nat)
  | replaceWeeklyRules (rules : List WeeklyRuleInput)
  | addException (date : Int) (openTime closeTime : Option WallTime) (note : Option String)
  | removeException (exceptionId : Nat)

inductive Reply
  | claim (c : BookingClaim)
  | created (r : BookingCreateResponse)
  | settlement (s : PaymentService.Settlement)
  | swept (r : SweepResult)
  | mutation (m : OwnerMutation)
  | cancelled (b : Booking)
  | relinked (b : Booking) (token : Nat)
  | reissued (token : Option Nat)
  | backfilled (r : ManageLinkBackfill.BackfillResult)
  | drained (r : DrainResult)
  | edited

def Job.code (cfg : Config) : Job → Prg Reply
  | .createBooking r => do return .claim (← BookingService.createBooking cfg r)
  | .postBookings r => do return .created (← Boutique.postBookings cfg r)
  | .claim r => do return .claim (← WaitlistOffer.claim cfg r)
  | .claimOffer r => do return .created (← WaitlistOffer.claimOffer cfg r)
  | .delivery event => do return .settlement (← DepositBooking.settle cfg event)
  | .sweep => do return .swept (← DepositSweeper.sweep cfg)
  | .ownerConfirm b s => do return .mutation (← OwnerBooking.confirm b s)
  | .ownerNoShow b s => do return .mutation (← OwnerBooking.noShow b s)
  | .ownerComplete b s => do return .mutation (← OwnerBooking.complete b s)
  | .ownerCancel b s => do return .mutation (← OwnerBooking.cancel b s)
  | .reschedule b x s => do return .mutation (← OwnerBooking.reschedule cfg b x s)
  | .customerCancel token => do return .cancelled (← ManageBooking.cancel token)
  | .checkIn b s => do return .mutation (← OwnerBooking.checkIn b s)
  | .undoCheckIn b s => do return .mutation (← OwnerBooking.undoCheckIn b s)
  | .replaceWeeklyRules rules => do
    let _ ← BoutiqueService.replaceWeeklyRules rules
    return .edited
  | .addException date openTime closeTime note => do
    let _ ← BoutiqueService.addAvailabilityException date openTime closeTime note
    return .edited
  | .removeException id => do
    let _ ← BoutiqueService.removeAvailabilityException id
    return .edited

def quiet (rows : Rows schema) (next : Nat) (now : Int) : Engine schema where
  committed := rows
  pending _ _ _ := none
  owner _ _ := none
  advisory := none
  next := next
  clock := now
  started _ := 0
  seen _ := 0
  log := []

def start (cfg : Config) (jobs : Tid → Job) (rows : Rows schema) (next : Nat) (now : Int) : Conf server Reply where
  state := ⟨quiet rows next now, ⟨[], [], 0, []⟩⟩
  threads t := some ((jobs t).code cfg)

end Boutique
