import Boutique.Repositories
/-!
# Sweeper — holds whose clock ran out

One transaction, two claims: expired holds with the bookings they occupied, and bookings that never got a payments row.
-/
namespace Boutique

open Txn

def SWEEP_BATCH_SIZE : Nat := 500

structure SweepResult where
  expired : Nat
  released : Nat
  orphaned : Nat

namespace DepositSweeper

def expireHolds (now : Int) : Prg (List Payment) := do
  let ids ← select .holdCandidates fun s =>
    (matching s .payments fun (p : Payment) => (PaymentChange.apply p (.expireHold now)).isSome).take SWEEP_BATCH_SIZE
  updateEach .payments (.expireHold now) ids

def releaseEach (now : Int) : List Payment → Prg Nat
  | [] => return 0
  | p :: ps => do
    let booking ← Bookings.cancel p.bookingId now .expired [.pendingPayment] none
    let _ ← Audit.record none "payments" (.depositHoldExpired p.id p.bookingId booking.isSome)
    let released ← releaseEach now ps
    return (if booking.isSome then 1 else 0) + released

def orphaned (s : Snapshot schema) (b : Booking) : Bool :=
  !(s.all .payments).any fun (p : Payment) =>
    p.bookingId = b.id ∧ p.deletedAt = none ∧ (p.status = .pending ∨ p.status = .paid)

def cancelOrphans (now grace : Int) : Prg (List Booking) := do
  let ids ← select .orphanCandidates fun s =>
    (matching s .bookings fun (b : Booking) =>
      (BookingChange.apply b (.cancelOrphan now grace)).isSome && orphaned s b).take SWEEP_BATCH_SIZE
  updateEach .bookings (.cancelOrphan now grace) ids

def recordOrphans : List Booking → Prg Unit
  | [] => return ()
  | b :: bs => do
    let _ ← Audit.record none "bookings" (.depositOrphanExpired b.id)
    recordOrphans bs

def sweep (cfg : Config) : Prg SweepResult := do
  let now ← clock
  tenantSession fun _ => do
    let claimed ← expireHolds now
    let released ← releaseEach now claimed
    let orphans ← cancelOrphans now ((cfg.depositHoldSeconds + cfg.pollIntervalSeconds) * second)
    recordOrphans orphans
    return ⟨claimed.length, released, orphans.length⟩

end DepositSweeper
end Boutique
