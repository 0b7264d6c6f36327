import Boutique.Errands
/-!
# Terms — the versions of the cancellation policy

The policy is versioned and only ever added to.  The next number is read before it is written, with no lock: the unique
index refuses the second of two racers, who reads again and tries once more.  Beside the owners who publish run all the
errands there are, the bookings that accept a version among them.
-/
namespace Boutique

open Txn

def MAX_TERMS_TEXT_BYTES : Nat := 50 * 1024
def MAX_REFUNDABLE_HOURS : Int := 24 * 365 * 10

structure TermsInput where
  termsText : String
  refundableUntilHoursBefore : Int
  forfeitPercent : Int
  createdBy : Nat

def validateTerms (r : TermsInput) : Except Err Unit :=
  if strip r.termsText = "" then .error (.boutiqueValidation "terms_text must not be blank")
  else if MAX_TERMS_TEXT_BYTES < r.termsText.utf8ByteSize then .error (.boutiqueValidation "terms_text exceeds 50 KB")
  else if ¬(0 ≤ r.refundableUntilHoursBefore ∧ r.refundableUntilHoursBefore ≤ MAX_REFUNDABLE_HOURS) then
    .error (.boutiqueValidation
      ("refundable_until_hours_before must be between 0 and " ++ toString MAX_REFUNDABLE_HOURS))
  else if ¬(0 ≤ r.forfeitPercent ∧ r.forfeitPercent ≤ 100) then
    .error (.boutiqueValidation "forfeit_percent must be between 0 and 100")
  else .ok ()

namespace BoutiqueService

def insertNextTermsVersion (r : TermsInput) : Prg TermsVersion :=
  tenantSession fun _ => do
    let highest ← Terms.maxVersion
    Terms.insert (highest + 1) r.termsText r.refundableUntilHoursBefore r.forfeitPercent r.createdBy

def createTermsVersion (r : TermsInput) : Prg TermsVersion := do
  liftExcept (validateTerms r)
  let blocked ← ask (.isBlocked .terms)
  raiseIf blocked .termsThrottled
  let created ← onIntegrity (insertNextTermsVersion r) (onIntegrity (insertNextTermsVersion r) (throw .termsVersionConflict))
  ask (.recordFailure .terms)
  return created

end BoutiqueService

/-! ## The threads -/

inductive Party
  | errand (errand : Errand)
  | createTermsVersion (r : TermsInput)

inductive Answer
  | errand (reply : Reply)
  | terms (created : TermsVersion)

def Party.code (cfg : Config) : Party → Prg Answer
  | .errand e => do return .errand (← e.code cfg)
  | .createTermsVersion r => do return .terms (← BoutiqueService.createTermsVersion r)

def Party.publishes : Party → Bool
  | .errand _ => false
  | .createTermsVersion _ => true

def Party.books : Party → Option CreateRequest
  | .errand (.job (.createBooking r)) => some r
  | .errand (.job (.postBookings r)) => some r
  | _ => none

def opening (cfg : Config) (parties : Tid → Party) (rows : Rows schema) (next : Nat) (now : Int) : Conf server Answer where
  state := ⟨quiet rows next now, ⟨[], [], 0, []⟩⟩
  threads t := some ((parties t).code cfg)

/-! ## The cast -/

def evidence : Discipline schema where
  Trans _ T r r' := match T, r, r' with
    | .bookings, (b : Booking), (b' : Booking) =>
      b'.termsVersionAccepted = b.termsVersionAccepted ∧ b'.termsAcceptedAt = b.termsAcceptedAt
    | .termsVersions, r, r' => r' = r
    | _, _, _ => True
  New _ _ _ := True
  refl _ T r := by
    cases T with
    | bookings => exact ⟨rfl, rfl⟩
    | termsVersions => rfl
    | _ => trivial
  trans _ T r r' r'' h h' := by
    cases T with
    | bookings => exact ⟨h'.1.trans h.1, h'.2.trans h.2⟩
    | termsVersions => exact Eq.trans h' h
    | _ => trivial
  weaken _ _ _ h := h
  new_trans _ _ _ _ h _ := h
  new_weaken _ _ h := h

/-- What a party may add: a version where it publishes, and a booking with the version it was asked for. -/
def Party.part (p : Party) : Discipline schema :=
  { evidence with
    New := fun _ T r => match T, r with
      | .termsVersions, _ => p.publishes = true
      | .bookings, (b : Booking) => ∀ r, p.books = some r → b.termsVersionAccepted = some r.termsVersion
      | _, _ => True
    new_trans := fun _ T r r' h h' => by
      cases T with
      | bookings => exact fun x hx => h'.1.trans (h x hx)
      | termsVersions => exact h
      | _ => trivial
    new_weaken := fun _ _ h => h }

def Parties (parties : Tid → Party) : Cast schema where
  common := evidence
  role t := (parties t).part
  sub _ _ _ _ _ h := h
  new_sub _ _ _ _ _ := trivial

theorem BookingChange.keepsAccepted {g : BookingChange} {b b' : Booking} (h : g.apply b = some b') :
    b'.termsVersionAccepted = b.termsVersionAccepted ∧ b'.termsAcceptedAt = b.termsAcceptedAt := by
  cases g <;> simp only [BookingChange.apply] at h <;> split at h <;> cases h <;> exact ⟨rfl, rfl⟩

def Party.Adds (p : Party) : Foot := fun _ o => match o with
  | .sql (.insert .termsVersions _) => p.publishes = true
  | .sql (.insert .bookings b) => ∀ r, p.books = some r → Booking.termsVersionAccepted b = some r.termsVersion
  | _ => True

theorem Party.part_legal {p : Party} {l : Bool} {o : Op schema service} (h : p.Adds l o) : p.part.Legal l o := by
  cases o with
  | sql o =>
    cases o with
    | update T i g =>
      intro r r' _ hr
      cases T with
      | bookings => exact BookingChange.keepsAccepted hr
      | termsVersions => cases g
      | _ => trivial
    | insert T r =>
      intro i n
      cases T with
      | bookings | termsVersions => exact h
      | _ => trivial
    | _ => trivial
  | now | ask => trivial

end Boutique
