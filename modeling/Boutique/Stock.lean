import Boutique.Discipline
/-!
# Stock — tables listed row by row, and runs played from them

`tableOf` turns lists of rows into tables and `wellStocked` decides what `Tables` asks of them, so that a run that starts
from listed rows needs no proof of its own.  `shop` is a small tenant for such runs.
-/
namespace Boutique

open Txn

def Table.list : List Table :=
  [.bookings, .payments, .customers, .otpCodes, .scheduledMessages, .auditLog, .messageLog, .availabilityRules,
    .availabilityExceptions, .appointmentTypes, .termsVersions, .dresses, .dressVariants, .dressReservations,
    .waitlistEntries]

theorem Table.mem_list (T : Table) : T ∈ Table.list := by
  cases T <;> decide

def tableOf (f : (T : Table) → List (Row T)) : Rows schema := fun T i => (f T).find? fun r => rowId T r = i

def wellStocked (f : (T : Table) → List (Row T)) (n : Nat) : Bool :=
  Table.list.all fun T => (f T).all fun r =>
    decide (rowId T r < n) && rowCheck T r && (f T).all fun r' => decide (rowId T r = rowId T r') || !rowClash T r r'

theorem tableOf_some {f : (T : Table) → List (Row T)} {T : Table} {i : Nat} {r : Row T} (h : tableOf f T i = some r) :
    r ∈ f T ∧ rowId T r = i := by
  unfold tableOf at h
  exact ⟨List.mem_of_find?_eq_some h, by simpa using List.find?_some h⟩

theorem tables_of_stock {f : (T : Table) → List (Row T)} {n : Nat} (h : wellStocked f n = true) : Tables (tableOf f) n := by
  have hrow : ∀ T, ∀ r ∈ f T, rowId T r < n ∧ rowCheck T r = true ∧
      ∀ r' ∈ f T, rowId T r = rowId T r' ∨ rowClash T r r' = false := by
    intro T r hr
    have hT := List.all_eq_true.1 (List.all_eq_true.1 h T (Table.mem_list T)) r hr
    simp only [Bool.and_eq_true, decide_eq_true_eq, List.all_eq_true, Bool.or_eq_true, Bool.not_eq_true'] at hT
    exact ⟨hT.1.1, hT.1.2, hT.2⟩
  refine ⟨⟨fun T i r hr => (tableOf_some hr).2, fun T i r hr => ?_, fun T i j r r' hr hr' hij => ?_⟩, fun T i r hr => ?_⟩
  · exact (hrow T r (tableOf_some hr).1).2.1
  · obtain ⟨hm, rfl⟩ := tableOf_some hr
    obtain ⟨hm', rfl⟩ := tableOf_some hr'
    exact ((hrow T r hm).2.2 r' hm').resolve_left hij
  · obtain ⟨hm, rfl⟩ := tableOf_some hr
    exact (hrow T r hm).1

theorem steps_of_play (A : server.Assumption) [∀ t o s r s', Decidable (A t o s r s')] (c0 : Conf server Reply)
    (script : List (Action server)) (P : Conf server Reply → Bool) (h : (c0.play A script).any P = true) :
    ∃ c, Conf.Steps A c0 c ∧ P c = true := by
  cases hc : c0.play A script with
  | none =>
    rw [hc] at h
    cases h
  | some c =>
    rw [hc] at h
    exact ⟨c, Conf.play_steps hc, h⟩

theorem reaches_of_play (c0 : Conf server Reply) (script : List (Action server)) (P : Conf server Reply → Bool)
    (h : (c0.play (fun _ _ _ _ _ => True) script).any P = true) : ∃ c, c0.Reaches c ∧ P c = true :=
  steps_of_play _ c0 script P h

def turns (t : Tid) (i : Input) (n : Nat) : List (Action server) := List.replicate n (.call t i)

def claimedSeat (c : Conf server Reply) (t : Tid) : Option Nat :=
  match c.threads t with
  | some (.ret (.claim claim)) => some claim.booking.seatIndex
  | _ => none

def committedRows (c : Conf server Reply) (T : Table) : List (Row T) :=
  Snapshot.all ⟨c.state.db.committed, c.state.db.next⟩ T

/-! ## A small tenant -/

def standardTime : Zone where
  wallOf x := x + 2 * 3600 * second
  instantOf w := w - 2 * 3600 * second
  midnight_le := midnight_le_of_offset _
  lt_midnight := lt_midnight_of_offset _

def shop : Config := ⟨standardTime, some "lemonsqueezy", true, true, true, 900, 60, String.toLower⟩

def fine : Input := ⟨false, true, none, true, .ok ⟨"s1", "url"⟩, true, .sent, false, .sent⟩

def shelf : (T : Table) → List (Row T)
  | .appointmentTypes => [(⟨0, 0, none, "fitting", true, some 5000⟩ : AppointmentType)]
  | .termsVersions => [(⟨1, 0, none, 1, "terms", 24, 100, 0⟩ : TermsVersion)]
  | .availabilityRules => [(⟨2, 0, none, 0, ⟨9 * 3600 * second, nine_nonneg, nine_lt_day⟩,
      ⟨12 * 3600 * second, noon_nonneg, noon_lt_day⟩, 2⟩ : AvailabilityRule)]
  | .otpCodes =>
    [(⟨3, 0, none, "+972501234567", some ⟨1⟩, some (100000 * day), none⟩ : OtpCode),
      (⟨4, 0, none, "+972501234568", some ⟨2⟩, some (100000 * day), none⟩ : OtpCode)]
  | _ => []

def sundayNine : Int := 3 * day + 7 * 3600 * second

def dana : CreateRequest :=
  ⟨"0501234567", 1, "Dana", 0, sundayNine, 1, none, none, none, false, some ⟨some true⟩⟩

def noa : CreateRequest :=
  ⟨"0501234568", 2, "Noa", 0, sundayNine, 1, none, none, none, false, some ⟨some true⟩⟩

def shelfWith (customers : List Customer) (bookings : List Booking) (payments : List Payment) : (T : Table) → List (Row T)
  | .customers => customers
  | .bookings => bookings
  | .payments => payments
  | T => shelf T

def danaRow : Customer := ⟨5, 0, none, "+972501234567", "Dana", none⟩

def fitting : Booking :=
  { id := 6, createdAt := 0, deletedAt := none, customerId := 5, appointmentTypeId := 0, startsAt := sundayNine,
    seatIndex := 1, status := .confirmed, source := .storefront, termsVersionAccepted := some 1, termsAcceptedAt := some 0,
    appointmentTypeName := "fitting", dressId := none, dressName := none, dressSize := none, notes := none,
    manageTokenHash := some ⟨7⟩, cancelledAt := none, cancelledBy := none,
    checkedInAt := none }

def waiting : Booking := { fitting with status := .pendingPayment }

def danaHold : Payment :=
  { id := 7, createdAt := 0, deletedAt := none, bookingId := 6, provider := "lemonsqueezy", amountAgorot := 5000,
    status := .pending, providerSessionId := some "s1", redirectUrl := some "url", providerTransactionId := none,
    holdExpiresAt := some (900 * second), paidAt := none, error := none }

def paysHold : WebhookEvent := ⟨"s1", "t1", 5000, true⟩

def another : Input := { fine with session := .ok ⟨"s2", "url2"⟩ }

def unpaid : (T : Table) → List (Row T) := shelfWith [danaRow] [waiting] [danaHold]

def committedStatus (c : Conf server Reply) (i : Nat) : Option BookingStatus :=
  (c.state.db.committed .bookings i).map Booking.status

theorem shelf_tables : Tables (tableOf shelf) 5 := tables_of_stock (by decide)

theorem unpaid_tables : Tables (tableOf unpaid) 8 := tables_of_stock (by decide)

end Boutique
