import Boutique.Jobs
/-!
# Raises — the errors a service never raises

`Never e p` says that `p` does not raise `e`, whatever its calls are answered.  Outside the two seat searches, no
service raises the refusal of a search that found no seat.
-/
namespace Boutique

open Txn

/-- **The program never raises `e`**, whatever it is answered. -/
def Never {α : Type} (e : Err) : Prg α → Prop
  | .ret _ => True
  | .raise e' => e' ≠ e
  | .call _ k => ∀ x, Never e (k x)

section Rules

variable {α β : Type} {e : Err}

theorem Never.bind {p : Prg α} {f : α → Prg β} (hp : Never e p) (hf : ∀ a, Never e (f a)) : Never e (p >>= f) := by
  induction p with
  | ret a => exact hf a
  | raise e' => exact hp
  | call o k ih => exact fun x => ih x (hp x)

theorem never_pure (a : α) : Never e (pure a : Prg α) := trivial

theorem never_ask (q : Ask) : Never e (ask q) := fun _ => trivial

theorem never_clock : Never e clock := fun _ => trivial

theorem never_select (q : Query) (f : Snapshot schema → α) : Never e (select q f) := fun _ => trivial

theorem never_update (h : .integrity ≠ e) (T : Table) (i : Nat) (g : Change T) : Never e (update T i g) := by
  intro x
  cases x with
  | ok r => trivial
  | error _ => exact h

theorem never_raiseIf {e' : Err} (c : Bool) (h : e' ≠ e) : Never e (raiseIf c e') := by
  cases c with
  | true => exact h
  | false => trivial

theorem never_orRaise {e' : Err} (x : Option α) (h : e' ≠ e) : Never e (orRaise x e') := by
  cases x with
  | none => exact h
  | some a => trivial

theorem never_scalarOneOrNone (h : .multipleResultsFound ≠ e) (xs : List α) : Never e (scalarOneOrNone xs) := by
  match xs with
  | [] => trivial
  | [a] => trivial
  | a :: b :: xs => exact h

theorem never_updateEach (h : .integrity ≠ e) {T : Table} {g : Change T} :
    ∀ is : List Nat, Never e (updateEach T g is)
  | [] => trivial
  | i :: is => (never_update h T i g).bind fun _ => (never_updateEach h is).bind fun _ => trivial

theorem never_updateWhere (h : .integrity ≠ e) {q : Query} {T : Table} {g : Change T} : Never e (updateWhere q T g) :=
  (never_select _ _).bind fun _ => never_updateEach h _

theorem never_oneOrNone (h : .multipleResultsFound ≠ e) (q : Query) (f : Snapshot schema → List α) :
    Never e (select q f >>= scalarOneOrNone) := (never_select q f).bind fun _ => never_scalarOneOrNone h _

end Rules

/-! ## What runs around a seat search -/

abbrev noSeat : Err := .slotUnavailable .noFreeSeat

theorem validateCustomerName_ne (name : String) : validateCustomerName name ≠ .error noSeat := by
  unfold validateCustomerName
  (repeat' split) <;> exact nofun

theorem validateNotes_ne (notes : Option String) : validateNotes notes ≠ .error noSeat := by
  unfold validateNotes
  (repeat' split) <;> exact nofun

theorem validateBookingRequest_ne (name : String) (notes : Option String) (dressId : Option Nat) (size : Option String) :
    validateBookingRequest name notes dressId size ≠ .error noSeat := by
  unfold validateBookingRequest
  cases hname : validateCustomerName name with
  | error e => exact fun h => validateCustomerName_ne name (hname.trans h)
  | ok u =>
    cases hnotes : validateNotes notes with
    | error e => exact fun h => validateNotes_ne notes (hnotes.trans h)
    | ok u =>
      simp only [bind, Except.bind]
      (repeat' split) <;> exact nofun

theorem normalizeIsraeliMobile_ne (raw : String) : normalizeIsraeliMobile raw ≠ .error noSeat := by
  intro h
  unfold normalizeIsraeliMobile at h
  rcases ite_eq_iff.1 h with ⟨-, h⟩ | ⟨-, h⟩ <;> cases h

theorem never_provePhone (phone : String) (token : Nat) (n : Int) :
    Never noSeat (BookingService.provePhone phone token n) :=
  never_clock.bind fun _ => Never.bind ((never_updateWhere (by nofun)).bind fun _ =>
    (never_scalarOneOrNone (by nofun) _).bind fun _ => trivial) fun _ =>
      (never_raiseIf _ (by nofun)).bind fun _ => (never_ask _).bind fun _ => never_ask _

theorem never_typeAndTerms (i v : Nat) : Never noSeat (BookingService.typeAndTerms i v) :=
  (never_select _ _).bind fun _ => (never_orRaise _ (by nofun)).bind fun _ => (never_select _ _).bind fun _ =>
    (never_raiseIf _ (by nofun)).bind fun _ => trivial

theorem never_gatewayConnected (cfg : Config) : Never noSeat (gatewayConnected cfg) := by
  unfold gatewayConnected
  split
  · exact never_ask _
  · trivial

theorem never_snapshotDress (cfg : Config) (dressId : Option Nat) (size : Option String) :
    Never noSeat (BookingService.snapshotDress cfg dressId size) := by
  cases dressId with
  | none => trivial
  | some id =>
    exact (never_orRaise _ (by nofun)).bind fun _ => (never_select _ _).bind fun _ => (never_orRaise _ (by nofun)).bind fun _ =>
      (never_select _ _).bind fun _ => (never_orRaise _ (by nofun)).bind fun _ => trivial

theorem never_checkDress (cfg : Config) (dressId : Option Nat) (x : Int) :
    Never noSeat (BookingService.checkDress cfg dressId x) := by
  cases dressId with
  | none => trivial
  | some id => exact (never_select _ _).bind fun _ => never_raiseIf _ nofun

theorem never_checkBudgets (phone : String) : Never noSeat (BookingService.checkBudgets phone) := by
  refine (never_ask _).bind fun blocked => ?_
  cases blocked with
  | true => exact nofun
  | false => exact (never_ask _).bind fun _ => never_raiseIf _ nofun

theorem never_resolve (token : Nat) : Never noSeat (WaitlistOffer.resolve token) :=
  (never_oneOrNone (by nofun) _ _).bind fun _ => (never_orRaise _ (by nofun)).bind fun _ =>
    (never_raiseIf _ (by nofun)).bind fun _ => trivial

theorem never_claimEntry (i : Nat) (n : Int) : Never noSeat (WaitlistOffer.claimEntry i n) := by
  refine Never.bind ((never_update (by nofun) _ _ _).bind fun _ => never_pure _) fun won => ?_
  cases won with
  | true => trivial
  | false => exact (never_select _ _).bind fun _ => nofun

end Boutique
