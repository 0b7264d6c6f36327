import Boutique.Upkeep
/-!
# Between — the catalogue asks the storage between its transactions

The bodies of the transactions make statements only; what is asked of the limiter and of the storage is asked with none open.
-/
namespace Catalog

open Txn Session

variable {cfg : Config}

/-- **Nobody waits for the storage with a transaction open.**  In every run a thread that waits for an answer from outside, and
one that has ended, has ended every transaction that it has begun, one that only reads as well: it has no row of its own in
flight, holds no row and does not hold the lock. -/
theorem waits_unheld {reqs : Tid → Request} {store : Store} {rows : Rows schema} {next : Nat} {clock : Int}
    {c : Conf (machine schema outside Err) Response} {opened : Tid → Bool} (h : Shelved rows next)
    (hr : Conf.Opened (fun _ _ _ _ _ => True) (serving cfg reqs store rows next clock) c opened) {t : Tid} {p : Prg Response}
    (ht : c.threads t = some p) (hp : (∃ q k, p = .call (.ask q) k) ∨ (∃ response, p = .ret response) ∨ ∃ e, p = .raise e) :
    opened t = false ∧ (∀ T i, c.state.db.pending t T i = none ∧ c.state.db.owner T i ≠ some t) ∧
      c.state.db.advisory ≠ some t := by
  have hobeyed : Cast.Obeyed (staff cfg reqs keeping fun _ _ _ => writes_keeping) (serving cfg reqs store rows next clock) :=
    serving_obeyed h
  have hplaced : Placed (serving cfg reqs store rows next clock) fun _ => false := by
    intro t p hp
    cases hp
    exact ⟨(served_request cfg (reqs t)).orderly, fun _ => ⟨⟨rfl⟩, nofun⟩⟩
  exact (hr.placed hplaced).unheld (hobeyed.steps hr.steps).1.lawful ht hp

def displayed : (T : Table) → List (Row T)
  | .dresses => [(⟨0, 0, none, "lace", none, none, false, false, 0⟩ : Dress)]
  | .dressMedia => [(⟨1, 0, none, 0, ⟨0, 1, ".png"⟩, "image/png", 8, .ready, 0⟩ : DressMedia),
      (⟨2, 0, none, 0, ⟨0, 2, ".png"⟩, "image/png", 8, .ready, 1⟩ : DressMedia),
      (⟨3, 0, none, 0, ⟨0, 3, ".png"⟩, "image/png", 8, .pending, 0⟩ : DressMedia)]
  | _ => []

theorem displayed_shelved : Shelved (listed (S := schema) displayed) 4 :=
  shelved_of_stocked [.dresses, .dressVariants, .dressMedia, .dressReservations, .customers, .auditLog]
    (fun T => by cases T <;> decide) (by decide)

def galleryConfig : Config := ⟨.media 0, 900, id, id⟩

def posted : Store where
  objects key := if key = ⟨0, 3, ".png"⟩ then some ⟨"image/png", [0x89, 0x50, 0x4e, 0x47, 0x0d, 0x0a, 0x1a, 0x0a]⟩ else none
  forms := []
  signed := []
  looks := []

def answered (t : Tid) (n : Nat) : List (Action (machine schema outside Err)) := List.replicate n (.call t ⟨true, none⟩)

def waiting (c : Conf (machine schema outside Err) Response) (t : Tid) : Bool :=
  match c.threads t with
  | some (.call (.ask _) _) => true
  | _ => false

theorem waiting_iff {c : Conf (machine schema outside Err) Response} {t : Tid} :
    waiting c t = true ↔ ∃ q k, c.threads t = some (.call (.ask q) k) := by
  unfold waiting
  constructor
  · intro h
    split at h
    · rename_i q k ht
      exact ⟨q, k, ht⟩
    · cases h
  · rintro ⟨q, k, ht⟩
    rw [ht]

def confirmAndTurn : Tid → Request
  | 0 => .confirmMedia 0 3 0
  | _ => .reorderMedia 0 [2, 1] 0

theorem waits_unheld_confirm : ∃ c opened, Conf.Opened (fun _ _ _ _ _ => True)
    (serving galleryConfig confirmAndTurn posted (listed (S := schema) displayed) 4 0) c opened ∧
    c.state.db.advisory = some 1 ∧ opened 0 = false ∧ ∀ T i, c.state.db.owner T i ≠ some 0 := by
  obtain ⟨c, hc, hP⟩ := Conf.reached_freely
      (serving galleryConfig confirmAndTurn posted (listed (S := schema) displayed) 4 0) (answered 0 5 ++ answered 1 2)
    (fun c => decide (c.state.db.advisory = some 1 ∧ waiting c 0 = true)) (by decide)
  obtain ⟨hlocked, hwaiting⟩ := of_decide_eq_true hP
  obtain ⟨q, k, ht⟩ := waiting_iff.1 hwaiting
  obtain ⟨opened, hopened⟩ := Conf.Steps.accounted hc
  obtain ⟨hclosed, hheld, -⟩ := waits_unheld displayed_shelved hopened ht (.inl ⟨q, k, rfl⟩)
  exact ⟨c, opened, hopened, hlocked, hclosed, fun T i => (hheld T i).2⟩

end Catalog
