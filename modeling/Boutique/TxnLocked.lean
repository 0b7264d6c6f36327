import Boutique.TxnStretch
/-!
# TxnLocked — requests that take the advisory lock

The footprint of a program that takes the lock is read with the lock: what follows it in the transaction runs with the
lock held, and the transaction gives it back.
-/
namespace Txn
namespace Session

open Contract

variable {S : Schema} {V : Service} {ε α β : Type}

/-! ## Footprints -/

section Footprints

variable {F : Bool → Op S V → Prop} {l : Bool}

theorem steady_ret (a : α) : Steady F l (.ret a : Code S V ε α) := rfl

theorem steady_raise (e : ε) : Steady F l (.raise e : Code S V ε α) := rfl

theorem steady_raiseIf (c : Bool) (e : ε) : Steady F l (raiseIf c e : Code S V ε Unit) := by
  cases c <;> rfl

theorem steady_orRaise (x : Option α) (e : ε) : Steady F l (orRaise x e : Code S V ε α) := by
  cases x <;> rfl

theorem steady_now (h : F l .now) : Steady F l (now : Code S V ε Int) := ⟨h, fun _ => rfl⟩

theorem steady_ask {q : V.Ask} (h : F l (.ask q)) : Steady F l (ask q : Code S V ε (V.Ans q)) := ⟨h, fun _ => rfl⟩

theorem steady_select {q : S.Query} (h : F l (.sql (.read q))) (f : Snapshot S → α) :
    Steady F l (select q f : Code S V ε α) := ⟨h, fun _ => rfl⟩

theorem steady_update {T : S.Table} {i : Nat} {g : S.Change T} (h : F l (.sql (.update T i g))) (e : ε) :
    Steady F l (update e T i g : Code S V ε (Option (S.Row T))) := by
  refine ⟨h, fun x => ?_⟩
  cases x <;> rfl

theorem steady_insert {T : S.Table} {r : S.Row T} (h : F l (.sql (.insert T r))) (e : ε) :
    Steady F l (insert e T r : Code S V ε (S.Row T)) := by
  refine ⟨h, fun x => ?_⟩
  cases x <;> rfl

theorem steady_updateEach {T : S.Table} {g : S.Change T} (h : ∀ i, F l (.sql (.update T i g))) (e : ε) :
    ∀ is, Steady F l (updateEach e T g is : Code S V ε (List (S.Row T)))
  | [] => rfl
  | i :: is => (steady_update (h i) e).bind fun _ => (steady_updateEach h e is).bind fun _ => rfl

theorem within_lock {k : Unit → Code S V ε α} (h : F l (.sql .lock)) (hk : Within F true (k ())) :
    Within F l (.call (.sql .lock) k : Code S V ε α) := ⟨h, fun _ => hk⟩

theorem steady_tenantSession {body : Int → Code S V ε α} (hbegin : ∀ l, F l (.sql .begin)) (hcommit : ∀ l, F l (.sql .commit))
    (habort : ∀ l, F l (.sql .abort)) (h : ∀ n, Within F false (body n)) :
    Steady F false (tenantSession body : Code S V ε α) := by
  refine ⟨hbegin _, fun n => ?_⟩
  change Uses _ _ ((body n).attempt >>= _) _
  rw [Uses, Prog.wp_bind, Prog.wp_attempt]
  refine uses_mono (fun _ _ h => h) (fun x l' _ => ?_) (h n)
  cases x with
  | ok a => exact ⟨hcommit _, fun _ => rfl⟩
  | error e => exact ⟨habort _, fun _ => rfl⟩

theorem within_and {G : Op S V → Prop} {p : Code S V ε α} (h : Within F l p) (hG : Within (fun _ => G) l p) :
    Within (fun l o => F l o ∧ G o) l p := by
  induction p generalizing l with
  | ret a => trivial
  | raise e => trivial
  | call o k ih => exact ⟨⟨h.1, hG.1⟩, fun x => ih x (h.2 x) (hG.2 x)⟩

end Footprints

/-! ## The rule of the lock -/

variable {D : Cast S} {C : Contract D V ε} {calm : V.Ask → Bool} {t : Tid} {w : World S V}
  {Q : Except ε β → World S V → Prop}

theorem ensures_locked (hC : C.Historic calm) {k : Unit → Code S V ε β}
    (h : ∀ w1, w.Evolves D t w1 → w1.db.Lawful D → C.Inv ⟨{ w1.db with advisory := some t }, w1.out⟩ →
      C.Ensures t (k ()) Q ⟨{ w1.db with advisory := some t }, w1.out⟩) : C.Ensures t (.call (.sql .lock) k) Q w := by
  refine ensures_call fun w1 hev hL hI i r w2 he hL2 hA => ?_
  have hI2 := hC.exec (by simp) (by simp) he hI
  obtain ⟨⟨y, e'⟩, he', hx⟩ := Option.map_eq_some_iff.1 he
  obtain ⟨-, rfl⟩ := Engine.lock_cases he'
  cases hx
  exact ⟨hI2, h w1 hev hL hI2⟩

theorem ensures_attempt {p : Code S V ε α} {k : Except ε α → Code S V ε β}
    (h : C.Ensures t p (fun x w' => C.Ensures t (k x) Q w') w) :
    C.Ensures t ((p.attempt : Code S V ε (Except ε α)) >>= k) Q w := by
  refine ensures_bind ?_
  rw [Ensures, Prog.wp_attempt]
  exact h

end Session
end Txn
