import Boutique.TxnSession
/-!
# TxnOutside — nobody outside is asked from within a transaction

A program is orderly when its statements stand in transactions, its questions between them, and it ends with none open.
In every run of orderly programs a thread that waits for an answer from outside has no transaction open, not even one that
has only read, and holds nothing of the database.
-/
namespace Txn

variable {S : Schema} {V : Service} {ε : Type}

/-- **Where an operation may stand**, the flag saying whether a transaction is open. -/
def stands : Interp (Op S V) Op.Res Bool
  | .sql .begin, K, opened => opened = false ∧ ∀ r, K r true
  | .sql .commit, K, opened | .sql .abort, K, opened => opened = true ∧ ∀ r, K r false
  | .ask _, K, opened => opened = false ∧ ∀ r, K r false
  | .now, K, opened => ∀ r, K r opened
  | .sql (.read _), K, opened => opened = true ∧ ∀ r, K r true
  | .sql (.update _ _ _), K, opened => opened = true ∧ ∀ r, K r true
  | .sql (.insert _ _), K, opened => opened = true ∧ ∀ r, K r true
  | .sql .lock, K, opened => opened = true ∧ ∀ r, K r true

def Op.inner : Op S V → Bool
  | .sql .begin | .sql .commit | .sql .abort | .ask _ => false
  | _ => true

/-- **The statements stand in transactions, the questions between them**, and each transaction is closed. -/
abbrev Orderly {α : Type} (p : Code S V ε α) : Prop := p.wp stands (fun _ opened => opened = false) false

section Orderly

open Session

variable {α β : Type}

variable {p : Code S V ε α}

theorem stands_mono {Q Q' : Except ε α → Bool → Prop} {opened : Bool} (h : ∀ x b, Q x b → Q' x b)
    (hp : p.wp stands Q opened) : p.wp stands Q' opened := by
  induction p generalizing opened with
  | ret a => exact h _ _ hp
  | raise e => exact h _ _ hp
  | call o k ih =>
    cases o with
    | sql o => cases o <;> exact ⟨hp.1, fun r => ih r (hp.2 r)⟩
    | now => exact fun r => ih r (hp r)
    | ask q => exact ⟨hp.1, fun r => ih r (hp.2 r)⟩

theorem inner_stands {l : Bool} (h : Within (fun _ o => o.inner = true) l p) :
    p.wp stands (fun _ opened => opened = true) true := by
  induction p generalizing l with
  | ret a => rfl
  | raise e => rfl
  | call o k ih =>
    obtain ⟨ho, hk⟩ := h
    cases o with
    | sql o =>
      cases o with
      | begin | commit | abort => cases ho
      | read | update | insert | lock => exact ⟨rfl, fun r => ih r (hk r)⟩
    | now => exact fun r => ih r (hk r)
    | ask q => cases ho

theorem orderly_ret (a : α) : Orderly (.ret a : Code S V ε α) := rfl

theorem orderly_raise (e : ε) : Orderly (.raise e : Code S V ε α) := rfl

theorem orderly_bind {f : α → Code S V ε β} (hp : Orderly p) (hf : ∀ a, Orderly (f a)) : Orderly (p >>= f) := by
  rw [Orderly, Prog.wp_bind]
  refine stands_mono (fun x b hb => ?_) hp
  subst hb
  cases x with
  | ok a => exact hf a
  | error e => rfl

theorem orderly_ask (q : V.Ask) : Orderly (ask q : Code S V ε (V.Ans q)) := ⟨rfl, fun _ => rfl⟩

theorem orderly_raiseIf (c : Bool) (e : ε) : Orderly (raiseIf c e : Code S V ε Unit) := by
  cases c <;> rfl

theorem orderly_orRaise (x : Option α) (e : ε) : Orderly (orRaise x e : Code S V ε α) := by
  cases x <;> rfl

theorem orderly_attempt {ε' : Type} (h : Orderly p) : Orderly (p.attempt : Code S V ε' (Except ε α)) := by
  rw [Orderly, Prog.wp_attempt]
  exact stands_mono (fun _ _ h => h) h

theorem orderly_session {body : Int → Code S V ε α} (h : ∀ n, Within (fun _ o => o.inner = true) false (body n)) :
    Orderly (tenantSession body : Code S V ε α) := by
  refine ⟨rfl, fun n => ?_⟩
  change Prog.wp stands ((body n).attempt >>= _) _ _
  rw [Prog.wp_bind, Prog.wp_attempt]
  refine stands_mono (fun x b hb => ?_) (inner_stands (h n))
  subst hb
  cases x with
  | ok a => exact ⟨rfl, fun _ => rfl⟩
  | error e => exact ⟨rfl, fun _ => rfl⟩

end Orderly

/-! ## The run -/

structure Engine.Free (e : Engine S) (t : Tid) : Prop where
  idle : e.Idle t
  unlocked : e.advisory ≠ some t

variable {t : Tid}

theorem Engine.Move.free {u : Tid} {e e' : Engine S} (h : e.Move u e') (hu : t ≠ u) (hf : e.Free t) : e'.Free t := by
  refine ⟨⟨?_⟩, fun ha => hf.unlocked ((h.advisory t hu).1 ha)⟩
  rw [h.pending t hu]
  exact hf.idle.pending

theorem Engine.free_release (e : Engine S) (t : Tid) : (e.release t).Free t :=
  ⟨Engine.idle_release e t, fun h => (Engine.release_advisory.1 h).2 rfl⟩

theorem Engine.free_commit (e : Engine S) (t : Tid) : (e.commit t).Free t :=
  ⟨Engine.idle_commit e t, (e.free_release t).unlocked⟩

theorem World.move_exec {o : Op S V} {i : V.Input} {r : o.Res} {w w' : World S V} (h : w.exec t o i = some (r, w')) :
    w.db.Move t w'.db := by
  cases o with
  | sql o =>
    obtain ⟨⟨x, e'⟩, he, hx⟩ := Option.map_eq_some_iff.1 h
    cases hx
    exact Engine.exec_move he
  | now | ask =>
    cases h
    exact Engine.move_refl t _

/-- **What a call makes of the transaction of its thread**, which is open or not. -/
def Op.opens : Op S V → Bool → Bool
  | .sql .begin, _ => true
  | .sql .commit, _ | .sql .abort, _ => false
  | _, opened => opened

section Runs

variable {ρ : Type} {A : (machine S V ε).Assumption} {c₀ c c' : Conf (machine S V ε) ρ} {opened : Tid → Bool}

/-- **Who has a transaction open** after a run from `c₀`: who has begun one and has ended none since. -/
inductive Conf.Opened (A : (machine S V ε).Assumption) (c₀ : Conf (machine S V ε) ρ) :
    Conf (machine S V ε) ρ → (Tid → Bool) → Prop
  | start : Conf.Opened A c₀ c₀ fun _ => false
  | call {c : Conf (machine S V ε) ρ} {opened : Tid → Bool} {t : Tid} {i : V.Input} {o : Op S V} {k : o.Res → Code S V ε ρ}
      {r : o.Res} {w : World S V} (run : Conf.Opened A c₀ c opened) (code : c.threads t = some (.call o k))
      (answer : c.state.exec t o i = some (r, w)) (assumed : A t o c.state r w) :
    Conf.Opened A c₀ (c.setThread t w (some (k r))) (Function.update opened t (o.opens (opened t)))
  | kill {c : Conf (machine S V ε) ρ} {opened : Tid → Bool} (t : Tid) (run : Conf.Opened A c₀ c opened) :
    Conf.Opened A c₀ (c.setThread t ((machine S V ε).crash t c.state) none) (Function.update opened t false)
  | happen {c : Conf (machine S V ε) ρ} {opened : Tid → Bool} (d : (machine S V ε).Event) (run : Conf.Opened A c₀ c opened) :
    Conf.Opened A c₀ ⟨(machine S V ε).happen d c.state, c.threads⟩ opened

theorem Conf.Opened.steps (h : Conf.Opened A c₀ c opened) : Conf.Steps A c₀ c := by
  induction h with
  | start => exact .refl
  | call _ code answer assumed ih => exact ih.tail (.call code answer assumed)
  | kill t _ ih => exact ih.tail (.kill t)
  | happen d _ ih => exact ih.tail (.happen d)

/-- Every run has such an account. -/
theorem Conf.Steps.accounted (h : Conf.Steps A c₀ c) : ∃ opened, Conf.Opened A c₀ c opened := by
  induction h with
  | refl => exact ⟨_, .start⟩
  | tail _ hstep ih =>
    obtain ⟨opened, hopened⟩ := ih
    cases hstep with
    | call code answer assumed => exact ⟨_, .call hopened code answer assumed⟩
    | kill t => exact ⟨_, .kill t hopened⟩
    | happen d => exact ⟨_, .happen d hopened⟩

def Placed (c : Conf (machine S V ε) ρ) (opened : Tid → Bool) : Prop :=
  ∀ t (p : Code S V ε ρ), c.threads t = some p → p.wp stands (fun _ opened => opened = false) (opened t) ∧
    (opened t = false → c.state.db.Free t)

theorem placed_exec {o : Op S V} {i : V.Input} {r : o.Res} {w w' : World S V} {k : o.Res → Code S V ε ρ}
    {opened : Bool} (hp : (Prog.call o k : Code S V ε ρ).wp stands (fun _ opened => opened = false) opened)
    (hf : opened = false → w.db.Free t) (h : w.exec t o i = some (r, w')) :
    (k r).wp stands (fun _ opened => opened = false) (o.opens opened) ∧ (o.opens opened = false → w'.db.Free t) := by
  cases o with
  | now =>
    cases h
    exact ⟨hp _, hf⟩
  | ask q =>
    cases h
    obtain ⟨rfl, hk⟩ := hp
    exact ⟨hk _, hf⟩
  | sql o =>
    obtain ⟨⟨x, e'⟩, he, hx⟩ := Option.map_eq_some_iff.1 h
    cases hx
    cases o with
    | begin => exact ⟨hp.2 _, nofun⟩
    | read | update | insert | lock =>
      obtain ⟨rfl, hk⟩ := hp
      exact ⟨hk _, nofun⟩
    | commit =>
      cases he
      exact ⟨hp.2 _, fun _ => w.db.free_commit t⟩
    | abort =>
      cases he
      exact ⟨hp.2 _, fun _ => w.db.free_release t⟩

/-- **Every run of orderly programs keeps its statements in transactions.** -/
theorem Conf.Opened.placed (h : Conf.Opened A c₀ c opened) (h0 : Placed c₀ fun _ => false) : Placed c opened := by
  induction h with
  | start => exact h0
  | @call c opened t i o k r w _ code answer assumed ih =>
    obtain ⟨hp, hf⟩ := ih t _ code
    intro u p hu
    by_cases hut : u = t
    · subst hut
      have hp' : k r = p := by simpa [Conf.setThread] using hu
      rw [Function.update_self]
      exact hp' ▸ placed_exec hp hf answer
    · obtain ⟨hp', hf'⟩ := ih u p (by simpa [Conf.setThread, hut] using hu)
      rw [Function.update_of_ne hut]
      exact ⟨hp', fun ho => (World.move_exec answer).free hut (hf' ho)⟩
  | kill t _ ih =>
    intro u p hu
    by_cases hut : u = t
    · simp [Conf.setThread, hut] at hu
    · obtain ⟨hp, hf⟩ := ih u p (by simpa [Conf.setThread, hut] using hu)
      rw [Function.update_of_ne hut]
      exact ⟨hp, fun ho => (Engine.move_release t _).free hut (hf ho)⟩
  | happen d _ ih =>
    intro u p hu
    obtain ⟨hp, hf⟩ := ih u p hu
    exact ⟨hp, fun ho => ⟨⟨(hf ho).idle.pending⟩, (hf ho).unlocked⟩⟩

theorem Placed.unheld {D : Cast S} (h : Placed c opened) (hL : c.state.db.Lawful D) {p : Code S V ε ρ}
    (ht : c.threads t = some p) (hp : (∃ q k, p = .call (.ask q) k) ∨ (∃ a, p = .ret a) ∨ ∃ e, p = .raise e) :
    opened t = false ∧ (∀ T i, c.state.db.pending t T i = none ∧ c.state.db.owner T i ≠ some t) ∧ c.state.db.advisory ≠ some t := by
  obtain ⟨hwp, hf⟩ := h t p ht
  have hclosed : opened t = false := by
    rcases hp with ⟨q, k, rfl⟩ | ⟨a, rfl⟩ | ⟨e, rfl⟩
    · exact hwp.1
    · exact hwp
    · exact hwp
  have hfree := hf hclosed
  have hpending : ∀ T i, c.state.db.pending t T i = none := fun T i => by rw [hfree.idle.pending]
  refine ⟨hclosed, fun T i => ⟨hpending T i, fun ho => ?_⟩, hfree.unlocked⟩
  obtain ⟨r, hr⟩ := hL.pending_of_owner ho
  rw [hpending T i] at hr
  cases hr

end Runs
end Txn
