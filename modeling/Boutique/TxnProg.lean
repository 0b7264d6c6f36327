import Mathlib.Init
/-!
# TxnProg — programs that call a shared service

A program is a tree: it returns, it raises, or it calls an operation and goes on with the reply.  `wp` reads a program
as a predicate transformer, given what one call transforms; every program logic of this development is an
interpretation of calls, and shares the rules for sequencing and for caught errors proved here.
-/
namespace Txn

/-- **A program** over operations `o : Op` answered in `Res o`, raising `ε`, returning `α`. -/
inductive Prog (Op : Type) (Res : Op → Type) (ε α : Type) : Type
  | ret (a : α)
  | raise (e : ε)
  | call (o : Op) (k : Res o → Prog Op Res ε α)

abbrev Interp (Op : Type) (Res : Op → Type) (σ : Type) : Type := (o : Op) → (Res o → σ → Prop) → σ → Prop

namespace Prog

variable {Op : Type} {Res : Op → Type} {ε ε' α β σ : Type}

protected def bind : Prog Op Res ε α → (α → Prog Op Res ε β) → Prog Op Res ε β
  | .ret a, f => f a
  | .raise e, _ => .raise e
  | .call o k, f => .call o fun r => (k r).bind f

instance : Monad (Prog Op Res ε) where
  pure := .ret
  bind := Prog.bind

def attempt : Prog Op Res ε α → Prog Op Res ε' (Except ε α)
  | .ret a => .ret (.ok a)
  | .raise e => .ret (.error e)
  | .call o k => .call o fun r => (k r).attempt

instance : MonadExceptOf ε (Prog Op Res ε) where
  throw := .raise
  tryCatch p h := p.attempt >>= fun
    | .ok a => .ret a
    | .error e => h e

theorem bind_def (p : Prog Op Res ε α) (f : α → Prog Op Res ε β) : p >>= f = p.bind f := rfl

@[simp] theorem pure_bind' (a : α) (f : α → Prog Op Res ε β) : (pure a : Prog Op Res ε α) >>= f = f a := rfl

@[simp] theorem raise_bind (e : ε) (f : α → Prog Op Res ε β) : (raise e : Prog Op Res ε α) >>= f = raise e := rfl

@[simp] theorem throw_bind (e : ε) (f : α → Prog Op Res ε β) :
    (throw e : Prog Op Res ε α) >>= f = raise e := rfl

@[simp] theorem call_bind (o : Op) (k : Res o → Prog Op Res ε α) (f : α → Prog Op Res ε β) :
    call o k >>= f = call o fun r => k r >>= f := rfl

theorem bind_bind (p : Prog Op Res ε α) (f : α → Prog Op Res ε β) {γ : Type} (g : β → Prog Op Res ε γ) :
    p >>= f >>= g = p >>= fun a => f a >>= g := by
  induction p with
  | ret a => rfl
  | raise e => rfl
  | call o k ih =>
    rw [call_bind, call_bind, call_bind]
    congr 1
    funext r
    exact ih r

theorem bind_return (p : Prog Op Res ε α) : p >>= pure = p := by
  induction p with
  | ret a => rfl
  | raise e => rfl
  | call o k ih =>
    rw [call_bind]
    congr 1
    funext r
    exact ih r

/-- **The weakest precondition** of a program under an interpretation of its calls; `Q` reads how the program ended. -/
def wp (T : Interp Op Res σ) : Prog Op Res ε α → (Except ε α → σ → Prop) → σ → Prop
  | .ret a, Q, s => Q (.ok a) s
  | .raise e, Q, s => Q (.error e) s
  | .call o k, Q, s => T o (fun r => (k r).wp T Q) s

variable {T : Interp Op Res σ} {s : σ}

variable {a : α} {Q : Except ε α → σ → Prop} {e : ε} {p : Prog Op Res ε α} {f : α → Prog Op Res ε β}
  {l : List (Sigma Res)} {x : Except ε α}

@[simp] theorem wp_ret : wp T (.ret a) Q s = Q (.ok a) s := rfl

@[simp] theorem wp_pure : wp T (pure a) Q s = Q (.ok a) s := rfl

@[simp] theorem wp_raise : wp T (.raise e) Q s = Q (.error e) s := rfl

@[simp] theorem wp_throw : wp T (throw e) Q s = Q (.error e) s := rfl

def next (T : Interp Op Res σ) (f : α → Prog Op Res ε β) (Q : Except ε β → σ → Prop) : Except ε α → σ → Prop
  | .ok a, s => (f a).wp T Q s
  | .error e, s => Q (.error e) s

theorem wp_bind {Q : Except ε β → σ → Prop} : wp T (p >>= f) Q s = wp T p (next T f Q) s := by
  induction p generalizing s with
  | ret a => rfl
  | raise e => rfl
  | call o k ih =>
    show T o (fun r => (k r >>= f).wp T Q) s = T o (fun r => (k r).wp T (next T f Q)) s
    congr 1
    funext r s'
    exact ih r

theorem wp_attempt {Q : Except ε' (Except ε α) → σ → Prop} : wp T p.attempt Q s = wp T p (fun x => Q (.ok x)) s := by
  induction p generalizing s with
  | ret a => rfl
  | raise e => rfl
  | call o k ih =>
    show T o (fun r => (k r).attempt.wp T Q) s = T o (fun r => (k r).wp T fun x => Q (.ok x)) s
    congr 1
    funext r s'
    exact ih r

def Mono (T : Interp Op Res σ) : Prop :=
  ∀ (o : Op) (K K' : Res o → σ → Prop) (s : σ), (∀ r s, K r s → K' r s) → T o K s → T o K' s

theorem wp_mono (hT : Mono T) {Q' : Except ε α → σ → Prop} (hQ : ∀ x s, Q x s → Q' x s) (h : wp T p Q s) :
    wp T p Q' s := by
  induction p generalizing s with
  | ret a => exact hQ _ _ h
  | raise e => exact hQ _ _ h
  | call o k ih => exact hT o _ _ s (fun r s' => ih r) h

/-- **One execution of a program**: the calls it made, what each was answered, and how it ended. -/
inductive Trace : Prog Op Res ε α → List (Sigma Res) → Except ε α → Prop
  | ret (a : α) : Trace (.ret a) [] (.ok a)
  | raise (e : ε) : Trace (.raise e) [] (.error e)
  | call {o : Op} {k : Res o → Prog Op Res ε α} {r : Res o} {l : List (Sigma Res)} {x : Except ε α} (h : Trace (k r) l x) :
      Trace (.call o k) (⟨o, r⟩ :: l) x

theorem trace_ret (h : Trace (.ret a : Prog Op Res ε α) l x) : l = [] ∧ x = .ok a := by
  cases h
  exact ⟨rfl, rfl⟩

theorem trace_raise (h : Trace (.raise e : Prog Op Res ε α) l x) : l = [] ∧ x = .error e := by
  cases h
  exact ⟨rfl, rfl⟩

theorem trace_call {o : Op} {k : Res o → Prog Op Res ε α} (h : Trace (.call o k) l x) :
    ∃ r l', l = ⟨o, r⟩ :: l' ∧ Trace (k r) l' x := by
  cases h with
  | call h => exact ⟨_, _, rfl, h⟩

/-- **What a program comes to** where every call it makes has one fixed answer; nothing, where it makes another call. -/
def eval (ans : (o : Op) → Option (Res o)) : Prog Op Res ε α → Option (Except ε α)
  | .ret a => some (.ok a)
  | .raise e => some (.error e)
  | .call o k => (ans o).bind fun r => (k r).eval ans

variable {ans : (o : Op) → Option (Res o)}

@[simp] theorem eval_ret : (ret a : Prog Op Res ε α).eval ans = some (.ok a) := rfl

@[simp] theorem eval_pure : (pure a : Prog Op Res ε α).eval ans = some (.ok a) := rfl

@[simp] theorem eval_raise : (raise e : Prog Op Res ε α).eval ans = some (.error e) := rfl

@[simp] theorem eval_throw : (throw e : Prog Op Res ε α).eval ans = some (.error e) := rfl

@[simp] theorem eval_call {o : Op} {k : Res o → Prog Op Res ε α} :
    (call o k).eval ans = (ans o).bind fun r => (k r).eval ans := rfl

theorem eval_bind_ok (h : p.eval ans = some (.ok a)) : (p >>= f).eval ans = (f a).eval ans := by
  induction p with
  | ret b =>
    cases h
    rfl
  | raise e => cases h
  | call o k ih =>
    rw [call_bind, eval_call]
    rw [eval_call] at h
    cases hr : ans o with
    | none =>
      rw [hr] at h
      cases h
    | some r =>
      rw [hr] at h
      exact ih r h

end Prog
end Txn
