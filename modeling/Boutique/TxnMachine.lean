import Boutique.TxnProg
import Mathlib.Logic.Relation
/-!
# TxnMachine — threads calling one shared state, and the rely–guarantee rule for them

A machine answers the calls of any number of threads, one call at a time in any order; a thread can die between two
calls, and the world can change by itself.  `Logic.sound` is the rule every result about all runs goes through: a
thread is verified alone against what the others may do, and then the whole system keeps the invariant.
-/
namespace Txn

open Relation (ReflTransGen)

abbrev Tid : Type := Nat

/-- **A shared state and the calls it answers.**  `exec` gives no result while a call has to wait; `Input` is what
parties outside the machine answer. -/
structure Machine where
  Op : Type
  Res : Op → Type
  Error : Type
  State : Type
  Input : Type
  Event : Type
  exec : Tid → (o : Op) → Input → State → Option (Res o × State)
  crash : Tid → State → State
  happen : Event → State → State

namespace Machine

variable (M : Machine)

abbrev Code (ρ : Type) : Type := Prog M.Op M.Res M.Error ρ

abbrev Assumption : Type := Tid → (o : M.Op) → M.State → M.Res o → M.State → Prop

end Machine

/-- The shared state and what each thread has left to do; a dead thread has no program. -/
structure Conf (M : Machine) (ρ : Type) where
  state : M.State
  threads : Tid → Option (M.Code ρ)

inductive Action (M : Machine)
  | call (t : Tid) (i : M.Input)
  | kill (t : Tid)
  | happen (e : M.Event)

variable {M : Machine} {ρ : Type}

namespace Conf

def setThread (c : Conf M ρ) (t : Tid) (s : M.State) (p : Option (M.Code ρ)) : Conf M ρ where
  state := s
  threads u := if u = t then p else c.threads u

/-- **One step**: a thread's call is answered, a thread dies, or the world changes. -/
inductive Step (A : M.Assumption) (c : Conf M ρ) : Conf M ρ → Prop
  | call {t : Tid} {i : M.Input} {o : M.Op} {k : M.Res o → M.Code ρ} {r : M.Res o} {s : M.State}
      (code : c.threads t = some (.call o k)) (answer : M.exec t o i c.state = some (r, s))
      (assumed : A t o c.state r s) : Step A c (c.setThread t s (some (k r)))
  | kill (t : Tid) : Step A c (c.setThread t (M.crash t c.state) none)
  | happen (e : M.Event) : Step A c ⟨M.happen e c.state, c.threads⟩

abbrev Steps (A : M.Assumption) : Conf M ρ → Conf M ρ → Prop := ReflTransGen (Step A)

abbrev Reaches : Conf M ρ → Conf M ρ → Prop := Steps fun _ _ _ _ _ => True

def act (A : M.Assumption) [∀ t o s r s', Decidable (A t o s r s')] (c : Conf M ρ) : Action M → Option (Conf M ρ)
  | .call t i =>
    match c.threads t with
    | some (.call o k) =>
      match M.exec t o i c.state with
      | some (r, s) => if A t o c.state r s then some (c.setThread t s (some (k r))) else none
      | none => none
    | _ => none
  | .kill t => some (c.setThread t (M.crash t c.state) none)
  | .happen e => some ⟨M.happen e c.state, c.threads⟩

def play (A : M.Assumption) [∀ t o s r s', Decidable (A t o s r s')] (c : Conf M ρ) :
    List (Action M) → Option (Conf M ρ)
  | [] => some c
  | a :: as => (c.act A a).bind fun c' => c'.play A as

variable {A A' : M.Assumption} {c c' c'' : Conf M ρ}

theorem act_step [∀ t o s r s', Decidable (A t o s r s')] {a : Action M} (h : c.act A a = some c') :
    Step A c c' := by
  cases a with
  | call t i =>
    simp only [act] at h
    split at h
    · rename_i o k ht
      split at h
      · rename_i r s he
        split at h
        · rename_i hA
          cases h
          exact .call ht he hA
        · cases h
      · cases h
    · cases h
  | kill t =>
    cases h
    exact .kill t
  | happen e =>
    cases h
    exact .happen e

theorem play_steps [∀ t o s r s', Decidable (A t o s r s')] :
    ∀ {as : List (Action M)} {c c' : Conf M ρ}, c.play A as = some c' → Steps A c c'
  | [], _, _, h => by
    cases h
    exact .refl
  | a :: as, c, c', h => by
    obtain ⟨d, hd, hp⟩ := Option.bind_eq_some_iff.1 h
    exact .head (act_step hd) (play_steps hp)

theorem Step.mono (hA : ∀ t o s r s', A t o s r s' → A' t o s r s') (h : Step A c c') : Step A' c c' := by
  cases h with
  | call code answer assumed => exact .call code answer (hA _ _ _ _ _ assumed)
  | kill t => exact .kill t
  | happen e => exact .happen e

theorem Steps.mono (hA : ∀ t o s r s', A t o s r s' → A' t o s r s') (h : Steps A c c') : Steps A' c c' :=
  ReflTransGen.mono (fun _ _ => Step.mono hA) _ _ h

end Conf

/-- **A rely–guarantee logic** for a machine: the invariant of the shared state, what runs are taken to satisfy, and
what a thread's own step may do to the state. -/
structure Logic (M : Machine) where
  Inv : M.State → Prop
  Assume : M.Assumption
  Allow : Tid → M.State → M.State → Prop
  crash_inv : ∀ t s, Inv s → Inv (M.crash t s) ∧ Allow t s (M.crash t s)
  happen_inv : ∀ e s, Inv s → Inv (M.happen e s)

namespace Logic

variable (L : Logic M)

/-- One step of the others, seen from thread `t`. -/
inductive Outside (t : Tid) (s : M.State) : M.State → Prop
  | thread {u : Tid} {s' : M.State} (ne : u ≠ t) (allowed : L.Allow u s s') (inv : L.Inv s') : Outside t s s'
  | event (e : M.Event) (inv : L.Inv (M.happen e s)) : Outside t s (M.happen e s)

abbrev Rely (t : Tid) : M.State → M.State → Prop := ReflTransGen (L.Outside t)

/-- What a call transforms for thread `t`: whatever the others do before it, it keeps the invariant, does what a
thread's step may do, and establishes `K`. -/
def interp (t : Tid) : Interp M.Op M.Res M.State := fun o K s =>
  ∀ s₁, L.Rely t s s₁ → L.Inv s₁ → ∀ i r s₂, M.exec t o i s₁ = some (r, s₂) → L.Assume t o s₁ r s₂ →
    L.Allow t s₁ s₂ ∧ L.Inv s₂ ∧ K r s₂

theorem interp_mono (t : Tid) : Prog.Mono (L.interp t) := fun _ _ _ _ hK h s1 hr hi i r s2 he hA =>
  let ⟨ha, hi2, hk⟩ := h s1 hr hi i r s2 he hA
  ⟨ha, hi2, hK _ _ hk⟩

def Lasting (t : Tid) {α : Type} (Q : α → M.State → Prop) : α → M.State → Prop := fun x s =>
  ∀ s', L.Rely t s s' → L.Inv s' → Q x s'

/-- **The thread's program is safe from state `s` on**, and ends with `Q`. -/
def Safe (t : Tid) (p : M.Code ρ) (Q : Except M.Error ρ → M.State → Prop) (s : M.State) : Prop :=
  p.wp (L.interp t) (L.Lasting t Q) s

variable {L} {t : Tid} {Q : Except M.Error ρ → M.State → Prop} {p : M.Code ρ} {s s' : M.State}

theorem Safe.rely (h : L.Safe t p Q s) (hr : L.Rely t s s') : L.Safe t p Q s' := by
  cases p with
  | ret a => exact fun s'' hr' => h s'' (hr.trans hr')
  | raise e => exact fun s'' hr' => h s'' (hr.trans hr')
  | call o k => exact fun s1 hr1 => h s1 (hr.trans hr1)

theorem Safe.mono {Q' : Except M.Error ρ → M.State → Prop} (hQ : ∀ x s, Q x s → Q' x s) (h : L.Safe t p Q s) :
    L.Safe t p Q' s :=
  Prog.wp_mono (L.interp_mono t) (fun x _ hx s' hr hi => hQ x s' (hx s' hr hi)) h

structure Sound (L : Logic M) (Q : Tid → Except M.Error ρ → M.State → Prop) (c : Conf M ρ) : Prop where
  inv : L.Inv c.state
  safe : ∀ t p, c.threads t = some p → L.Safe t p (Q t) c.state

/-- What a step of a sound system looks like from outside: some thread did what it may do, or the world moved. -/
inductive Moved (L : Logic M) (s : M.State) : M.State → Prop
  | thread (t : Tid) {s' : M.State} (allowed : L.Allow t s s') : Moved L s s'
  | event (e : M.Event) : Moved L s (M.happen e s)

variable {R : Tid → Except M.Error ρ → M.State → Prop} {c c' : Conf M ρ}

theorem Sound.others (h : Sound L R c) {u : Tid} (hs : s' = c'.state) (hi : L.Inv s')
    (hmove : ∀ t, t ≠ u → L.Outside t c.state s') (hthreads : ∀ t, t ≠ u → c'.threads t = c.threads t)
    (hown : ∀ p, c'.threads u = some p → L.Safe u p (R u) s') : Sound L R c' := by
  subst hs
  refine ⟨hi, fun t p hp => ?_⟩
  by_cases ht : t = u
  · subst ht
    exact hown p hp
  · rw [hthreads t ht] at hp
    exact (h.safe t p hp).rely (.single (hmove t ht))

theorem Sound.step (h : Sound L R c) (hs : Conf.Step L.Assume c c') : Sound L R c' ∧ Moved L c.state c'.state := by
  cases hs with
  | @call t i o k r s code answer assumed =>
    obtain ⟨ha, hi, hk⟩ := h.safe t _ code c.state .refl h.inv i r s answer assumed
    refine ⟨h.others (u := t) rfl hi (fun u hu => .thread (Ne.symm hu) ha hi)
      (fun u hu => if_neg hu) fun p hp => ?_, .thread t ha⟩
    have hp' : k r = p := by simpa [Conf.setThread] using hp
    exact hp' ▸ hk
  | kill t =>
    obtain ⟨hi, ha⟩ := L.crash_inv t c.state h.inv
    refine ⟨h.others (u := t) rfl hi (fun u hu => .thread (Ne.symm hu) ha hi)
      (fun u hu => if_neg hu) fun p hp => ?_, .thread t ha⟩
    simp [Conf.setThread] at hp
  | happen e =>
    have hi := L.happen_inv e c.state h.inv
    exact ⟨⟨hi, fun t p hp => (h.safe t p hp).rely (.single (.event e hi))⟩, .event e⟩

/-- **Every run of a sound system is sound**, and each of its steps is one the logic accounts for. -/
theorem Sound.steps (h : Sound L R c) (hs : Conf.Steps L.Assume c c') :
    Sound L R c' ∧ ReflTransGen (Moved L) c.state c'.state := by
  induction hs with
  | refl => exact ⟨h, .refl⟩
  | tail _ hstep ih =>
    obtain ⟨hb, hm⟩ := ih
    obtain ⟨hc, hm'⟩ := hb.step hstep
    exact ⟨hc, hm.tail hm'⟩

theorem Sound.finished (h : Sound L R c) {a : ρ} (ht : c.threads t = some (.ret a)) : R t (.ok a) c.state :=
  h.safe t _ ht c.state .refl h.inv

theorem Sound.raised (h : Sound L R c) {e : M.Error} (ht : c.threads t = some (.raise e)) : R t (.error e) c.state :=
  h.safe t _ ht c.state .refl h.inv

end Logic
end Txn
