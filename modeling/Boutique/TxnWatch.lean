import Boutique.TxnStretch
/-!
# TxnWatch — a guarantee at every answered call

The invariants of the history say what every reached state satisfies; a guarantee says what every step does.  A thread
watched alone, against whatever the others may have done before each of its calls, keeps its guarantee in every run; the
rules are those of the program logic, with the guarantee in the place of the invariant.
-/
namespace Txn

variable {S : Schema} {V : Service} {ε α β : Type} {D : Cast S}

abbrev Guarantee (S : Schema) (V : Service) : Type := Tid → World S V → World S V → Prop

/-- **What a call transforms for thread `t`, watched**: whatever evolved before it, it keeps the guarantee and
establishes `K`. -/
def watch (D : Cast S) (G : Guarantee S V) (t : Tid) : Interp (Op S V) Op.Res (World S V) := fun o K w =>
  ∀ w₁, w.Evolves D t w₁ → w₁.db.Lawful D → ∀ i x w₂, w₁.exec t o i = some (x, w₂) → G t w₁ w₂ ∧ K x w₂

theorem watch_mono {G : Guarantee S V} {t : Tid} : Prog.Mono (watch D G t) :=
  fun _ _ _ _ hK h w1 hev hL i x w2 he => ⟨(h w1 hev hL i x w2 he).1, hK _ _ (h w1 hev hL i x w2 he).2⟩

/-- **The program keeps the guarantee from here**, and ends with `Q`. -/
abbrev Watched (D : Cast S) (G : Guarantee S V) (t : Tid) (p : Code S V ε α) (Q : Except ε α → World S V → Prop)
    (w : World S V) : Prop := p.wp (watch D G t) Q w

namespace Watched

variable {G : Guarantee S V} {t : Tid} {w w' : World S V} {Q : Except ε β → World S V → Prop}

theorem weaken {Q' : Except ε α → World S V → Prop} {p : Code S V ε α} {R : Except ε α → World S V → Prop}
    (hQ : ∀ x w, R x w → Q' x w) (h : Watched D G t p R w) : Watched D G t p Q' w := Prog.wp_mono watch_mono hQ h

theorem bind {p : Code S V ε α} {f : α → Code S V ε β} (h : Watched D G t p (fun x w' => match x with
      | .ok a => Watched D G t (f a) Q w'
      | .error e => Q (.error e) w') w) : Watched D G t (p >>= f) Q w := by
  rw [Watched, Prog.wp_bind]
  refine weaken (fun x w' hx => ?_) h
  cases x with
  | ok a => exact hx
  | error e => exact hx

theorem orRaise {x : Option α} {e : ε} {k : α → Code S V ε β} (hnone : Q (.error e) w)
    (hsome : ∀ a, x = some a → Watched D G t (k a) Q w) : Watched D G t (Session.orRaise x e >>= k) Q w := by
  cases x with
  | none => exact hnone
  | some a => exact hsome a rfl

/-- **A stretch whose operations keep the guarantee by themselves** keeps what they leave alone. -/
theorem quiet {P : Op S V → Prop} {l : Bool} {p : Code S V ε α} (Φ : World S V → Prop)
    (hG : ∀ o i x w1 w2, P o → w1.db.Lawful D → Φ w1 → w1.exec t o i = some (x, w2) → G t w1 w2 ∧ Φ w2)
    (hevolve : ∀ w w', w.Evolves D t w' → Φ w → Φ w') (hp : Within (fun _ => P) l p) (h : Φ w) :
    Watched D G t p (fun _ w' => Φ w') w := by
  induction p generalizing l w with
  | ret a => exact h
  | raise e => exact h
  | call o k ih =>
    obtain ⟨ho, hk⟩ := hp
    intro w1 hev hL i x w2 he
    obtain ⟨hg, h2⟩ := hG o i x w1 w2 ho hL (hevolve w w1 hev h) he
    exact ⟨hg, ih x (hk x) h2⟩

theorem tenantSession {body : Int → Code S V ε α}
    (hG : ∀ (o : Stmt S) i x w1 w2, (∀ T j g, o ≠ .update T j g) → (∀ T r, o ≠ .insert T r) →
      w1.exec t (.sql o) i = some (x, w2) → G t w1 w2)
    (h : ∀ w1 n, w.Evolves D t w1 → Watched D G t (body n) (fun _ _ => True)
      ⟨{ w1.db with started := Function.update w1.db.started t n }, w1.out⟩) :
    Watched D G t (Session.tenantSession body) (fun _ _ => True) w := by
  intro w1 hev hL i n w2 he
  have hbegin := hG .begin i n w1 w2 (by simp) (by simp) he
  cases he
  refine ⟨hbegin, ?_⟩
  change Watched D G t ((body w1.db.clock).attempt >>= _) _ _
  refine bind ?_
  rw [Watched, Prog.wp_attempt]
  refine weaken (fun x w3 _ => ?_) (h w1 w1.db.clock hev)
  cases x with
  | ok a => exact fun w4 _ _ j y w5 he' => ⟨hG .commit j y w4 w5 (by simp) (by simp) he', trivial⟩
  | error e => exact fun w4 _ _ j y w5 he' => ⟨hG .abort j y w4 w5 (by simp) (by simp) he', trivial⟩

theorem evolves {p : Code S V ε α} (h : Watched D G t p (fun _ _ => True) w) (hev : w.Evolves D t w') :
    Watched D G t p (fun _ _ => True) w' := by
  cases p with
  | ret a => trivial
  | raise e => trivial
  | call o k => exact fun w1 hev1 => h w1 (hev.trans hev1)

end Watched

namespace Cast

variable {ρ : Type} {A : (machine S V ε).Assumption} {c c' : Conf (machine S V ε) ρ} {G : Guarantee S V}

structure Vigilant (D : Cast S) (G : Guarantee S V) (c : Conf (machine S V ε) ρ) : Prop where
  obeyed : Obeyed D c
  watched : ∀ t p, c.threads t = some p → Watched D G t p (fun _ _ => True) c.state

/-- **One step of a watched system** keeps the guarantee of the thread that took it, unless the thread died or only time
passed. -/
theorem Vigilant.step (h : Vigilant D G c) (hs : Conf.Step A c c') : Vigilant D G c' ∧
    ((∃ t, G t c.state c'.state) ∨ (∃ t, c'.state = c.state.crash t) ∨ ∃ d, c'.state = c.state.tick d) := by
  obtain ⟨hob, hmoves⟩ := h.obeyed.step hs
  cases hmoves with
  | @call t i o k x s code answer assumed =>
    obtain ⟨hg, hk⟩ := h.watched t _ code c.state (.refl _) h.obeyed.lawful i x s answer
    refine ⟨⟨hob, fun u p hp => ?_⟩, .inl ⟨t, hg⟩⟩
    by_cases hu : u = t
    · subst hu
      have hp' : k x = p := by simpa [Conf.setThread] using hp
      exact hp' ▸ hk
    · have hp' : c.threads u = some p := by simpa [Conf.setThread, hu] using hp
      exact (h.watched u p hp').evolves (assumed.1.evolves (Ne.symm hu))
  | kill t =>
    refine ⟨⟨hob, fun u p hp => ?_⟩, .inr (.inl ⟨t, rfl⟩)⟩
    by_cases hu : u = t
    · simp [Conf.setThread, hu] at hp
    · have hp' : c.threads u = some p := by simpa [Conf.setThread, hu] using hp
      exact (h.watched u p hp').evolves ((World.moves_crash h.obeyed.lawful).evolves (Ne.symm hu))
  | happen d =>
    exact ⟨⟨hob, fun u p hp => (h.watched u p hp).evolves ⟨Engine.evolves_tick u _ d, rfl⟩⟩, .inr (.inr ⟨d, rfl⟩)⟩

theorem Vigilant.steps (h : Vigilant D G c) (hs : Conf.Steps A c c') : Vigilant D G c' := by
  induction hs with
  | refl => exact h
  | tail _ hstep ih => exact (ih.step hstep).1

end Cast

/-- **A quantity that every commit carries on** is what the log makes of it, commit by commit. -/
theorem Engine.Lawful.version_fold {e : Engine S} (h : e.Lawful D) {f : Rows S → α} {g : Commit S → α → α}
    (hstep : ∀ c ∈ e.log, f c.after = g c (f c.before)) :
    f e.committed = e.log.foldl (fun a c => g c a) (f (e.version 0)) := by
  have hfold : ∀ m, m ≤ e.log.length → f (e.version m) = (e.log.take m).foldl (fun a c => g c a) (f (e.version 0)) := by
    intro m hm
    induction m with
    | zero => rfl
    | succ m ih =>
      have hentry : e.log[m]? = some e.log[m] := List.getElem?_eq_getElem hm
      have hbefore : e.version m = e.log[m].before := by simp [Engine.version, hentry]
      rw [h.linked m _ hentry, hstep _ (List.getElem_mem hm), ← hbefore, ih (by omega), List.take_succ_eq_append_getElem hm,
        List.foldl_append]
      rfl
  rw [← e.version_length, hfold _ (Nat.le_refl _), List.take_length]

theorem Conf.reached_of_turn {M : Machine} {ρ : Type} {A B : M.Assumption} [∀ t o s r s', Decidable (A t o s r s')]
    [∀ t o s r s', Decidable (B t o s r s')] (c0 : Conf M ρ) (as bs : List (Action M)) (a : Action M)
    (P : Conf M ρ → Conf M ρ → Conf M ρ → Bool)
    (h : ((c0.play A as).bind fun c => (c.act A a).bind fun c' => (c'.play B bs).map (P c c')) = some true) :
    ∃ c c' c'', Conf.Steps A c0 c ∧ Conf.Step A c c' ∧ Conf.Steps B c' c'' ∧ P c c' c'' = true := by
  obtain ⟨c, hc, h⟩ := Option.bind_eq_some_iff.1 h
  obtain ⟨c', hc', h⟩ := Option.bind_eq_some_iff.1 h
  obtain ⟨c'', hc'', hP⟩ := Option.map_eq_some_iff.1 h
  exact ⟨c, c', c'', Conf.play_steps hc, Conf.act_step hc', Conf.play_steps hc'', hP⟩

end Txn
