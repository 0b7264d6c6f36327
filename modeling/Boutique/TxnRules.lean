import Boutique.TxnWorld
/-!
# TxnRules — the program logic of threads over a database

A contract adds to the law of the database an invariant of its own and an assumption on the runs; `Ensures` is the
weakest precondition of a program under it.  One rule for each operation and one for a whole transaction; a program
whose footprint cannot touch an assertion is done by `ensures_of_uses`.
-/
namespace Txn

open Relation (ReflTransGen)

variable {S : Schema} {V : Service} {ε α β : Type} {D : Cast S}

namespace Engine

/-- **What the others may have done** to the database since thread `t` last looked. -/
structure Evolves (D : Cast S) (t : Tid) (e e' : Engine S) : Prop where
  pending : e'.pending t = e.pending t
  started : e'.started t = e.started t
  seen : e'.seen t = e.seen t
  advisory : e'.advisory = some t ↔ e.advisory = some t
  next_le : e.next ≤ e'.next
  clock_le : e.clock ≤ e'.clock
  log : ∃ l, e'.log = e.log ++ l ∧ ∀ c ∈ l, c.by_ ≠ t ∧ (e.advisory = some t → c.locked = false)
  apart : ∀ n c, e.log.length ≤ n → e'.log[n]? = some c → ∀ T i, (e.pending t T i).isSome → c.writes T i = none
  version : ∀ m, m ≤ e.log.length → e'.version m = e.version m
  rows : ∀ T i, D.common.Becomes (!e.holds t) T (e.committed T i) (e'.committed T i)
  owned : ∀ T i r, e.pending t T i = some r → e'.committed T i = e.committed T i

variable {e e' e'' : Engine S} {t u : Tid}

theorem log_none {n : Nat} {c : Commit S} {p : Prop} (hn : e.log.length ≤ n) (hc : e.log[n]? = some c) : p := by
  have hlt := (List.getElem?_eq_some_iff.1 hc).1
  omega

theorem Evolves.refl (e : Engine S) : e.Evolves D t e :=
  ⟨rfl, rfl, rfl, .rfl, Nat.le_refl _, Int.le_refl _, ⟨[], by simp⟩, fun _ _ hn hc => log_none hn hc, fun _ _ => rfl,
    fun _ _ => Discipline.becomes_refl _ _ _, fun _ _ _ _ => rfl⟩

theorem Evolves.holds (h : e.Evolves D t e') : e'.holds t = e.holds t := by
  simp only [Engine.holds, h.advisory]

theorem Evolves.log_le (h : e.Evolves D t e') : e.log.length ≤ e'.log.length := by
  obtain ⟨l, hl, -⟩ := h.log
  rw [hl, List.length_append]
  exact Nat.le_add_right _ _

theorem Evolves.trans (h : e.Evolves D t e') (h' : e'.Evolves D t e'') : e.Evolves D t e'' := by
  obtain ⟨l, hl, hm⟩ := h.log
  obtain ⟨l', hl', hm'⟩ := h'.log
  refine ⟨h'.pending.trans h.pending, h'.started.trans h.started, h'.seen.trans h.seen, h'.advisory.trans h.advisory,
    Nat.le_trans h.next_le h'.next_le, Int.le_trans h.clock_le h'.clock_le, ⟨l ++ l', ?_, fun c hc => ?_⟩,
    fun n c hn hc T i hp => ?_, fun m hm => ?_, fun T i => ?_, fun T i r hp => ?_⟩
  · rw [hl', hl, List.append_assoc]
  · rcases List.mem_append.1 hc with hc | hc
    · exact hm c hc
    · obtain ⟨hb, hlock⟩ := hm' c hc
      exact ⟨hb, fun ha => hlock (h.advisory.2 ha)⟩
  · rcases Nat.lt_or_ge n e'.log.length with hlt | hge
    · rw [hl', List.getElem?_append_left hlt] at hc
      exact h.apart n c hn hc T i hp
    · exact h'.apart n c hge hc T i (by rw [h.pending]; exact hp)
  · rw [h'.version m (Nat.le_trans hm h.log_le), h.version m hm]
  · have := h'.rows T i
    rw [h.holds] at this
    exact (h.rows T i).trans this
  · rw [h'.owned T i r (by rw [h.pending]; exact hp), h.owned T i r hp]

theorem version_append (h : (e'.log = e.log ∧ e'.committed = e.committed) ∨ e'.log = e.log ++ [e.entry u]) (m : Nat)
    (hm : m ≤ e.log.length) : e'.version m = e.version m := by
  unfold version
  rcases h with ⟨hl, hc⟩ | hl
  · rw [hl, hc]
  · rw [hl]
    rcases Nat.lt_or_eq_of_le hm with hlt | rfl
    · rw [List.getElem?_append_left hlt, List.getElem?_eq_getElem hlt]
    · rw [List.getElem?_concat_length]
      simp [entry]

theorem Move.evolves (he : e.Lawful D) (h : e.Move u e') (hu : u ≠ t) : e.Evolves D t e' := by
  have hcommitted : e'.committed = e.committed ∨ e'.committed = e.view u := h.log.imp And.right And.right
  refine ⟨h.pending t (Ne.symm hu), h.started t (Ne.symm hu), h.seen t (Ne.symm hu), h.advisory t (Ne.symm hu), h.next_le, h.clock_le, ?_,
    fun n c hn hc T i hp => ?_, version_append (h.log.imp id And.left), fun T i => ?_, fun T i r hp => ?_⟩
  · rcases h.log with ⟨hl, -⟩ | ⟨hl, -⟩
    · exact ⟨[], by simp [hl]⟩
    · refine ⟨[e.entry u], hl, fun c hc => ?_⟩
      rw [List.mem_singleton] at hc
      subst hc
      refine ⟨hu, fun ha => ?_⟩
      simp [entry, ha, Ne.symm hu]
  · obtain ⟨r, hr⟩ := Option.isSome_iff_exists.1 hp
    rcases h.log with ⟨hl, -⟩ | ⟨hl, -⟩
    · rw [hl] at hc
      exact log_none hn hc
    · rw [hl, List.getElem?_append_right hn] at hc
      have hc' : e.entry u = c := by
        cases hd : n - e.log.length with
        | zero =>
          rw [hd] at hc
          exact Option.some.inj hc
        | succ d =>
          rw [hd] at hc
          cases hc
      rw [← hc']
      exact he.pending_of_ne (he.owner_of_pending hr) hu
  · rcases hcommitted with hc | hc
    · rw [hc]
      exact Discipline.becomes_refl _ _ _
    · rw [hc]
      have hin := Cast.becomes_common (he.inflight u T i)
      cases hh : e.holds t with
      | false =>
        cases hhu : e.holds u with
        | false =>
          rw [hhu] at hin
          exact hin.weaken
        | true =>
          rw [hhu] at hin
          exact hin
      | true =>
        have hhu : e.holds u = false := by
          have ha := holds_iff.1 hh
          simp [Engine.holds, ha, Ne.symm hu]
        rw [hhu] at hin
        exact hin
  · rcases hcommitted with hc | hc
    · rw [hc]
    · rw [hc, he.view_none]
      rw [he.owner_of_pending hp]
      exact fun heq => hu (Option.some.inj heq).symm

theorem Move.history (h : e.Move t e') :
    e.log <+: e'.log ∧ ∀ m, m ≤ e.log.length → e'.version m = e.version m := by
  refine ⟨?_, version_append (h.log.imp id And.left)⟩
  rcases h.log with ⟨hl, -⟩ | ⟨hl, -⟩
  · exact hl ▸ List.prefix_rfl
  · rw [hl]
    exact List.prefix_append _ _

theorem evolves_tick (t : Tid) (e : Engine S) (d : Nat) :
    e.Evolves D t { e with clock := e.clock + d } :=
  ⟨rfl, rfl, rfl, .rfl, Nat.le_refl _, by show e.clock ≤ e.clock + d; omega, ⟨[], by simp⟩,
    fun _ _ hn hc => log_none (e := e) hn hc, fun _ _ => rfl,
    fun _ _ => Discipline.becomes_refl _ _ _, fun _ _ _ _ => rfl⟩

theorem Evolves.view (h : e.Evolves D t e') (T : S.Table) (i : Nat) :
    D.common.Becomes (!e.holds t) T (e.view t T i) (e'.view t T i) := by
  unfold Engine.view Rows.overlay
  rw [h.pending]
  cases hp : e.pending t T i with
  | some r => exact Discipline.becomes_refl _ _ _
  | none => exact h.rows T i

end Engine

variable {t : Tid} {w w' : World S V}

namespace World

/-- What the others may have done since thread `t` last looked. -/
structure Evolves (D : Cast S) (t : Tid) (w w' : World S V) : Prop where
  db : w.db.Evolves D t w'.db
  mine : V.mine t w'.out = V.mine t w.out

theorem Evolves.refl (w : World S V) : w.Evolves D t w := ⟨.refl _, rfl⟩

theorem Evolves.trans {w'' : World S V} (h : w.Evolves D t w') (h' : w'.Evolves D t w'') :
    w.Evolves D t w'' := ⟨h.db.trans h'.db, h'.mine.trans h.mine⟩

/-- A step of thread `t` as the logics see it: lawful before and after, one move, the others' part of the store kept. -/
structure Moves (D : Cast S) (t : Tid) (w w' : World S V) : Prop where
  before : w.db.Lawful D
  after : w'.db.Lawful D
  db : w.db.Move t w'.db
  mine : ∀ u, u ≠ t → V.mine u w'.out = V.mine u w.out

theorem Moves.evolves {u : Tid} (h : w.Moves D u w') (hu : u ≠ t) : w.Evolves D t w' :=
  ⟨h.db.evolves h.before hu, h.mine t (Ne.symm hu)⟩

theorem moves_crash (h : w.db.Lawful D) : w.Moves D t (w.crash t) :=
  ⟨h, h.release t, Engine.move_release t w.db, fun _ _ => rfl⟩

end World

/-- **What a verification is about**: an invariant beyond the law of the database, and what runs are taken to satisfy. -/
structure Contract (D : Cast S) (V : Service) (ε : Type) where
  Inv : World S V → Prop
  Assume : (machine S V ε).Assumption
  crash_inv : ∀ t w, w.db.Lawful D → Inv w → Inv (w.crash t)
  tick_inv : ∀ d w, w.db.Lawful D → Inv w → Inv (w.tick d)

namespace Contract

theorem lawful_tick (h : w.db.Lawful D) (d : Nat) : (w.tick d).db.Lawful D :=
  ⟨h.owned, h.owned_lt, h.committed_lt, h.rows, h.own_id, h.own_check, h.apart, h.clear, h.inflight, h.entries, h.past,
    h.linked⟩

variable (C : Contract D V ε)

abbrev logic : Logic (machine S V ε) where
  Inv w := w.db.Lawful D ∧ C.Inv w
  Assume t o w r w' := w.Moves D t w' ∧ C.Assume t o w r w'
  Allow t w w' := w.Moves D t w'
  crash_inv t w h := ⟨⟨h.1.release t, C.crash_inv t w h.1 h.2⟩, World.moves_crash h.1⟩
  happen_inv d w h := ⟨lawful_tick h.1 d, C.tick_inv d w h.1 h.2⟩

/-- **The program ensures `Q` from here**, whatever the others do between its calls. -/
abbrev Ensures (t : Tid) (p : Code S V ε α) (Q : Except ε α → World S V → Prop) (w : World S V) : Prop :=
  p.wp (C.logic.interp t) Q w

variable {C} {t : Tid} {w w' : World S V}

theorem evolves_of_rely (h : C.logic.Rely t w w') : w.Evolves D t w' := by
  induction h with
  | refl => exact .refl _
  | tail _ h ih =>
    refine ih.trans ?_
    rcases h with ⟨ne, allowed, -⟩ | ⟨d, -⟩
    · exact allowed.evolves ne
    · exact ⟨Engine.evolves_tick t _ d, rfl⟩

variable {p : Code S V ε α} {Q : Except ε α → World S V → Prop} {F : Bool → Op S V → Prop}

theorem ensures_mono {Q' : Except ε α → World S V → Prop} (hQ : ∀ x w, Q x w → Q' x w) (h : C.Ensures t p Q w) :
    C.Ensures t p Q' w :=
  Prog.wp_mono (C.logic.interp_mono t) hQ h

theorem ensures_bind {f : α → Code S V ε β} {Q : Except ε β → World S V → Prop}
    (h : C.Ensures t p (fun x w' => match x with
      | .ok a => C.Ensures t (f a) Q w'
      | .error e => Q (.error e) w') w) : C.Ensures t (p >>= f) Q w := by
  rw [Ensures, Prog.wp_bind]
  refine ensures_mono (fun x w' hx => ?_) h
  cases x with
  | ok a => exact hx
  | error e => exact hx

/-- **The rule of a call**: whatever evolved before it, its answer keeps the invariant and the rest goes on. -/
theorem ensures_call {o : Op S V} {k : o.Res → Code S V ε α}
    (h : ∀ w1, w.Evolves D t w1 → w1.db.Lawful D → C.Inv w1 → ∀ i r w2, w1.exec t o i = some (r, w2) →
      w2.db.Lawful D → C.Assume t o w1 r w2 → C.Inv w2 ∧ C.Ensures t (k r) Q w2) : C.Ensures t (.call o k) Q w := by
  intro w1 hr hi i r w2 he hA
  obtain ⟨hI, hk⟩ := h w1 (evolves_of_rely hr) hi.1 hi.2 i r w2 he hA.1.after hA.2
  exact ⟨hA.1, ⟨hA.1.after, hI⟩, hk⟩

/-- **A program whose footprint respects an assertion keeps it**: the assertion survives what the others do and every
operation of the footprint. -/
theorem ensures_of_footprint {l : Bool} {Q : Except ε α → Bool → Prop} (Φ : Bool → World S V → Prop)
    (hevolve : ∀ l w w', w.Evolves D t w' → w'.db.Lawful D → C.Inv w' → Φ l w → Φ l w')
    (hop : ∀ l o w i r w', F l o → w.db.Lawful D → C.Inv w → Φ l w → w.exec t o i = some (r, w') →
      w'.db.Lawful D → C.Assume t o w r w' → C.Inv w' ∧ Φ (o.lockAfter l) w') (hp : Uses F l p Q) (hΦ : Φ l w) :
    C.Ensures t p (fun x w' => ∃ l', Q x l' ∧ Φ l' w') w := by
  induction p generalizing l w with
  | ret a => exact ⟨l, hp, hΦ⟩
  | raise e => exact ⟨l, hp, hΦ⟩
  | call o k ih =>
    obtain ⟨ho, hk⟩ := hp
    refine ensures_call fun w1 hev hL hI i r w2 he hL2 hA => ?_
    obtain ⟨hI2, hΦ2⟩ := hop l o w1 i r w2 ho hL hI (hevolve l w w1 hev hL hI hΦ) he hL2 hA
    exact ⟨hI2, ih r (hk r) hΦ2⟩

theorem ensures_of_uses {l : Bool} {Q : Except ε α → Bool → Prop} (Φ : Bool → World S V → Prop)
    (hevolve : ∀ l w w', w.Evolves D t w' → Φ l w → Φ l w')
    (hop : ∀ l o w i r w', F l o → w.db.Lawful D → C.Inv w → Φ l w → w.exec t o i = some (r, w') →
      w'.db.Lawful D → C.Assume t o w r w' → C.Inv w' ∧ Φ (o.lockAfter l) w') (hp : Uses F l p Q) (hΦ : Φ l w) :
    C.Ensures t p (fun x w' => ∃ l', Q x l' ∧ Φ l' w') w :=
  ensures_of_footprint Φ (fun l w w' hev _ _ => hevolve l w w' hev) hop hp hΦ

end Contract

namespace Cast

variable {ρ : Type} {A : (machine S V ε).Assumption} {c c' : Conf (machine S V ε) ρ}

structure Obeyed (D : Cast S) (c : Conf (machine S V ε) ρ) : Prop where
  lawful : c.state.db.Lawful D
  keeps : ∀ t p, c.threads t = some p → D.Keeps t p c.state.db

theorem Keeps.move {u : Tid} {p : Code S V ε ρ} {e e' : Engine S} (h : D.Keeps t p e) (hm : e.Move u e') (hu : t ≠ u) :
    D.Keeps t p e' := by
  obtain ⟨l, hl, hp⟩ := h
  exact ⟨l, fun h => (hm.advisory t hu).2 (hl h), hp⟩

theorem moves_exec {o : Op S V} {i : V.Input} {r : o.Res} {k : o.Res → Code S V ε ρ} (hw : w.db.Lawful D)
    (hk : D.Keeps t (.call o k : Code S V ε ρ) w.db) (h : w.exec t o i = some (r, w')) :
    w.Moves D t w' ∧ D.Keeps t (k r) w'.db := by
  cases o with
  | sql o =>
    obtain ⟨⟨x, e'⟩, he, hx⟩ := Option.map_eq_some_iff.1 h
    cases hx
    obtain ⟨hL, hK⟩ := lawful_exec hw hk he
    exact ⟨⟨hw, hL, Engine.exec_move he, fun _ _ => rfl⟩, hK⟩
  | now =>
    cases h
    obtain ⟨l, hl, -, hnext⟩ := hk
    exact ⟨⟨hw, hw, Engine.move_refl t _, fun _ _ => rfl⟩, l, hl, hnext _⟩
  | ask q =>
    cases h
    obtain ⟨l, hl, -, hnext⟩ := hk
    exact ⟨⟨hw, hw, Engine.move_refl t _, fun u hu => V.serve_mine _ u _ _ _ _ hu⟩, l, hl, hnext _⟩

theorem Obeyed.step (h : Obeyed D c) (hs : Conf.Step A c c') :
    Obeyed D c' ∧ Conf.Step (fun t o (w : World S V) r w' => w.Moves D t w' ∧ A t o w r w') c c' := by
  cases hs with
  | @call t i o k r s code answer assumed =>
    obtain ⟨hm, hk⟩ := moves_exec h.lawful (h.keeps t _ code) answer
    refine ⟨⟨hm.after, fun u p hp => ?_⟩, .call code answer ⟨hm, assumed⟩⟩
    by_cases hu : u = t
    · subst hu
      have hp' : k r = p := by simpa [Conf.setThread] using hp
      exact hp' ▸ hk
    · have hp' : c.threads u = some p := by simpa [Conf.setThread, hu] using hp
      exact (h.keeps u p hp').move hm.db hu
  | kill t =>
    refine ⟨⟨h.lawful.release t, fun u p hp => ?_⟩, .kill t⟩
    by_cases hu : u = t
    · simp [Conf.setThread, hu] at hp
    · have hp' : c.threads u = some p := by simpa [Conf.setThread, hu] using hp
      exact (h.keeps u p hp').move (Engine.move_release t _) hu
  | happen d =>
    refine ⟨⟨Contract.lawful_tick h.lawful d, fun u p hp => ?_⟩, .happen d⟩
    obtain ⟨l, hl, hp'⟩ := h.keeps u p hp
    exact ⟨l, hl, hp'⟩

theorem Obeyed.steps (h : Obeyed D c) (hs : Conf.Steps A c c') :
    Obeyed D c' ∧ Conf.Steps (fun t o (w : World S V) r w' => w.Moves D t w' ∧ A t o w r w') c c' := by
  induction hs with
  | refl => exact ⟨h, .refl⟩
  | tail _ hstep ih =>
    obtain ⟨hb, hr⟩ := ih
    obtain ⟨hc, hr'⟩ := hb.step hstep
    exact ⟨hc, hr.tail hr'⟩

theorem Obeyed.history (h : Obeyed D c) (hs : Conf.Steps A c c') : c.state.db.log <+: c'.state.db.log ∧
    ∀ m, m ≤ c.state.db.log.length → c'.state.db.version m = c.state.db.version m := by
  induction hs with
  | refl => exact ⟨List.prefix_rfl, fun _ _ => rfl⟩
  | @tail d d' hsteps hstep ih =>
    have hmove := ((h.steps hsteps).1.step hstep).2
    obtain ⟨hlog, hversion⟩ : d.state.db.log <+: d'.state.db.log ∧
        ∀ m, m ≤ d.state.db.log.length → d'.state.db.version m = d.state.db.version m := by
      cases hmove with
      | call code answer assumed => exact assumed.1.db.history
      | kill t => exact (Engine.move_release t _).history
      | happen d => exact ⟨List.prefix_rfl, fun _ _ => rfl⟩
    exact ⟨ih.1.trans hlog, fun m hm => (hversion m (hm.trans ih.1.length_le)).trans (ih.2 m hm)⟩

end Cast

/-- **The rule of whole runs**: obedient programs, each ensuring its postcondition alone against the others, keep the
contract's invariant together. -/
theorem Contract.runs (C : Contract D V ε) {ρ : Type} {Q : Tid → Except ε ρ → World S V → Prop}
    {c c' : Conf (machine S V ε) ρ} (hob : Cast.Obeyed D c) (hI : C.Inv c.state)
    (hsafe : ∀ t p, c.threads t = some p → C.logic.Safe t p (Q t) c.state) (hs : Conf.Steps C.Assume c c') :
    Logic.Sound C.logic Q c' ∧ c'.state.db.Lawful D := by
  have hsound : Logic.Sound C.logic Q c := ⟨⟨hob.lawful, hI⟩, hsafe⟩
  obtain ⟨hob', hs'⟩ := hob.steps hs
  exact ⟨(hsound.steps hs').1, hob'.lawful⟩

/-- **One program followed to its end**, whatever the others say of theirs. -/
theorem Contract.follows (C : Contract D V ε) {ρ : Type} {Q : Except ε ρ → World S V → Prop}
    {c c' : Conf (machine S V ε) ρ} (hob : Cast.Obeyed D c) (hI : C.Inv c.state)
    (hothers : ∀ u p, u ≠ t → c.threads u = some p → C.logic.Safe u p (fun _ _ => True) c.state)
    (hsafe : ∀ p, c.threads t = some p → C.logic.Safe t p Q c.state) (hs : Conf.Steps C.Assume c c') :
    (∀ a, c'.threads t = some (.ret a) → Q (.ok a) c'.state) ∧
      ∀ e, c'.threads t = some (.raise e) → Q (.error e) c'.state := by
  have hall : ∀ u p, c.threads u = some p → C.logic.Safe u p (fun x w => u = t → Q x w) c.state := by
    intro u p hp
    by_cases hu : u = t
    · subst hu
      exact (hsafe p hp).mono fun _ _ h _ => h
    · exact (hothers u p hu hp).mono fun _ _ _ h => absurd h hu
  obtain ⟨hsound, -⟩ := C.runs (Q := fun u x w => u = t → Q x w) hob hI hall hs
  exact ⟨fun a ht => hsound.finished ht rfl, fun e ht => hsound.raised ht rfl⟩

end Txn
