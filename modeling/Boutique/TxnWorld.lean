import Boutique.TxnLaw
/-!
# TxnWorld — threads over a database and an outside service

The machine of a server process: its operations are the database's statements, the clock, and questions to parties
outside.  Programs that obey a discipline keep the database lawful in every run, and what another thread can have done
between two statements of a thread is `Evolves`.
-/
namespace Txn

open Relation (ReflTransGen)

/-- **The parties outside the database**: what they are asked, what they answer, and what they remember.  They see how
many commits went before a question; `mine` is what they remember of one thread, which the others' questions leave
alone. -/
structure Service where
  Ask : Type
  Ans : Ask → Type
  Input : Type
  Store : Type
  Mine : Type
  serve : Tid → (q : Ask) → Input → Nat → Store → Ans q × Store
  mine : Tid → Store → Mine
  serve_mine : ∀ t u q i n s, u ≠ t → mine u (serve t q i n s).2 = mine u s

inductive Op (S : Schema) (V : Service)
  | sql (o : Stmt S)
  | now
  | ask (q : V.Ask)

structure World (S : Schema) (V : Service) where
  db : Engine S
  out : V.Store

variable {S : Schema} {V : Service} {ε : Type}

abbrev Op.Res : Op S V → Type
  | .sql o => o.Res
  | .now => Int
  | .ask q => V.Ans q

namespace World

def exec (t : Tid) : (o : Op S V) → V.Input → World S V → Option (o.Res × World S V)
  | .sql o, _, w => (w.db.exec t o).map fun p => (p.1, { w with db := p.2 })
  | .now, _, w => some (w.db.clock, w)
  | .ask q, i, w =>
    let p := V.serve t q i w.db.log.length w.out
    some (p.1, { w with out := p.2 })

def crash (t : Tid) (w : World S V) : World S V := { w with db := w.db.release t }

def tick (d : Nat) (w : World S V) : World S V := { w with db := { w.db with clock := w.db.clock + d } }

end World

/-- **The machine**: a thread that dies is rolled back, and time passes by itself. -/
abbrev machine (S : Schema) (V : Service) (ε : Type) : Machine where
  Op := Op S V
  Res := Op.Res
  Error := ε
  State := World S V
  Input := V.Input
  Event := Nat
  exec := World.exec
  crash := World.crash
  happen := World.tick

abbrev Code (S : Schema) (V : Service) (ε ρ : Type) : Type := Prog (Op S V) Op.Res ε ρ

/-- Every instant a thread reads off the clock in the run is one that `G` knows for it. -/
def Readings (G : Tid → Int → Prop) : (machine S V ε).Assumption := fun t o _ r _ =>
  match o, r with
  | .now, n => G t n
  | _, _ => True

instance {G : Tid → Int → Prop} [∀ t n, Decidable (G t n)] (t : Tid) (o : (machine S V ε).Op) (w : (machine S V ε).State)
    (r : (machine S V ε).Res o) (w' : (machine S V ε).State) : Decidable (Readings G t o w r w') :=
  match o, r with
  | .now, n => inferInstanceAs (Decidable (G t n))
  | .sql _, _ => isTrue trivial
  | .ask _, _ => isTrue trivial

/-- Every version a thread's queries read in the run is one that `G` knows for it. -/
def Looks (G : Tid → S.Query → Nat → Prop) : (machine S V ε).Assumption := fun t o w _ _ =>
  match o with
  | .sql (.read q) => G t q w.db.log.length
  | _ => True

instance {G : Tid → S.Query → Nat → Prop} [∀ t q n, Decidable (G t q n)] (t : Tid) (o : (machine S V ε).Op)
    (w : (machine S V ε).State) (r : (machine S V ε).Res o) (w' : (machine S V ε).State) : Decidable (Looks G t o w r w') :=
  match o with
  | .sql (.read q) => inferInstanceAs (Decidable (G t q w.db.log.length))
  | .sql .begin | .sql (.update ..) | .sql (.insert ..) | .sql .lock | .sql .commit | .sql .abort => isTrue trivial
  | .now | .ask _ => isTrue trivial

variable {t : Tid} {e : Engine S} {F' : Bool → Op S V → Prop} {l : Bool}

namespace Engine

/-- **One statement of thread `t`, seen by the others.** -/
structure Move (t : Tid) (e e' : Engine S) : Prop where
  pending : ∀ u, u ≠ t → e'.pending u = e.pending u
  started : ∀ u, u ≠ t → e'.started u = e.started u
  seen : ∀ u, u ≠ t → e'.seen u = e.seen u
  advisory : ∀ u, u ≠ t → (e'.advisory = some u ↔ e.advisory = some u)
  next_le : e.next ≤ e'.next
  clock_le : e.clock ≤ e'.clock
  log : (e'.log = e.log ∧ e'.committed = e.committed) ∨ (e'.log = e.log ++ [e.entry t] ∧ e'.committed = e.view t)

theorem move_refl (t : Tid) (e : Engine S) : e.Move t e :=
  ⟨fun _ _ => rfl, fun _ _ => rfl, fun _ _ => rfl, fun _ _ => .rfl, Nat.le_refl _, Int.le_refl _, .inl ⟨rfl, rfl⟩⟩

theorem move_write (t : Tid) (e : Engine S) (n : Nat) (hn : e.next ≤ n) (T : S.Table) (i : Nat) (r : S.Row T) :
    e.Move t (({ e with next := n } : Engine S).write t T i r) :=
  ⟨fun _ hu => write_pending_tid hu, fun _ _ => rfl, fun _ _ => rfl, fun _ _ => .rfl, hn, Int.le_refl _, .inl ⟨rfl, rfl⟩⟩

theorem move_release (t : Tid) (e : Engine S) : e.Move t (e.release t) :=
  ⟨fun _ hu => release_pending_tid hu, fun _ _ => rfl, fun _ _ => rfl, fun _ hu => by rw [release_advisory]; exact and_iff_left hu,
    Nat.le_refl _, Int.le_refl _, .inl ⟨rfl, rfl⟩⟩

theorem move_commit (t : Tid) (e : Engine S) : e.Move t (e.commit t) :=
  let h := move_release t e
  ⟨h.pending, h.started, h.seen, h.advisory, h.next_le, h.clock_le, .inr ⟨rfl, rfl⟩⟩

theorem exec_move {o : Stmt S} {e' : Engine S} {x : o.Res} (h : exec t o e = some (x, e')) : e.Move t e' := by
  cases o with
  | begin =>
    cases h
    refine ⟨fun _ _ => rfl, fun u hu => ?_, fun _ _ => rfl, fun _ _ => .rfl, Nat.le_refl _, Int.le_refl _, .inl ⟨rfl, rfl⟩⟩
    simp [hu]
  | read q =>
    cases h
    refine ⟨fun _ _ => rfl, fun _ _ => rfl, fun u hu => ?_, fun _ _ => .rfl, Nat.le_refl _, Int.le_refl _, .inl ⟨rfl, rfl⟩⟩
    simp [look, hu]
  | update T i g =>
    rcases update_cases h with ⟨-, -, rfl⟩ | ⟨v, r, -, -, -, ⟨-, rfl, -⟩ | ⟨-, rfl, -⟩⟩
    · exact move_refl t _
    · exact move_refl t _
    · exact move_write t e e.next (Nat.le_refl _) T i r
  | insert T r =>
    rcases insert_cases h with ⟨-, rfl, -⟩ | ⟨-, rfl, -⟩
    · exact ⟨fun _ _ => rfl, fun _ _ => rfl, fun _ _ => rfl, fun _ _ => .rfl, Nat.le_succ _, Int.le_refl _, .inl ⟨rfl, rfl⟩⟩
    · exact move_write t e _ (Nat.le_succ _) T _ _
  | lock =>
    obtain ⟨ha, rfl⟩ := lock_cases h
    refine ⟨fun _ _ => rfl, fun _ _ => rfl, fun _ _ => rfl, fun u hu => ?_, Nat.le_refl _, Int.le_refl _, .inl ⟨rfl, rfl⟩⟩
    have hne : t ≠ u := Ne.symm hu
    rcases ha with ha | ha <;> simp [ha, hne]
  | commit =>
    cases h
    exact move_commit t e
  | abort =>
    cases h
    exact move_release t e

end Engine

def Op.lockAfter : Op S V → Bool → Bool
  | .sql .lock, _ => true
  | .sql .commit, _ => false
  | .sql .abort, _ => false
  | _, l => l

/-- The operations a program performs, whatever it is answered: each is in `F`, given whether the lock is held. -/
def uses (F : Bool → Op S V → Prop) : Interp (Op S V) Op.Res Bool := fun o K l => F l o ∧ ∀ x, K x (o.lockAfter l)

/-- **The footprint of a program** that starts with the lock known to be held (`l`) or not: `Q` reads how it ends. -/
abbrev Uses {α : Type} (F : Bool → Op S V → Prop) (l : Bool) (p : Code S V ε α) (Q : Except ε α → Bool → Prop) : Prop :=
  p.wp (uses F) Q l

theorem uses_mono {α : Type} {F : Bool → Op S V → Prop} {p : Code S V ε α} {Q Q' : Except ε α → Bool → Prop}
    (hF : ∀ l o, F l o → F' l o) (hQ : ∀ x l, Q x l → Q' x l) (h : Uses F l p Q) : Uses F' l p Q' := by
  induction p generalizing l with
  | ret a => exact hQ _ _ h
  | raise e => exact hQ _ _ h
  | call o k ih =>
    obtain ⟨ho, hk⟩ := h
    exact ⟨hF _ _ ho, fun x => ih x (hk x)⟩

section Footprints

variable {α β : Type} {F : Bool → Op S V → Prop} {l l' : Bool} {p : Code S V ε α} {f : α → Code S V ε β}

abbrev Within (F : Bool → Op S V → Prop) (l : Bool) (p : Code S V ε α) : Prop := Uses F l p fun _ _ => True

abbrev Steady (F : Bool → Op S V → Prop) (l : Bool) (p : Code S V ε α) : Prop := Uses F l p fun _ l' => l' = l

theorem uses_bind {R : Except ε α → Bool → Prop} {Q : Except ε β → Bool → Prop} (hp : Uses F l p R)
    (hf : ∀ a l', R (.ok a) l' → Uses F l' (f a) Q) (he : ∀ e l', R (.error e) l' → Q (.error e) l') :
    Uses F l (p >>= f) Q := by
  rw [Uses, Prog.wp_bind]
  refine uses_mono (fun _ _ h => h) (fun x l' hx => ?_) hp
  cases x with
  | ok a => exact hf a l' hx
  | error e => exact he e l' hx

theorem Steady.within (h : Steady F l p) : Within F l p := uses_mono (fun _ _ h => h) (fun _ _ _ => trivial) h

theorem Steady.bind (hp : Steady F l p) (hf : ∀ a, Steady F l (f a)) : Steady F l (p >>= f) :=
  uses_bind hp (fun a _ hl => hl ▸ hf a) fun _ _ hl => hl

theorem Steady.then_ (hp : Steady F l p) (hf : ∀ a, Within F l (f a)) : Within F l (p >>= f) :=
  uses_bind hp (fun a _ hl => hl ▸ hf a) fun _ _ _ => trivial

theorem Steady.attempt {ε' : Type} (hp : Steady F l p) : Steady F l (p.attempt : Code S V ε' (Except ε α)) := by
  rw [Steady, Uses, Prog.wp_attempt]
  exact hp

theorem Within.mono (hF : ∀ l o, F l o → F' l o) (h : Within F l p) : Within F' l p :=
  uses_mono hF (fun _ _ h => h) h

theorem Steady.mono (hF : ∀ l o, F l o → F' l o) (h : Steady F l p) : Steady F' l p :=
  uses_mono hF (fun _ _ h => h) h

end Footprints

namespace Discipline

variable (D : Discipline S)

def Legal : Bool → Op S V → Prop
  | l, .sql (.update T i g) => ∀ r r', S.id T r = i → S.apply T g r = some r' → D.Trans l T r r'
  | l, .sql (.insert T r) => ∀ i n, D.New l T (S.stamp T i n r)
  | _, _ => True

def Rewrites (F : Bool → Op S V → Prop) (l : Bool) (T : S.Table) (r r' : S.Row T) : Prop :=
  ∃ g, F l (.sql (.update T (S.id T r) g)) ∧ S.apply T g r = some r'

/-- **The discipline of a footprint**: rows change by its updates and come from its inserts. -/
def ofWrites (F : Bool → Op S V → Prop) (hF : ∀ o, F false o → F true o) : Discipline S where
  Trans l T := ReflTransGen (Rewrites F l T)
  New l T r := ∃ r₀ i n, F l (.sql (.insert T r₀)) ∧ ReflTransGen (Rewrites F l T) (S.stamp T i n r₀) r
  refl _ _ _ := .refl
  trans _ _ _ _ _ h h' := h.trans h'
  weaken _ _ _ h := ReflTransGen.mono (fun _ _ ⟨g, hg, ha⟩ => ⟨g, hF _ hg, ha⟩) _ _ h
  new_trans _ _ _ _ h h' :=
    let ⟨r₀, i, n, hi, hr⟩ := h
    ⟨r₀, i, n, hi, hr.trans h'⟩
  new_weaken _ _ h :=
    let ⟨r₀, i, n, hi, hr⟩ := h
    ⟨r₀, i, n, hF _ hi, ReflTransGen.mono (fun _ _ ⟨g, hg, ha⟩ => ⟨g, hF _ hg, ha⟩) _ _ hr⟩

variable {D} {F : Bool → Op S V → Prop} {hF : ∀ o, F false o → F true o}

theorem legal_ofWrites {o : Op S V} (h : F l o) : (ofWrites F hF).Legal l o := by
  cases o with
  | sql o =>
    cases o with
    | update T i g =>
      intro r r' hi hr
      subst hi
      exact .single ⟨g, h, hr⟩
    | insert T r => exact fun i n => ⟨r, i, n, h, .refl⟩
    | _ => trivial
  | now | ask => trivial

variable {T : S.Table}

theorem ofWrites_trans {r r' : S.Row T} (hD : ∀ o, F l o → D.Legal l o) (h : (ofWrites F hF).Trans l T r r') :
    D.Trans l T r r' := by
  induction h with
  | refl => exact D.refl _ _ _
  | tail _ hstep ih =>
    obtain ⟨g, hg, ha⟩ := hstep
    exact D.trans _ _ _ _ _ ih (hD _ hg _ _ rfl ha)

theorem ofWrites_new {r : S.Row T} (hD : ∀ o, F l o → D.Legal l o) (h : (ofWrites F hF).New l T r) : D.New l T r := by
  obtain ⟨r0, i, n, hi, hr⟩ := h
  induction hr with
  | refl => exact hD _ hi i n
  | tail _ hstep ih =>
    obtain ⟨g, hg, ha⟩ := hstep
    exact D.new_trans _ _ _ _ ih (hD _ hg _ _ rfl ha)

theorem becomes_of_known {a b : Option (S.Row T)} (hl : l = true → e.advisory = some t) (h : D.Becomes l T a b) :
    D.Becomes (e.holds t) T a b := by
  cases l with
  | false => exact h.weaken
  | true =>
    have : e.holds t = true := by
      rw [Engine.holds_iff]
      exact hl rfl
    rwa [this]

end Discipline

namespace Cast

variable {D : Cast S}

def Keeps (D : Cast S) (t : Tid) {ρ : Type} (p : Code S V ε ρ) (e : Engine S) : Prop :=
  ∃ l, (l = true → e.advisory = some t) ∧ Uses (D.role t).Legal l p fun _ _ => True

open Engine Discipline in
/-- **A statement that obeys the discipline keeps the database lawful**, and leaves a thread that obeys it. -/
theorem lawful_exec {o : Stmt S} {e' : Engine S} {x : o.Res} {ρ : Type} {k : o.Res → Code S V ε ρ} (he : e.Lawful D)
    (hk : D.Keeps t (.call (.sql o) k : Code S V ε ρ) e) (h : exec t o e = some (x, e')) :
    e'.Lawful D ∧ D.Keeps t (k x) e' := by
  obtain ⟨l, hl, ho, hnext⟩ := hk
  cases o with
  | begin =>
    cases h
    exact ⟨⟨he.owned, he.owned_lt, he.committed_lt, he.rows, he.own_id, he.own_check, he.apart, he.clear, he.inflight,
      he.entries, he.past, he.linked⟩, l, hl, hnext _⟩
  | read q =>
    cases h
    exact ⟨⟨he.owned, he.owned_lt, he.committed_lt, he.rows, he.own_id, he.own_check, he.apart, he.clear, he.inflight,
      he.entries, he.past, he.linked⟩, l, hl, hnext _⟩
  | update T i g =>
    rcases update_cases h with ⟨-, rfl, rfl⟩ | ⟨v, r, hv, hr, hown, ⟨rfl, rfl, -⟩ | ⟨rfl, rfl, ha⟩⟩
    · exact ⟨he, l, hl, hnext _⟩
    · exact ⟨he, l, hl, hnext _⟩
    · have hid : S.id T v = i := (he.view_consistent t).id T i v hv
      refine ⟨he.write hown (he.view_lt hv) ((S.id_apply T g v r hr).trans hid) ha ?_, l, hl, hnext _⟩
      rw [hv]
      exact becomes_of_known hl (ho v r hid hr)
  | insert T r =>
    have he1 : Engine.Lawful D { e with next := e.next + 1 } :=
      ⟨he.owned, fun t T i r hp => Nat.lt_succ_of_lt (he.owned_lt t T i r hp),
        fun T i r hc => Nat.lt_succ_of_lt (he.committed_lt T i r hc), he.rows, he.own_id, he.own_check, he.apart,
        he.clear, he.inflight, he.entries, he.past, he.linked⟩
    rcases insert_cases h with ⟨rfl, rfl, -⟩ | ⟨rfl, rfl, ha⟩
    · exact ⟨he1, l, hl, hnext _⟩
    · have hown := he.owner_none_of_le (Nat.le_refl _) T
      refine ⟨he1.write (.inl hown) (Nat.lt_succ_self _) (S.id_stamp ..) ha ?_, l, hl, hnext _⟩
      rw [he1.view_none (by rw [show Engine.owner _ T e.next = none from hown]; simp),
        show Engine.committed _ T e.next = none from he.committed_none_of_le (Nat.le_refl _) T]
      exact becomes_of_known hl (ho _ _)
  | lock =>
    obtain ⟨ha, rfl⟩ := lock_cases h
    refine ⟨⟨he.owned, he.owned_lt, he.committed_lt, he.rows, he.own_id, he.own_check, he.apart, he.clear, ?_,
      he.entries, he.past, he.linked⟩, true, fun _ => rfl, hnext _⟩
    intro u T i
    have hu := he.inflight u T i
    by_cases hut : u = t
    · subst hut
      have hb' : ({ e with advisory := some u } : Engine S).holds u = true := by simp
      rw [hb']
      cases hb : e.holds u with
      | true => exact hb ▸ hu
      | false => exact (hb ▸ hu).weaken
    · have hfalse : e.holds u = false := by
        rcases ha with ha | ha <;> simp [Engine.holds, ha, Ne.symm hut]
      rw [hfalse] at hu
      exact hu.weaken
  | commit =>
    cases h
    exact ⟨he.commit t, false, (fun h => by cases h), hnext _⟩
  | abort =>
    cases h
    exact ⟨he.release t, false, (fun h => by cases h), hnext _⟩

end Cast
end Txn
