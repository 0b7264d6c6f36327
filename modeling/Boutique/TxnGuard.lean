import Boutique.TxnLocked
/-!
# TxnGuard — the rows that the lock guards

Where every write of some rows of a table is made with the lock, a transaction that holds it computes on those rows alone: what it
sees of them is what it found when it took the lock and what it has done to it since.
-/
namespace Txn

variable {S : Schema} {V : Service} {ε α β : Type} {D : Cast S} {T : S.Table} {p : S.Row T → Bool} {t : Tid} {n : Int}
  {c v : Nat → Option (S.Row T)}

def part (p : S.Row T → Bool) (rows : Nat → Option (S.Row T)) : Nat → Option (S.Row T) := fun i => (rows i).filter p

variable {rows : Nat → Option (S.Row T)} {r : S.Row T} {g : S.Change T}

theorem part_some {i : Nat} :
    part p rows i = some r ↔ rows i = some r ∧ p r = true := Option.filter_eq_some_iff

theorem part_none {i : Nat} (h : rows i = none) : part p rows i = none := by
  rw [part, h, Option.filter_none]

theorem part_update {i : Nat} (hr : p r = true) :
    part p (Function.update rows i (some r)) = Function.update (part p rows) i (some r) := by
  funext j
  by_cases hj : j = i
  · subst hj
    simp [part, hr]
  · simp [part, hj]

/-- **Without the lock no `p` row is written.** -/
structure Discipline.Guards (E : Discipline S) (T : S.Table) (p : S.Row T → Bool) : Prop where
  same : ∀ r r', E.Trans false T r r' → p r = true ∨ p r' = true → r' = r
  fresh : ∀ r, E.New false T r → p r = false

theorem Discipline.Guards.part {E : Discipline S} (h : E.Guards T p) {rows' : Nat → Option (S.Row T)}
    (hrows : ∀ i, E.Becomes false T (rows i) (rows' i)) : part p rows' = part p rows := by
  funext i
  have hrow := hrows i
  unfold Txn.part
  cases hr : rows i with
  | none =>
    rw [hr] at hrow
    cases hr' : rows' i with
    | none => rfl
    | some r' =>
      rw [hr'] at hrow
      rw [Option.filter_none, Option.filter_some, if_neg (by rw [h.fresh r' hrow]; decide)]
  | some r =>
    rw [hr] at hrow
    obtain ⟨r', hr', htrans⟩ := hrow.some_left
    rw [hr']
    by_cases hp : p r = true ∨ p r' = true
    · rw [h.same r r' htrans hp]
    · simp only [not_or, Bool.not_eq_true] at hp
      rw [Option.filter_some, Option.filter_some, if_neg (by simp [hp.2]), if_neg (by simp [hp.1])]

def Discipline.bare (E : Discipline S) : Discipline S where
  Trans _ := E.Trans false
  New _ := E.New false
  refl _ := E.refl false
  trans _ := E.trans false
  weaken _ _ _ h := h
  new_trans _ := E.new_trans false
  new_weaken _ _ h := h

theorem Discipline.becomes_bare {E : Discipline S} {l : Bool} {a b : Option (S.Row T)} (h : E.bare.Becomes l T a b) :
    E.Becomes false T a b := by
  cases a <;> cases b <;> exact h

namespace Engine

variable {e e' : Engine S} {i : Nat} {r : S.Row T}

/-- **With the lock**, in a transaction that began at `n`, `t` has found `c` of the rows and made them `v`. -/
structure Under (e : Engine S) (t : Tid) (T : S.Table) (p : S.Row T → Bool) (n : Int) (c v : Nat → Option (S.Row T)) :
    Prop where
  lock : e.advisory = some t
  begun : e.started t = n
  found : part p (e.committed T) = c
  sight : part p (e.view t T) = v

theorem Under.evolves (hG : D.common.Guards T p) (h : e.Under t T p n c v) (hev : e.Evolves D t e') : e'.Under t T p n c v := by
  have hholds : (!e.holds t) = false := by simp [Engine.holds, h.lock]
  refine ⟨hev.advisory.2 h.lock, hev.started.trans h.begun, ?_, ?_⟩
  · rw [← h.found]
    refine hG.part fun i => ?_
    have hrow := hev.rows T i
    rwa [hholds] at hrow
  · rw [← h.sight]
    refine hG.part fun i => ?_
    have hrow := hev.view T i
    rwa [hholds] at hrow

theorem Under.congr (h : e.Under t T p n c v) (hlock : e'.advisory = e.advisory) (hn : e'.started = e.started)
    (hc : e'.committed = e.committed) (hp : e'.pending t = e.pending t) : e'.Under t T p n c v := by
  refine ⟨hlock.trans h.lock, by rw [hn]; exact h.begun, by rw [hc]; exact h.found, ?_⟩
  rw [← h.sight]
  unfold Engine.view
  rw [hc, hp]

theorem write_view_table : (e.write t T i r).view t T = Function.update (e.view t T) i (some r) := by
  funext j
  by_cases hj : j = i
  · subst hj
    simp
  · rw [write_view_row fun h => hj h.2, Function.update_of_ne hj]

theorem Under.write (h : e.Under t T p n c v) (hr : p r = true) :
    (e.write t T i r).Under t T p n c (Function.update v i (some r)) := by
  refine ⟨h.lock, h.begun, h.found, ?_⟩
  rw [write_view_table, part_update hr, h.sight]

theorem Under.beside {T' : S.Table} {r : S.Row T'} (h : e.Under t T p n c v) (hT : T ≠ T') : (e.write t T' i r).Under t T p n c v := by
  refine ⟨h.lock, h.begun, h.found, ?_⟩
  rw [← h.sight]
  congr 1
  funext j
  exact write_view_row fun hc => hT hc.1

theorem Under.none_of_le (h : e.Under t T p n c v) (hL : e.Lawful D) (hi : e.next ≤ i) : v i = none := by
  rw [← h.sight]
  refine part_none ?_
  cases hv : e.view t T i with
  | none => rfl
  | some r =>
    have hlt := hL.view_lt hv
    omega

theorem Under.row (h : e.Under t T p n c v) : v i = some r ↔ e.view t T i = some r ∧ p r = true := by
  rw [← h.sight, part_some]

theorem not_refuses (hcheck : S.check T r = true) (hclash : ∀ u, S.clash T r u = false) : ¬e.Refuses t T i r := by
  rintro (hfalse | ⟨j, -, -, hsettled⟩)
  · rw [hcheck] at hfalse
    cases hfalse
  · obtain ⟨u, -, htrue⟩ := (Option.any_eq_true _ _).1 (Bool.and_eq_true_iff.1 hsettled).2
    rw [hclash u] at htrue
    cases htrue

theorem Under.refuses (h : e.Under t T p n c v) (hp : ∀ u, S.clash T r u = true → p u = true) (hr : e.Refuses t T i r) :
    S.check T r = false ∨ ∃ j u, j ≠ i ∧ v j = some u ∧ S.clash T r u = true := by
  refine hr.imp_right fun hsettled => ?_
  obtain ⟨j, -, hj, hsettled⟩ := hsettled
  obtain ⟨u, hu, hclash⟩ := (Option.any_eq_true _ _).1 (Bool.and_eq_true_iff.1 hsettled).2
  exact ⟨j, u, hj, h.row.2 ⟨hu, hp u hclash⟩, hclash⟩

theorem Under.bind (h : e.Under t T p n c v) (hg : ∀ r r', S.apply T g r = some r' → p r = true) :
    (e.view t T i).bind (S.apply T g) = (v i).bind (S.apply T g) := by
  rw [← h.sight]
  unfold part
  cases hv : e.view t T i with
  | none => rfl
  | some r =>
    cases hp : p r with
    | true => rw [Option.filter_some, if_pos hp]
    | false =>
      rw [Option.filter_some, if_neg (by simp [hp])]
      cases ha : S.apply T g r with
      | none => exact ha
      | some r' =>
        rw [hg r r' ha] at hp
        cases hp

end Engine

def applyOne (g : S.Change T) (v : Nat → Option (S.Row T)) (i : Nat) : Nat → Option (S.Row T) :=
  match (v i).bind (S.apply T g) with
  | none => v
  | some r => Function.update v i (some r)

theorem applyOne_none {i : Nat} (h : (v i).bind (S.apply T g) = none) : applyOne g v i = v := by
  simp [applyOne, h]

theorem applyOne_some {i : Nat} {u : S.Row T} (hu : v i = some u) (hr : S.apply T g u = some r) :
    applyOne g v i = Function.update v i (some r) := by
  simp [applyOne, hu, hr]

def applyEach (g : S.Change T) (v : Nat → Option (S.Row T)) (ids : List Nat) : Nat → Option (S.Row T) := ids.foldl (applyOne g) v

def Once (g : S.Change T) : Prop := ∀ r r', S.apply T g r = some r' → S.apply T g r' = none

theorem applyEach_row (hg : Once g) {i : Nat} : ∀ (ids : List Nat) (v : Nat → Option (S.Row T)),
    applyEach g v ids i = if i ∈ ids then ((v i).bind (S.apply T g)).or (v i) else v i
  | [], v => by simp [applyEach]
  | j :: ids, v => by
    have ih := applyEach_row hg (i := i) ids (applyOne g v j)
    rw [applyEach, List.foldl_cons]
    rw [applyEach] at ih
    rw [ih]
    by_cases hij : i = j
    · subst hij
      cases hm : (v i).bind (S.apply T g) with
      | none => simp [applyOne, hm]
      | some r =>
        obtain ⟨u, hu, hr⟩ := Option.bind_eq_some_iff.1 hm
        have hnone := hg u r hr
        simp [applyOne, hm, hnone]
    · have hsame : applyOne g v j i = v i := by
        unfold applyOne
        cases (v j).bind (S.apply T g) with
        | none => rfl
        | some r => exact Function.update_of_ne hij _ _
      rw [hsame]
      simp [hij]

namespace Session

open Contract

variable {C : Contract D V ε} {calm : V.Ask → Bool} {w : World S V} {Q : Except ε β → World S V → Prop}

section Guarded

variable (hC : C.Historic calm) (hG : D.common.Guards T p)
include hC

theorem under_lock {k : Unit → Code S V ε β} (hidle : ∀ i, w.db.pending t T i = none)
    (hk : ∀ c w1, w1.db.Under t T p (w.db.started t) c c → w1.db.Lawful D → C.Inv w1 → w1.db.own t = w.db.own t → C.Ensures t (k ()) Q w1) :
    C.Ensures t (.call (.sql .lock) k) Q w := by
  refine ensures_call fun w1 hev hL hI i r w2 he hL2 hA => ?_
  have hI2 := hC.exec (by simp) (by simp) he hI
  obtain ⟨⟨y, e'⟩, he', hx⟩ := Option.map_eq_some_iff.1 he
  obtain ⟨-, rfl⟩ := Engine.lock_cases he'
  cases hx
  refine ⟨hI2, hk (part p (w1.db.committed T)) _ ⟨rfl, hev.db.started, rfl, ?_⟩ hL2 hI2 hev.db.since.own⟩
  rw [Engine.view_table fun i => by rw [hev.db.pending]; exact hidle i]

include hG

theorem under_select {q : S.Query} {f : Snapshot S → α} {k : α → Code S V ε β} (h : w.db.Under t T p n c v)
    (hk : ∀ w1, w1.db.Under t T p n c v → w1.db.Lawful D → C.Inv w1 → w1.db.own t = w.db.own t →
      C.Ensures t (k (f ⟨w1.db.view t, w1.db.next⟩)) Q w1) : C.Ensures t (select q f >>= k) Q w := by
  refine ensures_call fun w1 hev hL hI i r w2 he hL2 hA => ?_
  have hI2 := hC.exec (by simp) (by simp) he hI
  cases he
  exact ⟨hI2, hk ⟨w1.db.look t, w1.out⟩ ((h.evolves hG hev.db).congr rfl rfl rfl rfl) hL2 hI2 hev.db.since.own⟩

theorem under_update {e : ε} {i : Nat} {k : Option (S.Row T) → Code S V ε β}
    (hg : ∀ r r', S.apply T g r = some r' → p r = true ∧ p r' = true) (h : w.db.Under t T p n c v)
    (hrefused : ∀ w1 u r, w1.db.own t = w.db.own t → w1.db.Lawful D → w1.db.Under t T p n c v → v i = some u →
      S.apply T g u = some r → w1.db.Refuses t T i r → Q (.error e) w1)
    (hnone : ∀ w1, w1.db.Under t T p n c v → w1.db.own t = w.db.own t → (v i).bind (S.apply T g) = none →
      C.Ensures t (k none) Q w1)
    (hsome : ∀ w1 u r, w1.db.Under t T p n c (Function.update v i (some r)) → w1.db.own t = w.db.own t → v i = some u →
      S.apply T g u = some r → C.Ensures t (k (some r)) Q w1) : C.Ensures t (update e T i g >>= k) Q w := by
  refine ensures_call fun w1 hev hL hI inp x w2 he hL2 hA => ?_
  have hI2 := hC.exec (by simp) (by simp) he hI
  have hu := h.evolves hG hev.db
  have hown := hev.db.since.own
  obtain ⟨⟨y, e'⟩, he', hx⟩ := Option.map_eq_some_iff.1 he
  cases hx
  rcases Engine.update_cases he' with ⟨hn, rfl, rfl⟩ | ⟨u, r, hv, hr, -, ⟨rfl, rfl, hrefuses⟩ | ⟨rfl, rfl, -⟩⟩
  · refine ⟨hI2, hnone w1 hu hown ?_⟩
    rw [← hu.bind fun r r' hr => (hg r r' hr).1]
    exact hn
  · exact ⟨hI2, hrefused w1 u r hown hL hu (hu.row.2 ⟨hv, (hg u r hr).1⟩) hr hrefuses⟩
  · exact ⟨hI2, hsome _ u r (hu.write (hg u r hr).2) hown (hu.row.2 ⟨hv, (hg u r hr).1⟩) hr⟩

variable {k : List (S.Row T) → Code S V ε β}

theorem under_updateEach {e : ε} (hg : ∀ r r', S.apply T g r = some r' → p r = true ∧ p r' = true)
    {own : List (Commit S)}
    (hrefused : ∀ w1 v' i u r, w1.db.own t = own → w1.db.Lawful D → w1.db.Under t T p n c v' → v' i = some u →
      S.apply T g u = some r → w1.db.Refuses t T i r → Q (.error e) w1) :
    ∀ (ids : List Nat) (v : Nat → Option (S.Row T)) (w : World S V), w.db.Under t T p n c v → w.db.own t = own →
    (∀ rs w1, w1.db.Under t T p n c (applyEach g v ids) → w1.db.own t = own → C.Ensures t (k rs) Q w1) →
    ∀ rs, C.Ensures t (updateEach e T g ids >>= fun rs' => k (rs ++ rs')) Q w
  | [], v, w, h, hown, hk, rs => hk _ w h hown
  | i :: ids, v, w, h, hown, hk, rs => by
    refine ensures_first (under_update hC hG hg h (fun w1 u r hw => hrefused w1 v i u r (hw.trans hown)) (fun w1 h1 hw hnone => ?_)
      fun w1 u r h1 hw hu hr => ?_)
    · refine ensures_first (under_updateEach hg hrefused ids v w1 h1 (hw.trans hown) (fun rs' w2 h2 hw2 => ?_) rs)
      refine hk rs' w2 ?_ hw2
      rw [applyEach, List.foldl_cons, applyOne_none hnone]
      exact h2
    · have hrest := under_updateEach hg hrefused ids (Function.update v i (some r)) w1 h1 (hw.trans hown) (fun rs' w2 h2 hw2 => by
        refine hk rs' w2 ?_ hw2
        rw [applyEach, List.foldl_cons, applyOne_some hu hr]
        exact h2) (rs ++ [r])
      refine ensures_first ?_
      simpa using hrest

theorem under_updateAll {e : ε} {ids : List Nat} (hg : ∀ r r', S.apply T g r = some r' → p r = true ∧ p r' = true)
    (h : w.db.Under t T p n c v)
    (hrefused : ∀ w1 v' i u r, w1.db.own t = w.db.own t → w1.db.Lawful D → w1.db.Under t T p n c v' → v' i = some u →
      S.apply T g u = some r → w1.db.Refuses t T i r → Q (.error e) w1)
    (hk : ∀ rs w1, w1.db.Under t T p n c (applyEach g v ids) → w1.db.own t = w.db.own t → C.Ensures t (k rs) Q w1) :
    C.Ensures t (updateEach e T g ids >>= k) Q w :=
  under_updateEach hC hG hg hrefused ids v w h rfl hk []

theorem under_insert {e : ε} {k : S.Row T → Code S V ε β} (hp : ∀ i n, p (S.stamp T i n r) = true)
    (h : w.db.Under t T p n c v)
    (hrefused : ∀ w1 i, w1.db.own t = w.db.own t → w1.db.Under t T p n c v → w1.db.Refuses t T i (S.stamp T i n r) → Q (.error e) w1)
    (hok : ∀ w1 i, w1.db.Under t T p n c (Function.update v i (some (S.stamp T i n r))) → w1.db.own t = w.db.own t →
      w1.db.Lawful D → (∀ j, i ≤ j → v j = none) → C.Ensures t (k (S.stamp T i n r)) Q w1) :
    C.Ensures t (insert e T r >>= k) Q w := by
  refine ensures_call fun w1 hev hL hI inp x w2 he hL2 hA => ?_
  have hI2 := hC.exec (by simp) (by simp) he hI
  have hu := h.evolves hG hev.db
  have hnext : ({ w1.db with next := w1.db.next + 1 } : Engine S).Under t T p n c v := hu.congr rfl rfl rfl rfl
  obtain ⟨⟨y, e'⟩, he', hx⟩ := Option.map_eq_some_iff.1 he
  cases hx
  rcases Engine.insert_cases he' with ⟨rfl, rfl, hrefuses⟩ | ⟨rfl, rfl, -⟩
  · rw [hu.begun] at hrefuses
    exact ⟨hI2, hrefused _ _ hev.db.since.own hnext hrefuses⟩
  · rw [hu.begun] at hL2 hI2 ⊢
    exact ⟨hI2, hok _ w1.db.next (hnext.write (hp _ _)) hev.db.since.own hL2 fun j hj => hu.none_of_le hL hj⟩

theorem under_note {e : ε} {T' : S.Table} {r : S.Row T'} {k : S.Row T' → Code S V ε β} (hT : T ≠ T')
    (hsure : ∀ i n, S.check T' (S.stamp T' i n r) = true ∧ ∀ u, S.clash T' (S.stamp T' i n r) u = false)
    (h : w.db.Under t T p n c v)
    (hok : ∀ w1 r', w1.db.Under t T p n c v → w1.db.own t = w.db.own t → C.Ensures t (k r') Q w1) :
    C.Ensures t (insert e T' r >>= k) Q w := by
  refine ensures_call fun w1 hev hL hI inp x w2 he hL2 hA => ?_
  have hI2 := hC.exec (by simp) (by simp) he hI
  have hnext : ({ w1.db with next := w1.db.next + 1 } : Engine S).Under t T p n c v := (h.evolves hG hev.db).congr rfl rfl rfl rfl
  obtain ⟨⟨y, e'⟩, he', hx⟩ := Option.map_eq_some_iff.1 he
  cases hx
  rcases Engine.insert_cases he' with ⟨-, -, hrefuses⟩ | ⟨rfl, rfl, -⟩
  · obtain ⟨hcheck, hclash⟩ := hsure w1.db.next (w1.db.started t)
    exact absurd hrefuses (Engine.not_refuses hcheck hclash)
  · exact ⟨hI2, hok _ _ (hnext.beside hT) hev.db.since.own⟩

end Guarded
end Session
end Txn
