import Boutique.TxnHistory
import Mathlib.Data.Int.Order.Basic
import Mathlib.Data.List.MinMax
/-!
# TxnSession — services that answer a request in one transaction

The statements such a service is written in, over any schema, and their rules: each rule hands over how the database has
evolved since the thread last looked.  `opened` is a system of such requests about to begin on quiet tables.
-/
namespace Txn

variable {S : Schema} {V : Service} {ε α β : Type}

namespace Session

def now : Code S V ε Int := .call .now .ret

def select (q : S.Query) (f : Snapshot S → α) : Code S V ε α := .call (.sql (.read q)) fun s => .ret (f s)

def update (refused : ε) (T : S.Table) (i : Nat) (g : S.Change T) : Code S V ε (Option (S.Row T)) :=
  .call (.sql (.update T i g)) fun
    | .ok r => .ret r
    | .error _ => .raise refused

def insert (refused : ε) (T : S.Table) (r : S.Row T) : Code S V ε (S.Row T) :=
  .call (.sql (.insert T r)) fun
    | .ok r => .ret r
    | .error _ => .raise refused

/-- `async with tenant_session(...)`: the body in a transaction, committed when it returns and rolled back when it
raises; the body is given the transaction's `now()`. -/
def tenantSession (body : Int → Code S V ε α) : Code S V ε α :=
  .call (.sql .begin) fun txNow => (body txNow).attempt.bind fun
    | .ok a => .call (.sql .commit) fun _ => .ret a
    | .error e => .call (.sql .abort) fun _ => .raise e

def ask (q : V.Ask) : Code S V ε (V.Ans q) := .call (.ask q) .ret

def raiseIf (c : Bool) (e : ε) : Code S V ε Unit := if c then .raise e else .ret ()

def orRaise (x : Option α) (e : ε) : Code S V ε α :=
  match x with
  | some a => .ret a
  | none => .raise e

def updateEach (refused : ε) (T : S.Table) (g : S.Change T) : List Nat → Code S V ε (List (S.Row T))
  | [] => .ret []
  | i :: is => do
    let r ← update refused T i g
    let rs ← updateEach refused T g is
    return r.toList ++ rs

def matching (s : Snapshot S) (T : S.Table) (p : S.Row T → Bool) : List Nat := ((s.all T).filter p).map (S.id T)

def latestBy (f : α → Int) (rows : List α) : Option α :=
  @List.argmax α Int Int.instLinearOrder.toPartialOrder.toPreorder (inferInstanceAs (DecidableLT Int)) f rows

def earliestBy (f : α → Int) (rows : List α) : Option α :=
  @List.argmin α Int Int.instLinearOrder.toPartialOrder.toPreorder (inferInstanceAs (DecidableLT Int)) f rows

variable {f : α → Int} {a : α}

theorem latestBy_mem {rows : List α} (h : latestBy f rows = some a) : a ∈ rows :=
  @List.argmax_mem _ _ Int.instLinearOrder.toPartialOrder.toPreorder _ _ _ _ h

theorem latestBy_le {rows : List α} {b : α} (h : latestBy f rows = some a) (hb : b ∈ rows) : f b ≤ f a :=
  @List.le_of_mem_argmax _ _ Int.instLinearOrder _ _ _ _ hb h

theorem latestBy_none {rows : List α} (h : latestBy f rows = none) : rows = [] :=
  (@List.argmax_eq_none _ _ Int.instLinearOrder.toPartialOrder.toPreorder _ _ _).1 h

theorem earliestBy_mem {rows : List α} (h : earliestBy f rows = some a) : a ∈ rows :=
  @List.argmin_mem _ _ Int.instLinearOrder.toPartialOrder.toPreorder _ _ _ _ h

end Session

variable {T : S.Table} {i : Nat} {r : S.Row T} {t : Tid} {M : Machine} {ρ : Type}

@[simp] theorem Rows.set_set {rows : Rows S} {r' : S.Row T} : (rows.set T i r).set T i r' = rows.set T i r' := by
  simp [Rows.set]

namespace Engine

variable {e : Engine S} {t : Tid} {T : S.Table} {r : S.Row T}

theorem view_pending (h : e.pending t T i = some r) : e.view t T i = some r := Rows.over_some h

theorem view_idle (h : e.pending t = fun _ _ => none) : e.view t = e.committed := by
  rw [view, h, Rows.over_empty]

@[simp] theorem look_log : (e.look t).log = e.log := rfl

@[simp] theorem look_pending : (e.look t).pending = e.pending := rfl

@[simp] theorem look_committed : (e.look t).committed = e.committed := rfl

@[simp] theorem look_view : (e.look t).view t = e.view t := rfl

@[simp] theorem look_version (m : Nat) : (e.look t).version m = e.version m := rfl

@[simp] theorem look_seen : (e.look t).seen t = e.log.length := by
  simp [look]

end Engine

abbrev Work (α : Type) : Type := Option (Nat × Option α × α)

def Work.overlay {α : Type} (W : Work α) (f : Nat → Option α) : Nat → Option α :=
  match W with
  | none => f
  | some (i, _, r) => Function.update f i (some r)

namespace Engine

variable {D : Cast S} {e e' : Engine S} {t : Tid} {T : S.Table} {W : Work (S.Row T)} {i : Nat} {r : S.Row T}

/-- **What thread `t` has in flight of a table** is at most one row, over what it found. -/
structure AtWork (e : Engine S) (t : Tid) (T : S.Table) (W : Work (S.Row T)) : Prop where
  pending : e.pending t T = W.overlay fun _ => none
  found : ∀ i v r, W = some (i, v, r) → e.committed T i = v

theorem atWork_none (h : e.pending t T = fun _ => none) : e.AtWork t T none :=
  ⟨h, fun _ _ _ hW => by cases hW⟩

variable {v : Option (S.Row T)}

theorem AtWork.row (h : e.AtWork t T (some (i, v, r))) : e.pending t T i = some r := by
  simp [h.pending, Work.overlay]

theorem AtWork.evolves (h : e.AtWork t T W) (hev : e.Evolves D t e') : e'.AtWork t T W := by
  refine ⟨by rw [hev.pending, h.pending], fun i v r hW => ?_⟩
  subst hW
  rw [hev.owned T i r h.row, h.found i v r rfl]

theorem AtWork.congr (h : e.AtWork t T W) (hc : e'.committed = e.committed) (hp : e'.pending t T = e.pending t T) :
    e'.AtWork t T W :=
  ⟨by rw [hp, h.pending], by rw [hc]; exact h.found⟩

theorem AtWork.view (h : e.AtWork t T W) : e.view t T = W.overlay (e.committed T) := by
  funext j
  cases W with
  | none => exact Rows.over_none (by rw [h.pending]; rfl)
  | some w =>
    obtain ⟨i, v, r⟩ := w
    by_cases hj : j = i
    · subst hj
      rw [Engine.view, Rows.over_some h.row]
      simp [Work.overlay]
    · rw [Engine.view, Rows.over_none (by simp [h.pending, Work.overlay, hj])]
      simp [Work.overlay, hj]

theorem AtWork.write (h : e.AtWork t T none) : (e.write t T i r).AtWork t T (some (i, e.committed T i, r)) := by
  refine ⟨?_, fun j v r' hW => ?_⟩
  · simp [Engine.write, Rows.set, h.pending, Work.overlay]
  · cases hW
    rfl

theorem AtWork.rewrite {r' : S.Row T} (h : e.AtWork t T (some (i, v, r'))) :
    (e.write t T i r).AtWork t T (some (i, v, r)) := by
  refine ⟨?_, fun j v' r'' hW => ?_⟩
  · simp [Engine.write, Rows.set, h.pending, Work.overlay]
  · cases hW
    exact h.found i _ _ rfl

theorem AtWork.beside {T' : S.Table} {r : S.Row T'} (h : e.AtWork t T W) (hT : T ≠ T') :
    (e.write t T' i r).AtWork t T W :=
  h.congr rfl (Engine.write_beside hT)

end Engine

/-! ## The system -/

abbrev nobody : Service where
  Ask := Empty
  Ans _ := Unit
  Input := Unit
  Store := Unit
  Mine := Unit
  serve _ _ _ _ s := ((), s)
  mine _ _ := ()
  serve_mine _ _ _ _ _ _ _ := rfl

def Discipline.free : Discipline S where
  Trans _ _ _ _ := True
  New _ _ _ := True
  refl _ _ _ := trivial
  trans _ _ _ _ _ _ _ := trivial
  weaken _ _ _ _ := trivial
  new_trans _ _ _ _ _ _ := trivial
  new_weaken _ _ _ := trivial

abbrev Free : Cast S := Discipline.free.shared

theorem free_legal (l : Bool) (o : Op S V) : (Discipline.free : Discipline S).Legal l o := by
  cases o with
  | sql o => cases o <;> simp [Discipline.Legal, Discipline.free]
  | now | ask => trivial

theorem within_all {F : Bool → Op S V → Prop} (hF : ∀ l o, F l o) (p : Code S V ε α) (l : Bool) : Within F l p := by
  induction p generalizing l with
  | ret a => trivial
  | raise e => trivial
  | call o k ih => exact ⟨hF l o, fun r => ih r _⟩

theorem within_free (p : Code S V ε α) (l : Bool) : Within (Discipline.free : Discipline S).Legal l p :=
  within_all free_legal p l

/-- Tables a system may begin on: consistent, their keys below the next one. -/
structure Shelved (rows : Rows S) (next : Nat) : Prop where
  consistent : Consistent rows
  lt : ∀ T i r, rows T i = some r → i < next

def atRest (rows : Rows S) (next : Nat) (clock : Int) : Engine S where
  committed := rows
  pending _ _ _ := none
  owner _ _ := none
  advisory := none
  next := next
  clock := clock
  started _ := 0
  seen _ := 0
  log := []

/-- **The system about to begin**: one program for each thread. -/
def opened {ρ : Type} (code : Tid → Code S nobody ε ρ) (rows : Rows S) (next : Nat) (clock : Int) :
    Conf (machine S nobody ε) ρ where
  state := ⟨atRest rows next clock, ()⟩
  threads t := some (code t)

def staged {ρ : Type} (out : V.Store) (code : Tid → Code S V ε ρ) (rows : Rows S) (next : Nat) (clock : Int) :
    Conf (machine S V ε) ρ where
  state := ⟨atRest rows next clock, out⟩
  threads t := some (code t)

section Opened

variable {ρ : Type} {code : Tid → Code S nobody ε ρ} {rows : Rows S} {next : Nat} {clock : Int} {D : Cast S}
  {A : (machine S nobody ε).Assumption} {c : Conf (machine S nobody ε) ρ}

theorem atRest_lawful (h : Shelved rows next) (D : Cast S) : (atRest rows next clock).Lawful D := by
  have hnone : ∀ t T i r, (atRest rows next clock).pending t T i ≠ some r := by simp [atRest]
  have hlog : (atRest rows next clock).log = [] := rfl
  constructor
  · simp [atRest]
  · exact fun t T i r hp => (hnone t T i r hp).elim
  · exact h.lt
  · exact h.consistent
  · exact fun t T i r hp => (hnone t T i r hp).elim
  · exact fun t T i r hp => (hnone t T i r hp).elim
  · exact fun t u T i j r r' hp => (hnone t T i r hp).elim
  · exact fun t T i j r r' hp => (hnone t T i r hp).elim
  · exact fun t T i => Discipline.becomes_refl _ _ _
  · simp [hlog]
  · simp [hlog]
  · simp [hlog]

variable {e : Engine S}

theorem Engine.Lawful.version_still (h : e.Lawful D) {m : Nat} :
    ∀ k, m ≤ k → k ≤ e.log.length → (∀ n c, m ≤ n → n < k → e.log[n]? = some c → ∀ i, c.writes T i = none) →
      e.version k T = e.version m T := by
  intro k hmk hk hstill
  induction k with
  | zero =>
    have : m = 0 := by omega
    rw [this]
  | succ k ih =>
    by_cases hm : m = k + 1
    · rw [hm]
    · have hlt : k < e.log.length := by omega
      have hentry : e.log[k]? = some e.log[k] := List.getElem?_eq_getElem hlt
      rw [← ih (by omega) (by omega) fun n c hn hnk => hstill n c hn (by omega), h.linked k _ hentry]
      funext i
      have hnone := hstill k _ (by omega) (by omega) hentry i
      have hbefore : e.version k = e.log[k].before := by simp [Engine.version, hentry]
      simp [Commit.after, Rows.overlay, hnone, hbefore]

/-- **Between a version where a row fails a test and a later one where it passes**, a commit makes it pass. -/
theorem Engine.Lawful.version_crossing (h : e.Lawful D) {T : S.Table} {i m n : Nat} {P : Option (S.Row T) → Prop}
    (hmn : m ≤ n) (hn : n ≤ e.log.length) (hm : ¬P (e.version m T i)) (hP : P (e.version n T i)) :
    ∃ k c, m ≤ k ∧ k < n ∧ e.log[k]? = some c ∧ ¬P (c.before T i) ∧ P (c.after T i) := by
  induction hmn with
  | refl => exact absurd hP hm
  | @step n hmn ih =>
    have hlt : n < e.log.length := hn
    have hentry : e.log[n]? = some e.log[n] := List.getElem?_eq_getElem hlt
    have hbefore : e.version n = e.log[n].before := by simp [Engine.version, hentry]
    by_cases hPn : P (e.version n T i)
    · obtain ⟨k, c, hk, hkn, hrest⟩ := ih (by omega) hPn
      exact ⟨k, c, hk, by omega, hrest⟩
    · rw [hbefore] at hPn
      rw [h.linked n _ hentry] at hP
      exact ⟨n, _, hmn, Nat.lt_succ_self n, hentry, hPn, hP⟩

/-- **No commit since the thread's last SELECT has written the table.** -/
def Engine.Undisturbed (e : Engine S) (t : Tid) (T : S.Table) : Prop :=
  ∀ n c, e.seen t ≤ n → e.log[n]? = some c → ∀ i, c.writes T i = none

theorem Engine.Lawful.undisturbed (h : e.Lawful D) (hu : e.Undisturbed t T) (hm : e.seen t ≤ e.log.length) :
    e.committed T = e.version (e.seen t) T := by
  rw [← Engine.version_length (e := e)]
  exact h.version_still _ hm (Nat.le_refl _) fun n c hn _ hc => hu n c hn hc

theorem opened_obeyed (h : Shelved rows next) : Cast.Obeyed Free (opened code rows next clock) :=
  ⟨atRest_lawful h _, fun _ p _ => ⟨false, nofun, within_free p false⟩⟩

theorem staged_obeyed {E : Discipline S} {out : V.Store} {code : Tid → Code S V ε ρ} (h : Shelved rows next)
    (hE : ∀ l (o : Op S V), E.Legal l o) : Cast.Obeyed E.shared (staged out code rows next clock) :=
  ⟨atRest_lawful h _, fun _ p _ => ⟨false, nofun, within_all hE p false⟩⟩

theorem opened_version (h : Shelved rows next) (hr : Conf.Steps A (opened code rows next clock) c) :
    c.state.db.version 0 = rows := ((opened_obeyed h).history hr).2 0 (Nat.le_refl 0)

/-- **A ledger every program keeps holds of every run**, with what each program says at its end. -/
theorem Ledger.run {P : Ledger S} {Q : Tid → Except ε ρ → World S nobody → Prop} (h : Shelved rows next)
    (hsafe : ∀ t, (P.contract Free A : Contract Free nobody ε).logic.Safe t (code t) (Q t) ⟨atRest rows next clock, ()⟩)
    (hr : Conf.Steps A (opened code rows next clock) c) :
    (∀ m d, c.state.db.log[m]? = some d → P.Holds c.state.db m d) ∧
      (∀ t a, c.threads t = some (.ret a) → Q t (.ok a) c.state) ∧
      ∀ t e, c.threads t = some (.raise e) → Q t (.error e) c.state := by
  have hI : (P.contract Free A : Contract Free nobody ε).Inv (opened code rows next clock).state := by
    simp [Ledger.contract, opened, atRest]
  have hthreads : ∀ t p, (opened code rows next clock).threads t = some p →
      (P.contract Free A : Contract Free nobody ε).logic.Safe t p (Q t) (opened code rows next clock).state := by
    intro t p hp
    cases hp
    exact hsafe t
  obtain ⟨hsound, -⟩ := (P.contract Free A).runs (Q := Q) (opened_obeyed h) hI hthreads hr
  exact ⟨hsound.inv.2, fun t a ht => hsound.finished ht, fun t e ht => hsound.raised ht⟩

end Opened

def listed (f : (T : S.Table) → List (S.Row T)) : Rows S := fun T i => (f T).find? fun r => S.id T r = i

def stocked (Ts : List S.Table) (f : (T : S.Table) → List (S.Row T)) (n : Nat) : Bool :=
  Ts.all fun T => (f T).all fun r =>
    decide (S.id T r < n) && S.check T r && (f T).all fun r' => decide (S.id T r = S.id T r') || !S.clash T r r'

theorem shelved_of_stocked {f : (T : S.Table) → List (S.Row T)} {n : Nat} (Ts : List S.Table) (hT : ∀ T, T ∈ Ts)
    (h : stocked Ts f n = true) : Shelved (listed f) n := by
  have hsome : ∀ {T i r}, listed f T i = some r → r ∈ f T ∧ S.id T r = i := fun {T i r} hr =>
    ⟨List.mem_of_find?_eq_some hr, by simpa using List.find?_some hr⟩
  have hrow : ∀ T, ∀ r ∈ f T, S.id T r < n ∧ S.check T r = true ∧
      ∀ r' ∈ f T, S.id T r = S.id T r' ∨ S.clash T r r' = false := by
    intro T r hr
    have hr' := List.all_eq_true.1 (List.all_eq_true.1 h T (hT T)) r hr
    simp only [Bool.and_eq_true, decide_eq_true_eq, List.all_eq_true, Bool.or_eq_true, Bool.not_eq_true'] at hr'
    exact ⟨hr'.1.1, hr'.1.2, hr'.2⟩
  refine ⟨⟨fun T i r hr => (hsome hr).2, fun T i r hr => ?_, fun T i j r r' hr hr' hij => ?_⟩, fun T i r hr => ?_⟩
  · exact (hrow T r (hsome hr).1).2.1
  · obtain ⟨hm, rfl⟩ := hsome hr
    obtain ⟨hm', rfl⟩ := hsome hr'
    exact ((hrow T r hm).2.2 r' hm').resolve_left hij
  · obtain ⟨hm, rfl⟩ := hsome hr
    exact (hrow T r hm).1

theorem Conf.reached_of_play {A : M.Assumption} [∀ t o s r s', Decidable (A t o s r s')] (c0 : Conf M ρ)
    (script : List (Action M)) (P : Conf M ρ → Bool) (h : (c0.play A script).any P = true) :
    ∃ c, Conf.Steps A c0 c ∧ P c = true := by
  cases hc : c0.play A script with
  | none =>
    rw [hc] at h
    cases h
  | some c =>
    rw [hc] at h
    exact ⟨c, Conf.play_steps hc, h⟩

theorem Conf.reached_freely (c0 : Conf M ρ) (script : List (Action M)) (P : Conf M ρ → Bool)
    (h : (c0.play (fun _ _ _ _ _ => True) script).any P = true) :
    ∃ c, Conf.Steps (fun _ _ _ _ _ => True) c0 c ∧ P c = true :=
  Conf.reached_of_play c0 script P h

theorem Conf.reached_of_plays {A B : M.Assumption} [∀ t o s r s', Decidable (A t o s r s')]
    [∀ t o s r s', Decidable (B t o s r s')] (c0 : Conf M ρ) (as bs : List (Action M))
    (P : Conf M ρ → Conf M ρ → Bool) (h : ((c0.play A as).bind fun c => (c.play B bs).map (P c)) = some true) :
    ∃ c c', Conf.Steps A c0 c ∧ Conf.Steps B c c' ∧ P c c' = true := by
  obtain ⟨c, hc, h⟩ := Option.bind_eq_some_iff.1 h
  obtain ⟨c', hc', hP⟩ := Option.map_eq_some_iff.1 h
  exact ⟨c, c', Conf.play_steps hc, Conf.play_steps hc', hP⟩

theorem Conf.reached_of_legs {A B E : M.Assumption} [∀ t o s r s', Decidable (A t o s r s')]
    [∀ t o s r s', Decidable (B t o s r s')] [∀ t o s r s', Decidable (E t o s r s')] (c0 : Conf M ρ)
    (as bs es : List (Action M)) (P : Conf M ρ → Conf M ρ → Conf M ρ → Bool)
    (h : ((c0.play A as).bind fun c => (c.play B bs).bind fun c' => (c'.play E es).map (P c c')) = some true) :
    ∃ c c' c'', Conf.Steps A c0 c ∧ Conf.Steps B c c' ∧ Conf.Steps E c' c'' ∧ P c c' c'' = true := by
  obtain ⟨c, hc, h⟩ := Option.bind_eq_some_iff.1 h
  obtain ⟨c', hc', h⟩ := Option.bind_eq_some_iff.1 h
  obtain ⟨c'', hc'', hP⟩ := Option.map_eq_some_iff.1 h
  exact ⟨c, c', c'', Conf.play_steps hc, Conf.play_steps hc', Conf.play_steps hc'', hP⟩

def Conf.returned {M : Machine} {ρ : Type} (c : Conf M ρ) (t : Tid) : Bool :=
  match c.threads t with
  | some (.ret _) => true
  | _ => false

def Conf.reply {M : Machine} {ρ : Type} (c : Conf M ρ) (t : Tid) : Option ρ :=
  match c.threads t with
  | some (.ret r) => some r
  | _ => none

def Conf.failure {M : Machine} {ρ : Type} (c : Conf M ρ) (t : Tid) : Option M.Error :=
  match c.threads t with
  | some (.raise e) => some e
  | _ => none

theorem Conf.returned_iff {c : Conf M ρ} : c.returned t = true ↔ ∃ r, c.threads t = some (.ret r) := by
  unfold Conf.returned
  split
  · rename_i r hr
    exact ⟨fun _ => ⟨r, hr⟩, fun _ => rfl⟩
  · rename_i hnot
    refine ⟨(fun h => by cases h), fun h => ?_⟩
    obtain ⟨r, hr⟩ := h
    exact (hnot r hr).elim

theorem Conf.reply_eq_some {c : Conf M ρ} {r : ρ} : c.reply t = some r ↔ c.threads t = some (.ret r) := by
  unfold Conf.reply
  split
  · rename_i r' hr
    simp [hr]
  · rename_i hnot
    exact ⟨(fun h => by cases h), fun h => (hnot r h).elim⟩

theorem Conf.failure_eq_some {c : Conf M ρ} {e : M.Error} : c.failure t = some e ↔ c.threads t = some (.raise e) := by
  unfold Conf.failure
  split
  · rename_i e' he
    simp [he]
  · rename_i hnot
    exact ⟨(fun h => by cases h), fun h => (hnot e h).elim⟩

/-! ## A table a thread leaves alone -/

section Aloof

variable {t : Tid} {T : S.Table}

abbrev Aloof (T : S.Table) (o : Op S V) : Prop := (∀ j g, o ≠ .sql (.update T j g)) ∧ ∀ r, o ≠ .sql (.insert T r)

theorem aloof_exec {o : Op S V} {i : V.Input} {x : o.Res} {w w' : World S V} (ho : Aloof T o)
    (hidle : w.db.pending t T = fun _ => none) (he : w.exec t o i = some (x, w')) : w'.db.pending t T = fun _ => none := by
  by_cases hc : o = .sql .commit
  · subst hc
    cases he
    exact congrFun Engine.commit_pending_self T
  by_cases ha : o = .sql .abort
  · subst ha
    cases he
    exact congrFun Engine.release_pending_self T
  have hinside : o.Inside := by
    cases o with
    | sql o =>
      cases o with
      | commit => exact (hc rfl).elim
      | abort => exact (ha rfl).elim
      | begin | read | update | insert | lock => trivial
    | now | ask => trivial
  rw [World.exec_pending hinside ho.1 ho.2 he, hidle]

theorem aloof_steps {A : (machine S V ε).Assumption} {c c' : Conf (machine S V ε) ρ}
    (hidle : c.state.db.pending t T = fun _ => none)
    (hp : ∀ p, c.threads t = some p → ∃ l, Within (fun _ => Aloof T) l p) (hr : Conf.Steps A c c') :
    c'.state.db.pending t T = (fun _ => none) ∧
      ∀ p, c'.threads t = some p → ∃ l, Within (fun _ => Aloof T) l p := by
  induction hr with
  | refl => exact ⟨hidle, hp⟩
  | @tail d d' _ hstep ih =>
    obtain ⟨hd, hthread⟩ := ih
    cases hstep with
    | @call u i o k x s code answer _ =>
      by_cases hu : t = u
      · subst hu
        obtain ⟨l, ho, hk⟩ := hthread _ code
        refine ⟨aloof_exec ho hd answer, fun p hp => ?_⟩
        have hp' : k x = p := by simpa [Conf.setThread] using hp
        rw [← hp']
        exact ⟨_, hk x⟩
      · refine ⟨(congrFun (World.exec_others hu answer) T).trans hd, fun p hp => hthread p ?_⟩
        simpa [Conf.setThread, hu] using hp
    | kill u =>
      by_cases hu : t = u
      · subst hu
        exact ⟨congrFun Engine.release_pending_self T, fun p hp => by simp [Conf.setThread] at hp⟩
      · refine ⟨(congrFun (Engine.release_pending_tid hu) T).trans hd, fun p hp => hthread p ?_⟩
        simpa [Conf.setThread, hu] using hp
    | happen n => exact ⟨hd, hthread⟩

end Aloof

def turns (t : Tid) (n : Nat) : List (Action (machine S nobody ε)) := List.replicate n (.call t ())

namespace Session

/-! ## Footprints -/

/-- **Every operation of the program satisfies `P`.** -/
abbrev Only (P : Op S V → Prop) (p : Code S V ε α) : Prop := ∀ l, Within (fun _ => P) l p

variable {g : S.Change T} {body : Int → Code S V ε α}

section Footprints

variable {P : Op S V → Prop}

theorem only_of_within {p : Code S V ε α} {l : Bool} (h : Within (fun _ => P) l p) : Only P p := by
  intro l'
  induction p generalizing l l' with
  | ret a => trivial
  | raise e => trivial
  | call o k ih => exact ⟨h.1, fun x => ih x (h.2 x) _⟩

theorem only_bind {p : Code S V ε α} {f : α → Code S V ε β} (hp : Only P p) (hf : ∀ a, Only P (f a)) : Only P (p >>= f) :=
  fun l => uses_bind (hp l) (fun a l' _ => hf a l') fun _ _ _ => trivial

theorem only_ret (a : α) : Only P (.ret a : Code S V ε α) := fun _ => trivial

theorem only_raise (e : ε) : Only P (.raise e : Code S V ε α) := fun _ => trivial

theorem only_raiseIf (c : Bool) (e : ε) : Only P (raiseIf c e : Code S V ε Unit) := by
  intro l
  unfold raiseIf
  split <;> trivial

theorem only_ask {q : V.Ask} (h : P (.ask q)) : Only P (ask q : Code S V ε (V.Ans q)) := fun _ => ⟨h, fun _ => trivial⟩

theorem only_now (h : P .now) : Only P (now : Code S V ε Int) := fun _ => ⟨h, fun _ => trivial⟩

theorem only_attempt {ε' : Type} {p : Code S V ε α} (h : Only P p) : Only P (p.attempt : Code S V ε' (Except ε α)) := by
  intro l
  rw [Within, Uses, Prog.wp_attempt]
  exact uses_mono (fun _ _ h => h) (fun x _ _ => by cases x <;> trivial) (h l)

theorem only_orRaise (x : Option α) (e : ε) : Only P (orRaise x e : Code S V ε α) := by
  intro l
  unfold orRaise
  split <;> trivial

theorem only_select {q : S.Query} (h : P (.sql (.read q))) (f : Snapshot S → α) :
    Only P (select q f : Code S V ε α) := fun _ => ⟨h, fun _ => trivial⟩

theorem only_update (h : P (.sql (.update T i g))) (e : ε) :
    Only P (update e T i g : Code S V ε (Option (S.Row T))) := fun _ => ⟨h, fun x => by cases x <;> trivial⟩

theorem only_insert (h : P (.sql (.insert T r))) (e : ε) :
    Only P (insert e T r : Code S V ε (S.Row T)) := fun _ => ⟨h, fun x => by cases x <;> trivial⟩

theorem only_updateEach (h : ∀ i, P (.sql (.update T i g))) (e : ε) :
    ∀ is, Only P (updateEach e T g is : Code S V ε (List (S.Row T)))
  | [] => only_ret []
  | i :: is => only_bind (only_update (h i) e) fun _ => only_bind (only_updateEach h e is) fun _ => only_ret _

theorem only_tenantSession (hbegin : P (.sql .begin)) (hcommit : P (.sql .commit)) (habort : P (.sql .abort))
    (h : ∀ n, Only P (body n)) : Only P (tenantSession body : Code S V ε α) := by
  refine fun l => ⟨hbegin, fun n => ?_⟩
  change Uses _ _ ((body n).attempt >>= _) _
  rw [Uses, Prog.wp_bind, Prog.wp_attempt]
  refine uses_mono (fun _ _ h => h) (fun x l' _ => ?_) (h n _)
  cases x with
  | ok a => exact ⟨hcommit, fun _ => trivial⟩
  | error e => exact ⟨habort, fun _ => trivial⟩

end Footprints

/-! ## The rules -/

open Contract

variable {D : Cast S} {C : Contract D V ε} {calm : V.Ask → Bool} {t : Tid} {w : World S V}
  {Q : Except ε β → World S V → Prop}

theorem ensures_raiseIf {c : Bool} {e : ε} {k : Unit → Code S V ε β} (htrue : c = true → Q (.error e) w)
    (hfalse : c = false → C.Ensures t (k ()) Q w) : C.Ensures t (raiseIf c e >>= k) Q w := by
  cases c with
  | true => exact htrue rfl
  | false => exact hfalse rfl

theorem ensures_orRaise {x : Option α} {e : ε} {k : α → Code S V ε β} (hnone : x = none → Q (.error e) w)
    (hsome : ∀ a, x = some a → C.Ensures t (k a) Q w) : C.Ensures t (orRaise x e >>= k) Q w := by
  cases x with
  | none => exact hnone rfl
  | some a => exact hsome a rfl

theorem ensures_last {p : Code S V ε β} (h : C.Ensures t (p >>= pure) Q w) : C.Ensures t p Q w := by
  rwa [Prog.bind_return] at h

theorem ensures_first {γ : Type} {p : Code S V ε γ} {f : γ → Code S V ε α} {k : α → Code S V ε β}
    (h : C.Ensures t (p >>= fun a => f a >>= k) Q w) : C.Ensures t (p >>= f >>= k) Q w := by
  rwa [Prog.bind_bind]

section Statements

variable (hC : C.Historic calm)
include hC

theorem ensures_reading {k : Int → Code S V ε β}
    (h : ∀ w1, w.Evolves D t w1 → w1.db.Lawful D → C.Inv w1 → C.Assume t .now w1 w1.db.clock w1 →
      C.Ensures t (k w1.db.clock) Q w1) : C.Ensures t (now >>= k) Q w := by
  refine ensures_call fun w1 hev hL hI i r w2 he hL2 hA => ?_
  have hI2 := hC.exec (by simp) (by simp) he hI
  cases he
  exact ⟨hI2, h w1 hev hL hI hA⟩

theorem ensures_now {k : Int → Code S V ε β}
    (h : ∀ w1, w.Evolves D t w1 → w1.db.Lawful D → C.Inv w1 → C.Ensures t (k w1.db.clock) Q w1) :
    C.Ensures t (now >>= k) Q w :=
  ensures_reading hC fun w1 hev hL hI _ => h w1 hev hL hI

theorem ensures_ask {q : V.Ask} {k : V.Ans q → Code S V ε β} (hq : calm q = true)
    (h : ∀ w1 i n, w.Evolves D t w1 → w1.db.Lawful D → C.Inv w1 → C.Inv ⟨w1.db, (V.serve t q i n w1.out).2⟩ →
      C.Ensures t (k (V.serve t q i n w1.out).1) Q ⟨w1.db, (V.serve t q i n w1.out).2⟩) :
    C.Ensures t (ask q >>= k) Q w := by
  refine ensures_call fun w1 hev hL hI i r w2 he hL2 hA => ?_
  have hI2 := hC.exec (by simp) (fun _ h => by cases h; exact hq) he hI
  cases he
  exact ⟨hI2, h w1 i _ hev hL hI hI2⟩

theorem ensures_select {q : S.Query} {f : Snapshot S → α} {k : α → Code S V ε β}
    (h : ∀ w1, w.Evolves D t w1 → w1.db.Lawful D → C.Inv w1 →
      C.Assume t (.sql (.read q)) w1 ⟨w1.db.view t, w1.db.next⟩ ⟨w1.db.look t, w1.out⟩ →
      C.Inv ⟨w1.db.look t, w1.out⟩ → C.Ensures t (k (f ⟨w1.db.view t, w1.db.next⟩)) Q ⟨w1.db.look t, w1.out⟩) :
    C.Ensures t (select q f >>= k) Q w := by
  refine ensures_call fun w1 hev hL hI i r w2 he hL2 hA => ?_
  have hI2 := hC.exec (by simp) (by simp) he hI
  cases he
  exact ⟨hI2, h w1 hev hL hI hA hI2⟩

/-- **The UPDATE rule**: it is refused, matches nothing, or writes the row it computed from the one it saw. -/
theorem ensures_update {e : ε} {T : S.Table} {j : Nat} {g : S.Change T} {k : Option (S.Row T) → Code S V ε β}
    (hrefused : ∀ w1, w.Evolves D t w1 → w1.db.Lawful D → C.Inv w1 → Q (.error e) w1)
    (hnone : ∀ w1, w.Evolves D t w1 → w1.db.Lawful D → C.Inv w1 → (w1.db.view t T j).bind (S.apply T g) = none →
      C.Ensures t (k none) Q w1)
    (hsome : ∀ w1 v r, w.Evolves D t w1 → w1.db.Lawful D → w1.db.view t T j = some v → S.apply T g v = some r →
      C.Assume t (.sql (.update T j g)) w1 (.ok (some r)) ⟨w1.db.write t T j r, w1.out⟩ →
      (w1.db.write t T j r).Lawful D → C.Inv ⟨w1.db.write t T j r, w1.out⟩ →
      C.Ensures t (k (some r)) Q ⟨w1.db.write t T j r, w1.out⟩) : C.Ensures t (update e T j g >>= k) Q w := by
  refine ensures_call fun w1 hev hL hI i x w2 he hL2 hA => ?_
  have hI2 := hC.exec (by simp) (by simp) he hI
  obtain ⟨⟨y, e'⟩, he', hx⟩ := Option.map_eq_some_iff.1 he
  cases hx
  rcases Engine.update_cases he' with ⟨hn, rfl, rfl⟩ | ⟨v, r, hv, hr, -, ⟨rfl, rfl, -⟩ | ⟨rfl, rfl, -⟩⟩
  · exact ⟨hI2, hnone w1 hev hL hI hn⟩
  · exact ⟨hI2, hrefused w1 hev hL hI⟩
  · exact ⟨hI2, hsome w1 v r hev hL hv hr hA hL2 hI2⟩

def inserted (e : Engine S) (t : Tid) (T : S.Table) (r : S.Row T) : Engine S :=
  ({ e with next := e.next + 1 } : Engine S).write t T e.next (S.stamp T e.next (e.started t) r)

theorem ensures_insert {e : ε} {k : S.Row T → Code S V ε β}
    (hrefused : ∀ w1 n, w.Evolves D t w1 → w1.db.Lawful D → C.Inv w1 → Q (.error e) ⟨{ w1.db with next := n }, w1.out⟩)
    (hok : ∀ w1, w.Evolves D t w1 → w1.db.Lawful D → (inserted w1.db t T r).Lawful D →
      C.Inv ⟨inserted w1.db t T r, w1.out⟩ →
      C.Ensures t (k (S.stamp T w1.db.next (w1.db.started t) r)) Q ⟨inserted w1.db t T r, w1.out⟩) :
    C.Ensures t (insert e T r >>= k) Q w := by
  refine ensures_call fun w1 hev hL hI i x w2 he hL2 hA => ?_
  have hI2 := hC.exec (by simp) (by simp) he hI
  obtain ⟨⟨y, e'⟩, he', hx⟩ := Option.map_eq_some_iff.1 he
  cases hx
  rcases Engine.insert_cases he' with ⟨rfl, rfl, -⟩ | ⟨rfl, rfl, -⟩
  · exact ⟨hI2, hrefused w1 _ hev hL hI⟩
  · exact ⟨hI2, hok w1 hev hL hL2 hI2⟩

/-- **The rule of an UPDATE over several rows**: an assertion that survives the others and any write of the table. -/
theorem ensures_updateEach {e : ε} (Φ : World S V → Prop)
    (hevolve : ∀ w w1, w.Evolves D t w1 → w1.db.Lawful D → C.Inv w1 → Φ w → Φ w1)
    (hwrite : ∀ w i r, Φ w → Φ ⟨w.db.write t T i r, w.out⟩) :
    ∀ (is : List Nat) (w : World S V), Φ w → C.Ensures t (updateEach e T g is) (fun _ w' => Φ w') w
  | [], _, hΦ => hΦ
  | i :: is, w, hΦ => by
    refine ensures_update hC (fun w1 hev hL hI => hevolve w w1 hev hL hI hΦ) (fun w1 hev hL hI _ => ?_)
      fun w1 v r hev hL _ _ _ _ hI => ?_
    · refine ensures_bind (ensures_mono (fun x w' hx => ?_)
        (ensures_updateEach Φ hevolve hwrite is w1 (hevolve w w1 hev hL hI hΦ)))
      cases x <;> exact hx
    · have hI1 : C.Inv w1 := hC.same ⟨w1.db.write t T i r, w1.out⟩ w1 rfl rfl rfl hI
      refine ensures_bind (ensures_mono (fun x w' hx => ?_)
        (ensures_updateEach Φ hevolve hwrite is _ (hwrite w1 i r (hevolve w w1 hev hL hI1 hΦ))))
      cases x <;> exact hx

variable {k : List (S.Row T) → Code S V ε β}

/-- **The rule of an UPDATE over several rows, following the keys left and the rows written**: a row that no longer matches is
passed over. -/
theorem ensures_updateThrough {e : ε} {T : S.Table} {g : S.Change T} {k : List (S.Row T) → Code S V ε β}
    (Φ : List Nat → List (S.Row T) → World S V → Prop)
    (hevolve : ∀ is rs w w1, w.Evolves D t w1 → w1.db.Lawful D → C.Inv w1 → Φ is rs w → Φ is rs w1)
    (hskip : ∀ i is rs w, Φ (i :: is) rs w → w.db.Lawful D → (w.db.view t T i).bind (S.apply T g) = none → Φ is rs w)
    (hwrite : ∀ i is rs w v r, Φ (i :: is) rs w → w.db.Lawful D → w.db.view t T i = some v → S.apply T g v = some r →
      Φ is (rs ++ [r]) ⟨w.db.write t T i r, w.out⟩) (hrefused : ∀ is rs w1, Φ is rs w1 → Q (.error e) w1)
    (hk : ∀ rs w1, Φ [] rs w1 → C.Ensures t (k rs) Q w1) :
    ∀ (is : List Nat) (rs : List (S.Row T)) (w : World S V), Φ is rs w →
      C.Ensures t (updateEach e T g is >>= fun rs' => k (rs ++ rs')) Q w
  | [], rs, w, hΦ => by
    show C.Ensures t (k (rs ++ [])) Q w
    rw [List.append_nil]
    exact hk rs w hΦ
  | i :: is, rs, w, hΦ => by
    refine ensures_first (ensures_update hC (fun w1 hev hL hI => hrefused _ _ _ (hevolve _ _ w w1 hev hL hI hΦ))
      (fun w1 hev hL hI hnone => ?_) fun w1 v r hev hL hv hr _ _ hI => ?_)
    · exact ensures_first (ensures_updateThrough Φ hevolve hskip hwrite hrefused hk is rs w1
        (hskip i is rs w1 (hevolve _ _ w w1 hev hL hI hΦ) hL hnone))
    · have hI1 : C.Inv w1 := hC.same ⟨w1.db.write t T i r, w1.out⟩ w1 rfl rfl rfl hI
      have h := ensures_updateThrough Φ hevolve hskip hwrite hrefused hk is (rs ++ [r]) _
        (hwrite i is rs w1 v r (hevolve _ _ w w1 hev hL hI1 hΦ) hL hv hr)
      refine ensures_first ?_
      simpa using h

theorem ensures_updateLeft {e : ε} {T : S.Table} {g : S.Change T} {k : List (S.Row T) → Code S V ε β}
    (Φ : List Nat → World S V → Prop)
    (hevolve : ∀ is w w1, w.Evolves D t w1 → w1.db.Lawful D → C.Inv w1 → Φ is w → Φ is w1)
    (hskip : ∀ i is w, Φ (i :: is) w → w.db.Lawful D → (w.db.view t T i).bind (S.apply T g) = none → Φ is w)
    (hwrite : ∀ i is w v r, Φ (i :: is) w → w.db.Lawful D → w.db.view t T i = some v → S.apply T g v = some r →
      Φ is ⟨w.db.write t T i r, w.out⟩) (hrefused : ∀ is w1, Φ is w1 → Q (.error e) w1)
    (hk : ∀ rs w1, Φ [] w1 → C.Ensures t (k rs) Q w1) (is : List Nat) (w : World S V) (rs : List (S.Row T))
    (h : Φ is w) : C.Ensures t (updateEach e T g is >>= fun rs' => k (rs ++ rs')) Q w :=
  ensures_updateThrough hC (fun is _ w => Φ is w) (fun is _ => hevolve is) (fun i is _ => hskip i is)
    (fun i is _ => hwrite i is) (fun is _ => hrefused is) hk is rs w h

theorem ensures_updateRows {e : ε} {T : S.Table} {g : S.Change T} (Φ : List (S.Row T) → World S V → Prop)
    (hevolve : ∀ rs w w1, w.Evolves D t w1 → w1.db.Lawful D → C.Inv w1 → Φ rs w → Φ rs w1)
    (hwrite : ∀ rs w i v r, Φ rs w → w.db.Lawful D → w.db.view t T i = some v → S.apply T g v = some r →
      Φ (rs ++ [r]) ⟨w.db.write t T i r, w.out⟩) (hrefused : ∀ rs w1, Φ rs w1 → Q (.error e) w1) {is : List Nat}
    {k : List (S.Row T) → Code S V ε β} (h : Φ [] w) (hk : ∀ rs w1, Φ rs w1 → C.Ensures t (k rs) Q w1) : C.Ensures t (updateEach e T g is >>= k) Q w :=
  ensures_updateThrough hC (fun _ rs w => Φ rs w) (fun _ => hevolve) (fun _ _ _ _ h _ _ => h)
    (fun i _ rs w v r h => hwrite rs w i v r h) (fun _ => hrefused) hk is [] w h

def Closes (C : Contract D V ε) (t : Tid) (k : α → Code S V ε β) (Q : Except ε β → World S V → Prop) :
    Except ε α → World S V → Prop
  | .ok a, w => ∀ w₁, w.Evolves D t w₁ → w₁.db.Lawful D → C.Inv w₁ →
      C.Assume t (.sql .commit) w₁ () ⟨w₁.db.commit t, w₁.out⟩ → (w₁.db.commit t).Lawful D →
      C.Inv ⟨w₁.db.commit t, w₁.out⟩ ∧ C.Ensures t (k a) Q ⟨w₁.db.commit t, w₁.out⟩
  | .error e, w => ∀ w₁, w.Evolves D t w₁ → w₁.db.Lawful D → Q (.error e) ⟨w₁.db.release t, w₁.out⟩

theorem ensures_tenantSessionAt {k : α → Code S V ε β}
    (h : ∀ w1, w.Evolves D t w1 → w1.db.Lawful D → C.Inv w1 → C.Ensures t (body w1.db.clock) (Closes C t k Q)
      ⟨{ w1.db with started := Function.update w1.db.started t w1.db.clock }, w1.out⟩) :
    C.Ensures t (tenantSession body >>= k) Q w := by
  refine ensures_bind (ensures_call fun w1 hev hL hI i r w2 he hL2 hA => ?_)
  have hI2 := hC.exec (by simp) (by simp) he hI
  cases he
  refine ⟨hI2, ?_⟩
  change C.Ensures t ((body w1.db.clock).attempt >>= _) _ _
  refine ensures_bind ?_
  rw [Ensures, Prog.wp_attempt]
  refine ensures_mono (fun x w2 hx => ?_) (h w1 hev hL hI)
  cases x with
  | ok a =>
    refine ensures_call fun w3 hev3 hL3 hI3 i r w4 he4 hL4 hA4 => ?_
    cases he4
    exact hx w3 hev3 hL3 hI3 hA4 hL4
  | error e =>
    refine ensures_call fun w3 hev3 hL3 hI3 i r w4 he4 hL4 hA4 => ?_
    have hI4 := hC.exec (by simp) (by simp) he4 hI3
    cases he4
    exact ⟨hI4, hx w3 hev3 hL3⟩

theorem ensures_tenantSession {k : α → Code S V ε β} (h : ∀ w1 n, w.Evolves D t w1 → w1.db.Lawful D → C.Inv w1 →
      C.Ensures t (body n) (Closes C t k Q) ⟨{ w1.db with started := Function.update w1.db.started t n }, w1.out⟩) :
    C.Ensures t (tenantSession body >>= k) Q w :=
  ensures_tenantSessionAt hC fun w1 => h w1 w1.db.clock

end Statements
end Session
end Txn
