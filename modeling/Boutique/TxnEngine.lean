import Boutique.TxnMachine
import Mathlib.Data.List.Range
/-!
# TxnEngine — a READ COMMITTED database with row locks, unique indexes and one advisory lock

Each statement sees the committed rows under the transaction's own writes.  A write takes its row's lock and waits for
another transaction that holds it, or that holds a row in the way of a unique index; a commit publishes the writes, and
the log keeps every commit with the rows it found.
-/
namespace Txn

/-- **The tables of a database**: `stamp` gives an inserted row its key and its default instant, `apply` is an UPDATE
(`none` when its WHERE does not match), `clash` says that a unique index refuses the two rows together. -/
structure Schema where
  Table : Type
  tables : DecidableEq Table
  Row : Table → Type
  id : (T : Table) → Row T → Nat
  stamp : (T : Table) → Nat → Int → Row T → Row T
  Change : Table → Type
  apply : (T : Table) → Change T → Row T → Option (Row T)
  Query : Type
  check : (T : Table) → Row T → Bool
  clash : (T : Table) → Row T → Row T → Bool
  id_stamp : ∀ T i n r, id T (stamp T i n r) = i
  id_apply : ∀ T g r r', apply T g r = some r' → id T r' = id T r
  clash_symm : ∀ T r r', clash T r r' = clash T r' r

attribute [instance] Schema.tables

variable {S : Schema}

abbrev Rows (S : Schema) : Type := (T : S.Table) → Nat → Option (S.Row T)

namespace Rows

def set (rows : Rows S) (T : S.Table) (i : Nat) (r : S.Row T) : Rows S :=
  Function.update rows T (Function.update (rows T) i (some r))

def overlay (rows writes : Rows S) : Rows S := fun T i =>
  match writes T i with
  | some r => some r
  | none => rows T i

variable {rows writes : Rows S} {T : S.Table} {i : Nat} {r : S.Row T}

@[simp] theorem set_same : rows.set T i r T i = some r := by
  simp [set]

theorem set_row {j : Nat} (h : j ≠ i) : rows.set T i r T j = rows T j := by
  simp [set, h]

theorem set_table {T' : S.Table} (h : T' ≠ T) : rows.set T i r T' = rows T' := by
  simp [set, h]

theorem set_other {T' : S.Table} {j : Nat} (h : ¬(T' = T ∧ j = i)) : rows.set T i r T' j = rows T' j := by
  by_cases hT : T' = T
  · subst hT
    exact set_row fun hj => h ⟨rfl, hj⟩
  · rw [set_table hT]

theorem over_some (h : writes T i = some r) : rows.overlay writes T i = some r := by
  simp [overlay, h]

theorem over_none (h : writes T i = none) : rows.overlay writes T i = rows T i := by
  simp [overlay, h]

@[simp] theorem over_empty : rows.overlay (fun _ _ => none) = rows := rfl

end Rows

/-- What one statement sees: the rows, and the bound below which row keys have been given out. -/
structure Snapshot (S : Schema) where
  rows : Rows S
  next : Nat

def Snapshot.all (s : Snapshot S) (T : S.Table) : List (S.Row T) := (List.range s.next).filterMap (s.rows T)

theorem Snapshot.mem_all {s : Snapshot S} {T : S.Table} {r : S.Row T} :
    r ∈ s.all T ↔ ∃ i, i < s.next ∧ s.rows T i = some r := by
  simp [Snapshot.all]

/-- A committed transaction: who committed it, the rows it found, what it wrote, and whether it held the lock. -/
structure Commit (S : Schema) where
  by_ : Tid
  before : Rows S
  writes : Rows S
  locked : Bool

def Commit.after (c : Commit S) : Rows S := c.before.overlay c.writes

inductive Fault
  | integrity

/-- `seen` is how long the log was at each thread's last SELECT. -/
structure Engine (S : Schema) where
  committed : Rows S
  pending : Tid → Rows S
  owner : S.Table → Nat → Option Tid
  advisory : Option Tid
  next : Nat
  clock : Int
  started : Tid → Int
  seen : Tid → Nat
  log : List (Commit S)

/-- A statement; `begin` answers the transaction's instant, `read` names its SELECT and answers what it sees. -/
inductive Stmt (S : Schema)
  | begin
  | read (q : S.Query)
  | update (T : S.Table) (i : Nat) (g : S.Change T)
  | insert (T : S.Table) (r : S.Row T)
  | lock
  | commit
  | abort

abbrev Stmt.Res : Stmt S → Type
  | .begin => Int
  | .read _ => Snapshot S
  | .update T _ _ => Except Fault (Option (S.Row T))
  | .insert T _ => Except Fault (S.Row T)
  | .lock => Unit
  | .commit => Unit
  | .abort => Unit

namespace Engine

def view (e : Engine S) (t : Tid) : Rows S := e.committed.overlay (e.pending t)

def settled (e : Engine S) (t : Tid) (T : S.Table) (r : S.Row T) (j : Nat) : Bool :=
  (e.owner T j = none ∨ e.owner T j = some t) && (e.view t T j).any (S.clash T r)

/-- Row `j` is in another transaction's hands and one of its two versions is in the way of `r`. -/
def contested (e : Engine S) (t : Tid) (T : S.Table) (r : S.Row T) (j : Nat) : Bool :=
  match e.owner T j with
  | none => false
  | some u => u ≠ t && ((e.committed T j).any (S.clash T r) || (e.pending u T j).any (S.clash T r))

def write (e : Engine S) (t : Tid) (T : S.Table) (i : Nat) (r : S.Row T) : Engine S :=
  { e with
    pending := Function.update e.pending t ((e.pending t).set T i r)
    owner := Function.update e.owner T (Function.update (e.owner T) i (some t)) }

def rivals (e : Engine S) (i : Nat) : List Nat := (List.range e.next).filter fun j => j ≠ i

/-- Write version `r` of row `i`: refused by a check or by an index, or waiting for another transaction. -/
def put (e : Engine S) (t : Tid) (T : S.Table) (i : Nat) (r : S.Row T) : Option (Except Fault (S.Row T) × Engine S) :=
  if !S.check T r || (e.rivals i).any (e.settled t T r) then some (.error .integrity, e)
  else if (e.rivals i).any (e.contested t T r) then none
  else some (.ok r, e.write t T i r)

def update (e : Engine S) (t : Tid) (T : S.Table) (i : Nat) (g : S.Change T) :
    Option (Except Fault (Option (S.Row T)) × Engine S) :=
  match (e.view t T i).bind (S.apply T g) with
  | none => some (.ok none, e)
  | some r =>
    if e.owner T i = none ∨ e.owner T i = some t then (e.put t T i r).map fun p => (p.1.map some, p.2) else none

def insert (e : Engine S) (t : Tid) (T : S.Table) (r : S.Row T) : Option (Except Fault (S.Row T) × Engine S) :=
  ({ e with next := e.next + 1 } : Engine S).put t T e.next (S.stamp T e.next (e.started t) r)

def release (e : Engine S) (t : Tid) : Engine S :=
  { e with
    pending := Function.update e.pending t fun _ _ => none
    owner := fun T i => if e.owner T i = some t then none else e.owner T i
    advisory := if e.advisory = some t then none else e.advisory }

def entry (e : Engine S) (t : Tid) : Commit S := ⟨t, e.committed, e.pending t, e.advisory = some t⟩

def commit (e : Engine S) (t : Tid) : Engine S :=
  { e.release t with committed := e.view t, log := e.log ++ [e.entry t] }

def look (e : Engine S) (t : Tid) : Engine S := { e with seen := Function.update e.seen t e.log.length }

/-- **The statements.** -/
def exec (t : Tid) : (o : Stmt S) → Engine S → Option (o.Res × Engine S)
  | .begin, e => some (e.clock, { e with started := Function.update e.started t e.clock })
  | .read _, e => some (⟨e.view t, e.next⟩, e.look t)
  | .update T i g, e => e.update t T i g
  | .insert T r, e => e.insert t T r
  | .lock, e => if e.advisory = none ∨ e.advisory = some t then some ((), { e with advisory := some t }) else none
  | .commit, e => some ((), e.commit t)
  | .abort, e => some ((), e.release t)

/-- The rows as they stood before commit number `m`; past the end of the log, as they stand now. -/
def version (e : Engine S) (m : Nat) : Rows S :=
  match e.log[m]? with
  | some c => c.before
  | none => e.committed

variable {e e' : Engine S} {t : Tid} {T : S.Table} {i : Nat} {r : S.Row T}

@[simp] theorem entry_after : (e.entry t).after = e.view t := rfl

@[simp] theorem version_length : e.version e.log.length = e.committed := by
  simp [version]

/-- No index refuses version `r` of row `i` and no check does, whatever the open transactions end in. -/
structure Admits (e : Engine S) (t : Tid) (T : S.Table) (i : Nat) (r : S.Row T) : Prop where
  check : S.check T r = true
  settled : ∀ j, j < e.next → j ≠ i → e.settled t T r j = false
  contested : ∀ j, j < e.next → j ≠ i → e.contested t T r j = false

def Refuses (e : Engine S) (t : Tid) (T : S.Table) (i : Nat) (r : S.Row T) : Prop :=
  S.check T r = false ∨ ∃ j, j < e.next ∧ j ≠ i ∧ e.settled t T r j = true

theorem put_cases {x : Except Fault (S.Row T)} (h : e.put t T i r = some (x, e')) :
    (x = .error .integrity ∧ e' = e ∧ e.Refuses t T i r) ∨ (x = .ok r ∧ e' = e.write t T i r ∧ e.Admits t T i r) := by
  unfold put at h
  split at h
  · rename_i hc
    cases h
    refine .inl ⟨rfl, rfl, ?_⟩
    simpa [Refuses, rivals, and_assoc] using hc
  · rename_i hc
    split at h
    · cases h
    · rename_i hb
      cases h
      simp only [rivals, Bool.or_eq_true, Bool.not_eq_true', List.any_eq_true, List.mem_filter, List.mem_range,
        decide_eq_true_eq, not_or, not_exists, not_and, Bool.not_eq_true, and_imp, Bool.not_eq_false] at hc hb
      exact .inr ⟨rfl, rfl, hc.1, fun j hj hne => hc.2 j hj hne, fun j hj hne => hb j hj hne⟩

theorem update_cases {g : S.Change T} {x : Except Fault (Option (S.Row T))} (h : e.update t T i g = some (x, e')) :
    ((e.view t T i).bind (S.apply T g) = none ∧ x = .ok none ∧ e' = e) ∨
    ∃ v r, e.view t T i = some v ∧ S.apply T g v = some r ∧ (e.owner T i = none ∨ e.owner T i = some t) ∧
      ((x = .error .integrity ∧ e' = e ∧ e.Refuses t T i r) ∨
        (x = .ok (some r) ∧ e' = e.write t T i r ∧ e.Admits t T i r)) := by
  unfold update at h
  split at h
  · rename_i hn
    cases h
    exact .inl ⟨hn, rfl, rfl⟩
  · rename_i r hr
    obtain ⟨v, hv, hg⟩ := Option.bind_eq_some_iff.1 hr
    split at h
    · rename_i ho
      obtain ⟨⟨y, e''⟩, hp, hxy⟩ := Option.map_eq_some_iff.1 h
      cases hxy
      refine .inr ⟨v, r, hv, hg, ho, ?_⟩
      rcases put_cases hp with ⟨rfl, rfl, hR⟩ | ⟨rfl, rfl, hA⟩
      · exact .inl ⟨rfl, rfl, hR⟩
      · exact .inr ⟨rfl, rfl, hA⟩
    · cases h

theorem insert_cases {x : Except Fault (S.Row T)} (h : e.insert t T r = some (x, e')) :
    let e1 : Engine S := { e with next := e.next + 1 }
    let r1 := S.stamp T e.next (e.started t) r
    (x = .error .integrity ∧ e' = e1 ∧ e1.Refuses t T e.next r1) ∨
      (x = .ok r1 ∧ e' = e1.write t T e.next r1 ∧ e1.Admits t T e.next r1) :=
  put_cases h

theorem lock_cases {x : Unit} (h : exec t .lock e = some (x, e')) :
    (e.advisory = none ∨ e.advisory = some t) ∧ e' = { e with advisory := some t } := by
  simp only [exec] at h
  split at h
  · rename_i ho
    cases h
    exact ⟨ho, rfl⟩
  · cases h

end Engine
end Txn
