import Boutique.TxnAlone
/-!
# TxnSolo — what a program does to tables that nobody else touches

A thread moves alone, and the outside answers as it likes.  The machine's locks, logs and drafts of others fall away: a
program is a transformer of the rows its transaction sees (`drafts`), and what is proved of that transformer holds of
every solo run (`solo_sound`).
-/
namespace Txn

open Session

variable {S : Schema} {V : Service} {ε α β : Type} {t : Tid}

variable (A : V.Ask → V.Input → Prop)

/-- An answer the outside may give, where the operation asks it something. -/
def Answered : Op S V → V.Input → Prop
  | .ask q, i => A q i
  | _, _ => True

/-- **A run of a thread alone**, the outside answering within `A`. -/
inductive Solo (t : Tid) : Code S V ε α → World S V → Except ε α → World S V → Prop
  | ret {w : World S V} (a : α) : Solo t (.ret a) w (.ok a) w
  | raise {w : World S V} (e : ε) : Solo t (.raise e) w (.error e) w
  | call {o : Op S V} {k : o.Res → Code S V ε α} {i : V.Input} {r : o.Res} {w w₁ w' : World S V} {x : Except ε α}
      (answered : Answered A o i) (step : w.exec t o i = some (r, w₁)) (rest : Solo t (k r) w₁ x w') :
      Solo t (.call o k) w x w'

variable {A}

theorem solo_of_alone {i : V.Input} {p : Code S V ε α} {w w' : World S V} {x : Except ε α} (hA : ∀ q, A q i)
    (h : alone t i p w = some (x, w')) : Solo A t p w x w' := by
  have hanswered : ∀ o : Op S V, Answered A o i := fun o => by
    cases o with
    | ask q => exact hA q
    | _ => trivial
  induction p generalizing w with
  | ret a =>
    cases h
    exact .ret a
  | raise e =>
    cases h
    exact .raise e
  | call o k ih =>
    obtain ⟨⟨r, w1⟩, he, hk⟩ := Option.bind_eq_some_iff.1 h
    exact .call (hanswered o) he (ih r hk)

/-- **What no operation of a program changes outside**, no run of it alone changes. -/
theorem Solo.stored {F : Op S V → Prop} {Φ : V.Store → Prop} (hF : ∀ q i n s, F (.ask q) → Φ s → Φ (V.serve t q i n s).2)
    {p : Code S V ε α} {w w' : World S V} {x : Except ε α} {l : Bool} (h : Solo A t p w x w')
    (hp : Within (fun _ => F) l p) (hw : Φ w.out) : Φ w'.out := by
  induction h generalizing l with
  | ret a => exact hw
  | raise e => exact hw
  | @call o k i r w w1 w' x answered step rest ih =>
    obtain ⟨ho, hk⟩ := hp
    refine ih (hk r) ?_
    cases o with
    | sql o =>
      obtain ⟨y, -, hy⟩ := Option.map_eq_some_iff.1 step
      cases hy
      exact hw
    | now =>
      cases step
      exact hw
    | ask q =>
      cases step
      exact hF q i _ _ ho hw

/-! ## Drafts -/

theorem Shelved.set {rows : Rows S} {next : Nat} {T : S.Table} {i : Nat} {r : S.Row T} (h : Shelved rows next)
    (hid : S.id T r = i) (hcheck : S.check T r = true)
    (hapart : ∀ k r', k ≠ i → rows T k = some r' → S.clash T r r' = false) (hlt : i < next) :
    Shelved (rows.set T i r) next := by
  have hrow : ∀ T' k r', rows.set T i r T' k = some r' →
      (∃ heq : T' = T, k = i ∧ heq ▸ r' = r) ∨ (¬(T' = T ∧ k = i) ∧ rows T' k = some r') := by
    intro T' k r' hr'
    by_cases hk : T' = T ∧ k = i
    · obtain ⟨rfl, rfl⟩ := hk
      rw [Rows.set_same] at hr'
      exact .inl ⟨rfl, rfl, (Option.some.inj hr').symm⟩
    · rw [Rows.set_other hk] at hr'
      exact .inr ⟨hk, hr'⟩
  refine ⟨⟨fun T' k r' hr' => ?_, fun T' k r' hr' => ?_, fun T' k k' r1 r2 h1 h2 hne => ?_⟩, fun T' k r' hr' => ?_⟩
  · obtain ⟨rfl, rfl, rfl⟩ | ⟨-, hold⟩ := hrow T' k r' hr'
    · exact hid
    · exact h.consistent.id T' k r' hold
  · obtain ⟨rfl, rfl, rfl⟩ | ⟨-, hold⟩ := hrow T' k r' hr'
    · exact hcheck
    · exact h.consistent.check T' k r' hold
  · obtain ⟨rfl, rfl, rfl⟩ | ⟨hne1, hold1⟩ := hrow T' k r1 h1
    · obtain ⟨-, rfl, -⟩ | ⟨-, hold2⟩ := hrow T' k' r2 h2
      · exact absurd rfl hne
      · exact hapart k' r2 (Ne.symm hne) hold2
    · obtain ⟨rfl, rfl, rfl⟩ | ⟨-, hold2⟩ := hrow T' k' r2 h2
      · rw [S.clash_symm]
        exact hapart k r1 hne hold1
      · exact h.consistent.apart T' k k' r1 r2 hold1 hold2 hne
  · obtain ⟨rfl, rfl, rfl⟩ | ⟨-, hold⟩ := hrow T' k r' hr'
    · exact hlt
    · exact h.lt T' k r' hold

theorem earliestBy_le {f : α → Int} {rows : List α} {a b : α} (h : earliestBy f rows = some a) (hb : b ∈ rows) : f a ≤ f b :=
  @List.le_of_mem_argmin _ _ Int.instLinearOrder _ _ _ _ hb h

theorem Snapshot.all_grown {rows rows' : Rows S} {n n' : Nat} {T : S.Table} (h : rows' T = rows T) (hn : n ≤ n')
    (hlt : ∀ i r, rows T i = some r → i < n) : (⟨rows', n'⟩ : Snapshot S).all T = (⟨rows, n⟩ : Snapshot S).all T := by
  obtain ⟨k, rfl⟩ := Nat.exists_eq_add_of_le hn
  have hrest : ((List.range k).map (n + ·)).filterMap (rows T) = [] := by
    rw [List.filterMap_eq_nil_iff]
    intro i hi
    obtain ⟨j, -, rfl⟩ := List.mem_map.1 hi
    by_contra hne
    obtain ⟨r, hr⟩ := Option.ne_none_iff_exists'.1 hne
    have := hlt _ r hr
    omega
  simp only [Snapshot.all, h]
  rw [List.range_add, List.filterMap_append, hrest, List.append_nil]

/-- **What such a thread works on**: the committed rows, and the rows as its transaction sees them. -/
structure Draft (S : Schema) (V : Service) where
  base : Rows S
  rows : Rows S
  next : Nat
  clock : Int
  started : Int
  commits : Nat
  out : V.Store
  /-- Nothing is written and not yet committed. -/
  idle : Bool

variable {s : Draft S V} {e : ε}

namespace Draft

def snapshot (s : Draft S V) : Snapshot S := ⟨s.rows, s.next⟩

def write (s : Draft S V) (T : S.Table) (i : Nat) (r : S.Row T) : Draft S V := { s with rows := s.rows.set T i r, idle := false }

theorem write_same {T : S.Table} {i : Nat} {r : S.Row T} : (s.write T i r).rows T i = some r :=
  Rows.set_same

theorem write_row {T : S.Table} {i j : Nat} {r : S.Row T} (h : j ≠ i) :
    (s.write T i r).rows T j = s.rows T j := Rows.set_row h

theorem write_table {T T' : S.Table} {i : Nat} {r : S.Row T} (h : T' ≠ T) :
    (s.write T i r).rows T' = s.rows T' := Rows.set_table h

def Refused (s : Draft S V) (T : S.Table) (i : Nat) (r : S.Row T) : Prop :=
  S.check T r = false ∨ ∃ j, j < s.next ∧ j ≠ i ∧ (s.rows T j).any (S.clash T r) = true

def stamped (s : Draft S V) (T : S.Table) (r : S.Row T) : S.Row T := S.stamp T s.next s.started r

def grown (s : Draft S V) : Draft S V := { s with next := s.next + 1 }

structure Sound (s : Draft S V) : Prop where
  base : Shelved s.base s.next
  rows : Shelved s.rows s.next

variable {s : Draft S V} {T : S.Table} {i : Nat} {r : S.Row T}

theorem Sound.grown (h : s.Sound) : s.grown.Sound :=
  ⟨⟨h.base.consistent, fun T i r hr => Nat.lt_succ_of_lt (h.base.lt T i r hr)⟩,
    ⟨h.rows.consistent, fun T i r hr => Nat.lt_succ_of_lt (h.rows.lt T i r hr)⟩⟩

theorem Sound.write (h : s.Sound) (hr : ¬s.Refused T i r) (hid : S.id T r = i) (hlt : i < s.next) :
    (s.write T i r).Sound := by
  refine ⟨h.base, h.rows.set hid ?_ ?_ hlt⟩
  · by_contra hbad
    exact hr (.inl (by simpa using hbad))
  · intro k r' hk hr'
    by_contra hclash
    refine hr (.inr ⟨k, h.rows.lt T k r' hr', hk, ?_⟩)
    simpa [hr'] using hclash

end Draft

def drafts (A : V.Ask → V.Input → Prop) (t : Tid) : Interp (Op S V) Op.Res (Draft S V)
  | .sql .begin, K, s => K s.clock { s with started := s.clock }
  | .sql (.read _), K, s => K s.snapshot s
  | .sql (.update T i g), K, s =>
    ((s.rows T i).bind (S.apply T g) = none → K (.ok none) s) ∧
      ∀ r, (s.rows T i).bind (S.apply T g) = some r →
        (s.Refused T i r → K (.error .integrity) s) ∧
          (¬s.Refused T i r → (s.write T i r).Sound → K (.ok (some r)) (s.write T i r))
  | .sql (.insert T r), K, s =>
    (s.grown.Refused T s.next (s.stamped T r) → K (.error .integrity) s.grown) ∧
      (¬s.grown.Refused T s.next (s.stamped T r) → (s.grown.write T s.next (s.stamped T r)).Sound →
        K (.ok (s.stamped T r)) (s.grown.write T s.next (s.stamped T r)))
  | .sql .lock, K, s => K () s
  | .sql .commit, K, s => K () { s with base := s.rows, commits := s.commits + 1, idle := true }
  | .sql .abort, K, s => K () { s with rows := s.base, idle := true }
  | .now, K, s => K s.clock s
  | .ask q, K, s => ∀ i, A q i → K (V.serve t q i s.commits s.out).1 { s with out := (V.serve t q i s.commits s.out).2 }

structure Draws (t : Tid) (w : World S V) (s : Draft S V) : Prop where
  base : w.db.committed = s.base
  rows : w.db.view t = s.rows
  mine : ∀ T j u, w.db.owner T j = some u → u = t
  others : ∀ u, u ≠ t → ∀ T j, w.db.pending u T j = none
  next : w.db.next = s.next
  clock : w.db.clock = s.clock
  started : w.db.started t = s.started
  commits : w.db.log.length = s.commits
  out : w.out = s.out
  idle : s.idle = true → (∀ T j, w.db.owner T j = none) ∧ ∀ T j, w.db.pending t T j = none

def World.draft (w : World S V) (t : Tid) : Draft S V :=
  ⟨w.db.committed, w.db.committed, w.db.next, w.db.clock, w.db.started t, w.db.log.length, w.out, true⟩

theorem draws_start {w : World S V} (h : w.db.Unheld) : Draws t w (w.draft t) where
  idle _ := ⟨h.unowned, h.unwritten t⟩
  base := rfl
  rows := h.view
  mine T j u hu := by
    rw [h.unowned] at hu
    cases hu
  others u _ T j := h.unwritten u T j
  next := rfl
  clock := rfl
  started := rfl
  commits := rfl
  out := rfl

namespace Draws

variable {w w' : World S V} {s : Draft S V} {T : S.Table} {i : Nat} {r : S.Row T}

theorem settled_iff (h : Draws t w s) (j : Nat) : w.db.settled t T r j = (s.rows T j).any (S.clash T r) := by
  have hfree : w.db.owner T j = none ∨ w.db.owner T j = some t := by
    cases ho : w.db.owner T j with
    | none => exact .inl rfl
    | some u => exact .inr (congrArg some (h.mine T j u ho))
  rw [Engine.settled, decide_eq_true hfree, Bool.true_and, h.rows]

theorem refuses_iff (h : Draws t w s) : w.db.Refuses t T i r ↔ s.Refused T i r := by
  simp only [Engine.Refuses, Draft.Refused, h.settled_iff, h.next]

theorem not_admits_of_refused (h : Draws t w s) (hr : s.Refused T i r) : ¬w.db.Admits t T i r := by
  intro ha
  obtain hcheck | ⟨j, hj, hne, hclash⟩ := hr
  · rw [ha.check] at hcheck
    cases hcheck
  · rw [← h.settled_iff, ha.settled j (h.next ▸ hj) hne] at hclash
    cases hclash

theorem write (h : Draws t w s) (r : S.Row T) : Draws t ⟨w.db.write t T i r, w.out⟩ (s.write T i r) where
  base := h.base
  rows := by
    funext T' k
    show _ = s.rows.set T i r T' k
    by_cases hk : T' = T ∧ k = i
    · obtain ⟨rfl, rfl⟩ := hk
      rw [show (w.db.write t T' k r).view t T' k = some r from Rows.over_some (by simp [Engine.write]), Rows.set_same]
    · rw [show (w.db.write t T i r).view t T' k = w.db.view t T' k from Engine.write_view_row hk, h.rows,
        Rows.set_other hk]
  mine T' j u hu := by
    by_cases hk : T' = T ∧ j = i
    · obtain ⟨rfl, rfl⟩ := hk
      simpa [Engine.write, eq_comm] using hu
    · rw [Engine.write_owner_row hk] at hu
      exact h.mine T' j u hu
  others u hu T' j := by
    rw [show (w.db.write t T i r).pending u = w.db.pending u from Engine.write_pending_tid hu]
    exact h.others u hu T' j
  next := h.next
  clock := h.clock
  started := h.started
  commits := h.commits
  out := h.out
  idle := nofun

theorem grown (h : Draws t w s) : Draws t ⟨{ w.db with next := w.db.next + 1 }, w.out⟩ s.grown :=
  ⟨h.base, h.rows, h.mine, h.others, congrArg (· + 1) h.next, h.clock, h.started, h.commits, h.out, h.idle⟩

theorem put {x : Except Fault (S.Row T)} {e' : Engine S} (h : Draws t w s) (hp : w.db.put t T i r = some (x, e')) :
    (s.Refused T i r ∧ x = .error .integrity ∧ Draws t ⟨e', w.out⟩ s) ∨
      (¬s.Refused T i r ∧ x = .ok r ∧ Draws t ⟨e', w.out⟩ (s.write T i r)) := by
  rcases Engine.put_cases hp with ⟨rfl, rfl, hR⟩ | ⟨rfl, rfl, hA⟩
  · exact .inl ⟨h.refuses_iff.1 hR, rfl, h⟩
  · exact .inr ⟨fun hR => h.not_admits_of_refused hR hA, rfl, h.write r⟩

theorem release (h : Draws t w s) : Draws t ⟨w.db.release t, w.out⟩ { s with rows := s.base, idle := true } where
  base := h.base
  rows := by
    rw [← h.base]
    funext T j
    exact Rows.over_none (congrFun (congrFun Engine.release_pending_self T) j)
  mine T j u hu := by
    have hu : (if w.db.owner T j = some t then none else w.db.owner T j) = some u := hu
    split at hu
    · cases hu
    · exact h.mine T j u hu
  others u hu T j := by
    rw [show (w.db.release t).pending u = w.db.pending u from Engine.release_pending_tid hu]
    exact h.others u hu T j
  next := h.next
  clock := h.clock
  started := h.started
  commits := h.commits
  out := h.out
  idle _ := by
    refine ⟨fun T j => ?_, fun T j => congrFun (congrFun Engine.release_pending_self T) j⟩
    show (if w.db.owner T j = some t then none else w.db.owner T j) = none
    split
    · rfl
    · rename_i hne
      cases ho : w.db.owner T j with
      | none => rfl
      | some u => exact absurd (ho.trans (congrArg some (h.mine T j u ho))) hne

theorem commit (h : Draws t w s) :
    Draws t ⟨w.db.commit t, w.out⟩ { s with base := s.rows, commits := s.commits + 1, idle := true } where
  base := h.rows
  rows := by
    rw [← h.rows]
    funext T j
    exact Rows.over_none (congrFun (congrFun Engine.commit_pending_self T) j)
  mine := h.release.mine
  others := h.release.others
  next := h.next
  clock := h.clock
  started := h.started
  commits := by
    show (w.db.log ++ [w.db.entry t]).length = _
    rw [List.length_append, h.commits]
    rfl
  out := h.out
  idle := h.release.idle

theorem unheld (h : Draws t w s) (hs : s.Sound) (hidle : s.idle = true) : w.db.Unheld := by
  obtain ⟨hunowned, hunwritten⟩ := h.idle hidle
  refine ⟨hunowned, fun u T j => ?_, h.base ▸ hs.base.consistent, fun T j r hr => ?_⟩
  · by_cases hu : u = t
    · exact hu ▸ hunwritten T j
    · exact h.others u hu T j
  · rw [h.base] at hr
    exact h.next ▸ hs.base.lt T j r hr

end Draws

theorem draws_exec {w w1 : World S V} {o : Op S V} {i : V.Input} {r : o.Res} {K : o.Res → Draft S V → Prop}
    (h : Draws t w s) (hs : s.Sound) (hK : drafts A t o K s) (hA : Answered A o i) (he : w.exec t o i = some (r, w1)) :
    ∃ s1, Draws t w1 s1 ∧ s1.Sound ∧ K r s1 := by
  cases o with
  | sql o =>
    obtain ⟨⟨x, e'⟩, hx, hw⟩ := Option.map_eq_some_iff.1 he
    cases hw
    cases o with
    | begin =>
      cases hx
      refine ⟨{ s with started := s.clock },
        ⟨h.base, h.rows, h.mine, h.others, h.next, h.clock, ?_, h.commits, h.out, h.idle⟩, ⟨hs.base, hs.rows⟩, ?_⟩
      · simp [h.clock]
      · rw [h.clock]
        exact hK
    | read q =>
      cases hx
      refine ⟨s, ⟨h.base, h.rows, h.mine, h.others, h.next, h.clock, h.started, h.commits, h.out, h.idle⟩, hs, ?_⟩
      rw [h.rows, h.next]
      exact hK
    | update T j g =>
      obtain ⟨hnone, hsome⟩ := hK
      simp only [Engine.exec, Engine.update, h.rows] at hx
      cases hr : (s.rows T j).bind (S.apply T g) with
      | none =>
        rw [hr] at hx
        cases hx
        exact ⟨s, h, hs, hnone hr⟩
      | some r =>
        simp only [hr] at hx
        split at hx
        · obtain ⟨⟨y, e''⟩, hp, hy⟩ := Option.map_eq_some_iff.1 hx
          cases hy
          rcases h.put hp with ⟨hR, rfl, hd⟩ | ⟨hA, rfl, hd⟩
          · exact ⟨s, hd, hs, (hsome r hr).1 hR⟩
          · obtain ⟨v, hv, hg⟩ := Option.bind_eq_some_iff.1 hr
            have hid : S.id T r = j := (S.id_apply T g v r hg).trans (hs.rows.consistent.id T j v hv)
            have hw := hs.write hA hid (hs.rows.lt T j v hv)
            exact ⟨_, hd, hw, (hsome r hr).2 hA hw⟩
        · cases hx
    | insert T r =>
      have hx : ({ w.db with next := w.db.next + 1 } : Engine S).put t T w.db.next
          (S.stamp T w.db.next (w.db.started t) r) = some (x, e') := hx
      rw [h.next, h.started] at hx
      have hg : Draws t ⟨{ w.db with next := s.next + 1 }, w.out⟩ s.grown := h.next ▸ h.grown
      rcases hg.put hx with ⟨hR, rfl, hd⟩ | ⟨hA, rfl, hd⟩
      · exact ⟨_, hd, hs.grown, hK.1 hR⟩
      · have hw := hs.grown.write hA (S.id_stamp ..) (Nat.lt_succ_self s.next)
        exact ⟨_, hd, hw, hK.2 hA hw⟩
    | lock =>
      obtain ⟨-, rfl⟩ := Engine.lock_cases hx
      exact ⟨s, ⟨h.base, h.rows, h.mine, h.others, h.next, h.clock, h.started, h.commits, h.out, h.idle⟩, hs, hK⟩
    | commit =>
      cases hx
      exact ⟨_, h.commit, ⟨hs.rows, hs.rows⟩, hK⟩
    | abort =>
      cases hx
      exact ⟨_, h.release, ⟨hs.base, hs.base⟩, hK⟩
  | now =>
    cases he
    exact ⟨s, h, hs, h.clock ▸ hK⟩
  | ask q =>
    cases he
    rw [h.commits, h.out]
    exact ⟨{ s with out := (V.serve t q i s.commits s.out).2 },
      ⟨h.base, h.rows, h.mine, h.others, h.next, h.clock, h.started, h.commits, rfl, h.idle⟩, ⟨hs.base, hs.rows⟩,
      hK i hA⟩

theorem solo_sound {p : Code S V ε α} {Q : Except ε α → Draft S V → Prop} {w w' : World S V} {x : Except ε α}
    (h : Draws t w s) (hs : s.Sound) (hp : p.wp (drafts A t) Q s) (hr : Solo A t p w x w') :
    ∃ s', Draws t w' s' ∧ s'.Sound ∧ Q x s' := by
  induction hr generalizing s with
  | ret a => exact ⟨s, h, hs, hp⟩
  | raise e => exact ⟨s, h, hs, hp⟩
  | call answered step rest ih =>
    obtain ⟨s1, h1, hs1, hk⟩ := draws_exec h hs hp answered step
    exact ih h1 hs1 hk

/-! ## The rules -/

theorem drafts_mono (A : V.Ask → V.Input → Prop) (t : Tid) : Prog.Mono (drafts A t : Interp (Op S V) Op.Res (Draft S V)) := by
  intro o K K' s hK h
  cases o with
  | sql o =>
    cases o with
    | begin | read | lock | commit | abort => exact hK _ _ h
    | update T i g => exact ⟨fun hn => hK _ _ (h.1 hn), fun r hr =>
        ⟨fun hR => hK _ _ ((h.2 r hr).1 hR), fun hA hw => hK _ _ ((h.2 r hr).2 hA hw)⟩⟩
    | insert T r => exact ⟨fun hR => hK _ _ (h.1 hR), fun hA hw => hK _ _ (h.2 hA hw)⟩
  | now => exact hK _ _ h
  | ask q => exact fun i hi => hK _ _ (h i hi)

theorem drafts_always {p : Code S V ε β} {Q : Except ε β → Draft S V → Prop} (h : ∀ x s', Q x s') :
    p.wp (drafts A t) Q s := by
  induction p generalizing s with
  | ret a => exact h _ _
  | raise e => exact h _ _
  | call o k ih =>
    cases o with
    | sql o =>
      cases o with
      | begin | read | lock | commit | abort => exact ih _
      | update T i g => exact ⟨fun _ => ih _, fun _ _ => ⟨fun _ => ih _, fun _ _ => ih _⟩⟩
      | insert T r => exact ⟨fun _ => ih _, fun _ _ => ih _⟩
    | now => exact ih _
    | ask q => exact fun _ _ => ih _

namespace Draft

def closed (s : Draft S V) : Except ε β → Draft S V
  | .ok _ => { s with base := s.rows, commits := s.commits + 1, idle := true }
  | .error _ => { s with rows := s.base, idle := true }

end Draft

variable {Q : Except ε β → Draft S V → Prop} {s : Draft S V}

theorem drafts_bind {p : Code S V ε α} {f : α → Code S V ε β} (h : p.wp (drafts A t) (fun
      | .ok a, s' => (f a).wp (drafts A t) Q s'
      | .error e, s' => Q (.error e) s') s) : (p >>= f).wp (drafts A t) Q s := by
  rw [Prog.wp_bind]
  refine Prog.wp_mono (drafts_mono A t) (fun x s' hx => ?_) h
  cases x <;> exact hx

theorem drafts_select {q : S.Query} {f : Snapshot S → α} {k : α → Code S V ε β}
    (h : (k (f s.snapshot)).wp (drafts A t) Q s) : (select q f >>= k).wp (drafts A t) Q s := h

theorem drafts_now {k : Int → Code S V ε β} (h : (k s.clock).wp (drafts A t) Q s) : (now >>= k).wp (drafts A t) Q s := h

theorem drafts_ask {q : V.Ask} {k : V.Ans q → Code S V ε β}
    (h : ∀ i, A q i → (k (V.serve t q i s.commits s.out).1).wp (drafts A t) Q
      { s with out := (V.serve t q i s.commits s.out).2 }) : (ask q >>= k).wp (drafts A t) Q s := h

theorem drafts_ite {c : Prop} [Decidable c] {p q : Code S V ε β} (hpos : c → p.wp (drafts A t) Q s)
    (hneg : ¬c → q.wp (drafts A t) Q s) : (if c then p else q).wp (drafts A t) Q s := by
  split
  · exact hpos ‹c›
  · exact hneg ‹¬c›

theorem drafts_raiseIf {c : Bool} {k : Unit → Code S V ε β} (htrue : c = true → Q (.error e) s)
    (hfalse : c = false → (k ()).wp (drafts A t) Q s) : (raiseIf c e >>= k).wp (drafts A t) Q s := by
  cases c with
  | true => exact htrue rfl
  | false => exact hfalse rfl

theorem drafts_orRaise {a : Option α} {k : α → Code S V ε β} (hnone : a = none → Q (.error e) s)
    (hsome : ∀ x, a = some x → (k x).wp (drafts A t) Q s) : (orRaise a e >>= k).wp (drafts A t) Q s := by
  cases a with
  | none => exact hnone rfl
  | some x => exact hsome x rfl

theorem drafts_update {T : S.Table} {i : Nat} {g : S.Change T} {k : Option (S.Row T) → Code S V ε β}
    (hnone : (s.rows T i).bind (S.apply T g) = none → (k none).wp (drafts A t) Q s) (hrefused : Q (.error e) s)
    (hsome : ∀ v r, s.rows T i = some v → S.apply T g v = some r → (s.write T i r).Sound →
      (k (some r)).wp (drafts A t) Q (s.write T i r)) : (update e T i g >>= k).wp (drafts A t) Q s := by
  refine ⟨hnone, fun r hr => ⟨fun _ => hrefused, fun _ hw => ?_⟩⟩
  obtain ⟨v, hv, hg⟩ := Option.bind_eq_some_iff.1 hr
  exact hsome v r hv hg hw

theorem drafts_update_row {T : S.Table} {i : Nat} {g : S.Change T} {k : Option (S.Row T) → Code S V ε β}
    (hnone : (s.rows T i).bind (S.apply T g) = none → (k none).wp (drafts A t) Q s)
    (hrefused : ∀ v r, s.rows T i = some v → S.apply T g v = some r → s.Refused T i r → Q (.error e) s)
    (hsome : ∀ v r, s.rows T i = some v → S.apply T g v = some r → ¬s.Refused T i r → (s.write T i r).Sound →
      (k (some r)).wp (drafts A t) Q (s.write T i r)) : (update e T i g >>= k).wp (drafts A t) Q s := by
  refine ⟨hnone, fun r hr => ?_⟩
  obtain ⟨v, hv, hg⟩ := Option.bind_eq_some_iff.1 hr
  exact ⟨hrefused v r hv hg, hsome v r hv hg⟩

theorem drafts_insert_row {T : S.Table} {r : S.Row T} {k : S.Row T → Code S V ε β}
    (hrefused : s.grown.Refused T s.next (s.stamped T r) → Q (.error e) s.grown)
    (hsome : (s.grown.write T s.next (s.stamped T r)).Sound →
      (k (s.stamped T r)).wp (drafts A t) Q (s.grown.write T s.next (s.stamped T r))) :
    (insert e T r >>= k).wp (drafts A t) Q s := ⟨hrefused, fun _ hw => hsome hw⟩

theorem drafts_insert {T : S.Table} {r : S.Row T} {k : S.Row T → Code S V ε β} (hrefused : Q (.error e) s.grown)
    (hsome : (s.grown.write T s.next (s.stamped T r)).Sound →
      (k (s.stamped T r)).wp (drafts A t) Q (s.grown.write T s.next (s.stamped T r))) :
    (insert e T r >>= k).wp (drafts A t) Q s := ⟨fun _ => hrefused, fun _ hw => hsome hw⟩

/-- **An UPDATE over several rows**, one after another; `I` says what those done have come to. -/
theorem drafts_updateEach {T : S.Table} {g : S.Change T} (I : List Nat → Draft S V → Prop) (done : List Nat)
    {is : List Nat} {k : List (S.Row T) → Code S V ε β} (hI : I done s) (hs : s.Sound)
    (hnone : ∀ done i s', I done s' → (s'.rows T i).bind (S.apply T g) = none → I (i :: done) s')
    (hsome : ∀ done i s' v r, I done s' → s'.rows T i = some v → S.apply T g v = some r → I (i :: done) (s'.write T i r))
    (hrefused : ∀ done i s' v r, I done s' → s'.Sound → s'.rows T i = some v → S.apply T g v = some r →
      s'.Refused T i r → Q (.error e) s')
    (hok : ∀ rs done' s', I done' s' → (∀ i, i ∈ done' ↔ i ∈ is ∨ i ∈ done) → s'.Sound →
      (k rs).wp (drafts A t) Q s') : (updateEach e T g is >>= k).wp (drafts A t) Q s := by
  induction is generalizing done s β with
  | nil => exact hok [] done s hI (fun i => by simp) hs
  | cons i is ih =>
    have hmem : ∀ done' : List Nat, (∀ j, j ∈ done' ↔ j ∈ is ∨ j ∈ i :: done) → ∀ j, j ∈ done' ↔ j ∈ i :: is ∨ j ∈ done :=
      fun done' h j => (h j).trans (by rw [List.mem_cons, List.mem_cons, or_left_comm, ← or_assoc])
    refine drafts_bind (drafts_update_row (fun hn => ?_) (fun v r hv hr => hrefused done i s v r hI hs hv hr)
      fun v r hv hr _ hw => ?_)
    · exact ih _ (hnone done i s hI hn) hs hrefused fun rs done' s' h hdone hs' => hok _ done' s' h (hmem done' hdone) hs'
    · exact ih _ (hsome done i s v r hI hv hr) hw hrefused fun rs done' s' h hdone hs' => hok _ done' s' h (hmem done' hdone) hs'

theorem drafts_tenantSession {body : Int → Code S V ε β} (h : (body s.clock).wp (drafts A t) (fun x s' => Q x (s'.closed x))
      { s with started := s.clock }) : (tenantSession body).wp (drafts A t) Q s := by
  apply drafts_bind
  rw [Prog.wp_attempt]
  refine Prog.wp_mono (drafts_mono A t) (fun x s' hx => ?_) h
  cases x <;> exact hx

/-! ## Alone, nothing waits -/

def World.Lockable (w : World S V) (t : Tid) : Prop := w.db.advisory = none ∨ w.db.advisory = some t

theorem Draws.put_some {w : World S V} (h : Draws t w s) (T : S.Table) (i : Nat) (r : S.Row T) :
    ∃ x e', w.db.put t T i r = some (x, e') ∧ e'.advisory = w.db.advisory := by
  have hfree : (w.db.rivals i).any (w.db.contested t T r) = false := by
    rw [List.any_eq_false]
    intro j _
    cases ho : w.db.owner T j with
    | none => simp [Engine.contested, ho]
    | some u => simp [Engine.contested, ho, h.mine T j u ho]
  unfold Engine.put
  rw [hfree]
  split
  · exact ⟨_, _, rfl, rfl⟩
  · exact ⟨_, _, rfl, rfl⟩

theorem Draws.exec_some {w : World S V} (h : Draws t w s) (hlock : w.Lockable t) (o : Op S V) (i : V.Input) :
    ∃ r w1, w.exec t o i = some (r, w1) ∧ w1.Lockable t := by
  have hreleased : (w.db.release t).advisory = none := by
    show (if w.db.advisory = some t then none else w.db.advisory) = none
    rcases hlock with hl | hl <;> simp [hl]
  cases o with
  | sql o =>
    cases o with
    | begin | read => exact ⟨_, _, rfl, hlock⟩
    | update T j g =>
      have hmine : w.db.owner T j = none ∨ w.db.owner T j = some t := by
        cases ho : w.db.owner T j with
        | none => exact .inl rfl
        | some u => exact .inr (congrArg some (h.mine T j u ho))
      cases hg : (w.db.view t T j).bind (S.apply T g) with
      | none => exact ⟨.ok none, w, by simp [World.exec, Engine.exec, Engine.update, hg], hlock⟩
      | some r =>
        obtain ⟨x, e', hp, ha⟩ := h.put_some T j r
        refine ⟨x.map some, ⟨e', w.out⟩, by simp [World.exec, Engine.exec, Engine.update, hg, hmine, hp], ?_⟩
        unfold World.Lockable
        rwa [ha]
    | insert T r =>
      have hgrown : Draws t ⟨{ w.db with next := w.db.next + 1 }, w.out⟩ s.grown := h.grown
      obtain ⟨x, e', hp, ha⟩ := hgrown.put_some T w.db.next (S.stamp T w.db.next (w.db.started t) r)
      refine ⟨x, ⟨e', w.out⟩, by simp [World.exec, Engine.exec, Engine.insert, hp], ?_⟩
      unfold World.Lockable
      rwa [ha]
    | lock =>
      refine ⟨(), ⟨{ w.db with advisory := some t }, w.out⟩, ?_, .inr rfl⟩
      show Option.map _ (if w.db.advisory = none ∨ w.db.advisory = some t then _ else _) = _
      rw [if_pos (show w.db.advisory = none ∨ w.db.advisory = some t from hlock)]
      rfl
    | commit => exact ⟨_, _, rfl, .inl hreleased⟩
    | abort => exact ⟨_, _, rfl, .inl hreleased⟩
  | now => exact ⟨_, _, rfl, hlock⟩
  | ask q => exact ⟨_, _, rfl, hlock⟩

theorem alone_ends {p : Code S V ε α} {w : World S V} (i : V.Input) (h : Draws t w s) (hs : s.Sound)
    (hlock : w.Lockable t) : ∃ x w', alone t i p w = some (x, w') := by
  induction p generalizing w s with
  | ret a => exact ⟨_, _, rfl⟩
  | raise e => exact ⟨_, _, rfl⟩
  | call o k ih =>
    obtain ⟨r, w1, he, hl⟩ := h.exec_some hlock o i
    have hK : drafts (fun _ _ => True) t o (fun _ _ => True) s :=
      drafts_always (p := (Prog.call o Prog.ret : Code S V ε o.Res)) (Q := fun _ _ => True) fun _ _ => trivial
    obtain ⟨s1, h1, hs1, -⟩ := draws_exec h hs hK (by cases o <;> trivial) he
    obtain ⟨x, w', hx⟩ := ih r h1 hs1 hl
    exact ⟨x, w', by rw [alone, he]; exact hx⟩

end Txn
