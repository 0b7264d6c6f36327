import Mathlib.Data.List.Induction
import Mathlib.Order.Basic
/-!
# LastWriter — registers written by a log

An entry of a log gives a register's new value or does not name the register.  What a register holds after a log is what
the last entry that names it gives, and in a log sorted by a key that is the one with the greatest key.
-/
namespace LastWriter

variable {Event Value State Key : Type} {gives : Event → Option Value} {log : List Event} {e : Event} {v : Value}

def last (gives : Event → Option Value) (log : List Event) : Option Value := (log.filterMap gives).getLast?

theorem last_concat (gives : Event → Option Value) (log : List Event) (e : Event) :
    last gives (log ++ [e]) = (gives e).or (last gives log) := by
  unfold last
  cases h : gives e with
  | none => simp [List.filterMap_append, h]
  | some v => simp [List.filterMap_append, h]

theorem last_silent (h : ∀ e ∈ log, gives e = none) : last gives log = none := by
  unfold last
  rw [List.filterMap_eq_nil_iff.2 h, List.getLast?_nil]

theorem silent_of_last (h : last gives log = none) : ∀ e ∈ log, gives e = none := by
  unfold last at h
  rw [List.getLast?_eq_none_iff] at h
  exact List.filterMap_eq_nil_iff.1 h

theorem exists_of_last (h : last gives log = some v) :
    ∃ pre e post, log = pre ++ e :: post ∧ gives e = some v ∧ ∀ e' ∈ post, gives e' = none := by
  induction log using List.reverseRecOn with
  | nil => cases h
  | append_singleton log e ih =>
    rw [last_concat] at h
    cases hs : gives e with
    | some v' =>
      rw [hs] at h
      cases h
      exact ⟨log, e, [], rfl, hs, fun _ he => by cases he⟩
    | none =>
      rw [hs] at h
      obtain ⟨pre, e', post, rfl, he', hpost⟩ := ih h
      refine ⟨pre, e', post ++ [e], by simp, he', fun x hx => ?_⟩
      rcases List.mem_append.1 hx with hx | hx
      · exact hpost x hx
      · cases List.mem_singleton.1 hx
        exact hs

/-- **A log played over a state**: each register ends as the last entry that names it gives. -/
theorem read_foldl {step : State → Event → State} {read : State → Option Value}
    (hstep : ∀ s e, read (step s e) = (gives e).or (read s)) (s : State) (log : List Event) :
    read (log.foldl step s) = (last gives log).or (read s) := by
  induction log using List.reverseRecOn with
  | nil => rfl
  | append_singleton log e ih =>
    rw [List.foldl_append, List.foldl_cons, List.foldl_nil, hstep, ih, last_concat]
    cases gives e with
    | none => rfl
    | some v => rfl

/-- **In a sorted log the greatest key has the word**, where every other entry that names the register gives the same or lies
before it. -/
theorem last_of_greatest [Preorder Key] {key : Event → Key} (hsorted : log.Pairwise fun e e' => key e ≤ key e') (he : e ∈ log)
    (hv : gives e = some v) (hothers : ∀ e' ∈ log, ∀ v', gives e' = some v' → v' = v ∨ key e' < key e) :
    last gives log = some v := by
  induction log using List.reverseRecOn with
  | nil => cases he
  | append_singleton log x ih =>
    rw [last_concat]
    obtain ⟨hlog, -, hx⟩ := List.pairwise_append.1 hsorted
    cases hs : gives x with
    | some v' =>
      rcases hothers x (List.mem_append_right _ (List.mem_singleton_self x)) v' hs with rfl | hlt
      · rfl
      · rcases List.mem_append.1 he with he | he
        · exact absurd (hx e he x (List.mem_singleton_self x)) (not_le_of_gt hlt)
        · cases List.mem_singleton.1 he
          exact absurd hlt (lt_irrefl _)
    | none =>
      have hmem : e ∈ log := by
        rcases List.mem_append.1 he with he | he
        · exact he
        · cases List.mem_singleton.1 he
          rw [hs] at hv
          cases hv
      exact ih hlog hmem fun e' he' => hothers e' (List.mem_append_left _ he')

end LastWriter
