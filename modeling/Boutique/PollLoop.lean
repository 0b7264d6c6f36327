import Boutique.DayBoard
/-!
# PollLoop — the board's loop stays alive

While the board runs in a tab that shows, a timer is armed, or a poll of the current generation is out, or a mutation is.
The arming is left to whoever finishes: the poll, the mutation, the create.  Two of them can forget it.
-/
namespace DayBoard

namespace Board

variable {b : Board}

/-! ## What each function touches -/

theorem schedule_frame (b : Board) (ms : Nat) :
    ∃ ticks ref n, b.schedule ms = { b with ticks := ticks, timerRef := ref, handles := n } := by
  unfold schedule
  split
  · exact ⟨_, _, _, rfl⟩
  · exact ⟨_, _, _, rfl⟩

theorem armIdle_frame (b : Board) :
    ∃ idles ref n, b.armIdle = { b with idles := idles, idleRef := ref, handles := n } := by
  unfold armIdle
  split
  · exact ⟨_, _, _, rfl⟩
  · exact ⟨_, _, _, rfl⟩

theorem rolled_frame (b : Board) : ∃ day n, b.generation ≤ n ∧ b.rolled = { b with day := day, generation := n } := by
  unfold rolled
  split
  · exact ⟨_, _, Nat.le_succ _, rfl⟩
  · exact ⟨_, _, Nat.le_refl _, rfl⟩

/-- **What `run` does**: nothing while a mutation is out, release a held press, or issue a poll under the generation it
leaves. -/
theorem run_cases (b : Board) :
    (0 < b.mutations ∧ b.run = (.suppressed, b)) ∨
    (b.mutations = 0 ∧ b.hold = true ∧ b.run = (.held, { b with hold := false })) ∨
    (b.mutations = 0 ∧ b.hold = false ∧ ∃ day p, b.generation ≤ p.generation ∧
      b.run = (.taken,
        { b with day := day, generation := p.generation, polls := b.polls ++ [p], issued := b.issued + 1 })) := by
  unfold run
  by_cases hm : 0 < b.mutations
  · exact .inl ⟨hm, if_pos hm⟩
  · have hz : b.mutations = 0 := Nat.eq_zero_of_not_pos hm
    by_cases hh : b.hold = true
    · refine .inr (.inl ⟨hz, hh, ?_⟩)
      rw [if_neg hm, if_pos hh]
    · obtain ⟨day, n, hn, he⟩ := b.rolled_frame
      refine .inr (.inr ⟨hz, by simpa using hh, day, ⟨b.issued, n, day, b.stranded ≠ []⟩, hn, ?_⟩)
      rw [if_neg hm, if_neg hh, he]
      rfl

/-! ## The invariant -/

/-- **What holds of the refs at every moment.** -/
structure Sound (b : Board) : Prop where
  ticks : b.ticks.map (·.handle) = b.timerRef.toList
  running : b.running = true ↔ b.mode = .running ∧ b.terminal = none ∧ b.mounted = true
  armed : b.ticks ≠ [] → b.running = true ∧ b.hidden = false
  counted : b.mutations = b.writes.length
  polls : ∀ p ∈ b.polls, p.generation ≤ b.generation

def Alive (b : Board) : Prop :=
  b.running = true → b.hidden = false → b.ticks ≠ [] ∨ (∃ p ∈ b.polls, p.generation = b.generation) ∨ b.writes ≠ []

theorem clearTimeout_own {ref : Option Nat} {timers : List Timer} (h : timers.map (·.handle) = ref.toList) :
    clearTimeout ref timers = [] := by
  unfold clearTimeout
  rw [List.filter_eq_nil_iff]
  intro timer hm
  have hhandle : timer.handle ∈ ref.toList := h ▸ List.mem_map_of_mem hm
  simpa using (Option.mem_toList.1 hhandle).symm

theorem Sound.clearTick_ticks (h : b.Sound) : b.clearTick.ticks = [] := clearTimeout_own h.ticks

theorem Sound.clearTick (h : b.Sound) : b.clearTick.Sound :=
  ⟨by rw [h.clearTick_ticks]; rfl, h.running, fun hne => absurd h.clearTick_ticks hne, h.counted, h.polls⟩

theorem Sound.schedule (h : b.Sound) (ms : Nat) : (b.schedule ms).Sound := by
  unfold Board.schedule
  split
  · exact h.clearTick
  · rename_i hc
    have hc' : b.running = true ∧ b.hidden = false := by simpa using hc
    refine ⟨?_, h.running, fun _ => hc', h.counted, h.polls⟩
    change List.map Timer.handle (b.clearTick.ticks ++ [Timer.mk b.handles ms]) = _
    rw [h.clearTick_ticks]
    rfl

theorem alive_schedule (b : Board) (ms : Nat) : (b.schedule ms).Alive := by
  intro hr hh
  unfold Board.schedule at *
  split at hr
  · rename_i hc
    rw [if_pos hc] at hh
    have hr' : b.running = true := hr
    have hh' : b.hidden = false := hh
    rcases hc with hc | hc
    · exact absurd hr' hc
    · rw [hh'] at hc
      cases hc
  · rename_i hc
    rw [if_neg hc]
    exact .inl (by simp)

theorem Sound.armIdle (h : b.Sound) : b.armIdle.Sound := by
  obtain ⟨idles, ref, n, he⟩ := armIdle_frame b
  rw [he]
  exact ⟨h.ticks, h.running, h.armed, h.counted, h.polls⟩

theorem Sound.bump (h : b.Sound) : b.bump.Sound :=
  ⟨h.ticks, h.running, h.armed, h.counted, fun p hp => Nat.le_succ_of_le (h.polls p hp)⟩

theorem Sound.run (h : b.Sound) : b.run.2.Sound := by
  rcases b.run_cases with ⟨-, he⟩ | ⟨-, -, he⟩ | ⟨-, -, day, p, hp, he⟩
  · rw [he]
    exact h
  · rw [he]
    exact ⟨h.ticks, h.running, h.armed, h.counted, h.polls⟩
  · rw [he]
    refine ⟨h.ticks, h.running, h.armed, h.counted, fun q hq => ?_⟩
    rcases List.mem_append.1 hq with hq | hq
    · exact Nat.le_trans (h.polls q hq) hp
    · cases List.mem_singleton.1 hq
      exact Nat.le_refl _

theorem Sound.alive_run (h : b.Sound) (hhold : b.hold = true → 0 < b.mutations) : b.run.2.Alive := by
  rcases b.run_cases with ⟨hm, he⟩ | ⟨hm, hh, -⟩ | ⟨-, -, day, p, hp, he⟩
  · rw [he]
    refine fun _ _ => .inr (.inr fun hnil => ?_)
    rw [h.counted, hnil] at hm
    cases hm
  · exact absurd (hhold hh) (by omega)
  · rw [he]
    exact fun _ _ => .inr (.inl ⟨p, by simp, rfl⟩)

theorem Sound.tick (h : b.Sound) : b.tick.Sound := by
  unfold Board.tick
  split
  · exact h
  · have hrun := h.run
    split
    · exact hrun.schedule _
    · exact hrun

theorem Sound.alive_tick (h : b.Sound) : b.tick.Alive := by
  unfold Board.tick
  split
  · rename_i hc
    intro hr hh
    rcases hc with hc | hc
    · exact absurd hr hc
    · rw [hh] at hc
      cases hc
  · split
    · exact alive_schedule _ _
    · rename_i hne
      rcases b.run_cases with ⟨hm, he⟩ | ⟨-, -, he⟩ | ⟨-, hhold, -⟩
      · exact h.alive_run fun _ => hm
      · rw [he] at hne
        exact absurd rfl hne
      · exact h.alive_run fun hh => by rw [hhold] at hh; cases hh

theorem Sound.refresh (h : b.Sound) : b.refresh.Sound := h.bump.clearTick.run

theorem Sound.rearm (h : b.Sound) : b.rearm.Sound := by
  unfold Board.rearm
  split
  · exact h.schedule _
  · exact h

theorem Sound.alive_rearm (h : b.Sound) : b.rearm.Alive := by
  unfold Board.rearm
  split
  · exact alive_schedule _ _
  · rename_i hm
    refine fun _ _ => .inr (.inr fun hnil => hm ?_)
    rw [h.counted, hnil]
    rfl

theorem Sound.stop (h : b.Sound) (next : PollTerminal) : (b.stop next).Sound := by
  refine ⟨h.clearTick.ticks, ?_, fun hne => absurd h.clearTick_ticks hne, h.counted, h.polls⟩
  exact ⟨fun hr => (by cases hr), fun hr => (by cases hr.2.1)⟩

theorem Sound.fail (h : b.Sound) (end_ : Option PollTerminal) : (b.fail end_).Sound := by
  cases end_ with
  | none => exact h
  | some next => exact h.stop next

theorem applyRows_frame (b : Board) (strandedThen : Bool) (focused : Option Nat) (items : List OwnerBookingRow) :
    ∃ rows stranded, b.applyRows strandedThen focused items = { b with rows := rows, stranded := stranded } := by
  unfold applyRows
  split
  · exact ⟨_, _, rfl⟩
  · dsimp only
    split
    · exact ⟨_, _, rfl⟩
    · exact ⟨_, _, rfl⟩

theorem Sound.received (h : b.Sound) (strandedThen : Bool) (focused : Option Nat)
    (result : Except Failure (List OwnerBookingRow)) : (b.received strandedThen focused result).Sound := by
  cases result with
  | ok items =>
    obtain ⟨rows, stranded, he⟩ := b.applyRows_frame strandedThen focused items
    rw [Board.received, he]
    exact ⟨h.ticks, h.running, h.armed, h.counted, h.polls⟩
  | error error =>
    rw [Board.received]
    split
    · exact h.stop _
    · split
      · exact ⟨h.ticks, h.running, h.armed, h.counted, h.polls⟩
      · exact ⟨h.ticks, h.running, h.armed, h.counted, h.polls⟩

theorem Sound.erase (h : b.Sound) (poll : Poll) : ({ b with polls := b.polls.erase poll } : Board).Sound :=
  ⟨h.ticks, h.running, h.armed, h.counted, fun p hp => h.polls p (List.mem_of_mem_erase hp)⟩

theorem Sound.loaded (h : b.Sound) (poll : Poll) (focused : Option Nat)
    (result : Except Failure (List OwnerBookingRow)) : (b.loaded poll focused result).Sound := by
  unfold Board.loaded
  split
  · exact ((h.erase poll).received _ _ _).rearm
  · exact h.erase poll

theorem Sound.alive_loaded (h : b.Sound) (ha : b.Alive) (poll : Poll) (focused : Option Nat)
    (result : Except Failure (List OwnerBookingRow)) : (b.loaded poll focused result).Alive := by
  unfold Board.loaded
  split
  · exact ((h.erase poll).received _ _ _).alive_rearm
  · rename_i hstale
    intro hr hh
    rcases ha hr hh with ht | ⟨p, hp, hg⟩ | hw
    · exact .inl ht
    · refine .inr (.inl ⟨p, (List.mem_erase_of_ne fun he => hstale ?_).2 hp, hg⟩)
      rw [← he]
      exact decide_eq_true hg
    · exact .inr (.inr hw)

theorem Sound.issue (h : b.Sound) (write : Mutation) : (b.issue write).Sound := by
  refine ⟨h.clearTick.ticks, h.running, fun hne => absurd h.clearTick_ticks hne, ?_, h.bump.polls⟩
  change b.mutations + 1 = (b.writes ++ [write]).length
  rw [h.counted, List.length_append]
  rfl

theorem alive_issue (b : Board) (write : Mutation) : (b.issue write).Alive :=
  fun _ _ => .inr (.inr (List.append_ne_nil_of_right_ne_nil _ (List.cons_ne_nil _ _)))

theorem Sound.finished (h : b.Sound) (write : Mutation) (hw : write ∈ b.writes) : (b.finished write).Sound := by
  refine ⟨h.ticks, h.running, h.armed, ?_, h.polls⟩
  change b.mutations - 1 = (b.writes.erase write).length
  rw [h.counted, List.length_erase_of_mem hw]

theorem fail_writes (b : Board) (end_ : Option PollTerminal) : (b.fail end_).writes = b.writes := by
  cases end_ <;> rfl

theorem fail_mutations (b : Board) (end_ : Option PollTerminal) : (b.fail end_).mutations = b.mutations := by
  cases end_ <;> rfl

theorem Sound.mutated (h : b.Sound) {write : Mutation} (hw : write ∈ b.writes) (result : Except Failure OwnerBookingRow) :
    (b.mutated write result).Sound ∧ (b.mutated write result).Alive := by
  cases result with
  | ok detail =>
    have hpatched : ({ b with rows := some (patch detail (b.rows.getD [])) } : Board).Sound :=
      ⟨h.ticks, h.running, h.armed, h.counted, h.polls⟩
    have hdone := hpatched.finished write hw
    exact ⟨hdone.rearm, hdone.alive_rearm⟩
  | error error =>
    have hdone := (h.fail (terminalOf error)).finished write (by rwa [fail_writes])
    exact ⟨hdone.rearm, hdone.alive_rearm⟩

/-- **When a create's `finally` does what the loop needs**: the board runs exactly if it did in the render the create was
called from, and no press holds the re-fetch. -/
def Refetches (b : Board) (mode : PollMode) (end_ : Option PollTerminal) : Prop :=
  b.mutations = 1 → end_ = none → (mode = .running ↔ b.running = true) ∧ (b.running = true → b.hold = false)

theorem Sound.created (h : b.Sound) {mode : PollMode} (hw : .create mode ∈ b.writes) (result : Except Failure Unit) :
    (b.created mode result).Sound := by
  have hdone := (h.fail (terminated result)).finished (.create mode) (by rwa [fail_writes])
  unfold Board.created refetch
  split
  · exact hdone.refresh
  · exact hdone

theorem Sound.alive_created (h : b.Sound) {mode : PollMode} (hw : .create mode ∈ b.writes) (result : Except Failure Unit)
    (hgood : b.Refetches mode (terminated result)) : (b.created mode result).Alive := by
  have hdone := (h.fail (terminated result)).finished (.create mode) (by rwa [fail_writes])
  have hcount : ((b.fail (terminated result)).finished (.create mode)).mutations = b.mutations - 1 :=
    congrArg (· - 1) (fail_mutations b _)
  have hpos : 0 < b.mutations := by
    rw [h.counted]
    exact List.length_pos_of_mem hw
  unfold Board.created refetch
  cases hover : terminated result with
  | some next =>
    rw [if_neg (by simp)]
    exact fun hr _ => by cases hr
  | none =>
    rw [hover] at hdone hcount
    by_cases hlast : b.mutations = 1
    · obtain ⟨hmode, hhold⟩ := hgood hlast hover
      have hzero : ((b.fail none).finished (.create mode)).mutations = 0 := by omega
      by_cases hrun : mode = .running
      · rw [if_pos ⟨hzero, rfl, hrun⟩]
        have hfree : b.hold = false := hhold (hmode.1 hrun)
        exact hdone.bump.clearTick.alive_run fun hh => by
          rw [show ((b.fail none).finished (.create mode)).bump.clearTick.hold = b.hold from rfl, hfree] at hh
          cases hh
      · rw [if_neg fun hc => hrun hc.2.2]
        exact fun hr _ => absurd (hmode.2 hr) hrun
    · have hmore : ((b.fail none).finished (.create mode)).mutations ≠ 0 := by omega
      rw [if_neg fun hc => hmore hc.1]
      refine fun _ _ => .inr (.inr fun hnil => hmore ?_)
      rw [hdone.counted, hnil]
      rfl

theorem Sound.pause (h : b.Sound) : b.pause.Sound :=
  ⟨h.clearTick.ticks, ⟨fun hr => (by cases hr), fun hr => (by cases hr.1)⟩, fun hne => absurd h.clearTick_ticks hne,
    h.counted, h.polls⟩

theorem Sound.resumed (h : b.Sound) (hc : b.controls = true) :
    ({ b with running := true, mode := .running }.succeeded.bump.armIdle.clearTick : Board).Sound := by
  have hc' : b.mounted = true ∧ b.terminal = none := by simpa [controls] using hc
  obtain ⟨idles, ref, n, he⟩ := armIdle_frame ({ b with running := true, mode := .running } : Board).succeeded.bump
  rw [he]
  exact ⟨h.clearTick.ticks, ⟨fun _ => ⟨rfl, hc'.2, hc'.1⟩, fun _ => rfl⟩, fun hne => absurd h.clearTick_ticks hne,
    h.counted, h.bump.polls⟩

theorem resumed_hold (b : Board) :
    ({ b with running := true, mode := .running }.succeeded.bump.armIdle.clearTick : Board).hold = b.hold ∧
    ({ b with running := true, mode := .running }.succeeded.bump.armIdle.clearTick : Board).mutations = b.mutations := by
  obtain ⟨idles, ref, n, he⟩ := armIdle_frame ({ b with running := true, mode := .running } : Board).succeeded.bump
  rw [he]
  exact ⟨rfl, rfl⟩

theorem Sound.shown (h : b.Sound) : b.shown.Sound ∧ b.shown.Alive := by
  unfold Board.shown
  have hvisible : ({ b with hidden := false } : Board).Sound :=
    ⟨h.ticks, h.running, fun hne => ⟨(h.armed hne).1, rfl⟩, h.counted, h.polls⟩
  split
  · exact ⟨hvisible.bump.clearTick.tick, hvisible.bump.clearTick.alive_tick⟩
  · rename_i hc
    refine ⟨hvisible, fun hr _ => ?_⟩
    exact absurd ⟨(h.running.1 hr).2.2, hr⟩ hc

/-! ## One event -/

/-- **Where the re-arm is not forgotten.**  A create that is the last mutation out is answered with the board running as it
did in the render it was sent from; and then, and at a resume or a retry that no mutation is behind, no press is held. -/
def Unforgotten (b : Board) : Event → Prop
  | .created mode result => b.Refetches mode (terminated result)
  | .resume => b.hold = true → 0 < b.mutations
  | .retry => b.running = true → b.hold = true → 0 < b.mutations
  | _ => True

/-- An event after which no answer to an older poll counts: a mutation, a create, a resume, a retry, and a tab that shows
again while the board runs. -/
def Interrupts (b : Board) : Event → Prop
  | .mutate _ | .create | .resume | .retry => True
  | .show_ => b.mounted = true ∧ b.running = true
  | _ => False

variable {b' : Board} {e : Event}

theorem Sound.ticks_length (h : b.Sound) : b.ticks.length ≤ 1 := by
  have hlen := congrArg List.length h.ticks
  have hle : b.timerRef.toList.length ≤ 1 := by cases b.timerRef <;> simp
  rw [List.length_map] at hlen
  omega

theorem Sound.timeout (h : b.Sound) {timer : Timer} (ht : timer ∈ b.ticks) :
    ({ b with ticks := b.ticks.erase timer, timerRef := none } : Board).Sound := by
  have hone := h.ticks_length
  have hnone : b.ticks.erase timer = [] := by
    rw [← List.length_eq_zero_iff, List.length_erase_of_mem ht]
    omega
  exact ⟨by rw [hnone]; rfl, h.running, fun hne => absurd hnone hne, h.counted, h.polls⟩

theorem Sound.step (h : b.Sound) (hs : DayBoard.step b e = some b') : b'.Sound := by
  cases e <;> simp only [DayBoard.step] at hs
  case hide =>
    cases hs
    have hgone : ∀ hm : b.mounted = false, b.ticks = [] := fun hm => by
      by_contra hne
      have := ((h.running.1 (h.armed hne).1)).2.2
      rw [hm] at this
      cases this
    split
    · exact ⟨h.clearTick.ticks, h.running, fun hne => absurd h.clearTick_ticks hne, h.counted, h.polls⟩
    · rename_i hm
      exact ⟨h.ticks, h.running, fun hne => absurd (hgone (by simpa using hm)) hne, h.counted, h.polls⟩
  case show_ =>
    cases hs
    exact h.shown.1
  case midnight =>
    cases hs
    exact ⟨h.ticks, h.running, h.armed, h.counted, h.polls⟩
  all_goals
    split at hs <;> cases hs
    rename_i hc
  case timeout timer => exact (h.timeout hc).tick
  case idleTimeout timer =>
    exact ⟨h.clearTick.ticks, ⟨fun hr => (by cases hr), fun hr => (by cases hr.1)⟩,
      fun hne => absurd h.clearTick_ticks hne, h.counted, h.polls⟩
  case activity => exact h.armIdle
  case pointerDown => exact ⟨h.ticks, h.running, h.armed, h.counted, h.polls⟩
  case pointerUp => exact ⟨h.ticks, h.running, h.armed, h.counted, h.polls⟩
  case response poll focused result => exact h.loaded poll focused result
  case mutate bookingId => exact h.issue _
  case mutated bookingId result => exact (h.mutated hc result).1
  case create => exact h.issue _
  case created mode result => exact h.created hc result
  case pause => exact h.pause
  case resume => exact (h.resumed hc.1).run
  case retry => exact h.refresh
  case unmount =>
    exact ⟨h.clearTick.ticks, ⟨fun hr => (by cases hr), fun hr => (by cases hr.2.2)⟩,
      fun hne => absurd h.clearTick_ticks hne, h.counted, h.polls⟩

theorem Sound.alive_step (h : b.Sound) (ha : b.Alive) (hgood : b.Unforgotten e)
    (hs : DayBoard.step b e = some b') : b'.Alive := by
  cases e <;> simp only [DayBoard.step] at hs
  case hide =>
    cases hs
    intro _ hh
    split at hh <;> cases hh
  case show_ =>
    cases hs
    exact h.shown.2
  case midnight =>
    cases hs
    exact ha
  all_goals
    split at hs <;> cases hs
    rename_i hc
  case timeout timer => exact (h.timeout hc).alive_tick
  case idleTimeout timer => exact fun hr => by cases hr
  case activity =>
    obtain ⟨idles, ref, n, he⟩ := b.armIdle_frame
    rw [he]
    exact ha
  case pointerDown => exact ha
  case pointerUp => exact ha
  case response poll focused result => exact h.alive_loaded ha poll focused result
  case mutate bookingId => exact alive_issue b _
  case mutated bookingId result => exact (h.mutated hc result).2
  case create => exact alive_issue b _
  case created mode result => exact h.alive_created hc result hgood
  case pause => exact fun hr => by cases hr
  case resume =>
    obtain ⟨hhold, hcount⟩ := b.resumed_hold
    exact (h.resumed hc.1).alive_run fun hh => by
      rw [hcount]
      exact hgood (hhold ▸ hh)
  case retry =>
    intro hr
    have hrun : b.running = true := by
      rcases b.bump.clearTick.run_cases with ⟨-, he⟩ | ⟨-, -, he⟩ | ⟨-, -, day, p, -, he⟩ <;>
        (rw [Board.refresh, he] at hr; exact hr)
    exact h.bump.clearTick.alive_run (fun hh => hgood hrun hh) hr
  case unmount => exact fun hr => by cases hr

/-! ## What is issued and what is applied -/

theorem schedule_issued (b : Board) (ms : Nat) : (b.schedule ms).issued = b.issued := by
  obtain ⟨ticks, ref, n, he⟩ := b.schedule_frame ms
  rw [he]

theorem Sound.issued_step (h : b.Sound) (hgood : b.Unforgotten e) (hs : DayBoard.step b e = some b')
    (hrun : b.running = false) : b'.issued = b.issued ∨ e = .resume ∨ e = .retry := by
  have hrearm : ∀ b : Board, b.rearm.issued = b.issued := fun b => by
    unfold Board.rearm
    split
    · exact schedule_issued _ _
    · rfl
  have hfail : ∀ (b : Board) end_, (b.fail end_).issued = b.issued := fun b end_ => by
    cases end_ <;> rfl
  cases e <;> simp only [DayBoard.step] at hs
  case hide =>
    cases hs
    split <;> exact .inl rfl
  case show_ =>
    cases hs
    unfold Board.shown
    rw [if_neg fun hc => by rw [hrun] at hc; cases hc.2]
    exact .inl rfl
  case midnight =>
    cases hs
    exact .inl rfl
  all_goals
    split at hs <;> cases hs
    rename_i hc
  case timeout timer =>
    exact absurd (h.armed (List.ne_nil_of_mem hc)).1 (by simp [hrun])
  case activity =>
    obtain ⟨idles, ref, n, he⟩ := b.armIdle_frame
    rw [he]
    exact .inl rfl
  case response poll focused result =>
    unfold Board.loaded
    split
    · rw [hrearm]
      cases result with
      | ok items =>
        obtain ⟨rows, stranded, he⟩ := applyRows_frame { b with polls := b.polls.erase poll } poll.stranded focused items
        rw [Board.received, he]
        exact .inl rfl
      | error error =>
        rw [Board.received]
        split
        · exact .inl rfl
        · split <;> exact .inl rfl
    · exact .inl rfl
  case mutated bookingId result =>
    cases result with
    | ok detail => exact .inl (hrearm _)
    | error error => exact .inl ((hrearm _).trans (hfail _ _))
  case created mode result =>
    have hcount : ((b.fail (terminated result)).finished (.create mode)).mutations = b.mutations - 1 :=
      congrArg (· - 1) (fail_mutations b _)
    have hpos : 0 < b.mutations := by
      rw [h.counted]
      exact List.length_pos_of_mem hc
    unfold Board.created refetch
    split
    · rename_i hre
      have hone : b.mutations = 1 := by omega
      have hmode := ((hgood hone hre.2.1).1.1 hre.2.2)
      rw [hrun] at hmode
      cases hmode
    · exact .inl (hfail _ _)
  case resume => exact .inr (.inl rfl)
  case retry => exact .inr (.inr rfl)
  all_goals exact .inl rfl

theorem run_generation (b : Board) : b.generation ≤ b.run.2.generation := by
  rcases b.run_cases with ⟨-, he⟩ | ⟨-, -, he⟩ | ⟨-, -, day, p, hp, he⟩
  · exact Nat.le_of_eq (congrArg (fun x => x.2.generation) he).symm
  · exact Nat.le_of_eq (congrArg (fun x => x.2.generation) he).symm
  · exact Nat.le_trans hp (Nat.le_of_eq (congrArg (fun x => x.2.generation) he).symm)

theorem schedule_generation (b : Board) (ms : Nat) : (b.schedule ms).generation = b.generation := by
  obtain ⟨ticks, ref, n, he⟩ := b.schedule_frame ms
  rw [he]

theorem rearm_generation (b : Board) : b.rearm.generation = b.generation := by
  unfold rearm
  split
  · exact schedule_generation _ _
  · rfl

theorem tick_generation (b : Board) : b.generation ≤ b.tick.generation := by
  unfold tick
  split
  · exact Nat.le_refl _
  · split
    · rw [schedule_generation]
      exact b.run_generation
    · exact b.run_generation

theorem fail_generation (b : Board) (end_ : Option PollTerminal) : (b.fail end_).generation = b.generation := by
  cases end_ <;> rfl

theorem generation_step (hs : DayBoard.step b e = some b') :
    b.generation ≤ b'.generation ∧ (b.Interrupts e → b.generation < b'.generation) := by
  cases e <;> simp only [DayBoard.step] at hs
  case hide =>
    cases hs
    exact ⟨by split <;> exact Nat.le_refl _, (fun h => by cases h)⟩
  case show_ =>
    cases hs
    unfold shown
    by_cases hc : b.mounted = true ∧ b.running = true
    · rw [if_pos hc]
      have hlt : b.generation < (({ b with hidden := false } : Board).bump.clearTick.tick).generation :=
        tick_generation ({ b with hidden := false } : Board).bump.clearTick
      exact ⟨Nat.le_of_lt hlt, fun _ => hlt⟩
    · rw [if_neg hc]
      exact ⟨Nat.le_refl _, fun h => absurd h hc⟩
  case midnight =>
    cases hs
    exact ⟨Nat.le_refl _, (fun h => by cases h)⟩
  all_goals
    split at hs <;> cases hs
    rename_i hc
  case timeout timer =>
    exact ⟨tick_generation { b with ticks := b.ticks.erase timer, timerRef := none }, (fun h => by cases h)⟩
  case activity =>
    obtain ⟨idles, ref, n, he⟩ := b.armIdle_frame
    rw [he]
    exact ⟨Nat.le_refl _, (fun h => by cases h)⟩
  case response poll focused result =>
    refine ⟨?_, (fun h => by cases h)⟩
    unfold loaded
    split
    · rw [rearm_generation]
      cases result with
      | ok items =>
        obtain ⟨rows, stranded, he⟩ := applyRows_frame { b with polls := b.polls.erase poll } poll.stranded focused items
        rw [received, he]
        exact Nat.le_refl _
      | error error =>
        rw [received]
        split
        · exact Nat.le_refl _
        · split <;> exact Nat.le_refl _
    · exact Nat.le_refl _
  case mutate bookingId => exact ⟨Nat.le_succ _, fun _ => Nat.lt_succ_self _⟩
  case create => exact ⟨Nat.le_succ _, fun _ => Nat.lt_succ_self _⟩
  case mutated bookingId result =>
    refine ⟨?_, (fun h => by cases h)⟩
    cases result with
    | ok detail =>
      rw [mutated, rearm_generation]
      exact Nat.le_refl _
    | error error =>
      rw [mutated, rearm_generation]
      exact Nat.le_of_eq (fail_generation _ _).symm
  case created mode result =>
    refine ⟨?_, (fun h => by cases h)⟩
    have hsame : ((b.fail (terminated result)).finished (.create mode)).generation = b.generation := fail_generation _ _
    unfold created refetch
    split
    · have hlt := run_generation ((b.fail (terminated result)).finished (.create mode)).bump.clearTick
      exact Nat.le_trans (Nat.le_succ_of_le (Nat.le_of_eq hsame.symm)) hlt
    · exact Nat.le_of_eq hsame.symm
  case resume =>
    have hlt : b.generation < b.resume.generation := by
      have hrun := run_generation ({ b with running := true, mode := .running } : Board).succeeded.bump.armIdle.clearTick
      obtain ⟨idles, ref, n, he⟩ := armIdle_frame ({ b with running := true, mode := .running } : Board).succeeded.bump
      rw [he] at hrun
      unfold Board.resume
      rw [he]
      exact hrun
    exact ⟨Nat.le_of_lt hlt, fun _ => hlt⟩
  case retry =>
    have hlt : b.generation < b.refresh.generation := run_generation b.bump.clearTick
    exact ⟨Nat.le_of_lt hlt, fun _ => hlt⟩
  all_goals exact ⟨Nat.le_refl _, (fun h => by cases h)⟩

end Board

/-! ## The run -/

variable {A : Board → Event → Prop} {b b₁ b' : Board} {e : Event}

theorem Steps.trans (h : Steps A b b₁) (h' : Steps A b₁ b') : Steps A b b' := by
  induction h' with
  | refl => exact h
  | tail _ hA hs ih => exact ih.tail hA hs

theorem Steps.mono {B : Board → Event → Prop} (hAB : ∀ b e, A b e → B b e) (h : Steps A b b') : Steps B b b' := by
  induction h with
  | refl => exact .refl _
  | tail _ hA hs ih => exact ih.tail (hAB _ _ hA) hs

theorem Steps.generation (h : Steps A b b') : b.generation ≤ b'.generation := by
  induction h with
  | refl => exact Nat.le_refl _
  | tail _ _ hs ih => exact Nat.le_trans ih (Board.generation_step hs).1

theorem mount_eq (hidden : Bool) (today : Int) : mount hidden today =
    { mode := .running, terminal := none, timerRef := none, idleRef := some 0, backoff := POLL_INTERVAL_MS, generation := 0,
      running := true, mutations := 0, hold := false, day := today, rows := none, stranded := [], stale := false,
      loadFailed := false, ticks := [], idles := [⟨0, IDLE_STOP_MS⟩], handles := 1, hidden := hidden, mounted := true,
      today := today, polls := [⟨0, 0, today, false⟩], writes := [], issued := 1 } := by
  simp [mount, Board.run, Board.armIdle, Board.rolled, Board.load, Board.clearIdle, clearTimeout]

theorem mount_sound (hidden : Bool) (today : Int) : (mount hidden today).Sound := by
  rw [mount_eq]
  refine ⟨rfl, by simp, fun hne => absurd rfl hne, rfl, fun p hp => ?_⟩
  cases List.mem_singleton.1 hp
  exact Nat.le_refl _

theorem mount_alive (hidden : Bool) (today : Int) : (mount hidden today).Alive := by
  rw [mount_eq]
  exact fun _ _ => .inr (.inl ⟨_, List.mem_singleton_self _, rfl⟩)

theorem Steps.alive (h : b.Sound) (ha : b.Alive) (hr : Steps Board.Unforgotten b b') : b'.Sound ∧ b'.Alive := by
  induction hr with
  | refl => exact ⟨h, ha⟩
  | tail _ hA hs ih => exact ⟨ih.1.step hs, ih.1.alive_step ih.2 hA hs⟩

theorem loaded_stale {p : Poll} (h : p.generation < b.generation) (focused : Option Nat)
    (result : Except Failure (List OwnerBookingRow)) :
    b.loaded p focused result = { b with polls := b.polls.erase p } := by
  unfold Board.loaded
  rw [if_neg]
  simp only [Board.isCurrent, decide_eq_true_eq]
  omega

/-- **The poll loop neither dies nor paints stale rows**, in every run that forgets no re-arm.  While the board runs in a tab
that shows, a timer is armed, a poll of the current generation is out, or a mutation is; at most one timer is armed; a board
that is paused, idle, ended or gone issues no poll but to a resume or a retry; and no answer is applied to a poll that a
mutation, a create, a resume, a retry or a tab that shows the running board again has come after. -/
theorem poll_loop_lives {hidden : Bool} {today : Int} (hr : Steps Board.Unforgotten (mount hidden today) b) :
    (b.mode = .running → b.terminal = none → b.hidden = false → b.mounted = true →
      b.ticks ≠ [] ∨ (∃ p ∈ b.polls, b.isCurrent p.generation = true) ∨ b.writes ≠ []) ∧
    b.ticks.length ≤ 1 ∧
    (∀ e b', b.Unforgotten e → step b e = some b' → b.mode ≠ .running ∨ b.terminal ≠ none ∨ b.mounted = false →
      b'.issued = b.issued ∨ e = .resume ∨ e = .retry) ∧
    ∀ e b₁ b₂ p, b.Interrupts e → step b e = some b₁ → Reaches b₁ b₂ → p ∈ b.polls → ∀ focused result,
      b₂.loaded p focused result = { b₂ with polls := b₂.polls.erase p } := by
  obtain ⟨hsound, halive⟩ := hr.alive (mount_sound hidden today) (mount_alive hidden today)
  refine ⟨fun hmode hend hhidden hmounted => ?_, hsound.ticks_length, fun e b' hgood hs hoff => ?_,
    fun e b₁ b₂ p hint hs hlater hp focused result => ?_⟩
  · rcases halive (hsound.running.2 ⟨hmode, hend, hmounted⟩) hhidden with ht | ⟨p, hp, hg⟩ | hw
    · exact .inl ht
    · exact .inr (.inl ⟨p, hp, decide_eq_true hg⟩)
    · exact .inr (.inr hw)
  · refine hsound.issued_step hgood hs ?_
    rw [← Bool.not_eq_true, hsound.running]
    rintro ⟨hmode, hend, hmounted⟩
    rcases hoff with hoff | hoff | hoff
    · exact hoff hmode
    · exact hoff hend
    · rw [hmounted] at hoff
      cases hoff
  · have hissued := hsound.polls p hp
    have hmoved := (Board.generation_step hs).2 hint
    exact loaded_stale (Nat.lt_of_le_of_lt hissued (Nat.lt_of_lt_of_le hmoved hlater.generation)) focused result

/-! ## Runs -/

instance (b : Board) (mode : PollMode) (end_ : Option PollTerminal) : Decidable (b.Refetches mode end_) :=
  inferInstanceAs (Decidable (b.mutations = 1 → end_ = none → (mode = .running ↔ b.running = true) ∧ (_ → _)))

instance (b : Board) (e : Event) : Decidable (b.Unforgotten e) :=
  match e with
  | .created mode result => inferInstanceAs (Decidable (b.Refetches mode (Board.terminated result)))
  | .resume => inferInstanceAs (Decidable (_ → _))
  | .retry => inferInstanceAs (Decidable (_ → _ → _))
  | .timeout _ | .idleTimeout _ | .activity | .pointerDown | .pointerUp | .response .. | .mutate _ | .mutated .. | .create
  | .pause | .hide | .show_ | .unmount | .midnight => isTrue trivial

section

variable {A : Board → Event → Prop} [∀ b e, Decidable (A b e)]

theorem steps_of_play {es : List Event} (h : play A b es = some b') : Steps A b b' := by
  have hplay : ∀ (es : List Event) (b0 : Board), Steps A b b0 → play A b0 es = some b' → Steps A b b' := by
    intro es
    induction es with
    | nil =>
      intro b0 hr hp
      cases hp
      exact hr
    | cons e es ih =>
      intro b0 hr hp
      obtain ⟨hA, hp⟩ := Option.ite_none_right_eq_some.1 hp
      obtain ⟨b₁, hs, hrest⟩ := Option.bind_eq_some_iff.1 hp
      exact ih b₁ (hr.tail hA hs) hrest
  exact hplay es b (.refl b) h

theorem reached_of_play (b : Board) (es : List Event) (P : Board → Bool) (h : (play A b es).any P = true) :
    ∃ b', Steps A b b' ∧ P b' = true := by
  obtain ⟨b', hb, hP⟩ := (Option.any_eq_true _ _).1 h
  exact ⟨b', steps_of_play hb, hP⟩

end

def firstLoad : Event := .response ⟨0, 0, 0, false⟩ none (.ok [⟨1, false⟩])

def secondPoll : Poll := ⟨1, 0, 0, false⟩

def secondLoad : Event := .response secondPoll none (.ok [⟨1, true⟩])

def Board.dead (b : Board) : Bool :=
  b.mode = .running ∧ b.terminal = none ∧ b.hidden = false ∧ b.mounted = true ∧ b.ticks = [] ∧ b.writes = [] ∧
    b.polls.all fun p => !b.isCurrent p.generation

/-- A tap while a poll is out, its answer, a pause and a resume: the paused board asks for nothing, the resumed one has a
poll of its own out, and the one from before the tap is dropped when it comes. -/
theorem poll_loop_lives_once : ∃ b₀ b₁ b₂ b₃, Steps Board.Unforgotten (mount false 0) b₀ ∧ secondPoll ∈ b₀.polls ∧
    step b₀ (.mutate 1) = some b₁ ∧ Steps Board.Unforgotten b₁ b₂ ∧ b₂.mode = .paused ∧
    (∀ e b', b₂.Unforgotten e → step b₂ e = some b' → b'.issued = b₂.issued ∨ e = .resume ∨ e = .retry) ∧
    Steps Board.Unforgotten b₂ b₃ ∧ b₃.mode = .running ∧ b₃.rows = some [⟨1, true⟩] ∧ b₃.ticks.length ≤ 1 ∧
    (b₃.ticks ≠ [] ∨ (∃ p ∈ b₃.polls, b₃.isCurrent p.generation = true) ∨ b₃.writes ≠ []) ∧
    ∀ focused result, b₃.loaded secondPoll focused result = { b₃ with polls := b₃.polls.erase secondPoll } := by
  obtain ⟨b₀, h0, hP⟩ := reached_of_play (A := Board.Unforgotten) (mount false 0) [firstLoad, .timeout ⟨1, 5000⟩]
    (fun b₀ => decide (secondPoll ∈ b₀.polls) && (step b₀ (.mutate 1)).any fun (b₁ : Board) =>
      (play Board.Unforgotten b₁ [.mutated 1 (.ok ⟨1, true⟩), .pause]).any fun (b₂ : Board) => decide (b₂.mode = .paused) &&
        (play Board.Unforgotten b₂ [.activity, .resume]).any fun (b₃ : Board) => decide ((b₃.mode = .running ∧ b₃.terminal = none) ∧
          (b₃.hidden = false ∧ b₃.mounted = true) ∧ b₃.rows = some [⟨1, true⟩])) (by decide)
  simp only [Bool.and_eq_true, decide_eq_true_eq, Option.any_eq_true] at hP
  obtain ⟨hpoll, b₁, hs, b₂, hpause, hpaused, b₃, hresume, ⟨hmode, hend⟩, ⟨hhidden, hmounted⟩, hrows⟩ := hP
  have h1 : Steps Board.Unforgotten (mount false 0) b₁ := h0.tail (e := .mutate 1) trivial hs
  have h2 := h1.trans (steps_of_play hpause)
  have h3 := h2.trans (steps_of_play hresume)
  obtain ⟨halive, hticks, -, -⟩ := poll_loop_lives h3
  have hlater : Reaches b₁ b₃ := ((steps_of_play hpause).trans (steps_of_play hresume)).mono fun _ _ _ => trivial
  refine ⟨b₀, b₁, b₂, b₃, h0, hpoll, hs, steps_of_play hpause, hpaused, fun e b' hgood hs' => ?_, steps_of_play hresume, hmode,
    hrows, hticks, halive hmode hend hhidden hmounted, fun focused result => ?_⟩
  · exact (poll_loop_lives h2).2.2.1 e b' hgood hs' (.inl (by rw [hpaused]; decide))
  · exact (poll_loop_lives h0).2.2.2 (.mutate 1) b₁ b₃ _ trivial hs hlater hpoll focused result

/-- **A board can stop for good, and a paused one can ask**: a create sent while the board was paused does not re-arm it when
it has been resumed since; one sent while it ran fetches though it has been paused since; a press that is held swallows the
resume; and a tab that shows a paused board again leaves the poll in the air as good as new. -/
theorem poll_loop_dies :
    (∃ b, Reaches (mount false 0) b ∧ b.dead = true) ∧
    (∃ b b', Reaches (mount false 0) b ∧ b.mode = .paused ∧ step b (.created .running (.ok ())) = some b' ∧
      b'.issued = b.issued + 1) ∧
    (∃ b b', Reaches (mount false 0) b ∧ b.hold = true ∧ step b .resume = some b' ∧ b'.dead = true) ∧
    ∃ b b₁ b₂, Reaches (mount false 0) b ∧ secondPoll ∈ b.polls ∧ step b .show_ = some b₁ ∧
      step b₁ secondLoad = some b₂ ∧ b₁.rows ≠ b₂.rows := by
  refine ⟨reached_of_play (A := fun _ _ => True) (mount false 0)
      [firstLoad, .pause, .create, .resume, .created .paused (.ok ())] Board.dead
    (by decide), ?_, ?_, ?_⟩
  · obtain ⟨b, hr, hb⟩ := reached_of_play (A := fun _ _ => True) (mount false 0) [firstLoad, .create, .pause] (fun b => decide (b.mode = .paused) &&
      (step b (.created .running (.ok ()))).any fun b' => decide (b'.issued = b.issued + 1)) (by decide)
    simp only [Bool.and_eq_true, decide_eq_true_eq, Option.any_eq_true] at hb
    obtain ⟨hmode, b', hs, hissued⟩ := hb
    exact ⟨b, b', hr, hmode, hs, hissued⟩
  · obtain ⟨b, hr, hb⟩ := reached_of_play (A := fun _ _ => True) (mount false 0) [firstLoad, .pause, .pointerDown] (fun b => b.hold &&
      (step b .resume).any Board.dead) (by decide)
    simp only [Bool.and_eq_true, Option.any_eq_true] at hb
    obtain ⟨hhold, b', hs, hdead⟩ := hb
    exact ⟨b, b', hr, hhold, hs, hdead⟩
  · obtain ⟨b, hr, hb⟩ := reached_of_play (A := fun _ _ => True) (mount false 0) [firstLoad, .timeout ⟨1, 5000⟩, .pause, .hide]
      (fun b => decide (secondPoll ∈ b.polls) && (step b .show_).any fun (b₁ : Board) =>
        (step b₁ secondLoad).any fun (b₂ : Board) => decide (b₁.rows ≠ b₂.rows)) (by decide)
    simp only [Bool.and_eq_true, decide_eq_true_eq, Option.any_eq_true] at hb
    obtain ⟨hpoll, b₁, hshow, b₂, hanswer, hrows⟩ := hb
    exact ⟨b, b₁, b₂, hr, hpoll, hshow, hanswer, hrows⟩

end DayBoard
