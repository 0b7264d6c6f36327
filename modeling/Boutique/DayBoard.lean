import Mathlib.Data.List.InsertIdx
import Mathlib.Data.List.Basic
/-!
# DayBoard — the day board and its poll loop

The hook `usePoll` with its refs, the board that gives it its `run`, and the browser under both: the timers that are armed,
the tab, the requests in the air.  A request is answered in an event of its own, however late.
-/
namespace DayBoard

/-! ## The hook -/

def POLL_INTERVAL_MS : Nat := 5000
def MAX_BACKOFF_MS : Nat := 60000
def IDLE_STOP_MS : Nat := 600000

inductive PollMode
  | running | paused | idle
deriving DecidableEq

inductive PollTerminal
  | session | access
deriving DecidableEq

/-- What one tick decided: `taken` is the source's `void`. -/
inductive TickOutcome
  | taken | held | suppressed
deriving DecidableEq

inductive Failure
  | api (status : Nat)
  | other
deriving DecidableEq

def terminalOf : Failure → Option PollTerminal
  | .other => none
  | .api status => if status = 401 then some .session else if status = 403 then some .access else none

structure OwnerBookingRow where
  id : Nat
  checkedIn : Bool
deriving DecidableEq

structure Timer where
  handle : Nat
  ms : Nat
deriving DecidableEq

/-- A poll in the air: the generation and the day it was issued under, and whether rows were stranded when it was. -/
structure Poll where
  id : Nat
  generation : Nat
  day : Int
  stranded : Bool
deriving DecidableEq

/-- A mutation in the air.  A create remembers the mode of the render it was called from. -/
inductive Mutation
  | mutate (bookingId : Nat)
  | create (mode : PollMode)
deriving DecidableEq

/-- **The board**: the hook's state and refs, the section's, the browser's. -/
structure Board where
  mode : PollMode
  terminal : Option PollTerminal
  timerRef : Option Nat
  idleRef : Option Nat
  backoff : Nat
  generation : Nat
  running : Bool
  mutations : Nat
  hold : Bool
  day : Int
  rows : Option (List OwnerBookingRow)
  stranded : List Nat
  stale : Bool
  loadFailed : Bool
  ticks : List Timer
  idles : List Timer
  handles : Nat
  hidden : Bool
  mounted : Bool
  today : Int
  polls : List Poll
  writes : List Mutation
  issued : Nat
deriving DecidableEq

def clearTimeout (ref : Option Nat) (timers : List Timer) : List Timer :=
  timers.filter fun timer => some timer.handle ≠ ref

namespace Board

variable (b : Board)

def clearTick : Board := { b with ticks := clearTimeout b.timerRef b.ticks, timerRef := none }

def clearIdle : Board := { b with idles := clearTimeout b.idleRef b.idles, idleRef := none }

def schedule (ms : Nat) : Board :=
  if ¬b.running ∨ b.hidden then b.clearTick
  else { b.clearTick with
    ticks := b.clearTick.ticks ++ [⟨b.handles, ms⟩], timerRef := some b.handles, handles := b.handles + 1 }

def armIdle : Board :=
  if ¬b.running then b.clearIdle
  else { b.clearIdle with
    idles := b.clearIdle.idles ++ [⟨b.handles, IDLE_STOP_MS⟩], idleRef := some b.handles, handles := b.handles + 1 }

def stop (next : PollTerminal) : Board :=
  { ({ b with running := false }.clearTick.clearIdle) with terminal := some next }

def isCurrent (generation : Nat) : Bool := generation = b.generation

def bump : Board := { b with generation := b.generation + 1 }

def succeeded : Board := { b with backoff := POLL_INTERVAL_MS }

def failed : Board := { b with backoff := min (b.backoff * 2) MAX_BACKOFF_MS }

def reschedule : Board := b.schedule b.backoff

/-! ## The section -/

def load (targetDay : Int) : Board :=
  { b with polls := b.polls ++ [⟨b.issued, b.generation, targetDay, b.stranded ≠ []⟩], issued := b.issued + 1 }

def rolled : Board := if b.today ≠ b.day then { b with day := b.today }.bump else b

def run : TickOutcome × Board :=
  if 0 < b.mutations then (.suppressed, b)
  else if b.hold then (.held, { b with hold := false })
  else (.taken, b.rolled.load b.rolled.day)

def tick : Board :=
  if ¬b.running ∨ b.hidden then b
  else if b.run.1 = .held then b.run.2.schedule b.run.2.backoff
  else b.run.2

def refresh : Board := b.bump.clearTick.run.2

def pause : Board := { ({ b with running := false }.clearTick.clearIdle) with mode := .paused }

def resume : Board :=
  { b with running := true, mode := .running }.succeeded.bump.armIdle.clearTick.run.2

def applyRows (strandedThen : Bool) (focused : Option Nat) (items : List OwnerBookingRow) : Board :=
  match b.rows with
  | none => { b with rows := some items }
  | some current =>
    let held := current.filter fun item => item.id ∉ items.map (·.id) ∧ focused = some item.id
    let next := held.foldl (fun next item => next.insertIdx (min (current.idxOf item) next.length) item) items
    let b := { b with rows := some next }
    if held ≠ [] ∨ strandedThen then { b with stranded := held.map (·.id) } else b

def received (strandedThen : Bool) (focused : Option Nat) : Except Failure (List OwnerBookingRow) → Board
  | .ok items => { (b.applyRows strandedThen focused items) with stale := false, loadFailed := false }.succeeded
  | .error error =>
    match terminalOf error with
    | some next => b.stop next
    | none => (if b.rows = none then { b with loadFailed := true } else { b with stale := true }).failed

def rearm : Board := if b.mutations = 0 then b.reschedule else b

def loaded (poll : Poll) (focused : Option Nat) (result : Except Failure (List OwnerBookingRow)) : Board :=
  if b.isCurrent poll.generation then
    ({ b with polls := b.polls.erase poll }.received poll.stranded focused result).rearm
  else { b with polls := b.polls.erase poll }

def issue (write : Mutation) : Board :=
  { ({ b with mutations := b.mutations + 1 }.clearTick.bump) with writes := b.writes ++ [write] }

def patch (detail : OwnerBookingRow) (rows : List OwnerBookingRow) : List OwnerBookingRow :=
  rows.map fun item => if item.id = detail.id then detail else item

def fail (end_ : Option PollTerminal) : Board :=
  match end_ with
  | some next => b.stop next
  | none => b

def terminated {α : Type} : Except Failure α → Option PollTerminal
  | .ok _ => none
  | .error error => terminalOf error

def finished (write : Mutation) : Board := { b with writes := b.writes.erase write, mutations := b.mutations - 1 }

def mutated (write : Mutation) : Except Failure OwnerBookingRow → Board
  | .ok detail => ({ b with rows := some (patch detail (b.rows.getD [])) }.finished write).rearm
  | .error error => ((b.fail (terminalOf error)).finished write).rearm

def refetch (mode : PollMode) (end_ : Option PollTerminal) : Board :=
  if b.mutations = 0 ∧ end_ = none ∧ mode = .running then b.refresh else b

def created (mode : PollMode) (result : Except Failure Unit) : Board :=
  ((b.fail (terminated result)).finished (.create mode)).refetch mode (terminated result)

def idleStop (timer : Timer) : Board :=
  { ({ b with idles := b.idles.erase timer, idleRef := none, running := false }.clearTick) with mode := .idle }

def shown : Board :=
  if b.mounted ∧ b.running then { b with hidden := false }.bump.clearTick.tick else { b with hidden := false }

def unmount : Board := { ({ b with running := false }.clearTick.clearIdle) with mounted := false }

end Board

/-! ## The system -/

/-- What can happen to a mounted board, and what still can to one that is gone. -/
inductive Event
  | timeout (timer : Timer)
  | idleTimeout (timer : Timer)
  | activity
  | pointerDown
  | pointerUp
  | response (poll : Poll) (focused : Option Nat) (result : Except Failure (List OwnerBookingRow))
  | mutate (bookingId : Nat)
  | mutated (bookingId : Nat) (result : Except Failure OwnerBookingRow)
  | create
  | created (mode : PollMode) (result : Except Failure Unit)
  | pause
  | resume
  | retry
  | hide
  | show_
  | unmount
  | midnight

def Board.controls (b : Board) : Bool := b.mounted ∧ b.terminal = none

/-- **One event**, where the browser can bring it about: a timer fires that is armed, an answer comes to a request that is
out, a control is used that is rendered. -/
def step (b : Board) : Event → Option Board
  | .timeout timer =>
    if timer ∈ b.ticks then some { b with ticks := b.ticks.erase timer, timerRef := none }.tick else none
  | .idleTimeout timer => if timer ∈ b.idles then some (b.idleStop timer) else none
  | .activity => if b.mounted then some b.armIdle else none
  | .pointerDown => if b.controls then some { b with hold := true } else none
  | .pointerUp => if b.controls then some { b with hold := false } else none
  | .response poll focused result => if poll ∈ b.polls then some (b.loaded poll focused result) else none
  | .mutate bookingId =>
    if b.controls ∧ bookingId ∈ (b.rows.getD []).map (·.id) then some (b.issue (.mutate bookingId)) else none
  | .mutated bookingId result =>
    if .mutate bookingId ∈ b.writes then some (b.mutated (.mutate bookingId) result) else none
  | .create => if b.controls ∧ b.rows ≠ none then some (b.issue (.create b.mode)) else none
  | .created mode result => if .create mode ∈ b.writes then some (b.created mode result) else none
  | .pause => if b.controls ∧ b.rows ≠ none ∧ b.mode = .running then some b.pause else none
  | .resume => if b.controls ∧ b.rows ≠ none ∧ b.mode ≠ .running then some b.resume else none
  | .retry => if b.controls ∧ (b.stale ∧ b.mode = .running ∨ b.loadFailed) then some b.refresh else none
  | .hide => some (if b.mounted then { b with hidden := true }.clearTick else { b with hidden := true })
  | .show_ => some b.shown
  | .unmount => if b.mounted then some b.unmount else none
  | .midnight => some { b with today := b.today + 1 }

/-- **The board as it mounts**, in a tab that shows or not, with its first load out and the idle stop armed. -/
def mount (hidden : Bool) (today : Int) : Board :=
  ({ mode := .running, terminal := none, timerRef := none, idleRef := none, backoff := POLL_INTERVAL_MS, generation := 0,
     running := true, mutations := 0, hold := false, day := today, rows := none, stranded := [], stale := false,
     loadFailed := false, ticks := [], idles := [], handles := 0, hidden := hidden, mounted := true, today := today,
     polls := [], writes := [], issued := 0 } : Board).run.2.armIdle

/-- A run from `b` to `b'`, all of whose steps are such as `A` allows. -/
inductive Steps (A : Board → Event → Prop) : Board → Board → Prop
  | refl (b : Board) : Steps A b b
  | tail {b b' b'' : Board} {e : Event} (h : Steps A b b') (hA : A b' e) (hs : step b' e = some b'') : Steps A b b''

abbrev Reaches : Board → Board → Prop := Steps fun _ _ => True

def play (A : Board → Event → Prop) [∀ b e, Decidable (A b e)] (b : Board) : List Event → Option Board
  | [] => some b
  | e :: es => if A b e then (step b e).bind fun b' => play A b' es else none

end DayBoard
