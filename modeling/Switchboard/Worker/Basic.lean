import Switchboard.Threads
import Switchboard.Worker.StopToken

/-!
Workers: a body that runs on a thread of its own, at most once. A worker sleeps until it is signaled
or asked to stop; a signal sent to nobody is kept for the next sleeper, and several are one. Each
function here is one critical section; a call that takes several is at a stage between two of them, and
so is the thread that the body runs on.
-/

namespace Switchboard

inductive Lifecycle where
  | idle
  | running
  | exited
deriving DecidableEq, Repr

structure Worker where
  name : String
  /-- The name its thread is known by to the system. -/
  threadName : String
  stop : StopToken
  lifecycle : Lifecycle := .idle
  /-- The thread that is starting the worker. It holds the lifecycle: nobody else can look at it or change it. -/
  starter : Option ThreadId := none
  /-- The body is there to be taken. -/
  hasBody : Bool := true
  /-- The thread the body runs on, once it has begun. -/
  thread : Option ThreadId := none
  /-- The thread to wait for: left here by the call that started it, until another takes it away. -/
  handle : Option ThreadId := none
  /-- The thread has come to its end. -/
  finished : Bool := false
  signaled : Bool := false
  /-- The threads asleep in this worker's waits that nobody has woken yet, oldest first. -/
  sleepers : List ThreadId := []
deriving DecidableEq, Repr

namespace Worker

/-- A thread is named after its worker, behind the prefix if there is one. -/
def threadNameOf (lead : Option String) (name : String) : String :=
  match lead with
  | some p => if p.isEmpty then name else s!"{p}-{name}"
  | none => name

/-- A thread cannot be made with a name that has a NUL in it: to ask for one panics. -/
def isNameable (w : Worker) : Bool := !w.threadName.contains '\x00'

def isRunning (w : Worker) : Bool := w.lifecycle == .running

def hasExited (w : Worker) : Bool := w.lifecycle == .exited

/-! ### Lifecycle -/

def begin (w : Worker) (thread : ThreadId) : Worker := { w with thread := some thread }

/-- Takes the body and tells whether it was there. -/
def takeBody (w : Worker) : Bool × Worker := (w.hasBody, { w with hasBody := false })

/-- The body is over, however it ended. -/
def exit (w : Worker) : Worker := { w with lifecycle := .exited }

def close (w : Worker) : Worker := { w with finished := true }

/-- The thread that was started is made known to be running, and the lifecycle is let go. -/
def publish (w : Worker) : Worker := { w with lifecycle := .running, starter := none }

/-- A terminating call has to wait: somebody is about to start the worker, or it runs. -/
def isBusy (w : Worker) : Bool := w.starter.isSome || w.isRunning

inductive Run where
  | beginning
  | taking
  /-- The body has the thread, until it returns or panics. -/
  | body
  | exiting
  | closing
deriving DecidableEq, Repr

namespace Run

inductive Move where
  | goes (r : Run)
  | ends
  | blocks
deriving DecidableEq, Repr

/-- One section of the thread of a worker, `me`, outside the body. -/
def advance (me : ThreadId) (w : Worker) : Run → Move × Worker
  | beginning => (.goes .taking, w.begin me)
  | taking =>
    let (there, w) := w.takeBody
    (.goes (if there then .body else .exiting), w)
  | body => (.blocks, w)
  | exiting => if w.starter.isSome then (.blocks, w) else (.goes .closing, w.exit)
  | closing => (.ends, w.close)

end Run

/-! ### Sleeping and waking -/

def mayWake (w : Worker) (stopped : Bool) : Bool := w.signaled || stopped

/-- A sleeper that wakes uses up the signal. -/
def wake (w : Worker) : Worker := { w with signaled := false }

def fallAsleep (w : Worker) (me : ThreadId) : Worker := { w with sleepers := w.sleepers ++ [me] }

/-- The signal is kept, and one sleeper is told to look. A system may choose any of them; the choice made here is the one
that has slept longest. -/
def signal (w : Worker) : Worker := { w with signaled := true, sleepers := w.sleepers.drop 1 }

def wakeAll (w : Worker) : Worker := { w with sleepers := [] }

/-! ### Calls of several sections -/

/-- A call that starts, sleeps or terminates, between two sections. -/
inductive Call where
  /-- About to look whether the worker is idle. -/
  | starting
  /-- The thread is there; the lifecycle is held. -/
  | publishing (thread : ThreadId)
  | announcing (thread : ThreadId)
  | keeping (thread : ThreadId)
  /-- About to sleep, until a time limit if there is one. -/
  | settling (until? : Option Nat)
  | sleeping (until? : Option Nat)
  | cancelling
  | waking
  /-- About to look whether this is the worker's own thread. -/
  | recognizing
  | awaiting
  | collecting
  | joining
deriving DecidableEq, Repr

inductive Result where
  | done
  /-- A sleep was ended by a signal or a request to stop. -/
  | woken
  | timedOut
  /-- The system has refused a thread. -/
  | refused (reason : String)
deriving DecidableEq, Repr

inductive Move where
  | goes (c : Call)
  /-- A thread has been set going, at its beginning. -/
  | spawns (thread : ThreadId) (c : Call)
  | ends (r : Result)
  | blocks
deriving DecidableEq, Repr

/-- Starts an idle worker on the thread that the system grants; the lifecycle is held until that is known to all. -/
def launch (w : Worker) (me : ThreadId) (grant : Except String ThreadId) : Move × Worker :=
  if w.starter.isSome then (.blocks, w)
  else if w.lifecycle = .idle then
    match grant with
    | .ok thread => (.spawns thread (.publishing thread), { w with starter := some me })
    | .error reason => (.ends (.refused reason), w)
  else (.ends .done, w)

/-- Looks whether to sleep on: a stop request or a signal ends the sleep, then the time limit. -/
def look (w : Worker) (me : ThreadId) (now : Nat) (stopped : Bool) (until? : Option Nat) : Move × Worker :=
  if w.mayWake stopped then (.ends .woken, w.wake)
  else if until?.any (· ≤ now) then (.ends .timedOut, w.wake)
  else (.goes (.sleeping until?), w.fallAsleep me)

/-- One section of thread `me`'s call on a worker. Asked for a thread, the system grants one or refuses. -/
def Call.advance (me : ThreadId) (now : Nat) (grant : Except String ThreadId) (ts : StopTokens) (w : Worker) :
    Call → Move × StopTokens × Worker
  | starting =>
    let (move, w) := w.launch me grant
    (move, ts, w)
  | publishing thread => (.goes (.announcing thread), ts, w.publish)
  | announcing thread => (.goes (.keeping thread), ts, w)
  | keeping thread => (.ends .done, ts, { w with handle := some thread })
  | settling until? =>
    let (move, w) := w.look me now (ts.isCancelled w.stop) until?
    (move, ts, w)
  | sleeping until? =>
    if w.sleepers.contains me then
      if until?.any (· ≤ now) then
        let (move, w) := look { w with sleepers := w.sleepers.erase me } me now (ts.isCancelled w.stop) until?
        (move, ts, w)
      else (.blocks, ts, w)
    else
      let (move, w) := w.look me now (ts.isCancelled w.stop) until?
      (move, ts, w)
  | cancelling => (.goes .waking, ts.cancel w.stop, w)
  | waking => (.goes .recognizing, ts, w.wakeAll)
  | recognizing => (if w.thread = some me then .ends .done else .goes .awaiting, ts, w)
  | awaiting => (if w.isBusy then .blocks else .goes .collecting, ts, w)
  | collecting => (if w.handle.isSome then .goes .joining else .ends .done, ts, { w with handle := none })
  | joining => (if w.finished then .ends .done else .blocks, ts, w)

end Worker

end Switchboard
