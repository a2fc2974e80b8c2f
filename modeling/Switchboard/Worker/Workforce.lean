import Switchboard.Worker.Basic
import Switchboard.Worker.Roster

/-!
The workforce: every worker made so far, the tokens they stop by, and the rosters they appear in. A
worker announces itself to its home roster when it starts and leaves it when its last handle is
released.
-/

namespace Switchboard

abbrev RosterId := Nat

structure WorkerOptions where
  threadPrefix : Option String := none
  /-- In bytes; zero leaves it to the system. -/
  stackSize : Nat := 0
  parent : Option StopToken := none
  home : Option RosterId := none
deriving DecidableEq, Repr

structure Member where
  worker : Worker
  home : Option RosterId := none
  /-- The last handle has been released. -/
  released : Bool := false
deriving DecidableEq, Repr

structure Workforce where
  tokens : StopTokens := {}
  members : List Member := []
  rosters : List Roster := []
deriving DecidableEq, Repr

namespace Workforce

def member? (f : Workforce) (w : WorkerId) : Option Member := f.members[w]?

def worker? (f : Workforce) (w : WorkerId) : Option Worker := (f.member? w).map Member.worker

def roster (f : Workforce) (r : RosterId) : Roster := f.rosters[r]?.getD {}

def isAlive (f : Workforce) (w : WorkerId) : Bool := (f.member? w).any fun m => !m.released

/-- A worker that nobody holds any more does not count as running. -/
def isRunning (f : Workforce) (w : WorkerId) : Bool :=
  (f.member? w).any fun m => !m.released && m.worker.isRunning

def shouldStop (f : Workforce) (w : WorkerId) : Bool :=
  (f.worker? w).any fun x => f.tokens.isCancelled x.stop

def setRoster (f : Workforce) (r : RosterId) (roster : Roster) : Workforce :=
  { f with rosters := f.rosters.set r roster }

def update (f : Workforce) (w : WorkerId) (change : Worker → Worker) : Workforce :=
  { f with members := f.members.modify w fun m => { m with worker := change m.worker } }

def addRoster (f : Workforce) : RosterId × Workforce :=
  (f.rosters.length, { f with rosters := f.rosters ++ [{}] })

def hire (f : Workforce) (name : String) (o : WorkerOptions) : WorkerId × Workforce :=
  let (stop, tokens) := f.tokens.derive o.parent
  let worker : Worker := { name, threadName := Worker.threadNameOf o.threadPrefix name, stop }
  (f.members.length, { f with tokens, members := f.members ++ [{ worker, home := o.home }] })

def announce (f : Workforce) (r : RosterId) (w : WorkerId) (thread : ThreadId) : Bool × Workforce :=
  match f.worker? w with
  | none => (false, f)
  | some x =>
    let (new, roster) := (f.roster r).register ⟨w, x.name, thread⟩
    (new, f.setRoster r roster)

/-- Records that the last handle of a worker is gone; its home roster loses the entry. -/
def release (f : Workforce) (w : WorkerId) (homeIsThere : RosterId → Bool) : Workforce :=
  match f.member? w with
  | none => f
  | some m =>
    let f := { f with members := f.members.modify w fun m => { m with released := true } }
    match m.home with
    | some r => if homeIsThere r then f.setRoster r ((f.roster r).unregister w).2 else f
    | none => f

/-- Announces a worker that has been started to its home, if there is one and it is still there. -/
def announceAtHome (f : Workforce) (w : WorkerId) (thread : ThreadId) (homeIsThere : RosterId → Bool) : Workforce :=
  match (f.member? w).bind Member.home with
  | some r => if homeIsThere r then (f.announce r w thread).2 else f
  | none => f

/-- One section of thread `me`'s call on a worker. Starting a worker announces it. -/
def advance (f : Workforce) (me : ThreadId) (now : Nat) (grant : Except String ThreadId) (homeIsThere : RosterId → Bool)
    (w : WorkerId) (c : Worker.Call) : Worker.Move × Workforce :=
  match f.worker? w with
  | none => (.ends .done, f)
  | some x =>
    let (move, tokens, x) := c.advance me now grant f.tokens x
    let f := { f with tokens }.update w fun _ => x
    match c with
    | .announcing thread => (move, f.announceAtHome w thread homeIsThere)
    | _ => (move, f)

def proceed (f : Workforce) (me : ThreadId) (w : WorkerId) (r : Worker.Run) : Worker.Run.Move × Workforce :=
  match f.worker? w with
  | none => (.blocks, f)
  | some x =>
    let (move, x) := r.advance me x
    (move, f.update w fun _ => x)

end Workforce

end Switchboard
