import Switchboard.Text.Blank
import Switchboard.Threads

/-!
Rosters: the workers that have announced themselves, in order. A roster keeps no worker alive and
stores no state: whether a worker runs is asked of the worker.
-/

namespace Switchboard

abbrev WorkerId := Nat

inductive StopOrder where
  /-- The worker that came last first. -/
  | reverse
  | registration
deriving DecidableEq, Repr

namespace Roster

structure Entry where
  worker : WorkerId
  name : String
  thread : ThreadId
deriving DecidableEq, Repr

end Roster

structure Roster where
  entries : List Roster.Entry := []
deriving DecidableEq, Repr

namespace Roster

def size (r : Roster) : Nat := r.entries.length

/-- Enters a worker, unless it is there already. -/
def register (r : Roster) (e : Entry) : Bool × Roster :=
  if r.entries.any fun old => old.worker == e.worker then (false, r) else (true, ⟨r.entries ++ [e]⟩)

def unregister (r : Roster) (worker : WorkerId) : Bool × Roster :=
  (r.entries.any fun e => e.worker == worker, ⟨r.entries.filter fun e => e.worker != worker⟩)

def dump (r : Roster) (running : WorkerId → Bool) : List (Entry × Bool) :=
  r.entries.map fun e => (e, running e.worker)

def runningCount (r : Roster) (running : WorkerId → Bool) : Nat :=
  ((r.dump running).filter Prod.snd).length

def stateLabel (running : Bool) : String := if running then "running" else "terminated"

/-- One line for each entry: worker, name, state and thread. -/
def dumpText (r : Roster) (running : WorkerId → Bool) (label : WorkerId → String)
    (threadLabel : ThreadId → String) : String :=
  String.join ((r.dump running).map fun (e, runs) =>
    s!"{label e.worker} {Text.column 24 e.name} {Text.column 12 (stateLabel runs)} {threadLabel e.thread}\n")

/-- The workers of which a handle is left, in the given order. -/
def workers (r : Roster) (alive : WorkerId → Bool) (order : StopOrder) : List WorkerId :=
  let live := (r.entries.map Entry.worker).filter alive
  match order with
  | .registration => live
  | .reverse => live.reverse

/-- Removes the entries whose worker does not run and tells how many they were. -/
def prune (r : Roster) (running : WorkerId → Bool) : Nat × Roster :=
  let kept := r.entries.filter fun e => running e.worker
  (r.entries.length - kept.length, ⟨kept⟩)

end Roster

end Switchboard
