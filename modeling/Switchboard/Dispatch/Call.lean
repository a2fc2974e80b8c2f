import Switchboard.Dispatch.Dispatcher

/-!
Calls on one dispatcher, section by section. A call is at a phase between two critical sections, or
waits for a handler to return; `Phase.advance` performs one section and `Awaiting.settle` takes up
the call after its handler has returned.
-/

namespace Switchboard.Dispatch

inductive Outcome where
  /-- The handler ran before the call returned. -/
  | delivered
  | queued
deriving DecidableEq, Repr

/-- What one reopening has done: items handed out, items dropped, and the failures in queue order. -/
structure Report where
  delivered : Nat := 0
  discarded : Nat := 0
  failed : List Error := []
deriving DecidableEq, Repr

namespace Report

def merge (a b : Report) : Report :=
  ⟨a.delivered + b.delivered, a.discarded + b.discarded, a.failed ++ b.failed⟩

/-- One more item was handed to a handler, which returned `verdict`. -/
def deliver (r : Report) : Except Error Unit → Report
  | .ok _ => { r with delivered := r.delivered + 1 }
  | .error e => { r with delivered := r.delivered + 1, failed := r.failed ++ [e] }

/-- One more item was taken while no handler was bound. -/
def lose (r : Report) : Report :=
  { r with discarded := r.discarded + 1, failed := r.failed ++ [.notConfigured] }

end Report

inductive Reply where
  | outcome (result : Except Error Outcome)
  | report (r : Report)
  | done

/-- What every dispatcher, simple or not, can be asked. -/
inductive Request (ι : Type) where
  | dispatch (x : ι)
  | suspend
  | resume (discard : Bool)

/-- Where a call stands between two sections. -/
inductive Phase (ι η : Type) where
  | admitting (x : ι)
  /-- The preset item has not been read yet. -/
  | presetting
  | suspending
  | discarding
  | binding (h : η) (suspended : Bool)
  | reopening
  /-- Another thread drains. -/
  | waiting
  | draining (r : Report)

def Request.phase {ι η : Type} : Request ι → Phase ι η
  | .dispatch x => .admitting x
  | .suspend => .suspending
  | .resume true => .discarding
  | .resume false => .reopening

/-- Why a handler runs on behalf of a call. -/
inductive Awaiting where
  | direct
  | drained (r : Report)

inductive Move (ι η : Type) where
  | goes (p : Phase ι η)
  /-- Handler `h` is to be called with `x`; the call goes on when it has returned. -/
  | calls (h : η) (x : ι) (k : Awaiting)
  | ends (r : Reply)
  | blocks

variable {β ι η : Type} [Backlog β ι]

/-- One critical section of thread `me`'s call. -/
def Phase.advance (me : ThreadId) (d : Dispatcher β ι η) : Phase ι η → Move ι η × Dispatcher β ι η
  | admitting x =>
    match d.offer x with
    | (.queued, d) => (.ends (.outcome (.ok .queued)), d)
    | (.handed h, d) => (.calls h x .direct, d)
    | (.refused, d) => (.ends (.outcome (.error .notConfigured)), d)
  | presetting =>
    match d.preset with
    | some x => (.goes (.admitting x), d)
    | none => (.ends (.outcome (.error .notConfigured)), d)
  | suspending => (.ends .done, d.suspend)
  | discarding =>
    let (n, d) := d.discard
    (.ends (.report { discarded := n }), d)
  | binding h suspended => (if suspended then .ends (.report {}) else .goes .reopening, d.bind h suspended)
  | reopening =>
    match d.claim me with
    | (.drain, d) => (.goes (.draining {}), d)
    | (.wait, d) => (.goes .waiting, d)
    | (.done, d) => (.ends (.report {}), d)
  | waiting => (if d.gate.drainer.isSome then .blocks else .ends (.report {}), d)
  | draining r =>
    match d.take with
    | (.stopped, d) => (.ends (.report r), d)
    | (.item x (some h), d) => (.calls h x (.drained r), d)
    | (.item _ none, d) => (.goes (.draining r.lose), d)

def Awaiting.settle (verdict : Except Error Unit) : Awaiting → Move ι η
  | direct => .ends (.outcome (verdict.map fun _ => .delivered))
  | drained r => .goes (.draining (r.deliver verdict))

end Switchboard.Dispatch
