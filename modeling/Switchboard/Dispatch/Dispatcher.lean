import Switchboard.Dispatch.Backlog
import Switchboard.Dispatch.Error
import Switchboard.Threads

/-!
Dispatchers: a gate, a backlog and at most one bound handler. Each function here is one critical
section: nothing else touches the dispatcher while it runs, and no handler is called inside it. At
most one thread drains; while it does, new items queue behind the backlog.
-/

namespace Switchboard.Dispatch

/-- Whether items are let through, and which thread hands out the backlog. -/
structure Gate where
  suspended : Bool := false
  drainer : Option ThreadId := none
deriving DecidableEq, Repr

/-- New items go to the backlog. -/
def Gate.queues (g : Gate) : Bool := g.suspended || g.drainer.isSome

/-- A dispatcher of items `ι` kept in a backlog `β` and handed to handlers `η`. The preset item is the
one sent when the caller brings none. -/
structure Dispatcher (β ι η : Type) where
  gate : Gate := {}
  backlog : β
  handler : Option η := none
  preset : Option ι := none
deriving DecidableEq, Repr

namespace Dispatcher

variable {β ι η : Type} [Backlog β ι]

/-- Active and unbound, with nothing to deliver. -/
def idle : Dispatcher β ι η := { backlog := Backlog.empty }

def pending (d : Dispatcher β ι η) : Nat := Backlog.size d.backlog

/-! ### Admission -/

inductive Admission (η : Type) where
  | queued
  | handed (h : η)
  | refused

/-- An item is queued, or goes straight to the handler bound now, or has nowhere to go. -/
def offer (d : Dispatcher β ι η) (x : ι) : Admission η × Dispatcher β ι η :=
  if d.gate.queues then (.queued, { d with backlog := Backlog.push d.backlog x })
  else match d.handler with
    | some h => (.handed h, d)
    | none => (.refused, d)

/-! ### The gate -/

def suspend (d : Dispatcher β ι η) : Dispatcher β ι η := { d with gate := { d.gate with suspended := true } }

def reopen (d : Dispatcher β ι η) : Dispatcher β ι η := { d with gate := { d.gate with suspended := false } }

/-- Reopens the gate and empties the backlog; the count says how many items were dropped. A drain under
way finds nothing more to take. -/
def discard (d : Dispatcher β ι η) : Nat × Dispatcher β ι η :=
  (d.pending, { d.reopen with backlog := Backlog.empty })

def bind (d : Dispatcher β ι η) (h : η) (suspended : Bool) : Dispatcher β ι η :=
  if suspended then { d.suspend with handler := some h } else { d with handler := some h }

/-! ### The drain -/

inductive Claim where
  | drain
  | wait
  | done
deriving DecidableEq, Repr

/-- Reopens the gate and decides who drains: another thread's drain is waited for, one's own is left
to go on, and an empty backlog needs none. -/
def claim (d : Dispatcher β ι η) (me : ThreadId) : Claim × Dispatcher β ι η :=
  match d.gate.drainer with
  | some t => (if t = me then .done else .wait, d.reopen)
  | none =>
    if d.pending = 0 then (.done, d.reopen)
    else (.drain, { d with gate := { suspended := false, drainer := some me } })

inductive Taken (ι η : Type) where
  | stopped
  | item (x : ι) (h : Option η)

/-- Takes the next item for the handler bound now, or ends the drain: at the end of the backlog, or
when the gate was closed meanwhile. -/
def take (d : Dispatcher β ι η) : Taken ι η × Dispatcher β ι η :=
  let stop := { d with gate := { d.gate with drainer := none } }
  if d.gate.suspended then (.stopped, stop)
  else match Backlog.pop? d.backlog with
    | none => (.stopped, stop)
    | some (x, rest) => (.item x d.handler, { d with backlog := rest })

end Dispatcher

end Switchboard.Dispatch
