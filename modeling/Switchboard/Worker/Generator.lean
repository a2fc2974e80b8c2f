import Switchboard.Dispatch.Error
import Switchboard.Worker.Basic
import Switchboard.Worker.Roster

/-!
Generators: producers on a worker's thread, bound to one dispatcher. While a generator is disabled
its notifications are counted and dropped; they never reach the dispatcher. Each function here is one
atomic step; a call that takes several is at a stage between two of them.
-/

namespace Switchboard

/-- A producer whose dispatcher is named by a `δ`. -/
structure Generator (δ : Type) where
  worker : WorkerId
  target : Option δ := none
  enabled : Bool := false
  dropped : Nat := 0
  /-- How long the producer sleeps between two productions, in milliseconds. -/
  period : Option Nat := none
deriving DecidableEq, Repr

namespace Generator

variable {δ : Type}

def isBound (g : Generator δ) : Bool := g.target.isSome

def bind (g : Generator δ) (d : δ) : Generator δ := { g with target := some d }

/-- The flag is raised; the caller has checked that a dispatcher is bound. -/
def raise (g : Generator δ) : Generator δ := { g with enabled := true }

def disable (g : Generator δ) : Generator δ := { g with enabled := false }

def drop (g : Generator δ) : Generator δ := { g with dropped := g.dropped + 1 }

/-! ### Enabling -/

inductive Enabling where
  | looking
  | raising
  /-- The flag is up; the worker is to be started. -/
  | starting
  /-- The system has refused a thread. -/
  | lowering (reason : String)
deriving DecidableEq, Repr

inductive Enabled where
  | goes (e : Enabling)
  /-- Starts the worker, and goes on with what that comes to. -/
  | starts
  | ends (verdict : Except Dispatch.Error Unit)

/-- Without a dispatcher the flag stays down. -/
def Enabling.advance (g : Generator δ) : Enabling → Enabled × Generator δ
  | looking => (if g.isBound then .goes .raising else .ends (.error .notConfigured), g)
  | raising => (.goes .starting, g.raise)
  | starting => (.starts, g)
  | lowering reason => (.ends (.error (.spawnFailed reason)), g.disable)

/-- Where an enabling goes on when its start of the worker is over. -/
def Enabling.started : Worker.Result → Enabled
  | .refused reason => .goes (.lowering reason)
  | _ => .ends (.ok ())

/-! ### Producing -/

inductive Production where
  | looking
  | dropping
  | aiming
deriving DecidableEq, Repr

inductive Produced (δ : Type) where
  | goes (p : Production)
  /-- The notification is over and no dispatcher was called. -/
  | nothing
  | sends (d : δ)
deriving DecidableEq, Repr

/-- The flag is read first, the dispatcher only after that. -/
def Production.advance (g : Generator δ) : Production → Produced δ × Generator δ
  | looking => (.goes (if g.enabled then .aiming else .dropping), g)
  | dropping => (.nothing, g.drop)
  | aiming => (match g.target with | some d => .sends d | none => .nothing, g)

end Generator

end Switchboard
