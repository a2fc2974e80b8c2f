import Switchboard.Context.Config
import Switchboard.Worker.Workforce

/-!
Contexts: a configuration, a directory, a registry and a roster that may be shared with other contexts,
and a root token from which everything the context makes derives.
-/

namespace Switchboard

abbrev DirectoryId := Nat

abbrev RegistryId := Nat

structure Context where
  config : Config := {}
  devices : DirectoryId
  attributes : RegistryId
  roster : RosterId
  root : StopToken
  /-- Shutdown has been asked for once. -/
  stopped : Bool := false
deriving DecidableEq, Repr

namespace Context

def workerOptions (c : Context) : WorkerOptions where
  threadPrefix := c.config.threadPrefix?
  stackSize := c.config.stackSize?.getD 0
  parent := some c.root
  home := some c.roster

/-! ### Shutting down -/

inductive Shutdown where
  /-- About to look whether this is the first one. -/
  | claiming
  | cancelling
  | listing
  /-- These workers are to be terminated, one after the other; `count` have been so far. -/
  | stopping (rest : List WorkerId) (count : Nat)
deriving DecidableEq, Repr

inductive Stopping where
  | goes (s : Shutdown)
  /-- Terminates a worker, and goes on after that. -/
  | terminates (worker : WorkerId) (s : Shutdown)
  | ends (count : Nat)
deriving DecidableEq, Repr

/-- A second shutdown has nothing to do. -/
def Shutdown.advance (c : Context) (f : Workforce) : Shutdown → Stopping × Context × Workforce
  | claiming => (if c.stopped then .ends 0 else .goes .cancelling, { c with stopped := true }, f)
  | cancelling => (.goes .listing, c, { f with tokens := f.tokens.cancel c.root })
  | listing => (.goes (.stopping ((f.roster c.roster).workers f.isAlive c.config.stopOrder) 0), c, f)
  | stopping (w :: rest) count => (.terminates w (.stopping rest (count + 1)), c, f)
  | stopping [] count => (.ends count, c, f)

end Context

end Switchboard
