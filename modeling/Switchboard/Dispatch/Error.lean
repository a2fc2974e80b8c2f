import Switchboard.Command.Range

/-!
What can go wrong when a notification is dispatched.
-/

namespace Switchboard.Dispatch

inductive Error where
  /-- No handler, no preset command, or no dispatcher is bound. -/
  | notConfigured
  | illegalCommand (type : UInt16) (accepted : Command.Range)
  | outOfMemory
  /-- The system refused a thread. -/
  | spawnFailed (reason : String)
  | handlerFailed (handler reason : String)
deriving DecidableEq, Repr

namespace Error

def label : Error → String
  | notConfigured => "bus_not_configured"
  | illegalCommand .. => "bus_illegal_command"
  | outOfMemory => "bus_out_of_memory"
  | spawnFailed .. => "bus_spawn_failed"
  | handlerFailed .. => "bus_handler_failed"

def message : Error → String
  | notConfigured => "not configured"
  | illegalCommand type accepted => s!"illegal command {type.toNat}; handler accepts {accepted}"
  | outOfMemory => "out of memory"
  | spawnFailed reason => s!"spawn failed: {reason}"
  | handlerFailed handler reason => s!"handler {handler} failed: {reason}"

end Error

end Switchboard.Dispatch
