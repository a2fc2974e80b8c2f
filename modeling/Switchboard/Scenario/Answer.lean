import Switchboard.Attribute.Line
import Switchboard.Command.Basic
import Switchboard.Context.Config
import Switchboard.Device.Error
import Switchboard.Dispatch.Call
import Switchboard.Worker.Workforce

/-!
What the steps of a scenario answer, and what is logged while they are performed.
-/

namespace Switchboard.Scenario

/-- A device as it describes itself, with the name it was created under. -/
structure DeviceView where
  createdAs : String
  key : Device.Key
  name : String
deriving DecidableEq, Repr

structure GeneratorView where
  name : String
  bound : Bool
  enabled : Bool
  dropped : Nat
deriving DecidableEq, Repr

structure WorkerView where
  worker : WorkerId
  name : String
  running : Bool
  exited : Bool
  shouldStop : Bool
  generator : Option GeneratorView := none
deriving DecidableEq, Repr

/-- The names a handler goes by in its reports. -/
inductive HandlerName where
  | unnamed
  | one (name : String)
  | two (forCommands forEvents : String)
deriving DecidableEq, Repr

mutual

inductive Answer where
  | done
  | absent
  | flag (b : Bool)
  | count (n : Nat)
  | text (s : String)
  | texts (l : List String)
  | failure (label message : String)
  /-- The scenario itself is at fault. -/
  | fault (message : String)
  | value (s : String)
  | released (d : Option Attribute.Descriptor)
  | descriptor (d : Attribute.Descriptor)
  | registry (size : Nat) (isEmpty : Bool) (owners : List String)
  | response (r : Attribute.Response)
  | config (c : Config)
  | options (o : WorkerOptions)
  | device (d : DeviceView)
  | keys (l : List Device.Key)
  | handler (name : HandlerName) (range : Command.Range)
  | command (c : Command)
  | outcome (o : Dispatch.Outcome)
  | report (r : Dispatch.Report)
  | dispatcher (is : Answer) (suspended : Bool) (pending : Nat)
  | members (is : Answer) (size : Nat) (isEmpty : Bool)
  | worker (v : WorkerView)
  | started (is : Answer) (v : WorkerView)
  | blocked
  | stopping (shouldStop running : Bool)
  | generator (name : String) (enabled : Bool)
  | roster (size : Nat) (isEmpty : Bool) (running : Nat) (dump : List (WorkerId × String × Bool))
  | reply (r : Answer) (log : List LogEntry)

inductive LogEntry where
  | rejected (handler : String) (type : UInt16)
  | command (handler : String) (record : String)
  | event (handler : String) (ordinal : Nat)
  | did (handler : String) (a : Answer)
  | ran (owner : String) (a : Answer)
  | commandSeen (c : Command)
  | eventSeen (ordinal : Nat)

end

def Answer.ofDispatchError (e : Dispatch.Error) : Answer := .failure e.label e.message

def Answer.ofDeviceError (e : Device.Error) : Answer := .failure e.label e.message

def Answer.ofAttributeError (e : Attribute.Error) : Answer := .failure e.label e.message

def Answer.ofVerdict : Except Dispatch.Error Unit → Answer
  | .ok _ => .done
  | .error e => .ofDispatchError e

def Answer.ofReply : Dispatch.Reply → Answer
  | .outcome (.ok o) => .outcome o
  | .outcome (.error e) => .ofDispatchError e
  | .report r => .report r
  | .done => .done

def Answer.ofText : Except Attribute.Error String → Answer
  | .ok s => .value s
  | .error e => .ofAttributeError e

/-- How a worker is called in answers: by its number, from one. -/
def workerLabel (w : WorkerId) : String := s!"w{w + 1}"

end Switchboard.Scenario
