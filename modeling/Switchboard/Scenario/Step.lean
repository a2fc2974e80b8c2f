import Switchboard.Attribute.Descriptor
import Switchboard.Command.Basic
import Switchboard.Command.Range
import Switchboard.Context.Config
import Switchboard.Device.Error

/-!
Scenarios: scripts over named objects, one step after the other on the main thread, with handlers that
play scripts of their own and workers that perform what they are told to. This module holds the words
of a scenario.
-/

namespace Switchboard.Scenario

/-- Objects of a scenario go by names. -/
abbrev Name := String

/-! ### Steps without parts that are steps -/

inductive ContextStep where
  | drop
  | config
  | options
  | shutDown
  | isShuttingDown
  | execute (line : String)
  | list (capability : Option Name)
  | newToken (token : Name)

inductive TokenStep where
  | cancel
  | state

inductive DeviceKind where
  | sensor
  | probe
deriving DecidableEq, Repr

inductive DirectoryStep where
  | register (device : Name) (key : Device.Key) (takeOver : Bool)
  | unregister (device : Name) (key : Device.Key)
  /-- The device found is kept under one more name if one is given. -/
  | lookup (key : Device.Key) (keep : Option Name)
  | first (c : Device.Class) (keep : Option Name)
  | lookupKind (key : Device.Key) (kind : DeviceKind)
  | size (c : Device.Class)
  | isEmpty
  | dump (c : Option Device.Class)
  | attach (guard device : Name) (takeOver : Bool)

inductive GuardStep where
  | addInterface (key : Device.Key) (takeOver : Bool)
  | keys
  | drop

inductive AttributeStep where
  | register (owner : Option Name) (d : Attribute.Descriptor)
  /-- The table may be that of another capability. -/
  | registerTable (owner : Name) (table : Name)
  | unregister (name : String) (release : Bool)
  | unregisterOwner (owner : Name)
  | dispatch (name : String) (mode : Attribute.Mode) (value : Option String)
  | execute (line radix : String)
  | descriptor (name : String)
  | state
  | list (owner : Option Name) (radix : String)

inductive CapabilityStep where
  | drop
  | query (name : String) (mode : Attribute.Mode) (value : Option String)

inductive HandlerStep where
  | info
  | notify (c : Command)
  | accept (c : Command)
  | auditText
  /-- Gives up the name of an audit trail, and its content if nothing else holds it. -/
  | auditTake

/-- Events and commands have dispatchers of their own. -/
inductive Stream where
  | events
  | commands
deriving DecidableEq, Repr

inductive DispatchStep where
  | drop
  | bind (handler : Name) (suspended : Bool)
  | dispatch (c : Command)
  | dispatchKept (kept : Name)
  | dispatchPreset
  | suspend
  | resume (discard : Bool)
  | state
  | setPreset (c : Command)
  | clearPreset
  | add (member : Name)
  | remove (member : Name)
  | awaitActive

inductive Body where
  /-- Returns at once. -/
  | instant
  | panic
  /-- Sleeps until it is to stop. -/
  | park
  /-- Performs the acts it is sent until it is to stop. -/
  | puppet
deriving DecidableEq, Repr

structure WorkerSpec where
  name : String
  body : Body := .puppet
  context : Option Name := none
  threadPrefix : Option String := none
  stackSize : Nat := 0
  parent : Option Name := none
  /-- The context whose roster is the worker's home. -/
  home : Option Name := none

structure GeneratorSpec where
  name : String
  stream : Stream := .events
  body : Body := .puppet
  context : Option Name := none
  /-- In milliseconds. -/
  period : Option Nat := none

inductive WorkerStep where
  | start
  | terminate
  | signal
  | state
  | debug
  | drop
  | await
  | pollHere (ms : Nat)
  | suspendHere
  | bind (dispatcher : Name)
  | enable
  | disable
  | endAct
  | isBlocked

inductive RosterStep where
  | register (worker : Name)
  | unregister (worker : Name)
  | state
  | text
  | workers (order : StopOrder)
  | prune

inductive GateStep where
  /-- Marks the gate as reached and waits for it to be opened. -/
  | pass
  | awaitReached
  | openUp

/-! ### Steps -/

/-- What a worker in the hands of the main thread can be told to do; `σ` are the steps it can perform. -/
inductive Act (σ : Type) where
  | shouldStop
  | suspend
  | pollFor (ms : Nat)
  | threadName
  | terminateSelf
  | step (s : σ)
  | finish
  | panic
  | notify (c : Command)
  | notifyKept (kept : Name)
  | poll
  | period
  | info

inductive RowKind where
  /-- Reads and writes a value. -/
  | store
  /-- Stores up to three digits. -/
  | digits
  /-- Reads how often it was read since it was last written. -/
  | count
  /-- Fails with its value for a reason. -/
  | fail
  /-- Performs a step when read. -/
  | run
deriving DecidableEq, Repr

structure RowSpec (σ : Type) where
  descriptor : Attribute.Descriptor
  kind : RowKind := .store
  value : String := ""
  step : Option σ := none

structure ScriptSpec (σ : Type) where
  range : Command.Range := .all
  /-- What is played at the first, second, … accepted notification. -/
  script : List (List σ) := []
  /-- The accepted commands that are refused in the end. -/
  failOn : List Nat := []

structure DiskSpec where
  range : Command.Range := .all
  chunk : Option Nat := none
  writes : Option Nat := none
  failsFlush : Bool := false

inductive Step where
  /-- Registries not shared with another context are made new. -/
  | newContext (name : Name) (config : Config) (devices attributes roster : Option Name)
  | context (name : Name) (s : ContextStep)
  | token (name : Name) (s : TokenStep)
  | newDevice (name : Name) (key : Device.Key) (label : String) (kind : DeviceKind)
  | dropDevice (name : Name)
  | directory (context : Name) (s : DirectoryStep)
  | guard (name : Name) (s : GuardStep)
  | newCapability (name : Name) (owner : String) (raw : Bool) (rows : List (RowSpec Step))
  | capability (name : Name) (s : CapabilityStep)
  | attribute (context : Name) (s : AttributeStep)
  | newScripted (name : Name) (spec : ScriptSpec Step)
  | newTrail (name : Name) (spec : DiskSpec)
  | newLog (name : Name)
  | handler (name : Name) (s : HandlerStep)
  | newDispatcher (name : Name) (stream : Stream) (handler : Option Name) (suspended : Bool)
  | newFanOut (name : Name) (stream : Stream)
  | dispatcher (name : Name) (s : DispatchStep)
  | keepCommand (name : Name) (c : Command)
  | showCommand (name : Name)
  | mintEvent
  | newWorker (name : Name) (spec : WorkerSpec)
  | newGenerator (name : Name) (spec : GeneratorSpec)
  | worker (name : Name) (s : WorkerStep)
  | act (worker : Name) (a : Act Step)
  | beginAct (worker : Name) (a : Act Step)
  | roster (context : Name) (s : RosterStep)
  | gate (name : Name) (s : GateStep)

end Switchboard.Scenario
