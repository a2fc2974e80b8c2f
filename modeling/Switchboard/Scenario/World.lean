import Switchboard.Attribute.Console
import Switchboard.Attribute.Table
import Switchboard.Audit.Disk
import Switchboard.Audit.Trail
import Switchboard.Context.Basic
import Switchboard.Device.Guard
import Switchboard.Dispatch.Network
import Switchboard.Scenario.Answer
import Switchboard.Scenario.Step
import Switchboard.Worker.Generator

/-!
The world of a scenario: every object made so far and the names it goes by. A name is a handle that
keeps its object alive, and so is a step in progress for what it works on; which objects are alive is
read off the handles, never stored. The dispatchers, registries and rosters themselves hold what the
library says they hold.
-/

namespace Switchboard.Scenario

abbrev HandlerId := Nat

/-! ### Objects -/

structure DeviceObject where
  view : DeviceView
  kind : DeviceKind
deriving Repr

structure RowObject where
  spec : RowSpec Step
  value : String
  reads : Nat := 0

structure Capability where
  owner : String
  /-- Answers every request by repeating it, past the table. -/
  raw : Bool := false
  rows : List RowObject := []

def Capability.table (c : Capability) : List Attribute.Descriptor := c.rows.map fun r => r.spec.descriptor

structure Script where
  spec : ScriptSpec Step
  /-- The notifications accepted so far. -/
  accepted : Nat := 0

inductive HandlerKind where
  | scripted (s : Script)
  | trail (t : Audit.Trail Audit.Disk)
  | log

structure Handler where
  name : Name
  kind : HandlerKind

structure NodeRef where
  stream : Stream
  node : Dispatch.NodeId
deriving DecidableEq, Repr

structure Post where
  body : Body
  generator : Option (Stream × Generator Dispatch.NodeId) := none
  inbox : List (Act Step) := []
  replies : List Answer := []

structure GuardObject where
  home : DirectoryId
  guard : Device.Guard
deriving Repr

structure GateObject where
  reached : Bool := false
  isOpen : Bool := false
deriving Repr

/-- A context that has not been dropped can be shut down; a dropped one is gone. -/
structure ContextObject where
  context : Context
  dropped : Bool := false
deriving Repr

/-- What a step or call in progress works on. It stays alive until that is over, whatever becomes of its
name. -/
inductive Handle where
  | context (i : Nat)
  | capability (o : Attribute.OwnerId)
  | dispatcher (n : NodeRef)
  /-- A worker, or a generator with its worker. -/
  | worker (id : WorkerId)
deriving DecidableEq, Repr

structure World where
  /-- Milliseconds since the scenario began, as far as anybody has waited. -/
  now : Nat := 0
  contexts : List ContextObject := []
  contextNames : OrderedMap Name Nat := {}
  tokens : OrderedMap Name StopToken := {}
  directories : List Device.Directory := []
  devices : List DeviceObject := []
  deviceNames : OrderedMap Name Device.DeviceId := {}
  guards : OrderedMap Name GuardObject := {}
  registries : List Attribute.Registry := []
  capabilities : List Capability := []
  capabilityNames : OrderedMap Name Attribute.OwnerId := {}
  handlers : List Handler := []
  handlerNames : OrderedMap Name HandlerId := {}
  events : Dispatch.Network Nat Unit HandlerId := {}
  commands : Dispatch.Network (List Command) Command HandlerId := {}
  dispatcherNames : OrderedMap Name NodeRef := {}
  kept : OrderedMap Name Command := {}
  mint : Dispatch.Mint := {}
  workforce : Workforce := {}
  posts : List Post := []
  workerNames : OrderedMap Name WorkerId := {}
  /-- Workers held by a call that is about to terminate them. -/
  held : List WorkerId := []
  /-- Workers whose thread is still to be set going. -/
  starting : List WorkerId := []
  /-- What is in use, once for every use; a fan-out in progress uses the members it is still to serve. -/
  inUse : List Handle := []
  gates : OrderedMap Name GateObject := {}
  log : List (ThreadId × LogEntry) := []

namespace World

/-! ### Names -/

def context? (w : World) (name : Name) : Option (Nat × Context) := do
  let i ← w.contextNames.get? name
  let c ← w.contexts[i]?
  return (i, c.context)

def capability? (w : World) (name : Name) : Option (Attribute.OwnerId × Capability) := do
  let o ← w.capabilityNames.get? name
  let c ← w.capabilities[o]?
  return (o, c)

def handler? (w : World) (name : Name) : Option (HandlerId × Handler) := do
  let i ← w.handlerNames.get? name
  let h ← w.handlers[i]?
  return (i, h)

def device? (w : World) (name : Name) : Option (Device.DeviceId × DeviceObject) := do
  let i ← w.deviceNames.get? name
  let d ← w.devices[i]?
  return (i, d)

def generator? (w : World) (id : WorkerId) : Option (Stream × Generator Dispatch.NodeId) :=
  w.posts[id]?.bind Post.generator

/-! ### What is alive -/

def deviceAlive (w : World) (d : Device.DeviceId) : Bool := w.deviceNames.values.contains d

def ownerAlive (w : World) (o : Attribute.OwnerId) : Bool :=
  w.capabilityNames.values.contains o || w.inUse.contains (.capability o)

def directoryAlive (w : World) (d : DirectoryId) : Bool :=
  w.contexts.any fun c => !c.dropped && c.context.devices == d

def rosterAlive (w : World) (r : RosterId) : Bool :=
  w.contexts.any fun c => !c.dropped && c.context.roster == r

def contextHeld (w : World) (i : Nat) : Bool :=
  w.contextNames.values.contains i || w.inUse.contains (.context i)

def hasHandle (w : World) (id : WorkerId) : Bool :=
  w.workerNames.values.contains id || w.inUse.contains (.worker id)

/-- A worker is held by its handles, by its own thread, and by a call that terminates it. -/
def workerHeld (w : World) (id : WorkerId) : Bool :=
  w.hasHandle id || w.held.contains id || w.workforce.isRunning id

def reap (w : World) : World :=
  (List.range w.workforce.members.length).foldl (fun w id =>
    if w.workforce.isAlive id && !w.workerHeld id then
      { w with workforce := w.workforce.release id w.rosterAlive }
    else w) w

/-! ### Which dispatchers are alive -/

def membersOf (w : World) (n : NodeRef) : List NodeRef :=
  (match n.stream with
    | .events => w.events.members? n.node
    | .commands => w.commands.members? n.node).getD [] |>.map fun m => ⟨n.stream, m⟩

def allNodes (w : World) : List NodeRef :=
  (List.range w.events.nodes.length).map (NodeRef.mk .events) ++
    (List.range w.commands.nodes.length).map (NodeRef.mk .commands)

/-- The body of the worker has not ended, and may still be begun if it has not begun. -/
def bodyAlive (w : World) (id : WorkerId) : Bool :=
  w.workforce.isAlive id && (w.workforce.worker? id).any fun x => !x.hasExited

/-- The dispatchers that generators hold. A generator and its body share the binding. -/
def generatorTargets (w : World) : List NodeRef :=
  (List.range w.posts.length).filterMap fun id => do
    let (stream, g) ← w.generator? id
    let n ← g.target
    if w.hasHandle id || w.bodyAlive id then some ⟨stream, n⟩ else none

def dispatchersInUse (w : World) : List NodeRef :=
  w.inUse.filterMap fun h => match h with | .dispatcher n => some n | _ => none

/-- Drops the dispatchers that no name, no step or call, no generator and no remaining fan-out holds. -/
def sweepOnce (w : World) (nodes : List NodeRef) : List NodeRef :=
  let held := w.dispatcherNames.values ++ w.dispatchersInUse ++ w.generatorTargets ++ nodes.flatMap w.membersOf
  nodes.filter held.contains

/-- The dispatchers alive: dropping one fan-out may take its members along. -/
def liveNodes (w : World) : List NodeRef :=
  Nat.repeat w.sweepOnce w.allNodes.length w.allNodes

def boundTo (w : World) (n : NodeRef) : Option HandlerId :=
  match n.stream with
  | .events => (w.events.leaf? n.node).bind fun d => d.handler
  | .commands => (w.commands.leaf? n.node).bind fun d => d.handler

def handlerHeld (w : World) (h : HandlerId) : Bool := w.liveNodes.any fun n => w.boundTo n == some h

/-! ### Dispatchers of either stream -/

def isSuspended (w : World) (n : NodeRef) : Bool :=
  match n.stream with
  | .events => w.events.isSuspended n.node
  | .commands => w.commands.isSuspended n.node

def pending (w : World) (n : NodeRef) : Nat :=
  match n.stream with
  | .events => w.events.pending n.node
  | .commands => w.commands.pending n.node

/-! ### Changes -/

def note (w : World) (me : ThreadId) (e : LogEntry) : World := { w with log := w.log ++ [(me, e)] }

def takeLog (w : World) (me : ThreadId) : List LogEntry × World :=
  ((w.log.filter fun e => e.1 == me).map Prod.snd, { w with log := w.log.filter fun e => e.1 != me })

def hold (w : World) (h : Handle) : World := { w with inUse := h :: w.inUse }

def updatePost (w : World) (id : WorkerId) (change : Post → Post) : World :=
  { w with posts := w.posts.modify id change }

def updateGenerator (w : World) (id : WorkerId)
    (change : Generator Dispatch.NodeId → Generator Dispatch.NodeId) : World :=
  w.updatePost id fun p => { p with generator := p.generator.map fun (s, g) => (s, change g) }

def setDirectory (w : World) (i : DirectoryId) (d : Device.Directory) : World :=
  { w with directories := w.directories.set i d }

def setRegistry (w : World) (i : RegistryId) (r : Attribute.Registry) : World :=
  { w with registries := w.registries.set i r }

def setContext (w : World) (i : Nat) (c : Context) : World :=
  { w with contexts := w.contexts.modify i fun o => { o with context := c } }

def setHandler (w : World) (h : HandlerId) (kind : HandlerKind) : World :=
  { w with handlers := w.handlers.modify h fun o => { o with kind } }

/-! ### Views -/

def deviceView (w : World) (d : Device.DeviceId) : Answer :=
  match w.devices[d]? with
  | some o => .device o.view
  | none => .absent

def workerView (w : World) (id : WorkerId) : WorkerView :=
  match w.workforce.worker? id with
  | none => ⟨id, "", false, false, false, none⟩
  | some x =>
    { worker := id
      name := x.name
      running := x.isRunning
      exited := x.hasExited
      shouldStop := w.workforce.shouldStop id
      generator := (w.generator? id).map fun (_, g) => ⟨x.name, g.isBound, g.enabled, g.dropped⟩ }

end World

def unknown (what : String) (name : Name) : Answer := .fault s!"unknown {what}: {name}"

end Switchboard.Scenario
