import Switchboard.Scenario.Task

/-!
Dispatcher steps of a scenario. A call runs section by section on the thread that makes it and keeps
its dispatcher alive, and the members of a fan-out until they have been served; what it reports of the
dispatcher is read after it has returned.
-/

namespace Switchboard.Scenario

namespace World

/-! ### Calls in progress -/

def call (w : World) (n : NodeRef) (forEvents : Dispatch.Position Unit HandlerId)
    (forCommands : Dispatch.Position Command HandlerId) (frame : Frame) : Next :=
  ⟨w,
    match n.stream with
    | .events => .eventCall ⟨forEvents, []⟩
    | .commands => .commandCall ⟨forCommands, []⟩,
    [frame]⟩

def request (w : World) (n : NodeRef) (forEvents : Dispatch.Request Unit)
    (forCommands : Dispatch.Request Command) (frame : Frame) : Next :=
  w.call n (.entering n.node forEvents) (.entering n.node forCommands) frame

/-- Sends a command, or an event if the dispatcher is one of events. -/
def send (w : World) (n : NodeRef) (c : Command) (frame : Frame) : Next :=
  w.request n (.dispatch ()) (.dispatch c) frame

/-- A call goes on: it lets go of the member it has served and holds those of the fan-out it enters. -/
def rehold (w : World) (stream : Stream) (served : Option Dispatch.NodeId) (entered : List Dispatch.NodeId) :
    World :=
  let inUse := match served with
    | some m => w.inUse.erase (.dispatcher ⟨stream, m⟩)
    | none => w.inUse
  { w with inUse := entered.map (fun m => .dispatcher ⟨stream, m⟩) ++ inUse }

/-- A call that a panic ends lets go of the members that it was still to serve. -/
def giveUp {ι : Type} (w : World) (stream : Stream) (rounds : List (Dispatch.Round ι)) : World :=
  (rounds.flatMap Dispatch.Round.members).foldl (fun w m => w.rehold stream (some m) []) w

/-- An event call goes on. Events are minted when they reach a handler. -/
def strideEvent (w : World) : Dispatch.Stride Unit HandlerId → Option Next
  | .goes c => some ⟨w, .eventCall c, []⟩
  | .calls h () c =>
    let (e, mint) := w.mint.strike
    some ⟨{ w with mint }, .notify h (.event e), [.eventCall c]⟩
  | .ends r => some ⟨w, .give (.reply r), []⟩
  | .blocks => none

def strideCommand (w : World) : Dispatch.Stride Command HandlerId → Option Next
  | .goes c => some ⟨w, .commandCall c, []⟩
  | .calls h x c => some ⟨w, .notify h (.command x), [.commandCall c]⟩
  | .ends r => some ⟨w, .give (.reply r), []⟩
  | .blocks => none

def advanceEvent (w : World) (me : ThreadId) (c : Dispatch.Call Unit HandlerId) : Option Next :=
  let (stride, events) := w.events.advance me c
  ({ w with events }.rehold .events c.served? (events.entered c)).strideEvent stride

def advanceCommand (w : World) (me : ThreadId) (c : Dispatch.Call Command HandlerId) : Option Next :=
  let (stride, commands) := w.commands.advance me c
  ({ w with commands }.rehold .commands c.served? (commands.entered c)).strideCommand stride

/-! ### Making dispatchers -/

def nameDispatcher (w : World) (name : Name) (n : NodeRef) : World :=
  { w with dispatcherNames := w.dispatcherNames.insert name n }

def addEvents (w : World) (node : Dispatch.Node Nat Unit HandlerId) : NodeRef × World :=
  let (n, events) := w.events.addNode node
  (⟨.events, n⟩, { w with events })

def addCommands (w : World) (node : Dispatch.Node (List Command) Command HandlerId) : NodeRef × World :=
  let (n, commands) := w.commands.addNode node
  (⟨.commands, n⟩, { w with commands })

/-- Nothing can wait in a new dispatcher, so binding its handler hands nothing out. -/
def fresh {β ι : Type} [Dispatch.Backlog β ι] (handler : Option HandlerId) (suspended : Bool) :
    Dispatch.Node β ι HandlerId :=
  .leaf (match handler with
    | some h => Dispatch.Dispatcher.idle.bind h suspended
    | none => .idle)

def makeDispatcher (w : World) (name : Name) (stream : Stream) (handler : Option HandlerId)
    (suspended : Bool) : World :=
  let (n, w) := match stream with
    | .events => w.addEvents (fresh handler suspended)
    | .commands => w.addCommands (fresh handler suspended)
  w.nameDispatcher name n

def newDispatcher (w : World) (name : Name) (stream : Stream) (handler : Option Name) (suspended : Bool) : Next :=
  match handler with
  | none => (w.makeDispatcher name stream none suspended).answer .done
  | some wanted =>
    match w.handler? wanted with
    | some (h, _) => (w.makeDispatcher name stream (some h) suspended).answer .done
    | none => w.answer (unknown "handler" wanted)

def newFanOut (w : World) (name : Name) (stream : Stream) : World :=
  let (n, w) := match stream with
    | .events => w.addEvents (.fanOut [])
    | .commands => w.addCommands (.fanOut [])
  w.nameDispatcher name n

/-! ### Parts of a dispatcher -/

def preset? (w : World) (n : NodeRef) : Option Command :=
  match n.stream with
  | .events => none
  | .commands => (w.commands.leaf? n.node).bind fun d => d.preset

def setPreset (w : World) (n : NodeRef) (c : Option Command) : World :=
  match n.stream, w.commands.leaf? n.node with
  | .commands, some d => { w with commands := w.commands.setLeaf n.node { d with preset := c } }
  | _, _ => w

def join (w : World) (n member : NodeRef) : World :=
  match n.stream with
  | .events => { w with events := w.events.join n.node member.node }
  | .commands => { w with commands := w.commands.join n.node member.node }

def leave (w : World) (n member : NodeRef) : Bool × World :=
  match n.stream with
  | .events =>
    let (present, events) := w.events.leave n.node member.node
    (present, { w with events })
  | .commands =>
    let (present, commands) := w.commands.leave n.node member.node
    (present, { w with commands })

def dispatcherView (w : World) (n : NodeRef) (is : Answer) : Answer :=
  .dispatcher is (w.isSuspended n) (w.pending n)

def membersView (w : World) (n : NodeRef) (is : Answer) : Answer :=
  .members is (w.membersOf n).length (w.membersOf n).isEmpty

/-! ### Steps -/

def performOnDispatcher (w : World) (name : Name) (n : NodeRef) : DispatchStep → Next
  | .drop => { w with dispatcherNames := w.dispatcherNames.erase name }.answer .done
  | .bind handler suspended =>
    match w.handler? handler with
    | none => w.answer (unknown "handler" handler)
    | some (h, _) =>
      w.call n (.at n.node (.binding h suspended)) (.at n.node (.binding h suspended)) (.ofDispatcher n)
  | .dispatch c => w.send n c (.ofDispatcher n)
  | .dispatchKept kept =>
    match w.kept.get? kept with
    | none => w.answer (unknown "command" kept)
    | some c => w.send n c (.ofDispatcher n)
  | .dispatchPreset => w.call n (.at n.node .presetting) (.at n.node .presetting) (.ofDispatcher n)
  | .suspend => w.request n .suspend .suspend (.ofDispatcher n)
  | .resume discard => w.request n (.resume discard) (.resume discard) (.ofDispatcher n)
  | .state => w.answer (w.dispatcherView n .done)
  | .setPreset c => (w.setPreset n (some c)).answer .done
  | .clearPreset =>
    (w.setPreset n none).answer (match w.preset? n with | some c => .command c | none => .absent)
  | .add member =>
    match w.dispatcherNames.get? member with
    | none => w.answer (unknown "dispatcher" member)
    | some m =>
      let w := w.join n m
      w.answer (w.membersView n .done)
  | .remove member =>
    match w.dispatcherNames.get? member with
    | none => w.answer (unknown "dispatcher" member)
    | some m =>
      let (present, w) := w.leave n m
      w.answer (w.membersView n (.flag present))
  | .awaitActive => ⟨w, .await (.active n), [.thenAnswer (.flag true)]⟩

def performDispatcher (w : World) (name : Name) (s : DispatchStep) : Next :=
  match w.dispatcherNames.get? name with
  | none => w.answer (unknown "dispatcher" name)
  | some n => w.using (.dispatcher n) fun w => w.performOnDispatcher name n s

end World

end Switchboard.Scenario
