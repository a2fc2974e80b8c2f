import Switchboard.Scenario.Contexts
import Switchboard.Scenario.Devices
import Switchboard.Scenario.Dispatchers
import Switchboard.Scenario.Handlers

/-!
Threads of a scenario. A thread takes one step at a time: it performs a section of the library, starts
on a part of its task, or hands a value to the frame on top of its stack. It is blocked when its task
cannot go on before another thread or the clock has moved.
-/

namespace Switchboard.Scenario

structure Thread where
  id : ThreadId
  task : Task
  frames : List Frame := []

namespace World

/-! ### Waiting -/

def gate (w : World) (name : Name) : GateObject := (w.gates.get? name).getD {}

def setGate (w : World) (name : Name) (g : GateObject) : World := { w with gates := w.gates.insert name g }

def hasReplied (w : World) (id : WorkerId) : Bool :=
  (w.posts[id]?).any fun p => !p.replies.isEmpty

def endsByItself : Body → Bool
  | .instant | .panic => true
  | .park | .puppet => false

/-- A worker that never started is settled; one that runs is once its body has begun, unless the body
is about to end. -/
def isSettled (w : World) (id : WorkerId) : Bool :=
  match w.workforce.worker? id, w.posts[id]? with
  | some x, some p =>
    !x.isRunning || (x.thread.isSome && !endsByItself p.body && !w.workforce.shouldStop id)
  | _, _ => true

def holds (w : World) : Condition → Bool
  | .gateReached name => (w.gate name).reached
  | .gateOpen name => (w.gate name).isOpen
  | .active n => !w.isSuspended n
  | .atRest id => !w.workforce.isRunning id
  | .settled id => w.isSettled id
  | .replied id => w.hasReplied id || !w.workforce.isRunning id
  | .repliedOrAt id time => w.hasReplied id || decide (time ≤ w.now)

def performGate (w : World) (name : Name) : GateStep → Next
  | .pass =>
    ⟨w.setGate name { w.gate name with reached := true }, .await (.gateOpen name), [.thenAnswer (.flag true)]⟩
  | .awaitReached => ⟨w, .await (.gateReached name), [.thenAnswer (.flag true)]⟩
  | .openUp => (w.setGate name { w.gate name with isOpen := true }).answer .done

/-! ### Steps -/

def performKept (w : World) (name : Name) : Next :=
  w.answer (match w.kept.get? name with | some c => .command c | none => unknown "command" name)

def perform (w : World) : Step → Next
  | .newContext name config devices attributes roster => w.newContext name config devices attributes roster
  | .context name s => w.performContext name s
  | .token name s => w.performToken name s
  | .newDevice name key label kind => (w.newDevice name key label kind).answer .done
  | .dropDevice name => (w.dropDevice name).answer .done
  | .directory context s =>
    let (a, w) := w.performDirectory context s
    w.answer a
  | .guard name s =>
    let (a, w) := w.performGuard name s
    w.answer a
  | .newCapability name owner raw rows => (w.newCapability name owner raw rows).answer .done
  | .capability name s => w.performCapability name s
  | .attribute context s => w.performAttribute context s
  | .newScripted name spec => w.newHandler name (.scripted { spec })
  | .newTrail name spec => w.newTrail name spec
  | .newLog name => w.newHandler name .log
  | .handler name s => w.performHandler name s
  | .newDispatcher name stream handler suspended => w.newDispatcher name stream handler suspended
  | .newFanOut name stream => (w.newFanOut name stream).answer .done
  | .dispatcher name s => w.performDispatcher name s
  | .keepCommand name c => { w with kept := w.kept.insert name c }.answer .done
  | .showCommand name => w.performKept name
  | .mintEvent =>
    let (e, mint) := w.mint.strike
    { w with mint }.answer (.count e.ordinal)
  | .newWorker name spec => w.newWorker name spec
  | .newGenerator name spec => w.newGenerator name spec
  | .worker name s => w.performWorker name s
  | .act name a => w.performAct name a true
  | .beginAct name a => w.performAct name a false
  | .roster context s => w.performRoster context s
  | .gate name s => w.performGate name s

/-! ### Bodies of workers -/

/-- One step of a generator's notification, up to the call on its dispatcher. -/
def advanceProduction (w : World) (id : WorkerId) (p : Generator.Production) (c : Command) : Next :=
  match w.generator? id with
  | none => w.answer (.fault "not a generator")
  | some (stream, g) =>
    let (outcome, g) := p.advance g
    let w := w.updateGenerator id fun _ => g
    match outcome with
    | .goes p => ⟨w, .produce id p c, []⟩
    | .nothing => w.answer .absent
    | .sends n => w.using (.dispatcher ⟨stream, n⟩) fun w => w.send ⟨stream, n⟩ c .ofProduction

def produceKept (w : World) (id : WorkerId) (kept : Name) : Next :=
  match w.kept.get? kept with
  | some c => ⟨w, .produce id .looking c, []⟩
  | none => w.answer (unknown "command" kept)

def period? (w : World) (id : WorkerId) : Option Nat := (w.generator? id).bind fun (_, g) => g.period

/-- A generator sleeps for its period, or until it is signaled if it has none. -/
def pollPeriod (w : World) (id : WorkerId) : Next :=
  match w.period? id with
  | some p => ⟨w, .onWorker id (.settling (some (w.now + p))), [.ofWoken]⟩
  | none => ⟨w, .onWorker id (.settling none), [.thenAnswer (.flag true)]⟩

def periodView (w : World) (id : WorkerId) : Answer :=
  match w.period? id with
  | some p => .count p
  | none => .absent

def generatorView (w : World) (id : WorkerId) : Answer :=
  match w.generator? id with
  | some (_, g) => .generator (w.workerView id).name g.enabled
  | none => .fault "not a generator"

def reply (w : World) (me : ThreadId) (id : WorkerId) (a : Answer) : World :=
  let (log, w) := w.takeLog me
  w.updatePost id fun p => { p with replies := p.replies ++ [.reply a log] }

/-- A body ends, and its thread with it. One told to return replies as it does, so its worker is at rest when the
reply is there. -/
def leaveBody (w : World) (me : ThreadId) (id : WorkerId) (replies : Bool) : Option World :=
  match w.workforce.proceed me id .exiting with
  | (.goes r, workforce) =>
    let w := if replies then w.reply me id (.text "returning") else w
    some { w with workforce := (workforce.proceed me id r).2 }.reap
  | _ => none

/-- What the body of a worker does when it is sent an act. One that ends the body with a panic leaves
no reply behind. -/
def performAsTold (w : World) (id : WorkerId) : Act Step → Next
  | .finish => ⟨w, .leave id true, []⟩
  | .panic => ⟨w, .leave id false, []⟩
  | .shouldStop => (w.answer (.flag (w.workforce.shouldStop id))).under [.act id]
  | .suspend => ⟨w, .onWorker id (.settling none), [.thenAnswer (.text "woken"), .act id]⟩
  | .pollFor ms => ⟨w, .onWorker id (.settling (some (w.now + ms))), [.ofWoken, .act id]⟩
  | .threadName => (w.answer (.text (((w.workforce.worker? id).map Worker.threadName).getD ""))).under [.act id]
  | .terminateSelf => ⟨w, .onWorker id .cancelling, [.thenStopping id, .act id]⟩
  | .step s => ⟨w, .perform s, [.act id]⟩
  | .notify c => ⟨w, .produce id .looking c, [.act id]⟩
  | .notifyKept kept => (w.produceKept id kept).under [.act id]
  | .poll => (w.pollPeriod id).under [.act id]
  | .period => (w.answer (w.periodView id)).under [.act id]
  | .info => (w.answer (w.generatorView id)).under [.act id]

def runBody (w : World) (id : WorkerId) : Option Next :=
  match w.posts[id]? with
  | none => some ⟨w, .leave id false, []⟩
  | some p =>
    let stopped := w.workforce.shouldStop id
    match p.body, p.inbox with
    | .instant, _ | .panic, _ => some ⟨w, .leave id false, []⟩
    | .park, _ =>
      some (if stopped then ⟨w, .leave id false, []⟩ else ⟨w, .onWorker id (.settling none), [.again id]⟩)
    | .puppet, inbox =>
      if stopped then some ⟨w, .leave id false, []⟩
      else match inbox with
        | [] => none
        | a :: inbox => some ((w.updatePost id fun p => { p with inbox }).performAsTold id a)

/-- One section of a call on a worker. The panic of a start leaves the worker as it was. -/
def advanceWorker (w : World) (me : ThreadId) (id : WorkerId) (c : Worker.Call) : Option Next :=
  let (move, workforce) := w.workforce.advance me w.now (.ok (threadOf id)) w.rosterAlive id c
  match move with
  | .goes c => some ⟨{ w with workforce }, .onWorker id c, []⟩
  | .spawns _ c =>
    if (w.workforce.worker? id).all Worker.isNameable then
      some ⟨{ w with workforce, starting := w.starting ++ [id] }, .onWorker id c, []⟩
    else some ⟨w, .unwind, []⟩
  | .ends r => some ⟨{ w with workforce }, .give (.result r), []⟩
  | .blocks => none

/-- A step or call is over. What it worked on may go with it, before the outcome is given. -/
def release (w : World) (h : Handle) (v : Value) : Next :=
  let w := { w with inUse := w.inUse.erase h }
  match h with
  | .context i => w.releaseContext i v
  | .worker id => w.releaseWorker id v
  | .capability _ | .dispatcher _ => ⟨w, .give v, []⟩

/-- Lets go of a worker that was held until it had been terminated. -/
def letGo (w : World) (id : WorkerId) : World := { w with held := w.held.erase id }.reap

/-- The outcome of an act is there: it is handed over, at the end of the thread if that is near. -/
def collect (w : World) (id : WorkerId) : Next :=
  match w.takeReply id with
  | (none, w) => w.answer (.text "exited")
  | (some r, w) =>
    if w.workforce.shouldStop id then ⟨w, .await (.atRest id), [.thenAnswer r]⟩ else w.answer r

end World

/-! ### Frames -/

def Frame.resume (w : World) (me : ThreadId) (v : Value) : Frame → Option Next
  | .eventCall c =>
    match v with
    | .verdict v => w.strideEvent (c.settle v)
    | _ => none
  | .commandCall c =>
    match v with
    | .verdict v => w.strideCommand (c.settle v)
    | _ => none
  | .script h rest verdict =>
    match v with
    | .answer a => some (w.played me h rest verdict a)
    | _ => none
  | .ofVerdict =>
    match v with
    | .verdict v => some (w.answer (.ofVerdict v))
    | _ => none
  | .ofText =>
    match v with
    | .text t => some (w.answer (.ofText t))
    | _ => none
  | .ofWoken =>
    match v with
    | .result r => some (w.answer (.flag (r == .woken)))
    | _ => none
  | .ofDispatcher n =>
    match v with
    | .reply r => some (w.answer (w.dispatcherView n (.ofReply r)))
    | _ => none
  | .ofProduction =>
    match v with
    | .reply r => some (w.answer (.ofReply r))
    | _ => none
  | .response l =>
    match v with
    | .text t => some (w.answer (.response (l.response t)))
    | _ => none
  | .row o value =>
    match v with
    | .answer a => some (w.rowDone me o value a)
    | _ => none
  | .release h => some (w.release h v)
  | .thenGive v => some ⟨w, .give v, []⟩
  | .thenWorker id => some (w.answer (.worker (w.workerView id)))
  | .thenStarted id => some (w.answer (.started .done (w.workerView id)))
  | .started id wasIdle =>
    match v with
    | .result r => some (w.workerStarted id wasIdle r)
    | _ => none
  | .enabling id wasIdle =>
    match v with
    | .result r => some (w.generatorStarted id wasIdle r)
    | _ => none
  | .thenStopping id => some (w.answer (.stopping (w.workforce.shouldStop id) (w.workforce.isRunning id)))
  | .stopping id i s => some ⟨w.letGo id, .shutDown i s, []⟩
  | .letGo id => some ⟨w.letGo id, .give v, []⟩
  | .contextGone i => some ⟨(w.markDropped i).reap, .give v, []⟩
  | .collect id => some (w.collect id)
  | .probe id =>
    match w.takeReply id with
    | (some r, w) => some (w.answer r)
    | (none, w) => some (w.answer .blocked)
  | .act id =>
    match v with
    | .answer a => some ⟨w.reply me id a, .body id, []⟩
    | _ => none
  | .again id => some ⟨w, .body id, []⟩
  | .unwinding => some ⟨w, .unwind, []⟩

/-- A panic comes past a frame. What a step or call worked on is let go of, and a dispatcher's call just ends: nobody tells
the dispatcher. The body of a worker catches the panic, and is over. -/
def Frame.unwind (w : World) : Frame → Next
  | .eventCall c => ⟨w.giveUp .events c.rounds, .unwind, []⟩
  | .commandCall c => ⟨w.giveUp .commands c.rounds, .unwind, []⟩
  | .release h => (w.release h .met).under [.unwinding]
  | .stopping id .. | .letGo id => ⟨w.letGo id, .unwind, []⟩
  | .contextGone i => ⟨(w.markDropped i).reap, .unwind, []⟩
  | .act id | .again id => ⟨w, .leave id false, []⟩
  | _ => ⟨w, .unwind, []⟩

/-! ### Threads -/

inductive Progress where
  | moved (w : World) (t : Thread)
  | blocked
  /-- A thread with nothing left to do. -/
  | over (w : World) (v : Value)

/-- The next task with the frames under it; without one the thread is blocked. -/
def Task.next (w : World) (me : ThreadId) : Task → Option Next
  | .perform s => some (w.perform s)
  | .eventCall c => w.advanceEvent me c
  | .commandCall c => w.advanceCommand me c
  | .notify h n => some (w.notify me h n)
  | .play h steps verdict => some (w.play h verdict steps)
  | .query o name request => some (w.query o name request)
  | .onWorker id c => w.advanceWorker me id c
  | .enable id e => some (w.advanceEnabling id e)
  | .produce id p c => some (w.advanceProduction id p c)
  | .await c => if w.holds c then some ⟨w, .give .met, []⟩ else none
  | .shutDown i s => some (w.advanceShutdown i s)
  | .body id => w.runBody id
  | .leave .. | .give _ | .unwind => none

def Thread.follow (t : Thread) (frames : List Frame) : Option Next → Progress
  | some next => .moved next.world { t with task := next.task, frames := next.frames ++ frames }
  | none => .blocked

def Thread.step (w : World) (t : Thread) : Progress :=
  match t.task, t.frames with
  | .give v, [] => .over w v
  | .give v, f :: frames => t.follow frames (f.resume w t.id v)
  | .unwind, [] => .over w .met
  | .unwind, f :: frames => t.follow frames (some (f.unwind w))
  | .leave id replies, _ =>
    match w.leaveBody t.id id replies with
    | some w => .over w .met
    | none => .blocked
  | task, frames => t.follow frames (task.next w t.id)

def Thread.deadline? (t : Thread) : Option Nat :=
  match t.task with
  | .onWorker _ (.sleeping until?) => until?
  | .await (.repliedOrAt _ time) => some time
  | _ => none

end Switchboard.Scenario
