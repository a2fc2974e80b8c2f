import Switchboard.Scenario.Task
import Switchboard.Text.Quoted

/-!
Worker, generator and roster steps of a scenario. Terminating waits for the worker's thread, so a step
that terminates is over only when the worker is. Dropping gives up the name; a generator is terminated
when its last handle has gone.
-/

namespace Switchboard.Scenario

namespace World

/-! ### Handles -/

/-- One of the handles on a worker has gone. With the last one a generator is terminated before its worker
is let go. -/
def releaseWorker (w : World) (id : WorkerId) (v : Value) : Next :=
  if w.hasHandle id then ⟨w, .give v, []⟩
  else match w.generator? id with
    | none => ⟨w.reap, .give v, []⟩
    | some _ =>
      let w := { w with held := id :: w.held }.updateGenerator id Generator.disable
      ⟨w, .onWorker id .cancelling, [.letGo id, .thenGive v]⟩

/-- Gives a new worker its name; the worker that had it has lost a handle after that. -/
def keepWorker (w : World) (name : Name) (id : WorkerId) (post : Post) : Next :=
  let old := w.workerNames.get? name
  let w := { w with posts := w.posts ++ [post], workerNames := w.workerNames.insert name id }
  match old with
  | some old => w.releaseWorker old (.answer .done)
  | none => w.answer .done

/-- A parent token or home roster that was named, if it is there. -/
def named {α : Type} (what : String) (look : Name → Option α) : Option Name → Except Answer (Option α)
  | none => .ok none
  | some name =>
    match look name with
    | some x => .ok (some x)
    | none => .error (unknown what name)

def workerOptions (w : World) (spec : WorkerSpec) : Except Answer WorkerOptions := do
  match ← named "context" w.context? spec.context with
  | some (_, c) => return c.workerOptions
  | none =>
    let parent ← named "token" w.tokens.get? spec.parent
    let home ← named "context" w.context? spec.home
    return { threadPrefix := spec.threadPrefix, stackSize := spec.stackSize, parent,
             home := home.map fun (_, c) => c.roster }

def newWorker (w : World) (name : Name) (spec : WorkerSpec) : Next :=
  match w.workerOptions spec with
  | .error a => w.answer a
  | .ok o =>
    let (id, workforce) := w.workforce.hire spec.name o
    { w with workforce }.keepWorker name id { body := spec.body }

def newGenerator (w : World) (name : Name) (spec : GeneratorSpec) : Next :=
  match named "context" w.context? spec.context with
  | .error a => w.answer a
  | .ok context =>
    let o := (context.map fun (_, c) => c.workerOptions).getD {}
    let period := match context with | some (_, c) => c.config.pollInterval? | none => spec.period
    let (id, workforce) := w.workforce.hire spec.name o
    let g : Generator Dispatch.NodeId := { worker := id, period }
    { w with workforce }.keepWorker name id { body := spec.body, generator := some (spec.stream, g) }

/-! ### Starting and stopping -/

def isIdle (w : World) (id : WorkerId) : Bool :=
  (w.workforce.worker? id).any fun x => x.lifecycle == .idle

def startWorker (w : World) (id : WorkerId) : Next := ⟨w, .onWorker id .starting, [.started id (w.isIdle id)]⟩

/-- Waits until the body of a worker that has been started has begun. One that ran already is not waited for. -/
def awaitStarted (w : World) (id : WorkerId) (wasIdle : Bool) : Next :=
  if wasIdle then ⟨w, .await (.settled id), [.thenStarted id]⟩
  else w.answer (.started .done (w.workerView id))

def refuseStart (w : World) (id : WorkerId) (e : Dispatch.Error) : Next :=
  w.answer (.started (.ofDispatchError e) (w.workerView id))

def workerStarted (w : World) (id : WorkerId) (wasIdle : Bool) : Worker.Result → Next
  | .refused reason => w.refuseStart id (.spawnFailed reason)
  | _ => w.awaitStarted id wasIdle

/-- One step of a generator's enabling. Its worker is started once the flag is up. -/
def advanceEnabling (w : World) (id : WorkerId) (e : Generator.Enabling) : Next :=
  match w.generator? id with
  | none => w.answer (.fault "not a generator")
  | some (_, g) =>
    let (outcome, g) := e.advance g
    let w := w.updateGenerator id fun _ => g
    match outcome with
    | .goes e => ⟨w, .enable id e, []⟩
    | .ends (.error e) => w.refuseStart id e
    | .ends (.ok ()) => w.answer (.started .done (w.workerView id))
    | .starts => ⟨w, .onWorker id .starting, [.enabling id (w.isIdle id)]⟩

/-- An enabling goes on after the start of the worker. -/
def generatorStarted (w : World) (id : WorkerId) (wasIdle : Bool) (r : Worker.Result) : Next :=
  match Generator.Enabling.started r with
  | .goes e => ⟨w, .enable id e, []⟩
  | _ => w.awaitStarted id wasIdle

/-- A generator is disabled before its worker is terminated. -/
def terminate (w : World) (id : WorkerId) : Next :=
  ⟨w.updateGenerator id Generator.disable, .onWorker id .cancelling, [.thenWorker id]⟩

def debugText (w : World) (id : WorkerId) : String :=
  let v := w.workerView id
  s!"Worker \x7b id: {workerLabel id}, name: {Text.quoted v.name}, running: {v.running} \x7d"

def takeReply (w : World) (id : WorkerId) : Option Answer × World :=
  match w.posts[id]?.map Post.replies with
  | some (r :: rest) => (some r, w.updatePost id fun p => { p with replies := rest })
  | _ => (none, w)

def sendAct (w : World) (id : WorkerId) (a : Act Step) : World :=
  w.updatePost id fun p => { p with inbox := p.inbox ++ [a] }

def performOnWorker (w : World) (name : Name) (id : WorkerId) : WorkerStep → Next
  | .drop => { w with workerNames := w.workerNames.erase name }.answer .done
  | .start => w.startWorker id
  | .terminate => w.terminate id
  | .signal => { w with workforce := w.workforce.update id Worker.signal }.answer .done
  | .state => w.answer (.worker (w.workerView id))
  | .debug => w.answer (.text (w.debugText id))
  | .await => ⟨w, .await (.atRest id), [.thenAnswer (.flag true)]⟩
  | .pollHere ms => ⟨w, .onWorker id (.settling (some (w.now + ms))), [.ofWoken]⟩
  | .suspendHere => ⟨w, .onWorker id (.settling none), [.thenAnswer (.text "woken")]⟩
  | .bind dispatcher =>
    match w.dispatcherNames.get? dispatcher with
    | none => w.answer (unknown "dispatcher" dispatcher)
    | some n =>
      let w := w.updateGenerator id fun g => g.bind n.node
      w.answer (.worker (w.workerView id))
  | .enable => ⟨w, .enable id .looking, []⟩
  | .disable =>
    let w := w.updateGenerator id Generator.disable
    w.answer (.worker (w.workerView id))
  | .endAct => ⟨w, .await (.replied id), [.collect id]⟩
  | .isBlocked => ⟨w, .await (.repliedOrAt id (w.now + 20)), [.probe id]⟩

def performWorker (w : World) (name : Name) (s : WorkerStep) : Next :=
  match w.workerNames.get? name with
  | none => w.answer (unknown "worker" name)
  | some id => w.using (.worker id) fun w => w.performOnWorker name id s

/-- Waits for an act that has been sent. One that ends the body is over when the worker is at rest, and
a panic takes no reply. -/
def awaitAct (w : World) (id : WorkerId) : Act Step → Next
  | .panic => ⟨w, .await (.atRest id), [.thenAnswer (.text "exited")]⟩
  | .finish => ⟨w, .await (.atRest id), [.collect id]⟩
  | _ => ⟨w, .await (.replied id), [.collect id]⟩

def performAct (w : World) (name : Name) (a : Act Step) (wait : Bool) : Next :=
  match w.workerNames.get? name with
  | none => w.answer (unknown "worker" name)
  | some id =>
    if !w.workforce.isRunning id then w.answer (.fault "not running")
    else if wait then w.using (.worker id) fun w => (w.sendAct id a).awaitAct id a
    else (w.sendAct id a).answer (.text "begun")

/-! ### Rosters -/

def performRoster (w : World) (context : Name) (s : RosterStep) : Next :=
  match w.context? context with
  | none => w.answer (unknown "context" context)
  | some (_, c) =>
    let r := w.workforce.roster c.roster
    let running := w.workforce.isRunning
    match s with
    | .register name =>
      match w.workerNames.get? name with
      | none => w.answer (unknown "worker" name)
      | some id =>
        let (new, workforce) := w.workforce.announce c.roster id 0
        { w with workforce }.answer (.flag new)
    | .unregister name =>
      match w.workerNames.get? name with
      | none => w.answer (unknown "worker" name)
      | some id =>
        let (present, r) := r.unregister id
        { w with workforce := w.workforce.setRoster c.roster r }.answer (.flag present)
    | .state =>
      w.answer (.roster r.size r.entries.isEmpty (r.runningCount running)
        ((r.dump running).map fun (e, runs) => (e.worker, e.name, runs)))
    | .text => w.answer (.text (r.dumpText running workerLabel fun _ => "ThreadId(_)"))
    | .workers order =>
      w.answer (.texts ((r.workers w.workforce.isAlive order).filterMap fun id =>
        (w.workforce.worker? id).map Worker.name))
    | .prune =>
      let (n, r) := r.prune running
      { w with workforce := w.workforce.setRoster c.roster r }.answer (.count n)

end World

end Switchboard.Scenario
