import Switchboard.Scenario.World

/-!
What a thread of a scenario is doing, and what it will do with the outcome. A thread has one task and
a stack of frames, the innermost first; a finished task hands a value to the innermost frame.
-/

namespace Switchboard.Scenario

inductive Value where
  | answer (a : Answer)
  | verdict (v : Except Dispatch.Error Unit)
  | reply (r : Dispatch.Reply)
  | text (t : Except Attribute.Error String)
  | result (r : Worker.Result)
  /-- What was waited for has come. -/
  | met

inductive Condition where
  | gateReached (gate : Name)
  | gateOpen (gate : Name)
  | active (n : NodeRef)
  /-- The worker's thread is not running, or no more. -/
  | atRest (id : WorkerId)
  /-- The worker's body has begun, and is over if it ends by itself or has been told to. -/
  | settled (id : WorkerId)
  /-- The worker has replied, or never will. -/
  | replied (id : WorkerId)
  | repliedOrAt (id : WorkerId) (time : Nat)

inductive Notice where
  | event (e : Dispatch.Event)
  | command (c : Command)

inductive Task where
  | perform (s : Step)
  | eventCall (c : Dispatch.Call Unit HandlerId)
  | commandCall (c : Dispatch.Call Command HandlerId)
  | notify (h : HandlerId) (n : Notice)
  | play (h : HandlerId) (steps : List Step) (verdict : Except Dispatch.Error Unit)
  | query (o : Attribute.OwnerId) (name : String) (request : Attribute.Request)
  | onWorker (id : WorkerId) (c : Worker.Call)
  | enable (id : WorkerId) (e : Generator.Enabling)
  /-- A generator notifies its dispatcher; one of events leaves the command aside. -/
  | produce (id : WorkerId) (p : Generator.Production) (c : Command)
  | await (c : Condition)
  | shutDown (i : Nat) (s : Context.Shutdown)
  /-- The worker's body, at the top of its loop. -/
  | body (id : WorkerId)
  /-- The worker's body ends, with a reply if it was told to return. -/
  | leave (id : WorkerId) (replies : Bool)
  | give (v : Value)
  /-- A panic is on its way to whoever catches it. -/
  | unwind

inductive Frame where
  /-- A handler runs on behalf of a dispatcher. -/
  | eventCall (c : Dispatch.Call Unit HandlerId)
  | commandCall (c : Dispatch.Call Command HandlerId)
  | script (h : HandlerId) (rest : List Step) (verdict : Except Dispatch.Error Unit)
  | ofVerdict
  | ofText
  | ofWoken
  /-- The reply is shown with the state of the dispatcher after the call. -/
  | ofDispatcher (n : NodeRef)
  /-- A generator's notification. -/
  | ofProduction
  | response (l : Attribute.Line)
  /-- The row of a capability has its step performed; it will answer with what it held before. -/
  | row (o : Attribute.OwnerId) (value : String)
  /-- A step or call is over and lets go of what it worked on. -/
  | release (h : Handle)
  /-- Whatever came, the outcome is this. -/
  | thenGive (v : Value)
  | thenWorker (id : WorkerId)
  | thenStarted (id : WorkerId)
  /-- A worker has been started, unless it was before or the system has refused it a thread. -/
  | started (id : WorkerId) (wasIdle : Bool)
  /-- The same for a generator that is being enabled. -/
  | enabling (id : WorkerId) (wasIdle : Bool)
  | thenStopping (id : WorkerId)
  /-- A worker has been terminated by a shutdown. -/
  | stopping (id : WorkerId) (i : Nat) (s : Context.Shutdown)
  | letGo (id : WorkerId)
  | contextGone (i : Nat)
  | collect (id : WorkerId)
  | probe (id : WorkerId)
  /-- The outcome of an act goes to whoever asked for it. -/
  | act (id : WorkerId)
  | again (id : WorkerId)
  /-- A panic goes on when what it came past has been let go of. -/
  | unwinding

/-- Whatever came, this is the answer. -/
def Frame.thenAnswer (a : Answer) : Frame := .thenGive (.answer a)

/-- What one step of a thread leaves behind: the world, the next task and new frames on the stack. -/
structure Next where
  world : World
  task : Task
  frames : List Frame := []

/-- The frames below what the next task needs itself. -/
def Next.under (next : Next) (frames : List Frame) : Next := { next with frames := next.frames ++ frames }

def World.answer (w : World) (a : Answer) : Next := ⟨w, .give (.answer a), []⟩

def World.using (w : World) (h : Handle) (act : World → Next) : Next := (act (w.hold h)).under [.release h]

/-- The number of the thread that a worker's body runs on. The main thread has number zero. -/
def threadOf (id : WorkerId) : ThreadId := id + 1

end Switchboard.Scenario
