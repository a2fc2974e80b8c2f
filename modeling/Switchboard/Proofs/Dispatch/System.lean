import Switchboard.Dispatch.Call

/-!
A simple dispatcher and the threads that use it. A move of a thread is one critical section of its
innermost call, the start or the end of a handler's run, or a call that the thread makes, from outside
or from inside a handler. Which thread moves, what it asks and what a handler returns is left open, so
the runs are all interleavings of all programs. The log remembers what has happened; no move reads it.
-/

namespace Switchboard.Dispatch

variable {β ι η : Type}

/-! ### Calls in progress -/

inductive Operation (ι η : Type) where
  | request (r : Request ι)
  /-- Dispatches a copy of the preset item. -/
  | dispatchPreset
  | bind (h : η) (suspended : Bool)

/-- What a call is for. A reopening is to leave nothing in the backlog of an active dispatcher. -/
inductive Course where
  | delivery
  | reopening
  | other
deriving DecidableEq, Repr

namespace Operation

def phase : Operation ι η → Phase ι η
  | request r => r.phase
  | dispatchPreset => .presetting
  | bind h suspended => .binding h suspended

def course : Operation ι η → Course
  | request (.dispatch _) | dispatchPreset => .delivery
  | request (.resume false) | bind _ false => .reopening
  | _ => .other

end Operation

inductive Stage (ι η : Type) where
  | at (p : Phase ι η)
  /-- The section is over and the handler has not been entered. -/
  | calling (h : η) (x : ι) (k : Awaiting)
  | handling (x : ι) (k : Awaiting)

/-- A call in progress. It is known by the place that its first entry has in the log. -/
structure Frame (ι η : Type) where
  call : Nat
  op : Operation ι η
  stage : Stage ι η

/-- A handler runs on behalf of the call, so the thread may make another one. -/
def Frame.Handling (f : Frame ι η) : Prop := ∃ x k, f.stage = .handling x k

namespace Stage

def drains : Stage ι η → Bool
  | .at (.draining _) | calling _ _ (.drained _) | handling _ (.drained _) => true
  | _ => false

/-- The calls that can be at this stage. -/
def course : Stage ι η → Course
  | .at (.admitting _) | .at .presetting | calling _ _ .direct | handling _ .direct => .delivery
  | .at .suspending | .at .discarding | .at (.binding _ true) => .other
  | _ => .reopening

end Stage

/-- A thread can make a call when it has none in progress, or from inside a handler. -/
def free : List (Frame ι η) → Bool
  | [] => true
  | ⟨_, _, .handling _ _⟩ :: _ => true
  | _ => false

/-! ### The log -/

inductive Entry (ι η : Type) where
  | called (n : Nat) (t : ThreadId) (op : Operation ι η)
  | bound (h : η)
  | queued (x : ι)
  /-- Admitted past the backlog, straight to the handler. -/
  | passed (x : ι)
  /-- Taken out of the backlog for the handler bound at that moment. -/
  | taken (x : ι)
  | discarded (x : ι)
  | started (x : ι) (h : η) (k : Awaiting)
  | finished (x : ι) (k : Awaiting) (verdict : Except Error Unit)
  | returned (n : Nat) (r : Reply)

/-- What a section leaves in the log, apart from the end of its call. -/
def Phase.remembered [Backlog β ι] [LawfulBacklog β ι] (d : Dispatcher β ι η) : Phase ι η → List (Entry ι η)
  | admitting x =>
    match (d.offer x).1 with
    | .queued => [.queued x]
    | .handed _ => [.passed x]
    | .refused => []
  | discarding => (LawfulBacklog.items d.backlog).map .discarded
  | binding h _ => [.bound h]
  | draining _ =>
    match d.take.1 with
    | .item x (some _) => [.taken x]
    | .item x none => [.discarded x]
    | .stopped => []
  | _ => []

/-! ### Moves -/

inductive Action (ι η : Type) where
  | call (op : Operation ι η)
  | advance
  /-- The handler that is to be called begins to run. -/
  | enter
  /-- The running handler returns. -/
  | settle (verdict : Except Error Unit)
  /-- Sets the preset item or takes it away. -/
  | preset (x : Option ι)

def Phase.stamped (stamp : ι → ι) : Phase ι η → Phase ι η
  | admitting x => admitting (stamp x)
  | p => p

/-- Where a call stands after a move of its own; the calls below it wait. -/
def Frame.land (f : Frame ι η) (below : List (Frame ι η)) :
    Move ι η → Option (List (Frame ι η) × List (Entry ι η))
  | .goes p => some ({ f with stage := .at p } :: below, [])
  | .calls h x k => some ({ f with stage := .calling h x k } :: below, [])
  | .ends r => some (below, [.returned f.call r])
  | .blocks => none

/-! ### The system -/

structure System (β ι η : Type) where
  dispatcher : Dispatcher β ι η
  /-- The calls that each thread has in progress, innermost first. -/
  threads : ThreadId → List (Frame ι η) := fun _ => []
  log : List (Entry ι η) := []

namespace System

def after (s : System β ι η) (t : ThreadId) (d : Dispatcher β ι η) (fs : List (Frame ι η))
    (es : List (Entry ι η)) : System β ι η :=
  { dispatcher := d, threads := fun u => if u = t then fs else s.threads u, log := s.log ++ es }

section

variable {s : System β ι η} {t u : ThreadId} {d : Dispatcher β ι η} {fs : List (Frame ι η)} {es : List (Entry ι η)}

@[simp] theorem after_dispatcher : (s.after t d fs es).dispatcher = d := rfl

@[simp] theorem after_log : (s.after t d fs es).log = s.log ++ es := rfl

@[simp] theorem after_threads_self : (s.after t d fs es).threads t = fs := if_pos rfl

theorem after_threads_other (other : u ≠ t) : (s.after t d fs es).threads u = s.threads u := if_neg other

/-- To speak of every thread after a move, speak of the one that has moved and of the others as they were. -/
theorem forall_after {P : ThreadId → List (Frame ι η) → Prop} (mine : P t fs)
    (others : ∀ u, u ≠ t → P u (s.threads u)) (u : ThreadId) : P u ((s.after t d fs es).threads u) := by
  by_cases same : u = t
  · rw [same, after_threads_self]
    exact mine
  · rw [after_threads_other same]
    exact others u same

end

end System

/-! ### Moves of the system -/

variable [Backlog β ι] [LawfulBacklog β ι]

/-- One move of thread `t`, whose calls are `fs`, innermost first: what it makes of the dispatcher and
of the calls, and what is to be remembered of it. A call made now is number `n`. -/
def turn? (stamp : Nat → ι → ι) (t : ThreadId) (n : Nat) (d : Dispatcher β ι η) (fs : List (Frame ι η)) :
    Action ι η → Option (Dispatcher β ι η × List (Frame ι η) × List (Entry ι η))
  | .call op => if free fs then some (d, ⟨n, op, .at op.phase⟩ :: fs, [.called n t op]) else none
  | .advance =>
    match fs with
    | ⟨m, op, .at p⟩ :: below =>
      let p := p.stamped (stamp m)
      let (move, d') := p.advance t d
      (Frame.land ⟨m, op, .at p⟩ below move).map fun (fs, es) => (d', fs, p.remembered d ++ es)
    | _ => none
  | .enter =>
    match fs with
    | ⟨m, op, .calling h x k⟩ :: below => some (d, ⟨m, op, .handling x k⟩ :: below, [.started x h k])
    | _ => none
  | .settle v =>
    match fs with
    | ⟨m, op, .handling x k⟩ :: below =>
      (Frame.land ⟨m, op, .handling x k⟩ below (k.settle v)).map fun (fs, es) => (d, fs, .finished x k v :: es)
    | _ => none
  | .preset x => if free fs then some ({ d with preset := x }, fs, []) else none

namespace System

def fresh : System β ι η := { dispatcher := .idle }

def act (stamp : Nat → ι → ι) (s : System β ι η) (t : ThreadId) (a : Action ι η) : Option (System β ι η) :=
  (turn? stamp t s.log.length s.dispatcher (s.threads t) a).map fun (d, fs, es) => s.after t d fs es

def run (stamp : Nat → ι → ι) (s : System β ι η) (moves : List (ThreadId × Action ι η)) : Option (System β ι η) :=
  Threads.run (act stamp) s moves

end System

end Switchboard.Dispatch
