import Switchboard.Dispatch.Call
import Switchboard.Proofs.Worker.Lifecycle
import Switchboard.Worker.Generator

/-!
A generator and the threads that use it. Besides what threads do anyway with workers, they bind, enable, disable and
terminate the generator step by step, and notify it while its body has a thread. What a dispatcher does with a
notification is left open; while it does, its handlers have the thread and may do all the rest.
-/

namespace Switchboard

/-- What can be asked of a generator and takes several steps. -/
inductive Mill.Operation (ι : Type) where
  | enable
  | terminate
  | notify (x : ι)
deriving DecidableEq, Repr

namespace Mill

variable {δ ι : Type}

/-! ### Operations in progress -/

/-- An operation in progress. It is known by the place that its first entry has in the log. -/
inductive Task (δ ι : Type) where
  | enabling (number : Nat) (e : Generator.Enabling)
  /-- The worker is being started. -/
  | starting (number : Nat)
  | terminating (number : Nat)
  /-- The worker is being terminated. -/
  | stopping (number : Nat)
  | notifying (number : Nat) (x : ι) (p : Generator.Production)
  /-- The dispatcher has been called. -/
  | dispatching (number : Nat) (x : ι) (d : δ)
deriving DecidableEq, Repr

namespace Task

def number : Task δ ι → Nat
  | enabling n _ | starting n | terminating n | stopping n | notifying n _ _ | dispatching n _ _ => n

def operation : Task δ ι → Operation ι
  | enabling .. | starting _ => .enable
  | terminating _ | stopping _ => .terminate
  | notifying _ x _ | dispatching _ x _ => .notify x

def enables : Task δ ι → Bool
  | enabling .. | starting _ => true
  | _ => false

def notifies : Task δ ι → Bool
  | notifying .. | dispatching .. => true
  | _ => false

def dispatches : Task δ ι → Bool
  | dispatching .. => true
  | _ => false

end Task

/-- Nothing is in progress but what lets handlers have the thread. -/
def isOpen : List (Task δ ι) → Bool
  | [] | .dispatching .. :: _ => true
  | _ => false

/-! ### The log -/

inductive Entry (δ ι : Type) where
  | begun (t : ThreadId) (op : Operation ι)
  | bound (d : δ)
  /-- An enabling has started the worker on a thread. -/
  | started (number : Nat) (thread : ThreadId)
  /-- The worker has been started past the generator. -/
  | startedAside (thread : ThreadId)
  | enabled (number : Nat) (verdict : Except Dispatch.Error Unit)
  | terminated (number : Nat)
  /-- A notification has been counted and dropped. -/
  | dropped (number : Nat)
  /-- A dispatcher has been called on behalf of a notification. -/
  | dispatched (number : Nat) (d : δ) (x : ι)
  /-- That call has returned. -/
  | replied (number : Nat) (result : Except Dispatch.Error Dispatch.Outcome)
  | notified (number : Nat) (result : Except Dispatch.Error (Option Dispatch.Outcome))

/-- What becomes of the operations of a thread when a move on workers has left these entries. -/
def hear (w : WorkerId) : List (Task δ ι) → List Shift.Entry → List (Task δ ι) × List (Entry δ ι)
  | .starting n :: below, [.spawned _ v thread] =>
    (.starting n :: below, if v = w then [.started n thread] else [])
  | tasks, [.spawned _ v thread] => (tasks, if v = w then [.startedAside thread] else [])
  | .starting n :: below, [.returned _ _ _ _ r] =>
    match Generator.Enabling.started r with
    | .goes e => (.enabling n e :: below, [])
    | .ends v => (below, [.enabled n v])
    | .starts => (.starting n :: below, [])
  | .stopping n :: below, [.returned ..] => (below, [.terminated n])
  | tasks, _ => (tasks, [])

/-! ### Moves -/

inductive Action (δ ι : Type) where
  /-- A move on workers: a section of a call in progress or of a body's thread, or something besides the generator. -/
  | shift (a : Shift.Action)
  | bind (d : δ)
  | disable
  | begin (op : Operation ι)
  /-- A step of the operation in progress. -/
  | step
  /-- The dispatcher that was called returns. -/
  | reply (result : Except Dispatch.Error Dispatch.Outcome)

end Mill

structure Mill (δ ι : Type) where
  shift : Shift
  gen : Generator δ
  /-- The operations that each thread has in progress, innermost first. -/
  tasks : ThreadId → List (Mill.Task δ ι) := fun _ => []
  log : List (Mill.Entry δ ι) := []

namespace Mill

variable {δ ι : Type}

/-- A new generator has a worker of its own. -/
def create (shift : Shift) (name : String) (o : WorkerOptions) (period : Option Nat) : Mill δ ι where
  shift := { shift with force := (shift.force.hire name o).2 }
  gen := { worker := (shift.force.hire name o).1, period }

def isFree (s : Mill δ ι) (t : ThreadId) : Bool := (s.shift.threads t).isFree && isOpen (s.tasks t)

def isProducing (s : Mill δ ι) : Bool :=
  (List.range s.shift.born).any fun t => (s.shift.threads t).station == .on s.gen.worker .body

def isNotifying (s : Mill δ ι) : Bool := (List.range s.shift.born).any fun t => (s.tasks t).any Task.notifies

/-- A body is over only when everything it does is, and so are the notifications of those it has shared its handle with.
A generator holds its worker. -/
def permits (s : Mill δ ι) (t : ThreadId) : Shift.Action → Bool
  | .chore _ | .order .. => isOpen (s.tasks t)
  | .release w => w != s.gen.worker
  | .finish _ => (s.tasks t).isEmpty && ((s.shift.threads t).station != .on s.gen.worker .body || !s.isNotifying)
  | _ => true

def after (s : Mill δ ι) (t : ThreadId) (shift : Shift) (gen : Generator δ) (tasks : List (Task δ ι))
    (es : List (Entry δ ι)) : Mill δ ι :=
  { shift, gen, tasks := fun u => if u = t then tasks else s.tasks u, log := s.log ++ es }

/-- Who may begin an operation: anybody, but to notify takes a body. -/
def mayBegin (s : Mill δ ι) (t : ThreadId) : Operation ι → Bool
  | .notify _ => s.isFree t && s.isProducing
  | _ => s.isFree t

def step (s : Mill δ ι) (t : ThreadId) : Option (Mill δ ι) :=
  match s.tasks t with
  | .enabling n e :: below =>
    let (outcome, gen) := e.advance s.gen
    match outcome with
    | .goes e => some (s.after t s.shift gen (.enabling n e :: below) [])
    | .starts =>
      (s.shift.act t (.order .start gen.worker)).map fun shift => s.after t shift gen (.starting n :: below) []
    | .ends v => some (s.after t s.shift gen below [.enabled n v])
  | .terminating n :: below =>
    (s.shift.act t (.order .terminate s.gen.worker)).map fun shift =>
      s.after t shift s.gen.disable (.stopping n :: below) []
  | .notifying n x p :: below =>
    let (outcome, gen) := p.advance s.gen
    match outcome with
    | .goes p => some (s.after t s.shift gen (.notifying n x p :: below) [])
    | .nothing =>
      let counted := if p = .dropping then [.dropped n] else []
      some (s.after t s.shift gen below (counted ++ [.notified n (.ok none)]))
    | .sends d => some (s.after t s.shift gen (.dispatching n x d :: below) [.dispatched n d x])
  | _ => none

def act (s : Mill δ ι) (t : ThreadId) : Action δ ι → Option (Mill δ ι)
  | .shift a =>
    if s.permits t a then
      (s.shift.act t a).map fun shift =>
        let (tasks, es) := hear s.gen.worker (s.tasks t) (shift.log.drop s.shift.log.length)
        s.after t shift s.gen tasks es
    else none
  | .bind d => if s.isFree t then some (s.after t s.shift (s.gen.bind d) (s.tasks t) [.bound d]) else none
  | .disable => if s.isFree t then some (s.after t s.shift s.gen.disable (s.tasks t) []) else none
  | .begin op =>
    if s.mayBegin t op then
      let task := match op with
        | .enable => .enabling s.log.length .looking
        | .terminate => .terminating s.log.length
        | .notify x => .notifying s.log.length x .looking
      some (s.after t s.shift s.gen (task :: s.tasks t) [.begun t op])
    else none
  | .step => s.step t
  | .reply r =>
    match s.tasks t with
    | .dispatching n _ _ :: below =>
      if (s.shift.threads t).isFree then
        some (s.after t s.shift s.gen below [.replied n r, .notified n (r.map some)])
      else none
    | _ => none

def run (s : Mill δ ι) (moves : List (ThreadId × Action δ ι)) : Option (Mill δ ι) := Threads.run act s moves

section

variable {s : Mill δ ι} {t u : ThreadId} {shift : Shift} {gen : Generator δ} {tasks : List (Task δ ι)}
  {es : List (Entry δ ι)}

@[simp] theorem after_shift : (s.after t shift gen tasks es).shift = shift := rfl

@[simp] theorem after_gen : (s.after t shift gen tasks es).gen = gen := rfl

@[simp] theorem after_log : (s.after t shift gen tasks es).log = s.log ++ es := rfl

@[simp] theorem after_self : (s.after t shift gen tasks es).tasks t = tasks := if_pos rfl

theorem after_other (other : u ≠ t) : (s.after t shift gen tasks es).tasks u = s.tasks u := if_neg other

end

/-! ### What a move can do -/

def Operation.task (n : Nat) : Operation ι → Task δ ι
  | .enable => .enabling n .looking
  | .terminate => .terminating n
  | .notify x => .notifying n x .looking

inductive Turn (s : Mill δ ι) (t : ThreadId) : Mill δ ι → Prop
  | shift {a shift es} (permitted : s.permits t a = true) (acted : s.shift.act t a = some shift)
    (log : shift.log = s.shift.log ++ es) (silent : Shift.launches es s.gen.worker = [])
    (unheard : ∀ n below, s.tasks t = .starting n :: below ∨ s.tasks t = .stopping n :: below →
      ∀ m u o w r, es ≠ [.returned m u o w r]) : Turn s t (s.after t shift s.gen (s.tasks t) [])
  | startAside {a shift m thread} (permitted : s.permits t a = true) (acted : s.shift.act t a = some shift)
    (log : shift.log = s.shift.log ++ [.spawned m s.gen.worker thread]) (aside : ∀ n below, s.tasks t ≠ .starting n :: below) :
    Turn s t (s.after t shift s.gen (s.tasks t) [.startedAside thread])
  | started {a shift m thread n below} (tasks : s.tasks t = .starting n :: below) (acted : s.shift.act t a = some shift)
    (log : shift.log = s.shift.log ++ [.spawned m s.gen.worker thread]) :
    Turn s t (s.after t shift s.gen (.starting n :: below) [.started n thread])
  | refused {a shift m u o w reason n below} (tasks : s.tasks t = .starting n :: below) (acted : s.shift.act t a = some shift)
    (log : shift.log = s.shift.log ++ [.returned m u o w (.refused reason)]) :
    Turn s t (s.after t shift s.gen (.enabling n (.lowering reason) :: below) [])
  | enabled {a shift m u o w r n below} (tasks : s.tasks t = .starting n :: below) (acted : s.shift.act t a = some shift)
    (log : shift.log = s.shift.log ++ [.returned m u o w r]) :
    Turn s t (s.after t shift s.gen below [.enabled n (.ok ())])
  | terminated {a shift m u o w r n below} (tasks : s.tasks t = .stopping n :: below) (acted : s.shift.act t a = some shift)
    (log : shift.log = s.shift.log ++ [.returned m u o w r]) :
    Turn s t (s.after t shift s.gen below [.terminated n])
  | bind (d : δ) (free : s.isFree t = true) : Turn s t (s.after t s.shift (s.gen.bind d) (s.tasks t) [.bound d])
  | disable (free : s.isFree t = true) : Turn s t (s.after t s.shift s.gen.disable (s.tasks t) [])
  | begin (op : Operation ι) (may : s.mayBegin t op = true) :
    Turn s t (s.after t s.shift s.gen (op.task s.log.length :: s.tasks t) [.begun t op])
  | find {n below} (tasks : s.tasks t = .enabling n .looking :: below) (bound : s.gen.isBound = true) :
    Turn s t (s.after t s.shift s.gen (.enabling n .raising :: below) [])
  | refuse {n below} (tasks : s.tasks t = .enabling n .looking :: below) (unbound : s.gen.isBound = false) :
    Turn s t (s.after t s.shift s.gen below [.enabled n (.error .notConfigured)])
  | raise {n below} (tasks : s.tasks t = .enabling n .raising :: below) :
    Turn s t (s.after t s.shift s.gen.raise (.enabling n .starting :: below) [])
  | start {n below shift} (tasks : s.tasks t = .enabling n .starting :: below)
    (acted : s.shift.act t (.order .start s.gen.worker) = some shift) :
    Turn s t (s.after t shift s.gen (.starting n :: below) [])
  | lower {n reason below} (tasks : s.tasks t = .enabling n (.lowering reason) :: below) :
    Turn s t (s.after t s.shift s.gen.disable below [.enabled n (.error (.spawnFailed reason))])
  | stop {n below shift} (tasks : s.tasks t = .terminating n :: below)
    (acted : s.shift.act t (.order .terminate s.gen.worker) = some shift) :
    Turn s t (s.after t shift s.gen.disable (.stopping n :: below) [])
  | look {n x below} (tasks : s.tasks t = .notifying n x .looking :: below) :
    Turn s t (s.after t s.shift s.gen (.notifying n x (if s.gen.enabled then .aiming else .dropping) :: below) [])
  | drop {n x below} (tasks : s.tasks t = .notifying n x .dropping :: below) :
    Turn s t (s.after t s.shift s.gen.drop below [.dropped n, .notified n (.ok none)])
  | send {n x below d} (tasks : s.tasks t = .notifying n x .aiming :: below) (bound : s.gen.target = some d) :
    Turn s t (s.after t s.shift s.gen (.dispatching n x d :: below) [.dispatched n d x])
  | lose {n x below} (tasks : s.tasks t = .notifying n x .aiming :: below) (unbound : s.gen.target = none) :
    Turn s t (s.after t s.shift s.gen below [.notified n (.ok none)])
  | reply {n x d below} (tasks : s.tasks t = .dispatching n x d :: below) (free : (s.shift.threads t).isFree = true)
    (r : Except Dispatch.Error Dispatch.Outcome) :
    Turn s t (s.after t s.shift s.gen below [.replied n r, .notified n (r.map some)])

variable {s s' : Mill δ ι} {t : ThreadId}

/-- A move on workers leaves at most one entry. -/
theorem log_of_act {s s' : Shift} {a : Shift.Action} (staffed : s.Staffed) (acted : s.act t a = some s') :
    s'.log = s.log ∨ ∃ e, s'.log = s.log ++ [e] := by
  cases Shift.turn_of_act staffed acted with
  | arrive | chore | release | lose => exact Or.inl rfl
  | order | spawn | comeBack | take | finish => exact Or.inr ⟨_, rfl⟩
  | begin | skip | exit | close => exact Or.inl (List.append_nil _)
  | @goOn e =>
    unfold Shift.after Shift.Errand.remembered
    split
    · exact Or.inr ⟨_, rfl⟩
    · exact Or.inl (List.append_nil _)

theorem turn_of_shift {a : Shift.Action} {shift : Shift} (staffed : s.shift.Staffed) (permitted : s.permits t a = true)
    (acted : s.shift.act t a = some shift) :
    Turn s t (s.after t shift s.gen (hear s.gen.worker (s.tasks t) (shift.log.drop s.shift.log.length)).1
      (hear s.gen.worker (s.tasks t) (shift.log.drop s.shift.log.length)).2) := by
  -- What leaves no entry, or one that nobody has waited for.
  have unheard : ∀ {es : List Shift.Entry}, shift.log = s.shift.log ++ es → Shift.launches es s.gen.worker = [] →
      (∀ m u o w r, es ≠ [.returned m u o w r]) → hear s.gen.worker (s.tasks t) es = (s.tasks t, []) →
      Turn s t (s.after t shift s.gen (hear s.gen.worker (s.tasks t) es).1 (hear s.gen.worker (s.tasks t) es).2) := by
    intro es log silent other heard
    rw [heard]
    exact .shift permitted acted log silent fun _ _ _ => other
  rcases log_of_act staffed acted with log | ⟨e, log⟩
  · rw [log, List.drop_length]
    refine unheard (log.trans (List.append_nil _).symm) rfl nofun ?_
    cases s.tasks t with
    | nil => rfl
    | cons k below => cases k <;> rfl
  · rw [log, List.drop_left]
    cases e with
    | called | looked | invoked | ended =>
      refine unheard log rfl nofun ?_
      cases s.tasks t with
      | nil => rfl
      | cons k below => cases k <;> rfl
    | spawned m v thread =>
      by_cases own : v = s.gen.worker
      · subst own
        cases tasks : s.tasks t with
        | nil =>
          simp only [hear, if_true]
          exact tasks ▸ .startAside permitted acted log (by simp [tasks])
        | cons k below =>
          cases k with
          | starting n =>
            simp only [hear, if_true]
            exact .started tasks acted log
          | enabling | terminating | stopping | notifying | dispatching =>
            simp only [hear, if_true]
            exact tasks ▸ .startAside permitted acted log (by simp [tasks])
      · refine unheard log ?_ nofun ?_
        · simp [Shift.launches, Shift.Entry.launch?, own]
        · cases s.tasks t with
          | nil => simp only [hear, own, if_false]
          | cons k below => cases k <;> simp only [hear, own, if_false]
    | returned m u o w r =>
      have plain : (∀ n below, s.tasks t ≠ .starting n :: below ∧ s.tasks t ≠ .stopping n :: below) →
          Turn s t (s.after t shift s.gen (s.tasks t) []) := by
        intro other
        refine .shift permitted acted log rfl fun n below waits => ?_
        rcases waits with waits | waits
        · exact absurd waits (other n below).1
        · exact absurd waits (other n below).2
      cases tasks : s.tasks t with
      | nil =>
        have kept := plain (by simp [tasks])
        rw [tasks] at kept
        exact kept
      | cons k below =>
        cases k with
        | starting n =>
          cases r with
          | refused reason => exact .refused tasks acted log
          | done | woken | timedOut => exact .enabled tasks acted log
        | stopping n => exact .terminated tasks acted log
        | enabling | terminating | notifying | dispatching =>
          have kept := plain (by simp [tasks])
          rw [tasks] at kept
          exact kept

theorem turn_of_act {a : Action δ ι} (staffed : s.shift.Staffed) (h : s.act t a = some s') : Turn s t s' := by
  cases a with
  | shift a =>
    simp only [act, Option.ite_none_right_eq_some, Option.map_eq_some_iff] at h
    obtain ⟨permitted, shift, acted, rfl⟩ := h
    exact turn_of_shift staffed permitted acted
  | bind d =>
    simp only [act, Option.ite_none_right_eq_some, Option.some.injEq] at h
    obtain ⟨free, rfl⟩ := h
    exact .bind d free
  | disable =>
    simp only [act, Option.ite_none_right_eq_some, Option.some.injEq] at h
    obtain ⟨free, rfl⟩ := h
    exact .disable free
  | begin op =>
    simp only [act, Option.ite_none_right_eq_some, Option.some.injEq] at h
    obtain ⟨may, rfl⟩ := h
    cases op <;> exact .begin _ may
  | step =>
    simp only [act, step] at h
    split at h
    · rename_i n e below tasks
      cases e with
      | looking =>
        cases bound : s.gen.isBound with
        | true =>
          simp only [Generator.Enabling.advance, bound, if_true, Option.some.injEq] at h
          subst h
          exact .find tasks bound
        | false =>
          simp only [Generator.Enabling.advance, bound, Bool.false_eq_true, if_false, Option.some.injEq] at h
          subst h
          exact .refuse tasks bound
      | raising =>
        cases h
        exact .raise tasks
      | starting =>
        obtain ⟨shift, acted, rfl⟩ := Option.map_eq_some_iff.mp h
        exact .start tasks acted
      | lowering reason =>
        cases h
        exact .lower tasks
    · rename_i n below tasks
      obtain ⟨shift, acted, rfl⟩ := Option.map_eq_some_iff.mp h
      exact .stop tasks acted
    · rename_i n x p below tasks
      cases p with
      | looking =>
        cases h
        exact .look tasks
      | dropping =>
        cases h
        exact .drop tasks
      | aiming =>
        cases target : s.gen.target with
        | some d =>
          simp only [Generator.Production.advance, target, Option.some.injEq] at h
          subst h
          exact .send tasks target
        | none =>
          simp only [Generator.Production.advance, target, Option.some.injEq, reduceCtorEq, if_false,
            List.nil_append] at h
          subst h
          exact .lose tasks target
    · cases h
  | reply r =>
    simp only [act] at h
    split at h
    · rename_i n x d below tasks
      simp only [Option.ite_none_right_eq_some, Option.some.injEq] at h
      obtain ⟨free, rfl⟩ := h
      exact .reply tasks free r
    · cases h

end Mill

end Switchboard
