import Switchboard.Context.Basic
import Switchboard.Proofs.Worker.Lineage
import Switchboard.Proofs.Worker.Winding

/-!
A plant: contexts, the workforce that they share, and the threads that use both. A move of a thread is one of those that
the workforce knows, or it makes a context, has one make a token, a worker or a generator, or shuts one down section by
section. Who holds a token and which worker a shutdown has still to terminate limits what may be done; the log
remembers what shutdowns have done, and no move reads it.
-/

namespace Switchboard

abbrev ContextId := Nat

namespace Plant

inductive Product where
  | token (x : StopToken)
  | worker (w : WorkerId)
  | generator (w : WorkerId) (period : Option Nat)
deriving DecidableEq, Repr

def Product.isCancelled (f : Workforce) : Product → Bool
  | token x => f.tokens.isCancelled x
  | worker w | generator w _ => f.shouldStop w

inductive Making where
  | token
  | worker (name : String)
  | generator (name : String)
deriving DecidableEq, Repr

def Making.chore (x : Context) : Making → Shift.Chore
  | token => .derive (some x.root)
  | worker name | generator name => .hire name x.workerOptions

def Making.product (f : Workforce) (x : Context) : Making → Product
  | token => .token (f.tokens.derive (some x.root)).1
  | worker name => .worker (f.hire name x.workerOptions).1
  | generator name => .generator (f.hire name x.workerOptions).1 x.config.pollInterval?

inductive Entry where
  | begun (t : ThreadId) (c : ContextId)
  /-- These workers are to be terminated. -/
  | listed (t : ThreadId) (ws : List WorkerId)
  | told (t : ThreadId) (w : WorkerId)
  | stopped (t : ThreadId) (w : WorkerId)
  | ended (t : ThreadId) (c : ContextId) (count : Nat)
deriving DecidableEq, Repr

inductive Action where
  | shift (a : Shift.Action)
  | found (config : Config) (devices : DirectoryId) (attributes : RegistryId) (roster : RosterId)
  | make (c : ContextId) (m : Making)
  /-- Asked for, or because the context is dropped. -/
  | shutdown (c : ContextId)
  /-- A section of the shutdown in progress. -/
  | step

end Plant

structure Plant where
  shift : Shift := {}
  contexts : List Context := []
  /-- In somebody's hands, or a context's root. -/
  tokens : List StopToken := []
  products : List (ContextId × Plant.Product) := []
  /-- The shutdowns in progress, each by the thread that it runs on. -/
  calls : ThreadId → Option (ContextId × Context.Shutdown) := fun _ => none
  log : List Plant.Entry := []

namespace Plant

def isFree (s : Plant) (t : ThreadId) : Bool := (s.shift.threads t).isFree && (s.calls t).isNone

/-- A shutdown in progress has still to terminate the worker. -/
def holds (s : Plant) (w : WorkerId) : Bool :=
  (List.range s.shift.born).any fun t =>
    match s.calls t with
    | some (_, .stopping rest _) => rest.contains w
    | _ => false

/-- A thread does nothing else while it shuts a context down, and uses no tokens but those in somebody's hands. -/
def permits (s : Plant) (t : ThreadId) : Shift.Action → Bool
  | .chore c => (s.calls t).isNone && Shift.Action.isWithin s.tokens (.chore c)
  | .order .. | .finish _ => (s.calls t).isNone
  | .release w => !s.holds w
  | .arrive | .lose _ | .advance .. | .proceed => true

def heard (s : Plant) (t : ThreadId) (shift : Shift) : List Entry :=
  match s.calls t, (s.shift.threads t).errand, (shift.threads t).errand with
  | some _, some e, none => [.stopped t e.worker]
  | _, _, _ => []

def based (s : Plant) (t : ThreadId) (a : Shift.Action) (shift : Shift) : Plant :=
  { s with shift, tokens := s.tokens ++ a.issues s.shift.force, log := s.log ++ s.heard t shift }

def calling (s : Plant) (t : ThreadId) (call : Option (ContextId × Context.Shutdown)) (es : List Entry) : Plant :=
  { s with calls := fun u => if u = t then call else s.calls u, log := s.log ++ es }

def follow (s : Plant) (t : ThreadId) (c : ContextId) : Context.Stopping → Option Plant
  | .goes (.stopping ws count) => some (s.calling t (some (c, .stopping ws count)) [.listed t ws])
  | .goes stage => some (s.calling t (some (c, stage)) [])
  | .terminates w stage =>
    (s.shift.act t (.order .terminate w)).map fun shift => { s.calling t (some (c, stage)) [.told t w] with shift }
  | .ends count => some (s.calling t none [.ended t c count])

def act (s : Plant) (t : ThreadId) : Action → Option Plant
  | .shift a => if s.permits t a then (s.shift.act t a).map (s.based t a) else none
  | .found config devices attributes roster =>
    if s.isFree t then
      (s.shift.act t (.chore (.derive none))).map fun shift =>
        let root := (s.shift.force.tokens.derive none).1
        { s.based t (.chore (.derive none)) shift with
          contexts := s.contexts ++ [{ config, devices, attributes, roster, root }] }
    else none
  | .make c m =>
    match s.contexts[c]? with
    | some x =>
      if s.isFree t then
        (s.shift.act t (.chore (m.chore x))).map fun shift =>
          { s.based t (.chore (m.chore x)) shift with products := s.products ++ [(c, m.product s.shift.force x)] }
      else none
    | none => none
  | .shutdown c =>
    if s.isFree t && s.contexts[c]?.isSome then some (s.calling t (some (c, .claiming)) [.begun t c]) else none
  | .step =>
    match s.calls t with
    | some (c, stage) =>
      match s.contexts[c]? with
      | some x =>
        if (s.shift.threads t).isFree then
          let (outcome, x, force) := stage.advance x s.shift.force
          { s with contexts := s.contexts.set c x, shift := { s.shift with force } }.follow t c outcome
        else none
      | none => none
    | none => none

def run (s : Plant) (moves : List (ThreadId × Action)) : Option Plant := Threads.run act s moves

section

variable {s : Plant} {t u : ThreadId} {call : Option (ContextId × Context.Shutdown)} {es : List Entry} {a : Shift.Action}
  {shift : Shift}

@[simp] theorem based_shift : (s.based t a shift).shift = shift := rfl

@[simp] theorem based_contexts : (s.based t a shift).contexts = s.contexts := rfl

@[simp] theorem based_calls : (s.based t a shift).calls = s.calls := rfl

@[simp] theorem based_log : (s.based t a shift).log = s.log ++ s.heard t shift := rfl

@[simp] theorem calling_self (es : List Entry) : (s.calling t call es).calls t = call := if_pos rfl

theorem calling_other (other : u ≠ t) : (s.calling t call es).calls u = s.calls u := if_neg other

@[simp] theorem calling_shift : (s.calling t call es).shift = s.shift := rfl

@[simp] theorem calling_contexts : (s.calling t call es).contexts = s.contexts := rfl

@[simp] theorem calling_log : (s.calling t call es).log = s.log ++ es := rfl

end

/-! ### What a move can do -/

/-- A section of thread `t`'s shutdown of context `c`. -/
inductive Stepped (s : Plant) (t : ThreadId) (c : ContextId) (x : Context) : Plant → Prop
  /-- The context has been shut down before. -/
  | again (call : s.calls t = some (c, .claiming)) (before : x.stopped = true) :
    Stepped s t c x (s.calling t none [.ended t c 0])
  | claim (call : s.calls t = some (c, .claiming)) (first : x.stopped = false) :
    Stepped s t c x
      { s.calling t (some (c, .cancelling)) [] with contexts := s.contexts.set c { x with stopped := true } }
  | cancel (call : s.calls t = some (c, .cancelling)) :
    Stepped s t c x { s.calling t (some (c, .listing)) [] with
      shift := { s.shift with force := Shift.Chore.perform s.shift.force (.cancel x.root) } }
  | list {ws} (call : s.calls t = some (c, .listing))
    (members : ws = (s.shift.force.roster x.roster).workers s.shift.force.isAlive x.config.stopOrder) :
    Stepped s t c x (s.calling t (some (c, .stopping ws 0)) [.listed t ws])
  | tell {w rest count shift} (call : s.calls t = some (c, .stopping (w :: rest) count))
    (acted : s.shift.act t (.order .terminate w) = some shift) :
    Stepped s t c x { s.calling t (some (c, .stopping rest (count + 1))) [.told t w] with shift }
  | done {count} (call : s.calls t = some (c, .stopping [] count)) :
    Stepped s t c x (s.calling t none [.ended t c count])

inductive Turn (s : Plant) (t : ThreadId) : Action → Plant → Prop
  | shift {a shift} (permitted : s.permits t a = true) (acted : s.shift.act t a = some shift) :
    Turn s t (.shift a) (s.based t a shift)
  | found {config devices attributes roster shift} (acted : s.shift.act t (.chore (.derive none)) = some shift) :
    Turn s t (.found config devices attributes roster) { s.based t (.chore (.derive none)) shift with
      contexts := s.contexts ++ [⟨config, devices, attributes, roster, (s.shift.force.tokens.derive none).1, false⟩] }
  | make {c m x shift} (there : s.contexts[c]? = some x) (acted : s.shift.act t (.chore (m.chore x)) = some shift) :
    Turn s t (.make c m) { s.based t (.chore (m.chore x)) shift with
      products := s.products ++ [(c, m.product s.shift.force x)] }
  | shutdown {c} (free : s.isFree t = true) : Turn s t (.shutdown c) (s.calling t (some (c, .claiming)) [.begun t c])
  | step {c x after} (free : (s.shift.threads t).isFree = true) (there : s.contexts[c]? = some x)
    (stepped : Stepped s t c x after) : Turn s t .step after

variable {s s' : Plant} {t u : ThreadId} {a : Action} {c d : ContextId} {x y : Context}

theorem set_same (there : s.contexts[c]? = some x) : s.contexts.set c x = s.contexts := by
  apply List.ext_getElem?
  intro d
  rw [List.getElem?_set]
  split
  · rename_i here
    subst here
    obtain ⟨inside, _⟩ := List.getElem?_eq_some_iff.mp there
    rw [if_pos inside, there]
  · rfl

theorem stepped_of_act {stage : Context.Shutdown} (call : s.calls t = some (c, stage)) (there : s.contexts[c]? = some x)
    (h : { s with
        contexts := s.contexts.set c (stage.advance x s.shift.force).2.1
        shift := { s.shift with force := (stage.advance x s.shift.force).2.2 } }.follow t c
          (stage.advance x s.shift.force).1 = some s') : Stepped s t c x s' := by
  cases stage with
  | claiming =>
    simp only [Context.Shutdown.advance] at h
    cases before : x.stopped with
    | true =>
      have same : { x with stopped := true } = x := by rw [← before]
      rw [before, same, set_same there] at h
      cases h
      exact .again call before
    | false =>
      rw [before] at h
      cases h
      exact .claim call before
  | cancelling =>
    simp only [Context.Shutdown.advance, set_same there] at h
    cases h
    exact .cancel call
  | listing =>
    simp only [Context.Shutdown.advance, set_same there] at h
    cases h
    exact .list call rfl
  | stopping rest count =>
    cases rest with
    | nil =>
      simp only [Context.Shutdown.advance, set_same there] at h
      cases h
      exact .done call
    | cons w rest =>
      simp only [Context.Shutdown.advance, set_same there, follow, Option.map_eq_some_iff] at h
      obtain ⟨shift, acted, rfl⟩ := h
      exact .tell call acted

theorem turn_of_act (h : s.act t a = some s') : Turn s t a s' := by
  cases a with
  | shift a =>
    simp only [act, Option.ite_none_right_eq_some, Option.map_eq_some_iff] at h
    obtain ⟨permitted, shift, acted, rfl⟩ := h
    exact .shift permitted acted
  | found config devices attributes roster =>
    simp only [act, Option.ite_none_right_eq_some, Option.map_eq_some_iff] at h
    obtain ⟨_, shift, acted, rfl⟩ := h
    exact .found acted
  | make c m =>
    simp only [act] at h
    split at h
    · rename_i x there
      simp only [Option.ite_none_right_eq_some, Option.map_eq_some_iff] at h
      obtain ⟨_, shift, acted, rfl⟩ := h
      exact .make there acted
    · cases h
  | shutdown c =>
    simp only [act, Option.ite_none_right_eq_some, Bool.and_eq_true, Option.some.injEq] at h
    obtain ⟨⟨free, _⟩, rfl⟩ := h
    exact .shutdown free
  | step =>
    simp only [act] at h
    split at h
    · rename_i c stage call
      split at h
      · rename_i x there
        simp only [Option.ite_none_right_eq_some] at h
        obtain ⟨free, h⟩ := h
        exact .step free there (stepped_of_act call there h)
      · cases h
    · cases h

end Plant

end Switchboard
