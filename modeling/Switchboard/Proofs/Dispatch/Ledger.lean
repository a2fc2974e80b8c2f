import Switchboard.Proofs.Dispatch.Gate

/-!
What the log says has become of every item, against what the state of the system says. Each law here is
a balance: what has come in is what has gone out and, after it, what is still inside.
-/

namespace Switchboard.Dispatch

variable {β ι η : Type}

/-! ### Reading the log -/

namespace Entry

@[simp] def admitted? : Entry ι η → Option ι
  | queued x | passed x => some x
  | _ => none

@[simp] def queued? : Entry ι η → Option ι
  | queued x => some x
  | _ => none

@[simp] def passed? : Entry ι η → Option ι
  | passed x => some x
  | _ => none

@[simp] def taken? : Entry ι η → Option ι
  | taken x => some x
  | _ => none

@[simp] def discarded? : Entry ι η → Option ι
  | discarded x => some x
  | _ => none

@[simp] def left? : Entry ι η → Option ι
  | taken x | discarded x => some x
  | _ => none

@[simp] def started? : Entry ι η → Option ι
  | started x _ _ => some x
  | _ => none

/-- Items that are beyond recall: handed to a handler or discarded. -/
@[simp] def gone? : Entry ι η → Option ι
  | started x _ _ | discarded x => some x
  | _ => none

@[simp] def startedDrained? : Entry ι η → Option ι
  | started x _ (.drained _) => some x
  | _ => none

@[simp] def startedDirect? : Entry ι η → Option ι
  | started x _ .direct => some x
  | _ => none

@[simp] def finishedDrained? : Entry ι η → Option ι
  | finished x (.drained _) _ => some x
  | _ => none

@[simp] def bound? : Entry ι η → Option η
  | bound h => some h
  | _ => none

@[simp] def report? : Entry ι η → Option Report
  | returned _ (.report r) => some r
  | _ => none

@[simp] def repliesQueued : Entry ι η → Bool
  | returned _ (.outcome (.ok .queued)) => true
  | _ => false

end Entry

theorem filterMap_split {α γ : Type} {f g h : α → Option γ}
    (split : ∀ a, (f a = g a ∧ h a = none) ∨ (f a = h a ∧ g a = none)) (xs : List α) :
    (xs.filterMap f).Perm (xs.filterMap g ++ xs.filterMap h) := by
  induction xs with
  | nil => rfl
  | cons a rest ih =>
    rcases split a with ⟨same, none⟩ | ⟨same, none⟩
    · rw [List.filterMap_cons_none none, List.filterMap_cons, List.filterMap_cons, same]
      cases g a with
      | none => exact ih
      | some y => exact ih.cons y
    · rw [List.filterMap_cons_none none, List.filterMap_cons, List.filterMap_cons, same]
      cases h a with
      | none => exact ih
      | some y => exact (ih.cons y).trans List.perm_middle.symm

theorem admitted_split (log : List (Entry ι η)) :
    (log.filterMap Entry.admitted?).Perm (log.filterMap Entry.queued? ++ log.filterMap Entry.passed?) :=
  filterMap_split (fun e => by cases e <;> simp) log

theorem left_split (log : List (Entry ι η)) :
    (log.filterMap Entry.left?).Perm (log.filterMap Entry.taken? ++ log.filterMap Entry.discarded?) :=
  filterMap_split (fun e => by cases e <;> simp) log

theorem gone_split (log : List (Entry ι η)) :
    (log.filterMap Entry.gone?).Perm (log.filterMap Entry.started? ++ log.filterMap Entry.discarded?) :=
  filterMap_split (fun e => by cases e <;> simp) log

theorem started_split (log : List (Entry ι η)) : (log.filterMap Entry.started?).Perm
    (log.filterMap Entry.startedDrained? ++ log.filterMap Entry.startedDirect?) := by
  refine filterMap_split (fun e => ?_) log
  cases e with
  | started x h k => cases k <;> simp
  | _ => simp

namespace System

/-- The items admitted so far, in order of admission. -/
def admitted (s : System β ι η) : List ι := s.log.filterMap Entry.admitted?

/-- The items that handlers have been entered with, in that order. -/
def started (s : System β ι η) : List ι := s.log.filterMap Entry.started?

def discarded (s : System β ι η) : List ι := s.log.filterMap Entry.discarded?

def reports (s : System β ι η) : List Report := s.log.filterMap Entry.report?

theorem after_admitted (s : System β ι η) (t : ThreadId) (d : Dispatcher β ι η) (fs : List (Frame ι η))
    (es : List (Entry ι η)) : (s.after t d fs es).admitted = s.admitted ++ es.filterMap Entry.admitted? :=
  List.filterMap_append

theorem mem_started {s : System β ι η} {x : ι} : x ∈ s.started ↔ ∃ h k, .started x h k ∈ s.log := by
  unfold started
  rw [List.mem_filterMap]
  constructor
  · rintro ⟨e, member, reads⟩
    match e, reads with
    | .started _ h k, rfl => exact ⟨h, k, member⟩
  · rintro ⟨h, k, member⟩
    exact ⟨_, member, rfl⟩

theorem mem_discarded {s : System β ι η} {x : ι} : x ∈ s.discarded ↔ .discarded x ∈ s.log := by
  unfold discarded
  rw [List.mem_filterMap]
  constructor
  · rintro ⟨e, member, reads⟩
    match e, reads with
    | .discarded _, rfl => exact member
  · intro member
    exact ⟨_, member, rfl⟩

end System

section

variable [Backlog β ι] [LawfulBacklog β ι] {stamp : Nat → ι → ι} {t : ThreadId} {n : Nat}
  {d d' : Dispatcher β ι η} {fs fs' : List (Frame ι η)} {es : List (Entry ι η)}

/-! ### The backlog -/

/-- First in, first out: the items queued are those that have left, in the same order, and then those
still held. -/
theorem turn_queue (turn : Turn stamp t n d fs d' fs' es) :
    d.queue ++ es.filterMap Entry.queued? = es.filterMap Entry.left? ++ d'.queue := by
  cases turn with
  | queue => simp [List.filterMap_cons, Dispatcher.queue, LawfulBacklog.items_push]
  | discard =>
    have empty : d.discard.2.queue = [] := LawfulBacklog.items_empty
    simp [List.filterMap_cons, List.filterMap_map, Function.comp_def, empty]
  | bindSuspended | bindActive =>
    simp [List.filterMap_cons, Dispatcher.queue, Dispatcher.bind, Dispatcher.suspend]
  | take _ head | lose _ head => simp [List.filterMap_cons, head]
  | _ => simp [List.filterMap_cons, Dispatcher.queue, Dispatcher.suspend, Dispatcher.reopen]

/-! ### Handlers -/

def boundIn (log : List (Entry ι η)) : Option η := (log.filterMap Entry.bound?).getLast?

/-- The entry of a section that picks an item for a handler: past the backlog, or out of it. -/
def Awaiting.picks (x : ι) : Awaiting → Entry ι η
  | direct => .passed x
  | drained _ => .taken x

def PickedFor (log : List (Entry ι η)) (x : ι) (h : η) (k : Awaiting) : Prop :=
  ∃ before after, log = before ++ k.picks x :: after ∧ boundIn before = some h

def StartsPicked (log : List (Entry ι η)) : Prop :=
  ∀ x h k, .started x h k ∈ log → ∃ before after, log = before ++ .started x h k :: after ∧ PickedFor before x h k

def FinishesStarted (log : List (Entry ι η)) : Prop :=
  ∀ x k v, .finished x k v ∈ log → ∃ h, .started x h k ∈ log

/-- The log knows the handler that a call is about to enter, or has entered. -/
def Frame.Assigned (log : List (Entry ι η)) (f : Frame ι η) : Prop :=
  match f.stage with
  | .calling h x k => PickedFor log x h k
  | .handling x k => ∃ h, .started x h k ∈ log
  | .at _ => True

omit [Backlog β ι] [LawfulBacklog β ι] in
theorem picked_append {log : List (Entry ι η)} {x : ι} {h : η} {k : Awaiting} (picked : PickedFor log x h k)
    (es : List (Entry ι η)) : PickedFor (log ++ es) x h k := by
  obtain ⟨before, after, rfl, bound⟩ := picked
  exact ⟨before, after ++ es, by simp, bound⟩

omit [Backlog β ι] [LawfulBacklog β ι] in
theorem started_picks {log : List (Entry ι η)} {x : ι} {h : η} {k : Awaiting} (starts : StartsPicked log)
    (started : .started x h k ∈ log) : k.picks x ∈ log := by
  obtain ⟨before, after, rfl, first, rest, rfl, _⟩ := starts x h k started
  simp

omit [Backlog β ι] [LawfulBacklog β ι] in
theorem discards_filterMap_none {α : Type} {f : Entry ι η → Option α} (ignored : ∀ x, f (.discarded x) = none)
    (q : List ι) : (q.map Entry.discarded).filterMap f = [] := by
  rw [List.filterMap_eq_nil_iff]
  intro e member
  obtain ⟨x, _, rfl⟩ := List.mem_map.mp member
  exact ignored x

theorem turn_bound {log : List (Entry ι η)} (turn : Turn stamp t n d fs d' fs' es) (bound : d.handler = boundIn log) :
    d'.handler = boundIn (log ++ es) := by
  unfold boundIn at bound ⊢
  rw [List.filterMap_append, List.getLast?_append]
  cases turn with
  | discard =>
    rw [List.filterMap_append, discards_filterMap_none fun _ => rfl]
    exact bound
  | bindSuspended | bindActive => rfl
  | _ => exact bound

omit [Backlog β ι] [LawfulBacklog β ι] in
theorem assigned_append {log : List (Entry ι η)} {f : Frame ι η} (assigned : f.Assigned log) (es : List (Entry ι η)) :
    f.Assigned (log ++ es) := by
  unfold Frame.Assigned at assigned ⊢
  split at assigned
  · exact picked_append assigned es
  · obtain ⟨h, started⟩ := assigned
    exact ⟨h, List.mem_append_left es started⟩
  · trivial

theorem turn_assigned {log : List (Entry ι η)} (turn : Turn stamp t n d fs d' fs' es) (bound : d.handler = boundIn log)
    (assigned : ∀ f ∈ fs, f.Assigned log) : ∀ f ∈ fs', f.Assigned (log ++ es) := by
  have kept : ∀ f ∈ fs, f.Assigned (log ++ es) := fun f member => assigned_append (assigned f member) es
  cases turn with
  | queue | refuse | lack | suspend | discard | bindSuspended | reopenInside | reopenEmpty | wake | stop
    | settleDirect => exact (List.forall_mem_cons.mp kept).2
  | call => exact List.forall_mem_cons.mpr ⟨trivial, kept⟩
  | choose | bindActive | claim | wait | lose | settleDrained =>
    exact List.forall_mem_cons.mpr ⟨trivial, (List.forall_mem_cons.mp kept).2⟩
  | enter =>
    refine List.forall_mem_cons.mpr ⟨?_, (List.forall_mem_cons.mp kept).2⟩
    exact ⟨_, List.mem_append_right log List.mem_cons_self⟩
  | pass _ handler | take _ _ handler =>
    refine List.forall_mem_cons.mpr ⟨?_, (List.forall_mem_cons.mp kept).2⟩
    exact ⟨log, [], rfl, bound.symm.trans handler⟩
  | preset => exact kept

theorem turn_startsPicked {log : List (Entry ι η)} (turn : Turn stamp t n d fs d' fs' es)
    (assigned : ∀ f ∈ fs, f.Assigned log) (before : StartsPicked log) : StartsPicked (log ++ es) := by
  intro x h k member
  rcases List.mem_append.mp member with old | new
  · obtain ⟨first, rest, rfl, chosen⟩ := before x h k old
    exact ⟨first, rest ++ es, by simp, chosen⟩
  · cases turn with
    | enter =>
      cases List.mem_singleton.mp new
      exact ⟨log, [], rfl, assigned _ List.mem_cons_self⟩
    | _ => simp at new

theorem turn_finishesStarted {log : List (Entry ι η)} (turn : Turn stamp t n d fs d' fs' es)
    (assigned : ∀ f ∈ fs, f.Assigned log) (before : FinishesStarted log) : FinishesStarted (log ++ es) := by
  intro x k v member
  rcases List.mem_append.mp member with old | new
  · obtain ⟨h, started⟩ := before x k v old
    exact ⟨h, List.mem_append_left es started⟩
  · cases turn with
    | settleDirect | settleDrained =>
      obtain ⟨h, started⟩ := assigned _ List.mem_cons_self
      obtain ⟨rfl, rfl, rfl⟩ : x = _ ∧ k = _ ∧ v = _ := by simpa using new
      exact ⟨h, List.mem_append_left _ started⟩
    | _ => simp at new

namespace System

/-- What the log says of handlers agrees with what is bound and with the calls in progress. -/
structure Assigned (s : System β ι η) : Prop where
  bound : s.dispatcher.handler = boundIn s.log
  frames : ∀ t, ∀ f ∈ s.threads t, f.Assigned s.log
  starts : StartsPicked s.log
  finishes : FinishesStarted s.log

omit [LawfulBacklog β ι] in
theorem fresh_assigned : (fresh : System β ι η).Assigned := ⟨rfl, fun _ => nofun, nofun, nofun⟩

theorem turn_assigned (s : System β ι η) (assigned : s.Assigned)
    (turn : Turn stamp t s.log.length s.dispatcher (s.threads t) d fs es) : (s.after t d fs es).Assigned where
  bound := turn_bound turn assigned.bound
  frames :=
    forall_after (P := fun _ fs => ∀ f ∈ fs, f.Assigned (s.log ++ es))
      (Dispatch.turn_assigned turn assigned.bound (assigned.frames t))
      fun u _ f member => assigned_append (assigned.frames u f member) es
  starts := turn_startsPicked turn (assigned.frames t) assigned.starts
  finishes := turn_finishesStarted turn (assigned.frames t) assigned.finishes

end System

end

end Switchboard.Dispatch
