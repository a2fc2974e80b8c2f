import Switchboard.Proofs.Dispatch.Turn

/-!
The gate of a dispatcher in use. `gate_discipline`: at most one thread drains, the gate's mark says
which, an active dispatcher that nobody drains has nothing in its backlog, and so whoever reopens it
leaves it drained or closed again.
-/

namespace Switchboard.Dispatch

variable {β ι η : Type} [Backlog β ι] [LawfulBacklog β ι]
  {stamp : Nat → ι → ι} {t : ThreadId} {n : Nat} {d d' : Dispatcher β ι η} {fs fs' : List (Frame ι η)}
  {es : List (Entry ι η)}

/-! ### Calls keep to their course -/

def Frame.OnCourse (f : Frame ι η) : Prop := f.stage.course = f.op.course

omit [Backlog β ι] [LawfulBacklog β ι] in
theorem phase_course (op : Operation ι η) : (Stage.at op.phase).course = op.course := by
  cases op with
  | request r =>
    cases r with
    | dispatch | suspend => rfl
    | resume discard => cases discard <;> rfl
  | dispatchPreset => rfl
  | bind h suspended => cases suspended <;> rfl

theorem turn_onCourse (turn : Turn stamp t n d fs d' fs' es) (before : ∀ f ∈ fs, f.OnCourse) :
    ∀ f ∈ fs', f.OnCourse := by
  cases turn with
  | call op => exact List.forall_mem_cons.mpr ⟨phase_course op, before⟩
  | queue | refuse | lack | suspend | discard | bindSuspended | reopenInside | reopenEmpty | wake | stop
    | settleDirect => exact (List.forall_mem_cons.mp before).2
  | pass | choose | bindActive | claim | wait | take | lose | settleDrained =>
    exact List.forall_mem_cons.mpr ⟨(List.forall_mem_cons.mp before).1, (List.forall_mem_cons.mp before).2⟩
  | @enter _ _ _ _ k =>
    refine List.forall_mem_cons.mpr ⟨?_, (List.forall_mem_cons.mp before).2⟩
    cases k <;> exact (List.forall_mem_cons.mp before).1
  | preset => exact before

/-! ### The drainer -/

/-- How many of a thread's calls are inside the drain loop. -/
def drains (fs : List (Frame ι η)) : Nat := fs.countP fun f => f.stage.drains

/-- The gate's mark is a thread's own exactly when it drains, and it drains in one call only. -/
def Marked (d : Dispatcher β ι η) (t : ThreadId) (fs : List (Frame ι η)) : Prop :=
  drains fs = if d.gate.drainer = some t then 1 else 0

omit [Backlog β ι] [LawfulBacklog β ι] in
theorem drainer_of_draining {f : Frame ι η} {below : List (Frame ι η)} (marked : Marked d t (f :: below))
    (draining : f.stage.drains = true) : d.gate.drainer = some t ∧ drains below = 0 := by
  unfold Marked drains at marked
  rw [List.countP_cons_of_pos (by exact draining)] at marked
  split at marked
  · exact ⟨by assumption, by unfold drains; omega⟩
  · omega

omit [Backlog β ι] [LawfulBacklog β ι] in
theorem phase_drains (op : Operation ι η) : (Stage.at op.phase).drains = false := by
  cases op with
  | request r =>
    cases r with
    | dispatch | suspend => rfl
    | resume discard => cases discard <;> rfl
  | dispatchPreset | bind => rfl

theorem turn_marked (turn : Turn stamp t n d fs d' fs' es) (marked : Marked d t fs) : Marked d' t fs' := by
  cases turn with
  | call op => simpa [Marked, drains, phase_drains] using marked
  | bindSuspended | bindActive =>
    simpa [Marked, drains, Stage.drains, Dispatcher.bind, Dispatcher.suspend] using marked
  | claim idle => simpa [Marked, drains, Stage.drains, idle] using marked
  | stop =>
    obtain ⟨_, below⟩ := drainer_of_draining marked rfl
    simpa [Marked] using below
  | @enter _ _ _ _ k => cases k <;> exact marked
  | queue | pass | refuse | choose | lack | suspend | discard | wait | reopenInside | reopenEmpty | wake | take | lose
    | settleDirect | settleDrained | preset => exact marked

/-- No thread takes away or sets another thread's mark. -/
theorem turn_drainer_other {u : ThreadId} (turn : Turn stamp t n d fs d' fs' es) (marked : Marked d t fs)
    (other : u ≠ t) : d'.gate.drainer = some u ↔ d.gate.drainer = some u := by
  cases turn with
  | bindSuspended | bindActive => simp [Dispatcher.bind, Dispatcher.suspend]
  | claim idle => simp [idle, Ne.symm other]
  | stop =>
    obtain ⟨mine, _⟩ := drainer_of_draining marked rfl
    simp [mine, Ne.symm other]
  | _ => exact Iff.rfl

/-! ### The backlog of an active dispatcher -/

/-- Nothing waits in a dispatcher that is active and that nobody drains. -/
def Dispatcher.Settled (d : Dispatcher β ι η) : Prop :=
  d.gate.suspended = false → d.gate.drainer = none → d.queue = []

theorem turn_settled (turn : Turn stamp t n d fs d' fs' es) (marked : Marked d t fs) (settled : d.Settled) :
    d'.Settled := by
  cases turn with
  | queue queues =>
    intro active idle
    simp_all [Gate.queues]
  | suspend | bindSuspended => intro active _; cases active
  | discard => intro _ _; exact LawfulBacklog.items_empty
  | bindActive => exact settled
  | claim => intro _ idle; cases idle
  | wait drainer | reopenInside drainer => intro _ idle; cases drainer.symm.trans idle
  | reopenEmpty _ empty => intro _ _; exact empty
  | stop closed =>
    intro active _
    exact closed.resolve_left (by simpa using active)
  | take | lose =>
    intro _ idle
    obtain ⟨mine, _⟩ := drainer_of_draining marked rfl
    cases mine.symm.trans idle
  | call | pass | refuse | choose | lack | wake | enter | settleDirect | settleDrained | preset => exact settled

/-! ### Whole runs -/

namespace System

def Draining (s : System β ι η) (t : ThreadId) : Prop := ∃ f ∈ s.threads t, f.stage.drains = true

structure Gated (s : System β ι η) : Prop where
  onCourse : ∀ t, ∀ f ∈ s.threads t, f.OnCourse
  marked : ∀ t, Marked s.dispatcher t (s.threads t)
  settled : s.dispatcher.Settled

theorem fresh_gated : (fresh : System β ι η).Gated where
  onCourse _ _ member := by cases member
  marked _ := rfl
  settled _ _ := LawfulBacklog.items_empty

theorem turn_gated (s : System β ι η) (gated : s.Gated)
    (turn : Turn stamp t s.log.length s.dispatcher (s.threads t) d fs es) : (s.after t d fs es).Gated where
  onCourse :=
    forall_after (P := fun _ fs => ∀ f ∈ fs, f.OnCourse) (turn_onCourse turn (gated.onCourse t))
      fun u _ => gated.onCourse u
  marked := by
    refine forall_after (P := Marked d) (turn_marked turn (gated.marked t)) fun u other => ?_
    have drainer := turn_drainer_other turn (gated.marked t) other
    simpa only [Marked, drainer] using gated.marked u
  settled := turn_settled turn (gated.marked t) gated.settled

theorem drainer_iff {s : System β ι η} (gated : s.Gated) (t : ThreadId) :
    s.dispatcher.gate.drainer = some t ↔ s.Draining t := by
  have marked := gated.marked t
  unfold Marked drains at marked
  constructor
  · intro mine
    rw [if_pos mine] at marked
    exact List.countP_pos_iff.mp (by omega)
  · intro draining
    have some := List.countP_pos_iff.mpr draining
    split at marked
    · assumption
    · omega

end System

/-! ### What a reopening leaves behind -/

/-- A reopening made from outside the thread's own drain returns at a section that leaves the dispatcher
without a drainer, and with nothing in the backlog unless it is suspended. -/
theorem turn_reopening_returns {f : Frame ι η} {below : List (Frame ι η)} (turn : Turn stamp t n d fs d' fs' es)
    (stack : fs = f :: below) (returned : fs' = below) (marked : Marked d t fs) (settled : d.Settled)
    (onCourse : f.OnCourse) (reopening : f.op.course = .reopening) (outside : drains below = 0) :
    d'.gate.drainer = none ∧ (d'.queue = [] ∨ d'.gate.suspended = true) := by
  have course : f.stage.course = .reopening := onCourse.trans reopening
  cases turn with
  | reopenInside drainer =>
    -- The mark is the thread's own, so one of the calls below drains.
    rw [← (List.cons.inj stack).2] at outside
    unfold Marked at marked
    rw [if_pos drainer] at marked
    have one : drains fs' = 1 := by simpa [drains, Stage.drains] using marked
    omega
  | reopenEmpty idle empty => exact ⟨idle, Or.inl empty⟩
  | wake idle =>
    refine ⟨idle, ?_⟩
    cases suspended : d.gate.suspended with
    | true => exact Or.inr rfl
    | false => exact Or.inl (settled suspended idle)
  | stop closed => exact ⟨rfl, closed.symm⟩
  | queue | refuse | lack | suspend | discard | bindSuspended | settleDirect =>
    obtain ⟨rfl, rfl⟩ := List.cons.inj stack
    cases course
  | call => subst stack; exact absurd (congrArg List.length returned) (by simp; omega)
  | preset => subst stack; exact absurd returned (List.cons_ne_self _ _)
  | pass | choose | bindActive | claim | wait | take | lose | enter | settleDrained =>
    obtain ⟨_, rfl⟩ := List.cons.inj stack
    exact absurd returned (List.cons_ne_self _ _)

/-- Such a call does not return from a handler's run. -/
theorem reopening_returns_by_advance {f : Frame ι η} {below : List (Frame ι η)} {a : Action ι η}
    (moved : turn? stamp t n d (f :: below) a = some (d', below, es)) (onCourse : f.OnCourse)
    (reopening : f.op.course = .reopening) : a = .advance := by
  have course : f.stage.course = .reopening := onCourse.trans reopening
  obtain ⟨m, op, stage⟩ := f
  cases a with
  | advance => rfl
  | call op =>
    simp only [turn?, Option.ite_none_right_eq_some, Option.some.injEq, Prod.mk.injEq] at moved
    exact absurd (congrArg List.length moved.2.2.1) (by simp; omega)
  | preset =>
    simp only [turn?, Option.ite_none_right_eq_some, Option.some.injEq, Prod.mk.injEq] at moved
    exact absurd moved.2.2.1 (List.cons_ne_self _ _)
  | enter =>
    cases stage with
    | calling h x k =>
      simp only [turn?, Option.some.injEq, Prod.mk.injEq] at moved
      exact absurd moved.2.1 (List.cons_ne_self _ _)
    | «at» | handling => simp [turn?] at moved
  | settle v =>
    cases stage with
    | handling x k =>
      cases k with
      | direct => cases course
      | drained r =>
        simp only [turn?, Awaiting.settle, Frame.land, Option.map_some, Option.some.injEq, Prod.mk.injEq] at moved
        exact absurd moved.2.1 (List.cons_ne_self _ _)
    | «at» | calling => simp [turn?] at moved

theorem course_reopening {op : Operation ι η} (reopens : op = .request (.resume false) ∨ ∃ h, op = .bind h false) :
    op.course = .reopening := by
  rcases reopens with rfl | ⟨h, rfl⟩ <;> rfl

/-- A call that reopens the gate, made from outside the thread's own drain, leaves nothing behind when it returns. -/
theorem reopening_leaves {s s' : System β ι η} {a : Action ι η} {f : Frame ι η} {below : List (Frame ι η)}
    (gated : s.Gated) (acted : s.act stamp t a = some s') (stack : s.threads t = f :: below)
    (returned : s'.threads t = below) (reopens : f.op = .request (.resume false) ∨ ∃ h, f.op = .bind h false)
    (outside : ∀ g ∈ below, g.stage.drains = false) :
    a = .advance ∧ s'.dispatcher.gate.drainer = none ∧
      (s'.dispatcher.pending = 0 ∨ s'.dispatcher.gate.suspended = true) := by
  have reopening := course_reopening reopens
  have onCourse : f.OnCourse := gated.onCourse t f (by simp [stack])
  have none : drains below = 0 := List.countP_eq_zero.mpr fun g member => by simp [outside g member]
  obtain ⟨⟨d, fs, es⟩, moved, rfl⟩ := Option.map_eq_some_iff.mp acted
  have ended : fs = below := by simpa using returned
  have turn := turn_of_turn? moved
  obtain ⟨idle, left⟩ :=
    turn_reopening_returns turn stack ended (gated.marked t) gated.settled onCourse reopening none
  rw [stack, ended] at moved
  refine ⟨reopening_returns_by_advance moved onCourse reopening, idle, ?_⟩
  rwa [System.after_dispatcher, pending_eq, List.length_eq_zero_iff]

end Switchboard.Dispatch
