import Switchboard.Proofs.Dispatch.Gate

/-!
Handlers that panic. A panic takes its thread out of the call that the handler ran for, and nobody tells the dispatcher. A
call that was given its item straight leaves nothing behind. A drain leaves the gate's mark, which then names a thread that
does not drain: nothing is handed out any more, and whoever resumes waits forever. Main statement: `gate_under_panics`.
-/

namespace Switchboard.Dispatch

variable {β ι η : Type}

inductive Happening (ι η : Type) where
  | move (a : Action ι η)
  /-- The running handler panics, or its thread is on the way of a panic already. -/
  | panic

/-- A dispatcher, the threads that use it, and the handlers' runs that a panic has ended. -/
structure Exposed (β ι η : Type) where
  system : System β ι η
  panics : List (ThreadId × Awaiting) := []

namespace Exposed

def fresh [Backlog β ι] : Exposed β ι η := { system := .fresh }

/-- A drain of thread `t` has been ended by a panic. -/
def Abandoned (p : Exposed β ι η) (t : ThreadId) : Prop := ∃ r, (t, .drained r) ∈ p.panics

variable [Backlog β ι] [LawfulBacklog β ι]

/-- After a panic the thread is where the call was made, inside a handler or outside. It may panic further or go on. -/
def act (stamp : Nat → ι → ι) (p : Exposed β ι η) (t : ThreadId) : Happening ι η → Option (Exposed β ι η)
  | .move a => (p.system.act stamp t a).map fun system => { p with system }
  | .panic =>
    match p.system.threads t with
    | ⟨_, _, .handling _ k⟩ :: below =>
      some { system := p.system.after t p.system.dispatcher below [], panics := p.panics ++ [(t, k)] }
    | _ => none

def run (stamp : Nat → ι → ι) (p : Exposed β ι η) (happenings : List (ThreadId × Happening ι η)) : Option (Exposed β ι η) :=
  Threads.run (act stamp) p happenings

end Exposed

variable [Backlog β ι] [LawfulBacklog β ι]
  {stamp : Nat → ι → ι} {t u : ThreadId} {n : Nat} {d d' : Dispatcher β ι η} {fs fs' : List (Frame ι η)}
  {es : List (Entry ι η)}

/-! ### A mark that nobody takes away -/

/-- While nobody drains, a mark stays, and the dispatcher lets nothing through. -/
theorem turn_marooned (turn : Turn stamp u n d fs d' fs' es) (mark : d.gate.drainer = some t) (nobody : drains fs = 0) :
    d'.gate.drainer = some t ∧ drains fs' = 0 ∧ ∀ x, .passed x ∉ es ∧ .taken x ∉ es := by
  cases turn with
  | call op => exact ⟨mark, by simpa [drains, phase_drains] using nobody, by simp⟩
  | pass opened => simp [Gate.queues, mark] at opened
  | claim idle | reopenEmpty idle | wake idle => cases mark.symm.trans idle
  | stop | take | lose | settleDrained => simp [drains, Stage.drains] at nobody
  | discard => exact ⟨mark, by simpa [drains, Stage.drains] using nobody, by simp⟩
  | bindSuspended | bindActive =>
    refine ⟨?_, by simpa [drains, Stage.drains] using nobody, by simp⟩
    simpa [Dispatcher.bind, Dispatcher.suspend] using mark
  | @enter _ _ _ _ k =>
    cases k with
    | direct => exact ⟨mark, nobody, by simp⟩
    | drained => simp [drains, Stage.drains] at nobody
  | queue | refuse | choose | lack | suspend | wait | reopenInside | settleDirect | preset =>
    exact ⟨mark, by simpa [drains, Stage.drains] using nobody, by simp⟩

namespace System

/-- The gate's mark is that of thread `t`, and nobody drains. -/
structure Wedged (s : System β ι η) (t : ThreadId) : Prop where
  mark : s.dispatcher.gate.drainer = some t
  nobody : ∀ u, drains (s.threads u) = 0

/-- From one state to the other the dispatcher has handed nothing to a handler. -/
def Withholds (s s' : System β ι η) : Prop := ∃ es, s'.log = s.log ++ es ∧ ∀ x, .passed x ∉ es ∧ .taken x ∉ es

variable {s s' s'' : System β ι η}

omit [Backlog β ι] [LawfulBacklog β ι] in
theorem withholds_refl (s : System β ι η) : s.Withholds s := ⟨[], (List.append_nil _).symm, by simp⟩

omit [Backlog β ι] [LawfulBacklog β ι] in
theorem Withholds.trans (first : s.Withholds s') (second : s'.Withholds s'') : s.Withholds s'' := by
  obtain ⟨es, log, none⟩ := first
  obtain ⟨es', log', none'⟩ := second
  refine ⟨es ++ es', by rw [log', log, List.append_assoc], fun x => ?_⟩
  simp [none x, none' x]

omit [Backlog β ι] [LawfulBacklog β ι] in
theorem not_draining_of_wedged (wedged : s.Wedged t) (u : ThreadId) : ¬ s.Draining u := by
  rintro ⟨f, member, draining⟩
  exact absurd draining (List.countP_eq_zero.mp (wedged.nobody u) f member)

theorem act_wedged {a : Action ι η} (wedged : s.Wedged t) (acted : s.act stamp u a = some s') :
    s'.Wedged t ∧ s.Withholds s' := by
  obtain ⟨d, fs, es, turn, rfl⟩ := turn_of_act acted
  obtain ⟨mark, nobody, none⟩ := turn_marooned turn wedged.mark (wedged.nobody u)
  refine ⟨⟨mark, ?_⟩, es, rfl, none⟩
  exact forall_after (P := fun _ fs => drains fs = 0) nobody fun v _ => wedged.nobody v

/-- Whoever waits for the drainer goes on waiting. -/
theorem blocked_of_wedged {f : Frame ι η} {below : List (Frame ι η)} (wedged : s.Wedged t)
    (stack : s.threads u = f :: below) (waits : f.stage = .at .waiting) : s.act stamp u .advance = none := by
  obtain ⟨m, op, stage⟩ := f
  obtain rfl : stage = .at .waiting := waits
  simp [act, turn?, stack, Phase.stamped, Phase.advance, wedged.mark, Frame.land]

/-! ### What a panic leaves behind -/

/-- A handler that was called straight takes its call along, and nothing else. -/
theorem gated_of_direct {m : Nat} {op : Operation ι η} {x : ι} {below : List (Frame ι η)} (gated : s.Gated)
    (stack : s.threads t = ⟨m, op, .handling x .direct⟩ :: below) : (s.after t s.dispatcher below []).Gated where
  onCourse := by
    have mine := gated.onCourse t
    rw [stack] at mine
    exact forall_after (P := fun _ fs => ∀ f ∈ fs, f.OnCourse) (List.forall_mem_cons.mp mine).2 fun u _ => gated.onCourse u
  marked := by
    have mine := gated.marked t
    rw [stack] at mine
    exact forall_after (P := Marked s.dispatcher) mine fun u _ => gated.marked u
  settled := gated.settled

/-- A handler that was called by a drain takes the drain along, and the mark stays. -/
theorem wedged_of_drained {m : Nat} {op : Operation ι η} {x : ι} {r : Report} {below : List (Frame ι η)} (gated : s.Gated)
    (stack : s.threads t = ⟨m, op, .handling x (.drained r)⟩ :: below) :
    (s.after t s.dispatcher below []).Wedged t := by
  have marked := gated.marked t
  rw [stack] at marked
  obtain ⟨mine, nobody⟩ := drainer_of_draining marked rfl
  refine ⟨mine, forall_after (P := fun _ fs => drains fs = 0) nobody fun u other => ?_⟩
  have marked := gated.marked u
  rwa [Marked, mine, if_neg fun same => other (Option.some.inj same).symm] at marked

omit [Backlog β ι] [LawfulBacklog β ι] in
theorem wedged_of_panic {f : Frame ι η} {below : List (Frame ι η)} (wedged : s.Wedged t)
    (stack : s.threads u = f :: below) :
    f.stage.drains = false ∧ (s.after u s.dispatcher below []).Wedged t := by
  have nobody := wedged.nobody u
  rw [stack, drains, List.countP_eq_zero] at nobody
  obtain ⟨outside, rest⟩ := List.forall_mem_cons.mp nobody
  refine ⟨by simpa using outside, wedged.mark, ?_⟩
  exact forall_after (P := fun _ fs => drains fs = 0) (List.countP_eq_zero.mpr rest) fun v _ => wedged.nobody v

/-- A reopening goes on when nobody has the mark: it drains, or there is nothing to drain and it returns. -/
theorem reopening_goes_on {f : Frame ι η} {below : List (Frame ι η)} (stack : s.threads t = f :: below)
    (reopens : f.stage = .at .reopening) (idle : s.dispatcher.gate.drainer = none) :
    ∃ s', s.act stamp t .advance = some s' ∧
      (s'.Draining t ∨ s'.threads t = below ∧ s'.dispatcher.pending = 0 ∧ s'.dispatcher.gate.drainer = none) := by
  obtain ⟨m, op, stage⟩ := f
  obtain rfl : stage = .at .reopening := reopens
  rcases claim_cases s.dispatcher t with ⟨_, _, claim⟩ | ⟨v, drainer, _⟩ | ⟨drainer, _⟩ | ⟨_, empty, claim⟩
  · refine ⟨_, by simp [act, turn?, stack, Phase.stamped, Phase.advance, claim, Frame.land]; rfl, Or.inl ?_⟩
    exact ⟨_, by rw [after_threads_self]; exact List.mem_cons_self, rfl⟩
  · cases idle.symm.trans drainer
  · cases idle.symm.trans drainer
  · refine ⟨_, by simp [act, turn?, stack, Phase.stamped, Phase.advance, claim, Frame.land]; rfl, Or.inr ?_⟩
    refine ⟨after_threads_self, ?_, idle⟩
    rw [after_dispatcher, pending_eq]
    exact congrArg List.length empty

end System

namespace Exposed

variable {p p' : Exposed β ι η} {h : Happening ι η}

inductive Standing (p : Exposed β ι η) : Prop
  | intact (gated : p.system.Gated) (never : ∀ t, ¬ p.Abandoned t)
  | wedged (t : ThreadId) (wedged : p.system.Wedged t) (only : ∀ u, p.Abandoned u ↔ u = t)

omit [Backlog β ι] [LawfulBacklog β ι] in
theorem abandoned_snoc {system : System β ι η} {ps : List (ThreadId × Awaiting)} {k : Awaiting} :
    Abandoned ⟨system, ps ++ [(t, k)]⟩ u ↔ Abandoned ⟨system, ps⟩ u ∨ u = t ∧ ∃ r, k = .drained r := by
  simp only [Abandoned, List.mem_append, List.mem_singleton, Prod.mk.injEq, exists_or, exists_and_left]
  exact or_congr_right (and_congr_right fun _ => exists_congr fun r => eq_comm)

theorem act_standing (standing : p.Standing) (acted : p.act stamp t h = some p') : p'.Standing := by
  cases h with
  | move a =>
    obtain ⟨s', moved, rfl⟩ := Option.map_eq_some_iff.mp acted
    cases standing with
    | intact gated never =>
      obtain ⟨d, fs, es, turn, rfl⟩ := System.turn_of_act moved
      exact .intact (System.turn_gated p.system gated turn) never
    | wedged u wedged only => exact .wedged u (System.act_wedged wedged moved).1 only
  | panic =>
    simp only [act] at acted
    split at acted
    · rename_i m op x k below stack
      cases acted
      cases standing with
      | intact gated never =>
        cases k with
        | direct =>
          refine .intact (System.gated_of_direct gated stack) fun u abandoned => ?_
          rcases abandoned_snoc.mp abandoned with before | ⟨_, _, drained⟩
          · exact never u before
          · cases drained
        | drained r =>
          refine .wedged t (System.wedged_of_drained gated stack) fun u => abandoned_snoc.trans ?_
          exact ⟨fun abandoned => (abandoned.resolve_left (never u)).1, fun same => Or.inr ⟨same, r, rfl⟩⟩
      | wedged u wedged only =>
        obtain ⟨outside, wedged'⟩ := System.wedged_of_panic wedged stack
        refine .wedged u wedged' fun v => abandoned_snoc.trans ((or_iff_left ?_).trans (only v))
        rintro ⟨_, r, rfl⟩
        cases outside
    · cases acted

theorem fresh_standing : (fresh : Exposed β ι η).Standing :=
  .intact System.fresh_gated fun _ ⟨_, member⟩ => nomatch member

theorem run_standing {happenings : List (ThreadId × Happening ι η)} (standing : p.Standing)
    (ran : p.run stamp happenings = some p') : p'.Standing :=
  Threads.run_keeps standing ran fun _ _ _ _ _ => act_standing

theorem act_withholds (wedged : p.system.Wedged t) (acted : p.act stamp u h = some p') :
    p'.system.Wedged t ∧ p.system.Withholds p'.system := by
  cases h with
  | move a =>
    obtain ⟨s', moved, rfl⟩ := Option.map_eq_some_iff.mp acted
    exact System.act_wedged wedged moved
  | panic =>
    simp only [act] at acted
    split at acted
    · rename_i stack
      cases acted
      exact ⟨(System.wedged_of_panic wedged stack).2, [], rfl, by simp⟩
    · cases acted

theorem run_withholds {happenings : List (ThreadId × Happening ι η)} (wedged : p.system.Wedged t)
    (ran : p.run stamp happenings = some p') : p'.system.Wedged t ∧ p.system.Withholds p'.system := by
  refine Threads.run_keeps (P := fun later => later.system.Wedged t ∧ p.system.Withholds later.system)
    ⟨wedged, System.withholds_refl _⟩ ran ?_
  rintro later u h p' _ ⟨wedged, before⟩ acted
  obtain ⟨wedged', step⟩ := act_withholds wedged acted
  exact ⟨wedged', before.trans step⟩

/-- An active dispatcher that nobody drains holds nothing, and whoever reopens it from outside of the own drain has it
drained or finds nothing to drain. -/
structure InOrder (stamp : Nat → ι → ι) (s : System β ι η) : Prop where
  settled : s.dispatcher.gate.suspended = false → s.dispatcher.gate.drainer = none → s.dispatcher.pending = 0
  goesOn : ∀ t f below, s.threads t = f :: below → f.stage = .at .reopening → s.dispatcher.gate.drainer = none →
    ∃ s', s.act stamp t .advance = some s' ∧
      (s'.Draining t ∨ s'.threads t = below ∧ s'.dispatcher.pending = 0 ∧ s'.dispatcher.gate.drainer = none)
  returns : ∀ t f below a s', s.threads t = f :: below → s.act stamp t a = some s' → s'.threads t = below →
    (f.op = .request (.resume false) ∨ ∃ h, f.op = .bind h false) → (∀ g ∈ below, g.stage.drains = false) →
    s'.dispatcher.gate.drainer = none ∧ (s'.dispatcher.pending = 0 ∨ s'.dispatcher.gate.suspended = true)

/-- The mark is that of thread `t`, but nobody drains; nothing has been handed to a handler since `s`, and whoever waits for
the drainer cannot go on. -/
structure OutOfOrder (stamp : Nat → ι → ι) (s s' : System β ι η) (t : ThreadId) : Prop where
  mark : s'.dispatcher.gate.drainer = some t
  nobody : ∀ u, ¬ s'.Draining u
  withholds : s.Withholds s'
  waits : ∀ u f below, s'.threads u = f :: below → f.stage = .at .waiting → s'.act stamp u .advance = none

/-- In every state that any threads can bring a dispatcher into whose handlers return, fail or panic: the gate's mark is that
of a thread inside the drain loop, unless a panic has ended a drain. Up to then the dispatcher is in order. From then on it is
out of order, whatever happens. -/
theorem gate_under_panics {happenings : List (ThreadId × Happening ι η)} (ran : fresh.run stamp happenings = some p) :
    ((∀ t, p.system.dispatcher.gate.drainer = some t ↔ p.system.Draining t) ↔ ∀ t, ¬ p.Abandoned t) ∧
    ((∀ t, ¬ p.Abandoned t) → InOrder stamp p.system) ∧
    ∀ t, p.Abandoned t → ∀ more p', p.run stamp more = some p' → OutOfOrder stamp p.system p'.system t := by
  cases run_standing fresh_standing ran with
  | intact gated never =>
    refine ⟨⟨fun _ => never, fun _ => System.drainer_iff gated⟩, fun _ => ⟨fun active idle => ?_, ?_, ?_⟩,
      fun t abandoned => absurd abandoned (never t)⟩
    · rw [pending_eq, gated.settled active idle, List.length_nil]
    · exact fun t f below => System.reopening_goes_on
    · exact fun t f below a s' stack acted returned reopens outside =>
        (reopening_leaves gated acted stack returned reopens outside).2
  | wedged t wedged only =>
    have abandoned : p.Abandoned t := (only t).mpr rfl
    refine ⟨⟨fun marks => ?_, fun never => absurd abandoned (never t)⟩, fun never => absurd abandoned (never t), ?_⟩
    · exact absurd ((marks t).mp wedged.mark) (System.not_draining_of_wedged wedged t)
    · intro u abandoned' more p' ran'
      obtain rfl := (only u).mp abandoned'
      obtain ⟨wedged', withholds⟩ := run_withholds wedged ran'
      exact ⟨wedged'.mark, System.not_draining_of_wedged wedged', withholds, fun v f below =>
        System.blocked_of_wedged wedged'⟩

/-- Thread 1 dispatches an event, and the handler panics. Then the dispatcher is suspended, one more event is queued, and
thread 2 resumes. -/
def startled : List (ThreadId × Happening Unit Nat) :=
  [(1, .move (.call (.bind 7 false))), (1, .move .advance), (1, .move .advance),
    (1, .move (.call (.request (.dispatch ())))), (1, .move .advance), (1, .move .enter), (1, .panic),
    (1, .move (.call (.request .suspend))), (1, .move .advance),
    (1, .move (.call (.request (.dispatch ())))), (1, .move .advance), (2, .move (.call (.request (.resume false))))]

/-- Thread 1 drains two events, and the handler panics at the first of them. -/
def slammed : List (ThreadId × Happening Unit Nat) :=
  [(1, .move (.call (.bind 7 true))), (1, .move .advance),
    (1, .move (.call (.request (.dispatch ())))), (1, .move .advance),
    (1, .move (.call (.request (.dispatch ())))), (1, .move .advance),
    (1, .move (.call (.request (.resume false)))), (1, .move .advance), (1, .move .advance), (1, .move .enter), (1, .panic)]

theorem gate_under_panics_startled :
    (∃ p : Exposed Nat Unit Nat, fresh.run (fun _ x => x) startled = some p ∧ p.panics = [(1, .direct)] ∧
      ∃ s', p.system.act (fun _ x => x) 2 .advance = some s' ∧ s'.Draining 2) ∧
    ∃ p p' : Exposed Nat Unit Nat, fresh.run (fun _ x => x) slammed = some p ∧ p.Abandoned 1 ∧
      p.run (fun _ x => x) [(2, .move (.call (.request (.dispatch ())))), (2, .move .advance)] = some p' ∧
      OutOfOrder (fun _ x => x) p.system p'.system 1 := by
  constructor
  · have ends : ∃ p f, (fresh : Exposed Nat Unit Nat).run (fun _ x => x) startled = some p ∧ p.panics = [(1, .direct)] ∧
        p.system.threads 2 = [f] ∧ f.stage = .at .reopening ∧ p.system.dispatcher.gate.drainer = none ∧
        ∀ s', p.system.act (fun _ x => x) 2 .advance = some s' → s'.threads 2 ≠ [] := by
      refine ⟨_, _, rfl, rfl, rfl, rfl, rfl, ?_⟩
      rintro _ ⟨⟩ returned
      cases returned
    obtain ⟨p, f, ran, panics, stack, reopens, idle, stays⟩ := ends
    obtain ⟨_, inOrder, _⟩ := gate_under_panics ran
    have never : ∀ t, ¬ p.Abandoned t := by
      rintro t ⟨r, member⟩
      rw [panics] at member
      cases List.mem_singleton.mp member
    obtain ⟨s', acted, drains | ⟨returned, _⟩⟩ := (inOrder never).goesOn 2 f [] stack reopens idle
    · exact ⟨p, ran, panics, s', acted, drains⟩
    · exact absurd returned (stays s' acted)
  · have ends : ∃ p p', (fresh : Exposed Nat Unit Nat).run (fun _ x => x) slammed = some p ∧ p.Abandoned 1 ∧
        p.run (fun _ x => x) [(2, .move (.call (.request (.dispatch ())))), (2, .move .advance)] = some p' :=
      ⟨_, _, rfl, ⟨{}, List.mem_cons_self⟩, rfl⟩
    obtain ⟨p, p', ran, abandoned, ran'⟩ := ends
    exact ⟨p, p', ran, abandoned, ran', (gate_under_panics ran).2.2 1 abandoned _ p' ran'⟩

/-- A panic ends a drain, and no thread has any call in progress; but the mark is there. Thread 2 resumes, and waits for
ever: one event stays in the backlog. -/
theorem mark_outlives_drainer : ∃ p p' : Exposed Nat Unit Nat, fresh.run (fun _ x => x) slammed = some p ∧
    (∀ t, p.system.threads t = []) ∧ p.system.dispatcher.gate = { suspended := false, drainer := some 1 } ∧
    p.run (fun _ x => x) [(2, .move (.call (.request (.resume false)))), (2, .move .advance)] = some p' ∧
    p'.system.dispatcher.pending = 1 ∧ p'.system.threads 2 ≠ [] ∧ p'.system.act (fun _ x => x) 2 .advance = none := by
  refine ⟨_, _, rfl, fun t => ?_, rfl, rfl, rfl, by simp, rfl⟩
  match t with
  | 0 | 1 | 2 | t + 3 => rfl

end Exposed

end Switchboard.Dispatch
