import Mathlib
import Switchboard.Proofs.Dispatch.Membership
import Switchboard.Proofs.Dispatch.Visits
import Switchboard.Proofs.Scenario.Requests

/-!
Handlers that use dispatchers again, on one thread. Each handler plays scripts, and what its scripts have still to
play is spent for good; between two steps of scripts a thread only goes on with what it has begun, and pays for it.
So every call on a dispatcher returns, however its handlers call each other (`call_returns`). A panic goes the same way back,
but nobody is told of it on the way (`panic_leaves`).
-/

namespace Switchboard.Scenario

/-! ### Threads that use dispatchers -/

def Step.OnDispatcher (allowed : DispatchStep → Prop) (s : Step) : Prop :=
  ∃ name d, s = .dispatcher name d ∧ allowed d

inductive Kind where
  | answer
  | verdict
  | reply

def Value.kind? : Value → Option Kind
  | answer _ => some .answer
  | verdict _ => some .verdict
  | reply _ => some .reply
  | _ => none

/-- Frames that take up their work with a value of this kind. The answer to the first step is the outcome. -/
inductive Awaits (allowed : DispatchStep → Prop) : Kind → List Frame → Prop
  | outcome : Awaits allowed .answer []
  | release {k n fs} (rest : Awaits allowed k fs) : Awaits allowed k (.release (.dispatcher n) :: fs)
  | ofDispatcher {n fs} (rest : Awaits allowed .answer fs) : Awaits allowed .reply (.ofDispatcher n :: fs)
  | script {h steps v fs} (plain : ∀ s ∈ steps, s.OnDispatcher allowed) (rest : Awaits allowed .verdict fs) :
    Awaits allowed .answer (.script h steps v :: fs)
  | eventCall {c fs} (waits : c.Waits) (rest : Awaits allowed .reply fs) : Awaits allowed .verdict (.eventCall c :: fs)
  | commandCall {c fs} (waits : c.Waits) (rest : Awaits allowed .reply fs) :
    Awaits allowed .verdict (.commandCall c :: fs)

/-- What a thread does that uses dispatchers, and whose handlers do. -/
inductive Working (allowed : DispatchStep → Prop) : Task → List Frame → Prop
  | perform {name d fs} (plain : allowed d) (rest : Awaits allowed .answer fs) :
    Working allowed (.perform (.dispatcher name d)) fs
  | eventCall {c fs} (flows : c.Flows) (rest : Awaits allowed .reply fs) : Working allowed (.eventCall c) fs
  | commandCall {c fs} (flows : c.Flows) (rest : Awaits allowed .reply fs) : Working allowed (.commandCall c) fs
  | notify {h n fs} (rest : Awaits allowed .verdict fs) : Working allowed (.notify h n) fs
  | play {h steps v fs} (plain : ∀ s ∈ steps, s.OnDispatcher allowed) (rest : Awaits allowed .verdict fs) :
    Working allowed (.play h steps v) fs
  | give {k v fs} (kind : v.kind? = some k) (rest : Awaits allowed k fs) : Working allowed (.give v) fs

namespace World

/-- Handlers that play scripts play steps on dispatchers, and no other thread drains. -/
structure Ready (allowed : DispatchStep → Prop) (me : ThreadId) (w : World) : Prop where
  scripts : ∀ o ∈ w.handlers, ∀ s, o.kind = .scripted s → ∀ steps ∈ s.spec.script, ∀ step ∈ steps,
    step.OnDispatcher allowed
  events : w.events.Sole me
  commands : w.commands.Sole me

/-- No fan-out comes below itself. -/
def Nested (w : World) : Prop := w.events.WellNested ∧ w.commands.WellNested

/-- As far as dispatchers and handlers go, nothing has changed. -/
structure Same (w w' : World) : Prop where
  events : w'.events = w.events
  commands : w'.commands = w.commands
  handlers : w'.handlers = w.handlers

end World

/-! ### What is left to do -/

/-- The steps of its scripts that a handler has still to play. -/
def HandlerKind.unplayed : HandlerKind → Nat
  | scripted s => ((s.spec.script.drop s.accepted).map List.length).sum
  | _ => 0

def World.unplayed (w : World) : Nat := (w.handlers.map fun o => o.kind.unplayed).sum

def Task.steps : Task → Nat
  | perform _ => 1
  | play _ steps _ => steps.length
  | _ => 0

def Frame.steps : Frame → Nat
  | script _ rest _ => rest.length
  | _ => 0

/-- What a task has still to pay before the next step of a script is performed. -/
def Task.toll (w : World) : Task → Nat
  | eventCall c => w.events.toll c
  | commandCall c => w.commands.toll c
  | notify .. => 4
  | play .. => 3
  | give _ => 2
  | _ => 0

def Frame.toll (w : World) : Frame → Nat
  | eventCall c => w.events.toll c
  | commandCall c => w.commands.toll c
  | script .. => 2
  | ofDispatcher _ | release _ => 1
  | _ => 0

def World.backlogs (w : World) : Nat := w.events.backlogs + w.commands.backlogs

namespace Next

/-- The next task with its own frames, for which a move has `steps` steps of scripts and `toll` to spend. A step that is
performed pays for whatever it leads to. -/
structure Pays (allowed : DispatchStep → Prop) (me : ThreadId) (w : World) (below : List Frame) (steps toll : Nat)
    (n : Next) : Prop where
  working : Working allowed n.task (n.frames ++ below)
  ready : n.world.Ready allowed me
  nested : (∀ member, ¬ allowed (.add member)) → w.Nested → n.world.Nested
  paid : n.world.unplayed + (n.task.steps + (n.frames.map Frame.steps).sum) < steps ∨
    n.world.unplayed + (n.task.steps + (n.frames.map Frame.steps).sum) = steps ∧
      n.world.events.visits = w.events.visits ∧ n.world.commands.visits = w.commands.visits ∧
      n.task.toll n.world + (n.frames.map (Frame.toll n.world)).sum + 4 * n.world.backlogs < toll

end Next

section

variable {allowed : DispatchStep → Prop} {me : ThreadId} {w w' : World} {below : List Frame} {n : Next}

theorem World.Same.ready (same : w.Same w') (ready : w.Ready allowed me) : w'.Ready allowed me where
  scripts := same.handlers ▸ ready.scripts
  events := same.events ▸ ready.events
  commands := same.commands ▸ ready.commands

theorem World.Same.nested (same : w.Same w') (nested : w.Nested) : w'.Nested :=
  ⟨same.events ▸ nested.1, same.commands ▸ nested.2⟩

theorem World.Same.unplayed (same : w.Same w') : w'.unplayed = w.unplayed := by
  simp only [World.unplayed, same.handlers]

theorem World.Same.backlogs (same : w.Same w') : w'.backlogs = w.backlogs := by
  simp only [World.backlogs, same.events, same.commands]

/-- A move that changes neither dispatchers nor handlers. -/
theorem pays_same {task : Task} {frames : List Frame} {steps toll : Nat} (same : w.Same w')
    (ready : w.Ready allowed me) (working : Working allowed task (frames ++ below))
    (paid : w.unplayed + (task.steps + (frames.map Frame.steps).sum) < steps ∨
      w.unplayed + (task.steps + (frames.map Frame.steps).sum) = steps ∧
        task.toll w' + (frames.map (Frame.toll w')).sum + 4 * w.backlogs < toll) :
    (⟨w', task, frames⟩ : Next).Pays allowed me w below steps toll where
  working := working
  ready := same.ready ready
  nested _ := same.nested
  paid := by
    simp only [same.unplayed, same.backlogs, same.events, same.commands, true_and]
    exact paid

/-! ### Handlers -/

theorem handlers_setHandler {h : HandlerId} {o : Handler} (found : w.handlers[h]? = some o) (kind : HandlerKind) :
    (w.setHandler h kind).handlers = w.handlers.set h { o with kind } := by
  rw [World.setHandler, List.modify_eq_set_getElem?, found]
  rfl

theorem unplayed_setHandler {h : HandlerId} {o : Handler} (found : w.handlers[h]? = some o) (kind : HandlerKind) :
    (w.setHandler h kind).unplayed + o.kind.unplayed = w.unplayed + kind.unplayed := by
  simp only [World.unplayed, handlers_setHandler found]
  exact Dispatch.sum_set (f := fun o : Handler => o.kind.unplayed) found { o with kind }

theorem setHandler_ready {h : HandlerId} {o : Handler} (ready : w.Ready allowed me)
    (found : w.handlers[h]? = some o) (kind : HandlerKind)
    (plain : ∀ s, kind = .scripted s → ∀ steps ∈ s.spec.script, ∀ step ∈ steps, step.OnDispatcher allowed) :
    (w.setHandler h kind).Ready allowed me where
  scripts := by
    intro o' member s scripted
    rw [handlers_setHandler found] at member
    rcases List.mem_or_eq_of_mem_set member with old | rfl
    · exact ready.scripts o' old s scripted
    · exact plain s scripted
  events := ready.events
  commands := ready.commands

/-- A script that is begun is no longer to be played later. -/
theorem unplayed_accept (s : Script) :
    (HandlerKind.scripted { s with accepted := s.accepted + 1 }).unplayed +
        ((s.spec.script[s.accepted]?).getD []).length =
      (HandlerKind.scripted s).unplayed := by
  simp only [HandlerKind.unplayed]
  cases found : s.spec.script[s.accepted]? with
  | none =>
    have past := List.getElem?_eq_none_iff.mp found
    rw [List.drop_of_length_le past, List.drop_of_length_le (by omega)]
    rfl
  | some steps =>
    obtain ⟨within, rfl⟩ := List.getElem?_eq_some_iff.mp found
    rw [List.drop_eq_getElem_cons within, List.map_cons, List.sum_cons, Option.getD_some, Nat.add_comm]

/-- A handler that has accepted a notification plays the script of it. -/
theorem accepted_pays {h : HandlerId} {o : Handler} {s : Script} {v : Except Dispatch.Error Unit} {e : LogEntry}
    (ready : w.Ready allowed me) (rest : Awaits allowed .verdict below) (found : w.handlers[h]? = some o)
    (scripted : o.kind = .scripted s) :
    (⟨(w.setHandler h (.scripted { s with accepted := s.accepted + 1 })).note me e,
      .play h ((s.spec.script[s.accepted]?).getD []) v, []⟩ : Next).Pays allowed me w below w.unplayed
      (4 + 4 * w.backlogs) := by
  have scripts := ready.scripts o (List.mem_of_getElem? found) s scripted
  have plain : ∀ step ∈ (s.spec.script[s.accepted]?).getD [], step.OnDispatcher allowed := by
    intro step member
    cases script : s.spec.script[s.accepted]? with
    | none =>
      rw [script] at member
      cases member
    | some steps =>
      rw [script] at member
      exact scripts steps (List.mem_of_getElem? script) step member
  have balance := unplayed_setHandler found (.scripted { s with accepted := s.accepted + 1 })
  have left := unplayed_accept s
  rw [scripted] at balance
  have kept := setHandler_ready ready found (.scripted { s with accepted := s.accepted + 1 })
    (by rintro _ ⟨⟩; exact scripts)
  refine ⟨.play plain rest, ⟨kept.scripts, kept.events, kept.commands⟩, fun _ nested => nested,
    Or.inr ⟨?_, rfl, rfl, ?_⟩⟩
  · simp only [Task.steps, List.map_nil, List.sum_nil]
    change (w.setHandler h _).unplayed + _ = _
    omega
  · simp only [Task.toll, List.map_nil, List.sum_nil]
    change 3 + 0 + 4 * w.backlogs < _
    omega

theorem verdict_pays {v : Except Dispatch.Error Unit} (same : w.Same w') (ready : w.Ready allowed me)
    (rest : Awaits allowed .verdict below) : (w'.verdict v).Pays allowed me w below w.unplayed (4 + 4 * w.backlogs) :=
  pays_same same ready (.give rfl rest) (Or.inr ⟨rfl, by simp only [Task.toll, List.map_nil, List.sum_nil]; omega⟩)

theorem notify_pays (ready : w.Ready allowed me) (rest : Awaits allowed .verdict below) (h : HandlerId)
    (notice : Notice) : (w.notify me h notice).Pays allowed me w below w.unplayed (4 + 4 * w.backlogs) := by
  unfold World.notify
  cases found : w.handlers[h]? with
  | none => exact verdict_pays ⟨rfl, rfl, rfl⟩ ready rest
  | some o =>
    obtain ⟨name, kind⟩ := o
    cases kind with
    | scripted s =>
      cases notice with
      | event e => exact accepted_pays ready rest found rfl
      | command c =>
        simp only [World.notifyScripted]
        split
        · exact verdict_pays ⟨rfl, rfl, rfl⟩ ready rest
        · exact accepted_pays ready rest found rfl
    | trail t =>
      cases notice with
      | event e => exact verdict_pays ⟨rfl, rfl, rfl⟩ ready rest
      | command c =>
        have kept := setHandler_ready ready found (.trail (t.notify c).2) nofun
        have balance := unplayed_setHandler found (.trail (t.notify c).2)
        refine ⟨.give rfl rest, kept, fun _ nested => nested, Or.inr ⟨?_, rfl, rfl, ?_⟩⟩
        · simpa [World.verdict, Task.steps, HandlerKind.unplayed] using balance
        · simp only [World.verdict, Task.toll, List.map_nil, List.sum_nil]
          change 2 + 0 + 4 * w.backlogs < _
          omega
    | log => cases notice <;> exact verdict_pays ⟨rfl, rfl, rfl⟩ ready rest

/-! ### Calls in progress -/

/-- A world in which a call has made its way through one of the networks. -/
structure World.Passed (allowed : DispatchStep → Prop) (me : ThreadId) (w w' : World) : Prop where
  ready : w'.Ready allowed me
  nested : w.Nested → w'.Nested
  unplayed : w'.unplayed = w.unplayed
  eventVisits : w'.events.visits = w.events.visits
  commandVisits : w'.commands.visits = w.commands.visits

theorem World.Same.passed (same : w.Same w') (ready : w.Ready allowed me) : w.Passed allowed me w' :=
  ⟨same.ready ready, same.nested, same.unplayed, by rw [same.events], by rw [same.commands]⟩

theorem World.Passed.same {w'' : World} (passed : w.Passed allowed me w') (same : w'.Same w'') :
    w.Passed allowed me w'' where
  ready := same.ready passed.ready
  nested nested := same.nested (passed.nested nested)
  unplayed := same.unplayed.trans passed.unplayed
  eventVisits := by rw [same.events, passed.eventVisits]
  commandVisits := by rw [same.commands, passed.commandVisits]

/-- A stride costs no step of a script. -/
theorem pays_passed {task : Task} {frames : List Frame} {toll : Nat} (passed : w.Passed allowed me w')
    (working : Working allowed task (frames ++ below)) (free : task.steps + (frames.map Frame.steps).sum = 0)
    (paid : task.toll w' + (frames.map (Frame.toll w')).sum + 4 * w'.backlogs < toll) :
    (⟨w', task, frames⟩ : Next).Pays allowed me w below w.unplayed toll where
  working := working
  ready := passed.ready
  nested _ := passed.nested
  paid := Or.inr ⟨by rw [free, passed.unplayed, Nat.add_zero], passed.eventVisits, passed.commandVisits, paid⟩

theorem strideEvent_pays {stride : Dispatch.Stride Unit HandlerId} {budget : Nat} (passed : w.Passed allowed me w')
    (rest : Awaits allowed .reply below) (within : stride.Within w'.events budget) :
    ∃ n, w'.strideEvent stride = some n ∧ n.Pays allowed me w below w.unplayed (budget + 4 * w'.commands.backlogs) := by
  cases stride with
  | goes c =>
    obtain ⟨flows, within⟩ := within
    refine ⟨_, rfl, pays_passed passed (.eventCall flows rest) rfl ?_⟩
    simp only [Task.toll, World.backlogs, List.map_nil, List.sum_nil]
    omega
  | calls h x c =>
    obtain ⟨waits, within⟩ := within
    have minted : w'.Same { w' with mint := w'.mint.strike.2 } := ⟨rfl, rfl, rfl⟩
    refine ⟨_, rfl, pays_passed (passed.same minted) (.notify (.eventCall waits rest)) rfl ?_⟩
    simp only [Task.toll, Frame.toll, World.backlogs, List.map_cons, List.map_nil, List.sum_cons, List.sum_nil]
    omega
  | ends r =>
    have within : 2 + 4 * w'.events.backlogs < budget := within
    refine ⟨_, rfl, pays_passed passed (.give rfl rest) rfl ?_⟩
    simp only [Task.toll, World.backlogs, List.map_nil, List.sum_nil]
    omega
  | blocks => exact within.elim

theorem strideCommand_pays {stride : Dispatch.Stride Command HandlerId} {budget : Nat} (passed : w.Passed allowed me w')
    (rest : Awaits allowed .reply below) (within : stride.Within w'.commands budget) :
    ∃ n, w'.strideCommand stride = some n ∧ n.Pays allowed me w below w.unplayed (budget + 4 * w'.events.backlogs) := by
  cases stride with
  | goes c =>
    obtain ⟨flows, within⟩ := within
    refine ⟨_, rfl, pays_passed passed (.commandCall flows rest) rfl ?_⟩
    simp only [Task.toll, World.backlogs, List.map_nil, List.sum_nil]
    omega
  | calls h x c =>
    obtain ⟨waits, within⟩ := within
    refine ⟨_, rfl, pays_passed passed (.notify (.commandCall waits rest)) rfl ?_⟩
    simp only [Task.toll, Frame.toll, World.backlogs, List.map_cons, List.map_nil, List.sum_cons, List.sum_nil]
    omega
  | ends r =>
    have within : 2 + 4 * w'.commands.backlogs < budget := within
    refine ⟨_, rfl, pays_passed passed (.give rfl rest) rfl ?_⟩
    simp only [Task.toll, World.backlogs, List.map_nil, List.sum_nil]
    omega
  | blocks => exact within.elim

theorem advanceEvent_pays {c : Dispatch.Call Unit HandlerId} (ready : w.Ready allowed me) (nested : w.Nested)
    (flows : c.Flows) (rest : Awaits allowed .reply below) :
    ∃ n, w.advanceEvent me c = some n ∧
      n.Pays allowed me w below w.unplayed (w.events.toll c + 4 * w.backlogs) := by
  have passed : w.Passed allowed me
      ({ w with events := (w.events.advance me c).2 }.rehold .events c.served? ((w.events.advance me c).2.entered c)) :=
    { ready := ⟨ready.scripts, Dispatch.Network.advance_sole ready.events flows, ready.commands⟩
      nested := fun nested => ⟨Dispatch.Network.advance_wellNested nested.1 me c, nested.2⟩
      unplayed := rfl
      eventVisits := Dispatch.Network.advance_visits me w.events c
      commandVisits := rfl }
  obtain ⟨n, strides, pays⟩ :=
    strideEvent_pays passed rest (Dispatch.Network.advance_within nested.1 ready.events flows)
  refine ⟨n, strides, ?_⟩
  rw [World.backlogs, Nat.mul_add, ← Nat.add_assoc]
  exact pays

theorem advanceCommand_pays {c : Dispatch.Call Command HandlerId} (ready : w.Ready allowed me) (nested : w.Nested)
    (flows : c.Flows) (rest : Awaits allowed .reply below) :
    ∃ n, w.advanceCommand me c = some n ∧
      n.Pays allowed me w below w.unplayed (w.commands.toll c + 4 * w.backlogs) := by
  have passed : w.Passed allowed me
      ({ w with commands := (w.commands.advance me c).2 }.rehold .commands c.served?
        ((w.commands.advance me c).2.entered c)) :=
    { ready := ⟨ready.scripts, ready.events, Dispatch.Network.advance_sole ready.commands flows⟩
      nested := fun nested => ⟨nested.1, Dispatch.Network.advance_wellNested nested.2 me c⟩
      unplayed := rfl
      eventVisits := rfl
      commandVisits := Dispatch.Network.advance_visits me w.commands c }
  obtain ⟨n, strides, pays⟩ :=
    strideCommand_pays passed rest (Dispatch.Network.advance_within nested.2 ready.commands flows)
  refine ⟨n, strides, ?_⟩
  rw [World.backlogs, Nat.mul_add, Nat.add_comm (4 * _), ← Nat.add_assoc]
  exact pays

/-! ### Steps of scripts -/

structure Next.Begins (allowed : DispatchStep → Prop) (me : ThreadId) (w : World) (below : List Frame) (n : Next) :
    Prop where
  working : Working allowed n.task (n.frames ++ below)
  ready : n.world.Ready allowed me
  nested : (∀ member, ¬ allowed (.add member)) → w.Nested → n.world.Nested
  spent : n.world.unplayed + (n.task.steps + (n.frames.map Frame.steps).sum) = w.unplayed

theorem Next.Begins.pays (begins : n.Begins allowed me w below) (toll : Nat) :
    n.Pays allowed me w below (w.unplayed + 1) toll :=
  ⟨begins.working, begins.ready, begins.nested, Or.inl (by rw [begins.spent]; exact Nat.lt_succ_self _)⟩

theorem under_begins {r : NodeRef} (begins : n.Begins allowed me w (.release (.dispatcher r) :: below)) :
    (n.under [.release (.dispatcher r)]).Begins allowed me w below where
  working := by simpa [Next.under] using begins.working
  ready := begins.ready
  nested := begins.nested
  spent := by simpa [Next.under, Frame.steps] using begins.spent

theorem answer_begins {a : Answer} (rest : Awaits allowed .answer below) (ready : w'.Ready allowed me)
    (nested : (∀ member, ¬ allowed (.add member)) → w.Nested → w'.Nested) (unplayed : w'.unplayed = w.unplayed) :
    (w'.answer a).Begins allowed me w below :=
  ⟨.give rfl rest, ready, nested, unplayed⟩

theorem call_begins {r : NodeRef} {forEvents : Dispatch.Position Unit HandlerId}
    {forCommands : Dispatch.Position Command HandlerId} (same : w.Same w') (ready : w.Ready allowed me)
    (rest : Awaits allowed .answer below) (eventFlows : Dispatch.Call.Flows ⟨forEvents, []⟩)
    (commandFlows : Dispatch.Call.Flows ⟨forCommands, []⟩) :
    (w'.call r forEvents forCommands (.ofDispatcher r)).Begins allowed me w below := by
  have spent : ∀ task : Task, task.steps = 0 →
      w'.unplayed + (task.steps + ([Frame.ofDispatcher r].map Frame.steps).sum) = w.unplayed := by
    intro task free
    rw [free, same.unplayed]
    rfl
  obtain ⟨stream, node⟩ := r
  cases stream with
  | events => exact ⟨.eventCall eventFlows (.ofDispatcher rest), same.ready ready, fun _ => same.nested, spent _ rfl⟩
  | commands =>
    exact ⟨.commandCall commandFlows (.ofDispatcher rest), same.ready ready, fun _ => same.nested, spent _ rfl⟩

theorem setPreset_begins {a : Answer} (same : w.Same w') (ready : w.Ready allowed me)
    (rest : Awaits allowed .answer below) (r : NodeRef) (c : Option Command) :
    ((w'.setPreset r c).answer a).Begins allowed me w below := by
  have kept := same.ready ready
  unfold World.setPreset
  split
  · rename_i d _ leaf
    refine answer_begins rest ⟨kept.scripts, kept.events, ?_⟩ (fun _ nested => ?_) same.unplayed
    · intro m d' found
      rw [Dispatch.Network.leaf?_setLeaf leaf] at found
      split at found
      · obtain rfl := Option.some.inj found
        exact kept.commands _ d leaf
      · exact kept.commands m d' found
    · have nested := same.nested nested
      exact ⟨nested.1, Dispatch.Network.setLeaf_wellNested nested.2 leaf⟩
  · exact answer_begins rest kept (fun _ => same.nested) same.unplayed

theorem join_ready (ready : w.Ready allowed me) (r member : NodeRef) : (w.join r member).Ready allowed me := by
  obtain ⟨stream, node⟩ := r
  cases stream with
  | events =>
    refine ⟨ready.scripts, fun m d leaf => ready.events m d ?_, ready.commands⟩
    rw [← leaf]
    exact (Dispatch.Network.leaf?_join _ _ _ _).symm
  | commands =>
    refine ⟨ready.scripts, ready.events, fun m d leaf => ready.commands m d ?_⟩
    rw [← leaf]
    exact (Dispatch.Network.leaf?_join _ _ _ _).symm

theorem leave_ready (ready : w.Ready allowed me) (r member : NodeRef) : (w.leave r member).2.Ready allowed me := by
  obtain ⟨stream, node⟩ := r
  cases stream with
  | events =>
    refine ⟨ready.scripts, fun m d leaf => ready.events m d ?_, ready.commands⟩
    rw [← leaf]
    exact (Dispatch.Network.leaf?_leave _ _ _ _).symm
  | commands =>
    refine ⟨ready.scripts, ready.events, fun m d leaf => ready.commands m d ?_⟩
    rw [← leaf]
    exact (Dispatch.Network.leaf?_leave _ _ _ _).symm

theorem leave_nested (nested : w.Nested) (r member : NodeRef) : (w.leave r member).2.Nested := by
  obtain ⟨stream, node⟩ := r
  cases stream with
  | events => exact ⟨Dispatch.Network.leave_wellNested nested.1 _ _, nested.2⟩
  | commands => exact ⟨nested.1, Dispatch.Network.leave_wellNested nested.2 _ _⟩

theorem unplayed_membership (w : World) (r member : NodeRef) :
    (w.join r member).unplayed = w.unplayed ∧ (w.leave r member).2.unplayed = w.unplayed := by
  obtain ⟨stream, node⟩ := r
  cases stream <;> exact ⟨rfl, rfl⟩

theorem performOnDispatcher_begins {name : Name} {r : NodeRef} {d : DispatchStep} (prompt : d ≠ .awaitActive)
    (plain : allowed d) (same : w.Same w') (ready : w.Ready allowed me) (rest : Awaits allowed .answer below) :
    (w'.performOnDispatcher name r d).Begins allowed me w below := by
  have kept := same.ready ready
  have answered : ∀ a : Answer, (w'.answer a).Begins allowed me w below := fun a =>
    answer_begins rest kept (fun _ => same.nested) same.unplayed
  cases d with
  | drop => exact answer_begins rest ⟨kept.scripts, kept.events, kept.commands⟩ (fun _ => same.nested) same.unplayed
  | bind handler suspended =>
    simp only [World.performOnDispatcher]
    split
    · exact answered _
    · exact call_begins same ready rest (by simp [Dispatch.Call.Flows]) (by simp [Dispatch.Call.Flows])
  | dispatch c => exact call_begins same ready rest trivial trivial
  | dispatchKept kept =>
    simp only [World.performOnDispatcher]
    split
    · exact answered _
    · exact call_begins same ready rest trivial trivial
  | dispatchPreset => exact call_begins same ready rest (by simp [Dispatch.Call.Flows]) (by simp [Dispatch.Call.Flows])
  | suspend | resume => exact call_begins same ready rest trivial trivial
  | state => exact answered _
  | setPreset | clearPreset => exact setPreset_begins same ready rest r _
  | add member =>
    simp only [World.performOnDispatcher]
    split
    · exact answered _
    · rename_i m _
      refine answer_begins rest (join_ready kept r m) (fun none => absurd plain (none member)) ?_
      exact (unplayed_membership w' r m).1.trans same.unplayed
  | remove member =>
    simp only [World.performOnDispatcher]
    split
    · exact answered _
    · rename_i m _
      refine answer_begins rest (leave_ready kept r m) (fun _ nested => leave_nested (same.nested nested) r m) ?_
      exact (unplayed_membership w' r m).2.trans same.unplayed
  | awaitActive => exact absurd rfl prompt

theorem perform_pays (name : Name) {d : DispatchStep} (prompt : d ≠ .awaitActive) (plain : allowed d)
    (ready : w.Ready allowed me) (rest : Awaits allowed .answer below) (toll : Nat) :
    (w.perform (.dispatcher name d)).Pays allowed me w below (w.unplayed + 1) toll := by
  refine Next.Begins.pays ?_ toll
  change (w.performDispatcher name d).Begins allowed me w below
  unfold World.performDispatcher
  split
  · exact answer_begins rest ready (fun _ nested => nested) rfl
  · rename_i r _
    exact under_begins (performOnDispatcher_begins prompt plain ⟨rfl, rfl, rfl⟩ ready (.release rest))

theorem play_pays {h : HandlerId} {steps : List Step} {v : Except Dispatch.Error Unit} (ready : w.Ready allowed me)
    (plain : ∀ s ∈ steps, s.OnDispatcher allowed) (rest : Awaits allowed .verdict below) :
    (w.play h v steps).Pays allowed me w below (w.unplayed + steps.length) (3 + 4 * w.backlogs) := by
  cases steps with
  | nil =>
    refine pays_same ⟨rfl, rfl, rfl⟩ ready (.give rfl rest) (Or.inr ⟨rfl, ?_⟩)
    simp only [Task.toll, List.map_nil, List.sum_nil]
    omega
  | cons s steps =>
    obtain ⟨⟨name, d, rfl, allows⟩, later⟩ := List.forall_mem_cons.mp plain
    refine pays_same ⟨rfl, rfl, rfl⟩ ready (.perform allows (.script later rest)) (Or.inr ⟨?_, ?_⟩)
    · simp [Task.steps, Frame.steps]
      omega
    · simp [Task.toll, Frame.toll]

/-- A value is given to the frame that waits for it. -/
theorem resume_pays {v : Value} {k : Kind} {f : Frame} (ready : w.Ready allowed me) (kind : v.kind? = some k)
    (waits : Awaits allowed k (f :: below)) : ∃ n, f.resume w me v = some n ∧
      n.Pays allowed me w below (w.unplayed + f.steps) (2 + f.toll w + 4 * w.backlogs) := by
  cases waits with
  | release rest =>
    refine ⟨_, rfl, pays_same ⟨rfl, rfl, rfl⟩ ready (.give kind rest) (Or.inr ⟨rfl, ?_⟩)⟩
    simp [Task.toll, Frame.toll]
  | ofDispatcher rest =>
    match v, kind with
    | .reply r, _ =>
      refine ⟨_, rfl, pays_same ⟨rfl, rfl, rfl⟩ ready (.give rfl rest) (Or.inr ⟨rfl, ?_⟩)⟩
      simp [Task.toll, Frame.toll]
  | script plain rest =>
    match v, kind with
    | .answer a, _ =>
      refine ⟨_, rfl, pays_same ⟨rfl, rfl, rfl⟩ ready (.play plain rest) (Or.inr ⟨rfl, ?_⟩)⟩
      simp [Task.toll, Frame.toll]
  | @eventCall c _ waits rest =>
    match v, kind with
    | .verdict v, _ =>
      have same : w.Same w := ⟨rfl, rfl, rfl⟩
      obtain ⟨n, strides, pays⟩ :=
        strideEvent_pays (same.passed ready) rest (Dispatch.Network.settle_within waits v)
      refine ⟨n, strides, ?_⟩
      rw [World.backlogs, Nat.mul_add, ← Nat.add_assoc]
      exact pays
  | @commandCall c _ waits rest =>
    match v, kind with
    | .verdict v, _ =>
      have same : w.Same w := ⟨rfl, rfl, rfl⟩
      obtain ⟨n, strides, pays⟩ :=
        strideCommand_pays (same.passed ready) rest (Dispatch.Network.settle_within waits v)
      refine ⟨n, strides, ?_⟩
      rw [World.backlogs, Nat.mul_add, Nat.add_comm (4 * _), ← Nat.add_assoc]
      exact pays

/-! ### Whole calls -/

def stepsLeft (a : World × Thread) : Nat := a.1.unplayed + (a.2.task.steps + (a.2.frames.map Frame.steps).sum)

/-- What the thread has to pay, and what it can take out of backlogs, before it performs another step. -/
def tollLeft (a : World × Thread) : Nat :=
  a.2.task.toll a.1 + (a.2.frames.map (Frame.toll a.1)).sum + 4 * a.1.backlogs

def Nearer (b a : World × Thread) : Prop :=
  stepsLeft b < stepsLeft a ∨ stepsLeft b = stepsLeft a ∧ tollLeft b < tollLeft a

theorem nearer_wf : WellFounded Nearer := by
  refine Subrelation.wf ?_ (InvImage.wf (fun a => (stepsLeft a, tollLeft a)) (Prod.lex Nat.lt_wfRel Nat.lt_wfRel).wf)
  intro b a nearer
  exact Prod.lex_def.mpr nearer

structure Engaged (allowed : DispatchStep → Prop) (me : ThreadId) (a : World × Thread) : Prop where
  id : a.2.id = me
  working : Working allowed a.2.task a.2.frames
  ready : a.1.Ready allowed me

theorem frame_toll_visits (events : w'.events.visits = w.events.visits)
    (commands : w'.commands.visits = w.commands.visits) : Frame.toll w' = Frame.toll w := by
  funext f
  cases f with
  | eventCall c => exact Dispatch.Network.toll_congr events c
  | commandCall c => exact Dispatch.Network.toll_congr commands c
  | _ => rfl

theorem nearer_of_pays {task : Task} {frames : List Frame} {steps toll : Nat}
    (pays : n.Pays allowed me w below (w.unplayed + steps) (toll + 4 * w.backlogs))
    (ownSteps : task.steps + (frames.map Frame.steps).sum = steps + (below.map Frame.steps).sum)
    (ownToll : task.toll w + (frames.map (Frame.toll w)).sum = toll + (below.map (Frame.toll w)).sum) :
    Nearer (n.thread me below) (w, ⟨me, task, frames⟩) := by
  simp only [Nearer, stepsLeft, tollLeft, Next.thread, List.map_append, List.sum_append]
  rcases pays.paid with fewer | ⟨same, events, commands, cheaper⟩
  · left
    omega
  · right
    rw [frame_toll_visits events commands] at cheaper ⊢
    omega

theorem engaged_of_pays {steps toll : Nat} (pays : n.Pays allowed me w below steps toll) :
    Engaged allowed me (n.thread me below) :=
  ⟨rfl, pays.working, pays.ready⟩

/-- A thread that has not come to its answer moves on, and comes nearer to it. -/
theorem step_nearer (prompt : ¬ allowed .awaitActive) {a : World × Thread} (engaged : Engaged allowed me a)
    (nested : a.1.Nested) :
    (∃ v, a.2.task = .give (.answer v) ∧ a.2.frames = []) ∨
    ∃ b, Moves a b ∧ Engaged allowed me b ∧ Nearer b a ∧ ((∀ member, ¬ allowed (.add member)) → b.1.Nested) := by
  obtain ⟨w, ⟨id, task, frames⟩⟩ := a
  obtain ⟨rfl, working, ready⟩ := engaged
  have moved : ∀ {n : Next} {below : List Frame} (steps toll : Nat),
      n.Pays allowed id w below (w.unplayed + steps) (toll + 4 * w.backlogs) →
      task.steps + (frames.map Frame.steps).sum = steps + (below.map Frame.steps).sum →
      task.toll w + (frames.map (Frame.toll w)).sum = toll + (below.map (Frame.toll w)).sum →
      Moves (w, ⟨id, task, frames⟩) (n.thread id below) →
      ∃ b, Moves (w, ⟨id, task, frames⟩) b ∧ Engaged allowed id b ∧ Nearer b (w, ⟨id, task, frames⟩) ∧
        ((∀ member, ¬ allowed (.add member)) → b.1.Nested) :=
    fun _ _ pays steps toll moves =>
      ⟨_, moves, engaged_of_pays pays, nearer_of_pays pays steps toll, fun none => pays.nested none nested⟩
  cases working with
  | @perform name d _ plain rest =>
    have pays := perform_pays name (fun same => prompt (same ▸ plain)) plain ready rest (0 + 4 * w.backlogs)
    exact Or.inr (moved 1 0 pays rfl rfl rfl)
  | eventCall flows rest =>
    obtain ⟨n, advanced, pays⟩ := advanceEvent_pays ready nested flows rest
    exact Or.inr (moved 0 _ pays rfl rfl (congrArg (Thread.follow _ _) advanced))
  | commandCall flows rest =>
    obtain ⟨n, advanced, pays⟩ := advanceCommand_pays ready nested flows rest
    exact Or.inr (moved 0 _ pays rfl rfl (congrArg (Thread.follow _ _) advanced))
  | notify rest => exact Or.inr (moved 0 4 (notify_pays ready rest _ _) rfl rfl rfl)
  | play plain rest => exact Or.inr (moved _ 3 (play_pays ready plain rest) rfl rfl rfl)
  | @give k v _ kind rest =>
    cases frames with
    | nil =>
      cases rest
      left
      match v, kind with
      | .answer a, _ => exact ⟨a, rfl, rfl⟩
    | cons f below =>
      obtain ⟨n, resumed, pays⟩ := resume_pays ready kind rest
      refine Or.inr (moved _ _ pays ?_ ?_ (congrArg (Thread.follow _ _) resumed))
      · simp [Task.steps]
      · simp [Task.toll]
        omega

theorem engaged_returns (prompt : ¬ allowed .awaitActive) {a : World × Thread} (engaged : Engaged allowed me a)
    (acyclic : ∀ b, Relation.ReflTransGen Moves a b → b.1.Nested) :
    ∃ w' v, Relation.ReflTransGen Moves a (w', ⟨me, .give (.answer v), []⟩) ∧ w'.Ready allowed me := by
  induction a using nearer_wf.induction with
  | h a ih =>
    rcases step_nearer prompt engaged (acyclic a .refl) with ⟨v, given, bottom⟩ | ⟨b, moves, engaged', nearer, _⟩
    · obtain ⟨w', ⟨id, task, frames⟩⟩ := a
      obtain ⟨rfl, _, ready⟩ := engaged
      cases given
      cases bottom
      exact ⟨w', v, .refl, ready⟩
    · obtain ⟨w', v, leads, ready⟩ := ih b nearer engaged' fun c later => acyclic c (.head moves later)
      exact ⟨w', v, .head moves leads, ready⟩

theorem follow_above {t : Thread} {above : List Frame} {n : Option Next} {w' : World} {t' : Thread}
    (follows : t.follow above n = .moved w' t') (below : List Frame) :
    { t with frames := t.frames ++ below }.follow (above ++ below) n =
      .moved w' { t' with frames := t'.frames ++ below } := by
  cases n with
  | none => cases follows
  | some n =>
    cases follows
    exact congrArg (fun frames => Progress.moved n.world ⟨t.id, n.task, frames⟩) (List.append_assoc _ _ _).symm

/-- Calls do not see the frames below their own. -/
theorem moves_above {a b : World × Thread} (moves : Moves a b) (below : List Frame) :
    Moves (a.1, { a.2 with frames := a.2.frames ++ below }) (b.1, { b.2 with frames := b.2.frames ++ below }) := by
  obtain ⟨w, ⟨id, task, frames⟩⟩ := a
  unfold Moves Thread.step at moves ⊢
  cases task with
  | give | unwind =>
    cases frames with
    | nil => cases moves
    | cons f frames => exact follow_above moves below
  | leave worker replies =>
    simp only at moves
    split at moves <;> cases moves
  | _ => exact follow_above moves below

theorem leads_above {a b : World × Thread} (leads : Relation.ReflTransGen Moves a b) (below : List Frame) :
    Relation.ReflTransGen Moves (a.1, { a.2 with frames := a.2.frames ++ below })
      (b.1, { b.2 with frames := b.2.frames ++ below }) := by
  induction leads with
  | refl => exact .refl
  | tail _ moves ih => exact ih.tail (moves_above moves below)

theorem World.Ready.mono {narrow : DispatchStep → Prop} (ready : w.Ready narrow me) (wider : ∀ d, narrow d → allowed d) :
    w.Ready allowed me where
  scripts o member s scripted steps script step played :=
    let ⟨name, d, same, allows⟩ := ready.scripts o member s scripted steps script step played
    ⟨name, d, same, wider d allows⟩
  events := ready.events
  commands := ready.commands

/-- Where scripts make nothing a member, no cycle comes about. -/
theorem stays_nested (prompt : ¬ allowed .awaitActive) (still : ∀ member, ¬ allowed (.add member)) {a b : World × Thread}
    (engaged : Engaged allowed me a) (nested : a.1.Nested) (leads : Relation.ReflTransGen Moves a b) : b.1.Nested := by
  have kept : Engaged allowed me b ∧ b.1.Nested := by
    induction leads with
    | refl => exact ⟨engaged, nested⟩
    | @tail b c _ moves ih =>
      obtain ⟨engaged, nested⟩ := ih
      rcases step_nearer prompt engaged nested with ⟨v, given, bottom⟩ | ⟨c', moves', engaged', _, nested'⟩
      · unfold Moves Thread.step at moves
        rw [given, bottom] at moves
        cases moves
      · have same := moves'.symm.trans moves
        injection same with world thread
        obtain rfl : c' = c := Prod.ext world thread
        exact ⟨engaged', nested' still⟩
  exact kept.2

end

/-- A call on a dispatcher or a fan-out, by a thread that is the only one to drain: whatever is kept back anywhere, and
however the handlers of all dispatchers call them again in their scripts, edit memberships and bind each other, as long
as none waits for another thread and no fan-out comes below itself the call returns. So do calls made from inside
handlers, and those made after it. -/
theorem call_returns {w : World} {me : ThreadId} (name : Name) {s : DispatchStep} (prompt : s ≠ .awaitActive)
    (ready : w.Ready (· ≠ .awaitActive) me)
    (acyclic : ∀ w' t', Relation.ReflTransGen Moves (w, ⟨me, .perform (.dispatcher name s), []⟩) (w', t') → w'.Nested)
    (frames : List Frame) :
    ∃ w' a, Relation.ReflTransGen Moves (w, ⟨me, .perform (.dispatcher name s), frames⟩)
        (w', ⟨me, .give (.answer a), frames⟩) ∧ w'.Ready (· ≠ .awaitActive) me := by
  have engaged : Engaged (· ≠ .awaitActive) me (w, ⟨me, .perform (.dispatcher name s), []⟩) :=
    ⟨rfl, .perform prompt .outcome, ready⟩
  obtain ⟨w', a, leads, ready'⟩ := engaged_returns (fun same => same rfl) engaged fun b => acyclic b.1 b.2
  exact ⟨w', a, leads_above leads frames, ready'⟩

/-! ### Dispatchers that drain each other -/

/-- The handler of both dispatchers: at its first notification it drains them from within, at its second it suspends
one of them and takes the other out of the fan-out. -/
def entangled : World where
  handlers := [⟨"h", .scripted { spec := { script :=
    [[.dispatcher "all" (.dispatch {}), .dispatcher "a" (.resume false)],
      [.dispatcher "b" .suspend, .dispatcher "all" (.remove "a")]] } }⟩]
  commands := ⟨[.leaf { backlog := [{}, {}], handler := some 0, gate := { suspended := true } },
    .leaf { backlog := [], handler := some 0 }, .fanOut [0, 1]]⟩
  dispatcherNames := ⟨[("a", ⟨.commands, 0⟩), ("b", ⟨.commands, 1⟩), ("all", ⟨.commands, 2⟩)]⟩

theorem entangled_nested : entangled.Nested := by
  constructor
  · refine Dispatch.Network.wellNested_of_rank ?_ (fun _ => 0) ?_ <;>
    · rintro m n ⟨members, fanOut, _⟩
      cases fanOut
  · have members : ∀ m n, entangled.commands.Member m n → n = 2 ∧ m ∈ [0, 1] := by
      rintro m n ⟨members, fanOut, member⟩
      match n, fanOut with
      | 2, rfl => exact ⟨rfl, member⟩
    refine Dispatch.Network.wellNested_of_rank ?_ (fun n => if n = 2 then 1 else 0) ?_
    · intro m n member
      exact (by decide : ∀ m ∈ [0, 1], (entangled.commands.node? m).isSome) m (members m n member).2
    · intro m n member
      obtain ⟨rfl, below⟩ := members m n member
      exact (by decide : ∀ m ∈ [0, 1], (if m = 2 then 1 else 0) < 1) m below

/-- Its scripts take members out and put none in. -/
theorem entangled_ready : entangled.Ready (fun d => d ≠ .awaitActive ∧ ∀ member, d ≠ .add member) 0 where
  scripts := by
    rintro o member s scripted steps script step played
    obtain rfl := List.mem_singleton.mp member
    cases scripted
    simp only [List.mem_cons, List.not_mem_nil, or_false] at script
    rcases script with rfl | rfl <;> simp only [List.mem_cons, List.not_mem_nil, or_false] at played <;>
      rcases played with rfl | rfl <;> exact ⟨_, _, rfl, by simp⟩
  events := by
    intro n d leaf
    cases leaf
  commands := by
    intro n d leaf
    match n with
    | 0 | 1 =>
      cases leaf
      exact Or.inl rfl
    | 2 | _ + 3 => cases leaf

theorem call_returns_entangled : ∃ w' a,
    Relation.ReflTransGen Moves (entangled, ⟨0, .perform (.dispatcher "all" (.resume false)), []⟩)
      (w', ⟨0, .give (.answer a), []⟩) := by
  have engaged : Engaged (fun d => d ≠ .awaitActive ∧ ∀ member, d ≠ .add member) 0
      (entangled, ⟨0, .perform (.dispatcher "all" (.resume false)), []⟩) :=
    ⟨rfl, .perform (by simp) .outcome, entangled_ready⟩
  have acyclic := fun w' t' => stays_nested (b := (w', t')) (fun allows => allows.1 rfl)
    (fun _ allows => allows.2 _ rfl) engaged entangled_nested
  obtain ⟨w', a, leads, _⟩ :=
    call_returns "all" (by simp) (entangled_ready.mono fun _ allows => allows.1) acyclic []
  exact ⟨w', a, leads⟩

/-! ### Panics -/

theorem World.Same.trans {w w' w'' : World} (first : w.Same w') (second : w'.Same w'') : w.Same w'' :=
  ⟨second.events.trans first.events, second.commands.trans first.commands, second.handlers.trans first.handlers⟩

theorem giveUp_same {ι : Type} (w : World) (stream : Stream) (rounds : List (Dispatch.Round ι)) :
    w.Same (w.giveUp stream rounds) := by
  unfold World.giveUp
  generalize rounds.flatMap Dispatch.Round.members = members
  induction members generalizing w with
  | nil => exact ⟨rfl, rfl, rfl⟩
  | cons m members ih =>
    have served : w.Same (w.rehold stream (some m) []) := ⟨rfl, rfl, rfl⟩
    exact served.trans (ih _)

theorem unwind_moves (w : World) (me : ThreadId) (f : Frame) (frames : List Frame) :
    Moves (w, ⟨me, .unwind, f :: frames⟩) ((f.unwind w).thread me frames) := rfl

/-- A panic in a handler comes past all that a call on a dispatcher has begun, and every dispatcher and every handler is left
as it was: what has been taken out of a backlog is gone, and who is marked as draining stays marked. -/
theorem panic_leaves {allowed : DispatchStep → Prop} {k : Kind} {frames : List Frame} (awaits : Awaits allowed k frames)
    (w : World) (me : ThreadId) (below : List Frame) :
    ∃ w', Relation.ReflTransGen Moves (w, ⟨me, .unwind, frames ++ below⟩) (w', ⟨me, .unwind, below⟩) ∧ w.Same w' := by
  induction awaits generalizing w with
  | outcome => exact ⟨w, .refl, rfl, rfl, rfl⟩
  | @release k n fs rest ih =>
    let released : World := { w with inUse := w.inUse.erase (.dispatcher n) }
    obtain ⟨w', leads, same⟩ := ih released
    have goes : Moves (released, ⟨me, .give .met, .unwinding :: (fs ++ below)⟩) (released, ⟨me, .unwind, fs ++ below⟩) := rfl
    exact ⟨w', .head (unwind_moves w me _ _) (.head goes leads), same.events, same.commands, same.handlers⟩
  | ofDispatcher rest ih | script plain rest ih =>
    obtain ⟨w', leads, same⟩ := ih w
    exact ⟨w', .head (unwind_moves w me _ _) leads, same⟩
  | @eventCall c fs waits rest ih =>
    obtain ⟨w', leads, same⟩ := ih (w.giveUp .events c.rounds)
    exact ⟨w', .head (unwind_moves w me _ _) leads, (giveUp_same w .events c.rounds).trans same⟩
  | @commandCall c fs waits rest ih =>
    obtain ⟨w', leads, same⟩ := ih (w.giveUp .commands c.rounds)
    exact ⟨w', .head (unwind_moves w me _ _) leads, (giveUp_same w .commands c.rounds).trans same⟩

end Switchboard.Scenario
