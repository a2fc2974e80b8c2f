import Switchboard.Dispatch.Network
import Switchboard.Proofs.Dispatch.System

/-!
A network of dispatchers and the threads that use it. A move of a thread is one step of its innermost call, the start
or the end of a handler's run, or a call that the thread makes on any node, from outside or from inside a handler. As
for a simple dispatcher, what is asked and what handlers return is left open. The log remembers what has happened at
the leaves and at either end of a call; how a call comes from one leaf to the next leaves no trace in it.
-/

namespace Switchboard.Dispatch

variable {β ι η : Type}

def Operation.position (node : NodeId) : Operation ι η → Position ι η
  | request r => .entering node r
  | op => .at node op.phase

namespace Network

/-- Every node takes requests; only a leaf has a preset item and a handler. -/
def accepts (net : Network β ι η) (node : NodeId) : Operation ι η → Bool
  | .request _ => (net.node? node).isSome
  | _ => (net.leaf? node).isSome

end Network

namespace Traffic

/-! ### Calls in progress -/

inductive Stage (ι η : Type) where
  | going (c : Call ι η)
  /-- The section is over and the handler has not been entered. -/
  | calling (h : η) (x : ι) (c : Call ι η)
  | handling (x : ι) (c : Call ι η)

/-- A call in progress, with what the leaves have replied to it. It is known by the place that its first entry has in
the log. -/
structure Journey (ι η : Type) where
  number : Nat
  node : NodeId
  op : Operation ι η
  replies : List (NodeId × Reply) := []
  stage : Stage ι η

def free : List (Journey ι η) → Bool
  | [] => true
  | ⟨_, _, _, _, .handling _ _⟩ :: _ => true
  | _ => false

inductive Entry (ι η : Type) where
  | called (number : Nat) (t : ThreadId) (node : NodeId) (op : Operation ι η)
  /-- A section of a leaf. -/
  | served (number : Nat) (leaf : NodeId) (p : Phase ι η)
  | started (number : Nat) (x : ι) (h : η)
  | finished (number : Nat) (x : ι) (verdict : Except Error Unit)
  | returned (number : Nat) (node : NodeId) (op : Operation ι η) (replies : List (NodeId × Reply)) (r : Reply)

inductive Action (ι η : Type) where
  | call (node : NodeId) (op : Operation ι η)
  | advance
  /-- The handler that is to be called begins to run. -/
  | enter
  /-- The running handler returns. -/
  | settle (verdict : Except Error Unit)
  /-- Sets the preset item of a leaf or takes it away. -/
  | preset (leaf : NodeId) (x : Option ι)
  | join (node member : NodeId)
  | leave (node member : NodeId)

def Action.keepsMembers : Action ι η → Bool
  | join .. | leave .. => false
  | _ => true

/-! ### Moves -/

def leafReply? (before : Position ι η) (stride : Stride ι η) : Option (NodeId × Reply) :=
  match before, stride with
  | .at n _, .goes ⟨.replying r, _⟩ | .handling n _, .goes ⟨.replying r, _⟩ => some (n, r)
  | _, _ => none

def Journey.land (j : Journey ι η) (below : List (Journey ι η)) (before : Position ι η) (stride : Stride ι η) :
    Option (List (Journey ι η) × List (Entry ι η)) :=
  let replies := j.replies ++ (leafReply? before stride).toList
  match stride with
  | .goes c => some ({ j with replies, stage := .going c } :: below, [])
  | .calls h x c => some ({ j with stage := .calling h x c } :: below, [])
  | .ends r => some (below, [.returned j.number j.node j.op j.replies r])
  | .blocks => none

def Journey.remembered (j : Journey ι η) : Position ι η → List (Entry ι η)
  | .at n p => [.served j.number n p]
  | _ => []

/-- One move of thread `t`, whose calls are `fs`, innermost first: what it makes of the network and of the calls, and
what is to be remembered of it. A call made now is number `n`. -/
def turn? [Backlog β ι] (t : ThreadId) (n : Nat) (net : Network β ι η) (fs : List (Journey ι η)) :
    Action ι η → Option (Network β ι η × List (Journey ι η) × List (Entry ι η))
  | .call node op =>
    if free fs && net.accepts node op then
      some (net, ⟨n, node, op, [], .going ⟨op.position node, []⟩⟩ :: fs, [.called n t node op])
    else none
  | .advance =>
    match fs with
    | ⟨m, node, op, replies, .going c⟩ :: below =>
      let j : Journey ι η := ⟨m, node, op, replies, .going c⟩
      let (stride, net') := net.advance t c
      (j.land below c.position stride).map fun (fs, es) => (net', fs, j.remembered c.position ++ es)
    | _ => none
  | .enter =>
    match fs with
    | ⟨m, node, op, replies, .calling h x c⟩ :: below =>
      some (net, ⟨m, node, op, replies, .handling x c⟩ :: below, [.started m x h])
    | _ => none
  | .settle v =>
    match fs with
    | ⟨m, node, op, replies, .handling x c⟩ :: below =>
      (Journey.land ⟨m, node, op, replies, .handling x c⟩ below c.position (c.settle v)).map fun (fs, es) =>
        (net, fs, .finished m x v :: es)
    | _ => none
  | .preset leaf x =>
    match net.leaf? leaf with
    | some d => if free fs then some (net.setLeaf leaf { d with preset := x }, fs, []) else none
    | none => none
  | .join node member => if free fs then some (net.join node member, fs, []) else none
  | .leave node member => if free fs then some ((net.leave node member).2, fs, []) else none

end Traffic

/-! ### The system -/

structure Traffic (β ι η : Type) where
  net : Network β ι η
  /-- The calls that each thread has in progress, innermost first. -/
  threads : ThreadId → List (Traffic.Journey ι η) := fun _ => []
  log : List (Traffic.Entry ι η) := []

namespace Traffic

def after (s : Traffic β ι η) (t : ThreadId) (net : Network β ι η) (fs : List (Journey ι η))
    (es : List (Entry ι η)) : Traffic β ι η :=
  { net, threads := fun u => if u = t then fs else s.threads u, log := s.log ++ es }

section

variable {s : Traffic β ι η} {t u : ThreadId} {net : Network β ι η} {fs : List (Journey ι η)} {es : List (Entry ι η)}

@[simp] theorem after_net : (s.after t net fs es).net = net := rfl

@[simp] theorem after_log : (s.after t net fs es).log = s.log ++ es := rfl

@[simp] theorem after_threads_self : (s.after t net fs es).threads t = fs := if_pos rfl

theorem after_threads_other (other : u ≠ t) : (s.after t net fs es).threads u = s.threads u := if_neg other

/-- To speak of every thread after a move, speak of the one that has moved and of the others as they were. -/
theorem forall_after {P : ThreadId → List (Journey ι η) → Prop} (mine : P t fs)
    (others : ∀ u, u ≠ t → P u (s.threads u)) (u : ThreadId) : P u ((s.after t net fs es).threads u) := by
  by_cases same : u = t
  · rw [same, after_threads_self]
    exact mine
  · rw [after_threads_other same]
    exact others u same

end

variable [Backlog β ι]

def act (s : Traffic β ι η) (t : ThreadId) (a : Action ι η) : Option (Traffic β ι η) :=
  (turn? t s.log.length s.net (s.threads t) a).map fun (net, fs, es) => s.after t net fs es

def run (s : Traffic β ι η) (moves : List (ThreadId × Action ι η)) : Option (Traffic β ι η) := Threads.run act s moves

/-! ### What a move can do -/

/-- A call that is on its way to a leaf, or back from one to a fan-out. -/
def routing (c : Call ι η) : Bool :=
  match c.position, c.rounds with
  | .entering .., _ => true
  | .replying _, _ :: _ => true
  | _, _ => false

/-- A move of thread `t` that leaves all memberships alone: the network and the thread's calls before it and after it,
and what it leaves in the log. -/
inductive Turn (t : ThreadId) (n : Nat) (net : Network β ι η) :
    List (Journey ι η) → Network β ι η → List (Journey ι η) → List (Entry ι η) → Prop
  | call {fs} (node op) (ready : free fs = true) (accepted : net.accepts node op = true) :
    Turn t n net fs net (⟨n, node, op, [], .going ⟨op.position node, []⟩⟩ :: fs) [.called n t node op]
  | route {m node op replies c c' below} (way : routing c = true) (advanced : net.advance t c = (.goes c', net)) :
    Turn t n net (⟨m, node, op, replies, .going c⟩ :: below) net (⟨m, node, op, replies, .going c'⟩ :: below) []
  | goOn {m node op replies l p rounds below d p' d'} (leaf : net.leaf? l = some d)
    (moved : p.advance t d = (.goes p', d')) :
    Turn t n net (⟨m, node, op, replies, .going ⟨.at l p, rounds⟩⟩ :: below) (net.setLeaf l d')
      (⟨m, node, op, replies, .going ⟨.at l p', rounds⟩⟩ :: below) [.served m l p]
  | handOver {m node op replies l p rounds below d h x k d'} (leaf : net.leaf? l = some d)
    (moved : p.advance t d = (.calls h x k, d')) :
    Turn t n net (⟨m, node, op, replies, .going ⟨.at l p, rounds⟩⟩ :: below) (net.setLeaf l d')
      (⟨m, node, op, replies, .calling h x ⟨.handling l k, rounds⟩⟩ :: below) [.served m l p]
  | reply {m node op replies l p rounds below d r d'} (leaf : net.leaf? l = some d)
    (moved : p.advance t d = (.ends r, d')) :
    Turn t n net (⟨m, node, op, replies, .going ⟨.at l p, rounds⟩⟩ :: below) (net.setLeaf l d')
      (⟨m, node, op, replies ++ [(l, r)], .going ⟨.replying r, rounds⟩⟩ :: below) [.served m l p]
  | stray {m node op replies l p rounds below} (stray : net.leaf? l = none) :
    Turn t n net (⟨m, node, op, replies, .going ⟨.at l p, rounds⟩⟩ :: below) net below
      [.served m l p, .returned m node op replies (.outcome (.error .notConfigured))]
  | comeBack {m node op replies r below} :
    Turn t n net (⟨m, node, op, replies, .going ⟨.replying r, []⟩⟩ :: below) net below
      [.returned m node op replies r]
  | enter {m node op replies h x c below} :
    Turn t n net (⟨m, node, op, replies, .calling h x c⟩ :: below) net (⟨m, node, op, replies, .handling x c⟩ :: below)
      [.started m x h]
  | settleDirect {m node op replies x l rounds below} (v) :
    Turn t n net (⟨m, node, op, replies, .handling x ⟨.handling l .direct, rounds⟩⟩ :: below) net
      (⟨m, node, op, replies ++ [(l, .outcome (v.map fun _ => .delivered))],
        .going ⟨.replying (.outcome (v.map fun _ => .delivered)), rounds⟩⟩ :: below) [.finished m x v]
  | settleDrained {m node op replies x l r rounds below} (v) :
    Turn t n net (⟨m, node, op, replies, .handling x ⟨.handling l (.drained r), rounds⟩⟩ :: below) net
      (⟨m, node, op, replies, .going ⟨.at l (.draining (r.deliver v)), rounds⟩⟩ :: below) [.finished m x v]
  | preset {fs leaf d} (x) (ready : free fs = true) (found : net.leaf? leaf = some d) :
    Turn t n net fs (net.setLeaf leaf { d with preset := x }) fs []

variable {t : ThreadId} {n : Nat} {net net' : Network β ι η} {fs fs' : List (Journey ι η)} {es : List (Entry ι η)}

theorem advance_at {l : NodeId} {d d' : Dispatcher β ι η} {p : Phase ι η} {move : Move ι η} {rounds : List (Round ι)}
    (leaf : net.leaf? l = some d) (moved : p.advance t d = (move, d')) :
    net.advance t ⟨.at l p, rounds⟩ = (Network.follow l rounds move, net.setLeaf l d') := by
  simp [Network.advance, leaf, moved]

theorem advance_routing (t : ThreadId) (net : Network β ι η) {c : Call ι η} (way : routing c = true) :
    ∃ c', net.advance t c = (.goes c', net) := by
  have served : ∀ (round : Round ι) rounds, ∃ c' : Call ι η, Network.serve round rounds = .goes c' := by
    intro round rounds
    unfold Network.serve
    split <;> exact ⟨_, rfl⟩
  obtain ⟨position, rounds⟩ := c
  cases position with
  | entering node request =>
    simp only [Network.advance]
    split
    · obtain ⟨c', goes⟩ := served (request.round _) rounds
      exact ⟨c', by rw [goes]⟩
    · exact ⟨_, rfl⟩
  | replying r =>
    cases rounds with
    | nil => cases way
    | cons round rounds =>
      obtain ⟨c', goes⟩ := served (round.gather r) rounds
      exact ⟨c', by simp only [Network.advance, goes]⟩
  | «at» | handling => cases way

theorem turn_of_advance {j : Journey ι η} {below : List (Journey ι η)}
    (h : turn? t n net (j :: below) .advance = some (net', fs', es)) : Turn t n net (j :: below) net' fs' es := by
  obtain ⟨m, node, op, replies, stage⟩ := j
  cases stage with
  | calling | handling => cases h
  | going c =>
    by_cases way : routing c = true
    · obtain ⟨c', advanced⟩ := advance_routing t net way
      obtain ⟨position, rounds⟩ := c
      have silent : leafReply? position (.goes c') = none ∧
          Journey.remembered ⟨m, node, op, replies, .going ⟨position, rounds⟩⟩ position = [] := by
        cases position with
        | entering | replying => exact ⟨rfl, rfl⟩
        | «at» | handling => cases way
      simp only [turn?, advanced, Journey.land, silent.1, silent.2, Option.toList_none, List.append_nil, Option.map_some,
        Option.some.injEq, Prod.mk.injEq] at h
      obtain ⟨rfl, rfl, rfl⟩ := h
      exact .route way advanced
    · obtain ⟨position, rounds⟩ := c
      cases position with
      | entering => exact absurd rfl way
      | replying r =>
        cases rounds with
        | cons => exact absurd rfl way
        | nil =>
          simp only [turn?, Network.advance, Journey.land, Journey.remembered, List.nil_append, Option.map_some,
            Option.some.injEq, Prod.mk.injEq] at h
          obtain ⟨rfl, rfl, rfl⟩ := h
          exact .comeBack
      | handling => simp [turn?, Network.advance, Journey.land] at h
      | «at» l p =>
        cases leaf : net.leaf? l with
        | none =>
          simp only [turn?, Network.advance, leaf, Journey.land, Journey.remembered, List.cons_append, List.nil_append,
            Option.map_some, Option.some.injEq, Prod.mk.injEq] at h
          obtain ⟨rfl, rfl, rfl⟩ := h
          exact .stray leaf
        | some d =>
          rcases moved : p.advance t d with ⟨move, d'⟩
          cases move
          all_goals
            simp only [turn?, advance_at leaf moved, Network.follow, Journey.land, leafReply?, Journey.remembered,
              Option.toList_none, Option.toList_some, List.append_nil, Option.map_some, Option.map_none,
              Option.some.injEq, Prod.mk.injEq, reduceCtorEq] at h
          all_goals obtain ⟨rfl, rfl, rfl⟩ := h
          · exact .goOn leaf moved
          · exact .handOver leaf moved
          · exact .reply leaf moved

theorem turn_of_turn? {a : Action ι η} (keeps : a.keepsMembers = true)
    (h : turn? t n net fs a = some (net', fs', es)) : Turn t n net fs net' fs' es := by
  cases a with
  | call node op =>
    simp only [turn?, Option.ite_none_right_eq_some, Bool.and_eq_true, Option.some.injEq, Prod.mk.injEq] at h
    obtain ⟨⟨ready, accepted⟩, rfl, rfl, rfl⟩ := h
    exact .call node op ready accepted
  | advance =>
    cases fs with
    | nil => cases h
    | cons j below => exact turn_of_advance h
  | enter =>
    match fs, h with
    | ⟨_, _, _, _, .calling _ _ _⟩ :: _, h => cases h; exact .enter
  | settle v =>
    match fs, h with
    | ⟨_, _, _, _, .handling _ ⟨.handling _ .direct, _⟩⟩ :: _, h => cases h; exact .settleDirect v
    | ⟨_, _, _, _, .handling _ ⟨.handling _ (.drained _), _⟩⟩ :: _, h =>
      simp only [turn?, Call.settle, Awaiting.settle, Network.follow, Journey.land, leafReply?, Option.toList_none,
        List.append_nil, Option.map_some, Option.some.injEq, Prod.mk.injEq] at h
      obtain ⟨rfl, rfl, rfl⟩ := h
      exact .settleDrained v
  | preset leaf x =>
    simp only [turn?] at h
    split at h
    · rename_i found
      simp only [Option.ite_none_right_eq_some, Option.some.injEq, Prod.mk.injEq] at h
      obtain ⟨ready, rfl, rfl, rfl⟩ := h
      exact .preset x ready found
    · cases h
  | join | leave => cases keeps

/-- Every rule is a move. -/
theorem turn?_of_turn (turn : Turn t n net fs net' fs' es) :
    ∃ a : Action ι η, a.keepsMembers = true ∧ turn? t n net fs a = some (net', fs', es) := by
  cases turn with
  | call node op ready accepted => exact ⟨.call node op, rfl, by simp [turn?, ready, accepted]⟩
  | @route _ _ _ _ c c' _ way advanced =>
    refine ⟨.advance, rfl, ?_⟩
    obtain ⟨position, rounds⟩ := c
    cases position with
    | entering | replying => simp [turn?, advanced, Journey.land, leafReply?, Journey.remembered]
    | «at» | handling => cases way
  | goOn leaf moved =>
    exact ⟨.advance, rfl, by simp [turn?, advance_at leaf moved, Network.follow, Journey.land, leafReply?, Journey.remembered]⟩
  | handOver leaf moved =>
    exact ⟨.advance, rfl, by simp [turn?, advance_at leaf moved, Network.follow, Journey.land, Journey.remembered]⟩
  | reply leaf moved =>
    exact ⟨.advance, rfl, by simp [turn?, advance_at leaf moved, Network.follow, Journey.land, leafReply?, Journey.remembered]⟩
  | stray stray => exact ⟨.advance, rfl, by simp [turn?, Network.advance, stray, Journey.land, Journey.remembered]⟩
  | comeBack => exact ⟨.advance, rfl, by simp [turn?, Network.advance, Journey.land, Journey.remembered]⟩
  | enter => exact ⟨.enter, rfl, rfl⟩
  | settleDirect v => exact ⟨.settle v, rfl, rfl⟩
  | settleDrained v =>
    exact ⟨.settle v, rfl, by simp [turn?, Call.settle, Awaiting.settle, Network.follow, Journey.land, leafReply?]⟩
  | @preset _ leaf _ x ready found => exact ⟨.preset leaf x, rfl, by simp [turn?, found, ready]⟩

theorem turn_of_act {s s' : Traffic β ι η} {a : Action ι η} (keeps : a.keepsMembers = true) (h : s.act t a = some s') :
    ∃ net fs es, Turn t s.log.length s.net (s.threads t) net fs es ∧ s' = s.after t net fs es := by
  obtain ⟨⟨net, fs, es⟩, moved, rfl⟩ := Option.map_eq_some_iff.mp h
  exact ⟨net, fs, es, turn_of_turn? keeps moved, rfl⟩

/-- Some threads' moves lead from one state to another, and leave all memberships alone. -/
def Leads (s s' : Traffic β ι η) : Prop :=
  ∃ moves : List (ThreadId × Action ι η), (∀ move ∈ moves, move.2.keepsMembers = true) ∧ s.run moves = some s'

theorem Leads.refl (s : Traffic β ι η) : s.Leads s := ⟨[], nofun, rfl⟩

theorem Leads.trans {s s' s'' : Traffic β ι η} (first : s.Leads s') (second : s'.Leads s'') : s.Leads s'' := by
  obtain ⟨moves, keeps, ran⟩ := first
  obtain ⟨more, keeps', ran'⟩ := second
  refine ⟨moves ++ more, fun move member => ?_, ?_⟩
  · rcases List.mem_append.mp member with member | member
    · exact keeps move member
    · exact keeps' move member
  · rw [run, Threads.run_append]
    exact Option.bind_eq_some_iff.mpr ⟨s', ran, ran'⟩

theorem Leads.turn {s : Traffic β ι η} (turn : Turn t s.log.length s.net (s.threads t) net fs es) :
    s.Leads (s.after t net fs es) := by
  obtain ⟨a, keeps, moved⟩ := turn?_of_turn turn
  exact ⟨[(t, a)], by simpa using keeps, by simp [run, Threads.run, act, moved]⟩

/-- What holds at first and is kept by every move holds in the end. -/
theorem Leads.keeps {P : Traffic β ι η → Prop} {s s' : Traffic β ι η} (leads : s.Leads s') (holds : P s)
    (step : ∀ s t net fs es, P s → Turn t s.log.length s.net (s.threads t) net fs es → P (s.after t net fs es)) : P s' := by
  obtain ⟨moves, keeps, ran⟩ := leads
  refine Threads.run_keeps holds ran fun s t a s' member holds acted => ?_
  obtain ⟨net, fs, es, turn, rfl⟩ := turn_of_act (keeps _ member) acted
  exact step s t net fs es holds turn

end Traffic

end Switchboard.Dispatch
