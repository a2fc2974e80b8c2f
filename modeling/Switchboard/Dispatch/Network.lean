import Switchboard.Dispatch.Call

/-!
Networks of dispatchers: simple ones at the leaves, fan-outs above them. A fan-out forwards each
request to its members in order, working on the membership it had when the request came; a call
in progress carries one round for every fan-out it came through and holds the members of each round
until they have replied.
-/

namespace Switchboard.Dispatch

abbrev NodeId := Nat

inductive Node (β ι η : Type) where
  | leaf (d : Dispatcher β ι η)
  | fanOut (members : List NodeId)

structure Network (β ι η : Type) where
  nodes : List (Node β ι η) := []

/-! ### Rounds -/

/-- What the members served so far have answered. -/
structure Tally where
  allDelivered : Bool := true
  firstError : Option Error := none

def Tally.count (t : Tally) : Except Error Outcome → Tally
  | .ok .delivered => t
  | .ok .queued => { t with allDelivered := false }
  | .error e => { allDelivered := false, firstError := some (t.firstError.getD e) }

/-- The first error if there is one, else delivered if every member delivered. -/
def Tally.result (t : Tally) : Except Error Outcome :=
  match t.firstError with
  | some e => .error e
  | none => .ok (if t.allDelivered then .delivered else .queued)

/-- A fan-out in progress: the members that have not replied yet, of which the first is the one being
served, and what has been gathered. -/
inductive Round (ι : Type) where
  | dispatch (x : ι) (members : List NodeId) (tally : Tally)
  | suspend (members : List NodeId)
  | resume (discard : Bool) (members : List NodeId) (report : Report)

def Request.round {ι : Type} (members : List NodeId) : Request ι → Round ι
  | .dispatch x => .dispatch x members {}
  | .suspend => .suspend members
  | .resume discard => .resume discard members {}

namespace Round

variable {ι : Type}

def members : Round ι → List NodeId
  | dispatch _ members _ => members
  | suspend members => members
  | resume _ members _ => members

/-- The member being served has replied: the reply is added to what has been gathered. -/
def gather : Round ι → Reply → Round ι
  | dispatch x members tally, .outcome result => dispatch x members.tail (tally.count result)
  | dispatch x members tally, _ => dispatch x members.tail tally
  | suspend members, _ => suspend members.tail
  | resume discard members report, .report r => resume discard members.tail (report.merge r)
  | resume discard members report, _ => resume discard members.tail report

/-- The member to serve and what it is asked, or the reply of the whole fan-out. -/
def next : Round ι → (NodeId × Request ι) ⊕ Reply
  | dispatch x (m :: _) _ => .inl (m, .dispatch x)
  | dispatch _ [] tally => .inr (.outcome tally.result)
  | suspend (m :: _) => .inl (m, .suspend)
  | suspend [] => .inr .done
  | resume discard (m :: _) _ => .inl (m, .resume discard)
  | resume _ [] report => .inr (.report report)

end Round

/-! ### Calls through a network -/

inductive Position (ι η : Type) where
  | entering (node : NodeId) (request : Request ι)
  | at (node : NodeId) (phase : Phase ι η)
  | handling (node : NodeId) (k : Awaiting)
  | replying (r : Reply)

/-- A call in progress, with the fan-outs it came through, innermost first. -/
structure Call (ι η : Type) where
  position : Position ι η
  rounds : List (Round ι) := []

/-- The member that the next step of a call lets go of: the one that has replied. -/
def Call.served? {ι η : Type} (c : Call ι η) : Option NodeId :=
  match c.position, c.rounds with
  | .replying _, round :: _ => round.members.head?
  | _, _ => none

inductive Stride (ι η : Type) where
  | goes (c : Call ι η)
  | calls (h : η) (x : ι) (c : Call ι η)
  | ends (r : Reply)
  | blocks

namespace Network

variable {β ι η : Type}

def node? (net : Network β ι η) (n : NodeId) : Option (Node β ι η) := net.nodes[n]?

def leaf? (net : Network β ι η) (n : NodeId) : Option (Dispatcher β ι η) :=
  match net.node? n with
  | some (.leaf d) => some d
  | _ => none

def members? (net : Network β ι η) (n : NodeId) : Option (List NodeId) :=
  match net.node? n with
  | some (.fanOut members) => some members
  | _ => none

def setNode (net : Network β ι η) (n : NodeId) (node : Node β ι η) : Network β ι η :=
  ⟨net.nodes.set n node⟩

def setLeaf (net : Network β ι η) (n : NodeId) (d : Dispatcher β ι η) : Network β ι η :=
  net.setNode n (.leaf d)

def addNode (net : Network β ι η) (node : Node β ι η) : NodeId × Network β ι η :=
  (net.nodes.length, ⟨net.nodes ++ [node]⟩)

/-- Appends a member; one that is there already is served once more. -/
def join (net : Network β ι η) (n member : NodeId) : Network β ι η :=
  match net.members? n with
  | some members => net.setNode n (.fanOut (members ++ [member]))
  | none => net

/-- Removes every occurrence of a member and tells whether there was one. -/
def leave (net : Network β ι η) (n member : NodeId) : Bool × Network β ι η :=
  match net.members? n with
  | some members => (members.contains member, net.setNode n (.fanOut (members.filter (· != member))))
  | none => (false, net)

/-- The leaves below a node, depth first and in member order, down to `depth` levels of fan-outs. -/
def leavesWithin (net : Network β ι η) : Nat → NodeId → List NodeId
  | 0, _ => []
  | depth + 1, n =>
    match net.node? n with
    | some (.leaf _) => [n]
    | some (.fanOut members) => members.flatMap (net.leavesWithin depth)
    | none => []

/-- The leaves below a node. No chain of distinct fan-outs is longer than the network is large. -/
def leaves (net : Network β ι η) (n : NodeId) : List NodeId := net.leavesWithin (net.nodes.length + 1) n

/-- The members that the next step of a call takes hold of: those of the fan-out it enters. -/
def entered (net : Network β ι η) (c : Call ι η) : List NodeId :=
  match c.position with
  | .entering n _ => (net.members? n).getD []
  | _ => []

variable [Backlog β ι]

def isSuspended (net : Network β ι η) (n : NodeId) : Bool :=
  ((net.leaves n).filterMap net.leaf?).any fun d => d.gate.suspended

def pending (net : Network β ι η) (n : NodeId) : Nat :=
  ((net.leaves n).filterMap net.leaf?).foldr (fun d sum => d.pending + sum) 0

def follow (n : NodeId) (rounds : List (Round ι)) : Move ι η → Stride ι η
  | .goes p => .goes ⟨.at n p, rounds⟩
  | .calls h x k => .calls h x ⟨.handling n k, rounds⟩
  | .ends r => .goes ⟨.replying r, rounds⟩
  | .blocks => .blocks

/-- The innermost fan-out goes on to its next member or replies. -/
def serve (round : Round ι) (rounds : List (Round ι)) : Stride ι η :=
  match round.next with
  | .inl (m, request) => .goes ⟨.entering m request, round :: rounds⟩
  | .inr r => .goes ⟨.replying r, rounds⟩

/-- One step of thread `me`'s call. A call that waits for its handler makes none. -/
def advance (me : ThreadId) (net : Network β ι η) (c : Call ι η) : Stride ι η × Network β ι η :=
  match c.position with
  | .entering n request =>
    match net.members? n with
    | some members => (serve (request.round members) c.rounds, net)
    | none => (.goes ⟨.at n request.phase, c.rounds⟩, net)
  | .at n phase =>
    match net.leaf? n with
    | some d =>
      let (move, d) := phase.advance me d
      (follow n c.rounds move, net.setLeaf n d)
    | none => (.ends (.outcome (.error .notConfigured)), net)
  | .handling .. => (.blocks, net)
  | .replying r =>
    match c.rounds with
    | [] => (.ends r, net)
    | round :: rounds => (serve (round.gather r) rounds, net)

end Network

def Call.settle {ι η : Type} (verdict : Except Error Unit) (c : Call ι η) : Stride ι η :=
  match c.position with
  | .handling n k => Network.follow n c.rounds (k.settle verdict)
  | _ => .blocks

end Switchboard.Dispatch
