import Mathlib
import Switchboard.Proofs.Dispatch.Membership
import Switchboard.Proofs.Dispatch.Routing

/-!
One request's way round the members of a fan-out, while other calls and the handlers on the way edit that very
membership. What is offered to the members and what they reply are signs that a watcher of the call can see.
`cycle_of_snapshot` says that they are those of the membership found when the request came.
-/

namespace Switchboard.Dispatch

variable {β ι η : Type}

/-! ### Moves that edit memberships -/

namespace Traffic

def Action.edited (n : NodeId) (members : List NodeId) : Action ι η → List NodeId
  | join node member => if node = n then members ++ [member] else members
  | leave node member => if node = n then members.filter (· != member) else members
  | _ => members

/-- Only nodes of the network become members. -/
def Action.Known (net : Network β ι η) : Action ι η → Prop
  | join _ member => (net.node? member).isSome
  | _ => True

/-- What a move makes of the memberships. -/
structure Edits (a : Action ι η) (net net' : Network β ι η) : Prop where
  kinds : net.SameKinds net'
  members : ∀ n, net'.members? n = (net.members? n).map fun members => a.edited n members

theorem edits_none {a : Action ι η} {net : Network β ι η} (keeps : a.keepsMembers = true) : Edits a net net := by
  refine ⟨.refl net, fun n => ?_⟩
  cases a with
  | join | leave => cases keeps
  | _ => simp [Action.edited]

theorem edits_leaf {a : Action ι η} {net : Network β ι η} {l : NodeId} {d d' : Dispatcher β ι η}
    (keeps : a.keepsMembers = true) (leaf : net.leaf? l = some d) : Edits a net (net.setLeaf l d') := by
  have shape := Network.setLeaf_shape (d := d') leaf
  refine ⟨⟨shape.node, shape.leaf⟩, fun n => ?_⟩
  rw [Network.members?_setLeaf leaf, ← (edits_none keeps).members n]

theorem edits_join (net : Network β ι η) (node member : NodeId) :
    Edits (.join node member : Action ι η) net (net.join node member) := by
  unfold Network.join
  cases found : net.members? node with
  | none =>
    refine ⟨.refl net, fun n => ?_⟩
    by_cases same : node = n
    · simp [← same, found]
    · simp [Action.edited, same]
  | some members =>
    refine ⟨Network.setMembers_kinds found, fun n => ?_⟩
    rw [Network.members?_setMembers found]
    by_cases same : node = n
    · simp [← same, found, Action.edited]
    · simp [Action.edited, same]

theorem edits_leave (net : Network β ι η) (node member : NodeId) :
    Edits (.leave node member : Action ι η) net (net.leave node member).2 := by
  unfold Network.leave
  cases found : net.members? node with
  | none =>
    refine ⟨.refl net, fun n => ?_⟩
    by_cases same : node = n
    · simp [← same, found]
    · simp [Action.edited, same]
  | some members =>
    refine ⟨Network.setMembers_kinds found, fun n => ?_⟩
    rw [Network.members?_setMembers found]
    by_cases same : node = n
    · simp [← same, found, Action.edited]
    · simp [Action.edited, same]

theorem Edits.closed {a : Action ι η} {net net' : Network β ι η} (edits : Edits a net net') (known : a.Known net)
    (closed : net.Closed) : net'.Closed := by
  rintro m n ⟨members', found', here⟩
  rw [edits.members] at found'
  obtain ⟨members, found, rfl⟩ := Option.map_eq_some_iff.mp found'
  rw [← edits.kinds.node]
  have old : m ∈ members → (net.node? m).isSome := fun member => closed m n ⟨members, found, member⟩
  cases a with
  | join node member =>
    simp only [Action.edited] at here
    split at here
    · rcases List.mem_append.mp here with before | added
      · exact old before
      · rw [List.mem_singleton.mp added]
        exact known
    · exact old here
  | leave node member =>
    simp only [Action.edited] at here
    split at here
    · exact old (List.mem_filter.mp here).1
    · exact old here
  | _ => exact old here

variable [Backlog β ι] {t : ThreadId} {k : Nat} {net net' : Network β ι η} {fs fs' : List (Journey ι η)}
  {es : List (Entry ι η)}

theorem turn_edits {a : Action ι η} (moved : turn? t k net fs a = some (net', fs', es)) : Edits a net net' := by
  by_cases keeps : a.keepsMembers = true
  · cases turn_of_turn? keeps moved with
    | call | route | stray | comeBack | enter | settleDirect | settleDrained => exact edits_none keeps
    | goOn leaf | handOver leaf | reply leaf | preset _ _ leaf => exact edits_leaf keeps leaf
  · cases a with
    | join node member =>
      simp only [turn?, Option.ite_none_right_eq_some, Option.some.injEq, Prod.mk.injEq] at moved
      obtain ⟨_, rfl, _⟩ := moved
      exact edits_join net node member
    | leave node member =>
      simp only [turn?, Option.ite_none_right_eq_some, Option.some.injEq, Prod.mk.injEq] at moved
      obtain ⟨_, rfl, _⟩ := moved
      exact edits_leave net node member
    | _ => exact absurd rfl keeps

end Traffic

/-! ### A call on one member -/

/-- The call goes on below more fan-outs than it knows of. -/
def Call.under (outer : List (Round ι)) (c : Call ι η) : Call ι η := ⟨c.position, c.rounds ++ outer⟩

/-- The reply with which a call comes back to where it began. -/
def Call.answer? (c : Call ι η) : Option Reply :=
  match c.position, c.rounds with
  | .replying r, [] => some r
  | _, _ => none

def Stride.under (outer : List (Round ι)) : Stride ι η → Stride ι η
  | goes c => .goes (c.under outer)
  | calls h x c => .calls h x (c.under outer)
  | ends r => .ends r
  | blocks => .blocks

/-- A call that passes request `q` on, and nothing else, to nodes that are there. -/
structure Call.Passes (net : Network β ι η) (q : Request ι) (c : Call ι η) : Prop where
  position : match c.position with
    | .entering m request => request = q ∧ (net.node? m).isSome
    | .at l p => p.Serves q ∧ (net.leaf? l).isSome
    | .handling l k => k.Serves q ∧ (net.leaf? l).isSome
    | .replying r => r.Answers q
  rounds : ∀ round ∈ c.rounds, ∃ m later heard, round = q.progress (m :: later) heard ∧
    ∀ k ∈ later, (net.node? k).isSome

def Stride.Passes (net : Network β ι η) (q : Request ι) : Stride ι η → Prop
  | goes c => c.Passes net q ∧ (c.rounds = [] → ∀ m request, c.position ≠ .entering m request) ∧
      ∀ l k, c.position ≠ .handling l k
  | calls _ _ c => c.Passes net q ∧ ∃ l k, c.position = .handling l k
  | ends _ => False
  | blocks => ∀ x, q ≠ .dispatch x

section

variable {net net' : Network β ι η} {q : Request ι} {c : Call ι η} {outer rounds : List (Round ι)}
  {heard : List Reply} {members : List NodeId}

theorem Call.Passes.kinds (passes : c.Passes net q) (kinds : net.SameKinds net') : c.Passes net' q where
  position := by
    have position := passes.position
    split at position
    · exact ⟨position.1, kinds.node _ ▸ position.2⟩
    · exact ⟨position.1, kinds.leaf _ ▸ position.2⟩
    · exact ⟨position.1, kinds.leaf _ ▸ position.2⟩
    · exact position
  rounds := by
    intro round member
    obtain ⟨m, later, heard, rfl, present⟩ := passes.rounds round member
    exact ⟨m, later, heard, rfl, fun k after => kinds.node k ▸ present k after⟩

theorem Stride.Passes.kinds {stride : Stride ι η} (passes : stride.Passes net q) (kinds : net.SameKinds net') :
    stride.Passes net' q := by
  cases stride with
  | goes | calls => exact ⟨Call.Passes.kinds passes.1 kinds, passes.2⟩
  | ends | blocks => exact passes

theorem serve_under (round : Round ι) (rounds outer : List (Round ι)) :
    (Network.serve round (rounds ++ outer) : Stride ι η) = (Network.serve round rounds).under outer := by
  unfold Network.serve
  split <;> rfl

theorem follow_under (n : NodeId) (rounds outer : List (Round ι)) (move : Move ι η) :
    Network.follow n (rounds ++ outer) move = (Network.follow n rounds move).under outer := by
  cases move <;> rfl

theorem settle_under (v : Except Error Unit) (c : Call ι η) (outer : List (Round ι)) :
    (c.under outer).settle v = (c.settle v).under outer := by
  obtain ⟨position, rounds⟩ := c
  cases position with
  | handling l k => exact follow_under l rounds outer _
  | _ => rfl

theorem serve_passes (present : ∀ k ∈ members, (net.node? k).isSome)
    (above : ∀ round ∈ rounds, ∃ m later heard,
      round = q.progress (m :: later) heard ∧ ∀ k ∈ later, (net.node? k).isSome)
    (heard : List Reply) : (Network.serve (q.progress members heard) rounds : Stride ι η).Passes net q := by
  cases members with
  | nil =>
    rw [serve_done]
    exact ⟨⟨combine_answers q heard, above⟩, nofun, nofun⟩
  | cons m members =>
    rw [serve_member]
    obtain ⟨here, present⟩ := List.forall_mem_cons.mp present
    exact ⟨⟨⟨rfl, here⟩, List.forall_mem_cons.mpr ⟨⟨m, members, heard, rfl, present⟩, above⟩⟩, nofun, nofun⟩

theorem follow_passes (move : Move ι η) {l : NodeId} (serves : move.Serves q) (leaf : (net.leaf? l).isSome)
    (unblocked : ∀ x, q = .dispatch x → move ≠ .blocks)
    (above : ∀ round ∈ rounds, ∃ m later heard, round = q.progress (m :: later) heard ∧
      ∀ k ∈ later, (net.node? k).isSome) : (Network.follow l rounds move).Passes net q := by
  cases move with
  | goes p => exact ⟨⟨⟨serves, leaf⟩, above⟩, nofun, nofun⟩
  | calls h x k => exact ⟨⟨⟨serves, leaf⟩, above⟩, l, k, rfl⟩
  | ends r => exact ⟨⟨serves, above⟩, nofun, nofun⟩
  | blocks => exact fun x dispatched => unblocked x dispatched rfl

theorem settle_passes (passes : c.Passes net q) {l : NodeId} {k : Awaiting} (waits : c.position = .handling l k)
    (v : Except Error Unit) : (c.settle v).Passes net q := by
  obtain ⟨position, rounds⟩ := c
  cases waits
  obtain ⟨⟨serves, leaf⟩, above⟩ := passes
  cases k with
  | direct =>
    cases q with
    | dispatch x => exact follow_passes (.ends _) trivial leaf (by simp) above
    | suspend | resume => cases serves
  | drained r =>
    cases q with
    | resume => exact follow_passes (.goes _) trivial leaf (by simp) above
    | suspend | dispatch => cases serves

variable [Backlog β ι]

theorem dispatch_unblocked {p : Phase ι η} {x : ι} (serves : p.Serves (.dispatch x)) (t : ThreadId)
    (d : Dispatcher β ι η) : (p.advance t d).1 ≠ .blocks := by
  match p, serves with
  | .admitting y, _ =>
    simp only [Phase.advance]
    split <;> simp

/-- Until a call has come back to where it began it does not see what is above. -/
theorem advance_under (t : ThreadId) (net : Network β ι η) (going : c.answer? = none) (outer : List (Round ι)) :
    net.advance t (c.under outer) = ((net.advance t c).1.under outer, (net.advance t c).2) := by
  obtain ⟨position, rounds⟩ := c
  cases position with
  | entering n request =>
    simp only [Network.advance, Call.under]
    cases net.members? n with
    | none => rfl
    | some members => simp only [serve_under]
  | «at» l p =>
    simp only [Network.advance, Call.under]
    cases net.leaf? l with
    | none => rfl
    | some d => simp only [follow_under]
  | handling => rfl
  | replying r =>
    cases rounds with
    | nil => cases going
    | cons round rounds => simp only [Network.advance, Call.under, List.cons_append, serve_under]

theorem advance_passes (t : ThreadId) (closed : net.Closed) (passes : c.Passes net q) (going : c.answer? = none)
    (unwaiting : ∀ l k, c.position ≠ .handling l k) : (net.advance t c).1.Passes net q := by
  obtain ⟨position, rounds⟩ := c
  obtain ⟨here, above⟩ := passes
  cases position with
  | entering n request =>
    obtain ⟨rfl, here⟩ := here
    rcases Network.leaf_or_fanOut here with ⟨d, leaf⟩ | ⟨members, fanOut⟩
    · have none : net.members? n = none := Network.members?_of_leaf (by simp [leaf])
      simp only [Network.advance, none]
      exact ⟨⟨⟨phase_serves request, by simp [leaf]⟩, above⟩, by simp, by simp⟩
    · simp only [Network.advance, fanOut, round_eq]
      exact serve_passes (fun k member => closed k n ⟨members, fanOut, member⟩) above []
  | «at» l p =>
    obtain ⟨serves, leaf⟩ := here
    obtain ⟨d, found⟩ := Option.isSome_iff_exists.mp leaf
    simp only [Network.advance, found]
    exact follow_passes _ (advance_serves serves t d) leaf (fun x same => dispatch_unblocked (same ▸ serves) t d) above
  | handling l k => exact absurd rfl (unwaiting l k)
  | replying r =>
    cases rounds with
    | nil => cases going
    | cons round rounds =>
      obtain ⟨⟨m, later, heard, rfl, present⟩, further⟩ := List.forall_mem_cons.mp above
      simp only [Network.advance, progress_gather here]
      exact serve_passes present further _

end

/-! ### What a watcher sees -/

namespace Traffic

/-- What a fan-out that is watched does: it passes a request on to a member, and a member replies to it. -/
inductive Sign (ι : Type) where
  | offered (m : NodeId) (request : Request ι)
  | replied (r : Reply)

/-- What the innermost call shows of a fan-out, if `depth` calls wait below it and the call came through `level`
fan-outs before that one. -/
def sign? (depth level : Nat) : List (Journey ι η) → Option (Sign ι)
  | ⟨_, _, _, _, .going ⟨.entering m request, rounds⟩⟩ :: below =>
    if below.length = depth ∧ rounds.length = level + 1 then some (.offered m request) else none
  | ⟨_, _, _, _, .going ⟨.replying r, rounds⟩⟩ :: below =>
    if below.length = depth ∧ rounds.length = level + 1 then some (.replied r) else none
  | _ => none

/-- The reply of the fan-out that is watched. -/
def overall? (depth level : Nat) : List (Journey ι η) → Option Reply
  | ⟨_, _, _, _, .going ⟨.replying r, rounds⟩⟩ :: below =>
    if below.length = depth ∧ rounds.length = level then some r else none
  | _ => none

/-- Performs moves of any threads until the watched fan-out of thread `t` has replied, with the signs that it gives. -/
def watch [Backlog β ι] (t : ThreadId) (depth level : Nat) (s : Traffic β ι η) :
    List (ThreadId × Action ι η) → Option (Traffic β ι η × List (Sign ι))
  | [] => some (s, [])
  | (u, a) :: rest =>
    if (overall? depth level (s.threads t)).isSome then none
    else (s.act u a).bind fun s =>
      let seen := if u = t then (sign? depth level (s.threads t)).toList else []
      (s.watch t depth level rest).map fun (s, signs) => (s, seen ++ signs)

/-- The signs of a fan-out whose members have been offered a request and have replied. -/
def exchanged (q : Request ι) (served : List NodeId) (heard : List Reply) : List (Sign ι) :=
  (served.zip heard).flatMap fun (m, r) => [.offered m q, .replied r]

theorem exchanged_append {served : List NodeId} {heard : List Reply} (even : heard.length = served.length)
    (q : Request ι) (m : NodeId) (r : Reply) :
    exchanged q (served ++ [m]) (heard ++ [r]) = exchanged q served heard ++ [.offered m q, .replied r] := by
  simp [exchanged, List.zip_append even.symm]

/-! ### Where a fan-out stands -/

/-- The fan-out has served `served`, which have replied `heard`, and is at member `m`; `later` are still to be
served. What the call does below the fan-out is `c`. -/
structure At (net : Network β ι η) (q : Request ι) (members : List NodeId) (signs : List (Sign ι))
    (served : List NodeId) (heard : List Reply) (m : NodeId) (later : List NodeId) (c : Call ι η) : Prop where
  split : members = served ++ m :: later
  even : heard.length = served.length
  answers : ∀ r ∈ heard, r.Answers q
  present : ∀ k ∈ later, (net.node? k).isSome
  passes : c.Passes net q
  signs : signs = exchanged q served heard ++ .offered m q :: (c.answer?.map .replied).toList

structure Through (q : Request ι) (members : List NodeId) (signs : List (Sign ι)) (heard : List Reply) : Prop where
  even : heard.length = members.length
  answers : ∀ r ∈ heard, r.Answers q
  signs : signs = exchanged q members heard

/-- A call that is watched as it takes request `request` round the members of a fan-out: the calls below it on its
thread, and the fan-outs that it came through before this one. -/
structure Watched (ι η : Type) where
  number : Nat
  node : NodeId
  op : Operation ι η
  below : List (Journey ι η)
  outer : List (Round ι)
  request : Request ι
  members : List NodeId

namespace Watched

/-- The call has gone to a member. Calls above it are made by handlers that run on its behalf. -/
def Underway (w : Watched ι η) (net : Network β ι η) (fs : List (Journey ι η)) (signs : List (Sign ι)) : Prop :=
  ∃ newer replies stage served heard m later c,
    fs = newer ++ ⟨w.number, w.node, w.op, replies, stage⟩ :: w.below ∧
    (newer ≠ [] → ∃ x c, stage = .handling x c) ∧ stage.Fits ∧
    stage.call = c.under (w.request.progress (m :: later) heard :: w.outer) ∧
    At net w.request w.members signs served heard m later c

def Over (w : Watched ι η) (fs : List (Journey ι η)) (signs : List (Sign ι)) : Prop :=
  ∃ replies heard,
    fs = ⟨w.number, w.node, w.op, replies, .going ⟨.replying (w.request.combine heard), w.outer⟩⟩ :: w.below ∧
    Through w.request w.members signs heard

end Watched

section

variable {w : Watched ι η} {net net' : Network β ι η} {q : Request ι} {members served later : List NodeId}
  {signs : List (Sign ι)} {heard : List Reply} {m : NodeId} {c : Call ι η} {fs : List (Journey ι η)}

theorem At.kinds (at' : At net q members signs served heard m later c) (kinds : net.SameKinds net') :
    At net' q members signs served heard m later c :=
  { at' with present := fun k after => kinds.node k ▸ at'.present k after, passes := at'.passes.kinds kinds }

theorem Watched.Underway.kinds (underway : w.Underway net fs signs) (kinds : net.SameKinds net') :
    w.Underway net' fs signs := by
  obtain ⟨newer, replies, stage, served, heard, m, later, c, stack, waits, fits, call, at'⟩ := underway
  exact ⟨newer, replies, stage, served, heard, m, later, c, stack, waits, fits, call, at'.kinds kinds⟩

theorem answer_none_of_handling {l : NodeId} {k : Awaiting} (waits : c.position = .handling l k) : c.answer? = none := by
  simp [Call.answer?, waits]

theorem answer_eq_some {r : Reply} (answers : c.answer? = some r) : c = ⟨.replying r, []⟩ := by
  obtain ⟨position, rounds⟩ := c
  unfold Call.answer? at answers
  split at answers
  · rename_i r' position none
    cases Option.some.inj answers
    exact congrArg₂ Call.mk position none
  · cases answers

/-- The sign of a call that has moved below the fan-out is the reply of the member, if the call comes back with it. -/
theorem sign_goes {number : Nat} {node : NodeId} {op : Operation ι η} {replies : List (NodeId × Reply)}
    {below : List (Journey ι η)} {mark : Round ι} {outer : List (Round ι)}
    (inside : c.rounds = [] → ∀ m request, c.position ≠ .entering m request) :
    sign? below.length outer.length (⟨number, node, op, replies, .going (c.under (mark :: outer))⟩ :: below) =
      c.answer?.map .replied := by
  obtain ⟨position, rounds⟩ := c
  cases rounds with
  | nil =>
    cases position with
    | entering m request => exact absurd rfl (inside rfl m request)
    | _ => simp [sign?, Call.under, Call.answer?]
  | cons round rounds => cases position <;> simp [sign?, Call.under, Call.answer?] <;> omega

theorem sign_deeper {newer : List (Journey ι η)} (deeper : newer ≠ []) (j : Journey ι η) (below : List (Journey ι η))
    (level : Nat) : sign? below.length level (newer ++ j :: below) = none := by
  cases newer with
  | nil => exact absurd rfl deeper
  | cons top rest =>
    have longer : (rest ++ j :: below).length ≠ below.length := by simp; omega
    rw [List.cons_append]
    unfold sign?
    split
    · rename_i stack
      rw [(List.cons.inj stack).2] at longer
      simp [longer]
    · rename_i stack
      rw [(List.cons.inj stack).2] at longer
      simp [longer]
    · rfl

/-- The call has made a step below the fan-out, or its handler has returned. -/
theorem underway_of_land {before : Position ι η} {replies : List (NodeId × Reply)} {stage : Stage ι η}
    {stride : Stride ι η} {es : List (Entry ι η)} (at' : At net w.request w.members signs served heard m later c)
    (going : c.answer? = none) (passes : stride.Passes net w.request)
    (landed : Journey.land ⟨w.number, w.node, w.op, replies, stage⟩ w.below before
      (stride.under (w.request.progress (m :: later) heard :: w.outer)) = some (fs, es)) :
    w.Underway net fs (signs ++ (sign? w.below.length w.outer.length fs).toList) := by
  obtain ⟨split, even, answers, present, _, rfl⟩ := at'
  simp only [going, Option.map_none, Option.toList_none]
  cases stride with
  | goes c' =>
    simp only [Stride.under, Journey.land, Option.some.injEq, Prod.mk.injEq] at landed
    obtain ⟨rfl, _⟩ := landed
    obtain ⟨passes, inside, unwaiting⟩ := passes
    rw [sign_goes inside]
    exact ⟨[], _, _, served, heard, m, later, c', rfl, absurd rfl, unwaiting, rfl,
      split, even, answers, present, passes, by simp⟩
  | calls h x c' =>
    simp only [Stride.under, Journey.land, Option.some.injEq, Prod.mk.injEq] at landed
    obtain ⟨rfl, _⟩ := landed
    obtain ⟨passes, l, k, waits⟩ := passes
    exact ⟨[], _, _, served, heard, m, later, c', rfl, absurd rfl, ⟨l, k, waits⟩, rfl,
      split, even, answers, present, passes, by simp [sign?, answer_none_of_handling waits]⟩
  | ends => exact passes.elim
  | blocks => cases landed

/-- The fan-out goes on to its next member, or replies. -/
theorem served_on {replies : List (NodeId × Reply)} (served later : List NodeId) (heard : List Reply)
    (even : heard.length = served.length) (split : w.members = served ++ later) (answers : ∀ r ∈ heard, r.Answers w.request)
    (present : ∀ k ∈ later, (net.node? k).isSome) {before : Position ι η} {stage : Stage ι η}
    {es : List (Entry ι η)}
    (landed : Journey.land ⟨w.number, w.node, w.op, replies, stage⟩ w.below before
      (Network.serve (w.request.progress later heard) w.outer) = some (fs, es)) :
    let signs := exchanged w.request served heard ++ (sign? w.below.length w.outer.length fs).toList
    w.Underway net fs signs ∨ w.Over fs signs := by
  cases later with
  | nil =>
    rw [serve_done] at landed
    simp only [Journey.land, Option.some.injEq, Prod.mk.injEq] at landed
    obtain ⟨rfl, _⟩ := landed
    rw [List.append_nil] at split
    exact Or.inr ⟨_, heard, rfl, by rw [even, split], answers, by simp [sign?, split]⟩
  | cons m later =>
    rw [serve_member] at landed
    simp only [Journey.land, Option.some.injEq, Prod.mk.injEq] at landed
    obtain ⟨rfl, _⟩ := landed
    obtain ⟨here, present⟩ := List.forall_mem_cons.mp present
    refine Or.inl ⟨[], _, _, served, heard, m, later, ⟨.entering m w.request, []⟩, rfl, absurd rfl, ?_, rfl,
      split, even, answers, present, ⟨⟨rfl, here⟩, by simp⟩, ?_⟩
    · simp [Stage.Fits]
    · simp [sign?, Call.answer?]

theorem land_frame {j : Journey ι η} {below fs : List (Journey ι η)} {before : Position ι η} {stride : Stride ι η}
    {es : List (Entry ι η)} (landed : j.land below before stride = some (fs, es)) : ∃ newer, fs = newer ++ below := by
  cases stride with
  | goes | calls =>
    simp only [Journey.land, Option.some.injEq, Prod.mk.injEq] at landed
    exact ⟨[_], landed.1.symm⟩
  | ends =>
    simp only [Journey.land, Option.some.injEq, Prod.mk.injEq] at landed
    exact ⟨[], landed.1.symm⟩
  | blocks => cases landed

variable [Backlog β ι] {t : ThreadId} {k : Nat} {fs' : List (Journey ι η)} {es : List (Entry ι η)} {a : Action ι η}

/-- A thread whose innermost call is not its own to move on leaves all its calls as they are, and may add one. -/
theorem turn_newer (moved : turn? t k net fs a = some (net', fs', es)) :
    (free fs = true ∧ ∃ newer, fs' = newer ++ fs) ∨ a = .advance ∨ a = .enter ∨ ∃ v, a = .settle v := by
  cases a with
  | advance => exact Or.inr (Or.inl rfl)
  | enter => exact Or.inr (Or.inr (Or.inl rfl))
  | settle v => exact Or.inr (Or.inr (Or.inr ⟨v, rfl⟩))
  | call node op =>
    simp only [turn?, Option.ite_none_right_eq_some, Bool.and_eq_true, Option.some.injEq, Prod.mk.injEq] at moved
    exact Or.inl ⟨moved.1.1, [_], moved.2.2.1.symm⟩
  | preset leaf x =>
    simp only [turn?] at moved
    split at moved
    · simp only [Option.ite_none_right_eq_some, Option.some.injEq, Prod.mk.injEq] at moved
      exact Or.inl ⟨moved.1, [], moved.2.2.1.symm⟩
    · cases moved
  | join | leave =>
    simp only [turn?, Option.ite_none_right_eq_some, Option.some.injEq, Prod.mk.injEq] at moved
    exact Or.inl ⟨moved.1, [], moved.2.2.1.symm⟩

theorem land_of_advance {j : Journey ι η} {below : List (Journey ι η)} (stage : j.stage = .going c)
    (moved : turn? t k net (j :: below) .advance = some (net', fs', es)) :
    ∃ es, j.land below c.position (net.advance t c).1 = some (fs', es) := by
  obtain ⟨m, node, op, replies, _⟩ := j
  subst stage
  obtain ⟨⟨fs, es'⟩, landed, same⟩ := Option.map_eq_some_iff.mp moved
  exact ⟨es', by rw [← (Prod.mk.inj (Prod.mk.inj same).2).1]; exact landed⟩

theorem land_of_settle {j : Journey ι η} {below : List (Journey ι η)} {x : ι} {v : Except Error Unit}
    (stage : j.stage = .handling x c) (moved : turn? t k net (j :: below) (.settle v) = some (net', fs', es)) :
    net' = net ∧ ∃ es, j.land below c.position (c.settle v) = some (fs', es) := by
  obtain ⟨m, node, op, replies, _⟩ := j
  subst stage
  obtain ⟨⟨fs, es'⟩, landed, same⟩ := Option.map_eq_some_iff.mp moved
  exact ⟨(Prod.mk.inj same).1.symm, es', by rw [← (Prod.mk.inj (Prod.mk.inj same).2).1]; exact landed⟩

/-- A move leaves all calls alone but the innermost. -/
theorem turn_frame {top : Journey ι η} {rest : List (Journey ι η)}
    (moved : turn? t k net (top :: rest) a = some (net', fs', es)) : ∃ newer, fs' = newer ++ rest := by
  obtain ⟨m, node, op, replies, stage⟩ := top
  rcases turn_newer moved with ⟨_, newer, rfl⟩ | rfl | rfl | ⟨v, rfl⟩
  · exact ⟨newer ++ [⟨m, node, op, replies, stage⟩], by simp⟩
  · cases stage with
    | going c =>
      obtain ⟨_, landed⟩ := land_of_advance rfl moved
      exact land_frame landed
    | calling | handling => cases moved
  · cases stage with
    | calling h x c =>
      simp only [turn?, Option.some.injEq, Prod.mk.injEq] at moved
      exact ⟨[_], moved.2.1.symm⟩
    | going | handling => cases moved
  · cases stage with
    | handling x c =>
      obtain ⟨_, _, landed⟩ := land_of_settle rfl moved
      exact land_frame landed
    | going | calling => cases moved

omit [Backlog β ι] in
/-- While handlers run on behalf of the call nothing is seen of it. -/
theorem underway_of_covered {replies : List (NodeId × Reply)} {x : ι} {call : Call ι η} {newer : List (Journey ι η)}
    (fits : (Stage.handling x call : Stage ι η).Fits)
    (within : call = c.under (w.request.progress (m :: later) heard :: w.outer))
    (at' : At net w.request w.members signs served heard m later c)
    (stack : fs = newer ++ ⟨w.number, w.node, w.op, replies, .handling x call⟩ :: w.below) :
    w.Underway net fs (signs ++ (sign? w.below.length w.outer.length fs).toList) := by
  have unseen : sign? w.below.length w.outer.length fs = none := by
    by_cases deeper : newer = []
    · rw [stack, deeper]
      rfl
    · rw [stack]
      exact sign_deeper deeper _ _ _
  rw [unseen, Option.toList_none, List.append_nil]
  exact ⟨newer, replies, .handling x call, served, heard, m, later, c, stack, fun _ => ⟨x, call, rfl⟩, fits, within, at'⟩

/-- The call goes on: below the fan-out, or back at it with the reply of the member. -/
theorem advance_underway {replies : List (NodeId × Reply)} {stage : Stage ι η} {before : Position ι η}
    (kinds : net.SameKinds net') (closed : net.Closed) (unwaiting : ∀ l k, c.position ≠ .handling l k)
    (at' : At net w.request w.members signs served heard m later c)
    (landed : Journey.land ⟨w.number, w.node, w.op, replies, stage⟩ w.below before
      (net.advance t (c.under (w.request.progress (m :: later) heard :: w.outer))).1 = some (fs, es)) :
    w.Underway net' fs (signs ++ (sign? w.below.length w.outer.length fs).toList) ∨
      w.Over fs (signs ++ (sign? w.below.length w.outer.length fs).toList) := by
  cases answer : c.answer? with
  | none =>
    rw [advance_under t net answer] at landed
    have passes := advance_passes t closed at'.passes answer unwaiting
    exact Or.inl (underway_of_land (at'.kinds kinds) answer (passes.kinds kinds) landed)
  | some r =>
    obtain rfl := answer_eq_some answer
    have replied : r.Answers w.request := at'.passes.position
    have gathered : (w.request.progress (m :: later) heard).gather r = w.request.progress later (heard ++ [r]) :=
      progress_gather replied
    simp only [Call.under, List.nil_append, Network.advance, gathered] at landed
    have shown := at'.signs
    rw [answer, Option.map_some, Option.toList_some, ← exchanged_append at'.even] at shown
    rw [shown]
    have present : ∀ k ∈ later, (net'.node? k).isSome := fun k after => kinds.node k ▸ at'.present k after
    refine served_on (served ++ [m]) later (heard ++ [r]) ?_ ?_ ?_ present landed
    · simp [at'.even]
    · simp [at'.split]
    · exact fun r' member => (List.mem_append.mp member).elim (at'.answers r') fun last =>
        List.mem_singleton.mp last ▸ replied

theorem turn_underway (moved : turn? t k net fs a = some (net', fs', es)) (closed : net.Closed)
    (underway : w.Underway net fs signs) :
    w.Underway net' fs' (signs ++ (sign? w.below.length w.outer.length fs').toList) ∨
      w.Over fs' (signs ++ (sign? w.below.length w.outer.length fs').toList) := by
  have kinds := (turn_edits moved).kinds
  obtain ⟨newer, replies, stage, served, heard, m, later, c, rfl, waits, fits, whole, at'⟩ := underway
  cases newer with
  | cons top rest =>
    obtain ⟨x, call, rfl⟩ := waits (List.cons_ne_nil _ _)
    rw [List.cons_append] at moved
    obtain ⟨newer', stack⟩ := turn_frame moved
    rw [← List.append_assoc] at stack
    exact Or.inl (underway_of_covered fits whole (at'.kinds kinds) stack)
  | nil =>
    rw [List.nil_append] at moved
    cases stage with
    | going call =>
      rcases turn_newer moved with ⟨ready, _⟩ | rfl | rfl | ⟨v, rfl⟩
      · cases ready
      · obtain ⟨_, landed⟩ := land_of_advance rfl moved
        obtain rfl : call = _ := whole
        exact advance_underway (c := c) kinds closed fits at' landed
      · cases moved
      · cases moved
    | calling h x call =>
      rcases turn_newer moved with ⟨ready, _⟩ | rfl | rfl | ⟨v, rfl⟩
      · cases ready
      · cases moved
      · simp only [turn?, Option.some.injEq, Prod.mk.injEq] at moved
        obtain ⟨rfl, rfl, _⟩ := moved
        exact Or.inl (underway_of_covered fits whole at' (List.nil_append _).symm)
      · cases moved
    | handling x call =>
      rcases turn_newer moved with ⟨_, newer, stack⟩ | rfl | rfl | ⟨v, rfl⟩
      · exact Or.inl (underway_of_covered fits whole (at'.kinds kinds) stack)
      · cases moved
      · cases moved
      · obtain ⟨rfl, _, landed⟩ := land_of_settle rfl moved
        obtain rfl : call = _ := whole
        obtain ⟨l, k, waiting⟩ := fits
        rw [settle_under] at landed
        have passes := settle_passes at'.passes waiting v
        exact Or.inl (underway_of_land at' (answer_none_of_handling waiting) passes landed)

/-- A dispatch that no handler holds up can go on. -/
theorem dispatch_possible {x : ι} (closed : net.Closed) (dispatched : w.request = .dispatch x) {stage : Stage ι η}
    (replies : List (NodeId × Reply)) (fits : stage.Fits)
    (whole : stage.call = c.under (w.request.progress (m :: later) heard :: w.outer))
    (at' : At net w.request w.members signs served heard m later c) :
    ∃ a, (turn? t k net (⟨w.number, w.node, w.op, replies, stage⟩ :: w.below) a).isSome := by
  cases stage with
  | going call =>
    obtain rfl : call = _ := whole
    refine ⟨.advance, ?_⟩
    have unblocked : (net.advance t (c.under (w.request.progress (m :: later) heard :: w.outer))).1 ≠ .blocks := by
      cases answer : c.answer? with
      | none =>
        rw [advance_under t net answer]
        have passes := advance_passes t closed at'.passes answer fits
        cases stride : (net.advance t c).1 with
        | blocks =>
          rw [stride] at passes
          exact absurd dispatched (passes x)
        | _ => simp [Stride.under]
      | some r =>
        obtain rfl := answer_eq_some answer
        simp only [Call.under, List.nil_append, Network.advance]
        unfold Network.serve
        split <;> simp
    simp only [turn?, Option.isSome_map]
    cases stride : (net.advance t (c.under (w.request.progress (m :: later) heard :: w.outer))).1 with
    | blocks => exact absurd stride unblocked
    | _ => rfl
  | calling => exact ⟨.enter, rfl⟩
  | handling y call =>
    obtain rfl : call = _ := whole
    obtain ⟨l, k, waiting⟩ := fits
    refine ⟨.settle (.ok ()), ?_⟩
    obtain ⟨position, rounds⟩ := c
    obtain rfl : position = .handling l k := waiting
    cases k <;> rfl

theorem act_underway {s s' : Traffic β ι η} {u : ThreadId} (acted : s.act u a = some s') (closed : s.net.Closed)
    (underway : w.Underway s.net (s.threads t) signs) :
    let seen := if u = t then (sign? w.below.length w.outer.length (s'.threads t)).toList else []
    w.Underway s'.net (s'.threads t) (signs ++ seen) ∨ w.Over (s'.threads t) (signs ++ seen) := by
  obtain ⟨⟨net, fs, es⟩, moved, rfl⟩ := Option.map_eq_some_iff.mp acted
  by_cases mine : u = t
  · subst mine
    simpa using turn_underway moved closed underway
  · simp only [mine, if_false, List.append_nil, after_net, after_threads_other (Ne.symm mine)]
    exact Or.inl (underway.kinds (turn_edits moved).kinds)

theorem act_begin {s s' : Traffic β ι η} {number : Nat} {node n : NodeId} {op : Operation ι η}
    {replies : List (NodeId × Reply)} {below : List (Journey ι η)} {outer : List (Round ι)} (closed : s.net.Closed)
    (stack : s.threads t = ⟨number, node, op, replies, .going ⟨.entering n q, outer⟩⟩ :: below)
    (found : s.net.members? n = some members) (acted : s.act t .advance = some s') :
    let w : Watched ι η := ⟨number, node, op, below, outer, q, members⟩
    let seen := (sign? below.length outer.length (s'.threads t)).toList
    w.Underway s'.net (s'.threads t) seen ∨ w.Over (s'.threads t) seen := by
  obtain ⟨⟨net, fs, es⟩, moved, rfl⟩ := Option.map_eq_some_iff.mp acted
  rw [stack] at moved
  have kinds := (turn_edits moved).kinds
  obtain ⟨_, landed⟩ := land_of_advance rfl moved
  simp only [Network.advance, found, round_eq] at landed
  have present : ∀ k ∈ members, (net.node? k).isSome := fun k member =>
    kinds.node k ▸ closed k n ⟨members, found, member⟩
  have begun :=
    served_on (w := ⟨number, node, op, below, outer, q, members⟩) [] members [] rfl rfl (by simp) present landed
  simpa [exchanged] using begun

end

/-! ### Whole cycles -/

section

variable {w : Watched ι η} {net : Network β ι η} {fs : List (Journey ι η)} {signs : List (Sign ι)}

theorem overall_under {number : Nat} {node : NodeId} {op : Operation ι η} {replies : List (NodeId × Reply)}
    {below : List (Journey ι η)} {stage : Stage ι η} {c : Call ι η} {mark : Round ι} {outer : List (Round ι)}
    (whole : stage.call = c.under (mark :: outer)) :
    overall? below.length outer.length (⟨number, node, op, replies, stage⟩ :: below) = none := by
  cases stage with
  | going call =>
    obtain rfl : call = _ := whole
    obtain ⟨position, rounds⟩ := c
    cases position with
    | replying r =>
      simp [overall?, Call.under]
      omega
    | _ => rfl
  | calling | handling => rfl

theorem overall_underway (underway : w.Underway net fs signs) : overall? w.below.length w.outer.length fs = none := by
  obtain ⟨newer, replies, stage, served, heard, m, later, c, rfl, waits, fits, whole, _⟩ := underway
  cases newer with
  | nil => exact overall_under whole
  | cons top rest =>
    have longer : (rest ++ ⟨w.number, w.node, w.op, replies, stage⟩ :: w.below).length ≠ w.below.length := by
      simp; omega
    rw [List.cons_append]
    unfold overall?
    split
    · rename_i stack
      rw [(List.cons.inj stack).2] at longer
      simp [longer]
    · rfl

theorem overall_over (ended : w.Over fs signs) : (overall? w.below.length w.outer.length fs).isSome := by
  obtain ⟨replies, heard, rfl, _⟩ := ended
  simp [overall?]

variable [Backlog β ι] {t : ThreadId} {depth level : Nat} {s s' : Traffic β ι η}
  {moves : List (ThreadId × Action ι η)} {more : List (Sign ι)}

theorem watch_cons {u : ThreadId} {a : Action ι η} (ran : s.watch t depth level ((u, a) :: moves) = some (s', signs)) :
    overall? depth level (s.threads t) = none ∧ ∃ s₁ more, s.act u a = some s₁ ∧
      s₁.watch t depth level moves = some (s', more) ∧
      signs = (if u = t then (sign? depth level (s₁.threads t)).toList else []) ++ more := by
  simp only [watch, Option.ite_none_left_eq_some] at ran
  obtain ⟨going, ran⟩ := ran
  obtain ⟨s₁, acted, ran⟩ := Option.bind_eq_some_iff.mp ran
  obtain ⟨⟨_, more⟩, rest, same⟩ := Option.map_eq_some_iff.mp ran
  cases same
  exact ⟨by simpa using going, s₁, more, acted, rest, rfl⟩

theorem watch_members (ran : s.watch t depth level moves = some (s', signs)) (n : NodeId) :
    s'.net.members? n =
      (s.net.members? n).map fun members => moves.foldl (fun members move => move.2.edited n members) members := by
  induction moves generalizing s signs with
  | nil => cases ran; simp
  | cons move rest ih =>
    obtain ⟨_, s₁, more, acted, ran, _⟩ := watch_cons ran
    obtain ⟨⟨net, fs, es⟩, moved, rfl⟩ := Option.map_eq_some_iff.mp acted
    rw [ih ran, after_net, (turn_edits moved).members, Option.map_map]
    rfl

omit [Backlog β ι] in
theorem known_kinds {a : Action ι η} {net' : Network β ι η} (known : a.Known net) (kinds : net.SameKinds net') :
    a.Known net' := by
  cases a with
  | join node member => exact (kinds.node member).symm.trans known
  | _ => trivial

theorem act_closed {u : ThreadId} {a : Action ι η} (acted : s.act u a = some s') (known : a.Known s.net)
    (closed : s.net.Closed) : s.net.SameKinds s'.net ∧ s'.net.Closed := by
  obtain ⟨⟨net, fs, es⟩, moved, rfl⟩ := Option.map_eq_some_iff.mp acted
  have edits := turn_edits moved
  exact ⟨edits.kinds, edits.closed known closed⟩

theorem watch_stands (known : ∀ move ∈ moves, move.2.Known s.net) (closed : s.net.Closed)
    (stands : w.Underway s.net (s.threads t) signs ∨ w.Over (s.threads t) signs)
    (ran : s.watch t w.below.length w.outer.length moves = some (s', more)) :
    s'.net.Closed ∧ (w.Underway s'.net (s'.threads t) (signs ++ more) ∨ w.Over (s'.threads t) (signs ++ more)) := by
  induction moves generalizing s signs more with
  | nil =>
    cases ran
    exact ⟨closed, by simpa using stands⟩
  | cons move rest ih =>
    obtain ⟨first, known⟩ := List.forall_mem_cons.mp known
    obtain ⟨going, s₁, later, acted, onward, rfl⟩ := watch_cons ran
    have underway := stands.resolve_right fun ended => by
      have reply := overall_over ended
      rw [going] at reply
      cases reply
    obtain ⟨kinds, closed'⟩ := act_closed acted first closed
    rw [← List.append_assoc]
    exact ih (fun move member => known_kinds (known move member) kinds) closed'
      (act_underway acted closed underway) onward

/-- A request comes to fan-out `n`, whose members are then `members`; other threads, and the handlers that run on its
behalf, call what they like and edit any membership meanwhile. The request is offered to each of these members once,
in their order and as it is, and each has replied before the next one is served; when all have, the fan-out replies
what their replies come to, whether some of them are errors or not. The membership that the next request finds is the
old one with all edits made meanwhile. -/
theorem cycle_of_snapshot {number : Nat} {node n : NodeId} {op : Operation ι η} {replies : List (NodeId × Reply)}
    {below : List (Journey ι η)} {outer : List (Round ι)} {q : Request ι} {members : List NodeId} (closed : s.net.Closed)
    (known : ∀ move ∈ moves, move.2.Known s.net)
    (stack : s.threads t = ⟨number, node, op, replies, .going ⟨.entering n q, outer⟩⟩ :: below)
    (found : s.net.members? n = some members)
    (ran : s.watch t below.length outer.length ((t, .advance) :: moves) = some (s', signs)) :
    s'.net.members? n = some (moves.foldl (fun members move => move.2.edited n members) members) ∧
    ((∃ newer replies stage served heard m later,
        s'.threads t = newer ++ ⟨number, node, op, replies, stage⟩ :: below ∧
        overall? below.length outer.length (s'.threads t) = none ∧
        members = served ++ m :: later ∧ heard.length = served.length ∧
        (signs = exchanged q served heard ++ [.offered m q] ∨
          ∃ r, signs = exchanged q served heard ++ [.offered m q, .replied r]) ∧
        (newer = [] → (∃ x, q = .dispatch x) → ∃ a, (s'.act t a).isSome)) ∨
      ∃ replies heard,
        s'.threads t = ⟨number, node, op, replies, .going ⟨.replying (q.combine heard), outer⟩⟩ :: below ∧
        heard.length = members.length ∧ (∀ r ∈ heard, r.Answers q) ∧ signs = exchanged q members heard) := by
  have edited := watch_members ran n
  rw [found, Option.map_some, List.foldl_cons] at edited
  refine ⟨edited, ?_⟩
  obtain ⟨_, s₁, more, acted, onward, rfl⟩ := watch_cons ran
  rw [if_pos rfl]
  obtain ⟨kinds, closed'⟩ := act_closed acted trivial closed
  have begun := act_begin closed stack found acted
  obtain ⟨closed'', underway | ended⟩ :=
    watch_stands (fun move member => known_kinds (known move member) kinds) closed' begun onward
  · have unreplied := overall_underway underway
    obtain ⟨newer, replies, stage, served, heard, m, later, c, stack', waits, fits, whole, at'⟩ := underway
    refine Or.inl ⟨newer, replies, stage, served, heard, m, later, stack', unreplied, at'.split, at'.even, ?_, ?_⟩
    · rw [at'.signs]
      cases c.answer? with
      | none => exact Or.inl rfl
      | some r => exact Or.inr ⟨r, rfl⟩
    · rintro rfl ⟨x, dispatched⟩
      obtain ⟨a, possible⟩ := dispatch_possible (t := t) (k := s'.log.length) closed'' dispatched replies fits whole at'
      exact ⟨a, by rw [act, Option.isSome_map, stack']; exact possible⟩
  · obtain ⟨replies, heard, stack', through⟩ := ended
    exact Or.inr ⟨replies, heard, stack', through.even, through.answers, through.signs⟩

end

/-- Node 3 passes everything on to the first leaf, to the second one and to the first one again. -/
def ring : Network (List Nat) Nat Nat :=
  ⟨[.leaf { backlog := [], handler := some 7 }, .leaf { backlog := [], handler := some 8 },
    .leaf { backlog := [], handler := some 9 }, .fanOut [0, 1, 0]]⟩

/-- The handler of the first leaf takes that leaf out of the membership, puts the third one in, suspends the second
one and fails. -/
def meddling : List (ThreadId × Action Nat Nat) :=
  [(0, .advance), (0, .advance), (0, .enter),
      (0, .leave 3 0), (0, .join 3 2), (0, .call 1 (.request .suspend)), (0, .advance), (0, .advance), (0, .advance),
    (0, .settle (.error .outOfMemory)), (0, .advance), (0, .advance), (0, .advance), (0, .advance), (0, .advance),
    (0, .advance), (0, .enter), (0, .settle (.ok ())), (0, .advance)]

theorem ring_closed : ring.Closed := by
  rintro m n ⟨members, found, member⟩
  match n, found with
  | 3, rfl => exact (by decide : ∀ m ∈ [0, 1, 0], (ring.node? m).isSome) m member

theorem cycle_of_snapshot_meddling : ∃ (s s' : Traffic (List Nat) Nat Nat) (signs : List (Sign Nat)),
    act ⟨ring, fun _ => [], []⟩ 0 (.call 3 (.request (.dispatch 5))) = some s ∧
    s.watch 0 0 0 ((0, .advance) :: meddling) = some (s', signs) ∧
    signs = [.offered 0 (.dispatch 5), .replied (.outcome (.error .outOfMemory)), .offered 1 (.dispatch 5),
      .replied (.outcome (.ok .queued)), .offered 0 (.dispatch 5), .replied (.outcome (.ok .delivered))] ∧
    overall? 0 0 (s'.threads 0) = some (.outcome (.error .outOfMemory)) ∧ s'.net.members? 3 = some [1, 2] ∧
    ∃ heard, heard.length = 3 ∧ signs = exchanged (.dispatch 5) [0, 1, 0] heard := by
  have ends : ∃ (s s' : Traffic (List Nat) Nat Nat) (signs : List (Sign Nat)),
      act ⟨ring, fun _ => [], []⟩ 0 (.call 3 (.request (.dispatch 5))) = some s ∧
      s.watch 0 0 0 ((0, .advance) :: meddling) = some (s', signs) ∧
      signs = [.offered 0 (.dispatch 5), .replied (.outcome (.error .outOfMemory)), .offered 1 (.dispatch 5),
        .replied (.outcome (.ok .queued)), .offered 0 (.dispatch 5), .replied (.outcome (.ok .delivered))] ∧
      overall? 0 0 (s'.threads 0) = some (.outcome (.error .outOfMemory)) ∧
      s.net = ring ∧ s.threads 0 = [⟨0, 3, .request (.dispatch 5), [], .going ⟨.entering 3 (.dispatch 5), []⟩⟩] :=
    ⟨_, _, _, rfl, rfl, rfl, rfl, rfl, rfl⟩
  obtain ⟨s, s', signs, called, ran, seen, reply, same, stack⟩ := ends
  have known : ∀ move ∈ meddling, move.2.Known s.net := by
    rw [same]
    simp [meddling, Action.Known, ring, Network.node?]
  have found : s.net.members? 3 = some [0, 1, 0] := by
    rw [same]
    rfl
  obtain ⟨edited, unreplied | ⟨_, heard, _, length, _, shown⟩⟩ :=
    cycle_of_snapshot (same ▸ ring_closed) known stack found ran
  · obtain ⟨_, _, _, _, _, _, _, _, none, _⟩ := unreplied
    cases none.symm.trans reply
  · exact ⟨s, s', signs, called, ran, seen, reply, edited, heard, length, shown⟩

end Traffic

end Switchboard.Dispatch
