import Mathlib
import Switchboard.Proofs.Dispatch.Nesting
import Switchboard.Proofs.Dispatch.Turn

/-!
How far a call through a network still has to go. Each step of a call, and each notification of a handler, is paid
for: by the toll of the call, by the members that its fan-outs have still to serve, or by an item that leaves a
backlog (`advance_within`, `settle_within`). Only the handlers' own calls make new work.
-/

namespace Switchboard.Dispatch

variable {β ι η : Type}

/-! ### Visits to a node -/

namespace Network

variable {net : Network β ι η}

/-- The toll of a request to a node, down to `depth` levels of fan-outs. -/
def visitsWithin (net : Network β ι η) : Nat → NodeId → Nat
  | 0, _ => 6
  | depth + 1, n =>
    match net.members? n with
    | some members => 1 + (members.map fun m => net.visitsWithin depth m + 1).sum
    | none => 6

/-- The toll of a request to a node. No chain of distinct fan-outs is longer than the network is large. -/
def visits (net : Network β ι η) (n : NodeId) : Nat := net.visitsWithin (net.nodes.length + 1) n

theorem visits_of_none {n : NodeId} (none : net.members? n = none) : net.visits n = 6 := by
  simp [visits, visitsWithin, none]

theorem visitsWithin_deeper (nested : net.WellNested) (m : NodeId) :
    net.visitsWithin net.nodes.length m = net.visits m := by
  refine descend nested (P := fun depth m => net.visitsWithin depth m = net.visitsWithin (depth + 1) m) ?_
    net.nodes.length [] m List.nodup_nil nofun nofun (by simp)
  intro depth m spare below
  cases found : net.members? m with
  | none => cases depth <;> simp [visitsWithin, found]
  | some members =>
    obtain ⟨depth, rfl⟩ : ∃ d, depth = d + 1 :=
      ⟨depth - 1, by have := spare (by simp [node?_of_members found]); omega⟩
    simp only [visitsWithin, found]
    refine congrArg (fun tolls : List Nat => 1 + tolls.sum) (List.map_congr_left fun k member => ?_)
    exact congrArg (· + 1) (below k ⟨members, found, member⟩)

theorem visits_of_fanOut (nested : net.WellNested) {n : NodeId} {members : List NodeId}
    (fanOut : net.members? n = some members) :
    net.visits n = 1 + (members.map fun m => net.visits m + 1).sum := by
  rw [visits, visitsWithin, fanOut]
  simp only [visitsWithin_deeper nested]

theorem visits_setLeaf {n : NodeId} {d d' : Dispatcher β ι η} (leaf : net.leaf? n = some d') :
    (net.setLeaf n d).visits = net.visits := by
  have within : ∀ depth m, (net.setLeaf n d).visitsWithin depth m = net.visitsWithin depth m := by
    intro depth
    induction depth with
    | zero => exact fun _ => rfl
    | succ depth ih => simp only [visitsWithin, members?_setLeaf leaf, ih, implies_true]
  have length : (net.setLeaf n d).nodes.length = net.nodes.length := List.length_set
  funext m
  rw [visits, visits, length, within]

end Network

/-! ### One section -/

/-- What a call at a leaf has still to pay, besides what it pays when it has come back. -/
def Phase.toll : Phase ι η → Nat
  | suspending | discarding | waiting | draining _ => 1
  | reopening => 2
  | binding .. => 3
  | admitting _ => 5
  | presetting => 6

/-- A move is paid for out of `budget`, if the leaf holds `held` items after it. An item in a backlog is worth the
notification of a handler. -/
def Move.Within (held budget : Nat) : Move ι η → Prop
  | goes p => p ≠ .waiting ∧ p.toll + 4 * held < budget
  | calls .. => 4 + 4 * held < budget
  | ends _ => 4 * held < budget
  | blocks => False

/-- No thread but `me` drains. -/
def Dispatcher.Sole (me : ThreadId) (d : Dispatcher β ι η) : Prop := d.gate.drainer = none ∨ d.gate.drainer = some me

section

variable [Backlog β ι] [LawfulBacklog β ι] {me : ThreadId} {d : Dispatcher β ι η}

theorem phase_toll (q : Request ι) : (q.phase : Phase ι η).toll < 6 ∧ (q.phase : Phase ι η) ≠ .waiting := by
  cases q with
  | dispatch | suspend => simp [Request.phase, Phase.toll]
  | resume discard => cases discard <;> simp [Request.phase, Phase.toll]

theorem phase_within {p : Phase ι η} (sole : d.Sole me) (flowing : p ≠ .waiting) :
    (p.advance me d).1.Within (p.advance me d).2.pending (p.toll + 4 * d.pending) ∧ (p.advance me d).2.Sole me := by
  cases p with
  | admitting x =>
    rcases offer_cases d x with ⟨_, offer⟩ | ⟨h, _, _, offer⟩ | ⟨_, _, offer⟩
    · have more : ({ d with backlog := Backlog.push d.backlog x } : Dispatcher β ι η).pending = d.pending + 1 := by
        simp [pending_eq, Dispatcher.queue, LawfulBacklog.items_push]
      simp only [Phase.advance, offer, Move.Within, Phase.toll, more]
      exact ⟨by omega, sole⟩
    · simp only [Phase.advance, offer, Move.Within, Phase.toll]
      exact ⟨by omega, sole⟩
    · simp only [Phase.advance, offer, Move.Within, Phase.toll]
      exact ⟨by omega, sole⟩
  | presetting =>
    simp only [Phase.advance]
    split
    · exact ⟨⟨by simp, by simp only [Phase.toll]; omega⟩, sole⟩
    · exact ⟨by simp only [Move.Within, Phase.toll]; omega, sole⟩
  | suspending => exact ⟨Nat.lt_one_add_iff.mpr le_rfl, sole⟩
  | discarding =>
    have none : d.discard.2.pending = 0 := by
      rw [pending_eq]
      exact congrArg List.length LawfulBacklog.items_empty
    exact ⟨by simp only [Phase.advance, Move.Within, Phase.toll, none]; omega, sole⟩
  | binding h suspended =>
    have same : (d.bind h suspended).pending = d.pending ∧ (d.bind h suspended).Sole me := by
      cases suspended <;> exact ⟨rfl, sole⟩
    cases suspended with
    | true => exact ⟨by simp only [Phase.advance, if_true, Move.Within, Phase.toll, same.1]; omega, same.2⟩
    | false => exact ⟨⟨by simp, by simp only [Phase.advance, Phase.toll, same.1]; omega⟩, same.2⟩
  | reopening =>
    have same : d.reopen.pending = d.pending := rfl
    rcases claim_cases d me with ⟨_, _, claim⟩ | ⟨u, drainer, other, _⟩ | ⟨_, claim⟩ | ⟨_, _, claim⟩
    · simp only [Phase.advance, claim]
      exact ⟨⟨by simp, by simp only [Phase.toll, Dispatcher.pending]; omega⟩, Or.inr rfl⟩
    · rcases sole with idle | mine
      · cases idle.symm.trans drainer
      · exact absurd (Option.some.inj (drainer.symm.trans mine)) other
    · simp only [Phase.advance, claim]
      exact ⟨by simp only [Move.Within, Phase.toll, same]; omega, sole⟩
    · simp only [Phase.advance, claim]
      exact ⟨by simp only [Move.Within, Phase.toll, same]; omega, sole⟩
  | waiting => exact absurd rfl flowing
  | draining r =>
    rcases take_cases d with ⟨_, take⟩ | ⟨x, rest, h, _, head, _, take⟩ | ⟨x, rest, _, head, _, take⟩
    · simp only [Phase.advance, take]
      exact ⟨by simp only [Move.Within, Phase.toll, Dispatcher.pending]; omega, Or.inl rfl⟩
    · have fewer : d.pending = ({ d with backlog := rest } : Dispatcher β ι η).pending + 1 := by
        rw [pending_eq, pending_eq, head, List.length_cons]
      simp only [Phase.advance, take]
      exact ⟨by simp only [Move.Within, Phase.toll, fewer]; omega, sole⟩
    · have fewer : d.pending = ({ d with backlog := rest } : Dispatcher β ι η).pending + 1 := by
        rw [pending_eq, pending_eq, head, List.length_cons]
      simp only [Phase.advance, take]
      exact ⟨⟨by simp, by simp only [Phase.toll, fewer]; omega⟩, sole⟩

end

/-! ### Backlogs -/

def Node.pending [Backlog β ι] : Node β ι η → Nat
  | .leaf d => d.pending
  | .fanOut _ => 0

theorem sum_set {α : Type} {f : α → Nat} {xs : List α} {n : Nat} {x : α} (found : xs[n]? = some x) (y : α) :
    ((xs.set n y).map f).sum + f x = (xs.map f).sum + f y := by
  induction xs generalizing n with
  | nil => cases found
  | cons z rest ih =>
    cases n with
    | zero =>
      obtain rfl : z = x := Option.some.inj found
      simp only [List.set_cons_zero, List.map_cons, List.sum_cons]
      omega
    | succ n =>
      have rest := ih found
      simp only [List.set_cons_succ, List.map_cons, List.sum_cons]
      omega

namespace Network

variable {net : Network β ι η}

def backlogs [Backlog β ι] (net : Network β ι η) : Nat := (net.nodes.map Node.pending).sum

theorem backlogs_setLeaf [Backlog β ι] {n : NodeId} {d d' : Dispatcher β ι η} (leaf : net.leaf? n = some d) :
    (net.setLeaf n d').backlogs + d.pending = net.backlogs + d'.pending :=
  sum_set (f := Node.pending) (node?_of_leaf leaf) (.leaf d')

/-! ### One step of a call -/

/-- What a call pays when the member being served replies: the visits to the members after it, in every round. -/
def returning (net : Network β ι η) : List (Round ι) → Nat
  | [] => 3
  | round :: rounds => 1 + (round.members.tail.map fun m => net.visits m + 1).sum + net.returning rounds

/-- What a call has still to pay, apart from the items in backlogs. -/
def toll (net : Network β ι η) (c : Call ι η) : Nat :=
  (match c.position with
    | .entering n _ => net.visits n
    | .at _ p => p.toll
    | .handling .. | .replying _ => 0) + net.returning c.rounds

def Sole (net : Network β ι η) (me : ThreadId) : Prop := ∀ n d, net.leaf? n = some d → d.Sole me

end Network

/-- A call that is not held up by a handler or by another thread. -/
def Call.Flows (c : Call ι η) : Prop :=
  match c.position with
  | .at _ p => p ≠ .waiting
  | .handling .. => False
  | _ => True

def Call.Waits (c : Call ι η) : Prop := ∃ l k, c.position = .handling l k

/-- A stride is paid for out of `budget`, in the network that it leaves behind. The notification of a handler is worth
four. -/
def Stride.Within [Backlog β ι] (net : Network β ι η) (budget : Nat) : Stride ι η → Prop
  | goes c => c.Flows ∧ net.toll c + 4 * net.backlogs < budget
  | calls _ _ c => c.Waits ∧ 4 + net.toll c + 4 * net.backlogs < budget
  | ends _ => 2 + 4 * net.backlogs < budget
  | blocks => False

namespace Network

variable {net : Network β ι η} {rounds : List (Round ι)}

theorem returning_pos (net : Network β ι η) (rounds : List (Round ι)) : 3 ≤ net.returning rounds := by
  induction rounds with
  | nil => exact le_rfl
  | cons round rounds ih =>
    simp only [returning]
    omega

theorem returning_congr {net' : Network β ι η} (same : net'.visits = net.visits) (rounds : List (Round ι)) :
    net'.returning rounds = net.returning rounds := by
  induction rounds with
  | nil => rfl
  | cons round rounds ih => simp only [returning, same, ih]

theorem toll_congr {net' : Network β ι η} (same : net'.visits = net.visits) (c : Call ι η) :
    net'.toll c = net.toll c := by
  simp only [toll, same, returning_congr same]

variable [Backlog β ι]

/-- What the leaf has paid for its move, the network has. -/
theorem follow_within {net' : Network β ι η} {move : Move ι η} {l : NodeId} {held budget total : Nat}
    (within : move.Within held budget) (same : net'.returning rounds = net.returning rounds)
    (balance : budget + 4 * net'.backlogs ≤ total + 4 * held) :
    (follow l rounds move).Within net' (total + net.returning rounds) := by
  have last := net.returning_pos rounds
  cases move with
  | goes p =>
    obtain ⟨flowing, within⟩ := within
    exact ⟨flowing, by simp only [toll, same]; omega⟩
  | calls h x k =>
    simp only [Move.Within] at within
    exact ⟨⟨l, k, rfl⟩, by simp only [toll, same]; omega⟩
  | ends r =>
    simp only [Move.Within] at within
    exact ⟨trivial, by simp only [toll, same]; omega⟩
  | blocks => exact within

theorem gather_members (round : Round ι) (r : Reply) : (round.gather r).members = round.members.tail := by
  cases round <;> cases r <;> rfl

theorem round_members (q : Request ι) (members : List NodeId) : (q.round members).members = members := by
  cases q <;> rfl

theorem next_cases (round : Round ι) :
    (∃ m later q, round.members = m :: later ∧ round.next = .inl (m, q)) ∨
    (∃ r, round.members = [] ∧ round.next = .inr r) := by
  cases round with
  | dispatch x members => cases members with
    | nil => exact Or.inr ⟨_, rfl, rfl⟩
    | cons m later => exact Or.inl ⟨m, later, _, rfl, rfl⟩
  | suspend members => cases members with
    | nil => exact Or.inr ⟨_, rfl, rfl⟩
    | cons m later => exact Or.inl ⟨m, later, _, rfl, rfl⟩
  | resume discard members => cases members with
    | nil => exact Or.inr ⟨_, rfl, rfl⟩
    | cons m later => exact Or.inl ⟨m, later, _, rfl, rfl⟩

theorem serve_within (net : Network β ι η) (round : Round ι) (rounds : List (Round ι)) :
    (serve round rounds : Stride ι η).Within net
      (1 + (round.members.map fun m => net.visits m + 1).sum + net.returning rounds + 4 * net.backlogs) := by
  unfold serve
  rcases next_cases round with ⟨m, later, q, members, next⟩ | ⟨r, members, next⟩
  · rw [next]
    refine ⟨trivial, ?_⟩
    simp only [toll, returning, members, List.tail_cons, List.map_cons, List.sum_cons]
    omega
  · rw [next]
    refine ⟨trivial, ?_⟩
    simp only [toll, members, List.map_nil, List.sum_nil]
    omega

variable [LawfulBacklog β ι] {me : ThreadId} {c : Call ι η}

/-- Each step of a call is paid for, by the call itself or by an item that leaves a backlog. -/
theorem advance_within (nested : net.WellNested) (sole : net.Sole me) (flows : c.Flows) :
    (net.advance me c).1.Within (net.advance me c).2 (net.toll c + 4 * net.backlogs) := by
  obtain ⟨position, rounds⟩ := c
  cases position with
  | entering n q =>
    cases found : net.members? n with
    | none =>
      obtain ⟨cheap, flowing⟩ := phase_toll (η := η) q
      simp only [advance, found]
      exact ⟨flowing, by simp only [toll, visits_of_none found]; omega⟩
    | some members =>
      have served := serve_within net (q.round members) rounds
      rw [round_members] at served
      simp only [advance, found, toll, visits_of_fanOut nested found]
      exact served
  | «at» l p =>
    have last := net.returning_pos rounds
    cases found : net.leaf? l with
    | none =>
      have pays : 1 ≤ p.toll := by cases p <;> simp [Phase.toll]
      simp only [advance, found, toll, Stride.Within]
      omega
    | some d =>
      have within := (phase_within (sole l d found) flows).1
      have balance : (net.setLeaf l (p.advance me d).2).backlogs + d.pending =
          net.backlogs + (p.advance me d).2.pending := backlogs_setLeaf found
      have followed : (follow l rounds (p.advance me d).1).Within (net.setLeaf l (p.advance me d).2)
          (p.toll + 4 * net.backlogs + net.returning rounds) :=
        follow_within within (returning_congr (visits_setLeaf found) rounds) (by omega)
      rw [Nat.add_right_comm] at followed
      simp only [advance, found, toll]
      exact followed
  | handling => exact flows.elim
  | replying r =>
    cases rounds with
    | nil =>
      simp only [advance, toll, returning, Stride.Within]
      omega
    | cons round rounds =>
      have served := serve_within net (round.gather r) rounds
      rw [gather_members] at served
      simp only [advance, toll, returning, Nat.zero_add]
      exact served

omit [LawfulBacklog β ι] in
/-- What a handler's return leads to is paid for out of what the notification was worth. -/
theorem settle_within (waits : c.Waits) (v : Except Error Unit) :
    (c.settle v).Within net (2 + net.toll c + 4 * net.backlogs) := by
  obtain ⟨position, rounds⟩ := c
  obtain ⟨l, k, rfl⟩ := waits
  cases k with
  | direct => exact ⟨trivial, by simp only [toll]; omega⟩
  | drained r => exact ⟨nofun, by simp only [toll, Phase.toll]; omega⟩

theorem advance_sole (sole : net.Sole me) (flows : c.Flows) : (net.advance me c).2.Sole me := by
  obtain ⟨position, rounds⟩ := c
  cases position with
  | entering n q =>
    simp only [advance]
    split <;> exact sole
  | «at» l p =>
    cases found : net.leaf? l with
    | none =>
      simp only [advance, found]
      exact sole
    | some d =>
      simp only [advance, found]
      intro n d' leaf
      rw [leaf?_setLeaf found] at leaf
      split at leaf
      · obtain rfl := Option.some.inj leaf
        exact (phase_within (sole l d found) flows).2
      · exact sole n d' leaf
  | handling => exact sole
  | replying r => cases rounds <;> exact sole

omit [LawfulBacklog β ι] in
theorem advance_net (me : ThreadId) (net : Network β ι η) (c : Call ι η) :
    (net.advance me c).2 = net ∨ ∃ l d d', net.leaf? l = some d ∧ (net.advance me c).2 = net.setLeaf l d' := by
  obtain ⟨position, rounds⟩ := c
  cases position with
  | entering n q =>
    simp only [advance]
    split <;> exact Or.inl rfl
  | «at» l p =>
    cases found : net.leaf? l with
    | none => exact Or.inl (by simp only [advance, found])
    | some d => exact Or.inr ⟨l, d, (p.advance me d).2, found, by simp only [advance, found]⟩
  | handling => exact Or.inl rfl
  | replying r => cases rounds <;> exact Or.inl rfl

omit [LawfulBacklog β ι] in
theorem advance_visits (me : ThreadId) (net : Network β ι η) (c : Call ι η) :
    (net.advance me c).2.visits = net.visits := by
  rcases advance_net me net c with same | ⟨l, d, d', leaf, same⟩
  · rw [same]
  · rw [same, visits_setLeaf leaf]

omit [LawfulBacklog β ι] in
theorem advance_wellNested (nested : net.WellNested) (me : ThreadId) (c : Call ι η) :
    (net.advance me c).2.WellNested := by
  rcases advance_net me net c with same | ⟨l, d, d', leaf, same⟩
  · rwa [same]
  · rw [same]
    exact setLeaf_wellNested nested leaf

end Network

end Switchboard.Dispatch
