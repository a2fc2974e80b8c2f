import Mathlib.Algebra.Ring.Nat
import Mathlib.Data.List.Nodup
import Mathlib.Data.List.Perm.Subperm
import Mathlib.Logic.Relation
import Switchboard.Dispatch.Network

/-!
Fan-outs within fan-outs. In a network that is nested well, the leaves below a node are those below its members, in
order, so what a fan-out shows is put together from what its members show. `flatten` puts the leaves themselves in
the place of the members.
-/

namespace Switchboard.Dispatch.Network

variable {β ι η : Type} {net : Network β ι η}

/-! ### Nesting -/

def Member (net : Network β ι η) (m n : NodeId) : Prop := ∃ members, net.members? n = some members ∧ m ∈ members

structure WellNested (net : Network β ι η) : Prop where
  closed : ∀ m n, net.Member m n → (net.node? m).isSome
  /-- No fan-out comes below itself. -/
  acyclic : ∀ n, ¬ Relation.TransGen net.Member n n

theorem wellNested_of_rank (closed : ∀ m n, net.Member m n → (net.node? m).isSome) (rank : NodeId → Nat)
    (falls : ∀ m n, net.Member m n → rank m < rank n) : net.WellNested where
  closed := closed
  acyclic n cycle := by
    have falling : ∀ m k, Relation.TransGen net.Member m k → rank m < rank k := by
      intro m k chain
      induction chain with
      | single member => exact falls _ _ member
      | tail _ member ih => exact Nat.lt_trans ih (falls _ _ member)
    exact Nat.lt_irrefl _ (falling n n cycle)

theorem node?_of_members {n : NodeId} {members : List NodeId} (h : net.members? n = some members) :
    net.node? n = some (.fanOut members) := by
  unfold members? at h
  split at h
  · rename_i found
    rw [found, Option.some.inj h]
  · cases h

theorem members?_of_leaf {n : NodeId} (h : (net.leaf? n).isSome) : net.members? n = none := by
  unfold leaf? at h
  unfold members?
  split at h
  · rename_i found
    simp [found]
  · cases h

theorem node?_of_leaf {n : NodeId} {d : Dispatcher β ι η} (h : net.leaf? n = some d) : net.node? n = some (.leaf d) := by
  unfold leaf? at h
  split at h
  · rename_i found
    rw [found, Option.some.inj h]
  · cases h

theorem leaf_or_fanOut {n : NodeId} (present : (net.node? n).isSome) :
    (∃ d, net.leaf? n = some d) ∨ ∃ members, net.members? n = some members := by
  obtain ⟨node, found⟩ := Option.isSome_iff_exists.mp present
  cases node with
  | leaf d => exact Or.inl ⟨d, by simp [leaf?, found]⟩
  | fanOut members => exact Or.inr ⟨members, by simp [members?, found]⟩

theorem lt_of_node {n : NodeId} (present : (net.node? n).isSome) : n < net.nodes.length := by
  simpa [node?] using present

/-- An induction from the top of a network to its bottom, in which `depth` levels are left below a node. There is
always room for one more node, as no chain of members is longer than the network is large. -/
theorem descend (nested : net.WellNested) {P : Nat → NodeId → Prop}
    (step : ∀ depth m, ((net.node? m).isSome → 0 < depth) → (∀ k, net.Member k m → P (depth - 1) k) → P depth m)
    (depth : Nat) (above : List NodeId) (m : NodeId) (distinct : above.Nodup)
    (present : ∀ a ∈ above, (net.node? a).isSome) (higher : ∀ a ∈ above, Relation.TransGen net.Member m a)
    (room : net.nodes.length ≤ above.length + depth) : P depth m := by
  have fresh : m ∉ above := fun member => nested.acyclic m (higher m member)
  have spare : (net.node? m).isSome → 0 < depth := by
    intro here
    have nodes : (m :: above) ⊆ List.range net.nodes.length := by
      intro a member
      rw [List.mem_range]
      rcases List.mem_cons.mp member with rfl | member
      · exact lt_of_node here
      · exact lt_of_node (present a member)
    have fits := (List.subperm_of_subset (List.nodup_cons.mpr ⟨fresh, distinct⟩) nodes).length_le
    simp only [List.length_cons, List.length_range] at fits
    omega
  refine step depth m spare fun k member => ?_
  have here : (net.node? m).isSome := by
    obtain ⟨members, found, _⟩ := member
    simp [node?_of_members found]
  have left := spare here
  refine descend nested step (depth - 1) (m :: above) k (List.nodup_cons.mpr ⟨fresh, distinct⟩) ?_ ?_ ?_
  · exact List.forall_mem_cons.mpr ⟨here, present⟩
  · exact List.forall_mem_cons.mpr ⟨.single member, fun a up => .head member (higher a up)⟩
  · simp only [List.length_cons]
    omega
termination_by depth

theorem member_acc (nested : net.WellNested) (n : NodeId) : Acc net.Member n :=
  descend nested (P := fun _ m => Acc net.Member m) (fun _ _ _ below => .intro _ below) net.nodes.length [] n
    List.nodup_nil nofun nofun (by simp)

/-! ### Leaves -/

theorem leaves_of_leaf {n : NodeId} {d : Dispatcher β ι η} (leaf : net.leaf? n = some d) : net.leaves n = [n] := by
  simp [leaves, leavesWithin, node?_of_leaf leaf]

theorem leavesWithin_deeper (nested : net.WellNested) (m : NodeId) :
    net.leavesWithin net.nodes.length m = net.leaves m := by
  refine descend nested (P := fun depth m => net.leavesWithin depth m = net.leavesWithin (depth + 1) m) ?_
    net.nodes.length [] m List.nodup_nil nofun nofun (by simp)
  intro depth m spare below
  cases found : net.node? m with
  | none => cases depth <;> simp [leavesWithin, found]
  | some node =>
    obtain ⟨depth, rfl⟩ : ∃ d, depth = d + 1 := ⟨depth - 1, by have := spare (by simp [found]); omega⟩
    cases node with
    | leaf d => simp [leavesWithin, found]
    | fanOut members =>
      simp only [leavesWithin, found]
      exact List.flatMap_congr fun k member => below k ⟨members, by simp [members?, found], member⟩

theorem leaves_of_fanOut (nested : net.WellNested) {n : NodeId} {members : List NodeId}
    (fanOut : net.members? n = some members) : net.leaves n = members.flatMap net.leaves := by
  rw [leaves, leavesWithin, node?_of_members fanOut]
  exact List.flatMap_congr fun m _ => leavesWithin_deeper nested m

theorem leavesWithin_leaf {depth : Nat} {n m : NodeId} (below : m ∈ net.leavesWithin depth n) :
    (net.leaf? m).isSome := by
  induction depth generalizing n with
  | zero => cases below
  | succ depth ih =>
    unfold leavesWithin at below
    split at below
    · rename_i d found
      rw [List.mem_singleton.mp below]
      simp [leaf?, found]
    · obtain ⟨k, _, below⟩ := List.mem_flatMap.mp below
      exact ih below
    · cases below

theorem leaf_of_mem_leaves {n m : NodeId} (below : m ∈ net.leaves n) : (net.leaf? m).isSome := leavesWithin_leaf below

theorem isSuspended_of_fanOut (nested : net.WellNested) {n : NodeId} {members : List NodeId}
    (fanOut : net.members? n = some members) : net.isSuspended n = members.any net.isSuspended := by
  rw [isSuspended, leaves_of_fanOut nested fanOut]
  clear fanOut
  induction members with
  | nil => rfl
  | cons m rest ih =>
    rw [List.flatMap_cons, List.filterMap_append, List.any_append, ih]
    rfl

theorem pending_of_leaves [Backlog β ι] (n : NodeId) :
    net.pending n = (((net.leaves n).filterMap net.leaf?).map Dispatcher.pending).sum := by
  rw [pending, List.sum, List.foldr_map]

theorem pending_of_leaf [Backlog β ι] {n : NodeId} {d : Dispatcher β ι η} (leaf : net.leaf? n = some d) :
    net.pending n = d.pending := by
  simp [pending, leaves_of_leaf leaf, leaf]

theorem pending_of_flatMap [Backlog β ι] (members : List NodeId) :
    (((members.flatMap net.leaves).filterMap net.leaf?).map Dispatcher.pending).sum = (members.map net.pending).sum := by
  induction members with
  | nil => rfl
  | cons m rest ih =>
    rw [List.flatMap_cons, List.filterMap_append, List.map_append, List.sum_append, ih, List.map_cons, List.sum_cons,
      pending_of_leaves]

theorem pending_of_fanOut [Backlog β ι] (nested : net.WellNested) {n : NodeId} {members : List NodeId}
    (fanOut : net.members? n = some members) : net.pending n = (members.map net.pending).sum := by
  rw [pending_of_leaves, leaves_of_fanOut nested fanOut, pending_of_flatMap]

/-! ### Networks that reach the same leaves -/

/-- Both have the same leaves in the same states, and come to them in the same order from every node. -/
structure Alike (a b : Network β ι η) : Prop where
  leaf : ∀ n, a.leaf? n = b.leaf? n
  leaves : ∀ n, a.leaves n = b.leaves n
  node : ∀ n, (a.node? n).isSome = (b.node? n).isSome

theorem Alike.symm {a b : Network β ι η} (alike : a.Alike b) : b.Alike a where
  leaf n := (alike.leaf n).symm
  leaves n := (alike.leaves n).symm
  node n := (alike.node n).symm

theorem Alike.isSuspended {a b : Network β ι η} (alike : a.Alike b) (n : NodeId) : a.isSuspended n = b.isSuspended n := by
  have leaf : a.leaf? = b.leaf? := funext alike.leaf
  rw [Network.isSuspended, Network.isSuspended, alike.leaves n, leaf]

theorem Alike.pending [Backlog β ι] {a b : Network β ι η} (alike : a.Alike b) (n : NodeId) : a.pending n = b.pending n := by
  have leaf : a.leaf? = b.leaf? := funext alike.leaf
  rw [Network.pending, Network.pending, alike.leaves n, leaf]

/-! ### A leaf that changes -/

section

variable {n : NodeId} {d d' : Dispatcher β ι η}

theorem node?_setLeaf (net : Network β ι η) (n : NodeId) (d : Dispatcher β ι η) (m : NodeId) :
    (net.setLeaf n d).node? m = if n = m ∧ n < net.nodes.length then some (.leaf d) else net.node? m := by
  simp only [node?, setLeaf, setNode, List.getElem?_set]
  by_cases same : n = m
  · subst same
    by_cases within : n < net.nodes.length <;> simp [within]
  · simp [same]

theorem leaf?_setLeaf (leaf : net.leaf? n = some d') (m : NodeId) :
    (net.setLeaf n d).leaf? m = if n = m then some d else net.leaf? m := by
  have within : n < net.nodes.length := lt_of_node (by simp [node?_of_leaf leaf])
  simp only [leaf?, node?_setLeaf]
  by_cases same : n = m
  · subst same
    simp [within]
  · simp [same]

theorem members?_setLeaf (leaf : net.leaf? n = some d') (m : NodeId) :
    (net.setLeaf n d).members? m = net.members? m := by
  simp only [members?, node?_setLeaf]
  by_cases same : n = m
  · subst same
    have within : n < net.nodes.length := lt_of_node (by simp [node?_of_leaf leaf])
    simp [within, node?_of_leaf leaf]
  · simp [same]

theorem node?_isSome_setLeaf (leaf : net.leaf? n = some d') (m : NodeId) :
    ((net.setLeaf n d).node? m).isSome = (net.node? m).isSome := by
  rw [node?_setLeaf]
  by_cases same : n = m
  · subst same
    have within : n < net.nodes.length := lt_of_node (by simp [node?_of_leaf leaf])
    simp [within, node?_of_leaf leaf]
  · simp [same]

theorem setLeaf_wellNested (nested : net.WellNested) (leaf : net.leaf? n = some d') : (net.setLeaf n d).WellNested := by
  have same : (net.setLeaf n d).Member = net.Member := by
    funext m k
    simp only [Member, members?_setLeaf leaf]
  constructor
  · intro m k member
    rw [node?_isSome_setLeaf leaf]
    exact nested.closed m k (same ▸ member)
  · rw [same]
    exact nested.acyclic

theorem leavesWithin_setLeaf (leaf : net.leaf? n = some d') (depth : Nat) (m : NodeId) :
    (net.setLeaf n d).leavesWithin depth m = net.leavesWithin depth m := by
  induction depth generalizing m with
  | zero => rfl
  | succ depth ih =>
    simp only [leavesWithin, node?_setLeaf]
    by_cases same : n = m
    · subst same
      have within : n < net.nodes.length := lt_of_node (by simp [node?_of_leaf leaf])
      simp [within, node?_of_leaf leaf]
    · simp [same, funext ih]

theorem leaves_setLeaf (leaf : net.leaf? n = some d') (m : NodeId) : (net.setLeaf n d).leaves m = net.leaves m := by
  have length : (net.setLeaf n d).nodes.length = net.nodes.length := List.length_set
  rw [leaves, leaves, length, leavesWithin_setLeaf leaf]

/-- What matters of a network besides the states of its leaves. -/
structure SameShape (a b : Network β ι η) : Prop where
  leaves : a.leaves = b.leaves
  node : ∀ n, (a.node? n).isSome = (b.node? n).isSome
  leaf : ∀ n, (a.leaf? n).isSome = (b.leaf? n).isSome

theorem setLeaf_shape (leaf : net.leaf? n = some d') : net.SameShape (net.setLeaf n d) where
  leaves := funext fun m => (leaves_setLeaf leaf m).symm
  node m := (node?_isSome_setLeaf leaf m).symm
  leaf m := by
    rw [leaf?_setLeaf leaf]
    by_cases same : n = m
    · simp [← same, leaf]
    · simp [same]

theorem Alike.setLeaf {a b : Network β ι η} (alike : a.Alike b) (leaf : a.leaf? n = some d') :
    (a.setLeaf n d).Alike (b.setLeaf n d) := by
  have leaf' : b.leaf? n = some d' := (alike.leaf n).symm.trans leaf
  constructor
  · intro m
    rw [leaf?_setLeaf leaf, leaf?_setLeaf leaf', alike.leaf]
  · intro m
    rw [leaves_setLeaf leaf, leaves_setLeaf leaf', alike.leaves]
  · intro m
    rw [node?_isSome_setLeaf leaf, node?_isSome_setLeaf leaf', alike.node]

end

theorem SameShape.refl (a : Network β ι η) : a.SameShape a := ⟨rfl, fun _ => rfl, fun _ => rfl⟩

/-! ### Flattening -/

/-- Every fan-out is given the leaves below it as its members. -/
def flatten (net : Network β ι η) : Network β ι η :=
  ⟨net.nodes.mapIdx fun n node =>
    match node with
    | .leaf d => .leaf d
    | .fanOut _ => .fanOut (net.leaves n)⟩

theorem flatten_leaf? (net : Network β ι η) (n : NodeId) : net.flatten.leaf? n = net.leaf? n := by
  simp only [leaf?, node?, flatten, List.getElem?_mapIdx]
  cases net.nodes[n]? with
  | none => rfl
  | some node => cases node <;> rfl

theorem flatten_members? (net : Network β ι η) (n : NodeId) :
    net.flatten.members? n = (net.members? n).map fun _ => net.leaves n := by
  simp only [members?, node?, flatten, List.getElem?_mapIdx]
  cases net.nodes[n]? with
  | none => rfl
  | some node => cases node <;> rfl

theorem flatten_member {m n : NodeId} (member : net.flatten.Member m n) :
    (net.leaf? m).isSome ∧ (net.members? n).isSome := by
  obtain ⟨members, found, here⟩ := member
  rw [flatten_members?] at found
  obtain ⟨_, fanOut, rfl⟩ := Option.map_eq_some_iff.mp found
  exact ⟨leaf_of_mem_leaves here, by simp [fanOut]⟩

theorem flatten_wellNested (net : Network β ι η) : net.flatten.WellNested where
  closed m n member := by
    obtain ⟨d, leaf⟩ := Option.isSome_iff_exists.mp (flatten_member member).1
    rw [← flatten_leaf?] at leaf
    simp [node?_of_leaf leaf]
  acyclic n cycle := by
    -- The first step of a cycle leaves a leaf, the last one comes to a fan-out.
    obtain ⟨_, first, _⟩ := Relation.TransGen.head'_iff.mp cycle
    obtain ⟨_, _, last⟩ := Relation.TransGen.tail'_iff.mp cycle
    have fanOut := (flatten_member last).2
    rw [members?_of_leaf (flatten_member first).1] at fanOut
    cases fanOut

theorem flatten_alike (net : Network β ι η) : net.Alike net.flatten where
  leaf n := (flatten_leaf? net n).symm
  node n := by
    simp only [node?, flatten, List.getElem?_mapIdx, Option.isSome_map]
  leaves n := by
    cases found : net.node? n with
    | none =>
      have absent : net.flatten.node? n = none := by simpa [node?, flatten] using found
      simp [leaves, leavesWithin, found, absent]
    | some node =>
      cases node with
      | leaf d =>
        have leaf : net.leaf? n = some d := by simp [leaf?, found]
        rw [leaves_of_leaf leaf, leaves_of_leaf ((flatten_leaf? net n).trans leaf)]
      | fanOut members =>
        have fanOut : net.members? n = some members := by simp [members?, found]
        have flat : net.flatten.members? n = some (net.leaves n) := by simp [flatten_members?, fanOut]
        rw [leaves_of_fanOut (flatten_wellNested net) flat]
        have single : ∀ m ∈ net.leaves n, net.flatten.leaves m = [m] := by
          intro m below
          obtain ⟨d, leaf⟩ := Option.isSome_iff_exists.mp (leaf_of_mem_leaves below)
          exact leaves_of_leaf ((flatten_leaf? net m).trans leaf)
        rw [List.flatMap_congr single, List.flatMap_singleton' (net.leaves n)]

end Switchboard.Dispatch.Network
