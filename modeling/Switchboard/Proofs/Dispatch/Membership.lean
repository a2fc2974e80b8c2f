import Mathlib
import Switchboard.Proofs.Dispatch.Nesting

/-!
Fan-outs whose membership changes. Joining and leaving touch no leaf and make no node appear or vanish, and no cycle
comes about when a member leaves.
-/

namespace Switchboard.Dispatch.Network

variable {β ι η : Type} {net : Network β ι η} {n : NodeId} {members members' : List NodeId}

/-- Every member of a fan-out is there. -/
def Closed (net : Network β ι η) : Prop := ∀ m n, net.Member m n → (net.node? m).isSome

/-- Each node of one network is there in the other, a leaf as a leaf and a fan-out as a fan-out. -/
structure SameKinds (a b : Network β ι η) : Prop where
  node : ∀ n, (a.node? n).isSome = (b.node? n).isSome
  leaf : ∀ n, (a.leaf? n).isSome = (b.leaf? n).isSome

theorem SameKinds.refl (net : Network β ι η) : net.SameKinds net := ⟨fun _ => rfl, fun _ => rfl⟩

theorem node?_setNode (net : Network β ι η) (n : NodeId) (node : Node β ι η) (m : NodeId) :
    (net.setNode n node).node? m = if n = m ∧ n < net.nodes.length then some node else net.node? m := by
  simp only [node?, setNode, List.getElem?_set]
  by_cases same : n = m
  · subst same
    by_cases within : n < net.nodes.length <;> simp [within]
  · simp [same]

theorem leaf?_setMembers (found : net.members? n = some members) (m : NodeId) :
    (net.setNode n (.fanOut members')).leaf? m = net.leaf? m := by
  have here := node?_of_members found
  have within : n < net.nodes.length := lt_of_node (by simp [here])
  simp only [leaf?, node?_setNode]
  by_cases same : n = m
  · simp [← same, within, here]
  · simp [same]

theorem members?_setMembers (found : net.members? n = some members) (m : NodeId) :
    (net.setNode n (.fanOut members')).members? m = if n = m then some members' else net.members? m := by
  have within : n < net.nodes.length := lt_of_node (by simp [node?_of_members found])
  simp only [members?, node?_setNode]
  by_cases same : n = m
  · subst same
    simp [within]
  · simp [same]

theorem setMembers_kinds (found : net.members? n = some members) :
    net.SameKinds (net.setNode n (.fanOut members')) where
  node m := by
    have here := node?_of_members found
    have within : n < net.nodes.length := lt_of_node (by simp [here])
    rw [node?_setNode]
    by_cases same : n = m
    · simp [← same, within, here]
    · simp [same]
  leaf m := by rw [leaf?_setMembers found]

theorem leaf?_join (net : Network β ι η) (n member m : NodeId) : (net.join n member).leaf? m = net.leaf? m := by
  unfold join
  split
  · exact leaf?_setMembers (by assumption) m
  · rfl

theorem leaf?_leave (net : Network β ι η) (n member m : NodeId) : (net.leave n member).2.leaf? m = net.leaf? m := by
  unfold leave
  split
  · exact leaf?_setMembers (by assumption) m
  · rfl

theorem leave_wellNested (nested : net.WellNested) (n member : NodeId) : (net.leave n member).2.WellNested := by
  unfold leave
  split
  · rename_i members found
    have fewer : ∀ m k, (net.setNode n (.fanOut (members.filter (· != member)))).Member m k → net.Member m k := by
      rintro m k ⟨left, there, here⟩
      rw [members?_setMembers found] at there
      split at there
      · rename_i same
        obtain rfl := Option.some.inj there
        exact ⟨members, same ▸ found, (List.mem_filter.mp here).1⟩
      · exact ⟨left, there, here⟩
    refine ⟨fun m k below => ?_, fun k cycle => nested.acyclic k (Relation.TransGen.mono fewer k k cycle)⟩
    rw [← (setMembers_kinds found).node]
    exact nested.closed m k (fewer m k below)
  · exact nested

end Switchboard.Dispatch.Network
