/-!
Command ranges: the command types a handler accepts, both ends included. A range whose first type
lies above its last accepts nothing.
-/

namespace Switchboard

namespace Command

structure Range where
  first : UInt16
  last : UInt16
deriving DecidableEq, Repr

namespace Range

def all : Range := ⟨0, 65535⟩

def contains (r : Range) (type : UInt16) : Bool := r.first ≤ type && type ≤ r.last

instance : ToString Range := ⟨fun r => s!"{r.first.toNat}..={r.last.toNat}"⟩

theorem all_contains (type : UInt16) : all.contains type = true := by
  have bound := type.toNat_lt
  simp only [contains, all, Bool.and_eq_true, decide_eq_true_eq, UInt16.le_iff_toNat_le]
  exact ⟨Nat.zero_le _, Nat.le_of_lt_succ bound⟩

end Range

end Command

end Switchboard
