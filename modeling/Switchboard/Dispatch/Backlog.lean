/-!
Backlogs: what a dispatcher keeps while it does not deliver. Commands are kept whole and leave in the order in which they
came. Events carry nothing but their place among all events, and are only counted: an event is minted when it reaches a
handler, so one that is only counted has no place yet.
-/

namespace Switchboard.Dispatch

structure Event where
  ordinal : Nat
deriving DecidableEq, Repr

structure Mint where
  minted : Nat := 0
deriving DecidableEq, Repr

/-- The next event; no two are alike. -/
def Mint.strike (m : Mint) : Event × Mint := (⟨m.minted⟩, ⟨m.minted + 1⟩)

/-- A store of items of type `ι` that gives them back one at a time. -/
class Backlog (β : Type) (ι : outParam Type) where
  empty : β
  push : β → ι → β
  pop? : β → Option (ι × β)
  size : β → Nat

/-- A count of events: one is like another. -/
instance : Backlog Nat Unit where
  empty := 0
  push n _ := n + 1
  pop?
    | 0 => none
    | n + 1 => some ((), n)
  size := id

/-- A queue, first in, first out. -/
instance (ι : Type) : Backlog (List ι) ι where
  empty := []
  push q x := q ++ [x]
  pop?
    | [] => none
    | x :: rest => some (x, rest)
  size := List.length

/-- A backlog that loses nothing and gives back in order; `items` lists what it holds, oldest first. -/
class LawfulBacklog (β : Type) (ι : outParam Type) [Backlog β ι] where
  items : β → List ι
  items_empty : items (Backlog.empty : β) = []
  items_push (b : β) (x : ι) : items (Backlog.push b x) = items b ++ [x]
  items_of_pop {b rest : β} {x : ι} : Backlog.pop? b = some (x, rest) → items b = x :: items rest
  items_of_no_pop {b : β} : Backlog.pop? b = none → items b = []
  size_eq (b : β) : Backlog.size b = (items b).length

instance : LawfulBacklog Nat Unit where
  items n := List.replicate n ()
  items_empty := rfl
  items_push _ _ := List.replicate_succ'
  items_of_pop {b rest x} popped := by
    cases b with
    | zero => cases popped
    | succ n => cases popped; rfl
  items_of_no_pop {b} none := by
    cases b with
    | zero => rfl
    | succ n => cases none
  size_eq _ := List.length_replicate.symm

instance (ι : Type) : LawfulBacklog (List ι) ι where
  items := id
  items_empty := rfl
  items_push _ _ := rfl
  items_of_pop {b rest x} popped := by
    cases b with
    | nil => cases popped
    | cons y q => cases popped; rfl
  items_of_no_pop {b} none := by
    cases b with
    | nil => rfl
    | cons y q => cases none
  size_eq _ := rfl

end Switchboard.Dispatch
