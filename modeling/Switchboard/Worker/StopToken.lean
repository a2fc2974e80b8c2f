/-!
Stop tokens: requests to stop that are inherited. Cancelling a token cancels every token derived from
it, those derived later included, and is never undone.
-/

namespace Switchboard

/-- A token knows the tokens it was derived from, the nearest first. -/
structure StopToken where
  number : Nat
  ancestors : List Nat := []
deriving DecidableEq, Repr

/-- The tokens issued so far, and which of them were cancelled themselves. -/
structure StopTokens where
  issued : Nat := 0
  cancelled : List Nat := []
deriving DecidableEq, Repr

namespace StopTokens

def issue (ts : StopTokens) : StopToken × StopTokens :=
  (⟨ts.issued, []⟩, { ts with issued := ts.issued + 1 })

/-- A token that is cancelled whenever its parent is. -/
def child (ts : StopTokens) (parent : StopToken) : StopToken × StopTokens :=
  (⟨ts.issued, parent.number :: parent.ancestors⟩, { ts with issued := ts.issued + 1 })

def derive (ts : StopTokens) : Option StopToken → StopToken × StopTokens
  | some parent => ts.child parent
  | none => ts.issue

def cancel (ts : StopTokens) (t : StopToken) : StopTokens := { ts with cancelled := t.number :: ts.cancelled }

def isCancelled (ts : StopTokens) (t : StopToken) : Bool :=
  (t.number :: t.ancestors).any fun n => ts.cancelled.contains n

theorem isCancelled_cancel_self (ts : StopTokens) (t : StopToken) : (ts.cancel t).isCancelled t = true := by
  simp [isCancelled, cancel]

theorem isCancelled_child (ts : StopTokens) (parent : StopToken) (h : ts.isCancelled parent = true) :
    (ts.child parent).2.isCancelled (ts.child parent).1 = true := by
  simp only [isCancelled, child, List.any_cons, Bool.or_eq_true] at h ⊢
  exact Or.inr h

theorem isCancelled_cancel {ts : StopTokens} {t : StopToken} (other : StopToken)
    (h : ts.isCancelled t = true) : (ts.cancel other).isCancelled t = true := by
  simp only [isCancelled, cancel, List.any_eq_true, List.contains_eq_mem, decide_eq_true_eq] at h ⊢
  obtain ⟨n, member, present⟩ := h
  exact ⟨n, member, List.mem_cons_of_mem _ present⟩

end StopTokens

end Switchboard
