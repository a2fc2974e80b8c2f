import Switchboard.Command.Basic

/-!
Audit records: a command as one element of markup, with its parameters as children in order. The five
characters with a meaning in markup are written as entities, so no field can imitate a delimiter.
Main statement: an escaped text holds none of the delimiters.
-/

namespace Switchboard.Audit

def escapeChar : Char → List Char
  | '&' => "&amp;".toList
  | '<' => "&lt;".toList
  | '>' => "&gt;".toList
  | '"' => "&quot;".toList
  | '\'' => "&apos;".toList
  | c => [c]

def escape (text : List Char) : List Char := text.flatMap escapeChar

/-- One attribute, with the blank in front of it. -/
def field (name : String) (value : List Char) : List Char :=
  ' ' :: name.toList ++ '=' :: '"' :: escape value ++ ['"']

def param (p : String × String) : List Char :=
  "<param".toList ++ field "name" p.1.toList ++ '>' :: escape p.2.toList ++ "</param>".toList

/-- The record of a command, without a line end. -/
def record (c : Command) : List Char :=
  "<command".toList ++ field "type" (toString c.type.toNat).toList
    ++ field "class" c.deviceClass.label.toList ++ field "id" c.deviceId.toList
    ++ field "origin" c.origin.toList ++ field "priority" (toString c.priority.toInt).toList
    ++ '>' :: c.params.entries.flatMap param ++ "</command>".toList

def text (c : Command) : String := String.ofList (record c)

/-! ### What an escaped text cannot hold -/

theorem escape_cons (c : Char) (rest : List Char) : escape (c :: rest) = escapeChar c ++ escape rest := by
  simp [escape]

theorem escapeChar_clean (c : Char) : ∀ x ∈ escapeChar c, x ≠ '<' ∧ x ≠ '>' ∧ x ≠ '"' := by
  unfold escapeChar
  split <;> simp_all

/-- No angle bracket and no quote survives escaping. -/
theorem escape_clean (s : List Char) : ∀ x ∈ escape s, x ≠ '<' ∧ x ≠ '>' ∧ x ≠ '"' := by
  intro x present
  obtain ⟨c, _, here⟩ := List.mem_flatMap.mp present
  exact escapeChar_clean c x here

end Switchboard.Audit
