import Switchboard.Text.Quoted

/-!
What can go wrong when an attribute is registered or asked for.
-/

namespace Switchboard.Attribute

inductive Error where
  | missingOwner (name : String)
  | duplicate (name : String)
  | notFound (name : String)
  /-- A read of what is only written, or a write of what is only read. -/
  | modeNotSupported (name : String)
  | invalidValue (name reason : String)
  | malformed (line : String)
  | outOfMemory
deriving DecidableEq, Repr

namespace Error

def label : Error → String
  | missingOwner _ => "missing_owner"
  | duplicate _ => "duplicate"
  | notFound _ => "not_found"
  | modeNotSupported _ => "mode_not_supported"
  | invalidValue .. => "invalid_value"
  | malformed _ => "malformed"
  | outOfMemory => "out_of_memory"

def message : Error → String
  | missingOwner name => s!"query {name} has no owner"
  | duplicate name => s!"query {name} already registered"
  | notFound name => s!"query {name} not found"
  | modeNotSupported name => s!"query {name} does not support this access mode"
  | invalidValue name reason => s!"invalid value for {name}: {reason}"
  | malformed line => s!"malformed request: {Text.quoted line}"
  | outOfMemory => "out of memory"

end Error

end Switchboard.Attribute
