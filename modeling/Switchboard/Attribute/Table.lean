import Switchboard.Attribute.Descriptor
import Switchboard.Attribute.Error

/-!
Attribute tables: the rows a capability answers from. The table itself checks the direction of a
request and answers what describes a row; only a permitted read or write reaches the row's action.
-/

namespace Switchboard.Attribute

inductive Routing where
  | answer (text : String)
  | refuse (e : Error)
  /-- The action of the row at this place is to be performed. -/
  | perform (row : Nat)
deriving DecidableEq, Repr

def Descriptor.route (d : Descriptor) (place : Nat) : Request → Routing
  | .describe => .answer d.valuesHelp
  | .read => if d.access.canRead then .perform place else .refuse (.modeNotSupported d.name)
  | .write _ => if d.access.canWrite then .perform place else .refuse (.modeNotSupported d.name)

/-- The first row with the name decides. -/
def route (descriptors : List Descriptor) (name : String) (request : Request) : Routing :=
  match descriptors.findIdx? fun d => d.name == name with
  | some place =>
    match descriptors[place]? with
    | some d => d.route place request
    | none => .refuse (.notFound name)
  | none => .refuse (.notFound name)

end Switchboard.Attribute
