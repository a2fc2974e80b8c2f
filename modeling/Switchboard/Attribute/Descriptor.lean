/-!
Attributes as their owners describe them, and the three kinds of request made of one.
-/

namespace Switchboard.Attribute

inductive Access where
  | readOnly
  | writeOnly
  | readWrite
deriving DecidableEq, Repr

namespace Access

def canRead : Access → Bool
  | writeOnly => false
  | _ => true

def canWrite : Access → Bool
  | readOnly => false
  | _ => true

def flags : Access → String
  | readOnly => "R-"
  | writeOnly => "-W"
  | readWrite => "RW"

end Access

inductive Mode where
  | read
  | write
  | describe
deriving DecidableEq, Repr

def Mode.label : Mode → String
  | .read => "read"
  | .write => "write"
  | .describe => "describe"

inductive Request where
  | read
  | write (value : String)
  | describe
deriving DecidableEq, Repr

namespace Request

/-- A write without a value writes the empty text. -/
def ofMode (mode : Mode) (value : Option String) : Request :=
  match mode with
  | .read => read
  | .write => write (value.getD "")
  | .describe => describe

def mode : Request → Mode
  | read => .read
  | write _ => .write
  | describe => .describe

end Request

structure Descriptor where
  name : String
  access : Access := .readOnly
  label : String := ""
  description : String := ""
  /-- Tells the user which values may be written. -/
  valuesHelp : String := ""
deriving DecidableEq, Repr

namespace Descriptor

def summary (d : Descriptor) : String := s!"{d.name} [{d.access.flags}] {d.description}"

end Descriptor

end Switchboard.Attribute
