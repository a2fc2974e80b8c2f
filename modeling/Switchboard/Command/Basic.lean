import Switchboard.Device.Class
import Switchboard.OrderedMap
import Switchboard.Text.Quoted

/-!
Commands: what is asked of a device, with named parameters in a fixed order. Parameters form an
ordered map; no other part of a command changes when they do.
-/

namespace Switchboard

structure Command where
  type : UInt16 := 0
  deviceClass : Device.Class := .generic
  deviceId : String := ""
  origin : String := ""
  priority : Int32 := 0
  params : OrderedMap String String := {}
deriving DecidableEq, Repr

namespace Command

def get? (c : Command) (name : String) : Option String := c.params.get? name

def has (c : Command) (name : String) : Bool := c.params.contains name

def size (c : Command) : Nat := c.params.size

def set (c : Command) (name value : String) : Command := { c with params := c.params.insert name value }

def withParams (c : Command) (pairs : List (String × String)) : Command :=
  { c with params := c.params.insertAll pairs }

def remove (c : Command) (name : String) : Command := { c with params := c.params.erase name }

/-- One line for people: type, device, origin in quotes, priority and the number of parameters. -/
def summary (c : Command) : String :=
  s!"cmd#{c.type.toNat} -> {c.deviceClass}:{c.deviceId} from {Text.quoted c.origin}"
    ++ s!" prio={c.priority.toInt} params={c.size}"

end Command

end Switchboard
