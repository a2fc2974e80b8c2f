import Switchboard.Device.Error

/-!
The device directory: which device stands under which class and id, in the order of registration. The
directory keeps no device alive; entries of a device that is gone are invisible and are pruned when
their class is next changed. Each function here is one critical section.
-/

namespace Switchboard.Device

abbrev DeviceId := Nat

structure Entry where
  key : Key
  device : DeviceId
deriving DecidableEq, Repr

structure Directory where
  entries : List Entry := []
deriving DecidableEq, Repr

namespace Directory

variable (alive : DeviceId → Bool)

/-- Drops the entries of one class whose device is gone. -/
def prune (d : Directory) (c : Class) : Directory :=
  ⟨d.entries.filter fun e => e.key.deviceClass != c || alive e.device⟩

/-- Points the entries of a key to another device, where they stand. -/
def redirect (d : Directory) (key : Key) (device : DeviceId) : Directory :=
  ⟨d.entries.map fun e => if e.key = key then { e with device } else e⟩

/-- Enters a device under a key. A key in use is refused, or taken over in place. -/
def register (d : Directory) (device : DeviceId) (key : Key) (takeOver : Bool) :
    Except Error Unit × Directory :=
  let d := d.prune alive key.deviceClass
  if d.entries.any fun e => e.key = key then
    if takeOver then (.ok (), d.redirect key device) else (.error (.duplicate key), d)
  else (.ok (), ⟨d.entries ++ [⟨key, device⟩]⟩)

/-- Removes the entry that has this key and points to this device. -/
def unregister (d : Directory) (device : DeviceId) (key : Key) : Except Error Unit × Directory :=
  let present := d.entries.any fun e => e.key = key && e.device == device
  let d : Directory := ⟨d.entries.filter fun e => !(e.key = key && e.device == device)⟩
  (if present then .ok () else .error (.notFound key), d.prune alive key.deviceClass)

/-- Removes the entry of a key if its device is gone. -/
def forget (d : Directory) (key : Key) : Directory :=
  ⟨d.entries.filter fun e => e.key ≠ key || alive e.device⟩

/-! ### Looking up -/

def visible (d : Directory) (c : Class) : List Entry :=
  d.entries.filter fun e => e.key.deviceClass = c && alive e.device

def lookup (d : Directory) (key : Key) : Option DeviceId :=
  ((d.visible alive key.deviceClass).find? fun e => e.key.id == key.id).map Entry.device

/-- The device of a key, if it is of the kind that is asked for. -/
def lookupAs (d : Directory) (isKind : DeviceId → Bool) (key : Key) : Option DeviceId :=
  (d.lookup alive key).filter isKind

/-- The device of a class that was registered first. -/
def first (d : Directory) (c : Class) : Option DeviceId := (d.visible alive c).head?.map Entry.device

def size (d : Directory) (c : Class) : Nat := (d.visible alive c).length

def isEmpty (d : Directory) : Bool := Class.all.all fun c => (d.visible alive c).isEmpty

/-- The visible entries of one class or of all, classes in their order. -/
def listed (d : Directory) (wanted : Option Class) : List Entry :=
  (Class.all.filter fun c => wanted.all (· == c)).flatMap (d.visible alive)

/-- One line for each visible entry and a last one with their number. -/
def dump (d : Directory) (nameOf : DeviceId → String) (wanted : Option Class) : String :=
  let rows := d.listed alive wanted
  String.join (rows.map fun e => s!"{e.key.deviceClass}:{e.key.id} {nameOf e.device}\n")
    ++ s!"Total: {rows.length}\n"

end Directory

end Switchboard.Device
