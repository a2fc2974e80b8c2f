import Switchboard.Device.Directory

/-!
Guards: what one device has registered through one hand, released together when the guard is dropped.
A guard keeps neither the device nor the directory alive.
-/

namespace Switchboard.Device

structure Guard where
  device : DeviceId
  /-- The primary key, then the aliases in the order in which they were added. -/
  keys : List Key
deriving DecidableEq, Repr

namespace Directory

variable (alive : DeviceId → Bool)

/-- Registers a device under its own key, to be released by the guard. -/
def attach (d : Directory) (device : DeviceId) (own : Key) (takeOver : Bool) :
    Except Error Guard × Directory :=
  let (result, d) := d.register alive device own takeOver
  (result.map fun _ => ⟨device, [own]⟩, d)

/-- Registers the guard's device under one more key. The guard is unchanged if that fails, and it fails
when the device is gone. -/
def addInterface (d : Directory) (g : Guard) (key : Key) (takeOver : Bool) :
    Except Error Unit × Guard × Directory :=
  if alive g.device then
    match d.register alive g.device key takeOver with
    | (.ok (), d) => (.ok (), { g with keys := g.keys ++ [key] }, d)
    | (.error e, d) => (.error e, g, d)
  else (.error (.notFound key), g, d)

/-- Releases the keys one by one: those that still point to the device, or are left of it when it is
gone. -/
def release (d : Directory) (g : Guard) : Directory :=
  if alive g.device then g.keys.foldl (fun d key => (d.unregister alive g.device key).2) d
  else g.keys.foldl (fun d key => d.forget alive key) d

end Directory

end Switchboard.Device
