import Switchboard.Device.Class

/-!
What can go wrong when a device is registered or removed.
-/

namespace Switchboard.Device

structure Key where
  deviceClass : Class
  id : String
deriving DecidableEq, Repr

inductive Error where
  | duplicate (key : Key)
  | notFound (key : Key)
deriving DecidableEq, Repr

namespace Error

def label : Error → String
  | duplicate _ => "device_duplicate"
  | notFound _ => "device_not_found"

def message : Error → String
  | duplicate key => s!"device {key.deviceClass}:{key.id} already registered"
  | notFound key => s!"device {key.deviceClass}:{key.id} not registered"

end Error

end Switchboard.Device
