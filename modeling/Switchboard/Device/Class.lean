/-!
Device classes: the closed list of what a device can be, in the order in which listings show them.
-/

namespace Switchboard.Device

inductive Class where
  | time | gps | gprs | odometer | signal | fuel | logger | proxy | console | generic
deriving DecidableEq, Repr

namespace Class

def all : List Class :=
  [.time, .gps, .gprs, .odometer, .signal, .fuel, .logger, .proxy, .console, .generic]

def label : Class → String
  | time => "time"
  | gps => "gps"
  | gprs => "gprs"
  | odometer => "odometer"
  | signal => "signal"
  | fuel => "fuel"
  | logger => "logger"
  | proxy => "proxy"
  | console => "console"
  | generic => "generic"

def ofLabel? (text : String) : Option Class := all.find? fun c => c.label == text

def rank : Class → Nat
  | time => 0
  | gps => 1
  | gprs => 2
  | odometer => 3
  | signal => 4
  | fuel => 5
  | logger => 6
  | proxy => 7
  | console => 8
  | generic => 9

instance : Ord Class := ⟨fun a b => compare a.rank b.rank⟩

instance : ToString Class := ⟨label⟩

theorem mem_all (c : Class) : c ∈ all := by cases c <;> decide

theorem label_injective {a b : Class} (h : a.label = b.label) : a = b := by
  cases a <;> cases b <;> first | rfl | (exact absurd h (by decide))

end Class

end Switchboard.Device
