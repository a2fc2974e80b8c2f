import Switchboard.Worker.Roster

/-!
Configuration of a context. An empty prefix, a stack of no bytes and a poll interval of no time
stand for "none given".
-/

namespace Switchboard

structure Config where
  threadPrefix : String := "tb"
  /-- In bytes. -/
  stackSize : Nat := 0
  /-- Stands before each name in listings, and may stand before it in requests. -/
  radix : String := "$"
  /-- In milliseconds. -/
  pollInterval : Nat := 1000
  stopOrder : StopOrder := .reverse
deriving DecidableEq, Repr

namespace Config

def threadPrefix? (c : Config) : Option String := if c.threadPrefix.isEmpty then none else some c.threadPrefix

def stackSize? (c : Config) : Option Nat := if c.stackSize = 0 then none else some c.stackSize

def pollInterval? (c : Config) : Option Nat := if c.pollInterval = 0 then none else some c.pollInterval

end Config

end Switchboard
