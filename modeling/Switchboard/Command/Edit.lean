import Switchboard.Audit.Record

/-!
Edits of one command, one after the other, each with what it shows.
-/

namespace Switchboard.Command

inductive Edit where
  | set (name value : String)
  | get (name : String)
  | has (name : String)
  | remove (name : String)
  | size
  | params
  | record
  | summary
  | whole
  | equals (other : Command)
  | setAll (pairs : List (String × String))
  | setOrigin (origin : String)
  | setPriority (priority : Int32)

inductive Shown where
  | count (n : Nat)
  | found (value : Option String)
  | flag (b : Bool)
  | countAndEmpty (n : Nat) (empty : Bool)
  | pairs (l : List (String × String))
  | text (s : String)
  | command (c : Command)
  | priority (p : Int32)

def Edit.apply (c : Command) : Edit → Shown × Command
  | .set name value =>
    let c := c.set name value
    (.count c.size, c)
  | .get name => (.found (c.get? name), c)
  | .has name => (.flag (c.has name), c)
  | .remove name => (.found (c.get? name), c.remove name)
  | .size => (.countAndEmpty c.size c.params.isEmpty, c)
  | .params => (.pairs c.params.entries, c)
  | .record => (.text (Audit.text c), c)
  | .summary => (.text c.summary, c)
  | .whole => (.command c, c)
  | .equals other => (.flag (c == other), c)
  | .setAll pairs =>
    let c := c.withParams pairs
    (.count c.size, c)
  | .setOrigin origin => (.text origin, { c with origin })
  | .setPriority priority => (.priority priority, { c with priority })

def edit (c : Command) : List Edit → List Shown × Command
  | [] => ([], c)
  | e :: rest =>
    let (shown, c) := e.apply c
    let (later, c) := c.edit rest
    (shown :: later, c)

end Switchboard.Command
