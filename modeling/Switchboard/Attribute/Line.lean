import Switchboard.Attribute.Descriptor
import Switchboard.Attribute.Error
import Switchboard.Text.Blank

/-!
Request lines: `NAME` reads, `NAME=VALUE` writes and `NAME=?` describes. Blanks around the line do not
count, and the listing's radix may stand in front of the name.
-/

namespace Switchboard.Attribute

/-- What follows `lead` in a text that begins with it. -/
def stripLead? : List Char → List Char → Option (List Char)
  | [], text => some text
  | _ :: _, [] => none
  | l :: lead, c :: text => if l = c then stripLead? lead text else none

def splitEquals : List Char → List Char × Option (List Char)
  | [] => ([], none)
  | c :: rest =>
    if c = '=' then ([], some rest)
    else
      let (before, after) := splitEquals rest
      (c :: before, after)

/-- A parsed request line; the value is there exactly for writes. -/
structure Line where
  name : String
  mode : Mode
  value : Option String := none
deriving DecidableEq, Repr

namespace Line

def request (l : Line) : Request := .ofMode l.mode l.value

def nameIsFit (name : List Char) : Bool := !name.isEmpty && !name.any Text.isBlank

/-- The mode and value that the text after the equals sign asks for. -/
def modeOf : Option (List Char) → Mode × Option String
  | none => (.read, none)
  | some ['?'] => (.describe, none)
  | some value => (.write, some (String.ofList value))

/-- Without an equals sign the name is all that follows the radix, blanks included. -/
def parse (line radix : String) : Except Error Line :=
  let trimmed := Text.trim line.toList
  let body := (stripLead? radix.toList trimmed).getD trimmed
  let (before, after) := splitEquals body
  let name := if after.isSome then Text.trim before else before
  if nameIsFit name then
    let (mode, value) := modeOf after
    .ok { name := String.ofList name, mode, value }
  else .error (.malformed (String.ofList trimmed))

end Line

structure Response where
  name : String
  /-- Missing when the line could not be parsed. -/
  mode : Option Mode
  outcome : Except Error String

namespace Response

def isOk (r : Response) : Bool := r.outcome.isOk

def wire (r : Response) : String :=
  match r.outcome, r.mode with
  | .ok _, some .write => s!"{r.name}: OK\r\n"
  | .ok body, _ => s!"{r.name}: {body}\r\n"
  | .error e, _ => s!"{r.name}: ERROR {e.label}\r\n"

def malformed (line : String) (e : Error) : Response :=
  { name := String.ofList (Text.trim line.toList), mode := none, outcome := .error e }

end Response

end Switchboard.Attribute
