import Switchboard.Attribute.Line
import Switchboard.Attribute.Registry

/-!
Request lines at a registry. The registry only finds the owner a line is for: it is left before the
owner is asked, and the owner's answer goes back under the name and mode of the line.
-/

namespace Switchboard.Attribute

inductive Passage where
  /-- The owner is to be asked. -/
  | asks (owner : OwnerId) (line : Line)
  | answers (response : Response)

namespace Line

def response (l : Line) (outcome : Except Error String) : Response := ⟨l.name, some l.mode, outcome⟩

end Line

namespace Registry

/-- A line is parsed before the registry is looked at; one that cannot be parsed leaves it alone. -/
def receive (r : Registry) (alive : OwnerId → Bool) (line radix : String) : Passage × Registry :=
  match Line.parse line radix with
  | .error e => (.answers (.malformed line e), r)
  | .ok l =>
    match r.resolve alive l.name with
    | (some owner, r) => (.asks owner l, r)
    | (none, r) => (.answers (l.response (.error (.notFound l.name))), r)

end Registry

def Passage.reply (serve : OwnerId → String → Request → Except Error String) : Passage → Response
  | asks owner l => l.response (serve owner l.name l.request)
  | answers response => response

end Switchboard.Attribute
