import Switchboard.Scenario.Task

/-!
Capabilities and attribute steps of a scenario. A request leaves the registry before its owner is
asked, so a row may perform steps that use the registry again; the owner stays alive meanwhile.
-/

namespace Switchboard.Scenario

/-! ### Rows -/

def isShortNumber (s : String) : Bool := !s.isEmpty && s.length ≤ 3 && s.toList.all Char.isDigit

/-- What a row does with a permitted request, the performing of its step apart. -/
def RowObject.perform (r : RowObject) (request : Attribute.Request) :
    Except Attribute.Error String × RowObject :=
  let invalid reason : Except Attribute.Error String := .error (.invalidValue r.spec.descriptor.name reason)
  match r.spec.kind, request with
  | .fail, _ => (invalid r.spec.value, r)
  | .digits, .write v => if isShortNumber v then (.ok "", { r with value := v }) else (invalid "not a number", r)
  | .count, .write _ => (.ok "reset", { r with reads := 0 })
  | .count, _ => (.ok (toString r.reads), { r with reads := r.reads + 1 })
  | _, .write v => (.ok "", { r with value := v })
  | _, _ => (.ok r.value, r)

/-- The step that a row is to perform before it answers. -/
def RowObject.stepFor (r : RowObject) : Attribute.Request → Option Step
  | .read => if r.spec.kind = .run then r.spec.step else none
  | _ => none

def Capability.echo (c : Capability) (name : String) (request : Attribute.Request) : String :=
  let written := match request with | .write v => v | _ => ""
  s!"{c.owner}|{name}|{request.mode.label}|{written}"

namespace World

def giveText (w : World) (t : Except Attribute.Error String) : Next := ⟨w, .give (.text t), []⟩

def setRow (w : World) (o : Attribute.OwnerId) (row : Nat) (r : RowObject) : World :=
  { w with capabilities := w.capabilities.modify o fun c => { c with rows := c.rows.set row r } }

def query (w : World) (o : Attribute.OwnerId) (name : String) (request : Attribute.Request) : Next :=
  match w.capabilities[o]? with
  | none => w.giveText (.error (.notFound name))
  | some c =>
    if c.raw then w.giveText (.ok (c.echo name request))
    else match Attribute.route c.table name request with
      | .answer text => w.giveText (.ok text)
      | .refuse e => w.giveText (.error e)
      | .perform i =>
        match c.rows[i]? with
        | none => w.giveText (.error (.notFound name))
        | some r =>
          match r.stepFor request with
          | some s => ⟨w, .perform s, [.row o r.value]⟩
          | none =>
            let (result, r) := r.perform request
            (w.setRow o i r).giveText result

/-- A row answers after its step has been performed, with what it held when it was asked: a step that
writes to the row is seen by the next request. -/
def rowDone (w : World) (me : ThreadId) (o : Attribute.OwnerId) (value : String) (a : Answer) : Next :=
  match w.capabilities[o]? with
  | none => w.giveText (.ok value)
  | some c => (w.note me (.ran c.owner a)).giveText (.ok value)

/-- Asks a capability, which stays alive until it has answered. -/
def ask (w : World) (o : Attribute.OwnerId) (name : String) (request : Attribute.Request)
    (frame : Frame) : Next :=
  (w.using (.capability o) fun w => ⟨w, .query o name request, []⟩).under [frame]

/-! ### Requests through a registry -/

def dispatchAttribute (w : World) (i : RegistryId) (r : Attribute.Registry) (name : String)
    (request : Attribute.Request) : Next :=
  let (owner, r) := r.resolve w.ownerAlive name
  let w := w.setRegistry i r
  match owner with
  | some o => w.ask o name request .ofText
  | none => w.answer (.ofAttributeError (.notFound name))

def executeLine (w : World) (i : RegistryId) (r : Attribute.Registry) (line radix : String) : Next :=
  let (passage, r) := r.receive w.ownerAlive line radix
  let w := w.setRegistry i r
  match passage with
  | .asks o l => w.ask o l.name l.request (.response l)
  | .answers response => w.answer (.response response)

/-- The owner asked for, or none when none was given. -/
def wanted (w : World) : Option Name → Except Answer (Option (Attribute.OwnerId × Capability))
  | none => .ok none
  | some name =>
    match w.capability? name with
    | some c => .ok (some c)
    | none => .error (unknown "capability" name)

def ofUnit : Except Attribute.Error Unit → Answer
  | .ok _ => .done
  | .error e => .ofAttributeError e

def performOnRegistry (w : World) (i : RegistryId) (r : Attribute.Registry) : AttributeStep → Next
  | .register owner d =>
    match w.wanted owner with
    | .error a => w.answer a
    | .ok owner =>
      let (result, r) := r.register w.ownerAlive (owner.map fun (o, c) => (o, c.owner)) d
      (w.setRegistry i r).answer (ofUnit result)
  | .registerTable owner table =>
    match w.capability? owner, w.capability? table with
    | some (o, c), some (_, t) =>
      let (result, r) := r.registerTable w.ownerAlive (o, c.owner) t.table
      (w.setRegistry i r).answer (ofUnit result)
    | none, _ => w.answer (unknown "capability" owner)
    | _, none => w.answer (unknown "capability" table)
  | .unregister name release =>
    let (result, r) := r.unregister name release
    (w.setRegistry i r).answer (match result with | .ok d => .released d | .error e => .ofAttributeError e)
  | .unregisterOwner owner =>
    match w.capability? owner with
    | none => w.answer (unknown "capability" owner)
    | some (o, _) =>
      let (n, r) := r.removeOwner o
      (w.setRegistry i r).answer (.count n)
  | .dispatch name mode value => w.dispatchAttribute i r name (.ofMode mode value)
  | .execute line radix => w.executeLine i r line radix
  | .descriptor name =>
    w.answer (match r.descriptor? name with | some d => .descriptor d | none => .absent)
  | .state => w.answer (.registry r.size r.isEmpty r.owners)
  | .list owner radix =>
    match w.wanted owner with
    | .error a => w.answer a
    | .ok owner => w.answer (.text (r.list w.ownerAlive (owner.map Prod.fst) radix))

def performAttribute (w : World) (context : Name) (s : AttributeStep) : Next :=
  match w.context? context with
  | none => w.answer (unknown "context" context)
  | some (i, c) =>
    match w.registries[c.attributes]? with
    | none => w.answer (unknown "context" context)
    | some r => w.using (.context i) fun w => w.performOnRegistry c.attributes r s

def newCapability (w : World) (name : Name) (owner : String) (raw : Bool) (rows : List (RowSpec Step)) : World :=
  let c : Capability := { owner, raw, rows := rows.map fun r => { spec := r, value := r.value } }
  { w with
    capabilities := w.capabilities ++ [c]
    capabilityNames := w.capabilityNames.insert name w.capabilities.length }

def performCapability (w : World) (name : Name) : CapabilityStep → Next
  | .drop => { w with capabilityNames := w.capabilityNames.erase name }.answer .done
  | .query asked mode value =>
    match w.capability? name with
    | none => w.answer (unknown "capability" name)
    | some (o, _) => w.ask o asked (.ofMode mode value) .ofText

end World

end Switchboard.Scenario
