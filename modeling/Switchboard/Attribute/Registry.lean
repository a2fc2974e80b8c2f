import Switchboard.Attribute.Descriptor
import Switchboard.Attribute.Error
import Switchboard.OrderedMap
import Switchboard.Text.Blank

/-!
The attribute registry: which capability owns which name, and each capability's descriptors in the
order of their registration. The registry keeps nothing alive: an owner that is gone answers no
request, and its names are reclaimed when one of them is asked for or anything is registered. Each
function here is one critical section.
-/

namespace Switchboard.Attribute

abbrev OwnerId := Nat

/-- A capability with what it has registered. -/
structure Slot where
  owner : OwnerId
  label : String
  descriptors : List Descriptor
deriving DecidableEq, Repr

structure Registry where
  /-- The owner of every claimed name. -/
  names : OrderedMap String OwnerId := {}
  /-- Owners in the order in which they came. -/
  slots : List Slot := []
deriving DecidableEq, Repr

namespace Registry

def size (r : Registry) : Nat := r.names.size

def isEmpty (r : Registry) : Bool := r.names.isEmpty

def owners (r : Registry) : List String := r.slots.map Slot.label

def slot? (r : Registry) (owner : OwnerId) : Option Slot := r.slots.find? fun s => s.owner == owner

def descriptor? (r : Registry) (name : String) : Option Descriptor := do
  let owner ← r.names.get? name
  let slot ← r.slot? owner
  slot.descriptors.find? fun d => d.name == name

/-! ### Releasing names -/

/-- Removes all that an owner has registered and tells how much it was. -/
def removeOwner (r : Registry) (owner : OwnerId) : Nat × Registry :=
  match r.slot? owner with
  | none => (0, r)
  | some slot =>
    (slot.descriptors.length,
      { names := slot.descriptors.foldl (fun names d => names.erase d.name) r.names
        slots := r.slots.eraseP fun s => s.owner == owner })

/-- Removes one name; an owner without names loses its place. -/
def removeName (r : Registry) (name : String) : Option Descriptor × Registry :=
  match r.names.get? name with
  | none => (none, r)
  | some owner =>
    let r := { r with names := r.names.erase name }
    match r.slot? owner with
    | none => (none, r)
    | some slot =>
      match slot.descriptors.find? fun d => d.name == name with
      | none => (none, r)
      | some d =>
        let left := { slot with descriptors := slot.descriptors.eraseP fun d => d.name == name }
        let slots := r.slots.map fun s => if s.owner == owner then left else s
        (some d, { r with slots := slots.filter fun s => !s.descriptors.isEmpty })

/-- Releases a name. Its descriptor is handed back unless the caller gives it up. -/
def unregister (r : Registry) (name : String) (release : Bool) :
    Except Error (Option Descriptor) × Registry :=
  match r.removeName name with
  | (some d, r) => (.ok (if release then none else some d), r)
  | (none, r) => (.error (.notFound name), r)

/-- Removes every owner that is gone, with its names. -/
def reclaim (r : Registry) (alive : OwnerId → Bool) : Registry :=
  ((r.slots.map Slot.owner).filter fun o => !alive o).foldl (fun r o => (r.removeOwner o).2) r

/-! ### Claiming names -/

/-- Adds a descriptor to its owner's slot, or gives the owner a new last one. -/
def file (owner : OwnerId) (label : String) (d : Descriptor) : List Slot → List Slot
  | [] => [⟨owner, label, [d]⟩]
  | s :: rest =>
    if s.owner = owner then { s with descriptors := s.descriptors ++ [d] } :: rest
    else s :: file owner label d rest

/-- Claims a name for an owner, given with its label. -/
def register (r : Registry) (alive : OwnerId → Bool) (owner : Option (OwnerId × String)) (d : Descriptor) :
    Except Error Unit × Registry :=
  match owner with
  | none => (.error (.missingOwner d.name), r)
  | some (owner, label) =>
    let r := r.reclaim alive
    if r.names.contains d.name then (.error (.duplicate d.name), r)
    else (.ok (), { names := r.names.insert d.name owner, slots := file owner label d r.slots })

/-- The registration of a table in progress. -/
inductive Filing where
  | claiming (todo : List Descriptor) (done : List String)
  /-- A claim failed: the names claimed before it are given back. -/
  | releasing (left : List String) (e : Error)
  | finished (result : Except Error Unit)

def Filing.rank : Filing → Nat
  | claiming todo done => 2 * todo.length + done.length + 2
  | releasing left _ => left.length + 1
  | finished _ => 0

/-- One critical section of a table's registration. -/
def Filing.advance (alive : OwnerId → Bool) (owner : OwnerId × String) (r : Registry) :
    Filing → Filing × Registry
  | claiming [] _ => (finished (.ok ()), r)
  | claiming (d :: todo) done =>
    match r.register alive (some owner) d with
    | (.ok (), r) => (claiming todo (done ++ [d.name]), r)
    | (.error e, r) => (releasing done e, r)
  | releasing [] e => (finished (.error e), r)
  | releasing (name :: left) e => (releasing left e, (r.unregister name true).2)
  | finished result => (finished result, r)

theorem Filing.rank_advance (alive : OwnerId → Bool) (owner : OwnerId × String) (r : Registry) (f : Filing)
    (going : 0 < f.rank) : (f.advance alive owner r).1.rank < f.rank := by
  unfold advance
  split
  · simp [rank]
  · split
    · simp only [rank, List.length_cons, List.length_append, List.length_nil]; omega
    · simp only [rank, List.length_cons]; omega
  · simp [rank]
  · simp [rank]
  · simp [rank] at going

def Filing.run (alive : OwnerId → Bool) (owner : OwnerId × String) (r : Registry) :
    Filing → Except Error Unit × Registry
  | finished result => (result, r)
  | claiming todo done =>
    let next := (claiming todo done).advance alive owner r
    run alive owner next.2 next.1
  | releasing left e =>
    let next := (releasing left e).advance alive owner r
    run alive owner next.2 next.1
termination_by f => f.rank
decreasing_by all_goals exact Filing.rank_advance _ _ _ _ (by simp [rank])

/-- Claims every name of a table in table order. At the first failure the names claimed by this call are
released again. -/
def registerTable (r : Registry) (alive : OwnerId → Bool) (owner : OwnerId × String)
    (table : List Descriptor) : Except Error Unit × Registry :=
  Filing.run alive owner r (.claiming table [])

/-! ### Requests -/

/-- The living owner of a name. The names of an owner that is gone are reclaimed on the way. -/
def resolve (r : Registry) (alive : OwnerId → Bool) (name : String) : Option OwnerId × Registry :=
  match r.names.get? name with
  | none => (none, r)
  | some owner =>
    if (r.slot? owner).isSome && alive owner then (some owner, r)
    else (none, (r.removeOwner owner).2)

/-! ### Listings -/

/-- One row of a listing, and the help text under it if the attribute can be written. -/
def row (radix : String) (d : Descriptor) : String :=
  s!"{radix}{Text.column 10 d.name} {d.access.flags} {Text.column 40 d.description}\r\n"
    ++ (if d.access.canWrite then s!"    {d.valuesHelp}\r\n" else "")

def total (n : Nat) : String := s!"Total: {n}\r\n"

/-- What a listing shows: the descriptors of the living owners, or of one of them. -/
def listed (r : Registry) (alive : OwnerId → Bool) (wanted : Option OwnerId) : List Descriptor :=
  (r.slots.filter fun s => wanted.all (· == s.owner) && alive s.owner).flatMap Slot.descriptors

def list (r : Registry) (alive : OwnerId → Bool) (wanted : Option OwnerId) (radix : String) : String :=
  String.join ((r.listed alive wanted).map (row radix)) ++ total (r.listed alive wanted).length

end Registry

end Switchboard.Attribute
