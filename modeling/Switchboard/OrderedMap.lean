/-!
Ordered maps: a finite map that remembers the order in which its keys came. Setting a present key
replaces the value where it stands, setting a new key appends it, removing a key closes the gap.
-/

namespace Switchboard

structure OrderedMap (κ ν : Type) where
  entries : List (κ × ν) := []
deriving DecidableEq, Repr

namespace OrderedMap

variable {κ ν : Type} [DecidableEq κ]

def keys (m : OrderedMap κ ν) : List κ := m.entries.map Prod.fst

def values (m : OrderedMap κ ν) : List ν := m.entries.map Prod.snd

def size (m : OrderedMap κ ν) : Nat := m.entries.length

def isEmpty (m : OrderedMap κ ν) : Bool := m.entries.isEmpty

def find : List (κ × ν) → κ → Option ν
  | [], _ => none
  | e :: rest, k => if e.1 = k then some e.2 else find rest k

def put : List (κ × ν) → κ → ν → List (κ × ν)
  | [], k, v => [(k, v)]
  | e :: rest, k, v => if e.1 = k then (k, v) :: rest else e :: put rest k v

def drop : List (κ × ν) → κ → List (κ × ν)
  | [], _ => []
  | e :: rest, k => if e.1 = k then rest else e :: drop rest k

def get? (m : OrderedMap κ ν) (k : κ) : Option ν := find m.entries k

def contains (m : OrderedMap κ ν) (k : κ) : Bool := (m.get? k).isSome

def insert (m : OrderedMap κ ν) (k : κ) (v : ν) : OrderedMap κ ν := ⟨put m.entries k v⟩

def insertAll (m : OrderedMap κ ν) (pairs : List (κ × ν)) : OrderedMap κ ν :=
  pairs.foldl (fun m e => m.insert e.1 e.2) m

def erase (m : OrderedMap κ ν) (k : κ) : OrderedMap κ ν := ⟨drop m.entries k⟩

/-! ### Reading after writing -/

theorem find_put_self (l : List (κ × ν)) (k : κ) (v : ν) : find (put l k v) k = some v := by
  induction l with
  | nil => simp [put, find]
  | cons e rest ih => by_cases h : e.1 = k <;> simp [put, find, h, ih]

theorem find_put_other (l : List (κ × ν)) {k k' : κ} (v : ν) (other : k' ≠ k) :
    find (put l k v) k' = find l k' := by
  induction l with
  | nil => simp [put, find, Ne.symm other]
  | cons e rest ih =>
    by_cases h : e.1 = k
    · subst h; simp [put, find, Ne.symm other]
    · simp [put, find, h, ih]

@[simp] theorem get?_insert_self (m : OrderedMap κ ν) (k : κ) (v : ν) : (m.insert k v).get? k = some v :=
  find_put_self m.entries k v

theorem get?_insert_other (m : OrderedMap κ ν) {k k' : κ} (v : ν) (other : k' ≠ k) :
    (m.insert k v).get? k' = m.get? k' :=
  find_put_other m.entries v other

end OrderedMap

end Switchboard
