import Mathlib
import Switchboard.Attribute.Registry
import Switchboard.Proofs.OrderedMap

/-!
Claims of attribute names as a ledger has them: one group for each owner with names, in the order in which the
groups began, and in a group the descriptors in the order of their registration. Who has a name is read off the
groups, and a table is registered as a whole or not at all.
-/

namespace Switchboard.Attribute

/-- What an owner has registered, with the label it had when the group began. -/
structure Group where
  label : String
  descriptors : List Descriptor := []

def Group.without (name : String) (g : Group) : Group :=
  { g with descriptors := g.descriptors.filter fun d => d.name ≠ name }

abbrev Ledger := OrderedMap OwnerId Group

namespace Ledger

def claimed (l : Ledger) : List Descriptor := l.values.flatMap Group.descriptors

def names (l : Ledger) : List String := l.claimed.map Descriptor.name

def owners (l : Ledger) : List String := l.values.map Group.label

def find (l : Ledger) (name : String) : Option Descriptor := l.claimed.find? fun d => d.name == name

/-! ### Claiming and releasing -/

/-- Descriptors join the group of their owner, or begin a new last one. -/
def add (l : Ledger) (owner : OwnerId × String) (ds : List Descriptor) : Ledger :=
  if ds = [] then l
  else
    let g := (l.get? owner.1).getD { label := owner.2 }
    l.insert owner.1 { g with descriptors := g.descriptors ++ ds }

/-- A name leaves its group, and a group without names the ledger. -/
def remove (l : Ledger) (name : String) : Ledger :=
  ⟨(l.entries.map fun e => (e.1, e.2.without name)).filter fun e => e.2.descriptors ≠ []⟩

def register (l : Ledger) : Option (OwnerId × String) → Descriptor → Except Error Unit × Ledger
  | none, d => (.error (.missingOwner d.name), l)
  | some owner, d => if d.name ∈ l.names then (.error (.duplicate d.name), l) else (.ok (), l.add owner [d])

/-- The first name of a table that is taken, or stands in the table before. -/
def conflict? (taken : List String) : List Descriptor → Option String
  | [] => none
  | d :: rest => if d.name ∈ taken then some d.name else conflict? (taken ++ [d.name]) rest

def registerTable (l : Ledger) (owner : OwnerId × String) (table : List Descriptor) : Except Error Unit × Ledger :=
  match conflict? l.names table with
  | some name => (.error (.duplicate name), l)
  | none => (.ok (), l.add owner table)

def unregister (l : Ledger) (name : String) (release : Bool) : Except Error (Option Descriptor) × Ledger :=
  match l.find name with
  | none => (.error (.notFound name), l)
  | some d => (.ok (if release then none else some d), l.remove name)

def unregisterOwner (l : Ledger) (owner : OwnerId) : Nat × Ledger :=
  ((l.get? owner).elim 0 fun g => g.descriptors.length, l.erase owner)

/-! ### Listings -/

/-- A line of a listing: a descriptor, or the values that may be written. -/
inductive Row where
  | entry (d : Descriptor)
  | help (d : Descriptor)
deriving DecidableEq

def Row.text (radix : String) : Row → String
  | entry d => s!"{radix}{Text.column 10 d.name} {d.access.flags} {Text.column 40 d.description}\r\n"
  | help d => s!"    {d.valuesHelp}\r\n"

def rows (ds : List Descriptor) : List Row :=
  ds.flatMap fun d => if d.access.canWrite then [.entry d, .help d] else [.entry d]

/-- What a listing shows: the descriptors of all groups, or those of one owner. -/
def shown (l : Ledger) : Option OwnerId → List Descriptor
  | none => l.claimed
  | some owner => (l.get? owner).elim [] Group.descriptors

/-- A listing without its last line. -/
def text (l : Ledger) (wanted : Option OwnerId) (radix : String) : String :=
  String.join ((rows (l.shown wanted)).map (Row.text radix))

def list (l : Ledger) (wanted : Option OwnerId) (radix : String) : String :=
  l.text wanted radix ++ s!"Total: {(l.shown wanted).length}\r\n"

/-- No owner has two groups or an empty one, and no name is claimed twice. -/
structure Sound (l : Ledger) : Prop where
  owners : l.keys.Nodup
  inhabited : ∀ e ∈ l.entries, e.2.descriptors ≠ []
  names : l.names.Nodup

variable {l : Ledger}

/-! ### The rows of a listing -/

theorem rows_append (ds ds' : List Descriptor) : rows (ds ++ ds') = rows ds ++ rows ds' := List.flatMap_append

theorem count_entry (ds : List Descriptor) (d : Descriptor) : (rows ds).count (.entry d) = ds.count d := by
  induction ds with
  | nil => rfl
  | cons d' rest ih =>
    have head : (if d'.access.canWrite then [Row.entry d', .help d'] else [.entry d']).count (.entry d) =
        if d' = d then 1 else 0 := by
      split <;> simp [List.count_cons]
    rw [rows, List.flatMap_cons, List.count_append, head, ← rows, ih, List.count_cons]
    simp [Nat.add_comm]

theorem count_help (ds : List Descriptor) (d : Descriptor) :
    (rows ds).count (.help d) = if d.access.canWrite then ds.count d else 0 := by
  induction ds with
  | nil => simp [rows]
  | cons d' rest ih =>
    have head : (if d'.access.canWrite then [Row.entry d', .help d'] else [.entry d']).count (.help d) =
        if d' = d ∧ d.access.canWrite then 1 else 0 := by
      split <;> rename_i writable <;> by_cases same : d' = d <;> simp_all
    rw [rows, List.flatMap_cons, List.count_append, head, ← rows, ih, List.count_cons]
    by_cases writable : d.access.canWrite = true <;> simp [writable, Nat.add_comm]

theorem get?_of_mem (sound : l.Sound) {e : OwnerId × Group} (member : e ∈ l.entries) : l.get? e.1 = some e.2 :=
  (OrderedMap.find_eq_some_iff sound.owners).mpr member

/-- All that is claimed is what the owners have claimed, owner by owner. -/
theorem claimed_eq (sound : l.Sound) : l.claimed = l.keys.flatMap fun owner => l.shown (some owner) := by
  unfold claimed OrderedMap.values OrderedMap.keys
  rw [List.flatMap_map, List.flatMap_map]
  apply List.flatMap_congr
  intro e member
  rw [shown, get?_of_mem sound member, Option.elim_some]

theorem text_none (sound : l.Sound) (radix : String) :
    l.text none radix = String.join (l.keys.map fun owner => l.text (some owner) radix) := by
  unfold text
  rw [shown, claimed_eq sound]
  generalize l.keys = owners
  induction owners with
  | nil => rfl
  | cons owner rest ih =>
    rw [List.flatMap_cons, rows_append, List.map_append, String.join_append, ih, List.map_cons, String.join_cons]

theorem length_claimed (sound : l.Sound) :
    l.claimed.length = (l.keys.map fun owner => (l.shown (some owner)).length).sum := by
  rw [claimed_eq sound, List.length_flatMap]

/-! ### Adding -/

theorem conflict?_congr {taken taken' : List String} (same : ∀ name, name ∈ taken ↔ name ∈ taken')
    (table : List Descriptor) : conflict? taken table = conflict? taken' table := by
  induction table generalizing taken taken' with
  | nil => rfl
  | cons d rest ih =>
    have grown : ∀ name, name ∈ taken ++ [d.name] ↔ name ∈ taken' ++ [d.name] := by simp [same]
    rw [conflict?, conflict?, ih grown]
    simp only [same]

theorem add_nil (owner : OwnerId × String) : l.add owner [] = l := if_pos rfl

theorem add_add (owner : OwnerId × String) (ds ds' : List Descriptor) :
    (l.add owner ds).add owner ds' = l.add owner (ds ++ ds') := by
  by_cases none : ds = []
  · rw [none, add_nil, List.nil_append]
  by_cases none' : ds' = []
  · rw [none', add_nil, List.append_nil]
  have some : ds ++ ds' ≠ [] := by simp [none]
  unfold add
  rw [if_neg none, if_neg none', if_neg some]
  simp only [OrderedMap.get?_insert_self, Option.getD_some, OrderedMap.insert_insert, List.append_assoc]

theorem add_empty (owner : OwnerId × String) (ds : List Descriptor) :
    (add ⟨[]⟩ owner ds).entries = if ds = [] then [] else [(owner.1, ⟨owner.2, ds⟩)] := by
  unfold add
  split <;> rfl

theorem add_cons (e : OwnerId × Group) (es : List (OwnerId × Group)) (owner : OwnerId × String)
    (ds : List Descriptor) :
    (add ⟨e :: es⟩ owner ds).entries =
      if e.1 = owner.1 then (e.1, { e.2 with descriptors := e.2.descriptors ++ ds }) :: es
      else e :: (add ⟨es⟩ owner ds).entries := by
  by_cases none : ds = []
  · subst none
    rw [add_nil, add_nil, List.append_nil, ite_self]
  unfold add OrderedMap.insert OrderedMap.get?
  rw [if_neg none, if_neg none]
  by_cases same : e.1 = owner.1
  · simp [OrderedMap.put, OrderedMap.find, same]
  · simp [OrderedMap.put, OrderedMap.find, same]

theorem claimed_cons (e : OwnerId × Group) (es : List (OwnerId × Group)) :
    claimed ⟨e :: es⟩ = e.2.descriptors ++ claimed ⟨es⟩ := rfl

theorem claimed_add (l : Ledger) (owner : OwnerId × String) (ds : List Descriptor) :
    (l.add owner ds).claimed.Perm (l.claimed ++ ds) := by
  obtain ⟨es⟩ := l
  induction es with
  | nil =>
    show (claimed ⟨(add ⟨[]⟩ owner ds).entries⟩).Perm ds
    rw [add_empty]
    split
    · rename_i none
      rw [none]
      exact List.Perm.refl _
    · rw [claimed_cons]
      exact List.Perm.of_eq (List.append_nil ds)
  | cons e es ih =>
    show (claimed ⟨(add ⟨e :: es⟩ owner ds).entries⟩).Perm _
    rw [add_cons, claimed_cons, List.append_assoc]
    split
    · rw [claimed_cons, List.append_assoc]
      exact List.perm_append_comm.append_left e.2.descriptors
    · rw [claimed_cons]
      exact ih.append_left e.2.descriptors

theorem names_add (l : Ledger) (owner : OwnerId × String) (ds : List Descriptor) :
    (l.add owner ds).names.Perm (l.names ++ ds.map Descriptor.name) := by
  unfold names
  rw [← List.map_append]
  exact (claimed_add l owner ds).map _

theorem shown_add (l : Ledger) (owner : OwnerId × String) (ds : List Descriptor) (o : OwnerId) :
    (l.add owner ds).shown (some o) = if o = owner.1 then l.shown (some o) ++ ds else l.shown (some o) := by
  by_cases none : ds = []
  · rw [none, add_nil, List.append_nil, ite_self]
  unfold add
  rw [if_neg none]
  by_cases same : o = owner.1
  · rw [if_pos same, same, shown, shown, OrderedMap.get?_insert_self]
    cases l.get? owner.1 <;> rfl
  · rw [if_neg same, shown, shown, OrderedMap.get?_insert_other _ _ same]

theorem keys_add (l : Ledger) (owner : OwnerId × String) (ds : List Descriptor) :
    (l.add owner ds).keys.Sublist l.keys ∨ ∃ o, o ∉ l.keys ∧ (l.add owner ds).keys = l.keys ++ [o] := by
  by_cases none : ds = []
  · rw [none, add_nil]
    exact .inl (List.Sublist.refl _)
  have keys : (l.add owner ds).keys = if owner.1 ∈ l.keys then l.keys else l.keys ++ [owner.1] := by
    unfold add
    rw [if_neg none]
    exact OrderedMap.put_keys l.entries owner.1 _
  rw [keys]
  by_cases present : owner.1 ∈ l.keys
  · rw [if_pos present]
    exact .inl (List.Sublist.refl _)
  · rw [if_neg present]
    exact .inr ⟨owner.1, present, rfl⟩

/-! ### Removing -/

theorem without_of_fresh {name : String} {g : Group} (fresh : ∀ d ∈ g.descriptors, d.name ≠ name) :
    g.without name = g := by
  have kept : (g.descriptors.filter fun d => d.name ≠ name) = g.descriptors :=
    List.filter_eq_self.mpr (by simpa using fresh)
  rw [Group.without, kept]

theorem remove_cons (e : OwnerId × Group) (es : List (OwnerId × Group)) (name : String) :
    (remove ⟨e :: es⟩ name).entries =
      if (e.2.without name).descriptors = [] then (remove ⟨es⟩ name).entries
      else (e.1, e.2.without name) :: (remove ⟨es⟩ name).entries := by
  unfold remove
  rw [List.map_cons]
  split <;> rename_i left
  · rw [List.filter_cons_of_neg (by simpa using left)]
  · rw [List.filter_cons_of_pos (by simpa using left)]

theorem remove_of_fresh {name : String} (inhabited : ∀ e ∈ l.entries, e.2.descriptors ≠ [])
    (fresh : ∀ d ∈ l.claimed, d.name ≠ name) : (l.remove name).entries = l.entries := by
  obtain ⟨es⟩ := l
  induction es with
  | nil => rfl
  | cons e es ih =>
    obtain ⟨some, inhabited⟩ := List.forall_mem_cons.mp inhabited
    rw [claimed_cons, List.forall_mem_append] at fresh
    rw [remove_cons, without_of_fresh fresh.1, if_neg some, ih inhabited fresh.2]

/-- Taking the first of some new descriptors back leaves the others. -/
theorem remove_add {owner : OwnerId × String} {d : Descriptor} {ds : List Descriptor}
    (inhabited : ∀ e ∈ l.entries, e.2.descriptors ≠ []) (fresh : ∀ d' ∈ l.claimed, d'.name ≠ d.name)
    (other : ∀ d' ∈ ds, d'.name ≠ d.name) : (l.add owner (d :: ds)).remove d.name = l.add owner ds := by
  have kept : (d :: ds).filter (fun d' => d'.name ≠ d.name) = ds := by
    rw [List.filter_cons_of_neg (by simp), List.filter_eq_self.mpr (by simpa using other)]
  suffices same : ((l.add owner (d :: ds)).remove d.name).entries = (l.add owner ds).entries from
    congrArg OrderedMap.mk same
  obtain ⟨es⟩ := l
  induction es with
  | nil =>
    show (remove ⟨(add ⟨[]⟩ owner (d :: ds)).entries⟩ d.name).entries = _
    rw [add_empty, if_neg (List.cons_ne_nil d ds), add_empty, remove_cons]
    simp only [Group.without, kept]
    rfl
  | cons e es ih =>
    obtain ⟨some, inhabited⟩ := List.forall_mem_cons.mp inhabited
    rw [claimed_cons, List.forall_mem_append] at fresh
    show (remove ⟨(add ⟨e :: es⟩ owner (d :: ds)).entries⟩ d.name).entries = _
    rw [add_cons, add_cons]
    split
    · have left : Group.without d.name { e.2 with descriptors := e.2.descriptors ++ d :: ds } =
          { e.2 with descriptors := e.2.descriptors ++ ds } := by
        unfold Group.without
        rw [List.filter_append, kept, List.filter_eq_self.mpr (by simpa using fresh.1)]
      rw [remove_cons, left, if_neg (by simp [some]), remove_of_fresh inhabited fresh.2]
    · rw [remove_cons, without_of_fresh fresh.1, if_neg some, ih inhabited fresh.2]

theorem keys_remove (l : Ledger) (name : String) : (l.remove name).keys.Sublist l.keys := by
  have same : (l.entries.map fun e => (e.1, e.2.without name)).map Prod.fst = l.keys := by
    rw [List.map_map]
    rfl
  rw [← same]
  exact List.filter_sublist.map Prod.fst

theorem shown_cons (e : OwnerId × Group) (es : List (OwnerId × Group)) (owner : OwnerId) :
    shown ⟨e :: es⟩ (some owner) = if e.1 = owner then e.2.descriptors else shown ⟨es⟩ (some owner) := by
  by_cases same : e.1 = owner <;> simp [shown, OrderedMap.get?, OrderedMap.find, same]

theorem shown_of_absent {owner : OwnerId} (absent : owner ∉ l.keys) : l.shown (some owner) = [] := by
  simp only [shown, OrderedMap.get?, OrderedMap.find_eq_none_iff.mpr absent, Option.elim_none]

theorem shown_remove (sound : l.Sound) (name : String) (owner : OwnerId) :
    (l.remove name).shown (some owner) = (l.shown (some owner)).filter fun d => d.name ≠ name := by
  have distinct := sound.owners
  clear sound
  obtain ⟨es⟩ := l
  induction es with
  | nil => rfl
  | cons e es ih =>
    obtain ⟨missing, distinct⟩ := List.nodup_cons.mp distinct
    have rest := ih distinct
    show shown ⟨(remove ⟨e :: es⟩ name).entries⟩ _ = _
    rw [remove_cons, shown_cons]
    by_cases same : e.1 = owner
    · subst same
      rw [if_pos rfl]
      split
      · rename_i left
        rw [shown_of_absent (l := ⟨es⟩) missing] at rest
        exact rest.trans left.symm
      · rw [shown_cons, if_pos rfl]
        rfl
    · rw [if_neg same]
      split
      · exact rest
      · rw [shown_cons, if_neg same]
        exact rest

theorem shown_erase (sound : l.Sound) (owner o : OwnerId) :
    (shown (l.erase owner) (some o)).Sublist (l.shown (some o)) := by
  have distinct := sound.owners
  clear sound
  obtain ⟨es⟩ := l
  induction es with
  | nil => exact List.Sublist.refl _
  | cons e es ih =>
    obtain ⟨missing, distinct⟩ := List.nodup_cons.mp distinct
    unfold OrderedMap.erase OrderedMap.drop
    rw [shown_cons]
    by_cases gone : e.1 = owner
    · rw [if_pos gone]
      by_cases same : e.1 = o
      · subst same
        rw [shown_of_absent (l := ⟨es⟩) missing]
        exact List.nil_sublist _
      · rw [if_neg same]
    · rw [if_neg gone, shown_cons]
      by_cases same : e.1 = o
      · rw [if_pos same, if_pos same]
      · rw [if_neg same, if_neg same]
        exact ih distinct

theorem keys_erase (sound : l.Sound) (owner : OwnerId) : (l.erase owner).keys.Sublist l.keys := by
  unfold OrderedMap.erase OrderedMap.keys
  rw [OrderedMap.drop_eq_filter sound.owners]
  exact List.filter_sublist.map Prod.fst

end Ledger

end Switchboard.Attribute
