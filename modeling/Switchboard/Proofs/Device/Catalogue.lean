import Mathlib.Logic.Function.Basic
import Switchboard.Device.Guard
import Switchboard.Proofs.OrderedMap

/-!
Catalogues of live devices: for each class the ids in use with their devices, in order. A catalogue is what a
directory shows. Every operation on a directory shows as the operation of that name on its catalogue, and
pruning does not show.
-/

namespace Switchboard.Device

/-- For each class, the ids in use and their devices, in order. -/
abbrev Catalogue := Class → OrderedMap String DeviceId

namespace Catalogue

/-- A new id comes last. An id in use is refused, or gets the device where it stands. -/
def register (t : Catalogue) (device : DeviceId) (key : Key) (takeOver : Bool) : Except Error Unit × Catalogue :=
  if (t key.deviceClass).contains key.id && !takeOver then (.error (.duplicate key), t)
  else (.ok (), Function.update t key.deviceClass ((t key.deviceClass).insert key.id device))

/-- Class, id and device must all be right. -/
def unregister (t : Catalogue) (device : DeviceId) (key : Key) : Except Error Unit × Catalogue :=
  if (t key.deviceClass).get? key.id = some device then
    (.ok (), Function.update t key.deviceClass ((t key.deviceClass).erase key.id))
  else (.error (.notFound key), t)

def attach (t : Catalogue) (device : DeviceId) (own : Key) (takeOver : Bool) : Except Error Guard × Catalogue :=
  match t.register device own takeOver with
  | (.ok (), t) => (.ok ⟨device, [own]⟩, t)
  | (.error e, t) => (.error e, t)

def addInterface (t : Catalogue) (alive : DeviceId → Bool) (g : Guard) (key : Key) (takeOver : Bool) :
    Except Error Unit × Guard × Catalogue :=
  if alive g.device then
    match t.register g.device key takeOver with
    | (.ok (), t) => (.ok (), { g with keys := g.keys ++ [key] }, t)
    | (.error e, t) => (.error e, g, t)
  else (.error (.notFound key), g, t)

def release (t : Catalogue) (g : Guard) : Catalogue := g.keys.foldl (fun t key => (t.unregister g.device key).2) t

def lose (t : Catalogue) (device : DeviceId) : Catalogue := fun c => ⟨(t c).entries.filter fun e => e.2 ≠ device⟩

/-! ### Looking up -/

def lookup (t : Catalogue) (key : Key) : Option DeviceId := (t key.deviceClass).get? key.id

def lookupAs (t : Catalogue) (isKind : DeviceId → Bool) (key : Key) : Option DeviceId :=
  (t.lookup key).filter isKind

def first (t : Catalogue) (c : Class) : Option DeviceId := (t c).values.head?

def size (t : Catalogue) (c : Class) : Nat := (t c).size

def isEmpty (t : Catalogue) : Bool := Class.all.all fun c => (t c).isEmpty

def rows (t : Catalogue) (nameOf : DeviceId → String) (wanted : Option Class) : List String :=
  (wanted.elim Class.all fun c => [c]).flatMap fun c => (t c).entries.map fun e => s!"{c}:{e.1} {nameOf e.2}\n"

/-- The lines, and a last one with their number. -/
def dump (t : Catalogue) (nameOf : DeviceId → String) (wanted : Option Class) : String :=
  String.join (t.rows nameOf wanted) ++ s!"Total: {(t.rows nameOf wanted).length}\n"

section

variable {t : Catalogue} {device : DeviceId} {key : Key} {takeOver : Bool} {e : Error}

/-! ### Calls that are refused -/

theorem register_refused (refused : (t.register device key takeOver).1 = .error e) :
    (t.register device key takeOver).2 = t := by
  unfold register at refused ⊢
  split
  · rfl
  · rename_i free
    rw [if_neg free] at refused
    cases refused

theorem unregister_refused (refused : (t.unregister device key).1 = .error e) :
    (t.unregister device key).2 = t := by
  unfold unregister at refused ⊢
  split
  · rename_i found
    rw [if_pos found] at refused
    cases refused
  · rfl

theorem attach_refused (refused : (t.attach device key takeOver).1 = .error e) :
    (t.attach device key takeOver).2 = t := by
  unfold attach at refused ⊢
  split
  · rename_i result
    rw [result] at refused
    cases refused
  · rename_i result
    have same := register_refused (congrArg Prod.fst result)
    rwa [result] at same

theorem addInterface_refused {alive : DeviceId → Bool} {g : Guard}
    (refused : (t.addInterface alive g key takeOver).1 = .error e) :
    (t.addInterface alive g key takeOver).2 = (g, t) := by
  unfold addInterface at refused ⊢
  split
  · rename_i awake
    rw [if_pos awake] at refused
    split
    · rename_i result
      rw [result] at refused
      cases refused
    · rename_i t' result
      have same : t' = t := by
        rw [← register_refused (congrArg Prod.fst result), result]
      rw [same]
  · rfl

end

/-! ### Distinct ids -/

/-- No id stands twice in a class. -/
def Distinct (t : Catalogue) : Prop := ∀ c, (t c).keys.Nodup

variable {t : Catalogue} {device : DeviceId} {key : Key}

theorem update_distinct (distinct : t.Distinct) {c : Class} {ids : OrderedMap String DeviceId} (h : ids.keys.Nodup) :
    Catalogue.Distinct (Function.update t c ids) := by
  intro c'
  by_cases same : c' = c
  · subst same
    rwa [Function.update_self]
  · rw [Function.update_of_ne same]
    exact distinct c'

theorem register_distinct (distinct : t.Distinct) (device : DeviceId) (key : Key) (takeOver : Bool) :
    (t.register device key takeOver).2.Distinct := by
  unfold register
  split
  · exact distinct
  · exact update_distinct distinct (OrderedMap.put_nodup (distinct _) _ _)

theorem unregister_distinct (distinct : t.Distinct) (device : DeviceId) (key : Key) :
    (t.unregister device key).2.Distinct := by
  unfold unregister
  split
  · apply update_distinct distinct
    unfold OrderedMap.keys OrderedMap.erase
    rw [OrderedMap.drop_eq_filter (distinct _)]
    exact (distinct _).sublist (List.filter_sublist.map _)
  · exact distinct

theorem attach_distinct (distinct : t.Distinct) (takeOver : Bool) : (t.attach device key takeOver).2.Distinct := by
  have registered := register_distinct distinct device key takeOver
  unfold attach
  split
  · rename_i result
    rwa [result] at registered
  · rename_i result
    rwa [result] at registered

theorem addInterface_distinct (distinct : t.Distinct) (alive : DeviceId → Bool) (g : Guard) (takeOver : Bool) :
    (t.addInterface alive g key takeOver).2.2.Distinct := by
  have registered := register_distinct distinct g.device key takeOver
  unfold addInterface
  split
  · split
    · rename_i result
      rwa [result] at registered
    · rename_i result
      rwa [result] at registered
  · exact distinct

theorem release_distinct (distinct : t.Distinct) (g : Guard) : (t.release g).Distinct := by
  unfold release
  generalize g.keys = keys
  induction keys generalizing t with
  | nil => exact distinct
  | cons key rest ih => exact ih (unregister_distinct distinct g.device key)

theorem lose_distinct (distinct : t.Distinct) (device : DeviceId) : (t.lose device).Distinct := fun c =>
  (distinct c).sublist (List.filter_sublist.map _)

/-- Unregistering takes the entry away that is right in all three, if there is one. -/
theorem unregister_eq_filter (distinct : t.Distinct) (device : DeviceId) (key : Key) :
    (t.unregister device key).2 = fun c =>
      ⟨(t c).entries.filter fun e => !((⟨c, e.1⟩ : Key) = key && e.2 == device)⟩ := by
  have unique := fun other => OrderedMap.find_eq_some_iff (distinct key.deviceClass) (k := key.id) (v := other)
  funext c
  unfold unregister
  by_cases found : (t key.deviceClass).get? key.id = some device
  · rw [if_pos found]
    by_cases same : c = key.deviceClass
    · subst same
      simp only [Function.update_self]
      unfold OrderedMap.erase
      rw [OrderedMap.drop_eq_filter (distinct _)]
      congr 1
      apply List.filter_congr
      rintro ⟨id, other⟩ member
      by_cases named : id = key.id
      · subst named
        have here := found.symm.trans ((unique other).mpr member)
        simp [Option.some.inj here]
      · have differ : (⟨key.deviceClass, id⟩ : Key) ≠ key := fun equal => named (congrArg Key.id equal)
        simp [named, differ]
    · simp only [Function.update_of_ne same]
      rw [List.filter_eq_self.mpr]
      rintro ⟨id, other⟩ _
      have differ : (⟨c, id⟩ : Key) ≠ key := fun equal => same (congrArg Key.deviceClass equal)
      simp [differ]
  · rw [if_neg found, List.filter_eq_self.mpr]
    rintro ⟨id, other⟩ member
    have differ : ¬((⟨c, id⟩ : Key) = key ∧ other = device) := by
      rintro ⟨rfl, rfl⟩
      exact found ((unique other).mpr member)
    simpa [-not_and, Decidable.not_and_iff_or_not] using differ

end Catalogue

namespace Directory

variable {alive : DeviceId → Bool} {d : Directory} {device : DeviceId} {key : Key}

/-- What a directory shows. -/
def live (alive : DeviceId → Bool) (d : Directory) : Catalogue := fun c =>
  ⟨(d.visible alive c).map fun e => (e.key.id, e.device)⟩

theorem mem_live {c : Class} {id : String} :
    (id, device) ∈ (d.live alive c).entries ↔ ⟨⟨c, id⟩, device⟩ ∈ d.entries ∧ alive device = true := by
  unfold live visible
  simp only [List.mem_map, List.mem_filter, Bool.and_eq_true, decide_eq_true_eq]
  constructor
  · rintro ⟨⟨⟨c', id'⟩, device'⟩, ⟨present, rfl, awake⟩, same⟩
    obtain ⟨rfl, rfl⟩ := Prod.mk.inj same
    exact ⟨present, awake⟩
  · rintro ⟨present, awake⟩
    exact ⟨_, ⟨present, rfl, awake⟩, rfl⟩

theorem live_values {c : Class} (present : device ∈ (d.live alive c).values) : alive device = true := by
  obtain ⟨⟨id, device⟩, member, rfl⟩ := List.mem_map.mp present
  exact (mem_live.mp member).2

/-! ### Removing entries -/

theorem filter_live (p : Entry → Bool) :
    live alive ⟨d.entries.filter p⟩ = fun c => ⟨(d.live alive c).entries.filter fun e => p ⟨⟨c, e.1⟩, e.2⟩⟩ := by
  funext c
  unfold live visible
  simp only [List.filter_map, List.filter_filter]
  congr 2
  apply List.filter_congr
  rintro ⟨⟨c', id⟩, device⟩ _
  by_cases same : c' = c <;> simp [same, Bool.and_comm]

/-- Removing entries of devices that are gone does not show. -/
theorem filter_live_of_alive {p : Entry → Bool} (kept : ∀ e, alive e.device = true → p e = true) :
    live alive ⟨d.entries.filter p⟩ = d.live alive := by
  rw [filter_live]
  funext c
  have all : (d.live alive c).entries.filter (fun e => p ⟨⟨c, e.1⟩, e.2⟩) = (d.live alive c).entries := by
    apply List.filter_eq_self.mpr
    rintro ⟨id, device⟩ member
    exact kept _ (mem_live.mp member).2
  rw [all]

theorem prune_live (c : Class) : (d.prune alive c).live alive = d.live alive :=
  filter_live_of_alive fun e awake => by simp [awake]

theorem forget_live (key : Key) : (d.forget alive key).live alive = d.live alive :=
  filter_live_of_alive fun e awake => by simp [awake]

theorem lose_live (device : DeviceId) :
    d.live (fun o => alive o && o ≠ device) = (d.live alive).lose device := by
  funext c
  unfold live Catalogue.lose visible
  simp only [List.filter_map, List.filter_filter]
  congr 2
  apply List.filter_congr
  rintro ⟨⟨c', id⟩, other⟩ _
  by_cases same : other = device <;> simp [same, Bool.and_comm]

/-- An entry with this key and this living device shows as the id with its device. -/
theorem any_entry_live (awake : alive device = true) (distinct : (d.live alive).Distinct) :
    (d.entries.any fun e => e.key = key && e.device == device) = true ↔
      ((d.live alive) key.deviceClass).get? key.id = some device := by
  unfold OrderedMap.get?
  rw [OrderedMap.find_eq_some_iff (distinct _), mem_live, List.any_eq_true]
  constructor
  · rintro ⟨⟨_, _⟩, member, same⟩
    simp only [Bool.and_eq_true, decide_eq_true_eq, beq_iff_eq] at same
    obtain ⟨rfl, rfl⟩ := same
    exact ⟨member, awake⟩
  · rintro ⟨member, _⟩
    exact ⟨_, member, by simp⟩

theorem unregister_live (awake : alive device = true) (distinct : (d.live alive).Distinct) (key : Key) :
    ((d.unregister alive device key).1, (d.unregister alive device key).2.live alive) =
      (d.live alive).unregister device key := by
  have answer : (d.unregister alive device key).1 = ((d.live alive).unregister device key).1 := by
    unfold unregister Catalogue.unregister
    by_cases found : ((d.live alive) key.deviceClass).get? key.id = some device
    · rw [if_pos found]
      exact if_pos ((any_entry_live awake distinct).mpr found)
    · rw [if_neg found]
      exact if_neg fun present => found ((any_entry_live awake distinct).mp present)
  have shown : (d.unregister alive device key).2.live alive = ((d.live alive).unregister device key).2 := by
    rw [Catalogue.unregister_eq_filter distinct]
    unfold unregister
    rw [prune_live, filter_live]
  rw [answer, shown]

/-- A device that is gone has no id left to lose. -/
theorem unregister_gone (gone : alive device = false) (key : Key) :
    (d.live alive).unregister device key = (.error (.notFound key), d.live alive) := by
  unfold Catalogue.unregister
  rw [if_neg]
  intro found
  have awake := (mem_live.mp (OrderedMap.mem_of_find found)).2
  rw [gone] at awake
  cases awake

/-! ### Adding entries -/

theorem contains_live (fresh : ∀ e ∈ d.entries, e.key.deviceClass = key.deviceClass → alive e.device = true) :
    (d.entries.any fun e => e.key = key) = ((d.live alive) key.deviceClass).contains key.id := by
  rw [Bool.eq_iff_iff]
  unfold OrderedMap.contains OrderedMap.get?
  rw [List.any_eq_true, ← Option.ne_none_iff_isSome, ne_eq, OrderedMap.find_eq_none_iff, not_not, List.mem_map]
  constructor
  · rintro ⟨⟨_, device⟩, member, same⟩
    obtain rfl := of_decide_eq_true same
    exact ⟨(_, device), mem_live.mpr ⟨member, fresh _ member rfl⟩, rfl⟩
  · rintro ⟨⟨id, device⟩, member, rfl⟩
    exact ⟨_, (mem_live.mp member).1, by simp⟩

theorem redirect_live (fresh : ∀ e ∈ d.entries, e.key.deviceClass = key.deviceClass → alive e.device = true)
    (awake : alive device = true) :
    (d.redirect key device).live alive = Function.update (d.live alive) key.deviceClass
      ⟨((d.live alive) key.deviceClass).entries.map fun e => if e.1 = key.id then (key.id, device) else e⟩ := by
  funext c
  have shown : ((d.redirect key device).visible alive c) =
      (d.visible alive c).map fun e => if e.key = key then { e with device } else e := by
    unfold redirect visible
    rw [List.filter_map]
    congr 1
    apply List.filter_congr
    rintro ⟨k, other⟩ member
    by_cases same : k = key
    · subst same
      simp [awake, fresh _ member rfl]
    · simp [same]
  by_cases same : c = key.deviceClass
  · subst same
    rw [Function.update_self]
    unfold live
    rw [shown, List.map_map, List.map_map]
    congr 1
    apply List.map_congr_left
    rintro ⟨⟨c, id⟩, other⟩ member
    obtain ⟨rfl, _⟩ : c = key.deviceClass ∧ alive other = true := by simpa using (List.mem_filter.mp member).2
    by_cases named : id = key.id
    · subst named
      simp
    · have differ : (⟨key.deviceClass, id⟩ : Key) ≠ key := fun equal => named (congrArg Key.id equal)
      simp [named, differ]
  · have kept : ((d.visible alive c).map fun e => if e.key = key then { e with device } else e) = d.visible alive c := by
      rw [List.map_congr_left (g := id), List.map_id]
      rintro ⟨⟨c', id'⟩, other⟩ member
      obtain ⟨rfl, _⟩ : c' = c ∧ alive other = true := by simpa using (List.mem_filter.mp member).2
      exact if_neg fun equal => same (congrArg Key.deviceClass equal)
    rw [Function.update_of_ne same]
    unfold live
    rw [shown, kept]

theorem append_live (awake : alive device = true) (key : Key) :
    live alive ⟨d.entries ++ [⟨key, device⟩]⟩ = Function.update (d.live alive) key.deviceClass
      ⟨((d.live alive) key.deviceClass).entries ++ [(key.id, device)]⟩ := by
  funext c
  by_cases same : c = key.deviceClass
  · subst same
    rw [Function.update_self]
    simp [live, visible, awake]
  · rw [Function.update_of_ne same]
    simp [live, visible, Ne.symm same]

theorem register_live (awake : alive device = true) (distinct : (d.live alive).Distinct) (key : Key) (takeOver : Bool) :
    ((d.register alive device key takeOver).1, (d.register alive device key takeOver).2.live alive) =
      (d.live alive).register device key takeOver := by
  have pruned : (d.prune alive key.deviceClass).live alive = d.live alive := prune_live key.deviceClass
  have fresh : ∀ e ∈ (d.prune alive key.deviceClass).entries, e.key.deviceClass = key.deviceClass →
      alive e.device = true := by
    intro e member same
    simpa [same] using (List.mem_filter.mp member).2
  have known := contains_live fresh
  unfold register Catalogue.register
  simp only [known, pruned]
  by_cases present : ((d.live alive) key.deviceClass).contains key.id = true
  · cases takeOver with
    | false => simp [present, pruned]
    | true =>
      have replaced := redirect_live fresh awake
      rw [pruned, ← OrderedMap.put_of_present (distinct _) (OrderedMap.contains_iff.mp present)] at replaced
      simp only [present, Bool.not_true, Bool.and_false, Bool.false_eq_true, if_true, if_false, replaced]
      rfl
  · have appended := append_live (d := d.prune alive key.deviceClass) awake key
    rw [pruned, ← OrderedMap.put_of_absent (mt OrderedMap.contains_iff.mpr present)] at appended
    simp only [present, Bool.false_and, Bool.false_eq_true, if_false, appended]
    rfl

/-! ### Guards -/

theorem attach_live (awake : alive device = true) (distinct : (d.live alive).Distinct) (own : Key) (takeOver : Bool) :
    ((d.attach alive device own takeOver).1, (d.attach alive device own takeOver).2.live alive) =
      (d.live alive).attach device own takeOver := by
  have registered := register_live awake distinct own takeOver
  unfold attach Catalogue.attach
  rw [← registered]
  generalize d.register alive device own takeOver = outcome
  obtain ⟨_ | _, _⟩ := outcome <;> rfl

theorem addInterface_live (distinct : (d.live alive).Distinct) (g : Guard) (key : Key) (takeOver : Bool) :
    ((d.addInterface alive g key takeOver).1, (d.addInterface alive g key takeOver).2.1,
      (d.addInterface alive g key takeOver).2.2.live alive) = (d.live alive).addInterface alive g key takeOver := by
  unfold addInterface Catalogue.addInterface
  by_cases awake : alive g.device = true
  · have registered := register_live awake distinct key takeOver
    rw [if_pos awake, if_pos awake, ← registered]
    generalize d.register alive g.device key takeOver = outcome
    obtain ⟨_ | _, _⟩ := outcome <;> rfl
  · rw [if_neg awake, if_neg awake]

theorem release_live (distinct : (d.live alive).Distinct) (g : Guard) :
    (d.release alive g).live alive = (d.live alive).release g := by
  unfold release Catalogue.release
  by_cases awake : alive g.device = true
  · rw [if_pos awake]
    induction g.keys generalizing d with
    | nil => rfl
    | cons key rest ih =>
      have step : (d.unregister alive g.device key).2.live alive = ((d.live alive).unregister g.device key).2 :=
        congrArg Prod.snd (unregister_live awake distinct key)
      have kept := Catalogue.unregister_distinct distinct g.device key
      rw [List.foldl_cons, List.foldl_cons, ← step]
      exact ih (step ▸ kept)
  · -- What is left of a device that is gone is only forgotten, and was not shown.
    rw [if_neg awake]
    induction g.keys generalizing d with
    | nil => rfl
    | cons key rest ih =>
      have still := unregister_gone (d := d) (by simpa using awake) key
      rw [List.foldl_cons, List.foldl_cons, still, ← forget_live (d := d) key]
      exact ih (by rwa [forget_live])

/-! ### Looking up -/

theorem lookup_live (key : Key) : d.lookup alive key = (d.live alive).lookup key :=
  (OrderedMap.find_map (d.visible alive key.deviceClass) (fun e => e.key.id) Entry.device key.id).symm

theorem lookupAs_live (isKind : DeviceId → Bool) (key : Key) :
    d.lookupAs alive isKind key = (d.live alive).lookupAs isKind key := by
  unfold lookupAs Catalogue.lookupAs
  rw [lookup_live]

theorem first_live (c : Class) : d.first alive c = (d.live alive).first c := by
  unfold first Catalogue.first OrderedMap.values live
  rw [List.map_map, List.head?_map]
  rfl

theorem size_live (c : Class) : d.size alive c = (d.live alive).size c := by
  unfold size Catalogue.size OrderedMap.size live
  rw [List.length_map]

theorem isEmpty_live : d.isEmpty alive = (d.live alive).isEmpty := by
  unfold isEmpty Catalogue.isEmpty OrderedMap.isEmpty live
  simp only [List.isEmpty_map]

theorem rows_live (nameOf : DeviceId → String) (wanted : Option Class) :
    ((d.listed alive wanted).map fun e => s!"{e.key.deviceClass}:{e.key.id} {nameOf e.device}\n") =
      (d.live alive).rows nameOf wanted := by
  have classes : (Class.all.filter fun c => wanted.all (· == c)) = wanted.elim Class.all fun c => [c] := by
    cases wanted with
    | none => rfl
    | some c => cases c <;> rfl
  unfold listed Catalogue.rows live
  rw [classes, List.map_flatMap]
  apply List.flatMap_congr
  intro c _
  rw [List.map_map]
  apply List.map_congr_left
  rintro ⟨⟨c', id⟩, device⟩ member
  obtain ⟨rfl, _⟩ : c' = c ∧ alive device = true := by simpa using (List.mem_filter.mp member).2
  rfl

theorem dump_live (nameOf : DeviceId → String) (wanted : Option Class) :
    d.dump alive nameOf wanted = (d.live alive).dump nameOf wanted := by
  unfold dump Catalogue.dump
  rw [← rows_live, List.length_map]

end Directory

end Switchboard.Device
