import Switchboard.Command.Edit
import Switchboard.Proofs.OrderedMap

/-!
The parameters of a command as an ordered map. A sheet lists distinct names in an order and gives each of them a value,
with no list of entries to search; a command that has been through any history of edits shows what the sheet shows that
has been through the same history, and carries the heading its origin and priority edits have left.
-/

namespace Switchboard.Command

/-- Names in an order, each with one value; a name that is not listed has none. -/
structure Sheet where
  names : List String
  value : String → Option String
  distinct : names.Nodup
  listed : ∀ name, name ∈ names ↔ (value name).isSome = true

namespace Sheet

def blank : Sheet where
  names := []
  value _ := none
  distinct := List.nodup_nil
  listed name := by simp

/-- A new name comes last; a listed one gets the value where it stands. -/
def set (s : Sheet) (name value : String) : Sheet where
  names := if name ∈ s.names then s.names else s.names ++ [name]
  value n := if n = name then some value else s.value n
  distinct := by
    split
    · exact s.distinct
    · rename_i new
      rw [← List.concat_eq_append]
      exact List.Nodup.concat new s.distinct
  listed n := by
    by_cases same : n = name
    · subst same
      by_cases present : n ∈ s.names <;> simp [present]
    · by_cases present : name ∈ s.names <;> simp [same, present, s.listed n]

/-- The others move together and keep their order. -/
def remove (s : Sheet) (name : String) : Sheet where
  names := s.names.filter (· ≠ name)
  value n := if n = name then none else s.value n
  distinct := s.distinct.filter _
  listed n := by by_cases same : n = name <;> simp [same, s.listed n]

def pairs (s : Sheet) : List (String × String) := s.names.filterMap fun n => (s.value n).map (n, ·)

def follow (s : Sheet) : Edit → Sheet
  | .set name value => s.set name value
  | .setAll given => given.foldl (fun s p => s.set p.1 p.2) s
  | .remove name => s.remove name
  | _ => s

end Sheet

/-- All of a command but its parameters. -/
structure Heading where
  type : UInt16
  deviceClass : Device.Class
  deviceId : String
  origin : String
  priority : Int32
deriving DecidableEq

def Heading.follow (h : Heading) : Edit → Heading
  | .setOrigin origin => { h with origin }
  | .setPriority priority => { h with priority }
  | _ => h

def heading (c : Command) : Heading := ⟨c.type, c.deviceClass, c.deviceId, c.origin, c.priority⟩

def headed (h : Heading) : Command :=
  { type := h.type, deviceClass := h.deviceClass, deviceId := h.deviceId, origin := h.origin, priority := h.priority }

theorem ext_heading {c d : Command} (headings : c.heading = d.heading) (params : c.params = d.params) : c = d := by
  cases c
  cases d
  cases headings
  cases params
  rfl

theorem withParams_eq_foldl (c : Command) (given : List (String × String)) :
    c.withParams given = given.foldl (fun c p => c.set p.1 p.2) c := by
  induction given generalizing c with
  | nil => rfl
  | cons p rest ih => exact ih (c.set p.1 p.2)

theorem apply_heading (c : Command) (e : Edit) : (e.apply c).2.heading = c.heading.follow e := by cases e <;> rfl

/-! ### A command and its sheet -/

structure Agrees (c : Command) (s : Sheet) : Prop where
  names : c.params.keys = s.names
  value : ∀ name, c.get? name = s.value name

namespace Agrees

variable {c : Command} {s : Sheet}

theorem headed (h : Heading) : Agrees (headed h) .blank := ⟨rfl, fun _ => rfl⟩

theorem named (agrees : Agrees c s) : c.params.entries.map Prod.fst = s.names := agrees.names

theorem distinct (agrees : Agrees c s) : (c.params.entries.map Prod.fst).Nodup := by
  rw [agrees.named]
  exact s.distinct

theorem set (agrees : Agrees c s) (name value : String) : Agrees (c.set name value) (s.set name value) where
  names := by
    have put := OrderedMap.put_keys c.params.entries name value
    rw [agrees.named] at put
    exact put
  value n := by
    by_cases same : n = name
    · subst same
      simp [Command.set, get?, Sheet.set]
    · have kept : (c.set name value).get? n = c.get? n := OrderedMap.get?_insert_other c.params value same
      rw [kept, agrees.value n]
      simp [Sheet.set, same]

theorem setAll (agrees : Agrees c s) (given : List (String × String)) :
    Agrees (c.withParams given) (s.follow (.setAll given)) := by
  rw [withParams_eq_foldl]
  simp only [Sheet.follow]
  induction given generalizing c s with
  | nil => exact agrees
  | cons p rest ih => exact ih (agrees.set p.1 p.2)

theorem remove (agrees : Agrees c s) (name : String) : Agrees (c.remove name) (s.remove name) := by
  have filtered : (c.remove name).params.entries = c.params.entries.filter fun e => e.1 ≠ name :=
    OrderedMap.drop_eq_filter agrees.distinct name
  constructor
  · have kept : (s.remove name).names = s.names.filter (· ≠ name) := rfl
    rw [OrderedMap.keys, filtered, kept, ← agrees.named, List.filter_map]
    rfl
  · intro n
    have found : (c.remove name).get? n = (c.get? n).filter fun _ => n ≠ name := by
      rw [get?, OrderedMap.get?, filtered, OrderedMap.find_filter agrees.distinct]
      rfl
    rw [found, agrees.value n]
    show (s.value n).filter (fun _ => n ≠ name) = if n = name then none else s.value n
    by_cases same : n = name <;> cases s.value n <;> simp [same]

theorem apply (agrees : Agrees c s) (e : Edit) : Agrees (e.apply c).2 (s.follow e) := by
  cases e with
  | set name value => exact agrees.set name value
  | setAll given => exact agrees.setAll given
  | remove name => exact agrees.remove name
  | setOrigin | setPriority => exact ⟨agrees.names, agrees.value⟩
  | get | has | size | params | record | summary | whole | equals => exact agrees

theorem has (agrees : Agrees c s) (name : String) : c.has name = decide (name ∈ s.names) := by
  rw [Bool.eq_iff_iff, decide_eq_true_iff, ← agrees.names]
  exact OrderedMap.contains_iff

theorem size (agrees : Agrees c s) : c.size = s.names.length := by
  rw [← agrees.names]
  exact (List.length_map _).symm

theorem isEmpty (agrees : Agrees c s) : c.params.isEmpty = s.names.isEmpty := by
  rw [← agrees.names]
  exact List.isEmpty_map.symm

theorem entries (agrees : Agrees c s) : c.params.entries = s.pairs := by
  have value : s.value = OrderedMap.find c.params.entries := funext fun n => (agrees.value n).symm
  rw [Sheet.pairs, ← agrees.names, value]
  exact OrderedMap.entries_eq_filterMap agrees.distinct

end Agrees

/-! ### A whole history -/

theorem edit_follows (history : List Edit) (c : Command) (s : Sheet) (agrees : Agrees c s) :
    Agrees (c.edit history).2 (history.foldl Sheet.follow s) := by
  induction history generalizing c s with
  | nil => exact agrees
  | cons e rest ih => exact ih (e.apply c).2 (s.follow e) (agrees.apply e)

theorem edit_heading (history : List Edit) (c : Command) :
    (c.edit history).2.heading = history.foldl Heading.follow c.heading := by
  induction history generalizing c with
  | nil => rfl
  | cons e rest ih =>
    rw [List.foldl_cons, ← apply_heading]
    exact ih (e.apply c).2

/-- Whatever a new command has been through, its parameters are those of the ordered map that has been through the same,
and two commands are equal exactly when their headings and their parameters in order are. -/
theorem parameters_ordered (h : Heading) (history : List Edit) :
    let c := ((headed h).edit history).2
    let s := history.foldl Sheet.follow .blank
    (c.params.entries.map Prod.fst).Nodup ∧
    (∀ name, c.get? name = s.value name) ∧
    (∀ name, c.has name = decide (name ∈ s.names)) ∧
    c.size = s.names.length ∧
    c.params.isEmpty = s.names.isEmpty ∧
    c.params.entries = s.pairs ∧
    (∀ given, c.withParams given = given.foldl (fun c p => c.set p.1 p.2) c) ∧
    c.heading = history.foldl Heading.follow h ∧
    ∀ other : Command, (c == other) = true ↔ c.heading = other.heading ∧ c.params.entries = other.params.entries := by
  intro c s
  have agrees : Agrees c s := edit_follows history (headed h) .blank (.headed h)
  refine ⟨agrees.distinct, agrees.value, agrees.has, agrees.size, agrees.isEmpty, agrees.entries,
    withParams_eq_foldl c, edit_heading history (headed h), fun other => ?_⟩
  rw [beq_iff_eq]
  constructor
  · intro equal
    rw [equal]
    exact ⟨rfl, rfl⟩
  · rintro ⟨headings, entries⟩
    exact ext_heading headings (congrArg OrderedMap.mk entries)

/-- A name that is set again after it was removed comes last. -/
example : (((headed ⟨12, .gprs, "0", "", 0⟩).edit
    [.setAll [("apn", "a"), ("user", "u")], .set "apn" "b", .remove "apn", .set "apn" "c"]).2).params.entries
    = [("user", "u"), ("apn", "c")] := by decide

end Switchboard.Command
