import Mathlib.Data.List.Nodup
import Switchboard.OrderedMap

/-!
Lists and ordered maps whose keys are distinct: removing the first entry with a key removes the key.
-/

namespace Switchboard

variable {α κ ν : Type} [DecidableEq κ]

theorem eraseP_eq_filter {xs : List α} (key : α → κ) (distinct : (xs.map key).Nodup) (k : κ) :
    xs.eraseP (fun x => key x == k) = xs.filter fun x => key x ≠ k := by
  induction xs with
  | nil => rfl
  | cons x rest ih =>
    obtain ⟨missing, distinct⟩ := List.nodup_cons.mp distinct
    by_cases same : key x = k
    · have kept : rest.filter (fun x => key x ≠ k) = rest := by
        apply List.filter_eq_self.mpr
        intro y member
        have other : key y ≠ k := fun equal => missing (same ▸ equal ▸ List.mem_map_of_mem member)
        simpa using other
      rw [List.eraseP_cons_of_pos (by simpa using same), List.filter_cons_of_neg (by simpa using same), kept]
    · rw [List.eraseP_cons_of_neg (by simpa using same), List.filter_cons_of_pos (by simpa using same), ih distinct]

theorem find?_key_iff {xs : List α} (key : α → κ) (distinct : (xs.map key).Nodup) {k : κ} {x : α} :
    (xs.find? fun x => key x == k) = some x ↔ x ∈ xs ∧ key x = k := by
  constructor
  · intro found
    exact ⟨List.mem_of_find?_eq_some found, by simpa using List.find?_some found⟩
  · rintro ⟨member, rfl⟩
    have present : (xs.find? fun y => key y == key x).isSome = true := List.find?_isSome.mpr ⟨x, member, by simp⟩
    obtain ⟨y, found⟩ := Option.isSome_iff_exists.mp present
    have same : key y = key x := by simpa using List.find?_some found
    rw [found, List.inj_on_of_nodup_map distinct (List.mem_of_find?_eq_some found) member same]

namespace OrderedMap

theorem find_eq_none_iff {l : List (κ × ν)} {k : κ} : find l k = none ↔ k ∉ l.map Prod.fst := by
  induction l with
  | nil => simp [find]
  | cons e rest ih =>
    rw [List.map_cons, List.mem_cons, not_or]
    by_cases same : e.1 = k
    · simp [find, same]
    · simp [find, same, ih, Ne.symm same]

theorem contains_iff {m : OrderedMap κ ν} {k : κ} : m.contains k = true ↔ k ∈ m.keys := by
  unfold contains get? keys
  rw [← Option.ne_none_iff_isSome, ne_eq, find_eq_none_iff, Decidable.not_not]

theorem find_eq_some_iff {l : List (κ × ν)} (distinct : (l.map Prod.fst).Nodup) {k : κ} {v : ν} :
    find l k = some v ↔ (k, v) ∈ l := by
  induction l with
  | nil => simp [find]
  | cons e rest ih =>
    obtain ⟨k', v'⟩ := e
    obtain ⟨missing, distinct⟩ := List.nodup_cons.mp distinct
    rw [find, List.mem_cons]
    by_cases same : k' = k
    · subst same
      have absent : (k', v) ∉ rest := fun member => missing (List.mem_map.mpr ⟨_, member, rfl⟩)
      simp [absent, eq_comm]
    · simp [same, Ne.symm same, ih distinct]

theorem mem_of_find {l : List (κ × ν)} {k : κ} {v : ν} (found : find l k = some v) : (k, v) ∈ l := by
  induction l with
  | nil => cases found
  | cons e rest ih =>
    obtain ⟨k', v'⟩ := e
    rw [find] at found
    by_cases same : k' = k
    · rw [if_pos same] at found
      cases found
      exact same ▸ List.mem_cons_self
    · rw [if_neg same] at found
      exact List.mem_cons_of_mem _ (ih found)

theorem drop_eq_filter {l : List (κ × ν)} (distinct : (l.map Prod.fst).Nodup) (k : κ) :
    drop l k = l.filter fun e => e.1 ≠ k := by
  rw [← eraseP_eq_filter Prod.fst distinct k]
  clear distinct
  induction l with
  | nil => rfl
  | cons e rest ih => by_cases same : e.1 = k <;> simp [drop, same, ih]

theorem find_filter {l : List (κ × ν)} (distinct : (l.map Prod.fst).Nodup) (p : κ × ν → Bool) (k : κ) :
    find (l.filter p) k = (find l k).filter fun v => p (k, v) := by
  ext v
  rw [find_eq_some_iff (distinct.sublist (List.filter_sublist.map _)), List.mem_filter, Option.filter_eq_some_iff,
    find_eq_some_iff distinct]

/-- With distinct keys the entries can be read off their keys. -/
theorem entries_eq_filterMap {l : List (κ × ν)} (distinct : (l.map Prod.fst).Nodup) :
    l = (l.map Prod.fst).filterMap fun k => (find l k).map (k, ·) := by
  have read : ∀ e ∈ l, ((fun k => (find l k).map (k, ·)) ∘ Prod.fst) e = some e := by
    intro e member
    rw [Function.comp_apply, (find_eq_some_iff distinct).mpr member, Option.map_some]
  rw [List.filterMap_map, List.filterMap_congr read, List.filterMap_some]

theorem put_of_absent {l : List (κ × ν)} {k : κ} (absent : k ∉ l.map Prod.fst) (v : ν) :
    put l k v = l ++ [(k, v)] := by
  induction l with
  | nil => rfl
  | cons e rest ih =>
    rw [List.map_cons, List.mem_cons, not_or] at absent
    rw [put, if_neg (Ne.symm absent.1), ih absent.2, List.cons_append]

theorem put_of_present {l : List (κ × ν)} (distinct : (l.map Prod.fst).Nodup) {k : κ} (present : k ∈ l.map Prod.fst)
    (v : ν) : put l k v = l.map fun e => if e.1 = k then (k, v) else e := by
  induction l with
  | nil => simp at present
  | cons e rest ih =>
    obtain ⟨missing, distinct⟩ := List.nodup_cons.mp distinct
    by_cases same : e.1 = k
    · have kept : rest.map (fun e => if e.1 = k then (k, v) else e) = rest := by
        rw [List.map_congr_left (g := id), List.map_id]
        intro e' member
        have other : e'.1 ≠ k := fun equal => missing (same ▸ equal ▸ List.mem_map_of_mem member)
        rw [if_neg other, id]
      rw [put, if_pos same, List.map_cons, if_pos same, kept]
    · have later : k ∈ rest.map Prod.fst := by
        rcases List.mem_cons.mp present with here | later
        · exact absurd here.symm same
        · exact later
      rw [put, if_neg same, List.map_cons, if_neg same, ih distinct later]

theorem put_keys (l : List (κ × ν)) (k : κ) (v : ν) :
    (put l k v).map Prod.fst = if k ∈ l.map Prod.fst then l.map Prod.fst else l.map Prod.fst ++ [k] := by
  induction l with
  | nil => rfl
  | cons e rest ih =>
    by_cases same : e.1 = k
    · subst same
      simp [put]
    · rw [put, if_neg same, List.map_cons, List.map_cons, ih]
      simp only [List.mem_cons, Ne.symm same, false_or]
      split <;> rfl

theorem put_nodup {l : List (κ × ν)} (distinct : (l.map Prod.fst).Nodup) (k : κ) (v : ν) :
    ((put l k v).map Prod.fst).Nodup := by
  rw [put_keys]
  split
  · exact distinct
  · rename_i absent
    rw [← List.concat_eq_append]
    exact List.Nodup.concat absent distinct

theorem put_put (l : List (κ × ν)) (k : κ) (v w : ν) : put (put l k v) k w = put l k w := by
  induction l with
  | nil => simp [put]
  | cons e rest ih => by_cases same : e.1 = k <;> simp [put, same, ih]

theorem insert_insert (m : OrderedMap κ ν) (k : κ) (v w : ν) : (m.insert k v).insert k w = m.insert k w :=
  congrArg OrderedMap.mk (put_put m.entries k v w)

/-- Entries that are read off other data are found by the key of that data. -/
theorem find_map (l : List α) (key : α → κ) (value : α → ν) (k : κ) :
    find (l.map fun a => (key a, value a)) k = (l.find? fun a => key a == k).map value := by
  induction l with
  | nil => rfl
  | cons a rest ih => by_cases same : key a = k <;> simp [find, same, ih]

end OrderedMap

end Switchboard
