import Mathlib
import Switchboard.Audit.Record

/-!
Audit records can be read back. Every part of a record ends at a character that no text inside it can hold,
so a record tells its command whatever is written after it. Main statement: `journal_decodable`.
-/

namespace Switchboard.Audit

/-! ### Writing that ends by itself -/

/-- From any text that begins with what was written, it can be told what that was and where it ended. -/
def Delimited {α : Type} (write : α → List Char) : Prop :=
  ∀ a b rest rest', write a ++ rest = write b ++ rest' → a = b ∧ rest = rest'

namespace Delimited

variable {α : Type} {write : α → List Char}

theorem injective (delimited : Delimited write) : Function.Injective write := by
  intro a b same
  exact (delimited a b [] [] (by rw [same])).1

theorem flatMap_injective (delimited : Delimited write) (written : ∀ a, write a ≠ []) :
    Function.Injective (List.flatMap write) := by
  intro items others same
  induction items generalizing others with
  | nil =>
    cases others with
    | nil => rfl
    | cons b others => simp [written b] at same
  | cons a items ih =>
    cases others with
    | nil => simp [written a] at same
    | cons b others =>
      simp only [List.flatMap_cons] at same
      obtain ⟨rfl, later⟩ := delimited _ _ _ _ same
      rw [ih later]

/-- Items are told apart up to a text that no item begins with. -/
theorem flatMap_until (delimited : Delimited write) {stop : List Char}
    (apart : ∀ a rest rest', write a ++ rest ≠ stop ++ rest') :
    Delimited fun items : List α => items.flatMap write ++ stop := by
  intro items others rest rest' same
  induction items generalizing others with
  | nil =>
    cases others with
    | nil => exact ⟨rfl, List.append_cancel_left same⟩
    | cons b others =>
      simp only [List.flatMap_nil, List.flatMap_cons, List.nil_append, List.append_assoc] at same
      exact absurd same.symm (apart b _ _)
  | cons a items ih =>
    cases others with
    | nil =>
      simp only [List.flatMap_nil, List.flatMap_cons, List.nil_append, List.append_assoc] at same
      exact absurd same (apart a _ _)
    | cons b others =>
      simp only [List.flatMap_cons, List.append_assoc] at same
      obtain ⟨rfl, later⟩ := delimited _ _ _ _ same
      simp only [← List.append_assoc] at later
      obtain ⟨rfl, left⟩ := ih others later
      exact ⟨rfl, left⟩

end Delimited

/-- A text ends at the first character that is not in it. -/
theorem append_cons_inj {stop : Char} {s t rest rest' : List Char} (absent : stop ∉ s) (absent' : stop ∉ t)
    (same : s ++ stop :: rest = t ++ stop :: rest') : s = t ∧ rest = rest' := by
  induction s generalizing t with
  | nil =>
    cases t with
    | nil => exact ⟨rfl, (List.cons.inj same).2⟩
    | cons d t => exact absurd (List.cons.inj same).1 (List.ne_of_not_mem_cons absent')
  | cons c s ih =>
    cases t with
    | nil => exact absurd (List.cons.inj same).1.symm (List.ne_of_not_mem_cons absent)
    | cons d t =>
      obtain ⟨rfl, later⟩ := List.cons.inj same
      obtain ⟨rfl, left⟩ := ih (List.not_mem_of_not_mem_cons absent) (List.not_mem_of_not_mem_cons absent') later
      exact ⟨rfl, left⟩

/-! ### Escaped texts -/

theorem escapeChar_delimited : Delimited escapeChar := by
  intro c d rest rest' same
  unfold escapeChar at same
  -- Two entities differ before they end, and a character that stands for itself is no ampersand.
  split at same <;> split at same <;> simp only [String.reduceToList, List.cons_append, List.nil_append] at same <;> grind

theorem escape_injective : Function.Injective escape := by
  apply escapeChar_delimited.flatMap_injective
  intro c
  unfold escapeChar
  split <;> simp

theorem escape_until {stop : Char} (clean : ∀ s, stop ∉ escape s) : Delimited fun s => escape s ++ [stop] := by
  intro s t rest rest' same
  simp only [List.append_assoc, List.singleton_append] at same
  obtain ⟨escaped, left⟩ := append_cons_inj (clean s) (clean t) same
  exact ⟨escape_injective escaped, left⟩

theorem quote_not_mem_escape (s : List Char) : '"' ∉ escape s := fun present => (escape_clean s _ present).2.2 rfl

theorem angle_not_mem_escape (s : List Char) : '<' ∉ escape s := fun present => (escape_clean s _ present).1 rfl

/-! ### Records -/

theorem field_delimited (name : String) : Delimited (field name) := by
  intro v w rest rest' same
  unfold field at same
  simp only [List.cons_append, List.append_assoc, List.cons.injEq, true_and, List.append_cancel_left_eq] at same
  exact escape_until quote_not_mem_escape v w rest rest' (by simpa using same)

theorem param_delimited : Delimited param := by
  rintro ⟨name, value⟩ ⟨name', value'⟩ rest rest' same
  unfold param at same
  simp only [List.append_assoc] at same
  simp only [List.append_cancel_left_eq] at same
  obtain ⟨names, same⟩ := field_delimited "name" _ _ _ _ same
  have same : escape value.toList ++ ['<'] ++ ("/param>".toList ++ rest) =
      escape value'.toList ++ ['<'] ++ ("/param>".toList ++ rest') := by
    simpa using same
  obtain ⟨values, left⟩ := escape_until angle_not_mem_escape _ _ _ _ same
  rw [String.toList_inj.mp names, String.toList_inj.mp values]
  exact ⟨rfl, List.append_cancel_left left⟩

/-- The parameters with the end tag: no parameter begins like the end tag. -/
theorem params_delimited :
    Delimited fun params : List (String × String) => params.flatMap param ++ "</command>".toList := by
  apply param_delimited.flatMap_until
  intro p rest rest'
  unfold param
  simp

theorem record_delimited : Delimited record := by
  intro c d rest rest' same
  unfold record at same
  simp only [List.append_assoc, List.cons_append] at same
  simp only [List.append_cancel_left_eq] at same
  obtain ⟨type, same⟩ := field_delimited _ _ _ _ _ same
  obtain ⟨deviceClass, same⟩ := field_delimited _ _ _ _ _ same
  obtain ⟨deviceId, same⟩ := field_delimited _ _ _ _ _ same
  obtain ⟨origin, same⟩ := field_delimited _ _ _ _ _ same
  obtain ⟨priority, same⟩ := field_delimited _ _ _ _ _ same
  simp only [List.cons.injEq, true_and, ← List.append_assoc] at same
  obtain ⟨params, left⟩ := params_delimited c.params.entries d.params.entries rest rest' same
  refine ⟨?_, left⟩
  have type : c.type = d.type := UInt16.toNat_inj.mp (Nat.repr_injective (String.toList_inj.mp type))
  have deviceClass : c.deviceClass = d.deviceClass := Device.Class.label_injective (String.toList_inj.mp deviceClass)
  have deviceId : c.deviceId = d.deviceId := String.toList_inj.mp deviceId
  have origin : c.origin = d.origin := String.toList_inj.mp origin
  have priority : c.priority = d.priority := Int32.toInt_inj.mp (Int.repr_injective (String.toList_inj.mp priority))
  have params : c.params = d.params := congrArg OrderedMap.mk params
  calc c = ⟨c.type, c.deviceClass, c.deviceId, c.origin, c.priority, c.params⟩ := rfl
    _ = d := by rw [type, deviceClass, deviceId, origin, priority, params]

/-! ### Journals -/

/-- The records of commands, each on a line of its own. -/
def journal (cs : List Command) : String := String.join (cs.map fun c => text c ++ "\n")

theorem journal_toList (cs : List Command) : (journal cs).toList = cs.flatMap fun c => record c ++ ['\n'] := by
  unfold journal text
  induction cs with
  | nil => rfl
  | cons c cs ih =>
    rw [List.map_cons, String.join_cons, String.toList_append, ih]
    simp

theorem journal_injective : Function.Injective journal := by
  have delimited : Delimited fun c => record c ++ ['\n'] := by
    intro c d rest rest' same
    simp only [List.append_assoc] at same
    obtain ⟨rfl, left⟩ := record_delimited _ _ _ _ same
    exact ⟨rfl, List.append_cancel_left left⟩
  intro cs ds same
  apply delimited.flatMap_injective
  · simp
  · rw [← journal_toList, ← journal_toList, same]

/-! ### What only markup writes -/

def delimiters (text : List Char) : List Char := text.filter fun c => c = '<' || c = '>' || c = '"'

/-- The delimiters of a record with this many parameters. -/
def skeleton (params : Nat) : List Char :=
  "<".toList ++ List.replicate 10 '"' ++ ">".toList ++ (List.replicate params "<\"\"><>".toList).flatten ++ "<>".toList

theorem delimiters_append (s t : List Char) : delimiters (s ++ t) = delimiters s ++ delimiters t :=
  List.filter_append s t

theorem delimiters_escape (s : List Char) : delimiters (escape s) = [] := by
  apply List.filter_eq_nil_iff.mpr
  intro c present
  obtain ⟨angle, bracket, quote⟩ := escape_clean s c present
  simp [angle, bracket, quote]

theorem delimiters_field (name : String) (clean : delimiters name.toList = []) (v : List Char) :
    delimiters (field name v) = ['"', '"'] := by
  have parts : field name v = [' '] ++ name.toList ++ ['=', '"'] ++ escape v ++ ['"'] := by simp [field]
  rw [parts]
  simp only [delimiters_append, clean, delimiters_escape]
  rfl

theorem delimiters_param (p : String × String) : delimiters (param p) = "<\"\"><>".toList := by
  have parts : param p =
      "<param".toList ++ field "name" p.1.toList ++ ['>'] ++ escape p.2.toList ++ "</param>".toList := by
    unfold param
    simp only [List.append_assoc, List.cons_append, List.nil_append]
  rw [parts]
  simp only [delimiters_append, delimiters_escape, delimiters_field "name" rfl]
  rfl

theorem delimiters_params (params : List (String × String)) :
    delimiters (params.flatMap param) = (List.replicate params.length "<\"\"><>".toList).flatten := by
  induction params with
  | nil => rfl
  | cons p params ih =>
    rw [List.flatMap_cons, delimiters_append, delimiters_param, ih, List.length_cons, List.replicate_succ,
      List.flatten_cons]

theorem delimiters_record (c : Command) : delimiters (record c) = skeleton c.size := by
  have parts : record c = "<command".toList ++ field "type" (toString c.type.toNat).toList
      ++ field "class" c.deviceClass.label.toList ++ field "id" c.deviceId.toList
      ++ field "origin" c.origin.toList ++ field "priority" (toString c.priority.toInt).toList
      ++ ['>'] ++ c.params.entries.flatMap param ++ "</command>".toList := by
    unfold record
    simp only [List.append_assoc, List.cons_append, List.nil_append]
  rw [parts]
  simp only [delimiters_append, delimiters_params, delimiters_field "type" rfl, delimiters_field "class" rfl,
    delimiters_field "id" rfl, delimiters_field "origin" rfl, delimiters_field "priority" rfl]
  rfl

/-- A trail tells its commands: no two sequences of commands have the same records, and neither do two
commands, whatever is written after theirs. The delimiters in it are those of the markup, which only the
numbers of parameters decide, whatever the texts are. -/
theorem journal_decodable : Function.Injective journal ∧ Function.Injective text ∧ Delimited record ∧
    ∀ cs, delimiters (journal cs).toList = cs.flatMap fun c => skeleton c.size := by
  refine ⟨journal_injective, ?_, record_delimited, ?_⟩
  · intro c d same
    exact record_delimited.injective (String.ofList_inj.mp same)
  · intro cs
    rw [journal_toList]
    induction cs with
    | nil => rfl
    | cons c cs ih =>
      rw [List.flatMap_cons, List.flatMap_cons, delimiters_append, delimiters_append, delimiters_record, ih]
      simp [delimiters]

end Switchboard.Audit
