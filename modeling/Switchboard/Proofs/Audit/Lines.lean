import Mathlib
import Switchboard.Proofs.Audit.Delivery

/-!
The lines of a trail, as a reader finds them who splits what is in the sink at the byte for a line break. Escaping lets
line breaks through, so a record stands on one line exactly if no text of its command holds one. Main statement:
`trail_lines`.
-/

namespace Switchboard.Audit

/-! ### Line breaks in records -/

def breaks (c : Command) : Nat :=
  c.deviceId.toList.count '\n' + c.origin.toList.count '\n'
    + (c.params.entries.map fun p => p.1.toList.count '\n' + p.2.toList.count '\n').sum

theorem breaks_eq_zero {c : Command} : breaks c = 0 ↔
    '\n' ∉ c.deviceId.toList ∧ '\n' ∉ c.origin.toList ∧
      ∀ p ∈ c.params.entries, '\n' ∉ p.1.toList ∧ '\n' ∉ p.2.toList := by
  simp only [breaks, Nat.add_eq_zero_iff, List.count_eq_zero, List.sum_eq_zero_iff_forall_eq_nat, List.forall_mem_map,
    and_assoc]

theorem count_break_escape (s : List Char) : (escape s).count '\n' = s.count '\n' := by
  have same : ∀ c, (escapeChar c).count '\n' = [c].count '\n' := by
    intro c
    unfold escapeChar
    split <;> simp
  induction s with
  | nil => rfl
  | cons c s ih => rw [escape_cons, List.count_append, same, ih, ← List.count_append, List.singleton_append]

theorem count_break_field (name : String) (clean : '\n' ∉ name.toList) (value : List Char) :
    (field name value).count '\n' = value.count '\n' := by
  simp [field, List.count_eq_zero.mpr clean, count_break_escape]

theorem count_break_param (p : String × String) :
    (param p).count '\n' = p.1.toList.count '\n' + p.2.toList.count '\n' := by
  have parts : param p =
      "<param".toList ++ field "name" p.1.toList ++ ['>'] ++ escape p.2.toList ++ "</param>".toList := by
    unfold param
    simp only [List.append_assoc, List.cons_append, List.nil_append]
  have opening : "<param".toList.count '\n' = 0 := by decide
  have closing : "</param>".toList.count '\n' = 0 := by decide
  rw [parts]
  simp only [List.count_append, count_break_field "name" (by decide), count_break_escape, opening, closing]
  simp

theorem count_break_params (params : List (String × String)) :
    (params.flatMap param).count '\n' = (params.map fun p => p.1.toList.count '\n' + p.2.toList.count '\n').sum := by
  induction params with
  | nil => rfl
  | cons p params ih => rw [List.flatMap_cons, List.count_append, count_break_param, ih, List.map_cons, List.sum_cons]

theorem break_not_mem_nat (n : Nat) : '\n' ∉ n.repr.toList := by
  intro present
  rw [Nat.toList_repr] at present
  exact absurd (Nat.isDigit_of_mem_toDigits (by decide) (by decide) present) (by decide)

theorem break_not_mem_int (n : Int) : '\n' ∉ n.repr.toList := by
  cases n with
  | ofNat n => exact break_not_mem_nat n
  | negSucc n =>
    have digits := break_not_mem_nat (n + 1)
    simpa [Int.repr] using digits

theorem break_not_mem_label (cls : Device.Class) : '\n' ∉ cls.label.toList := by
  cases cls <;> decide

theorem count_break_record (c : Command) : (record c).count '\n' = breaks c := by
  have parts : record c = "<command".toList ++ field "type" (toString c.type.toNat).toList
      ++ field "class" c.deviceClass.label.toList ++ field "id" c.deviceId.toList
      ++ field "origin" c.origin.toList ++ field "priority" (toString c.priority.toInt).toList
      ++ ['>'] ++ c.params.entries.flatMap param ++ "</command>".toList := by
    unfold record
    simp only [List.append_assoc, List.cons_append, List.nil_append]
  have opening : "<command".toList.count '\n' = 0 := by decide
  have closing : "</command>".toList.count '\n' = 0 := by decide
  have type : (toString c.type.toNat).toList.count '\n' = 0 := List.count_eq_zero.mpr (break_not_mem_nat _)
  have label : c.deviceClass.label.toList.count '\n' = 0 := List.count_eq_zero.mpr (break_not_mem_label _)
  have priority : (toString c.priority.toInt).toList.count '\n' = 0 := List.count_eq_zero.mpr (break_not_mem_int _)
  rw [parts]
  simp only [List.count_append, count_break_field "type" (by decide), count_break_field "class" (by decide),
    count_break_field "id" (by decide), count_break_field "origin" (by decide), count_break_field "priority" (by decide),
    count_break_params, opening, closing, type, label, priority]
  simp [breaks]

/-! ### Splitting bytes and splitting text -/

/-- The byte for a line break stands for nothing else, also not within a longer character. -/
theorem break_mem_encoded {c : Char} : 10 ∈ String.utf8EncodeChar c ↔ c = '\n' := by
  constructor
  · intro present
    have byte : ∀ n, 10 = UInt8.ofNat n ↔ n % 256 = 10 := by
      intro n
      rw [← UInt8.toNat_inj, UInt8.toNat_ofNat']
      exact eq_comm
    -- The bytes of a longer character are all above those of the short ones.
    have value : c.val.toNat = 10 := by
      simp only [String.utf8EncodeChar] at present
      split at present
      · simp only [List.mem_singleton, byte] at present
        omega
      · split at present
        · simp only [List.mem_cons, List.not_mem_nil, or_false, byte] at present
          omega
        · split at present <;> simp only [List.mem_cons, List.not_mem_nil, or_false, byte] at present <;> omega
    exact Char.ext (UInt32.toNat_inj.mp value)
  · rintro rfl
    decide

theorem splitOn_append_of_not_mem {α : Type} [BEq α] [LawfulBEq α] {x : α} {start : List α} (absent : x ∉ start)
    (rest : List α) : (start ++ rest).splitOn x = (rest.splitOn x).modifyHead (start ++ ·) := by
  induction start with
  | nil => exact (congrFun List.modifyHead_id _).symm
  | cons y start ih =>
    have other : (y == x) = false := beq_false_of_ne (List.ne_of_not_mem_cons absent).symm
    rw [List.cons_append, List.splitOn_cons_eq_if_modifyHead, other, if_neg (by simp),
      ih (List.not_mem_of_not_mem_cons absent), List.modifyHead_modifyHead]
    rfl

theorem splitOn_utf8 (text : List Char) : (utf8 text).splitOn 10 = (text.splitOn '\n').map utf8 := by
  induction text with
  | nil => rfl
  | cons c text ih =>
    have first : utf8 (c :: text) = String.utf8EncodeChar c ++ utf8 text := List.flatMap_cons
    rw [first, List.splitOn_cons_eq_if_modifyHead]
    by_cases ends : c = '\n'
    · subst ends
      have encoded : String.utf8EncodeChar '\n' ++ utf8 text = [] ++ 10 :: utf8 text := rfl
      rw [encoded, List.splitOn_append_cons_self, ih]
      simp [utf8]
    · rw [splitOn_append_of_not_mem (fun present => ends (break_mem_encoded.mp present)), ih]
      cases pieces : text.splitOn '\n' with
      | nil => simp at pieces
      | cons piece later => simp [ends, utf8]

theorem length_splitOn {α : Type} [BEq α] (x : α) (l : List α) : (l.splitOn x).length = l.count x + 1 := by
  induction l with
  | nil => rfl
  | cons y l ih =>
    rw [List.splitOn_cons_eq_if_modifyHead, List.count_cons]
    split <;> simp [ih]

/-! ### Lines of a trail -/

def pieces (c : Command) : List (List UInt8) := ((record c).splitOn '\n').map utf8

theorem length_pieces (c : Command) : (pieces c).length = breaks c + 1 := by
  rw [pieces, List.length_map, length_splitOn, count_break_record]

theorem pieces_of_unbroken {c : Command} (unbroken : breaks c = 0) : pieces c = [utf8 (record c)] := by
  rw [← count_break_record, List.count_eq_zero] at unbroken
  rw [pieces, List.splitOn_eq_singleton unbroken, List.map_singleton]

theorem splitOn_lines (cs : List Command) : (cs.flatMap line).splitOn 10 = cs.flatMap pieces ++ [[]] := by
  induction cs with
  | nil => rfl
  | cons c cs ih =>
    have ended : line c ++ cs.flatMap line = utf8 (record c) ++ 10 :: cs.flatMap line := by
      rw [line_eq, List.append_assoc]
      rfl
    rw [List.flatMap_cons, ended, List.splitOn_append_cons_self, ih, splitOn_utf8, List.flatMap_cons, List.append_assoc]
    rfl

theorem length_lines (cs : List Command) : (cs.flatMap pieces).length = cs.length + (cs.map breaks).sum := by
  induction cs with
  | nil => rfl
  | cons c cs ih =>
    rw [List.flatMap_cons, List.length_append, length_pieces, ih, List.length_cons, List.map_cons, List.sum_cons]
    omega

theorem pieces_eq_records {cs : List Command} :
    cs.flatMap pieces = cs.map (fun c => utf8 (record c)) ↔ ∀ c ∈ cs, breaks c = 0 := by
  constructor
  · intro same
    have count := congrArg List.length same
    rw [length_lines, List.length_map] at count
    have none : (cs.map breaks).sum = 0 := by omega
    rwa [List.sum_eq_zero_iff_forall_eq_nat, List.forall_mem_map] at none
  · intro unbroken
    induction cs with
    | nil => rfl
    | cons c cs ih =>
      obtain ⟨first, others⟩ := List.forall_mem_cons.mp unbroken
      rw [List.flatMap_cons, pieces_of_unbroken first, ih others]
      rfl

namespace Trail

variable {σ : Type} [Sink σ] [LawfulSink σ]

/-- What accepted commands leave in a sink that never fails is, split at the line breaks, what their records are split
at theirs, one after the other, and an empty rest. A command takes up one line more for every line break in its texts,
so each command has one line, and that is its record, exactly if there is none. -/
theorem trail_lines (t : Trail σ) (cs : List Command) (willing : Willing t.sink) (steady : Steady t.sink)
    (accepted : ∀ c ∈ cs, t.accepts.contains c.type = true) :
    ∃ written, Sink.content (t.notifyAll cs).2.sink = Sink.content t.sink ++ written ∧
      written.splitOn 10 = cs.flatMap pieces ++ [[]] ∧
      (∀ c, (pieces c).length = breaks c + 1) ∧
      (written.splitOn 10 = cs.map (fun c => utf8 (record c)) ++ [[]] ↔
        ∀ c ∈ cs, '\n' ∉ c.deviceId.toList ∧ '\n' ∉ c.origin.toList ∧
          ∀ p ∈ c.params.entries, '\n' ∉ p.1.toList ∧ '\n' ∉ p.2.toList) := by
  obtain ⟨_, content⟩ := notifyAll_steady willing steady cs
  rw [List.filter_eq_self.mpr accepted] at content
  refine ⟨cs.flatMap line, content, splitOn_lines cs, length_pieces, ?_⟩
  simp only [splitOn_lines, List.append_cancel_right_eq, pieces_eq_records, breaks_eq_zero]

theorem trail_lines_broken :
    let t : Trail Disk := ⟨.all, { chunk := some 3 }⟩
    let c : Command := { type := 1, origin := "console" }
    let d : Command := { type := 2, deviceId := "T1", params := ⟨[("note", "a\nb\n")]⟩ }
    Willing t.sink ∧ Steady t.sink ∧
    ∃ written, Sink.content (t.notifyAll [c, d]).2.sink = written ∧
      written.splitOn 10 = pieces c ++ pieces d ++ [[]] ∧ (pieces c).length = 1 ∧ (pieces d).length = 3 := by
  intro t c d
  have willing : Willing t.sink := Disk.willing (by decide)
  have steady : Steady t.sink := Disk.steady rfl rfl
  have accepted : ∀ e ∈ [c, d], t.accepts.contains e.type = true := fun e _ => Command.Range.all_contains e.type
  obtain ⟨written, content, split, length, _⟩ := trail_lines t [c, d] willing steady accepted
  have breaksC : breaks c = 0 := by decide
  have breaksD : breaks d = 2 := by decide
  refine ⟨willing, steady, written, content, ?_, ?_, ?_⟩
  · rw [split, List.flatMap_cons, List.flatMap_singleton]
  · rw [length, breaksC]
  · rw [length, breaksD]

/-- A line break in the origin of a command breaks its line. -/
theorem origin_forges_line :
    let t : Trail Disk := ⟨.all, {}⟩
    let c : Command := { type := 1, origin := "a\nb" }
    t.accepts.contains c.type = true ∧ Willing t.sink ∧ Steady t.sink ∧
    ((Sink.content (t.notifyAll [c]).2.sink).splitOn 10).length = 3 ∧
    (Sink.content (t.notifyAll [c]).2.sink).splitOn 10 ≠ [utf8 (record c), []] := by
  intro t c
  have willing : Willing t.sink := Disk.willing (by decide)
  have steady : Steady t.sink := Disk.steady rfl rfl
  have broken : breaks c = 1 := by decide
  have content : Sink.content (t.notifyAll [c]).2.sink = [c].flatMap line := (notifyAll_steady willing steady [c]).2
  have three : ((Sink.content (t.notifyAll [c]).2.sink).splitOn 10).length = 3 := by
    rw [content, splitOn_lines, List.length_append, length_lines, List.map_singleton, List.sum_singleton, broken]
    rfl
  refine ⟨rfl, willing, steady, three, fun same => ?_⟩
  rw [same] at three
  cases three

end Trail

end Switchboard.Audit
