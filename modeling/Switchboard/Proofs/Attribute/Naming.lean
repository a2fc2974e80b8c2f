import Mathlib.Data.List.TakeWhile
import Switchboard.Proofs.Attribute.Parsing

/-!
The name that a line gives, with and without a value behind it. A line that reads is taken as it stands behind the
radix, while the name of one that writes or describes is trimmed once more. `forms_agree_iff`: so the two forms accept
the same names unless blanks stand between the radix and the name, or the radix itself ends in blanks.
-/

namespace Switchboard

namespace Text

theorem trimStart_eq (text : List Char) : ∃ ws, Blank ws ∧ trimStart text = trim text ++ ws := by
  refine ⟨((trimStart text).reverse.takeWhile isBlank).reverse, ?_, ?_⟩
  · intro c member
    exact List.mem_takeWhile_imp (List.mem_reverse.mp member)
  · rw [trim, trimEnd, ← List.reverse_append, List.takeWhile_append_dropWhile, List.reverse_reverse]

theorem trimStart_blank {ws : List Char} (blank : Blank ws) : trimStart ws = [] := List.dropWhile_eq_nil_iff.mpr blank

theorem trimStart_sublist (text : List Char) : (trimStart text).Sublist text := List.dropWhile_sublist _

/-- A character that is no blank holds the blanks on its two sides apart. -/
theorem trimStart_letter {c : Char} (letter : isBlank c = false) (text rest : List Char) :
    trimStart (text ++ c :: rest) = trimStart text ++ c :: rest := by
  have stays : (c :: rest).dropWhile isBlank = c :: rest := List.dropWhile_cons_of_neg (by simp [letter])
  rw [trimStart, List.dropWhile_append, stays]
  split
  · rename_i none
    rw [trimStart, List.isEmpty_iff.mp none, List.nil_append]
  · rfl

theorem trim_letter {c : Char} (letter : isBlank c = false) (text rest : List Char) :
    trim (text ++ c :: rest) = trimStart text ++ c :: trimEnd rest := by
  have back := trimStart_letter letter rest.reverse (trimStart text).reverse
  rw [trim, trimStart_letter letter, trimEnd, List.reverse_append, List.reverse_cons, List.append_assoc,
    List.singleton_append, show List.dropWhile isBlank _ = trimStart _ from rfl, back]
  simp [trimEnd, trimStart]

/-- Only what stands in front is left to trim when the last character is no blank. -/
theorem trim_append {text ws : List Char} (blank : Blank ws) (last : ∀ c ∈ text.getLast?, isBlank c = false) :
    trim (text ++ ws) = trimStart text := by
  rcases List.eq_nil_or_concat text with rfl | ⟨start, c, rfl⟩
  · rw [List.nil_append, trim, trimStart_blank blank]
    rfl
  · have letter : isBlank c = false := last c (by simp)
    have none : trimEnd ws = [] := by
      rw [trimEnd, List.dropWhile_eq_nil_iff.mpr fun c member => blank c (List.mem_reverse.mp member)]
      rfl
    rw [List.concat_append, trim_letter letter, none, List.concat_eq_append, trimStart_letter letter]

end Text

namespace Attribute

/-! ### Taking the radix off -/

theorem stripLead?_append {c : Char} {lead : List Char} (absent : c ∉ lead) (text rest : List Char) :
    stripLead? lead (text ++ c :: rest) = (stripLead? lead text).map (· ++ c :: rest) := by
  induction lead generalizing text with
  | nil => rfl
  | cons l lead ih =>
    have other : l ≠ c := (List.ne_of_not_mem_cons absent).symm
    cases text with
    | nil => simp [stripLead?, other]
    | cons d text =>
      rw [List.cons_append, stripLead?, stripLead?]
      split
      · exact ih (List.not_mem_of_not_mem_cons absent) text
      · rfl

theorem stripped_sublist (lead text : List Char) : ((stripLead? lead text).getD text).Sublist text := by
  cases stripped : stripLead? lead text with
  | none => exact List.Sublist.refl text
  | some rest =>
    rw [stripLead?_eq_some.mp stripped]
    exact List.sublist_append_right lead rest

theorem stripped_of_lead {lead text rest : List Char} (whole : text = lead ++ rest) :
    (stripLead? lead text).getD text = rest := by
  rw [stripLead?_eq_some.mpr whole, Option.getD_some]

theorem stripped_of_apart {lead text : List Char} (apart : ¬ lead <+: text) : (stripLead? lead text).getD text = text := by
  cases stripped : stripLead? lead text with
  | none => rfl
  | some rest => exact absurd ⟨rest, (stripLead?_eq_some.mp stripped).symm⟩ apart

namespace Line

variable {p radix v name : String}

/-- The line is accepted, and gives this name. -/
def Names (line radix name : String) : Prop := ∃ l, parse line radix = .ok l ∧ l.name = name

/-! ### The name of either form -/

theorem body_plain (plain : '=' ∉ p.toList) (radix : String) : '=' ∉ body p radix := fun present =>
  plain ((Text.trim_sublist p.toList).subset ((stripped_sublist radix.toList _).subset present))

/-- A text that is cut out of a line is its name if it is fit to be one. -/
theorem named_iff {text : List Char} (absent : '=' ∉ text) :
    nameIsFit text = true ∧ String.ofList text = name ↔ Named name ∧ text = name.toList := by
  constructor
  · rintro ⟨fit, rfl⟩
    exact ⟨named_of_fit fit absent, by rw [String.toList_ofList]⟩
  · rintro ⟨named, rfl⟩
    exact ⟨nameIsFit_of_named named, String.ofList_toList⟩

theorem names_iff_body (plain : '=' ∉ p.toList) : Names p radix name ↔ Named name ∧ body p radix = name.toList := by
  have absent := body_plain plain radix
  rw [← named_iff absent, Names, parse_of_no_equals (splitEquals_of_absent absent)]
  split <;> simp [*]

/-- What stands in front of an equals sign, when the blanks at the front and the radix are gone. -/
def front (p radix : String) : List Char :=
  (stripLead? radix.toList (Text.trimStart p.toList)).getD (Text.trimStart p.toList)

theorem front_plain (plain : '=' ∉ p.toList) (radix : String) : '=' ∉ front p radix := fun present =>
  plain ((Text.trimStart_sublist p.toList).subset ((stripped_sublist radix.toList _).subset present))

theorem body_append (bare : '=' ∉ radix.toList) (p v : String) :
    body (p ++ "=" ++ v) radix = front p radix ++ '=' :: Text.trimEnd v.toList := by
  have whole : (p ++ "=" ++ v).toList = p.toList ++ '=' :: v.toList := by simp
  rw [body, whole, Text.trim_letter (by decide), stripLead?_append bare, front]
  cases stripLead? radix.toList (Text.trimStart p.toList) <;> rfl

theorem names_iff_front (plain : '=' ∉ p.toList) (bare : '=' ∉ radix.toList) :
    Names (p ++ "=" ++ v) radix name ↔ Named name ∧ Text.trim (front p radix) = name.toList := by
  have absent := front_plain plain radix
  have trimmed : '=' ∉ Text.trim (front p radix) := fun present => absent ((Text.trim_sublist _).subset present)
  have split : splitEquals (body (p ++ "=" ++ v) radix) = (front p radix, some (Text.trimEnd v.toList)) := by
    rw [body_append bare, splitEquals_append absent]
  rw [← named_iff trimmed, Names, parse_of_equals split]
  split <;> simp [*]

/-! ### Blanks behind the radix -/

/-- The line gives the radix, then blanks, then the name. -/
structure Gapped (p radix name : String) : Prop where
  named : Named name
  gap : ∃ ws, ws ≠ [] ∧ Text.Blank ws ∧ Text.trim p.toList = radix.toList ++ ws ++ name.toList

/-- The line gives the name alone, and the radix is the name with some of the blanks that stand behind it in the line. -/
structure Swallowed (p radix name : String) : Prop where
  named : Named name
  alone : Text.trim p.toList = name.toList
  gap : ∃ ws, ws ≠ [] ∧ Text.Blank ws ∧ radix.toList = name.toList ++ ws ∧ radix.toList <+: Text.trimStart p.toList

/-- How the radix stands to a text, and so what it leaves of the text alone and of the same text in front of an equals
sign. -/
inductive Stance (p radix : String) : Prop where
  | leads (text : Text.trim p.toList = radix.toList ++ body p radix)
    (trimmed : Text.trim (front p radix) = Text.trimStart (body p radix))
  /-- The radix ends among the blanks behind the text. -/
  | outruns (ws : List Char) (some : ws ≠ []) (blank : Text.Blank ws) (text : radix.toList = Text.trim p.toList ++ ws)
    (reaches : radix.toList <+: Text.trimStart p.toList) (left : body p radix = Text.trim p.toList)
    (nothing : Text.trim (front p radix) = [])
  | absent (apart : ¬ radix.toList <+: Text.trimStart p.toList) (left : body p radix = Text.trim p.toList)
    (same : Text.trim (front p radix) = Text.trim p.toList)

theorem stance (p radix : String) : Stance p radix := by
  obtain ⟨ws, blank, whole⟩ := Text.trimStart_eq p.toList
  by_cases leads : radix.toList <+: Text.trim p.toList
  · obtain ⟨rest, text⟩ := leads
    have left : body p radix = rest := stripped_of_lead text.symm
    have before : front p radix = rest ++ ws := stripped_of_lead (by rw [whole, ← text, List.append_assoc])
    refine .leads (by rw [left, text]) ?_
    rw [before, left]
    exact Text.trim_append blank (left ▸ body_last p radix)
  have left : body p radix = Text.trim p.toList := stripped_of_apart leads
  by_cases reaches : radix.toList <+: Text.trimStart p.toList
  · obtain ⟨rest, text⟩ := id reaches
    rw [whole] at text
    rcases List.append_eq_append_iff.mp text with ⟨b, inside, _⟩ | ⟨gap, beyond, tail⟩
    · exact absurd ⟨b, inside.symm⟩ leads
    have before : front p radix = rest := stripped_of_lead (by rw [whole, text])
    have blankRest : Text.Blank rest := fun c member => blank c (tail ▸ List.mem_append_right gap member)
    refine .outruns gap ?_ ?_ beyond reaches left ?_
    · rintro rfl
      exact leads ⟨[], by rw [beyond, List.append_nil, List.append_nil]⟩
    · exact fun c member => blank c (tail ▸ List.mem_append_left rest member)
    · rw [before, Text.trim, Text.trimStart_blank blankRest]
      rfl
  · have before : front p radix = Text.trimStart p.toList := stripped_of_apart reaches
    refine .absent reaches left ?_
    rw [before, Text.trim, Text.trimStart_of_head fun c first => Text.trimStart_head_not_blank first]
    rfl

/-- A text does not begin with a radix that is longer. -/
theorem no_longer_lead {text lead ws rest : List Char} (some : ws ≠ []) (longer : lead = text ++ ws) :
    text ≠ lead ++ rest := by
  rintro shorter
  rw [longer, List.append_assoc] at shorter
  exact some (List.append_eq_nil_iff.mp (List.self_eq_append_right.mp shorter)).1

theorem trimStart_name (named : Named name) : Text.trimStart name.toList = name.toList :=
  Text.trimStart_of_head fun c first => named.unblank c (List.mem_of_head? first)

/-- Blanks behind the radix are trimmed off the name only where an equals sign ends it. -/
theorem gapped_iff : Gapped p radix name ↔
    Named name ∧ Text.trim (front p radix) = name.toList ∧ body p radix ≠ name.toList := by
  constructor
  · rintro ⟨named, ws, some, blank, whole⟩
    rw [List.append_assoc] at whole
    have left : body p radix = ws ++ name.toList := stripped_of_lead whole
    refine ⟨named, ?_, fun same => some (List.append_left_eq_self.mp (left.symm.trans same))⟩
    cases stance p radix with
    | leads _ trimmed => rw [trimmed, left, Text.trimStart_append blank, trimStart_name named]
    | outruns gap more _ text => exact absurd whole (no_longer_lead more text)
    | absent apart =>
      obtain ⟨behind, _, text⟩ := Text.trimStart_eq p.toList
      have begins : Text.trimStart p.toList = radix.toList ++ (ws ++ name.toList ++ behind) := by
        rw [text, whole, List.append_assoc]
      exact absurd ⟨_, begins.symm⟩ apart
  · rintro ⟨named, trimmed, other⟩
    cases stance p radix with
    | leads text start =>
      rw [start] at trimmed
      have cut : (body p radix).takeWhile Text.isBlank ++ name.toList = body p radix := by
        rw [← trimmed]
        exact List.takeWhile_append_dropWhile
      refine ⟨named, (body p radix).takeWhile Text.isBlank, fun none => other ?_, ?_, ?_⟩
      · rw [← cut, none, List.nil_append]
      · exact fun c member => List.mem_takeWhile_imp member
      · rw [List.append_assoc, cut, text]
    | outruns _ _ _ _ _ _ nothing => exact absurd (trimmed.symm.trans nothing) named.some
    | absent _ left same => exact absurd (left.trans (same.symm.trans trimmed)) other

/-- A name that is read is written under the same name, unless the radix has taken all of it off. -/
theorem front_of_body (named : Named name) (left : body p radix = name.toList) :
    Text.trim (front p radix) = name.toList ∨ Swallowed p radix name ∧ Text.trim (front p radix) = [] := by
  cases stance p radix with
  | leads _ trimmed => exact .inl (by rw [trimmed, left, trimStart_name named])
  | outruns ws some blank text reaches alone nothing =>
    have name : Text.trim p.toList = name.toList := alone.symm.trans left
    exact .inr ⟨⟨named, name, ws, some, blank, name ▸ text, reaches⟩, nothing⟩
  | absent _ alone same => exact .inl (same.trans (alone.symm.trans left))

theorem swallowed_iff : Swallowed p radix name ↔
    Named name ∧ body p radix = name.toList ∧ Text.trim (front p radix) ≠ name.toList := by
  constructor
  · rintro ⟨named, alone, ws, some, blank, text, reaches⟩
    rw [← alone] at text
    cases stance p radix with
    | leads shorter => exact absurd shorter (no_longer_lead some text)
    | outruns _ _ _ _ _ left nothing =>
      exact ⟨named, left.trans alone, fun same => named.some (same.symm.trans nothing)⟩
    | absent apart => exact absurd reaches apart
  · rintro ⟨named, left, other⟩
    exact ((front_of_body named left).resolve_left other).1

/-! ### Names and refusals -/

theorem refused_iff {line : String} : parse line radix = .error (refused line) ↔ ∀ name, ¬ Names line radix name := by
  constructor
  · rintro error name ⟨l, parsed, -⟩
    cases error.symm.trans parsed
  · intro none
    cases parsed : parse line radix with
    | error e => rw [parse_error parsed]
    | ok l => exact absurd ⟨l, parsed, rfl⟩ (none l.name)

/-- Where both forms are accepted they give one name. -/
theorem names_agree (plain : '=' ∉ p.toList) (bare : '=' ∉ radix.toList) {other : String}
    (read : Names p radix name) (written : Names (p ++ "=" ++ v) radix other) : name = other := by
  obtain ⟨named, left⟩ := (names_iff_body plain).mp read
  obtain ⟨named', trimmed⟩ := (names_iff_front plain bare).mp written
  rcases front_of_body named left with same | ⟨_, none⟩
  · exact String.toList_inj.mp (same.symm.trans trimmed)
  · exact absurd (trimmed.symm.trans none) named'.some

/-- A name is given by both forms or by neither, unless blanks stand between the radix and the name, where only the
line that writes is accepted, or the radix ends in blanks and takes the name off with them, where only the line that
reads is. Which value is written, and whether one is, makes no difference. -/
theorem forms_agree_iff (plain : '=' ∉ p.toList) (bare : '=' ∉ radix.toList) (v name : String) :
    ((Names p radix name ↔ Names (p ++ "=" ++ v) radix name) ↔ ¬ Gapped p radix name ∧ ¬ Swallowed p radix name) ∧
    (Gapped p radix name ↔ parse p radix = .error (refused p) ∧ Names (p ++ "=" ++ v) radix name) ∧
    (Swallowed p radix name ↔
      Names p radix name ∧ parse (p ++ "=" ++ v) radix = .error (refused (p ++ "=" ++ v))) ∧
    (Names (p ++ "=" ++ v) radix name ↔ Names (p ++ "=?") radix name) := by
  have reads : Names p radix name ↔ _ := names_iff_body plain
  have writes (v : String) : Names (p ++ "=" ++ v) radix name ↔ _ := names_iff_front plain bare
  have gapped : Gapped p radix name ↔ ¬ Names p radix name ∧ Names (p ++ "=" ++ v) radix name := by
    rw [gapped_iff, reads, writes]
    by_cases named : Named name <;> simp [named, and_comm]
  have swallowed : Swallowed p radix name ↔ Names p radix name ∧ ¬ Names (p ++ "=" ++ v) radix name := by
    rw [swallowed_iff, reads, writes]
    by_cases named : Named name <;> simp [named]
  refine ⟨?_, ?_, ?_, ?_⟩
  · rw [gapped, swallowed]
    by_cases read : Names p radix name <;> simp [read]
  · rw [refused_iff, gapped]
    refine and_congr_left fun written => ⟨fun unread other read => unread ?_, fun none => none name⟩
    rwa [← names_agree plain bare read written]
  · rw [refused_iff, swallowed]
    refine and_congr_right fun read => ⟨fun unwritten other written => unwritten ?_, fun none => none name⟩
    rwa [names_agree plain bare read written]
  · have asks : p ++ "=?" = p ++ "=" ++ "?" := by rw [String.append_assoc]; rfl
    rw [asks, writes, writes]

/-- A radix that ends in a blank takes off the name in front of the equals sign. -/
theorem forms_agree_iff_swallowed :
    '=' ∉ "A ".toList ∧ Swallowed "A " "A " "A" ∧
    Names "A " "A " "A" ∧ parse ("A " ++ "=" ++ "1") "A " = .error (refused ("A " ++ "=" ++ "1")) := by
  have read : parse "A " "A " = .ok ⟨"A", .read, none⟩ := rfl
  have named : Named "A" := (wellFormed_of_parse read).named
  have swallowed : Swallowed "A " "A " "A" :=
    ⟨named, rfl, [' '], by simp, by simp [Text.Blank, Text.isBlank, Text.blanks], rfl, List.prefix_rfl⟩
  exact ⟨by decide, swallowed, (forms_agree_iff (by decide) (by decide) "1" "A").2.2.1.mp swallowed⟩

/-- The name behind a radix and a blank is written and cannot be read. -/
theorem gapped_name_unread :
    '=' ∉ "$ A".toList ∧ '=' ∉ "$".toList ∧ ¬ (Names "$ A" "$" "A" ↔ Names ("$ A" ++ "=" ++ "1") "$" "A") := by
  have written : Names ("$ A" ++ "=" ++ "1") "$" "A" := ⟨⟨"A", .write, some "1"⟩, rfl, rfl⟩
  have unread : ¬ Names "$ A" "$" "A" := by
    rintro ⟨l, parsed, -⟩
    cases parsed
  exact ⟨by decide, by decide, fun same => unread (same.mpr written)⟩

end Line

end Attribute

end Switchboard
