import Switchboard.Attribute.Line

/-!
Request lines and the requests they stand for. `parse_inverts_render`: a line is accepted for exactly the
well-formed requests, and writing a request out, behind the radix and with blanks around it, is undone by
parsing.
-/

namespace Switchboard

namespace Text

/-! ### Trimming -/

def Blank (text : List Char) : Prop := ∀ c ∈ text, isBlank c = true

theorem blank_empty : Blank "".toList := List.forall_mem_nil _

theorem trimStart_of_head {text : List Char} (head : ∀ c ∈ text.head?, isBlank c = false) :
    trimStart text = text := by
  cases text with
  | nil => rfl
  | cons c rest => exact List.dropWhile_cons_of_neg (by simp [head c rfl])

theorem trimStart_append {ws : List Char} (blank : Blank ws) (text : List Char) :
    trimStart (ws ++ text) = trimStart text := by
  induction ws with
  | nil => rfl
  | cons c rest ih =>
    obtain ⟨first, others⟩ := List.forall_mem_cons.mp blank
    rw [List.cons_append, trimStart, List.dropWhile_cons_of_pos first]
    exact ih others

theorem trimEnd_append {ws text : List Char} (blank : Blank ws) (last : ∀ c ∈ text.getLast?, isBlank c = false) :
    trimEnd (text ++ ws) = text := by
  have blank' : Blank ws.reverse := fun c member => blank c (List.mem_reverse.mp member)
  have kept : trimStart text.reverse = text.reverse := trimStart_of_head (by simpa using last)
  show (trimStart (text ++ ws).reverse).reverse = text
  rw [List.reverse_append, trimStart_append blank', kept, List.reverse_reverse]

theorem trim_around {ws text ws' : List Char} (blank : Blank ws) (blank' : Blank ws') (some : text ≠ [])
    (head : ∀ c ∈ text.head?, isBlank c = false) (last : ∀ c ∈ text.getLast?, isBlank c = false) :
    trim (ws ++ text ++ ws') = text := by
  obtain ⟨c, rest, rfl⟩ := List.exists_cons_of_ne_nil some
  have front : trimStart (c :: rest ++ ws') = c :: rest ++ ws' := trimStart_of_head head
  rw [trim, List.append_assoc, trimStart_append blank, front, trimEnd_append blank' last]

theorem trim_of_no_blank {text : List Char} (clean : ∀ c ∈ text, isBlank c = false) : trim text = text := by
  have last : trimEnd (text ++ []) = text := trimEnd_append nofun fun c last => clean c (List.mem_of_getLast? last)
  rw [trim, trimStart_of_head fun c first => clean c (List.mem_of_head? first)]
  rwa [List.append_nil] at last

theorem trim_sublist (text : List Char) : (trim text).Sublist text := by
  have tail : (trimEnd (trimStart text)).Sublist (trimStart text) := by
    rw [← List.reverse_sublist, trimEnd, List.reverse_reverse]
    exact List.dropWhile_sublist _
  exact tail.trans (List.dropWhile_sublist _)

end Text

namespace Attribute

/-! ### Leads and equals signs -/

theorem stripLead?_eq_some {lead text rest : List Char} :
    stripLead? lead text = some rest ↔ text = lead ++ rest := by
  induction lead generalizing text with
  | nil => simp [stripLead?]
  | cons l lead ih =>
    cases text with
    | nil => simp [stripLead?]
    | cons c text =>
      by_cases same : l = c
      · subst same
        simp [stripLead?, ih]
      · simp [stripLead?, same, Ne.symm same]

theorem splitEquals_of_absent {text : List Char} (absent : '=' ∉ text) : splitEquals text = (text, none) := by
  induction text with
  | nil => rfl
  | cons c rest ih =>
    have other : c ≠ '=' := (List.ne_of_not_mem_cons absent).symm
    rw [splitEquals, if_neg other, ih (List.not_mem_of_not_mem_cons absent)]

theorem splitEquals_append {name : List Char} (absent : '=' ∉ name) (rest : List Char) :
    splitEquals (name ++ '=' :: rest) = (name, some rest) := by
  induction name with
  | nil => rfl
  | cons c name ih =>
    have other : c ≠ '=' := (List.ne_of_not_mem_cons absent).symm
    rw [List.cons_append, splitEquals, if_neg other, ih (List.not_mem_of_not_mem_cons absent)]

theorem splitEquals_cases (text : List Char) :
    ('=' ∉ text ∧ splitEquals text = (text, none)) ∨
      ∃ name rest, '=' ∉ name ∧ text = name ++ '=' :: rest ∧ splitEquals text = (name, some rest) := by
  by_cases present : '=' ∈ text
  · obtain ⟨name, rest, rfl, absent⟩ := List.eq_append_cons_of_mem present
    exact .inr ⟨name, rest, absent, rfl, splitEquals_append absent rest⟩
  · exact .inl ⟨present, splitEquals_of_absent present⟩

/-! ### Requests written out -/

def Request.suffix : Request → String
  | read => ""
  | write value => "=" ++ value
  | describe => "=?"

/-- A value that stands at the end of a line is written as it is, and does not ask for a description. -/
def Plain (value : String) : Prop := (∀ c ∈ value.toList.getLast?, Text.isBlank c = false) ∧ value ≠ "?"

structure Named (name : String) : Prop where
  some : name.toList ≠ []
  unblank : ∀ c ∈ name.toList, Text.isBlank c = false
  noEquals : '=' ∉ name.toList

/-- A radix that is empty or does not begin with a blank. -/
def Unindented (radix : String) : Prop := ∀ c ∈ radix.toList.head?, Text.isBlank c = false

namespace Line

def render (l : Line) : String := l.name ++ l.request.suffix

/-- The value is there exactly for writes. -/
structure WellFormed (l : Line) : Prop where
  named : Named l.name
  written : l.value.isSome = true ↔ l.mode = .write
  plain : ∀ value ∈ l.value, Plain value

variable {line radix : String} {l : Line}

theorem suffix_cases (wellFormed : l.WellFormed) :
    (l = ⟨l.name, .read, none⟩ ∧ l.render.toList = l.name.toList) ∨
    (l = ⟨l.name, .describe, none⟩ ∧ l.render.toList = l.name.toList ++ ['=', '?']) ∨
    ∃ value, Plain value ∧ l = ⟨l.name, .write, some value⟩ ∧
      l.render.toList = l.name.toList ++ '=' :: value.toList := by
  obtain ⟨name, mode, value⟩ := l
  obtain ⟨_, written, plain⟩ := wellFormed
  cases mode with
  | read =>
    obtain rfl : value = none := by simpa using written
    exact .inl ⟨rfl, by simp [render, request, Request.ofMode, Request.suffix]⟩
  | describe =>
    obtain rfl : value = none := by simpa using written
    exact .inr (.inl ⟨rfl, by simp [render, request, Request.ofMode, Request.suffix]⟩)
  | write =>
    obtain ⟨value, rfl⟩ := Option.isSome_iff_exists.mp (written.mpr rfl)
    exact .inr (.inr ⟨value, plain value rfl, rfl, by simp [render, request, Request.ofMode, Request.suffix]⟩)

theorem render_some (wellFormed : l.WellFormed) : l.render.toList ≠ [] := by
  simp [render, wellFormed.named.some]

theorem render_head (wellFormed : l.WellFormed) : ∀ c ∈ l.render.toList.head?, Text.isBlank c = false := by
  obtain ⟨c, rest, letters⟩ := List.exists_cons_of_ne_nil wellFormed.named.some
  have clean : Text.isBlank c = false := wellFormed.named.unblank c (letters ▸ List.mem_cons_self)
  simpa [render, letters] using clean

theorem render_last (wellFormed : l.WellFormed) : ∀ c ∈ l.render.toList.getLast?, Text.isBlank c = false := by
  rcases suffix_cases wellFormed with ⟨_, text⟩ | ⟨_, text⟩ | ⟨value, ⟨last, _⟩, _, text⟩
  · rw [text]
    exact fun c final => wellFormed.named.unblank c (List.mem_of_getLast? final)
  · rw [text, List.getLast?_append]
    rintro c ⟨⟩
    decide
  · rw [text, List.getLast?_append, List.getLast?_cons]
    cases final : value.toList.getLast? with
    | none =>
      rintro c ⟨⟩
      decide
    | some c => simpa using last c final

/-! ### What a line asks for -/

/-- What is left of a line when the blanks around it and the radix are gone. -/
def body (line radix : String) : List Char :=
  (stripLead? radix.toList (Text.trim line.toList)).getD (Text.trim line.toList)

theorem body_last (line radix : String) : ∀ c ∈ (body line radix).getLast?, Text.isBlank c = false := by
  intro c final
  unfold body at final
  cases stripped : stripLead? radix.toList (Text.trim line.toList) with
  | none =>
    rw [stripped, Option.getD_none] at final
    exact Text.trimEnd_last_not_blank final
  | some rest =>
    rw [stripped, Option.getD_some] at final
    have whole := stripLead?_eq_some.mp stripped
    have last : (Text.trim line.toList).getLast? = some c := by
      rw [whole, List.getLast?_append, Option.mem_def.mp final, Option.some_or]
    exact Text.trimEnd_last_not_blank last

def refused (line : String) : Error := .malformed (String.ofList (Text.trim line.toList))

theorem parse_of_no_equals {name : List Char} (split : splitEquals (body line radix) = (name, none)) :
    parse line radix = if nameIsFit name then .ok ⟨String.ofList name, .read, none⟩ else .error (refused line) := by
  unfold body at split
  simp only [parse, split, Option.isSome_none, Bool.false_eq_true, if_false, modeOf]
  rfl

theorem parse_of_equals {name rest : List Char} (split : splitEquals (body line radix) = (name, some rest)) :
    parse line radix = if nameIsFit (Text.trim name) then
        .ok ⟨String.ofList (Text.trim name), (modeOf (some rest)).1, (modeOf (some rest)).2⟩
      else .error (refused line) := by
  unfold body at split
  simp only [parse, split, Option.isSome_some, if_true]
  rfl

theorem parse_error {e : Error} (unparsed : parse line radix = .error e) : e = refused line := by
  rcases splitEquals_cases (body line radix) with ⟨_, split⟩ | ⟨name, rest, _, _, split⟩
  · rw [parse_of_no_equals split] at unparsed
    split at unparsed <;> cases unparsed
    rfl
  · rw [parse_of_equals split] at unparsed
    split at unparsed <;> cases unparsed
    rfl

theorem modeOf_write {value : List Char} (other : value ≠ ['?']) :
    modeOf (some value) = (.write, some (String.ofList value)) := by
  unfold modeOf
  split <;> simp_all

theorem named_of_fit {name : List Char} (fit : nameIsFit name = true) (absent : '=' ∉ name) :
    Named (String.ofList name) := by
  obtain ⟨some, clean⟩ : name ≠ [] ∧ ∀ c ∈ name, Text.isBlank c = false := by simpa [nameIsFit] using fit
  constructor <;> rwa [String.toList_ofList]

theorem wellFormed_of_parse (parsed : parse line radix = .ok l) : l.WellFormed := by
  rcases splitEquals_cases (body line radix) with ⟨absent, split⟩ | ⟨name, rest, absent, whole, split⟩
  · rw [parse_of_no_equals split] at parsed
    split at parsed
    · rename_i fit
      cases parsed
      exact ⟨named_of_fit fit absent, by simp, by simp⟩
    · cases parsed
  · rw [parse_of_equals split] at parsed
    split at parsed
    · rename_i fit
      have absent' : '=' ∉ Text.trim name := fun member => absent ((Text.trim_sublist name).subset member)
      have named := named_of_fit fit absent'
      by_cases asks : rest = ['?']
      · subst asks
        cases parsed
        exact ⟨named, by simp [modeOf], by simp [modeOf]⟩
      · -- The value ends where the line ends, so not in a blank.
        rw [modeOf_write asks] at parsed
        cases parsed
        refine ⟨named, by simp, ?_⟩
        rintro value ⟨⟩
        refine ⟨fun c final => body_last line radix c ?_, fun same => asks (String.ofList_inj.mp same)⟩
        rw [String.toList_ofList, Option.mem_def] at final
        rw [whole, List.getLast?_append, List.getLast?_cons, final]
        rfl
    · cases parsed

/-! ### Requests as lines -/

theorem nameIsFit_of_named {name : String} (named : Named name) : nameIsFit name.toList = true := by
  have clean : name.toList.any Text.isBlank = false := List.any_eq_false.mpr fun c member => by
    simp [named.unblank c member]
  simp [nameIsFit, named.some, clean]

/-- A line whose text between blanks and radix is that of a request asks for it. -/
theorem parse_of_body (wellFormed : l.WellFormed) (left : body line radix = l.render.toList) :
    parse line radix = .ok l := by
  have absent := wellFormed.named.noEquals
  have clean : Text.trim l.name.toList = l.name.toList := Text.trim_of_no_blank wellFormed.named.unblank
  have fit := nameIsFit_of_named wellFormed.named
  rcases suffix_cases wellFormed with ⟨same, text⟩ | ⟨same, text⟩ | ⟨value, ⟨_, other⟩, same, text⟩
  · have split : splitEquals (body line radix) = (l.name.toList, none) := by
      rw [left, text, splitEquals_of_absent absent]
    rw [parse_of_no_equals split, if_pos fit, String.ofList_toList, ← same]
  · have split : splitEquals (body line radix) = (l.name.toList, some ['?']) := by
      rw [left, text, splitEquals_append absent]
    rw [parse_of_equals split, clean, if_pos fit, String.ofList_toList, modeOf, ← same]
  · have split : splitEquals (body line radix) = (l.name.toList, some value.toList) := by
      rw [left, text, splitEquals_append absent]
    have mode : modeOf (some value.toList) = (.write, some value) := by
      rw [modeOf_write fun same => other (String.toList_inj.mp same), String.ofList_toList]
    rw [parse_of_equals split, clean, if_pos fit, String.ofList_toList, mode, ← same]

theorem parse_render (wellFormed : l.WellFormed) (unindented : Unindented radix) (ws ws' : String)
    (blank : Text.Blank ws.toList) (blank' : Text.Blank ws'.toList) :
    parse (ws ++ radix ++ l.render ++ ws') radix = .ok l := by
  have some := render_some wellFormed
  have head : ∀ c ∈ (radix.toList ++ l.render.toList).head?, Text.isBlank c = false := by
    intro c first
    rw [List.head?_append, Option.mem_def, Option.or_eq_some_iff] at first
    rcases first with first | ⟨_, first⟩
    · exact unindented c first
    · exact render_head wellFormed c first
  have last : ∀ c ∈ (radix.toList ++ l.render.toList).getLast?, Text.isBlank c = false := by
    intro c final
    rw [List.getLast?_append, Option.mem_def, Option.or_eq_some_iff] at final
    rcases final with final | ⟨empty, _⟩
    · exact render_last wellFormed c final
    · exact absurd (List.getLast?_eq_none_iff.mp empty) some
  have trimmed : Text.trim (ws ++ radix ++ l.render ++ ws').toList = radix.toList ++ l.render.toList := by
    rw [String.toList_append, String.toList_append, String.toList_append, List.append_assoc ws.toList]
    exact Text.trim_around blank blank' (List.append_ne_nil_of_right_ne_nil _ some) head last
  apply parse_of_body wellFormed
  rw [body, trimmed, stripLead?_eq_some.mpr rfl, Option.getD_some]

/-- The radix may be left out in front of a request that does not begin with it. -/
theorem parse_bare (wellFormed : l.WellFormed) (other : radix.toList <+: l.render.toList → radix = "")
    (ws ws' : String) (blank : Text.Blank ws.toList) (blank' : Text.Blank ws'.toList) :
    parse (ws ++ l.render ++ ws') radix = .ok l := by
  have trimmed : Text.trim (ws ++ l.render ++ ws').toList = l.render.toList := by
    rw [String.toList_append, String.toList_append]
    exact Text.trim_around blank blank' (render_some wellFormed) (render_head wellFormed) (render_last wellFormed)
  apply parse_of_body wellFormed
  rw [body, trimmed]
  cases stripped : stripLead? radix.toList l.render.toList with
  | none => rw [Option.getD_none]
  | some rest =>
    -- Only an empty radix stands in front of the request, and nothing is taken off.
    have whole := stripLead?_eq_some.mp stripped
    obtain rfl : radix = "" := other ⟨rest, whole.symm⟩
    rw [Option.getD_some, whole, String.toList_empty, List.nil_append]

theorem parse_indented (wellFormed : l.WellFormed) (indented : ¬ Unindented radix) : parse l.render radix = .ok l := by
  have other : radix.toList <+: l.render.toList → radix = "" := by
    rintro ⟨rest, whole⟩
    refine absurd (fun c first => render_head wellFormed c ?_) indented
    rw [← whole, List.head?_append, Option.mem_def.mp first, Option.some_or]
    rfl
  simpa using parse_bare wellFormed other "" "" Text.blank_empty Text.blank_empty

/-- An accepted line asks for a well-formed request, and every well-formed request is asked for by its name and
suffix, behind a radix that does not begin with a blank and with any blanks around. So exactly the well-formed
requests are asked for, under whatever radix, and an accepted line may as well be written in that form. -/
theorem parse_inverts_render :
    (∀ line radix l, parse line radix = .ok l → l.WellFormed) ∧
    (∀ l radix ws ws', l.WellFormed → Unindented radix → Text.Blank ws.toList → Text.Blank ws'.toList →
      parse (ws ++ radix ++ l.render ++ ws') radix = .ok l) ∧
    (∀ radix l, (∃ line, parse line radix = .ok l) ↔ l.WellFormed) ∧
    ∀ line radix l, parse line radix = .ok l → parse l.render "" = .ok l ∧
      (Unindented radix → parse (radix ++ l.render) radix = .ok l) ∧
      (¬ Unindented radix → parse l.render radix = .ok l) := by
  have prefixed {l : Line} {radix : String} (wellFormed : l.WellFormed) (unindented : Unindented radix) :
      parse (radix ++ l.render) radix = .ok l := by
    simpa using parse_render wellFormed unindented "" "" Text.blank_empty Text.blank_empty
  refine ⟨fun _ _ _ => wellFormed_of_parse, ?_, ?_, ?_⟩
  · intro l radix ws ws' wellFormed unindented
    exact parse_render wellFormed unindented ws ws'
  · intro radix l
    refine ⟨fun ⟨_, parsed⟩ => wellFormed_of_parse parsed, fun wellFormed => ?_⟩
    by_cases unindented : Unindented radix
    · exact ⟨_, prefixed wellFormed unindented⟩
    · exact ⟨_, parse_indented wellFormed unindented⟩
  · intro line radix l parsed
    have wellFormed := wellFormed_of_parse parsed
    have empty : Unindented "" := nofun
    exact ⟨by simpa using prefixed wellFormed empty, prefixed wellFormed, parse_indented wellFormed⟩

/-- The first equals sign ends the name, and a blank behind it belongs to the value. -/
example : parse " $APN = a=b \r\n" "$" = .ok ⟨"APN", .write, some " a=b"⟩ := rfl

end Line

end Attribute

end Switchboard
