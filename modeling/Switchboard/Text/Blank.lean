/-!
Blanks: the 25 characters with the property White_Space, trimming them off the ends of a text, and padding a text with
spaces on the right to a column as wide as a number of characters. Main statements: trimming leaves a text whose first and
last characters are not blank; a text wider than its column is kept whole.
-/

namespace Switchboard.Text

/-- The characters with the property White_Space. -/
def blanks : List Char :=
  ['\t', '\n', '\x0b', '\x0c', '\r', ' ', '\u0085', '\u00a0', '\u1680', '\u2000', '\u2001', '\u2002',
    '\u2003', '\u2004', '\u2005', '\u2006', '\u2007', '\u2008', '\u2009', '\u200a', '\u2028', '\u2029',
    '\u202f', '\u205f', '\u3000']

def isBlank (c : Char) : Bool := blanks.contains c

def trimStart (text : List Char) : List Char := text.dropWhile isBlank

def trimEnd (text : List Char) : List Char := (text.reverse.dropWhile isBlank).reverse

def trim (text : List Char) : List Char := trimEnd (trimStart text)

theorem trimStart_head_not_blank {text : List Char} {c : Char} (h : (trimStart text).head? = some c) :
    isBlank c = false := by
  have := List.head?_dropWhile_not isBlank text
  rw [show List.dropWhile isBlank text = trimStart text from rfl, h] at this
  simpa using this

theorem trimEnd_last_not_blank {text : List Char} {c : Char} (h : (trimEnd text).getLast? = some c) :
    isBlank c = false := by
  rw [trimEnd, List.getLast?_reverse] at h
  exact trimStart_head_not_blank h

def column (width : Nat) (text : String) : String :=
  text ++ String.ofList (List.replicate (width - text.length) ' ')

theorem column_of_le {width : Nat} {text : String} (wide : width ≤ text.length) : column width text = text := by
  simp [column, Nat.sub_eq_zero_of_le wide]

end Switchboard.Text
