import Switchboard.Text.Extending
import Switchboard.Text.Unprintable

/-!
Quoted text: a text between double quotes, with every character that a reader could mistake or not
see at all written as an escape. An apostrophe stands for itself.
-/

namespace Switchboard.Text

/-- A code point in lower-case hexadecimal between braces. -/
def codePoint (c : Char) : List Char :=
  '\\' :: 'u' :: '\x7b' :: Nat.toDigits 16 c.toNat ++ ['\x7d']

def quoteChar (c : Char) : List Char :=
  if c = '\x00' then ['\\', '0']
  else if c = '\t' then ['\\', 't']
  else if c = '\r' then ['\\', 'r']
  else if c = '\n' then ['\\', 'n']
  else if c = '"' then ['\\', '"']
  else if c = '\\' then ['\\', '\\']
  else if isExtending c || isUnprintable c then codePoint c
  else [c]

def quoted (text : String) : String :=
  String.ofList ('"' :: text.toList.flatMap quoteChar ++ ['"'])

end Switchboard.Text
