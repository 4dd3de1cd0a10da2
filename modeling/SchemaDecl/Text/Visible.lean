/-
Texts that show every character.

* `visible`: the text between quotes; quotes, backslashes and characters that do not show by
  themselves are escaped.
* `inert`: the text with the controls escaped that a terminal would obey.
-/
import SchemaDecl.Text.Hidden

namespace SchemaDecl.Text

/-- The code of a character between braces. -/
def writtenCode (c : Char) : List Char :=
  ['\\', 'u', Char.ofNat 123] ++ Nat.toDigits 16 c.toNat ++ [Char.ofNat 125]

/-- One character of a quoted text. -/
def visibleChar (c : Char) : List Char :=
  if c.toNat = 0 then ['\\', '0']
  else if c == '\t' then ['\\', 't']
  else if c == '\r' then ['\\', 'r']
  else if c == '\n' then ['\\', 'n']
  else if c == '"' then ['\\', '"']
  else if c == '\\' then ['\\', '\\']
  else if isHidden c then writtenCode c
  else [c]

/-- A text between quotes, with escapes for what would not show. -/
def visible (s : String) : String :=
  String.ofList ('"' :: s.toList.flatMap visibleChar ++ ['"'])

/-- One character of a text for a terminal. The bell, the backspace, the form feed, the escape and
the delete character have a code of two digits, the controls from U+0080 on a code between braces.
Line breaks and tabs lay out the text and stay. -/
def inertChar (c : Char) : List Char :=
  match c.toNat with
  | 0x07 => ['\\', 'x', '0', '7']
  | 0x08 => ['\\', 'x', '0', '8']
  | 0x0C => ['\\', 'x', '0', 'c']
  | 0x1B => ['\\', 'x', '1', 'b']
  | 0x7F => ['\\', 'x', '7', 'f']
  | n => if 0x80 ≤ n && n < 0xA0 then writtenCode c else [c]

/-- A text that a terminal shows and does not obey. -/
def inert (s : String) : String := String.ofList (s.toList.flatMap inertChar)

end SchemaDecl.Text
