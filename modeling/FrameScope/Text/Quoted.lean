import FrameScope.Text.Printable

/-!
# Texts in descriptions

A description of a value for a programmer shows a text between quotes. What would not show as
itself stands as an escape: a short one for NUL, tab, line ends, quote and backslash, else the code
point in braces.
-/

namespace FrameScope.Text

/-- A number in hexadecimal digits, lower case. -/
def hexadecimal (n : Nat) : List Char := (Nat.toDigits 16 n)

/-- A code point in braces. -/
def codePoint (c : Char) : List Char := ['\\', 'u', '\x7b'] ++ hexadecimal c.toNat ++ ['\x7d']

/-- A character between the quotes. -/
def describeChar (c : Char) : List Char :=
  if c = '\x00' then ['\\', '0']
  else if c = '\t' then ['\\', 't']
  else if c = '\r' then ['\\', 'r']
  else if c = '\n' then ['\\', 'n']
  else if c = '"' then ['\\', '"']
  else if c = '\\' then ['\\', '\\']
  else if isExtending c then codePoint c
  else if isPrintable c then [c]
  else codePoint c

def describe (s : String) : String :=
  String.ofList ('"' :: (s.toList.flatMap describeChar ++ ['"']))

def describe? : Option String → String
  | some s => s!"Some({describe s})"
  | none => "None"

end FrameScope.Text
