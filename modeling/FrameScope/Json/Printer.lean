import FrameScope.Json.Basic

/-!
# Writing JSON

* `Json.compact`: no blanks at all;
* `Json.pretty`: one item or field a line, two blanks of indent a level, empty containers closed
  at once.

In strings the quote, the backslash and the characters below U+0020 are escaped, nothing else.
-/

namespace FrameScope.Json

def hexDigit (n : Nat) : Char := if n < 10 then Char.ofNat (0x30 + n) else Char.ofNat (0x57 + n)

def escape (c : Char) : List Char :=
  if c = '"' then ['\\', '"']
  else if c = '\\' then ['\\', '\\']
  else if c = '\x08' then ['\\', 'b']
  else if c = '\t' then ['\\', 't']
  else if c = '\n' then ['\\', 'n']
  else if c = '\x0c' then ['\\', 'f']
  else if c = '\r' then ['\\', 'r']
  else if c.toNat < 0x20 then
    ['\\', 'u', '0', '0', hexDigit (c.toNat / 16), hexDigit (c.toNat % 16)]
  else [c]

def quote (s : String) : List Char := '"' :: (s.toList.flatMap escape ++ ['"'])

mutual

def compactChars : Json → List Char
  | .null => ['n', 'u', 'l', 'l']
  | .bool true => ['t', 'r', 'u', 'e']
  | .bool false => ['f', 'a', 'l', 's', 'e']
  | .num n => n.chars
  | .str s => quote s
  | .arr items => '[' :: (compactItems items ++ [']'])
  | .obj fields => '{' :: (compactFields fields ++ ['}'])

def compactItems : List Json → List Char
  | [] => []
  | [v] => compactChars v
  | v :: w :: rest => compactChars v ++ ',' :: compactItems (w :: rest)

def compactFields : List (String × Json) → List Char
  | [] => []
  | [(k, v)] => quote k ++ ':' :: compactChars v
  | (k, v) :: f :: rest => quote k ++ ':' :: (compactChars v ++ ',' :: compactFields (f :: rest))

end

def compact (v : Json) : String := String.ofList v.compactChars

/-- A new line at a level of indent. -/
def newline (level : Nat) : List Char := '\n' :: List.replicate (2 * level) ' '

mutual

/-- The text on several lines, at a level of indent. -/
def prettyChars (level : Nat) : Json → List Char
  | .arr (v :: rest) =>
    '[' :: (newline (level + 1) ++ prettyItems (level + 1) (v :: rest) ++ newline level ++ [']'])
  | .obj (f :: rest) =>
    '{' :: (newline (level + 1) ++ prettyFields (level + 1) (f :: rest) ++ newline level ++ ['}'])
  | .arr [] => ['[', ']']
  | .obj [] => ['{', '}']
  | .null => ['n', 'u', 'l', 'l']
  | .bool true => ['t', 'r', 'u', 'e']
  | .bool false => ['f', 'a', 'l', 's', 'e']
  | .num n => n.chars
  | .str s => quote s

def prettyItems (level : Nat) : List Json → List Char
  | [] => []
  | [v] => prettyChars level v
  | v :: w :: rest => prettyChars level v ++ ',' :: (newline level ++ prettyItems level (w :: rest))

def prettyFields (level : Nat) : List (String × Json) → List Char
  | [] => []
  | [(k, v)] => quote k ++ ':' :: ' ' :: prettyChars level v
  | (k, v) :: f :: rest =>
    quote k ++ ':' :: ' ' ::
      (prettyChars level v ++ ',' :: (newline level ++ prettyFields level (f :: rest)))

end

def pretty (v : Json) : String := String.ofList (v.prettyChars 0)

end FrameScope.Json
