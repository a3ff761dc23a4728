import FrameScope.Node.Basic
import FrameScope.Text.Utf8

/-!
# Reading JSON text

The text becomes a document tree. Reading never fails: where the text breaks, the tree ends in a
leaf `broken`, as one more item or entry of the container that is open there.

* `Document.ofChars`: the tree of a whole text and whether something follows it;
* `Document.decode`: a typed thing from a text.
-/

namespace FrameScope

namespace JsonText

def isBlank (c : Char) : Bool := c = ' ' || c = '\n' || c = '\t' || c = '\r'

def skipBlanks (cs : List Char) : List Char := cs.dropWhile isBlank

/-! ## Strings -/

def hexValue? (c : Char) : Option Nat :=
  if '0' ≤ c ∧ c ≤ '9' then some (c.toNat - 0x30)
  else if 'a' ≤ c ∧ c ≤ 'f' then some (c.toNat - 0x57)
  else if 'A' ≤ c ∧ c ≤ 'F' then some (c.toNat - 0x37)
  else none

def hexWord? (a b c d : Char) : Option Nat := do
  let a ← hexValue? a
  let b ← hexValue? b
  let c ← hexValue? c
  let d ← hexValue? d
  some (((a * 16 + b) * 16 + c) * 16 + d)

def escaped? : Char → Option Char
  | '"' => some '"'
  | '\\' => some '\\'
  | '/' => some '/'
  | 'b' => some '\x08'
  | 'f' => some '\x0c'
  | 'n' => some '\n'
  | 'r' => some '\r'
  | 't' => some '\t'
  | _ => none

/-- A piece of a string literal: a character, or a 16-bit unit given by its number. -/
inductive Piece where
  | char (c : Char)
  | unit (n : Nat)
  deriving DecidableEq, Repr

/-- The pieces up to the closing quote and what follows it. -/
def pieces : List Char → Option (List Piece × List Char)
  | [] => none
  | '"' :: rest => some ([], rest)
  | '\\' :: 'u' :: a :: b :: c :: d :: rest => do
    let n ← hexWord? a b c d
    let (ps, rest) ← pieces rest
    some (.unit n :: ps, rest)
  | '\\' :: e :: rest => do
    let c ← escaped? e
    let (ps, rest) ← pieces rest
    some (.char c :: ps, rest)
  | c :: rest =>
    if c = '\\' ∨ c.toNat < 0x20 then none
    else do
      let (ps, rest) ← pieces rest
      some (.char c :: ps, rest)

/-- The text of pieces: two surrogates in a row are one character, a lone one is none. -/
def joinPieces : List Piece → Option (List Char)
  | [] => some []
  | .char c :: rest => (joinPieces rest).map (c :: ·)
  | .unit n :: rest =>
    if n < 0xD800 ∨ 0xE000 ≤ n then (joinPieces rest).map (Char.ofNat n :: ·)
    else if n < 0xDC00 then
      match rest with
      | .unit m :: rest =>
        if 0xDC00 ≤ m ∧ m < 0xE000 then
          (joinPieces rest).map (Char.ofNat (0x10000 + (n - 0xD800) * 0x400 + (m - 0xDC00)) :: ·)
        else none
      | _ => none
    else none

/-- The literal behind its opening quote: its text, if it holds one, and what follows. -/
def readString (cs : List Char) : Option (Option String × List Char) := do
  let (ps, rest) ← pieces cs
  some ((joinPieces ps).map String.ofList, rest)

/-! ## Values -/

/-- A literal word and what follows. -/
def readWord (word : List Char) (node : Node) (cs : List Char) : Node × Option (List Char) :=
  if word.isPrefixOf cs then (node, some (cs.drop word.length)) else (.broken, none)

/-- Strings, numbers and words; any other character breaks the text. -/
def readScalar (cs : List Char) : Node × Option (List Char) :=
  match cs with
  | [] => (.broken, none)
  | '"' :: rest =>
    match readString rest with
    | some (some s, rest) => (.text s, some rest)
    | some (none, rest) => (.unreadable, some rest)
    | none => (.broken, none)
  | 'n' :: _ => readWord ['n', 'u', 'l', 'l'] .null cs
  | 't' :: _ => readWord ['t', 'r', 'u', 'e'] (.bool true) cs
  | 'f' :: _ => readWord ['f', 'a', 'l', 's', 'e'] (.bool false) cs
  | _ =>
    match Number.scan cs with
    | some (n, rest) => (.num n, some rest)
    | none => (.broken, none)

/-- A container, at a level that is still read or below it. -/
def atLevel (level : Nat) (node : Node) : Node := if level = 0 then .deep node else node

/-- The entry that stands where a key should: a value, or no value at all. -/
def strayKey (cs : List Char) : Key × Node :=
  match cs with
  | '[' :: _ => (.other, .broken)
  | '{' :: _ => (.other, .broken)
  | cs =>
    match readScalar cs with
    | (.broken, _) => (.unreadable, .broken)
    | _ => (.other, .broken)

mutual

/-- The value at the start of a text and what follows it, nothing when the text breaks. `level`
counts the containers that may still be opened. -/
def readValue : Nat → Nat → List Char → Node × Option (List Char)
  | 0, _, _ => (.broken, none)
  | fuel + 1, level, cs =>
    match skipBlanks cs with
    | '[' :: rest =>
      match skipBlanks rest with
      | ']' :: rest => (atLevel level (.seq []), some rest)
      | rest =>
        let (items, rest) := readItems fuel (level - 1) rest
        (atLevel level (.seq items), rest)
    | '{' :: rest =>
      match skipBlanks rest with
      | '}' :: rest => (atLevel level (.map []), some rest)
      | rest =>
        let (entries, rest) := readEntries fuel (level - 1) rest
        (atLevel level (.map entries), rest)
    | cs => readScalar cs

/-- Items up to the closing bracket, at least one. -/
def readItems : Nat → Nat → List Char → List Node × Option (List Char)
  | 0, _, _ => ([.broken], none)
  | fuel + 1, level, cs =>
    match readValue fuel level cs with
    | (v, none) => ([v], none)
    | (v, some rest) =>
      match skipBlanks rest with
      | ',' :: rest =>
        let (items, rest) := readItems fuel level rest
        (v :: items, rest)
      | ']' :: rest => ([v], some rest)
      | _ => ([v, .broken], none)

/-- Entries up to the closing brace, at least one. -/
def readEntries : Nat → Nat → List Char → List (Key × Node) × Option (List Char)
  | 0, _, _ => ([(.unreadable, .broken)], none)
  | fuel + 1, level, cs =>
    match skipBlanks cs with
    | '"' :: rest =>
      match readString rest with
      | none => ([(.unreadable, .broken)], none)
      | some (name, rest) =>
        let key : Key := match name with
          | some s => .name s
          | none => .unreadable
        match skipBlanks rest with
        | ':' :: rest =>
          match readValue fuel level rest with
          | (v, none) => ([(key, v)], none)
          | (v, some rest) =>
            match skipBlanks rest with
            | ',' :: rest =>
              let (entries, rest) := readEntries fuel level rest
              ((key, v) :: entries, rest)
            | '}' :: rest => ([(key, v)], some rest)
            | _ => ([(key, v), (.unreadable, .broken)], none)
        | _ => ([(key, .broken)], none)
    | cs => ([strayKey cs], none)

end

/-- The containers that may be open at once. -/
def maxDepth : Nat := 127

end JsonText

/-- A whole text: its tree, and whether anything but blanks follows it. -/
structure Document where
  root : Node
  trailing : Bool

namespace Document

/-- The tree of a text. -/
def ofChars (cs : List Char) : Document :=
  match JsonText.readValue (cs.length + 1) JsonText.maxDepth cs with
  | (root, some rest) => ⟨root, JsonText.skipBlanks rest != []⟩
  | (root, none) => ⟨root, false⟩

/-- A typed thing from a text; what follows the tree is looked at last. -/
def decode (decoder : Decoder α) (doc : Document) : Except DecodeError α := do
  let x ← decoder .text doc.root
  if doc.trailing then .error .malformed else .ok x

end Document

end FrameScope
