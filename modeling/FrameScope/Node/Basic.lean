import FrameScope.Amount.Basic
import FrameScope.Json.Basic

/-!
# Documents as a decoder sees them

Text, untyped values, buffered documents and binary records are all read as one tree. Where the
source breaks off, the tree holds a leaf that says so, and a decoder that walks in source order
meets the first fault first.

* `Node`: the tree; `Key`: what stands before a value in a map;
* `Medium`: where a tree comes from, which decides how strictly it is read;
* `DecodeError`: why a decoder stops;
* `Decoder`: from a tree to a typed thing.
-/

namespace FrameScope

/-- The key of a map entry. -/
inductive Key where
  | name (s : String)
  /-- A field by its number. -/
  | index (n : Nat)
  /-- A name as bytes. -/
  | bytes (b : List UInt8)
  /-- Any other value in the place of a key. -/
  | other
  /-- A string literal that holds no text. -/
  | unreadable
  deriving DecidableEq, Repr, Inhabited

/-- A document, in the order of its source. -/
inductive Node where
  | null
  /-- Nothing, other than by `null` itself. -/
  | absent
  | bool (b : Bool)
  /-- An integer. -/
  | int (i : Int)
  /-- A number of 64 bits. -/
  | float (x : Binary64)
  /-- A number known by its spelling. -/
  | num (n : Number)
  | text (s : String)
  | bytes (b : List UInt8)
  | seq (items : List Node)
  | map (entries : List (Key × Node))
  /-- A string literal that holds no text; it can only be skipped. -/
  | unreadable
  /-- A container below the deepest level that is read; it can only be skipped. -/
  | deep (inner : Node)
  /-- Where the source is no document any more. -/
  | broken
  deriving Inhabited

/-- Where a document comes from. -/
inductive Medium where
  /-- A JSON text. -/
  | text
  /-- An untyped JSON value. -/
  | value
  /-- A document held back until its shape is known. -/
  | buffered
  /-- A binary record. -/
  | binary
  deriving DecidableEq, Repr

/-- Why a document does not decode. -/
inductive DecodeError where
  /-- The source is no document. -/
  | malformed
  | missingField (name : String)
  | unknownVariant (name : String)
  | duplicateField (name : String)
  | invalidType
  | invalidValue
  | invalidLength
  | notAnAmount (cause : AmountError)
  /-- A spelling that is no number; whether it only lacks a digit at its end. -/
  | notANumber (unfinished : Bool)
  /-- None of the alternatives of a type fits. -/
  | noAlternative (type : String)
  deriving DecidableEq, Repr

/-- The wording of a failure to decode; a malformed source has none. -/
def DecodeError.message? : DecodeError → Option String
  | .malformed => none
  | .missingField name => some s!"missing field `{name}`"
  | .unknownVariant name => some s!"unknown variant `{name}`"
  | .duplicateField name => some s!"duplicate field `{name}`"
  | .invalidType => some "invalid type"
  | .invalidValue => some "invalid value"
  | .invalidLength => some "invalid length"
  | .notAnAmount cause => some cause.message
  | .notANumber true => some "EOF while parsing a value"
  | .notANumber false => some "invalid number"
  | .noAlternative type => some s!"data did not match any variant of untagged enum {type}"

/-- Reads a typed thing from a document. -/
abbrev Decoder (α : Type) := Medium → Node → Except DecodeError α

namespace Node

mutual

/-- An untyped value as a document. -/
def ofJson : Json → Node
  | .null => .null
  | .bool b => .bool b
  | .num n => .num n
  | .str s => .text s
  | .arr items => .seq (ofJsonItems items)
  | .obj fields => .map (ofJsonFields fields)

def ofJsonItems : List Json → List Node
  | [] => []
  | v :: rest => ofJson v :: ofJsonItems rest

def ofJsonFields : List (String × Json) → List (Key × Node)
  | [] => []
  | (k, v) :: rest => (.name k, ofJson v) :: ofJsonFields rest

end

mutual

/-- The untyped value that writes a document; a number that is not finite is written `null`. -/
def toJson : Node → Json
  | .bool b => .bool b
  | .int i => .num (Number.ofInt i)
  | .float x => match Number.ofBinary64? x with
    | some n => .num n
    | none => .null
  | .num n => .num n
  | .text s => .str s
  | .seq items => .arr (toJsonItems items)
  | .map entries => .obj (toJsonFields entries)
  | _ => .null

def toJsonItems : List Node → List Json
  | [] => []
  | v :: rest => toJson v :: toJsonItems rest

def toJsonFields : List (Key × Node) → List (String × Json)
  | [] => []
  | (.name k, v) :: rest => (k, toJson v) :: toJsonFields rest
  | _ :: rest => toJsonFields rest

end

mutual

/-- Passes over a document that nobody wants: only a break of the source stops it. -/
def skip : Node → Except DecodeError Unit
  | .broken => .error .malformed
  | .deep inner => skip inner
  | .seq items => skipItems items
  | .map entries => skipEntries entries
  | _ => .ok ()

def skipItems : List Node → Except DecodeError Unit
  | [] => .ok ()
  | v :: rest => do skip v; skipItems rest

def skipEntries : List (Key × Node) → Except DecodeError Unit
  | [] => .ok ()
  | (_, v) :: rest => do skip v; skipEntries rest

end

/-- The failure when a document is of another kind than the one wanted. A string literal or a break
of the source is met before its kind matters. -/
def mismatch : Node → DecodeError
  | .broken => .malformed
  | .unreadable => .malformed
  | _ => .invalidType

/-- The failure when a container is wanted. -/
def notContainer : Node → DecodeError
  | .deep _ => .malformed
  | node => mismatch node

end Node

/-- The failure of items left over at the end of a container. -/
def Medium.surplus : Medium → DecodeError
  | .text => .malformed
  | _ => .invalidLength

end FrameScope
