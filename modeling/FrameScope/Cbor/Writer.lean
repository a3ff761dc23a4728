import FrameScope.Node.Read

/-!
# Writing CBOR

A document as bytes: definite lengths, every head in its shortest form. A number known by its
spelling is the one-entry map of that spelling.
-/

namespace FrameScope.Cbor

/-- Bytes of a file or of a record. -/
abbrev Bytes := List UInt8

/-- A number as `count` bytes, most significant first. -/
def bigEndian : Nat → Nat → Bytes
  | 0, _ => []
  | count + 1, n => UInt8.ofNat (n / Nat.pow 256 count) :: bigEndian count n

/-- The head of an item: its major type and its argument, as short as it goes. -/
def head (major argument : Nat) : Bytes :=
  let start := fun info => UInt8.ofNat (major * 32 + info)
  if argument < 24 then [start argument]
  else if argument < 256 then start 24 :: bigEndian 1 argument
  else if argument < 65536 then start 25 :: bigEndian 2 argument
  else if argument < Word.narrowSize then start 26 :: bigEndian 4 argument
  else start 27 :: bigEndian 8 argument

def writeText (s : String) : Bytes :=
  let bytes := Text.toBytes s
  head 3 bytes.length ++ bytes

def writeInt (i : Int) : Bytes := if i < 0 then head 1 (-1 - i).toNat else head 0 i.toNat

def writeNumber (n : Number) : Bytes := head 5 1 ++ writeText Read.numberKey ++ writeText n.text

mutual

/-- A document as bytes. Only what a document is written from has a form of its own; anything else
is `null`. -/
def write : Node → Bytes
  | .bool false => [0xF4]
  | .bool true => [0xF5]
  | .int i => writeInt i
  | .num n => writeNumber n
  | .text s => writeText s
  | .bytes b => head 2 b.length ++ b
  | .seq items => head 4 items.length ++ writeItems items
  | .map entries => head 5 entries.length ++ writeEntries entries
  | _ => [0xF6]

def writeItems : List Node → Bytes
  | [] => []
  | v :: rest => write v ++ writeItems rest

def writeEntries : List (Key × Node) → Bytes
  | [] => []
  | (k, v) :: rest => writeKey k ++ write v ++ writeEntries rest

def writeKey : Key → Bytes
  | .name s => writeText s
  | .index n => head 0 n
  | .bytes b => head 2 b.length ++ b
  | _ => [0xF6]

end

end FrameScope.Cbor
