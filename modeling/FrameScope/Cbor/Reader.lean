import FrameScope.Cbor.Writer
import FrameScope.Node.Basic
import FrameScope.Text.Utf8

/-!
# Reading CBOR

Any well-formed item is read: heads of any width, definite and indefinite lengths, tags (passed
over), integers, floats of three widths, and the simple values for truth, `null` and `undefined`.
At most 127 containers and tags may be open at once.

* `Cbor.read`: the document of bytes that are one item and nothing else.
-/

namespace FrameScope.Cbor

/-- The number of bytes, most significant first. -/
def ofBigEndian (bytes : Bytes) : Nat := bytes.foldl (fun n b => n * 256 + b.toNat) 0

/-- The first `count` bytes and what follows, if there are that many. -/
def take? (count : Nat) (bytes : Bytes) : Option (Bytes × Bytes) :=
  let front := bytes.take count
  if front.length = count then some (front, bytes.drop count) else none

/-- The argument of a head, and what follows it. -/
def readArgument (info : Nat) (bytes : Bytes) : Option (Nat × Bytes) :=
  if info < 24 then some (info, bytes)
  else if info < 28 then
    (take? (Nat.pow 2 (info - 24)) bytes).map fun (argument, rest) => (ofBigEndian argument, rest)
  else none

/-- The mark of an indefinite length. -/
def indefinite : Nat := 31

def breakByte : UInt8 := 0xFF

/-- The chunks of a string of indefinite length, up to the break. -/
def readChunks (major : Nat) : Nat → Bytes → Option (Bytes × Bytes)
  | 0, _ => none
  | _, [] => none
  | fuel + 1, b :: rest => do
    if b = breakByte then some ([], rest)
    else if b.toNat / 32 = major then
      let (count, rest) ← readArgument (b.toNat % 32) rest
      let (chunk, rest) ← take? count rest
      let (chunks, rest) ← readChunks major fuel rest
      some (chunk ++ chunks, rest)
    else none

/-- The bytes of a string, of definite or indefinite length. -/
def readStringBytes (major info : Nat) (rest : Bytes) : Option (Bytes × Bytes) := do
  if info = indefinite then readChunks major (rest.length + 1) rest
  else
    let (count, rest) ← readArgument info rest
    take? count rest

/-- Truth values, `null`, `undefined` and floats. -/
def readSimple (info : Nat) (rest : Bytes) : Option (Node × Bytes) :=
  match info with
  | 20 => some (.bool false, rest)
  | 21 => some (.bool true, rest)
  | 22 => some (.null, rest)
  | 23 => some (.absent, rest)
  | 25 => (take? 2 rest).map fun (b, rest) => (.float (.ofNarrowBits 5 10 (ofBigEndian b)), rest)
  | 26 => (take? 4 rest).map fun (b, rest) => (.float (.ofNarrowBits 8 23 (ofBigEndian b)), rest)
  | 27 => (take? 8 rest).map fun (b, rest) => (.float (.ofBits (ofBigEndian b)), rest)
  | _ => none

/-- An item in the place of a key. -/
def keyOf : Node → Key
  | .text s => .name s
  | .bytes b => .bytes b
  | .int i => if i < 0 then .other else .index i.toNat
  | _ => .other

/-- What a tag makes of an item: a tagged `null` is no plain one. -/
def tagged : Node → Node
  | .null => .absent
  | node => node

mutual

/-- The item at the start of bytes and what follows. `level` counts the containers that may still
be opened. -/
def readItem : Nat → Nat → Bytes → Option (Node × Bytes)
  | 0, _, _ => none
  | _, _, [] => none
  | fuel + 1, level, b :: rest =>
    let info := b.toNat % 32
    match b.toNat / 32 with
    | 0 => (readArgument info rest).map fun (n, rest) => (.int n, rest)
    | 1 => (readArgument info rest).map fun (n, rest) => (.int (-1 - n), rest)
    | 2 => (readStringBytes 2 info rest).map fun (b, rest) => (.bytes b, rest)
    | 3 => do
      let (bytes, rest) ← readStringBytes 3 info rest
      let s ← Text.ofBytes? bytes
      some (.text s, rest)
    | 4 =>
      if level = 0 then none
      else if info = indefinite then
        (readUntilBreak fuel (level - 1) rest).map fun (items, rest) => (.seq items, rest)
      else do
        let (count, rest) ← readArgument info rest
        let (items, rest) ← readItems fuel (level - 1) count rest
        some (.seq items, rest)
    | 5 =>
      if level = 0 then none
      else if info = indefinite then
        (readEntriesUntilBreak fuel (level - 1) rest).map fun (es, rest) => (.map es, rest)
      else do
        let (count, rest) ← readArgument info rest
        let (entries, rest) ← readEntries fuel (level - 1) count rest
        some (.map entries, rest)
    | 6 =>
      if level = 0 then none
      else do
        let (_, rest) ← readArgument info rest
        let (item, rest) ← readItem fuel (level - 1) rest
        some (tagged item, rest)
    | _ => readSimple info rest

def readItems : Nat → Nat → Nat → Bytes → Option (List Node × Bytes)
  | _, _, 0, bytes => some ([], bytes)
  | 0, _, _, _ => none
  | fuel + 1, level, count + 1, bytes =>
    match readItem fuel level bytes with
    | none => none
    | some (item, rest) =>
      (readItems fuel level count rest).map fun (items, rest) => (item :: items, rest)

def readUntilBreak : Nat → Nat → Bytes → Option (List Node × Bytes)
  | 0, _, _ => none
  | _, _, [] => none
  | fuel + 1, level, b :: rest =>
    if b = breakByte then some ([], rest)
    else
      match readItem fuel level (b :: rest) with
      | none => none
      | some (item, rest) =>
        (readUntilBreak fuel level rest).map fun (items, rest) => (item :: items, rest)

/-- A counted number of keys, each with its value. -/
def readEntries : Nat → Nat → Nat → Bytes → Option (List (Key × Node) × Bytes)
  | _, _, 0, bytes => some ([], bytes)
  | 0, _, _, _ => none
  | fuel + 1, level, count + 1, bytes =>
    match readItem fuel level bytes with
    | none => none
    | some (key, rest) =>
      match readItem fuel level rest with
      | none => none
      | some (item, rest) =>
        (readEntries fuel level count rest).map fun (es, rest) => ((keyOf key, item) :: es, rest)

/-- Keys, each with its value, up to the break. -/
def readEntriesUntilBreak : Nat → Nat → Bytes → Option (List (Key × Node) × Bytes)
  | 0, _, _ => none
  | _, _, [] => none
  | fuel + 1, level, b :: rest =>
    if b = breakByte then some ([], rest)
    else
      match readItem fuel level (b :: rest) with
      | none => none
      | some (key, rest) =>
        match readItem fuel level rest with
        | none => none
        | some (item, rest) =>
          (readEntriesUntilBreak fuel level rest).map
            fun (es, rest) => ((keyOf key, item) :: es, rest)

end

/-- The containers and tags that may be open at once. -/
def maxDepth : Nat := 127

/-- The document of bytes that are one item and nothing else. -/
def read (bytes : Bytes) : Option Node :=
  match readItem (2 * bytes.length + 1) maxDepth bytes with
  | some (node, []) => some node
  | _ => none

/-- A typed thing from bytes; the cause of a failure is not kept. -/
def decode (d : Decoder α) (bytes : Bytes) : Option α := do
  let node ← read bytes
  (d .binary node).toOption

end FrameScope.Cbor
