import FrameScope.Cbor.Reader
import FrameScope.History.Basic
import FrameScope.Json.Parser

/-!
# Frame logs

A log is a run of records: the length of a payload as four bytes, least significant first, and the
payload. The payload is the document of a height and a frame.

* `FrameLog.record`: the bytes of a frame's record;
* `FrameLog.read`: the frames of a whole log, their heights checked;
* `FrameLog.readExport`: the frames of a JSON export.
-/

namespace FrameScope

/-- A height and the frame recorded under it. -/
structure LogRecord where
  height : Height
  frame : Frame
  deriving Inhabited

namespace LogRecord

def fields : List (Field LogRecord) :=
  [ .must "height" Read.word fun x r => { r with height := x },
    .must "frame" Coded.read fun x r => { r with frame := x } ]

def write (r : LogRecord) : Node :=
  .map [(.name "height", .int r.height), (.name "frame", Coded.write r.frame)]

end LogRecord

instance : Coded LogRecord := ⟨Read.record LogRecord.fields ⟨0, { height := 0 }⟩, LogRecord.write⟩

namespace FrameLog

open Cbor (Bytes)

def headerLength : Nat := 4

/-- A length as four bytes, least significant first. -/
def header (length : Nat) : Bytes := (Cbor.bigEndian headerLength length).reverse

/-- The length that four bytes hold. -/
def ofHeader (bytes : Bytes) : Nat := Cbor.ofBigEndian bytes.reverse

/-- The payload of a frame's record. -/
def payload (f : Frame) : Bytes := Cbor.write (Coded.write (LogRecord.mk f.height f))

def record (f : Frame) : Except StoreError Bytes :=
  let bytes := payload f
  if bytes.length < Word.narrowSize then .ok (header bytes.length ++ bytes)
  else .error (.corrupt .oversized)

/-- The first payload of a log and what follows it. -/
def splitRecord (offset : Nat) (bytes : Bytes) : Except StoreError (Bytes × Bytes) :=
  match Cbor.take? headerLength bytes with
  | none => .error (.corrupt (.truncated .header offset))
  | some (head, rest) =>
    match Cbor.take? (ofHeader head) rest with
    | none => .error (.corrupt (.truncated .payload offset))
    | some split => .ok split

/-- The frame of a payload, behind a frame of a lower height. -/
def readPayload (previous : Option Height) (bytes : Bytes) : Except StoreError Frame :=
  match Cbor.decode (Coded.read (α := LogRecord)) bytes with
  | none => .error .record
  | some r =>
    if r.height ≠ r.frame.height then .error (.corrupt (.disagreement r.height r.frame.height))
    else match previous with
      | some p => if r.height ≤ p then .error (.corrupt (.disorder r.height p)) else .ok r.frame
      | none => .ok r.frame

/-- The frames of a log from a byte on; every record takes at least one unit of fuel. -/
def readFrom : Nat → Nat → Option Height → Bytes → Except StoreError (List Frame)
  | _, _, _, [] => .ok []
  | 0, _, _, _ => .ok []
  | fuel + 1, offset, previous, bytes => do
    let (first, rest) ← splitRecord offset bytes
    let f ← readPayload previous first
    let frames ← readFrom fuel (offset + headerLength + first.length) (some f.height) rest
    .ok (f :: frames)

def read (bytes : Bytes) : Except StoreError History :=
  (readFrom bytes.length 0 none bytes).map fun frames => ⟨frames.toArray⟩

/-- The frames of an export: a JSON array of frames. -/
def readExport (bytes : Bytes) : Except StoreError (List Frame) :=
  match (Document.ofChars (Text.ofBytes bytes)).decode (Read.list Coded.read) with
  | .ok frames => .ok frames
  | .error e => .error (.document e)

end FrameLog

end FrameScope
