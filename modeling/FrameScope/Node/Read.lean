import FrameScope.Node.Basic
import FrameScope.Text.Utf8

/-!
# Decoders of simple things

* `Read.word`, `Read.flag`, `Read.text`, `Read.float`, `Read.option`, `Read.list`: scalars, options
  and sequences;
* `Read.json`: an untyped value;
* `Read.buffer`: a document held back, in which a number without a plain 64-bit meaning is the
  one-entry map of its spelling;
* `Read.choice`: a name out of a list of names;
* `Read.entries`, `Read.pair`: maps with names as keys, and pairs.
-/

namespace FrameScope.Read

open Node

/-! ## Scalars -/

/-- A number's spelling wanted as an integer of 64 bits. -/
def wordOfNumber (m : Medium) (n : Number) : Except DecodeError Nat :=
  match n.toNat? with
  | some k =>
    if k < Word.size then .ok k else .error refusal
  | none => .error refusal
where
  refusal : DecodeError :=
    if m = .value then .malformed
    else match n.toBinary64 with
      | .finite .. =>
        match n.int64? with
        | some i => if i < 0 then .invalidValue else .invalidType
        | none => .invalidType
      | _ => .malformed

def word : Decoder Nat
  | _, .int i =>
    if i < 0 then .error .invalidValue
    else if i < Word.size then .ok i.toNat else .error .invalidType
  | m, .num n => wordOfNumber m n
  | _, node => .error (mismatch node)

def flag : Decoder Bool
  | _, .bool b => .ok b
  | _, node => .error (mismatch node)

/-- A text; bytes do when they are well-formed. -/
def text : Decoder String
  | _, .text s => .ok s
  | _, .bytes b =>
    match Text.ofBytes? b with
    | some s => .ok s
    | none => .error .invalidValue
  | _, node => .error (mismatch node)

def float : Decoder Binary64
  | _, .int i => .ok (Binary64.ofInt i)
  | _, .float x => .ok x
  | _, .num n => .ok n.toBinary64
  | _, node => .error (mismatch node)

/-- `null`, or a value. -/
def option (d : Decoder α) : Decoder (Option α)
  | _, .null => .ok none
  | m, node => (d m node).map some

def items (d : Decoder α) (m : Medium) : List Node → Except DecodeError (List α)
  | [] => .ok []
  | v :: rest => do
    let x ← d m v
    let xs ← items d m rest
    .ok (x :: xs)

def list (d : Decoder α) : Decoder (List α)
  | m, .seq vs => items d m vs
  | _, node => .error (notContainer node)

/-! ## Untyped values -/

/-- The key of the one-entry map that stands for a number. -/
def numberKey : String := "$serde_json::private::Number"

/-- An untyped number out of a spelling. -/
def jsonOfNumber (m : Medium) (n : Number) : Json :=
  match m with
  | .value =>
    match n.view with
    | .int i => .num (Number.ofInt i)
    | .float x => .num ((Number.ofBinary64? x).getD n)
    | .wide => .num n
    | .verbatim => .num n
  | _ => .num n

/-- The number whose spelling stands behind the number key. -/
def numberOfSpelling : Node → Except DecodeError Number
  | .text s =>
    match Number.ofText? s.toList with
    | some n => .ok n
    | none => .error (.notANumber (Number.ofText? (s.toList ++ ['0'])).isSome)
  | node => .error (mismatch node)

mutual

def json : Decoder Json
  | _, .null => .ok .null
  | _, .absent => .ok .null
  | _, .bool b => .ok (.bool b)
  | _, .int i => .ok (.num (Number.ofInt i))
  | _, .float x =>
    .ok (match Number.ofBinary64? x with
      | some n => .num n
      | none => .null)
  | m, .num n => .ok (jsonOfNumber m n)
  | _, .text s => .ok (.str s)
  | m, .seq vs => (jsonItems m vs).map .arr
  | _, .map [] => .ok (.obj [])
  | m, .map ((k, v) :: rest) =>
    match k with
    | .name s =>
      if s = numberKey then
        match numberOfSpelling v with
        | .error e => .error e
        | .ok n => if rest.isEmpty then .ok (.num n) else .error m.surplus
      else
        match json m v with
        | .error e => .error e
        | .ok x => (jsonEntries m [(s, x)] rest).map .obj
    | .index _ => .error .invalidType
    | .bytes _ => .error .invalidType
    | _ => .error .malformed
  | _, .bytes _ => .error .invalidType
  | _, node => .error (notContainer node)

def jsonItems : Medium → List Node → Except DecodeError (List Json)
  | _, [] => .ok []
  | m, v :: rest =>
    match json m v with
    | .error e => .error e
    | .ok x => (jsonItems m rest).map (x :: ·)

/-- Further entries of an untyped object. -/
def jsonEntries : Medium → Entries Json → List (Key × Node) → Except DecodeError (Entries Json)
  | _, es, [] => .ok es
  | m, es, (k, v) :: rest =>
    match k with
    | .name s =>
      match json m v with
      | .error e => .error e
      | .ok x => jsonEntries m (es.put s x) rest
    | .index _ => .error .invalidType
    | .bytes _ => .error .invalidType
    | _ => .error .malformed

end

/-- An amount, read as an untyped value first. -/
def amount : Decoder Amount := fun m node => do
  let v ← json m node
  match Amount.ofJson v with
  | .ok a => .ok a
  | .error e => .error (.notAnAmount e)

/-! ## Documents held back -/

/-- A number that is known by its spelling alone. -/
def opaqueNumber (n : Number) : Node := .map [(.name numberKey, .text n.text)]

def bufferNumber (m : Medium) (n : Number) : Except DecodeError Node :=
  match m with
  | .value =>
    match n.view with
    | .int i => .ok (.int i)
    | .wide => .error .invalidType
    | .float x => .ok (.float x)
    | .verbatim => .ok (opaqueNumber n)
  | _ =>
    match n.int64? with
    | some i => if i = 0 ∧ n.negative then .ok (opaqueNumber n) else .ok (.int i)
    | none => .ok (opaqueNumber n)

mutual

/-- A document held back until its shape is known. -/
def buffer : Decoder Node
  | _, .null => .ok .null
  | _, .absent => .ok .null
  | _, .bool b => .ok (.bool b)
  | _, .int i => if i < 0 ∧ ¬ Word.holdsSigned Word.size i then .error .invalidType else .ok (.int i)
  | _, .float x => .ok (.float x)
  | m, .num n => bufferNumber m n
  | _, .text s => .ok (.text s)
  | _, .bytes b => .ok (.bytes b)
  | m, .seq vs => (bufferItems m vs).map .seq
  | m, .map es => (bufferEntries m es).map .map
  | _, .unreadable => .error .malformed
  | _, .deep _ => .error .malformed
  | _, .broken => .error .malformed

def bufferItems : Medium → List Node → Except DecodeError (List Node)
  | _, [] => .ok []
  | m, v :: rest =>
    match buffer m v with
    | .error e => .error e
    | .ok x => (bufferItems m rest).map (x :: ·)

def bufferEntries : Medium → List (Key × Node) → Except DecodeError (List (Key × Node))
  | _, [] => .ok []
  | m, (k, v) :: rest =>
    if k = .unreadable then .error .malformed
    else
      match buffer m v with
      | .error e => .error e
      | .ok x => (bufferEntries m rest).map ((k, x) :: ·)

end

/-- A document about whose kind nothing is known yet: a number may turn out to be a map. -/
def anyKind (m : Medium) : Node → Except DecodeError Node
  | .num n => bufferNumber m n
  | node => .ok node

/-! ## Names -/

/-- The value of a name in a list of names. -/
def named (names : List (String × α)) (s : String) : Except DecodeError α :=
  match Entries.get? names s with
  | some x => .ok x
  | none => .error (.unknownVariant s)

/-- The value of a name that stands as a key. -/
def namedKey (names : List (String × α)) : Key → Except DecodeError α
  | .name s => named names s
  | .index i =>
    match names[i]? with
    | some (_, x) => .ok x
    | none => .error .invalidValue
  | .bytes b =>
    match Text.ofBytes? b with
    | some s => named names s
    | none => .error .invalidValue
  | .unreadable => .error .malformed
  | .other => .error .invalidType

/-- The value of a name that stands alone. -/
def namedNode (names : List (String × α)) : Node → Except DecodeError α
  | .text s => named names s
  | .bytes b => namedKey names (.bytes b)
  | .int i => if i < 0 then .error .invalidType else namedKey names (.index i.toNat)
  | node => .error (mismatch node)

/-- One of several names, alone or as the only key of a map with the value `null`. -/
def choice (names : List (String × α)) : Decoder α
  | _, .text s => named names s
  | .text, .map ((k, v) :: rest) => do
    let x ← namedKey names k
    unit v
    if rest.isEmpty then .ok x else .error .malformed
  | .text, _ => .error .malformed
  | .binary, .seq [v] => namedNode names v
  | .binary, .map [(k, v)] => do
    let x ← namedKey names k
    unit v
    .ok x
  | .binary, node => namedNode names node
  | _, .map [(k, v)] => do
    let x ← namedKey names k
    unit v
    .ok x
  | _, .map _ => .error .invalidValue
  | _, node => .error (mismatch node)
where
  unit : Node → Except DecodeError Unit
    | .null => .ok ()
    | node => .error (mismatch node)

/-! ## Maps with names as keys -/

/-- The name a key spells. -/
def keyText : Key → Except DecodeError String
  | .name s => .ok s
  | .bytes b =>
    match Text.ofBytes? b with
    | some s => .ok s
    | none => .error .invalidValue
  | .index _ => .error .invalidType
  | _ => .error .malformed

/-- Entries put one after the other. -/
def entriesFrom (d : Decoder α) (m : Medium) (es : Entries α) :
    List (Key × Node) → Except DecodeError (Entries α)
  | [] => .ok es
  | (k, v) :: rest => do
    let s ← keyText k
    let x ← d m v
    entriesFrom d m (es.put s x) rest

/-- A map from names; a repeated name keeps its first place and its last value. -/
def entries (d : Decoder α) : Decoder (Entries α)
  | m, .map es => entriesFrom d m [] es
  | _, node => .error (notContainer node)

def pair (d : Decoder α) : Decoder (String × α)
  | m, .seq (k :: v :: rest) => do
    let s ← text m k
    let x ← d m v
    if rest.isEmpty then .ok (s, x) else .error m.surplus
  | m, .seq [k] => do
    let _ ← text m k
    .error .invalidLength
  | _, .seq [] => .error .invalidLength
  | _, node => .error (notContainer node)

end FrameScope.Read
