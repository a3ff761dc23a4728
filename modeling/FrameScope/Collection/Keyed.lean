import FrameScope.Node.Coded

/-!
# Keyed collections

A mapping from keys to things, in whichever encoding its source chose: an object whose values all
decode, a list of pairs, or an object kept as it is because some value does not decode.

* `Keyed.normalize`: the pairs, in the order of the source; what does not decode is left out;
* `Keyed.insert`: one more pair, in the collection's own encoding;
* `normalizeValue`: the pairs of an untyped value.
-/

namespace FrameScope

/-- A mapping in one of its three encodings. -/
inductive Keyed (α : Type) where
  /-- An object, all values decoded. -/
  | map (entries : Entries α)
  /-- Pairs; a key may come twice. -/
  | pairs (pairs : List (String × α))
  /-- An object with its values as they came. -/
  | object (fields : Entries Json)
  deriving Inhabited

namespace Keyed

variable {α : Type}

def empty : Keyed α := .map []

/-- The collection of pairs, the last value of a key in the key's first place. -/
def ofPairs (ps : List (String × α)) : Keyed α := .map (Entries.ofPairs ps)

/-- The number of entries, those that do not decode among them. -/
def rawLength : Keyed α → Nat
  | .map es => es.length
  | .pairs ps => ps.length
  | .object fs => fs.length

def isEmpty (c : Keyed α) : Bool := c.rawLength == 0

section Coded

variable [Coded α]

/-- The fields of an untyped object that decode. -/
def decodable (fs : Entries Json) : List (String × α) :=
  fs.filterMap fun (k, v) =>
    match Coded.ofJson? v with
    | .ok x => some (k, x)
    | .error _ => none

/-- The pairs of a collection, in the order of its source. -/
def normalize : Keyed α → List (String × α)
  | .map es => es
  | .pairs ps => ps
  | .object fs => decodable fs

/-- One more pair: replaced or appended under a key, or one more pair of a list. -/
def insert (c : Keyed α) (k : String) (x : α) : Keyed α :=
  match c with
  | .map es => .map (es.put k x)
  | .pairs ps => .pairs (ps ++ [(k, x)])
  | .object fs => .object (Entries.put fs k (Coded.json x))

/-- Reads a collection: the first encoding that fits, in the order map, pairs, object. -/
def read : Decoder (Keyed α) := fun m node => do
  let held ← Read.buffer m node
  match Read.entries Coded.read .buffered held with
  | .ok es => .ok (.map es)
  | .error _ =>
    match Read.list (Read.pair Coded.read) .buffered held with
    | .ok ps => .ok (.pairs ps)
    | .error _ =>
      match Read.entries Read.json .buffered held with
      | .ok fs => .ok (.object fs)
      | .error _ => .error (.noAlternative "KeyedCollection")

def write : Keyed α → Node
  | .map es => .map (es.map fun e => (.name e.1, Coded.write e.2))
  | .pairs ps => .seq (ps.map fun p => .seq [.text p.1, Coded.write p.2])
  | .object fs => .map (fs.map fun f => (.name f.1, Node.ofJson f.2))

instance : Coded (Keyed α) := ⟨read, write⟩

end Coded

end Keyed

/-- The pair an item of an untyped array spells; its key may be a number. -/
def pairOfValue? : Json → Option (String × Json)
  | .arr [.str k, v] => some (k, v)
  | .arr [.num n, v] => some (n.text, v)
  | _ => none

/-- The pairs of an untyped value; anything but an object or an array has none. -/
def normalizeValue : Option Json → List (String × Json)
  | some (.obj fields) => fields
  | some (.arr items) => items.filterMap pairOfValue?
  | _ => []

end FrameScope
