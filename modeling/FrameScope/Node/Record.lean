import FrameScope.Node.Read

/-!
# Decoders of records

A record is read from a map of its fields in any order, unknown ones skipped, or from the sequence
of its fields in declaration order.

* `Field`: one field; its reader returns what the field's value does to the record;
* `Read.record`: the decoder of a record from its fields;
* `Read.keepingEntries`: a record that keeps the entries it does not know.
-/

namespace FrameScope

/-- A field of a record `σ`. -/
structure Field (σ : Type) where
  name : String
  aliases : List String
  /-- Whether the field must be given. -/
  required : Bool
  read : Decoder (σ → σ)

namespace Field

variable {σ : Type} {α : Type}

/-- A field that must be given. -/
def must (name : String) (d : Decoder α) (set : α → σ → σ) : Field σ :=
  ⟨name, [], true, fun m node => (d m node).map set⟩

/-- A field that keeps the record's own value when it is not given. -/
def may (name : String) (d : Decoder α) (set : α → σ → σ) : Field σ :=
  ⟨name, [], false, fun m node => (d m node).map set⟩

/-- A field known by other names too. -/
def orNamed (f : Field σ) (aliases : List String) : Field σ := { f with aliases := aliases }

/-- Whether a name is one of the field's. -/
def answersTo (f : Field σ) (s : String) : Bool := f.name == s || f.aliases.contains s

end Field

namespace Read

variable {σ : Type}

/-- The field a key stands for, if there is one. -/
def fieldOf? (fields : List (Field σ)) : Key → Except DecodeError (Option (Field σ))
  | .name s => .ok (fields.find? (·.answersTo s))
  | .index i => .ok fields[i]?
  | .bytes b => .ok ((Text.ofBytes? b).bind fun s => fields.find? (·.answersTo s))
  | .unreadable => .error .malformed
  | .other => .error .malformed

/-- The entries of a map, read in order; `seen` holds the names of the fields given so far. -/
def fieldEntries (fields : List (Field σ)) (m : Medium) (seen : List String) (s : σ) :
    List (Key × Node) → Except DecodeError (List String × σ)
  | [] => .ok (seen, s)
  | (k, v) :: rest => do
    match ← fieldOf? fields k with
    | none =>
      v.skip
      fieldEntries fields m seen s rest
    | some f =>
      if f.name ∈ seen then .error (.duplicateField f.name)
      else
        let set ← f.read m v
        fieldEntries fields m (f.name :: seen) (set s) rest

/-- The first required field that was not given. -/
def missing? (fields : List (Field σ)) (seen : List String) : Option String :=
  (fields.find? fun f => f.required && !seen.contains f.name).map (·.name)

/-- The items of a sequence, one for each field in declaration order. -/
def fieldItems (m : Medium) : List (Field σ) → σ → List Node → Except DecodeError σ
  | [], s, [] => .ok s
  | [], _, _ :: _ => .error m.surplus
  | f :: fields, s, [] => if f.required then .error .invalidLength else fieldItems m fields s []
  | f :: fields, s, v :: rest => do
    let set ← f.read m v
    fieldItems m fields (set s) rest

/-- The entries of a map as a record. -/
def recordEntries (fields : List (Field σ)) (init : σ) (m : Medium) (es : List (Key × Node)) :
    Except DecodeError σ := do
  let (seen, s) ← fieldEntries fields m [] init es
  match missing? fields seen with
  | some name => .error (.missingField name)
  | none => .ok s

/-- A record, starting from `init`. -/
def record (fields : List (Field σ)) (init : σ) : Decoder σ
  | m, .map es => recordEntries fields init m es
  | m, .seq vs => fieldItems m fields init vs
  | _, node => .error (Node.notContainer node)

/-- The entries of a map, read in order; those that are no field are held back in `kept`. -/
def keepingEntries (fields : List (Field σ)) (m : Medium) (seen : List String) (s : σ)
    (kept : List (Key × Node)) :
    List (Key × Node) → Except DecodeError (σ × List (Key × Node))
  | [] => .ok (s, kept)
  | (k, v) :: rest => do
    match ← fieldOf? fields k with
    | none =>
      let v ← buffer m v
      keepingEntries fields m seen s (kept ++ [(k, v)]) rest
    | some f =>
      if f.name ∈ seen then .error (.duplicateField f.name)
      else
        let set ← f.read m v
        keepingEntries fields m (f.name :: seen) (set s) kept rest

end Read

end FrameScope
