import FrameScope.Node.Record

/-!
# Documents with a tag

A document whose tag names its shape is held back until the tag is found: a map with the tag as
one of its fields, or a sequence that starts with the tag.

* `Read.tagged`: the tag's meaning and the rest of the document, held back;
* `Read.nothing`: a rest that carries nothing.
-/

namespace FrameScope.Read

open Node

/-- A tag out of a list of names. -/
def tag (names : List (String × α)) : Node → Except DecodeError α
  | .text s => named names s
  | node => .error (mismatch node)

/-- The entries of a tagged map: the tag found so far and the other entries, held back. -/
def taggedEntries (label : String) (names : List (String × α)) (m : Medium) (found : Option α)
    (held : List (Key × Node)) :
    List (Key × Node) → Except DecodeError (Option α × List (Key × Node))
  | [] => .ok (found, held)
  | (k, v) :: rest =>
    if k = .unreadable then .error .malformed
    else if k = .name label then
      if found.isSome then .error (.duplicateField label)
      else do
        let x ← tag names v
        taggedEntries label names m (some x) held rest
    else do
      let v ← buffer m v
      taggedEntries label names m found (held ++ [(k, v)]) rest

/-- The meaning of a document's tag and the rest of the document. -/
def tagged (label : String) (names : List (String × α)) : Decoder (α × Node) := fun m node => do
  match ← anyKind m node with
  | .map es =>
    let (found, held) ← taggedEntries label names m none [] es
    match found with
    | some x => .ok (x, .map held)
    | none => .error (.missingField label)
  | .seq [] => .error (.missingField label)
  | .seq (v :: rest) =>
    let x ← tag names v
    let held ← bufferItems m rest
    .ok (x, .seq held)
  | node => .error (notContainer node)

/-- Nothing: any map, or an empty sequence. -/
def nothing : Decoder Unit
  | _, .map _ => .ok ()
  | _, .seq [] => .ok ()
  | m, .seq _ => .error m.surplus
  | _, node => .error (notContainer node)

end FrameScope.Read
