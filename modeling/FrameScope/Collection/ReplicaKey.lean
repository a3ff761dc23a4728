import FrameScope.Text.ShortId

/-!
# Replica keys

A replica is filed under `entity:signer`. The first colon divides; a key without one is all entity.

* `ReplicaKey.ofText`: the two halves;
* `entityIds`: the entities of a list of pairs, in the order they first appear;
* `replicasOf`: the pairs of one entity.
-/

namespace FrameScope

structure ReplicaKey where
  entity : String
  signer : Option String
  deriving DecidableEq, Repr

namespace ReplicaKey

def separator : Char := ':'

/-- The halves of a key, divided at the first colon. -/
def ofText (key : String) : ReplicaKey :=
  let cs := key.toList
  match cs.dropWhile (· ≠ separator) with
  | [] => ⟨key, none⟩
  | _ :: signer => ⟨String.ofList (cs.takeWhile (· ≠ separator)), some (String.ofList signer)⟩

/-- Both halves, shortened; a key without a signer shows its entity alone. -/
def display (key : String) : String :=
  let parts := ofText key
  match parts.signer with
  | some signer => s!"{Text.shortId parts.entity} / {Text.shortId signer}"
  | none => Text.shortId parts.entity

end ReplicaKey

def entityOf (key : String) : String := (ReplicaKey.ofText key).entity

/-- The pairs of one entity, in order. -/
def replicasOf (pairs : List (String × α)) (entity : String) : List (String × α) :=
  pairs.filter fun p => entityOf p.1 = entity

/-- The entities of a list of pairs, each once, in the order they first appear. -/
def entityIds (pairs : List (String × α)) : List String :=
  pairs.foldl (fun ids p => if entityOf p.1 ∈ ids then ids else ids ++ [entityOf p.1]) []

end FrameScope
