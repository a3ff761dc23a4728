/-!
# Keyed entries in insertion order

A map as the list of its entries. Putting a value under a key that is there keeps the key's place;
a new key goes last.

* `get? k`: the value under `k`;
* `put k v`: replaced in place or appended;
* `ofPairs`: pairs put one after the other;
* `swapErase k`: the last entry moves into the hole.
-/

namespace FrameScope

/-- Entries of a map, in the order their keys were first put. -/
abbrev Entries (α : Type u) := List (String × α)

namespace Entries

variable {α : Type u}

def keys (es : Entries α) : List String := es.map Prod.fst

def get? (es : Entries α) (k : String) : Option α :=
  match es with
  | [] => none
  | (j, v) :: rest => if j = k then some v else get? rest k

def has (es : Entries α) (k : String) : Bool := (es.get? k).isSome

/-- Sets the value under a key: in place when the key is there, else at the end. -/
def put (es : Entries α) (k : String) (v : α) : Entries α :=
  match es with
  | [] => [(k, v)]
  | (j, w) :: rest => if j = k then (k, v) :: rest else (j, w) :: put rest k v

/-- Pairs put one after the other: the first place and the last value of each key. -/
def ofPairs (ps : List (String × α)) : Entries α := ps.foldl (fun es p => es.put p.1 p.2) []

/-- Without a key, the others in order. -/
def erase (es : Entries α) (k : String) : Entries α := es.filter fun e => e.1 ≠ k

/-- Without a key, the last entry in its place. -/
def swapErase (es : Entries α) (k : String) : Entries α :=
  match es with
  | [] => []
  | (j, v) :: rest =>
    if j = k then
      match rest.getLast? with
      | some last => last :: rest.dropLast
      | none => []
    else (j, v) :: swapErase rest k

end Entries

end FrameScope
