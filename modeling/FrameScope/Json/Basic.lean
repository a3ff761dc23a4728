import FrameScope.Entries
import FrameScope.Json.Number

/-!
# Untyped JSON values

A value keeps each number by its spelling and each object in the order of its source. Two values
are the same when numbers have the same spelling and objects the same fields in any order.
-/

namespace FrameScope

/-- A JSON value; a number is known by its spelling alone. -/
inductive Json where
  | null
  | bool (b : Bool)
  | num (n : Number)
  | str (s : String)
  | arr (items : List Json)
  | obj (fields : List (String × Json))
  deriving Inhabited

namespace Json

def ofNat (n : Nat) : Json := .num (Number.ofNat n)

/-- The text of a field that may be absent, `null` when it is. -/
def ofText? : Option String → Json
  | some s => .str s
  | none => .null

/-- A number that may be absent, `null` when it is. -/
def ofNat? : Option Nat → Json
  | some n => .ofNat n
  | none => .null

mutual

/-- Same value: numbers by spelling, objects without regard to order. -/
def same : Json → Json → Bool
  | .null, .null => true
  | .bool a, .bool b => a == b
  | .num s, .num t => s == t
  | .str s, .str t => s == t
  | .arr as, .arr bs => sameItems as bs
  | .obj fs, .obj gs => fs.length == gs.length && sameFields fs gs
  | _, _ => false

def sameItems : List Json → List Json → Bool
  | [], [] => true
  | a :: as, b :: bs => same a b && sameItems as bs
  | _, _ => false

/-- Every field on the left has the same value on the right. -/
def sameFields : List (String × Json) → List (String × Json) → Bool
  | [], _ => true
  | (k, v) :: fs, gs =>
    (match Entries.get? gs k with
      | some w => same v w
      | none => false) && sameFields fs gs

end

end Json

end FrameScope
