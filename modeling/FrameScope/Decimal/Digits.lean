/-!
# Decimal digits

Digit texts and the numbers they denote.

* `value ds`: the number a text of digits denotes;
* `ofNat n`: the digits of `n`, most significant first, without a leading zero.
-/

namespace FrameScope.Decimal

def digitValue (c : Char) : Nat := c.toNat - '0'.toNat

/-- The number a text of digits denotes; no digits denote zero. -/
def value (ds : List Char) : Nat := ds.foldl (fun n c => 10 * n + digitValue c) 0

def ofNat (n : Nat) : List Char := Nat.toDigits 10 n

def AllDigits (ds : List Char) : Prop := ∀ c ∈ ds, c.isDigit = true

instance (ds : List Char) : Decidable (AllDigits ds) := List.decidableBAll _ ds

/-- The number of a non-empty digit text. -/
def natOf? (ds : List Char) : Option Nat :=
  if ds ≠ [] ∧ AllDigits ds then some (value ds) else none

end FrameScope.Decimal
