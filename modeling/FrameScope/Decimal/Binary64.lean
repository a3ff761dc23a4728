/-!
# Binary floating point of 64 bits

A magnitude is told by its rank among the finite magnitudes: rank `0` is zero, rank `1` the
smallest subnormal number, and neighbouring ranks are neighbouring numbers. All arithmetic is on
natural numbers.

* `significand r`, `exponent r`: the magnitude of rank `r` is `significand r * 2 ^ exponent r`
  units of `2 ^ -1074`;
* `nearest`: the rank of the magnitude nearest to a decimal, ties to the even significand.
-/

namespace FrameScope

/-- A number of 64 bits; its finite magnitudes are told by their rank. -/
inductive Binary64 where
  | finite (negative : Bool) (rank : Nat)
  | infinite (negative : Bool)
  | nan
  deriving DecidableEq, Repr, Inhabited

namespace Binary64

/-- How many magnitudes share an exponent: two to the 52nd. -/
def binade : Nat := 4503599627370496

def rankCount : Nat := 2047 * binade

/-- Units of `2 ^ -1074` in one. -/
def unitsInOne : Nat := Nat.pow 2 1074

/-- The whole significand of a magnitude, below `2 ^ 53`. -/
def significand (rank : Nat) : Nat :=
  if rank < binade then rank else binade + rank % binade

/-- The exponent of a magnitude over the unit `2 ^ -1074`. -/
def exponent (rank : Nat) : Nat := rank / binade - 1

def units (rank : Nat) : Nat := significand rank * Nat.pow 2 (exponent rank)

/-- The rank of the magnitude nearest to `num / den` units, an exact tie to the even significand.
The rank may lie past the last finite one. -/
def nearestRank (num den : Nat) : Nat :=
  let q := num / den
  let e := q.log2 - 52
  let step := Nat.pow 2 e
  let low := e * binade + q / step
  let gap := step * den
  let left := num - q / step * gap
  if gap < 2 * left ∨ (2 * left = gap ∧ low % 2 = 1) then low + 1 else low

/-- A magnitude from its rank; past the last finite rank lies infinity. -/
def ofRank (negative : Bool) (rank : Nat) : Binary64 :=
  if rank < rankCount then .finite negative rank else .infinite negative

/-- A decimal exponent past which every number is infinite or zero: magnitudes of 64 bits lie
between `10 ^ -324` and `10 ^ 309`. -/
def decimalReach : Nat := 400

/-- The number nearest to `±coefficient * 10 ^ scale`; `10 ^ above` lies above the magnitude. -/
def nearest (negative : Bool) (coefficient : Nat) (scale : Int) : Binary64 :=
  let above := (coefficient.log2 / 3 + 1 : Int) + scale
  if coefficient = 0 then .finite negative 0
  else match scale with
    | .ofNat s =>
      if decimalReach < s then .infinite negative
      else ofRank negative (nearestRank (coefficient * Nat.pow 10 s * unitsInOne) 1)
    | .negSucc s =>
      if above < -(decimalReach : Int) then .finite negative 0
      else ofRank negative (nearestRank (coefficient * unitsInOne) (Nat.pow 10 (s + 1)))

def zero : Binary64 := .finite false 0

def one : Binary64 := .finite false (1023 * binade)

def ofInt (i : Int) : Binary64 := nearest (i < 0) i.natAbs 0

/-- The number of an interchange pattern of 64 bits. -/
def ofBits (bits : Nat) : Binary64 :=
  let half := 2048 * binade
  let negative := half ≤ bits
  let rank := bits % half
  if rank < rankCount then .finite negative rank
  else if rank = rankCount then .infinite negative
  else .nan

/-- The number of an interchange pattern with `exponentBits` and `fractionBits`, narrower than
64 bits, which 64 bits hold exactly. -/
def ofNarrowBits (exponentBits fractionBits : Nat) (bits : Nat) : Binary64 :=
  let half := Nat.pow 2 (exponentBits + fractionBits)
  let negative := half ≤ bits
  let rank := bits % half
  let binade := Nat.pow 2 fractionBits
  let last := (Nat.pow 2 exponentBits - 1) * binade
  let units := if rank < binade then rank else binade + rank % binade
  let exponent := rank / binade - 1
  -- the unit of this format is `2 ^ -(2 ^ (exponentBits - 1) - 2 + fractionBits)`
  let unitShift := 1074 - (Nat.pow 2 (exponentBits - 1) - 2 + fractionBits)
  if rank < last then ofRank negative (nearestRank (units * Nat.pow 2 (exponent + unitShift)) 1)
  else if rank = last then .infinite negative
  else .nan

end Binary64

end FrameScope
