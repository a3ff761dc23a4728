import FrameScope.Decimal.Binary64
import FrameScope.Decimal.Digits

/-!
# The shortest decimal that reads back

For a magnitude, the decimal on the coarsest grid of powers of ten that has a point reading back
as the magnitude; of two such points the nearer, a tie to the even one. On the grid `10 ^ -1074`
every magnitude is itself a point, so the search always ends.

* `shortest`: coefficient and scale;
* `FloatStyle`: how a coefficient and a scale are written;
* `FloatStyle.text`: a number written in a style.
-/

namespace FrameScope

namespace Binary64

/-- `coefficient * 10 ^ scale`. -/
structure Decimal where
  coefficient : Nat
  scale : Int
  deriving DecidableEq, Repr

/-- Whether a decimal reads back as the magnitude of a rank. -/
def readsBack (rank : Nat) (coefficient : Nat) (scale : Int) : Bool :=
  nearest false coefficient scale == .finite false rank

/-- The point of the grid `10 ^ scale` that reads back as the magnitude, nearest first. -/
def gridPoint? (rank : Nat) (scale : Int) : Option Nat :=
  let (num, den) := match scale with
    | .ofNat s => (units rank, unitsInOne * Nat.pow 10 s)
    | .negSucc s => (units rank * Nat.pow 10 (s + 1), unitsInOne)
  let low := num / den
  let twice := 2 * (num - low * den)
  let lowFirst : Bool := twice < den || (twice == den && low % 2 == 0)
  let (first, second) := if lowFirst then (low, low + 1) else (low + 1, low)
  if readsBack rank first scale then some first
  else if readsBack rank second scale then some second
  else none

/-- The first grid with a point, from `10 ^ scale` on to finer ones. -/
def search (rank : Nat) (scale : Int) : Nat → Decimal
  | 0 => ⟨units rank * Nat.pow 5 1074, -1074⟩
  | fuel + 1 =>
    match gridPoint? rank scale with
    | some d => ⟨d, scale⟩
    | none => search rank (scale - 1) fuel

/-- A power of ten above the magnitude. -/
def scaleAbove (rank : Nat) : Int :=
  ((units rank).log2 * 30103 / 100000 : Int) - 322

def shortest (rank : Nat) : Decimal :=
  if rank = 0 then ⟨0, 0⟩
  else
    let top := scaleAbove rank
    search rank top (top + 1074).toNat

end Binary64

/-- How floating point numbers are written. -/
structure FloatStyle where
  /-- Positional from this power of ten on, an exponent below. -/
  lowest : Option Int
  /-- Positional below this power of ten, an exponent from there on. -/
  highest : Option Int
  /-- What follows a whole number written positionally. -/
  whole : String
  /-- What stands before an exponent that is not negative. -/
  plus : String
  /-- Numbers that are not finite. -/
  infinity : String
  nan : String

namespace FloatStyle

/-- Numbers in documents: always with a point or an exponent. -/
def document : FloatStyle := ⟨some (-5), some 16, ".0", "+", "null", "null"⟩

/-- Numbers without an exponent, whole ones without a point. -/
def plain : FloatStyle := ⟨none, none, "", "", "inf", "NaN"⟩

/-- Numbers in descriptions of a value for a programmer. -/
def descriptive : FloatStyle := ⟨some (-4), some 16, ".0", "", "inf", "NaN"⟩

/-- Digits with the point after the first `point` of them, zeros filled in. -/
def positional (style : FloatStyle) (ds : List Char) (point : Int) : List Char :=
  match point with
  | .ofNat p =>
    if p = 0 then '0' :: '.' :: ds
    else if ds.length ≤ p then ds ++ List.replicate (p - ds.length) '0' ++ style.whole.toList
    else ds.take p ++ '.' :: ds.drop p
  | .negSucc p => '0' :: '.' :: List.replicate (p + 1) '0' ++ ds

/-- Digits with the point after the first and an exponent. -/
def scientific (style : FloatStyle) (ds : List Char) (exponent : Int) : List Char :=
  let mantissa := match ds with
    | d :: e :: rest => d :: '.' :: e :: rest
    | ds => ds
  let power := if exponent < 0 then '-' :: Decimal.ofNat exponent.natAbs
    else style.plus.toList ++ Decimal.ofNat exponent.natAbs
  mantissa ++ 'e' :: power

/-- The magnitude of a rank, written in a style. -/
def magnitude (style : FloatStyle) (rank : Nat) : List Char :=
  let d := Binary64.shortest rank
  if d.coefficient = 0 then '0' :: style.whole.toList
  else
    let ds := Decimal.ofNat d.coefficient
    let point := ds.length + d.scale
    let low := style.lowest.any (point - 1 < ·)
    let high := style.highest.any (· ≤ point - 1)
    if low || high then style.scientific ds (point - 1) else style.positional ds point

def text (style : FloatStyle) : Binary64 → String
  | .finite negative rank =>
    String.ofList (if negative then '-' :: style.magnitude rank else style.magnitude rank)
  | .infinite negative =>
    if negative then String.ofList ('-' :: style.infinity.toList) else style.infinity
  | .nan => style.nan

end FloatStyle

end FrameScope
