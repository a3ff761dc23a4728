import FrameScope.Amount.Basic

/-!
# Amounts as a panel shows them

* `Amount.split d`: whole digits and exactly `d` fractional digits;
* `Amount.fixedPoint d`: commas between groups of three, no zeros at the end of the fraction;
* `Amount.expiry now`: the time left until a deadline, in its two largest units.
-/

namespace FrameScope.Amount

/-- The whole digits and the `decimals` fractional digits, zeros filled in on the left. -/
def split (a : Amount) (decimals : Nat) : List Char × List Char :=
  let n := a.digits.length
  if decimals < n then a.digits.splitAt (n - decimals)
  else (['0'], List.replicate (decimals - n) '0' ++ a.digits)

/-- Commas between groups of three digits, counted from the right. -/
def groupThousands : List Char → List Char
  | [] => []
  | [c] => [c]
  | c :: d :: rest =>
    if (rest.length + 1) % 3 = 0 then c :: ',' :: groupThousands (d :: rest)
    else c :: groupThousands (d :: rest)

/-- A text without the zeros at its end. -/
def trimZeros (ds : List Char) : List Char := (ds.reverse.dropWhile (· == '0')).reverse

/-- The amount of a token with `decimals` fractional places. -/
def fixedPointDigits (a : Amount) (decimals : Nat) : List Char :=
  let (whole, frac) := a.split decimals
  match trimZeros frac with
  | [] => groupThousands whole
  | frac => groupThousands whole ++ '.' :: frac

def fixedPoint (a : Amount) (decimals : Nat) : String := String.ofList (a.fixedPointDigits decimals)

/-- The time left until a deadline. -/
inductive Expiry where
  | never
  | expired
  | days (days hours : Nat)
  | hours (hours minutes : Nat)
  | minutes (minutes : Nat)
  | seconds (seconds : Nat)
  deriving DecidableEq, Repr

def Expiry.message : Expiry → String
  | .never => "never"
  | .expired => "expired"
  | .days d h => s!"in {d}d {h}h"
  | .hours h m => s!"in {h}h {m}m"
  | .minutes m => s!"in {m}m"
  | .seconds s => s!"in {s}s"

/-- The time left, in seconds, in its two largest units. -/
def Expiry.ofSeconds (left : Nat) : Expiry :=
  let days := left / 86400
  let hours := left % 86400 / 3600
  let minutes := left % 3600 / 60
  if 0 < days then .days days hours
  else if 0 < hours then .hours hours minutes
  else if 0 < minutes then .minutes minutes
  else .seconds left

/-- A deadline in seconds against the present; a deadline beyond 64 bits never comes. -/
def expiry (deadline : Amount) (now : Nat) : Expiry :=
  match deadline.toWord? with
  | none => .never
  | some d => if d ≤ now then .expired else .ofSeconds (d - now)

end FrameScope.Amount
