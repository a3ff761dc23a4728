import FrameScope.Decimal.Digits

/-!
# Spans of time

A span is a number of nanoseconds. Its text is in the largest of the units `s`, `ms`, `µs` and `ns`
that it fills at least once, with as many decimals as it needs.
-/

namespace FrameScope

structure Span where
  nanoseconds : Nat
  deriving DecidableEq, Repr, Inhabited

namespace Span

def ofMilliseconds (n : Nat) : Span := ⟨n * 1000000⟩

/-- A number below `10 ^ width` as the decimals behind a point, without the zeros at their end. -/
def decimals (width n : Nat) : List Char :=
  let ds := Decimal.ofNat n
  let padded := List.replicate (width - ds.length) '0' ++ ds
  match (padded.reverse.dropWhile (· == '0')).reverse with
  | [] => []
  | ds => '.' :: ds

/-- A span in units of `10 ^ width` nanoseconds. -/
def inUnits (s : Span) (width : Nat) (unit : String) : String :=
  let size := Nat.pow 10 width
  String.ofList (Decimal.ofNat (s.nanoseconds / size) ++ decimals width (s.nanoseconds % size))
    ++ unit

def text (s : Span) : String :=
  if 1000000000 ≤ s.nanoseconds then s.inUnits 9 "s"
  else if 1000000 ≤ s.nanoseconds then s.inUnits 6 "ms"
  else if 1000 ≤ s.nanoseconds then s.inUnits 3 "µs"
  else s.inUnits 0 "ns"

end Span

end FrameScope
