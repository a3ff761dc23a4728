import FrameScope.Decimal.Digits
import FrameScope.Decimal.Shortest
import FrameScope.Word

/-!
# Numbers by their spelling

A number of a JSON text keeps its digits. Two numbers are equal when they are spelled alike, up to
the exponent mark, which is always `e` and always has a sign.

* `Number.scan`: the number at the start of a text;
* `Number.text`: its spelling;
* `Number.view`: what the spelling stands for once it is held as a value.
-/

namespace FrameScope

/-- The parts of a number's spelling. -/
structure Number where
  negative : Bool
  whole : List Char
  /-- The digits behind the point; none when there is no point. -/
  fraction : List Char
  /-- Whether the exponent is negative, and its digits. -/
  exponent : Option (Bool × List Char)
  deriving DecidableEq, Repr, Inhabited

namespace Number

/-- The digits at the start of a text and what follows them. -/
def spanDigits (cs : List Char) : List Char × List Char :=
  (cs.takeWhile Char.isDigit, cs.dropWhile Char.isDigit)

/-- The whole part: one zero, or digits that do not start with zero. -/
def scanWhole (cs : List Char) : Option (List Char × List Char) :=
  match spanDigits cs with
  | ([], _) => none
  | (['0'], rest) => some (['0'], rest)
  | ('0' :: _ :: _, _) => none
  | (ds, rest) => some (ds, rest)

/-- The fraction, when a point is next. -/
def scanFraction : List Char → Option (List Char × List Char)
  | '.' :: cs =>
    match spanDigits cs with
    | ([], _) => none
    | (ds, rest) => some (ds, rest)
  | cs => some ([], cs)

/-- The digits of an exponent behind its sign. -/
def scanPower (negative : Bool) (cs : List Char) :
    Option (Option (Bool × List Char) × List Char) :=
  match spanDigits cs with
  | ([], _) => none
  | (ds, rest) => some (some (negative, ds), rest)

/-- The exponent, when its mark is next. -/
def scanExponent : List Char → Option (Option (Bool × List Char) × List Char)
  | c :: cs =>
    if c = 'e' ∨ c = 'E' then
      match cs with
      | '+' :: cs => scanPower false cs
      | '-' :: cs => scanPower true cs
      | cs => scanPower false cs
    else some (none, c :: cs)
  | [] => some (none, [])

/-- The number behind its sign. -/
def scanMagnitude (negative : Bool) (cs : List Char) : Option (Number × List Char) := do
  let (whole, cs) ← scanWhole cs
  let (fraction, cs) ← scanFraction cs
  let (exponent, cs) ← scanExponent cs
  some (⟨negative, whole, fraction, exponent⟩, cs)

/-- The number at the start of a text and what follows it. -/
def scan : List Char → Option (Number × List Char)
  | '-' :: cs => scanMagnitude true cs
  | cs => scanMagnitude false cs

/-- A text that is a number and nothing else. -/
def ofText? (cs : List Char) : Option Number :=
  match scan cs with
  | some (n, []) => some n
  | _ => none

def chars (n : Number) : List Char :=
  (if n.negative then ['-'] else []) ++ n.whole
    ++ (if n.fraction = [] then [] else '.' :: n.fraction)
    ++ (match n.exponent with
      | none => []
      | some (negative, ds) => 'e' :: (if negative then '-' else '+') :: ds)

def text (n : Number) : String := String.ofList n.chars

def ofNat (n : Nat) : Number := ⟨false, Decimal.ofNat n, [], none⟩

def ofInt (i : Int) : Number := ⟨i < 0, Decimal.ofNat i.natAbs, [], none⟩

/-- Whether the spelling has neither a point nor an exponent. -/
def isInteger (n : Number) : Bool := n.fraction == [] && n.exponent == none

/-- The integer of a spelling without point and exponent. -/
def toInt? (n : Number) : Option Int :=
  if n.isInteger then
    some (if n.negative then -(Decimal.value n.whole : Int) else Decimal.value n.whole)
  else none

/-- The natural number of a spelling of digits alone. -/
def toNat? (n : Number) : Option Nat :=
  if n.isInteger && !n.negative then some (Decimal.value n.whole) else none

/-- The nearest number of 64 bits. -/
def toBinary64 (n : Number) : Binary64 :=
  let power : Int := match n.exponent with
    | none => 0
    | some (true, ds) => -(Decimal.value ds : Int)
    | some (false, ds) => Decimal.value ds
  Binary64.nearest n.negative (Decimal.value (n.whole ++ n.fraction)) (power - n.fraction.length)

/-- A finite number of 64 bits in the spelling of documents. -/
def ofBinary64? (x : Binary64) : Option Number := ofText? (FloatStyle.document.text x).toList

/-- What a spelling stands for once it is held as a value. -/
inductive View where
  /-- An integer of 64 bits; a negative zero is zero. -/
  | int (i : Int)
  /-- An integer of 128 bits that 64 bits do not hold. -/
  | wide
  /-- A number of 64 bits, spelled the way documents spell it or plainly. -/
  | float (x : Binary64)
  /-- Any other spelling. -/
  | verbatim
  deriving DecidableEq, Repr

/-- A finite number of 64 bits whose document or plain spelling this is. -/
def float? (n : Number) : Option Binary64 :=
  let x := n.toBinary64
  match x with
  | .finite .. =>
    if FloatStyle.document.text x = n.text ∨ FloatStyle.plain.text x = n.text then some x else none
  | _ => none

/-- The integer of 64 bits, signed or not. -/
def int64? (n : Number) : Option Int :=
  match n.toInt? with
  | some i => if Word.holdsSigned Word.size i ∨ (0 ≤ i ∧ i < Word.size) then some i else none
  | none => none

def view (n : Number) : View :=
  match n.int64? with
  | some i => .int i
  | none =>
    match n.toInt? with
    | some i =>
      if Word.holdsSigned Word.wideSize i ∨ (0 ≤ i ∧ i < Word.wideSize) then .wide else ofFloat
    | none => ofFloat
where
  ofFloat : View := match n.float? with
    | some x => .float x
    | none => .verbatim

end Number

end FrameScope
