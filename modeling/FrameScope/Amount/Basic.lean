import FrameScope.Decimal.Digits
import FrameScope.Json.Basic
import FrameScope.Text.Blank
import FrameScope.Word

/-!
# Amounts

Balances, limits and deadlines are unbounded, so an amount is its canonical decimal digits: no
leading zero except for zero itself.

* `Amount.parse`: digits with an optional final `n`, blanks around them cut off;
* `Amount.ofJson`: the same from a number's spelling or from a string;
* `compare`: digit count first, then the digits from the left.
-/

namespace FrameScope

/-- Digits that spell a number in the one canonical way. -/
def CanonicalDigits (ds : List Char) : Prop :=
  Decimal.AllDigits ds ∧ ds ≠ [] ∧ (ds.head? = some '0' → ds = ['0'])

/-- A non-negative integer of any size. -/
structure Amount where
  /-- Most significant digit first. -/
  digits : List Char
  canonical : CanonicalDigits digits
  deriving DecidableEq

inductive AmountError where
  | empty
  | invalidDigit (raw : String)
  | wrongType (found : String)
  deriving DecidableEq, Repr

def AmountError.message : AmountError → String
  | .empty => "amount is empty"
  | .invalidDigit raw => s!"amount '{raw}' contains a non-digit character"
  | .wrongType found => s!"amount must be an integer or a digit string, got {found}"

namespace Amount

/-- Digits without their leading zeros; one zero stays when nothing else is there. -/
def stripZeros (ds : List Char) : List Char :=
  match ds.dropWhile (· == '0') with
  | [] => ['0']
  | c :: rest => c :: rest

theorem canonical_stripZeros {ds : List Char} (h : Decimal.AllDigits ds) :
    CanonicalDigits (stripZeros ds) := by
  unfold stripZeros
  split
  next => refine ⟨?_, by simp, fun _ => rfl⟩; intro c hc; simp at hc; subst hc; rfl
  next c rest heq =>
    refine ⟨fun d hd => h d ?_, by simp, fun hh => ?_⟩
    · exact (List.dropWhile_sublist (· == '0')).subset (heq ▸ hd)
    · have hne : ds.dropWhile (· == '0') ≠ [] := by simp [heq]
      have := List.head_dropWhile_not (· == '0') hne
      simp [heq] at this hh
      exact absurd hh this

/-- The amount of a digit text. -/
def ofDigits (ds : List Char) (h : Decimal.AllDigits ds) : Amount :=
  ⟨stripZeros ds, canonical_stripZeros h⟩

def zero : Amount := ⟨['0'], by simp [Decimal.AllDigits], by simp, fun _ => rfl⟩

instance : Inhabited Amount := ⟨zero⟩

def text (a : Amount) : String := String.ofList a.digits

instance : ToString Amount := ⟨text⟩

def toNat (a : Amount) : Nat := Decimal.value a.digits

def isZero (a : Amount) : Bool := a.digits == ['0']

/-- The number, when 64 bits hold it. -/
def toWord? (a : Amount) : Option Nat :=
  if a.toNat < Word.size then some a.toNat else none

/-- The text without the final `n` of a big integer literal. -/
def dropSuffix (cs : List Char) : List Char :=
  if cs.getLast? = some 'n' then cs.dropLast else cs

/-- Reads an amount from a text. -/
def parse (raw : String) : Except AmountError Amount :=
  let body := dropSuffix (Text.trim raw.toList)
  if body = [] then .error .empty
  else if h : Decimal.AllDigits body then .ok (ofDigits body h)
  else .error (.invalidDigit raw)

/-- Reads an amount from an untyped value: a number by its spelling, or a string. -/
def ofJson : Json → Except AmountError Amount
  | .num n => parse n.text
  | .str s => parse s
  | .null => .error (.wrongType "null")
  | .bool _ => .error (.wrongType "a boolean")
  | .arr _ => .error (.wrongType "an array")
  | .obj _ => .error (.wrongType "an object")

/-- Digit count first, then the digits from the left. -/
protected def compare (a b : Amount) : Ordering :=
  (compare a.digits.length b.digits.length).then (List.compareLex compare a.digits b.digits)

instance : Ord Amount := ⟨Amount.compare⟩

/-- Smallest first; equal amounts keep their order. -/
def sort (as : List Amount) : List Amount := as.mergeSort fun a b => (compare a b).isLE

end Amount

end FrameScope
