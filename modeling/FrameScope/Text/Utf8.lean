/-!
# Bytes as text

Well-formed bytes are their characters. A byte that belongs to no character becomes the escape of
a lone surrogate, `\ud800`: a reader refuses it in a string as it refuses the byte, and passes over
it in a string that is skipped as it passes over the byte. Behind a backslash it becomes NUL, which
no escape begins with.
-/

namespace FrameScope.Text

/-- A byte that continues a character. -/
def isTail (b : UInt8) : Bool := 0x80 ≤ b && b ≤ 0xBF

/-- The scalar value of head bits and the tail bytes behind them. -/
def scalar (head : Nat) (tail : List UInt8) : Char :=
  Char.ofNat (tail.foldl (fun n b => n * 0x40 + (b.toNat - 0x80)) head)

/-- The escape that stands for a byte of no character. -/
def strayEscape : List Char := ['\\', 'u', 'd', '8', '0', '0']

/-- The character at the start of bytes and the number of its tail bytes. -/
def lead? : List UInt8 → Option (Char × Nat)
  | [] => none
  | a :: rest =>
    if a < 0x80 then some (Char.ofNat a.toNat, 0)
    else if 0xC2 ≤ a && a ≤ 0xDF then
      match rest with
      | b :: _ => if isTail b then some (scalar (a.toNat - 0xC0) [b], 1) else none
      | _ => none
    else if 0xE0 ≤ a && a ≤ 0xEF then
      match rest with
      | b :: c :: _ =>
        if isTail b && isTail c && (a ≠ 0xE0 || 0xA0 ≤ b) && (a ≠ 0xED || b ≤ 0x9F) then
          some (scalar (a.toNat - 0xE0) [b, c], 2)
        else none
      | _ => none
    else if 0xF0 ≤ a && a ≤ 0xF4 then
      match rest with
      | b :: c :: d :: _ =>
        if isTail b && isTail c && isTail d && (a ≠ 0xF0 || 0x90 ≤ b) && (a ≠ 0xF4 || b ≤ 0x8F) then
          some (scalar (a.toNat - 0xF0) [b, c, d], 3)
        else none
      | _ => none
    else none

/-- Bytes as characters: `tail` bytes belong to the character before, and `escaped` tells whether
an odd run of backslashes stands before. -/
def lenient (escaped : Bool) : Nat → List UInt8 → List Char
  | _, [] => []
  | tail + 1, _ :: rest => lenient escaped tail rest
  | 0, a :: rest =>
    match lead? (a :: rest) with
    | some (c, tail) => c :: lenient (c == '\\' && !escaped) tail rest
    | none => (if escaped then ['\x00'] else strayEscape) ++ lenient false 0 rest

def ofBytes? (bytes : List UInt8) : Option String := String.fromUTF8? ⟨bytes.toArray⟩

def ofBytes (bytes : List UInt8) : List Char :=
  match ofBytes? bytes with
  | some s => s.toList
  | none => lenient false 0 bytes

def toBytes (s : String) : List UInt8 := s.toUTF8.data.toList

end FrameScope.Text
