/-!
# Sizes of machine integers

How many values integers of 32, 64 and 128 bits have. An integer with sign lies from minus one half
of its size up to one half of it.

* `Word.size`: of 64 bits, the common case;
* `Word.narrowSize`, `Word.wideSize`: of 32 and of 128 bits.
-/

namespace FrameScope.Word

def narrowSize : Nat := 4294967296

def size : Nat := narrowSize * narrowSize

def wideSize : Nat := size * size

/-- Whether an integer with sign of so many values holds `i`. -/
def holdsSigned (size : Nat) (i : Int) : Bool := -(size : Int) ≤ 2 * i && 2 * i < size

end FrameScope.Word
