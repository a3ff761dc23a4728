import FrameScope.Time.View

/-!
# The time cursor of a panel

* `Cursor.seek`, `Cursor.followLive`: any index, or none;
* `Cursor.jumpToStart`, `Cursor.stepBack`, `Cursor.stepForward`: moves along a history of some
  length. One step back from the live head is the last frame, and one step past the last frame is
  the live head.
-/

namespace FrameScope

/-- The index a panel holds; none and negative ones follow the live head. -/
structure Cursor where
  index : Option Int
  deriving DecidableEq, Repr, Inhabited

namespace Cursor

/-- An index as the signed word it is kept in. -/
def keptIndex (i : Nat) : Int := Int.bmod i Word.size

/-- Whether the cursor follows the live head. -/
def isLive (c : Cursor) : Bool :=
  match c.index with
  | some i => i < 0
  | none => true

def followLive (_ : Cursor) : Cursor := ⟨none⟩

def seek (_ : Cursor) (i : Int) : Cursor := ⟨some i⟩

/-- To the first frame, when there is one. -/
def jumpToStart (c : Cursor) (length : Nat) : Cursor := if 0 < length then ⟨some 0⟩ else c

/-- One frame back; from the live head to the last frame. -/
def stepBack (c : Cursor) (length : Nat) : Cursor :=
  if length = 0 then c
  else match heldIndex? c.index length with
    | some i => ⟨some (keptIndex (i - 1))⟩
    | none => ⟨some (keptIndex (length - 1))⟩

/-- One frame forward; from the last frame to the live head. -/
def stepForward (c : Cursor) (length : Nat) : Cursor :=
  match heldIndex? c.index length with
  | some i => if length ≤ i + 1 then ⟨none⟩ else ⟨some (keptIndex (i + 1))⟩
  | none => c

/-- The frame the cursor shows, none when there is no data at all. -/
def frame? (c : Cursor) (history : List α) (live : Option α) : Option α :=
  frameShown? c.index history live

/-- The frame the cursor shows and where it came from. -/
def view (c : Cursor) (history : List α) (live : Option α) : TimeView α :=
  TimeView.of c.index history live

end Cursor

end FrameScope
