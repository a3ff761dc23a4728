import FrameScope.Frame.Basic

/-!
# The frame a panel shows

A panel holds an optional index into the history. Without one it follows the live head. An index
past the end means the last frame, so that a history that is still loading never blanks the panel;
a negative index is no selection.

* `heldIndex?`: the index an index means in a history of some length;
* `frameShown?`: the frame;
* `TimeView`: the frame and where it came from.
-/

namespace FrameScope

/-- The index that a requested one means in a history of `length` frames, none for the live head. -/
def heldIndex? (requested : Option Int) (length : Nat) : Option Nat :=
  match requested with
  | none => none
  | some i => if length = 0 ∨ i < 0 then none else some (min i.toNat (length - 1))

/-- The frame to show, none when there is no data at all. -/
def frameShown? (requested : Option Int) (history : List α) (live : Option α) : Option α :=
  match heldIndex? requested history.length with
  | some i => history[i]?
  | none => live

/-- The frame to show and where it came from. -/
inductive TimeView (α : Type u) where
  /-- The frame at `index` of `length` recorded ones. -/
  | historical (index length : Nat) (frame : α)
  /-- The live head. -/
  | live (frame : α)
  | noData
  deriving DecidableEq, Repr

namespace TimeView

/-- The view of a requested index. -/
def of (requested : Option Int) (history : List α) (live : Option α) : TimeView α :=
  match heldIndex? requested history.length with
  | some i =>
    match history[i]? with
    | some f => .historical i history.length f
    | none => .noData
  | none =>
    match live with
    | some f => .live f
    | none => .noData

def frame? : TimeView α → Option α
  | .historical _ _ f => some f
  | .live f => some f
  | .noData => none

/-- The place in the history, where the frame is from there. -/
def index? : TimeView α → Option Nat
  | .historical i _ _ => some i
  | _ => none

def isLive : TimeView α → Bool
  | .live _ => true
  | _ => false

def label : TimeView Frame → String
  | .historical i length f => s!"frame {i + 1}/{length} (height {f.height})"
  | .live f => s!"live (height {f.height})"
  | .noData => "no data"

end TimeView

end FrameScope
