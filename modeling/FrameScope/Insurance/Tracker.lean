import FrameScope.Insurance.Line

/-!
# Whose insurance is shown

Every change of the selection starts a new generation. A request carries the ticket it was issued
under, and its outcome counts only while the ticket's generation is the present one, so a slow
answer for one entity never shows after another was selected.

* `Tracker.select`, `Tracker.refresh`, `Tracker.clear`: new generations;
* `Tracker.commit`, `Tracker.commitUnavailable`: the outcome of a request.
-/

namespace FrameScope

/-- Issued for a request; handed back with its outcome. -/
structure Ticket where
  generation : Nat
  entity : String
  deriving DecidableEq, Repr, Inhabited

inductive InsuranceView where
  /-- Nothing is selected. -/
  | idle
  /-- There is no insurance where the entity is. -/
  | unavailable (entity : String)
  | loading (entity : String)
  | loaded (entity : String) (lines : List InsuranceLine)
  | failed (entity : String) (message : String)
  deriving DecidableEq, Inhabited

namespace InsuranceView

/-- The entity that the panel is about. -/
def entity? : InsuranceView → Option String
  | .idle => none
  | .unavailable e => some e
  | .loading e => some e
  | .loaded e _ => some e
  | .failed e _ => some e

def ofAnswer (entity : String) : InsuranceAnswer → InsuranceView
  | .ok lines => .loaded entity lines
  | .error cause => .failed entity cause.message

/-- The document of a view: what it is, the entity, and what there is to show. -/
def write : InsuranceView → Node
  | .idle => .map [(.name "state", .text "idle")]
  | .unavailable e => .map [(.name "state", .text "unavailable"), (.name "entity_id", .text e)]
  | .loading e => .map [(.name "state", .text "loading"), (.name "entity_id", .text e)]
  | .loaded e lines =>
    .map [(.name "state", .text "loaded"), (.name "entity_id", .text e),
      (.name "lines", .seq (lines.map Coded.write))]
  | .failed e message =>
    .map [(.name "state", .text "failed"), (.name "entity_id", .text e),
      (.name "message", .text message)]

end InsuranceView

/-- The selection, its generation and what is shown. -/
structure Tracker where
  generation : Nat := 0
  selected : Option String := none
  view : InsuranceView := .idle
  deriving Inhabited

namespace Tracker

/-- A ticket of a new generation; until its outcome is known the panel is loading. -/
def issue (t : Tracker) (entity : String) : Tracker × Ticket :=
  ({ t with generation := t.generation + 1, view := .loading entity },
   ⟨t.generation + 1, entity⟩)

def select (t : Tracker) (entity : String) : Tracker × Ticket :=
  { t with selected := some entity }.issue entity

def refresh (t : Tracker) : Option (Tracker × Ticket) := t.selected.map t.issue

def clear (t : Tracker) : Tracker := ⟨t.generation + 1, none, .idle⟩

/-- Whether a ticket is of the present generation. -/
def isCurrent (t : Tracker) (ticket : Ticket) : Bool := ticket.generation == t.generation

/-- Shows a view under a ticket; one that is not current changes nothing. -/
def settle (t : Tracker) (ticket : Ticket) (view : InsuranceView) : Tracker × Bool :=
  if t.isCurrent ticket then ({ t with view := view }, true) else (t, false)

/-- Shows the answer to a ticket's request. -/
def commit (t : Tracker) (ticket : Ticket) (answer : InsuranceAnswer) : Tracker × Bool :=
  t.settle ticket (.ofAnswer ticket.entity answer)

/-- Shows that there is no insurance to ask for. -/
def commitUnavailable (t : Tracker) (ticket : Ticket) : Tracker × Bool :=
  t.settle ticket (.unavailable ticket.entity)

end Tracker

end FrameScope
