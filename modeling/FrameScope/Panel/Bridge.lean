import FrameScope.Entries
import FrameScope.Text.Quoted

/-!
# The registry behind the panels

Handlers are registered on topics and keep the order of their registration. Every registration has
a number of its own, also after the registry was cleared, so an old subscription never reaches a
newer handler.

* `Bridge.subscribe`, `Bridge.unsubscribe`, `Bridge.clear`: who is registered;
* `Bridge.handlers`, `Bridge.count`, `Bridge.isActive`: asking.
-/

namespace FrameScope

/-- One registration: its topic and its number. -/
structure Subscription where
  topic : String
  id : Nat
  deriving DecidableEq, Repr, Inhabited

def Subscription.describe (s : Subscription) : String :=
  s!"Subscription \x7b topic: {Text.describe s.topic}, id: {s.id} \x7d"

/-- The handlers of every topic that has some, each with the number of its registration. -/
structure Bridge (η : Type) where
  nextId : Nat := 0
  topics : Entries (List (Nat × η)) := []

namespace Bridge

variable {η : Type}

def empty : Bridge η := {}

instance : Inhabited (Bridge η) := ⟨empty⟩

/-- The handlers of a topic with their numbers, in the order of registration. -/
def handlers (b : Bridge η) (topic : String) : List (Nat × η) := (b.topics.get? topic).getD []

/-- One more handler on a topic. -/
def subscribe (b : Bridge η) (topic : String) (handler : η) : Bridge η × Subscription :=
  ({ nextId := b.nextId + 1,
     topics := b.topics.put topic (b.handlers topic ++ [(b.nextId, handler)]) },
   ⟨topic, b.nextId⟩)

/-- Without one registration; a topic that has no handlers left goes. -/
def unsubscribe (b : Bridge η) (s : Subscription) : Bridge η :=
  match b.topics.get? s.topic with
  | none => b
  | some hs =>
    match hs.filter fun h => h.1 ≠ s.id with
    | [] => { b with topics := b.topics.erase s.topic }
    | hs => { b with topics := b.topics.put s.topic hs }

def clear (b : Bridge η) : Bridge η := { b with topics := [] }

/-- How many handlers a topic has. -/
def count (b : Bridge η) (topic : String) : Nat := (b.handlers topic).length

/-- Whether a registration is still there. -/
def isActive (b : Bridge η) (s : Subscription) : Bool :=
  (b.handlers s.topic).any fun h => h.1 = s.id

/-- Every handler with its number. -/
def allHandlers (b : Bridge η) : List (Nat × η) := b.topics.flatMap (·.2)

def describe (b : Bridge η) : String :=
  s!"EventBridge \x7b topics: {b.topics.length}, handlers: {b.allHandlers.length} \x7d"

end Bridge

end FrameScope
