import FrameScope.Panel.Bridge
import FrameScope.Panel.Event

/-!
# Panels that react to each other

A delivery works from the handlers that a topic has when it starts. A handler may act on the bridge
while it is called: subscribe and unsubscribe, itself or others, clear the bridge, publish in its
turn. Here a handler is data: what it does at each of its calls, one after the other.

* `Action`: one operation on the bridge; `Plan`: what a handler still does;
* `Stage.alone`: an action without what it sets off; `Stage.perform`: with all of it;
* `Stage.step`: an action from outside; the bridge ends behind the action that let go of it.

Every call at which a handler acts uses up one of finitely many (`Stage.reserve`), so deliveries
nest only so deep.
-/

namespace FrameScope

/-- What is done at one call after the other: `acts` at the first ones, then each of `later`. -/
structure Script (α : Type) where
  acts : List α := []
  later : List (List α) := []
  deriving Inhabited

/-- The same at every call. -/
instance {α : Type} : Coe (List α) (Script α) := ⟨fun acts => { acts := acts }⟩

/-- One operation on the bridge. Subscriptions are known by the names they are kept under. -/
inductive Action where
  /-- Registers a handler that performs the `acts` of its script at the first `times` of its calls,
  and one of the script's `later` at each call after these. -/
  | subscribe (name topic : String) (times : Nat) (script : Script Action)
  | unsubscribe (name : String)
  | isActive (name : String)
  | publish (topic : String) (event : Except DecodeError PanelEvent)
  /-- Publishes on the event's own topic. -/
  | emit (event : Except DecodeError PanelEvent)
  /-- Emits that an entity was picked. -/
  | select (entity : String)
  | count (topic : String)
  | clear
  | describe
  /-- Lets go of the bridge. -/
  | drop
  deriving Inhabited

/-- What comes of an operation. -/
inductive ActionResult where
  | subscribed (s : Subscription)
  | active (is : Bool) (topic : String)
  | count (n : Nat)
  | described (text : String)
  | done
  /-- No subscription is kept under the name. -/
  | unknownName
  /-- Nobody holds the bridge any more. -/
  | dropped
  | undecoded (cause : DecodeError)

/-- A handler, by its name; what it does is in its plan. -/
structure Handler where
  name : String
  deriving DecidableEq, Repr, Inhabited

/-- What a handler still does at its calls. -/
structure Plan where
  times : Nat := 0
  script : Script Action := {}
  deriving Inhabited

/-- What handlers leave behind. -/
inductive Note where
  | received (name : String) (event : PanelEvent)
  | did (name : String) (act : Action) (result : ActionResult)

namespace Action

mutual

/-- How many acting calls an operation can still bring about by the handlers it registers. -/
def reserve : Action → Nat
  | .subscribe _ _ times ⟨acts, later⟩ => times * (1 + reserveAll acts) + reserveEach later
  | _ => 0

def reserveAll : List Action → Nat
  | [] => 0
  | a :: rest => reserve a + reserveAll rest

/-- The same for calls that each have their own operations. -/
def reserveEach : List (List Action) → Nat
  | [] => 0
  | acts :: rest => 1 + reserveAll acts + reserveEach rest

end

/-- The event that an operation publishes, with the topic. -/
def delivery? : Action → Option (String × PanelEvent)
  | .publish topic (.ok event) => some (topic, event)
  | .emit (.ok event) => some (event.topic, event)
  | .select entity => some ((PanelEvent.ofEntity entity).topic, .ofEntity entity)
  | _ => none

end Action

namespace Plan

/-- What a handler does at its next call, and what it does from then on. -/
def next : Plan → List Action × Plan
  | ⟨times + 1, script⟩ => (script.acts, ⟨times, script⟩)
  | ⟨0, acts, call :: later⟩ => (call, ⟨0, acts, later⟩)
  | ⟨0, acts, []⟩ => ([], ⟨0, acts, []⟩)

/-- The acting calls of a plan, with those they can bring about. -/
def reserve (p : Plan) : Nat :=
  p.times * (1 + Action.reserveAll p.script.acts) + Action.reserveEach p.script.later

end Plan

/-- A bridge, the subscriptions kept by name, and what has happened. -/
structure Stage where
  bridge : Bridge Handler := {}
  /-- Whether anyone holds the bridge. -/
  held : Bool := true
  subscriptions : Entries Subscription := []
  /-- What the handler of each number still does. -/
  plans : List Plan := []
  notes : List Note := []
  deriving Inhabited

namespace Stage

/-- What a handler still does. -/
def planOf (s : Stage) (id : Nat) : Plan := s.plans.getD id {}

def note (s : Stage) (n : Note) : Stage := { s with notes := s.notes ++ [n] }

/-- The acting calls that the handlers have left, with those they can bring about. -/
def reserve (s : Stage) : Nat := s.plans.foldr (fun p n => p.reserve + n) 0

/-! ## One action -/

/-- Registers a handler and keeps its subscription. -/
def subscribe (s : Stage) (name topic : String) (plan : Plan) : Stage × ActionResult :=
  let (bridge, subscription) := s.bridge.subscribe topic ⟨name⟩
  ({ s with bridge := bridge, plans := s.plans ++ [plan],
            subscriptions := s.subscriptions.put name subscription },
   .subscribed subscription)

/-- An action, when a bridge is held. -/
def whileHeld (s : Stage) (next : Stage × ActionResult) : Stage × ActionResult :=
  if s.held then next else (s, .dropped)

/-- An action on a decoded event that reaches nobody. -/
def unheard (s : Stage) (event : Except DecodeError PanelEvent) : Stage × ActionResult :=
  match event with
  | .ok _ => (s, .count 0)
  | .error cause => (s, .undecoded cause)

/-- What an action does by itself: no handler is called. -/
def alone (s : Stage) : Action → Stage × ActionResult
  | .subscribe name topic times script => s.whileHeld (s.subscribe name topic ⟨times, script⟩)
  | .unsubscribe name =>
    match s.subscriptions.get? name with
    | some sub => ({ s with bridge := s.bridge.unsubscribe sub }, .done)
    | none => (s, .unknownName)
  | .isActive name =>
    match s.subscriptions.get? name with
    | some sub => (s, .active (s.bridge.isActive sub) sub.topic)
    | none => (s, .unknownName)
  | .publish _ event => s.whileHeld (s.unheard event)
  | .emit event => s.whileHeld (s.unheard event)
  | .select entity => s.whileHeld (s.unheard (.ok (.ofEntity entity)))
  | .count topic => s.whileHeld (s, .count (s.bridge.count topic))
  | .clear => s.whileHeld ({ s with bridge := s.bridge.clear }, .done)
  | .describe => s.whileHeld (s, .described s.bridge.describe)
  | .drop => ({ s with held := false }, .done)

/-- The event that an action delivers, with its topic: none when nobody holds the bridge. -/
def delivery? (s : Stage) (act : Action) : Option (String × PanelEvent) :=
  if s.held then act.delivery? else none

/-! ## Deliveries -/

/-- A handler's next call begins: the operations it has for it, which its plan has no more. -/
def begin (s : Stage) (id : Nat) : List Action × Stage :=
  let (acts, rest) := (s.planOf id).next
  (acts, { s with plans := s.plans.set id rest })

/-- Calls one handler with an event; `perform` is what an action does. -/
def call (perform : Stage → Action → Stage × ActionResult) (event : PanelEvent) (s : Stage)
    (h : Nat × Handler) : Stage :=
  let (acts, s) := (s.note (.received h.2.name event)).begin h.1
  acts.foldl (fun s act =>
    let (s, result) := perform s act
    s.note (.did h.2.name act result)) s

/-- Delivers an event to the handlers that a topic has now. -/
def deliver (perform : Stage → Action → Stage × ActionResult) (s : Stage) (topic : String)
    (event : PanelEvent) : Stage × ActionResult :=
  let snapshot := s.bridge.handlers topic
  (snapshot.foldl (call perform event) s, .count snapshot.length)

/-- An action and everything it sets off, deliveries nested at most `depth` deep. -/
def perform : Nat → Stage → Action → Stage × ActionResult
  | 0, s, act => s.alone act
  | depth + 1, s, act =>
    match s.delivery? act with
    | some (topic, event) => s.deliver (perform depth) topic event
    | none => s.alone act

/-- The end of an action from outside: a bridge that nobody holds is gone. -/
def settle (s : Stage) : Stage :=
  { s with bridge := if s.held then s.bridge else s.bridge.clear, notes := [] }

/-- An action from outside, and what handlers did meanwhile. -/
def step (s : Stage) (act : Action) : Stage × ActionResult × List Note :=
  let (t, result) := perform (s.reserve + act.reserve + 1) { s with notes := [] } act
  (t.settle, result, t.notes)

end Stage

end FrameScope
