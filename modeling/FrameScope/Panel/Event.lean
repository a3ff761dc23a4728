import FrameScope.Log.Entry
import FrameScope.Node.Tagged

/-!
# What panels tell each other

An event is a plain record with its topic as the tag `event`.

* `PanelEvent`: the events; `PanelEvent.topic`: where each is published;
* `PanelEvent.write`, `PanelEvent.read`: its document.
-/

namespace FrameScope

/-- A place or a direction in the scene. -/
structure Point where
  x : Binary64
  y : Binary64
  z : Binary64
  deriving DecidableEq, Repr, Inhabited

/-- An entity that was picked, perhaps seen by one signer, perhaps by one panel. -/
structure Selection where
  entity : String
  signer : Option String := none
  panel : Option String := none
  deriving DecidableEq, Repr, Inhabited

/-- A settings field and its value from now on. -/
structure SettingChange where
  key : String
  value : Json
  deriving Inhabited

/-- Where the camera stands and what it looks at. -/
structure CameraPose where
  position : Point
  target : Point
  deriving DecidableEq, Repr, Inhabited

/-- What panels tell each other. -/
inductive PanelEvent where
  | entitySelected (selection : Selection)
  | settingsChanged (change : SettingChange)
  | settingsReset
  | cameraFocus (target : String)
  | cameraUpdate (pose : CameraPose)
  | cameraRestore
  deriving Inhabited

/-! ## Documents of the parts -/

namespace Point

/-- A sequence of exactly three numbers. -/
def read : Decoder Point
  | m, .seq (a :: b :: c :: rest) => do
    let x ← Read.float m a
    let y ← Read.float m b
    let z ← Read.float m c
    if rest.isEmpty then .ok ⟨x, y, z⟩ else .error m.surplus
  | m, .seq vs => do
    let _ ← Read.items Read.float m vs
    .error .invalidLength
  | _, node => .error (Node.notContainer node)

instance : Coded Point := ⟨read, fun p => .seq [.float p.x, .float p.y, .float p.z]⟩

end Point

namespace PanelEvent

def selectionFields : List (Field Selection) :=
  [ .must "entityId" Read.text fun x s => { s with entity := x },
    .may "signerId" (Read.option Read.text) fun x s => { s with signer := x },
    .may "sourcePanel" (Read.option Read.text) fun x s => { s with panel := x } ]

def changeFields : List (Field SettingChange) :=
  [ .must "key" Read.text fun x c => { c with key := x },
    .must "value" Read.json fun x c => { c with value := x } ]

def focusFields : List (Field String) := [ .must "target" Read.text fun x _ => x ]

def poseFields : List (Field CameraPose) :=
  [ .must "position" Point.read fun x p => { p with position := x },
    .must "target" Point.read fun x p => { p with target := x } ]

/-! ## Topics -/

/-- Where an event is published; also its tag. -/
def topic : PanelEvent → String
  | .entitySelected _ => "entity-selected"
  | .settingsChanged _ => "settings-changed"
  | .settingsReset => "settings-reset"
  | .cameraFocus _ => "camera-focus"
  | .cameraUpdate _ => "camera-update"
  | .cameraRestore => "camera-restore"

def ofEntity (entity : String) : PanelEvent := .entitySelected { entity := entity }

/-! ## Documents -/

def label : String := "event"

/-- The shape that each tag stands for. -/
def shapes : List (String × Decoder PanelEvent) :=
  [ ("entity-selected",
      fun m node => (Read.record selectionFields default m node).map .entitySelected),
    ("settings-changed",
      fun m node => (Read.record changeFields default m node).map .settingsChanged),
    ("settings-reset", fun m node => (Read.nothing m node).map fun _ => .settingsReset),
    ("camera-focus", fun m node => (Read.record focusFields "" m node).map .cameraFocus),
    ("camera-update",
      fun m node => (Read.record poseFields default m node).map .cameraUpdate),
    ("camera-restore", fun m node => (Read.nothing m node).map fun _ => .cameraRestore) ]

/-- Reads an event: the tag first, then the rest as the tag says. -/
def read : Decoder PanelEvent := fun m node => do
  let (shape, held) ← Read.tagged label shapes m node
  shape .buffered held

/-- The fields of an event beside its tag. -/
def body : PanelEvent → List (Key × Node)
  | .entitySelected s =>
    [(.name "entityId", .text s.entity)] ++ optionalEntry "signerId" s.signer
      ++ optionalEntry "sourcePanel" s.panel
  | .settingsChanged c => [(.name "key", .text c.key), (.name "value", Node.ofJson c.value)]
  | .settingsReset => []
  | .cameraFocus target => [(.name "target", .text target)]
  | .cameraUpdate p =>
    [(.name "position", Coded.write p.position), (.name "target", Coded.write p.target)]
  | .cameraRestore => []

def write (e : PanelEvent) : Node := .map ((.name label, .text e.topic) :: e.body)

instance : Coded PanelEvent := ⟨read, write⟩

end PanelEvent

end FrameScope
