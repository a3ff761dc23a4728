import FrameScope.Log.Filter

/-!
# Dashboard settings

Four fields are known; all others that a document has are kept as they are, in its order.

* `Settings.read`, `Settings.write`: the document;
* `Settings.object`: the document as an untyped object, in which a field comes once;
* `Settings.recover`: the settings of a stored document, field by field where it does not decode.
-/

namespace FrameScope

inductive Theme where
  | dark
  | light
  deriving DecidableEq, Repr, Inhabited

namespace Theme

def all : List Theme := [.dark, .light]

def name : Theme → String
  | .dark => "dark"
  | .light => "light"

theorem mem_all (t : Theme) : t ∈ all := by cases t <;> decide

end Theme

instance : Coded Theme := ⟨Read.choice (Theme.all.map fun t => (t.name, t)), fun t => .text t.name⟩

/-- What the user of the dashboard prefers. -/
structure Settings where
  theme : Theme := .dark
  uiScale : Binary64 := .one
  /-- Whether panels start out at the live head. -/
  followLive : Bool := true
  logFilter : LogFilter := .default
  /-- Fields that other programs keep in the same document. -/
  extra : Entries Json := []

namespace Settings

def default : Settings := {}

instance : Inhabited Settings := ⟨default⟩

def fields : List (Field Settings) :=
  [ .may "theme" (Coded.read (α := Theme)) fun x s => { s with theme := x },
    .may "uiScale" Read.float fun x s => { s with uiScale := x },
    .may "followLive" Read.flag fun x s => { s with followLive := x },
    .may "logFilter" (Coded.read (α := LogFilter)) fun x s => { s with logFilter := x } ]

/-- Reads settings from a map; what is not given is as by default. -/
def read : Decoder Settings
  | m, .map es => do
    let (s, kept) ← Read.keepingEntries fields m [] default [] es
    let extra ← Read.entries Read.json .buffered (.map kept)
    .ok { s with extra := extra }
  | _, node => .error (Node.notContainer node)

/-- The known fields of a document. -/
def known (s : Settings) : List (Key × Node) :=
  [ (.name "theme", Coded.write s.theme), (.name "uiScale", .float s.uiScale),
    (.name "followLive", .bool s.followLive), (.name "logFilter", Coded.write s.logFilter) ]

/-- The document: the known fields, and behind them all others. -/
def write (s : Settings) : Node :=
  .map (s.known ++ s.extra.map fun e => (.name e.1, Node.ofJson e.2))

instance : Coded Settings := ⟨read, write⟩

/-- The document as an untyped object; another field by a known name takes the known one's place. -/
def object (s : Settings) : Entries Json := Entries.ofPairs (Node.toJsonFields s.known ++ s.extra)

/-- The settings of an untyped object. -/
def ofObject (fields : Entries Json) : Except DecodeError Settings := Coded.ofJson? (.obj fields)

/-- The object with one more field, when the settings can still be read from it. -/
def accept (accepted : Entries Json) (field : String × Json) : Entries Json :=
  let candidate := accepted.put field.1 field.2
  match ofObject candidate with
  | .ok _ => candidate
  | .error _ => accepted

/-- The settings of a stored document. Where it does not decode whole, each of its fields is tried
in turn on top of the defaults and of the fields before it. -/
def recover (stored : Json) : Except DecodeError Settings :=
  match Coded.ofJson? stored with
  | .ok s => .ok s
  | .error _ =>
    match stored with
    | .obj fields => ofObject (fields.foldl accept default.object)
    | _ => .ok default

/-- A field by its name in the document. -/
def get? (s : Settings) (field : String) : Option Json := s.object.get? field

end Settings

end FrameScope
