import FrameScope.Node.Coded
import FrameScope.Node.Record

/-!
# Log entries

* `Level`, `Category`: severity and subsystem, each with its name;
* `LogEntry`: one record of a frame's log.
-/

namespace FrameScope

/-- Severity of a log entry, from the most to the least verbose. -/
inductive Level where
  | trace
  | debug
  | info
  | warn
  | error
  deriving DecidableEq, Repr, Inhabited

/-- Subsystem a log entry comes from. -/
inductive Category where
  | consensus
  | account
  | jurisdiction
  | evm
  | network
  | ui
  | system
  deriving DecidableEq, Repr, Inhabited

namespace Level

def all : List Level := [.trace, .debug, .info, .warn, .error]

def name : Level → String
  | .trace => "trace"
  | .debug => "debug"
  | .info => "info"
  | .warn => "warn"
  | .error => "error"

theorem mem_all (l : Level) : l ∈ all := by cases l <;> decide

end Level

namespace Category

def all : List Category := [.consensus, .account, .jurisdiction, .evm, .network, .ui, .system]

def name : Category → String
  | .consensus => "consensus"
  | .account => "account"
  | .jurisdiction => "jurisdiction"
  | .evm => "evm"
  | .network => "network"
  | .ui => "ui"
  | .system => "system"

theorem mem_all (c : Category) : c ∈ all := by cases c <;> decide

end Category

structure UnknownName where
  what : String
  raw : String
  deriving DecidableEq, Repr

def UnknownName.message (e : UnknownName) : String := s!"unknown {e.what} '{e.raw}'"

/-- A name as people type it: blanks around it and ASCII case do not matter. -/
def typedName (raw : String) : String :=
  String.ofList ((Text.trim raw.toList).map Char.toLower)

def Level.ofName (raw : String) : Except UnknownName Level :=
  match Level.all.find? (·.name = typedName raw) with
  | some l => .ok l
  | none => .error ⟨"log level", raw⟩

def Category.ofName (raw : String) : Except UnknownName Category :=
  match Category.all.find? (·.name = typedName raw) with
  | some c => .ok c
  | none => .error ⟨"log category", raw⟩

instance : Coded Level := ⟨Read.choice (Level.all.map fun l => (l.name, l)), fun l => .text l.name⟩

instance : Coded Category :=
  ⟨Read.choice (Category.all.map fun c => (c.name, c)), fun c => .text c.name⟩

/-- One record of a frame's log. -/
structure LogEntry where
  level : Level
  category : Category
  message : String
  entity : Option String
  data : Option Json
  deriving Inhabited

namespace LogEntry

def fields : List (Field LogEntry) :=
  [ .must "level" (Coded.read (α := Level)) fun x e => { e with level := x },
    .must "category" (Coded.read (α := Category)) fun x e => { e with category := x },
    .must "message" Read.text fun x e => { e with message := x },
    .may "entityId" (Read.option Read.text) fun x e => { e with entity := x },
    .may "data" (Read.option Read.json) fun x e => { e with data := x } ]

def blank : LogEntry := ⟨.trace, .consensus, "", none, none⟩

end LogEntry

/-- A field that is written only when it is there. -/
def optionalEntry [Coded α] (name : String) : Option α → List (Key × Node)
  | some x => [(.name name, Coded.write x)]
  | none => []

/-- A list that is written only when it has items. -/
def nonemptyEntry [Coded α] (name : String) : List α → List (Key × Node)
  | [] => []
  | xs => [(.name name, .seq (xs.map Coded.write))]

def LogEntry.write (e : LogEntry) : Node :=
  .map ([(.name "level", Coded.write e.level), (.name "category", Coded.write e.category),
    (.name "message", .text e.message)]
    ++ optionalEntry "entityId" e.entity ++ optionalEntry "data" e.data)

instance : Coded LogEntry := ⟨Read.record LogEntry.fields LogEntry.blank, LogEntry.write⟩

end FrameScope
