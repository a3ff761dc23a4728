import FrameScope.Log.Entry

/-!
# Options of the command line

* `Arguments`: what the words of a command line say;
* `Switch`: an option and what it does to the arguments;
* `Place`: where on a command line a word stands, with the options and commands known there.
-/

namespace FrameScope

/-- How answers are printed. -/
structure AnswerStyle where
  json : Bool := false
  /-- On several lines; always JSON. -/
  indented : Bool := false
  quiet : Bool := false
  /-- Without what is said about the answer. -/
  bare : Bool := false
  deriving DecidableEq, Repr, Inhabited

/-- What the words of a command line say. -/
structure Arguments where
  style : AnswerStyle := {}
  /-- The directory of the frame store. -/
  store : Option String := none
  /-- The directory of the settings. -/
  settings : Option String := none
  /-- The limit of an insurance request in milliseconds; zero is no limit. -/
  timeout : Option Nat := none
  /-- The frame to show. -/
  index : Option Int := none
  entity : Option String := none
  /-- The fractional places of a token. -/
  decimals : Nat := 18
  levels : List Level := []
  categories : List Category := []
  search : Option String := none
  /-- Whether a log starts out with every entry. -/
  everything : Bool := false
  /-- The file of an export. -/
  source : Option String := none
  /-- The file of a jurisdiction. -/
  jurisdiction : Option String := none
  /-- The words that are no options, in order. -/
  words : List String := []
  deriving Inhabited

/-! ## Options -/

inductive Effect where
  | flag (set : Arguments → Arguments)
  /-- Takes a value; none where the text spells none. -/
  | value (set : String → Arguments → Option Arguments)
  /-- Asks for the version and nothing else. -/
  | version
  /-- Asks for help and nothing else. -/
  | help

structure Switch where
  name : String
  effect : Effect
  letter : Option Char := none
  /-- Whether a negative number may stand behind it as a word of its own. -/
  signed : Bool := false
  /-- Whether it may come more than once. -/
  repeats : Bool := false
  /-- The environment variable that stands in for it. -/
  substitute : Option String := none

namespace Switch

/-! ### Values -/

def integer? (text : String) : Option Int :=
  match text.toList with
  | '-' :: ds => (Decimal.natOf? ds).map fun n => -(n : Int)
  | '+' :: ds => (Decimal.natOf? ds).map Int.ofNat
  | ds => (Decimal.natOf? ds).map Int.ofNat

/-- An integer of 64 bits with sign. -/
def int64? (text : String) : Option Int :=
  (integer? text).filter (Word.holdsSigned Word.size)

/-- An integer of 64 bits without sign; not even a zero has a minus. -/
def word? (text : String) : Option Nat :=
  if text.startsWith "-" then none
  else ((integer? text).map Int.toNat).filter (· < Word.size)

def places? (text : String) : Option Nat :=
  ((integer? text).filter fun i => 0 ≤ i && i < 256).map Int.toNat

/-- A path is never empty. -/
def path? (text : String) : Option String := if text = "" then none else some text

/-! ### The options -/

/-- An option whose value is read by `read`. -/
def reading (name : String) (read : String → Option α) (set : α → Arguments → Arguments) : Switch :=
  ⟨name, .value fun text a => (read text).map fun x => set x a, none, false, false, none⟩

/-- The options that every command has. -/
def common : List Switch :=
  [ { reading "store" path? fun x a => { a with store := some x } with
        letter := some 's', substitute := some "XLN_STORE" },
    { reading "settings-dir" path? fun x a => { a with settings := some x } with
        substitute := some "XLN_SETTINGS" },
    { reading "fetch-timeout-ms" word? fun x a => { a with timeout := some x } with
        substitute := some "XLN_FETCH_TIMEOUT_MS" },
    { name := "json", effect := .flag fun a => { a with style.json := true } },
    { name := "pretty",
      effect := .flag fun a => { a with style.json := true, style.indented := true } },
    { name := "quiet", effect := .flag fun a => { a with style.quiet := true } },
    { name := "no-meta", effect := .flag fun a => { a with style.bare := true } },
    { name := "verbose", effect := .flag id, letter := some 'v' },
    { name := "help", effect := .help, letter := some 'h' } ]

def version : Switch := { name := "version", effect := .version, letter := some 'V' }

/-- The frame to show, by its place in the history; a negative place follows the live head. -/
def index : Switch :=
  { reading "at" int64? fun x a => { a with index := some x } with signed := true }

def entity : Switch := reading "entity" some fun x a => { a with entity := some x }

def decimals : Switch := reading "decimals" places? fun x a => { a with decimals := x }

def level : Switch :=
  { reading "level" (fun t => (Level.ofName t).toOption)
      fun x a => { a with levels := a.levels ++ [x] } with repeats := true }

def category : Switch :=
  { reading "category" (fun t => (Category.ofName t).toOption)
      fun x a => { a with categories := a.categories ++ [x] } with repeats := true }

def search : Switch := reading "search" some fun x a => { a with search := some x }

def everything : Switch :=
  { name := "all", effect := .flag fun a => { a with everything := true } }

def source : Switch := reading "from" path? fun x a => { a with source := some x }

def jurisdiction : Switch :=
  { reading "jurisdiction" path? fun x a => { a with jurisdiction := some x } with
      substitute := some "XLN_JURISDICTION" }

end Switch

/-! ## Places -/

/-- Where on a command line a word stands. -/
inductive Place where
  /-- In front of any command. -/
  | top
  | importFrames
  | head
  | frame
  | replicas
  | machines
  | logs
  | insurance
  | settings
  | settingsGet
  | settingsSet
  | settingsReset
  deriving DecidableEq, Repr, Inhabited

namespace Place

def commands : Place → List (String × Place)
  | .top =>
    [ ("import", .importFrames), ("head", .head), ("frame", .frame), ("replicas", .replicas),
      ("jmachines", .machines), ("logs", .logs), ("insurance", .insurance),
      ("settings", .settings) ]
  | .settings => [("get", .settingsGet), ("set", .settingsSet), ("reset", .settingsReset)]
  | _ => []

def switches : Place → List Switch
  | .top => Switch.version :: Switch.common
  | .importFrames => Switch.source :: Switch.common
  | .frame => Switch.index :: Switch.common
  | .machines => Switch.index :: Switch.common
  | .replicas => [Switch.index, Switch.entity, Switch.decimals] ++ Switch.common
  | .logs =>
    [Switch.index, Switch.level, Switch.category, Switch.search, Switch.entity, Switch.everything]
      ++ Switch.common
  | .insurance => [Switch.entity, Switch.jurisdiction, Switch.decimals] ++ Switch.common
  | _ => Switch.common

/-- How many words that are no options a place takes. -/
def capacity : Place → Nat
  | .settingsGet => 1
  | .settingsSet => 2
  | _ => 0

end Place

end FrameScope
