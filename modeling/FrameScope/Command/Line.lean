import FrameScope.Command.Switch
import FrameScope.Time.Span

/-!
# Reading a command line

The words are read from left to right. A word is the value of the option in front of it, a command,
an option, a group of letters, or a plain word; behind `--` every word is plain. An option may stand
at any command on the way; of two values the later command's counts, and a value on the line counts
more than the environment.

* `Scan.step`: one word;
* `Command`: what the program can do;
* `Invocation.ofWords`: the command of a line and an environment, and where and how it is to be
  carried out.
-/

namespace FrameScope

/-- Why the words of a line ask for nothing. -/
inductive UsageError where
  | unknownOption (word : String)
  /-- A word that is no command and that no command takes. -/
  | unexpected (word : String)
  | missingValue (option : String)
  | unwantedValue (option : String)
  | invalidValue (option text : String)
  | repeated (option : String)
  | missingCommand
  | missing (what : String)
  deriving DecidableEq, Repr

def UsageError.message : UsageError → String
  | .unknownOption word => s!"unexpected option '{word}'"
  | .unexpected word => s!"unexpected argument '{word}'"
  | .missingValue option => s!"a value is required for '--{option}'"
  | .unwantedValue option => s!"unexpected value for '--{option}'"
  | .invalidValue option text => s!"invalid value '{text}' for '--{option}'"
  | .repeated option => s!"the argument '--{option}' cannot be used multiple times"
  | .missingCommand => "a command is required"
  | .missing what => s!"required argument {what} was not provided"

/-- What a line asks for without a command. -/
inductive Stop where
  | version
  | help
  | usage (cause : UsageError)
  deriving DecidableEq, Repr

/-- What the words read so far amount to. -/
structure Scan where
  place : Place := .top
  /-- The options given at this place. -/
  given : List String := []
  /-- The options that some place on the way was not given, though the environment may have them. -/
  absent : List Switch := []
  /-- The option whose value is next. -/
  pending : Option Switch := none
  /-- Whether every further word is plain. -/
  literal : Bool := false
  /-- Whether further words only choose what to be helped with. -/
  helping : Bool := false
  args : Arguments := {}
  deriving Inhabited

namespace Scan

/-- Whether a word can be the value of an option in front of it. -/
def isValue (o : Switch) (word : String) : Bool :=
  match word.toList with
  | '-' :: c :: cs => o.signed && (c :: cs).all Char.isDigit
  | _ => true

/-- Notes an option as given; most may be given only once at a place. -/
def note (s : Scan) (o : Switch) : Except Stop Scan :=
  if o.name ∈ s.given ∧ ¬ o.repeats then .error (.usage (.repeated o.name))
  else .ok { s with given := o.name :: s.given, pending := none }

/-- An option with its value. -/
def value (s : Scan) (o : Switch) (text : String) : Except Stop Scan :=
  match o.effect with
  | .value set => do
    let s ← s.note o
    match set text s.args with
    | some args => .ok { s with args := args }
    | none => .error (.usage (.invalidValue o.name text))
  | _ => .error (.usage (.unwantedValue o.name))

/-- An option without a value, or before its value. -/
def option (s : Scan) (o : Switch) : Except Stop Scan :=
  match o.effect with
  | .flag set => (s.note o).map fun s => { s with args := set s.args }
  | .value _ => .ok { s with pending := some o }
  | .version => .error .version
  | .help => .error .help

/-- A long option, perhaps with its value behind `=`. -/
def long (s : Scan) (word : List Char) : Except Stop Scan :=
  let name := String.ofList (word.takeWhile (· ≠ '='))
  match s.place.switches.find? (·.name = name), word.dropWhile (· ≠ '=') with
  | none, _ => .error (.usage (.unknownOption s!"--{name}"))
  | some o, [] => s.option o
  | some o, _ :: text => s.value o (String.ofList text)

/-- A group of letters; a letter that takes a value takes the rest of its group. -/
def letters (s : Scan) : List Char → Except Stop Scan
  | [] => .ok s
  | c :: rest =>
    match s.place.switches.find? (·.letter = some c) with
    | none => .error (.usage (.unknownOption (String.ofList ['-', c])))
    | some o =>
      match o.effect, rest with
      | .value _, '=' :: text => s.value o (String.ofList text)
      | .value _, d :: text => s.value o (String.ofList (d :: text))
      | _, _ => do
        let s ← s.option o
        s.letters rest

def plain (s : Scan) (word : String) : Except Stop Scan :=
  if s.args.words.length < s.place.capacity then
    .ok { s with args := { s.args with words := s.args.words ++ [word] } }
  else .error (.usage (.unexpected word))

/-- The options of this place that are not given. -/
def missing (s : Scan) : List Switch :=
  s.place.switches.filter fun o => o.name ∉ s.given

def enter (s : Scan) (place : Place) : Scan :=
  { s with place := place, given := [], absent := s.absent ++ s.missing }

def topic (s : Scan) (word : String) : Except Stop Scan :=
  match Entries.get? s.place.commands word with
  | some place => .ok { s with place := place }
  | none => .error (.usage (.unexpected word))

def step (s : Scan) (word : String) : Except Stop Scan :=
  match s.pending with
  | some o => if isValue o word then s.value o word else .error (.usage (.missingValue o.name))
  | none =>
    if s.helping then s.topic word
    else if s.literal then s.plain word
    else
      match Entries.get? s.place.commands word, word.toList with
      | some place, _ => .ok (s.enter place)
      | none, ['-', '-'] => .ok { s with literal := true }
      | none, '-' :: '-' :: name => s.long name
      | none, '-' :: c :: cs => s.letters (c :: cs)
      | none, _ =>
        if word = "help" ∧ s.place.commands ≠ [] then .ok { s with helping := true }
        else s.plain word

/-- The value that the environment has for an option. -/
def standIn? (env : Entries String) (o : Switch) : Option String := o.substitute.bind env.get?

/-- The arguments with what the environment has for some options; what it has must be a value. -/
def ofEnvironment (env : Entries String) (a : Arguments) (o : Switch) : Except Stop Arguments :=
  match o.effect, standIn? env o with
  | .value set, some text =>
    match set text a with
    | some a => .ok a
    | none => .error (.usage (.invalidValue o.name text))
  | _, _ => .ok a

def finish (env : Entries String) (s : Scan) : Except Stop Scan := do
  if let some o := s.pending then .error (.usage (.missingValue o.name))
  if s.helping then .error .help
  let _ ← (s.absent ++ s.missing).foldlM (ofEnvironment env) {}
  .ok s

end Scan

/-! ## Invocations -/

/-- What is to be done with the settings. -/
inductive SettingsAction where
  /-- Shows one field, or the whole document. -/
  | get (field : Option String)
  | set (field text : String)
  | reset
  deriving DecidableEq, Repr

/-- Which entries of a log to show. -/
structure LogChoice where
  everything : Bool
  levels : List Level
  categories : List Category
  search : Option String
  entity : Option String
  deriving DecidableEq, Repr

inductive Command where
  | importFrames (file : String)
  | head
  | frame (index : Option Int)
  | replicas (index : Option Int) (entity : Option String) (decimals : Nat)
  | machines (index : Option Int)
  | logs (index : Option Int) (choice : LogChoice)
  | insurance (entity file : String) (decimals : Nat)
  | settings (action : SettingsAction)
  deriving DecidableEq, Repr

namespace Command

/-- An argument that a command cannot do without. -/
def require (what : String) : Option α → Except UsageError α
  | some x => .ok x
  | none => .error (.missing what)

/-- The command of a place and its arguments. -/
def ofArguments (place : Place) (a : Arguments) : Except UsageError Command :=
  match place, a.words with
  | .top, _ => .error .missingCommand
  | .settings, _ => .error .missingCommand
  | .importFrames, _ => (require "--from" a.source).map .importFrames
  | .head, _ => .ok .head
  | .frame, _ => .ok (.frame a.index)
  | .replicas, _ => .ok (.replicas a.index a.entity a.decimals)
  | .machines, _ => .ok (.machines a.index)
  | .logs, _ => .ok (.logs a.index ⟨a.everything, a.levels, a.categories, a.search, a.entity⟩)
  | .insurance, _ => do
    let entity ← require "--entity" a.entity
    let file ← require "--jurisdiction" a.jurisdiction
    .ok (.insurance entity file a.decimals)
  | .settingsGet, words => .ok (.settings (.get words.head?))
  | .settingsSet, [field, text] => .ok (.settings (.set field text))
  | .settingsSet, [] => .error (.missing "FIELD")
  | .settingsSet, _ => .error (.missing "VALUE")
  | .settingsReset, _ => .ok (.settings .reset)

end Command

/-- A command and where and how it is carried out. -/
structure Invocation where
  command : Command
  /-- The directory of the frame store. -/
  store : String
  /-- The directory of the settings. -/
  settings : String
  /-- The limit of an insurance request. -/
  timeout : Option Span
  style : AnswerStyle

namespace Invocation

def defaultStore : String := ".xln"

/-- The limit when none is given, in milliseconds. -/
def defaultTimeout : Nat := 10000

def inside (dir name : String) : String :=
  if dir.endsWith "/" then dir ++ name else dir ++ "/" ++ name

/-- The invocation of a command with its arguments. -/
def ofCommand (command : Command) (a : Arguments) : Invocation :=
  let store := a.store.getD defaultStore
  let limit := a.timeout.getD defaultTimeout
  { command := command, store := store,
    settings := a.settings.getD (inside store "settings"),
    timeout := if limit = 0 then none else some (Span.ofMilliseconds limit),
    style := a.style }

/-- The arguments before any word is read: what the environment has, where it is a value. -/
def fromEnvironment (env : Entries String) : Arguments :=
  let take := fun (a : Arguments) o => (Scan.ofEnvironment env a o).toOption.getD a
  (Switch.jurisdiction :: Switch.common).foldl take {}

/-- The invocation that a line asks for. -/
def ofWords (env : Entries String) (words : List String) : Except Stop Invocation := do
  let start : Scan := { args := fromEnvironment env }
  let s ← words.foldlM Scan.step start
  let s ← s.finish env
  match Command.ofArguments s.place s.args with
  | .ok command => .ok (ofCommand command s.args)
  | .error e => .error (.usage e)

end Invocation

end FrameScope
