import FrameScope.Amount.Display
import FrameScope.Collection.ReplicaKey
import FrameScope.Command.Answer
import FrameScope.History.LogStore
import FrameScope.Log.Filter
import FrameScope.Log.Tally
import FrameScope.Panel.Event
import FrameScope.Settings.FileStore
import FrameScope.Settings.Handle
import FrameScope.Time.View

/-!
# Commands on frames

* `Invocation.importFrames`: appends an export to the store;
* `Invocation.head`: where the history ends;
* `Invocation.frame`, `Invocation.replicas`, `Invocation.machines`, `Invocation.logs`: one frame, the
  live head unless another is asked for.
-/

namespace FrameScope.Invocation

/-! ## Import -/

/-- Appends frames one after the other, up to the first refusal; those before it stay. -/
def appendFrames (fs : Files) (s : LogStore) (count : Nat) :
    List Frame → Files × Except CommandError (LogStore × Nat)
  | [] => (fs, .ok (s, count))
  | f :: rest =>
    match LogStore.append fs s f with
    | .error _ => (fs, .error (.append f.height))
    | .ok (fs, s) => appendFrames fs s (count + 1) rest

def imported (s : LogStore) (count : Nat) : Answer :=
  let head := s.history.head?
  let text := match head with
    | some height => s!"imported {count} frames (head {height})"
    | none => s!"imported {count} frames"
  .found (.obj [("imported", .ofNat count), ("head", .ofNat? head)]) text none []

/-- Appends the frames of an export to the store. -/
def importFrames (r : Invocation) (fs : Files) (file : String) : Files × Except CommandError Answer :=
  match fs.read (Files.path file) with
  | .error _ => (fs, .error (.document file))
  | .ok bytes =>
    match FrameLog.readExport bytes with
    | .error _ => (fs, .error (.document file))
    | .ok frames =>
      match LogStore.openStore fs (Files.path r.store) with
      | (fs, .error _) => (fs, .error (.store r.store))
      | (fs, .ok s) =>
        match appendFrames fs s 0 frames with
        | (fs, .error e) => (fs, .error e)
        | (fs, .ok (s, count)) => (fs, .ok (imported s count))

/-! ## History -/

/-- The frames of the store, oldest first. -/
def history (r : Invocation) (fs : Files) : Except CommandError (List Frame) :=
  match LogStore.openExisting fs (Files.path r.store) with
  | .ok s => .ok s.history.frames.toList
  | .error _ => .error (.store r.store)

def noFrames : Answer := .nothing "no frames" none

def head (r : Invocation) (fs : Files) : Except CommandError Answer := do
  let frames ← r.history fs
  match frames.getLast? with
  | none => .ok noFrames
  | some f =>
    let data := Json.obj [("height", .ofNat f.height), ("timestamp", .ofNat f.timestamp),
      ("frames", .ofNat frames.length)]
    .ok (.found data s!"height {f.height} ({frames.length} frames)" none [])

/-- What is said about every answer on a frame. -/
def aboutView (view : TimeView Frame) : Entries Json :=
  [ ("view", .str view.label), ("live", .bool view.isLive), ("index", .ofNat? view.index?),
    ("height", .ofNat? (view.frame?.map (·.height))) ]

/-- An answer on the frame that is asked for, when there is one. -/
def onFrame (r : Invocation) (fs : Files) (index : Option Int)
    (answer : TimeView Frame → Frame → Except CommandError Answer) : Except CommandError Answer := do
  let frames ← r.history fs
  let view := TimeView.of index frames frames.getLast?
  match view.frame? with
  | some f => answer view f
  | none => .ok noFrames

def lines (ls : List String) : String := "\n".intercalate ls

/-! ## One frame -/

def summary (view : TimeView Frame) (f : Frame) : String :=
  lines
    [ view.label, s!"timestamp: {f.timestamp}", s!"replicas: {f.replicaPairs.length}",
      s!"jmachines: {f.machinePairs.length}", s!"logs: {f.logs.length}",
      s!"runtime outputs: {f.outputs.length}" ]

def frame (r : Invocation) (fs : Files) (index : Option Int) : Except CommandError Answer :=
  r.onFrame fs index fun view f =>
    .ok (.found (Coded.json f) (summary view f) (some (aboutView view)) [])

/-! ## Replicas -/

def replicaData (key : String) (x : Replica) : Json :=
  let parts := ReplicaKey.ofText key
  let reserves := x.reserves.normalize.map fun p => (p.1, Json.str p.2.text)
  .obj [ ("key", .str key), ("entityId", .str parts.entity), ("signerId", .ofText? parts.signer),
    ("height", .ofNat x.height), ("reserves", .obj (Entries.ofPairs reserves)),
    ("accounts", .arr (x.accounts.normalize.map fun p => .str p.1)) ]

def replicaLine (key : String) (x : Replica) (decimals : Nat) : String :=
  let reserves := x.reserves.normalize.map fun p => p.1 ++ "=" ++ p.2.fixedPoint decimals
  let shown := if reserves = [] then "-" else ",".intercalate reserves
  let accounts := x.accounts.normalize.length
  s!"{ReplicaKey.display key}  height {x.height}  accounts {accounts}  reserves {shown}"

/-- The replicas of a frame, all or those of one entity. -/
def replicas (r : Invocation) (fs : Files) (index : Option Int) (entity : Option String)
    (decimals : Nat) : Except CommandError Answer :=
  r.onFrame fs index fun view f =>
    let pairs := f.replicaPairs
    let about := aboutView view ++ [("entities", .arr ((entityIds pairs).map Json.str))]
    let shown := match entity with
      | some e => replicasOf pairs e
      | none => pairs
    if shown.isEmpty then
      let message := match entity with
        | some e => s!"no replicas for entity {e}"
        | none => "no replicas in frame"
      .ok (.nothing message (some about))
    else
      .ok (.found (.arr (shown.map fun p => replicaData p.1 p.2))
        (lines (shown.map fun p => replicaLine p.1 p.2 decimals)) (some about) [])

/-! ## Machines -/

def machineData (name : String) (m : Machine) : Json :=
  .obj [ ("name", .str name), ("chainId", .ofNat? m.chain), ("blockNumber", .ofNat m.block),
    ("entities", .ofNat m.entities.length) ]

def machineLine (name : String) (m : Machine) : String :=
  let chain := match m.chain with
    | some id => toString id
    | none => "-"
  s!"{name}  chain {chain}  block {m.block}  entities {m.entities.length}"

def machines (r : Invocation) (fs : Files) (index : Option Int) : Except CommandError Answer :=
  r.onFrame fs index fun view f =>
    let about := some (aboutView view)
    let pairs := f.machinePairs
    if pairs.isEmpty then .ok (.nothing "no jurisdiction machines in frame" about)
    else
      .ok (.found (.arr (pairs.map fun p => machineData p.1 p.2))
        (lines (pairs.map fun p => machineLine p.1 p.2)) about [])

/-! ## Logs -/

/-- The filter that the settings hold; without a directory of settings, the default one. -/
def savedFilter (r : Invocation) (fs : Files) : Except CommandError LogFilter :=
  let dir := Files.path r.settings
  if fs.isDir dir then
    match SettingsHandle.load (SettingsStore.directory dir) fs dashboardKey with
    | .ok h => .ok h.current.logFilter
    | .error e => .error (.settings e)
  else .ok .default

/-- The filter of a choice: the saved one or all, narrowed by what is chosen. -/
def filter (r : Invocation) (fs : Files) (c : LogChoice) : Except CommandError LogFilter := do
  let f ← if c.everything then .ok .all else r.savedFilter fs
  .ok { levels := if c.levels = [] then f.levels else fun l => l ∈ c.levels,
        categories := if c.categories = [] then f.categories else fun k => k ∈ c.categories,
        search := c.search.getD f.search,
        entity := c.entity.or f.entity }

/-- A text with blanks behind it, up to a width. -/
def padded (width : Nat) (text : String) : String :=
  text ++ String.ofList (List.replicate (width - text.length) ' ')

def logLine (e : LogEntry) : String :=
  let entity := e.entity.getD "-"
  s!"{padded 5 e.level.name} {padded 12 e.category.name} {entity}  {e.message}"

/-- The log of a frame through a filter. -/
def logs (r : Invocation) (fs : Files) (index : Option Int) (choice : LogChoice) :
    Except CommandError Answer :=
  r.onFrame fs index fun view f => do
    let filter ← r.filter fs choice
    let outcome := filter.apply f.logs
    let about := aboutView view ++
      [ ("total", .ofNat outcome.total), ("hidden", .ofNat outcome.hidden),
        ("tally", (Tally.of f.logs).write.toJson) ]
    match outcome.display.message? with
    | some message => .ok (.nothing message (some about))
    | none =>
      let notices :=
        if outcome.hidden = 0 then []
        else [s!"{outcome.hidden} of {outcome.total} entries hidden by filter"]
      .ok (.found (.arr (outcome.shown.map Coded.json)) (lines (outcome.shown.map logLine))
        (some about) notices)

end FrameScope.Invocation
