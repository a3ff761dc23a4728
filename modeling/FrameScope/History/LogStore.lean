import FrameScope.Files
import FrameScope.History.FrameLog

/-!
# Histories kept in a file

The log of a store stands at `frames/frames.log` under the store's root. It is read whole when the
store is opened; after that every append goes to the file first and to the history second.
-/

namespace FrameScope

/-- An open store: where its log is, and the history read from it and appended since. -/
structure LogStore where
  path : Path
  history : History
  deriving Inhabited

namespace LogStore

def logDir (root : Path) : Path := root ++ ["frames"]

def logPath (root : Path) : Path := logDir root ++ ["frames.log"]

/-- A file operation as a step of a store. -/
def lift (r : Except FileError α) : Except StoreError α := r.mapError fun _ => .file

/-- Opens a store, creating its log when there is none. The files as they are then come back even
when the log does not read. -/
def openStore (fs : Files) (root : Path) : Files × Except StoreError LogStore :=
  match fs.createDirs (logDir root) with
  | .error _ => (fs, .error .file)
  | .ok fs =>
    let path := logPath root
    match if fs.exists? path then .ok fs else fs.write path [] with
    | .error _ => (fs, .error .file)
    | .ok fs =>
      (fs, do
        let bytes ← lift (fs.read path)
        let history ← FrameLog.read bytes
        .ok ⟨path, history⟩)

/-- Opens a store for reading; a log that is not there is an empty history. -/
def openExisting (fs : Files) (root : Path) : Except StoreError LogStore := do
  let path := logPath root
  if fs.exists? path then
    let bytes ← lift (fs.read path)
    let history ← FrameLog.read bytes
    .ok ⟨path, history⟩
  else .ok ⟨path, .empty⟩

/-- Appends a frame to the log and to the history. -/
def append (fs : Files) (s : LogStore) (f : Frame) : Except StoreError (Files × LogStore) := do
  let history ← s.history.append f
  let bytes ← FrameLog.record f
  let fs ← lift (fs.createDirs s.path.dropLast)
  let fs ← lift (fs.extend s.path bytes)
  .ok (fs, { s with history := history })

/-- Frames appended one after the other, up to the first refusal. -/
def appendAll (fs : Files) (s : LogStore) : List Frame → Except StoreError (Files × LogStore)
  | [] => .ok (fs, s)
  | f :: rest => do
    let (fs, s) ← append fs s f
    appendAll fs s rest

/-- The files and the store behind an append, and the height appended or why there is none. -/
def tryAppend (fs : Files) (s : LogStore) (f : Frame) :
    (Files × LogStore) × Except StoreError Height :=
  match append fs s f with
  | .ok after => (after, .ok f.height)
  | .error e => ((fs, s), .error e)

end LogStore

end FrameScope
