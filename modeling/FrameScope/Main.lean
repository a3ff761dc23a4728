import FrameScope.Command.Run
import Std.Time.DateTime.Timestamp

/-!
# The program

What the disk has at the paths that a command has to do with is read into a tree of files, the
command runs on the tree, and what it changed is written back.
-/

namespace FrameScope.Disk

def spelling : Path → String
  | "/" :: names => "/" ++ "/".intercalate names
  | names => "/".intercalate names

/-- What the disk has at a path. -/
def kind? (p : Path) : IO (Option FileKind) := do
  let entry : IO.FS.DirEntry := ⟨".", spelling p⟩
  if ← entry.path.isDir then return some .directory
  if ← entry.path.pathExists then
    return some (.file (← IO.FS.readBinFile (spelling p)).data.toList)
  return none

/-- The tree of what the disk has at some paths and on the way to them. -/
def read (paths : List Path) : IO Files := do
  let mut fs := Files.empty
  for path in paths do
    for n in [1 : path.length + 1] do
      let p := path.take n
      if let some kind ← kind? p then fs := fs.set p kind
  return fs

/-- Makes the disk agree with a tree, as far as the tree differs from what was read. -/
def write (before after : Files) : IO Unit := do
  for (p, kind) in after.entries do
    if before.kind? p ≠ some kind then
      match kind with
      | .directory => IO.FS.createDirAll (spelling p)
      | .file content => IO.FS.writeBinFile (spelling p) ⟨content.toArray⟩
  for (p, _) in before.entries do
    if !after.exists? p then IO.FS.removeFile (spelling p)

/-- What the environment has for the options. -/
def environment : IO (Entries String) := do
  let mut env : Entries String := []
  for o in Switch.jurisdiction :: Switch.common do
    if let some name := o.substitute then
      if let some text ← IO.getEnv name then env := env.put name text
  return env

def now : IO Nat := do
  return (← Std.Time.Timestamp.now).toSecondsSinceUnixEpoch.val.toNat

/-- Prints a report; notices and failures apart from the output. -/
def print (r : Report) : IO Unit := do
  IO.print r.output
  for notice in r.notices do IO.eprintln s!"notice: {notice}"
  if let some failure := r.failure then IO.eprintln s!"Error: {failure}"

end FrameScope.Disk

open FrameScope

def main (words : List String) : IO UInt32 := do
  let env ← Disk.environment
  let before ← match Invocation.ofWords env words with
    | .ok i => Disk.read i.files
    | .error _ => pure Files.empty
  let (after, report) := Report.ofWords env words (← Disk.now) before
  Disk.write before after
  Disk.print report
  return report.code.toUInt32
