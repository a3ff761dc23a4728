import FrameScope.Cbor.Writer

/-!
# A tree of files

Files and directories under one root, as a value. A path is its names from the root on.

* `Files.kind?`: what is at a path;
* `Files.read`, `Files.write`, `Files.remove`, `Files.rename`, `Files.createDirs`: what programs do.
-/

namespace FrameScope

abbrev Path := List String

inductive FileKind where
  | file (content : Cbor.Bytes)
  | directory
  deriving DecidableEq

inductive FileError where
  | notFound
  | refused
  deriving DecidableEq, Repr

/-- Files and directories; every entry's parent is a directory. -/
structure Files where
  entries : List (Path × FileKind)

namespace Files

def empty : Files := ⟨[]⟩

/-- The path of a text with slashes; `.` stays and `..` goes up. -/
def path (text : String) : Path :=
  let step := fun (path : Path) part =>
    if part = "" ∨ part = "." then path
    else if part = ".." then path.dropLast
    else path ++ [part]
  let parts := (text.splitOn "/").foldl step []
  if text.startsWith "/" then "/" :: parts else parts

/-- What stands at a path; the root is a directory. -/
def kind? (fs : Files) (p : Path) : Option FileKind :=
  if p = [] then some .directory
  else (fs.entries.find? fun e => e.1 = p).map (·.2)

def isDir (fs : Files) (p : Path) : Bool := fs.kind? p = some .directory

def exists? (fs : Files) (p : Path) : Bool := (fs.kind? p).isSome

/-- The tree with another entry at a path. -/
def set (fs : Files) (p : Path) (kind : FileKind) : Files :=
  ⟨(fs.entries.filter fun e => e.1 ≠ p) ++ [(p, kind)]⟩

/-- Whether a file stands where a directory on the way to a path should. -/
def blocked (fs : Files) (p : Path) : Bool :=
  (List.range p.length).any fun n =>
    match fs.kind? (p.take n) with
    | some (.file _) => true
    | _ => false

def read (fs : Files) (p : Path) : Except FileError Cbor.Bytes :=
  match fs.kind? p with
  | some (.file content) => .ok content
  | some .directory => .error .refused
  | none => .error (if fs.blocked p then .refused else .notFound)

/-- Creates a directory where there is nothing. -/
def createDir (fs : Files) (p : Path) : Except FileError Files :=
  match fs.kind? p with
  | some .directory => .ok fs
  | some (.file _) => .error .refused
  | none => .ok (fs.set p .directory)

/-- Creates a directory and those above it. -/
def createDirs (fs : Files) (p : Path) : Except FileError Files :=
  (List.range (p.length + 1)).foldlM (fun fs n => fs.createDir (p.take n)) fs

/-- Writes a file whole; its directory must be there. -/
def write (fs : Files) (p : Path) (content : Cbor.Bytes) : Except FileError Files :=
  if fs.isDir p then .error .refused
  else if fs.isDir p.dropLast then .ok (fs.set p (.file content))
  else .error (if fs.blocked p then .refused else .notFound)

/-- Adds to the end of a file, which is created when it is not there. -/
def extend (fs : Files) (p : Path) (content : Cbor.Bytes) : Except FileError Files :=
  match fs.kind? p with
  | some (.file old) => .ok (fs.set p (.file (old ++ content)))
  | _ => fs.write p content

def remove (fs : Files) (p : Path) : Except FileError Files :=
  match fs.kind? p with
  | some (.file _) => .ok ⟨fs.entries.filter fun e => e.1 ≠ p⟩
  | some .directory => .error .refused
  | none => .error (if fs.blocked p then .refused else .notFound)

/-- Moves a file over another or to a free place. -/
def rename (fs : Files) (source target : Path) : Except FileError Files := do
  let content ← fs.read source
  if fs.isDir target then .error .refused
  else (⟨fs.entries.filter fun e => e.1 ≠ source⟩ : Files).write target content

/-- The files directly in a directory, by name. -/
def filesIn (fs : Files) (dir : Path) : List (String × Cbor.Bytes) :=
  fs.entries.filterMap fun (p, kind) =>
    match kind, p.getLast? with
    | .file content, some name => if p.dropLast = dir then some (name, content) else none
    | _, _ => none

end Files

end FrameScope
