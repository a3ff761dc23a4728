import FrameScope.Files
import FrameScope.Insurance.Line
import FrameScope.Json.Parser

/-!
# Where insurance lines come from

* `fixedLines`: lines held in memory;
* `Snapshot`: a jurisdiction's file, `Snapshot.lines` the lines it has for an entity;
* `Jurisdiction.ofFile`: a jurisdiction with a file behind it, which is read anew for every request.
-/

namespace FrameScope

abbrev LinesByEntity := Entries (List InsuranceLine)

/-- The lines of an entity; an unknown one has none. -/
def fixedLines (held : LinesByEntity) (entity : String) : List InsuranceLine :=
  (held.get? entity).getD []

/-- What a jurisdiction's file says. -/
structure Snapshot where
  name : Option String := none
  /-- The lines, none when the jurisdiction has no insurance at all. -/
  insurance : Option LinesByEntity := none
  deriving Inhabited

namespace Snapshot

/-- Reads a snapshot. -/
def read : Decoder Snapshot := Read.record
  [ .may "name" (Read.option Read.text) fun x s => { s with name := x },
    .may "insurance" (Read.option (Read.entries (Read.list Coded.read)))
      fun x s => { s with insurance := x } ] {}

/-- The snapshot of a file's content. -/
def ofBytes (bytes : Cbor.Bytes) : Except DecodeError Snapshot :=
  (Document.ofChars (Text.ofBytes bytes)).decode read

def lines (s : Snapshot) (entity : String) : List InsuranceLine :=
  fixedLines (s.insurance.getD []) entity

end Snapshot

inductive SnapshotError where
  | unread (file : String)
  | undecoded (file : String)
  deriving DecidableEq, Repr

def SnapshotError.message : SnapshotError → String
  | .unread file => s!"read jurisdiction file {file}"
  | .undecoded file => s!"decode jurisdiction file {file}"

/-- The name of a file without its last extension; a dot in front starts no extension. -/
def fileStem (file : String) : String :=
  let cs := file.toList
  match cs.reverse.dropWhile (· ≠ '.') with
  | _ :: c :: rest => if file = ".." then file else String.ofList (c :: rest).reverse
  | _ => file

/-- The snapshot of a file, known to people as `shown`. -/
def readSnapshot (fs : Files) (path : Path) (shown : String) : Except SnapshotError Snapshot :=
  match fs.read path with
  | .error _ => .error (.unread shown)
  | .ok bytes => (Snapshot.ofBytes bytes).mapError fun _ => .undecoded shown

/-- Where the answers to requests come from. -/
inductive InsuranceSource where
  | fixed (held : LinesByEntity)
  /-- A file, and the path that people know it by. -/
  | file (path : Path) (shown : String)
  /-- Somewhere that answers in its own time. -/
  | remote

namespace InsuranceSource

/-- The answer to a request, where the source has it at once. -/
def answer? (fs : Files) (entity : String) : InsuranceSource → Option InsuranceAnswer
  | .fixed held => some (.ok (fixedLines held entity))
  | .file path shown =>
    some (match readSnapshot fs path shown with
      | .ok s => .ok (s.lines entity)
      | .error e => .error (.source [e.message]))
  | .remote => none

end InsuranceSource

/-- A jurisdiction; without a source it has no insurance. -/
structure Jurisdiction where
  name : String
  source : Option InsuranceSource

namespace Jurisdiction

def ofFile (fs : Files) (path : Path) (shown : String) : Except SnapshotError Jurisdiction := do
  let s ← readSnapshot fs path shown
  let stem := match path.getLast? with
    | some file => fileStem file
    | none => "jurisdiction"
  .ok ⟨s.name.getD stem, s.insurance.map fun _ => .file path shown⟩

end Jurisdiction

end FrameScope
