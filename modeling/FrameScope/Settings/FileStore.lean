import FrameScope.Files
import FrameScope.Settings.Store

/-!
# Settings documents in files

A document stands in a file of its own, named for its key, directly in the store's directory. It is
written to a temporary file first, which then takes the place of the old one.

* `SettingsKey.isValid`: which keys name a file;
* `SettingsStore.directory`: the store.
-/

namespace FrameScope

namespace SettingsKey

/-- A character that may stand in the name of a file. -/
def isPlain (c : Char) : Bool :=
  ('a' ≤ c && c ≤ 'z') || ('A' ≤ c && c ≤ 'Z') || c.isDigit || c == '.' || c == '-' || c == '_'

/-- Whether a key names a file: not empty, no dot in front, plain characters only. -/
def isValid (key : String) : Bool :=
  let cs := key.toList
  cs != [] && cs.head? != some '.' && cs.all isPlain

def file (key : String) : String := key ++ ".json"

/-- The file that a new document is written to first. -/
def draft (key : String) : String := file key ++ ".tmp"

end SettingsKey

namespace SettingsStore

/-- A file operation as a step of a store. -/
def lift (r : Except FileError α) : Except SettingsError α := r.mapError fun _ => .file

/-- The document of a file; a file that is not there holds none. -/
def readDocument (fs : Files) (path : Path) : Except SettingsError (Option Json) :=
  match fs.read path with
  | .ok bytes =>
    match (Document.ofChars (Text.ofBytes bytes)).decode Read.json with
    | .ok v => .ok (some v)
    | .error e => .error (.document e)
  | .error .notFound => .ok none
  | .error .refused => .error .file

/-- Writes a document to the draft and moves the draft over the file. -/
def writeDocument (fs : Files) (dir : Path) (key : String) (v : Json) :
    Files × Except SettingsError Unit :=
  let draft := dir ++ [SettingsKey.draft key]
  match fs.write draft (Text.toBytes v.pretty) with
  | .error _ => (fs, .error .file)
  | .ok fs =>
    match fs.rename draft (dir ++ [SettingsKey.file key]) with
    | .error _ => (fs, .error .file)
    | .ok fs => (fs, .ok ())

/-- Removes a file; one that is not there is no failure. -/
def removeDocument (fs : Files) (path : Path) : Files × Except SettingsError Unit :=
  match fs.remove path with
  | .ok fs => (fs, .ok ())
  | .error .notFound => (fs, .ok ())
  | .error .refused => (fs, .error .file)

/-- The store in a directory. -/
def directory (dir : Path) : SettingsStore Files where
  load fs key :=
    if SettingsKey.isValid key then readDocument fs (dir ++ [SettingsKey.file key])
    else .error (.invalidKey key)
  save fs key v :=
    if SettingsKey.isValid key then writeDocument fs dir key v else (fs, .error (.invalidKey key))
  remove fs key :=
    if SettingsKey.isValid key then removeDocument fs (dir ++ [SettingsKey.file key])
    else (fs, .error (.invalidKey key))

/-- The files with the store's directory. -/
def openDirectory (fs : Files) (dir : Path) : Except SettingsError Files := lift (fs.createDirs dir)

end SettingsStore

end FrameScope
