import FrameScope.Command.Line
import FrameScope.Frame.Basic
import FrameScope.Insurance.Jurisdiction
import FrameScope.Json.Printer
import FrameScope.Settings.Store

/-!
# Answers of the command line

An answer is told as text, its notices apart, or written as a JSON object of the data, what is said
about it and the notices as warnings.

* `Answer`: what a command found;
* `CommandError`: why a command failed;
* `Report`: what is printed, and the exit code.
-/

namespace FrameScope

/-- What a command found. -/
inductive Answer where
  /-- Something, as data and as text. -/
  | found (data : Json) (text : String) (about : Option (Entries Json)) (notices : List String)
  /-- Nothing, and how to say so. -/
  | nothing (message : String) (about : Option (Entries Json))

namespace Answer

/-- Data as text: a string as it is, anything else on several lines. -/
def textOf : Json → String
  | .str s => s
  | v => v.pretty

/-- Data that is told as it is. -/
def ofData (data : Json) : Answer := .found data (textOf data) none []

/-- The object around data; what is empty is left out. -/
def envelope (style : AnswerStyle) (data : Json) (about : Option (Entries Json))
    (warnings : List String) : Json :=
  let aboutField := match about with
    | some fields => if style.bare then [] else [("meta", Json.obj fields)]
    | none => []
  let warningField :=
    if warnings = [] then [] else [("warnings", Json.arr (warnings.map Json.str))]
  .obj ([("data", data)] ++ aboutField ++ warningField)

/-- The object around data as text. -/
def written (style : AnswerStyle) (data : Json) (about : Option (Entries Json))
    (warnings : List String) : String :=
  let v := envelope style data about warnings
  if style.indented then v.pretty else v.compact

/-- What is printed and what is noted beside it. Quiet suppresses notices, but a message that
nothing was found is no notice. -/
def print (style : AnswerStyle) : Answer → String × List String
  | .found data text about notices =>
    let notices := if style.quiet then [] else notices
    if style.json then (written style data about notices, []) else (text, notices)
  | .nothing message about =>
    if style.json then (written style .null about [message], []) else (message, [])

end Answer

inductive CommandError where
  | document (file : String)
  | store (dir : String)
  /-- A frame that the store refused. -/
  | append (height : Height)
  | settingsDirectory (dir : String)
  | settings (cause : SettingsError)
  /-- A field that does not take its value. -/
  | setting (field : String)
  | snapshot (cause : SnapshotError)
  | insurance (message : String)
  deriving DecidableEq, Repr

/-- The wording of a failure with settings, without what the system has to say. -/
def SettingsError.summary : SettingsError → String
  | .file => "I/O error"
  | .document _ => "json error"
  | .invalidKey key => s!"invalid settings key '{key}'"

def CommandError.message : CommandError → String
  | .document file => s!"read frames from {file}"
  | .store dir => s!"open frame store at {dir}"
  | .append height => s!"append frame at height {height}"
  | .settingsDirectory dir => s!"open settings at {dir}"
  | .settings cause => cause.summary
  | .setting field => s!"set '{field}'"
  | .snapshot cause => cause.message
  | .insurance message => message

/-- What a run of the program prints, and its exit code. -/
structure Report where
  code : Nat := 0
  output : String := ""
  notices : List String := []
  failure : Option String := none
  deriving DecidableEq, Repr, Inhabited

namespace Report

/-- The report of an answer or a failure. -/
def ofAnswer (style : AnswerStyle) : Except CommandError Answer → Report
  | .ok answer =>
    let (text, notices) := answer.print style
    { output := text ++ "\n", notices := notices }
  | .error e => { code := 1, failure := some e.message }

end Report

end FrameScope
