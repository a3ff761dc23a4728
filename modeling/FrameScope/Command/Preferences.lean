import FrameScope.Command.Answer
import FrameScope.Settings.FileStore
import FrameScope.Settings.Handle

/-!
# Commands on settings

* `Invocation.settingOf`: the value that a word spells;
* `Invocation.changeSettings`: shows, sets or resets the settings.
-/

namespace FrameScope.Invocation

/-- A number with a point or an exponent in the spelling of documents; any other as it is. -/
def respelled (n : Number) : Number :=
  if n.isInteger then n else (Number.ofBinary64? n.toBinary64).getD n

/-- The value that a word spells: its JSON value, or else the word itself. -/
def settingOf (text : String) : Json :=
  match (Document.ofChars text.toList).decode Read.json with
  | .ok (.num n) => .num (respelled n)
  | .ok v => v
  | .error _ => .str text

def changedFields (events : List PanelEvent) : List String :=
  events.filterMap fun e => match e with
    | .settingsChanged change => some change.key
    | _ => none

def getSetting (h : SettingsHandle) : Option String → Answer
  | none => .ofData (.obj h.current.object)
  | some field =>
    match h.current.get? field with
    | some v => .ofData v
    | none => .nothing s!"setting '{field}' is not set" none

def settingChanged (h : SettingsHandle) (field : String) (events : List PanelEvent) : Answer :=
  let changed := changedFields events
  let data := (h.current.get? field).getD .null
  .found data (Answer.textOf data) (some [("changed", .arr (changed.map Json.str))])
    (if changed = [] then ["value unchanged"] else [])

/-- Shows, sets or resets the settings. Their directory is created first. -/
def changeSettings (r : Invocation) (fs : Files) (action : SettingsAction) :
    Files × Except CommandError Answer :=
  let dir := Files.path r.settings
  match SettingsStore.openDirectory fs dir with
  | .error _ => (fs, .error (.settingsDirectory r.settings))
  | .ok fs =>
    let store := SettingsStore.directory dir
    match SettingsHandle.load store fs dashboardKey with
    | .error e => (fs, .error (.settings e))
    | .ok h =>
      match action with
      | .get field => (fs, .ok (getSetting h field))
      | .set field text =>
        let step := SettingsHandle.set store fs h field (settingOf text)
        (step.store, match step.result with
          | .ok () => .ok (settingChanged step.handle field step.events)
          | .error _ => .error (.setting field))
      | .reset =>
        let step := SettingsHandle.reset store fs h
        (step.store, match step.result with
          | .ok () => .ok (.ofData (.str "settings reset to defaults"))
          | .error e => .error (.settings e))

end FrameScope.Invocation
