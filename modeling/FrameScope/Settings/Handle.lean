import FrameScope.Panel.Event
import FrameScope.Settings.Store

/-!
# Settings in use

A handle holds the settings of one document, writes the document back on every change and announces
the change to the other panels.

* `SettingsHandle.load`: the settings of a stored document;
* `SettingsHandle.set`, `SettingsHandle.update`: a change;
* `SettingsHandle.reset`: back to the defaults.
-/

namespace FrameScope

/-- The settings in use and the key of their document. -/
structure SettingsHandle where
  key : String
  current : Settings
  deriving Inhabited

def dashboardKey : String := "xln.dashboard.settings"

/-- What an operation on a handle leaves behind. -/
structure SettingsStep (σ : Type) where
  store : σ
  handle : SettingsHandle
  /-- What was announced, in order. -/
  events : List PanelEvent
  result : Except SettingsError Unit

namespace SettingsHandle

variable {σ : Type} (S : SettingsStore σ)

/-- Takes up the document under a key; without one, the defaults. -/
def load (store : σ) (key : String) : Except SettingsError SettingsHandle := do
  match ← S.load store key with
  | none => .ok ⟨key, .default⟩
  | some v =>
    match Settings.recover v with
    | .ok s => .ok ⟨key, s⟩
    | .error e => .error (.document e)

/-- Announces a field and its value from now on. -/
def announce (key : String) (value : Json) : PanelEvent := .settingsChanged ⟨key, value⟩

/-- The announcements of a change: new and changed fields in the new order, then the fields that
are gone, in the old order. -/
def announcements (before after : Entries Json) : List PanelEvent :=
  let changed := after.filter fun (k, v) =>
    match before.get? k with
    | some w => !Json.same w v
    | none => true
  let gone := before.filter fun (k, _) => !after.has k
  changed.map (fun (k, v) => announce k v) ++ gone.map fun (k, _) => announce k .null

/-- Nothing happens but a failure. -/
def refuse (store : σ) (h : SettingsHandle) (cause : SettingsError) : SettingsStep σ :=
  ⟨store, h, [], .error cause⟩

/-- Saves other settings; once they are saved they are in use and announced. -/
def replace (store : σ) (h : SettingsHandle) (next : Settings) : SettingsStep σ :=
  match S.save store h.key (.obj next.object) with
  | (store, .error e) => refuse store h e
  | (store, .ok ()) =>
    ⟨store, { h with current := next }, announcements h.current.object next.object, .ok ()⟩

/-- Sets a field by its name in the document, as long as the document still decodes. -/
def set (store : σ) (h : SettingsHandle) (field : String) (value : Json) : SettingsStep σ :=
  match Settings.ofObject (h.current.object.put field value) with
  | .error e => refuse store h (.document e)
  | .ok next => replace S store h next

def update (store : σ) (h : SettingsHandle) (edit : Settings → Settings) : SettingsStep σ :=
  replace S store h (edit h.current)

/-- Back to the defaults, without any other fields; the document goes. -/
def reset (store : σ) (h : SettingsHandle) : SettingsStep σ :=
  let h := { h with current := Settings.default }
  match S.remove store h.key with
  | (store, .error e) => refuse store h e
  | (store, .ok ()) => ⟨store, h, [.settingsReset], .ok ()⟩

end SettingsHandle

end FrameScope
