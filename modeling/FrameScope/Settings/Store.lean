import FrameScope.Json.Parser
import FrameScope.Settings.Basic

/-!
# Stores of settings documents

A store keeps a JSON document under a key. Its operations take a state and return one; an operation
that fails returns a state too, for it may have done part of its work.

* `SettingsStore`: what a store does;
* `SettingsStore.memory`: a store that only remembers.
-/

namespace FrameScope

inductive SettingsError where
  /-- The files do not allow it. -/
  | file
  | document (cause : DecodeError)
  | invalidKey (key : String)
  deriving DecidableEq, Repr

/-- The wording of a failure, where it has one of its own. -/
def SettingsError.message? : SettingsError → Option String
  | .file => none
  | .document cause => cause.message?
  | .invalidKey key => some s!"invalid settings key '{key}'"

/-- A store with states `σ`. -/
structure SettingsStore (σ : Type) where
  load : σ → String → Except SettingsError (Option Json)
  save : σ → String → Json → σ × Except SettingsError Unit
  remove : σ → String → σ × Except SettingsError Unit

/-- A store that remembers its documents and never fails. -/
def SettingsStore.memory : SettingsStore (Entries Json) where
  load documents key := .ok (documents.get? key)
  save documents key value := (documents.put key value, .ok ())
  remove documents key := (documents.erase key, .ok ())

end FrameScope
