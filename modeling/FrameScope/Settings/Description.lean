import FrameScope.Settings.Handle
import FrameScope.Text.Quoted

/-!
# What a programmer sees of settings

Types and fields by name, texts between quotes, numbers with a point or an exponent.
-/

namespace FrameScope

/-- A name with its first letter as a capital. -/
def capitalized (s : String) : String :=
  match s.toList with
  | c :: rest => String.ofList (c.toUpper :: rest)
  | [] => ""

def commaSeparated (items : List String) : String := ", ".intercalate items

mutual

def Json.describe : Json → String
  | .null => "Null"
  | .bool b => s!"Bool({b})"
  | .num n => s!"Number({n.text})"
  | .str s => s!"String({Text.describe s})"
  | .arr items => s!"Array [{commaSeparated (describeItems items)}]"
  | .obj fields => s!"Object \x7b{commaSeparated (describeFields fields)}\x7d"

def Json.describeItems : List Json → List String
  | [] => []
  | v :: rest => Json.describe v :: describeItems rest

def Json.describeFields : List (String × Json) → List String
  | [] => []
  | (k, v) :: rest => s!"{Text.describe k}: {Json.describe v}" :: describeFields rest

end

/-- A set of names. -/
def describeNames (names : List String) : String :=
  s!"\x7b{commaSeparated (names.map capitalized)}\x7d"

def LogFilter.describe (f : LogFilter) : String :=
  let levels := describeNames (f.activeLevels.map Level.name)
  let categories := describeNames (f.activeCategories.map Category.name)
  s!"LogFilter \x7b active_levels: {levels}, active_categories: {categories}, "
    ++ s!"search_text: {Text.describe f.search}, entity_id: {Text.describe? f.entity} \x7d"

def Settings.describe (s : Settings) : String :=
  s!"DashboardSettings \x7b theme: {capitalized s.theme.name}, "
    ++ s!"ui_scale: {FloatStyle.descriptive.text s.uiScale}, follow_live: {s.followLive}, "
    ++ s!"log_filter: {s.logFilter.describe}, "
    ++ s!"extra: \x7b{commaSeparated (Json.describeFields s.extra)}\x7d \x7d"

def SettingsHandle.describe (h : SettingsHandle) : String :=
  s!"SettingsHandle \x7b key: {Text.describe h.key}, current: {h.current.describe} \x7d"

end FrameScope
