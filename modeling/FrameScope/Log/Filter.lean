import FrameScope.Log.Entry
import FrameScope.Text.Lower

/-!
# Filtering a log

An entry is shown when its level and its category are active, its message contains the search text
without regard to case, and it belongs to the chosen entity when there is one. Order is kept and
nothing is merged.

* `LogFilter.shows`: whether an entry is shown;
* `LogFilter.apply`: the entries shown, and how many there were;
* `Outcome.display`: what a log panel has to say about it.
-/

namespace FrameScope

/-- Whether a text occurs in another; the empty text occurs everywhere. -/
def Text.occursIn (needle : List Char) : List Char → Bool
  | [] => needle.isEmpty
  | c :: rest => needle.isPrefixOf (c :: rest) || occursIn needle rest

/-- What a log panel shows. -/
structure LogFilter where
  levels : Level → Bool
  categories : Category → Bool
  search : String := ""
  entity : Option String := none
  deriving Inhabited

namespace LogFilter

/-- Information and above, of every category. -/
def default : LogFilter where
  levels l := l ∈ [Level.info, .warn, .error]
  categories _ := true

def all : LogFilter where
  levels _ := true
  categories _ := true

def toggleLevel (f : LogFilter) (l : Level) : LogFilter :=
  { f with levels := fun k => if k = l then !f.levels k else f.levels k }

def toggleCategory (f : LogFilter) (c : Category) : LogFilter :=
  { f with categories := fun k => if k = c then !f.categories k else f.categories k }

def setSearch (f : LogFilter) (text : String) : LogFilter := { f with search := text }

def setEntity (f : LogFilter) (entity : Option String) : LogFilter := { f with entity := entity }

def activeLevels (f : LogFilter) : List Level := Level.all.filter f.levels

def activeCategories (f : LogFilter) : List Category := Category.all.filter f.categories

/-- Whether a message contains the search text without regard to case. -/
def finds (f : LogFilter) (message : String) : Bool :=
  Text.occursIn (Text.lower f.search.toList) (Text.lower message.toList)

/-- Whether an entity's entries are shown. -/
def admits (f : LogFilter) (entity : Option String) : Bool :=
  match f.entity with
  | none => true
  | some wanted => entity == some wanted

def shows (f : LogFilter) (e : LogEntry) : Bool :=
  f.levels e.level && f.categories e.category && f.finds e.message && f.admits e.entity

/-- What is left of a log. -/
structure Outcome where
  shown : List LogEntry
  total : Nat

/-- The entries shown, in order, and how many there were. -/
def apply (f : LogFilter) (entries : List LogEntry) : Outcome :=
  ⟨entries.filter f.shows, entries.length⟩

/-- What a log panel has to say. -/
inductive Display where
  /-- The log is empty. -/
  | noEntries
  /-- The filter hides all of so many entries. -/
  | noMatches (total : Nat)
  | visible (shown : Nat)
  deriving DecidableEq, Repr

namespace Outcome

/-- How many entries are not shown. -/
def hidden (o : Outcome) : Nat := o.total - o.shown.length

def display (o : Outcome) : Display :=
  if o.total = 0 then .noEntries
  else if o.shown = [] then .noMatches o.total
  else .visible o.shown.length

end Outcome

def Display.message? : Display → Option String
  | .noEntries => some "no log entries in frame"
  | .noMatches _ => some "no log entries match the active filter"
  | .visible _ => none

/-! ## Document -/

def fields : List (Field LogFilter) :=
  [ .must "activeLevels" (Read.list (Coded.read (α := Level)))
      fun ls f => { f with levels := fun l => l ∈ ls },
    .must "activeCategories" (Read.list (Coded.read (α := Category)))
      fun cs f => { f with categories := fun c => c ∈ cs },
    .may "searchText" Read.text fun s f => { f with search := s },
    .may "entityId" (Read.option Read.text) fun e f => { f with entity := e } ]

def write (f : LogFilter) : Node :=
  .map ([(.name "activeLevels", .seq (f.activeLevels.map Coded.write)),
    (.name "activeCategories", .seq (f.activeCategories.map Coded.write)),
    (.name "searchText", .text f.search)] ++ optionalEntry "entityId" f.entity)

instance : Coded LogFilter := ⟨Read.record fields all, write⟩

end LogFilter

end FrameScope
