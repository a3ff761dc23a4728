import FrameScope.Log.Entry

/-!
# Counting a log

How many entries a log has of each level and of each category, whatever a filter hides.
-/

namespace FrameScope

structure Tally where
  levels : Level → Nat
  categories : Category → Nat

namespace Tally

/-- Nothing counted. -/
def empty : Tally := ⟨fun _ => 0, fun _ => 0⟩

/-- One more entry, counted under its level and under its category. -/
def count (t : Tally) (e : LogEntry) : Tally where
  levels l := if e.level = l then t.levels l + 1 else t.levels l
  categories c := if e.category = c then t.categories c + 1 else t.categories c

def of (entries : List LogEntry) : Tally := entries.foldl count empty

/-- The counts that are not zero, each under its name. -/
def nonzero (names : List (String × Nat)) : Node :=
  .map ((names.filter (0 < ·.2)).map fun p => (.name p.1, .int p.2))

def write (t : Tally) : Node :=
  .map [ (.name "by_level", nonzero (Level.all.map fun l => (l.name, t.levels l))),
    (.name "by_category", nonzero (Category.all.map fun c => (c.name, t.categories c))) ]

end Tally

end FrameScope
