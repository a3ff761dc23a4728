import FrameScope.Log.Filter

/-!
# What a filter selects

A filter keeps the entries that it shows, each at its own place and in the order of the log
(`LogFilter.selects_filter`). A filter that asks for more selects from what the other one selected
(`LogFilter.Narrows`). Edits of a filter come to the parity of its toggles and to what was set last,
in whatever order they are made (`LogFilter.edits_eq`).
-/

namespace FrameScope

namespace LogFilter

variable {f g : LogFilter} {e : LogEntry}

/-! ### Places -/

/-- What is shown are the entries of a log that have a property: those at certain places, taken in
order, and these places are all where an entry with the property stands. -/
def Selects (p : LogEntry → Bool) (entries shown : List LogEntry) : Prop :=
  ∃ places : List Nat, places.Pairwise (· < ·) ∧
    shown.map some = places.map (fun i => entries[i]?) ∧
      ∀ i, i ∈ places ↔ ∃ e, entries[i]? = some e ∧ p e = true

theorem map_getElem?_range (entries : List LogEntry) :
    (List.range entries.length).map (fun i => entries[i]?) = entries.map some := by
  refine List.ext_getElem (by simp) fun i _ hi => ?_
  rw [List.length_map] at hi
  simp [hi]

theorem selects_filter (p : LogEntry → Bool) (entries : List LogEntry) :
    Selects p entries (entries.filter p) := by
  refine ⟨(List.range entries.length).filter fun i => entries[i]?.any p,
    List.pairwise_lt_range.filter _, ?_, fun i => ?_⟩
  · have hkept := List.filter_map (p := Option.any p) (f := some) (l := entries)
    have hplaces := List.filter_map (p := Option.any p) (f := fun i => entries[i]?)
      (l := List.range entries.length)
    rw [map_getElem?_range] at hplaces
    exact hkept.symm.trans hplaces
  · rw [List.mem_filter, List.mem_range, Option.any_eq_true]
    refine ⟨fun h => h.2, fun h => ⟨?_, h⟩⟩
    obtain ⟨e, he, -⟩ := h
    exact (List.getElem?_eq_some_iff.mp he).1

/-! ### Filters that ask for more -/

/-- A filter with fewer levels and categories, and with an entity where there may be none. -/
structure Narrows (g f : LogFilter) : Prop where
  levels : ∀ l, g.levels l = true → f.levels l = true
  categories : ∀ c, g.categories c = true → f.categories c = true
  search : g.search = f.search
  entity : g.entity = f.entity ∨ f.entity = none

theorem Narrows.admits (h : g.Narrows f) {entity : Option String} (hg : g.admits entity = true) :
    f.admits entity = true := by
  rcases h.entity with heq | hnone
  · rwa [LogFilter.admits, ← heq]
  · rw [LogFilter.admits, hnone]

theorem Narrows.shows (h : g.Narrows f) (hg : g.shows e = true) : f.shows e = true := by
  simp only [LogFilter.shows, Bool.and_eq_true] at hg ⊢
  obtain ⟨⟨⟨hlevel, hcategory⟩, hfinds⟩, hentity⟩ := hg
  refine ⟨⟨⟨h.levels _ hlevel, h.categories _ hcategory⟩, ?_⟩, h.admits hentity⟩
  rwa [finds, ← h.search]

theorem Narrows.filter_filter (h : g.Narrows f) (entries : List LogEntry) :
    (entries.filter f.shows).filter g.shows = entries.filter g.shows := by
  rw [List.filter_filter]
  refine List.filter_congr fun e _ => ?_
  rw [Bool.and_eq_left_iff_imp]
  exact h.shows

theorem Narrows.sublist (h : g.Narrows f) (entries : List LogEntry) :
    (entries.filter g.shows).Sublist (entries.filter f.shows) := by
  rw [← h.filter_filter]
  exact List.filter_sublist

/-! ### Edits -/

/-- A change of a filter. -/
inductive Edit where
  | toggleLevel (l : Level)
  | toggleCategory (c : Category)
  | setSearch (text : String)
  | setEntity (entity : Option String)
  deriving DecidableEq

def edit (f : LogFilter) : Edit → LogFilter
  | .toggleLevel l => f.toggleLevel l
  | .toggleCategory c => f.toggleCategory c
  | .setSearch text => f.setSearch text
  | .setEntity entity => f.setEntity entity

def edits (f : LogFilter) (es : List Edit) : LogFilter := es.foldl edit f

def Edit.search? : Edit → Option String
  | .setSearch text => some text
  | _ => none

def Edit.entity? : Edit → Option (Option String)
  | .setEntity entity => some entity
  | _ => none

/-- Whether an edit is made an odd number of times. -/
def flips (es : List Edit) (e : Edit) : Bool := decide (es.count e % 2 = 1)

/-- The search text that is set last. -/
def lastSearch? (es : List Edit) : Option String := (es.filterMap Edit.search?).getLast?

/-- The choice of an entity that is made last. -/
def lastEntity? (es : List Edit) : Option (Option String) := (es.filterMap Edit.entity?).getLast?

/-- A filter after all that edits come to. -/
def edited (f : LogFilter) (es : List Edit) : LogFilter where
  levels l := f.levels l ^^ flips es (.toggleLevel l)
  categories c := f.categories c ^^ flips es (.toggleCategory c)
  search := (lastSearch? es).getD f.search
  entity := (lastEntity? es).getD f.entity

theorem flips_cons (es : List Edit) (e mark : Edit) :
    flips (e :: es) mark = (decide (e = mark) ^^ flips es mark) := by
  rw [flips, flips, List.count_cons]
  by_cases h : e = mark
  · rw [if_pos (beq_iff_eq.mpr h), decide_eq_true h, Bool.true_xor, ← decide_not]
    exact decide_eq_decide.mpr (by omega)
  · rw [if_neg (mt beq_iff_eq.mp h), decide_eq_false h, Bool.false_xor, Nat.add_zero]

theorem read_edits_of_flips {read : LogFilter → Bool} {mark : Edit}
    (hstep : ∀ f e, read (f.edit e) = (read f ^^ decide (e = mark))) (f : LogFilter)
    (es : List Edit) : read (f.edits es) = (read f ^^ flips es mark) := by
  induction es generalizing f with
  | nil => exact (Bool.xor_false _).symm
  | cons e es ih =>
    rw [flips_cons, ← Bool.xor_assoc, ← hstep]
    exact ih (f.edit e)

theorem read_edits_of_sets {β : Type} {read : LogFilter → β} {set? : Edit → Option β}
    (hstep : ∀ f e, read (f.edit e) = (set? e).getD (read f)) (f : LogFilter) (es : List Edit) :
    read (f.edits es) = (es.filterMap set?).getLast?.getD (read f) := by
  induction es generalizing f with
  | nil => rfl
  | cons e es ih =>
    refine (ih (f.edit e)).trans ?_
    rw [hstep]
    cases hset : set? e with
    | none => rw [List.filterMap_cons_none hset, Option.getD_none]
    | some x =>
      rw [List.filterMap_cons_some hset, List.getLast?_cons, Option.getD_some, Option.getD_some]

theorem levels_edit (f : LogFilter) (e : Edit) (l : Level) :
    (f.edit e).levels l = (f.levels l ^^ decide (e = .toggleLevel l)) := by
  cases e with
  | toggleLevel k => by_cases h : l = k <;> simp [edit, toggleLevel, h, eq_comm (a := k)]
  | _ => simp [edit, toggleCategory, setSearch, setEntity]

theorem categories_edit (f : LogFilter) (e : Edit) (c : Category) :
    (f.edit e).categories c = (f.categories c ^^ decide (e = .toggleCategory c)) := by
  cases e with
  | toggleCategory k => by_cases h : c = k <;> simp [edit, toggleCategory, h, eq_comm (a := k)]
  | _ => simp [edit, toggleLevel, setSearch, setEntity]

/-- **Edits come to the parity of the toggles and to what was set last.** -/
theorem edits_eq (f : LogFilter) (es : List Edit) : f.edits es = f.edited es := by
  have hlevel (l : Level) : (f.edits es).levels l = (f.levels l ^^ flips es (.toggleLevel l)) :=
    @read_edits_of_flips (fun f => f.levels l) (.toggleLevel l) (fun f e => levels_edit f e l) f es
  have hcategory (c : Category) :
      (f.edits es).categories c = (f.categories c ^^ flips es (.toggleCategory c)) :=
    @read_edits_of_flips (fun f => f.categories c) (.toggleCategory c)
      (fun f e => categories_edit f e c) f es
  have hsearch : (f.edits es).search = (lastSearch? es).getD f.search :=
    read_edits_of_sets (fun f e => by cases e <;> rfl) f es
  have hentity : (f.edits es).entity = (lastEntity? es).getD f.entity :=
    read_edits_of_sets (fun f e => by cases e <;> rfl) f es
  show LogFilter.mk (f.edits es).levels (f.edits es).categories (f.edits es).search
    (f.edits es).entity = _
  rw [funext hlevel, funext hcategory, hsearch, hentity]
  rfl

/-- Edits that come to the same. -/
structure SameEdits (es es' : List Edit) : Prop where
  levels : ∀ l, flips es (.toggleLevel l) = flips es' (.toggleLevel l)
  categories : ∀ c, flips es (.toggleCategory c) = flips es' (.toggleCategory c)
  search : lastSearch? es = lastSearch? es'
  entity : lastEntity? es = lastEntity? es'

theorem SameEdits.edited_eq {es es' : List Edit} (h : SameEdits es es') (f : LogFilter) :
    f.edited es = f.edited es' := by
  simp only [edited, h.levels, h.categories, h.search, h.entity]

theorem finds_of_search_eq_empty (h : f.search = "") (message : String) :
    f.finds message = true := by
  rw [finds, h]
  show Text.occursIn [] _ = true
  cases Text.lower message.toList <;> rfl

theorem shows_all (e : LogEntry) : all.shows e = true := by
  rw [shows, finds_of_search_eq_empty rfl]
  rfl

/-- **Filtering selects entries in order, and more of them for a wider filter.** What edits leave to
be seen depends on how often each level and category was toggled, even or odd, and on the search
text and the entity set last. -/
theorem apply_selects (f : LogFilter) (entries : List LogEntry) :
    (Selects f.shows entries (f.apply entries).shown ∧ (f.apply entries).total = entries.length ∧
      (f.apply entries).hidden + (f.apply entries).shown.length = (f.apply entries).total) ∧
    (∀ g : LogFilter, g.Narrows f → (g.apply entries).shown.Sublist (f.apply entries).shown ∧
      (g.apply (f.apply entries).shown).shown = (g.apply entries).shown) ∧
    (∀ es, f.edits es = f.edited es) ∧
    (∀ es es', SameEdits es es' →
      ((f.edits es).apply entries).shown = ((f.edits es').apply entries).shown) ∧
    (all.apply entries).shown = entries := by
  refine ⟨⟨selects_filter _ _, rfl, Nat.sub_add_cancel (List.length_filter_le _ _)⟩,
    fun g h => ⟨h.sublist entries, h.filter_filter entries⟩, edits_eq f, fun es es' h => ?_,
    List.filter_eq_self.mpr fun e _ => shows_all e⟩
  rw [edits_eq, edits_eq, h.edited_eq]

/-- One payment twice, with another entry between. -/
def paymentLog : List LogEntry :=
  [⟨.info, .account, "paid", some "E1", none⟩, ⟨.debug, .ui, "drawn", none, none⟩,
    ⟨.info, .account, "paid", some "E1", none⟩, ⟨.error, .network, "lost", some "E2", none⟩]

/-- The information about one entity. -/
def entityFilter : LogFilter where
  levels l := l = .info
  categories _ := true
  entity := some "E1"

/-- A level switched on and off again around other edits. -/
def undoneEdits : List Edit :=
  [.toggleLevel .debug, .setSearch "x", .toggleCategory .ui, .toggleLevel .debug, .setSearch "PAID"]

theorem apply_selects_paymentLog :
    entityFilter.Narrows default ∧
      SameEdits undoneEdits [.setSearch "PAID", .toggleCategory .ui] ∧
        (entityFilter.apply paymentLog).shown.length = 2 ∧
          (entityFilter.apply (default.apply paymentLog).shown).shown =
            (entityFilter.apply paymentLog).shown ∧
            ((default.edits undoneEdits).apply paymentLog).shown =
              ((default.edits [.setSearch "PAID", .toggleCategory .ui]).apply
                paymentLog).shown := by
  have hnarrows : entityFilter.Narrows default := by
    refine ⟨fun l => ?_, fun _ _ => rfl, rfl, .inr rfl⟩
    cases l <;> decide
  have hsame : SameEdits undoneEdits [.setSearch "PAID", .toggleCategory .ui] := by
    refine ⟨fun l => ?_, fun c => ?_, rfl, rfl⟩
    · cases l <;> decide
    · cases c <;> decide
  obtain ⟨-, hnarrow, -, hedits, -⟩ := apply_selects default paymentLog
  exact ⟨hnarrows, hsame, by decide +kernel, (hnarrow entityFilter hnarrows).2, hedits _ _ hsame⟩

end LogFilter

end FrameScope
