import FrameScope.Log.Tally
import FrameScope.Proofs.Log.Selection
import Mathlib.Algebra.Ring.Nat
import Mathlib.Data.List.Basic

/-!
# Counts and what a filter shows

A log is counted in one pass over its entries, and what an entry adds to a count it adds wherever it
stands (`Tally.read_foldl`). So the counts of two logs are added when the logs are joined
(`Tally.of_append`), and a filter that asks for some levels alone, or for some categories, shows as
many entries as the counts of these make together (`Tally.counts`): every entry has one level and one
category. Both passes over a log agree (`Tally.agrees_with_filter`).
-/

namespace FrameScope

namespace Tally

/-! ### Counting -/

theorem levels_count (t : Tally) (e : LogEntry) (l : Level) :
    (t.count e).levels l = t.levels l + if decide (e.level = l) = true then 1 else 0 := by
  rw [count]
  by_cases h : e.level = l <;> simp [h]

theorem categories_count (t : Tally) (e : LogEntry) (c : Category) :
    (t.count e).categories c = t.categories c + if decide (e.category = c) = true then 1 else 0 := by
  rw [count]
  by_cases h : e.category = c <;> simp [h]

theorem read_foldl {read : Tally → Nat} {p : LogEntry → Bool}
    (hstep : ∀ t e, read (t.count e) = read t + if p e = true then 1 else 0) (t : Tally)
    (entries : List LogEntry) : read (entries.foldl count t) = read t + entries.countP p := by
  induction entries generalizing t with
  | nil => rfl
  | cons e entries ih =>
    rw [List.foldl_cons, ih, hstep, List.countP_cons]
    omega

theorem levels_of (entries : List LogEntry) (l : Level) :
    (of entries).levels l = entries.countP fun e => decide (e.level = l) := by
  rw [of, @read_foldl (fun t => t.levels l) _ (fun t e => levels_count t e l) empty entries]
  exact Nat.zero_add _

theorem categories_of (entries : List LogEntry) (c : Category) :
    (of entries).categories c = entries.countP fun e => decide (e.category = c) := by
  rw [of, @read_foldl (fun t => t.categories c) _ (fun t e => categories_count t e c) empty entries]
  exact Nat.zero_add _

/-- Two counts together. -/
instance : Add Tally where
  add s t := ⟨fun l => s.levels l + t.levels l, fun c => s.categories c + t.categories c⟩

/-- **Joined logs have the counts of both together.** -/
theorem of_append (entries more : List LogEntry) : of (entries ++ more) = of entries + of more := by
  have hlevels (l : Level) :
      (of (entries ++ more)).levels l = (of entries).levels l + (of more).levels l := by
    simp only [levels_of, List.countP_append]
  have hcategories (c : Category) :
      (of (entries ++ more)).categories c = (of entries).categories c + (of more).categories c := by
    simp only [categories_of, List.countP_append]
  show Tally.mk (of (entries ++ more)).levels (of (entries ++ more)).categories = _
  rw [funext hlevels, funext hcategories]
  rfl

/-! ### Kinds of entries -/

theorem countP_eq_add {p q r : LogEntry → Bool} (hr : ∀ e, r e = true ↔ p e = true ∨ q e = true)
    (hpq : ∀ e, p e = true → q e = true → False) (entries : List LogEntry) :
    entries.countP r = entries.countP p + entries.countP q := by
  induction entries with
  | nil => rfl
  | cons e entries ih =>
    have hone : (if r e = true then 1 else 0) =
        (if p e = true then 1 else 0) + if q e = true then 1 else 0 := by
      by_cases hp : p e = true
      · rw [if_pos ((hr e).mpr (.inl hp)), if_pos hp, if_neg (hpq e hp)]
      · rw [if_neg hp, Nat.zero_add]
        simp only [hr e, hp, Bool.false_eq_true, false_or]
    rw [List.countP_cons, List.countP_cons, List.countP_cons, ih, hone]
    omega

section Kinds

variable {κ : Type} [DecidableEq κ] (kind : LogEntry → κ) {kinds : List κ}

theorem sum_countP (hkinds : kinds.Nodup) (entries : List LogEntry) :
    (kinds.map fun k => entries.countP fun e => decide (kind e = k)).sum =
      entries.countP fun e => decide (kind e ∈ kinds) := by
  induction kinds with
  | nil => simp
  | cons k kinds ih =>
    obtain ⟨hk, hkinds⟩ := List.nodup_cons.mp hkinds
    rw [List.map_cons, List.sum_cons, ih hkinds]
    symm
    refine countP_eq_add (fun e => ?_) (fun e hone hrest => ?_) entries
    · simp only [decide_eq_true_iff, List.mem_cons]
    · exact hk (of_decide_eq_true hone ▸ of_decide_eq_true hrest)

/-- Kinds with one of them switched. -/
def switched (active : κ → Bool) (k : κ) : κ → Bool := fun j => if j = k then !active j else active j

theorem countP_of_active {active : κ → Bool} {k : κ} (hk : active k = true)
    (entries : List LogEntry) : (entries.countP fun e => active (kind e)) =
      (entries.countP fun e => switched active k (kind e)) +
        entries.countP fun e => decide (kind e = k) := by
  refine countP_eq_add (fun e => ?_) (fun e hswitched hkind => ?_) entries
  · rw [switched, decide_eq_true_iff]
    by_cases h : kind e = k <;> simp [h, hk]
  · rw [switched, if_pos (of_decide_eq_true hkind), of_decide_eq_true hkind, hk] at hswitched
    exact Bool.noConfusion hswitched

theorem switched_switched (active : κ → Bool) (k : κ) :
    switched (switched active k) k = active := by
  funext j
  by_cases h : j = k <;> simp [switched, h]

/-- Counts of entries by kind agree with the filters that ask for kinds alone: they are all entries
together, those of some kinds are what a filter that asks for these shows, and switching one kind
shows or hides as many entries as it has. -/
structure Counts (entries : List LogEntry) (kinds : List κ) (tally : κ → Nat)
    (choose : (κ → Bool) → LogFilter) (toggle : LogFilter → κ → LogFilter) : Prop where
  total : (kinds.map tally).sum = entries.length
  shown : ∀ active, ((choose active).apply entries).shown.length =
    ((kinds.filter active).map tally).sum
  toggled : ∀ active k,
    if active k = true then
      ((choose active).apply entries).shown.length =
        ((toggle (choose active) k).apply entries).shown.length + tally k
    else
      ((toggle (choose active) k).apply entries).shown.length =
        ((choose active).apply entries).shown.length + tally k

theorem counts {choose : (κ → Bool) → LogFilter} {toggle : LogFilter → κ → LogFilter}
    {tally : κ → Nat} (hnodup : kinds.Nodup) (hall : ∀ k, k ∈ kinds)
    (htally : ∀ k, tally k = entries.countP fun e => decide (kind e = k))
    (hshows : ∀ active e, (choose active).shows e = active (kind e))
    (htoggle : ∀ active k, toggle (choose active) k = choose (switched active k)) :
    Counts entries kinds tally choose toggle := by
  have hlength (active : κ → Bool) : ((choose active).apply entries).shown.length =
      entries.countP fun e => active (kind e) := by
    rw [LogFilter.apply, ← List.countP_eq_length_filter]
    exact List.countP_congr fun e _ => by rw [hshows]
  have hsum (active : κ → Bool) : ((kinds.filter active).map tally).sum =
      entries.countP fun e => active (kind e) := by
    rw [funext htally, sum_countP kind (hnodup.filter active)]
    refine List.countP_congr fun e _ => ?_
    rw [decide_eq_true_iff, List.mem_filter]
    exact and_iff_right (hall (kind e))
  refine ⟨?total, fun active => (hlength active).trans (hsum active).symm, fun active k => ?toggled⟩
  case total =>
    have h := hsum fun _ => true
    rwa [List.filter_true, List.countP_true] at h
  case toggled =>
    rw [htoggle, hlength, hlength, htally]
    split
    next hk => exact countP_of_active kind hk entries
    next hk =>
      have hswitched : switched active k k = true := by simpa [switched] using hk
      have h := countP_of_active kind hswitched entries
      rwa [switched_switched] at h

end Kinds

theorem shows_kinds (levels : Level → Bool) (categories : Category → Bool) (e : LogEntry) :
    LogFilter.shows { levels, categories } e = (levels e.level && categories e.category) := by
  have hadmits : LogFilter.admits { levels, categories } e.entity = true := rfl
  rw [LogFilter.shows, LogFilter.finds_of_search_eq_empty rfl, hadmits, Bool.and_true, Bool.and_true]

/-- **Counts agree with the filter**, for levels and for categories alike, and joined logs have the
counts of both together. -/
theorem agrees_with_filter (entries more : List LogEntry) :
    Counts entries Level.all (of entries).levels
        (fun active => { LogFilter.all with levels := active }) LogFilter.toggleLevel ∧
      Counts entries Category.all (of entries).categories
        (fun active => { LogFilter.all with categories := active }) LogFilter.toggleCategory ∧
      of (entries ++ more) = of entries + of more := by
  refine ⟨?levels, ?categories, of_append entries more⟩
  case levels =>
    refine counts LogEntry.level (by decide) Level.mem_all (levels_of entries) (fun active e => ?_)
      fun _ _ => rfl
    exact (shows_kinds active (fun _ => true) e).trans (Bool.and_true _)
  case categories =>
    exact counts LogEntry.category (by decide) Category.mem_all (categories_of entries)
      (fun active e => shows_kinds (fun _ => true) active e) fun _ _ => rfl

end Tally

end FrameScope
