import FrameScope.Proofs.Node.Record

/-!
# Records from named entries

Under distinct names the entries of a map are read as a record one by one: all of them are read when
each of them is (`exists_fieldEntries_iff`), whatever stands around it. What one field has to say
about a record (`Owns`) is then what its own entry makes of it, and what was there before when there
is no such entry (`part_of_fieldEntries`).
-/

namespace FrameScope.Read

variable {σ : Type} {α : Type} {β : Type v} {γ : Type} {m : Medium} {fields : List (Field σ)}
  {tree : α → Node} {es : Entries α} {seen seen' : List String} {s t : σ} {f : Field σ}

/-- Fields that have one name each. -/
def Unaliased (fields : List (Field σ)) : Prop := ∀ f ∈ fields, f.aliases = []

theorem Unaliased.answersTo_iff (h : Unaliased fields) (hf : f ∈ fields) {k : String} :
    f.answersTo k = true ↔ f.name = k := by
  simp [Field.answersTo, h f hf]

/-- The entries of a map under names. -/
def namedEntries (tree : α → Node) (es : Entries α) : List (Key × Node) :=
  es.map fun e => (.name e.1, tree e.2)

/-- An entry that does not stop the reading of a record: its field reads it, or it is no field's and
is passed over. -/
def Admits (fields : List (Field σ)) (m : Medium) (k : String) (v : Node) : Prop :=
  match fields.find? (·.answersTo k) with
  | some f => ∃ set, f.read m v = .ok set
  | none => v.skip = .ok ()

theorem admits_of_find? {k : String} {v : Node} (h : fields.find? (·.answersTo k) = some f) :
    Admits fields m k v ↔ ∃ set, f.read m v = .ok set := by
  rw [Admits, h]

theorem admits_of_no_field {k : String} {v : Node} (h : fields.find? (·.answersTo k) = none) :
    Admits fields m k v ↔ v.skip = .ok () := by
  rw [Admits, h]

/-! ### One entry and the others -/

theorem fieldEntries_cons_of_no_field {k : String} {v : Node} {rest : List (Key × Node)}
    {r : List String × σ} (hfind : fields.find? (·.answersTo k) = none) :
    fieldEntries fields m seen s ((.name k, v) :: rest) = .ok r ↔
      v.skip = .ok () ∧ fieldEntries fields m seen s rest = .ok r := by
  rw [fieldEntries]
  simp only [fieldOf?, hfind, bind, Except.bind]
  cases v.skip with
  | error e => simp
  | ok u => simp

theorem fieldEntries_cons_of_field {k : String} {v : Node} {rest : List (Key × Node)}
    {r : List String × σ} (hfind : fields.find? (·.answersTo k) = some f) (hfresh : f.name ∉ seen) :
    fieldEntries fields m seen s ((.name k, v) :: rest) = .ok r ↔
      ∃ set, f.read m v = .ok set ∧
        fieldEntries fields m (f.name :: seen) (set s) rest = .ok r := by
  rw [fieldEntries]
  simp only [fieldOf?, hfind, bind, Except.bind, if_neg hfresh]
  cases f.read m v with
  | error e => simp
  | ok set => simp

/-! ### All entries -/

/-- **Under distinct names a record is read when each of its entries is.** -/
theorem exists_fieldEntries_iff (seen : List String) (s : σ) (hnames : Unaliased fields)
    (hkeys : es.keys.Nodup) (hseen : ∀ k ∈ es.keys, k ∉ seen) :
    (∃ r, fieldEntries fields m seen s (namedEntries tree es) = .ok r) ↔
      ∀ e ∈ es, Admits fields m e.1 (tree e.2) := by
  induction es generalizing seen s with
  | nil => simp [namedEntries, fieldEntries]
  | cons e es ih =>
    obtain ⟨k, v⟩ := e
    obtain ⟨hk, hrest⟩ := List.nodup_cons.mp hkeys
    have hseen' : ∀ j ∈ Entries.keys es, j ∉ seen := fun j hj => hseen j (List.mem_cons_of_mem k hj)
    rw [List.forall_mem_cons, namedEntries, List.map_cons]
    cases hfind : fields.find? (·.answersTo k) with
    | none =>
      simp only [fieldEntries_cons_of_no_field hfind, admits_of_no_field hfind, exists_and_left]
      exact and_congr_right fun _ => ih seen s hrest hseen'
    | some f =>
      have hname : f.name = k := (hnames.answersTo_iff (List.mem_of_find?_eq_some hfind)).mp
        (by simpa using List.find?_some hfind)
      have hfresh : f.name ∉ seen := hname ▸ hseen k (by simp)
      have hseen'' : ∀ j ∈ Entries.keys es, j ∉ f.name :: seen := by
        intro j hj
        rw [List.mem_cons, not_or, hname]
        exact ⟨fun heq => hk (heq ▸ hj), hseen' j hj⟩
      simp only [fieldEntries_cons_of_field hfind hfresh, admits_of_find? hfind]
      constructor
      · rintro ⟨r, set, hset, hr⟩
        exact ⟨⟨set, hset⟩, (ih (f.name :: seen) (set s) hrest hseen'').mp ⟨r, hr⟩⟩
      · rintro ⟨⟨set, hset⟩, hall⟩
        obtain ⟨r, hr⟩ := (ih (f.name :: seen) (set s) hrest hseen'').mpr hall
        exact ⟨r, set, hset, hr⟩

/-! ### One part of the record -/

/-- A field after which a part of the record is the same whatever it was before. -/
def Settles (m : Medium) (f : Field σ) (part : σ → β) : Prop :=
  ∀ v set, f.read m v = .ok set → ∀ s t, part (set s) = part (set t)

/-- A field that leaves a part of the record alone. -/
def Leaves (m : Medium) (f : Field σ) (part : σ → β) : Prop :=
  ∀ v set, f.read m v = .ok set → ∀ s, part (set s) = part s

theorem settles_of_set {d : Decoder γ} {set : γ → σ → σ} {part : σ → β}
    (hf : f.read = fun m node => (d m node).map set)
    (h : ∀ x s t, part (set x s) = part (set x t)) : Settles m f part := by
  intro v set' hread
  rw [hf] at hread
  obtain ⟨x, -, rfl⟩ := except_map_eq_ok hread
  exact h x

theorem leaves_of_set {d : Decoder γ} {set : γ → σ → σ} {part : σ → β}
    (hf : f.read = fun m node => (d m node).map set)
    (h : ∀ x s, part (set x s) = part s) : Leaves m f part := by
  intro v set' hread
  rw [hf] at hread
  obtain ⟨x, -, rfl⟩ := except_map_eq_ok hread
  exact h x

/-- A part of the record that one field settles and the others leave alone. -/
structure Owns (m : Medium) (fields : List (Field σ)) (f : Field σ) (part : σ → β) : Prop where
  field : fields.find? (·.answersTo f.name) = some f
  own : Settles m f part
  other : ∀ g ∈ fields, g.name ≠ f.name → Leaves m g part

/-- **A part of the record is what the entry of its field makes of it, or what it was.** -/
theorem part_of_fieldEntries {part : σ → β} (hown : Owns m fields f part)
    (hnames : Unaliased fields) (hkeys : es.keys.Nodup)
    (h : fieldEntries fields m seen s (namedEntries tree es) = .ok (seen', t)) :
    match es.get? f.name with
    | none => part t = part s
    | some v => ∃ set, f.read m (tree v) = .ok set ∧ ∀ s, part t = part (set s) := by
  induction es generalizing seen s with
  | nil =>
    obtain ⟨-, rfl⟩ := Prod.mk.inj (Except.ok.inj h)
    rfl
  | cons e es ih =>
    obtain ⟨k, v⟩ := e
    obtain ⟨hk, hrest⟩ := List.nodup_cons.mp hkeys
    rw [namedEntries, List.map_cons] at h
    rw [Entries.get?]
    cases hfind : fields.find? (·.answersTo k) with
    | none =>
      have hne : k ≠ f.name := by
        rintro rfl
        simp [hown.field] at hfind
      rw [if_neg hne]
      exact ih hrest ((fieldEntries_cons_of_no_field hfind).mp h).2
    | some g =>
      have hg := List.mem_of_find?_eq_some hfind
      have hname : g.name = k := (hnames.answersTo_iff hg).mp (by simpa using List.find?_some hfind)
      by_cases hfresh : g.name ∈ seen
      · simp [fieldEntries, fieldOf?, hfind, bind, Except.bind, hfresh] at h
      · obtain ⟨set, hset, h⟩ := (fieldEntries_cons_of_field hfind hfresh).mp h
        have htail := ih hrest h
        by_cases hkf : k = f.name
        · subst hkf
          obtain rfl : g = f := Option.some.inj (hfind.symm.trans hown.field)
          rw [Entries.get?_eq_none_iff.mpr hk] at htail
          rw [if_pos rfl]
          exact ⟨set, hset, fun s' => htail.trans (hown.own (tree v) set hset s s')⟩
        · rw [if_neg hkf]
          have hsame := hown.other g hg (hname ▸ hkf) (tree v) set hset s
          split at htail
          · exact htail.trans hsame
          · exact htail

end FrameScope.Read
