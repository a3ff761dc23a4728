import FrameScope.Proofs.Node.Record
import FrameScope.Proofs.Node.Settled

/-!
# Records that keep what they do not know

The entries of a record that keeps unknown ones are read in two parts that do not touch each other
(`keepingEntries_eq_ok_iff`): the entries of its fields, and the others, which are held back. Out of
a value the others come one by one, each as what it is when it is held back and read again
(`entries_held_iff`).
-/

namespace FrameScope

namespace Read

open Node

/-! ### Known and unknown entries -/

section parts

variable {σ : Type} {fields : List (Field σ)} {m : Medium}

/-- Whether a name is one of a field. -/
def isFieldName (fields : List (Field σ)) (name : String) : Bool :=
  (fields.find? (·.answersTo name)).isSome

/-- The entries of the fields. -/
def fieldPart {α : Type} (fields : List (Field σ)) (es : Entries α) : Entries α :=
  es.filter fun e => isFieldName fields e.1

/-- The entries of no field. -/
def foreignPart {α : Type} (fields : List (Field σ)) (es : Entries α) : Entries α :=
  es.filter fun e => !isFieldName fields e.1

/-- **Known and unknown entries are read apart.** -/
theorem keepingEntries_eq_ok_iff {es : Entries Json} {seen : List String} {s t : σ}
    {kept kept' : List (Key × Node)} :
    keepingEntries fields m seen s kept (ofJsonFields es) = .ok (t, kept') ↔
      (∃ seen', fieldEntries fields m seen s (ofJsonFields (fieldPart fields es)) = .ok (seen', t)) ∧
        ∃ held, bufferEntries m (ofJsonFields (foreignPart fields es)) = .ok held ∧
          kept' = kept ++ held := by
  induction es generalizing seen s kept with
  | nil =>
    simp [ofJsonFields, fieldPart, foreignPart, keepingEntries, fieldEntries, bufferEntries, eq_comm]
  | cons e es ih =>
    obtain ⟨k, v⟩ := e
    rw [ofJsonFields, keepingEntries]
    cases hfield : fields.find? (·.answersTo k) with
    | none =>
      have hfieldPart : fieldPart fields ((k, v) :: es) = fieldPart fields es := by
        simp [fieldPart, isFieldName, hfield]
      have hforeignPart : foreignPart fields ((k, v) :: es) = (k, v) :: foreignPart fields es := by
        simp [foreignPart, isFieldName, hfield]
      rw [hfieldPart, hforeignPart, ofJsonFields]
      simp only [fieldOf?, hfield, bind, Except.bind, bufferEntries_cons_eq_ok]
      cases buffer m (ofJson v) with
      | error e => simp
      | ok x =>
        simp only [Except.ok.injEq]
        rw [ih]
        constructor
        · rintro ⟨hknown, held, hheld, rfl⟩
          exact ⟨hknown, _, ⟨x, held, rfl, hheld, rfl⟩, by simp⟩
        · rintro ⟨hknown, _, ⟨_, held, rfl, hheld, rfl⟩, rfl⟩
          exact ⟨hknown, held, hheld, by simp⟩
    | some f =>
      have hfieldPart : fieldPart fields ((k, v) :: es) = (k, v) :: fieldPart fields es := by
        simp [fieldPart, isFieldName, hfield]
      have hforeignPart : foreignPart fields ((k, v) :: es) = foreignPart fields es := by
        simp [foreignPart, isFieldName, hfield]
      rw [hfieldPart, hforeignPart, ofJsonFields, fieldEntries]
      simp only [fieldOf?, hfield, bind, Except.bind]
      split
      · simp
      · cases f.read m (ofJson v) with
        | error e => simp
        | ok set => exact ih

end parts

/-! ### Unknown entries of a value -/

/-- A value comes out as another when it is held back and read again. -/
def Returns (v w : Json) : Prop :=
  ∃ held, buffer .value (ofJson v) = .ok held ∧ json .buffered held = .ok w

theorem returns_iff {v w : Json} (hv : v.Sound) : Returns v w ↔ v.settled? = some w :=
  json_buffer_iff hv

/-- **Unknown entries with distinct names come out one by one.** -/
theorem entries_held_iff {fs xs : Entries Json} (hkeys : fs.keys.Nodup) :
    (∃ held, bufferEntries .value (ofJsonFields fs) = .ok held ∧
      entries json .buffered (.map held) = .ok xs) ↔ fs.Related Returns xs := by
  have hnodes : Entries.keys (fs.map fun e => (e.1, ofJson e.2)) = fs.keys := by
    simp [Entries.keys]
  have hiff := @entries_buffer_iff Json .value json (fs.map fun e => (e.1, ofJson e.2)) xs
    (hnodes ▸ hkeys)
  rw [ofEntries, List.map_map, buffer, exists_map_eq_ok_and] at hiff
  rw [ofJsonFields_eq_map]
  exact hiff.trans List.forall₂_map_left_iff

theorem exists_of_mem_bufferEntries {m : Medium} {fs : Entries Json} {held : List (Key × Node)}
    (h : bufferEntries m (ofJsonFields fs) = .ok held) :
    ∀ e ∈ held, ∃ f ∈ fs, e.1 = .name f.1 ∧ buffer m (ofJson f.2) = .ok e.2 := by
  induction fs generalizing held with
  | nil =>
    obtain rfl := Except.ok.inj h
    simp
  | cons f fs ih =>
    obtain ⟨x, xs, hx, hxs, rfl⟩ := bufferEntries_cons_eq_ok.mp h
    refine List.forall_mem_cons.mpr ⟨⟨f, by simp, rfl, hx⟩, fun e he => ?_⟩
    obtain ⟨g, hg, hname, hbuffer⟩ := ih hxs e he
    exact ⟨g, by simp [hg], hname, hbuffer⟩

theorem sound_of_entries_held {fs xs : Entries Json} {held : List (Key × Node)}
    (hheld : bufferEntries .value (ofJsonFields fs) = .ok held)
    (h : entries json .buffered (.map held) = .ok xs) :
    xs.keys.Nodup ∧ ∀ e ∈ xs, e.1 ∈ fs.keys ∧ e.2.Sound := by
  refine entriesFrom_invariant (P := fun k v => k ∈ fs.keys ∧ v.Sound) (fun e he s x hs hx => ?_) h
    (by simp) (by simp)
  obtain ⟨f, hf, hname, hbuffer⟩ := exists_of_mem_bufferEntries hheld e he
  obtain rfl : f.1 = s := by simpa [hname, keyText] using hs
  exact ⟨List.mem_map_of_mem hf, sound_of_json_buffer hbuffer hx⟩

end Read

end FrameScope
