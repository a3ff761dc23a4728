import FrameScope.Proofs.Node.Record
import FrameScope.Proofs.Node.Untyped

/-!
# Untyped values read from themselves

An untyped value that is read from the value it is comes back as it was when its numbers are spelled
as such reading spells them, and its objects repeat no name and do not start with the number key
(`Read.json_ofJson_value_iff`).
-/

namespace FrameScope

open Node

namespace Json

mutual

/-- A value that reading from a value leaves alone. -/
def Stays : Json → Prop
  | .num n => Read.jsonOfNumber .value n = .num n
  | .arr items => StaysItems items
  | .obj fields =>
    (Entries.keys fields).Nodup ∧ (Entries.keys fields).head? ≠ some Read.numberKey
      ∧ StaysFields fields
  | _ => True

def StaysItems : List Json → Prop
  | [] => True
  | v :: rest => Stays v ∧ StaysItems rest

def StaysFields : List (String × Json) → Prop
  | [] => True
  | (_, v) :: rest => Stays v ∧ StaysFields rest

end

end Json

namespace Read

variable {m : Medium}

theorem json_ofJson_obj_iff {fs : Entries Json} :
    json m (ofJson (.obj fs)) = .ok (.obj fs) ↔
      fs.keys.Nodup ∧ fs.keys.head? ≠ some numberKey ∧ ∀ f ∈ fs, json m (ofJson f.2) = .ok f.2 := by
  have hnamed : ofJson (.obj fs) = ofEntries (fs.map fun f => (f.1, ofJson f.2)) := by
    rw [ofJson, ofJsonFields_eq_map, ofEntries, List.map_map]
    rfl
  by_cases hhead : fs.keys.head? = some numberKey
  · -- what starts with the number key is a number, if it is anything
    refine iff_of_false ?_ fun h => h.2.1 hhead
    cases fs with
    | nil => simp at hhead
    | cons f fs =>
      have hk : f.1 = numberKey := by simpa using hhead
      rw [ofJson, ofJsonFields, json]
      simp only [if_pos hk]
      split
      · simp
      · split <;> simp
  · have hread : json m (ofJson (.obj fs)) = .ok (.obj fs) ↔
        entries json m (ofEntries (fs.map fun f => (f.1, ofJson f.2))) = .ok fs := by
      rw [hnamed]
      refine (entries_json_iff ?_ ?_).symm
      · simpa [Entries.keys, Function.comp_def] using hhead
      · intro e he
        obtain ⟨f, -, rfl⟩ := List.mem_map.mp he
        trivial
    have hvalues (hkeys : fs.keys.Nodup) : json m (ofJson (.obj fs)) = .ok (.obj fs) ↔
        ∀ f ∈ fs, json m (ofJson f.2) = .ok f.2 := by
      rw [hread, entries_ofEntries_iff (by simpa [Entries.keys, Function.comp_def] using hkeys),
        Entries.Related, List.forall₂_map_left_iff, List.forall₂_same]
      simp
    constructor
    · intro h
      obtain ⟨hkeys, -⟩ := entries_invariant (Q := fun _ => True) (D := fun _ => True)
        (fun _ _ _ _ => trivial) (by simp [ofEntries, Parts]) (hread.mp h)
      exact ⟨hkeys, hhead, (hvalues hkeys).mp h⟩
    · rintro ⟨hkeys, -, h⟩
      exact (hvalues hkeys).mpr h

mutual

/-- **An untyped value is read from itself exactly when it stays.** -/
theorem json_ofJson_value_iff : ∀ {v : Json}, json .value (ofJson v) = .ok v ↔ v.Stays
  | .null => by simp [ofJson, json, Json.Stays]
  | .bool _ => by simp [ofJson, json, Json.Stays]
  | .num n => by simp [ofJson, json, Json.Stays]
  | .str _ => by simp [ofJson, json, Json.Stays]
  | .arr vs => by
    rw [ofJson, json, Json.Stays, ← jsonItems_ofJsonItems_value_iff, except_map_eq_ok_iff]
    simp
  | .obj fs => by
    rw [json_ofJson_obj_iff, Json.Stays, ← forall_json_ofJson_value_iff]

theorem jsonItems_ofJsonItems_value_iff : ∀ {vs : List Json},
    jsonItems .value (ofJsonItems vs) = .ok vs ↔ Json.StaysItems vs
  | [] => by simp [ofJsonItems, jsonItems, Json.StaysItems]
  | v :: vs => by
    rw [ofJsonItems, jsonItems_cons_eq_ok, Json.StaysItems, ← json_ofJson_value_iff,
      ← jsonItems_ofJsonItems_value_iff]
    simp

theorem forall_json_ofJson_value_iff : ∀ {fs : List (String × Json)},
    (∀ f ∈ fs, json .value (ofJson f.2) = .ok f.2) ↔ Json.StaysFields fs
  | [] => by simp [Json.StaysFields]
  | (k, v) :: fs => by
    rw [List.forall_mem_cons, Json.StaysFields, json_ofJson_value_iff, forall_json_ofJson_value_iff]

end

end Read

end FrameScope
