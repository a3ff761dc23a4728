import FrameScope.Node.Read
import FrameScope.Proofs.Entries
import FrameScope.Proofs.Json.Number
import FrameScope.Proofs.Outcome

/-!
# Untyped values as reading yields them

`Node.Literal`: a document in which only `null` itself stands for nothing, every number is an
integer or a valid spelling and every key is a string, as in a JSON text. What is read from one as
an untyped value is `Json.Sound`: its numbers are valid, and its objects have distinct keys the
first of which is not the number key (`sound_of_json`). Only `null` is read as `null`
(`eq_null_of_json`).
-/

namespace FrameScope

/-- A key as a text has it in front of a value: a string, or what stands where the text breaks. -/
def Key.Literal : Key → Node → Prop
  | .name _, _ => True
  | .unreadable, _ => True
  | .other, .broken => True
  | _, _ => False

namespace Node

mutual

/-- A document without floats, bytes and absences, whose spelled numbers are valid and whose keys are
strings. -/
def Literal : Node → Prop
  | .absent => False
  | .float _ => False
  | .bytes _ => False
  | .num n => n.Valid
  | .seq items => LiteralItems items
  | .map entries => LiteralEntries entries
  | _ => True

def LiteralItems : List Node → Prop
  | [] => True
  | v :: rest => Literal v ∧ LiteralItems rest

def LiteralEntries : List (Key × Node) → Prop
  | [] => True
  | (k, v) :: rest => k.Literal v ∧ Literal v ∧ LiteralEntries rest

end

theorem literal_seq {vs : List Node} : Literal (.seq vs) ↔ ∀ v ∈ vs, Literal v := by
  rw [Literal]
  induction vs with
  | nil => simp [LiteralItems]
  | cons v vs ih => simp [LiteralItems, ih]

theorem literal_map {es : List (Key × Node)} :
    Literal (.map es) ↔ ∀ e ∈ es, e.1.Literal e.2 ∧ Literal e.2 := by
  rw [Literal]
  induction es with
  | nil => simp [LiteralEntries]
  | cons e es ih => simp [LiteralEntries, ih, and_assoc]

theorem ofJsonItems_eq_map (vs : List Json) : ofJsonItems vs = vs.map ofJson := by
  induction vs with
  | nil => rfl
  | cons v vs ih => rw [ofJsonItems, ih, List.map_cons]

theorem ofJsonFields_eq_map (fs : Entries Json) :
    ofJsonFields fs = fs.map fun e => (.name e.1, ofJson e.2) := by
  induction fs with
  | nil => rfl
  | cons f fs ih => rw [ofJsonFields, ih, List.map_cons]

end Node

namespace Json

mutual

/-- Numbers are valid; the keys of an object are distinct and do not start with the number key. -/
def Sound : Json → Prop
  | .num n => n.Valid
  | .arr items => SoundItems items
  | .obj fields =>
    (Entries.keys fields).Nodup ∧ (Entries.keys fields).head? ≠ some Read.numberKey
      ∧ SoundFields fields
  | _ => True

def SoundItems : List Json → Prop
  | [] => True
  | v :: rest => Sound v ∧ SoundItems rest

def SoundFields : List (String × Json) → Prop
  | [] => True
  | (_, v) :: rest => Sound v ∧ SoundFields rest

end

theorem soundItems_iff {vs : List Json} : SoundItems vs ↔ ∀ v ∈ vs, Sound v := by
  induction vs with
  | nil => simp [SoundItems]
  | cons v vs ih => simp [SoundItems, ih]

theorem soundFields_iff {fs : Entries Json} : SoundFields fs ↔ ∀ f ∈ fs, Sound f.2 := by
  induction fs with
  | nil => simp [SoundFields]
  | cons f fs ih => simp [SoundFields, ih]

theorem soundFields_put {fs : Entries Json} {k : String} {v : Json} (hfs : SoundFields fs)
    (hv : Sound v) : SoundFields (fs.put k v) := by
  rw [soundFields_iff] at hfs ⊢
  intro f hf
  rcases Entries.mem_of_mem_put hf with rfl | hf
  · exact hv
  · exact hfs f hf

end Json

namespace Read

open Node Json

/-! ### Item by item -/

theorem jsonItems_cons_eq_ok {m : Medium} {v : Node} {vs : List Node} {ws : List Json} :
    jsonItems m (v :: vs) = .ok ws ↔
      ∃ x xs, json m v = .ok x ∧ jsonItems m vs = .ok xs ∧ ws = x :: xs := by
  rw [jsonItems]
  cases json m v <;> cases jsonItems m vs <;> simp [Except.map, eq_comm]

theorem jsonEntries_cons_eq_ok {m : Medium} {k : String} {v : Node} {es : List (Key × Node)}
    {fs gs : Entries Json} :
    jsonEntries m fs ((.name k, v) :: es) = .ok gs ↔
      ∃ x, json m v = .ok x ∧ jsonEntries m (fs.put k x) es = .ok gs := by
  rw [jsonEntries]
  cases json m v <;> simp

theorem json_map_cons_eq_ok {m : Medium} {k : String} (hk : k ≠ numberKey) {v : Node}
    {es : List (Key × Node)} {w : Json} :
    json m (.map ((.name k, v) :: es)) = .ok w ↔
      ∃ x gs, json m v = .ok x ∧ jsonEntries m [(k, x)] es = .ok gs ∧ w = .obj gs := by
  rw [json]
  simp only [if_neg hk]
  cases json m v with
  | error e => simp
  | ok x => cases hes : jsonEntries m [(k, x)] es <;> simp [Except.map, hes, eq_comm]

/-! ### What is read -/

theorem valid_of_jsonOfNumber {m : Medium} {n : Number} (hn : n.Valid) :
    Sound (jsonOfNumber m n) := by
  cases m with
  | value =>
    rw [jsonOfNumber]
    split
    · exact Number.valid_ofInt _
    · rename_i x _
      rcases h : Number.ofBinary64? x with _ | n'
      · simpa [Sound] using hn
      · exact Number.valid_of_ofText? h
    · exact hn
    · exact hn
  | _ => exact hn

theorem valid_of_numberOfSpelling {v : Node} {n : Number} (h : numberOfSpelling v = .ok n) :
    n.Valid := by
  unfold numberOfSpelling at h
  split at h
  · split at h
    · rename_i hn
      simp only [Except.ok.injEq] at h
      exact h ▸ Number.valid_of_ofText? hn
    · simp at h
  · simp at h

mutual

theorem sound_of_json {m : Medium} : ∀ {node : Node} {v : Json},
    node.Literal → json m node = .ok v → v.Sound
  | .null, v, _, h => by simp only [json, Except.ok.injEq] at h; simp [← h, Sound]
  | .bool b, v, _, h => by simp only [json, Except.ok.injEq] at h; simp [← h, Sound]
  | .int i, v, _, h => by
    simp only [json, Except.ok.injEq] at h
    rw [← h, Sound]
    exact Number.valid_ofInt i
  | .num n, v, hn, h => by
    simp only [json, Except.ok.injEq] at h
    rw [← h]
    exact valid_of_jsonOfNumber hn
  | .text s, v, _, h => by simp only [json, Except.ok.injEq] at h; simp [← h, Sound]
  | .seq vs, v, hvs, h => by
    rw [json] at h
    obtain ⟨items, hitems, rfl⟩ := except_map_eq_ok h
    exact sound_of_jsonItems hvs hitems
  | .map [], v, _, h => by simp only [json, Except.ok.injEq] at h; simp [← h, Sound, SoundFields]
  | .map ((.name s, w) :: rest), v, hes, h => by
    rw [json] at h
    split at h
    · split at h
      · simp at h
      · rename_i hn
        split at h
        · simp only [Except.ok.injEq] at h
          rw [← h]
          exact valid_of_numberOfSpelling hn
        · simp at h
    · rename_i hs
      split at h
      · simp at h
      · rename_i x hx
        obtain ⟨fields, hfields, rfl⟩ := except_map_eq_ok h
        have hx' : x.Sound := sound_of_json hes.2.1 hx
        obtain ⟨hkeys, hhead, hsound⟩ := sound_of_jsonEntries hes.2.2 hfields
          (by simp) (by simp [SoundFields, hx'])
        exact ⟨hkeys, by rw [hhead (by simp)]; simpa using hs, hsound⟩
  | .map ((.index _, _) :: _), _, _, h => by simp [json] at h
  | .map ((.bytes _, _) :: _), _, _, h => by simp [json] at h
  | .map ((.other, _) :: _), _, _, h => by simp [json] at h
  | .map ((.unreadable, _) :: _), _, _, h => by simp [json] at h
  | .unreadable, _, _, h => by simp [json] at h
  | .deep _, _, _, h => by simp [json] at h
  | .broken, _, _, h => by simp [json] at h
  | .absent, _, hnode, _ => hnode.elim
  | .float _, _, hnode, _ => hnode.elim
  | .bytes _, _, hnode, _ => hnode.elim

theorem sound_of_jsonItems {m : Medium} : ∀ {nodes : List Node} {vs : List Json},
    LiteralItems nodes → jsonItems m nodes = .ok vs → SoundItems vs
  | [], vs, _, h => by simp only [jsonItems, Except.ok.injEq] at h; simp [← h, SoundItems]
  | node :: nodes, vs, hnodes, h => by
    rw [jsonItems] at h
    split at h
    · simp at h
    · rename_i v hv
      obtain ⟨vs', hvs', rfl⟩ := except_map_eq_ok h
      exact ⟨sound_of_json hnodes.1 hv, sound_of_jsonItems hnodes.2 hvs'⟩

theorem sound_of_jsonEntries {m : Medium} : ∀ {entries : List (Key × Node)} {fs gs : Entries Json},
    LiteralEntries entries → jsonEntries m fs entries = .ok gs → fs.keys.Nodup → SoundFields fs →
      gs.keys.Nodup ∧ (fs ≠ [] → gs.keys.head? = fs.keys.head?) ∧ SoundFields gs
  | [], fs, gs, _, h, hkeys, hfs => by
    simp only [jsonEntries, Except.ok.injEq] at h
    exact h ▸ ⟨hkeys, fun _ => rfl, hfs⟩
  | (.name s, node) :: entries, fs, gs, hes, h, hkeys, hfs => by
    rw [jsonEntries] at h
    split at h
    · simp at h
    · rename_i v hv
      have hput : SoundFields (fs.put s v) := soundFields_put hfs (sound_of_json hes.2.1 hv)
      obtain ⟨hgs, hhead, hsound⟩ :=
        sound_of_jsonEntries hes.2.2 h (Entries.nodup_keys_put hkeys) hput
      refine ⟨hgs, fun hne => ?_, hsound⟩
      rcases fs with _ | ⟨f, fs⟩
      · exact absurd rfl hne
      · rw [hhead (by rw [Entries.put]; split <;> simp), Entries.keys_put]
        split <;> simp
  | (.index _, _) :: _, _, _, _, h, _, _ => by simp [jsonEntries] at h
  | (.bytes _, _) :: _, _, _, _, h, _, _ => by simp [jsonEntries] at h
  | (.other, _) :: _, _, _, _, h, _, _ => by simp [jsonEntries] at h
  | (.unreadable, _) :: _, _, _, _, h, _, _ => by simp [jsonEntries] at h

end

theorem eq_null_of_json {m : Medium} {node : Node} (hnode : node.Literal)
    (h : json m node = .ok .null) : node = .null := by
  cases node with
  | null => rfl
  | seq vs =>
    rw [json] at h
    obtain ⟨_, -, hnull⟩ := except_map_eq_ok h
    simp at hnull
  | map es =>
    rcases es with _ | ⟨⟨k, v⟩, rest⟩
    · simp [json] at h
    cases k with
    | name s =>
      rw [json] at h
      split at h
      · split at h
        · simp at h
        · split at h <;> simp at h
      · split at h
        · simp at h
        · obtain ⟨_, -, hnull⟩ := except_map_eq_ok h
          simp at hnull
    | _ => simp [json] at h
  | num n =>
    cases m <;> simp only [json, jsonOfNumber, Except.ok.injEq] at h
    · simp at h
    · split at h <;> simp at h
    · simp at h
    · simp at h
  | absent => exact hnode.elim
  | float x => exact hnode.elim
  | bytes b => exact hnode.elim
  | _ => simp [json] at h

end Read

end FrameScope
