import FrameScope.Proofs.Node.Held

/-!
# Plain documents

A document is plain (`Node.Plain`) when its numbers are integers of 64 bits and its maps have
distinct names, none of them the number key. A plain document is the same whether it is held back
from a text or kept as an untyped value (`Read.buffer_of_plain`, `Read.json_of_plain`).
-/

namespace FrameScope

/-- An integer of 64 bits in digits; a negative zero is none. -/
def Number.Plain (n : Number) : Prop :=
  n.Valid ∧ ∃ i, n.int64? = some i ∧ ¬ (i = 0 ∧ n.negative = true)

namespace Node

mutual

/-- Integers of 64 bits for numbers, and distinct names in every map. -/
def Plain : Node → Prop
  | .null => True
  | .bool _ => True
  | .text _ => True
  | .num n => n.Plain
  | .seq vs => PlainItems vs
  | .map es => (es.map Prod.fst).Nodup ∧ PlainEntries es
  | _ => False

def PlainItems : List Node → Prop
  | [] => True
  | v :: rest => Plain v ∧ PlainItems rest

def PlainEntries : List (Key × Node) → Prop
  | [] => True
  | (k, v) :: rest => (∃ s, k = .name s ∧ s ≠ Read.numberKey) ∧ Plain v ∧ PlainEntries rest

end

mutual

/-- What is held back of a plain document. -/
def held : Node → Node
  | .num n => .int (n.int64?.getD 0)
  | .seq vs => .seq (heldItems vs)
  | .map es => .map (heldEntries es)
  | v => v

def heldItems : List Node → List Node
  | [] => []
  | v :: rest => held v :: heldItems rest

def heldEntries : List (Key × Node) → List (Key × Node)
  | [] => []
  | (k, v) :: rest => (k, held v) :: heldEntries rest

end

end Node

namespace Read

open Node

variable {m : Medium}

/-! ### Numbers -/

theorem toInt?_of_int64? {n : Number} {i : Int} (h : n.int64? = some i) : n.toInt? = some i := by
  unfold Number.int64? at h
  split at h
  · split at h
    · simp_all
    · simp at h
  · simp at h

theorem ofInt_of_plain {n : Number} (hn : n.Plain) : Number.ofInt (n.int64?.getD 0) = n := by
  obtain ⟨hvalid, i, hi, hzero⟩ := hn
  rw [hi]
  exact Number.ofInt_of_toInt? hvalid (toInt?_of_int64? hi) hzero

theorem bufferNumber_of_plain {n : Number} (hn : n.Plain) :
    bufferNumber m n = .ok (.int (n.int64?.getD 0)) := by
  obtain ⟨-, i, hi, hzero⟩ := hn
  cases m <;> simp [bufferNumber, Number.view, hi, hzero]

theorem buffer_int_of_int64? {n : Number} {i : Int} (h : n.int64? = some i) :
    buffer m (.int i) = .ok (.int i) := by
  have hrange : ¬ (i < 0 ∧ ¬ Word.holdsSigned Word.size i) := by
    unfold Number.int64? at h
    split at h
    · split at h
      · rename_i hsize
        obtain rfl := Option.some.inj h
        exact fun hneg => hsize.elim hneg.2 fun hpos => absurd hpos.1 (Int.not_le.mpr hneg.1)
      · simp at h
    · simp at h
  rw [buffer, if_neg hrange]

theorem buffer_int_of_plain {n : Number} (hn : n.Plain) :
    buffer m (.int (n.int64?.getD 0)) = .ok (.int (n.int64?.getD 0)) := by
  obtain ⟨-, i, hi, -⟩ := hn
  rw [hi, Option.getD_some]
  exact buffer_int_of_int64? hi

theorem jsonOfNumber_of_plain {n : Number} (hn : n.Plain) : jsonOfNumber m n = .num n := by
  have hnum := ofInt_of_plain hn
  obtain ⟨-, i, hi, -⟩ := hn
  rw [hi] at hnum
  cases m <;> simp_all [jsonOfNumber, Number.view]

/-! ### Documents -/

mutual

theorem buffer_of_plain : ∀ {v : Node}, v.Plain → buffer m v = .ok v.held
  | .null, _ => rfl
  | .bool _, _ => rfl
  | .text _, _ => rfl
  | .num _, hn => bufferNumber_of_plain hn
  | .seq vs, hvs => by rw [buffer, bufferItems_of_plain hvs, Node.held]; rfl
  | .map es, hes => by rw [buffer, bufferEntries_of_plain hes.2, Node.held]; rfl

theorem bufferItems_of_plain : ∀ {vs : List Node}, PlainItems vs →
    bufferItems m vs = .ok (heldItems vs)
  | [], _ => rfl
  | v :: vs, hvs => by
    rw [bufferItems, buffer_of_plain hvs.1, bufferItems_of_plain hvs.2, heldItems]
    rfl

theorem bufferEntries_of_plain : ∀ {es : List (Key × Node)}, PlainEntries es →
    bufferEntries m es = .ok (heldEntries es)
  | [], _ => rfl
  | (k, v) :: es, hes => by
    obtain ⟨⟨s, rfl, -⟩, hv, hes⟩ := hes
    rw [bufferEntries, if_neg (by simp), buffer_of_plain hv, bufferEntries_of_plain hes, heldEntries]
    rfl

end

mutual

theorem buffer_held : ∀ {v : Node}, v.Plain → buffer m v.held = .ok v.held
  | .null, _ => rfl
  | .bool _, _ => rfl
  | .text _, _ => rfl
  | .num n, hn => buffer_int_of_plain hn
  | .seq vs, hvs => by rw [Node.held, buffer, bufferItems_held hvs]; rfl
  | .map es, hes => by rw [Node.held, buffer, bufferEntries_held hes.2]; rfl

theorem bufferItems_held : ∀ {vs : List Node}, PlainItems vs →
    bufferItems m (heldItems vs) = .ok (heldItems vs)
  | [], _ => rfl
  | v :: vs, hvs => by
    rw [heldItems, bufferItems, buffer_held hvs.1, bufferItems_held hvs.2]
    rfl

theorem bufferEntries_held : ∀ {es : List (Key × Node)}, PlainEntries es →
    bufferEntries m (heldEntries es) = .ok (heldEntries es)
  | [], _ => rfl
  | (k, v) :: es, hes => by
    obtain ⟨⟨s, rfl, -⟩, hv, hes⟩ := hes
    rw [heldEntries, bufferEntries, if_neg (by simp), buffer_held hv, bufferEntries_held hes]
    rfl

end

mutual

theorem json_held : ∀ {v : Node}, v.Plain → json m v.held = json m v
  | .null, _ => rfl
  | .bool _, _ => rfl
  | .text _, _ => rfl
  | .num n, hn => by rw [Node.held, json, json, jsonOfNumber_of_plain hn, ofInt_of_plain hn]
  | .seq vs, hvs => by rw [Node.held, json, json, jsonItems_held hvs]
  | .map [], _ => rfl
  | .map ((k, v) :: es), hes => by
    obtain ⟨-, ⟨s, rfl, hs⟩, hv, hes⟩ := hes
    simp only [Node.held, heldEntries, json, if_neg hs, json_held hv, jsonEntries_held hes]

theorem jsonItems_held : ∀ {vs : List Node}, PlainItems vs →
    jsonItems m (heldItems vs) = jsonItems m vs
  | [], _ => rfl
  | v :: vs, hvs => by
    rw [heldItems, jsonItems, jsonItems, json_held hvs.1, jsonItems_held hvs.2]

theorem jsonEntries_held : ∀ {es : List (Key × Node)}, PlainEntries es → ∀ {fs : Entries Json},
    jsonEntries m fs (heldEntries es) = jsonEntries m fs es
  | [], _, _ => rfl
  | (k, v) :: es, hes, fs => by
    obtain ⟨⟨s, rfl, -⟩, hv, hes⟩ := hes
    simp only [heldEntries, jsonEntries, json_held hv, jsonEntries_held hes]

end

mutual

theorem json_of_plain : ∀ {v : Node}, v.Plain → json m v = .ok v.toJson
  | .null, _ => by rw [json]; rfl
  | .bool _, _ => by rw [json]; rfl
  | .text _, _ => by rw [json]; rfl
  | .num n, hn => by rw [json, jsonOfNumber_of_plain hn]; rfl
  | .seq vs, hvs => by rw [json, jsonItems_of_plain hvs]; rfl
  | .map [], _ => by rw [json]; rfl
  | .map ((k, v) :: es), hes => by
    obtain ⟨hkeys, ⟨s, rfl, hs⟩, hv, hes⟩ := hes
    have hentries := jsonEntries_of_plain hes [(s, v.toJson)] (by simpa using hkeys)
    simp only [json, if_neg hs, json_of_plain hv, hentries]
    rfl

theorem jsonItems_of_plain : ∀ {vs : List Node}, PlainItems vs →
    jsonItems m vs = .ok (toJsonItems vs)
  | [], _ => rfl
  | v :: vs, hvs => by
    rw [jsonItems, json_of_plain hvs.1, jsonItems_of_plain hvs.2]
    rfl

theorem jsonEntries_of_plain : ∀ {es : List (Key × Node)}, PlainEntries es → ∀ fs : Entries Json,
    (fs.keys.map Key.name ++ es.map Prod.fst).Nodup →
      jsonEntries m fs es = .ok (fs ++ toJsonFields es)
  | [], _, fs, _ => by simp [jsonEntries, toJsonFields]
  | (k, v) :: es, hes, fs, hkeys => by
    obtain ⟨⟨s, rfl, -⟩, hv, hes⟩ := hes
    have hs : s ∉ fs.keys := fun hmem => by
      rw [List.nodup_append] at hkeys
      exact hkeys.2.2 (.name s) (List.mem_map_of_mem hmem) (.name s) (by simp) rfl
    have hrest := jsonEntries_of_plain hes (fs ++ [(s, v.toJson)]) (by simpa using hkeys)
    simp only [jsonEntries, json_of_plain hv, Entries.put_of_not_mem hs, hrest, toJsonFields,
      List.append_assoc, List.singleton_append]

end

end Read

namespace Node

mutual

theorem ofJson_toJson : ∀ {v : Node}, v.Plain → ofJson v.toJson = v
  | .null, _ => rfl
  | .bool _, _ => rfl
  | .text _, _ => rfl
  | .num _, _ => rfl
  | .seq vs, hvs => by rw [toJson, ofJson, ofJsonItems_toJsonItems hvs]
  | .map es, hes => by rw [toJson, ofJson, ofJsonFields_toJsonFields hes.2]

theorem ofJsonItems_toJsonItems : ∀ {vs : List Node}, PlainItems vs →
    ofJsonItems (toJsonItems vs) = vs
  | [], _ => rfl
  | v :: vs, hvs => by
    rw [toJsonItems, ofJsonItems, ofJson_toJson hvs.1, ofJsonItems_toJsonItems hvs.2]

theorem ofJsonFields_toJsonFields : ∀ {es : List (Key × Node)}, PlainEntries es →
    ofJsonFields (toJsonFields es) = es
  | [], _ => rfl
  | (k, v) :: es, hes => by
    obtain ⟨⟨s, rfl, -⟩, hv, hes⟩ := hes
    rw [toJsonFields, ofJsonFields, ofJson_toJson hv, ofJsonFields_toJsonFields hes]

end

mutual

theorem skip_of_plain : ∀ {v : Node}, v.Plain → v.skip = .ok () ∧ v.held.skip = .ok ()
  | .null, _ => ⟨rfl, rfl⟩
  | .bool _, _ => ⟨rfl, rfl⟩
  | .text _, _ => ⟨rfl, rfl⟩
  | .num _, _ => ⟨rfl, rfl⟩
  | .seq _, hvs => skipItems_of_plain hvs
  | .map _, hes => skipEntries_of_plain hes.2

theorem skipItems_of_plain : ∀ {vs : List Node}, PlainItems vs →
    skipItems vs = .ok () ∧ skipItems (heldItems vs) = .ok ()
  | [], _ => ⟨rfl, rfl⟩
  | v :: vs, hvs => by
    obtain ⟨hv, hv'⟩ := skip_of_plain hvs.1
    obtain ⟨hrest, hrest'⟩ := skipItems_of_plain hvs.2
    exact ⟨by rw [skipItems, hv, hrest]; rfl, by rw [heldItems, skipItems, hv', hrest']; rfl⟩

theorem skipEntries_of_plain : ∀ {es : List (Key × Node)}, PlainEntries es →
    skipEntries es = .ok () ∧ skipEntries (heldEntries es) = .ok ()
  | [], _ => ⟨rfl, rfl⟩
  | (k, v) :: es, hes => by
    obtain ⟨hv, hv'⟩ := skip_of_plain hes.2.1
    obtain ⟨hrest, hrest'⟩ := skipEntries_of_plain hes.2.2
    exact ⟨by rw [skipEntries, hv, hrest]; rfl, by rw [heldEntries, skipEntries, hv', hrest']; rfl⟩

end

mutual

theorem literal_of_plain : ∀ {v : Node}, v.Plain → v.Literal
  | .null, _ => trivial
  | .bool _, _ => trivial
  | .text _, _ => trivial
  | .num _, hn => hn.1
  | .seq _, hvs => literalItems_of_plain hvs
  | .map _, hes => literalEntries_of_plain hes.2

theorem literalItems_of_plain : ∀ {vs : List Node}, PlainItems vs → LiteralItems vs
  | [], _ => trivial
  | _ :: _, hvs => ⟨literal_of_plain hvs.1, literalItems_of_plain hvs.2⟩

theorem literalEntries_of_plain : ∀ {es : List (Key × Node)}, PlainEntries es → LiteralEntries es
  | [], _ => trivial
  | (_, _) :: _, ⟨⟨_, rfl, _⟩, hv, hes⟩ =>
    ⟨trivial, literal_of_plain hv, literalEntries_of_plain hes⟩

end

theorem sound_toJson {v : Node} (hv : v.Plain) : v.toJson.Sound :=
  Read.sound_of_json (literal_of_plain hv) (@Read.json_of_plain .text v hv)

end Node

end FrameScope
