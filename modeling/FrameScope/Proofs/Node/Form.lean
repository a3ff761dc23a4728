import FrameScope.Proofs.Json.Sound

/-!
# Documents in another form

On its way to a decoder a document keeps its containers, texts and names; only its numbers may come
to look different (`Node.Form`). When they still read as the numbers they were, a sound untyped
value is read back from its form (`Read.json_form`). The document itself is one of its forms
(`Node.form_id`), so a sound value is read back from its own tree (`Read.json_ofJson`).
-/

namespace FrameScope

/-- A form of documents that changes nothing but numbers. -/
structure Node.Form (carry : Node → Node) : Prop where
  null : carry .null = .null
  bool : ∀ b, carry (.bool b) = .bool b
  text : ∀ s, carry (.text s) = .text s
  seq : ∀ vs, carry (.seq vs) = .seq (vs.map carry)
  map : ∀ es, carry (.map es) = .map (es.map fun e => (e.1, carry e.2))
  /-- No number looks like nothing. -/
  eq_null : ∀ {node}, carry node = .null → node = .null

theorem Node.form_id : Node.Form id where
  null := rfl
  bool _ := rfl
  text _ := rfl
  seq _ := by simp
  map _ := by simp
  eq_null h := h

namespace Read

open Node Json

variable {m : Medium} {carry : Node → Node}

mutual

/-- **A sound untyped value is read back from a form in which its numbers are.** -/
theorem json_form (hform : Form carry)
    (hnum : ∀ {n : Number}, n.Valid → json m (carry (.num n)) = .ok (.num n)) :
    ∀ {v : Json}, v.Sound → json m (carry (ofJson v)) = .ok v
  | .null, _ => by rw [ofJson, hform.null, json]
  | .bool _, _ => by rw [ofJson, hform.bool, json]
  | .num _, hn => hnum hn
  | .str _, _ => by rw [ofJson, hform.text, json]
  | .arr vs, hvs => by
    rw [ofJson, hform.seq, json, jsonItems_form hform hnum hvs]
    rfl
  | .obj [], _ => by rw [ofJson, ofJsonFields, hform.map, List.map_nil, json]
  | .obj ((k, v) :: fs), hfs => by
    have hk : k ≠ numberKey := by simpa using hfs.2.1
    have hv := json_form hform hnum hfs.2.2.1
    have hrest : jsonEntries m [(k, v)] _ = _ :=
      jsonEntries_form hform hnum hfs.2.2.2 (by simpa using hfs.1)
    rw [ofJson, ofJsonFields, hform.map]
    exact (json_map_cons_eq_ok hk).mpr ⟨v, _, hv, hrest, rfl⟩

theorem jsonItems_form (hform : Form carry)
    (hnum : ∀ {n : Number}, n.Valid → json m (carry (.num n)) = .ok (.num n)) :
    ∀ {vs : List Json}, SoundItems vs → jsonItems m ((ofJsonItems vs).map carry) = .ok vs
  | [], _ => rfl
  | v :: vs, hvs =>
    jsonItems_cons_eq_ok.mpr
      ⟨v, vs, json_form hform hnum hvs.1, jsonItems_form hform hnum hvs.2, rfl⟩

theorem jsonEntries_form (hform : Form carry)
    (hnum : ∀ {n : Number}, n.Valid → json m (carry (.num n)) = .ok (.num n)) :
    ∀ {fs es : Entries Json}, SoundFields fs → (es.keys ++ fs.keys).Nodup →
      jsonEntries m es ((ofJsonFields fs).map fun e => (e.1, carry e.2)) = .ok (es ++ fs)
  | [], es, _, _ => by simp [ofJsonFields, jsonEntries]
  | (k, v) :: fs, es, hfs, hkeys => by
    have hk : k ∉ es.keys := fun hmem => (List.nodup_append.mp hkeys).2.2 k hmem k (by simp) rfl
    have hrest : jsonEntries m (es ++ [(k, v)]) _ = _ :=
      jsonEntries_form hform hnum hfs.2 (by simpa using hkeys)
    rw [ofJsonFields, List.map_cons]
    refine jsonEntries_cons_eq_ok.mpr ⟨v, json_form hform hnum hfs.1, ?_⟩
    rw [Entries.put_of_not_mem hk, hrest]
    simp

end

theorem json_ofJson (hm : m ≠ .value) {v : Json} (hv : v.Sound) : json m (ofJson v) = .ok v := by
  refine json_form form_id (fun {n} _ => ?_) hv
  rw [id_eq, json]
  cases m <;> first | rfl | exact absurd rfl hm

end Read

end FrameScope
