import FrameScope.Node.Read
import FrameScope.Proofs.Entries
import FrameScope.Proofs.Json.Sound
import FrameScope.Proofs.Outcome

/-!
# Documents held back and maps of names

A literal document is literal when it is held back (`Read.literal_buffer`), and an untyped value
unless the number key stands in it (`Read.json_of_buffer`). Entries with distinct names are held
back and read one by one (`Read.buffer_ofEntries_iff`, `Read.entries_ofEntries_iff`).
-/

namespace FrameScope

open Node

namespace Node

/-- The map of trees under names. -/
def ofEntries (es : Entries Node) : Node := .map (es.map fun e => (.name e.1, e.2))

mutual

/-- Whether a key stands anywhere in a document. -/
def hasKey (s : String) : Node → Bool
  | .seq items => hasKeyItems s items
  | .map entries => hasKeyEntries s entries
  | .deep inner => hasKey s inner
  | _ => false

def hasKeyItems (s : String) : List Node → Bool
  | [] => false
  | v :: rest => hasKey s v || hasKeyItems s rest

def hasKeyEntries (s : String) : List (Key × Node) → Bool
  | [] => false
  | (k, v) :: rest => k == .name s || hasKey s v || hasKeyEntries s rest

end
end Node

namespace Read

/-! ### Documents held back -/

theorem bufferItems_cons_eq_ok {m : Medium} {v : Node} {vs hs : List Node} :
    bufferItems m (v :: vs) = .ok hs ↔
      ∃ x xs, buffer m v = .ok x ∧ bufferItems m vs = .ok xs ∧ hs = x :: xs := by
  rw [bufferItems]
  cases buffer m v <;> cases bufferItems m vs <;> simp [Except.map, eq_comm]

theorem bufferEntries_cons_eq_ok {m : Medium} {k : String} {v : Node} {es hs : List (Key × Node)} :
    bufferEntries m ((.name k, v) :: es) = .ok hs ↔
      ∃ x xs, buffer m v = .ok x ∧ bufferEntries m es = .ok xs ∧ hs = (.name k, x) :: xs := by
  rw [bufferEntries, if_neg (by simp)]
  cases buffer m v <;> cases bufferEntries m es <;> simp [Except.map, eq_comm]

theorem literal_bufferNumber {m : Medium} (hm : m ≠ .value) {n : Number} {node : Node}
    (h : bufferNumber m n = .ok node) : node.Literal := by
  have hopaque : (opaqueNumber n).Literal := by simp [opaqueNumber, Literal, LiteralEntries, Key.Literal]
  unfold bufferNumber at h
  split at h
  · exact absurd rfl hm
  · split at h
    · split at h
      · simp only [Except.ok.injEq] at h
        exact h ▸ hopaque
      · simp only [Except.ok.injEq] at h
        rw [← h]
        trivial
    · simp only [Except.ok.injEq] at h
      exact h ▸ hopaque

theorem literal_key_of_buffer {m : Medium} {k : Key} {v held : Node} (hk : k.Literal v)
    (h : buffer m v = .ok held) : k.Literal held := by
  cases k with
  | other => cases v <;> simp_all [Key.Literal, buffer]
  | _ => exact hk

mutual

theorem literal_buffer {m : Medium} (hm : m ≠ .value) : ∀ {node held : Node}, node.Literal →
    buffer m node = .ok held → held.Literal
  | .null, held, _, h => by simp only [buffer, Except.ok.injEq] at h; rw [← h]; trivial
  | .bool _, held, _, h => by simp only [buffer, Except.ok.injEq] at h; rw [← h]; trivial
  | .int i, held, _, h => by
    rw [buffer] at h
    split at h
    · simp at h
    · simp only [Except.ok.injEq] at h
      rw [← h]
      trivial
  | .num n, held, _, h => literal_bufferNumber hm h
  | .text _, held, _, h => by simp only [buffer, Except.ok.injEq] at h; rw [← h]; trivial
  | .seq vs, held, hvs, h => by
    rw [buffer] at h
    obtain ⟨vs', hvs', rfl⟩ := except_map_eq_ok h
    exact literal_bufferItems hm hvs hvs'
  | .map es, held, hes, h => by
    rw [buffer] at h
    obtain ⟨es', hes', rfl⟩ := except_map_eq_ok h
    exact literal_bufferEntries hm hes hes'
  | .unreadable, _, _, h => by simp [buffer] at h
  | .deep _, _, _, h => by simp [buffer] at h
  | .broken, _, _, h => by simp [buffer] at h
  | .absent, _, hnode, _ => hnode.elim
  | .float _, _, hnode, _ => hnode.elim
  | .bytes _, _, hnode, _ => hnode.elim

theorem literal_bufferItems {m : Medium} (hm : m ≠ .value) : ∀ {vs held : List Node},
    LiteralItems vs → bufferItems m vs = .ok held → LiteralItems held
  | [], held, _, h => by simp only [bufferItems, Except.ok.injEq] at h; rw [← h]; trivial
  | v :: vs, held, hvs, h => by
    rw [bufferItems] at h
    split at h
    · simp at h
    · rename_i v' hv'
      obtain ⟨vs', hvs', rfl⟩ := except_map_eq_ok h
      exact ⟨literal_buffer hm hvs.1 hv', literal_bufferItems hm hvs.2 hvs'⟩

theorem literal_bufferEntries {m : Medium} (hm : m ≠ .value) : ∀ {es held : List (Key × Node)},
    LiteralEntries es → bufferEntries m es = .ok held → LiteralEntries held
  | [], held, _, h => by simp only [bufferEntries, Except.ok.injEq] at h; rw [← h]; trivial
  | (k, v) :: es, held, hes, h => by
    rw [bufferEntries] at h
    split at h
    · simp at h
    · split at h
      · simp at h
      · rename_i v' hv'
        obtain ⟨es', hes', rfl⟩ := except_map_eq_ok h
        refine ⟨?_, literal_buffer hm hes.2.1 hv', literal_bufferEntries hm hes.2.2 hes'⟩
        exact literal_key_of_buffer hes.1 hv'

end

/-! ### Untyped values held back -/

theorem json_opaqueNumber {m : Medium} {n : Number} (hn : n.Valid) :
    json m (opaqueNumber n) = .ok (.num n) := by
  simp [opaqueNumber, json, numberOfSpelling, Number.ofText?_chars hn]

theorem json_of_bufferNumber {m : Medium} (hm : m ≠ .value) {n : Number} (hn : n.Valid)
    {held : Node} (h : bufferNumber m n = .ok held) : ∃ w, json .buffered held = .ok w := by
  unfold bufferNumber at h
  split at h
  · exact absurd rfl hm
  · split at h
    · rename_i i _
      split at h
      · exact ⟨_, Except.ok.inj h ▸ json_opaqueNumber hn⟩
      · exact ⟨.num (Number.ofInt i), by simp [← Except.ok.inj h, json]⟩
    · exact ⟨_, Except.ok.inj h ▸ json_opaqueNumber hn⟩

mutual

theorem json_of_buffer {m : Medium} (hm : m ≠ .value) : ∀ {node held : Node}, node.Literal →
    node.hasKey numberKey = false → buffer m node = .ok held → ∃ w, json .buffered held = .ok w
  | .null, held, _, _, h => ⟨.null, by simp [← Except.ok.inj h, json]⟩
  | .bool b, held, _, _, h => ⟨.bool b, by simp [← Except.ok.inj h, json]⟩
  | .int i, held, _, _, h => by
    rw [buffer] at h
    split at h
    · simp at h
    · exact ⟨.num (Number.ofInt i), by simp [← Except.ok.inj h, json]⟩
  | .num n, held, hn, _, h => json_of_bufferNumber hm hn h
  | .text s, held, _, _, h => ⟨.str s, by simp [← Except.ok.inj h, json]⟩
  | .seq vs, held, hvs, hkey, h => by
    rw [buffer] at h
    obtain ⟨vs', hvs', rfl⟩ := except_map_eq_ok h
    obtain ⟨ws, hws⟩ := json_of_bufferItems hm hvs hkey hvs'
    exact ⟨.arr ws, by rw [json, hws]; rfl⟩
  | .map [], held, _, _, h => ⟨.obj [], by simp [← Except.ok.inj h, json]⟩
  | .map ((.name s, v) :: es), held, hes, hkey, h => by
    rw [buffer] at h
    obtain ⟨held', hheld', rfl⟩ := except_map_eq_ok h
    simp only [hasKey, hasKeyEntries, Bool.or_eq_false_iff] at hkey
    rw [bufferEntries] at hheld'
    split at hheld'
    · simp at hheld'
    · split at hheld'
      · simp at hheld'
      · rename_i v' hv'
        obtain ⟨es', hes', rfl⟩ := except_map_eq_ok hheld'
        obtain ⟨w, hw⟩ := json_of_buffer hm hes.2.1 hkey.1.2 hv'
        obtain ⟨fs, hfs⟩ := json_of_bufferEntries hm hes.2.2 hkey.2 hes' [(s, w)]
        have hs : s ≠ numberKey := by simpa using hkey.1.1
        exact ⟨.obj fs, by simp [json, hs, hw, hfs, Except.map]⟩
  | .map ((.unreadable, v) :: es), held, _, _, h => by simp [buffer, bufferEntries, Except.map] at h
  | .map ((.other, v) :: es), held, hes, _, h => by
    cases v <;> simp_all [buffer, bufferEntries, Except.map, Literal, LiteralEntries, Key.Literal]
  | .map ((.index _, _) :: _), _, hes, _, _ => hes.1.elim
  | .map ((.bytes _, _) :: _), _, hes, _, _ => hes.1.elim
  | .unreadable, _, _, _, h => by simp [buffer] at h
  | .deep _, _, _, _, h => by simp [buffer] at h
  | .broken, _, _, _, h => by simp [buffer] at h
  | .absent, _, hnode, _, _ => hnode.elim
  | .float _, _, hnode, _, _ => hnode.elim
  | .bytes _, _, hnode, _, _ => hnode.elim

theorem json_of_bufferItems {m : Medium} (hm : m ≠ .value) : ∀ {vs held : List Node},
    LiteralItems vs → hasKeyItems numberKey vs = false → bufferItems m vs = .ok held →
      ∃ ws, jsonItems .buffered held = .ok ws
  | [], held, _, _, h => ⟨[], by simp [← Except.ok.inj h, jsonItems]⟩
  | v :: vs, held, hvs, hkey, h => by
    simp only [hasKeyItems, Bool.or_eq_false_iff] at hkey
    rw [bufferItems] at h
    split at h
    · simp at h
    · rename_i v' hv'
      obtain ⟨vs', hvs', rfl⟩ := except_map_eq_ok h
      obtain ⟨w, hw⟩ := json_of_buffer hm hvs.1 hkey.1 hv'
      obtain ⟨ws, hws⟩ := json_of_bufferItems hm hvs.2 hkey.2 hvs'
      exact ⟨w :: ws, by simp [jsonItems, hw, hws, Except.map]⟩

theorem json_of_bufferEntries {m : Medium} (hm : m ≠ .value) : ∀ {es held : List (Key × Node)},
    LiteralEntries es → hasKeyEntries numberKey es = false → bufferEntries m es = .ok held →
      ∀ fs : Entries Json, ∃ gs, jsonEntries .buffered fs held = .ok gs
  | [], held, _, _, h, fs => ⟨fs, by simp [← Except.ok.inj h, jsonEntries]⟩
  | (.name s, v) :: es, held, hes, hkey, h, fs => by
    simp only [hasKeyEntries, Bool.or_eq_false_iff] at hkey
    rw [bufferEntries] at h
    split at h
    · simp at h
    · split at h
      · simp at h
      · rename_i v' hv'
        obtain ⟨es', hes', rfl⟩ := except_map_eq_ok h
        obtain ⟨w, hw⟩ := json_of_buffer hm hes.2.1 hkey.1.2 hv'
        obtain ⟨gs, hgs⟩ := json_of_bufferEntries hm hes.2.2 hkey.2 hes' (fs.put s w)
        exact ⟨gs, by simp [jsonEntries, hw, hgs]⟩
  | (.unreadable, v) :: es, held, _, _, h, _ => by simp [bufferEntries] at h
  | (.other, v) :: es, held, hes, _, h, _ => by
    cases v <;> simp_all [buffer, bufferEntries, LiteralEntries, Key.Literal]
  | (.index _, _) :: _, _, hes, _, _, _ => hes.1.elim
  | (.bytes _, _) :: _, _, hes, _, _, _ => hes.1.elim

end

/-! ### Distinct names -/

variable {α : Type} {m : Medium} {d : Decoder α}

theorem entriesFrom_ofEntries_iff {es : Entries Node} {before after : Entries α}
    (hkeys : (before.keys ++ es.keys).Nodup) :
    entriesFrom d m before (es.map fun e => (.name e.1, e.2)) = .ok after ↔
      ∃ xs, after = before ++ xs ∧ es.Related (fun v x => d m v = .ok x) xs := by
  induction es generalizing before with
  | nil =>
    simp [entriesFrom, eq_comm, Entries.Related]
  | cons e es ih =>
    have hk : e.1 ∉ before.keys := by
      rw [List.nodup_append] at hkeys
      exact fun hmem => hkeys.2.2 e.1 hmem e.1 (by simp) rfl
    simp only [List.map_cons, entriesFrom, keyText, bind, Except.bind]
    rcases hx : d m e.2 with err | x
    · simp only [reduceCtorEq, false_iff, not_exists, not_and]
      rintro xs - hxs
      cases hxs with
      | cons hhead _ => simp [hx] at hhead
    · simp only [Entries.put_of_not_mem hk]
      rw [ih (by simpa using hkeys)]
      constructor
      · rintro ⟨xs, rfl, hxs⟩
        exact ⟨(e.1, x) :: xs, by simp, .cons ⟨rfl, hx⟩ hxs⟩
      · rintro ⟨_ | ⟨⟨k, y⟩, xs⟩, rfl, hxs⟩
        · cases hxs
        · obtain ⟨⟨rfl, hy⟩, hrest⟩ := List.forall₂_cons.mp hxs
          obtain rfl := Except.ok.inj (hx.symm.trans hy)
          exact ⟨xs, by simp, hrest⟩

theorem entries_ofEntries_iff {es : Entries Node} {xs : Entries α} (hkeys : es.keys.Nodup) :
    entries d m (ofEntries es) = .ok xs ↔ es.Related (fun v x => d m v = .ok x) xs := by
  rw [ofEntries, entries, entriesFrom_ofEntries_iff (by simpa using hkeys)]
  simp

theorem entries_of_named {β : Type} {es : Entries β} {w : String × β → Node}
    {g : String × β → α} (hread : ∀ e ∈ es, d m (w e) = .ok (g e)) (hkeys : es.keys.Nodup) :
    entries d m (.map (es.map fun e => (.name e.1, w e))) = .ok (es.map fun e => (e.1, g e)) := by
  have hnamed : ofEntries (es.map fun e => (e.1, w e)) = .map (es.map fun e => (.name e.1, w e)) := by
    simp [ofEntries]
  have hkeys' : Entries.keys (es.map fun e => (e.1, w e)) = es.keys := by simp [Entries.keys]
  rw [← hnamed, entries_ofEntries_iff (hkeys' ▸ hkeys)]
  exact Entries.related_map fun e he => ⟨rfl, hread e he⟩

theorem bufferEntries_ofEntries_iff {es : Entries Node} {held : List (Key × Node)} :
    bufferEntries m (es.map fun e => (.name e.1, e.2)) = .ok held ↔
      ∃ hs : Entries Node, held = (hs.map fun e => (.name e.1, e.2)) ∧
        es.Related (fun v h => buffer m v = .ok h) hs := by
  induction es generalizing held with
  | nil => simp [bufferEntries, eq_comm, Entries.Related]
  | cons e es ih =>
    simp only [List.map_cons, bufferEntries, reduceCtorEq, if_false]
    rcases hv : buffer m e.2 with err | v
    · simp only [reduceCtorEq, false_iff, not_exists, not_and]
      rintro hs - hhs
      cases hhs with
      | cons hhead _ => simp [hv] at hhead
    · constructor
      · intro h
        obtain ⟨held', hheld', rfl⟩ := except_map_eq_ok h
        obtain ⟨hs, rfl, hhs⟩ := ih.mp hheld'
        exact ⟨(e.1, v) :: hs, rfl, .cons ⟨rfl, hv⟩ hhs⟩
      · rintro ⟨_ | ⟨⟨k, v'⟩, hs⟩, rfl, hhs⟩
        · cases hhs
        · obtain ⟨⟨rfl, hv'⟩, hrest⟩ := List.forall₂_cons.mp hhs
          obtain rfl := Except.ok.inj (hv.symm.trans hv')
          simp only [ih.mpr ⟨hs, rfl, hrest⟩, Except.map, List.map_cons]

theorem buffer_ofEntries_iff {es : Entries Node} {held : Node} :
    buffer m (ofEntries es) = .ok held ↔
      ∃ hs, held = ofEntries hs ∧ es.Related (fun v h => buffer m v = .ok h) hs := by
  rw [ofEntries, buffer]
  constructor
  · intro h
    obtain ⟨held', hheld', rfl⟩ := except_map_eq_ok h
    obtain ⟨hs, rfl, hhs⟩ := bufferEntries_ofEntries_iff.mp hheld'
    exact ⟨hs, rfl, hhs⟩
  · rintro ⟨hs, rfl, hhs⟩
    rw [bufferEntries_ofEntries_iff.mpr ⟨hs, rfl, hhs⟩]
    rfl

theorem entries_buffer_iff {es : Entries Node} {xs : Entries α} (hkeys : es.keys.Nodup) :
    (∃ held, buffer m (ofEntries es) = .ok held ∧ entries d .buffered held = .ok xs) ↔
      es.Related (fun v x => ∃ held, buffer m v = .ok held ∧ d .buffered held = .ok x) xs := by
  rw [Entries.related_comp_iff]
  constructor
  · rintro ⟨held, hheld, hxs⟩
    obtain ⟨hs, rfl, hhs⟩ := buffer_ofEntries_iff.mp hheld
    exact ⟨hs, hhs, (entries_ofEntries_iff (hhs.keys_eq ▸ hkeys)).mp hxs⟩
  · rintro ⟨hs, hhs, hxs⟩
    exact ⟨ofEntries hs, buffer_ofEntries_iff.mpr ⟨hs, rfl, hhs⟩,
      (entries_ofEntries_iff (hhs.keys_eq ▸ hkeys)).mpr hxs⟩

end Read

end FrameScope
