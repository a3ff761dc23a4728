import FrameScope.Proofs.Json.Literal
import FrameScope.Proofs.Node.Kept

/-!
# Untyped values of texts held back

Where the number key does not stand in a text, holding a part of it back and reading an untyped value
from that is the same as reading the value at once (`Read.json_held_iff`), whatever the numbers in
it are and however often a name is repeated. A map of names is read into the fields of that value
(`Read.entries_heldMap_iff`).
-/

namespace FrameScope.Read

open Node

variable {m : Medium}

/-! ### Held back and at once -/

mutual

/-- **An untyped value is read from what is held back of a text exactly when it is read from the text
itself.** -/
theorem json_held_iff : ∀ {node : Node} {level : Nat} {w : Json}, node.Textual level →
    node.hasKey numberKey = false →
      ((∃ held, buffer .text node = .ok held ∧ json .buffered held = .ok w) ↔
        json .text node = .ok w)
  | .null, _, _, _, _ => by simp [buffer, json]
  | .bool _, _, _, _, _ => by simp [buffer, json]
  | .text _, _, _, _, _ => by simp [buffer, json]
  | .num n, _, _, hn, _ => by
    have hread := json_keptNumber (m := .buffered) hn
    simp [buffer, bufferNumber_eq_kept (m := .text) (by decide) n, hread, json, jsonOfNumber]
  | .seq vs, _, w, hvs, hkey => by
    rw [buffer, json, exists_map_eq_ok_and, except_map_eq_ok_iff]
    simp only [json, except_map_eq_ok_iff, ← json_heldItems_iff hvs.2 hkey]
    constructor
    · rintro ⟨hs, hhs, ws, hws, rfl⟩
      exact ⟨ws, ⟨hs, hhs, hws⟩, rfl⟩
    · rintro ⟨ws, ⟨hs, hhs, hws⟩, rfl⟩
      exact ⟨hs, hhs, ws, hws, rfl⟩
  | .map [], _, _, _, _ => by simp [buffer, bufferEntries, json, Except.map]
  | .map ((.name k, v) :: es), _, w, hes, hkey => by
    simp only [hasKey, hasKeyEntries, Bool.or_eq_false_iff] at hkey
    have hk : k ≠ numberKey := by simpa using hkey.1.1
    rw [buffer, exists_map_eq_ok_and, json_map_cons_eq_ok hk]
    constructor
    · rintro ⟨hs, hhs, hw⟩
      obtain ⟨y, ys, hy, hys, rfl⟩ := bufferEntries_cons_eq_ok.mp hhs
      obtain ⟨x, gs, hx, hgs, rfl⟩ := (json_map_cons_eq_ok hk).mp hw
      exact ⟨x, gs, (json_held_iff hes.2.2.1 hkey.1.2).mp ⟨y, hy, hx⟩,
        (json_heldEntries_iff hes.2.2.2 hkey.2).mp ⟨ys, hys, hgs⟩, rfl⟩
    · rintro ⟨x, gs, hx, hgs, rfl⟩
      obtain ⟨y, hy, hx'⟩ := (json_held_iff hes.2.2.1 hkey.1.2).mpr hx
      obtain ⟨ys, hys, hgs'⟩ := (json_heldEntries_iff hes.2.2.2 hkey.2).mpr hgs
      exact ⟨_, bufferEntries_cons_eq_ok.mpr ⟨y, ys, hy, hys, rfl⟩,
        (json_map_cons_eq_ok hk).mpr ⟨x, gs, hx', hgs', rfl⟩⟩
  | .map ((.unreadable, _) :: _), _, _, _, _ => by simp [buffer, bufferEntries, json, Except.map]
  | .map ((.other, v) :: _), _, _, hes, _ => by
    have hbroken := hes.2.1
    cases v <;> simp_all [Key.Literal, buffer, bufferEntries, json, Except.map]
  | .map ((.index _, _) :: _), _, _, hes, _ => hes.2.1.elim
  | .map ((.bytes _, _) :: _), _, _, hes, _ => hes.2.1.elim
  | .unreadable, _, _, _, _ => by simp [buffer, json]
  | .deep _, _, _, _, _ => by simp [buffer, json]
  | .broken, _, _, _, _ => by simp [buffer, json]
  | .absent, _, _, h, _ => h.elim
  | .int _, _, _, h, _ => h.elim
  | .float _, _, _, h, _ => h.elim
  | .bytes _, _, _, h, _ => h.elim

theorem json_heldItems_iff : ∀ {vs : List Node} {level : Nat} {ws : List Json},
    TextualItems level vs → hasKeyItems numberKey vs = false →
      ((∃ hs, bufferItems .text vs = .ok hs ∧ jsonItems .buffered hs = .ok ws) ↔
        jsonItems .text vs = .ok ws)
  | [], _, _, _, _ => by simp [bufferItems, jsonItems]
  | v :: vs, _, ws, hvs, hkey => by
    simp only [hasKeyItems, Bool.or_eq_false_iff] at hkey
    rw [jsonItems_cons_eq_ok]
    constructor
    · rintro ⟨hs, hhs, hws⟩
      obtain ⟨y, ys, hy, hys, rfl⟩ := bufferItems_cons_eq_ok.mp hhs
      obtain ⟨x, xs, hx, hxs, rfl⟩ := jsonItems_cons_eq_ok.mp hws
      exact ⟨x, xs, (json_held_iff hvs.1 hkey.1).mp ⟨y, hy, hx⟩,
        (json_heldItems_iff hvs.2 hkey.2).mp ⟨ys, hys, hxs⟩, rfl⟩
    · rintro ⟨x, xs, hx, hxs, rfl⟩
      obtain ⟨y, hy, hx'⟩ := (json_held_iff hvs.1 hkey.1).mpr hx
      obtain ⟨ys, hys, hxs'⟩ := (json_heldItems_iff hvs.2 hkey.2).mpr hxs
      exact ⟨_, bufferItems_cons_eq_ok.mpr ⟨y, ys, hy, hys, rfl⟩,
        jsonItems_cons_eq_ok.mpr ⟨x, xs, hx', hxs', rfl⟩⟩

theorem json_heldEntries_iff : ∀ {es : List (Key × Node)} {level : Nat} {fs gs : Entries Json},
    TextualEntries level es → hasKeyEntries numberKey es = false →
      ((∃ hs, bufferEntries .text es = .ok hs ∧ jsonEntries .buffered fs hs = .ok gs) ↔
        jsonEntries .text fs es = .ok gs)
  | [], _, _, _, _, _ => by simp [bufferEntries, jsonEntries]
  | (.name k, v) :: es, _, fs, gs, hes, hkey => by
    simp only [hasKeyEntries, Bool.or_eq_false_iff] at hkey
    rw [jsonEntries_cons_eq_ok]
    constructor
    · rintro ⟨hs, hhs, hgs⟩
      obtain ⟨y, ys, hy, hys, rfl⟩ := bufferEntries_cons_eq_ok.mp hhs
      obtain ⟨x, hx, hgs⟩ := jsonEntries_cons_eq_ok.mp hgs
      exact ⟨x, (json_held_iff hes.2.1 hkey.1.2).mp ⟨y, hy, hx⟩,
        (json_heldEntries_iff hes.2.2 hkey.2).mp ⟨ys, hys, hgs⟩⟩
    · rintro ⟨x, hx, hgs⟩
      obtain ⟨y, hy, hx'⟩ := (json_held_iff hes.2.1 hkey.1.2).mpr hx
      obtain ⟨ys, hys, hgs'⟩ := (json_heldEntries_iff hes.2.2 hkey.2).mpr hgs
      exact ⟨_, bufferEntries_cons_eq_ok.mpr ⟨y, ys, hy, hys, rfl⟩,
        jsonEntries_cons_eq_ok.mpr ⟨x, hx', hgs'⟩⟩
  | (.unreadable, _) :: _, _, _, _, _, _ => by simp [bufferEntries, jsonEntries]
  | (.other, v) :: _, _, _, _, hes, _ => by
    have hbroken := hes.1
    cases v <;> simp_all [Key.Literal, buffer, bufferEntries, jsonEntries]
  | (.index _, _) :: _, _, _, _, hes, _ => hes.1.elim
  | (.bytes _, _) :: _, _, _, _, hes, _ => hes.1.elim

end

theorem exists_buffer_of_json {node : Node} {level : Nat} {w : Json} (htextual : node.Textual level)
    (hkey : node.hasKey numberKey = false) (hw : json .text node = .ok w) :
    ∃ held, buffer .text node = .ok held := by
  obtain ⟨held, hheld, -⟩ := (json_held_iff htextual hkey).mpr hw
  exact ⟨held, hheld⟩

/-! ### Items and texts -/

theorem items_eq_ok_iff {α : Type} {d : Decoder α} {vs : List Node} {xs : List α} :
    items d m vs = .ok xs ↔ List.Forall₂ (fun v x => d m v = .ok x) vs xs := by
  induction vs generalizing xs with
  | nil => simp [items, eq_comm]
  | cons v vs ih =>
    simp only [List.forall₂_cons_left_iff, ← ih, items]
    cases d m v <;> cases items d m vs <;> simp [bind, Except.bind, eq_comm]

theorem jsonItems_eq_ok_iff {vs : List Node} {ws : List Json} :
    jsonItems m vs = .ok ws ↔ List.Forall₂ (fun v w => json m v = .ok w) vs ws := by
  induction vs generalizing ws with
  | nil => simp [jsonItems, eq_comm]
  | cons v vs ih => simp only [jsonItems_cons_eq_ok, List.forall₂_cons_left_iff, ih]

theorem text_eq_ok_iff {node : Node} (hnode : node.Literal) {s : String} :
    text m node = .ok s ↔ node = .text s := by
  cases node with
  | bytes b => exact hnode.elim
  | _ => simp [text]

/-! ### Maps of names to untyped values -/

theorem entriesFrom_json_iff {es : List (Key × Node)} {fs gs : Entries Json}
    (hes : ∀ e ∈ es, e.1.Literal e.2) :
    entriesFrom json m fs es = .ok gs ↔ jsonEntries m fs es = .ok gs := by
  induction es generalizing fs with
  | nil => rw [entriesFrom, jsonEntries]
  | cons e es ih =>
    obtain ⟨key, v⟩ := e
    obtain ⟨hkey, hrest⟩ := List.forall_mem_cons.mp hes
    cases key with
    | name k =>
      rw [jsonEntries_cons_eq_ok]
      simp only [entriesFrom, keyText, bind, Except.bind]
      cases json m v <;> simp [ih hrest]
    | index _ => exact hkey.elim
    | bytes _ => exact hkey.elim
    | _ => simp [entriesFrom, keyText, jsonEntries, bind, Except.bind]

theorem json_map_eq_ok_iff {es : List (Key × Node)}
    (hhead : (es.map Prod.fst).head? ≠ some (.name numberKey)) {w : Json} :
    json m (.map es) = .ok w ↔ ∃ fs, jsonEntries m [] es = .ok fs ∧ w = .obj fs := by
  match es, hhead with
  | [], _ => simp [jsonEntries, json, eq_comm]
  | (.name k, v) :: es, hhead =>
    have hk : k ≠ numberKey := by simpa using hhead
    simp only [json_map_cons_eq_ok hk, jsonEntries_cons_eq_ok, Entries.put]
    constructor
    · rintro ⟨x, gs, hx, hgs, rfl⟩
      exact ⟨gs, ⟨x, hx, hgs⟩, rfl⟩
    · rintro ⟨gs, ⟨x, hx, hgs⟩, rfl⟩
      exact ⟨x, gs, hx, hgs, rfl⟩
  | (.unreadable, _) :: _, _ => simp [jsonEntries, json]
  | (.other, _) :: _, _ => simp [jsonEntries, json]
  | (.index _, _) :: _, _ => simp [jsonEntries, json]
  | (.bytes _, _) :: _, _ => simp [jsonEntries, json]

theorem entries_json_iff {es : List (Key × Node)} {fs : Entries Json}
    (hhead : (es.map Prod.fst).head? ≠ some (.name numberKey))
    (hes : ∀ e ∈ es, e.1.Literal e.2) :
    entries json m (.map es) = .ok fs ↔ json m (.map es) = .ok (.obj fs) := by
  rw [entries, entriesFrom_json_iff hes, json_map_eq_ok_iff hhead]
  simp

theorem head?_ne_numberKey {es : List (Key × Node)} (hkey : hasKeyEntries numberKey es = false) :
    (es.map Prod.fst).head? ≠ some (.name numberKey) := by
  cases es with
  | nil => simp
  | cons e es =>
    simp only [hasKeyEntries, Bool.or_eq_false_iff] at hkey
    simpa using hkey.1.1

/-- **An object held back is read as a map of untyped values exactly when it is an untyped value, and
then the map has that value's fields.** -/
theorem entries_heldMap_iff {es : List (Key × Node)} {level : Nat} {fs : Entries Json}
    (htextual : (map es).Textual level) (hkey : (map es).hasKey numberKey = false) :
    (∃ held, buffer .text (.map es) = .ok held ∧ entries json .buffered held = .ok fs) ↔
      json .text (.map es) = .ok (.obj fs) := by
  have hliteral {hs : List (Key × Node)} (hhs : bufferEntries .text es = .ok hs) :
      ∀ e ∈ hs, e.1.Literal e.2 := fun e he =>
    (literal_map.mp (literal_bufferEntries (by decide) htextual.literal hhs) e he).1
  rw [hasKey] at hkey
  rw [buffer, exists_map_eq_ok_and, json_map_eq_ok_iff (head?_ne_numberKey hkey)]
  simp only [entries, Json.obj.injEq, exists_eq_right', ← json_heldEntries_iff htextual.2 hkey]
  constructor
  · rintro ⟨hs, hhs, hfs⟩
    exact ⟨hs, hhs, (entriesFrom_json_iff (hliteral hhs)).mp hfs⟩
  · rintro ⟨hs, hhs, hfs⟩
    exact ⟨hs, hhs, (entriesFrom_json_iff (hliteral hhs)).mpr hfs⟩

/-! ### Kinds -/

theorem obj_or_num_of_json_map {es : List (Key × Node)} {w : Json} (h : json m (.map es) = .ok w) :
    (∃ fs, w = .obj fs) ∨ ∃ n, w = .num n := by
  match es, h with
  | [], h => exact .inl ⟨[], by simpa [json, eq_comm] using h⟩
  | (.name k, v) :: es, h =>
    by_cases hk : k = numberKey
    · rw [json] at h
      simp only [if_pos hk] at h
      split at h
      · simp at h
      · rename_i n _
        split at h
        · exact .inr ⟨n, (Except.ok.inj h).symm⟩
        · simp at h
    · obtain ⟨_, fs, -, -, rfl⟩ := (json_map_cons_eq_ok hk).mp h
      exact .inl ⟨fs, rfl⟩
  | (.index _, _) :: _, h => simp [json] at h
  | (.bytes _, _) :: _, h => simp [json] at h
  | (.other, _) :: _, h => simp [json] at h
  | (.unreadable, _) :: _, h => simp [json] at h

theorem exists_jsonOfNumber (m : Medium) (n : Number) : ∃ n', jsonOfNumber m n = .num n' := by
  cases m with
  | value =>
    rw [jsonOfNumber]
    split <;> exact ⟨_, rfl⟩
  | _ => exact ⟨n, rfl⟩

/-- What kind of document strings, arrays and objects are read from. -/
def KindOf (m : Medium) (node : Node) : Json → Prop
  | .str s => node = .text s
  | .arr ws => ∃ vs, node = .seq vs ∧ jsonItems m vs = .ok ws
  | .obj _ => ∃ es, node = .map es
  | _ => True

theorem kindOf_of_json {node : Node} {w : Json} (h : json m node = .ok w) : KindOf m node w := by
  cases node with
  | text s =>
    rw [json] at h
    exact Except.ok.inj h ▸ rfl
  | seq vs =>
    rw [json] at h
    obtain ⟨ws, hws, rfl⟩ := except_map_eq_ok h
    exact ⟨vs, rfl, hws⟩
  | map es =>
    obtain ⟨fs, rfl⟩ | ⟨n, rfl⟩ := obj_or_num_of_json_map h
    · exact ⟨es, rfl⟩
    · trivial
  | num n =>
    obtain ⟨n', hn'⟩ := exists_jsonOfNumber m n
    rw [json, hn'] at h
    exact Except.ok.inj h ▸ trivial
  | float x =>
    rw [json] at h
    split at h <;> exact Except.ok.inj h ▸ trivial
  | _ =>
    simp only [json, Except.ok.injEq, reduceCtorEq] at h
    all_goals exact h ▸ trivial

end FrameScope.Read
