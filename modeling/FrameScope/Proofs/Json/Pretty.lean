import FrameScope.Proofs.Json.Written
import FrameScope.Proofs.Node.Form

/-!
# Indented texts

The text of a sound value on several lines is read back as the value (`decode_pretty`) exactly when
no more containers stand in one another than may be open at once; `Json.nesting` counts them.
-/

namespace FrameScope

/-! ### The text on several lines -/

namespace Json

theorem blank_newline (indent : Nat) : JsonText.Blank (newline indent) := by
  simp [JsonText.Blank, newline, JsonText.skipBlanks, JsonText.isBlank]

mutual

theorem written_pretty : ∀ {v : Json}, v.Valid → ∀ indent, Written v (v.prettyChars indent)
  | .null, _, _ => .null
  | .bool true, _, _ => .true
  | .bool false, _, _ => .false
  | .num _, hn, _ => .num hn
  | .str s, _, _ => .str s
  | .arr [], _, _ => @Written.noItems [] rfl
  | .arr (v :: vs), hvs, indent => by
    rw [prettyChars, List.append_assoc (newline _)]
    exact .items (written_prettyItems (List.cons_ne_nil v vs) hvs _ (blank_newline _)
      (blank_newline _))
  | .obj [], _, _ => @Written.noFields [] rfl
  | .obj (f :: fs), hfs, indent => by
    rw [prettyChars, List.append_assoc (newline _)]
    exact .fields (written_prettyFields (List.cons_ne_nil f fs) hfs _ (blank_newline _)
      (blank_newline _))

theorem written_prettyItems : ∀ {vs : List Json}, vs ≠ [] → ValidItems vs → ∀ indent
    {before after : List Char}, JsonText.Blank before → JsonText.Blank after →
    WrittenItems vs (before ++ (prettyItems indent vs ++ after))
  | [], hne, _, _, _, _, _, _ => absurd rfl hne
  | [v], _, hvs, indent, _, _, hbefore, hafter =>
    .last hbefore (written_pretty hvs.1 indent) hafter
  | v :: w :: vs, _, hvs, indent, _, after, hbefore, hafter => by
    have hrest := written_prettyItems (List.cons_ne_nil w vs) hvs.2 indent (blank_newline indent)
      hafter
    have hnext := @WrittenItems.next v (w :: vs) _ _ [] _ hbefore (written_pretty hvs.1 indent) rfl
      hrest
    simpa [prettyItems] using hnext

theorem written_prettyFields : ∀ {fs : List (String × Json)}, fs ≠ [] → ValidFields fs → ∀ indent
    {before after : List Char}, JsonText.Blank before → JsonText.Blank after →
    WrittenFields fs (before ++ (prettyFields indent fs ++ after))
  | [], hne, _, _, _, _, _, _ => absurd rfl hne
  | [(k, v)], _, hfs, indent, _, after, hbefore, hafter => by
    have hlast := @WrittenFields.last k v _ [] [' '] _ _ hbefore rfl rfl
      (written_pretty hfs.1 indent) hafter
    simpa [prettyFields] using hlast
  | (k, v) :: f :: fs, _, hfs, indent, _, after, hbefore, hafter => by
    have hrest := written_prettyFields (List.cons_ne_nil f fs) hfs.2 indent (blank_newline indent)
      hafter
    have hnext := @WrittenFields.next k v (f :: fs) _ [] [' '] _ [] _ hbefore rfl rfl
      (written_pretty hfs.1 indent) rfl hrest
    simpa [prettyFields] using hnext

end

end Json

/-! ### Nesting -/

namespace Json

mutual

/-- How many containers stand in one another. -/
def nesting : Json → Nat
  | .arr vs => nestingItems vs + 1
  | .obj fs => nestingFields fs + 1
  | _ => 0

def nestingItems : List Json → Nat
  | [] => 0
  | v :: vs => max (nesting v) (nestingItems vs)

def nestingFields : List (String × Json) → Nat
  | [] => 0
  | (_, v) :: fs => max (nesting v) (nestingFields fs)

end

theorem nestingItems_le_iff {vs : List Json} {level : Nat} :
    nestingItems vs ≤ level ↔ ∀ v ∈ vs, v.nesting ≤ level := by
  induction vs with
  | nil => simp [nestingItems]
  | cons v vs ih => rw [nestingItems, Nat.max_le, ih, List.forall_mem_cons]

theorem nestingFields_le_iff {fs : Entries Json} {level : Nat} :
    nestingFields fs ≤ level ↔ ∀ f ∈ fs, f.2.nesting ≤ level := by
  induction fs with
  | nil => simp [nestingFields]
  | cons f fs ih => rw [nestingFields, Nat.max_le, ih, List.forall_mem_cons]

end Json

namespace JsonText

open Json Node

mutual

theorem treeOf_of_le : ∀ {v : Json} {level : Nat}, v.nesting ≤ level → treeOf level v = ofJson v
  | .null, _, _ => rfl
  | .bool _, _, _ => rfl
  | .num _, _, _ => rfl
  | .str _, _, _ => rfl
  | .arr vs, level, h => by
    rw [Json.nesting] at h
    rw [treeOf, treeItems_of_le (by omega), atLevel, if_neg (by omega), ofJson]
  | .obj fs, level, h => by
    rw [Json.nesting] at h
    rw [treeOf, treeFields_of_le (by omega), atLevel, if_neg (by omega), ofJson]

theorem treeItems_of_le : ∀ {vs : List Json} {level : Nat}, Json.nestingItems vs ≤ level →
    treeItems level vs = ofJsonItems vs
  | [], _, _ => rfl
  | v :: vs, level, h => by
    obtain ⟨hv, hvs⟩ := Nat.max_le.mp h
    rw [treeItems, treeOf_of_le hv, treeItems_of_le hvs, ofJsonItems]

theorem treeFields_of_le : ∀ {fs : List (String × Json)} {level : Nat}, Json.nestingFields fs ≤ level →
    treeFields level fs = ofJsonFields fs
  | [], _, _ => rfl
  | (k, v) :: fs, level, h => by
    obtain ⟨hv, hfs⟩ := Nat.max_le.mp h
    rw [treeFields, treeOf_of_le hv, treeFields_of_le hfs, ofJsonFields]

end

mutual

theorem not_json_treeOf : ∀ {v : Json} {level : Nat}, v.Sound → level < v.nesting →
    ∀ w, Read.json .text (treeOf level v) ≠ .ok w
  | .null, _, _, h, _ => absurd h (Nat.not_lt_zero _)
  | .bool _, _, _, h, _ => absurd h (Nat.not_lt_zero _)
  | .num _, _, _, h, _ => absurd h (Nat.not_lt_zero _)
  | .str _, _, _, h, _ => absurd h (Nat.not_lt_zero _)
  | .arr vs, 0, _, _, _ => by simp [treeOf, atLevel, Read.json]
  | .arr vs, level + 1, hvs, h, w => by
    rw [Json.nesting] at h
    intro hw
    rw [treeOf, atLevel, if_neg (by simp), Read.json] at hw
    obtain ⟨ws, hws, -⟩ := except_map_eq_ok hw
    exact not_jsonItems_treeItems hvs (by omega) ws hws
  | .obj [], level, _, h, w => by
    obtain rfl : level = 0 := by simpa [Json.nesting, Json.nestingFields] using h
    simp [treeOf, atLevel, Read.json]
  | .obj ((k, v) :: fs), 0, _, _, _ => by simp [treeOf, atLevel, Read.json]
  | .obj ((k, v) :: fs), level + 1, hfs, h, w => by
    have hk : k ≠ Read.numberKey := by simpa using hfs.2.1
    rw [Json.nesting, Json.nestingFields] at h
    intro hw
    rw [treeOf, atLevel, if_neg (by simp), treeFields] at hw
    obtain ⟨x, gs, hx, hgs, -⟩ := (Read.json_map_cons_eq_ok hk).mp hw
    rcases Nat.lt_or_ge level v.nesting with hv | hv
    · exact not_json_treeOf hfs.2.2.1 hv x hx
    · exact not_jsonEntries_treeFields hfs.2.2.2 (by omega) _ gs hgs

theorem not_jsonItems_treeItems : ∀ {vs : List Json} {level : Nat}, SoundItems vs →
    level < Json.nestingItems vs → ∀ ws, Read.jsonItems .text (treeItems level vs) ≠ .ok ws
  | [], _, _, h, _ => absurd h (Nat.not_lt_zero _)
  | v :: vs, level, hvs, h, ws => by
    intro hws
    obtain ⟨x, xs, hx, hxs, -⟩ := Read.jsonItems_cons_eq_ok.mp hws
    rw [Json.nestingItems] at h
    rcases Nat.lt_or_ge level v.nesting with hv | hv
    · exact not_json_treeOf hvs.1 hv x hx
    · exact not_jsonItems_treeItems hvs.2 (by omega) xs hxs

theorem not_jsonEntries_treeFields : ∀ {fs : List (String × Json)} {level : Nat}, SoundFields fs →
    level < Json.nestingFields fs → ∀ es gs, Read.jsonEntries .text es (treeFields level fs) ≠ .ok gs
  | [], _, _, h, _, _ => absurd h (Nat.not_lt_zero _)
  | (k, v) :: fs, level, hfs, h, es, gs => by
    intro hgs
    obtain ⟨x, hx, hgs⟩ := Read.jsonEntries_cons_eq_ok.mp hgs
    rw [Json.nestingFields] at h
    rcases Nat.lt_or_ge level v.nesting with hv | hv
    · exact not_json_treeOf hfs.1 hv x hx
    · exact not_jsonEntries_treeFields hfs.2 (by omega) _ gs hgs

end

end JsonText

/-! ### Whole documents -/

open JsonText

theorem Document.ofChars_pretty {v : Json} (hv : v.Sound) :
    Document.ofChars (v.prettyChars 0) = ⟨treeOf maxDepth v, false⟩ :=
  ofChars_written (Json.written_pretty hv.valid 0)

/-- **An indented text is read back as its value.** -/
theorem Document.decode_pretty {v : Json} (hv : v.Sound) (hdepth : v.nesting ≤ maxDepth) :
    (Document.ofChars (v.prettyChars 0)).decode Read.json = .ok v := by
  rw [Document.ofChars_pretty hv, Document.decode, treeOf_of_le hdepth, Read.json_ofJson (by decide) hv]
  rfl

theorem Document.decode_compact {v : Json} (hv : v.Sound) (hdepth : v.nesting ≤ maxDepth) :
    (Document.ofChars v.compactChars).decode Read.json = .ok v := by
  rw [Document.ofChars_compact hv.valid, Document.decode, treeOf_of_le hdepth,
    Read.json_ofJson (by decide) hv]
  rfl

theorem Document.not_decode_pretty {v w : Json} (hv : v.Sound) (hdepth : maxDepth < v.nesting) :
    (Document.ofChars (v.prettyChars 0)).decode Read.json ≠ .ok w := by
  rw [Document.ofChars_pretty hv, Document.decode]
  intro h
  obtain ⟨x, hx, -⟩ := except_bind_eq_ok h
  exact not_json_treeOf hv hdepth x hx

end FrameScope
