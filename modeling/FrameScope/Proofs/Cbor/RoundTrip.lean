import FrameScope.Proofs.Cbor.Head

/-!
# Binary documents read back

`Node.logged` is what a binary record makes of a document: a number known by its spelling becomes
the one-entry map of that spelling. `Node.nesting` counts the containers open at once in it.

A document that is written (`Node.Writable`) reads back as its logged form exactly when it nests no
deeper than the reader goes: `readItem_write` in front of any bytes, `read_write` for a record.
-/

namespace FrameScope

namespace Node

mutual

/-- What a binary record makes of a document. -/
def logged : Node → Node
  | .num n => Read.opaqueNumber n
  | .seq items => .seq (loggedItems items)
  | .map entries => .map (loggedEntries entries)
  | node => node

def loggedItems : List Node → List Node
  | [] => []
  | v :: rest => logged v :: loggedItems rest

def loggedEntries : List (Key × Node) → List (Key × Node)
  | [] => []
  | (k, v) :: rest => (k, logged v) :: loggedEntries rest

end

mutual

/-- The containers open at once in the binary form of a document. -/
def nesting : Node → Nat
  | .num _ => 1
  | .seq items => nestingItems items + 1
  | .map entries => nestingEntries entries + 1
  | _ => 0

def nestingItems : List Node → Nat
  | [] => 0
  | v :: rest => max (nesting v) (nestingItems rest)

def nestingEntries : List (Key × Node) → Nat
  | [] => 0
  | (_, v) :: rest => max (nesting v) (nestingEntries rest)

end

mutual

/-- A document whose every part has a binary form of its own. -/
def Writable : Node → Prop
  | .null => True
  | .bool _ => True
  | .int i => 0 ≤ i ∧ i < Word.size
  | .num _ => True
  | .text _ => True
  | .seq items => WritableItems items
  | .map entries => WritableEntries entries
  | _ => False

def WritableItems : List Node → Prop
  | [] => True
  | v :: rest => Writable v ∧ WritableItems rest

def WritableEntries : List (Key × Node) → Prop
  | [] => True
  | (k, v) :: rest => (∃ s, k = .name s) ∧ Writable v ∧ WritableEntries rest

end

theorem loggedItems_eq_map (vs : List Node) : loggedItems vs = vs.map logged := by
  induction vs with
  | nil => rfl
  | cons v vs ih => rw [loggedItems, ih, List.map_cons]

theorem loggedEntries_eq_map (es : List (Key × Node)) :
    loggedEntries es = es.map fun e => (e.1, e.2.logged) := by
  induction es with
  | nil => rfl
  | cons e es ih => rw [loggedEntries, ih, List.map_cons]

theorem writableItems_iff {vs : List Node} : WritableItems vs ↔ ∀ v ∈ vs, v.Writable := by
  induction vs with
  | nil => simp [WritableItems]
  | cons v vs ih => simp [WritableItems, ih]

theorem writableEntries_iff {es : List (Key × Node)} :
    WritableEntries es ↔ ∀ e ∈ es, (∃ s, e.1 = .name s) ∧ e.2.Writable := by
  induction es with
  | nil => simp [WritableEntries]
  | cons e es ih => simp [WritableEntries, ih, and_assoc]

end Node

namespace Cbor

open Node

/-! ### Scalars -/

theorem readItem_text (s : String) (hs : (Text.toBytes s).length < Word.size) (fuel level : Nat)
    (rest : Bytes) : readItem (fuel + 1) level (writeText s ++ rest) = some (.text s, rest) := by
  obtain ⟨b, more, hhead, hmajor, hinfo, harg⟩ := exists_head (by decide : 3 < 8) hs
  simp only [writeText, hhead, List.cons_append, List.append_assoc, readItem, hmajor,
    readStringBytes, if_neg hinfo, harg, Option.bind_eq_bind, Option.bind_some,
    take?_append rfl, Text.ofBytes?_toBytes]

theorem readItem_int {i : Int} (hpos : 0 ≤ i) (hi : i < Word.size) (fuel level : Nat)
    (rest : Bytes) : readItem (fuel + 1) level (writeInt i ++ rest) = some (.int i, rest) := by
  have hnat : i.toNat < Word.size := by omega
  obtain ⟨b, more, hhead, hmajor, -, harg⟩ := exists_head (by decide : 0 < 8) hnat
  simp only [writeInt, if_neg (Int.not_lt.mpr hpos), hhead, List.cons_append, readItem, hmajor,
    harg, Option.map_some, Int.toNat_of_nonneg hpos]

/-! ### Lengths -/

theorem length_writeText_pos (s : String) : 0 < (writeText s).length := by
  have h := head_length_pos 3 (Text.toBytes s).length
  simp only [writeText, List.length_append]
  omega

theorem length_write_pos (node : Node) : 0 < (write node).length := by
  cases node with
  | bool b => cases b <;> simp [write]
  | int i =>
    rw [write, writeInt]
    split <;> exact head_length_pos _ _
  | num n =>
    have h := length_writeText_pos n.text
    simp only [write, writeNumber, List.length_append]
    omega
  | text s => rw [write]; exact length_writeText_pos s
  | bytes b =>
    have h := head_length_pos 2 b.length
    simp only [write, List.length_append]
    omega
  | seq vs =>
    have h := head_length_pos 4 vs.length
    simp only [write, List.length_append]
    omega
  | map es =>
    have h := head_length_pos 5 es.length
    simp only [write, List.length_append]
    omega
  | _ => simp [write]

theorem length_le_writeItems (vs : List Node) : vs.length ≤ (writeItems vs).length := by
  induction vs with
  | nil => simp
  | cons v vs ih =>
    have h := length_write_pos v
    simp only [writeItems, List.length_cons, List.length_append]
    omega

theorem length_le_writeEntries (es : List (Key × Node)) :
    es.length ≤ (writeEntries es).length := by
  induction es with
  | nil => simp
  | cons e es ih =>
    have h := length_write_pos e.2
    simp only [writeEntries, List.length_cons, List.length_append]
    omega

/-! ### Containers -/

theorem readItem_seq {count : Nat} (hcount : count < Word.size) (fuel level : Nat)
    (bytes : Bytes) : readItem (fuel + 1) level (head 4 count ++ bytes) =
      if level = 0 then none
      else (readItems fuel (level - 1) count bytes).map fun p => (.seq p.1, p.2) := by
  obtain ⟨b, more, hhead, hmajor, hinfo, harg⟩ := exists_head (by decide : 4 < 8) hcount
  simp only [hhead, List.cons_append, readItem, hmajor, if_neg hinfo, harg, Option.bind_eq_bind,
    Option.bind_some]
  rcases readItems fuel (level - 1) count bytes <;> rfl

theorem readItem_map {count : Nat} (hcount : count < Word.size) (fuel level : Nat)
    (bytes : Bytes) : readItem (fuel + 1) level (head 5 count ++ bytes) =
      if level = 0 then none
      else (readEntries fuel (level - 1) count bytes).map fun p => (.map p.1, p.2) := by
  obtain ⟨b, more, hhead, hmajor, hinfo, harg⟩ := exists_head (by decide : 5 < 8) hcount
  simp only [hhead, List.cons_append, readItem, hmajor, if_neg hinfo, harg, Option.bind_eq_bind,
    Option.bind_some]
  rcases readEntries fuel (level - 1) count bytes <;> rfl

theorem readItem_number (n : Number) (hn : (writeNumber n).length < Word.size) {fuel : Nat}
    (hfuel : 2 * (writeNumber n).length ≤ fuel + 1) (level : Nat) (rest : Bytes) :
    readItem fuel level (writeNumber n ++ rest) =
      if 1 ≤ level then some (Read.opaqueNumber n, rest) else none := by
  have hkey := length_writeText_pos Read.numberKey
  have htext := length_writeText_pos n.text
  have hhead := head_length_pos 5 1
  simp only [writeNumber, List.length_append] at hn hfuel
  obtain ⟨fuel, rfl⟩ : ∃ f, fuel = f + 3 := ⟨fuel - 3, by omega⟩
  have hlen : (Text.toBytes n.text).length < Word.size := by
    simp only [writeText, List.length_append] at hn
    omega
  simp only [writeNumber, List.append_assoc]
  rw [readItem_map (by decide)]
  by_cases hlevel : level = 0
  · simp [hlevel]
  · have hnumber : (Text.toBytes Read.numberKey).length < Word.size := by decide +kernel
    rw [if_neg hlevel, if_pos (Nat.one_le_iff_ne_zero.mpr hlevel), readEntries,
      readItem_text Read.numberKey hnumber]
    simp only
    rw [readItem_text n.text hlen]
    simp only [readEntries, Option.map_some, keyOf, Read.opaqueNumber]

/-! ### Documents -/

mutual

/-- **A written document reads back as its logged form, as long as it nests no deeper than the
reader goes.** -/
theorem readItem_write : ∀ {node : Node}, node.Writable → (write node).length < Word.size →
    ∀ {fuel : Nat}, 2 * (write node).length ≤ fuel + 1 → ∀ (level : Nat) (rest : Bytes),
      readItem fuel level (write node ++ rest) =
        if node.nesting ≤ level then some (node.logged, rest) else none
  | .null, _, _, fuel, hfuel, level, rest => by
    obtain ⟨fuel, rfl⟩ : ∃ f, fuel = f + 1 := ⟨fuel - 1, by simp [write] at hfuel; omega⟩
    simp [write, readItem, readSimple, nesting, logged]
  | .bool b, _, _, fuel, hfuel, level, rest => by
    obtain ⟨fuel, rfl⟩ : ∃ f, fuel = f + 1 := ⟨fuel - 1, by cases b <;> simp [write] at hfuel <;> omega⟩
    cases b <;> simp [write, readItem, readSimple, nesting, logged]
  | .int i, hi, _, fuel, hfuel, level, rest => by
    have hpos := length_write_pos (.int i)
    obtain ⟨fuel, rfl⟩ : ∃ f, fuel = f + 1 := ⟨fuel - 1, by omega⟩
    rw [write, readItem_int hi.1 hi.2]
    simp [nesting, logged]
  | .num n, _, hsize, fuel, hfuel, level, rest => by
    rw [write] at hsize hfuel ⊢
    exact readItem_number n hsize hfuel level rest
  | .text s, _, hsize, fuel, hfuel, level, rest => by
    have hpos := length_write_pos (.text s)
    obtain ⟨fuel, rfl⟩ : ∃ f, fuel = f + 1 := ⟨fuel - 1, by omega⟩
    rw [write] at hsize ⊢
    rw [readItem_text s (by simp only [writeText, List.length_append] at hsize; omega)]
    simp [nesting, logged]
  | .seq vs, hvs, hsize, fuel, hfuel, level, rest => by
    have hhead := head_length_pos 4 vs.length
    have hcount := length_le_writeItems vs
    simp only [write, List.length_append] at hsize hfuel
    obtain ⟨fuel, rfl⟩ : ∃ f, fuel = f + 1 := ⟨fuel - 1, by omega⟩
    rw [write, List.append_assoc, readItem_seq (by omega),
      readItems_write hvs (by omega) (by omega)]
    have hnesting : (seq vs).nesting = nestingItems vs + 1 := by rw [nesting]
    by_cases hlevel : level = 0
    · rw [if_pos hlevel, if_neg (by omega)]
    · by_cases hnest : nestingItems vs ≤ level - 1
      · rw [if_neg hlevel, if_pos hnest, if_pos (by omega), Option.map_some, logged]
      · rw [if_neg hlevel, if_neg hnest, if_neg (by omega), Option.map_none]
  | .map es, hes, hsize, fuel, hfuel, level, rest => by
    have hhead := head_length_pos 5 es.length
    have hcount := length_le_writeEntries es
    simp only [write, List.length_append] at hsize hfuel
    obtain ⟨fuel, rfl⟩ : ∃ f, fuel = f + 1 := ⟨fuel - 1, by omega⟩
    rw [write, List.append_assoc, readItem_map (by omega),
      readEntries_write hes (by omega) (by omega)]
    have hnesting : (map es).nesting = nestingEntries es + 1 := by rw [nesting]
    by_cases hlevel : level = 0
    · rw [if_pos hlevel, if_neg (by omega)]
    · by_cases hnest : nestingEntries es ≤ level - 1
      · rw [if_neg hlevel, if_pos hnest, if_pos (by omega), Option.map_some, logged]
      · rw [if_neg hlevel, if_neg hnest, if_neg (by omega), Option.map_none]

theorem readItems_write : ∀ {vs : List Node}, WritableItems vs →
    (writeItems vs).length < Word.size →
    ∀ {fuel : Nat}, 2 * (writeItems vs).length ≤ fuel → ∀ (level : Nat) (rest : Bytes),
      readItems fuel level vs.length (writeItems vs ++ rest) =
        if nestingItems vs ≤ level then some (loggedItems vs, rest) else none
  | [], _, _, fuel, _, level, rest => by
    simp [readItems, writeItems, nestingItems, loggedItems]
  | v :: vs, hvs, hsize, fuel, hfuel, level, rest => by
    have hpos := length_write_pos v
    simp only [writeItems, List.length_append] at hsize hfuel
    obtain ⟨fuel, rfl⟩ : ∃ f, fuel = f + 1 := ⟨fuel - 1, by omega⟩
    rw [writeItems, List.length_cons, readItems, List.append_assoc,
      readItem_write hvs.1 (by omega) (by omega)]
    by_cases hv : v.nesting ≤ level
    · rw [if_pos hv]
      simp only
      rw [readItems_write hvs.2 (by omega) (by omega)]
      by_cases hrest : nestingItems vs ≤ level
      · rw [if_pos hrest, if_pos (by simp [nestingItems, hv, hrest])]
        rfl
      · rw [if_neg hrest, if_neg (by simp [nestingItems, hrest])]
        rfl
    · rw [if_neg hv, if_neg (by simp [nestingItems, hv])]

theorem readEntries_write : ∀ {es : List (Key × Node)}, WritableEntries es →
    (writeEntries es).length < Word.size →
    ∀ {fuel : Nat}, 2 * (writeEntries es).length ≤ fuel → ∀ (level : Nat) (rest : Bytes),
      readEntries fuel level es.length (writeEntries es ++ rest) =
        if nestingEntries es ≤ level then some (loggedEntries es, rest) else none
  | [], _, _, fuel, _, level, rest => by
    simp [readEntries, writeEntries, nestingEntries, loggedEntries]
  | (k, v) :: es, hes, hsize, fuel, hfuel, level, rest => by
    obtain ⟨⟨s, rfl⟩, hv, hes⟩ := hes
    have hpos := length_write_pos v
    have hkey := length_writeText_pos s
    simp only [writeEntries, writeKey, List.length_append] at hsize hfuel
    obtain ⟨fuel, rfl⟩ : ∃ f, fuel = f + 2 := ⟨fuel - 2, by omega⟩
    have hlen : (Text.toBytes s).length < Word.size := by
      simp only [writeText, List.length_append] at hsize
      omega
    rw [writeEntries, writeKey, List.length_cons, readEntries, List.append_assoc,
      List.append_assoc, readItem_text s hlen]
    simp only
    rw [readItem_write hv (by omega) (by omega)]
    by_cases hnest : v.nesting ≤ level
    · rw [if_pos hnest]
      simp only
      rw [readEntries_write hes (by omega) (by omega)]
      by_cases hrest : nestingEntries es ≤ level
      · rw [if_pos hrest, if_pos (by simp [nestingEntries, hnest, hrest])]
        rfl
      · rw [if_neg hrest, if_neg (by simp [nestingEntries, hrest])]
        rfl
    · rw [if_neg hnest, if_neg (by simp [nestingEntries, hnest])]

end

/-- A record reads back exactly when its document nests at most as deep as the reader goes. -/
theorem read_write {node : Node} (hnode : node.Writable) (hsize : (write node).length < Word.size) :
    read (write node) = if node.nesting ≤ maxDepth then some node.logged else none := by
  have h := readItem_write hnode hsize
    (by omega : 2 * (write node).length ≤ 2 * (write node).length + 1 + 1) maxDepth []
  rw [List.append_nil] at h
  rw [read, h]
  by_cases hnest : node.nesting ≤ maxDepth
  · rw [if_pos hnest, if_pos hnest]
  · rw [if_neg hnest, if_neg hnest]

end Cbor

end FrameScope
