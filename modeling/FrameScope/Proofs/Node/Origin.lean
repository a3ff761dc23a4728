import FrameScope.Proofs.Json.Literal
import FrameScope.Proofs.Node.Untyped

/-!
# What a decoder meets below a text

Where no name is repeated and the number key is not used (`Node.Clean`), whatever of a text can be
held back is the tree of a sound value (`Node.Clean.exists_ofJson`). So a decoder meets only parts of
the text and what is held back of such values (`Origin`). What it meets has parts it may meet
(`Origin.parts`), and what it reads from there as an untyped value stands there in the form of that
value (`Origin.json`).
-/

namespace FrameScope

open Node

/-! ### Values of a depth -/

/-- A value as reading yields it, with at most so many containers in one another. -/
structure Json.Within (level : Nat) (v : Json) : Prop where
  sound : v.Sound
  nesting : v.nesting ≤ level

namespace Json

variable {level : Nat}

theorem within_str (s : String) : (str s).Within level := ⟨trivial, Nat.zero_le _⟩

theorem within_arr {vs : List Json} (hlevel : 0 < level) (hvs : ∀ v ∈ vs, v.Within (level - 1)) :
    (arr vs).Within level where
  sound := soundItems_iff.mpr fun v hv => (hvs v hv).sound
  nesting := by
    have hitems : nestingItems vs ≤ level - 1 :=
      nestingItems_le_iff.mpr fun v hv => (hvs v hv).nesting
    rw [Json.nesting]
    omega

theorem within_obj {fs : Entries Json} (hlevel : 0 < level) (hkeys : fs.keys.Nodup)
    (hhead : fs.keys.head? ≠ some Read.numberKey) (hfs : ∀ f ∈ fs, f.2.Within (level - 1)) :
    (obj fs).Within level where
  sound := ⟨hkeys, hhead, soundFields_iff.mpr fun f hf => (hfs f hf).sound⟩
  nesting := by
    have hfields : nestingFields fs ≤ level - 1 :=
      nestingFields_le_iff.mpr fun f hf => (hfs f hf).nesting
    rw [Json.nesting]
    omega

theorem Within.items {vs : List Json} (h : (arr vs).Within level) :
    ∀ v ∈ vs, v.Within (level - 1) := by
  intro v hv
  have hnesting := h.nesting
  rw [Json.nesting] at hnesting
  exact ⟨soundItems_iff.mp h.sound v hv, nestingItems_le_iff.mp (by omega) v hv⟩

theorem Within.fields {fs : Entries Json} (h : (obj fs).Within level) :
    ∀ f ∈ fs, f.2.Within (level - 1) := by
  intro f hf
  have hnesting := h.nesting
  rw [Json.nesting] at hnesting
  exact ⟨soundFields_iff.mp h.sound.2.2 f hf, nestingFields_le_iff.mp (by omega) f hf⟩

theorem Within.passes {level' : Nat} {v : Json} (hlevel : level ≤ level') (h : v.Within level) :
    Carriage.text.Passes level' (ofJson v) :=
  Carriage.passes_ofJson h.sound.valid (h.nesting.trans hlevel)

end Json

/-! ### Texts without repeated names -/

/-- The name a key is, if it is one. -/
def Key.name? : Key → Option String
  | .name s => some s
  | _ => none

namespace Node

mutual

/-- Whether no map of a document names two of its entries alike. -/
def distinctNames : Node → Bool
  | .seq items => distinctNamesItems items
  | .map entries =>
    decide (entries.filterMap fun e => e.1.name?).Nodup && distinctNamesEntries entries
  | .deep inner => distinctNames inner
  | _ => true

def distinctNamesItems : List Node → Bool
  | [] => true
  | v :: rest => distinctNames v && distinctNamesItems rest

def distinctNamesEntries : List (Key × Node) → Bool
  | [] => true
  | (_, v) :: rest => distinctNames v && distinctNamesEntries rest

end

/-- A part of a text in which no name is repeated and none is the number key. -/
structure Clean (level : Nat) (node : Node) : Prop where
  textual : node.Textual level
  distinct : node.distinctNames = true
  numberless : node.hasKey Read.numberKey = false

/-- An entry of such a part. -/
structure CleanEntry (level : Nat) (e : Key × Node) : Prop where
  key : e.1.Literal e.2
  numberless : e.1 ≠ .name Read.numberKey
  value : e.2.Clean level

variable {level : Nat}

theorem Clean.items {vs : List Node} (h : (seq vs).Clean level) :
    0 < level ∧ ∀ v ∈ vs, v.Clean (level - 1) := by
  obtain ⟨⟨hlevel, htextual⟩, hdistinct, hnumberless⟩ := h
  refine ⟨hlevel, ?_⟩
  rw [distinctNames] at hdistinct
  rw [hasKey] at hnumberless
  induction vs with
  | nil => simp
  | cons v vs ih =>
    rw [distinctNamesItems, Bool.and_eq_true] at hdistinct
    rw [hasKeyItems, Bool.or_eq_false_iff] at hnumberless
    exact List.forall_mem_cons.mpr ⟨⟨htextual.1, hdistinct.1, hnumberless.1⟩,
      ih hdistinct.2 hnumberless.2 htextual.2⟩

theorem Clean.entries {es : List (Key × Node)} (h : (map es).Clean level) :
    0 < level ∧ (es.filterMap fun e => e.1.name?).Nodup ∧ ∀ e ∈ es, CleanEntry (level - 1) e := by
  obtain ⟨⟨hlevel, htextual⟩, hdistinct, hnumberless⟩ := h
  rw [distinctNames, Bool.and_eq_true, decide_eq_true_eq] at hdistinct
  obtain ⟨hnames, hdistinct⟩ := hdistinct
  refine ⟨hlevel, hnames, ?_⟩
  rw [hasKey] at hnumberless
  clear hnames
  induction es with
  | nil => simp
  | cons e es ih =>
    rw [distinctNamesEntries, Bool.and_eq_true] at hdistinct
    simp only [hasKeyEntries, Bool.or_eq_false_iff, beq_eq_false_iff_ne] at hnumberless
    obtain ⟨⟨hkey, hv⟩, hrest⟩ := hnumberless
    exact List.forall_mem_cons.mpr ⟨⟨htextual.1, hkey, htextual.2.1, hdistinct.1, hv⟩,
      ih hrest htextual.2.2 hdistinct.2⟩

end Node

/-! ### What can be held back -/

namespace Node.Clean

open Json Read

mutual

/-- **What can be held back of a text is the tree of a sound value.** -/
theorem exists_ofJson : ∀ {node held : Node} {level : Nat}, node.Clean level →
    buffer .text node = .ok held → ∃ v : Json, v.Within level ∧ node = ofJson v
  | .null, _, _, _, _ => ⟨.null, ⟨trivial, Nat.zero_le _⟩, rfl⟩
  | .bool b, _, _, _, _ => ⟨.bool b, ⟨trivial, Nat.zero_le _⟩, rfl⟩
  | .num n, _, _, h, _ => ⟨.num n, ⟨h.textual, Nat.zero_le _⟩, rfl⟩
  | .text s, _, _, _, _ => ⟨.str s, within_str s, rfl⟩
  | .seq vs, _, _, h, hheld => by
    obtain ⟨hlevel, hvs⟩ := h.items
    rw [buffer] at hheld
    obtain ⟨hs, hhs, -⟩ := except_map_eq_ok hheld
    obtain ⟨ws, hws, rfl⟩ := exists_ofJsonItems hvs hhs
    exact ⟨.arr ws, within_arr hlevel hws, rfl⟩
  | .map es, _, _, h, hheld => by
    obtain ⟨hlevel, hnames, hes⟩ := h.entries
    rw [buffer] at hheld
    obtain ⟨hs, hhs, -⟩ := except_map_eq_ok hheld
    obtain ⟨fs, hfs, hkeys, hhead, rfl⟩ := exists_ofJsonFields hes hhs
    exact ⟨.obj fs, within_obj hlevel (hkeys ▸ hnames) hhead hfs, rfl⟩
  | .unreadable, _, _, _, h => by simp [buffer] at h
  | .deep _, _, _, _, h => by simp [buffer] at h
  | .broken, _, _, _, h => by simp [buffer] at h
  | .absent, _, _, h, _ => h.textual.elim
  | .int _, _, _, h, _ => h.textual.elim
  | .float _, _, _, h, _ => h.textual.elim
  | .bytes _, _, _, h, _ => h.textual.elim

theorem exists_ofJsonItems : ∀ {vs hs : List Node} {level : Nat}, (∀ v ∈ vs, v.Clean level) →
    bufferItems .text vs = .ok hs → ∃ ws : List Json, (∀ w ∈ ws, w.Within level) ∧
      vs = ofJsonItems ws
  | [], _, _, _, _ => ⟨[], by simp, rfl⟩
  | v :: vs, _, _, h, hheld => by
    obtain ⟨hv, hvs⟩ := List.forall_mem_cons.mp h
    obtain ⟨_, _, hhead, hrest, -⟩ := bufferItems_cons_eq_ok.mp hheld
    obtain ⟨w, hw, rfl⟩ := exists_ofJson hv hhead
    obtain ⟨ws, hws, rfl⟩ := exists_ofJsonItems hvs hrest
    exact ⟨w :: ws, List.forall_mem_cons.mpr ⟨hw, hws⟩, rfl⟩

theorem exists_ofJsonFields : ∀ {es hs : List (Key × Node)} {level : Nat},
    (∀ e ∈ es, CleanEntry level e) → bufferEntries .text es = .ok hs →
      ∃ fs : Entries Json, (∀ f ∈ fs, f.2.Within level) ∧
        (es.filterMap fun e => e.1.name?) = fs.keys ∧ fs.keys.head? ≠ some numberKey ∧
          es = ofJsonFields fs
  | [], _, _, _, _ => ⟨[], by simp, rfl, by simp, rfl⟩
  | (.name k, v) :: es, _, _, h, hheld => by
    obtain ⟨hv, hes⟩ := List.forall_mem_cons.mp h
    obtain ⟨_, _, hhead, hrest, -⟩ := bufferEntries_cons_eq_ok.mp hheld
    obtain ⟨w, hw, rfl⟩ := exists_ofJson hv.value hhead
    obtain ⟨fs, hfs, hkeys, -, rfl⟩ := exists_ofJsonFields hes hrest
    have hk : k ≠ numberKey := fun heq => hv.numberless (congrArg Key.name heq)
    refine ⟨(k, w) :: fs, List.forall_mem_cons.mpr ⟨hw, hfs⟩, ?_, by simpa using hk, rfl⟩
    exact congrArg (k :: ·) hkeys
  | (.unreadable, _) :: _, _, _, _, hheld => by simp [bufferEntries] at hheld
  | (.other, v) :: _, _, _, h, hheld => by
    have hkey := (h _ List.mem_cons_self).key
    cases v <;> simp_all [Key.Literal, bufferEntries, buffer]
  | (.index _, _) :: _, _, _, h, _ => (h _ List.mem_cons_self).key.elim
  | (.bytes _, _) :: _, _, _, h, _ => (h _ List.mem_cons_self).key.elim

end

end Node.Clean

/-! ### Origins -/

/-- A document a decoder meets: a part of a text, or what is held back of a value in one. -/
inductive Origin : Medium → Nat → Node → Prop
  | text {level : Nat} {node : Node} (h : node.Clean level) : Origin .text level node
  | kept {level : Nat} {v : Json} (h : v.Within level) : Origin .buffered level (ofJson v).kept

namespace Origin

variable {m : Medium} {level : Nat} {node : Node}

theorem root {cs : List Char} (hdistinct : (Document.ofChars cs).root.distinctNames = true)
    (hnumberless : (Document.ofChars cs).root.hasKey Read.numberKey = false) :
    Origin .text JsonText.maxDepth (Document.ofChars cs).root :=
  .text ⟨Document.textual_root cs, hdistinct, hnumberless⟩

theorem buffer {held : Node} (h : Origin m level node) (hheld : Read.buffer m node = .ok held) :
    Origin .buffered level held := by
  cases h with
  | text h =>
    obtain ⟨v, hv, rfl⟩ := h.exists_ofJson hheld
    rw [Read.buffer_ofJson] at hheld
    exact Except.ok.inj hheld ▸ .kept hv
  | @kept _ v hv =>
    rw [Read.buffer_form Read.holds_kept (writable_ofJson v)] at hheld
    exact Except.ok.inj hheld ▸ .kept hv

theorem json {v : Json} (h : Origin m level node) (hv : Read.json m node = .ok v) :
    v.Within level ∧ ∃ carry, Carriage.text.Arrives m carry ∧ node = carry (ofJson v) := by
  cases h with
  | text h =>
    obtain ⟨held, hheld⟩ := Read.exists_buffer_of_json h.textual h.numberless hv
    obtain ⟨w, hw, rfl⟩ := h.exists_ofJson hheld
    obtain rfl : w = v := Except.ok.inj ((Read.json_ofJson (by decide) hw.sound).symm.trans hv)
    exact ⟨hw, spelled, .inl ⟨rfl, rfl⟩, (spelled_ofJson w).symm⟩
  | @kept _ w hw =>
    have harrives : Carriage.text.Arrives .buffered Node.kept := .inr ⟨rfl, rfl⟩
    have hread := Read.json_form form_kept (Carriage.text.num harrives) hw.sound
    obtain rfl : w = v := Except.ok.inj (hread.symm.trans hv)
    exact ⟨hw, Node.kept, harrives, rfl⟩

theorem eq_null_of_json (h : Origin m level node) (hv : Read.json m node = .ok .null) :
    node = .null := by
  obtain ⟨-, carry, harrives, rfl⟩ := h.json hv
  exact (Carriage.text.form harrives).null

theorem parts (h : Origin m level node) : node.Parts (Origin m (level - 1)) := by
  cases h with
  | text h =>
    cases node with
    | seq vs => exact fun v hv => .text (h.items.2 v hv)
    | map es => exact fun e he => .text (h.entries.2.2 e he).value
    | _ => trivial
  | @kept _ v hv =>
    cases v with
    | arr vs =>
      rw [ofJson, form_kept.seq, ofJsonItems_eq_map, List.map_map]
      intro held hheld
      obtain ⟨v, hmem, rfl⟩ := List.mem_map.mp hheld
      exact .kept (hv.items v hmem)
    | obj fs =>
      rw [ofJson, form_kept.map, ofJsonFields_eq_map, List.map_map]
      intro e he
      obtain ⟨f, hmem, rfl⟩ := List.mem_map.mp he
      exact .kept (hv.fields f hmem)
    | num n =>
      show (keptNumber n).Parts _
      obtain heq | ⟨i, -, -, heq⟩ := keptNumber_cases n
      · -- the number's spelling stands in the one-entry map
        rw [heq]
        intro e he
        obtain rfl := List.mem_singleton.mp he
        exact .kept (Json.within_str n.text)
      · rw [heq]
        trivial
    | _ => trivial

theorem exists_fields {es : List (Key × Node)} (h : Origin .buffered level node)
    (hmap : node = .map es) : ∃ fs : Entries Json, fs.keys.Nodup ∧
      (∀ f ∈ fs, f.2.Within (level - 1)) ∧
        node = (Node.map (fs.map fun f => (.name f.1, ofJson f.2))).kept := by
  cases h with
  | @kept _ v hv =>
    cases v with
    | obj fs => exact ⟨fs, hv.sound.1, hv.fields, by rw [ofJson, ofJsonFields_eq_map]⟩
    | num n =>
      obtain heq | ⟨i, -, -, heq⟩ := keptNumber_cases n
      · refine ⟨[(Read.numberKey, .str n.text)], by simp, by simp [Json.within_str], heq⟩
      · exact absurd (heq.symm.trans hmap) nofun
    | _ => exact absurd hmap nofun

theorem entries {fs : Entries Json} (h : Origin .buffered level node)
    (hfs : Read.entries Read.json .buffered node = .ok fs) :
    fs.keys.Nodup ∧ (∀ f ∈ fs, f.2.Within (level - 1)) ∧
      node = (Node.map (fs.map fun f => (.name f.1, ofJson f.2))).kept := by
  cases hnode : node with
  | map es =>
    obtain ⟨gs, hkeys, hgs, heq⟩ := h.exists_fields hnode
    have hread : Read.entries Read.json .buffered node = .ok gs := by
      rw [heq, form_kept.map, List.map_map]
      refine (Read.entries_of_named (g := fun f => f.2) (fun f hf => ?_) hkeys).trans ?_
      · exact Read.json_form form_kept (Carriage.text.num (.inr ⟨rfl, rfl⟩)) (hgs f hf).sound
      · exact congrArg _ (List.map_id' gs)
    obtain rfl : gs = fs := Except.ok.inj (hread.symm.trans hfs)
    exact ⟨hkeys, hgs, hnode ▸ heq⟩
  | _ => simp [hnode, Read.entries] at hfs

end Origin

end FrameScope
