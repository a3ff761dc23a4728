import FrameScope.Json.Parser
import FrameScope.Proofs.Json.Sound

/-!
# The tree of a text

Whatever a text is, its tree is literal (`literal_root`): the only numbers in it are valid spellings,
its keys are strings, and nothing but `null` stands for nothing. More than that, no more containers
stand in one another than may be open at once (`Node.Textual`, `textual_root`).
-/

namespace FrameScope

namespace Node

mutual

/-- A document as a text has it where so many containers may still be opened. -/
def Textual (level : Nat) : Node → Prop
  | .absent => False
  | .int _ => False
  | .float _ => False
  | .bytes _ => False
  | .num n => n.Valid
  | .seq items => 0 < level ∧ TextualItems (level - 1) items
  | .map entries => 0 < level ∧ TextualEntries (level - 1) entries
  | _ => True

def TextualItems (level : Nat) : List Node → Prop
  | [] => True
  | v :: rest => Textual level v ∧ TextualItems level rest

def TextualEntries (level : Nat) : List (Key × Node) → Prop
  | [] => True
  | (k, v) :: rest => k.Literal v ∧ Textual level v ∧ TextualEntries level rest

end

mutual

theorem Textual.literal : ∀ {node : Node} {level : Nat}, node.Textual level → node.Literal
  | .null, _, _ => trivial
  | .bool _, _, _ => trivial
  | .num _, _, h => h
  | .text _, _, _ => trivial
  | .seq _, _, h => literalItems_of_textual h.2
  | .map _, _, h => literalEntries_of_textual h.2
  | .unreadable, _, _ => trivial
  | .deep _, _, _ => trivial
  | .broken, _, _ => trivial

theorem literalItems_of_textual : ∀ {vs : List Node} {level : Nat}, TextualItems level vs →
    LiteralItems vs
  | [], _, _ => trivial
  | _ :: _, _, h => ⟨h.1.literal, literalItems_of_textual h.2⟩

theorem literalEntries_of_textual : ∀ {es : List (Key × Node)} {level : Nat},
    TextualEntries level es → LiteralEntries es
  | [], _, _ => trivial
  | _ :: _, _, h => ⟨h.1, h.2.1.literal, literalEntries_of_textual h.2.2⟩

end

end Node

namespace JsonText

open Node

theorem textual_readWord {level : Nat} {word cs : List Char} {node : Node}
    (h : node.Textual level) : (readWord word node cs).1.Textual level := by
  unfold readWord
  split
  · exact h
  · trivial

theorem textual_readScalar (level : Nat) (cs : List Char) :
    (readScalar cs).1.Textual level := by
  unfold readScalar
  split
  · trivial
  · split <;> trivial
  · exact textual_readWord trivial
  · exact textual_readWord trivial
  · exact textual_readWord trivial
  · split
    · rename_i h
      exact Number.valid_of_scan h
    · trivial

theorem textual_atLevel_seq {level : Nat} {vs : List Node} (h : TextualItems (level - 1) vs) :
    (atLevel level (.seq vs)).Textual level := by
  unfold atLevel
  split
  · trivial
  · rename_i hlevel
    exact ⟨Nat.pos_of_ne_zero hlevel, h⟩

theorem textual_atLevel_map {level : Nat} {es : List (Key × Node)}
    (h : TextualEntries (level - 1) es) : (atLevel level (.map es)).Textual level := by
  unfold atLevel
  split
  · trivial
  · rename_i hlevel
    exact ⟨Nat.pos_of_ne_zero hlevel, h⟩

theorem textual_strayKey (level : Nat) (cs : List Char) :
    (strayKey cs).1.Literal (strayKey cs).2 ∧ (strayKey cs).2.Textual level := by
  unfold strayKey
  split
  · exact ⟨trivial, trivial⟩
  · exact ⟨trivial, trivial⟩
  · split <;> exact ⟨trivial, trivial⟩

/-- Values, items and entries with the same fuel, so that the induction is on the fuel alone. -/
theorem textual_read (fuel : Nat) :
    (∀ level cs, (readValue fuel level cs).1.Textual level) ∧
      (∀ level cs, TextualItems level (readItems fuel level cs).1) ∧
        ∀ level cs, TextualEntries level (readEntries fuel level cs).1 := by
  induction fuel with
  | zero => exact ⟨fun _ _ => trivial, fun _ _ => ⟨trivial, trivial⟩,
      fun _ _ => ⟨trivial, trivial, trivial⟩⟩
  | succ fuel ih =>
    obtain ⟨hvalue, hitems, hentries⟩ := ih
    refine ⟨fun level cs => ?value, fun level cs => ?items, fun level cs => ?entries⟩
    case value =>
      rw [readValue]
      split
      · split
        · exact textual_atLevel_seq trivial
        · exact textual_atLevel_seq (hitems _ _)
      · split
        · exact textual_atLevel_map trivial
        · exact textual_atLevel_map (hentries _ _)
      · exact textual_readScalar _ _
    case items =>
      have hv := hvalue level cs
      rw [readItems]
      split
      · rename_i v heq
        rw [heq] at hv
        exact ⟨hv, trivial⟩
      · rename_i v rest heq
        rw [heq] at hv
        split
        · exact ⟨hv, hitems _ _⟩
        · exact ⟨hv, trivial⟩
        · exact ⟨hv, trivial, trivial⟩
    case entries =>
      rw [readEntries]
      split
      · split
        · exact ⟨trivial, trivial, trivial⟩
        · rename_i name _ _
          extract_lets key
          have hkey : ∀ v, key.Literal v := fun v => by cases name <;> trivial
          split
          · rename_i rest _
            have hv := hvalue level rest
            split
            · rename_i v heq
              rw [heq] at hv
              exact ⟨hkey v, hv, trivial⟩
            · rename_i v rest' heq
              rw [heq] at hv
              split
              · exact ⟨hkey v, hv, hentries _ _⟩
              · exact ⟨hkey v, hv, trivial⟩
              · exact ⟨hkey v, hv, trivial, trivial, trivial⟩
          · exact ⟨hkey _, trivial, trivial⟩
      · obtain ⟨hkey, hv⟩ := textual_strayKey level (skipBlanks cs)
        exact ⟨hkey, hv, trivial⟩

theorem literal_readValue (fuel level : Nat) (cs : List Char) :
    (readValue fuel level cs).1.Literal := ((textual_read fuel).1 level cs).literal

end JsonText

theorem Document.textual_root (cs : List Char) :
    (Document.ofChars cs).root.Textual JsonText.maxDepth := by
  have h := (JsonText.textual_read (cs.length + 1)).1 JsonText.maxDepth cs
  unfold Document.ofChars
  split <;> rename_i heq <;> rw [heq] at h <;> exact h

/-- **The tree of a text is literal.** -/
theorem Document.literal_root (cs : List Char) : (Document.ofChars cs).root.Literal :=
  (Document.textual_root cs).literal

theorem Document.decode_eq_ok_iff {α : Type} {d : Decoder α} {doc : Document} {x : α} :
    doc.decode d = .ok x ↔ d .text doc.root = .ok x ∧ doc.trailing = false := by
  rw [decode]
  cases hread : d .text doc.root <;> cases htrailing : doc.trailing <;> simp [bind, Except.bind]

theorem Document.read_of_decode {α : Type} {d : Decoder α} {text : List Char} {x : α}
    (h : (Document.ofChars text).decode d = .ok x) :
    d .text (Document.ofChars text).root = .ok x := (decode_eq_ok_iff.mp h).1

end FrameScope
