import FrameScope.Proofs.Collection.Siblings
import FrameScope.Proofs.Node.Untyped

/-!
# Collections of untyped values

A text may be read as a collection of untyped values, or as one untyped value whose pairs are taken
out afterwards. The first way holds the text back and tries one encoding after the other, the second
does not; they yield the same pairs (`Keyed.normalize_eq_normalizeValue`). An object becomes the map
of its fields, and an array that is a collection at all is an array of pairs
(`Keyed.ofChars_untyped_iff`).
-/

namespace FrameScope

open Node JsonText

/-- Whether a value is an object. -/
def Json.isObject : Json → Bool
  | .obj _ => true
  | _ => false

theorem Json.isObject_iff {v : Json} : v.isObject = true ↔ ∃ fs, v = .obj fs := by
  cases v <;> simp [isObject]

/-! ### Texts of containers -/

/-- Whether a text is an object or an array, as far as it is a document. -/
def JsonText.opensContainer (cs : List Char) : Bool :=
  (skipBlanks cs).head? == some '{' || (skipBlanks cs).head? == some '['

theorem JsonText.exists_root_of_opensContainer {cs : List Char} (h : opensContainer cs = true) :
    (∃ es, (Document.ofChars cs).root = .map es) ∨ ∃ vs, (Document.ofChars cs).root = .seq vs := by
  have hroot : (Document.ofChars cs).root = (readValue (cs.length + 1) maxDepth cs).1 := by
    rw [Document.ofChars]
    split <;> rename_i heq <;> rw [heq]
  have hlevel (node : Node) : atLevel maxDepth node = node := if_neg (by decide)
  simp only [opensContainer, Bool.or_eq_true, beq_iff_eq] at h
  rw [hroot, readValue]
  split
  · right
    split
    · exact ⟨_, hlevel _⟩
    · exact ⟨_, hlevel _⟩
  · left
    split
    · exact ⟨_, hlevel _⟩
    · exact ⟨_, hlevel _⟩
  · rename_i hbracket hbrace
    rcases hcs : skipBlanks cs with _ | ⟨c, rest⟩
    · simp [hcs] at h
    · rw [hcs, List.head?_cons, Option.some.injEq, Option.some.injEq] at h
      rcases h with rfl | rfl
      · exact absurd hcs (hbrace rest)
      · exact absurd hcs (hbracket rest)

namespace Keyed

variable {m : Medium} {level : Nat}

/-! ### Pairs -/

/-- The item of an untyped array that spells a pair. -/
def pairItem (p : String × Json) : Json := .arr [.str p.1, p.2]

theorem filterMap_pairItem (ps : List (String × Json)) :
    (ps.map pairItem).filterMap pairOfValue? = ps := by
  rw [List.filterMap_map]
  exact List.filterMap_some

theorem pair_iff {node : Node} (hnode : node.Literal) {p : String × Json} :
    Read.pair Read.json m node = .ok p ↔ Read.json m node = .ok (pairItem p) := by
  constructor
  · intro h
    unfold Read.pair at h
    split at h
    · rename_i k v rest
      obtain ⟨s, hs, h⟩ := except_bind_eq_ok h
      obtain ⟨x, hx, hpair⟩ := except_bind_eq_ok h
      split at hpair
      · rename_i hrest
        obtain rfl := (Read.text_eq_ok_iff hnode.1).mp hs
        obtain rfl := List.isEmpty_iff.mp hrest
        obtain rfl := Except.ok.inj hpair
        simp [Read.json, Read.jsonItems, hx, Except.map, pairItem]
      · simp at hpair
    · obtain ⟨s, -, h⟩ := except_bind_eq_ok h
      simp at h
    · simp at h
    · simp at h
  · intro h
    obtain ⟨vs, rfl, hvs⟩ := Read.kindOf_of_json h
    rw [Read.jsonItems_eq_ok_iff] at hvs
    obtain _ | ⟨hk, _ | ⟨hv, hnil⟩⟩ := hvs
    cases hnil
    obtain rfl := Read.kindOf_of_json hk
    simp [Read.pair, Read.text, hv, bind, Except.bind]

theorem items_pair_iff {vs : List Node} (hvs : LiteralItems vs) {ps : List (String × Json)} :
    Read.items (Read.pair Read.json) m vs = .ok ps ↔
      Read.jsonItems m vs = .ok (ps.map pairItem) := by
  rw [Read.items_eq_ok_iff, Read.jsonItems_eq_ok_iff, List.forall₂_map_right_iff]
  induction vs generalizing ps with
  | nil => simp
  | cons v vs ih =>
    cases ps with
    | nil => simp
    | cons p ps => rw [List.forall₂_cons, List.forall₂_cons, pair_iff hvs.1, ih hvs.2]

/-! ### Documents -/

theorem read_untyped_map_iff {es : List (Key × Node)} (htextual : (Node.map es).Textual level)
    (hkey : (Node.map es).hasKey Read.numberKey = false) {c : Keyed Json} :
    Keyed.read .text (.map es) = .ok c ↔
      ∃ fs, Read.json .text (.map es) = .ok (.obj fs) ∧ c = .map fs := by
  simp only [← Read.entries_heldMap_iff htextual hkey]
  cases hheld : Read.buffer .text (.map es) with
  | error e => simp [Keyed.read, hheld, bind, Except.bind]
  | ok held =>
    rw [Read.buffer] at hheld
    obtain ⟨hs, hhs, rfl⟩ := except_map_eq_ok hheld
    have hread : (Coded.read : Decoder Json) = Read.json := rfl
    -- no map is a list of pairs, and the last way is the first one again
    rcases hfs : Read.entries Read.json .buffered (.map hs) with e | fs <;>
      simp [Keyed.read, Read.buffer, hhs, hread, hfs, Read.list, bind, Except.bind, Except.map,
        eq_comm]

theorem read_untyped_seq_iff {vs : List Node} (htextual : (Node.seq vs).Textual level)
    (hkey : (Node.seq vs).hasKey Read.numberKey = false) {c : Keyed Json} :
    Keyed.read .text (.seq vs) = .ok c ↔
      ∃ ps : List (String × Json), Read.json .text (.seq vs) = .ok (.arr (ps.map pairItem)) ∧
        c = .pairs ps := by
  simp only [← Read.json_held_iff htextual hkey]
  cases hheld : Read.buffer .text (.seq vs) with
  | error e => simp [Keyed.read, hheld, bind, Except.bind]
  | ok held =>
    have hliteral := Read.literal_buffer (by decide) htextual.literal hheld
    rw [Read.buffer] at hheld
    obtain ⟨hs, hhs, rfl⟩ := except_map_eq_ok hheld
    have hread : (Coded.read : Decoder Json) = Read.json := rfl
    have hjson {ws : List Json} : Read.json .buffered (.seq hs) = .ok (.arr ws) ↔
        Read.jsonItems .buffered hs = .ok ws := by
      rw [Read.json, except_map_eq_ok_iff]
      simp
    simp only [hjson, ← items_pair_iff hliteral, Except.ok.injEq, exists_eq_left']
    rcases hps : Read.items (Read.pair Read.json) .buffered hs with e | ps <;>
      simp [Keyed.read, Read.buffer, hhs, hread, hps, Read.list, Read.entries, Except.map, bind,
        Except.bind, eq_comm]

/-! ### Texts -/

/-- **A text that opens a container is a collection exactly when, as an untyped value, it is an object
or an array of pairs.** -/
theorem ofChars_untyped_iff {cs : List Char} (hopens : opensContainer cs = true)
    (hkey : (Document.ofChars cs).root.hasKey Read.numberKey = false) {c : Keyed Json} :
    ofChars cs = .ok c ↔
      (∃ fs, (Document.ofChars cs).decode Read.json = .ok (.obj fs) ∧ c = .map fs) ∨
        ∃ ps : List (String × Json),
          (Document.ofChars cs).decode Read.json = .ok (.arr (ps.map pairItem)) ∧ c = .pairs ps := by
  have htextual := Document.textual_root cs
  simp only [ofChars, Document.decode_eq_ok_iff]
  obtain ⟨es, hroot⟩ | ⟨vs, hroot⟩ := exists_root_of_opensContainer hopens
  · rw [hroot] at htextual hkey ⊢
    have hnot (ws : List Json) : Read.json .text (.map es) ≠ .ok (.arr ws) := fun h => by
      obtain ⟨vs, hvs, -⟩ := Read.kindOf_of_json h
      simp at hvs
    simp only [read_untyped_map_iff htextual hkey, hnot, false_and, exists_false, or_false,
      ← exists_and_right, and_right_comm]
  · rw [hroot] at htextual hkey ⊢
    have hnot (fs : Entries Json) : Read.json .text (.seq vs) ≠ .ok (.obj fs) := fun h => by
      obtain ⟨es, hes⟩ := Read.kindOf_of_json h
      simp at hes
    simp only [read_untyped_seq_iff htextual hkey, hnot, false_and, exists_false, false_or,
      ← exists_and_right, and_right_comm]

theorem ofChars_of_decode_obj {cs : List Char} {fs : Entries Json}
    (hkey : (Document.ofChars cs).root.hasKey Read.numberKey = false)
    (h : (Document.ofChars cs).decode Read.json = .ok (.obj fs)) :
    ofChars cs = .ok (.map fs : Keyed Json) := by
  obtain ⟨hread, htrailing⟩ := Document.decode_eq_ok_iff.mp h
  obtain ⟨es, hroot⟩ := Read.kindOf_of_json hread
  have htextual := Document.textual_root cs
  rw [hroot] at htextual hkey hread
  refine Document.decode_eq_ok_iff.mpr ⟨?_, htrailing⟩
  rw [hroot]
  exact (read_untyped_map_iff htextual hkey).mpr ⟨fs, hread, rfl⟩

/-- **A collection of untyped values has the pairs of the untyped value that the same text is.** The
text of an object always is a collection. -/
theorem normalize_eq_normalizeValue {cs : List Char}
    (hkey : (Document.ofChars cs).root.hasKey Read.numberKey = false) :
    (∀ fs, (Document.ofChars cs).decode Read.json = .ok (.obj fs) →
        ∃ c : Keyed Json, ofChars cs = .ok c) ∧
      (opensContainer cs = true → ∀ c : Keyed Json, ofChars cs = .ok c →
        ∃ v, (Document.ofChars cs).decode Read.json = .ok v ∧
          c.normalize = normalizeValue (some v)) := by
  refine ⟨fun fs hfs => ⟨.map fs, ofChars_of_decode_obj hkey hfs⟩, fun hopens c hc => ?_⟩
  obtain ⟨fs, hfs, rfl⟩ | ⟨ps, hps, rfl⟩ := (ofChars_untyped_iff hopens hkey).mp hc
  · exact ⟨.obj fs, hfs, rfl⟩
  · exact ⟨.arr (ps.map pairItem), hps, (filterMap_pairItem ps).symm⟩

/-- A repeated key and numbers that no 64 bits hold as they are spelled. -/
def oddObject : List Char := "\x7b\"b\":-0,\"a\":[1.50,\x7b\"x\":1e400\x7d],\"b\":1E5\x7d".toList

/-- The same, pair by pair. -/
def oddPairs : List Char := "[[\"b\",-0],[\"a\",\x7b\"x\":1e400\x7d],[\"b\",1E5]]".toList

/-- The pairs that a text's collection shows, each value as it is written. -/
def shownPairs (cs : List Char) : List (String × String) :=
  match (ofChars cs : Except DecodeError (Keyed Json)) with
  | .ok c => c.normalize.map fun p => (p.1, p.2.compact)
  | .error _ => []

theorem normalize_eq_normalizeValue_odd :
    (∃ c : Keyed Json, ofChars oddObject = .ok c) ∧
      (∃ c : Keyed Json, ofChars oddPairs = .ok c ∧
        ∃ v, (Document.ofChars oddPairs).decode Read.json = .ok v ∧
          c.normalize = normalizeValue (some v)) ∧
        shownPairs oddObject = [("b", "1e+5"), ("a", "[1.50,\x7b\"x\":1e+400\x7d]")] ∧
          shownPairs oddPairs = [("b", "-0"), ("a", "\x7b\"x\":1e+400\x7d"), ("b", "1e+5")] := by
  have hobject : ((Document.ofChars oddObject).decode Read.json).toOption.any Json.isObject = true := by
    decide +kernel
  obtain ⟨fs, hfs⟩ : ∃ fs, (Document.ofChars oddObject).decode Read.json = .ok (.obj fs) := by
    cases hv : (Document.ofChars oddObject).decode Read.json with
    | error e => simp [hv, Except.toOption] at hobject
    | ok v =>
      rw [hv] at hobject
      obtain ⟨fs, rfl⟩ := Json.isObject_iff.mp hobject
      exact ⟨fs, rfl⟩
  have hpairs : (ofChars oddPairs : Except DecodeError (Keyed Json)).toOption.isSome = true := by
    decide +kernel
  have hc := eq_ok_of_isSome hpairs .empty
  refine ⟨(normalize_eq_normalizeValue (by decide +kernel)).1 fs hfs, ⟨_, hc, ?_⟩, ?_, ?_⟩
  · exact (normalize_eq_normalizeValue (by decide +kernel)).2 (by decide +kernel) _ hc
  · decide +kernel
  · decide +kernel

end Keyed

end FrameScope
