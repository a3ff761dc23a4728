import FrameScope.Proofs.Json.Literal
import FrameScope.Proofs.Json.Pretty
import FrameScope.Proofs.Node.Settled

/-!
# How deep values nest

A value that is read from a text has no more containers in one another than may be open at once
(`Document.nesting_le_of_decode`). A value that is held back and read again nests as deep as it did
(`Json.nesting_eq_of_settled?`).
-/

namespace FrameScope

open Node Json

/-! ### Values of texts -/

theorem Json.nestingFields_put_le {fs : Entries Json} {k : String} {v : Json} {level : Nat}
    (hfs : nestingFields fs ≤ level) (hv : v.nesting ≤ level) :
    nestingFields (fs.put k v) ≤ level := by
  rw [nestingFields_le_iff] at hfs ⊢
  intro f hf
  rcases Entries.mem_of_mem_put hf with rfl | hf
  · exact hv
  · exact hfs f hf

namespace Read

variable {m : Medium}

theorem nesting_jsonOfNumber (m : Medium) (n : Number) : (jsonOfNumber m n).nesting = 0 := by
  cases m with
  | value =>
    rw [jsonOfNumber]
    split <;> rfl
  | _ => rfl

mutual

theorem nesting_le_of_json : ∀ {node : Node} {level : Nat} {v : Json},
    node.Textual level → json m node = .ok v → v.nesting ≤ level
  | .null, _, _, _, h => Except.ok.inj h ▸ Nat.zero_le _
  | .bool _, _, _, _, h => Except.ok.inj h ▸ Nat.zero_le _
  | .text _, _, _, _, h => Except.ok.inj h ▸ Nat.zero_le _
  | .num n, _, _, _, h => by
    rw [json] at h
    rw [← Except.ok.inj h, nesting_jsonOfNumber]
    exact Nat.zero_le _
  | .seq _, _, _, hvs, h => by
    rw [json] at h
    obtain ⟨ws, hws, rfl⟩ := except_map_eq_ok h
    have hlevel := hvs.1
    have hitems := nestingItems_le_of_jsonItems hvs.2 hws
    rw [Json.nesting]
    omega
  | .map [], _, _, hes, h => by
    rw [json] at h
    exact Except.ok.inj h ▸ hes.1
  | .map ((.name s, w) :: rest), level, v, hes, h => by
    rw [json] at h
    split at h
    · split at h
      · simp at h
      · split at h
        · exact Except.ok.inj h ▸ Nat.zero_le _
        · simp at h
    · split at h
      · simp at h
      · rename_i x hx
        obtain ⟨gs, hgs, rfl⟩ := except_map_eq_ok h
        have hlevel := hes.1
        have hhead := nesting_le_of_json hes.2.2.1 hx
        have hfields := nestingFields_le_of_jsonEntries hes.2.2.2 hgs
          (nestingFields_le_iff.mpr (by simpa using hhead))
        rw [Json.nesting]
        omega
  | .map ((.index _, _) :: _), _, _, _, h => by simp [json] at h
  | .map ((.bytes _, _) :: _), _, _, _, h => by simp [json] at h
  | .map ((.other, _) :: _), _, _, _, h => by simp [json] at h
  | .map ((.unreadable, _) :: _), _, _, _, h => by simp [json] at h
  | .unreadable, _, _, _, h => by simp [json] at h
  | .deep _, _, _, _, h => by simp [json] at h
  | .broken, _, _, _, h => by simp [json] at h

theorem nestingItems_le_of_jsonItems : ∀ {nodes : List Node} {level : Nat} {vs : List Json},
    TextualItems level nodes → jsonItems m nodes = .ok vs → nestingItems vs ≤ level
  | [], _, _, _, h => Except.ok.inj h ▸ Nat.zero_le _
  | _ :: _, _, _, hnodes, h => by
    obtain ⟨_, _, hv, hvs, rfl⟩ := jsonItems_cons_eq_ok.mp h
    exact Nat.max_le.mpr
      ⟨nesting_le_of_json hnodes.1 hv, nestingItems_le_of_jsonItems hnodes.2 hvs⟩

theorem nestingFields_le_of_jsonEntries : ∀ {entries : List (Key × Node)} {level : Nat}
    {fs gs : Entries Json}, TextualEntries level entries → jsonEntries m fs entries = .ok gs →
      nestingFields fs ≤ level → nestingFields gs ≤ level
  | [], _, _, _, _, h, hfs => Except.ok.inj h ▸ hfs
  | (.name _, _) :: _, _, _, _, hes, h, hfs => by
    obtain ⟨_, hx, hgs⟩ := jsonEntries_cons_eq_ok.mp h
    exact nestingFields_le_of_jsonEntries hes.2.2 hgs
      (nestingFields_put_le hfs (nesting_le_of_json hes.2.1 hx))
  | (.index _, _) :: _, _, _, _, _, h, _ => by simp [jsonEntries] at h
  | (.bytes _, _) :: _, _, _, _, _, h, _ => by simp [jsonEntries] at h
  | (.other, _) :: _, _, _, _, _, h, _ => by simp [jsonEntries] at h
  | (.unreadable, _) :: _, _, _, _, _, h, _ => by simp [jsonEntries] at h

end

end Read

/-- **A value of a text nests no deeper than containers may be open.** -/
theorem Document.nesting_le_of_decode {cs : List Char} {v : Json}
    (h : (Document.ofChars cs).decode Read.json = .ok v) : v.nesting ≤ JsonText.maxDepth :=
  Read.nesting_le_of_json (Document.textual_root cs) (Document.read_of_decode h)

/-! ### Values held back -/

namespace Json

mutual

/-- **Holding a value back does not change how deep it nests.** -/
theorem nesting_eq_of_settled? : ∀ {v w : Json}, v.settled? = some w → w.nesting = v.nesting
  | .null, _, h => by rw [← Option.some.inj h]
  | .bool _, _, h => by rw [← Option.some.inj h]
  | .str _, _, h => by rw [← Option.some.inj h]
  | .num _, _, h => by
    obtain ⟨_, -, rfl⟩ := Option.map_eq_some_iff.mp h
    rfl
  | .arr _, _, h => by
    obtain ⟨_, hws, rfl⟩ := Option.map_eq_some_iff.mp h
    exact congrArg (· + 1) (nestingItems_eq_of_settledItems? hws)
  | .obj _, _, h => by
    obtain ⟨_, hgs, rfl⟩ := Option.map_eq_some_iff.mp h
    exact congrArg (· + 1) (nestingFields_eq_of_settledFields? hgs)

theorem nestingItems_eq_of_settledItems? : ∀ {vs ws : List Json}, settledItems? vs = some ws →
    nestingItems ws = nestingItems vs
  | [], _, h => by rw [← Option.some.inj h]
  | _ :: _, _, h => by
    obtain ⟨_, _, hw, hrest, rfl⟩ := settledItems?_cons.mp h
    exact congrArg₂ max (nesting_eq_of_settled? hw) (nestingItems_eq_of_settledItems? hrest)

theorem nestingFields_eq_of_settledFields? : ∀ {fs gs : Entries Json},
    settledFields? fs = some gs → nestingFields gs = nestingFields fs
  | [], _, h => by rw [← Option.some.inj h]
  | (_, _) :: _, _, h => by
    obtain ⟨_, _, hw, hrest, rfl⟩ := settledFields?_cons.mp h
    exact congrArg₂ max (nesting_eq_of_settled? hw) (nestingFields_eq_of_settledFields? hrest)

end

end Json

end FrameScope
