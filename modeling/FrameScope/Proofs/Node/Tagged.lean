import FrameScope.Node.Tagged
import FrameScope.Proofs.Node.Held

/-!
# What is read of tagged documents

The meaning of a tag is one of the names', and what is held back of the rest is literal when the
document is (`tagged_invariant`). In a map everything but the tag is held back
(`exists_buffer_of_taggedEntries`), and when the tag comes first it is held back as it stands
(`taggedEntries_of_buffer`).
-/

namespace FrameScope.Read

open Node

variable {α : Type} {m : Medium} {label : String} {names : List (String × α)}

theorem mem_of_named {s : String} {x : α} (h : named names s = .ok x) : (s, x) ∈ names := by
  unfold named at h
  split at h
  · rename_i y hy
    obtain rfl := Except.ok.inj h
    exact Entries.mem_of_get? hy
  · simp at h

theorem mem_of_tag {node : Node} {x : α} (h : tag names node = .ok x) : ∃ s, (s, x) ∈ names := by
  unfold tag at h
  split at h
  · exact ⟨_, mem_of_named h⟩
  · simp at h

/-! ### Maps -/

theorem taggedEntries_invariant (hm : m ≠ .value) {es : List (Key × Node)} {found : Option α}
    {held : List (Key × Node)} {r : Option α × List (Key × Node)} (hes : LiteralEntries es)
    (h : taggedEntries label names m found held es = .ok r)
    (hfound : ∀ x ∈ found, ∃ s, (s, x) ∈ names) (hheld : ∀ e ∈ held, e.1.Literal e.2 ∧ e.2.Literal) :
    (∀ x ∈ r.1, ∃ s, (s, x) ∈ names) ∧ (Node.map r.2).Literal := by
  induction es generalizing found held with
  | nil =>
    obtain rfl := Except.ok.inj h
    exact ⟨hfound, literal_map.mpr hheld⟩
  | cons e es ih =>
    obtain ⟨k, v⟩ := e
    obtain ⟨hk, hv, hes⟩ := hes
    rw [taggedEntries] at h
    split at h
    · simp at h
    · split at h
      · split at h
        · simp at h
        · obtain ⟨x, hx, h⟩ := except_bind_eq_ok h
          refine ih hes h ?_ hheld
          rintro y ⟨⟩
          exact mem_of_tag hx
      · obtain ⟨w, hw, h⟩ := except_bind_eq_ok h
        refine ih hes h hfound fun e he => ?_
        rcases List.mem_append.mp he with he | he
        · exact hheld e he
        · obtain rfl := List.mem_singleton.mp he
          exact ⟨literal_key_of_buffer hk hw, literal_buffer hm hv hw⟩

theorem exists_buffer_of_taggedEntries {es : List (Key × Node)} {found : Option α}
    {held : List (Key × Node)} {r : Option α × List (Key × Node)}
    (h : taggedEntries label names m found held es = .ok r) :
    ∀ e ∈ es, e.1 ≠ .name label → ∃ w, buffer m e.2 = .ok w := by
  induction es generalizing found held with
  | nil => simp
  | cons e es ih =>
    obtain ⟨k, v⟩ := e
    rw [taggedEntries] at h
    split at h
    · simp at h
    · split at h
      · rename_i hlabel
        split at h
        · simp at h
        · obtain ⟨x, -, h⟩ := except_bind_eq_ok h
          exact List.forall_mem_cons.mpr ⟨fun hne => absurd hlabel hne, ih h⟩
      · obtain ⟨w, hw, h⟩ := except_bind_eq_ok h
        exact List.forall_mem_cons.mpr ⟨fun _ => ⟨w, hw⟩, ih h⟩

theorem taggedEntries_of_buffer {es hs : List (Key × Node)} {x : α} {held : List (Key × Node)}
    (hlabel : ∀ e ∈ es, e.1 ≠ .name label) (h : bufferEntries m es = .ok hs) :
    taggedEntries label names m (some x) held es = .ok (some x, held ++ hs) := by
  induction es generalizing hs held with
  | nil =>
    obtain rfl := Except.ok.inj h
    rw [taggedEntries, List.append_nil]
  | cons e es ih =>
    obtain ⟨k, v⟩ := e
    obtain ⟨hk, hrest⟩ := List.forall_mem_cons.mp hlabel
    rw [bufferEntries] at h
    split at h
    · simp at h
    · rename_i hreadable
      split at h
      · simp at h
      · rename_i w hw
        obtain ⟨ws, hws, rfl⟩ := except_map_eq_ok h
        have hnext := @ih ws (held ++ [(k, w)]) hrest hws
        rw [taggedEntries, if_neg hreadable, if_neg hk]
        simp only [hw, bind, Except.bind, hnext, List.append_assoc, List.singleton_append]

/-! ### Documents -/

theorem literal_of_anyKind (hm : m ≠ .value) {node kind : Node} (hnode : node.Literal)
    (h : anyKind m node = .ok kind) : kind.Literal := by
  unfold anyKind at h
  split at h
  · exact literal_bufferNumber hm h
  · exact Except.ok.inj h ▸ hnode

/-- **What a tagged document yields: a meaning of the names, and a literal rest.** -/
theorem tagged_invariant (hm : m ≠ .value) {node held : Node} {x : α} (hnode : node.Literal)
    (h : tagged label names m node = .ok (x, held)) : (∃ s, (s, x) ∈ names) ∧ held.Literal := by
  obtain ⟨kind, hkind, h⟩ := except_bind_eq_ok h
  have hlit := literal_of_anyKind hm hnode hkind
  split at h
  · obtain ⟨⟨found, es⟩, hes, h⟩ := except_bind_eq_ok h
    obtain ⟨hfound, hrest⟩ := taggedEntries_invariant hm hlit hes (by simp) (by simp)
    cases found with
    | none => simp at h
    | some y =>
      obtain ⟨rfl, rfl⟩ := Prod.mk.inj (Except.ok.inj h)
      exact ⟨hfound y rfl, hrest⟩
  · simp at h
  · obtain ⟨y, hy, h⟩ := except_bind_eq_ok h
    obtain ⟨vs, hvs, h⟩ := except_bind_eq_ok h
    obtain ⟨rfl, rfl⟩ := Prod.mk.inj (Except.ok.inj h)
    exact ⟨mem_of_tag hy, literal_bufferItems hm hlit.2 hvs⟩
  · simp at h

end FrameScope.Read
