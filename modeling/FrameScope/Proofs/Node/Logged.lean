import FrameScope.Proofs.Cbor.RoundTrip
import FrameScope.Proofs.Node.Form

/-!
# Logged documents read again

Holding a logged document back changes nothing (`buffer_logged`), and a sound untyped value is read
from its logged document (`json_logged`). A logged document is `null` only when the document is.
-/

namespace FrameScope

namespace Node

mutual

theorem writable_ofJson : ∀ v : Json, (ofJson v).Writable
  | .null => trivial
  | .bool _ => trivial
  | .num _ => trivial
  | .str _ => trivial
  | .arr vs => writable_ofJsonItems vs
  | .obj fs => writable_ofJsonFields fs

theorem writable_ofJsonItems : ∀ vs : List Json, WritableItems (ofJsonItems vs)
  | [] => trivial
  | v :: vs => ⟨writable_ofJson v, writable_ofJsonItems vs⟩

theorem writable_ofJsonFields : ∀ fs : List (String × Json), WritableEntries (ofJsonFields fs)
  | [] => trivial
  | (_, v) :: fs => ⟨⟨_, rfl⟩, writable_ofJson v, writable_ofJsonFields fs⟩

end

theorem logged_eq_null {node : Node} (h : node.logged = .null) : node = .null := by
  cases node <;> simp [logged, Read.opaqueNumber] at h ⊢

theorem ofJson_eq_null {v : Json} (h : ofJson v = .null) : v = .null := by
  cases v <;> simp [ofJson] at h ⊢

theorem form_logged : Form logged where
  null := rfl
  bool _ := rfl
  text _ := rfl
  seq vs := by rw [logged, loggedItems_eq_map]
  map es := by rw [logged, loggedEntries_eq_map]
  eq_null := logged_eq_null

end Node

namespace Read

open Node Json

variable {m : Medium}

/-! ### Held back -/

/-- Held back, numbers in one form are numbers in the other. -/
structure Holds (m : Medium) (carry kept : Node → Node) : Prop where
  arrives : Form carry
  stays : Form kept
  int : ∀ {i : Int}, 0 ≤ i → i < Word.size → buffer m (carry (.int i)) = .ok (kept (.int i))
  num : ∀ n, buffer m (carry (.num n)) = .ok (kept (.num n))

variable {carry kept : Node → Node}

mutual

theorem buffer_form (h : Holds m carry kept) : ∀ {node : Node}, node.Writable →
    buffer m (carry node) = .ok (kept node)
  | .null, _ => by rw [h.arrives.null, h.stays.null, buffer]
  | .bool _, _ => by rw [h.arrives.bool, h.stays.bool, buffer]
  | .int _, hi => h.int hi.1 hi.2
  | .num n, _ => h.num n
  | .text _, _ => by rw [h.arrives.text, h.stays.text, buffer]
  | .seq vs, hvs => by
    rw [h.arrives.seq, h.stays.seq, buffer, bufferItems_form h hvs]
    rfl
  | .map es, hes => by
    rw [h.arrives.map, h.stays.map, buffer, bufferEntries_form h hes]
    rfl

theorem bufferItems_form (h : Holds m carry kept) : ∀ {vs : List Node}, WritableItems vs →
    bufferItems m (vs.map carry) = .ok (vs.map kept)
  | [], _ => rfl
  | v :: vs, hvs => by
    rw [List.map_cons, bufferItems, buffer_form h hvs.1, bufferItems_form h hvs.2]
    rfl

theorem bufferEntries_form (h : Holds m carry kept) : ∀ {es : List (Key × Node)},
    WritableEntries es →
      bufferEntries m (es.map fun e => (e.1, carry e.2)) = .ok (es.map fun e => (e.1, kept e.2))
  | [], _ => rfl
  | (k, v) :: es, ⟨⟨s, hk⟩, hv, hes⟩ => by
    subst hk
    rw [List.map_cons, bufferEntries, if_neg (by simp), buffer_form h hv, bufferEntries_form h hes]
    rfl

end

theorem holds_logged : Holds m logged logged where
  arrives := form_logged
  stays := form_logged
  int hpos _ := by
    show buffer m (.int _) = .ok (.int _)
    rw [buffer, if_neg fun h => Int.not_lt.mpr hpos h.1]
  num n := by simp [logged, opaqueNumber, buffer, bufferEntries, Except.map]

theorem buffer_logged {node : Node} (h : node.Writable) :
    buffer m node.logged = .ok node.logged := buffer_form holds_logged h

/-! ### Read again -/

theorem numberOfSpelling_text {n : Number} (hn : n.Valid) :
    numberOfSpelling (.text n.text) = .ok n := by
  simp [numberOfSpelling, Number.ofText?_chars hn]

/-- **A sound untyped value is read from its logged document.** -/
theorem json_logged {v : Json} (hv : v.Sound) : json m (ofJson v).logged = .ok v := by
  refine json_form form_logged (fun hn => ?_) hv
  simp [logged, opaqueNumber, json, numberOfSpelling_text hn]

end Read

end FrameScope
