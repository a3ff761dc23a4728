import FrameScope.Panel.Event
import FrameScope.Proofs.Json.Literal
import FrameScope.Proofs.Node.Kept
import FrameScope.Proofs.Node.Tagged

/-!
# Events through their texts

An event is written as a plain record with its tag in front. Read from a text the rest of the record
is held back, and a number that is no integer is then the one-entry map of its spelling. Texts and
untyped values are read from that, so most events come back (`brings_of_readsBack`); a coordinate is
not, so a camera pose never does (`decode_cameraUpdate`). `decode_wire_iff` says exactly which
events come back from their texts.
-/

namespace FrameScope

open Node

/-- Three finite numbers. -/
def Point.Finite (p : Point) : Prop :=
  ∀ x ∈ [p.x, p.y, p.z], x.isFinite = true ∧ x.Readable

namespace PanelEvent

/-- Every coordinate of a camera is finite. -/
def Finite : PanelEvent → Prop
  | .cameraUpdate pose => pose.position.Finite ∧ pose.target.Finite
  | _ => True

/-- The events that come back from their texts: no camera pose, and no value that is not read back
itself or stands too deep inside the event. -/
def ReadsBack : PanelEvent → Prop
  | .settingsChanged c => c.value.Sound ∧ c.value.nesting < JsonText.maxDepth
  | .cameraUpdate _ => False
  | _ => True

theorem read_of_shape {m : Medium} {tag : String} {shape : Decoder PanelEvent}
    {es held : List (Key × Node)} (hshape : Read.named shapes tag = .ok shape)
    (hlabel : ∀ entry ∈ es, entry.1 ≠ .name label) (hes : Read.bufferEntries m es = .ok held) :
    PanelEvent.read m (.map ((.name label, .text tag) :: es)) = shape .buffered (.map held) := by
  have hentries : Read.taggedEntries label shapes m none [] ((.name label, .text tag) :: es) =
      .ok (some shape, held) := by
    rw [Read.taggedEntries, if_neg (Key.noConfusion ·), if_pos rfl]
    simp only [Option.isSome_none, Bool.false_eq_true, if_false, Read.tag, hshape, bind, Except.bind]
    exact Read.taggedEntries_of_buffer hlabel hes
  rw [PanelEvent.read, Read.tagged]
  simp only [Read.anyKind, bind, Except.bind, hentries]

/-! ### What comes back -/

section Brings

open Carriage

variable {K : Carriage} {level : Nat} {e : PanelEvent} {shape : Decoder PanelEvent}

theorem brings_of_shape (hshape : Read.named shapes e.topic = .ok shape)
    (hlabel : ∀ entry ∈ e.body, entry.1 ≠ .name label)
    (hpasses : ∀ entry ∈ e.body, (∃ s, entry.1 = .name s) ∧ K.Passes level entry.2)
    (hread : shape .buffered (K.kept (.map e.body)) = .ok e) :
    K.Brings (level + 1) Coded.read (Coded.write e) e := by
  have htag : (∃ s, Key.name label = .name s) ∧ K.Passes level (.text e.topic) :=
    ⟨⟨_, rfl⟩, K.passes_text⟩
  refine ⟨K.passes_map (List.forall_mem_cons.mpr ⟨htag, hpasses⟩), fun {m carry} harrives => ?_⟩
  have hform := K.form harrives
  have hkept := K.buffer harrives (K.passes_map hpasses)
  rw [hform.map, Read.buffer] at hkept
  obtain ⟨held, hheld, heq⟩ := except_map_eq_ok hkept
  have hcarried : ∀ entry ∈ e.body.map fun entry => (entry.1, carry entry.2),
      entry.1 ≠ .name label := by
    rintro _ hentry
    obtain ⟨entry, hmem, rfl⟩ := List.mem_map.mp hentry
    exact hlabel entry hmem
  show PanelEvent.read m (carry (.map ((.name label, .text e.topic) :: e.body))) = .ok e
  rw [hform.map, List.map_cons, hform.text, read_of_shape hshape hcarried hheld, heq]
  exact hread

theorem brings_of_fills {σ : Type} {fields : List (Field σ)} {init t : σ} {event : σ → PanelEvent}
    (hshape : Read.named shapes (event t).topic =
      .ok fun m node => (Read.record fields init m node).map event)
    (hun : Read.Unambiguous fields) (hlabel : ∀ f ∈ fields, f.name ≠ label)
    (hfills : K.Fills level fields ((event t).body ++ []) init t) :
    K.Brings (level + 1) Coded.read (Coded.write (event t)) (event t) := by
  have hrecord := brings_record hun hfills
  rw [List.append_nil] at hfills
  refine brings_of_shape hshape (fun entry hentry heq => ?_) hfills.passes ?_
  · obtain ⟨f, hf, hname⟩ := hfills.names entry hentry
    exact hlabel f hf (Key.name.inj (hname.symm.trans heq))
  · rw [hrecord.read K.arrives_kept]
    rfl

/-- **Whatever reads back is brought by its text.** -/
theorem brings_of_readsBack (h : e.ReadsBack) :
    text.Brings JsonText.maxDepth Coded.read (Coded.write e) e := by
  show text.Brings (126 + 1) Coded.read (Coded.write e) e
  cases e with
  | entitySelected s =>
    refine brings_of_fills rfl (by decide) (by decide) ?_
    simp only [body, List.cons_append, List.nil_append, List.append_assoc]
    exact .always rfl rfl (brings_text _) <|
      .optional rfl rfl rfl rfl (fun _ _ => ⟨brings_text _, nofun⟩) Option.map_id' <|
      .optional rfl rfl rfl rfl (fun _ _ => ⟨brings_text _, nofun⟩) Option.map_id' <| .nil _
  | settingsChanged c =>
    have hpasses : text.Passes 126 (ofJson c.value) :=
      passes_ofJson h.1.valid (Nat.le_of_lt_succ h.2)
    refine brings_of_fills rfl (by decide) (by decide) ?_
    exact .always rfl rfl (brings_text _) <| .always rfl rfl (brings_json h.1 hpasses) <| .nil _
  | cameraFocus target =>
    refine brings_of_fills rfl (by decide) (by decide) ?_
    exact .always rfl rfl (brings_text _) <| .nil _
  | cameraUpdate pose => exact h.elim
  | settingsReset => exact brings_of_shape rfl (by simp [body]) (by simp [body]) rfl
  | cameraRestore => exact brings_of_shape rfl (by simp [body]) (by simp [body]) rfl

end Brings

/-! ### What does not -/

theorem sound_of_read {m : Medium} (hm : m ≠ .value) {node : Node} (hnode : node.Literal)
    {c : SettingChange} (h : PanelEvent.read m node = .ok (.settingsChanged c)) : c.value.Sound := by
  obtain ⟨⟨shape, held⟩, htagged, hshape⟩ := except_bind_eq_ok h
  obtain ⟨⟨tag, hmem⟩, hheld⟩ := Read.tagged_invariant hm hnode htagged
  simp only [shapes, List.mem_cons, Prod.mk.injEq, List.not_mem_nil, or_false] at hmem
  rcases hmem with ⟨-, rfl⟩ | ⟨-, rfl⟩ | ⟨-, rfl⟩ | ⟨-, rfl⟩ | ⟨-, rfl⟩ | ⟨-, rfl⟩ <;>
    obtain ⟨x, hx, heq⟩ := except_map_eq_ok hshape <;> cases heq
  refine Read.record_invariant (P := fun c => c.value.Sound) trivial ?_ hheld.parts hx
  simp only [changeFields, List.forall_mem_cons, List.not_mem_nil, false_implies, implies_true,
    and_true]
  refine ⟨Read.keeps_free rfl fun _ _ hs => hs, ?_⟩
  exact Read.keeps_of_set rfl (fun _ _ hv hx => Read.sound_of_json hv hx) fun _ _ hx _ => hx

theorem exists_buffer_of_read {m : Medium} {es : List (Key × Node)} {e : PanelEvent}
    (h : PanelEvent.read m (.map es) = .ok e) :
    ∀ entry ∈ es, entry.1 ≠ .name label → ∃ held, Read.buffer m entry.2 = .ok held := by
  obtain ⟨⟨shape, held⟩, htagged, -⟩ := except_bind_eq_ok h
  obtain ⟨⟨found, others⟩, hentries, -⟩ := except_bind_eq_ok htagged
  exact Read.exists_buffer_of_taggedEntries hentries

theorem nesting_lt_of_decode {c : SettingChange} {e : PanelEvent} (hvalue : c.value.Sound)
    (h : (Document.ofChars (Coded.json (settingsChanged c)).compactChars).decode Coded.read =
      .ok e) : c.value.nesting < JsonText.maxDepth := by
  have hjson : Coded.json (settingsChanged c) = .obj [("event", .str "settings-changed"),
      ("key", .str c.key), ("value", c.value)] := by
    show Json.obj [_, _, ("value", (ofJson c.value).toJson)] = _
    rw [toJson_ofJson]
    rfl
  have hvalid : (Json.obj [("event", .str "settings-changed"), ("key", .str c.key),
      ("value", c.value)]).Valid := ⟨trivial, trivial, hvalue.valid, trivial⟩
  have hread := Document.read_of_decode h
  rw [hjson, Document.ofChars_compact hvalid] at hread
  obtain ⟨held, hheld⟩ := exists_buffer_of_read hread
    (.name "value", JsonText.treeOf (JsonText.maxDepth - 1) c.value)
    (by simp [JsonText.treeFields]) (show Key.name "value" ≠ .name label by decide)
  exact Nat.lt_succ_of_le (Read.nesting_le_of_buffer hheld)

theorem exists_numbers {p : Point} (h : p.Finite) :
    ∃ a b c : Number, (Coded.write p).toJson = .arr [.num a, .num b, .num c] ∧
      ∀ n ∈ [a, b, c], n.Valid ∧ n.int64? = none := by
  have hnumber (x : Binary64) (hx : x.isFinite = true ∧ x.Readable) :
      ∃ n : Number, (Node.float x).toJson = .num n ∧ n.Valid ∧ n.int64? = none := by
    cases x with
    | finite s rank =>
      obtain ⟨n, hn, hinteger, -⟩ := Number.exists_ofBinary64? s hx.2
      refine ⟨n, by rw [toJson, hn], Number.valid_of_ofText? hn, ?_⟩
      simp [Number.int64?, Number.toInt?, hinteger]
    | infinite s => simp [Binary64.isFinite] at hx
    | nan => simp [Binary64.isFinite] at hx
  obtain ⟨a, ha, hgood⟩ := hnumber p.x (h p.x (by simp))
  obtain ⟨b, hb, hgood'⟩ := hnumber p.y (h p.y (by simp))
  obtain ⟨c, hc, hgood''⟩ := hnumber p.z (h p.z (by simp))
  refine ⟨a, b, c, ?_, by simp [hgood, hgood', hgood'']⟩
  simp only [Coded.write, toJson, toJsonItems] at ha hb hc ⊢
  rw [ha, hb, hc]

/-- Held back, such numbers are maps, and no point is read of maps. -/
theorem read_point_kept {a b c : Number} (h : ∀ n ∈ [a, b, c], n.int64? = none) :
    Point.read .buffered (ofJson (.arr [.num a, .num b, .num c])).kept = .error .invalidType := by
  have hkept : keptNumber a = Read.opaqueNumber a := by
    simp [keptNumber, h a (by simp)]
  show Point.read .buffered (.seq [keptNumber a, keptNumber b, keptNumber c]) = _
  rw [hkept]
  rfl

/-- **No camera pose is read from its text.** -/
theorem decode_cameraUpdate {pose : CameraPose} (h : Finite (.cameraUpdate pose)) :
    (Document.ofChars (Coded.json (cameraUpdate pose)).compactChars).decode
      (Coded.read (α := PanelEvent)) = .error .invalidType := by
  obtain ⟨a, b, c, hposition, hgood⟩ := exists_numbers h.1
  obtain ⟨a', b', c', htarget, hgood'⟩ := exists_numbers h.2
  have hjson : Coded.json (cameraUpdate pose) = .obj [("event", .str "camera-update"),
      ("position", .arr [.num a, .num b, .num c]),
      ("target", .arr [.num a', .num b', .num c'])] := by
    show Json.obj [_, ("position", (Coded.write pose.position).toJson),
      ("target", (Coded.write pose.target).toJson)] = _
    rw [hposition, htarget]
    rfl
  have hpoint := read_point_kept fun n hn => (hgood n hn).2
  have hvalid : (Coded.json (cameraUpdate pose)).Valid := by
    simp only [List.forall_mem_cons] at hgood hgood'
    rw [hjson]
    exact ⟨trivial, ⟨hgood.1.1, hgood.2.1.1, hgood.2.2.1.1, trivial⟩,
      ⟨hgood'.1.1, hgood'.2.1.1, hgood'.2.2.1.1, trivial⟩, trivial⟩
  have hnesting : (Coded.json (cameraUpdate pose)).nesting ≤ JsonText.maxDepth := by
    rw [hjson]
    show 2 ≤ 127
    decide
  have hheld : Read.bufferEntries .text [
      (.name "position", ofJson (.arr [.num a, .num b, .num c])),
      (.name "target", ofJson (.arr [.num a', .num b', .num c']))] = .ok _ :=
    Read.bufferEntries_cons_eq_ok.mpr ⟨_, _, Read.buffer_ofJson _,
      Read.bufferEntries_cons_eq_ok.mpr ⟨_, _, Read.buffer_ofJson _, rfl, rfl⟩, rfl⟩
  have hread : PanelEvent.read .text (ofJson (Coded.json (cameraUpdate pose))) =
      .error .invalidType := by
    rw [hjson]
    refine (read_of_shape rfl (by simp [label]) hheld).trans ?_
    simp [Read.record, Read.recordEntries, Read.fieldEntries, Read.fieldOf?, poseFields, Field.must,
      Field.answersTo, hpoint, Except.map, bind, Except.bind]
  rw [Document.ofChars_compact hvalid, JsonText.treeOf_of_le hnesting, Document.decode]
  simp only [Coded.read, hread, bind, Except.bind]

/-! ### Whole texts -/

/-- **An event comes back from its text exactly when it is no camera pose and its value, if it has
one, is read back and stands inside as many containers as may be open.** -/
theorem decode_wire_iff {e : PanelEvent} (h : e.Finite) :
    (Document.ofChars (Coded.wire e).toList).decode Coded.read = .ok e ↔ e.ReadsBack := by
  rw [Coded.toList_wire]
  constructor
  · intro hdecode
    cases e with
    | settingsChanged c =>
      have hsound := sound_of_read (by decide) (Document.literal_root _)
        (Document.read_of_decode hdecode)
      exact ⟨hsound, nesting_lt_of_decode hsound hdecode⟩
    | cameraUpdate pose =>
      have hfails := decode_cameraUpdate h
      exact absurd (hfails.symm.trans hdecode) nofun
    | _ => trivial
  · intro hback
    exact Carriage.decode_of_brings (brings_of_readsBack hback)

/-- A panel changes the scale to a number that is no integer, among other values. -/
def scaleChange : PanelEvent :=
  .settingsChanged ⟨"layout", .obj [("scale", .num ⟨false, ['1'], ['5'], none⟩), ("docked", .arr [])]⟩

theorem decode_wire_iff_scaleChange :
    scaleChange.Finite ∧
      (Document.ofChars (Coded.wire scaleChange).toList).decode Coded.read = .ok scaleChange := by
  have hnumber : (⟨false, ['1'], ['5'], none⟩ : Number).Valid :=
    ⟨⟨by decide, by decide, by decide⟩, by decide, by simp⟩
  have hvalue : scaleChange.ReadsBack := by
    refine ⟨⟨by decide, by decide, hnumber, trivial, trivial⟩, ?_⟩
    show 2 < 127
    decide
  have hfinite : scaleChange.Finite := trivial
  exact ⟨hfinite, (decode_wire_iff hfinite).mpr hvalue⟩

/-- The camera stands beside the origin and looks at it. -/
def cameraBeside : PanelEvent :=
  .cameraUpdate ⟨⟨.finite false (1023 * Binary64.binade + Binary64.binade / 2), .zero, .zero⟩,
    ⟨.zero, .zero, .zero⟩⟩

theorem not_decode_wire_cameraBeside :
    cameraBeside.Finite ∧ Coded.wire cameraBeside =
      "\x7b\"event\":\"camera-update\",\"position\":[1.5,0.0,0.0],\"target\":[0.0,0.0,0.0]\x7d" ∧
        (Document.ofChars (Coded.wire cameraBeside).toList).decode (Coded.read (α := PanelEvent)) =
          .error .invalidType := by
  have hfinite : cameraBeside.Finite := by
    constructor <;> simp [Point.Finite, Binary64.isFinite, Binary64.Readable,
      Binary64.zero, Binary64.binade, Binary64.rankCount]
  refine ⟨hfinite, by decide +kernel, ?_⟩
  rw [Coded.toList_wire]
  exact decode_cameraUpdate hfinite

end PanelEvent

end FrameScope
