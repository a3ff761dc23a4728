import FrameScope.Proofs.Json.Float
import FrameScope.Proofs.Node.Plain

/-!
# Untyped values held back

What an untyped value becomes when it is held back and read as an untyped value again:
`Json.settled?`, none where a number does not pass. A value is settled (`Json.Settled`) when it
stays as it is; what comes out is settled (`Json.settled_of_settled?`), so nothing changes twice.
-/

namespace FrameScope

/-! ### Numbers -/

namespace Number

/-- What a number becomes when it is held back from a value. -/
def settled? (n : Number) : Option Number :=
  match n.view with
  | .int i => some (ofInt i)
  | .float x => ofBinary64? x
  | .wide => none
  | .verbatim => some n

/-- A number that stays as it is. -/
def Settled (n : Number) : Prop := n.settled? = some n

instance (n : Number) : Decidable n.Settled := inferInstanceAs (Decidable (_ = _))

theorem toInt?_ofInt (i : Int) : (ofInt i).toInt? = some i := by
  have hinteger : (ofInt i).isInteger = true := rfl
  rw [toInt?, if_pos hinteger, ofInt, Decimal.value_ofNat]
  simp only [decide_eq_true_eq, Option.some.injEq]
  split <;> omega

theorem view_eq_int {n : Number} {i : Int} (h : n.view = .int i) : n.int64? = some i := by
  unfold view at h
  split at h
  · rename_i hi
    rw [hi, View.int.inj h]
  · split at h
    · split at h
      · simp at h
      · unfold view.ofFloat at h
        split at h <;> simp at h
    · unfold view.ofFloat at h
      split at h <;> simp at h

theorem int64?_ofInt_of_int64? {n : Number} {i : Int} (h : n.int64? = some i) :
    (ofInt i).int64? = some i := by
  unfold int64? at h ⊢
  rw [toInt?_ofInt]
  split at h
  · split at h
    · rename_i hi
      rw [← Option.some.inj h]
      simp only [if_pos hi]
    · simp at h
  · simp at h

theorem float?_eq_some {n : Number} {x : Binary64} (h : n.float? = some x) :
    ∃ s rank, x = .finite s rank ∧ rank < Binary64.rankCount := by
  unfold float? at h
  dsimp only at h
  split at h
  · rename_i s rank hx
    split at h
    · exact ⟨s, rank, (Option.some.inj h).symm.trans hx, rank_lt_of_toBinary64 hx⟩
    · simp at h
  · simp at h

theorem view_eq_float {n : Number} {x : Binary64} (h : n.view = .float x) :
    ∃ s rank, x = .finite s rank ∧ rank < Binary64.rankCount := by
  have hfloat (h : view.ofFloat n = .float x) : n.float? = some x := by
    unfold view.ofFloat at h
    split at h
    · rename_i hx
      rw [hx, View.float.inj h]
    · simp at h
  unfold view at h
  split at h
  · simp at h
  · split at h
    · split at h
      · simp at h
      · exact float?_eq_some (hfloat h)
    · exact float?_eq_some (hfloat h)

theorem settled_of_settled? {n m : Number} (h : n.settled? = some m) : m.Settled := by
  unfold settled? at h
  split at h
  · rename_i i hview
    obtain rfl := Option.some.inj h
    have hint := int64?_ofInt_of_int64? (view_eq_int hview)
    simp [Settled, settled?, view, hint]
  · rename_i x hview
    obtain ⟨s, rank, rfl, hrank⟩ := view_eq_float hview
    rw [Settled, settled?, view_of_ofBinary64? hrank h]
    exact h
  · simp at h
  · rename_i hview
    obtain rfl := Option.some.inj h
    rw [Settled, settled?, hview]

/-- **A number stays as it is when it is an integer of 64 bits other than `-0`, or a number of 64
bits in the spelling of documents, or one that 64 bits know no short spelling of.** -/
theorem settled_iff {n : Number} (hn : n.Valid) :
    n.Settled ↔ match n.view with
      | .int i => ¬ (i = 0 ∧ n.negative = true)
      | .float x => n.text = FloatStyle.document.text x
      | .wide => False
      | .verbatim => True := by
  unfold Settled settled?
  cases hview : n.view with
  | int i =>
    simp only [Option.some.injEq]
    constructor
    · rintro rfl ⟨rfl, hnegative⟩
      exact absurd hnegative (by decide)
    · exact ofInt_of_toInt? hn (Read.toInt?_of_int64? (view_eq_int hview))
  | wide => simp
  | float x =>
    obtain ⟨s, rank, rfl, hrank⟩ := view_eq_float hview
    obtain ⟨m, hm, -, -, htext⟩ := exists_ofBinary64? s hrank
    simp only [hm, Option.some.injEq, ← htext]
    constructor
    · rintro rfl
      rfl
    · intro hspelling
      have hchars : n.chars = m.chars := by rw [← toList_text, hspelling, toList_text]
      have hback := ofText?_chars hn
      rw [hchars, ofText?_chars (valid_of_ofText? hm)] at hback
      exact Option.some.inj hback
  | verbatim => simp

end Number

/-! ### Values -/

namespace Json

mutual

/-- What a value becomes when it is held back and read again, none where a number does not pass. -/
def settled? : Json → Option Json
  | .num n => n.settled?.map .num
  | .arr vs => (settledItems? vs).map .arr
  | .obj fs => (settledFields? fs).map .obj
  | v => some v

def settledItems? : List Json → Option (List Json)
  | [] => some []
  | v :: vs => (settled? v).bind fun w => (settledItems? vs).map (w :: ·)

def settledFields? : List (String × Json) → Option (Entries Json)
  | [] => some []
  | (k, v) :: fs => (settled? v).bind fun w => (settledFields? fs).map ((k, w) :: ·)

end

/-- A value that stays as it is: all of its numbers do. -/
def Settled (v : Json) : Prop := v.settled? = some v

theorem settledItems?_cons {v : Json} {vs ws : List Json} :
    settledItems? (v :: vs) = some ws ↔
      ∃ w rest, v.settled? = some w ∧ settledItems? vs = some rest ∧ ws = w :: rest := by
  constructor
  · intro h
    obtain ⟨w, hw, h⟩ := Option.bind_eq_some_iff.mp h
    obtain ⟨rest, hrest, rfl⟩ := Option.map_eq_some_iff.mp h
    exact ⟨w, rest, hw, hrest, rfl⟩
  · rintro ⟨w, rest, hw, hrest, rfl⟩
    rw [settledItems?, hw, hrest]
    rfl

theorem settledFields?_cons {k : String} {v : Json} {fs gs : Entries Json} :
    settledFields? ((k, v) :: fs) = some gs ↔
      ∃ w rest, v.settled? = some w ∧ settledFields? fs = some rest ∧ gs = (k, w) :: rest := by
  constructor
  · intro h
    obtain ⟨w, hw, h⟩ := Option.bind_eq_some_iff.mp h
    obtain ⟨rest, hrest, rfl⟩ := Option.map_eq_some_iff.mp h
    exact ⟨w, rest, hw, hrest, rfl⟩
  · rintro ⟨w, rest, hw, hrest, rfl⟩
    rw [settledFields?, hw, hrest]
    rfl

mutual

theorem settled_of_settled? : ∀ {v w : Json}, v.settled? = some w → w.Settled
  | .null, w, h => by obtain rfl := Option.some.inj h; rfl
  | .bool _, w, h => by obtain rfl := Option.some.inj h; rfl
  | .str _, w, h => by obtain rfl := Option.some.inj h; rfl
  | .num n, w, h => by
    obtain ⟨m, hm, rfl⟩ := Option.map_eq_some_iff.mp h
    rw [Settled, settled?, Number.settled_of_settled? hm]
    rfl
  | .arr vs, w, h => by
    obtain ⟨ws, hws, rfl⟩ := Option.map_eq_some_iff.mp h
    rw [Settled, settled?, settledItems?_idem hws]
    rfl
  | .obj fs, w, h => by
    obtain ⟨gs, hgs, rfl⟩ := Option.map_eq_some_iff.mp h
    rw [Settled, settled?, settledFields?_idem hgs]
    rfl

theorem settledItems?_idem : ∀ {vs ws : List Json}, settledItems? vs = some ws →
    settledItems? ws = some ws
  | [], ws, h => by obtain rfl := Option.some.inj h; rfl
  | v :: vs, ws, h => by
    obtain ⟨w, rest, hw, hrest, rfl⟩ := settledItems?_cons.mp h
    exact settledItems?_cons.mpr ⟨w, rest, settled_of_settled? hw, settledItems?_idem hrest, rfl⟩

theorem settledFields?_idem : ∀ {fs gs : Entries Json}, settledFields? fs = some gs →
    settledFields? gs = some gs
  | [], gs, h => by obtain rfl := Option.some.inj h; rfl
  | (k, v) :: fs, gs, h => by
    obtain ⟨w, rest, hw, hrest, rfl⟩ := settledFields?_cons.mp h
    exact settledFields?_cons.mpr ⟨w, rest, settled_of_settled? hw, settledFields?_idem hrest, rfl⟩

end

/-! ### What stays as it is -/

theorem settled_num_iff {n : Number} : (num n).Settled ↔ n.Settled := by
  simp [Settled, settled?, Number.Settled]

theorem settledItems?_eq_self_iff {vs : List Json} :
    settledItems? vs = some vs ↔ ∀ v ∈ vs, v.Settled := by
  induction vs with
  | nil => simp [settledItems?]
  | cons v vs ih =>
    rw [settledItems?_cons, List.forall_mem_cons, ← ih]
    constructor
    · rintro ⟨w, rest, hw, hrest, heq⟩
      obtain ⟨rfl, rfl⟩ := List.cons.inj heq
      exact ⟨hw, hrest⟩
    · rintro ⟨hv, hvs⟩
      exact ⟨v, vs, hv, hvs, rfl⟩

theorem settledFields?_eq_self_iff {fs : Entries Json} :
    settledFields? fs = some fs ↔ ∀ f ∈ fs, f.2.Settled := by
  induction fs with
  | nil => simp [settledFields?]
  | cons f fs ih =>
    rw [settledFields?_cons, List.forall_mem_cons, ← ih]
    constructor
    · rintro ⟨w, rest, hw, hrest, heq⟩
      obtain ⟨hf, rfl⟩ := List.cons.inj heq
      exact ⟨hw.trans (congrArg some (congrArg Prod.snd hf).symm), hrest⟩
    · rintro ⟨hf, hfs⟩
      exact ⟨f.2, fs, hf, hfs, rfl⟩

theorem settled_arr_iff {vs : List Json} : (arr vs).Settled ↔ ∀ v ∈ vs, v.Settled := by
  rw [← settledItems?_eq_self_iff, Settled, settled?]
  simp

theorem settled_obj_iff {fs : Entries Json} : (obj fs).Settled ↔ ∀ f ∈ fs, f.2.Settled := by
  rw [← settledFields?_eq_self_iff, Settled, settled?]
  simp

/-! ### The same value -/

mutual

theorem same_self : ∀ {v : Json}, v.Sound → same v v = true
  | .null, _ => rfl
  | .bool _, _ => by simp [same]
  | .num _, _ => by simp [same]
  | .str _, _ => by simp [same]
  | .arr vs, h => sameItems_self h
  | .obj fs, h => by
    rw [same, sameFields_self h.2.2 fun f hf => (Entries.get?_eq_some_iff h.1).mpr hf]
    simp

theorem sameItems_self : ∀ {vs : List Json}, SoundItems vs → sameItems vs vs = true
  | [], _ => rfl
  | v :: vs, h => by rw [sameItems, same_self h.1, sameItems_self h.2]; rfl

theorem sameFields_self : ∀ {fs gs : Entries Json}, SoundFields fs →
    (∀ f ∈ fs, gs.get? f.1 = some f.2) → sameFields fs gs = true
  | [], _, _, _ => rfl
  | (k, v) :: fs, gs, h, hall => by
    have hrest := sameFields_self h.2 fun f hf => hall f (List.mem_cons_of_mem _ hf)
    simp only [sameFields, hall (k, v) (by simp), same_self h.1, hrest, Bool.and_self]

end

mutual

theorem eq_of_same_settled : ∀ {v w : Json}, v.Sound → v.settled? = some w → same w v = true → w = v
  | .null, w, _, h, _ => (Option.some.inj h).symm
  | .bool _, w, _, h, _ => (Option.some.inj h).symm
  | .str _, w, _, h, _ => (Option.some.inj h).symm
  | .num n, w, _, h, hsame => by
    obtain ⟨m, -, rfl⟩ := Option.map_eq_some_iff.mp h
    simpa [same] using hsame
  | .arr vs, w, hv, h, hsame => by
    obtain ⟨ws, hws, rfl⟩ := Option.map_eq_some_iff.mp h
    rw [same] at hsame
    rw [eq_of_sameItems_settled hv hws hsame]
  | .obj fs, w, hv, h, hsame => by
    obtain ⟨gs, hgs, rfl⟩ := Option.map_eq_some_iff.mp h
    rw [same, Bool.and_eq_true] at hsame
    rw [eq_of_sameFields_settled hv.2.2 hgs (fun f hf => (Entries.get?_eq_some_iff hv.1).mpr hf)
      hsame.2]

theorem eq_of_sameItems_settled : ∀ {vs ws : List Json}, SoundItems vs →
    settledItems? vs = some ws → sameItems ws vs = true → ws = vs
  | [], ws, _, h, _ => (Option.some.inj h).symm
  | v :: vs, ws, hvs, h, hsame => by
    obtain ⟨w, rest, hw, hrest, rfl⟩ := settledItems?_cons.mp h
    rw [sameItems, Bool.and_eq_true] at hsame
    rw [eq_of_same_settled hvs.1 hw hsame.1, eq_of_sameItems_settled hvs.2 hrest hsame.2]

theorem eq_of_sameFields_settled : ∀ {fs gs all : Entries Json}, SoundFields fs →
    settledFields? fs = some gs → (∀ f ∈ fs, all.get? f.1 = some f.2) → sameFields gs all = true →
      gs = fs
  | [], gs, _, _, h, _, _ => (Option.some.inj h).symm
  | (k, v) :: fs, gs, all, hfs, h, hall, hsame => by
    obtain ⟨w, rest, hw, hrest, rfl⟩ := settledFields?_cons.mp h
    rw [sameFields, hall (k, v) (by simp), Bool.and_eq_true] at hsame
    rw [eq_of_same_settled hfs.1 hw hsame.1, eq_of_sameFields_settled hfs.2 hrest
      (fun f hf => hall f (List.mem_cons_of_mem _ hf)) hsame.2]

end

end Json

/-! ### Holding back -/

namespace Read

open Node Json

theorem bufferNumber_settled? {n : Number} (hn : n.Valid) {w : Json} :
    (∃ held, bufferNumber .value n = .ok held ∧ json .buffered held = .ok w) ↔
      n.settled?.map .num = some w := by
  unfold bufferNumber Number.settled?
  dsimp only
  cases hview : n.view with
  | int i => simp [json]
  | wide => simp
  | float x =>
    obtain ⟨s, rank, rfl, hrank⟩ := Number.view_eq_float hview
    obtain ⟨m, hm, -⟩ := Number.exists_ofBinary64? s hrank
    simp [json, hm]
  | verbatim => simp [json_opaqueNumber hn]

mutual

/-- **What is read of a sound value held back is what it settles to.** -/
theorem json_buffer_iff : ∀ {v w : Json}, v.Sound →
    ((∃ held, buffer .value (ofJson v) = .ok held ∧ json .buffered held = .ok w) ↔
      v.settled? = some w)
  | .null, w, _ => by simp [ofJson, buffer, json, settled?]
  | .bool _, w, _ => by simp [ofJson, buffer, json, settled?]
  | .str _, w, _ => by simp [ofJson, buffer, json, settled?]
  | .num n, w, hn => by
    rw [ofJson, settled?, ← bufferNumber_settled? hn]
    simp [buffer]
  | .arr vs, w, hvs => by
    rw [ofJson, buffer, exists_map_eq_ok_and, settled?, Option.map_eq_some_iff]
    simp only [json, except_map_eq_ok_iff, ← jsonItems_buffer_iff hvs]
    tauto
  | .obj [], w, _ => by
    simp [ofJson, ofJsonFields, buffer, bufferEntries, json, settled?, settledFields?, Except.map]
  | .obj ((k, v) :: fs), w, hfs => by
    have hk : k ≠ numberKey := by simpa using hfs.2.1
    have hrest (x : Json) (gs : Entries Json) :=
      @jsonEntries_buffer_iff fs [(k, x)] gs hfs.2.2.2 (by simpa using hfs.1)
    have hhead := @json_buffer_iff v
    rw [ofJson, ofJsonFields, buffer, exists_map_eq_ok_and, settled?, Option.map_eq_some_iff]
    simp only [bufferEntries_cons_eq_ok, settledFields?_cons]
    constructor
    · rintro ⟨_, ⟨x, xs, hx, hxs, rfl⟩, h⟩
      obtain ⟨y, gs, hy, hgs, rfl⟩ := (json_map_cons_eq_ok hk).mp h
      obtain ⟨ws, hws, rfl⟩ := (hrest y _).mp ⟨xs, hxs, hgs⟩
      exact ⟨_, ⟨y, ws, (hhead hfs.2.2.1).mp ⟨x, hx, hy⟩, hws, rfl⟩, rfl⟩
    · rintro ⟨_, ⟨y, ws, hy, hws, rfl⟩, rfl⟩
      obtain ⟨x, hx, hy⟩ := (hhead hfs.2.2.1).mpr hy
      obtain ⟨xs, hxs, hgs⟩ := (hrest y _).mpr ⟨ws, hws, rfl⟩
      exact ⟨_, ⟨x, xs, hx, hxs, rfl⟩, (json_map_cons_eq_ok hk).mpr ⟨y, _, hy, hgs, rfl⟩⟩

theorem jsonItems_buffer_iff : ∀ {vs ws : List Json}, SoundItems vs →
    ((∃ held, bufferItems .value (ofJsonItems vs) = .ok held ∧ jsonItems .buffered held = .ok ws) ↔
      settledItems? vs = some ws)
  | [], ws, _ => by simp [ofJsonItems, bufferItems, jsonItems, settledItems?]
  | v :: vs, ws, hvs => by
    have hhead := @json_buffer_iff v
    have hrest := @jsonItems_buffer_iff vs
    simp only [ofJsonItems, bufferItems_cons_eq_ok, settledItems?_cons]
    constructor
    · rintro ⟨_, ⟨x, xs, hx, hxs, rfl⟩, h⟩
      obtain ⟨y, ys, hy, hys, rfl⟩ := jsonItems_cons_eq_ok.mp h
      exact ⟨y, ys, (hhead hvs.1).mp ⟨x, hx, hy⟩, (hrest hvs.2).mp ⟨xs, hxs, hys⟩, rfl⟩
    · rintro ⟨y, ys, hy, hys, rfl⟩
      obtain ⟨x, hx, hy⟩ := (hhead hvs.1).mpr hy
      obtain ⟨xs, hxs, hys⟩ := (hrest hvs.2).mpr hys
      exact ⟨_, ⟨x, xs, hx, hxs, rfl⟩, jsonItems_cons_eq_ok.mpr ⟨y, ys, hy, hys, rfl⟩⟩

theorem jsonEntries_buffer_iff : ∀ {fs es gs : Entries Json}, SoundFields fs →
    (es.keys ++ fs.keys).Nodup →
    ((∃ held, bufferEntries .value (ofJsonFields fs) = .ok held ∧
        jsonEntries .buffered es held = .ok gs) ↔
      ∃ ws, settledFields? fs = some ws ∧ gs = es ++ ws)
  | [], es, gs, _, _ => by simp [ofJsonFields, bufferEntries, jsonEntries, settledFields?, eq_comm]
  | (k, v) :: fs, es, gs, hfs, hkeys => by
    have hk : k ∉ es.keys := fun hmem =>
      (List.nodup_append.mp hkeys).2.2 k hmem k (by simp) rfl
    have hhead := @json_buffer_iff v
    have hrest (x : Json) :=
      @jsonEntries_buffer_iff fs (es ++ [(k, x)]) gs hfs.2 (by simpa using hkeys)
    simp only [ofJsonFields, bufferEntries_cons_eq_ok, settledFields?_cons]
    constructor
    · rintro ⟨_, ⟨x, xs, hx, hxs, rfl⟩, h⟩
      obtain ⟨y, hy, h⟩ := jsonEntries_cons_eq_ok.mp h
      rw [Entries.put_of_not_mem hk] at h
      obtain ⟨ws, hws, rfl⟩ := (hrest y).mp ⟨xs, hxs, h⟩
      exact ⟨_, ⟨y, ws, (hhead hfs.1).mp ⟨x, hx, hy⟩, hws, rfl⟩, by simp⟩
    · rintro ⟨_, ⟨y, ws, hy, hws, rfl⟩, rfl⟩
      obtain ⟨x, hx, hy⟩ := (hhead hfs.1).mpr hy
      obtain ⟨xs, hxs, h⟩ := (hrest y).mpr ⟨ws, hws, by simp⟩
      refine ⟨_, ⟨x, xs, hx, hxs, rfl⟩, jsonEntries_cons_eq_ok.mpr ⟨y, hy, ?_⟩⟩
      rw [Entries.put_of_not_mem hk]
      exact h

end

mutual

theorem sound_of_json_buffer : ∀ {v : Json} {held : Node} {w : Json},
    buffer .value (ofJson v) = .ok held → json .buffered held = .ok w → w.Sound
  | .null, _, _, hheld, h => by
    obtain rfl := Except.ok.inj hheld
    obtain rfl := Except.ok.inj (by simpa only [json] using h)
    trivial
  | .bool _, _, _, hheld, h => by
    obtain rfl := Except.ok.inj hheld
    obtain rfl := Except.ok.inj (by simpa only [json] using h)
    trivial
  | .str _, _, _, hheld, h => by
    obtain rfl := Except.ok.inj hheld
    obtain rfl := Except.ok.inj (by simpa only [json] using h)
    trivial
  | .num n, held, w, hheld, h => by
    rw [ofJson, buffer, bufferNumber] at hheld
    split at hheld
    · obtain rfl := Except.ok.inj hheld
      obtain rfl := Except.ok.inj (by simpa only [json] using h)
      exact Number.valid_ofInt _
    · simp at hheld
    · obtain rfl := Except.ok.inj hheld
      obtain rfl := Except.ok.inj (by simpa only [json] using h)
      split
      · rename_i n' hn'
        exact Number.valid_of_ofText? hn'
      · trivial
    · obtain rfl := Except.ok.inj hheld
      simp only [opaqueNumber, json, if_true] at h
      split at h
      · simp at h
      · rename_i n' hn'
        rw [← Except.ok.inj h]
        exact valid_of_numberOfSpelling hn'
  | .arr vs, held, w, hheld, h => by
    rw [ofJson, buffer] at hheld
    obtain ⟨hs, hhs, rfl⟩ := except_map_eq_ok hheld
    rw [json] at h
    obtain ⟨ws, hws, rfl⟩ := except_map_eq_ok h
    exact sound_of_jsonItems_buffer hhs hws
  | .obj [], held, w, hheld, h => by
    obtain rfl := Except.ok.inj hheld
    obtain rfl := Except.ok.inj (by simpa only [json] using h)
    exact ⟨List.nodup_nil, by simp, trivial⟩
  | .obj ((k, v) :: fs), held, w, hheld, h => by
    rw [ofJson, buffer] at hheld
    obtain ⟨hs, hhs, rfl⟩ := except_map_eq_ok hheld
    obtain ⟨x, xs, hx, hxs, rfl⟩ := bufferEntries_cons_eq_ok.mp hhs
    by_cases hk : k = numberKey
    · rw [json, if_pos hk] at h
      split at h
      · simp at h
      · rename_i n hn
        split at h
        · rw [← Except.ok.inj h]
          exact valid_of_numberOfSpelling hn
        · simp at h
    · obtain ⟨y, gs, hy, hgs, rfl⟩ := (json_map_cons_eq_ok hk).mp h
      obtain ⟨hkeys, hhead, hsound⟩ := sound_of_jsonEntries_buffer hxs hgs (by simp)
        ⟨sound_of_json_buffer hx hy, trivial⟩
      exact ⟨hkeys, by rw [hhead (by simp)]; simpa using hk, hsound⟩

theorem sound_of_jsonItems_buffer : ∀ {vs : List Json} {hs : List Node} {ws : List Json},
    bufferItems .value (ofJsonItems vs) = .ok hs → jsonItems .buffered hs = .ok ws → SoundItems ws
  | [], _, _, hhs, h => by
    obtain rfl := Except.ok.inj hhs
    obtain rfl := Except.ok.inj (by simpa only [jsonItems] using h)
    trivial
  | v :: vs, _, ws, hhs, h => by
    obtain ⟨x, xs, hx, hxs, rfl⟩ := bufferItems_cons_eq_ok.mp hhs
    obtain ⟨y, ys, hy, hys, rfl⟩ := jsonItems_cons_eq_ok.mp h
    exact ⟨sound_of_json_buffer hx hy, sound_of_jsonItems_buffer hxs hys⟩

theorem sound_of_jsonEntries_buffer : ∀ {fs : List (String × Json)} {hs : List (Key × Node)}
    {es gs : Entries Json}, bufferEntries .value (ofJsonFields fs) = .ok hs →
    jsonEntries .buffered es hs = .ok gs → es.keys.Nodup → SoundFields es →
      gs.keys.Nodup ∧ (es ≠ [] → gs.keys.head? = es.keys.head?) ∧ SoundFields gs
  | [], _, es, gs, hhs, h, hkeys, hes => by
    obtain rfl := Except.ok.inj hhs
    obtain rfl := Except.ok.inj (by simpa only [jsonEntries] using h)
    exact ⟨hkeys, fun _ => rfl, hes⟩
  | (k, v) :: fs, _, es, gs, hhs, h, hkeys, hes => by
    obtain ⟨x, xs, hx, hxs, rfl⟩ := bufferEntries_cons_eq_ok.mp hhs
    obtain ⟨y, hy, h⟩ := jsonEntries_cons_eq_ok.mp h
    obtain ⟨hgs, hhead, hsound⟩ := sound_of_jsonEntries_buffer hxs h (Entries.nodup_keys_put hkeys)
      (soundFields_put hes (sound_of_json_buffer hx hy))
    refine ⟨hgs, fun hne => ?_, hsound⟩
    obtain ⟨e, es, rfl⟩ := List.exists_cons_of_ne_nil hne
    rw [hhead (by rw [Entries.put]; split <;> simp), Entries.keys_put]
    split <;> simp

end

end Read

end FrameScope
