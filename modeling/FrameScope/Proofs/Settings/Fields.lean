import FrameScope.Proofs.Node.Named
import FrameScope.Proofs.Settings.Document

/-!
# Settings field by field

A document decodes when each of its fields decodes alone (`exists_ofObject_iff_forall`), and then
its settings are gathered from what each field says alone (`eq_gathered_of_ofObject`). The object
that `accept` builds up over the defaults gathers the same (`builtUp_foldl_accept`), for a field that
is left out says no more than the defaults do. So a stored object yields the gathered settings,
whichever way they are found (`recover_eq_gathered`).
-/

namespace FrameScope.Settings

open Read Node

variable {s t : Settings} {es fs : Entries Json} {e : String × Json} {k : String} {v w : Json}

/-! ### One field alone -/

/-- The settings of a document of one field; the defaults when it does not decode. -/
def ofField (e : String × Json) : Settings :=
  match ofObject [e] with
  | .ok s => s
  | .error _ => default

/-- What one of the fields of a document says alone; the defaults when it is not there. -/
def alone (es : Entries Json) (k : String) : Settings :=
  match es.get? k with
  | some v => ofField (k, v)
  | none => default

/-- The settings that are gathered from what each field of a document says alone. -/
def gathered (es : Entries Json) : Settings where
  theme := (alone es "theme").theme
  uiScale := (alone es "uiScale").uiScale
  followLive := (alone es "followLive").followLive
  logFilter := (alone es "logFilter").logFilter
  extra := es.flatMap fun e => (ofField e).extra

theorem ofField_of_ok (h : ofObject [e] = .ok s) : ofField e = s := by
  rw [ofField, h]

theorem ofField_of_not_ok (h : ¬ ∃ s, ofObject [e] = .ok s) : ofField e = default := by
  rw [ofField]
  cases hs : ofObject [e] with
  | ok s => exact absurd ⟨s, hs⟩ h
  | error cause => rfl

theorem alone_of_get? (h : es.get? k = some v) : alone es k = ofField (k, v) := by
  rw [alone, h]

theorem alone_of_not_mem (h : k ∉ es.keys) : alone es k = default := by
  rw [alone, Entries.get?_eq_none_iff.mpr h]

theorem alone_put (es : Entries Json) (k j : String) (v : Json) :
    alone (es.put k v) j = if k = j then ofField (k, v) else alone es j := by
  by_cases hk : k = j
  · rw [if_pos hk, alone_of_get? (by rw [Entries.get?_put, if_pos hk]), hk]
  · rw [if_neg hk, alone, Entries.get?_put, if_neg hk, alone]

/-! ### A document decodes when its fields do -/

theorem unaliased_fields : Unaliased fields := by
  simp [Unaliased, fields, Field.may]

/-- A field that its own document decodes with: a known one that is read, or another that comes out
of being held back. -/
def Fits (e : String × Json) : Prop :=
  if isKnown e.1 then Admits fields .value e.1 (ofJson e.2) else ∃ w, Returns e.2 w

theorem exists_knownOf_iff (hkeys : es.keys.Nodup) :
    (∃ t, knownOf es = .ok t) ↔
      ∀ e ∈ fieldPart fields es, Admits fields .value e.1 (ofJson e.2) := by
  have hnodup : (fieldPart fields es).keys.Nodup := Entries.nodup_keys_filter _ hkeys
  rw [← exists_fieldEntries_iff [] default unaliased_fields hnodup (by simp)]
  simp only [knownOf_eq_ok_iff, ofJsonFields_eq_map, namedEntries]
  constructor
  · rintro ⟨t, seen, h⟩
    exact ⟨(seen, t), h⟩
  · rintro ⟨⟨seen, t⟩, h⟩
    exact ⟨t, seen, h⟩

theorem exists_ofObject_iff (hkeys : es.keys.Nodup) :
    (∃ s, ofObject es = .ok s) ↔
      (∃ t, knownOf es = .ok t) ∧ ∀ e ∈ foreignPart fields es, ∃ w, Returns e.2 w := by
  rw [← Entries.exists_related_iff]
  constructor
  · rintro ⟨s, hs⟩
    obtain ⟨⟨t, ht, -⟩, hrelated⟩ := (ofObject_iff hkeys).mp hs
    exact ⟨⟨t, ht⟩, _, hrelated⟩
  · rintro ⟨⟨t, ht⟩, extra, hrelated⟩
    exact ⟨{ t with extra := extra }, (ofObject_iff hkeys).mpr ⟨⟨t, ht, rfl⟩, hrelated⟩⟩

theorem exists_ofObject_iff_fits (hkeys : es.keys.Nodup) :
    (∃ s, ofObject es = .ok s) ↔ ∀ e ∈ es, Fits e := by
  rw [exists_ofObject_iff hkeys, exists_knownOf_iff hkeys]
  simp only [fieldPart, foreignPart, List.mem_filter]
  constructor
  · rintro ⟨hknown, hforeign⟩ e he
    rw [Fits]
    split
    · rename_i hk
      exact hknown e ⟨he, hk⟩
    · rename_i hk
      exact hforeign e ⟨he, by simpa [isKnown] using hk⟩
  · intro hall
    constructor
    · rintro e ⟨he, hk⟩
      simpa only [Fits, isKnown, hk, if_true] using hall e he
    · rintro e ⟨he, hk⟩
      have hk' : isFieldName fields e.1 = false := by simpa using hk
      simpa only [Fits, isKnown, hk', Bool.false_eq_true, if_false] using hall e he

theorem nodup_keys_singleton (e : String × Json) : (Entries.keys [e]).Nodup := by simp

/-- **A document decodes when each of its fields decodes alone.** -/
theorem exists_ofObject_iff_forall (hkeys : es.keys.Nodup) :
    (∃ s, ofObject es = .ok s) ↔ ∀ e ∈ es, ∃ s, ofObject [e] = .ok s := by
  simp [exists_ofObject_iff_fits hkeys, exists_ofObject_iff_fits (nodup_keys_singleton _)]

/-! ### A known field -/

theorem owns_theme : Owns .value fields fields[0] theme where
  field := rfl
  own := settles_of_set rfl fun _ _ _ => rfl
  other := by
    simp only [fields, List.forall_mem_cons]
    exact ⟨fun h => absurd rfl h, fun _ => leaves_of_set rfl fun _ _ => rfl,
      fun _ => leaves_of_set rfl fun _ _ => rfl, fun _ => leaves_of_set rfl fun _ _ => rfl, by simp⟩

theorem owns_uiScale : Owns .value fields fields[1] uiScale where
  field := rfl
  own := settles_of_set rfl fun _ _ _ => rfl
  other := by
    simp only [fields, List.forall_mem_cons]
    exact ⟨fun _ => leaves_of_set rfl fun _ _ => rfl, fun h => absurd rfl h,
      fun _ => leaves_of_set rfl fun _ _ => rfl, fun _ => leaves_of_set rfl fun _ _ => rfl, by simp⟩

theorem owns_followLive : Owns .value fields fields[2] followLive where
  field := rfl
  own := settles_of_set rfl fun _ _ _ => rfl
  other := by
    simp only [fields, List.forall_mem_cons]
    exact ⟨fun _ => leaves_of_set rfl fun _ _ => rfl, fun _ => leaves_of_set rfl fun _ _ => rfl,
      fun h => absurd rfl h, fun _ => leaves_of_set rfl fun _ _ => rfl, by simp⟩

theorem owns_logFilter : Owns .value fields fields[3] logFilter where
  field := rfl
  own := settles_of_set rfl fun _ _ _ => rfl
  other := by
    simp only [fields, List.forall_mem_cons]
    exact ⟨fun _ => leaves_of_set rfl fun _ _ => rfl, fun _ => leaves_of_set rfl fun _ _ => rfl,
      fun _ => leaves_of_set rfl fun _ _ => rfl, fun h => absurd rfl h, by simp⟩

theorem part_of_ofObject {β : Type} {f : Field Settings} {part : Settings → β}
    (hown : Owns .value fields f part) (hextra : ∀ s x, part { s with extra := x } = part s)
    (hkeys : es.keys.Nodup) (h : ofObject es = .ok s) :
    match es.get? f.name with
    | none => part s = part default
    | some v => ∃ set, f.read .value (ofJson v) = .ok set ∧ part s = part (set default) := by
  obtain ⟨⟨t, ht, hs⟩, -⟩ := (ofObject_iff hkeys).mp h
  obtain ⟨seen, hseen⟩ := knownOf_eq_ok_iff.mp ht
  rw [ofJsonFields_eq_map] at hseen
  have hpart : part s = part t := hs ▸ hextra t s.extra
  have hknown : isFieldName fields f.name = true := by rw [isFieldName, hown.field]; rfl
  have hentry := part_of_fieldEntries hown unaliased_fields (Entries.nodup_keys_filter _ hkeys) hseen
  rw [Entries.get?_filter (isFieldName fields), if_pos hknown] at hentry
  cases hv : es.get? f.name with
  | none =>
    rw [hv] at hentry
    exact hpart.trans hentry
  | some v =>
    rw [hv] at hentry
    obtain ⟨set, hset, hall⟩ := hentry
    exact ⟨set, hset, hpart.trans (hall default)⟩

/-- **A part of the settings of a document is what its field says alone.** -/
theorem part_eq_alone {β : Type} {f : Field Settings} {part : Settings → β}
    (hown : Owns .value fields f part) (hextra : ∀ s x, part { s with extra := x } = part s)
    (hkeys : es.keys.Nodup) (h : ofObject es = .ok s) : part s = part (alone es f.name) := by
  have hwhole := part_of_ofObject hown hextra hkeys h
  cases hv : es.get? f.name with
  | none =>
    rw [hv] at hwhole
    rw [alone, hv]
    exact hwhole
  | some v =>
    rw [hv] at hwhole
    obtain ⟨set, hset, hpart⟩ := hwhole
    obtain ⟨t, ht⟩ := (exists_ofObject_iff_forall hkeys).mp ⟨s, h⟩ _ (Entries.mem_of_get? hv)
    have hone := part_of_ofObject hown hextra (nodup_keys_singleton _) ht
    simp only [Entries.get?, if_true] at hone
    obtain ⟨set', hset', hpart'⟩ := hone
    rw [alone_of_get? hv, ofField_of_ok ht, hpart, hpart', Except.ok.inj (hset.symm.trans hset')]

/-! ### The other fields -/

theorem returns_unique (hv : Returns v w) {w' : Json} (hv' : Returns v w') : w = w' := by
  obtain ⟨held, hheld, hw⟩ := hv
  obtain ⟨held', hheld', hw'⟩ := hv'
  obtain rfl := Except.ok.inj (hheld.symm.trans hheld')
  exact Except.ok.inj (hw.symm.trans hw')

theorem foreignPart_cons_of_known (h : isKnown k = true) :
    foreignPart fields ((k, v) :: es) = foreignPart fields es := by
  have hk : isFieldName fields k = true := h
  simp [foreignPart, hk]

theorem foreignPart_cons_of_foreign (h : isKnown k = false) :
    foreignPart fields ((k, v) :: es) = (k, v) :: foreignPart fields es := by
  have hk : isFieldName fields k = false := h
  simp [foreignPart, hk]

theorem extra_of_ofObject_singleton (h : ofObject [(k, v)] = .ok s) :
    if isKnown k then s.extra = [] else ∃ w, Returns v w ∧ s.extra = [(k, w)] := by
  obtain ⟨-, hrelated⟩ := (ofObject_iff (nodup_keys_singleton (k, v))).mp h
  split
  · rename_i hk
    rw [foreignPart_cons_of_known hk] at hrelated
    exact List.forall₂_nil_left_iff.mp hrelated
  · rename_i hk
    rw [foreignPart_cons_of_foreign (by simpa using hk)] at hrelated
    obtain ⟨⟨j, w⟩, rest, ⟨hj, hw⟩, hrest, hs⟩ := List.forall₂_cons_left_iff.mp hrelated
    obtain rfl := List.forall₂_nil_left_iff.mp hrest
    dsimp only at hj hw
    exact ⟨w, hw, by rw [hs, hj]⟩

theorem extra_ofField_of_known (h : isKnown k = true) : (ofField (k, v)).extra = [] := by
  by_cases hok : ∃ s, ofObject [(k, v)] = .ok s
  · obtain ⟨s, hs⟩ := hok
    have hextra := extra_of_ofObject_singleton hs
    rw [if_pos h] at hextra
    rw [ofField_of_ok hs, hextra]
  · rw [ofField_of_not_ok hok]
    rfl

theorem extra_ofField_of_returns (h : isKnown k = false) (hv : Returns v w) :
    (ofField (k, v)).extra = [(k, w)] := by
  have hfits : Fits (k, v) := by
    rw [Fits, if_neg (by simp [h])]
    exact ⟨w, hv⟩
  obtain ⟨s, hs⟩ :=
    (exists_ofObject_iff_fits (nodup_keys_singleton (k, v))).mpr (by simpa using hfits)
  have hextra := extra_of_ofObject_singleton hs
  rw [if_neg (by simp [h])] at hextra
  obtain ⟨w', hw', hextra⟩ := hextra
  rw [ofField_of_ok hs, hextra, returns_unique hv hw']

theorem extra_eq_flatMap {xs : Entries Json} (h : (foreignPart fields es).Related Returns xs) :
    xs = es.flatMap fun e => (ofField e).extra := by
  induction es generalizing xs with
  | nil => exact List.forall₂_nil_left_iff.mp h
  | cons e es ih =>
    obtain ⟨k, v⟩ := e
    rw [List.flatMap_cons]
    cases hk : isKnown k with
    | true =>
      rw [foreignPart_cons_of_known hk] at h
      rw [extra_ofField_of_known hk, List.nil_append]
      exact ih h
    | false =>
      rw [foreignPart_cons_of_foreign hk] at h
      obtain ⟨⟨j, w⟩, rest, ⟨hj, hw⟩, hrest, rfl⟩ := List.forall₂_cons_left_iff.mp h
      dsimp only at hj hw
      subst hj
      rw [extra_ofField_of_returns hk hw, ih hrest]
      rfl

/-- **The settings of a document are gathered from what each field says alone.** -/
theorem eq_gathered_of_ofObject (hkeys : es.keys.Nodup) (h : ofObject es = .ok s) :
    s = gathered es := by
  have htheme := part_eq_alone owns_theme (fun _ _ => rfl) hkeys h
  have huiScale := part_eq_alone owns_uiScale (fun _ _ => rfl) hkeys h
  have hfollowLive := part_eq_alone owns_followLive (fun _ _ => rfl) hkeys h
  have hlogFilter := part_eq_alone owns_logFilter (fun _ _ => rfl) hkeys h
  have hextra := extra_eq_flatMap ((ofObject_iff hkeys).mp h).2
  obtain ⟨theme, uiScale, followLive, logFilter, extra⟩ := s
  dsimp only at htheme huiScale hfollowLive hlogFilter hextra
  rw [htheme, huiScale, hfollowLive, hlogFilter, hextra]
  rfl

/-! ### Over the defaults -/

theorem extra_put_of_known (h : isKnown k = true) :
    ((es.put k v).flatMap fun e => (ofField e).extra) = es.flatMap fun e => (ofField e).extra := by
  induction es with
  | nil => simp [Entries.put, extra_ofField_of_known h]
  | cons e es ih =>
    rw [Entries.put]
    split
    · rename_i hk
      have he : (ofField e).extra = [] := extra_ofField_of_known (hk ▸ h)
      rw [List.flatMap_cons, List.flatMap_cons, extra_ofField_of_known h, he]
    · rw [List.flatMap_cons, List.flatMap_cons, ih]

theorem gathered_eq_iff :
    gathered es = gathered fs ↔
      (alone es "theme").theme = (alone fs "theme").theme ∧
        (alone es "uiScale").uiScale = (alone fs "uiScale").uiScale ∧
          (alone es "followLive").followLive = (alone fs "followLive").followLive ∧
            (alone es "logFilter").logFilter = (alone fs "logFilter").logFilter ∧
              (es.flatMap fun e => (ofField e).extra) = fs.flatMap fun e => (ofField e).extra := by
  simp [gathered]

/-- Documents that gather the same gather the same with one more field, when it is a known one or
new to both. -/
theorem gathered_put (h : gathered es = gathered fs)
    (hk : isKnown k = true ∨ k ∉ es.keys ∧ k ∉ fs.keys) :
    gathered (es.put k v) = gathered (fs.put k v) := by
  obtain ⟨htheme, huiScale, hfollowLive, hlogFilter, hextra⟩ := gathered_eq_iff.mp h
  have hpart {β : Type} (part : Settings → β) (j : String)
      (hj : part (alone es j) = part (alone fs j)) :
      part (alone (es.put k v) j) = part (alone (fs.put k v) j) := by
    rw [alone_put, alone_put]
    split
    · rfl
    · exact hj
  refine gathered_eq_iff.mpr ⟨hpart theme _ htheme, hpart uiScale _ huiScale,
    hpart followLive _ hfollowLive, hpart logFilter _ hlogFilter, ?_⟩
  rcases hk with hk | ⟨hes, hfs⟩
  · rw [extra_put_of_known hk, extra_put_of_known hk, hextra]
  · rw [Entries.put_of_not_mem hes, Entries.put_of_not_mem hfs, List.flatMap_append,
      List.flatMap_append, hextra]

theorem gathered_put_of_not_ok (hk : k ∉ fs.keys) (h : ¬ ∃ s, ofObject [(k, v)] = .ok s) :
    gathered (fs.put k v) = gathered fs := by
  have halone (j : String) : alone (fs.put k v) j = alone fs j := by
    rw [alone_put]
    split
    · rename_i hj
      rw [ofField_of_not_ok h, ← hj, alone_of_not_mem hk]
    · rfl
  have hextra : ((fs.put k v).flatMap fun e => (ofField e).extra) =
      fs.flatMap fun e => (ofField e).extra := by
    rw [Entries.put_of_not_mem hk, List.flatMap_append]
    simp [ofField_of_not_ok h, default]
  simp only [gathered, halone, hextra]

/-- An object from which settings can be read. -/
structure Decodes (es : Entries Json) : Prop where
  keys : es.keys.Nodup
  ok : ∃ s, ofObject es = .ok s

theorem lasting_default : default.Lasting := ⟨sound_default, by simp [default]⟩

theorem ofObject_default : ofObject default.object = .ok default :=
  ofObject_object lasting_default rfl

theorem decodes_default : Decodes default.object :=
  ⟨nodup_object sound_default, _, ofObject_default⟩

theorem accept_of_ok (h : ofObject (es.put k v) = .ok s) : accept es (k, v) = es.put k v := by
  rw [accept, h]

theorem accept_of_not_ok (h : ∀ s, ofObject (es.put k v) ≠ .ok s) : accept es (k, v) = es := by
  rw [accept]
  cases hs : ofObject (es.put k v) with
  | ok s => exact absurd hs (h s)
  | error e => rfl

/-- An object that was built up over the defaults from the fields `fs`. -/
structure BuiltUp (fs es : Entries Json) : Prop where
  decodes : Decodes es
  keys : ∀ k ∈ es.keys, isKnown k = true ∨ k ∈ fs.keys
  gathers : gathered es = gathered fs

theorem builtUp_default : BuiltUp [] default.object where
  decodes := decodes_default
  keys k hk := by
    rw [object_eq sound_default, Entries.keys_append, List.mem_append] at hk
    exact hk.imp isKnown_of_mem id
  gathers := (eq_gathered_of_ofObject decodes_default.keys ofObject_default).symm

/-- **One more field is put when it decodes alone, and what is gathered follows either way.** -/
theorem BuiltUp.accept (h : BuiltUp fs es) (hk : k ∉ fs.keys) :
    BuiltUp (fs.put k v) (accept es (k, v)) := by
  have hput := Entries.nodup_keys_put (k := k) (x := v) h.decodes.keys
  by_cases hok : ∃ s, ofObject [(k, v)] = .ok s
  · have hall : ∃ s, ofObject (es.put k v) = .ok s := by
      refine (exists_ofObject_iff_forall hput).mpr fun e he => ?_
      rcases Entries.mem_of_mem_put he with rfl | he
      · exact hok
      · exact (exists_ofObject_iff_forall h.decodes.keys).mp h.decodes.ok e he
    obtain ⟨s, hs⟩ := hall
    rw [accept_of_ok hs]
    refine ⟨⟨hput, s, hs⟩, fun j hj => ?_, gathered_put h.gathers ?_⟩
    · rw [Entries.mem_keys_put_iff]
      rcases Entries.mem_keys_put_iff.mp hj with rfl | hj
      · exact .inr (.inl rfl)
      · exact (h.keys j hj).imp_right .inr
    · cases hknown : isKnown k with
      | true => exact .inl rfl
      | false => exact .inr ⟨fun hmem => (h.keys k hmem).elim (by simp [hknown]) hk, hk⟩
  · have hnot : ∀ s, ofObject (es.put k v) ≠ .ok s := fun s hs =>
      hok ((exists_ofObject_iff_forall hput).mp ⟨s, hs⟩ _ (Entries.mem_put_self es k v))
    rw [accept_of_not_ok hnot]
    exact ⟨h.decodes, fun j hj => (h.keys j hj).imp_right (Entries.mem_keys_put_iff.mpr ∘ .inr),
      h.gathers.trans (gathered_put_of_not_ok hk hok).symm⟩

/-- **The object that is built up from the fields of a document gathers what the document does.** -/
theorem builtUp_foldl_accept {fs : Entries Json} (hkeys : fs.keys.Nodup) :
    BuiltUp fs (fs.foldl Settings.accept default.object) := by
  induction fs using List.reverseRecOn with
  | nil => exact builtUp_default
  | append_singleton fs f ih =>
    rw [Entries.keys_append] at hkeys
    have hf : f.1 ∉ Entries.keys fs := fun hmem =>
      (List.nodup_append.mp hkeys).2.2 f.1 hmem f.1 (by simp) rfl
    have hstep := BuiltUp.accept (v := f.2) (ih (List.nodup_append.mp hkeys).1) hf
    rw [Entries.put_of_not_mem hf] at hstep
    rw [List.foldl_append]
    exact hstep

theorem ofObject_foldl_accept (hkeys : fs.keys.Nodup) :
    ofObject (fs.foldl accept default.object) = .ok (gathered fs) := by
  have hbuilt := builtUp_foldl_accept hkeys
  obtain ⟨s, hs⟩ := hbuilt.decodes.ok
  rw [hs, eq_gathered_of_ofObject hbuilt.decodes.keys hs, hbuilt.gathers]

theorem recover_obj_eq_ok_iff :
    recover (.obj fs) = .ok s ↔
      ofObject fs = .ok s ∨
        (∀ t, ofObject fs ≠ .ok t) ∧ ofObject (fs.foldl accept default.object) = .ok s := by
  have hwhole : Coded.ofJson? (.obj fs) = ofObject fs := rfl
  rw [recover, hwhole]
  cases ofObject fs with
  | ok t => simp
  | error e => simp

/-- **A stored object yields what each of its fields says alone.** -/
theorem recover_eq_gathered (hkeys : fs.keys.Nodup) : recover (.obj fs) = .ok (gathered fs) := by
  rw [recover_obj_eq_ok_iff]
  by_cases hok : ∃ s, ofObject fs = .ok s
  · obtain ⟨s, hs⟩ := hok
    exact .inl (hs.trans (congrArg _ (eq_gathered_of_ofObject hkeys hs)))
  · exact .inr ⟨fun s hs => hok ⟨s, hs⟩, ofObject_foldl_accept hkeys⟩

theorem recover_of_not_obj (h : ∀ fs, v ≠ .obj fs) : recover v = .ok default := by
  cases v with
  | obj fs => exact absurd rfl (h fs)
  | _ => rfl

/-! ### The order of the fields -/

/-- The same settings, but for the order of the other fields. -/
structure Reordered (s t : Settings) : Prop where
  known : { s with extra := [] } = { t with extra := [] }
  extra : s.extra.Perm t.extra

theorem gathered_of_perm (hkeys : fs.keys.Nodup) (h : es.Perm fs) :
    (gathered es).Reordered (gathered fs) := by
  have halone (k : String) : alone es k = alone fs k := by
    rw [alone, alone, Entries.get?_of_perm hkeys h]
  exact ⟨by simp only [gathered, halone], h.flatMap_right _⟩

end FrameScope.Settings
