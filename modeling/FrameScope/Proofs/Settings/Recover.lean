import FrameScope.Proofs.Settings.Fields
import FrameScope.Settings.Handle

/-!
# Settings of stored documents

A stored document is recovered field by field (`load_field_by_field`). Another field comes out as
what it is when it is held back (`get?_recover`). The object of settings yields the same settings,
except that a scale that is not finite comes back as one (`recover_object`).
-/

namespace FrameScope

namespace SettingsHandle

variable {σ : Type} {S : SettingsStore σ} {store : σ} {key : String}

theorem load_of_none (h : S.load store key = .ok none) :
    load S store key = .ok ⟨key, .default⟩ := by
  rw [load, h]
  rfl

theorem load_of_some {v : Json} (h : S.load store key = .ok (some v)) {s : Settings}
    (hs : Settings.recover v = .ok s) : load S store key = .ok ⟨key, s⟩ := by
  rw [load, h]
  simp only [bind, Except.bind, hs]

end SettingsHandle

namespace Settings

open Read Node

variable {s : Settings} {es fs : Entries Json} {j k : String} {v : Json}

/-! ### Stored settings -/

/-- **Stored settings are recovered field by field.** Whether a stored object decodes whole or is
built up over the defaults, each known field is what it says alone, and the other fields are those
that decode alone, in order; how the fields are ordered makes no difference to what each of them
yields. A stored value that is no object yields the defaults. -/
theorem load_field_by_field {σ : Type} (S : SettingsStore σ) (store : σ) (key : String) :
    (∀ fs : Entries Json, fs.keys.Nodup → S.load store key = .ok (some (.obj fs)) →
      SettingsHandle.load S store key = .ok ⟨key, gathered fs⟩ ∧
        (∀ s, ofObject fs = .ok s → s = gathered fs) ∧
          ofObject (fs.foldl accept default.object) = .ok (gathered fs) ∧
            ∀ es : Entries Json, es.Perm fs → (gathered es).Reordered (gathered fs)) ∧
      (∀ k v s, ofObject [(k, v)] = .ok s →
        if isKnown k then s.extra = [] else ∃ w, s.extra = [(k, w)]) ∧
        ∀ v, S.load store key = .ok (some v) → (∀ fs, v ≠ .obj fs) →
          SettingsHandle.load S store key = .ok ⟨key, default⟩ := by
  refine ⟨fun fs hkeys hstored => ⟨?_, fun s hs => eq_gathered_of_ofObject hkeys hs,
    ofObject_foldl_accept hkeys, fun es hes => gathered_of_perm hkeys hes⟩, fun k v s hs => ?_,
    fun v hstored hv => ?_⟩
  · exact SettingsHandle.load_of_some hstored (recover_eq_gathered hkeys)
  · have hextra := extra_of_ofObject_singleton hs
    split
    · rename_i hk
      rwa [if_pos hk] at hextra
    · rename_i hk
      rw [if_neg hk] at hextra
      exact hextra.imp fun w hw => hw.2
  · exact SettingsHandle.load_of_some hstored (recover_of_not_obj hv)

/-- A document whose scale and stamp do not decode. -/
def mixedFields : Entries Json :=
  [("uiScale", .str "big"), ("layout", .str "wide"), ("stamp", .num (.ofInt 18446744073709551616)),
    ("theme", .str "light")]

/-- Its theme and its layout are recovered all the same. -/
theorem load_field_by_field_mixed :
    ∃ s, SettingsHandle.load .memory [(dashboardKey, .obj mixedFields)] dashboardKey =
        .ok ⟨dashboardKey, s⟩ ∧ s.theme = .light ∧ s.uiScale = .one ∧ s.extra.keys = ["layout"] :=
  ⟨gathered mixedFields,
    ((load_field_by_field .memory [(dashboardKey, .obj mixedFields)] dashboardKey).1 mixedFields
      (by decide) rfl).1, by decide +kernel, by decide +kernel, by decide +kernel⟩

/-! ### Other fields -/

theorem get?_extra_ofField_of_ne (h : j ≠ k) : (ofField (j, v)).extra.get? k = none := by
  by_cases hok : ∃ s, ofObject [(j, v)] = .ok s
  · obtain ⟨s, hs⟩ := hok
    have hextra := extra_of_ofObject_singleton hs
    rw [ofField_of_ok hs]
    split at hextra
    · rw [hextra]
      rfl
    · obtain ⟨w, -, hw⟩ := hextra
      rw [hw, Entries.get?, if_neg h]
      rfl
  · rw [ofField_of_not_ok hok]
    rfl

theorem get?_extra_ofField (hk : isKnown k = false) (hv : v.Sound) :
    (ofField (k, v)).extra.get? k = v.settled? := by
  cases hw : v.settled? with
  | some w =>
    rw [extra_ofField_of_returns hk ((returns_iff hv).mpr hw), Entries.get?, if_pos rfl]
  | none =>
    have hnot : ¬ ∃ s, ofObject [(k, v)] = .ok s := by
      rintro ⟨s, hs⟩
      have hextra := extra_of_ofObject_singleton hs
      rw [if_neg (by simp [hk])] at hextra
      obtain ⟨w, hreturns, -⟩ := hextra
      simp [(returns_iff hv).mp hreturns] at hw
    rw [ofField_of_not_ok hnot]
    rfl

theorem get?_gathered (hkeys : es.keys.Nodup) (hk : isKnown k = false)
    (hsound : ∀ v ∈ es.get? k, v.Sound) :
    (gathered es).extra.get? k = (es.get? k).bind Json.settled? := by
  show Entries.get? (es.flatMap fun e => (ofField e).extra) k = _
  induction es with
  | nil => rfl
  | cons e es ih =>
    obtain ⟨j, v⟩ := e
    obtain ⟨hhead, htail⟩ := List.nodup_cons.mp hkeys
    rw [List.flatMap_cons, Entries.get?_append]
    rw [Entries.get?] at hsound ⊢
    by_cases hj : j = k
    · subst hj
      have hrest := Entries.get?_eq_none_iff.mpr hhead
      rw [if_pos rfl] at hsound ⊢
      rw [get?_extra_ofField hk (hsound v rfl), ih htail (by simp [hrest]), hrest]
      simp
    · rw [if_neg hj] at hsound ⊢
      rw [get?_extra_ofField_of_ne hj, Option.none_or, ih htail hsound]

theorem get?_extra (hkeys : es.keys.Nodup) (h : ofObject es = .ok s) (hk : isKnown k = false)
    (hsound : ∀ v ∈ es.get? k, v.Sound) : s.extra.get? k = (es.get? k).bind Json.settled? := by
  rw [eq_gathered_of_ofObject hkeys h, get?_gathered hkeys hk hsound]

/-- **Another field of a stored object comes out as what it settles to, whole or field by field.** -/
theorem get?_recover (hkeys : fs.keys.Nodup) (hk : isKnown k = false)
    (hsound : ∀ v ∈ fs.get? k, v.Sound) (h : recover (.obj fs) = .ok s) :
    s.extra.get? k = (fs.get? k).bind Json.settled? := by
  obtain rfl := Except.ok.inj ((recover_eq_gathered hkeys).symm.trans h)
  exact get?_gathered hkeys hk hsound

/-! ### The object of settings -/

theorem not_exists_null_scale : ¬ ∃ s, ofObject [("uiScale", .null)] = .ok s :=
  fun ⟨_, hs⟩ => nomatch hs

theorem not_ofObject_of_null_scale (hkeys : es.keys.Nodup) (h : ("uiScale", Json.null) ∈ es) :
    ofObject es ≠ .ok s := fun hs =>
  not_exists_null_scale ((exists_ofObject_iff_forall hkeys).mp ⟨s, hs⟩ _ h)

theorem gathered_put_null_scale (es : Entries Json) :
    gathered (es.put "uiScale" .null) = { gathered es with uiScale := .one } := by
  have hnull : ofField ("uiScale", .null) = default := ofField_of_not_ok not_exists_null_scale
  have hextra := @extra_put_of_known es "uiScale" .null (by decide)
  simp only [gathered, alone_put, hextra, hnull]
  rfl

theorem toJson_float {x : Binary64} (h : x.isFinite = false) : (Node.float x).toJson = .null := by
  cases x with
  | finite b rank => simp [Binary64.isFinite] at h
  | infinite b => cases b <;> rfl
  | nan => rfl

theorem Lasting.with_scale (hs : s.Lasting) {x : Binary64} (hx : x.Readable) :
    { s with uiScale := x }.Lasting :=
  ⟨⟨hx, hs.sound.keys, hs.sound.extra⟩, hs.settled⟩

theorem object_of_not_finite (hs : s.Sound) (hone : { s with uiScale := .one }.Sound)
    (hfinite : s.uiScale.isFinite = false) :
    s.object = { s with uiScale := .one }.object.put "uiScale" .null := by
  rw [object_eq hs, object_eq hone, knownFields, toJson_float hfinite]
  rfl

/-- **The object of settings yields the settings, but for a scale that is not finite.** -/
theorem recover_object (hs : s.Lasting) :
    recover (.obj s.object) =
      .ok (if s.uiScale.isFinite then s else { s with uiScale := .one }) := by
  rw [recover_eq_gathered (nodup_object hs.sound)]
  cases hfinite : s.uiScale.isFinite with
  | true =>
    rw [← eq_gathered_of_ofObject (nodup_object hs.sound) (ofObject_object hs hfinite)]
    rfl
  | false =>
    have hone : { s with uiScale := .one }.Lasting := hs.with_scale sound_default.scale
    rw [object_of_not_finite hs.sound hone.sound hfinite, gathered_put_null_scale,
      ← eq_gathered_of_ofObject (nodup_object hone.sound) (ofObject_object hone rfl)]
    rfl

end Settings

end FrameScope
