import FrameScope.Proofs.Json.Nesting
import FrameScope.Proofs.Settings.Session

/-!
# A log filter that is set is loaded again

A document that is read from a file may still be read when a field of it is set: the other fields
nest as deep as they did (`nesting_extra_of_load`), and what is set nests no deeper than a field
may. With a log filter as the field, a fresh handle has the filter that was set
(`load_set_logFilter`), whatever document was stored before.
-/

namespace FrameScope

theorem Json.Parsed.nesting_le {v : Json} : v.Parsed → v.nesting ≤ JsonText.maxDepth
  | ⟨_, h⟩ => Document.nesting_le_of_decode h

namespace Settings

variable {s next : Settings} {level : Nat} {field : String} {value : Json}

/-! ### How deep the document nests -/

theorem nestingItems_texts {α : Type} (text : α → String) (xs : List α) :
    Json.nestingItems (Node.toJsonItems (xs.map fun x => .text (text x))) = 0 := by
  induction xs with
  | nil => rfl
  | cons x xs ih =>
    rw [List.map_cons, Node.toJsonItems, Json.nestingItems, ih]
    rfl

theorem nesting_logFilter (F : LogFilter) : (Coded.json F).nesting = 2 := by
  let levels := Node.toJsonItems (F.activeLevels.map fun l => .text l.name)
  let categories := Node.toJsonItems (F.activeCategories.map fun c => .text c.name)
  let entity := Node.toJsonFields (optionalEntry "entityId" F.entity)
  have hlevels : Json.nestingItems levels = 0 := nestingItems_texts _ _
  have hcategories : Json.nestingItems categories = 0 := nestingItems_texts _ _
  have hentity : Json.nestingFields entity = 0 := by
    dsimp only [entity]
    cases F.entity <;> rfl
  show max (Json.nestingItems levels + 1) (max (Json.nestingItems categories + 1)
    (max 0 (Json.nestingFields entity))) + 1 = 2
  omega

theorem nesting_object_le (hs : s.Sound) (hlevel : 2 ≤ level)
    (hextra : ∀ e ∈ s.extra, e.2.nesting ≤ level) : (Json.obj s.object).nesting ≤ level + 1 := by
  have hscale : (Node.float s.uiScale).toJson.nesting = 0 := by
    rw [Node.toJson]
    split <;> rfl
  have hfields : Json.nestingFields s.object ≤ level := by
    rw [object_eq hs, Json.nestingFields_le_iff]
    intro e he
    rcases List.mem_append.mp he with he | he
    · simp only [knownFields, List.mem_cons, List.not_mem_nil, or_false] at he
      rcases he with rfl | rfl | rfl | rfl
      · exact Nat.zero_le _
      · exact hscale ▸ Nat.zero_le _
      · exact Nat.zero_le _
      · exact (nesting_logFilter s.logFilter).trans_le hlevel
    · exact hextra e he
  exact Nat.succ_le_succ hfields

theorem nesting_extra_of_recover {fs : Entries Json} (hfs : (Json.obj fs).Sound)
    (hlevel : Json.nestingFields fs ≤ level) (h : recover (.obj fs) = .ok s) :
    ∀ e ∈ s.extra, e.2.nesting ≤ level := by
  intro e he
  have hs := sound_of_recover h
  have hfound : s.extra.get? e.1 = some e.2 := (Entries.get?_eq_some_iff hs.keys).mpr he
  have hsound : ∀ v ∈ fs.get? e.1, v.Sound := fun v hv =>
    Json.soundFields_iff.mp hfs.2.2 _ (Entries.mem_of_get? hv)
  rw [get?_recover hfs.1 (hs.extra e he).1 hsound h, Option.bind_eq_some_iff] at hfound
  obtain ⟨v, hv, hsettled⟩ := hfound
  rw [Json.nesting_eq_of_settled? hsettled]
  exact Json.nestingFields_le_iff.mp hlevel _ (Entries.mem_of_get? hv)

theorem nesting_extra_of_put (hs : s.Sound) (hvalue : value.Sound) (hlevel : value.nesting ≤ level)
    (hextra : ∀ e ∈ s.extra, e.2.nesting ≤ level)
    (h : ofObject (s.object.put field value) = .ok next) :
    ∀ e ∈ next.extra, e.2.nesting ≤ level := by
  intro e he
  have hnext := sound_of_ofObject h
  have hforeign := (hnext.extra e he).1
  have hput := Json.soundFields_put (k := field) (sound_object hs).2.2 hvalue
  have hsound : ∀ v ∈ (s.object.put field value).get? e.1, v.Sound := fun v hv =>
    Json.soundFields_iff.mp hput _ (Entries.mem_of_get? hv)
  have hfound : next.extra.get? e.1 = some e.2 := (Entries.get?_eq_some_iff hnext.keys).mpr he
  rw [get?_extra (Entries.nodup_keys_put (nodup_object hs)) h hforeign hsound,
    Option.bind_eq_some_iff, Entries.get?_put, get?_object hs hforeign] at hfound
  obtain ⟨v, hv, hsettled⟩ := hfound
  rw [Json.nesting_eq_of_settled? hsettled]
  split at hv
  · exact Option.some.inj hv ▸ hlevel
  · exact hextra _ (Entries.mem_of_get? hv)

/-! ### The log filter as a field -/

theorem put_logFilter (hs : s.Sound) (F : LogFilter) :
    s.object.put "logFilter" (Coded.json F) = { s with logFilter := F }.object := by
  have hs' : { s with logFilter := F }.Sound := ⟨hs.scale, hs.keys, hs.extra⟩
  rw [object_eq hs, object_eq hs']
  rfl

theorem ofObject_put_logFilter (hs : s.Sound) {F : LogFilter}
    (h : ofObject (s.object.put "logFilter" (Coded.json F)) = .ok next) :
    next.logFilter = F ∧ next.uiScale.isFinite = true := by
  have hs' : { s with logFilter := F }.Sound := ⟨hs.scale, hs.keys, hs.extra⟩
  rw [put_logFilter hs] at h
  cases hfinite : s.uiScale.isFinite with
  | true =>
    obtain ⟨⟨t, ht, hnext⟩, -⟩ := ofObject_eq_ok_iff.mp h
    rw [knownOf_object hs' hfinite] at ht
    rw [hnext, ← Except.ok.inj ht]
    exact ⟨rfl, hfinite⟩
  | false =>
    refine absurd h (not_ofObject_of_null_scale (nodup_object hs') ?_)
    rw [object_eq hs', knownFields, toJson_float hfinite]
    simp

end Settings

namespace SettingsHandle

open SettingsStore

variable {dir : Path} {fs : Files} {key : String} {h : SettingsHandle}

theorem set_ok {σ : Type} {S : SettingsStore σ} {store : σ} {field : String} {value : Json}
    (hok : (h.set S store field value).result = .ok ()) :
    ∃ next, Settings.ofObject (h.current.object.put field value) = .ok next ∧
      S.save store h.key (.obj next.object) = ((h.set S store field value).store, .ok ()) := by
  unfold SettingsHandle.set at hok ⊢
  cases hnext : Settings.ofObject (h.current.object.put field value) with
  | error cause => simp [hnext, refuse] at hok
  | ok next =>
    rcases hsave : S.save store h.key (.obj next.object) with ⟨store', _ | _⟩
    · simp [hnext, replace, hsave, refuse] at hok
    · exact ⟨next, rfl, by simp [replace, hsave]⟩

theorem parsed_of_directory_load {v : Json} (h : (directory dir).load fs key = .ok (some v)) :
    v.Parsed := by
  simp only [directory] at h
  split at h
  · unfold readDocument at h
    split at h
    · split at h
      · rename_i w hw
        obtain rfl : w = v := by simpa using h
        exact ⟨_, hw⟩
      · simp at h
    · simp at h
    · simp at h
  · simp at h

theorem nesting_extra_of_load (hload : load (directory dir) fs key = .ok h) :
    ∀ e ∈ h.current.extra, e.2.nesting < JsonText.maxDepth := by
  obtain ⟨document?, hdocument, hload⟩ := except_bind_eq_ok hload
  cases document? with
  | none =>
    obtain rfl := Except.ok.inj hload
    simp [Settings.default]
  | some v =>
    have hparsed := parsed_of_directory_load hdocument
    dsimp only at hload
    split at hload
    · rename_i s hs
      obtain rfl := Except.ok.inj hload
      cases v with
      | obj fields =>
        intro e he
        have hfields := Nat.le_pred_of_lt hparsed.nesting_le
        have hle := Settings.nesting_extra_of_recover hparsed.sound hfields hs e he
        exact Nat.lt_of_le_pred (by decide) hle
      | _ =>
        have hdefault : Except.ok Settings.default = .ok s := hs
        rw [← Except.ok.inj hdefault]
        simp [Settings.default]
    · simp at hload

theorem directory_load_congr {later : Files} {content : Cbor.Bytes}
    (hfile : fs.kind? (dir ++ [SettingsKey.file key]) = some (.file content))
    (hsame : later.kind? (dir ++ [SettingsKey.file key]) = some (.file content)) :
    load (directory dir) later key = load (directory dir) fs key := by
  have hload : (directory dir).load later key = (directory dir).load fs key := by
    simp only [directory, readDocument, Files.read, hfile, hsame]
  rw [load, load, hload]

/-- **A log filter that is set in a directory is what a fresh handle has from then on, as long as
the file of the document stays.** -/
theorem load_set_logFilter {F : LogFilter} (hdir : HasDirectory fs dir)
    (hload : load (directory dir) fs key = .ok h) {after : SettingsStep Files}
    (hafter : h.set (directory dir) fs "logFilter" (Coded.json F) = after)
    (hok : after.result = .ok ()) :
    HasDirectory after.store dir ∧ ∀ later : Files,
      later.kind? (dir ++ [SettingsKey.file key]) =
          after.store.kind? (dir ++ [SettingsKey.file key]) →
        ∃ h', load (directory dir) later key = .ok h' ∧ h'.current.logFilter = F := by
  subst hafter
  obtain ⟨hkey, hsound, -⟩ := sound_of_load hload
  obtain ⟨next, hnext, hsave⟩ := set_ok hok
  obtain ⟨hfilter, hfinite⟩ := Settings.ofObject_put_logFilter hsound hnext
  have hvalue : (Coded.json F).Sound := Node.sound_toJson (LogFilter.plain_write F)
  have hlasting := Settings.lasting_of_put hsound hvalue hnext
  have hextra : ∀ e ∈ next.extra, e.2.nesting ≤ JsonText.maxDepth - 1 :=
    Settings.nesting_extra_of_put hsound hvalue (by rw [Settings.nesting_logFilter]; decide)
      (fun e he => Nat.le_pred_of_lt (nesting_extra_of_load hload e he)) hnext
  have hfits : (Backend.directory dir).Fits (.obj next.object) :=
    Settings.nesting_object_le hlasting.sound (by decide) hextra
  rw [hkey] at hsave
  obtain ⟨-, hdir', hfile⟩ := directory_save_ok hdir hsave
  refine ⟨hdir', fun later hsame => ⟨⟨key, next⟩, ?_, hfilter⟩⟩
  rw [directory_load_congr hfile (hsame.trans hfile)]
  exact (load_save_iff (b := .directory dir) hdir hlasting hsave).mpr ⟨hfinite, hfits⟩

end SettingsHandle

end FrameScope
