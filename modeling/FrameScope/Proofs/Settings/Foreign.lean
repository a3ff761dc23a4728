import FrameScope.Proofs.Settings.Session

/-!
# Fields of other programs

A field that is none of the four is kept by every set of another field: the document in the store
and the handle show it with an equal value exactly when the value stays as it is when it is held
back (`foreign_field_kept_iff`), and the document is one that the store reads back.
-/

namespace FrameScope

namespace SettingsSession

open SettingsHandle

/-- Fields that are set one after the other. -/
def sets (fields : Entries Json) : List SettingsEdit := fields.map fun f => .set f.1 f.2

theorem sets_cons (f : String × Json) (fields : Entries Json) :
    sets (f :: fields) = .set f.1 f.2 :: sets fields := rfl

variable {b : Backend} {key k : String} {v : Json} {s t : SettingsSession b.State}

/-- The document in the store has a field with an equal value. -/
def Stores (b : Backend) (key k : String) (v : Json) (s : SettingsSession b.State) : Prop :=
  ∃ fs w, b.store.load s.store key = .ok (some (.obj fs)) ∧ Entries.get? fs k = some w ∧
    w.same v = true

/-- The handle shows a field with an equal value. -/
def Shows (k : String) (v : Json) (s : SettingsSession b.State) : Prop :=
  ∃ w, s.handle.current.get? k = some w ∧ w.same v = true

/-! ### What is carried along -/

/-- A session whose settings have under a name what the value there settled to. -/
structure Carries (b : Backend) (key k : String) (v : Json) (s : SettingsSession b.State) : Prop where
  isOpen : b.IsOpen s.store
  handleKey : s.handle.key = key
  sound : s.handle.current.Sound
  extra : s.handle.current.extra.get? k = v.settled?

/-- The document in the store is that of the handle, if it fits; else there is none to be read. -/
structure Written (b : Backend) (key : String) (s : SettingsSession b.State) : Prop where
  load : b.Fits (.obj s.handle.current.object) →
    b.store.load s.store key = .ok (some (.obj s.handle.current.object))
  load_error : ¬ b.Fits (.obj s.handle.current.object) → ∃ e, b.store.load s.store key = .error e

theorem Carries.step {field : String} {value : Json} (hs : Carries b key k v s)
    (hk : Settings.isKnown k = false) (hne : field ≠ k)
    (hsteps : Steps b.store s (.set field value) t) (hok : ∀ r ∈ t.answers, r = .ok ()) :
    Carries b key k v t ∧ Written b key t := by
  cases hsteps with
  | refused _ _ cause => exact nomatch hok (.error (.document cause)) (by simp)
  | @notSaved _ _ _ cause _ hsave hanswers => exact nomatch hok (.error cause) (by simp [hanswers])
  | @saved _ _ next store hnext hsave =>
    obtain rfl := hs.handleKey
    have hsound := Settings.sound_of_ofObject hnext
    have hget : (s.handle.current.object.put field value).get? k = v.settled? := by
      rw [Entries.get?_put, if_neg hne, Settings.get?_object hs.sound hk, hs.extra]
    have hextra : next.extra.get? k = v.settled? := by
      have hkeys := Entries.nodup_keys_put (k := field) (x := value) (Settings.nodup_object hs.sound)
      rw [Settings.get?_extra hkeys hnext hk, hget]
      · cases hw : v.settled? with
        | none => rfl
        | some w =>
          rw [Option.bind_some]
          exact Json.settled_of_settled? hw
      · intro w hw
        rw [hget, ← hs.extra] at hw
        exact (hs.sound.extra _ ((Entries.get?_eq_some_iff hs.sound.keys).mp hw)).2
    have hobject := Settings.sound_object hsound
    exact ⟨⟨b.isOpen_of_save hs.isOpen hsave, rfl, hsound, hextra⟩,
      fun hfits => b.load_save hs.isOpen hobject hfits hsave,
      fun hfits => b.load_save_error hs.isOpen hobject hfits hsave⟩

theorem Carries.run {fields : Entries Json} (hs : Carries b key k v s)
    (hk : Settings.isKnown k = false) (hfields : k ∉ fields.keys)
    (hok : ∀ r ∈ (s.run b.store (sets fields)).answers, r = .ok ()) :
    Carries b key k v (s.run b.store (sets fields)) ∧
      (fields ≠ [] → Written b key (s.run b.store (sets fields))) := by
  induction fields generalizing s with
  | nil => exact ⟨hs, absurd rfl⟩
  | cons f fields ih =>
    rw [Entries.keys_cons, List.mem_cons, not_or] at hfields
    rw [sets_cons, run_cons] at hok ⊢
    obtain ⟨hcarries, hwritten⟩ :=
      hs.step hk (Ne.symm hfields.1) (steps_step b.store s (.set f.1 f.2))
        fun r hr => hok r (mem_answers_run (s := s.step b.store _) hr)
    obtain ⟨hall, hlast⟩ := ih hcarries hfields.2 hok
    refine ⟨hall, fun _ => ?_⟩
    cases fields with
    | nil => exact hwritten
    | cons g fields => exact hlast (List.cons_ne_nil g fields)

theorem exists_same_iff (hv : v.Sound) :
    (∃ w, v.settled? = some w ∧ w.same v = true) ↔ v.Settled := by
  constructor
  · rintro ⟨w, hw, hsame⟩
    obtain rfl := Json.eq_of_same_settled hv hw hsame
    exact hw
  · intro hsettled
    exact ⟨v, hsettled, Json.same_self hv⟩

theorem Carries.shows_iff (hs : Carries b key k v s) (hk : Settings.isKnown k = false)
    (hv : v.Sound) : Shows k v s ↔ v.Settled := by
  rw [Shows, Settings.get?, Settings.get?_object hs.sound hk, hs.extra, exists_same_iff hv]

theorem Carries.stores_iff (hs : Carries b key k v s) (hwritten : Written b key s)
    (hk : Settings.isKnown k = false) (hv : v.Sound) :
    Stores b key k v s ↔ v.Settled ∧ b.Fits (.obj s.handle.current.object) := by
  by_cases hfits : b.Fits (.obj s.handle.current.object)
  · rw [and_iff_left hfits, ← exists_same_iff hv, Stores, hwritten.load hfits]
    simp only [Except.ok.injEq, Option.some.injEq, Json.obj.injEq, exists_and_left, exists_eq_left']
    rw [Settings.get?_object hs.sound hk, hs.extra]
  · obtain ⟨e, he⟩ := hwritten.load_error hfits
    simp [Stores, he, hfits]

theorem exists_carries {st : b.State} {fs : Entries Json} (hopen : b.IsOpen st)
    (hstored : b.store.load st key = .ok (some (.obj fs))) (hkeys : fs.keys.Nodup)
    (hk : Settings.isKnown k = false) (hfield : fs.get? k = some v) (hv : v.Sound) :
    ∃ h, load b.store st key = .ok h ∧ Carries b key k v (start st h) := by
  have hs := Settings.recover_eq_gathered hkeys
  refine ⟨⟨key, _⟩, load_of_some hstored hs, hopen, rfl, Settings.sound_of_recover hs, ?_⟩
  have hsound : ∀ w ∈ fs.get? k, w.Sound := fun w hw => by
    obtain rfl := Option.some.inj (hfield.symm.trans hw)
    exact hv
  exact (Settings.get?_recover hkeys hk hsound hs).trans (by rw [hfield]; rfl)

/-- **A field of another program is kept exactly when its value stays as it is and the document
written last is one that the store reads back.** -/
theorem foreign_field_kept_iff {b : Backend} {st : b.State} {key k : String} {fs : Entries Json}
    {v : Json} (hopen : b.IsOpen st) (hstored : b.store.load st key = .ok (some (.obj fs)))
    (hkeys : fs.keys.Nodup) (hk : k ∉ ["theme", "uiScale", "followLive", "logFilter"])
    (hfield : fs.get? k = some v) (hv : v.Sound) :
    ∃ h, load b.store st key = .ok h ∧
      ∀ fields : Entries Json, k ∉ fields.keys →
        (∀ r ∈ ((start st h).run b.store (sets fields)).answers, r = .ok ()) →
          (Stores b key k v ((start st h).run b.store (sets fields)) ∧
              Shows k v ((start st h).run b.store (sets fields)) ↔
            v.Settled ∧ (fields = [] ∨
              b.Fits (.obj ((start st h).run b.store (sets fields)).handle.current.object))) := by
  have hforeign : Settings.isKnown k = false :=
    Bool.eq_false_iff.mpr fun h => hk (Settings.isKnown_iff.mp h)
  obtain ⟨h, hload, hcarries⟩ := exists_carries hopen hstored hkeys hforeign hfield hv
  refine ⟨h, hload, fun fields hfields hok => ?_⟩
  obtain ⟨hend, hwritten⟩ := hcarries.run hforeign hfields hok
  rw [hend.shows_iff hforeign hv]
  cases fields with
  | nil =>
    have hstores : Stores b key k v (start st h) := ⟨fs, v, hstored, hfield, Json.same_self hv⟩
    simpa [sets, run] using fun _ => hstores
  | cons f fields =>
    rw [hend.stores_iff (hwritten (List.cons_ne_nil f fields)) hforeign hv]
    simp only [List.cons_ne_nil, false_or]
    tauto

/-! ### Two documents -/

/-- A store that remembers one document. -/
def remembering (fields : Entries Json) : Backend.memory.State := [(dashboardKey, .obj fields)]

/-- What becomes of a handle on the document when a field is set. -/
def sessionOn (fields : Entries Json) : SettingsSession Backend.memory.State :=
  let h := (load Backend.memory.store (remembering fields) dashboardKey).toOption.getD default
  (start (remembering fields) h).run Backend.memory.store (sets [("followLive", .bool false)])

theorem sessionOn_eq {fields : Entries Json} {h : SettingsHandle}
    (hload : load Backend.memory.store (remembering fields) dashboardKey = .ok h) :
    sessionOn fields =
      (start (remembering fields) h).run Backend.memory.store (sets [("followLive", .bool false)]) := by
  rw [sessionOn, hload]
  rfl

def layout : Json := .obj [("panels", .arr [.str "logs", .num (.ofInt 2)])]

theorem sound_layout : layout.Sound :=
  ⟨by decide, by decide, ⟨trivial, Number.valid_ofInt 2, trivial⟩, trivial⟩

theorem settled_layout : layout.Settled := by
  simp only [layout, Json.settled_obj_iff, Json.settled_arr_iff, List.forall_mem_cons,
    Json.settled_num_iff]
  exact ⟨⟨rfl, by decide, by simp⟩, by simp⟩

/-- A scale that is none, and a field of another program. -/
def layoutFields : Entries Json := [("uiScale", .str "big"), ("layout", layout)]

theorem foreign_field_kept_iff_layout :
    Stores .memory dashboardKey "layout" layout (sessionOn layoutFields) ∧
      Shows "layout" layout (sessionOn layoutFields) := by
  obtain ⟨h, hload, hkept⟩ := @foreign_field_kept_iff .memory (remembering layoutFields)
    dashboardKey "layout" layoutFields layout trivial rfl (by decide) (by decide) rfl sound_layout
  have hanswers : (sessionOn layoutFields).answers = [.ok ()] := by decide +kernel
  rw [sessionOn_eq hload] at hanswers ⊢
  have hok : ∀ r ∈ ((start (remembering layoutFields) h).run Backend.memory.store
      (sets [("followLive", .bool false)])).answers, r = .ok () := by
    rw [hanswers]
    simp
  have hiff := hkept [("followLive", .bool false)] (by decide) hok
  exact hiff.mpr ⟨settled_layout, .inr (Backend.fits_memory _)⟩

def wideNumber : Json := .num (.ofInt 18446744073709551616)

/-- An integer past 64 bits next to another field. -/
def wideFields : Entries Json := [("a", wideNumber), ("b", .bool true)]

theorem sound_wideFields : (Json.obj wideFields).Sound :=
  ⟨by decide, by decide, Number.valid_ofInt _, trivial, trivial⟩

/-- The field is dropped as soon as another one is set, and the handle does not show it at all. -/
theorem not_foreign_field_kept_wideNumber :
    (Json.obj wideFields).Parsed ∧ (sessionOn wideFields).answers = [.ok ()] ∧
      ¬ Stores .memory dashboardKey "a" wideNumber (sessionOn wideFields) ∧
        ¬ Shows "a" wideNumber (sessionOn wideFields) := by
  have hanswers : (sessionOn wideFields).answers = [.ok ()] := by decide +kernel
  refine ⟨Json.parsed_of_sound sound_wideFields (by decide), hanswers, ?_⟩
  have hv : wideNumber.Sound := Number.valid_ofInt _
  have hchanged : ¬ wideNumber.Settled := by
    rw [wideNumber, Json.settled_num_iff]
    decide
  obtain ⟨h, hload, hcarries⟩ := @exists_carries .memory dashboardKey "a" wideNumber
    (remembering wideFields) wideFields trivial rfl (by decide) rfl rfl hv
  rw [sessionOn_eq hload] at hanswers ⊢
  have hok : ∀ r ∈ ((start (remembering wideFields) h).run Backend.memory.store
      (sets [("followLive", .bool false)])).answers, r = .ok () := by
    rw [hanswers]
    simp
  obtain ⟨hend, hwritten⟩ := hcarries.run rfl (by decide) hok
  exact ⟨fun hstores => hchanged ((hend.stores_iff (hwritten (by simp)) rfl hv).mp hstores).1,
    fun hshows => hchanged ((hend.shows_iff rfl hv).mp hshows)⟩

end SettingsSession

end FrameScope
