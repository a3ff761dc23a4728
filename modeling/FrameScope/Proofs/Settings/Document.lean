import FrameScope.Proofs.Node.Keeping
import FrameScope.Proofs.Node.Loggable
import FrameScope.Proofs.Node.Plain
import FrameScope.Settings.Basic

/-!
# Settings and their document

Settings are read from an object in two parts (`ofObject_eq_ok_iff`): the known fields make a record,
and every other field comes out as what it is when it is held back.

Settings that were read are sound (`sound_of_ofObject`), and their object is read back as the same
settings (`ofObject_object`) as long as the scale is finite and the other fields stay as they are.
-/

namespace FrameScope

/-! ### The log filter -/

namespace LogFilter

open Read

theorem read_level (l : Level) (m : Medium) : Coded.read m (Coded.write l) = .ok l := by
  cases l <;> cases m <;> rfl

theorem read_category (c : Category) (m : Medium) : Coded.read m (Coded.write c) = .ok c := by
  cases c <;> cases m <;> rfl

theorem items_write {α : Type} [Coded α] {m : Medium}
    (h : ∀ x : α, Coded.read m (Coded.write x) = .ok x) (xs : List α) :
    items Coded.read m (xs.map Coded.write) = .ok xs := by
  induction xs with
  | nil => rfl
  | cons x xs ih => simp [items, h, ih, bind, Except.bind]

theorem read_write (f : LogFilter) (m : Medium) : Coded.read m (Coded.write f) = .ok f := by
  have hlevels : (fun l => decide (l ∈ f.activeLevels)) = f.levels := by
    funext l
    simp [activeLevels, Level.mem_all]
  have hcategories : (fun c => decide (c ∈ f.activeCategories)) = f.categories := by
    funext c
    simp [activeCategories, Category.mem_all]
  have hslots : Slots m fields ([(.name "activeLevels", .seq (f.activeLevels.map Coded.write)),
      (.name "activeCategories", .seq (f.activeCategories.map Coded.write)),
      (.name "searchText", .text f.search)] ++ optionalEntry "entityId" f.entity) all f := by
    have hread := items_write (m := m) (read_level · m) f.activeLevels
    have hread' := items_write (m := m) (read_category · m) f.activeCategories
    refine .plain rfl rfl (y := f.activeLevels) hread <|
      .plain rfl rfl (y := f.activeCategories) hread' <| .plain rfl rfl (y := f.search) rfl ?_
    rw [hlevels, hcategories]
    obtain ⟨levels, categories, search, entity⟩ := f
    cases entity with
    | none => exact .skipped rfl (.nil _)
    | some e => exact .plain rfl rfl (y := some e) rfl (.nil _)
  exact recordEntries_of_slots (by decide) hslots

theorem plainItems_write {α : Type} [Coded α] (h : ∀ x : α, (Coded.write x).Plain) (xs : List α) :
    Node.PlainItems (xs.map Coded.write) := by
  induction xs with
  | nil => trivial
  | cons x xs ih => exact ⟨h x, ih⟩

theorem plain_write (f : LogFilter) : (Coded.write f).Plain := by
  have hlevel (l : Level) : (Coded.write l).Plain := trivial
  have hcategory (c : Category) : (Coded.write c).Plain := trivial
  have hlevels := plainItems_write hlevel f.activeLevels
  have hcategories := plainItems_write hcategory f.activeCategories
  have hname (s : String) (hs : s ≠ numberKey) : ∃ t, Key.name s = .name t ∧ t ≠ numberKey :=
    ⟨s, rfl, hs⟩
  show (write f).Plain
  rw [write]
  cases f.entity with
  | none =>
    exact ⟨by simp [optionalEntry], hname _ (by decide), hlevels, hname _ (by decide), hcategories,
      hname _ (by decide), trivial, trivial⟩
  | some e =>
    exact ⟨by simp [optionalEntry], hname _ (by decide), hlevels, hname _ (by decide), hcategories,
      hname _ (by decide), trivial, hname _ (by decide), trivial, trivial⟩

end LogFilter

/-! ### Reading -/

namespace Settings

open Read Node

/-- Whether a name is one of the four fields. -/
def isKnown (name : String) : Bool := isFieldName fields name

/-- The settings that the known fields of an object make. -/
def knownOf (es : Entries Json) : Except DecodeError Settings :=
  recordEntries fields default .value (ofJsonFields (fieldPart fields es))

theorem isKnown_iff {name : String} :
    isKnown name = true ↔ name ∈ ["theme", "uiScale", "followLive", "logFilter"] := by
  rw [isKnown, isFieldName, List.find?_isSome]
  simp [fields, Field.may, Field.answersTo, @eq_comm _ name]

theorem knownOf_eq_ok_iff {es : Entries Json} {t : Settings} :
    knownOf es = .ok t ↔
      ∃ seen, fieldEntries fields .value [] default (ofJsonFields (fieldPart fields es)) =
        .ok (seen, t) := by
  have hmissing (seen : List String) : missing? fields seen = none := by
    simp [missing?, fields, Field.may]
  rw [knownOf, recordEntries]
  cases fieldEntries fields .value [] default (ofJsonFields (fieldPart fields es)) with
  | error e => simp [bind, Except.bind]
  | ok r => simp [bind, Except.bind, hmissing, Prod.ext_iff]

/-- **The known fields of an object and its other fields are read apart.** -/
theorem ofObject_eq_ok_iff {es : Entries Json} {s : Settings} :
    ofObject es = .ok s ↔
      (∃ t, knownOf es = .ok t ∧ s = { t with extra := s.extra }) ∧
        ∃ held, bufferEntries .value (ofJsonFields (foreignPart fields es)) = .ok held ∧
          entries json .buffered (.map held) = .ok s.extra := by
  show read .value (.map (ofJsonFields es)) = .ok s ↔ _
  rw [read]
  constructor
  · intro h
    obtain ⟨⟨t, kept⟩, hkeep, h⟩ := except_bind_eq_ok h
    obtain ⟨extra, hextra, h⟩ := except_bind_eq_ok h
    obtain rfl := Except.ok.inj h
    obtain ⟨hknown, _, hothers, rfl⟩ := keepingEntries_eq_ok_iff.mp hkeep
    exact ⟨⟨t, knownOf_eq_ok_iff.mpr hknown, rfl⟩, _, hothers, hextra⟩
  · rintro ⟨⟨t, ht, hs⟩, others, hothers, hextra⟩
    have hkeep : keepingEntries fields .value [] default [] (ofJsonFields es) = .ok (t, others) :=
      keepingEntries_eq_ok_iff.mpr ⟨knownOf_eq_ok_iff.mp ht, others, hothers, rfl⟩
    simp only [hkeep, bind, Except.bind, hextra]
    rw [← hs]

theorem ofObject_iff {es : Entries Json} {s : Settings} (hkeys : es.keys.Nodup) :
    ofObject es = .ok s ↔
      (∃ t, knownOf es = .ok t ∧ s = { t with extra := s.extra }) ∧
        (foreignPart fields es).Related Returns s.extra := by
  rw [ofObject_eq_ok_iff,
    @entries_held_iff (foreignPart fields es) s.extra (Entries.nodup_keys_filter _ hkeys)]

/-! ### Soundness -/

/-- Settings as they are read: the scale is what digits stand for, and the other fields are sound
values under distinct names of their own. -/
structure Sound (s : Settings) : Prop where
  scale : s.uiScale.Readable
  keys : s.extra.keys.Nodup
  extra : ∀ e ∈ s.extra, isKnown e.1 = false ∧ e.2.Sound

theorem sound_default : default.Sound where
  scale := by
    show 1023 * Binary64.binade < Binary64.rankCount
    decide
  keys := by decide
  extra := by simp [default]

theorem keeps_scale : ∀ f ∈ fields,
    Keeps .value (fun node => ∃ v, node = ofJson v) (fun s : Settings => s.uiScale.Readable) f := by
  have hfloat : Keeps .value (fun node => ∃ v, node = ofJson v)
      (fun s : Settings => s.uiScale.Readable)
      (.may "uiScale" Read.float fun x s => { s with uiScale := x }) := by
    refine keeps_of_set (Q := Binary64.Readable) rfl ?_ fun _ _ hx _ => hx
    rintro _ x ⟨v, rfl⟩ hx
    cases v with
    | num n => exact Except.ok.inj hx ▸ n.readable_toBinary64
    | _ => simp [ofJson, Read.float] at hx
  have hother {α : Type} {name : String} {d : Decoder α} {set : α → Settings → Settings}
      (hset : ∀ x s, (set x s).uiScale = s.uiScale) :
      Keeps .value (fun node => ∃ v, node = ofJson v)
      (fun s : Settings => s.uiScale.Readable)
        (.may name d set) :=
    keeps_free rfl fun x s hs => (hset x s).symm ▸ hs
  intro f hf
  simp only [fields, List.mem_cons, List.not_mem_nil, or_false] at hf
  rcases hf with rfl | rfl | rfl | rfl
  · exact hother fun _ _ => rfl
  · exact hfloat
  · exact hother fun _ _ => rfl
  · exact hother fun _ _ => rfl

theorem sound_of_ofObject {es : Entries Json} {s : Settings} (h : ofObject es = .ok s) : s.Sound := by
  obtain ⟨⟨t, ht, hs⟩, held, hheld, hextra⟩ := ofObject_eq_ok_iff.mp h
  obtain ⟨seen, hseen⟩ := knownOf_eq_ok_iff.mp ht
  obtain ⟨hkeys, hall⟩ := sound_of_entries_held hheld hextra
  have hscale : t.uiScale.Readable := by
    refine fieldEntries_invariant (P := fun s => s.uiScale.Readable) keeps_scale (fun e he => ?_)
      hseen sound_default.scale
    rw [ofJsonFields_eq_map] at he
    obtain ⟨f, -, rfl⟩ := List.mem_map.mp he
    exact ⟨f.2, rfl⟩
  refine ⟨by rw [hs]; exact hscale, hkeys, fun e he => ⟨?_, (hall e he).2⟩⟩
  obtain ⟨x, hx⟩ := Entries.mem_keys_iff.mp (hall e he).1
  simpa [isKnown] using (List.mem_filter.mp hx).2

/-! ### Writing -/

/-- The four fields as an object has them. -/
def knownFields (s : Settings) : Entries Json :=
  [ ("theme", .str s.theme.name), ("uiScale", (Node.float s.uiScale).toJson),
    ("followLive", .bool s.followLive), ("logFilter", (Coded.write s.logFilter).toJson) ]

@[simp] theorem keys_knownFields (s : Settings) :
    s.knownFields.keys = ["theme", "uiScale", "followLive", "logFilter"] := rfl

variable {s : Settings}

theorem isKnown_of_mem {k : String} (h : k ∈ s.knownFields.keys) : isKnown k = true :=
  isKnown_iff.mpr h

theorem Sound.isKnown_eq_false (hs : s.Sound) {k : String} (h : k ∈ s.extra.keys) :
    isKnown k = false := by
  obtain ⟨v, hv⟩ := Entries.mem_keys_iff.mp h
  exact (hs.extra _ hv).1

theorem Sound.nodup_fields (hs : s.Sound) : Entries.keys (s.knownFields ++ s.extra) |>.Nodup := by
  rw [Entries.keys_append]
  refine List.nodup_append.mpr ⟨by simp, hs.keys, ?_⟩
  rintro k hk _ hextra rfl
  simpa [hs.isKnown_eq_false hextra] using isKnown_of_mem hk

theorem object_eq (hs : s.Sound) : s.object = s.knownFields ++ s.extra :=
  Entries.ofPairs_eq_self hs.nodup_fields

theorem nodup_object (hs : s.Sound) : s.object.keys.Nodup := object_eq hs ▸ hs.nodup_fields

theorem fieldPart_object (hs : s.Sound) : fieldPart fields s.object = s.knownFields := by
  rw [object_eq hs, fieldPart, List.filter_append, List.filter_eq_self.mpr,
    List.filter_eq_nil_iff.mpr, List.append_nil]
  · intro e he
    have hforeign : isFieldName fields e.1 = false := (hs.extra e he).1
    simp [hforeign]
  · intro e he
    exact isKnown_of_mem (List.mem_map_of_mem he)

theorem foreignPart_object (hs : s.Sound) : foreignPart fields s.object = s.extra := by
  rw [object_eq hs, foreignPart, List.filter_append, List.filter_eq_nil_iff.mpr,
    List.filter_eq_self.mpr, List.nil_append]
  · intro e he
    have hforeign : isFieldName fields e.1 = false := (hs.extra e he).1
    simp [hforeign]
  · intro e he
    have hknown : isFieldName fields e.1 = true := isKnown_of_mem (List.mem_map_of_mem he)
    simp [hknown]

theorem get?_object (hs : s.Sound) {k : String} (hk : isKnown k = false) :
    s.object.get? k = s.extra.get? k := by
  have hnone : s.knownFields.get? k = none :=
    Entries.get?_eq_none_iff.mpr fun hmem => by simp [isKnown_of_mem hmem] at hk
  rw [object_eq hs, Entries.get?_append, hnone, Option.none_or]

theorem sound_object (hs : s.Sound) : (Json.obj s.object).Sound := by
  refine ⟨nodup_object hs, by rw [object_eq hs]; simp [knownFields, numberKey], ?_⟩
  rw [Json.soundFields_iff, object_eq hs]
  intro e he
  rcases List.mem_append.mp he with he | he
  · simp only [knownFields, List.mem_cons, List.not_mem_nil, or_false] at he
    rcases he with rfl | rfl | rfl | rfl
    · trivial
    · show (Node.toJson _).Sound
      rw [toJson]
      split
      · rename_i n hn
        exact Number.valid_of_ofText? hn
      · trivial
    · trivial
    · exact sound_toJson (LogFilter.plain_write _)
  · exact (hs.extra e he).2

/-! ### Back and forth -/

theorem exists_scale {x : Binary64} (hx : x.Readable) (hfinite : x.isFinite = true) :
    Read.float .value (ofJson (Node.float x).toJson) = .ok x := by
  cases x with
  | finite s rank =>
    obtain ⟨n, hn, -, hback, -⟩ := Number.exists_ofBinary64? s hx
    simp [toJson, hn, ofJson, Read.float, hback]
  | infinite s => simp [Binary64.isFinite] at hfinite
  | nan => simp [Binary64.isFinite] at hfinite

theorem knownOf_object (hs : s.Sound) (hfinite : s.uiScale.isFinite = true) :
    knownOf s.object = .ok { s with extra := [] } := by
  rw [knownOf, fieldPart_object hs]
  have htheme : Coded.read .value (ofJson (.str s.theme.name)) = .ok s.theme := by
    cases s.theme <;> rfl
  have hfilter : Coded.read .value (ofJson (Coded.write s.logFilter).toJson) = .ok s.logFilter := by
    rw [ofJson_toJson (LogFilter.plain_write _), LogFilter.read_write]
  exact recordEntries_of_slots (by decide) <|
    .plain rfl rfl (y := s.theme) htheme <|
    .plain rfl rfl (y := s.uiScale) (exists_scale hs.scale hfinite) <|
    .plain rfl rfl (y := s.followLive) rfl <|
    .plain rfl rfl (y := s.logFilter) hfilter <| .nil _

/-- Settings whose other fields stay as they are. -/
structure Lasting (s : Settings) : Prop where
  sound : s.Sound
  settled : ∀ e ∈ s.extra, e.2.Settled

/-- **The object of settings with a finite scale is read back as the same settings.** -/
theorem ofObject_object (hs : s.Lasting) (hfinite : s.uiScale.isFinite = true) :
    ofObject s.object = .ok s := by
  refine (ofObject_iff (nodup_object hs.sound)).mpr
    ⟨⟨_, knownOf_object hs.sound hfinite, rfl⟩, ?_⟩
  rw [foreignPart_object hs.sound]
  exact List.forall₂_same.mpr fun e he =>
    ⟨rfl, (returns_iff (hs.sound.extra e he).2).mpr (hs.settled e he)⟩

theorem lasting_of_ofObject {es : Entries Json} (hkeys : es.keys.Nodup)
    (hes : ∀ e ∈ es, isKnown e.1 = false → e.2.Sound) (h : ofObject es = .ok s) : s.Lasting := by
  refine ⟨sound_of_ofObject h, fun e he => ?_⟩
  obtain ⟨-, hrelated⟩ := (ofObject_iff hkeys).mp h
  obtain ⟨v, hv, hreturns⟩ := hrelated.exists_mem he
  obtain ⟨hmem, hforeign⟩ := List.mem_filter.mp hv
  have hsound : v.Sound := hes _ hmem (by simpa [isKnown] using hforeign)
  exact Json.settled_of_settled? ((returns_iff hsound).mp hreturns)

end Settings

end FrameScope
