import FrameScope.Proofs.Settings.Refinement
import Mathlib.Data.List.Perm.Subperm

/-!
# Changes of settings

A change is all or nothing (`change_all_or_nothing`). One that fails leaves the settings in use, the
stored documents and the other panels as they were. One that succeeds is stored and in use, and is
announced field by field: `Announced` says what a change of a document is announced as, without
saying how it is found.

Of a store this takes no more than what a shelf does (`SettingsStore.Shelf`): what is put there
stands there, and a failure moves nothing.
-/

namespace FrameScope

/-! ### What is announced -/

theorem Json.sameFields_iff {fs gs : Entries Json} :
    sameFields fs gs = true ↔ ∀ f ∈ fs, ∃ w, gs.get? f.1 = some w ∧ f.2.same w = true := by
  induction fs with
  | nil => simp [sameFields]
  | cons f fs ih =>
    rw [sameFields, Bool.and_eq_true, ih, List.forall_mem_cons]
    cases gs.get? f.1 <;> simp

/-- What the change of a document is announced as: the fields that are new or have another value,
and the fields that are gone. -/
structure Announced (before after changed gone : Entries Json) : Prop where
  /-- In the new order, with the new values. -/
  changed_sublist : changed.Sublist after
  mem_changed : ∀ f ∈ after,
    (f ∈ changed ↔ ∀ w, before.get? f.1 = some w → w.same f.2 = false)
  /-- In the old order. -/
  gone_sublist : gone.Sublist before
  mem_gone : ∀ f ∈ before, (f ∈ gone ↔ f.1 ∉ after.keys)
  /-- No field is announced twice. -/
  once : (changed.keys ++ gone.keys).Nodup

namespace SettingsHandle

variable {before after : Entries Json}

/-- The fields that are new or have another value. -/
def changedFields (before after : Entries Json) : Entries Json :=
  after.filter fun (k, v) =>
    match before.get? k with
    | some w => !Json.same w v
    | none => true

/-- The fields that are gone. -/
def goneFields (before after : Entries Json) : Entries Json :=
  before.filter fun (k, _) => !after.has k

theorem announcements_eq (before after : Entries Json) :
    announcements before after =
      (changedFields before after).map (fun f => .settingsChanged ⟨f.1, f.2⟩) ++
        (goneFields before after).map fun f => .settingsChanged ⟨f.1, .null⟩ := rfl

theorem mem_changedFields_iff {f : String × Json} :
    f ∈ changedFields before after ↔
      f ∈ after ∧ ∀ w, before.get? f.1 = some w → w.same f.2 = false := by
  obtain ⟨k, v⟩ := f
  rw [changedFields, List.mem_filter]
  cases hw : before.get? k <;> simp [hw]

theorem mem_goneFields_iff {f : String × Json} :
    f ∈ goneFields before after ↔ f ∈ before ∧ f.1 ∉ after.keys := by
  rw [goneFields, List.mem_filter, ← Entries.get?_eq_none_iff]
  simp [Entries.has]

/-- **The fields that are found are the ones that are to be announced.** -/
theorem announced_fields (hbefore : before.keys.Nodup) (hafter : after.keys.Nodup) :
    Announced before after (changedFields before after) (goneFields before after) where
  changed_sublist := List.filter_sublist
  mem_changed f hf := by rw [mem_changedFields_iff, and_iff_right hf]
  gone_sublist := List.filter_sublist
  mem_gone f hf := by rw [mem_goneFields_iff, and_iff_right hf]
  once := by
    refine List.nodup_append.mpr ⟨Entries.nodup_keys_filter _ hafter,
      Entries.nodup_keys_filter _ hbefore, ?_⟩
    rintro k hchanged _ hgone rfl
    obtain ⟨v, hv⟩ := Entries.mem_keys_iff.mp hchanged
    obtain ⟨w, hw⟩ := Entries.mem_keys_iff.mp hgone
    exact (mem_goneFields_iff.mp hw).2
      (Entries.mem_keys_iff.mpr ⟨v, (mem_changedFields_iff.mp hv).1⟩)

theorem eq_filter_of_sublist {α : Type} {xs ys : List α} {test : α → Bool} (hsub : xs.Sublist ys)
    (hys : ys.Nodup) (hmem : ∀ y ∈ ys, (y ∈ xs ↔ test y = true)) : xs = ys.filter test := by
  have hself : xs.filter test = xs :=
    List.filter_eq_self.mpr fun x hx => (hmem x (hsub.subset hx)).mp hx
  have hpicked : xs.Sublist (ys.filter test) := hself ▸ hsub.filter test
  have hback : ys.filter test ⊆ xs := fun y hy =>
    (hmem y (List.mem_of_mem_filter hy)).mpr (List.of_mem_filter hy)
  exact hpicked.eq_of_length_le ((hys.filter test).subperm hback).length_le

/-- **No other fields are to be announced.** -/
theorem fields_of_announced {changed gone : Entries Json}
    (h : Announced before after changed gone) (hbefore : before.keys.Nodup)
    (hafter : after.keys.Nodup) :
    changed = changedFields before after ∧ gone = goneFields before after := by
  refine ⟨eq_filter_of_sublist h.changed_sublist hafter.of_map fun f hf => ?_,
    eq_filter_of_sublist h.gone_sublist hbefore.of_map fun f hf => ?_⟩
  · have hiff : f ∈ changedFields before after ↔ _ := mem_changedFields_iff
    rw [changedFields, List.mem_filter, and_congr_right_iff] at hiff
    exact (h.mem_changed f hf).trans (hiff hf).symm
  · have hiff : f ∈ goneFields before after ↔ _ := mem_goneFields_iff
    rw [goneFields, List.mem_filter, and_congr_right_iff] at hiff
    exact (h.mem_gone f hf).trans (hiff hf).symm

theorem keys_of_matched {R : Json → Json → Prop}
    (h : ∀ f ∈ before, ∃ w, after.get? f.1 = some w ∧ R f.2 w) :
    ∀ k ∈ before.keys, k ∈ after.keys := by
  intro k hk
  obtain ⟨v, hv⟩ := Entries.mem_keys_iff.mp hk
  obtain ⟨w, hw, -⟩ := h _ hv
  exact Entries.mem_keys_iff.mpr ⟨w, Entries.mem_of_get? hw⟩

theorem matched_swap {R : Json → Json → Prop} (hbefore : before.keys.Nodup)
    (hafter : after.keys.Nodup) (hsub : ∀ k ∈ before.keys, k ∈ after.keys)
    (h : ∀ f ∈ after, ∃ w, before.get? f.1 = some w ∧ R f.2 w) :
    ∀ f ∈ before, ∃ w, after.get? f.1 = some w ∧ R w f.2 := by
  intro f hf
  obtain ⟨v, hv⟩ := Entries.mem_keys_iff.mp (hsub _ (List.mem_map_of_mem hf))
  obtain ⟨w, hw, hmatch⟩ := h _ hv
  have hfound : before.get? f.1 = some f.2 := (Entries.get?_eq_some_iff hbefore).mpr hf
  obtain rfl : f.2 = w := Option.some.inj (hfound.symm.trans hw)
  exact ⟨v, (Entries.get?_eq_some_iff hafter).mpr hv, hmatch⟩

theorem same_obj_iff (hbefore : before.keys.Nodup) (hafter : after.keys.Nodup) :
    (Json.obj before).same (.obj after) = true ↔
      (∀ k ∈ before.keys, k ∈ after.keys) ∧
        ∀ f ∈ after, ∃ w, before.get? f.1 = some w ∧ w.same f.2 = true := by
  have hlength (es : Entries Json) : es.length = es.keys.length := (List.length_map _).symm
  rw [Json.same, Bool.and_eq_true, beq_iff_eq, Json.sameFields_iff, hlength, hlength after]
  constructor
  · rintro ⟨hlen, hall⟩
    have hsub := keys_of_matched (R := (·.same · = true)) hall
    -- As many distinct keys on both sides: none of the new ones is missing in the old document.
    have hperm : before.keys.Perm after.keys := (hbefore.subperm hsub).perm_of_length_le hlen.ge
    exact ⟨hsub, matched_swap (R := (·.same · = true)) hafter hbefore
      (fun k hk => hperm.mem_iff.mpr hk) hall⟩
  · rintro ⟨hsub, hall⟩
    have hsup := keys_of_matched (R := fun v w => w.same v = true) hall
    exact ⟨Nat.le_antisymm (hbefore.subperm hsub).length_le (hafter.subperm hsup).length_le,
      matched_swap (R := fun v w => w.same v = true) hbefore hafter hsub hall⟩

/-- **Nothing is announced exactly when the document stays the same.** -/
theorem announcements_eq_nil_iff (hbefore : before.keys.Nodup) (hafter : after.keys.Nodup) :
    announcements before after = [] ↔ (Json.obj before).same (.obj after) = true := by
  rw [announcements_eq, List.append_eq_nil_iff, List.map_eq_nil_iff, List.map_eq_nil_iff,
    same_obj_iff hbefore hafter, and_comm]
  simp only [List.eq_nil_iff_forall_not_mem, mem_changedFields_iff, mem_goneFields_iff]
  refine and_congr ⟨fun hgone k hk => ?_, fun hsub f hf => hf.2 (hsub _ (List.mem_map_of_mem hf.1))⟩
    ⟨fun hchanged f hf => ?_, fun hall f hf => ?_⟩
  · obtain ⟨v, hv⟩ := Entries.mem_keys_iff.mp hk
    exact not_not.mp fun hnot => hgone (k, v) ⟨hv, hnot⟩
  · simpa [hf] using hchanged f
  · obtain ⟨w, hw, hsame⟩ := hall f hf.1
    simp [hf.2 w hw] at hsame

end SettingsHandle

theorem Settings.nodup_keys_object (s : Settings) : s.object.keys.Nodup :=
  Entries.nodup_keys_ofPairs _

/-! ### Where documents stand -/

/-- What a store keeps under its keys, as something to look at: what is saved stands there, and a
failure moves nothing. -/
structure SettingsStore.Shelf {σ : Type} (S : SettingsStore σ) where
  Form : Type
  /-- What stands under a key. -/
  look : σ → String → Form
  /-- What a document looks like. -/
  form : Json → Form
  saved : ∀ {st st' : σ} {key : String} {v : Json}, S.save st key v = (st', .ok ()) →
    look st' key = form v
  kept : ∀ {st st' : σ} {key : String} {v : Json} {e : SettingsError},
    S.save st key v = (st', .error e) → ∀ other, look st' other = look st other

namespace SettingsStore

open SettingsKey

/-- Documents in memory, as they are. -/
def memoryShelf : Shelf memory where
  Form := Option Json
  look documents key := documents.get? key
  form v := some v
  saved h := by
    obtain rfl := congrArg Prod.fst h
    exact (Entries.get?_put _).trans (if_pos rfl)
  kept h := by cases h

/-- Documents in a directory, as the files they stand in. -/
def directoryShelf (dir : Path) : Shelf (directory dir) where
  Form := Option FileKind
  look fs key := fs.kind? (dir ++ [file key])
  form v := some (.file (Text.toBytes v.pretty))
  saved {fs fs' key v} h := by
    simp only [directory] at h
    split at h
    · rcases writeDocument_cases fs dir key v with hw | hw | hw <;> rw [hw] at h
      · cases h
      · cases h
      · obtain rfl := congrArg Prod.fst h
        rw [Files.kind?_set entry_ne_nil, if_pos rfl]
    · cases h
  kept {fs fs' key v e} h other := by
    simp only [directory] at h
    split at h
    · rcases writeDocument_cases fs dir key v with hw | hw | hw <;> rw [hw] at h
      · obtain rfl := congrArg Prod.fst h
        rfl
      · -- The draft is left over, but it is no key's document.
        obtain rfl := congrArg Prod.fst h
        rw [Files.kind?_set entry_ne_nil, if_neg]
        simpa using file_ne_draft other key
      · cases h
    · obtain rfl := congrArg Prod.fst h
      rfl

end SettingsStore

/-! ### All or nothing -/

/-- A change of the settings in use. -/
inductive SettingsChange where
  /-- A field by its name in the document. -/
  | set (field : String) (value : Json)
  | update (edit : Settings → Settings)

/-- The settings that a change asks for, if they can be read. -/
def SettingsChange.asked (s : Settings) : SettingsChange → Except DecodeError Settings
  | .set field value => Settings.ofObject (s.object.put field value)
  | .update edit => .ok (edit s)

namespace SettingsHandle

variable {σ : Type}

def change (S : SettingsStore σ) (store : σ) (h : SettingsHandle) : SettingsChange → SettingsStep σ
  | .set field value => h.set S store field value
  | .update edit => h.update S store edit

theorem change_eq (S : SettingsStore σ) (store : σ) (h : SettingsHandle) (c : SettingsChange) :
    h.change S store c =
      match c.asked h.current with
      | .error e => refuse store h (.document e)
      | .ok next => replace S store h next := by
  cases c with
  | set field value => rfl
  | update edit => rfl

/-- **A change is all or nothing, and what it does is announced.** When it fails, because the
document does not decode or is not saved, the settings in use and all stored documents are as they
were, and nothing is announced. When it succeeds, the settings that it asks for are in use and their
document stands under the key; announced are the fields that are new or have another value, with
that value and in the new order, and behind them those that are gone, as `null` and in the old
order; and nothing exactly when the document stays the same. -/
theorem change_all_or_nothing {S : SettingsStore σ} (shelf : S.Shelf) (store : σ)
    (h : SettingsHandle) (c : SettingsChange) {after : SettingsStep σ}
    (hafter : h.change S store c = after) :
    (∀ e, after.result = .error e →
      after.handle = h ∧ after.events = [] ∧
        (∀ key, shelf.look after.store key = shelf.look store key) ∧
          ((∃ cause, c.asked h.current = .error cause ∧ e = .document cause ∧ after.store = store) ∨
            ∃ next, c.asked h.current = .ok next ∧
              S.save store h.key (.obj next.object) = (after.store, .error e))) ∧
      (after.result = .ok () →
        ∃ next, c.asked h.current = .ok next ∧ after.handle = { h with current := next } ∧
          shelf.look after.store h.key = shelf.form (.obj next.object) ∧
            (∃ changed gone, Announced h.current.object next.object changed gone ∧
              after.events = changed.map (fun f => .settingsChanged ⟨f.1, f.2⟩) ++
                gone.map fun f => .settingsChanged ⟨f.1, .null⟩) ∧
              (after.events = [] ↔ (Json.obj h.current.object).same (.obj next.object) = true)) := by
  subst hafter
  rw [change_eq]
  cases hasked : c.asked h.current with
  | error cause =>
    refine ⟨fun e he => ⟨rfl, rfl, fun key => rfl, .inl ⟨cause, rfl, ?_, rfl⟩⟩, fun hok => ?_⟩
    · exact (Except.error.inj he).symm
    · cases hok
  | ok next =>
    dsimp only
    rw [replace]
    rcases hsave : S.save store h.key (.obj next.object) with ⟨st, cause | u⟩
    · refine ⟨fun e he => ⟨rfl, rfl, shelf.kept hsave, .inr ⟨next, rfl, ?_⟩⟩, fun hok => ?_⟩
      · rw [← Except.error.inj he]
        exact hsave
      · cases hok
    · refine ⟨fun e he => (by cases he), fun _ => ?_⟩
      have hbefore := h.current.nodup_keys_object
      have hnext := next.nodup_keys_object
      exact ⟨next, rfl, rfl, shelf.saved hsave,
        ⟨_, _, announced_fields hbefore hnext, announcements_eq _ _⟩,
        announcements_eq_nil_iff hbefore hnext⟩

/-- A handle on settings with a layout. -/
def laidOut : SettingsHandle := ⟨dashboardKey, { extra := [("layout", .str "wide")] }⟩

/-- Another theme, and a flag instead of the layout. -/
def relight (s : Settings) : Settings := { s with theme := .light, extra := [("beta", .bool true)] }

theorem fields_relight :
    changedFields laidOut.current.object (relight laidOut.current).object =
        [("theme", .str "light"), ("beta", .bool true)] ∧
      goneFields laidOut.current.object (relight laidOut.current).object =
        [("layout", .str "wide")] := by
  have hbefore : laidOut.current.object = laidOut.current.knownFields ++ laidOut.current.extra :=
    Entries.ofPairs_eq_self (by decide +kernel)
  have hafter : (relight laidOut.current).object =
      (relight laidOut.current).knownFields ++ [("beta", .bool true)] :=
    Entries.ofPairs_eq_self (by decide +kernel)
  -- The two fields with more to them than a word are the same on both sides.
  have hscale : (Node.float Binary64.one).toJson.same (Node.float Binary64.one).toJson = true := by
    decide +kernel
  have hfilter : (Coded.write LogFilter.default).toJson.same
      (Coded.write LogFilter.default).toJson = true := by
    decide +kernel
  rw [hbefore, hafter]
  constructor <;>
    simp [changedFields, goneFields, laidOut, relight, Settings.knownFields, Entries.get?,
      Entries.has, List.filter, Json.same, Theme.name, hscale, hfilter]

/-- The change is made in a directory and announced; a theme that is none is refused in memory. -/
theorem change_all_or_nothing_relit :
    (∃ after, laidOut.change (.directory ["settings"]) SettingsStore.freshDirectory
          (.update relight) = after ∧
        after.handle = { laidOut with current := relight laidOut.current } ∧
        after.store.kind? ["settings", "xln.dashboard.settings.json"] =
          some (.file (Text.toBytes (Json.obj (relight laidOut.current).object).pretty)) ∧
        after.events =
          [.settingsChanged ⟨"theme", .str "light"⟩, .settingsChanged ⟨"beta", .bool true⟩,
            .settingsChanged ⟨"layout", .null⟩]) ∧
      (laidOut.change .memory [] (.set "theme" .null)).handle = laidOut ∧
        (laidOut.change .memory [] (.set "theme" .null)).events = [] := by
  constructor
  · obtain ⟨next, hasked, hhandle, hlook, ⟨changed, gone, hannounced, hevents⟩, -⟩ :=
      (change_all_or_nothing (SettingsStore.directoryShelf ["settings"])
        SettingsStore.freshDirectory laidOut (.update relight) rfl).2 (by decide +kernel)
    obtain rfl := Except.ok.inj hasked
    obtain ⟨rfl, rfl⟩ := fields_of_announced hannounced laidOut.current.nodup_keys_object
      (relight laidOut.current).nodup_keys_object
    rw [fields_relight.1, fields_relight.2] at hevents
    exact ⟨_, rfl, hhandle, hlook, hevents⟩
  · have herror : (laidOut.change .memory [] (.set "theme" .null)).result =
        .error (.document .invalidType) := by decide +kernel
    obtain ⟨hhandle, hevents, -⟩ :=
      (change_all_or_nothing SettingsStore.memoryShelf [] laidOut (.set "theme" .null) rfl).1 _ herror
    exact ⟨hhandle, hevents⟩

end SettingsHandle

end FrameScope
