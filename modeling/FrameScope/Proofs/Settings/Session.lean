import FrameScope.Proofs.Json.Literal
import FrameScope.Proofs.Settings.Recover
import FrameScope.Proofs.Settings.Stores
import FrameScope.Settings.Handle

/-!
# A handle in use

`SettingsSession` is a handle at work on a store: edits one after the other and what each of them
answers. `Steps` says all that an edit can do.

What a fresh handle would load is what the handle in use shows exactly when the document that was
written last has a finite scale and fits the store (`fresh_load_iff`).
-/

namespace FrameScope

/-- A value that a text stands for. -/
def Json.Parsed (v : Json) : Prop := ∃ cs, (Document.ofChars cs).decode Read.json = .ok v

theorem Json.Parsed.sound {v : Json} : v.Parsed → v.Sound
  | ⟨cs, h⟩ => by
    obtain ⟨w, hw, h⟩ := except_bind_eq_ok h
    split at h
    · simp at h
    · obtain rfl := Except.ok.inj h
      exact Read.sound_of_json (Document.literal_root cs) hw

theorem Json.parsed_of_sound {v : Json} (hv : v.Sound) (hdepth : v.nesting ≤ JsonText.maxDepth) :
    v.Parsed := ⟨v.prettyChars 0, Document.decode_pretty hv hdepth⟩

/-- What is done with a handle. -/
inductive SettingsEdit where
  | set (field : String) (value : Json)
  | reset

/-- An edit whose value is one that a text stands for. -/
def SettingsEdit.Parsed : SettingsEdit → Prop
  | .set _ value => value.Parsed
  | .reset => True

/-- A handle at work on a store, and what it answered so far. -/
structure SettingsSession (σ : Type) where
  store : σ
  handle : SettingsHandle
  answers : List (Except SettingsError Unit)

namespace SettingsSession

open SettingsHandle

variable {σ : Type}

/-! ### Edits -/

def start (store : σ) (h : SettingsHandle) : SettingsSession σ := ⟨store, h, []⟩

def edit (S : SettingsStore σ) (s : SettingsSession σ) : SettingsEdit → SettingsStep σ
  | .set field value => s.handle.set S s.store field value
  | .reset => s.handle.reset S s.store

def step (S : SettingsStore σ) (s : SettingsSession σ) (e : SettingsEdit) : SettingsSession σ :=
  let done := s.edit S e
  ⟨done.store, done.handle, s.answers ++ [done.result]⟩

def run (S : SettingsStore σ) (s : SettingsSession σ) (edits : List SettingsEdit) :
    SettingsSession σ :=
  edits.foldl (step S) s

/-- All that an edit can do. -/
inductive Steps (S : SettingsStore σ) (s : SettingsSession σ) :
    SettingsEdit → SettingsSession σ → Prop
  /-- A field that does not decode changes nothing. -/
  | refused (field : String) (value : Json) (cause : DecodeError) :
      Steps S s (.set field value) { s with answers := s.answers ++ [.error (.document cause)] }
  | notSaved {field : String} {value : Json} {next : Settings} {cause : SettingsError}
      {t : SettingsSession σ} :
      (S.save s.store s.handle.key (.obj next.object)).2 = .error cause →
        t.answers = s.answers ++ [.error cause] → Steps S s (.set field value) t
  | notRemoved {cause : SettingsError} {t : SettingsSession σ} :
      (S.remove s.store s.handle.key).2 = .error cause →
        t.answers = s.answers ++ [.error cause] → Steps S s .reset t
  | saved {field : String} {value : Json} {next : Settings} {store : σ} :
      Settings.ofObject (s.handle.current.object.put field value) = .ok next →
        S.save s.store s.handle.key (.obj next.object) = (store, .ok ()) →
          Steps S s (.set field value)
            ⟨store, { s.handle with current := next }, s.answers ++ [.ok ()]⟩
  | removed {store : σ} : S.remove s.store s.handle.key = (store, .ok ()) →
      Steps S s .reset ⟨store, { s.handle with current := .default }, s.answers ++ [.ok ()]⟩

theorem steps_step (S : SettingsStore σ) (s : SettingsSession σ) (e : SettingsEdit) :
    Steps S s e (s.step S e) := by
  cases e with
  | set field value =>
    rw [step, edit, SettingsHandle.set]
    cases hnext : Settings.ofObject (s.handle.current.object.put field value) with
    | error cause => exact .refused field value cause
    | ok next =>
      dsimp only
      rw [replace]
      rcases hsave : S.save s.store s.handle.key (.obj next.object) with ⟨store, _ | _⟩
      · exact .notSaved (congrArg Prod.snd hsave) rfl
      · exact .saved hnext hsave
  | reset =>
    rw [step, edit, SettingsHandle.reset]
    rcases hremove : S.remove s.store s.handle.key with ⟨store, _ | _⟩
    · exact .notRemoved (congrArg Prod.snd hremove) (by simp [refuse])
    · have := Steps.removed hremove
      simpa [hremove] using this

theorem run_cons (S : SettingsStore σ) (s : SettingsSession σ) (e : SettingsEdit)
    (edits : List SettingsEdit) : s.run S (e :: edits) = (s.step S e).run S edits := rfl

theorem mem_answers_run {S : SettingsStore σ} {s : SettingsSession σ} {edits : List SettingsEdit}
    {r : Except SettingsError Unit} (hr : r ∈ s.answers) : r ∈ (s.run S edits).answers := by
  induction edits generalizing s with
  | nil => exact hr
  | cons e edits ih => exact ih (List.mem_append_left _ hr)

end SettingsSession

/-! ### What is loaded -/

/-- Settings whose document the store gives back as these settings. -/
def Backend.Keeps (b : Backend) (s : Settings) : Prop :=
  s.uiScale.isFinite = true ∧ b.Fits (.obj s.object)

theorem Backend.keeps_default (b : Backend) : b.Keeps .default := by
  refine ⟨rfl, ?_⟩
  cases b with
  | memory => trivial
  | directory dir =>
    show (Json.obj Settings.default.object).nesting ≤ JsonText.maxDepth
    decide +kernel

namespace SettingsHandle

variable {b : Backend} {st st' : b.State} {key : String}

/-- **Settings that were saved are loaded again exactly when the store keeps them.** -/
theorem load_save_iff {next : Settings} (hopen : b.IsOpen st) (hnext : next.Lasting)
    (hsave : b.store.save st key (.obj next.object) = (st', .ok ())) :
    load b.store st' key = .ok ⟨key, next⟩ ↔ b.Keeps next := by
  have hsound := Settings.sound_object hnext.sound
  by_cases hfits : b.Fits (.obj next.object)
  · rw [load_of_some (b.load_save hopen hsound hfits hsave) (Settings.recover_object hnext),
      Backend.Keeps, and_iff_left hfits]
    cases hfinite : next.uiScale.isFinite with
    | true => simp
    | false =>
      have hne : { next with uiScale := Binary64.one } ≠ next := fun heq => by
        have hone : ({ next with uiScale := Binary64.one } : Settings).uiScale.isFinite = true := rfl
        rw [heq, hfinite] at hone
        exact Bool.noConfusion hone
      simp [hne]
  · obtain ⟨e, he⟩ := b.load_save_error hopen hsound hfits hsave
    rw [load, he]
    simp [Backend.Keeps, hfits, bind, Except.bind]

end SettingsHandle

/-! ### Whole runs -/

namespace Settings

theorem sound_of_recover {v : Json} {s : Settings} (h : recover v = .ok s) : s.Sound := by
  cases v with
  | obj fs =>
    rcases recover_obj_eq_ok_iff.mp h with hs | ⟨-, hs⟩
    · exact sound_of_ofObject hs
    · exact sound_of_ofObject hs
  | _ =>
    have hdefault : Except.ok default = .ok s := h
    exact Except.ok.inj hdefault ▸ sound_default

theorem lasting_of_put {s next : Settings} {field : String} {value : Json} (hs : s.Sound)
    (hvalue : value.Sound) (h : ofObject (s.object.put field value) = .ok next) : next.Lasting := by
  refine lasting_of_ofObject (Entries.nodup_keys_put (nodup_object hs)) (fun e he _ => ?_) h
  have hput := Json.soundFields_put (k := field) (sound_object hs).2.2 hvalue
  exact Json.soundFields_iff.mp hput e he

end Settings

theorem SettingsHandle.sound_of_load {σ : Type} {S : SettingsStore σ} {store : σ} {key : String}
    {h : SettingsHandle} (hload : load S store key = .ok h) :
    h.key = key ∧ h.current.Sound ∧ ∃ document?, S.load store key = .ok document? := by
  obtain ⟨document?, hdocument, hload⟩ := except_bind_eq_ok hload
  cases document? with
  | none =>
    obtain rfl := Except.ok.inj hload
    exact ⟨rfl, Settings.sound_default, none, hdocument⟩
  | some v =>
    dsimp only at hload
    split at hload
    · rename_i s hs
      obtain rfl := Except.ok.inj hload
      exact ⟨rfl, Settings.sound_of_recover hs, some v, hdocument⟩
    · simp at hload

namespace SettingsSession

open SettingsHandle

variable {b : Backend} {key : String} {s t : SettingsSession b.State}

/-- A session on an open store, whose handle is what a fresh one would be unless the last document
that was written is none that the store keeps. -/
structure Follows (b : Backend) (key : String) (s : SettingsSession b.State) : Prop where
  isOpen : b.IsOpen s.store
  isKey : b.IsKey key
  handleKey : s.handle.key = key
  sound : s.handle.current.Sound
  loads : load b.store s.store key = .ok s.handle ↔
    (∀ r ∈ s.answers, r ≠ .ok ()) ∨ b.Keeps s.handle.current

theorem Follows.step {e : SettingsEdit} (hs : Follows b key s) (he : e.Parsed)
    (hsteps : Steps b.store s e t) (hworks : ∀ r ∈ t.answers, r ≠ .error .file) :
    Follows b key t := by
  have hdone {store : b.State} {current : Settings} :
      ¬ ∀ r ∈ (⟨store, { s.handle with current := current }, s.answers ++ [.ok ()]⟩ :
        SettingsSession b.State).answers, r ≠ .ok () := by simp
  cases hsteps with
  | refused field value cause =>
    refine ⟨hs.isOpen, hs.isKey, hs.handleKey, hs.sound, hs.loads.trans ?_⟩
    simp [or_imp, forall_and]
  | notSaved hsave hanswers =>
    have hfile := b.save_error_eq_file (hs.handleKey ▸ hs.isKey) hsave
    exact absurd rfl (hworks _ (by simp [hanswers, hfile]))
  | notRemoved hremove hanswers =>
    have hfile := b.remove_error_eq_file (hs.handleKey ▸ hs.isKey) hremove
    exact absurd rfl (hworks _ (by simp [hanswers, hfile]))
  | @saved field value next store hnext hsave =>
    have hlasting := Settings.lasting_of_put hs.sound he.sound hnext
    obtain rfl := hs.handleKey
    refine ⟨b.isOpen_of_save hs.isOpen hsave, hs.isKey, rfl, hlasting.sound, ?_⟩
    rw [or_iff_right hdone]
    exact load_save_iff hs.isOpen hlasting hsave
  | @removed store hremove =>
    obtain rfl := hs.handleKey
    refine ⟨b.isOpen_of_remove hs.isOpen hremove, hs.isKey, rfl, Settings.sound_default, ?_⟩
    rw [or_iff_right hdone, iff_true_right b.keeps_default]
    exact load_of_none (b.load_remove hs.isOpen hremove)

theorem Follows.run {edits : List SettingsEdit} (hs : Follows b key s)
    (hparsed : ∀ e ∈ edits, e.Parsed)
    (hworks : ∀ r ∈ (s.run b.store edits).answers, r ≠ .error .file) :
    Follows b key (s.run b.store edits) := by
  induction edits generalizing s with
  | nil => exact hs
  | cons e edits ih =>
    obtain ⟨he, hedits⟩ := List.forall_mem_cons.mp hparsed
    have hstep := hs.step he (steps_step b.store s e) fun r hr =>
      hworks r (mem_answers_run (s := s.step b.store e) hr)
    exact ih hstep hedits hworks

/-- **What a fresh handle loads is what the handle in use shows, exactly when nothing was written
yet or the store keeps the settings in use.** -/
theorem fresh_load_iff {b : Backend} {st : b.State} {key : String} {h : SettingsHandle}
    (hopen : b.IsOpen st) (hload : load b.store st key = .ok h) (edits : List SettingsEdit)
    (hparsed : ∀ e ∈ edits, e.Parsed)
    (hworks : ∀ r ∈ ((start st h).run b.store edits).answers, r ≠ .error .file) :
    load b.store ((start st h).run b.store edits).store key =
        .ok ((start st h).run b.store edits).handle ↔
      (∀ r ∈ ((start st h).run b.store edits).answers, r ≠ .ok ()) ∨
        b.Keeps ((start st h).run b.store edits).handle.current := by
  obtain ⟨hkey, hsound, document?, hdocument⟩ := sound_of_load hload
  have hstart : Follows b key (start st h) :=
    ⟨hopen, b.isKey_of_load hdocument, hkey, hsound, by simp [start, hload]⟩
  exact (hstart.run hparsed hworks).loads

/-! ### Two runs -/

/-- Three edits whose outcome is read back. -/
def plainEdits : List SettingsEdit :=
  [.set "followLive" (.bool false), .reset, .set "uiScale" (.num ⟨false, ['1'], ['2', '5'], none⟩)]

theorem parsed_plainEdits : ∀ e ∈ plainEdits, e.Parsed := by
  simp only [plainEdits, List.forall_mem_cons]
  exact ⟨⟨"false".toList, rfl⟩, trivial, ⟨"1.25".toList, rfl⟩, by simp⟩

/-- A directory for settings, without a document. -/
def plainFiles : (Backend.directory ["settings"]).State := Files.mk [(["settings"], .directory)]

def plainSession : SettingsSession (Backend.directory ["settings"]).State :=
  (start plainFiles ⟨dashboardKey, .default⟩).run (Backend.directory ["settings"]).store plainEdits

theorem answers_plainSession : plainSession.answers = [.ok (), .ok (), .ok ()] := by decide +kernel

theorem fresh_load_iff_plainEdits :
    load (Backend.directory ["settings"]).store plainSession.store dashboardKey =
      .ok plainSession.handle := by
  have hopen : (Backend.directory ["settings"]).IsOpen plainFiles :=
    @SettingsStore.hasDirectory_of_open ["settings"] .empty plainFiles rfl
  have hworks : ∀ r ∈ plainSession.answers, r ≠ .error .file := by
    rw [answers_plainSession]
    simp
  have hkeeps : (Backend.directory ["settings"]).Keeps plainSession.handle.current :=
    ⟨by decide +kernel, show Json.nesting _ ≤ _ by decide +kernel⟩
  exact (@fresh_load_iff (.directory ["settings"]) plainFiles dashboardKey ⟨dashboardKey, .default⟩
    hopen rfl plainEdits parsed_plainEdits hworks).mpr (.inr hkeeps)

/-- A number past all of 64 bits. -/
def hugeScale : Json := .num ⟨false, ['1'], [], some (false, ['4', '0', '0'])⟩

def hugeSession : SettingsSession (Entries Json) :=
  (start [] ⟨dashboardKey, .default⟩).run .memory [.set "uiScale" hugeScale]

/-- Such a scale is accepted, but a fresh handle has another one. -/
theorem not_fresh_load_hugeScale :
    load SettingsStore.memory [] dashboardKey = .ok ⟨dashboardKey, .default⟩ ∧ hugeScale.Parsed ∧
      hugeSession.answers = [.ok ()] ∧
        load SettingsStore.memory hugeSession.store dashboardKey ≠ .ok hugeSession.handle := by
  refine ⟨rfl, ⟨"1e400".toList, rfl⟩, by decide +kernel, fun h => ?_⟩
  have hscale : (load SettingsStore.memory hugeSession.store dashboardKey).toOption.map
      (fun h => h.current.uiScale) = some .one := by decide +kernel
  rw [h] at hscale
  exact absurd hscale (by decide +kernel)

end SettingsSession

end FrameScope
