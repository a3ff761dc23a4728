import FrameScope.Proofs.Settings.Changes
import Mathlib.Logic.Relation

/-!
# Back to the defaults

A reset puts the defaults in use before it has the document removed. One that succeeds leaves the
defaults, no document and one announcement. One that fails has announced nothing, and has done to
the store what the failed removal did; but the defaults are in use all the same, so it changes
nothing exactly when they were in use before (`reset_changesNothing_iff`).

Nothing else parts the settings in use from the document that is stored: in step once, they are in
step after any changes, failed ones among them, and any resets that do not fail (`InStep.of_uses`).
-/

namespace FrameScope

/-! ### Removed documents -/

namespace SettingsStore

variable {σ : Type}

/-- Where a document was removed, nothing is to be seen of one. -/
def Removes (S : SettingsStore σ) {Form : Type} (look : σ → String → Form) (bare : Form) : Prop :=
  ∀ ⦃st st' : σ⦄ ⦃key : String⦄, S.remove st key = (st', .ok ()) → look st' key = bare

theorem memory_removes : memory.Removes memoryShelf.look none := by
  intro documents documents' key h
  obtain rfl := congrArg Prod.fst h
  exact Entries.get?_erase_self documents key

theorem directory_removes (dir : Path) :
    (directory dir).Removes (directoryShelf dir).look none := by
  intro fs fs' key h
  simp only [directory] at h
  split at h
  · exact (removeDocument_ok h).1
  · cases h

end SettingsStore

/-! ### A reset -/

/-- Nothing is changed: the settings in use and the document are as they were, and nothing was
announced. -/
structure SettingsStep.ChangesNothing {σ Form : Type} (look : σ → String → Form) (store : σ)
    (h : SettingsHandle) (after : SettingsStep σ) : Prop where
  handle : after.handle = h
  document : look after.store h.key = look store h.key
  events : after.events = []

namespace SettingsHandle

open SettingsStore

variable {σ Form : Type} {S : SettingsStore σ} {store : σ} {h : SettingsHandle}

theorem reset_cases (S : SettingsStore σ) (store : σ) (h : SettingsHandle) :
    (∃ st e, S.remove store h.key = (st, .error e) ∧
      h.reset S store = ⟨st, { h with current := .default }, [], .error e⟩) ∨
      ∃ st, S.remove store h.key = (st, .ok ()) ∧
        h.reset S store = ⟨st, { h with current := .default }, [.settingsReset], .ok ()⟩ := by
  rw [reset]
  rcases hremove : S.remove store h.key with ⟨st, e | _⟩
  · exact .inl ⟨st, e, rfl, rfl⟩
  · exact .inr ⟨st, rfl, rfl⟩

/-- **A reset that fails changes nothing exactly when the defaults were in use.** A reset does to
the store what the removal of the document does, and answers what it answers; in any case the
defaults are in use from then on. When it fails it has announced nothing, and so, if the document is
still in its place, all is as before when the defaults were in use, and otherwise it is not. When it
succeeds, there is no document under the key, and it has announced itself once. -/
theorem reset_changesNothing_iff (S : SettingsStore σ) (look : σ → String → Form) (store : σ)
    (h : SettingsHandle) {after : SettingsStep σ} (hafter : h.reset S store = after) :
    S.remove store h.key = (after.store, after.result) ∧
      after.handle = { h with current := .default } ∧
      (∀ e, after.result = .error e →
        after.events = [] ∧
          (look after.store h.key = look store h.key →
            (after.ChangesNothing look store h ↔ h.current = .default))) ∧
      (after.result = .ok () →
        after.events = [.settingsReset] ∧
          ∀ bare, S.Removes look bare → look after.store h.key = bare) := by
  subst hafter
  rcases reset_cases S store h with ⟨st, cause, hremove, hreset⟩ | ⟨st, hremove, hreset⟩ <;>
    rw [hreset]
  · refine ⟨hremove, rfl, fun e _ => ⟨rfl, fun hleft => ⟨fun hnothing => ?_, fun hdefault => ?_⟩⟩,
      fun hok => by cases hok⟩
    · -- The handle afterwards has the defaults, so a handle that is the same had them before.
      exact (congrArg SettingsHandle.current hnothing.handle).symm
    · exact ⟨by rw [← hdefault], hleft, rfl⟩
  · refine ⟨hremove, rfl, fun e he => (by cases he), fun _ => ⟨rfl, fun bare hremoves => ?_⟩⟩
    exact hremoves hremove

/-- Documents in memory, none of which can be removed. -/
def heldFast : SettingsStore (Entries Json) :=
  { memory with remove := fun documents _ => (documents, .error .file) }

theorem reset_heldFast (documents : Entries Json) (h : SettingsHandle) :
    h.reset heldFast documents =
      ⟨documents, { h with current := .default }, [], .error .file⟩ := rfl

theorem changesNothing_reset_heldFast_iff (documents : Entries Json) (h : SettingsHandle) :
    (h.reset heldFast documents).ChangesNothing heldFast.load documents h ↔
      h.current = .default := by
  obtain ⟨-, -, hfailed, -⟩ := reset_changesNothing_iff heldFast heldFast.load documents h rfl
  exact (hfailed _ rfl).2 rfl

/-- The light theme is set there. -/
def lightened : SettingsStep (Entries Json) :=
  set heldFast [] ⟨dashboardKey, .default⟩ "theme" (.str "light")

/-- The light theme does not outlast a reset that fails, though its document does. -/
theorem not_changesNothing_reset_lightened :
    lightened.result = .ok () ∧
      (lightened.handle.reset heldFast lightened.store).result = .error .file ∧
      (lightened.handle.reset heldFast lightened.store).store = lightened.store ∧
      ¬ (lightened.handle.reset heldFast lightened.store).ChangesNothing heldFast.load
        lightened.store lightened.handle := by
  refine ⟨by decide +kernel, by rw [reset_heldFast], by rw [reset_heldFast], ?_⟩
  rw [changesNothing_reset_heldFast_iff]
  intro hdefault
  have hlight : lightened.handle.current.theme = .light := by decide +kernel
  rw [hdefault] at hlight
  cases hlight

/-! ### In step with the document -/

/-- The settings in use are those whose document stands under the key, or the defaults where there
is none. -/
def InStep (shelf : S.Shelf) (bare : shelf.Form) (store : σ) (h : SettingsHandle) : Prop :=
  shelf.look store h.key = shelf.form (.obj h.current.object) ∨
    (shelf.look store h.key = bare ∧ h.current = .default)

/-- A use of a handle: a change, whether or not it fails, or a reset that does not fail. -/
inductive Use (S : SettingsStore σ) : σ × SettingsHandle → σ × SettingsHandle → Prop
  | change (store : σ) (h : SettingsHandle) (c : SettingsChange) :
      Use S (store, h) ((h.change S store c).store, (h.change S store c).handle)
  | reset {store : σ} {h : SettingsHandle} : (h.reset S store).result = .ok () →
      Use S (store, h) ((h.reset S store).store, (h.reset S store).handle)

theorem change_cases (shelf : S.Shelf) (store : σ) (h : SettingsHandle) (c : SettingsChange) :
    ((h.change S store c).handle = h ∧
      ∀ key, shelf.look (h.change S store c).store key = shelf.look store key) ∨
      ∃ next, (h.change S store c).handle = { h with current := next } ∧
        shelf.look (h.change S store c).store h.key = shelf.form (.obj next.object) := by
  rw [change_eq]
  cases c.asked h.current with
  | error cause => exact .inl ⟨rfl, fun key => rfl⟩
  | ok next =>
    dsimp only
    rw [replace]
    rcases hsave : S.save store h.key (.obj next.object) with ⟨st, cause | _⟩
    · exact .inl ⟨rfl, shelf.kept hsave⟩
    · exact .inr ⟨next, rfl, shelf.saved hsave⟩

namespace InStep

variable {shelf : S.Shelf} {bare : shelf.Form} {x y : σ × SettingsHandle}

theorem of_use (hremoves : S.Removes shelf.look bare) (hstep : InStep shelf bare x.1 x.2)
    (huse : Use S x y) : InStep shelf bare y.1 y.2 := by
  cases huse with
  | change store h c =>
    rcases change_cases shelf store h c with ⟨hsame, hkept⟩ | ⟨next, hnext, hsaved⟩
    · dsimp only
      rw [InStep, hsame, hkept]
      exact hstep
    · dsimp only
      rw [hnext]
      exact .inl hsaved
  | @reset store h hok =>
    rcases reset_cases S store h with ⟨st, e, -, hreset⟩ | ⟨st, hremove, hreset⟩
    · rw [hreset] at hok
      cases hok
    · rw [hreset]
      exact .inr ⟨hremoves hremove, rfl⟩

/-- **The settings in use and their document stay in step** through any number of changes, those
that fail among them, and of resets that do not fail. -/
theorem of_uses (hremoves : S.Removes shelf.look bare) (hstep : InStep shelf bare x.1 x.2)
    (huses : Relation.ReflTransGen (Use S) x y) : InStep shelf bare y.1 y.2 := by
  induction huses with
  | refl => exact hstep
  | tail _ huse ih => exact ih.of_use hremoves huse

end InStep

/-- A reset that fails and leaves the document parts it from the settings in use, unless it is the
document of the defaults or there is none. -/
theorem inStep_failed_reset_iff {shelf : S.Shelf} {bare : shelf.Form} {e : SettingsError}
    (hfailed : (h.reset S store).result = .error e)
    (hleft : shelf.look (h.reset S store).store h.key = shelf.look store h.key) :
    InStep shelf bare (h.reset S store).store (h.reset S store).handle ↔
      shelf.look store h.key = shelf.form (.obj Settings.default.object) ∨
        shelf.look store h.key = bare := by
  rcases reset_cases S store h with ⟨st, cause, -, hreset⟩ | ⟨st, -, hreset⟩ <;>
    rw [hreset] at hfailed hleft ⊢
  · rw [InStep, hleft, and_iff_left rfl]
  · cases hfailed

end SettingsHandle

end FrameScope
