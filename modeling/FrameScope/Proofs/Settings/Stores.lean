import FrameScope.Proofs.Cbor.Head
import FrameScope.Proofs.Files
import FrameScope.Proofs.Json.Pretty
import FrameScope.Settings.FileStore

/-!
# What a settings store gives back

`Backend` names the two stores. What is saved is loaded again (`load_save`) unless it does not fit
(`load_save_error`): a file is not read when more containers stand in one another than may be open
at once. What is removed is gone (`load_remove`).
-/

namespace FrameScope

/-! ### A directory of documents -/

namespace SettingsStore

variable {dir : Path} {fs fs' : Files} {name : String} {key : String} {v : Json}

/-- A directory is there, and so are those above it. -/
def HasDirectory (fs : Files) (dir : Path) : Prop :=
  ∀ n ≤ dir.length, fs.kind? (dir.take n) = some .directory

theorem hasDirectory_of_open (h : openDirectory fs dir = .ok fs') : HasDirectory fs' dir := by
  rw [openDirectory, lift] at h
  cases hcreate : fs.createDirs dir with
  | error e => simp [hcreate, Except.mapError] at h
  | ok fs'' =>
    obtain rfl : fs'' = fs' := by simpa [hcreate, Except.mapError] using h
    exact (Files.kind?_createDirs hcreate).1

theorem entry_ne_nil : dir ++ [name] ≠ [] := by simp

theorem take_ne_entry (n : Nat) : dir.take n ≠ dir ++ [name] := by
  intro h
  have := congrArg List.length h
  simp at this
  omega

theorem HasDirectory.set (h : HasDirectory fs dir) (kind : FileKind) :
    HasDirectory (fs.set (dir ++ [name]) kind) dir := fun n hn => by
  rw [Files.kind?_set entry_ne_nil, if_neg (take_ne_entry n), h n hn]

theorem HasDirectory.erase (h : HasDirectory fs dir) :
    HasDirectory ⟨fs.entries.filter fun e => e.1 ≠ dir ++ [name]⟩ dir := fun n hn => by
  rw [Files.kind?_filter entry_ne_nil, if_neg (take_ne_entry n), h n hn]

theorem HasDirectory.blocked_eq_false (h : HasDirectory fs dir) :
    fs.blocked (dir ++ [name]) = false := by
  refine Files.blocked_eq_false fun n hn => ?_
  have hle : n ≤ dir.length := by simpa using Nat.le_of_lt_succ (by simpa using hn)
  rw [List.take_append_of_le_length hle, h n hle]

theorem writeDocument_ok (hdir : HasDirectory fs dir)
    (h : writeDocument fs dir key v = (fs', .ok ())) :
    fs'.kind? (dir ++ [SettingsKey.file key]) = some (.file (Text.toBytes v.pretty)) ∧
      HasDirectory fs' dir := by
  unfold writeDocument at h
  dsimp only at h
  split at h
  · simp at h
  · rename_i written hwrite
    obtain rfl := Files.eq_set_of_write hwrite
    split at h
    · simp at h
    · rename_i moved hrename
      obtain rfl : moved = fs' := by simpa using h
      obtain ⟨content, hcontent, rfl⟩ := Files.eq_set_of_rename hrename
      have hdraft : content = Text.toBytes v.pretty := by
        rw [Files.kind?_set entry_ne_nil, if_pos rfl] at hcontent
        simpa using hcontent.symm
      refine ⟨by rw [Files.kind?_set entry_ne_nil, if_pos rfl, hdraft], ?_⟩
      exact ((hdir.set _).erase).set _

theorem removeDocument_cases (fs : Files) (p : Path) :
    removeDocument fs p = (fs, .error .file) ∨
      (removeDocument fs p = (fs, .ok ()) ∧ fs.kind? p = none) ∨
        removeDocument fs p = (⟨fs.entries.filter fun e => e.1 ≠ p⟩, .ok ()) := by
  unfold removeDocument Files.remove
  cases hkind : fs.kind? p with
  | none =>
    cases fs.blocked p with
    | true => exact .inl rfl
    | false => exact .inr (.inl ⟨rfl, rfl⟩)
  | some kind =>
    cases kind with
    | directory => exact .inl rfl
    | file content => exact .inr (.inr rfl)

theorem removeDocument_ok (h : removeDocument fs (dir ++ [name]) = (fs', .ok ())) :
    fs'.kind? (dir ++ [name]) = none ∧ (HasDirectory fs dir → HasDirectory fs' dir) := by
  rcases removeDocument_cases fs (dir ++ [name]) with hr | ⟨hr, hkind⟩ | hr <;> rw [hr] at h
  · cases h
  · obtain rfl := congrArg Prod.fst h
    exact ⟨hkind, id⟩
  · obtain rfl := congrArg Prod.fst h
    exact ⟨by rw [Files.kind?_filter entry_ne_nil, if_pos rfl], HasDirectory.erase⟩

theorem readDocument_of_pretty {p : Path}
    (hkind : fs.kind? p = some (.file (Text.toBytes v.pretty))) (hv : v.Sound) :
    (v.nesting ≤ JsonText.maxDepth → readDocument fs p = .ok (some v)) ∧
      (¬ v.nesting ≤ JsonText.maxDepth → ∃ e, readDocument fs p = .error e) := by
  have hchars : Text.ofBytes (Text.toBytes v.pretty) = v.prettyChars 0 := by
    rw [Text.ofBytes_toBytes, Json.pretty, String.toList_ofList]
  rw [readDocument, Files.read, hkind]
  dsimp only
  rw [hchars]
  constructor
  · intro hdepth
    rw [Document.decode_pretty hv hdepth]
  · intro hdepth
    cases hdecode : (Document.ofChars (v.prettyChars 0)).decode Read.json with
    | error e => exact ⟨_, rfl⟩
    | ok x => exact absurd hdecode (Document.not_decode_pretty hv (Nat.lt_of_not_le hdepth))

theorem directory_save_ok (hdir : HasDirectory fs dir)
    (h : (directory dir).save fs key v = (fs', .ok ())) :
    SettingsKey.isValid key = true ∧ HasDirectory fs' dir ∧
      fs'.kind? (dir ++ [SettingsKey.file key]) = some (.file (Text.toBytes v.pretty)) := by
  simp only [directory] at h
  split at h
  · rename_i hkey
    obtain ⟨hkind, hdir'⟩ := writeDocument_ok hdir h
    exact ⟨hkey, hdir', hkind⟩
  · simp at h

theorem directory_remove_ok (hdir : HasDirectory fs dir)
    (h : (directory dir).remove fs key = (fs', .ok ())) :
    SettingsKey.isValid key = true ∧ HasDirectory fs' dir ∧
      fs'.kind? (dir ++ [SettingsKey.file key]) = none := by
  simp only [directory] at h
  split at h
  · rename_i hkey
    obtain ⟨hkind, hkeeps⟩ := removeDocument_ok h
    exact ⟨hkey, hkeeps hdir, hkind⟩
  · simp at h

theorem directory_load_save (hdir : HasDirectory fs dir) (hv : v.Sound)
    (h : (directory dir).save fs key v = (fs', .ok ())) :
    (v.nesting ≤ JsonText.maxDepth → (directory dir).load fs' key = .ok (some v)) ∧
      (¬ v.nesting ≤ JsonText.maxDepth → ∃ e, (directory dir).load fs' key = .error e) := by
  obtain ⟨hkey, -, hkind⟩ := directory_save_ok hdir h
  simp only [directory, if_pos hkey]
  exact readDocument_of_pretty hkind hv

theorem directory_load_remove (hdir : HasDirectory fs dir)
    (h : (directory dir).remove fs key = (fs', .ok ())) :
    (directory dir).load fs' key = .ok none := by
  obtain ⟨hkey, hdir', hkind⟩ := directory_remove_ok hdir h
  simp [directory, hkey, readDocument, Files.read, hkind, hdir'.blocked_eq_false]

theorem directory_key_of_load {document? : Option Json}
    (h : (directory dir).load fs key = .ok document?) : SettingsKey.isValid key = true := by
  simp only [directory] at h
  split at h
  · assumption
  · simp at h

theorem directory_save_error {e : SettingsError} (hkey : SettingsKey.isValid key = true)
    (h : ((directory dir).save fs key v).2 = .error e) : e = .file := by
  simp only [directory, if_pos hkey, writeDocument] at h
  split at h
  · exact (Except.error.inj h).symm
  · split at h
    · exact (Except.error.inj h).symm
    · simp at h

theorem directory_remove_error {e : SettingsError} (hkey : SettingsKey.isValid key = true)
    (h : ((directory dir).remove fs key).2 = .error e) : e = .file := by
  simp only [directory, if_pos hkey, removeDocument] at h
  split at h
  · simp at h
  · simp at h
  · exact (Except.error.inj h).symm

theorem memory_load_save {documents documents' : Entries Json}
    (h : memory.save documents key v = (documents', .ok ())) :
    memory.load documents' key = .ok (some v) := by
  obtain rfl : documents.put key v = documents' := congrArg Prod.fst h
  simp [memory, Entries.get?_put]

theorem memory_load_remove {documents documents' : Entries Json}
    (h : memory.remove documents key = (documents', .ok ())) :
    memory.load documents' key = .ok none := by
  obtain rfl : documents.erase key = documents' := congrArg Prod.fst h
  exact congrArg Except.ok (Entries.get?_erase_self documents key)

end SettingsStore

/-! ### Either store -/

/-- The two stores of settings. -/
inductive Backend where
  | memory
  | directory (dir : Path)

namespace Backend

def State : Backend → Type
  | memory => Entries Json
  | directory _ => Files

def store : (b : Backend) → SettingsStore b.State
  | memory => .memory
  | directory dir => .directory dir

/-- A store in use: a directory is there for it. -/
def IsOpen : (b : Backend) → b.State → Prop
  | memory, _ => True
  | directory dir, fs => SettingsStore.HasDirectory fs dir

/-- A document that the store reads back. -/
def Fits : Backend → Json → Prop
  | memory, _ => True
  | directory _, v => v.nesting ≤ JsonText.maxDepth

theorem fits_memory (v : Json) : memory.Fits v := trivial

/-- A key under which the store keeps documents. -/
def IsKey : Backend → String → Prop
  | memory, _ => True
  | directory _, key => SettingsKey.isValid key = true

variable {b : Backend} {st st' : b.State} {key : String} {v : Json}

/-- **What is saved is loaded again, if it fits.** -/
theorem load_save (hopen : b.IsOpen st) (hv : v.Sound) (hfits : b.Fits v)
    (h : b.store.save st key v = (st', .ok ())) : b.store.load st' key = .ok (some v) := by
  cases b with
  | memory => exact SettingsStore.memory_load_save h
  | directory dir => exact (SettingsStore.directory_load_save hopen hv h).1 hfits

theorem load_save_error (hopen : b.IsOpen st) (hv : v.Sound) (hfits : ¬ b.Fits v)
    (h : b.store.save st key v = (st', .ok ())) : ∃ e, b.store.load st' key = .error e := by
  cases b with
  | memory => exact absurd trivial hfits
  | directory dir => exact (SettingsStore.directory_load_save hopen hv h).2 hfits

theorem isOpen_of_save (hopen : b.IsOpen st) (h : b.store.save st key v = (st', .ok ())) :
    b.IsOpen st' := by
  cases b with
  | memory => trivial
  | directory dir => exact (SettingsStore.directory_save_ok hopen h).2.1

/-- **What is removed is gone.** -/
theorem load_remove (hopen : b.IsOpen st) (h : b.store.remove st key = (st', .ok ())) :
    b.store.load st' key = .ok none := by
  cases b with
  | memory => exact SettingsStore.memory_load_remove h
  | directory dir => exact SettingsStore.directory_load_remove hopen h

theorem isOpen_of_remove (hopen : b.IsOpen st) (h : b.store.remove st key = (st', .ok ())) :
    b.IsOpen st' := by
  cases b with
  | memory => trivial
  | directory dir => exact (SettingsStore.directory_remove_ok hopen h).2.1

theorem isKey_of_load {document? : Option Json} (h : b.store.load st key = .ok document?) :
    b.IsKey key := by
  cases b with
  | memory => trivial
  | directory dir => exact SettingsStore.directory_key_of_load h

/-- A store fails on a key of its own only when the files do not allow it. -/
theorem save_error_eq_file {e : SettingsError} (hkey : b.IsKey key)
    (h : (b.store.save st key v).2 = .error e) : e = .file := by
  cases b with
  | memory => cases h
  | directory dir => exact SettingsStore.directory_save_error hkey h

theorem remove_error_eq_file {e : SettingsError} (hkey : b.IsKey key)
    (h : (b.store.remove st key).2 = .error e) : e = .file := by
  cases b with
  | memory => cases h
  | directory dir => exact SettingsStore.directory_remove_error hkey h

end Backend

end FrameScope
