import FrameScope.Proofs.Collection.Loggable
import FrameScope.Proofs.Node.Origin

/-!
# Collections from any object

Every object of a text is a collection, whatever its values are, how often it repeats a name and what
the collection is of, as soon as it is an untyped value (`Keyed.exists_read_map_iff`). The collection
has an entry for every name, in the order in which the names first appear, and shows some of them, all
of them when every value decodes (`Keyed.lists_of_read`).
-/

namespace FrameScope

open Node

namespace Node

/-- The names of a map's entries, each once, in the order they first appear. -/
def names (es : List (Key × Node)) : List String := (es.filterMap fun e => e.1.name?).eraseDups

end Node

/-! ### Names in order of appearance -/

theorem eraseDups_of_nodup {ks : List String} (h : ks.Nodup) : ks.eraseDups = ks := by
  induction ks with
  | nil => rfl
  | cons k ks ih =>
    obtain ⟨hk, hks⟩ := List.nodup_cons.mp h
    have hfilter : (ks.filter fun j => !j == k) = ks :=
      List.filter_eq_self.mpr fun j hj => by simpa using ne_of_mem_of_not_mem hj hk
    rw [List.eraseDups_cons, hfilter, ih hks]

theorem nodup_eraseDups : ∀ ks : List String, ks.eraseDups.Nodup
  | [] => List.nodup_nil
  | k :: ks => by
    rw [List.eraseDups_cons, List.nodup_cons, List.mem_eraseDups, List.mem_filter]
    exact ⟨by simp, nodup_eraseDups _⟩
termination_by ks => ks.length
decreasing_by exact Nat.lt_succ_of_le (List.length_filter_le _ _)

theorem eraseDups_append_cons_of_mem {ks ns : List String} {k : String} (hk : k ∈ ks) :
    (ks ++ k :: ns).eraseDups = (ks ++ ns).eraseDups := by
  rw [List.eraseDups_append, List.eraseDups_append, List.cons_removeAll, if_neg (by simpa using hk)]

namespace Read

variable {α : Type} {m : Medium} {d : Decoder α}

theorem keys_entriesFrom {es : List (Key × Node)} {before after : Entries α}
    (hes : LiteralEntries es) (hbefore : before.keys.Nodup)
    (h : entriesFrom d m before es = .ok after) :
    after.keys = (before.keys ++ es.filterMap fun e => e.1.name?).eraseDups := by
  induction es generalizing before with
  | nil =>
    rw [entriesFrom] at h
    rw [← Except.ok.inj h, List.filterMap_nil, List.append_nil, eraseDups_of_nodup hbefore]
  | cons e es ih =>
    obtain ⟨key, v⟩ := e
    rw [entriesFrom] at h
    obtain ⟨k, hk, hvalue⟩ := except_bind_eq_ok h
    obtain ⟨x, -, hrest⟩ := except_bind_eq_ok hvalue
    obtain rfl : key = .name k := by
      cases key with
      | name s => exact congrArg Key.name (Except.ok.inj hk)
      | bytes b => exact hes.1.elim
      | _ => simp [keyText] at hk
    rw [ih hes.2.2 (Entries.nodup_keys_put hbefore) hrest, Entries.keys_put]
    show _ = (before.keys ++ k :: es.filterMap fun e => e.1.name?).eraseDups
    split
    · rename_i hmem
      rw [eraseDups_append_cons_of_mem hmem]
    · rw [List.append_assoc, List.singleton_append]

theorem keys_of_bufferEntries : ∀ {es hs : List (Key × Node)}, bufferEntries m es = .ok hs →
    hs.map Prod.fst = es.map Prod.fst
  | [], _, h => by rw [bufferEntries] at h; rw [← Except.ok.inj h]
  | (k, v) :: es, _, h => by
    rw [bufferEntries] at h
    split at h
    · simp at h
    · split at h
      · simp at h
      · obtain ⟨hs, hhs, rfl⟩ := except_map_eq_ok h
        rw [List.map_cons, List.map_cons, keys_of_bufferEntries hhs]

theorem exists_jsonEntries_iff {es : List (Key × Node)} {fs : Entries Json} :
    (∃ gs, jsonEntries m fs es = .ok gs) ↔
      ∀ e ∈ es, (∃ k, e.1 = .name k) ∧ ∃ w, json m e.2 = .ok w := by
  induction es generalizing fs with
  | nil => simp [jsonEntries]
  | cons e es ih =>
    obtain ⟨key, v⟩ := e
    rw [List.forall_mem_cons]
    cases key with
    | name k =>
      simp only [jsonEntries_cons_eq_ok]
      rw [exists_comm]
      simp [ih]
    | _ => simp [jsonEntries]

theorem exists_json_map_iff {es : List (Key × Node)} (hkey : (Node.map es).hasKey numberKey = false) :
    (∃ w, json m (.map es) = .ok w) ↔
      ∀ e ∈ es, (∃ k, e.1 = .name k) ∧ ∃ w, json m e.2 = .ok w := by
  refine Iff.trans (b := ∃ gs, jsonEntries m [] es = .ok gs) ?_ exists_jsonEntries_iff
  rw [hasKey] at hkey
  simp only [json_map_eq_ok_iff (head?_ne_numberKey hkey)]
  constructor
  · rintro ⟨_, fs, hfs, -⟩
    exact ⟨fs, hfs⟩
  · rintro ⟨fs, hfs⟩
    exact ⟨.obj fs, fs, hfs, rfl⟩

end Read

namespace Keyed

variable {α : Type} [Coded α] {m : Medium} {level : Nat} {es : List (Key × Node)}

theorem exists_entries_of_read {c : Keyed α} (h : Keyed.read m (.map es) = .ok c) :
    ∃ hs, Read.bufferEntries m es = .ok hs ∧
      ((∃ xs, Read.entriesFrom Coded.read .buffered [] hs = .ok xs ∧ c = .map xs) ∨
        ∃ fs, Read.entriesFrom Read.json .buffered [] hs = .ok fs ∧ c = .object fs) := by
  obtain ⟨held, hheld, h⟩ := except_bind_eq_ok h
  rw [Read.buffer] at hheld
  obtain ⟨hs, hhs, rfl⟩ := except_map_eq_ok hheld
  refine ⟨hs, hhs, ?_⟩
  split at h
  · rename_i xs hxs
    exact .inl ⟨xs, hxs, (Except.ok.inj h).symm⟩
  · simp only [Read.list] at h
    split at h
    · rename_i fs hfs
      exact .inr ⟨fs, hfs, (Except.ok.inj h).symm⟩
    · simp at h

/-- **An object of a text is a collection exactly when it is an untyped value.** -/
theorem exists_read_map_iff (htextual : (Node.map es).Textual level)
    (hkey : (Node.map es).hasKey Read.numberKey = false) :
    (∃ c : Keyed α, Keyed.read .text (.map es) = .ok c) ↔
      ∀ e ∈ es, (∃ k, e.1 = .name k) ∧ ∃ w, Read.json .text e.2 = .ok w := by
  rw [← Read.exists_json_map_iff hkey]
  constructor
  · rintro ⟨c, hc⟩
    obtain ⟨held, hheld, -⟩ := except_bind_eq_ok hc
    obtain ⟨w, hw⟩ := Read.json_of_buffer (by decide) htextual.literal hkey hheld
    exact ⟨w, (Read.json_held_iff htextual hkey).mp ⟨held, hheld, hw⟩⟩
  · rintro ⟨w, hw⟩
    obtain ⟨fs, -, rfl⟩ := (Read.json_map_eq_ok_iff (Read.head?_ne_numberKey hkey)).mp hw
    obtain ⟨held, hheld, hfs⟩ := (Read.entries_heldMap_iff htextual hkey).mpr hw
    rw [Read.buffer] at hheld
    obtain ⟨hs, hhs, rfl⟩ := except_map_eq_ok hheld
    cases htyped : (Read.entries Coded.read .buffered (.map hs) : Except DecodeError (Entries α)) with
    | ok xs =>
      refine ⟨.map xs, ?_⟩
      simp [Keyed.read, Read.buffer, hhs, htyped, Except.map, bind, Except.bind]
    | error e =>
      refine ⟨.object fs, ?_⟩
      simp [Keyed.read, Read.buffer, hhs, htyped, hfs, Read.list, Except.map, bind, Except.bind]

/-- A collection as it holds and shows an object whose names first appear in this order. -/
structure Lists (names : List String) (c : Keyed α) : Prop where
  rawLength : c.rawLength = names.length
  /-- What is shown, in the order of the names and each name once. -/
  shown : (Entries.keys c.normalize).Sublist names
  distinct : (Entries.keys c.normalize).Nodup
  /-- A map shows every name. -/
  all : ∀ xs, c = .map xs → Entries.keys c.normalize = names

theorem keys_decodable_sublist (fs : Entries Json) :
    (Entries.keys (decodable fs : List (String × α))).Sublist fs.keys := by
  induction fs with
  | nil => exact List.Sublist.refl []
  | cons f fs ih =>
    rw [decodable_cons, Entries.keys_cons]
    split
    · exact ih.cons_cons f.1
    · exact ih.cons f.1

/-- **The collection read from an object of a text holds its names in the order they first
appear.** -/
theorem lists_of_read (htextual : (Node.map es).Textual level) {c : Keyed α}
    (h : Keyed.read .text (.map es) = .ok c) : c.Lists (names es) := by
  obtain ⟨hs, hhs, hc⟩ := exists_entries_of_read h
  have hliteral := Read.literal_bufferEntries (by decide) htextual.literal hhs
  have hnames : (hs.filterMap fun e => e.1.name?) = es.filterMap fun e => e.1.name? := by
    have hkeys := congrArg (List.filterMap Key.name?) (Read.keys_of_bufferEntries hhs)
    rwa [List.filterMap_map, List.filterMap_map] at hkeys
  have hkeys {β : Type} {d : Decoder β} {xs : Entries β}
      (hxs : Read.entriesFrom d .buffered [] hs = .ok xs) : xs.keys = names es := by
    rw [Read.keys_entriesFrom hliteral (by simp) hxs, Entries.keys_nil, List.nil_append, hnames]
    rfl
  have hdistinct : (names es).Nodup := nodup_eraseDups _
  obtain ⟨xs, hxs, rfl⟩ | ⟨fs, hfs, rfl⟩ := hc
  case inl =>
    have hall : Entries.keys xs = names es := hkeys hxs
    refine ⟨?_, hall ▸ List.Sublist.refl _, hall ▸ hdistinct, fun _ _ => hall⟩
    rw [← hall, Entries.keys, List.length_map]
    rfl
  case inr =>
    have hall : Entries.keys fs = names es := hkeys hfs
    have hshown : (Entries.keys (decodable fs : List (String × α))).Sublist (names es) :=
      hall ▸ keys_decodable_sublist fs
    refine ⟨?_, hshown, hdistinct.sublist hshown, fun _ hmap => by cases hmap⟩
    rw [← hall, Entries.keys, List.length_map]
    rfl

end Keyed

end FrameScope
