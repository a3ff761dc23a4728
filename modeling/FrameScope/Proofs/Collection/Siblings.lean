import FrameScope.Frame.Basic
import FrameScope.Proofs.Collection.Loggable
import FrameScope.Proofs.Json.Literal
import FrameScope.Proofs.Json.Members
import FrameScope.Proofs.Node.Steady

/-!
# Entries of an object and their siblings

An object whose values all decode becomes a map: every value is decoded from its document
(`Keyed.eager`). One value that does not decode makes the whole object untyped, and its other values
are decoded from the untyped values kept of them (`Keyed.lazy`).

`Keyed.normalize_siblings_iff`: exactly when the pairs of an object are those of its entries read
alone. Plain values are among the harmless ones (`Keyed.normalize_of_plain`); a balance of 2 ^ 64
inside a replica is not.
-/

namespace FrameScope

open Node JsonText

namespace Keyed

variable {α : Type} [Coded α]

/-- What a value decodes to when all its siblings decode. -/
def eager (v : Node) : Except DecodeError α := do
  let held ← Read.buffer .text v
  Coded.read .buffered held

/-- The untyped value kept of it when some sibling does not decode. -/
def untyped (v : Node) : Except DecodeError Json := do
  let held ← Read.buffer .text v
  Read.json .buffered held

/-- What it decodes to then. -/
def lazy (v : Node) : Except DecodeError α := do
  let w ← untyped v
  Coded.ofJson? w

theorem eager_eq_ok_iff {v : Node} {x : α} :
    eager v = .ok x ↔ ∃ held, Read.buffer .text v = .ok held ∧ Coded.read .buffered held = .ok x := by
  cases h : Read.buffer .text v <;> simp [eager, h, bind, Except.bind]

theorem untyped_eq_ok_iff {v : Node} {w : Json} :
    untyped v = .ok w ↔ ∃ held, Read.buffer .text v = .ok held ∧ Read.json .buffered held = .ok w := by
  cases h : Read.buffer .text v <;> simp [untyped, h, bind, Except.bind]

theorem lazy_eq_ok_iff {v : Node} {x : α} :
    lazy v = .ok x ↔ ∃ w, untyped v = .ok w ∧ Coded.ofJson? w = .ok x := by
  cases h : untyped v <;> simp [lazy, h, bind, Except.bind]

theorem exists_eager_iff {es : Entries Node} :
    (∃ xs : Entries α, es.Related (fun v x => eager v = .ok x) xs) ↔
      ∀ e ∈ es, ∃ x : α, eager e.2 = .ok x :=
  Entries.exists_related_iff (R := fun v (x : α) => eager v = .ok x)

theorem exists_untyped_iff {es : Entries Node} :
    (∃ fs : Entries Json, es.Related (fun v w => untyped v = .ok w) fs) ↔
      ∀ e ∈ es, ∃ w, untyped e.2 = .ok w :=
  Entries.exists_related_iff (R := fun v w => untyped v = .ok w)

/-! ### The encoding of an object -/

theorem read_of_buffer {es : Entries Node} {held : Node}
    (h : Read.buffer .text (ofEntries es) = .ok held) :
    (Keyed.read .text (ofEntries es) : Except DecodeError (Keyed α)) =
      match Read.entries Coded.read .buffered held with
      | .ok xs => .ok (.map xs)
      | .error _ =>
        match Read.entries Read.json .buffered held with
        | .ok fs => .ok (.object fs)
        | .error _ => .error (.noAlternative "KeyedCollection") := by
  rw [Keyed.read, h]
  obtain ⟨hs, rfl, -⟩ := Read.buffer_ofEntries_iff.mp h
  rfl

theorem read_ofEntries_iff {es : Entries Node} {c : Keyed α} (hkeys : es.keys.Nodup) :
    Keyed.read .text (ofEntries es) = .ok c ↔
      (∃ xs, c = .map xs ∧ es.Related (fun v x => eager v = .ok x) xs) ∨
        ∃ fs, c = .object fs ∧ (¬ ∀ e ∈ es, ∃ x : α, eager e.2 = .ok x) ∧
          es.Related (fun v w => untyped v = .ok w) fs := by
  rw [← exists_eager_iff]
  simp only [eager_eq_ok_iff, untyped_eq_ok_iff, ← Read.entries_buffer_iff hkeys]
  rcases hheld : Read.buffer .text (ofEntries es) with e | held
  · simp [Keyed.read, hheld, bind, Except.bind]
  · rw [read_of_buffer hheld]
    rcases htyped : (Read.entries Coded.read .buffered held : Except DecodeError (Entries α)) with
      e | xs
    · rcases huntyped : Read.entries Read.json .buffered held with e' | fs <;>
        simp [htyped, huntyped, eq_comm]
    · simp [htyped, eq_comm]

theorem exists_read_ofEntries_iff {es : Entries Node} (hkeys : es.keys.Nodup)
    (hlit : ∀ e ∈ es, e.2.Literal) (hnumber : ∀ e ∈ es, e.2.hasKey Read.numberKey = false) :
    (∃ c : Keyed α, Keyed.read .text (ofEntries es) = .ok c) ↔ ∀ e ∈ es, ∃ w, untyped e.2 = .ok w := by
  constructor
  · rintro ⟨c, hc⟩
    rcases (read_ofEntries_iff hkeys).mp hc with ⟨xs, -, hxs⟩ | ⟨fs, -, -, hfs⟩
    · intro e he
      obtain ⟨x, hx⟩ := exists_eager_iff.mp ⟨xs, hxs⟩ e he
      obtain ⟨held, hheld, -⟩ := eager_eq_ok_iff.mp hx
      obtain ⟨w, hw⟩ := Read.json_of_buffer (by simp) (hlit e he) (hnumber e he) hheld
      exact ⟨w, untyped_eq_ok_iff.mpr ⟨held, hheld, hw⟩⟩
    · exact exists_untyped_iff.mp ⟨fs, hfs⟩
  · intro huntyped
    by_cases hall : ∀ e ∈ es, ∃ x : α, eager e.2 = .ok x
    · obtain ⟨xs, hxs⟩ := exists_eager_iff.mpr hall
      exact ⟨.map xs, (read_ofEntries_iff hkeys).mpr (.inl ⟨xs, rfl, hxs⟩)⟩
    · obtain ⟨fs, hfs⟩ := exists_untyped_iff.mpr huntyped
      exact ⟨.object fs, (read_ofEntries_iff hkeys).mpr (.inr ⟨fs, rfl, hall, hfs⟩)⟩

/-! ### Pairs -/

/-- The pair of an entry of an object that stays untyped. -/
def lazyPair (e : String × Node) : List (String × α) :=
  match lazy e.2 with
  | .ok x => [(e.1, x)]
  | .error _ => []

/-- The pair of an entry read alone. -/
def ownPair (e : String × Node) : List (String × α) :=
  match eager e.2 with
  | .ok x => [(e.1, x)]
  | .error _ => lazyPair e

theorem eq_of_mem_lazyPair {e : String × Node} {p : String × α} (h : p ∈ lazyPair e) :
    p.1 = e.1 ∧ lazy e.2 = .ok p.2 := by
  unfold lazyPair at h
  split at h
  · rename_i x hx
    obtain rfl := List.mem_singleton.mp h
    exact ⟨rfl, hx⟩
  · simp at h

theorem map_eq_flatMap_ownPair {es : Entries Node} {xs : Entries α}
    (h : es.Related (fun v x => eager v = .ok x) xs) : xs = es.flatMap ownPair := by
  induction h with
  | nil => rfl
  | @cons e x es xs hhead _ ih =>
    rw [List.flatMap_cons, ownPair, hhead.2, ← ih, hhead.1]
    rfl

theorem decodable_eq_flatMap_lazyPair {es : Entries Node} {fs : Entries Json}
    (h : es.Related (fun v w => untyped v = .ok w) fs) :
    (decodable fs : List (String × α)) = es.flatMap lazyPair := by
  induction h with
  | nil => rfl
  | @cons e f es fs hhead _ ih =>
    have hlazy : (lazy e.2 : Except DecodeError α) = Coded.ofJson? f.2 := by
      rw [lazy, hhead.2]
      rfl
    rw [decodable_cons, List.flatMap_cons, lazyPair, hlazy, ← ih, hhead.1]
    rcases (Coded.ofJson? f.2 : Except DecodeError α) with _ | x <;> rfl

theorem exists_single {e : String × Node}
    (h : (∃ x : α, eager e.2 = .ok x) ∨ ∃ w, untyped e.2 = .ok w) :
    ∃ c : Keyed α, Keyed.read .text (ofEntries [e]) = .ok c ∧ c.normalize = ownPair e := by
  have hkeys : Entries.keys [e] = [e.1] := rfl
  by_cases heager : ∃ x : α, eager e.2 = .ok x
  · obtain ⟨x, hx⟩ := heager
    refine ⟨.map [(e.1, x)], (read_ofEntries_iff (by simp [hkeys])).mpr
      (.inl ⟨_, rfl, .cons ⟨rfl, hx⟩ .nil⟩), ?_⟩
    simp [normalize, ownPair, hx]
  · obtain ⟨w, hw⟩ := h.resolve_left heager
    refine ⟨.object [(e.1, w)], (read_ofEntries_iff (by simp [hkeys])).mpr
      (.inr ⟨_, rfl, by simpa using heager, .cons ⟨rfl, hw⟩ .nil⟩), ?_⟩
    have hdecodable : (decodable [(e.1, w)] : List (String × α)) = [e].flatMap lazyPair :=
      decodable_eq_flatMap_lazyPair (.cons ⟨rfl, hw⟩ .nil)
    rw [normalize, hdecodable, List.flatMap_singleton, ownPair]
    split
    · rename_i x hx
      exact absurd ⟨x, hx⟩ heager
    · rfl

theorem exists_singles {es : Entries Node}
    (h : ∀ e ∈ es, ∃ c : Keyed α, Keyed.read .text (ofEntries [e]) = .ok c ∧
      c.normalize = ownPair e) :
    ∃ singles : List (Keyed α),
      (es.map fun e => Keyed.read .text (ofEntries [e])) = singles.map .ok ∧
        singles.flatMap normalize = es.flatMap ownPair := by
  induction es with
  | nil => exact ⟨[], rfl, rfl⟩
  | cons e es ih =>
    obtain ⟨⟨c, hc, hpairs⟩, hrest⟩ := List.forall_mem_cons.mp h
    obtain ⟨singles, hsingles, hflat⟩ := ih hrest
    refine ⟨c :: singles, ?_, ?_⟩
    · rw [List.map_cons, List.map_cons, hc, hsingles]
    · rw [List.flatMap_cons, List.flatMap_cons, hpairs, hflat]

/-- The pairs of entries decoded lazily are their own exactly when lazy decoding finds every value
that eager decoding finds. -/
theorem flatMap_lazyPair_iff {es : Entries Node} (hkeys : es.keys.Nodup) :
    es.flatMap lazyPair = (es.flatMap ownPair : List (String × α)) ↔
      ∀ e ∈ es, ∀ x : α, eager e.2 = .ok x → lazy e.2 = .ok x := by
  constructor
  · intro h e he x hx
    have hown : (e.1, x) ∈ es.flatMap ownPair := by
      refine List.mem_flatMap.mpr ⟨e, he, ?_⟩
      simp [ownPair, hx]
    obtain ⟨e', he', hlazy⟩ := List.mem_flatMap.mp (h ▸ hown)
    obtain ⟨hkey, hx'⟩ := eq_of_mem_lazyPair hlazy
    rwa [List.inj_on_of_nodup_map hkeys he he' hkey]
  · intro h
    refine List.flatMap_congr fun e he => ?_
    rw [ownPair]
    split
    · rename_i x hx
      rw [lazyPair, h e he x hx]
    · rfl

theorem normalize_ofEntries_iff {es : Entries Node} {c : Keyed α} (hkeys : es.keys.Nodup)
    (h : Keyed.read .text (ofEntries es) = .ok c) :
    ∃ singles : List (Keyed α),
      (es.map fun e => Keyed.read .text (ofEntries [e])) = singles.map .ok ∧
        (c.normalize = singles.flatMap normalize ↔
          (∀ e ∈ es, ∃ x : α, eager e.2 = .ok x) ∨
            ∀ e ∈ es, ∀ x : α, eager e.2 = .ok x → lazy e.2 = .ok x) := by
  rcases (read_ofEntries_iff hkeys).mp h with ⟨xs, rfl, hxs⟩ | ⟨fs, rfl, hsome, hfs⟩
  · have hall := exists_eager_iff.mp ⟨xs, hxs⟩
    obtain ⟨singles, hsingles, hflat⟩ := exists_singles fun e he => exists_single (.inl (hall e he))
    exact ⟨singles, hsingles, iff_of_true (hflat ▸ map_eq_flatMap_ownPair hxs) (.inl hall)⟩
  · have huntyped := exists_untyped_iff.mp ⟨fs, hfs⟩
    obtain ⟨singles, hsingles, hflat⟩ :=
      exists_singles (α := α) fun e he => exists_single (.inr (huntyped e he))
    refine ⟨singles, hsingles, ?_⟩
    rw [normalize, decodable_eq_flatMap_lazyPair hfs, hflat, flatMap_lazyPair_iff hkeys,
      or_iff_right hsome]

/-! ### Texts -/

/-- A collection from a JSON text. -/
def ofChars (cs : List Char) : Except DecodeError (Keyed α) :=
  (Document.ofChars cs).decode Keyed.read

theorem ofChars_spells {members : List Member} {cs : List Char} (h : Spells members cs) :
    (ofChars cs : Except DecodeError (Keyed α)) =
      Keyed.read .text (ofEntries (members.map Member.entry)) := by
  rw [ofChars, Document.ofChars_spells h, Document.decode, ofEntries, List.map_map]
  simp only [Function.comp_def, Member.entry]
  rcases (Keyed.read _ _ : Except DecodeError (Keyed α)) with e | c <;> rfl

theorem ofChars_objectText (m : Member) :
    (ofChars (objectText [m]) : Except DecodeError (Keyed α)) =
      Keyed.read .text (ofEntries [m.entry]) :=
  ofChars_spells (spells_objectText [m])

theorem normalize_ofChars_iff {members : List Member} {cs : List Char} {c : Keyed α}
    (hspells : Spells members cs) (hdistinct : (members.map Member.key).Nodup)
    (hc : ofChars cs = .ok c) :
    ∃ singles : List (Keyed α),
      (members.map fun m => ofChars (objectText [m])) = singles.map .ok ∧
        (c.normalize = singles.flatMap normalize ↔
          (∀ m ∈ members, ∃ x : α, eager m.value = .ok x) ∨
            ∀ m ∈ members, ∀ x : α, eager m.value = .ok x → lazy m.value = .ok x) := by
  have hkeys : Entries.keys (members.map Member.entry) = members.map Member.key := by
    simp [Entries.keys, Member.entry]
  rw [ofChars_spells hspells] at hc
  have hpairs := normalize_ofEntries_iff (hkeys ▸ hdistinct) hc
  simp only [ofChars_objectText]
  simpa [List.map_map, Function.comp_def] using hpairs

theorem exists_ofChars_iff {members : List Member} {cs : List Char} (hspells : Spells members cs)
    (hdistinct : (members.map Member.key).Nodup)
    (hnumber : ∀ m ∈ members, m.value.hasKey Read.numberKey = false) :
    (∃ c : Keyed α, ofChars cs = .ok c) ↔
      ∀ m ∈ members, ∃ c : Keyed α, ofChars (objectText [m]) = .ok c := by
  have hkeys : Entries.keys (members.map Member.entry) = members.map Member.key := by
    simp [Entries.keys, Member.entry]
  have hlit : ∀ m : Member, m.entry.2.Literal := fun m => literal_readValue _ _ _
  simp only [ofChars_spells hspells, ofChars_objectText]
  rw [exists_read_ofEntries_iff (hkeys ▸ hdistinct) (by simpa using fun m _ => hlit m)
    (by simpa using hnumber), List.forall_mem_map]
  refine forall₂_congr fun m hm => ?_
  rw [exists_read_ofEntries_iff (by simp [Entries.keys]) (by simpa using hlit m)
    (by simpa using hnumber m hm)]
  simp

/-- What the text of an object decodes to, nothing when it does not decode. -/
def shownAs (members : List Member) : Keyed α :=
  (ofChars (objectText members)).toOption.getD .empty

theorem ofChars_shownAs {members : List Member}
    (h : (ofChars (objectText members) : Except DecodeError (Keyed α)).toOption.isSome = true) :
    ofChars (objectText members) = .ok (shownAs members : Keyed α) := eq_ok_of_isSome h .empty

theorem map_ofChars_shownAs {members : List Member}
    (h : ∀ m ∈ members,
      (ofChars (objectText [m]) : Except DecodeError (Keyed α)).toOption.isSome = true) :
    (members.map fun m => ofChars (objectText [m])) =
      (members.map fun m => (shownAs [m] : Keyed α)).map .ok := by
  rw [List.map_map]
  exact List.map_congr_left fun m hm => ofChars_shownAs (h m hm)

/-- An amount that 64 bits do not hold. -/
def wideAmount : Member where
  keyText := "\"a\"".toList
  valueText := "18446744073709551616".toList
  key := "a"
  isKey := by decide +kernel
  isValue := by decide +kernel

/-- A replica that holds 2 ^ 64 of a token. -/
def wideReplica : Member where
  keyText := "\"a\"".toList
  valueText := "\x7b\"reserves\":\x7b\"t\":18446744073709551616\x7d\x7d".toList
  key := "a"
  isKey := by decide +kernel
  isValue := by decide +kernel

/-- A value that is neither an amount nor a record. -/
def brokenEntry : Member where
  keyText := "\"b\"".toList
  valueText := "true".toList
  key := "b"
  isKey := by decide +kernel
  isValue := by decide +kernel

/-- **An entry is shown as it is alone, whatever stands beside it, exactly when all values of the
object decode eagerly, or those that do decode lazily to the same.** The object decodes exactly when
each of its entries does. -/
theorem normalize_siblings_iff {members : List Member} {cs : List Char}
    (hspells : Spells members cs) (hdistinct : (members.map Member.key).Nodup)
    (hnumber : ∀ m ∈ members, m.value.hasKey Read.numberKey = false) :
    ((∃ c : Keyed α, ofChars cs = .ok c) ↔
        ∀ m ∈ members, ∃ c : Keyed α, ofChars (objectText [m]) = .ok c) ∧
      ∀ c : Keyed α, ofChars cs = .ok c →
        ∃ singles : List (Keyed α),
          (members.map fun m => ofChars (objectText [m])) = singles.map .ok ∧
            (c.normalize = singles.flatMap normalize ↔
              (∀ m ∈ members, ∃ x : α, eager m.value = .ok x) ∨
                ∀ m ∈ members, ∀ x : α, eager m.value = .ok x → lazy m.value = .ok x) :=
  ⟨exists_ofChars_iff hspells hdistinct hnumber,
    fun _ hc => normalize_ofChars_iff hspells hdistinct hc⟩

/-- An amount of 2 ^ 64 beside a value that is none is shown as it is alone. -/
theorem normalize_siblings_wideAmount :
    ∃ singles : List (Keyed Amount),
      ([wideAmount, brokenEntry].map fun m => ofChars (objectText [m])) = singles.map .ok ∧
        (shownAs [wideAmount, brokenEntry]).normalize = singles.flatMap normalize := by
  have hlazy : ∀ m ∈ [wideAmount, brokenEntry],
      (eager m.value : Except DecodeError Amount).toOption.isSome = true →
        (lazy m.value : Except DecodeError Amount).toOption = (eager m.value).toOption := by
    decide +kernel
  obtain ⟨-, hpairs⟩ := normalize_siblings_iff (α := Amount)
    (spells_objectText [wideAmount, brokenEntry]) (by decide +kernel) (by decide +kernel)
  obtain ⟨singles, hsingles, hiff⟩ := hpairs _ (ofChars_shownAs (by decide +kernel))
  refine ⟨singles, hsingles, hiff.mpr (.inr fun m hm x hx => ?_)⟩
  have hx' := toOption_eq_some_iff.mpr hx
  rw [← toOption_eq_some_iff, hlazy m hm (by rw [hx']; rfl), hx']

/-- A member beside others is not always shown as it is alone: a replica with a balance of 2 ^ 64
vanishes beside a value that is no replica. -/
theorem not_normalize_siblings_wideReplica :
    ¬ ∀ (members : List Member) (cs : List Char) (c : Keyed Replica)
        (singles : List (Keyed Replica)),
      Spells members cs → (members.map Member.key).Nodup →
        (∀ m ∈ members, m.key ≠ Read.numberKey ∧ m.value.hasKey Read.numberKey = false) →
          ofChars cs = .ok c →
            (members.map fun m => ofChars (objectText [m])) = singles.map .ok →
              c.normalize = singles.flatMap normalize := by
  intro hclaim
  have hpairs := hclaim [wideReplica, brokenEntry] _ _ _ (spells_objectText _) (by decide +kernel)
    (by decide +kernel) (ofChars_shownAs (by decide +kernel)) (map_ofChars_shownAs (by decide +kernel))
  have hdiffer : (shownAs [wideReplica, brokenEntry] : Keyed Replica).normalize.length ≠
      (([wideReplica, brokenEntry].map fun m => shownAs [m]).flatMap
        (normalize (α := Replica))).length := by decide +kernel
  exact hdiffer (congrArg List.length hpairs)

/-! ### Plain values -/

/-- A plain value that decodes eagerly decodes lazily to the same. -/
theorem lazy_of_plain (hsteady : Steady (Coded.read (α := α))) {v : Node} (hv : v.Plain) {x : α}
    (hx : eager v = .ok x) : lazy v = .ok x := by
  have huntyped : untyped v = .ok v.toJson :=
    untyped_eq_ok_iff.mpr ⟨_, Read.buffer_of_plain hv, by rw [Read.json_held hv, Read.json_of_plain hv]⟩
  obtain ⟨held, hheld, hread⟩ := eager_eq_ok_iff.mp hx
  obtain rfl := Except.ok.inj ((Read.buffer_of_plain hv).symm.trans hheld)
  refine lazy_eq_ok_iff.mpr ⟨_, huntyped, ?_⟩
  rw [Coded.ofJson?, ofJson_toJson hv, ← toOption_eq_some_iff, ← hsteady v hv,
    toOption_eq_some_iff, hread]

/-- **Plain entries are shown as they are alone, whatever stands beside them.** -/
theorem normalize_of_plain (hsteady : Steady (Coded.read (α := α))) {members : List Member}
    {cs : List Char} {c : Keyed α} (hspells : Spells members cs)
    (hdistinct : (members.map Member.key).Nodup) (hplain : ∀ m ∈ members, m.value.Plain)
    (hc : ofChars cs = .ok c) :
    ∃ singles : List (Keyed α),
      (members.map fun m => ofChars (objectText [m])) = singles.map .ok ∧
        c.normalize = singles.flatMap normalize := by
  obtain ⟨singles, hsingles, hiff⟩ := normalize_ofChars_iff hspells hdistinct hc
  exact ⟨singles, hsingles,
    hiff.mpr (.inr fun m hm _ hx => lazy_of_plain hsteady (hplain m hm) hx)⟩

end Keyed

/-! ### Steady records -/

theorem Amount.steady : Steady (Coded.read (α := Amount)) := steady_amount

theorem Account.steady : Steady (Coded.read (α := Account)) := by
  refine steady_record (fun f hf => ?_) _
  simp only [Account.fields, List.mem_cons, List.not_mem_nil, or_false] at hf
  rcases hf with rfl | rfl | rfl | rfl
  · exact steady_text.map _
  · exact steady_word.map _
  · exact steady_keyed.map _
  · exact steady_json.list.map _

theorem Replica.steady : Steady (Coded.read (α := Replica)) := by
  refine steady_record (fun f hf => ?_) _
  simp only [Replica.fields, List.mem_cons, List.not_mem_nil, or_false] at hf
  rcases hf with rfl | rfl | rfl | rfl | rfl | rfl | rfl | rfl
  · exact steady_text.map _
  · exact steady_text.map _
  · exact steady_word.map _
  · exact steady_keyed.map _
  · exact steady_keyed.map _
  · exact steady_json.list.map _
  · exact steady_json.list.map _
  · exact steady_json.list.map _

theorem Machine.steady : Steady (Coded.read (α := Machine)) := by
  refine steady_record (fun f hf => ?_) _
  simp only [Machine.fields, List.mem_cons, List.not_mem_nil, or_false] at hf
  rcases hf with rfl | rfl | rfl | rfl
  · exact steady_text.map _
  · exact steady_word.option.map _
  · exact steady_word.map _
  · exact steady_json.list.map _

end FrameScope
