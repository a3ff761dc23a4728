import FrameScope.Collection.Keyed
import FrameScope.Proofs.Amount
import FrameScope.Proofs.Node.Held
import FrameScope.Proofs.Node.Loggable

/-!
# What a log makes of a keyed collection

A collection is read in the first encoding that fits (`Keyed.FirstFit`) and brought as its values
are (`Keyed.brings_map`, `Keyed.brings_pairs`, `Keyed.brings_object`). From a log maps and pairs come
back with the same keys. An object kept as it is comes back as a map when every entry decodes from
its logged document, and as itself otherwise (`Keyed.logged`): a number among its values is the
one-entry map of its spelling by then, so an entry may decode that did not before.

`Keyed.normalize_logged_iff`: exactly when the pairs of a collection are still the same.
-/

namespace FrameScope

open Node

open Loggable (Good good_of_read writable read_logged)

theorem Carriage.brings_amount {K : Carriage} {level : Nat} (a : Amount) :
    K.Brings level Coded.read (Coded.write a) a where
  passes := K.passes_text
  read harrives := by
    simp only [Coded.read, Coded.write, (K.form harrives).text, Read.amount, Read.json, bind,
      Except.bind, Amount.ofJson, Amount.parse_text]

instance : Loggable Amount where
  Good _ := True
  logged a := a
  good_of_read _ _ _ := trivial
  writable _ := trivial
  read_logged {a} _ _ := (@Carriage.brings_amount Carriage.log 0 a).read rfl

namespace Coded

variable {α : Type} [Coded α]

/-- What the logged document of an untyped value decodes to. -/
def ofLogged? (v : Json) : Option α := (Coded.read .buffered (Node.ofJson v).logged).toOption

end Coded

namespace Keyed

variable {α : Type} [Coded α]

/-- The fields of an untyped object, when all of them decode from their logged documents. -/
def ofLoggedFields? : Entries Json → Option (Entries α)
  | [] => some []
  | (k, v) :: fs =>
    match Coded.ofLogged? v, ofLoggedFields? fs with
    | some x, some es => some ((k, x) :: es)
    | _, _ => none

theorem ofLoggedFields?_eq_none {fs : Entries Json} :
    (ofLoggedFields? fs : Option (Entries α)) = none ↔
      ∃ f ∈ fs, (Coded.ofLogged? f.2 : Option α) = none := by
  induction fs with
  | nil => simp [ofLoggedFields?]
  | cons f fs ih =>
    rcases hx : (Coded.ofLogged? f.2 : Option α) with _ | x
    · simp [ofLoggedFields?, hx]
    · rcases hes : (ofLoggedFields? fs : Option (Entries α)) with _ | es
      · simpa [ofLoggedFields?, hx, hes] using ih.mp hes
      · simpa [ofLoggedFields?, hx, hes] using mt ih.mpr (by simp [hes])

theorem ofLoggedFields?_eq_some_iff {fs : Entries Json} {es : Entries α} :
    ofLoggedFields? fs = some es ↔
      fs.Related (fun v x => Coded.read .buffered (Node.ofJson v).logged = .ok x) es := by
  induction fs generalizing es with
  | nil => simp [ofLoggedFields?, Entries.Related, eq_comm]
  | cons f fs ih =>
    rw [ofLoggedFields?]
    constructor
    · intro h
      split at h
      · rename_i x es' hx hes'
        obtain rfl := Option.some.inj h
        exact .cons ⟨rfl, toOption_eq_some_iff.mp hx⟩ (ih.mp hes')
      · simp at h
    · intro h
      cases h with
      | @cons _ e _ es' hhead hrest =>
        have hx : Coded.ofLogged? f.2 = some e.2 := toOption_eq_some_iff.mpr hhead.2
        rw [hx, ih.mpr hrest]
        exact congrArg (fun k => some ((k, e.2) :: es')) hhead.1

theorem entries_logged_iff {fs : Entries Json} {es : Entries α} (hkeys : fs.keys.Nodup) :
    Read.entries Coded.read .buffered
        (.map (fs.map fun f => (.name f.1, (Node.ofJson f.2).logged))) = .ok es ↔
      ofLoggedFields? fs = some es := by
  have hnamed : ofEntries (fs.map fun f => (f.1, (Node.ofJson f.2).logged)) =
      .map (fs.map fun f => (.name f.1, (Node.ofJson f.2).logged)) := by simp [ofEntries]
  have hkeys' : (Entries.keys (fs.map fun f => (f.1, (Node.ofJson f.2).logged))).Nodup := by
    simpa [Entries.keys, Function.comp_def] using hkeys
  rw [← hnamed, Read.entries_ofEntries_iff hkeys', Entries.Related, List.forall₂_map_left_iff,
    ofLoggedFields?_eq_some_iff]
  rfl

/-! ### How a collection is read -/

/-- A collection in the first encoding that fits what is held back. -/
inductive FirstFit (held : Node) : Keyed α → Prop
  | map {es : Entries α} (hes : Read.entries Coded.read .buffered held = .ok es) :
      FirstFit held (.map es)
  | pairs {ps : List (String × α)}
      (hps : Read.list (Read.pair Coded.read) .buffered held = .ok ps) : FirstFit held (.pairs ps)
  | object {e : DecodeError} {fs : Entries Json}
      (hes : Read.entries (Coded.read (α := α)) .buffered held = .error e)
      (hfs : Read.entries Read.json .buffered held = .ok fs) : FirstFit held (.object fs)

theorem exists_firstFit_of_read {m : Medium} {node : Node} {c : Keyed α}
    (h : Keyed.read m node = .ok c) :
    ∃ held, Read.buffer m node = .ok held ∧ c.FirstFit held := by
  rw [Keyed.read] at h
  obtain ⟨held, hheld, h⟩ := except_bind_eq_ok h
  refine ⟨held, hheld, ?_⟩
  split at h
  · rename_i es hes
    obtain rfl := Except.ok.inj h
    exact .map hes
  · rename_i e hes
    split at h
    · rename_i ps hps
      obtain rfl := Except.ok.inj h
      exact .pairs hps
    · split at h
      · rename_i fs hfs
        obtain rfl := Except.ok.inj h
        exact .object hes hfs
      · simp at h

/-! ### Collections on their way -/

section Brings

variable {K : Carriage} {level : Nat} {g : α → α}

theorem brings_map {es : Entries α} (hkeys : es.keys.Nodup)
    (hes : ∀ e ∈ es, K.Brings level Coded.read (Coded.write e.2) (g e.2)) :
    K.Brings (level + 1) Keyed.read (write (.map es)) (.map (es.map fun e => (e.1, g e.2))) := by
  have hentries : K.Brings (level + 1) (Read.entries Coded.read) (write (.map es))
      (es.map fun e => (e.1, g e.2)) := Carriage.brings_entries hkeys hes
  refine ⟨hentries.passes, fun harrives => ?_⟩
  rw [Keyed.read, K.buffer harrives hentries.passes]
  simp only [bind, Except.bind, hentries.read K.arrives_kept]

theorem brings_pairs {ps : List (String × α)}
    (hps : ∀ p ∈ ps, K.Brings level Coded.read (Coded.write p.2) (g p.2)) :
    K.Brings (level + 2) Keyed.read (write (.pairs ps)) (.pairs (ps.map fun p => (p.1, g p.2))) := by
  have hlist : K.Brings (level + 2) (Read.list (Read.pair Coded.read)) (write (.pairs ps))
      (ps.map fun p => (p.1, g p.2)) :=
    Carriage.brings_list fun p hp => Carriage.brings_pair (hps p hp)
  have hread := hlist.read K.arrives_kept
  refine ⟨hlist.passes, fun harrives => ?_⟩
  rw [Keyed.read, K.buffer harrives hlist.passes]
  rw [write, (K.form K.arrives_kept).seq] at hread ⊢
  simp only [bind, Except.bind, Read.entries, hread]

/-- An object kept as it is. -/
structure Carried (K : Carriage) (level : Nat) (fs : Entries Json) : Prop where
  keys : fs.keys.Nodup
  values : ∀ f ∈ fs, f.2.Sound ∧ K.Passes level (ofJson f.2)

theorem Carried.passes {fs : Entries Json} (h : Carried K level fs) :
    K.Passes (level + 1) (write (.object fs : Keyed α)) := K.passes_map fun entry hentry => by
  obtain ⟨f, hf, rfl⟩ := List.mem_map.mp hentry
  exact ⟨⟨_, rfl⟩, (h.values f hf).2⟩

theorem brings_object_map {fs : Entries Json} {es : Entries α} (h : Carried K level fs)
    (hes : Read.entries Coded.read .buffered (K.kept (write (.object fs : Keyed α))) = .ok es) :
    K.Brings (level + 1) Keyed.read (write (.object fs : Keyed α)) (.map es) := by
  refine ⟨h.passes, fun harrives => ?_⟩
  rw [Keyed.read, K.buffer harrives h.passes]
  simp only [bind, Except.bind, hes]

theorem brings_object {fs : Entries Json} (h : Carried K level fs)
    (hnot : ∀ es, Read.entries (Coded.read (α := α)) .buffered
      (K.kept (write (.object fs : Keyed α))) ≠ .ok es) :
    K.Brings (level + 1) Keyed.read (write (.object fs : Keyed α)) (.object fs : Keyed α) := by
  have hform := K.form K.arrives_kept
  have hfs : Read.entries Read.json .buffered (K.kept (write (.object fs : Keyed α))) = .ok fs := by
    rw [write, hform.map, List.map_map]
    refine (Read.entries_of_named (g := fun f => f.2) (fun f hf => ?_) h.keys).trans ?_
    · exact Read.json_form hform (K.num K.arrives_kept) (h.values f hf).1
    · exact congrArg _ (List.map_id' fs)
  refine ⟨h.passes, fun harrives => ?_⟩
  rw [Keyed.read, K.buffer harrives h.passes]
  rcases hes : Read.entries (Coded.read (α := α)) .buffered
      (K.kept (write (.object fs : Keyed α))) with e | es
  · simp only [bind, Except.bind, hes, hfs]
    simp only [write, hform.map, Read.list]
  · exact absurd hes (hnot es)

end Brings

variable [Loggable α]

/-- What a text yields: distinct keys, and good values under them. -/
def Good : Keyed α → Prop
  | .map es => es.keys.Nodup ∧ ∀ e ∈ es, Loggable.Good e.2
  | .pairs ps => ∀ p ∈ ps, Loggable.Good p.2
  | .object fs => fs.keys.Nodup ∧ ∀ f ∈ fs, f.2.Sound

/-- What a log makes of a collection. -/
def logged : Keyed α → Keyed α
  | .map es => .map (es.map fun e => (e.1, Loggable.logged e.2))
  | .pairs ps => .pairs (ps.map fun p => (p.1, Loggable.logged p.2))
  | .object fs =>
    match ofLoggedFields? fs with
    | some es => .map es
    | none => .object fs

theorem good_of_read {m : Medium} {node : Node} {c : Keyed α} (hm : m ≠ .value)
    (hnode : node.Literal) (h : Keyed.read m node = .ok c) : Good c := by
  obtain ⟨held, hheld, hc⟩ := exists_firstFit_of_read h
  have hlit := (Read.literal_buffer hm hnode hheld).parts
  have hread : Read.Reads .buffered Literal (Coded.read (α := α)) Loggable.Good :=
    Loggable.reads (by decide)
  cases hc with
  | map hes => exact Read.entries_invariant hread hlit hes
  | pairs hps =>
    exact Read.list_invariant (fun v p hv hp => Read.pair_invariant hread hv.parts hp) hlit hps
  | object _ hfs =>
    exact Read.entries_invariant (fun v x hv hx => Read.sound_of_json hv hx) hlit hfs

theorem good_empty : Good (empty : Keyed α) := ⟨List.nodup_nil, nofun⟩

/-- **A collection comes back from a log as its logged form.** -/
theorem brings_logged (level : Nat) {c : Keyed α} (hc : Good c) :
    Carriage.log.Brings (level + 2) Keyed.read c.write c.logged := by
  cases c with
  | map es =>
    exact (brings_map hc.1 fun e he => Loggable.brings (hc.2 e he)).mono (Nat.le_succ _)
  | pairs ps => exact brings_pairs fun p hp => Loggable.brings (hc p hp)
  | object fs =>
    have hcarried : Carried Carriage.log (level + 1) fs :=
      ⟨hc.1, fun f hf => ⟨hc.2 f hf, writable_ofJson f.2⟩⟩
    have hkept : Carriage.log.kept (write (.object fs : Keyed α)) =
        .map (fs.map fun f => (.name f.1, (Node.ofJson f.2).logged)) := by
      rw [write, (Carriage.log.form Carriage.log.arrives_kept).map, List.map_map]
      rfl
    rw [logged]
    -- the log's document decodes as a typed map exactly when the logged form is one
    rcases hes : (ofLoggedFields? fs : Option (Entries α)) with _ | es
    · refine brings_object hcarried fun es h => ?_
      rw [hkept, entries_logged_iff hc.1, hes] at h
      simp at h
    · refine brings_object_map hcarried ?_
      rw [hkept]
      exact (entries_logged_iff hc.1).mpr hes

instance : Loggable (Keyed α) where
  Good := Good
  logged := logged
  good_of_read := good_of_read
  writable hc := (brings_logged 0 hc).passes
  read_logged hc _ := (brings_logged 0 hc).read rfl

/-! ### When a collection still shows the same pairs -/

omit [Loggable α] in
/-- A log changes no pair of the collection: every value of a map or of pairs is among those that
stay the same, and an object kept as it is either stays one or its entries decode as they did
before. -/
def Kept (same : α → Prop) : Keyed α → Prop
  | .map es => ∀ e ∈ es, same e.2
  | .pairs ps => ∀ p ∈ ps, same p.2
  | .object fs =>
    (∃ f ∈ fs, (Coded.ofLogged? f.2 : Option α) = none) ∨
      ∀ f ∈ fs, (Coded.ofLogged? f.2 : Option α) = (Coded.ofJson? f.2).toOption

omit [Loggable α] in
theorem decodable_cons (f : String × Json) (fs : Entries Json) :
    (decodable (f :: fs) : List (String × α)) =
      match (Coded.ofJson? f.2 : Except DecodeError α) with
      | .ok x => (f.1, x) :: decodable fs
      | .error _ => decodable fs := by
  rcases h : (Coded.ofJson? f.2 : Except DecodeError α) with e | x <;> simp [decodable, h]

omit [Loggable α] in
theorem length_decodable_le (fs : Entries Json) :
    (decodable fs : List (String × α)).length ≤ fs.length := List.length_filterMap_le _ _

omit [Loggable α] in
theorem length_ofLoggedFields? {fs : Entries Json} {es : Entries α}
    (h : ofLoggedFields? fs = some es) : es.length = fs.length :=
  (List.Forall₂.length_eq (ofLoggedFields?_eq_some_iff.mp h)).symm

omit [Loggable α] in
theorem ofLoggedFields?_eq_decodable {fs : Entries Json} {es : Entries α}
    (h : ofLoggedFields? fs = some es) : es = decodable fs ↔
      ∀ f ∈ fs, (Coded.ofLogged? f.2 : Option α) = (Coded.ofJson? f.2).toOption := by
  induction fs generalizing es with
  | nil => simp_all [ofLoggedFields?, decodable]
  | cons f fs ih =>
    rw [ofLoggedFields?] at h
    split at h
    · rename_i x es' hx hes'
      simp only [Option.some.injEq] at h
      rw [← h, decodable_cons, List.forall_mem_cons, ← ih hes', hx]
      rcases Coded.ofJson? f.2 with e | y
      · -- one entry fewer than the log yields
        have hle := length_decodable_le (α := α) fs
        have hlen := length_ofLoggedFields? hes'
        refine ⟨fun heq => ?_, fun heq => ?_⟩
        · have := congrArg List.length heq
          simp only [List.length_cons] at this
          omega
        · simp [Except.toOption] at heq
      · simp [Except.toOption]
    · simp at h

omit [Coded α] [Loggable α] in
theorem map_values_eq_self {g : α → α} {ps : List (String × α)} :
    ps.map (fun p => (p.1, g p.2)) = ps ↔ ∀ p ∈ ps, g p.2 = p.2 := by
  induction ps with
  | nil => simp
  | cons p ps ih =>
    simp only [List.map_cons, List.cons.injEq, List.forall_mem_cons, ih, Prod.ext_iff, true_and]

/-- **The pairs of a collection come back from a log exactly when the collection is kept.** -/
theorem normalize_logged_iff {same : α → Prop} (hsame : ∀ x, Loggable.logged x = x ↔ same x)
    {c : Keyed α} : c.logged.normalize = c.normalize ↔ c.Kept same := by
  cases c with
  | map es =>
    rw [logged, normalize, normalize, Kept, map_values_eq_self]
    simp only [hsame]
  | pairs ps =>
    rw [logged, normalize, normalize, Kept, map_values_eq_self]
    simp only [hsame]
  | object fs =>
    rw [logged, Kept]
    rcases hes : (ofLoggedFields? fs : Option (Entries α)) with _ | es
    · simp [ofLoggedFields?_eq_none.mp hes]
    · have hall : ¬ ∃ f ∈ fs, (Coded.ofLogged? f.2 : Option α) = none := by
        rw [← ofLoggedFields?_eq_none, hes]
        simp
      rw [normalize, normalize, ofLoggedFields?_eq_decodable hes, or_iff_right hall]

/-- A collection of values that a log does not change comes back as it is, unless it is an object
whose entries all decode from the log. -/
theorem logged_eq_iff (hvalue : ∀ x : α, Loggable.logged x = x) {c : Keyed α} :
    c.logged = c ↔
      ∀ fs, c = .object fs → ∃ f ∈ fs, (Coded.ofLogged? f.2 : Option α) = none := by
  cases c with
  | map es => simp [logged, hvalue]
  | pairs ps => simp [logged, hvalue]
  | object fs =>
    simp only [logged, object.injEq, forall_eq']
    rw [← ofLoggedFields?_eq_none]
    cases (ofLoggedFields? fs : Option (Entries α)) <;> simp

/-- Untyped values always decode, so a collection of them is never an object. -/
theorem ne_object_of_read {m : Medium} {node : Node} {c : Keyed Json}
    (h : Keyed.read m node = .ok c) (fs : Entries Json) : c ≠ .object fs := by
  obtain ⟨held, -, hc⟩ := exists_firstFit_of_read h
  cases hc with
  | map hes => exact nofun
  | pairs hps => exact nofun
  | object hes hfs => exact absurd (hes.symm.trans hfs) nofun

end Keyed

end FrameScope
