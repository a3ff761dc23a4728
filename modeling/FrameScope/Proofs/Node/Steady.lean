import FrameScope.Collection.Keyed
import FrameScope.Proofs.Node.Plain
import FrameScope.Proofs.Node.Record

/-!
# Decoders that read plain documents alike

A decoder is steady (`Steady`) when it finds the same in a plain document held back and in the same
document as an untyped value. Scalars, untyped values and keyed collections are read steadily, and
so are lists, options and records of what is (`Steady.list`, `Steady.option`, `steady_record`).
-/

namespace FrameScope

open Node Read

variable {α β : Type} {d : Decoder α}

/-- Finds the same in a plain document held back and in an untyped value. -/
def Steady (d : Decoder α) : Prop :=
  ∀ v : Node, v.Plain → (d .buffered v.held).toOption = (d .value v).toOption

/-! ### Scalars and untyped values -/

theorem toNat?_of_toInt? {n : Number} {i : Int} (h : n.toInt? = some i)
    (hzero : ¬ (i = 0 ∧ n.negative = true)) :
    n.toNat? = if i < 0 then none else some i.toNat := by
  simp only [Number.toInt?, Option.ite_none_right_eq_some, Option.some.injEq] at h
  obtain ⟨hinteger, rfl⟩ := h
  cases hneg : n.negative with
  | false => simp [Number.toNat?, hinteger, hneg]
  | true =>
    have hpos : Decimal.value n.whole ≠ 0 := fun h => hzero (by simp [hneg, h])
    simp [Number.toNat?, hneg, Nat.pos_of_ne_zero hpos]

theorem steady_word : Steady word := by
  intro v hv
  cases v with
  | num n =>
    obtain ⟨-, i, hi, hzero⟩ := hv
    rw [held, hi, Option.getD_some, word, word, wordOfNumber,
      toNat?_of_toInt? (toInt?_of_int64? hi) hzero]
    by_cases hneg : i < 0
    · simp [hneg, Except.toOption]
    · have hlt : i < Word.size ↔ i.toNat < Word.size := by omega
      by_cases hsize : i.toNat < Word.size <;> simp [hneg, hlt, hsize, Except.toOption]
  | _ => rfl

theorem steady_text : Steady text := by
  intro v hv
  cases v with
  | bytes b => exact hv.elim
  | _ => rfl

theorem steady_json : Steady json := by
  intro v hv
  rw [json_held hv, json_of_plain hv, json_of_plain hv]

theorem steady_amount : Steady amount := by
  intro v hv
  rw [amount, amount, json_held hv, json_of_plain hv, json_of_plain hv]

theorem steady_keyed [Coded α] : Steady (Keyed.read : Decoder (Keyed α)) := by
  intro v hv
  rw [Keyed.read, Keyed.read, buffer_held hv, buffer_of_plain hv]

/-! ### Options and lists -/

theorem Steady.map (hd : Steady d) (f : α → β) : Steady fun m node => (d m node).map f := by
  intro v hv
  rw [toOption_map, toOption_map, hd v hv]

theorem Steady.option (hd : Steady d) : Steady (option d) := by
  intro v hv
  cases v with
  | null => rfl
  | _ => exact hd.map some _ hv

theorem Steady.items (hd : Steady d) {vs : List Node} (hvs : PlainItems vs) :
    (Read.items d .buffered (heldItems vs)).toOption = (Read.items d .value vs).toOption := by
  induction vs with
  | nil => rfl
  | cons v vs ih =>
    rw [heldItems, Read.items, Read.items]
    simp only [bind, toOption_bind, hd v hvs.1, ih hvs.2]

theorem Steady.list (hd : Steady d) : Steady (list d) := by
  intro v hv
  cases v with
  | seq vs => exact hd.items hv
  | _ => rfl

/-! ### Records -/

variable {σ : Type} {fields : List (Field σ)}

theorem fieldEntries_steady (hfields : ∀ f ∈ fields, Steady f.read) {es : List (Key × Node)}
    (hes : PlainEntries es) (seen : List String) (s : σ) :
    (fieldEntries fields .buffered seen s (heldEntries es)).toOption =
      (fieldEntries fields .value seen s es).toOption := by
  induction es generalizing seen s with
  | nil => rfl
  | cons e es ih =>
    obtain ⟨k, v⟩ := e
    obtain ⟨⟨name, rfl, -⟩, hv, hes⟩ := hes
    rw [heldEntries, fieldEntries, fieldEntries]
    rcases hfield : fieldOf? fields (.name name) with err | field?
    · rfl
    simp only [bind, Except.bind]
    cases field? with
    | none =>
      obtain ⟨hskip, hskip'⟩ := skip_of_plain hv
      simp only [hskip, hskip', ih hes]
    | some f =>
      have hf := hfields f (mem_of_fieldOf? hfield) v hv
      dsimp only
      split
      · rfl
      · have hbind := toOption_bind (f.read .value v) fun set =>
          fieldEntries fields .value (f.name :: seen) (set s) es
        have hbind' := toOption_bind (f.read .buffered v.held) fun set =>
          fieldEntries fields .buffered (f.name :: seen) (set s) (heldEntries es)
        simp only [Except.bind] at hbind hbind'
        rw [hbind, hbind', hf]
        simp only [ih hes]

theorem fieldItems_steady (hfields : ∀ f ∈ fields, Steady f.read) {vs : List Node}
    (hvs : PlainItems vs) (s : σ) :
    (fieldItems .buffered fields s (heldItems vs)).toOption =
      (fieldItems .value fields s vs).toOption := by
  induction fields generalizing vs s with
  | nil => cases vs <;> rfl
  | cons f fields ih =>
    have hrest : ∀ f ∈ fields, Steady f.read := fun f hf => hfields f (List.mem_cons_of_mem _ hf)
    cases vs with
    | nil =>
      rw [heldItems, fieldItems, fieldItems]
      split
      · rfl
      · have hnil : PlainItems [] := trivial
        exact ih hrest hnil s
    | cons v vs =>
      rw [heldItems, fieldItems, fieldItems]
      simp only [bind, toOption_bind, hfields f (by simp) v hvs.1, ih hrest hvs.2]

theorem steady_record (hfields : ∀ f ∈ fields, Steady f.read) (init : σ) :
    Steady (record fields init) := by
  intro v hv
  cases v with
  | map es =>
    have hes := fieldEntries_steady hfields hv.2 [] init
    rw [held, record, record, recordEntries, recordEntries]
    simp only [bind, toOption_bind, hes]
  | seq vs => exact fieldItems_steady hfields hv init
  | _ => rfl

end FrameScope
