import FrameScope.Proofs.Decimal.Shortest
import FrameScope.Proofs.Json.Number

/-!
# Floating point numbers as documents spell them

A finite number of 64 bits is spelled as a number that is no integer and reads back as the number it
spells (`exists_ofBinary64?`), so its spelling stands for it (`view_of_ofBinary64?`).
-/

namespace FrameScope

namespace Number

open Decimal

/-- The digits of a spelling as one number. -/
def coefficient (n : Number) : Nat := value (n.whole ++ n.fraction)

/-- The power of ten that the digits are multiplied by. -/
def scale (n : Number) : Int :=
  (match n.exponent with
    | none => 0
    | some (true, ds) => -(value ds : Int)
    | some (false, ds) => value ds) - n.fraction.length

theorem toBinary64_eq (n : Number) : n.toBinary64 = .nearest n.negative n.coefficient n.scale := rfl

/-- The sign in front of a spelling. -/
def signChars (negative : Bool) : List Char := if negative then ['-'] else []

/-- A number with a point or an exponent that is spelled as a sign and a magnitude. -/
structure Spells (n : Number) (negative : Bool) (magnitude : List Char) : Prop where
  valid : n.Valid
  isInteger_eq : n.isInteger = false
  negative_eq : n.negative = negative
  chars_eq : n.chars = signChars negative ++ magnitude

theorem exponentChars_power (e : Int) :
    exponentChars (some (decide (e < 0), Decimal.ofNat e.natAbs)) =
      'e' :: if e < 0 then '-' :: Decimal.ofNat e.natAbs else '+' :: Decimal.ofNat e.natAbs := by
  by_cases he : e < 0 <;> simp [exponentChars, he]

theorem exists_spells_scientific {ds : List Char} (negative : Bool) (hds : AllDigits ds) (hne : ds ≠ [])
    (e : Int) : ∃ n : Number, n.Spells negative (FloatStyle.document.scientific ds e) ∧
      n.coefficient = value ds ∧ n.scale = e - (ds.length - 1) := by
  obtain ⟨d, rest, rfl⟩ := List.exists_cons_of_ne_nil hne
  have hrest : AllDigits rest := fun c hc => hds c (List.mem_cons_of_mem _ hc)
  refine ⟨⟨negative, [d], rest, some (decide (e < 0), Decimal.ofNat e.natAbs)⟩, ⟨⟨?whole, hrest, ?exponent⟩,
    ?integer, rfl, ?chars⟩, rfl, ?scale⟩
  case whole => exact ⟨fun c hc => hds c (by simp_all), by simp, fun hzero => by simpa using hzero⟩
  case exponent =>
    intro s ds h
    simp only [Option.some.injEq, Prod.mk.injEq] at h
    exact h.2 ▸ ⟨allDigits_ofNat _, Nat.toDigits_ne_nil⟩
  case integer => simp [isInteger]
  case chars =>
    rw [chars_eq]
    dsimp only
    rw [exponentChars_power]
    cases rest <;> simp [signChars, FloatStyle.scientific, FloatStyle.document]
  case scale =>
    by_cases he : e < 0
    · simp only [scale, he, decide_true, value_ofNat, List.length_cons]
      omega
    · simp only [scale, he, decide_false, value_ofNat, List.length_cons]
      omega

theorem exists_spells_positional {ds : List Char} (negative : Bool) (hds : AllDigits ds) (hne : ds ≠ [])
    (hhead : ds.head? ≠ some '0') (point : Int) :
    ∃ n : Number, n.Spells negative (FloatStyle.document.positional ds point) ∧
      (n.coefficient = value ds ∧ n.scale = point - ds.length ∨
        ∃ k : Nat, point = ds.length + k ∧ n.coefficient = value ds * Nat.pow 10 k * 10 ∧ n.scale = -1) := by
  have hzero : CanonicalDigits ['0'] := ⟨by simp [AllDigits], by simp, fun _ => rfl⟩
  have hlen : 0 < ds.length := List.length_pos_iff.mpr hne
  unfold FloatStyle.positional
  split
  · rename_i p
    split
    · rename_i hp
      refine ⟨⟨negative, ['0'], ds, none⟩, ⟨⟨hzero, hds, by simp⟩, by simp [isInteger, hne], rfl, ?_⟩,
        .inl ⟨value_zeros_append 1 ds, ?_⟩⟩
      · simp [chars_eq, signChars, hne, exponentChars]
      · simp [scale, hp]
    · split
      · rename_i hp hle
        obtain ⟨k, rfl⟩ := Nat.exists_eq_add_of_le hle
        refine ⟨⟨negative, ds ++ List.replicate k '0', ['0'], none⟩, ⟨⟨⟨?_, by simp [hne], ?_⟩,
          hzero.1, by simp⟩, by simp [isInteger], rfl, ?_⟩, .inr ⟨k, rfl, ?_, by simp [scale]⟩⟩
        · exact allDigits_append.mpr ⟨hds, allDigits_zeros k⟩
        · intro h
          rw [List.head?_append, List.head?_eq_some_head hne, Option.some_or,
            ← List.head?_eq_some_head hne] at h
          exact absurd h hhead
        · simp [chars_eq, signChars, exponentChars, FloatStyle.document]
        · rw [coefficient, value_append_singleton, value_append_zeros]
          exact Nat.mul_comm 10 _
      · rename_i hp hlt
        have hdrop : ds.drop p ≠ [] := by simp; omega
        refine ⟨⟨negative, ds.take p, ds.drop p, none⟩, ⟨⟨⟨?_, ?_, ?_⟩, ?_, by simp⟩, ?_, rfl, ?_⟩,
          .inl ⟨?_, ?_⟩⟩
        · exact fun c hc => hds c (List.mem_of_mem_take hc)
        · simp [hne, hp]
        · intro h
          rw [List.head?_take, if_neg hp] at h
          exact absurd h hhead
        · exact fun c hc => hds c (List.mem_of_mem_drop hc)
        · simp [isInteger, hdrop]
        · simp [chars_eq, signChars, exponentChars, hdrop]
        · rw [coefficient, List.take_append_drop]
        · simp [scale]
          omega
  · rename_i p
    refine ⟨⟨negative, ['0'], List.replicate (p + 1) '0' ++ ds, none⟩, ⟨⟨hzero, ?_, by simp⟩,
      by simp [isInteger], rfl, ?_⟩, .inl ⟨?_, ?_⟩⟩
    · exact allDigits_append.mpr ⟨allDigits_zeros _, hds⟩
    · simp [chars_eq, signChars, exponentChars]
    · rw [coefficient, ← List.append_assoc]
      exact value_zeros_append (p + 2) ds
    · simp [scale]
      omega

/-- A magnitude of finite rank is spelled as a number that reads back, with either sign. -/
theorem exists_spells_magnitude (s : Bool) {rank : Nat} (h : rank < Binary64.rankCount) :
    ∃ n : Number, n.Spells s (FloatStyle.document.magnitude rank) ∧ n.toBinary64 = .finite s rank := by
  have hback := Binary64.nearest_shortest s h
  unfold FloatStyle.magnitude
  dsimp only
  generalize Binary64.shortest rank = d at hback ⊢
  split
  · rename_i hzero
    rw [hzero, Binary64.nearest_zero] at hback
    refine ⟨⟨s, ['0'], ['0'], none⟩, ⟨⟨⟨by simp [AllDigits], by simp, fun _ => rfl⟩, by simp [AllDigits],
      by simp⟩, by simp [isInteger], rfl, ?_⟩, ?_⟩
    · simp [chars_eq, signChars, exponentChars, FloatStyle.document]
    · rw [← hback, toBinary64_eq]
      exact Binary64.nearest_zero s _
  · rename_i hne
    have hds := allDigits_ofNat d.coefficient
    have hnil : Decimal.ofNat d.coefficient ≠ [] := Nat.toDigits_ne_nil
    have hhead := head?_ofNat (Nat.pos_of_ne_zero hne)
    have hvalue := value_ofNat d.coefficient
    generalize Decimal.ofNat d.coefficient = ds at hds hnil hhead hvalue ⊢
    split
    · obtain ⟨n, hn, hc, hscale⟩ := exists_spells_scientific s hds hnil (ds.length + d.scale - 1)
      refine ⟨n, hn, ?_⟩
      have hsame : n.scale = d.scale := by omega
      rw [toBinary64_eq, hn.negative_eq, hc, hvalue, hsame, hback]
    · rename_i hlow
      obtain ⟨n, hn, ⟨hc, hscale⟩ | ⟨k, hk, hc, hscale⟩⟩ :=
        exists_spells_positional s hds hnil hhead (ds.length + d.scale)
      · refine ⟨n, hn, ?_⟩
        have hsame : n.scale = d.scale := by omega
        rw [toBinary64_eq, hn.negative_eq, hc, hvalue, hsame, hback]
      · refine ⟨n, hn, ?_⟩
        have hsame : d.scale = .ofNat k := by simpa using hk
        have hreach : k ≤ Binary64.decimalReach := by
          simp [FloatStyle.document] at hlow
          simp only [Binary64.decimalReach]
          omega
        rw [toBinary64_eq, hn.negative_eq, hc, hvalue, hscale, ← hback, hsame]
        exact Binary64.nearest_expand s _ hreach

/-- **A finite number of 64 bits is spelled as a number that reads back.** -/
theorem exists_ofBinary64? (s : Bool) {rank : Nat} (h : rank < Binary64.rankCount) :
    ∃ n, ofBinary64? (.finite s rank) = some n ∧ n.isInteger = false ∧
      n.toBinary64 = .finite s rank ∧ n.text = FloatStyle.document.text (.finite s rank) := by
  obtain ⟨n, hn, hback⟩ := exists_spells_magnitude s h
  have htext : FloatStyle.document.text (.finite s rank) = n.text := by
    rw [FloatStyle.text, text, hn.chars_eq, signChars]
    cases s <;> rfl
  refine ⟨n, ?_, hn.isInteger_eq, hback, htext.symm⟩
  rw [ofBinary64?, htext, toList_text, ofText?_chars hn.valid]

theorem rank_lt_of_toBinary64 {n : Number} {s : Bool} {rank : Nat} (h : n.toBinary64 = .finite s rank) :
    rank < Binary64.rankCount :=
  (Binary64.nearest_eq_finite h).2.1

theorem view_of_ofBinary64? {n : Number} {s : Bool} {rank : Nat} (h : rank < Binary64.rankCount)
    (hn : ofBinary64? (.finite s rank) = some n) : n.view = .float (.finite s rank) := by
  obtain ⟨m, hm, hinteger, hback, htext⟩ := exists_ofBinary64? s h
  obtain rfl := Option.some.inj (hm.symm.trans hn)
  have hint : m.toInt? = none := by simp [toInt?, hinteger]
  simp [view, int64?, hint, view.ofFloat, float?, hback, htext]

end Number

/-- What the digits of a number can stand for. -/
def Binary64.Readable : Binary64 → Prop
  | .finite _ rank => rank < rankCount
  | .infinite _ => True
  | .nan => False

def Binary64.isFinite : Binary64 → Bool
  | .finite .. => true
  | _ => false

theorem Binary64.readable_nearest (s : Bool) (c : Nat) (scale : Int) :
    (nearest s c scale).Readable := by
  cases h : nearest s c scale with
  | finite t rank => exact (nearest_eq_finite h).2.1
  | infinite t => trivial
  | nan =>
    rcases nearest_cases c scale with hzero | hinfinite | ⟨rank, hrank⟩
    · simp [hzero] at h
    · simp [hinfinite] at h
    · rw [hrank, ofRank] at h
      split at h <;> simp at h

theorem Number.readable_toBinary64 (n : Number) : n.toBinary64.Readable :=
  Binary64.readable_nearest _ _ _

end FrameScope
