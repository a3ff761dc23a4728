import FrameScope.Proofs.Decimal.Digits
import Mathlib.Data.List.TakeWhile

/-!
# Spellings of numbers

`Number.Valid`: the parts of a number as a text can spell them. Scanning yields only valid numbers
(`valid_of_scan`), and a valid number is scanned back from its spelling, whatever text follows that
does not go on with the number (`scan_chars_append`). What stands behind a number never changes
what is scanned (`scan_append`).
-/

namespace FrameScope

namespace Number

/-- A text that cannot go on with a number. -/
def Stops (cs : List Char) : Prop :=
  ∀ c ∈ cs.head?, c.isDigit = false ∧ c ≠ '.' ∧ c ≠ 'e' ∧ c ≠ 'E' ∧ c ≠ '+' ∧ c ≠ '-'

@[simp] theorem stops_nil : Stops [] := by simp [Stops]

/-- The parts of a number that a text can spell. -/
structure Valid (n : Number) : Prop where
  whole : CanonicalDigits n.whole
  fraction : Decimal.AllDigits n.fraction
  exponent : ∀ negative ds, n.exponent = some (negative, ds) → Decimal.AllDigits ds ∧ ds ≠ []

/-! ### Digits -/

theorem spanDigits_append {cs tail : List Char} (htail : ∀ c ∈ tail.head?, c.isDigit = false) :
    spanDigits (cs ++ tail) = ((spanDigits cs).1, (spanDigits cs).2 ++ tail) := by
  induction cs with
  | nil =>
    cases tail with
    | nil => rfl
    | cons c tail => simp [spanDigits, htail c (by simp)]
  | cons c cs ih =>
    simp only [spanDigits, Prod.mk.injEq, List.cons_append] at ih ⊢
    by_cases hc : c.isDigit
    · simpa [hc] using ih
    · simp [hc]

theorem spanDigits_digits {ds tail : List Char} (hds : Decimal.AllDigits ds)
    (htail : ∀ c ∈ tail.head?, c.isDigit = false) : spanDigits (ds ++ tail) = (ds, tail) := by
  have htake : ds.takeWhile Char.isDigit = ds := List.takeWhile_eq_self_iff.mpr hds
  have hdrop : ds.dropWhile Char.isDigit = [] := List.dropWhile_eq_nil_iff.mpr hds
  rw [spanDigits_append htail, spanDigits, htake, hdrop, List.nil_append]

theorem allDigits_spanDigits (cs : List Char) : Decimal.AllDigits (spanDigits cs).1 :=
  fun _ hc => List.mem_takeWhile_imp hc

/-! ### The parts of a number in front of a text -/

theorem scanWhole_append {cs tail : List Char} (htail : ∀ c ∈ tail.head?, c.isDigit = false) :
    scanWhole (cs ++ tail) = (scanWhole cs).map fun p => (p.1, p.2 ++ tail) := by
  rw [scanWhole, scanWhole, spanDigits_append htail]
  rcases spanDigits cs with ⟨ds, rest⟩
  split <;> simp_all

theorem scanWhole_digits {ds tail : List Char} (hds : CanonicalDigits ds)
    (htail : ∀ c ∈ tail.head?, c.isDigit = false) : scanWhole (ds ++ tail) = some (ds, tail) := by
  obtain ⟨hall, hne, hzero⟩ := hds
  rw [scanWhole, spanDigits_digits hall htail]
  split
  next heq => simp_all
  next heq => simp_all
  next heq =>
    simp only [Prod.mk.injEq] at heq
    simp [heq.1] at hzero
  next heq => simp_all

theorem canonicalDigits_of_scanWhole {cs ds rest : List Char} (h : scanWhole cs = some (ds, rest)) :
    CanonicalDigits ds := by
  have hall := allDigits_spanDigits cs
  rw [scanWhole] at h
  split at h
  next => simp at h
  next heq =>
    simp only [Option.some.injEq, Prod.mk.injEq] at h
    rw [heq] at hall
    rw [← h.1]
    exact ⟨hall, by simp, fun _ => rfl⟩
  next => simp at h
  next ds' rest' hnil hzero hmore heq =>
    simp only [Option.some.injEq, Prod.mk.injEq] at h
    obtain ⟨rfl, rfl⟩ := h
    rw [heq] at hall
    refine ⟨hall, fun hds => hnil hds, fun hhead => ?_⟩
    cases ds' with
    | nil => simp at hhead
    | cons c more =>
      simp only [List.head?_cons, Option.some.injEq] at hhead
      subst hhead
      cases more with
      | nil => rfl
      | cons d more => exact (hmore d more rfl).elim

theorem scanFraction_append {cs tail : List Char} (htail : Stops tail) :
    scanFraction (cs ++ tail) = (scanFraction cs).map fun p => (p.1, p.2 ++ tail) := by
  have hdigit : ∀ c ∈ tail.head?, c.isDigit = false := fun c hc => (htail c hc).1
  cases cs with
  | nil =>
    cases tail with
    | nil => rfl
    | cons c tail =>
      have hc : c ≠ '.' := (htail c (by simp)).2.1
      simp [scanFraction, hc]
  | cons c cs =>
    by_cases hc : c = '.'
    · subst hc
      simp only [List.cons_append, scanFraction, spanDigits_append hdigit]
      rcases spanDigits cs with ⟨ds, rest⟩
      cases ds <;> simp
    · simp [scanFraction, hc]

theorem allDigits_of_scanFraction {cs ds rest : List Char}
    (h : scanFraction cs = some (ds, rest)) : Decimal.AllDigits ds := by
  unfold scanFraction at h
  split at h
  · rename_i cs
    have hall := allDigits_spanDigits cs
    split at h
    · simp at h
    · rename_i heq
      simp only [Option.some.injEq, Prod.mk.injEq] at h
      rw [heq, h.1] at hall
      exact hall
  · simp only [Option.some.injEq, Prod.mk.injEq] at h
    rw [← h.1]
    simp [Decimal.AllDigits]

theorem scanPower_append {negative : Bool} {cs tail : List Char}
    (htail : ∀ c ∈ tail.head?, c.isDigit = false) :
    scanPower negative (cs ++ tail) =
      (scanPower negative cs).map fun p => (p.1, p.2 ++ tail) := by
  rw [scanPower, scanPower, spanDigits_append htail]
  rcases spanDigits cs with ⟨ds, rest⟩
  cases ds <;> simp

theorem scanPower_digits {negative : Bool} {ds tail : List Char} (hds : Decimal.AllDigits ds)
    (hne : ds ≠ []) (htail : ∀ c ∈ tail.head?, c.isDigit = false) :
    scanPower negative (ds ++ tail) = some (some (negative, ds), tail) := by
  rw [scanPower, spanDigits_digits hds htail]
  cases ds with
  | nil => exact absurd rfl hne
  | cons d ds => rfl

theorem allDigits_of_scanPower {negative : Bool} {cs rest : List Char}
    {e : Option (Bool × List Char)} (h : scanPower negative cs = some (e, rest)) :
    ∃ ds, e = some (negative, ds) ∧ Decimal.AllDigits ds ∧ ds ≠ [] := by
  have hall := allDigits_spanDigits cs
  rw [scanPower] at h
  split at h
  · simp at h
  · rename_i ds rest' hne heq
    simp only [Option.some.injEq, Prod.mk.injEq] at h
    rw [heq] at hall
    exact ⟨ds, h.1.symm, hall, fun hds => hne hds⟩

theorem scanExponent_append {cs tail : List Char} (htail : Stops tail) :
    scanExponent (cs ++ tail) = (scanExponent cs).map fun p => (p.1, p.2 ++ tail) := by
  have hdigit : ∀ c ∈ tail.head?, c.isDigit = false := fun c hc => (htail c hc).1
  cases cs with
  | nil =>
    cases tail with
    | nil => rfl
    | cons c tail =>
      obtain ⟨-, -, he, hE, -, -⟩ := htail c (by simp)
      simp [scanExponent, he, hE]
  | cons c cs =>
    by_cases hc : c = 'e' ∨ c = 'E'
    · simp only [List.cons_append, scanExponent, hc, if_true]
      cases cs with
      | nil =>
        -- the mark ends the text: no sign and no digit may come from the tail
        cases tail with
        | nil => simp [scanPower, spanDigits]
        | cons d tail =>
          obtain ⟨hd, -, -, -, hplus, hminus⟩ := htail d (by simp)
          simp [hplus, hminus, scanPower, spanDigits, hd]
      | cons d cs =>
        by_cases hplus : d = '+'
        · subst hplus; exact scanPower_append hdigit
        · by_cases hminus : d = '-'
          · subst hminus; exact scanPower_append hdigit
          · have h : scanPower false (d :: cs ++ tail) = _ := scanPower_append hdigit
            simpa [hplus, hminus] using h
    · simp [scanExponent, hc]

theorem allDigits_of_scanExponent {cs rest : List Char} {e : Option (Bool × List Char)}
    (h : scanExponent cs = some (e, rest)) (negative : Bool) (ds : List Char)
    (he : e = some (negative, ds)) : Decimal.AllDigits ds ∧ ds ≠ [] := by
  have hpower {b : Bool} {cs : List Char} (h : scanPower b cs = some (e, rest)) :
      Decimal.AllDigits ds ∧ ds ≠ [] := by
    obtain ⟨ds', he', hds⟩ := allDigits_of_scanPower h
    rw [he] at he'
    simp only [Option.some.injEq, Prod.mk.injEq] at he'
    rw [he'.2]
    exact hds
  unfold scanExponent at h
  split at h
  · split at h
    · split at h <;> exact hpower h
    · simp [he] at h
  · simp [he] at h

/-! ### Whole numbers -/

theorem scanMagnitude_append {negative : Bool} {cs tail : List Char} (htail : Stops tail) :
    scanMagnitude negative (cs ++ tail) =
      (scanMagnitude negative cs).map fun p => (p.1, p.2 ++ tail) := by
  have hdigit : ∀ c ∈ tail.head?, c.isDigit = false := fun c hc => (htail c hc).1
  simp only [scanMagnitude, scanWhole_append hdigit]
  rcases scanWhole cs with _ | ⟨whole, cs⟩
  · rfl
  simp only [Option.map_some, Option.bind_eq_bind, Option.bind_some, scanFraction_append htail]
  rcases scanFraction cs with _ | ⟨fraction, cs⟩
  · rfl
  simp only [Option.map_some, Option.bind_some, scanExponent_append htail]
  rcases scanExponent cs with _ | ⟨exponent, cs⟩ <;> rfl

theorem scan_append {cs tail : List Char} (htail : Stops tail) :
    scan (cs ++ tail) = (scan cs).map fun p => (p.1, p.2 ++ tail) := by
  cases cs with
  | nil =>
    cases tail with
    | nil => rfl
    | cons c tail =>
      obtain ⟨hd, -, -, -, -, hminus⟩ := htail c (by simp)
      simp [scan, hminus, scanMagnitude, scanWhole, spanDigits, hd]
  | cons c cs =>
    by_cases hc : c = '-'
    · subst hc; exact scanMagnitude_append htail
    · have h : scanMagnitude false (c :: cs ++ tail) = _ := scanMagnitude_append htail
      simpa [scan, hc] using h

theorem valid_of_scanMagnitude {negative : Bool} {cs rest : List Char} {n : Number}
    (h : scanMagnitude negative cs = some (n, rest)) : n.Valid := by
  simp only [scanMagnitude, Option.bind_eq_bind, Option.bind_eq_some_iff, Prod.exists,
    Option.some.injEq, Prod.mk.injEq] at h
  obtain ⟨whole, cs, hwhole, fraction, cs', hfraction, exponent, cs'', hexponent, rfl, -⟩ := h
  exact ⟨canonicalDigits_of_scanWhole hwhole, allDigits_of_scanFraction hfraction,
    fun negative ds => allDigits_of_scanExponent hexponent negative ds⟩

theorem valid_of_scan {cs rest : List Char} {n : Number} (h : scan cs = some (n, rest)) :
    n.Valid := by
  unfold scan at h
  split at h <;> exact valid_of_scanMagnitude h

theorem valid_of_ofText? {cs : List Char} {n : Number} (h : ofText? cs = some n) : n.Valid := by
  unfold ofText? at h
  split at h
  · rename_i hscan
    simp only [Option.some.injEq] at h
    subst h
    exact valid_of_scan hscan
  · simp at h

/-! ### Spelling and scanning -/

theorem scanFraction_spelled {ds tail : List Char} (hds : Decimal.AllDigits ds)
    (htail : ∀ c ∈ tail.head?, c.isDigit = false ∧ c ≠ '.') :
    scanFraction ((if ds = [] then [] else '.' :: ds) ++ tail) = some (ds, tail) := by
  cases ds with
  | nil =>
    cases tail with
    | nil => rfl
    | cons c tail => simp [scanFraction, (htail c (by simp)).2]
  | cons d ds =>
    have hspan : spanDigits (d :: (ds ++ tail)) = (d :: ds, tail) :=
      spanDigits_digits hds fun c hc => (htail c hc).1
    simp [scanFraction, hspan]

/-- The spelling of an exponent. -/
def exponentChars : Option (Bool × List Char) → List Char
  | none => []
  | some (negative, ds) => 'e' :: (if negative then '-' else '+') :: ds

theorem scanExponent_spelled {e : Option (Bool × List Char)} {tail : List Char}
    (he : ∀ negative ds, e = some (negative, ds) → Decimal.AllDigits ds ∧ ds ≠ [])
    (htail : Stops tail) : scanExponent (exponentChars e ++ tail) = some (e, tail) := by
  match e with
  | none =>
    cases tail with
    | nil => rfl
    | cons c tail =>
      obtain ⟨-, -, hmark, hMark, -⟩ := htail c (by simp)
      simp [exponentChars, scanExponent, hmark, hMark]
  | some (negative, ds) =>
    obtain ⟨hds, hne⟩ := he negative ds rfl
    have hpower : scanPower negative (ds ++ tail) = some (some (negative, ds), tail) :=
      scanPower_digits hds hne fun c hc => (htail c hc).1
    cases negative <;> simpa [exponentChars, scanExponent] using hpower

theorem chars_eq (n : Number) :
    n.chars = (if n.negative then ['-'] else []) ++ (n.whole ++
      ((if n.fraction = [] then [] else '.' :: n.fraction) ++ exponentChars n.exponent)) := by
  rcases h : n.exponent with _ | ⟨negative, ds⟩ <;> simp [chars, exponentChars, h]

theorem scan_chars_append {n : Number} (hn : n.Valid) {tail : List Char} (htail : Stops tail) :
    scan (n.chars ++ tail) = some (n, tail) := by
  have hexp := scanExponent_spelled hn.exponent htail
  have hexpHead : ∀ c ∈ (exponentChars n.exponent ++ tail).head?,
      c.isDigit = false ∧ c ≠ '.' := by
    intro c hc
    rcases h : n.exponent with _ | ⟨negative, ds⟩
    · rw [h] at hc; exact ⟨(htail c hc).1, (htail c hc).2.1⟩
    · simp only [h, exponentChars, List.cons_append, List.head?_cons, Option.mem_def,
        Option.some.injEq] at hc
      subst hc
      exact ⟨rfl, by decide⟩
  have hfraction := scanFraction_spelled hn.fraction hexpHead
  have hwhole : scanWhole (n.whole ++ ((if n.fraction = [] then [] else '.' :: n.fraction)
      ++ (exponentChars n.exponent ++ tail))) = some (n.whole, (if n.fraction = [] then [] else
        '.' :: n.fraction) ++ (exponentChars n.exponent ++ tail)) := by
    refine scanWhole_digits hn.whole fun c hc => ?_
    by_cases hf : n.fraction = []
    · simp only [hf, if_true, List.nil_append] at hc; exact (hexpHead c hc).1
    · simp only [hf, if_false, List.cons_append, List.head?_cons, Option.mem_def,
        Option.some.injEq] at hc
      subst hc
      rfl
  have hmagnitude (negative : Bool) : scanMagnitude negative (n.whole ++
      ((if n.fraction = [] then [] else '.' :: n.fraction) ++ (exponentChars n.exponent ++ tail)))
      = some (⟨negative, n.whole, n.fraction, n.exponent⟩, tail) := by
    simp only [scanMagnitude, hwhole, hfraction, hexp, Option.bind_eq_bind, Option.bind_some]
  rw [chars_eq]
  rcases n with ⟨negative, whole, fraction, exponent⟩
  cases negative with
  | true => simpa [scan] using hmagnitude true
  | false =>
    obtain ⟨hall, hne, -⟩ := hn.whole
    rcases whole with _ | ⟨c, whole⟩
    · exact absurd rfl hne
    have hc : c ≠ '-' := fun hc => by simpa [hc] using hall c (by simp)
    simpa [scan, hc] using hmagnitude false

theorem ofText?_chars {n : Number} (hn : n.Valid) : ofText? n.chars = some n := by
  have h := scan_chars_append hn stops_nil
  rw [List.append_nil] at h
  simp [ofText?, h]

@[simp] theorem toList_text (n : Number) : n.text.toList = n.chars := by simp [text]

/-! ### Integers -/

theorem valid_ofInt (i : Int) : (ofInt i).Valid :=
  ⟨Decimal.canonical_ofNat _, by simp [ofInt, Decimal.AllDigits], by simp [ofInt]⟩

theorem ofInt_of_toInt? {n : Number} (hn : n.Valid) {i : Int} (hi : n.toInt? = some i)
    (hzero : ¬ (i = 0 ∧ n.negative = true)) : ofInt i = n := by
  rcases n with ⟨negative, whole, fraction, exponent⟩
  have hwhole := Decimal.ofNat_value hn.whole
  simp only [toInt?, isInteger, Option.ite_none_right_eq_some, Bool.and_eq_true, beq_iff_eq,
    Option.some.injEq] at hi hwhole
  obtain ⟨⟨rfl, rfl⟩, rfl⟩ := hi
  cases negative with
  | false => simpa [ofInt] using hwhole
  | true =>
    have hpos : 0 < Decimal.value whole := by
      by_contra h
      exact hzero ⟨by simpa using h, rfl⟩
    simp only [if_true, ofInt, Int.natAbs_neg, Int.natAbs_natCast, hwhole, Number.mk.injEq,
      and_true, decide_eq_true_eq]
    omega

end Number

end FrameScope
