import FrameScope.Amount.Display
import FrameScope.Proofs.Amount
import Mathlib.Algebra.Field.Rat
import Mathlib.Data.List.DropRight
import Mathlib.Tactic.FieldSimp
import Mathlib.Tactic.NormNum

/-!
# Amounts with a point

An amount is split into whole and fractional digits without loss (`Amount.splits`). Its text in
fixed point is the whole digits in groups of three and the fraction without the zeros at its end
(`Amount.displays`). Without the commas that text is read as exactly the amount over its power of ten
(`Amount.ratOf?_fixedPoint`), so amounts that differ are shown differently
(`Amount.fixedPoint_exact`).
-/

namespace FrameScope

namespace Decimal

variable {text ds whole fraction : List Char}

/-- The number a decimal text denotes: digits, and perhaps a point with digits behind it. -/
def ratOf? (cs : List Char) : Option ℚ :=
  match cs.dropWhile (· ≠ '.') with
  | [] => (natOf? cs).map fun n => (n : ℚ)
  | _ :: fraction => do
    let whole ← natOf? (cs.takeWhile (· ≠ '.'))
    let part ← natOf? fraction
    return whole + part / 10 ^ fraction.length

/-- A fraction behind its point; no fraction has no point. -/
def pointed (fraction : List Char) : List Char :=
  if fraction = [] then [] else '.' :: fraction

theorem ne_of_isDigit {c d : Char} (hd : d.isDigit = false) (hc : c.isDigit = true) : c ≠ d := by
  rintro rfl
  rw [hc] at hd
  exact Bool.noConfusion hd

theorem natOf?_eq (hne : ds ≠ []) (hds : AllDigits ds) : natOf? ds = some (value ds) :=
  if_pos ⟨hne, hds⟩

/-- **Digits with a point are read as the whole number and the part of a power of ten.** -/
theorem ratOf?_pointed (hne : whole ≠ []) (hwhole : AllDigits whole) (hfraction : AllDigits fraction) :
    ratOf? (whole ++ pointed fraction) =
      some ((value whole : ℚ) + value fraction / 10 ^ fraction.length) := by
  have hbefore : ∀ c ∈ whole, decide (c ≠ '.') = true := fun c hc =>
    decide_eq_true (ne_of_isDigit rfl (hwhole c hc))
  rw [ratOf?, pointed, List.dropWhile_append_of_pos hbefore, List.takeWhile_append_of_pos hbefore]
  by_cases hnil : fraction = []
  · subst hnil
    rw [if_pos rfl, List.append_nil, List.dropWhile_nil, natOf?_eq hne hwhole]
    simp [value]
  · rw [if_neg hnil, List.dropWhile_cons_of_neg (by simp), List.takeWhile_cons_of_neg (by simp)]
    simp only [List.append_nil, natOf?_eq hne hwhole, natOf?_eq hnil hfraction]
    rfl

/-! ### Groups of three digits -/

/-- A text is digits in groups of three, only the first of which may be shorter; a comma stands
between groups and nowhere else. -/
def Grouped (text ds : List Char) : Prop :=
  ∃ (first : List Char) (groups : List (List Char)), text = first ++ groups.flatMap (',' :: ·) ∧
    ds = first ++ groups.flatten ∧ first ≠ [] ∧ first.length ≤ 3 ∧ ∀ g ∈ groups, g.length = 3

theorem Grouped.filter_eq (h : Grouped text ds) (hds : AllDigits ds) :
    text.filter (· ≠ ',') = ds := by
  obtain ⟨first, groups, rfl, rfl, -, -, -⟩ := h
  have hkept : ∀ cs : List Char, AllDigits cs → cs.filter (· ≠ ',') = cs := fun cs hcs =>
    List.filter_eq_self.mpr fun c hc => decide_eq_true (ne_of_isDigit rfl (hcs c hc))
  obtain ⟨hfirst, hgroups⟩ := allDigits_append.mp hds
  rw [List.filter_append, hkept first hfirst]
  congr 1
  clear hds
  induction groups with
  | nil => rfl
  | cons g groups ih =>
    obtain ⟨hg, hgroups⟩ := allDigits_append.mp hgroups
    rw [List.flatMap_cons, List.filter_append, ih hgroups, List.flatten_cons,
      List.filter_cons_of_neg (by simp), hkept g hg]

end Decimal

namespace Amount

open Decimal

theorem length_flatten_mod {groups : List (List Char)} (hgroups : ∀ g ∈ groups, g.length = 3) :
    groups.flatten.length % 3 = 0 := by
  induction groups with
  | nil => rfl
  | cons g groups ih =>
    obtain ⟨hg, hgroups⟩ := List.forall_mem_cons.mp hgroups
    have hrest := ih hgroups
    rw [List.flatten_cons, List.length_append]
    omega

/-- **Commas are put between groups of three digits, counted from the right.** -/
theorem grouped_groupThousands {ds : List Char} (hne : ds ≠ []) : Grouped (groupThousands ds) ds := by
  induction ds using groupThousands.induct with
  | case1 => exact absurd rfl hne
  | case2 c => exact ⟨[c], [], rfl, rfl, by simp, by simp, by simp⟩
  | case3 c d rest hfull ih =>
    -- the digits behind `c` fill their groups, so `c` is a group of its own
    obtain ⟨first, groups, htext, hds, hfirst, hle, hgroups⟩ := ih (by simp)
    have hlength := congrArg List.length hds
    have hmod := length_flatten_mod hgroups
    have hpos := List.length_pos_iff.mpr hfirst
    rw [List.length_append, List.length_cons] at hlength
    refine ⟨[c], first :: groups, ?_, ?_, by simp, by simp, ?_⟩
    · rw [groupThousands, if_pos hfull, htext]
      rfl
    · rw [hds]
      rfl
    · exact List.forall_mem_cons.mpr ⟨by omega, hgroups⟩
  | case4 c d rest hfull ih =>
    -- the first group behind `c` has room for it
    obtain ⟨first, groups, htext, hds, hfirst, hle, hgroups⟩ := ih (by simp)
    have hlength := congrArg List.length hds
    have hmod := length_flatten_mod hgroups
    rw [List.length_append, List.length_cons] at hlength
    refine ⟨c :: first, groups, ?_, ?_, by simp, ?_, hgroups⟩
    · rw [groupThousands, if_neg hfull, htext]
      rfl
    · rw [hds]
      rfl
    · rw [List.length_cons]
      omega

/-! ### Zeros at the end -/

theorem exists_eq_trimZeros (ds : List Char) :
    ∃ k, ds = trimZeros ds ++ List.replicate k '0' := by
  have hzero : ∀ c ∈ ds.rtakeWhile (· == '0'), c = '0' := fun c hc => by
    simpa using List.mem_rtakeWhile_imp hc
  refine ⟨(ds.rtakeWhile (· == '0')).length, ?_⟩
  rw [← List.eq_replicate_of_mem hzero]
  exact List.rdropWhile_append_rtakeWhile.symm

theorem getLast?_trimZeros (ds : List Char) : (trimZeros ds).getLast? ≠ some '0' := by
  intro hlast
  have hne : ds.rdropWhile (· == '0') ≠ [] := by
    intro hnil
    rw [show trimZeros ds = [] from hnil] at hlast
    exact absurd hlast (by simp)
  have hzero : (ds.rdropWhile (· == '0')).getLast hne = '0' :=
    Option.some.inj ((List.getLast?_eq_some_getLast hne).symm.trans hlast)
  exact List.rdropWhile_last_not (· == '0') ds hne (beq_iff_eq.mpr hzero)

/-! ### Splitting -/

/-- Whole digits and so many fractional ones that are worth a number together. -/
structure Splits (whole fraction : List Char) (decimals n : Nat) : Prop where
  canonical : CanonicalDigits whole
  digits : AllDigits fraction
  length_eq : fraction.length = decimals
  value_eq : value whole * 10 ^ decimals + value fraction = n

theorem canonical_take {ds : List Char} (h : CanonicalDigits ds) {k : Nat} (hk : 0 < k) :
    CanonicalDigits (ds.take k) := by
  obtain ⟨hall, hne, hlead⟩ := h
  refine ⟨fun c hc => hall c (List.mem_of_mem_take hc), ?_, fun hzero => ?_⟩
  · rw [ne_eq, List.take_eq_nil_iff]
    exact not_or.mpr ⟨by omega, hne⟩
  · rw [List.head?_take, if_neg (by omega)] at hzero
    rw [hlead hzero]
    exact List.take_of_length_le hk

/-- **An amount is its whole digits and its fractional digits.** -/
theorem splits (a : Amount) (decimals : Nat) :
    Splits (a.split decimals).1 (a.split decimals).2 decimals a.toNat := by
  rw [split]
  split
  next hlt =>
    rw [List.splitAt_eq]
    have hlength : (a.digits.drop (a.digits.length - decimals)).length = decimals := by
      rw [List.length_drop]
      omega
    refine ⟨canonical_take a.canonical (by omega),
      fun c hc => a.canonical.1 c (List.mem_of_mem_drop hc), hlength, ?_⟩
    have hvalue := value_append (a.digits.take (a.digits.length - decimals))
      (a.digits.drop (a.digits.length - decimals))
    rw [List.take_append_drop, hlength] at hvalue
    exact hvalue.symm
  next hle =>
    refine ⟨zero.canonical, allDigits_append.mpr ⟨allDigits_zeros _, a.canonical.1⟩, ?_, ?_⟩
    · rw [List.length_append, List.length_replicate]
      omega
    · rw [value_zeros_append, show value ['0'] = 0 from rfl, Nat.zero_mul, Nat.zero_add]
      rfl

/-! ### The text -/

/-- A text is whole digits in groups, and a fraction of at most so many digits that does not end in
zero, or none. -/
structure Displays (text whole fraction : List Char) (decimals : Nat) : Prop where
  grouped : ∃ grouped, Grouped grouped whole ∧ text = grouped ++ pointed fraction
  canonical : CanonicalDigits whole
  digits : AllDigits fraction
  length_le : fraction.length ≤ decimals
  trimmed : fraction.getLast? ≠ some '0'

theorem fixedPointDigits_eq (a : Amount) (decimals : Nat) : a.fixedPointDigits decimals =
    groupThousands (a.split decimals).1 ++ pointed (trimZeros (a.split decimals).2) := by
  rw [fixedPointDigits]
  dsimp only
  split
  next hnil => rw [hnil, pointed, if_pos rfl, List.append_nil]
  next hne => rw [pointed, if_neg hne]

theorem displays (a : Amount) (decimals : Nat) : Displays (a.fixedPointDigits decimals)
    (a.split decimals).1 (trimZeros (a.split decimals).2) decimals := by
  obtain ⟨hcanonical, hdigits, hlength, -⟩ := a.splits decimals
  obtain ⟨k, hk⟩ := exists_eq_trimZeros (a.split decimals).2
  refine ⟨⟨_, grouped_groupThousands hcanonical.2.1, fixedPointDigits_eq a decimals⟩, hcanonical,
    ?_, ?_, getLast?_trimZeros _⟩
  · rw [hk] at hdigits
    exact (allDigits_append.mp hdigits).1
  · rw [hk, List.length_append] at hlength
    omega

/-- Without its commas such a text is read as its whole number and its part of a power of ten. -/
theorem Displays.ratOf?_eq {text whole fraction : List Char} {decimals : Nat}
    (h : Displays text whole fraction decimals) : ratOf? (text.filter (· ≠ ',')) =
      some ((value whole : ℚ) + value fraction / 10 ^ fraction.length) := by
  obtain ⟨grouped, hgrouped, rfl⟩ := h.grouped
  have hpointed : (pointed fraction).filter (· ≠ ',') = pointed fraction := by
    refine List.filter_eq_self.mpr fun c hc => decide_eq_true ?_
    rw [pointed] at hc
    split at hc
    · exact absurd hc (by simp)
    · rcases List.mem_cons.mp hc with rfl | hdigit
      · decide
      · exact ne_of_isDigit rfl (h.digits c hdigit)
  rw [List.filter_append, hgrouped.filter_eq h.canonical.1, hpointed,
    ratOf?_pointed h.canonical.2.1 h.canonical.1 h.digits]

theorem Splits.div_eq {whole kept : List Char} {k decimals n : Nat}
    (h : Splits whole (kept ++ List.replicate k '0') decimals n) :
    (value whole : ℚ) + value kept / 10 ^ kept.length = (n : ℚ) / 10 ^ decimals := by
  obtain ⟨-, -, hlength, hvalue⟩ := h
  have hpow : Nat.pow 10 k = 10 ^ k := rfl
  rw [List.length_append, List.length_replicate] at hlength
  rw [value_append_zeros, hpow, ← hlength] at hvalue
  rw [← hvalue, ← hlength]
  push_cast
  rw [pow_add]
  field_simp

/-- **Without its commas the text is read as exactly the amount over its power of ten.** -/
theorem ratOf?_fixedPoint (a : Amount) (decimals : Nat) :
    ratOf? ((a.fixedPoint decimals).toList.filter (· ≠ ',')) =
      some ((a.toNat : ℚ) / 10 ^ decimals) := by
  have hsplits := a.splits decimals
  obtain ⟨k, hk⟩ := exists_eq_trimZeros (a.split decimals).2
  rw [fixedPoint, String.toList_ofList, (a.displays decimals).ratOf?_eq]
  generalize trimZeros (a.split decimals).2 = kept at hk ⊢
  rw [hk] at hsplits
  rw [hsplits.div_eq]

/-- **An amount is shown in fixed point exactly**: it is split without loss, the text has its commas
and its point in their places and no zeros too many, and it is read as the amount over its power of
ten; so amounts that differ are shown differently. -/
theorem fixedPoint_exact (a : Amount) (decimals : Nat) :
    Splits (a.split decimals).1 (a.split decimals).2 decimals a.toNat ∧
      (∃ whole fraction, Displays (a.fixedPoint decimals).toList whole fraction decimals) ∧
      ratOf? ((a.fixedPoint decimals).toList.filter (· ≠ ',')) =
        some ((a.toNat : ℚ) / 10 ^ decimals) ∧
      ∀ b : Amount, a.fixedPoint decimals = b.fixedPoint decimals ↔ a = b := by
  refine ⟨a.splits decimals, ?text, a.ratOf?_fixedPoint decimals, fun b => ⟨?distinct, fun h => ?same⟩⟩
  case text =>
    rw [fixedPoint, String.toList_ofList]
    exact ⟨_, _, a.displays decimals⟩
  case distinct =>
    -- both texts are read as the same number over the same power of ten
    intro h
    have hread := a.ratOf?_fixedPoint decimals
    rw [h, b.ratOf?_fixedPoint, Option.some.injEq, div_left_inj' (by positivity), Nat.cast_inj] at hread
    exact (toNat_inj.mp hread).symm
  case same => rw [h]

example : (ofNat 1234500000).fixedPoint 6 = "1,234.5" := by decide +kernel

end Amount

end FrameScope
