import FrameScope.Proofs.Amount

/-!
# The order of amounts

Amounts are compared by how many digits they have and then digit by digit from the left. Digits are
canonical, so more of them make a greater number, and as many of them are in the order of their
numbers: amounts are compared as the numbers they denote (`Amount.compare_eq`). That order is total,
and sorting brings the numbers in order (`Amount.compare_numeric`).
-/

namespace FrameScope

namespace Decimal

theorem compare_digits {c d : Char} (hc : c.isDigit = true) (hd : d.isDigit = true) :
    compare c d = compare (digitValue c) (digitValue d) := by
  have hchars : compare c d = compare c.toNat d.toNat := by
    show compareOfLessAndEq c d = compareOfLessAndEq c.toNat d.toNat
    simp only [compareOfLessAndEq, Char.lt_def, UInt32.lt_iff_toNat_lt, Char.toNat_inj.symm]
    rfl
  rw [hchars, toNat_eq_digitValue_add hc, toNat_eq_digitValue_add hd, Nat.compare_eq_ite_lt,
    Nat.compare_eq_ite_lt]
  simp only [Nat.add_lt_add_iff_right]

theorem compare_ten_mul_add {m n x y : Nat} (hx : x < 10) (hy : y < 10) :
    compare (10 * m + x) (10 * n + y) = (compare m n).then (compare x y) := by
  rcases Nat.lt_trichotomy m n with h | rfl | h
  · rw [Nat.compare_eq_lt.mpr h, Ordering.lt_then]
    exact Nat.compare_eq_lt.mpr (by omega)
  · rw [Nat.compare_eq_eq.mpr rfl, Ordering.eq_then, Nat.compare_eq_ite_lt, Nat.compare_eq_ite_lt]
    simp only [Nat.add_lt_add_iff_left]
  · rw [Nat.compare_eq_gt.mpr h, Ordering.gt_then]
    exact Nat.compare_eq_gt.mpr (by omega)

theorem compare_foldl {ds es : List Char} (hds : AllDigits ds) (hes : AllDigits es)
    (hlength : ds.length = es.length) (m n : Nat) :
    compare (ds.foldl (fun n c => 10 * n + digitValue c) m)
        (es.foldl (fun n c => 10 * n + digitValue c) n) =
      (compare m n).then (List.compareLex compare ds es) := by
  induction ds generalizing es m n with
  | nil =>
    obtain rfl := List.eq_nil_of_length_eq_zero hlength.symm
    rw [List.compareLex_nil_nil, Ordering.then_eq, List.foldl_nil, List.foldl_nil]
  | cons d ds ih =>
    cases es with
    | nil => exact absurd hlength (by simp)
    | cons e es =>
      obtain ⟨hd, hds⟩ := List.forall_mem_cons.mp hds
      obtain ⟨he, hes⟩ := List.forall_mem_cons.mp hes
      rw [List.foldl_cons, List.foldl_cons, ih hds hes (by simpa using hlength),
        compare_ten_mul_add (digitValue_lt hd) (digitValue_lt he), List.compareLex_cons_cons,
        compare_digits hd he, Ordering.then_assoc]

theorem compareLex_eq {ds es : List Char} (hds : AllDigits ds) (hes : AllDigits es)
    (hlength : ds.length = es.length) :
    List.compareLex compare ds es = compare (value ds) (value es) :=
  (compare_foldl hds hes hlength 0 0).symm

theorem value_lt_of_length_lt {ds es : List Char} (hds : CanonicalDigits ds)
    (hes : CanonicalDigits es) (hlength : ds.length < es.length) : value ds < value es := by
  by_contra hle
  have hdigits := length_ofNat_le (Nat.le_of_not_lt hle)
  rw [ofNat_value hds, ofNat_value hes] at hdigits
  omega

end Decimal

namespace Amount

/-- **Amounts are compared as the numbers they denote.** -/
theorem compare_eq (a b : Amount) : compare a b = compare a.toNat b.toNat := by
  show (compare a.digits.length b.digits.length).then
    (List.compareLex compare a.digits b.digits) = _
  rcases Nat.lt_trichotomy a.digits.length b.digits.length with h | h | h
  · rw [Nat.compare_eq_lt.mpr h, Ordering.lt_then]
    exact (Nat.compare_eq_lt.mpr (Decimal.value_lt_of_length_lt a.canonical b.canonical h)).symm
  · rw [Nat.compare_eq_eq.mpr h, Ordering.eq_then]
    exact Decimal.compareLex_eq a.canonical.1 b.canonical.1 h
  · rw [Nat.compare_eq_gt.mpr h, Ordering.gt_then]
    exact (Nat.compare_eq_gt.mpr (Decimal.value_lt_of_length_lt b.canonical a.canonical h)).symm

theorem isLE_compare {a b : Amount} : (compare a b).isLE = true ↔ a.toNat ≤ b.toNat := by
  rw [compare_eq, Nat.isLE_compare]

instance : Std.TransOrd Amount where
  eq_swap {a b} := by
    rw [compare_eq, compare_eq b a]
    exact Std.OrientedCmp.eq_swap
  isLE_trans hab hbc := by
    rw [isLE_compare] at hab hbc ⊢
    exact Nat.le_trans hab hbc

instance : Std.LawfulEqOrd Amount where
  compare_self {a} := by rw [compare_eq, Nat.compare_eq_eq]
  eq_of_compare h := by rwa [compare_eq, Nat.compare_eq_eq, toNat_inj] at h

theorem pairwise_sort (as : List Amount) : (sort as).Pairwise fun x y => x.toNat ≤ y.toNat := by
  have hsorted : (sort as).Pairwise fun x y => (compare x y).isLE = true := by
    refine List.pairwise_mergeSort (fun _ _ _ => Std.TransCmp.isLE_trans) (fun x y => ?_) as
    rw [Bool.or_eq_true, isLE_compare, isLE_compare]
    exact Nat.le_total _ _
  exact hsorted.imp isLE_compare.mp

/-- **The order of amounts is the order of their numbers**: it is total, amounts are alike in it
only when they are equal, and sorting keeps all amounts and brings their numbers in order. -/
theorem compare_numeric (a b : Amount) (as : List Amount) :
    compare a b = compare a.toNat b.toNat ∧ (compare a b = .eq ↔ a = b) ∧ Std.TransOrd Amount ∧
      (sort as).Perm as ∧ (sort as).Pairwise fun x y => x.toNat ≤ y.toNat :=
  ⟨compare_eq a b, Std.compare_eq_iff_eq, inferInstance, List.mergeSort_perm _ _, pairwise_sort as⟩

end Amount

end FrameScope
