import FrameScope.Amount.Basic
import Mathlib.Data.List.Induction

/-!
# Digits and the numbers they denote

Writing a number and reading it back are inverse to each other on canonical digits: `value_ofNat`,
`ofNat_value`. The digits of a number are canonical (`canonical_ofNat`), and a greater number has at
least as many of them (`length_ofNat_le`). Digits behind others shift these by as many places
(`value_append`), so zeros in front are worth nothing and zeros behind are a power of ten.
-/

namespace FrameScope.Decimal

theorem allDigits_append {as bs : List Char} :
    AllDigits (as ++ bs) ↔ AllDigits as ∧ AllDigits bs := by
  simp [AllDigits, or_imp, forall_and]

theorem value_append_singleton (ds : List Char) (d : Char) :
    value (ds ++ [d]) = 10 * value ds + digitValue d := by
  simp [value]

theorem value_append (as bs : List Char) :
    value (as ++ bs) = value as * Nat.pow 10 bs.length + value bs := by
  induction bs using List.reverseRecOn with
  | nil =>
    rw [List.append_nil]
    exact (Nat.mul_one (value as)).symm
  | append_singleton bs b ih =>
    have hpow : Nat.pow 10 (bs ++ [b]).length = 10 * Nat.pow 10 bs.length := by
      rw [List.length_append, List.length_singleton]
      exact Nat.pow_succ'
    rw [← List.append_assoc, value_append_singleton, ih, value_append_singleton, hpow, Nat.mul_add,
      Nat.mul_left_comm, Nat.add_assoc]

theorem value_zeros (k : Nat) : value (List.replicate k '0') = 0 := by
  induction k with
  | zero => rfl
  | succ k ih => rw [List.replicate_succ', value_append_singleton, ih]; rfl

theorem value_zeros_append (k : Nat) (ds : List Char) :
    value (List.replicate k '0' ++ ds) = value ds := by
  rw [value_append, value_zeros, Nat.zero_mul, Nat.zero_add]

theorem value_append_zeros (ds : List Char) (k : Nat) :
    value (ds ++ List.replicate k '0') = value ds * Nat.pow 10 k := by
  rw [value_append, value_zeros, List.length_replicate, Nat.add_zero]

theorem allDigits_zeros (k : Nat) : AllDigits (List.replicate k '0') := fun c hc => by
  rw [List.eq_of_mem_replicate hc]
  rfl

theorem isDigit_iff {c : Char} : c.isDigit = true ↔ 48 ≤ c.toNat ∧ c.toNat ≤ 57 := by
  simp only [Char.isDigit, Bool.and_eq_true, decide_eq_true_eq]
  exact Iff.rfl

theorem toNat_eq_digitValue_add {c : Char} (hc : c.isDigit = true) :
    c.toNat = digitValue c + 48 := by
  have hbounds := isDigit_iff.mp hc
  have hzero : '0'.toNat = 48 := rfl
  rw [digitValue, hzero]
  omega

theorem digitValue_lt {c : Char} (hc : c.isDigit = true) : digitValue c < 10 := by
  have hbounds := isDigit_iff.mp hc
  have hcode := toNat_eq_digitValue_add hc
  omega

theorem digitChar_digitValue {c : Char} (hc : c.isDigit = true) :
    Nat.digitChar (digitValue c) = c := by
  apply Char.toNat_inj.mp
  rw [Nat.toNat_digitChar_of_lt_ten (digitValue_lt hc), toNat_eq_digitValue_add hc, Nat.add_comm]

theorem value_ofNat (n : Nat) : value (ofNat n) = n := by
  have h := Nat.ofDigitChars_ten_toDigits (n := n)
  rwa [Nat.ofDigitChars_eq_foldl] at h

theorem allDigits_ofNat (n : Nat) : AllDigits (ofNat n) :=
  fun _ hc => Nat.isDigit_of_mem_toDigits (by decide) (by decide) hc

theorem ofNat_ten_mul_add {n d : Nat} (hn : 0 < n) (hd : d < 10) :
    ofNat (10 * n + d) = ofNat n ++ [Nat.digitChar d] := by
  rw [ofNat, ← Nat.toDigits_append_toDigits (by decide) hn hd, Nat.toDigits_of_lt_base hd, ofNat]

theorem value_pos {ds : List Char} (h : CanonicalDigits ds) (hzero : ds ≠ ['0']) :
    0 < value ds := by
  induction ds using List.reverseRecOn with
  | nil => exact absurd rfl h.2.1
  | append_singleton ds d ih =>
    obtain ⟨hall, -, hlead⟩ := h
    obtain ⟨hds, hd⟩ := allDigits_append.mp hall
    rw [value_append_singleton]
    cases ds with
    | nil =>
      have hchar := digitChar_digitValue (hd d (by simp))
      have hne : digitValue d ≠ 0 := fun h0 => hzero (by rw [← hchar, h0]; rfl)
      omega
    | cons c ds =>
      -- the leading digit of the front is no zero, so the front is canonical too
      have hc : c ≠ '0' := fun hc => by simpa [hc] using hlead (by simp [hc])
      have hpos := ih ⟨hds, by simp, fun h0 => absurd (by simpa using h0) hc⟩
        (fun h0 => hc (by simpa using congrArg List.head? h0))
      omega

theorem ofNat_value {ds : List Char} (h : CanonicalDigits ds) : ofNat (value ds) = ds := by
  induction ds using List.reverseRecOn with
  | nil => exact absurd rfl h.2.1
  | append_singleton ds d ih =>
    obtain ⟨hall, -, hlead⟩ := h
    obtain ⟨hds, hd⟩ := allDigits_append.mp hall
    have hchar := digitChar_digitValue (hd d (by simp))
    have hlt := digitValue_lt (hd d (by simp))
    rw [value_append_singleton]
    cases ds with
    | nil =>
      simp only [value, List.foldl_nil, Nat.mul_zero, Nat.zero_add, List.nil_append]
      rw [ofNat, Nat.toDigits_of_lt_base hlt, hchar]
    | cons c ds =>
      have hc : c ≠ '0' := fun hc => by simpa [hc] using hlead (by simp [hc])
      have hfront : CanonicalDigits (c :: ds) :=
        ⟨hds, by simp, fun h0 => absurd (by simpa using h0) hc⟩
      have hpos := value_pos hfront (fun h0 => hc (by simpa using congrArg List.head? h0))
      rw [ofNat_ten_mul_add hpos hlt, ih hfront, hchar]

theorem ofNat_of_ten_le {n : Nat} (hn : 10 ≤ n) :
    ofNat n = ofNat (n / 10) ++ [Nat.digitChar (n % 10)] := by
  rw [← ofNat_ten_mul_add (by omega) (by omega)]
  congr 1
  omega

theorem head?_ofNat {n : Nat} (hn : 0 < n) : (ofNat n).head? ≠ some '0' := by
  induction n using Nat.strongRecOn with
  | ind n ih =>
    by_cases hlt : n < 10
    · rw [ofNat, Nat.toDigits_of_lt_base hlt]
      have hdigit := Nat.toNat_digitChar_of_lt_ten hlt
      intro h
      simp only [List.head?_cons, Option.some.injEq] at h
      rw [h] at hdigit
      have hzero : '0'.toNat = 48 := rfl
      omega
    · have hne : ofNat (n / 10) ≠ [] := Nat.toDigits_ne_nil
      rw [ofNat_of_ten_le (by omega), List.head?_append, List.head?_eq_some_head hne, Option.some_or,
        ← List.head?_eq_some_head hne]
      exact ih (n / 10) (by omega) (by omega)

theorem length_ofNat_le {m n : Nat} (h : m ≤ n) : (ofNat m).length ≤ (ofNat n).length := by
  induction n using Nat.strongRecOn generalizing m with
  | ind n ih =>
    by_cases hm : m < 10
    · have hne : ofNat n ≠ [] := Nat.toDigits_ne_nil
      have hpos := List.length_pos_iff.mpr hne
      rw [ofNat, Nat.toDigits_of_lt_base hm, List.length_singleton]
      omega
    · have htens := ih (n / 10) (by omega) (Nat.div_le_div_right (c := 10) h)
      rw [ofNat_of_ten_le (n := m) (by omega), ofNat_of_ten_le (n := n) (by omega),
        List.length_append, List.length_append, List.length_singleton, List.length_singleton]
      omega

theorem canonical_ofNat (n : Nat) : CanonicalDigits (ofNat n) := by
  refine ⟨allDigits_ofNat n, Nat.toDigits_ne_nil, fun h => ?_⟩
  rcases Nat.eq_zero_or_pos n with rfl | hn
  · exact Nat.toDigits_zero 10
  · exact absurd h (head?_ofNat hn)

end FrameScope.Decimal
