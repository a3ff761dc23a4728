import FrameScope.Proofs.Decimal.Digits
import Mathlib.Data.List.Basic
import Mathlib.Data.List.TakeWhile

/-!
# Amounts are read from their text

`Amount.Spells`: a text is digits with at most one `n` behind them and blanks around them. Exactly
such texts are read, as the number of their digits (`Amount.parse_eq_ok_iff`); the others fail in
one of two ways (`Amount.parse_eq_error_iff`). An amount is known by its number
(`Amount.toNat_inj`), and its own text is read as that amount (`Amount.parse_text`).
-/

namespace FrameScope

/-! ### Blanks -/

namespace Text

theorem isBlank_of_isDigit {c : Char} (hc : c.isDigit = true) : isBlank c = false := by
  have hbounds := Decimal.isDigit_iff.mp hc
  simp only [isBlank, Bool.or_eq_false_iff, Bool.and_eq_false_iff, decide_eq_false_iff_not,
    beq_eq_false_iff_ne]
  omega

theorem dropWhile_isBlank {blanks cs : List Char} (hblanks : ∀ c ∈ blanks, isBlank c = true)
    (hcs : ∀ c ∈ cs.head?, isBlank c = false) : (blanks ++ cs).dropWhile isBlank = cs := by
  rw [List.dropWhile_append_of_pos hblanks]
  cases cs with
  | nil => rfl
  | cons c cs =>
    have hc := hcs c (by simp)
    rw [List.dropWhile_cons_of_neg (by simp [hc])]

theorem trim_surrounded {before cs behind : List Char} (hbefore : ∀ c ∈ before, isBlank c = true)
    (hbehind : ∀ c ∈ behind, isBlank c = true) (hcs : ∀ c ∈ cs, isBlank c = false) :
    trim (before ++ cs ++ behind) = cs := by
  cases cs with
  | nil =>
    have hall : (before ++ [] ++ behind).dropWhile isBlank = [] := by
      rw [List.dropWhile_eq_nil_iff, List.append_nil]
      exact List.forall_mem_append.mpr ⟨hbefore, hbehind⟩
    rw [trim, hall]
    rfl
  | cons c cs =>
    have hstart : ∀ d ∈ (c :: cs ++ behind).head?, isBlank d = false := by
      simpa using hcs c (by simp)
    have hend : ∀ d ∈ (c :: cs).reverse.head?, isBlank d = false := fun d hd =>
      hcs d (List.mem_reverse.mp (List.mem_of_mem_head? hd))
    have hblanks : ∀ d ∈ behind.reverse, isBlank d = true := fun d hd =>
      hbehind d (List.mem_reverse.mp hd)
    rw [trim, List.append_assoc, dropWhile_isBlank hbefore hstart, trimEnd, List.reverse_append,
      dropWhile_isBlank hblanks hend, List.reverse_reverse]

theorem exists_eq_trim (cs : List Char) : ∃ before behind, cs = before ++ trim cs ++ behind ∧
    (∀ c ∈ before, isBlank c = true) ∧ ∀ c ∈ behind, isBlank c = true := by
  refine ⟨cs.takeWhile isBlank, ((cs.dropWhile isBlank).reverse.takeWhile isBlank).reverse, ?_,
    fun c hc => List.mem_takeWhile_imp hc,
    fun c hc => List.mem_takeWhile_imp (List.mem_reverse.mp hc)⟩
  rw [trim, trimEnd, List.append_assoc, ← List.reverse_append, List.takeWhile_append_dropWhile,
    List.reverse_reverse, List.takeWhile_append_dropWhile]

end Text

namespace Amount

open Decimal

/-! ### Numbers -/

/-- The amount of a number. -/
def ofNat (n : Nat) : Amount := ⟨Decimal.ofNat n, canonical_ofNat n⟩

@[simp] theorem toNat_ofNat (n : Nat) : (ofNat n).toNat = n := value_ofNat n

@[simp] theorem ofNat_toNat (a : Amount) : ofNat a.toNat = a := by
  obtain ⟨ds, hds⟩ := a
  simp only [ofNat, toNat, ofNat_value hds]

theorem toNat_inj {a b : Amount} : a.toNat = b.toNat ↔ a = b := by
  refine ⟨fun h => ?_, fun h => congrArg toNat h⟩
  rw [← ofNat_toNat a, h, ofNat_toNat]

theorem ofNat_inj {m n : Nat} : ofNat m = ofNat n ↔ m = n := by
  rw [← toNat_inj, toNat_ofNat, toNat_ofNat]

theorem value_stripZeros (ds : List Char) : value (stripZeros ds) = value ds := by
  induction ds with
  | nil => rfl
  | cons d ds ih =>
    by_cases hd : d = '0'
    · have hstrip : stripZeros (d :: ds) = stripZeros ds := by
        rw [stripZeros, List.dropWhile_cons_of_pos (by simp [hd])]
        rfl
      rw [hstrip, ih, hd]
      rfl
    · rw [stripZeros, List.dropWhile_cons_of_neg (by simp [hd])]

theorem ofDigits_eq {ds : List Char} (hds : AllDigits ds) : ofDigits ds hds = ofNat (value ds) := by
  rw [← toNat_inj, toNat_ofNat]
  exact value_stripZeros ds

/-! ### Texts -/

/-- A text is these digits, with at most one `n` behind them and blanks around them. -/
def Spells (cs ds : List Char) : Prop :=
  AllDigits ds ∧ ∃ before suffix behind, cs = before ++ (ds ++ suffix) ++ behind ∧
    (∀ c ∈ before, Text.isBlank c = true) ∧ (∀ c ∈ behind, Text.isBlank c = true) ∧
      (suffix = [] ∨ suffix = ['n'])

theorem dropSuffix_digits {ds suffix : List Char} (hds : AllDigits ds)
    (hsuffix : suffix = [] ∨ suffix = ['n']) : dropSuffix (ds ++ suffix) = ds := by
  rcases hsuffix with rfl | rfl
  · rw [List.append_nil, dropSuffix, if_neg]
    intro hlast
    exact absurd (hds 'n' (List.mem_of_getLast? hlast)) (by decide)
  · rw [dropSuffix, if_pos (by simp), List.dropLast_concat]

theorem exists_eq_dropSuffix (cs : List Char) :
    ∃ suffix, cs = dropSuffix cs ++ suffix ∧ (suffix = [] ∨ suffix = ['n']) := by
  by_cases hlast : cs.getLast? = some 'n'
  · refine ⟨['n'], ?_, .inr rfl⟩
    rw [dropSuffix, if_pos hlast, List.dropLast_append_getLast? 'n' hlast]
  · exact ⟨[], by rw [dropSuffix, if_neg hlast, List.append_nil], .inl rfl⟩

theorem spells_iff {cs ds : List Char} :
    Spells cs ds ↔ AllDigits ds ∧ dropSuffix (Text.trim cs) = ds := by
  constructor
  · rintro ⟨hds, before, suffix, behind, rfl, hbefore, hbehind, hsuffix⟩
    have hnot : ∀ c ∈ ds ++ suffix, Text.isBlank c = false := by
      refine List.forall_mem_append.mpr ⟨fun c hc => Text.isBlank_of_isDigit (hds c hc), ?_⟩
      rcases hsuffix with rfl | rfl
      · simp
      · simp only [List.mem_singleton, forall_eq]
        decide
    rw [Text.trim_surrounded hbefore hbehind hnot]
    exact ⟨hds, dropSuffix_digits hds hsuffix⟩
  · rintro ⟨hds, rfl⟩
    obtain ⟨before, behind, hcs, hbefore, hbehind⟩ := Text.exists_eq_trim cs
    obtain ⟨suffix, hsuffix, hn⟩ := exists_eq_dropSuffix (Text.trim cs)
    exact ⟨hds, before, suffix, behind, by rw [← hsuffix, ← hcs], hbefore, hbehind, hn⟩

variable {s : String} {a : Amount} {e : AmountError}

/-- **Exactly the spelled numbers are read.** -/
theorem parse_eq_ok_iff :
    parse s = .ok a ↔ ∃ ds, Spells s.toList ds ∧ ds ≠ [] ∧ a = ofNat (value ds) := by
  simp only [spells_iff]
  rw [parse]
  split
  next hnil => simp [hnil]
  next hne =>
    split
    next hall => simp [hall, hne, ofDigits_eq hall, eq_comm]
    next hnot => simp [hnot]

theorem parse_eq_error_iff : parse s = .error e ↔ e = .empty ∧ Spells s.toList [] ∨
    e = .invalidDigit s ∧ ∀ ds, ¬ Spells s.toList ds := by
  simp only [spells_iff]
  rw [parse]
  split
  next hnil =>
    have hall : AllDigits [] := by simp [AllDigits]
    constructor
    · intro h
      exact .inl ⟨(Except.error.inj h).symm, hall, hnil⟩
    · rintro (⟨rfl, -⟩ | ⟨-, hnone⟩)
      · rfl
      · exact absurd ⟨hall, hnil⟩ (hnone [])
  next hne =>
    split
    next hall =>
      simp only [reduceCtorEq, hne, and_false, false_or, false_iff, not_and]
      intro _ hnone
      exact hnone _ hall rfl
    next hnot =>
      constructor
      · intro h
        refine .inr ⟨(Except.error.inj h).symm, ?_⟩
        rintro _ ⟨hds, rfl⟩
        exact hnot hds
      · rintro (⟨-, -, hnil⟩ | ⟨rfl, -⟩)
        · exact absurd hnil hne
        · rfl

/-- **The text of an amount is read as that amount.** -/
theorem parse_text (a : Amount) : parse a.text = .ok a := by
  have hspells : Spells a.text.toList a.digits := by
    refine ⟨a.canonical.1, [], [], [], ?_, by simp, by simp, .inl rfl⟩
    simp [text]
  exact parse_eq_ok_iff.mpr ⟨a.digits, hspells, a.canonical.2.1, (ofNat_toNat a).symm⟩

end Amount

end FrameScope
