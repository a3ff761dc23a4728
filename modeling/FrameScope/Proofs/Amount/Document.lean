import FrameScope.Proofs.Collection.Loggable
import FrameScope.Proofs.Json.Written
import FrameScope.Proofs.Node.Kept

/-!
# Amounts in documents

A number of a document is an amount when it is spelled with digits alone, whatever its size
(`Amount.ofJson_num_iff`), and a string is when it spells one. What is written for an amount is read
as that amount. Together with what texts are read, `Amount.reads_spelled_numbers`.
-/

namespace FrameScope

theorem Number.mem_chars {n : Number} (hn : n.Valid) {c : Char} (hc : c ∈ n.chars) :
    c.isDigit = true ∨ c ∈ ['-', '.', 'e', '+'] := by
  rw [chars_eq, List.mem_append, List.mem_append, List.mem_append] at hc
  rcases hc with hsign | hwhole | hfraction | hexponent
  · split at hsign
    · exact .inr (by simp_all)
    · exact absurd hsign (by simp)
  · exact .inl (hn.whole.1 c hwhole)
  · split at hfraction
    · exact absurd hfraction (by simp)
    · rcases List.mem_cons.mp hfraction with rfl | hdigit
      · exact .inr (by simp)
      · exact .inl (hn.fraction c hdigit)
  · rcases hexp : n.exponent with _ | ⟨negative, ds⟩
    · simp [hexp, exponentChars] at hexponent
    · rw [hexp, exponentChars] at hexponent
      rcases List.mem_cons.mp hexponent with rfl | hexponent
      · exact .inr (by simp)
      rcases List.mem_cons.mp hexponent with rfl | hdigit
      · exact .inr (by split <;> simp)
      · exact .inl ((hn.exponent negative ds hexp).1 c hdigit)

namespace Amount

open Decimal

/-- No blank and no `n` stands in a number, so nothing is cut off it. -/
theorem spells_chars_iff {n : Number} (hn : n.Valid) {ds : List Char} :
    Spells n.chars ds ↔ AllDigits ds ∧ n.chars = ds := by
  have hmem : ∀ c ∈ n.chars, Text.isBlank c = false ∧ c ≠ 'n' := by
    intro c hc
    rcases Number.mem_chars hn hc with hdigit | hmark
    · exact ⟨Text.isBlank_of_isDigit hdigit, fun h => absurd (h ▸ hdigit) (by decide)⟩
    · simp only [List.mem_cons, List.not_mem_nil, or_false] at hmark
      rcases hmark with rfl | rfl | rfl | rfl <;> decide
  have htrim : Text.trim n.chars = n.chars := by
    have h := @Text.trim_surrounded [] n.chars [] (by simp) (by simp) fun c hc => (hmem c hc).1
    rwa [List.nil_append, List.append_nil] at h
  have hdrop : dropSuffix n.chars = n.chars := by
    rw [dropSuffix, if_neg]
    exact fun hlast => (hmem 'n' (List.mem_of_getLast? hlast)).2 rfl
  rw [spells_iff, htrim, hdrop]

/-- **A number is an amount when it is spelled with digits alone.** -/
theorem ofJson_num_iff {n : Number} (hn : n.Valid) {a : Amount} :
    ofJson (.num n) = .ok a ↔ AllDigits n.chars ∧ a = ofNat (value n.chars) := by
  have hne : n.chars ≠ [] := by
    obtain ⟨c, cs, hcs, -⟩ := JsonText.exists_chars_eq_cons hn
    rw [hcs]
    exact List.cons_ne_nil c cs
  rw [ofJson, parse_eq_ok_iff, Number.toList_text]
  simp only [spells_chars_iff hn]
  constructor
  · rintro ⟨_, ⟨hds, rfl⟩, -, ha⟩
    exact ⟨hds, ha⟩
  · rintro ⟨hds, ha⟩
    exact ⟨_, ⟨hds, rfl⟩, hne, ha⟩

theorem ofJson_eq_ok_iff {v : Json} (hv : v.Valid) {a : Amount} :
    ofJson v = .ok a ↔ (∃ s, v = .str s ∧ parse s = .ok a) ∨
      ∃ n, v = .num n ∧ AllDigits n.chars ∧ a = ofNat (value n.chars) := by
  cases v with
  | num n => simp [ofJson_num_iff hv]
  | _ => simp [ofJson]

theorem decode_toList_wire (a : Amount) :
    (Document.ofChars (Coded.wire a).toList).decode Coded.read = .ok a := by
  rw [Coded.toList_wire]
  exact Carriage.decode_of_brings (Carriage.brings_amount a)

/-- **Exactly digits are read, with at most one `n` behind them and blanks around them, and they are
the number they spell.** -/
theorem reads_spelled_numbers (s t : String) {v : Json} (hv : v.Valid) (a : Amount) :
    (∀ b, parse s = .ok b ↔ ∃ ds, Spells s.toList ds ∧ ds ≠ [] ∧ b = ofNat (value ds)) ∧
    (∀ e, parse s = .error e ↔ e = .empty ∧ Spells s.toList [] ∨
      e = .invalidDigit s ∧ ∀ ds, ¬ Spells s.toList ds) ∧
    (∀ n, toString (ofNat n) = toString n ∧ (ofNat n).toNat = n ∧
      (ofNat n).toWord? = if n < Word.size then some n else none) ∧
    (∀ ds es, Spells s.toList ds ∧ ds ≠ [] → Spells t.toList es ∧ es ≠ [] →
      (parse s = parse t ↔ value ds = value es)) ∧
    (∀ b, ofJson v = .ok b ↔ (∃ s, v = .str s ∧ parse s = .ok b) ∨
      ∃ n, v = .num n ∧ AllDigits n.chars ∧ b = ofNat (value n.chars)) ∧
    Coded.json a = .str (toString a) ∧ ofJson (Coded.json a) = .ok a ∧
      (Document.ofChars (Coded.wire a).toList).decode Coded.read = .ok a := by
  refine ⟨fun _ => parse_eq_ok_iff, fun _ => parse_eq_error_iff, fun n => ⟨rfl, toNat_ofNat n, ?_⟩,
    fun ds es hds hes => ?_, fun _ => ofJson_eq_ok_iff hv, rfl, parse_text a, decode_toList_wire a⟩
  · rw [toWord?, toNat_ofNat]
  · rw [parse_eq_ok_iff.mpr ⟨ds, hds.1, hds.2, rfl⟩, parse_eq_ok_iff.mpr ⟨es, hes.1, hes.2, rfl⟩,
      Except.ok.injEq, ofNat_inj]

/-- A literal of a big integer with zeros in front, between two kinds of blanks. -/
def paddedLiteral : String := "\u3000000123n\n"

theorem reads_spelled_numbers_paddedLiteral :
    (Json.num (Number.ofNat 42)).Valid ∧ (Spells paddedLiteral.toList "000123".toList ∧
      parse paddedLiteral = .ok (ofNat 123)) ∧ parse paddedLiteral = parse "123" ∧
        parse "12 n" = .error (.invalidDigit "12 n") ∧
          ofJson (.num (Number.ofNat 42)) = .ok (ofNat 42) := by
  have hv : (Json.num (Number.ofNat 42)).Valid := Number.valid_ofInt 42
  have hpadded : Spells paddedLiteral.toList "000123".toList :=
    ⟨by decide, ['\u3000'], ['n'], ['\n'], by decide, List.forall_mem_singleton.mpr (by decide),
      List.forall_mem_singleton.mpr (by decide), .inr rfl⟩
  have hplain : Spells "123".toList "123".toList :=
    ⟨by decide, [], [], [], by decide, by simp, by simp, .inl rfl⟩
  obtain ⟨hok, -, -, hsame, hjson, -⟩ := reads_spelled_numbers paddedLiteral "123" hv zero
  obtain ⟨-, herror, -⟩ := reads_spelled_numbers "12 n" "123" hv zero
  refine ⟨hv, ⟨hpadded, (hok _).mpr ⟨_, hpadded, by decide, rfl⟩⟩,
    (hsame _ _ ⟨hpadded, by decide⟩ ⟨hplain, by decide⟩).mpr (by decide),
    (herror _).mpr (.inr ⟨rfl, fun ds hds => ?_⟩),
    (hjson _).mpr (.inr ⟨_, rfl, by decide, rfl⟩)⟩
  obtain ⟨hall, rfl⟩ := spells_iff.mp hds
  exact absurd hall (by decide)

end Amount

end FrameScope
