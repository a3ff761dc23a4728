import FrameScope.Json.Parser
import FrameScope.Proofs.Json.Number

/-!
# Values in front of a text

A value that a text starts with is read the same whatever follows and with however much more fuel,
unless what follows goes on with a number (`readValue_append`).
-/

namespace FrameScope.JsonText

open Node
open Number (Stops)

variable {cs rest tail : List Char}

/-! ### Blanks -/

/-- Nothing but blanks. -/
def Blank (cs : List Char) : Prop := skipBlanks cs = []

instance (cs : List Char) : Decidable (Blank cs) := inferInstanceAs (Decidable (_ = _))

theorem skipBlanks_skipBlanks (cs : List Char) : skipBlanks (skipBlanks cs) = skipBlanks cs := by
  induction cs with
  | nil => rfl
  | cons c cs ih =>
    by_cases hc : isBlank c = true
    · simpa [skipBlanks, hc] using ih
    · simp [skipBlanks, hc]

theorem skipBlanks_append (h : skipBlanks cs ≠ []) (tail : List Char) :
    skipBlanks (cs ++ tail) = skipBlanks cs ++ tail := by
  induction cs with
  | nil => exact absurd rfl h
  | cons c cs ih =>
    by_cases hc : isBlank c = true
    · have hskip : skipBlanks (c :: cs) = skipBlanks cs := by simp [skipBlanks, hc]
      have hskip' : skipBlanks (c :: (cs ++ tail)) = skipBlanks (cs ++ tail) := by
        simp [skipBlanks, hc]
      rw [List.cons_append, hskip', hskip]
      exact ih (hskip ▸ h)
    · simp [skipBlanks, hc]

theorem Blank.skipBlanks_append (h : Blank cs) (tail : List Char) :
    skipBlanks (cs ++ tail) = skipBlanks tail := by
  induction cs with
  | nil => rfl
  | cons c cs ih =>
    by_cases hc : isBlank c = true
    · have hskip : skipBlanks (c :: cs) = skipBlanks cs := by simp [skipBlanks, hc]
      have hskip' : skipBlanks (c :: (cs ++ tail)) = skipBlanks (cs ++ tail) := by
        simp [skipBlanks, hc]
      rw [List.cons_append, hskip', ih (hskip.symm.trans h)]
    · simp [Blank, skipBlanks, hc] at h

theorem skipBlanks_append_of_cons {c : Char} (h : skipBlanks cs = c :: rest) (tail : List Char) :
    skipBlanks (cs ++ tail) = c :: (rest ++ tail) := by
  rw [skipBlanks_append (by simp [h]), h, List.cons_append]

theorem eq_cons_of_append {c : Char} (hcs : cs ≠ []) (h : cs ++ tail = c :: rest) :
    ∃ rest', cs = c :: rest' := by
  rcases List.append_eq_cons_iff.mp h with ⟨hnil, -⟩ | ⟨rest', hcons, -⟩
  · exact absurd hnil hcs
  · exact ⟨rest', hcons⟩

/-! ### Strings -/

theorem pieces_escape {e : Char} (he : e ≠ 'u') (cs : List Char) :
    pieces ('\\' :: e :: cs) = (escaped? e).bind fun c =>
      (pieces cs).bind fun p => some (.char c :: p.1, p.2) := by
  rw [pieces]
  · rfl
  · exact fun a b c d rest heq => absurd heq he

theorem pieces_char {c : Char} (hquote : c ≠ '"') (hc : ¬ (c = '\\' ∨ c.toNat < 0x20))
    (cs : List Char) :
    pieces (c :: cs) = (pieces cs).bind fun p => some (.char c :: p.1, p.2) := by
  rw [pieces, if_neg hc]
  · rfl
  · exact hquote
  · exact fun a b c' d rest heq => absurd (.inl heq) hc
  · exact fun e rest heq => absurd (.inl heq) hc

theorem pieces_append {ps : List Piece} (h : pieces cs = some (ps, rest)) (tail : List Char) :
    pieces (cs ++ tail) = some (ps, rest ++ tail) := by
  fun_induction pieces cs generalizing ps rest with
  | case1 => simp at h
  | case2 cs =>
    simp only [Option.some.injEq, Prod.mk.injEq] at h
    simp [pieces, ← h.1, ← h.2]
  | case3 a b c d cs ih =>
    simp only [Option.bind_eq_bind, Option.bind_eq_some_iff, Prod.exists, Option.some.injEq,
      Prod.mk.injEq] at h
    obtain ⟨n, hn, ps', rest', hps, rfl, rfl⟩ := h
    simp [pieces, hn, ih hps]
  | case4 e cs hnot ih =>
    simp only [Option.bind_eq_bind, Option.bind_eq_some_iff, Prod.exists, Option.some.injEq,
      Prod.mk.injEq] at h
    obtain ⟨c, hc, ps', rest', hps, rfl, rfl⟩ := h
    -- a unit cut short is no escape either, so the tail cannot complete one
    have he : e ≠ 'u' := by
      rintro rfl
      simp [escaped?] at hc
    rw [List.cons_append, List.cons_append, pieces_escape he, hc, Option.bind_some, ih hps]
    rfl
  | case5 c cs _ _ _ hc => simp at h
  | case6 c cs hquote _ _ hc ih =>
    simp only [Option.bind_eq_bind, Option.bind_eq_some_iff, Prod.exists, Option.some.injEq,
      Prod.mk.injEq] at h
    obtain ⟨ps', rest', hps, rfl, rfl⟩ := h
    rw [List.cons_append, pieces_char hquote hc, ih hps]
    rfl

theorem readString_append {s : Option String} (h : readString cs = some (s, rest))
    (tail : List Char) : readString (cs ++ tail) = some (s, rest ++ tail) := by
  simp only [readString, Option.bind_eq_bind, Option.bind_eq_some_iff, Prod.exists,
    Option.some.injEq, Prod.mk.injEq] at h
  obtain ⟨ps, rest', hps, rfl, rfl⟩ := h
  simp [readString, pieces_append hps]

/-! ### Scalars -/

theorem readWord_append {word : List Char} {node v : Node}
    (h : readWord word node cs = (v, some rest)) (tail : List Char) :
    readWord word node (cs ++ tail) = (v, some (rest ++ tail)) := by
  unfold readWord at h
  split at h
  · rename_i hword
    obtain ⟨after, rfl⟩ := List.isPrefixOf_iff_prefix.mp hword
    simp only [List.drop_left, Prod.mk.injEq, Option.some.injEq] at h
    simp [readWord, List.append_assoc, ← h.1, ← h.2]
  · simp at h

theorem readScalar_number {c : Char} (hquote : c ≠ '"') (hn : c ≠ 'n') (ht : c ≠ 't')
    (hf : c ≠ 'f') (cs : List Char) :
    readScalar (c :: cs) = match Number.scan (c :: cs) with
      | some (n, rest) => (.num n, some rest)
      | none => (.broken, none) := by
  unfold readScalar
  split
  · simp at *
  · rename_i heq
    exact absurd (List.cons.inj heq).1 hquote
  · rename_i heq
    exact absurd (List.cons.inj heq).1 hn
  · rename_i heq
    exact absurd (List.cons.inj heq).1 ht
  · rename_i heq
    exact absurd (List.cons.inj heq).1 hf
  · rfl

theorem readScalar_append {v : Node} (h : readScalar cs = (v, some rest)) (htail : Stops tail) :
    readScalar (cs ++ tail) = (v, some (rest ++ tail)) := by
  unfold readScalar at h
  split at h
  · simp at h
  · rename_i cs
    split at h <;> simp only [Prod.mk.injEq, Option.some.injEq, reduceCtorEq, and_false] at h
    · rename_i s rest' hs
      simp [readScalar, readString_append hs, ← h.1, ← h.2]
    · rename_i rest' hs
      simp [readScalar, readString_append hs, ← h.1, ← h.2]
  · exact readWord_append h tail
  · exact readWord_append h tail
  · exact readWord_append h tail
  · rename_i hnil hquote hn ht hf
    split at h <;> simp only [Prod.mk.injEq, Option.some.injEq, reduceCtorEq, and_false] at h
    rename_i n rest' hscan
    cases cs with
    | nil => exact absurd rfl hnil
    | cons c cs =>
      have hscan' : Number.scan (c :: (cs ++ tail)) = some (n, rest' ++ tail) := by
        rw [← List.cons_append, Number.scan_append htail, hscan]
        rfl
      rw [List.cons_append, readScalar_number (fun hc => hquote cs (by rw [hc]))
        (fun hc => hn cs (by rw [hc])) (fun hc => ht cs (by rw [hc]))
        (fun hc => hf cs (by rw [hc])), hscan']
      simp [← h.1, ← h.2]

/-! ### Values -/

theorem readValue_nil (fuel level : Nat) : readValue fuel level [] = (.broken, none) := by
  cases fuel with
  | zero => rfl
  | succ fuel => simp [readValue, skipBlanks, readScalar]

theorem readItems_nil (fuel level : Nat) : (readItems fuel level []).2 = none := by
  cases fuel with
  | zero => rfl
  | succ fuel => simp [readItems, readValue_nil]

theorem readEntries_nil (fuel level : Nat) : (readEntries fuel level []).2 = none := by
  cases fuel with
  | zero => rfl
  | succ fuel => simp [readEntries, skipBlanks]

/-- Reading with this much fuel goes on alike with more of it and in front of the tail. -/
def Grows (read : Nat → Nat → List Char → α × Option (List Char)) (tail : List Char)
    (fuel : Nat) : Prop :=
  ∀ fuel' level cs x rest, fuel ≤ fuel' → read fuel level cs = (x, some rest) →
    read fuel' level (cs ++ tail) = (x, some (rest ++ tail))

theorem readValue_grows {fuel : Nat} (htail : Stops tail) (hitems : Grows readItems tail fuel)
    (hentries : Grows readEntries tail fuel) : Grows readValue tail (fuel + 1) := by
  rintro (_ | fuel') level cs v rest hle h
  · exact absurd hle (Nat.not_succ_le_zero fuel)
  have hle : fuel ≤ fuel' := Nat.le_of_succ_le_succ hle
  rw [readValue] at h ⊢
  split at h
  · rename_i inner heq
    simp only [skipBlanks_append_of_cons heq]
    split at h
    · rename_i after hclose
      simp only [Prod.mk.injEq, Option.some.injEq] at h
      simp [skipBlanks_append_of_cons hclose, ← h.1, ← h.2]
    · rename_i hopen
      simp only [Prod.mk.injEq] at h
      obtain ⟨rfl, h⟩ := h
      have hinner : skipBlanks inner ≠ [] := fun hnil => by simp [hnil, readItems_nil] at h
      have hread := hitems fuel' (level - 1) _ _ rest hle (Prod.ext rfl h)
      rw [skipBlanks_append hinner]
      split
      · rename_i after hclose
        obtain ⟨after', hclose⟩ := eq_cons_of_append hinner hclose
        exact absurd hclose (hopen after')
      · rw [hread]
  · rename_i inner heq
    simp only [skipBlanks_append_of_cons heq]
    split at h
    · rename_i after hclose
      simp only [Prod.mk.injEq, Option.some.injEq] at h
      simp [skipBlanks_append_of_cons hclose, ← h.1, ← h.2]
    · rename_i hopen
      simp only [Prod.mk.injEq] at h
      obtain ⟨rfl, h⟩ := h
      have hinner : skipBlanks inner ≠ [] := fun hnil => by simp [hnil, readEntries_nil] at h
      have hread := hentries fuel' (level - 1) _ _ rest hle (Prod.ext rfl h)
      rw [skipBlanks_append hinner]
      split
      · rename_i after hclose
        obtain ⟨after', hclose⟩ := eq_cons_of_append hinner hclose
        exact absurd hclose (hopen after')
      · rw [hread]
  · rename_i hbracket hbrace
    have hcs : skipBlanks cs ≠ [] := fun hnil => by simp [hnil, readScalar] at h
    rw [skipBlanks_append hcs]
    split
    · rename_i inner heq
      obtain ⟨inner', heq⟩ := eq_cons_of_append hcs heq
      exact absurd heq (hbracket inner')
    · rename_i inner heq
      obtain ⟨inner', heq⟩ := eq_cons_of_append hcs heq
      exact absurd heq (hbrace inner')
    · exact readScalar_append h htail

theorem readItems_grows {fuel : Nat} (hvalue : Grows readValue tail fuel)
    (hitems : Grows readItems tail fuel) : Grows readItems tail (fuel + 1) := by
  rintro (_ | fuel') level cs vs rest hle h
  · exact absurd hle (Nat.not_succ_le_zero fuel)
  have hle : fuel ≤ fuel' := Nat.le_of_succ_le_succ hle
  rw [readItems] at h ⊢
  split at h
  · simp at h
  · rename_i v after hv
    rw [hvalue fuel' level cs v after hle hv]
    split at h
    · rename_i next heq
      simp only [Prod.mk.injEq] at h
      obtain ⟨rfl, h⟩ := h
      simp [skipBlanks_append_of_cons heq, hitems fuel' level _ _ rest hle (Prod.ext rfl h)]
    · rename_i next heq
      simp only [Prod.mk.injEq, Option.some.injEq] at h
      simp [skipBlanks_append_of_cons heq, ← h.1, ← h.2]
    · simp at h

theorem readEntries_grows {fuel : Nat} (hvalue : Grows readValue tail fuel)
    (hentries : Grows readEntries tail fuel) : Grows readEntries tail (fuel + 1) := by
  rintro (_ | fuel') level cs es rest hle h
  · exact absurd hle (Nat.not_succ_le_zero fuel)
  have hle : fuel ≤ fuel' := Nat.le_of_succ_le_succ hle
  rw [readEntries] at h ⊢
  split at h
  · rename_i literal heq
    simp only [skipBlanks_append_of_cons heq]
    split at h
    · simp at h
    · rename_i name after hname
      rw [readString_append hname]
      extract_lets key at h
      split at h
      · rename_i value hcolon
        simp only [skipBlanks_append_of_cons hcolon]
        split at h
        · simp at h
        · rename_i v next hv
          rw [hvalue fuel' level value v next hle hv]
          split at h
          · rename_i more hcomma
            simp only [Prod.mk.injEq] at h
            obtain ⟨rfl, h⟩ := h
            simp [skipBlanks_append_of_cons hcomma, key,
              hentries fuel' level _ _ rest hle (Prod.ext rfl h)]
          · rename_i more hclose
            simp only [Prod.mk.injEq, Option.some.injEq] at h
            simp [skipBlanks_append_of_cons hclose, ← h.1, ← h.2, key]
          · simp at h
      · simp at h
  · simp at h

/-- Values, items and entries with the same fuel, so that the induction is on the fuel alone. -/
theorem read_grows (htail : Stops tail) (fuel : Nat) :
    Grows readValue tail fuel ∧ Grows readItems tail fuel ∧ Grows readEntries tail fuel := by
  induction fuel with
  | zero => simp [Grows, readValue, readItems, readEntries]
  | succ fuel ih =>
    obtain ⟨hvalue, hitems, hentries⟩ := ih
    exact ⟨readValue_grows htail hitems hentries, readItems_grows hvalue hitems,
      readEntries_grows hvalue hentries⟩

/-- **What follows a value does not change it**, unless it goes on with a number. -/
theorem readValue_append {fuel fuel' level : Nat} {v : Node} (hle : fuel ≤ fuel')
    (htail : Stops tail) (h : readValue fuel level cs = (v, some rest)) :
    readValue fuel' level (cs ++ tail) = (v, some (rest ++ tail)) :=
  (read_grows htail fuel).1 fuel' level cs v rest hle h

end FrameScope.JsonText
