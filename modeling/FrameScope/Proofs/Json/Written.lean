import FrameScope.Json.Printer
import FrameScope.Proofs.Json.Members
import FrameScope.Proofs.Json.Sound

/-!
# The texts of a value

`Json.Written` says which texts are texts of a value: its items and fields in order, with blanks
around them. Reading such a text gives the tree of the value (`Document.ofChars_written`), cut off
where more containers stand in one another than may be open (`treeOf`). The text without blanks is
one of them (`written_compact`).
-/

namespace FrameScope

/-! ### Strings -/

namespace JsonText

open Json

theorem hexWord?_control {n : Nat} (h : n < 0x20) :
    hexWord? '0' '0' (hexDigit (n / 16)) (hexDigit (n % 16)) = some n := by
  revert n
  decide

theorem exists_piece (c : Char) : ∃ piece,
    (∀ cs, pieces (escape c ++ cs) = (pieces cs).bind fun p => some (piece :: p.1, p.2)) ∧
      ∀ ps, joinPieces (piece :: ps) = (joinPieces ps).map (c :: ·) := by
  have hchar (d : Char) (hd : d ≠ 'u') (hescape : escape c = ['\\', d]) (hc : escaped? d = some c) :
      ∃ piece, (∀ cs, pieces (escape c ++ cs) = (pieces cs).bind fun p => some (piece :: p.1, p.2)) ∧
        ∀ ps, joinPieces (piece :: ps) = (joinPieces ps).map (c :: ·) := by
    refine ⟨.char c, fun cs => ?_, fun ps => rfl⟩
    rw [hescape]
    exact (pieces_escape hd cs).trans (by rw [hc]; rfl)
  by_cases hquote : c = '"'
  · exact hchar '"' (by decide) (by simp [escape, hquote]) (by simp [escaped?, hquote])
  by_cases hslash : c = '\\'
  · exact hchar '\\' (by decide) (by simp [escape, hslash]) (by simp [escaped?, hslash])
  by_cases hback : c = '\x08'
  · exact hchar 'b' (by decide) (by simp [escape, hback]) (by simp [escaped?, hback])
  by_cases htab : c = '\t'
  · exact hchar 't' (by decide) (by simp [escape, htab]) (by simp [escaped?, htab])
  by_cases hline : c = '\n'
  · exact hchar 'n' (by decide) (by simp [escape, hline]) (by simp [escaped?, hline])
  by_cases hfeed : c = '\x0c'
  · exact hchar 'f' (by decide) (by simp [escape, hfeed]) (by simp [escaped?, hfeed])
  by_cases hreturn : c = '\r'
  · exact hchar 'r' (by decide) (by simp [escape, hreturn]) (by simp [escaped?, hreturn])
  by_cases hcontrol : c.toNat < 0x20
  · have hescape : escape c =
        ['\\', 'u', '0', '0', hexDigit (c.toNat / 16), hexDigit (c.toNat % 16)] := by
      simp [escape, hquote, hslash, hback, htab, hline, hfeed, hreturn, hcontrol]
    refine ⟨.unit c.toNat, fun cs => ?_, fun ps => ?_⟩
    · rw [hescape, List.cons_append, List.cons_append, List.cons_append, List.cons_append,
        List.cons_append, List.cons_append, pieces, hexWord?_control hcontrol]
      rfl
    · have hlow : c.toNat < 0xD800 := by omega
      rcases ps with _ | ⟨_ | _, ps⟩ <;> simp [joinPieces, hlow, Char.ofNat_toNat]
  · have hescape : escape c = [c] := by
      simp [escape, hquote, hslash, hback, htab, hline, hfeed, hreturn, hcontrol]
    refine ⟨.char c, fun cs => ?_, fun ps => rfl⟩
    rw [hescape]
    exact pieces_char hquote (by simp [hslash, hcontrol]) cs

theorem readString_quoted (s : String) (tail : List Char) :
    readString (s.toList.flatMap escape ++ '"' :: tail) = some (some s, tail) := by
  have hpieces (cs : List Char) : ∃ ps, pieces (cs.flatMap escape ++ '"' :: tail) = some (ps, tail) ∧
      joinPieces ps = some cs := by
    induction cs with
    | nil => exact ⟨[], by simp [pieces], rfl⟩
    | cons c cs ih =>
      obtain ⟨piece, hpiece, hjoin⟩ := exists_piece c
      obtain ⟨ps, hps, hcs⟩ := ih
      refine ⟨piece :: ps, ?_, by rw [hjoin, hcs]; rfl⟩
      rw [List.flatMap_cons, List.append_assoc, hpiece, hps]
      rfl
  obtain ⟨ps, hps, hjoin⟩ := hpieces s.toList
  simp [readString, hps, hjoin]

/-! ### Scalars -/

theorem exists_chars_eq_cons {n : Number} (hn : n.Valid) :
    ∃ c cs, n.chars = c :: cs ∧ (c.isDigit = true ∨ c = '-') := by
  obtain ⟨hall, hne, -⟩ := hn.whole
  obtain ⟨d, ds, hd⟩ := List.exists_cons_of_ne_nil hne
  rw [Number.chars_eq]
  cases n.negative with
  | true => exact ⟨_, _, rfl, .inr rfl⟩
  | false => exact ⟨d, _, by rw [hd]; rfl, .inl (hall d (by simp [hd]))⟩

theorem readScalar_chars {n : Number} (hn : n.Valid) {tail : List Char} (htail : Number.Stops tail) :
    readScalar (n.chars ++ tail) = (.num n, some tail) := by
  have hscan := Number.scan_chars_append hn htail
  obtain ⟨c, cs, hcs, hc⟩ := exists_chars_eq_cons hn
  have hother (d : Char) (hd : d.isDigit = false) (hminus : d ≠ '-') : c ≠ d := by
    rintro rfl
    rcases hc with hc | hc
    · rw [hd] at hc
      exact Bool.noConfusion hc
    · exact hminus hc
  rw [hcs, List.cons_append] at hscan ⊢
  rw [readScalar_number (hother _ rfl (by decide)) (hother _ rfl (by decide))
    (hother _ rfl (by decide)) (hother _ rfl (by decide)), hscan]

end JsonText

/-! ### Texts of values -/

namespace Json

mutual

/-- Every number is a number as a text spells it. -/
def Valid : Json → Prop
  | .num n => n.Valid
  | .arr items => ValidItems items
  | .obj fields => ValidFields fields
  | _ => True

def ValidItems : List Json → Prop
  | [] => True
  | v :: rest => Valid v ∧ ValidItems rest

def ValidFields : List (String × Json) → Prop
  | [] => True
  | (_, v) :: rest => Valid v ∧ ValidFields rest

end

mutual

theorem Sound.valid : ∀ {v : Json}, v.Sound → v.Valid
  | .null, _ => trivial
  | .bool _, _ => trivial
  | .num _, hn => hn
  | .str _, _ => trivial
  | .arr _, hvs => validItems_of_sound hvs
  | .obj _, hfs => validFields_of_sound hfs.2.2

theorem validItems_of_sound : ∀ {vs : List Json}, SoundItems vs → ValidItems vs
  | [], _ => trivial
  | _ :: _, hvs => ⟨hvs.1.valid, validItems_of_sound hvs.2⟩

theorem validFields_of_sound : ∀ {fs : Entries Json}, SoundFields fs → ValidFields fs
  | [], _ => trivial
  | _ :: _, hfs => ⟨hfs.1.valid, validFields_of_sound hfs.2⟩

end

mutual

/-- The texts of a value: blanks stand inside its brackets and braces as they like. -/
inductive Written : Json → List Char → Prop
  | null : Written .null ['n', 'u', 'l', 'l']
  | true : Written (.bool true) ['t', 'r', 'u', 'e']
  | false : Written (.bool false) ['f', 'a', 'l', 's', 'e']
  | num {n : Number} (hn : n.Valid) : Written (.num n) n.chars
  | str (s : String) : Written (.str s) (quote s)
  | noItems {b : List Char} (hb : JsonText.Blank b) : Written (.arr []) ('[' :: (b ++ [']']))
  | items {vs : List Json} {cs : List Char} (hvs : WrittenItems vs cs) :
      Written (.arr vs) ('[' :: (cs ++ [']']))
  | noFields {b : List Char} (hb : JsonText.Blank b) : Written (.obj []) ('{' :: (b ++ ['}']))
  | fields {fs : List (String × Json)} {cs : List Char} (hfs : WrittenFields fs cs) :
      Written (.obj fs) ('{' :: (cs ++ ['}']))

/-- The texts of one item or more, with commas between them. -/
inductive WrittenItems : List Json → List Char → Prop
  | last {v : Json} {before cs after : List Char} (hbefore : JsonText.Blank before)
      (hv : Written v cs) (hafter : JsonText.Blank after) :
      WrittenItems [v] (before ++ (cs ++ after))
  | next {v : Json} {vs : List Json} {before cs after rest : List Char}
      (hbefore : JsonText.Blank before) (hv : Written v cs) (hafter : JsonText.Blank after)
      (hvs : WrittenItems vs rest) : WrittenItems (v :: vs) (before ++ (cs ++ (after ++ ',' :: rest)))

/-- The texts of one field or more, with commas between them. -/
inductive WrittenFields : List (String × Json) → List Char → Prop
  | last {k : String} {v : Json} {before inner behind cs after : List Char}
      (hbefore : JsonText.Blank before) (hinner : JsonText.Blank inner)
      (hbehind : JsonText.Blank behind) (hv : Written v cs) (hafter : JsonText.Blank after) :
      WrittenFields [(k, v)] (before ++ (quote k ++ (inner ++ ':' :: (behind ++ (cs ++ after)))))
  | next {k : String} {v : Json} {fs : List (String × Json)}
      {before inner behind cs after rest : List Char}
      (hbefore : JsonText.Blank before) (hinner : JsonText.Blank inner)
      (hbehind : JsonText.Blank behind) (hv : Written v cs) (hafter : JsonText.Blank after)
      (hfs : WrittenFields fs rest) :
      WrittenFields ((k, v) :: fs)
        (before ++ (quote k ++ (inner ++ ':' :: (behind ++ (cs ++ (after ++ ',' :: rest))))))

end

end Json

namespace JsonText

open Json

theorem exists_cons_of_written {v : Json} {cs : List Char} (h : Written v cs) :
    ∃ c rest, cs = c :: rest ∧ isBlank c = false ∧ c ≠ ']' := by
  cases h with
  | null => exact ⟨_, _, rfl, by decide, by decide⟩
  | true => exact ⟨_, _, rfl, by decide, by decide⟩
  | false => exact ⟨_, _, rfl, by decide, by decide⟩
  | @num n hn =>
    obtain ⟨c, cs, hcs, hc⟩ := exists_chars_eq_cons hn
    have hblank : isBlank c = false := by
      by_contra h
      simp only [isBlank, Bool.not_eq_false, Bool.or_eq_true, decide_eq_true_eq] at h
      rcases h with ((rfl | rfl) | rfl) | rfl <;> rcases hc with hc | hc <;> exact absurd hc (by decide)
    refine ⟨c, cs, hcs, hblank, ?_⟩
    rintro rfl
    rcases hc with hc | hc <;> exact absurd hc (by decide)
  | str s => exact ⟨'"', _, rfl, by decide, by decide⟩
  | noItems => exact ⟨_, _, rfl, by decide, by decide⟩
  | items => exact ⟨_, _, rfl, by decide, by decide⟩
  | noFields => exact ⟨_, _, rfl, by decide, by decide⟩
  | fields => exact ⟨_, _, rfl, by decide, by decide⟩

/-! ### Trees of texts -/

mutual

/-- The tree of a value's text, with so many containers that may be opened. -/
def treeOf (level : Nat) : Json → Node
  | .arr vs => atLevel level (.seq (treeItems (level - 1) vs))
  | .obj fs => atLevel level (.map (treeFields (level - 1) fs))
  | v => Node.ofJson v

def treeItems (level : Nat) : List Json → List Node
  | [] => []
  | v :: vs => treeOf level v :: treeItems level vs

def treeFields (level : Nat) : List (String × Json) → List (Key × Node)
  | [] => []
  | (k, v) :: fs => (.name k, treeOf level v) :: treeFields level fs

end

theorem skip_atLevel (level : Nat) (node : Node) : (atLevel level node).skip = node.skip := by
  rw [atLevel]
  split
  · rw [Node.skip]
  · rfl

mutual

/-- The tree of a value can be passed over, however deep it is. -/
theorem skip_treeOf : ∀ (level : Nat) (v : Json), (treeOf level v).skip = .ok ()
  | _, .null => rfl
  | _, .bool _ => rfl
  | _, .num _ => rfl
  | _, .str _ => rfl
  | level, .arr vs => by rw [treeOf, skip_atLevel, Node.skip, skipItems_treeItems]
  | level, .obj fs => by rw [treeOf, skip_atLevel, Node.skip, skipEntries_treeFields]

theorem skipItems_treeItems : ∀ (level : Nat) (vs : List Json),
    Node.skipItems (treeItems level vs) = .ok ()
  | _, [] => rfl
  | level, v :: vs => by
    rw [treeItems, Node.skipItems, skip_treeOf]
    exact skipItems_treeItems level vs

theorem skipEntries_treeFields : ∀ (level : Nat) (fs : List (String × Json)),
    Node.skipEntries (treeFields level fs) = .ok ()
  | _, [] => rfl
  | level, (_, v) :: fs => by
    rw [treeFields, Node.skipEntries, skip_treeOf]
    exact skipEntries_treeFields level fs

end

theorem stops_blank_append {b cs : List Char} (hb : Blank b) (hcs : Number.Stops cs) :
    Number.Stops (b ++ cs) := by
  rcases b with _ | ⟨c, b⟩
  · exact hcs
  · intro d hd
    obtain rfl : c = d := by simpa using hd
    have hblank : isBlank c = true := by
      by_contra hc
      simp [Blank, skipBlanks, hc] at hb
    simp only [isBlank, Bool.or_eq_true, decide_eq_true_eq] at hblank
    rcases hblank with ((rfl | rfl) | rfl) | rfl <;> decide

theorem readValue_blank {b : List Char} (hb : Blank b) (fuel level : Nat) (cs : List Char) :
    readValue fuel level (b ++ cs) = readValue fuel level cs := by
  cases fuel with
  | zero => rfl
  | succ fuel => rw [readValue, readValue, hb.skipBlanks_append]

theorem skipBlanks_blank_cons {b : List Char} (hb : Blank b) {c : Char} (hc : isBlank c = false)
    (cs : List Char) : skipBlanks (b ++ c :: cs) = c :: cs := by
  rw [hb.skipBlanks_append, skipBlanks_of_not_blank hc]

theorem readItems_skipBlanks (fuel level : Nat) (cs : List Char) :
    readItems fuel level (skipBlanks cs) = readItems fuel level cs := by
  cases fuel with
  | zero => rfl
  | succ fuel =>
    have hvalue : readValue fuel level (skipBlanks cs) = readValue fuel level cs := by
      cases fuel with
      | zero => rfl
      | succ fuel => rw [readValue, readValue, skipBlanks_skipBlanks]
    rw [readItems, readItems, hvalue]

theorem readValue_scalar {c : Char} {cs rest : List Char} (hcs : skipBlanks cs = c :: rest)
    (hbracket : c ≠ '[') (hbrace : c ≠ '{') (fuel level : Nat) :
    readValue (fuel + 1) level cs = readScalar (c :: rest) := by
  rw [readValue, hcs]
  split
  · rename_i heq
    exact absurd (List.cons.inj heq).1 hbracket
  · rename_i heq
    exact absurd (List.cons.inj heq).1 hbrace
  · rfl

theorem readValue_bracket {c : Char} {cs rest : List Char} (hcs : skipBlanks cs = c :: rest)
    (hc : c ≠ ']') (fuel level : Nat) :
    readValue (fuel + 1) level ('[' :: cs) =
      (atLevel level (.seq (readItems fuel (level - 1) cs).1),
        (readItems fuel (level - 1) cs).2) := by
  rw [readValue, skipBlanks_of_not_blank (c := '[') (by decide), ← readItems_skipBlanks _ _ cs]
  simp only [hcs]
  split
  · rename_i heq
    exact absurd (List.cons.inj heq).1 hc
  · rfl

theorem readValue_brace {c : Char} {cs rest : List Char} (hcs : skipBlanks cs = c :: rest)
    (hc : c ≠ '}') (fuel level : Nat) :
    readValue (fuel + 1) level ('{' :: cs) =
      (atLevel level (.map (readEntries fuel (level - 1) cs).1),
        (readEntries fuel (level - 1) cs).2) := by
  rw [readValue, skipBlanks_of_not_blank (c := '{') (by decide), ← readEntries_skipBlanks _ _ cs]
  simp only [hcs]
  split
  · rename_i heq
    exact absurd (List.cons.inj heq).1 hc
  · rfl

theorem readEntries_quoted {k : String} {fuel level : Nat} {b inner cs after more : List Char}
    {node : Node} {c : Char} (hb : Blank b) (hinner : Blank inner)
    (hvalue : readValue fuel level cs = (node, some after))
    (hafter : skipBlanks after = c :: more) (hc : c = ',' ∨ c = '}') :
    readEntries (fuel + 1) level (b ++ (quote k ++ (inner ++ ':' :: cs))) =
      if c = ',' then
        ((.name k, node) :: (readEntries fuel level more).1, (readEntries fuel level more).2)
      else ([(.name k, node)], some more) := by
  rw [readEntries, hb.skipBlanks_append, quote, List.cons_append, List.append_assoc,
    List.singleton_append, skipBlanks_of_not_blank (c := '"') (by decide)]
  have hcolon : skipBlanks (inner ++ ':' :: cs) = ':' :: cs :=
    skipBlanks_blank_cons hinner (by decide) cs
  rcases hc with rfl | rfl <;> simp [readString_quoted, hcolon, hvalue, hafter]

theorem exists_skipBlanks_items {vs : List Json} {cs : List Char} (h : WrittenItems vs cs)
    (tail : List Char) : ∃ c rest, skipBlanks (cs ++ tail) = c :: rest ∧ c ≠ ']' := by
  obtain ⟨before, c, rest, hbefore, rfl, hblank, hc⟩ : ∃ before c rest, Blank before ∧
      cs = before ++ c :: rest ∧ isBlank c = false ∧ c ≠ ']' := by
    cases h with
    | last hbefore hv _ =>
      obtain ⟨c, rest, rfl, hc⟩ := exists_cons_of_written hv
      exact ⟨_, c, _, hbefore, rfl, hc⟩
    | next hbefore hv _ _ =>
      obtain ⟨c, rest, rfl, hc⟩ := exists_cons_of_written hv
      exact ⟨_, c, _, hbefore, rfl, hc⟩
  refine ⟨c, rest ++ tail, ?_, hc⟩
  rw [List.append_assoc, hbefore.skipBlanks_append]
  exact skipBlanks_of_not_blank hblank _

theorem exists_skipBlanks_fields {fs : List (String × Json)} {cs : List Char}
    (h : WrittenFields fs cs) (tail : List Char) :
    ∃ rest, skipBlanks (cs ++ tail) = '"' :: rest := by
  obtain ⟨before, rest, hbefore, rfl⟩ : ∃ before rest, Blank before ∧ cs = before ++ '"' :: rest := by
    cases h with
    | last hbefore => exact ⟨_, _, hbefore, rfl⟩
    | next hbefore => exact ⟨_, _, hbefore, rfl⟩
  refine ⟨rest ++ tail, ?_⟩
  rw [List.append_assoc, hbefore.skipBlanks_append]
  exact skipBlanks_of_not_blank (by decide) _

mutual

/-- The text of a value, with whatever cannot go on a number behind it, is read as its tree. -/
theorem readValue_written : ∀ {v : Json} {cs : List Char}, Written v cs → ∀ {fuel : Nat}
    (level : Nat) {tail : List Char}, Number.Stops tail → cs.length < fuel →
    readValue fuel level (cs ++ tail) = (treeOf level v, some tail)
  | _, _, _, 0, _, _, _, hfuel => absurd hfuel (Nat.not_lt_zero _)
  | _, _, .null, fuel + 1, level, tail, _, _ => by
    simp [readValue, skipBlanks, isBlank, readScalar, readWord, treeOf, Node.ofJson]
  | _, _, .true, fuel + 1, level, tail, _, _ => by
    simp [readValue, skipBlanks, isBlank, readScalar, readWord, treeOf, Node.ofJson]
  | _, _, .false, fuel + 1, level, tail, _, _ => by
    simp [readValue, skipBlanks, isBlank, readScalar, readWord, treeOf, Node.ofJson]
  | _, _, .num hn, fuel + 1, level, tail, htail, _ => by
    obtain ⟨c, rest, hcs, hblank, -⟩ := exists_cons_of_written (.num hn)
    obtain ⟨c', rest', hcs', hc⟩ := exists_chars_eq_cons hn
    obtain ⟨rfl, rfl⟩ := List.cons.inj (hcs.symm.trans hcs')
    have hread := readScalar_chars hn htail
    rw [hcs] at hread ⊢
    rw [List.cons_append, readValue_scalar (skipBlanks_of_not_blank hblank _)
      (by rintro rfl; simp at hc) (by rintro rfl; simp at hc)]
    exact hread
  | _, _, .str s, fuel + 1, level, tail, _, _ => by
    rw [quote, List.cons_append, List.append_assoc, List.singleton_append,
      readValue_scalar (skipBlanks_of_not_blank (by decide) _) (by decide) (by decide)]
    simp [readScalar, readString_quoted, treeOf, Node.ofJson]
  | _, _, .noItems hb, fuel + 1, level, tail, _, _ => by
    rw [List.cons_append, List.append_assoc, readValue,
      skipBlanks_of_not_blank (c := '[') (by decide)]
    simp [skipBlanks_blank_cons hb (c := ']') (by decide), treeOf, treeItems]
  | _, _, .items hvs, fuel + 1, level, tail, _, hfuel => by
    obtain ⟨c, rest, hskip, hc⟩ := exists_skipBlanks_items hvs (']' :: tail)
    simp only [List.length_cons, List.length_append] at hfuel
    rw [List.cons_append, List.append_assoc, List.singleton_append, readValue_bracket hskip hc,
      readItems_written hvs (level - 1) tail (by omega)]
    rfl
  | _, _, .noFields hb, fuel + 1, level, tail, _, _ => by
    rw [List.cons_append, List.append_assoc, readValue,
      skipBlanks_of_not_blank (c := '{') (by decide)]
    simp [skipBlanks_blank_cons hb (c := '}') (by decide), treeOf, treeFields]
  | _, _, .fields hfs, fuel + 1, level, tail, _, hfuel => by
    obtain ⟨rest, hskip⟩ := exists_skipBlanks_fields hfs ('}' :: tail)
    simp only [List.length_cons, List.length_append] at hfuel
    rw [List.cons_append, List.append_assoc, List.singleton_append,
      readValue_brace hskip (by decide), readEntries_written hfs (level - 1) tail (by omega)]
    rfl

theorem readItems_written : ∀ {vs : List Json} {cs : List Char}, WrittenItems vs cs →
    ∀ {fuel : Nat} (level : Nat) (tail : List Char), cs.length + 1 < fuel →
    readItems fuel level (cs ++ ']' :: tail) = (treeItems level vs, some tail)
  | _, _, _, 0, _, _, hfuel => absurd hfuel (Nat.not_lt_zero _)
  | _, _, .last hbefore hv hafter, fuel + 1, level, tail, hfuel => by
    have hstops := @stops_blank_append _ (']' :: tail) hafter (by simp [Number.Stops])
    simp only [List.length_append] at hfuel
    rw [List.append_assoc, List.append_assoc, readItems, readValue_blank hbefore,
      readValue_written hv level hstops (by omega)]
    simp [skipBlanks_blank_cons hafter (c := ']') (by decide), treeItems]
  | _, _, .next hbefore hv hafter hvs, fuel + 1, level, tail, hfuel => by
    have hstops (cs : List Char) : Number.Stops (',' :: cs) := by simp [Number.Stops]
    simp only [List.length_append, List.length_cons] at hfuel
    rw [List.append_assoc, List.append_assoc, List.append_assoc, List.cons_append, readItems,
      readValue_blank hbefore, readValue_written hv level (stops_blank_append hafter (hstops _))
        (by omega)]
    simp only [skipBlanks_blank_cons hafter (c := ',') (by decide)]
    rw [readItems_written hvs level tail (by omega)]
    rfl

theorem readEntries_written : ∀ {fs : List (String × Json)} {cs : List Char}, WrittenFields fs cs →
    ∀ {fuel : Nat} (level : Nat) (tail : List Char), cs.length + 1 < fuel →
    readEntries fuel level (cs ++ '}' :: tail) = (treeFields level fs, some tail)
  | _, _, _, 0, _, _, hfuel => absurd hfuel (Nat.not_lt_zero _)
  | _, _, .last hbefore hinner hbehind hv hafter, fuel + 1, level, tail, hfuel => by
    have hstops := @stops_blank_append _ ('}' :: tail) hafter (by simp [Number.Stops])
    simp only [List.length_append, List.length_cons] at hfuel
    have hread := (readValue_blank hbehind fuel level _).trans
      (readValue_written hv level hstops (by omega))
    simp only [List.append_assoc, List.cons_append]
    rw [readEntries_quoted hbefore hinner hread (skipBlanks_blank_cons hafter (by decide) tail)
      (.inr rfl)]
    rfl
  | _, _, .next hbefore hinner hbehind hv hafter hfs, fuel + 1, level, tail, hfuel => by
    have hstops (cs : List Char) : Number.Stops (',' :: cs) := by simp [Number.Stops]
    simp only [List.length_append, List.length_cons] at hfuel
    have hread (cs : List Char) := (readValue_blank hbehind fuel level _).trans
      (readValue_written hv level (stops_blank_append hafter (hstops cs)) (by omega))
    simp only [List.append_assoc, List.cons_append]
    rw [readEntries_quoted hbefore hinner (hread _) (skipBlanks_blank_cons hafter (by decide) _)
      (.inl rfl), if_pos rfl, readEntries_written hfs level tail (by omega)]
    rfl

end

end JsonText

/-! ### The text without blanks -/

namespace Json

mutual

theorem written_compact : ∀ {v : Json}, v.Valid → Written v v.compactChars
  | .null, _ => .null
  | .bool true, _ => .true
  | .bool false, _ => .false
  | .num _, hn => .num hn
  | .str s, _ => .str s
  | .arr [], _ => .noItems rfl
  | .arr (v :: vs), hvs => .items (written_compactItems (List.cons_ne_nil v vs) hvs)
  | .obj [], _ => .noFields rfl
  | .obj (f :: fs), hfs => .fields (written_compactFields (List.cons_ne_nil f fs) hfs)

theorem written_compactItems : ∀ {vs : List Json}, vs ≠ [] → ValidItems vs →
    WrittenItems vs (compactItems vs)
  | [], hne, _ => absurd rfl hne
  | [v], _, hvs => by
    have hlast := @WrittenItems.last v [] _ [] rfl (written_compact hvs.1) rfl
    rwa [List.append_nil] at hlast
  | v :: w :: vs, _, hvs =>
    @WrittenItems.next v (w :: vs) [] _ [] _ rfl (written_compact hvs.1) rfl
      (written_compactItems (List.cons_ne_nil w vs) hvs.2)

theorem written_compactFields : ∀ {fs : List (String × Json)}, fs ≠ [] → ValidFields fs →
    WrittenFields fs (compactFields fs)
  | [], hne, _ => absurd rfl hne
  | [(k, v)], _, hfs => by
    have hlast := @WrittenFields.last k v [] [] [] _ [] rfl rfl rfl (written_compact hfs.1) rfl
    rwa [List.append_nil] at hlast
  | (k, v) :: f :: fs, _, hfs =>
    @WrittenFields.next k v (f :: fs) [] [] [] _ [] _ rfl rfl rfl (written_compact hfs.1) rfl
      (written_compactFields (List.cons_ne_nil f fs) hfs.2)

end

end Json

/-- **A text of a value is read as its tree**, with blanks around it or without. -/
theorem Document.ofChars_blank_written {v : Json} {before cs after : List Char}
    (hbefore : JsonText.Blank before) (h : v.Written cs) (hafter : JsonText.Blank after) :
    Document.ofChars (before ++ (cs ++ after)) =
      ⟨JsonText.treeOf JsonText.maxDepth v, false⟩ := by
  have hstops : Number.Stops after := by
    simpa using JsonText.stops_blank_append hafter Number.stops_nil
  have hfuel : cs.length < (before ++ (cs ++ after)).length + 1 := by
    simp only [List.length_append]
    omega
  rw [Document.ofChars, JsonText.readValue_blank hbefore,
    JsonText.readValue_written h JsonText.maxDepth hstops hfuel]
  dsimp only
  rw [show JsonText.skipBlanks after = [] from hafter]
  rfl

theorem Document.ofChars_written {v : Json} {cs : List Char} (h : v.Written cs) :
    Document.ofChars cs = ⟨JsonText.treeOf JsonText.maxDepth v, false⟩ := by
  simpa using @Document.ofChars_blank_written v [] cs [] rfl h rfl

theorem Document.ofChars_compact {v : Json} (hv : v.Valid) :
    Document.ofChars v.compactChars = ⟨JsonText.treeOf JsonText.maxDepth v, false⟩ :=
  Document.ofChars_written (Json.written_compact hv)

end FrameScope
