import FrameScope.Proofs.Json.Append

/-!
# The text of an object

`Member`: a key and a value as a text spells them. The tree of an object's text is the map of its
members' trees (`Document.ofChars_spells`), whatever blanks stand between them.
-/

namespace FrameScope.JsonText

open Node
open Number (Stops)

/-- The text that a literal holds, when nothing but blanks stand around it. -/
def literal? (cs : List Char) : Option String :=
  match skipBlanks cs with
  | '"' :: rest =>
    match readString rest with
    | some (some s, after) => if Blank after then some s else none
    | _ => none
  | _ => none

/-- One value and blanks, with so many containers left to open. -/
def IsValue (level : Nat) (cs : List Char) : Prop :=
  (readValue (cs.length + 1) level cs).2.any (fun rest => Blank rest) = true

instance (level : Nat) (cs : List Char) : Decidable (IsValue level cs) :=
  inferInstanceAs (Decidable (_ = _))

/-- An entry of an object as a text spells it: what stands in front of the colon and behind it, and
the name that the key holds. -/
structure Member where
  keyText : List Char
  valueText : List Char
  key : String
  isKey : literal? keyText = some key
  isValue : IsValue (maxDepth - 1) valueText

namespace Member

/-- The tree of the value. -/
def value (m : Member) : Node := (readValue (m.valueText.length + 1) (maxDepth - 1) m.valueText).1

/-- The name and the tree of the value. -/
def entry (m : Member) : String × Node := (m.key, m.value)

@[simp] theorem entry_fst (m : Member) : m.entry.1 = m.key := rfl

@[simp] theorem entry_snd (m : Member) : m.entry.2 = m.value := rfl

def text (m : Member) : List Char := m.keyText ++ ':' :: m.valueText

end Member

/-- Members with commas between them. -/
def membersText (members : List Member) : List Char :=
  List.intercalate [','] (members.map Member.text)

/-- An object in braces. -/
def objectText (members : List Member) : List Char := '{' :: (membersText members ++ ['}'])

/-- The text of an object with these members; blanks may stand around its braces and behind the
opening one. -/
def Spells (members : List Member) (cs : List Char) : Prop :=
  ∃ before inside after, Blank before ∧ Blank inside ∧ Blank after ∧
    cs = before ++ '{' :: (inside ++ (membersText members ++ '}' :: after))

theorem spells_objectText (members : List Member) : Spells members (objectText members) :=
  ⟨[], [], [], rfl, rfl, rfl, rfl⟩

/-! ### One member -/

namespace Member

variable (m : Member)

theorem exists_key : ∃ inner after, skipBlanks m.keyText = '"' :: inner ∧
    readString inner = some (some m.key, after) ∧ Blank after := by
  have h := m.isKey
  unfold literal? at h
  split at h
  · rename_i inner hquote
    split at h
    · rename_i s after hread
      split at h
      · rename_i hblank
        obtain rfl := Option.some.inj h
        exact ⟨inner, after, hquote, hread, hblank⟩
      · simp at h
    · simp at h
  · simp at h

theorem exists_value : ∃ rest,
    readValue (m.valueText.length + 1) (maxDepth - 1) m.valueText = (m.value, some rest) ∧
      Blank rest := by
  have h := m.isValue
  rw [IsValue, Option.any_eq_true] at h
  obtain ⟨rest, hrest, hblank⟩ := h
  exact ⟨rest, Prod.ext rfl hrest, by simpa using hblank⟩

theorem length_valueText_lt : m.valueText.length + 1 < m.text.length := by
  obtain ⟨inner, after, hquote, -, -⟩ := m.exists_key
  have hkey : 0 < m.keyText.length := by
    rw [List.length_pos_iff]
    intro hnil
    simp [hnil, skipBlanks] at hquote
  simp only [text, List.length_append, List.length_cons]
  omega

theorem skipBlanks_text (tail : List Char) :
    ∃ inner, skipBlanks (m.text ++ tail) = '"' :: inner := by
  obtain ⟨inner, after, hquote, -, -⟩ := m.exists_key
  refine ⟨inner ++ (':' :: m.valueText ++ tail), ?_⟩
  rw [text, List.append_assoc, skipBlanks_append_of_cons hquote]

end Member

theorem skipBlanks_of_not_blank {c : Char} (hc : isBlank c = false) (cs : List Char) :
    skipBlanks (c :: cs) = c :: cs := by
  simp [skipBlanks, hc]

theorem readEntries_member (m : Member) {fuel : Nat} (hfuel : m.valueText.length < fuel) {c : Char}
    (hc : c = ',' ∨ c = '}') (more : List Char) :
    readEntries (fuel + 1) (maxDepth - 1) (m.text ++ c :: more) =
      if c = ',' then
        ((.name m.key, m.value) :: (readEntries fuel (maxDepth - 1) more).1,
          (readEntries fuel (maxDepth - 1) more).2)
      else ([(.name m.key, m.value)], some more) := by
  obtain ⟨inner, behindKey, hquote, hkey, hbehindKey⟩ := m.exists_key
  obtain ⟨rest, hvalue, hrest⟩ := m.exists_value
  have hstops : Stops (c :: more) := by rcases hc with rfl | rfl <;> simp [Stops]
  have hblank : skipBlanks (c :: more) = c :: more :=
    skipBlanks_of_not_blank (by rcases hc with rfl | rfl <;> decide) more
  have hread := readValue_append hfuel hstops hvalue
  rw [readEntries, Member.text, List.append_assoc, skipBlanks_append_of_cons hquote]
  rcases hc with rfl | rfl <;>
    simp [readString_append hkey, hbehindKey.skipBlanks_append, hread, hrest.skipBlanks_append,
      skipBlanks_of_not_blank (c := ':') (by decide), hblank]

/-! ### All members -/

@[simp] theorem membersText_singleton (m : Member) : membersText [m] = m.text := by
  simp [membersText]

theorem membersText_cons_cons (m n : Member) (ms : List Member) :
    membersText (m :: n :: ms) = m.text ++ ',' :: membersText (n :: ms) := by
  simp [membersText, List.intercalate]

theorem readEntries_members (m : Member) (ms : List Member) {fuel : Nat} (after : List Char)
    (hfuel : (membersText (m :: ms)).length ≤ fuel) :
    readEntries fuel (maxDepth - 1) (membersText (m :: ms) ++ '}' :: after) =
      ((m :: ms).map fun m => (.name m.key, m.value), some after) := by
  induction ms generalizing m fuel with
  | nil =>
    have hlt := m.length_valueText_lt
    rw [membersText_singleton] at hfuel ⊢
    obtain ⟨fuel, rfl⟩ : ∃ n, fuel = n + 1 := ⟨fuel - 1, by omega⟩
    rw [readEntries_member m (by omega) (.inr rfl) after]
    rfl
  | cons n ms ih =>
    have hlt := m.length_valueText_lt
    rw [membersText_cons_cons, List.length_append, List.length_cons] at hfuel
    obtain ⟨fuel, rfl⟩ : ∃ n, fuel = n + 1 := ⟨fuel - 1, by omega⟩
    rw [membersText_cons_cons, List.append_assoc, List.cons_append,
      readEntries_member m (by omega) (.inl rfl), ih n (by omega)]
    rfl

theorem readEntries_skipBlanks (fuel level : Nat) (cs : List Char) :
    readEntries fuel level (skipBlanks cs) = readEntries fuel level cs := by
  cases fuel with
  | zero => rfl
  | succ fuel => simp only [readEntries, skipBlanks_skipBlanks]

theorem readValue_spells {members : List Member} {before inside : List Char} (after : List Char)
    (hbefore : Blank before) (hinside : Blank inside) {fuel : Nat}
    (hfuel : (membersText members).length ≤ fuel) :
    readValue (fuel + 1) maxDepth
        (before ++ '{' :: (inside ++ (membersText members ++ '}' :: after))) =
      (.map (members.map fun m => (.name m.key, m.value)), some after) := by
  rw [readValue, hbefore.skipBlanks_append, skipBlanks_of_not_blank (c := '{') (by decide)]
  simp only [hinside.skipBlanks_append]
  cases members with
  | nil => simp [membersText, skipBlanks_of_not_blank (c := '}') (by decide), atLevel, maxDepth]
  | cons m ms =>
    obtain ⟨inner, hquote⟩ : ∃ inner,
        skipBlanks (membersText (m :: ms) ++ '}' :: after) = '"' :: inner := by
      cases ms with
      | nil => exact membersText_singleton m ▸ m.skipBlanks_text _
      | cons n ms =>
        rw [membersText_cons_cons, List.append_assoc]
        exact m.skipBlanks_text _
    have hentries := readEntries_members m ms after hfuel
    rw [← readEntries_skipBlanks, hquote] at hentries
    have hlevel : maxDepth ≠ 0 := by decide
    simp [hquote, hentries, atLevel, hlevel]

end FrameScope.JsonText

namespace FrameScope

open JsonText

/-- **The tree of an object's text is the map of its members' trees.** -/
theorem Document.ofChars_spells {members : List Member} {cs : List Char}
    (h : Spells members cs) :
    Document.ofChars cs = ⟨.map (members.map fun m => (.name m.key, m.value)), false⟩ := by
  obtain ⟨before, inside, after, hbefore, hinside, hafter, rfl⟩ := h
  have hfuel : (membersText members).length ≤
      (before ++ '{' :: (inside ++ (membersText members ++ '}' :: after))).length := by
    simp only [List.length_append, List.length_cons]
    omega
  have hread := readValue_spells after hbefore hinside hfuel
  rw [Document.ofChars, hread]
  simpa [Blank] using hafter

end FrameScope
