import FrameScope.Amount.Display
import FrameScope.Insurance.Line
import FrameScope.Proofs.Amount
import FrameScope.Proofs.Json.Number

/-!
# The time left until a deadline

A deadline has come, or never comes, or its text names the time left in whole units, rounded down
(`Amount.names_ofSeconds`). A text names one time only (`Amount.Names.unique`), and more time is not
rounded down to less (`Amount.rounded_mono`), also where the units change: 59 seconds come before a
minute, 23 hours and 59 minutes before a day. A line of insurance is expired exactly when the text of
its deadline says so (`Amount.expiry_faithful`).
-/

namespace FrameScope.Amount

/-! ### What a text names -/

/-- A text names so many seconds in whole units: the smaller of the two units that it shows, or the
one that it shows alone. -/
inductive Names (text : String) : (seconds unit : Nat) → Prop
  | days (d h : Nat) (hd : 1 ≤ d) (hh : h < 24) (htext : text = s!"in {d}d {h}h") :
      Names text (86400 * d + 3600 * h) 3600
  | hours (h m : Nat) (hh : 1 ≤ h ∧ h < 24) (hm : m < 60) (htext : text = s!"in {h}h {m}m") :
      Names text (3600 * h + 60 * m) 60
  | minutes (m : Nat) (hm : 1 ≤ m ∧ m < 60) (htext : text = s!"in {m}m") : Names text (60 * m) 60
  | seconds (s : Nat) (hs : 1 ≤ s ∧ s < 60) (htext : text = s!"in {s}s") : Names text s 1

/-- The seconds and the unit that are named behind `in`: the unit behind the first number tells the
form. -/
def readTime (cs : List Char) : Nat × Nat :=
  match Number.spanDigits cs with
  | (ds, 'd' :: ' ' :: rest) =>
    (86400 * Decimal.value ds + 3600 * Decimal.value (Number.spanDigits rest).1, 3600)
  | (ds, 'h' :: ' ' :: rest) =>
    (3600 * Decimal.value ds + 60 * Decimal.value (Number.spanDigits rest).1, 60)
  | (ds, ['m']) => (60 * Decimal.value ds, 60)
  | (ds, _) => (Decimal.value ds, 1)

theorem spanDigits_ofNat (n : Nat) {c : Char} (hc : c.isDigit = false) (cs : List Char) :
    Number.spanDigits (Decimal.ofNat n ++ c :: cs) = (Decimal.ofNat n, c :: cs) :=
  Number.spanDigits_digits (Decimal.allDigits_ofNat n) (by simpa using hc)

theorem Names.exists_readTime {text : String} {seconds unit : Nat} (h : Names text seconds unit) :
    ∃ cs, text.toList = "in ".toList ++ cs ∧ readTime cs = (seconds, unit) := by
  cases h with
  | days d h _ _ htext =>
    refine ⟨Decimal.ofNat d ++ 'd' :: ' ' :: (Decimal.ofNat h ++ ['h']), ?_, ?_⟩
    · simp [htext, Decimal.ofNat]
      rfl
    · simp [readTime, spanDigits_ofNat, Decimal.value_ofNat]
  | hours h m _ _ htext =>
    refine ⟨Decimal.ofNat h ++ 'h' :: ' ' :: (Decimal.ofNat m ++ ['m']), ?_, ?_⟩
    · simp [htext, Decimal.ofNat]
      rfl
    · simp [readTime, spanDigits_ofNat, Decimal.value_ofNat]
  | minutes m _ htext =>
    refine ⟨Decimal.ofNat m ++ ['m'], ?_, ?_⟩
    · simp [htext, Decimal.ofNat]
      rfl
    · simp [readTime, spanDigits_ofNat, Decimal.value_ofNat]
  | seconds _ _ htext =>
    refine ⟨Decimal.ofNat seconds ++ ['s'], ?_, ?_⟩
    · simp [htext, Decimal.ofNat]
      rfl
    · simp [readTime, spanDigits_ofNat, Decimal.value_ofNat]

/-- **A text names one time only.** -/
theorem Names.unique {text : String} {s s' u u' : Nat} (h : Names text s u) (h' : Names text s' u') :
    s = s' ∧ u = u' := by
  obtain ⟨cs, htext, hread⟩ := h.exists_readTime
  obtain ⟨cs', htext', hread'⟩ := h'.exists_readTime
  obtain rfl := List.append_cancel_left (htext.symm.trans htext')
  exact Prod.mk.inj (hread.symm.trans hread')

/-! ### Rounding down -/

/-- The unit in which so many seconds are shown. -/
def shownUnit (left : Nat) : Nat :=
  if 86400 ≤ left then 3600 else if 60 ≤ left then 60 else 1

/-- Seconds rounded down to the unit in which they are shown. -/
def rounded (left : Nat) : Nat := left - left % shownUnit left

/-- **Rounding keeps the order**, across the units too. -/
theorem rounded_mono {a b : Nat} (h : a ≤ b) : rounded a ≤ rounded b := by
  unfold rounded shownUnit
  split_ifs <;> omega

theorem rounded_bounds (left : Nat) :
    rounded left ≤ left ∧ left < rounded left + shownUnit left := by
  unfold rounded shownUnit
  split_ifs <;> omega

/-- **The text of some time left names that time, rounded down.** -/
theorem names_ofSeconds {left : Nat} (hleft : 0 < left) :
    Names (Expiry.ofSeconds left).message (rounded left) (shownUnit left) := by
  unfold rounded shownUnit Expiry.ofSeconds
  split
  next hdays =>
    rw [if_pos (by omega), show left - left % 3600 =
      86400 * (left / 86400) + 3600 * (left % 86400 / 3600) by omega]
    exact .days _ _ (by omega) (by omega) rfl
  next hdays =>
    split
    next hminutes =>
      by_cases hhours : 3600 ≤ left
      · rw [if_neg (by omega), if_pos (by omega), show left - left % 60 =
          3600 * (left % 86400 / 3600) + 60 * (left % 3600 / 60) by omega]
        exact .hours _ _ (by omega) (by omega) rfl
      · rw [if_neg (by omega), if_neg (by omega), if_pos (by omega), show left - left % 60 =
          60 * (left % 3600 / 60) by omega]
        exact .minutes _ (by omega) rfl
    next hseconds =>
      rw [if_neg (by omega), if_neg (by omega), if_neg (by omega), Nat.mod_one, Nat.sub_zero]
      exact .seconds _ (by omega) rfl

/-! ### Deadlines -/

variable {now : Nat}

theorem expiry_eq (deadline : Amount) (hnow : now < Word.size) : deadline.expiry now =
    if deadline.toNat ≤ now then .expired
    else if deadline.toNat < Word.size then .ofSeconds (deadline.toNat - now) else .never := by
  rw [expiry, toWord?]
  by_cases hword : deadline.toNat < Word.size
  · rw [if_pos hword, if_pos hword]
  · rw [if_neg hword, if_neg hword, if_neg (by omega)]

theorem Names.ne {text other : String} {seconds unit : Nat} (h : Names text seconds unit)
    (hother : other.toList.head? ≠ some 'i') : text ≠ other := by
  rintro rfl
  obtain ⟨cs, htext, -⟩ := h.exists_readTime
  exact hother (by rw [htext]; rfl)

/-- **A text names a time exactly for a deadline ahead**, and then the time until it, rounded down. -/
theorem names_expiry_iff (deadline : Amount) (hnow : now < Word.size) {seconds unit : Nat} :
    Names (deadline.expiry now).message seconds unit ↔
      (now < deadline.toNat ∧ deadline.toNat < Word.size) ∧
        seconds = rounded (deadline.toNat - now) ∧ unit = shownUnit (deadline.toNat - now) := by
  rw [expiry_eq deadline hnow]
  split
  next hcome => exact iff_of_false (fun h => h.ne (by decide) rfl) (by omega)
  next hahead =>
    split
    next hword =>
      have hnames : Names (Expiry.ofSeconds (deadline.toNat - now)).message _ _ :=
        names_ofSeconds (by omega)
      constructor
      · intro h
        exact ⟨⟨by omega, hword⟩, h.unique hnames⟩
      · rintro ⟨-, rfl, rfl⟩
        exact hnames
    next hword => exact iff_of_false (fun h => h.ne (by decide) rfl) (by omega)

theorem message_eq_expired_iff (deadline : Amount) (hnow : now < Word.size) :
    (deadline.expiry now).message = "expired" ↔ deadline.toNat ≤ now := by
  constructor
  · intro h
    by_contra hahead
    by_cases hword : deadline.toNat < Word.size
    · exact ((names_expiry_iff deadline hnow).mpr ⟨⟨by omega, hword⟩, rfl, rfl⟩).ne (by decide) h
    · rw [expiry_eq deadline hnow, if_neg hahead, if_neg hword] at h
      exact absurd h (by decide)
  · intro h
    rw [expiry_eq deadline hnow, if_pos h]
    rfl

theorem message_eq_never_iff (deadline : Amount) (hnow : now < Word.size) :
    (deadline.expiry now).message = "never" ↔ Word.size ≤ deadline.toNat := by
  constructor
  · intro h
    by_contra hword
    by_cases hcome : deadline.toNat ≤ now
    · rw [(message_eq_expired_iff deadline hnow).mpr hcome] at h
      exact absurd h (by decide)
    · exact ((names_expiry_iff deadline hnow).mpr ⟨by omega, rfl, rfl⟩).ne (by decide) h
  · intro h
    rw [expiry_eq deadline hnow, if_neg (by omega), if_neg (by omega)]
    rfl

theorem isExpired_iff (line : InsuranceLine) (hnow : now < Word.size) :
    line.isExpired now = true ↔ line.expires.toNat ≤ now := by
  rw [InsuranceLine.isExpired, toWord?]
  by_cases hword : line.expires.toNat < Word.size
  · rw [if_pos hword]
    exact decide_eq_true_iff
  · rw [if_neg hword]
    exact iff_of_false Bool.noConfusion (by omega)

/-- **The text of a deadline is right about it**: it says `expired` when the deadline has come, which
is when a line of insurance with it is expired, and `never` when 64 bits do not hold it. For any other
it names a time that the time left reaches and does not exceed by a unit, and a later deadline is
named no shorter time. -/
theorem expiry_faithful (deadline : Amount) (hnow : now < Word.size) :
    ((deadline.expiry now).message = "expired" ↔ deadline.toNat ≤ now) ∧
      (∀ line : InsuranceLine, line.expires = deadline →
        (line.isExpired now = true ↔ deadline.toNat ≤ now)) ∧
      ((deadline.expiry now).message = "never" ↔ Word.size ≤ deadline.toNat) ∧
      ((∃ seconds unit, Names (deadline.expiry now).message seconds unit) ↔
        now < deadline.toNat ∧ deadline.toNat < Word.size) ∧
      (∀ seconds unit, Names (deadline.expiry now).message seconds unit →
        seconds ≤ deadline.toNat - now ∧ deadline.toNat - now < seconds + unit) ∧
      ∀ (later : Amount) (seconds unit seconds' unit' : Nat), deadline.toNat ≤ later.toNat →
        Names (deadline.expiry now).message seconds unit →
          Names (later.expiry now).message seconds' unit' → seconds ≤ seconds' := by
  refine ⟨message_eq_expired_iff deadline hnow, ?line, message_eq_never_iff deadline hnow, ?names,
    ?bounds, ?order⟩
  case line =>
    rintro line rfl
    exact isExpired_iff line hnow
  case names =>
    simp only [names_expiry_iff deadline hnow, exists_and_left, exists_eq, and_true]
  case bounds =>
    intro seconds unit h
    obtain ⟨-, rfl, rfl⟩ := (names_expiry_iff deadline hnow).mp h
    exact rounded_bounds _
  case order =>
    intro later seconds unit seconds' unit' hlater h h'
    obtain ⟨-, rfl, -⟩ := (names_expiry_iff deadline hnow).mp h
    obtain ⟨-, rfl, -⟩ := (names_expiry_iff later hnow).mp h'
    exact rounded_mono (Nat.sub_le_sub_right hlater now)

/-- A line of insurance that runs out a second before an hour is over. -/
def lastMinuteLine : InsuranceLine := ⟨"I", 1, zero, ofNat 4599⟩

theorem expiry_faithful_lastMinuteLine :
    1000 < Word.size ∧ lastMinuteLine.isExpired 1000 = false ∧
      (lastMinuteLine.expires.expiry 1000).message = "in 59m" ∧
        Names (lastMinuteLine.expires.expiry 1000).message 3540 60 ∧
          Names ((ofNat 4600).expiry 1000).message 3600 60 ∧
            (3540 ≤ 4599 - 1000 ∧ 4599 - 1000 < 3540 + 60) ∧ 3540 ≤ 3600 := by
  have hnow : 1000 < Word.size := by decide
  have hnear : lastMinuteLine.expires.toNat = 4599 := toNat_ofNat 4599
  have hlater : (ofNat 4600).toNat = 4600 := toNat_ofNat 4600
  have htext : (lastMinuteLine.expires.expiry 1000).message = "in 59m" := by decide +kernel
  have hnext : ((ofNat 4600).expiry 1000).message = "in 1h 0m" := by decide +kernel
  have hnames : Names (lastMinuteLine.expires.expiry 1000).message 3540 60 :=
    .minutes 59 (by decide) htext
  have hnames' : Names ((ofNat 4600).expiry 1000).message 3600 60 :=
    .hours 1 0 (by decide) (by decide) hnext
  obtain ⟨-, hline, -, -, hbounds, horder⟩ := expiry_faithful lastMinuteLine.expires hnow
  refine ⟨hnow, ?_, htext, hnames, hnames', ?_, ?_⟩
  · rw [← Bool.not_eq_true, hline lastMinuteLine rfl, hnear]
    decide
  · rw [← hnear]
    exact hbounds _ _ hnames
  · exact horder _ _ _ _ _ (by rw [hnear, hlater]; decide) hnames hnames'

end FrameScope.Amount
