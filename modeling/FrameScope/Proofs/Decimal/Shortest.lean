import FrameScope.Decimal.Shortest
import Mathlib.Tactic.Common

/-!
# The shortest decimal reads back

A magnitude in units is nearest to itself (`nearestRank_units`), so the grid `10 ^ -1074`, where the
search ends, reads back too, and with it whatever the search finds (`nearest_shortest`).
-/

namespace FrameScope.Binary64

variable {rank c d : Nat} {scale : Int}

/-! ### Ranks -/

theorem units_of_lt (h : rank < binade) : units rank = rank := by
  have hexponent : exponent rank = 0 := by rw [exponent, Nat.div_eq_of_lt h]
  rw [units, significand, if_pos h, hexponent]
  exact Nat.mul_one rank

theorem units_of_le (h : binade ≤ rank) :
    units rank = (binade + rank % binade) * Nat.pow 2 (exponent rank) := by
  rw [units, significand, if_neg (Nat.not_lt.mpr h)]

theorem log2_units (h : binade ≤ rank) : (units rank).log2 = 52 + exponent rank := by
  have hmod : rank % binade < binade := Nat.mod_lt _ (by decide)
  have hpow : 0 < Nat.pow 2 (exponent rank) := Nat.two_pow_pos _
  have hne : units rank ≠ 0 := by
    rw [units_of_le h]
    exact Nat.mul_ne_zero (by simp [binade]) (Nat.ne_of_gt hpow)
  rw [Nat.log2_eq_iff hne, units_of_le h, Nat.pow_succ, Nat.pow_add]
  have hlow :=
    Nat.mul_le_mul_right (Nat.pow 2 (exponent rank)) (Nat.le_add_right binade (rank % binade))
  have hhigh := Nat.mul_lt_mul_of_pos_right (Nat.add_lt_add_left hmod binade) hpow
  simp only [binade, Nat.pow_eq] at hlow hhigh ⊢
  omega

theorem nearestRank_exact {m e : Nat} (hd : 0 < d) (he : (m * Nat.pow 2 e).log2 - 52 = e) :
    nearestRank (m * Nat.pow 2 e * d) d = e * binade + m := by
  have hpow : 0 < Nat.pow 2 e := Nat.two_pow_pos _
  have hquotient : m * Nat.pow 2 e * d / d = m * Nat.pow 2 e := Nat.mul_div_cancel _ hd
  have hdigits : m * Nat.pow 2 e / Nat.pow 2 e = m := Nat.mul_div_cancel _ hpow
  have hleft : m * Nat.pow 2 e * d - m * (Nat.pow 2 e * d) = 0 := by rw [Nat.mul_assoc, Nat.sub_self]
  have hgap : Nat.pow 2 e * d ≠ 0 := Nat.mul_ne_zero (Nat.ne_of_gt hpow) (Nat.ne_of_gt hd)
  simp only [nearestRank, hquotient, he, hdigits, hleft]
  rw [if_neg (by omega)]

theorem nearestRank_units (rank : Nat) (hd : 0 < d) : nearestRank (units rank * d) d = rank := by
  rcases Nat.lt_or_ge rank binade with h | h
  · have hlog : (rank * Nat.pow 2 0).log2 - 52 = 0 := by
      rw [show rank * Nat.pow 2 0 = rank from Nat.mul_one rank]
      rcases Nat.eq_zero_or_pos rank with rfl | hpos
      · simp
      · have := (Nat.log2_lt (k := 52) (Nat.ne_of_gt hpos)).mpr h
        omega
    have hexact := nearestRank_exact hd hlog
    rw [Nat.zero_mul, Nat.zero_add, show rank * Nat.pow 2 0 = rank from Nat.mul_one rank] at hexact
    rw [units_of_lt h, hexact]
  · have hlog : ((binade + rank % binade) * Nat.pow 2 (exponent rank)).log2 - 52 = exponent rank := by
      rw [← units_of_le h, log2_units h, Nat.add_sub_cancel_left]
    have hone : 1 ≤ rank / binade := (Nat.one_le_div_iff (by decide)).mpr h
    have hsplit := Nat.div_add_mod' rank binade
    have hmul : (rank / binade - 1) * binade + binade = rank / binade * binade := by
      rw [← Nat.succ_mul, Nat.succ_eq_add_one, Nat.sub_add_cancel hone]
    rw [units_of_le h, nearestRank_exact hd hlog, exponent]
    omega

theorem nearestRank_mul {num den k : Nat} (hk : 0 < k) :
    nearestRank (num * k) (den * k) = nearestRank num den := by
  have hquotient : num * k / (den * k) = num / den := Nat.mul_div_mul_right num den hk
  simp only [nearestRank, hquotient]
  generalize Nat.pow 2 ((num / den).log2 - 52) = step
  have hgap : step * (den * k) = step * den * k := (Nat.mul_assoc _ _ _).symm
  have hleft : num * k - num / den / step * (step * (den * k)) =
      (num - num / den / step * (step * den)) * k := by
    rw [hgap, ← Nat.mul_assoc, Nat.sub_mul]
  rw [hleft, hgap]
  generalize num - num / den / step * (step * den) = left
  have hlt : step * den * k < 2 * (left * k) ↔ step * den < 2 * left := by
    rw [← Nat.mul_assoc, Nat.mul_lt_mul_right hk]
  have heq : 2 * (left * k) = step * den * k ↔ 2 * left = step * den := by
    rw [← Nat.mul_assoc, Nat.mul_left_inj (Nat.ne_of_gt hk)]
  simp only [hlt, heq]

/-! ### Nearest numbers -/

theorem ofRank_eq_finite {s t : Bool} {r : Nat} (h : ofRank s r = .finite t rank) :
    t = s ∧ r = rank ∧ rank < rankCount := by
  unfold ofRank at h
  split at h
  · rename_i hr
    simp only [Binary64.finite.injEq] at h
    exact ⟨h.1.symm, h.2, h.2 ▸ hr⟩
  · simp at h

theorem ofRank_of_lt (s : Bool) (h : rank < rankCount) : ofRank s rank = .finite s rank := if_pos h

theorem nearest_zero (s : Bool) (scale : Int) : nearest s 0 scale = .finite s 0 := by simp [nearest]

theorem nearest_ofNat (s : Bool) (hc : c ≠ 0) {k : Nat} (hk : k ≤ decimalReach) :
    nearest s c (.ofNat k) = ofRank s (nearestRank (c * Nat.pow 10 k * unitsInOne) 1) := by
  unfold nearest
  rw [if_neg hc]
  exact if_neg (Nat.not_lt.mpr hk)

theorem nearest_negSucc (s : Bool) (hc : c ≠ 0) {k : Nat}
    (hk : -(decimalReach : Int) ≤ (c.log2 / 3 + 1 : Int) + .negSucc k) :
    nearest s c (.negSucc k) = ofRank s (nearestRank (c * unitsInOne) (Nat.pow 10 (k + 1))) := by
  unfold nearest
  rw [if_neg hc]
  exact if_neg (Int.not_lt.mpr hk)

theorem nearest_cases (c : Nat) (scale : Int) :
    (∀ s, nearest s c scale = .finite s 0) ∨ (∀ s, nearest s c scale = .infinite s) ∨
      ∃ r, ∀ s, nearest s c scale = ofRank s r := by
  by_cases hc : c = 0
  · exact .inl fun s => by rw [hc, nearest_zero]
  · cases scale with
    | ofNat k =>
      by_cases hk : decimalReach < k
      · exact .inr (.inl fun s => by simp [nearest, hc, hk])
      · exact .inr (.inr ⟨_, fun s => nearest_ofNat s hc (Nat.not_lt.mp hk)⟩)
    | negSucc k =>
      by_cases hk : (c.log2 / 3 + 1 : Int) + .negSucc k < -(decimalReach : Int)
      · exact .inl fun s => by simp only [nearest, if_neg hc, if_pos hk]
      · exact .inr (.inr ⟨_, fun s => nearest_negSucc s hc (Int.not_lt.mp hk)⟩)

theorem nearest_eq_finite {s t : Bool} (h : nearest s c scale = .finite t rank) :
    t = s ∧ rank < rankCount ∧ ∀ u, nearest u c scale = .finite u rank := by
  rcases nearest_cases c scale with hzero | hinfinite | ⟨r, hr⟩
  · rw [hzero s] at h
    obtain ⟨rfl, rfl⟩ := Binary64.finite.inj h
    exact ⟨rfl, by decide, hzero⟩
  · rw [hinfinite s] at h
    simp at h
  · rw [hr s] at h
    obtain ⟨rfl, rfl, hlt⟩ := ofRank_eq_finite h
    exact ⟨rfl, hlt, fun u => by rw [hr u, ofRank_of_lt u hlt]⟩

theorem mul_pow_five_mul_pow_two (n k : Nat) : n * Nat.pow 5 k * Nat.pow 2 k = n * Nat.pow 10 k := by
  rw [Nat.mul_assoc]
  exact congrArg (n * ·) (Nat.mul_pow 5 2 k).symm

/-- The grid of the unit's last decimal holds every magnitude; its points are not too small. -/
theorem nearest_units {rank n k b : Nat} (h : rank < rankCount) (hn : n = k + 1)
    (hunit : unitsInOne = Nat.pow 2 n) (hb : k ≤ b / 3 + decimalReach)
    (hfive : Nat.pow 2 b ≤ Nat.pow 5 n) :
    nearest false (units rank * Nat.pow 5 n) (.negSucc k) = .finite false rank := by
  have hten : units rank * Nat.pow 5 n * unitsInOne = units rank * Nat.pow 10 n := by
    rw [hunit]
    exact mul_pow_five_mul_pow_two (units rank) n
  have hexact := nearestRank_units rank (d := Nat.pow 10 n) (Nat.pow_pos (by decide))
  by_cases hc : units rank * Nat.pow 5 n = 0
  · have hunits : units rank = 0 :=
      (Nat.mul_eq_zero.mp hc).resolve_right (Nat.ne_of_gt (Nat.pow_pos (by decide)))
    have hrank : rank = 0 := by
      rw [hunits, Nat.zero_mul] at hexact
      rw [← hexact, nearestRank, Nat.zero_div]
      simp
    rw [hc, nearest_zero, hrank]
  · have hlog : b ≤ (units rank * Nat.pow 5 n).log2 := by
      rw [Nat.le_log2 hc]
      have hunits : 1 ≤ units rank := Nat.pos_of_ne_zero fun h0 => hc (by rw [h0, Nat.zero_mul])
      exact Nat.le_trans hfive (Nat.le_mul_of_pos_left _ hunits)
    rw [nearest_negSucc false hc (by omega), ← hn, hten, hexact, ofRank_of_lt false h]

theorem nearest_expand (s : Bool) (c : Nat) {k : Nat} (hk : k ≤ decimalReach) :
    nearest s (c * Nat.pow 10 k * 10) (.negSucc 0) = nearest s c (.ofNat k) := by
  by_cases hc : c = 0
  · rw [hc, Nat.zero_mul, Nat.zero_mul, nearest_zero, nearest_zero]
  · have hne : c * Nat.pow 10 k * 10 ≠ 0 :=
      Nat.mul_ne_zero (Nat.mul_ne_zero hc (Nat.ne_of_gt (Nat.pow_pos (by decide)))) (by decide)
    have hexpand : c * Nat.pow 10 k * 10 * unitsInOne = c * Nat.pow 10 k * unitsInOne * 10 := by
      rw [Nat.mul_assoc, Nat.mul_comm 10, ← Nat.mul_assoc]
    rw [nearest_ofNat s hc hk, nearest_negSucc s hne (by simp only [decimalReach]; omega), hexpand]
    exact congrArg (ofRank s) (@nearestRank_mul _ 1 _ (by decide))

theorem readsBack_of_gridPoint? (h : gridPoint? rank scale = some c) :
    nearest false c scale = .finite false rank := by
  have htries : ∃ first second, gridPoint? rank scale =
      if readsBack rank first scale then some first
      else if readsBack rank second scale then some second else none := ⟨_, _, rfl⟩
  obtain ⟨first, second, htries⟩ := htries
  rw [htries] at h
  suffices hc : readsBack rank c scale = true by simpa [readsBack] using hc
  grind

theorem nearest_search {rank : Nat} (h : rank < rankCount) (scale : Int) (fuel : Nat) :
    nearest false (search rank scale fuel).coefficient (search rank scale fuel).scale =
      .finite false rank := by
  induction fuel generalizing scale with
  | zero =>
    have hfinest : (-1074 : Int) = .negSucc 1073 := rfl
    rw [search, hfinest]
    -- With a name for the exponent no power of this size is computed in passing.
    generalize hn : 1074 = n
    have hunit : unitsInOne = Nat.pow 2 n := by
      subst hn
      decide +kernel
    have hfive : Nat.pow 2 2100 ≤ Nat.pow 5 n := by
      subst hn
      decide +kernel
    exact nearest_units h hn.symm hunit (by decide) hfive
  | succ fuel ih =>
    rw [search]
    split
    · rename_i d hd
      exact readsBack_of_gridPoint? hd
    · exact ih (scale - 1)

/-- **The shortest decimal of a magnitude reads back as the magnitude.** -/
theorem nearest_shortest (s : Bool) {rank : Nat} (h : rank < rankCount) :
    nearest s (shortest rank).coefficient (shortest rank).scale = .finite s rank := by
  unfold shortest
  split
  · rename_i hzero
    rw [nearest_zero, hzero]
  · exact (nearest_eq_finite (nearest_search h _ _)).2.2 s

end FrameScope.Binary64
