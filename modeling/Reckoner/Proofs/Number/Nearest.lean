/-
Reading a decimal as the nearest double. The units of the doubles increase with their ordinals, and
`ordinalBelow` inverts them, so that the ratio which a double stands for is read as that double. What
is read depends on the ratio alone and not on the fraction that it is written as, and it grows with
the ratio.
-/
import Reckoner.Number.Decimal
import Mathlib.Tactic

namespace Reckoner.Number

/-! ## Units -/

theorem units_of_lt {k : Nat} (h : k < 2 ^ 52) : units k = k := by
  unfold units
  rw [Nat.pow_eq, Nat.div_eq_of_lt h]
  simp

/-- From the first power of two on, units are a mantissa of 53 bits times a power of two. -/
theorem units_normal (q : Nat) {r : Nat} (h : r < 2 ^ 52) :
    units ((q + 1) * 2 ^ 52 + r) = (2 ^ 52 + r) * 2 ^ q := by
  have hq : ((q + 1) * 2 ^ 52 + r) / 2 ^ 52 = q + 1 := by omega
  unfold units
  simp only [Nat.pow_eq, hq, Nat.add_sub_cancel]
  congr 1
  omega

/-- The formula for a binade holds at the first double of the next one, too. -/
theorem units_binade (q : Nat) {r : Nat} (h : r ≤ 2 ^ 52) :
    units ((q + 1) * 2 ^ 52 + r) = (2 ^ 52 + r) * 2 ^ q := by
  rcases Nat.lt_or_eq_of_le h with h | rfl
  · exact units_normal q h
  · have hnext : (q + 1) * 2 ^ 52 + 2 ^ 52 = (q + 1 + 1) * 2 ^ 52 + 0 := by ring
    rw [hnext, units_normal (q + 1) (by positivity), pow_succ 2 q]
    ring

theorem ordinal_cases (k : Nat) : k < 2 ^ 52 ∨ ∃ q r, r < 2 ^ 52 ∧ k = (q + 1) * 2 ^ 52 + r := by
  by_cases h : k < 2 ^ 52
  · exact .inl h
  · refine .inr ⟨k / 2 ^ 52 - 1, k % 2 ^ 52, Nat.mod_lt _ (by positivity), ?_⟩
    omega

theorem units_lt_succ (k : Nat) : units k < units (k + 1) := by
  rcases ordinal_cases k with h | ⟨q, r, hr, rfl⟩
  · rw [units_of_lt h]
    by_cases h' : k + 1 < 2 ^ 52
    · rw [units_of_lt h']
      omega
    · -- the last subnormal double
      obtain rfl : k = 2 ^ 52 - 1 := by omega
      decide
  · rw [units_normal q hr]
    by_cases h' : r + 1 < 2 ^ 52
    · rw [Nat.add_assoc, units_normal q h']
      have := Nat.two_pow_pos q
      nlinarith
    · -- the last mantissa of a binade, behind which the exponent grows
      obtain rfl : r = 2 ^ 52 - 1 := by omega
      have : (q + 1) * 2 ^ 52 + (2 ^ 52 - 1) + 1 = (q + 1 + 1) * 2 ^ 52 + 0 := by omega
      rw [this, units_normal (q + 1) (by positivity), pow_succ]
      have := Nat.two_pow_pos q
      omega

theorem units_strictMono : StrictMono units :=
  strictMono_nat_of_lt_succ units_lt_succ

theorem ordinalBelow_units (k : Nat) : ordinalBelow (units k) = k := by
  unfold ordinalBelow
  rcases ordinal_cases k with h | ⟨q, r, hr, rfl⟩
  · rw [units_of_lt h]
    have hlog : k.log2 - 52 = 0 := by
      by_cases h0 : k = 0
      · subst h0
        rfl
      · have := (Nat.log2_lt h0).2 h
        omega
    simp [hlog]
  · rw [units_normal q hr]
    have hpos := Nat.two_pow_pos q
    have hlog : ((2 ^ 52 + r) * 2 ^ q).log2 = 52 + q := by
      rw [Nat.log2_eq_iff (by positivity)]
      constructor
      · rw [pow_add]
        exact Nat.mul_le_mul_right _ (by omega)
      · rw [show 52 + q + 1 = 53 + q by omega, pow_add]
        exact Nat.mul_lt_mul_of_pos_right (by omega) hpos
    simp only [hlog, Nat.add_sub_cancel_left, Nat.pow_eq, Nat.mul_div_cancel _ hpos]
    omega

/-- The double found has at most `n` units, and the next one has more. -/
theorem units_ordinalBelow (n : Nat) :
    units (ordinalBelow n) ≤ n ∧ n < units (ordinalBelow n + 1) := by
  by_cases h : n < 2 ^ 52
  · have hlog : n.log2 - 52 = 0 := by
      by_cases h0 : n = 0
      · subst h0
        rfl
      · have := (Nat.log2_lt h0).2 h
        omega
    have hself : ordinalBelow n = n := by simp [ordinalBelow, hlog]
    have hunits := units_of_lt h
    have hnext := units_lt_succ n
    rw [hself]
    omega
  · obtain ⟨q, hq⟩ : ∃ q, n.log2 = 52 + q := by
      have hlog : 52 ≤ n.log2 := (Nat.le_log2 (by omega)).2 (by omega)
      exact ⟨n.log2 - 52, by omega⟩
    obtain ⟨hlow, hhigh⟩ := (Nat.log2_eq_iff (by omega)).1 hq
    have hpos := Nat.two_pow_pos q
    -- the mantissa is what is left of `n` when its last `q` bits are dropped
    have hmantissa : 2 ^ 52 ≤ n / 2 ^ q ∧ n / 2 ^ q < 2 ^ 53 := by
      rw [Nat.le_div_iff_mul_le hpos, Nat.div_lt_iff_lt_mul hpos, ← pow_add, ← pow_add]
      exact ⟨hlow, by rwa [show 53 + q = 52 + q + 1 by omega]⟩
    obtain ⟨r, hr⟩ : ∃ r, n / 2 ^ q = 2 ^ 52 + r := ⟨n / 2 ^ q - 2 ^ 52, by omega⟩
    have hordinal : ordinalBelow n = (q + 1) * 2 ^ 52 + r := by
      simp only [ordinalBelow, hq, Nat.add_sub_cancel_left, Nat.pow_eq, hr]
      ring
    rw [hordinal, units_binade q (by omega), Nat.add_assoc, units_binade q (by omega), ← Nat.add_assoc, ← hr]
    exact ⟨Nat.div_mul_le_self n _, by rw [Nat.mul_comm]; exact Nat.lt_mul_div_succ n hpos⟩

/-! ## Nearest doubles -/

/-- The exact value of a double is read as the double. -/
theorem nearest_units {k : Nat} (h : k < infinity) {den : Nat} (hd : 0 < den) (num : Nat)
    (hnum : num * Nat.pow 2 1074 = units k * den) : nearest num den = k := by
  unfold nearest
  simp only [hnum, Nat.mul_div_cancel _ hd, ordinalBelow_units]
  rw [if_neg (by omega)]
  -- the value lies below the middle of the double and the next one, so it is not rounded up
  have hlt : 2 * (units k * den) < (units k + units (k + 1)) * den := by
    have := units_lt_succ k
    nlinarith
  rw [Nat.compare_eq_lt.2 hlt]

theorem nearest_zero {den : Nat} (hd : 0 < den) : nearest 0 den = 0 := by
  have hunits : units 0 = 0 := units_of_lt (by positivity)
  refine nearest_units (by decide) hd 0 ?_
  simp only [hunits, Nat.zero_mul]

theorem compare_mul_right (a b : Nat) {c : Nat} (hc : 0 < c) :
    compare (a * c) (b * c) = compare a b := by
  rcases Nat.lt_trichotomy a b with h | rfl | h
  · rw [Nat.compare_eq_lt.2 h, Nat.compare_eq_lt.2 (Nat.mul_lt_mul_of_pos_right h hc)]
  · simp
  · rw [Nat.compare_eq_gt.2 h, Nat.compare_eq_gt.2 (Nat.mul_lt_mul_of_pos_right h hc)]

/-- What is read depends on the ratio only. -/
theorem nearest_mul (num den : Nat) {c : Nat} (hc : 0 < c) :
    nearest (num * c) (den * c) = nearest num den := by
  unfold nearest
  generalize Nat.pow 2 1074 = unit
  have hscaled : num * c * unit = num * unit * c := by ring
  have hden (m : Nat) : m * (den * c) = m * den * c := by ring
  simp only [hscaled, hden, ← Nat.mul_assoc 2, Nat.mul_div_mul_right _ _ hc, compare_mul_right _ _ hc]

/-! ## The order of what is read -/

theorem nearest_le_infinity (num den : Nat) : nearest num den ≤ infinity := by
  unfold nearest
  dsimp only
  split
  · exact le_refl _
  · split
    · omega
    · omega
    · split <;> omega

/-- A ratio is read as a double up to `k` exactly when it lies below the middle of `k` and the next
double, or on it where `k` is even. -/
theorem nearest_le_iff {k : Nat} (hk : k < infinity) (num : Nat) {den : Nat} (hd : 0 < den) :
    nearest num den ≤ k ↔ 2 * (num * Nat.pow 2 1074) < (units k + units (k + 1)) * den ∨
      2 * (num * Nat.pow 2 1074) = (units k + units (k + 1)) * den ∧ k % 2 = 0 := by
  unfold nearest
  generalize num * Nat.pow 2 1074 = scaled
  dsimp only
  obtain ⟨hlow, hhigh⟩ := units_ordinalBelow (scaled / den)
  rw [Nat.le_div_iff_mul_le hd] at hlow
  rw [Nat.div_lt_iff_lt_mul hd] at hhigh
  generalize ordinalBelow (scaled / den) = low at hlow hhigh ⊢
  rcases Nat.lt_trichotomy k low with h | rfl | h
  · -- the ratio is at least `low`, and so above the middle
    have hnext := units_strictMono.monotone (show k + 1 ≤ low from h)
    have hmiddle : (units k + units (k + 1)) * den < 2 * scaled := by
      have := units_lt_succ k
      nlinarith
    constructor
    · intro hle
      split at hle
      · omega
      · split at hle
        · omega
        · omega
        · split at hle <;> omega
    · omega
  · rw [if_neg (by omega)]
    rcases Nat.lt_trichotomy (2 * scaled) ((units k + units (k + 1)) * den) with h | h | h
    · rw [Nat.compare_eq_lt.2 h]
      simp [h]
    · rw [Nat.compare_eq_eq.2 h]
      simp only [h, lt_irrefl, false_or, true_and]
      split <;> omega
    · rw [Nat.compare_eq_gt.2 h]
      simp only
      omega
  · -- the ratio is below the double after `low`, and so below the middle
    have hnext := units_strictMono.monotone (show low + 1 ≤ k from h)
    have hmiddle : 2 * scaled < (units k + units (k + 1)) * den := by
      have := units_lt_succ k
      nlinarith
    constructor
    · exact fun _ => .inl hmiddle
    · intro _
      rw [if_neg (by omega)]
      split
      · omega
      · omega
      · split <;> omega

/-- A smaller ratio is not read as a greater double. -/
theorem nearest_mono {num den num' den' : Nat} (hd : 0 < den) (hd' : 0 < den')
    (h : num * den' ≤ num' * den) : nearest num den ≤ nearest num' den' := by
  rcases Nat.lt_or_eq_of_le (nearest_le_infinity num' den') with hfinite | hinfinite
  · have hself := (nearest_le_iff hfinite num' hd').1 (le_refl _)
    rw [nearest_le_iff hfinite num hd]
    generalize nearest num' den' = k at hself
    generalize units k + units (k + 1) = middle at hself ⊢
    generalize Nat.pow 2 1074 = unit at hself ⊢
    have hscaled : 2 * (num * unit) * den' ≤ 2 * (num' * unit) * den := by
      calc 2 * (num * unit) * den' = num * den' * (2 * unit) := by ring
        _ ≤ num' * den * (2 * unit) := Nat.mul_le_mul_right _ h
        _ = 2 * (num' * unit) * den := by ring
    rcases hself with hlt | ⟨heq, heven⟩
    · left
      refine Nat.lt_of_mul_lt_mul_right (a := den') (lt_of_le_of_lt hscaled ?_)
      rw [Nat.mul_right_comm middle]
      exact Nat.mul_lt_mul_of_pos_right hlt hd
    · rw [heq, Nat.mul_right_comm middle] at hscaled
      have hle := Nat.le_of_mul_le_mul_right hscaled hd'
      omega
  · rw [hinfinite]
    exact nearest_le_infinity num den

end Reckoner.Number
