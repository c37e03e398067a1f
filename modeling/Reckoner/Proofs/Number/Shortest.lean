/-
The display of a number is its shortest one. The decimals of at most `n` digits around a double are
neighbours: none of that many digits lies between them. Reading is monotone, so that if any decimal
of `n` digits is read as the double, then one of the two neighbours is. The search tries the numbers
of digits in order and therefore returns as few digits as any numeral for the double has.
-/
import Reckoner.Proofs.ReadBack
import Mathlib.Data.List.DropRight

namespace Reckoner.Number

open Lexicon (IsNumeral Lexeme)

/-! ## Significant digits -/

/-- The number has at most `n` digits, the zeros at its end not counted. -/
def Fits (n N : Nat) : Prop :=
  ∃ m j, m < 10 ^ n ∧ N = m * 10 ^ j

theorem Fits.mono {n n' N : Nat} (h : Fits n N) (hn : n ≤ n') : Fits n' N := by
  obtain ⟨m, j, hm, rfl⟩ := h
  exact ⟨m, j, lt_of_lt_of_le hm (Nat.pow_le_pow_right (by omega) hn), rfl⟩

theorem fits_of_le {n N : Nat} (hn : 0 < n) (h : N ≤ 10 ^ n) : Fits n N := by
  rcases Nat.lt_or_eq_of_le h with h | rfl
  · exact ⟨N, 0, h, by simp⟩
  · exact ⟨1, n, Nat.one_lt_pow (by omega) (by omega), by simp⟩

theorem fits_mul_pow {n N j : Nat} : Fits n (N * 10 ^ j) ↔ Fits n N := by
  constructor
  · rintro ⟨m, i, hm, h⟩
    have hpos (e : Nat) : 0 < 10 ^ e := by positivity
    rcases Nat.le_total j i with hji | hij
    · obtain ⟨d, rfl⟩ := Nat.exists_eq_add_of_le hji
      refine ⟨m, d, hm, Nat.eq_of_mul_eq_mul_right (hpos j) ?_⟩
      rw [h, pow_add]
      ring
    · -- `m` is a multiple of the number, which therefore is not greater
      obtain ⟨d, rfl⟩ := Nat.exists_eq_add_of_le hij
      have hm' : N * 10 ^ d = m := by
        refine Nat.eq_of_mul_eq_mul_right (hpos i) ?_
        rw [← h, pow_add]
        ring
      exact ⟨N, 0, lt_of_le_of_lt (Nat.le_mul_of_pos_right N (hpos d)) (hm' ▸ hm), by simp⟩
  · rintro ⟨m, i, hm, rfl⟩
    exact ⟨m, i + j, hm, by rw [pow_add]; ring⟩

/-- The digits of a text without the zeros before the first and after the last other one. -/
def significant (text : List Char) : List Char :=
  ((text.filter Char.isDigit).dropWhile (· == '0')).rdropWhile (· == '0')

theorem exists_significant (text : List Char) :
    ∃ i j, text.filter Char.isDigit = List.replicate i '0' ++ significant text ++ List.replicate j '0' := by
  have hzeros {l : List Char} (h : ∀ c ∈ l, c = '0') : ∃ n, l = List.replicate n '0' :=
    ⟨_, List.eq_replicate_of_mem h⟩
  unfold significant
  generalize text.filter Char.isDigit = digits
  obtain ⟨i, hi⟩ := hzeros (l := digits.takeWhile (· == '0')) fun c hc => by
    simpa using List.mem_takeWhile_imp hc
  obtain ⟨j, hj⟩ := hzeros (l := (digits.dropWhile (· == '0')).rtakeWhile (· == '0')) fun c hc => by
    simpa using List.mem_rtakeWhile_imp hc
  refine ⟨i, j, ?_⟩
  rw [← hi, ← hj, List.append_assoc, List.rdropWhile_append_rtakeWhile, List.takeWhile_append_dropWhile]

theorem isDigit_of_mem_significant {text : List Char} {c : Char} (h : c ∈ significant text) :
    c.isDigit = true := by
  have hdigits := (List.dropWhile_sublist _).subset ((List.rdropWhile_prefix _ _).subset h)
  exact (List.mem_filter.1 hdigits).2

theorem head?_significant (text : List Char) : (significant text).head? ≠ some '0' := by
  intro h
  unfold significant at h
  have hfirst := List.head?_dropWhile_not (· == '0') (text.filter Char.isDigit)
  obtain ⟨rest, hrest⟩ := List.rdropWhile_prefix (· == '0') ((text.filter Char.isDigit).dropWhile (· == '0'))
  rw [← hrest, List.head?_append, h] at hfirst
  simp at hfirst

theorem getLast?_significant (text : List Char) : (significant text).getLast? ≠ some '0' := by
  intro h
  obtain ⟨hne, hlast⟩ := List.mem_getLast?_eq_getLast h
  have hnot : ¬ ((significant text).getLast hne == '0') = true := List.rdropWhile_last_not _ _ hne
  simp [← hlast] at hnot

theorem digit_pos {c : Char} (hc : c.isDigit = true) (h0 : c ≠ '0') : 0 < c.toNat - '0'.toNat := by
  have hge : '0'.toNat ≤ c.toNat := (Char.isDigit_iff_toNat.1 hc).1
  have hne : c.toNat ≠ '0'.toNat := fun h => h0 (Char.toNat_inj.1 h)
  omega

theorem pow_le_ofDigitChars {c : Char} (hc : c.isDigit = true) (h0 : c ≠ '0') (digits : List Char) :
    10 ^ digits.length ≤ Nat.ofDigitChars 10 (c :: digits) 0 := by
  rw [Nat.ofDigitChars_cons, Nat.ofDigitChars_eq_ofDigitChars_zero, Nat.mul_zero, Nat.zero_add]
  exact le_add_right (Nat.le_mul_of_pos_right _ (digit_pos hc h0))

theorem ofDigitChars_concat_mod {c : Char} (hc : c.isDigit = true) (h0 : c ≠ '0') (digits : List Char) :
    Nat.ofDigitChars 10 (digits ++ [c]) 0 % 10 ≠ 0 := by
  have hpos := digit_pos hc h0
  have hle := Decimal.digit_le_nine hc
  rw [Nat.ofDigitChars_append, Nat.ofDigitChars_cons, Nat.ofDigitChars_nil]
  omega

/-- A number that does not end in a zero needs all its digits. -/
theorem Fits.lt_pow {n N : Nat} (h : Fits n N) (hN : N % 10 ≠ 0) : N < 10 ^ n := by
  obtain ⟨m, j, hm, rfl⟩ := h
  cases j with
  | zero => simpa using hm
  | succ j =>
    rw [pow_succ, ← Nat.mul_assoc, Nat.mul_mod_left] at hN
    exact absurd rfl hN

/-- The significant digits of a text are no more than the number needs that all its digits make up. -/
theorem length_significant_le_iff (text : List Char) (n : Nat) :
    (significant text).length ≤ n ↔ Fits n (Nat.ofDigitChars 10 (text.filter Char.isDigit) 0) := by
  obtain ⟨i, j, heq⟩ := exists_significant text
  rw [heq, Nat.ofDigitChars_append, Nat.ofDigitChars_append, Nat.ofDigitChars_replicate_zero,
    Nat.ofDigitChars_replicate_zero]
  have hdigits (c : Char) (hc : c ∈ significant text) := isDigit_of_mem_significant hc
  have hhead := head?_significant text
  have hlast := getLast?_significant text
  generalize significant text = digits at hdigits hhead hlast ⊢
  rw [Nat.mul_zero, Nat.mul_comm, fits_mul_pow]
  constructor
  · intro h
    refine Fits.mono ⟨_, 0, Decimal.ofDigitChars_lt hdigits, ?_⟩ h
    simp
  · intro h
    rcases digits.eq_nil_or_concat with rfl | ⟨front, last, rfl⟩
    · simp
    · rw [List.concat_eq_append] at h hdigits hhead hlast ⊢
      have hlt := h.lt_pow (ofDigitChars_concat_mod (hdigits last (by simp)) (by simpa using hlast) front)
      -- the first digit stands for at least its power of ten
      obtain ⟨first, rest, hfirst⟩ := List.exists_cons_of_ne_nil (l := front ++ [last]) (by simp)
      rw [hfirst] at hdigits hhead hlt ⊢
      have hle := pow_le_ofDigitChars (hdigits first List.mem_cons_self) (by simpa using hhead) rest
      exact (Nat.pow_lt_pow_iff_right (by omega)).1 (lt_of_le_of_lt hle hlt)

namespace Decimal

/-! ## Values -/

/-- The value of a decimal. -/
def value (d : Decimal) : ℚ :=
  d.digits * 10 ^ d.exponent

theorem value_eq_ratio (d : Decimal) : d.value = d.ratio.1 / d.ratio.2 := by
  obtain ⟨digits, exponent⟩ := d
  unfold value ratio
  cases exponent with
  | ofNat e => simp
  | negSucc e => simp [zpow_negSucc, div_eq_mul_inv]

theorem value_shift (digits j : Nat) (s : Int) : value ⟨digits, s + j⟩ = value ⟨digits * 10 ^ j, s⟩ := by
  simp only [value, Nat.cast_mul, Nat.cast_pow, Nat.cast_ofNat, zpow_add₀ (by norm_num : (10 : ℚ) ≠ 0), zpow_natCast]
  ring

theorem value_le_value {a b : Nat} (s : Int) (h : a ≤ b) : value ⟨a, s⟩ ≤ value ⟨b, s⟩ :=
  mul_le_mul_of_nonneg_right (by exact_mod_cast h) (zpow_nonneg (by norm_num) s)

/-- A decimal of a smaller value is not read as a greater double. -/
theorem ordinal_mono {d d' : Decimal} (h : d.value ≤ d'.value) : d.ordinal ≤ d'.ordinal := by
  have hpos : (0 : ℚ) < d.ratio.2 := by exact_mod_cast d.ratio_pos
  have hpos' : (0 : ℚ) < d'.ratio.2 := by exact_mod_cast d'.ratio_pos
  rw [value_eq_ratio, value_eq_ratio, div_le_div_iff₀ hpos hpos'] at h
  exact nearest_mono d.ratio_pos d'.ratio_pos (by exact_mod_cast h)

/-! ## Neighbours -/

theorem digitCount_eq {n : Nat} (h : 0 < n) : ∃ l, digitCount n = l + 1 ∧ 10 ^ l ≤ n ∧ n < 10 ^ (l + 1) := by
  unfold digitCount
  generalize n.log2 * 1233 / 4096 = guess
  simp only [Nat.pow_eq, Bool.and_eq_true, decide_eq_true_eq]
  split
  · next hguess => exact ⟨guess, rfl, hguess⟩
  · split
    · next hguess => exact ⟨guess + 1, rfl, hguess⟩
    · obtain ⟨l, hl⟩ := Nat.exists_eq_succ_of_ne_zero (Nat.length_toDigits_pos (b := 10) (n := n)).ne'
      have hlength (k : Nat) := @Nat.length_toDigits_le_iff 10 n k (by omega)
      rw [hl] at hlength ⊢
      refine ⟨l, rfl, ?_, (hlength (l + 1) (by omega)).1 (le_refl _)⟩
      by_contra hlt
      cases l with
      | zero =>
        simp only [pow_zero, Nat.not_le] at hlt
        omega
      | succ l =>
        have := (hlength (l + 1) (by omega)).2 (by omega)
        omega

/-- Between two successive decimals of one exponent and more than `n` digits there is none of at most
`n + 1` digits. -/
theorem not_between {low n : Nat} (hlow : 10 ^ n ≤ low) (s : Int) {d : Decimal} (hd : d.digits < 10 ^ (n + 1)) :
    d.value ≤ value ⟨low, s⟩ ∨ value ⟨low + 1, s⟩ ≤ d.value := by
  obtain ⟨digits, e⟩ := d
  rcases le_or_gt s e with hse | hes
  · -- a multiple of the distance of the two
    obtain ⟨j, rfl⟩ := Int.exists_add_of_le hse
    rw [value_shift]
    rcases le_or_gt (digits * 10 ^ j) low with h | h
    · exact .inl (value_le_value s h)
    · exact .inr (value_le_value s h)
  · -- a finer decimal of that many digits is smaller than both
    obtain ⟨j, rfl⟩ : ∃ j : Nat, s = e + (j + 1 : Nat) := ⟨(s - e - 1).toNat, by omega⟩
    left
    rw [value_shift]
    apply value_le_value
    calc digits ≤ 10 ^ n * 10 := Nat.le_of_lt hd
      _ ≤ low * 10 ^ (j + 1) := Nat.mul_le_mul hlow (Nat.le_self_pow (by omega) 10)

theorem choose_eq_none {wanted : Decimal → Bool} {low high : Decimal} {below step : Nat}
    (h : choose wanted low high below step = none) : wanted low = false ∧ wanted high = false := by
  unfold choose at h
  split at h
  · split at h
    · cases h
    · cases h
    · split at h <;> cases h
  · cases h
  · cases h
  · next hlow hhigh => exact ⟨hlow, hhigh⟩

theorem exactLength_eq {k : Nat} (h : 0 < k) :
    ∃ l, exactLength k = l + 1 ∧ 10 ^ l ≤ exactDigits k ∧ exactDigits k < 10 ^ (l + 1) := by
  have hunits : 0 < units k := Nat.lt_of_le_of_lt (Nat.zero_le _) (units_strictMono h)
  have hdigits : 0 < exactDigits k := by
    unfold exactDigits
    generalize 1074 = e
    exact Nat.mul_pos hunits (Nat.pow_pos (by omega))
  exact digitCount_eq hdigits

/-- If a decimal of `n + 1` digits is read as the double, then one of the neighbours is. -/
theorem within?_ne_none {k n : Nat} (h0 : 0 < k) (hk : k < infinity) (hn : n < exactLength k) {d : Decimal}
    (hd : d.digits < 10 ^ (n + 1)) (hordinal : d.ordinal = k) : within? k (n + 1) ≠ none := by
  have hexact := ordinal_exact hk
  obtain ⟨l, hl, hfirst, -⟩ := exactLength_eq h0
  intro hnone
  unfold within? neighbours at hnone
  obtain ⟨hlow, hhigh⟩ := choose_eq_none hnone
  rw [beq_eq_false_iff_ne] at hlow hhigh
  have hshift : l + 1 - (n + 1) = l - n := by omega
  rw [hl, hshift, Nat.pow_eq, sub_eq_neg_add] at hlow hhigh
  generalize exactDigits k = exact at hexact hfirst hlow hhigh
  generalize (-1074 : Int) = unit at hexact hlow hhigh
  have hpos : 0 < 10 ^ (l - n) := by positivity
  have hdigits : 10 ^ n ≤ exact / 10 ^ (l - n) := by
    rw [Nat.le_div_iff_mul_le hpos, ← pow_add, Nat.add_sub_cancel' (by omega)]
    exact hfirst
  rcases not_between hdigits (unit + (l - n : Nat)) hd with h | h
  · -- the lower neighbour lies between the decimal and the double
    have hbelow : value ⟨exact / 10 ^ (l - n), unit + (l - n : Nat)⟩ ≤ value ⟨exact, unit⟩ := by
      rw [value_shift]
      exact value_le_value unit (Nat.div_mul_le_self exact _)
    exact hlow (le_antisymm (hexact ▸ ordinal_mono hbelow) (hordinal ▸ ordinal_mono h))
  · have habove : value ⟨exact, unit⟩ ≤ value ⟨exact / 10 ^ (l - n) + 1, unit + (l - n : Nat)⟩ := by
      rw [value_shift, Nat.mul_comm]
      exact value_le_value unit (Nat.le_of_lt (Nat.lt_mul_div_succ exact hpos))
    exact hhigh (le_antisymm (hordinal ▸ ordinal_mono h) (hexact ▸ ordinal_mono habove))

theorem within?_fits {k n : Nat} (h0 : 0 < k) (hn : 0 < n) {d : Decimal} (h : within? k n = some d) :
    Fits n d.digits := by
  obtain ⟨l, hl, -, hlt⟩ := exactLength_eq h0
  unfold within? neighbours at h
  obtain ⟨hd, -⟩ := choose_some h
  have hlow : exactDigits k / Nat.pow 10 (exactLength k - n) < 10 ^ n := by
    rw [Nat.pow_eq, Nat.div_lt_iff_lt_mul (by positivity), ← pow_add, hl]
    exact lt_of_lt_of_le hlt (Nat.pow_le_pow_right (by omega) (by omega))
  apply fits_of_le hn
  rcases hd with rfl | rfl
  · exact Nat.le_of_lt hlow
  · exact hlow

/-! ## The first hit -/

theorem firstHit_le (hit? : Nat → Option Decimal) (exact : Decimal) {n : Nat} (h : hit? n ≠ none) :
    ∀ start attempts : Nat, start ≤ n → n < start + attempts →
      ∃ n' ≤ n, start ≤ n' ∧ hit? n' = some (firstHit hit? exact start attempts)
  | start, 0, hstart, hend => absurd hend (by omega)
  | start, attempts + 1, hstart, hend => by
    unfold firstHit
    split
    · next d hd => exact ⟨start, hstart, le_refl _, hd⟩
    · next hnone =>
      -- the start is no hit, so the one at `n` comes later
      have hne : start ≠ n := fun heq => h (heq ▸ hnone)
      obtain ⟨n', hn', hstart', hhit⟩ :=
        firstHit_le hit? exact h (start + 1) attempts (by omega) (by omega)
      exact ⟨n', hn', by omega, hhit⟩

theorem shortest_fits_of_hit {k n : Nat} (h0 : 0 < k) (hn : n < exactLength k) (h : within? k (n + 1) ≠ none) :
    Fits (n + 1) (shortest k).digits := by
  obtain ⟨n', hn', hstart, hhit⟩ :=
    firstHit_le (within? k) ⟨exactDigits k, -1074⟩ h 1 (exactLength k) (by omega) (by omega)
  exact (within?_fits h0 hstart hhit).mono hn'

theorem ordinal_of_digits_zero {d : Decimal} (h : d.digits = 0) : d.ordinal = 0 := by
  have hratio : d.ratio.1 = 0 := by
    unfold ratio
    split <;> simp [h]
  rw [ordinal, hratio]
  exact nearest_zero d.ratio_pos

/-- No decimal that is read as the double has fewer significant digits than the shortest one. -/
theorem shortest_fits {k : Nat} (h0 : 0 < k) (hk : k < infinity) {n : Nat} {d : Decimal} (hd : Fits n d.digits)
    (hordinal : d.ordinal = k) : Fits n (shortest k).digits := by
  obtain ⟨m, j, hm, hdigits⟩ := hd
  have hvalue : value ⟨m, d.exponent + j⟩ = d.value := by
    rw [value_shift, ← hdigits]
  have hread : ordinal ⟨m, d.exponent + j⟩ = k :=
    hordinal ▸ le_antisymm (ordinal_mono hvalue.le) (ordinal_mono hvalue.ge)
  cases n with
  | zero =>
    -- without digits only zero is written
    have hm : m = 0 := by simpa using hm
    have := ordinal_of_digits_zero (d := ⟨m, d.exponent + j⟩) hm
    omega
  | succ n =>
    by_cases hn : n < exactLength k
    · exact shortest_fits_of_hit h0 hn (within?_ne_none h0 hk hn hm hread)
    · -- the exact value has fewer digits
      obtain ⟨l, hl, -, hlt⟩ := exactLength_eq h0
      have hl' : l < exactLength k := by omega
      have hhit := within?_ne_none h0 hk hl' (d := ⟨exactDigits k, -1074⟩) hlt (ordinal_exact hk)
      exact (shortest_fits_of_hit h0 hl' hhit).mono (by omega)

/-! ## Numerals -/

theorem filter_isDigit_point {whole fraction : List Char} (hw : ∀ c ∈ whole, c.isDigit = true)
    (hf : ∀ c ∈ fraction, c.isDigit = true) :
    (whole ++ '.' :: fraction).filter Char.isDigit = whole ++ fraction := by
  rw [List.filter_append, List.filter_eq_self.2 hw, List.filter_cons_of_neg (by decide), List.filter_eq_self.2 hf]

/-- The ratio of a decimal has a power of ten below, and above as many digits as the decimal. -/
theorem ratio_fits (d : Decimal) (n : Nat) :
    (∃ e, d.ratio.2 = 10 ^ e) ∧ (Fits n d.ratio.1 ↔ Fits n d.digits) := by
  unfold ratio
  split
  · exact ⟨⟨0, rfl⟩, fits_mul_pow⟩
  · exact ⟨⟨_, rfl⟩, Iff.rfl⟩

/-- Positional notation has no more significant digits than the decimal. -/
theorem length_significant_positional {d : Decimal} {n : Nat} (h : Fits n d.digits) :
    (significant d.positional).length ≤ n := by
  obtain ⟨whole, fraction, heq, hcanonical, hratio⟩ := d.positional_eq
  obtain ⟨⟨e, he⟩, hfits⟩ := d.ratio_fits n
  rw [length_significant_le_iff, heq,
    filter_isDigit_point hcanonical.isNumeral_whole.2 hcanonical.isNumeral_fraction.2]
  rw [ratio_ofDigits, he] at hratio
  rw [← fits_mul_pow (j := e), hratio, fits_mul_pow, hfits]
  exact h

theorem ordinal_toFloat (d : Decimal) : Number.ordinal d.toFloat = d.ordinal := by
  unfold toFloat
  rcases Nat.lt_or_eq_of_le (nearest_le_infinity d.ratio.1 d.ratio.2) with h | h
  · exact ordinal_ofOrdinal h false
  · rw [ordinal, h]
    decide

end Decimal

/-- The lexemes that mean numbers are the digits of a decimal, with a point in their place if there is a
fraction. -/
theorem digits_of_lexeme {w : List Char} {x : Float} (h : Lexeme w (.token .number (some (.number x)))) :
    ∃ d : Decimal, d.toFloat = x ∧ d.digits = Nat.ofDigitChars 10 (w.filter Char.isDigit) 0 := by
  cases h with
  | whole hdigits =>
    refine ⟨.ofDigits w [], rfl, ?_⟩
    rw [List.filter_eq_self.2 hdigits.2, Decimal.ofDigits, List.append_nil]
  | @decimal whole fraction hw hf =>
    refine ⟨.ofDigits whole fraction, rfl, ?_⟩
    rw [Decimal.filter_isDigit_point hw.2 hf.2, Decimal.ofDigits]

/-- No numeral that is read as a magnitude has fewer significant digits than its display. -/
theorem length_significant_displayMagnitude {k : Nat} (h : k < infinity) {w : List Char}
    (hw : Lexeme w (.token .number (some (.number (ofOrdinal false k))))) :
    (significant (displayMagnitude k)).length ≤ (significant w).length := by
  obtain ⟨d, hd, hdigits⟩ := digits_of_lexeme hw
  have hordinal : d.ordinal = k := by
    rw [← d.ordinal_toFloat, hd, ordinal_ofOrdinal h]
  unfold displayMagnitude
  split
  · exact Nat.zero_le _
  · have hfits := (length_significant_le_iff w _).1 (le_refl _)
    rw [← hdigits] at hfits
    exact Decimal.length_significant_positional (Decimal.shortest_fits (by omega) h hfits hordinal)

theorem significant_append_of_sign (negative : Bool) (text : List Char) :
    significant ((if negative then ['-'] else []) ++ text) = significant text := by
  cases negative <;> simp [significant, Char.isDigit]

/-- The display of a finite number is its canonical shortest one. It is a minus sign if the sign bit
is set, and the display of the magnitude: two numerals around a point without a zero that could be left
out, which are scanned as the magnitude. No number in any source that is scanned as the magnitude has
fewer significant digits, and no other finite number has the display. -/
theorem display_shortest {x : Float} (h : x.isFinite = true) : ∃ whole fraction,
    (display x).toList = (if isNegative x then ['-'] else []) ++ whole ++ '.' :: fraction ∧
    Decimal.Canonical whole fraction ∧
    (∃ t line, scan (whole ++ '.' :: fraction) = ⟨[t, .endAt line], []⟩ ∧
      t.kind = .number ∧ t.literal = some (.number x.abs)) ∧
    (∀ source, ∀ t ∈ (scan source).tokens, t.kind = .number → t.literal = some (.number x.abs) →
      (significant (display x).toList).length ≤ (significant t.lexeme.toList).length) ∧
    ∀ y : Float, y.isFinite = true → display y = display x → y = x := by
  have hx := (isFinite_iff x).1 h
  obtain ⟨whole, fraction, heq, hcanonical, hvalue⟩ := displayMagnitude_eq hx
  have hdisplay := display_of_finite hx
  rw [abs_of_finite hx]
  refine ⟨whole, fraction, ?_, hcanonical, ?_, ?_, ?_⟩
  · rw [hdisplay, heq, List.append_assoc]
  · have hlexeme := Lexeme.decimal hcanonical.isNumeral_whole hcanonical.isNumeral_fraction
    rw [hvalue] at hlexeme
    exact scan_of_lexeme hlexeme
  · intro source t ht hkind hliteral
    have hlexeme := Lexicon.lexeme_of_mem_scan ht hliteral
    rw [hkind] at hlexeme
    rw [hdisplay, significant_append_of_sign]
    exact length_significant_displayMagnitude hx hlexeme
  · intro y hy hsame
    have hyields := (yields_display_number hy).value
    rw [hsame, (yields_display_number h).value] at hyields
    cases hyields
    rfl

/-- The double that the sum of a tenth and two tenths is rounded to, with a minus sign: all numerals for
its magnitude have at least seventeen significant digits. -/
theorem display_shortest_at : (ofOrdinal true 4599075939470750516).isFinite = true ∧
    display (ofOrdinal true 4599075939470750516) = "-0.30000000000000004" ∧
    (∀ source, ∀ t ∈ (scan source).tokens, t.kind = .number →
      t.literal = some (.number (ofOrdinal true 4599075939470750516).abs) →
      17 ≤ (significant t.lexeme.toList).length) ∧
    ∀ y : Float, y.isFinite = true → display y = "-0.30000000000000004" →
      y = ofOrdinal true 4599075939470750516 := by
  have hfinite : (ofOrdinal true 4599075939470750516).isFinite = true :=
    (isFinite_iff _).2 (by rw [ordinal_ofOrdinal] <;> decide)
  have hdisplay : display (ofOrdinal true 4599075939470750516) = "-0.30000000000000004" := by
    decide +kernel
  have hlength : (significant "-0.30000000000000004".toList).length = 17 := by
    decide +kernel
  obtain ⟨-, -, -, -, -, hshortest, hunique⟩ := display_shortest hfinite
  rw [hdisplay, hlength] at hshortest
  rw [hdisplay] at hunique
  exact ⟨hfinite, hdisplay, hshortest, hunique⟩

end Reckoner.Number
