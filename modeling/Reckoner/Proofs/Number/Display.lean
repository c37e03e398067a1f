/-
The display of a finite double reads back as it. Every decimal that the search for the shortest one
can return is read as the double, and positional notation writes a decimal as two numerals around a
point that denote the same ratio.
-/
import Reckoner.Number.Decimal
import Reckoner.Proofs.Lexicon
import Reckoner.Proofs.Number.Nearest

namespace Reckoner.Number

open Lexicon (IsNumeral)

namespace Decimal

/-! ## Ratios -/

theorem ratio_pos (d : Decimal) : 0 < d.ratio.2 := by
  unfold ratio
  split
  · exact Nat.one_pos
  · exact Nat.pow_pos (by omega)

/-- Decimals of the same ratio are read as the same double. -/
theorem ordinal_congr {d d' : Decimal} (h : d.ratio.1 * d'.ratio.2 = d'.ratio.1 * d.ratio.2) :
    d.ordinal = d'.ordinal := by
  unfold ordinal
  rw [← nearest_mul d.ratio.1 d.ratio.2 d'.ratio_pos, ← nearest_mul d'.ratio.1 d'.ratio.2 d.ratio_pos,
    h, Nat.mul_comm d.ratio.2]

theorem ratio_neg (digits e : Nat) : (⟨digits, -(e : Int)⟩ : Decimal).ratio = (digits, 10 ^ e) := by
  unfold ratio
  cases e with
  | zero => simp
  | succ e => rfl

theorem ordinal_neg (digits e : Nat) :
    (⟨digits, -(e : Int)⟩ : Decimal).ordinal = nearest digits (10 ^ e) := by
  rw [ordinal, ratio_neg]

theorem ratio_ofDigits (whole fraction : List Char) :
    (ofDigits whole fraction).ratio =
      (Nat.ofDigitChars 10 (whole ++ fraction) 0, 10 ^ fraction.length) :=
  ratio_neg _ _

/-! ## The shortest decimal -/

theorem ordinal_exact {k : Nat} (h : k < infinity) : (⟨exactDigits k, -1074⟩ : Decimal).ordinal = k := by
  have hexponent : (-1074 : Int) = -((1074 : Nat) : Int) := rfl
  have hpos (e : Nat) : 0 < 10 ^ e := by positivity
  have hpow (e : Nat) : units k * Nat.pow 5 e * Nat.pow 2 e = units k * 10 ^ e := by
    rw [Nat.mul_assoc, Nat.pow_eq, Nat.pow_eq, ← Nat.mul_pow]
  rw [hexponent, ordinal_neg, exactDigits]
  apply nearest_units h (hpos 1074)
  -- with the exponent as a variable no power is computed
  generalize 1074 = e
  exact hpow e

/-- What is chosen is one of the two, and wanted. -/
theorem choose_some {wanted : Decimal → Bool} {low high d : Decimal} {below step : Nat}
    (h : choose wanted low high below step = some d) : (d = low ∨ d = high) ∧ wanted d = true := by
  unfold choose at h
  split at h
  case h_1 hlow hhigh =>
    split at h
    · cases h
      exact ⟨.inl rfl, hlow⟩
    · cases h
      exact ⟨.inr rfl, hhigh⟩
    · split at h
      · cases h
        exact ⟨.inl rfl, hlow⟩
      · cases h
        exact ⟨.inr rfl, hhigh⟩
  case h_2 hlow _ =>
    cases h
    exact ⟨.inl rfl, hlow⟩
  case h_3 _ hhigh =>
    cases h
    exact ⟨.inr rfl, hhigh⟩
  case h_4 => cases h

theorem within?_ordinal {k n : Nat} {d : Decimal} (h : within? k n = some d) : d.ordinal = k := by
  unfold within? at h
  generalize neighbours k n = sides at h
  obtain ⟨low, high, below, step⟩ := sides
  exact eq_of_beq (choose_some h).2

theorem firstHit_cases (hit? : Nat → Option Decimal) (exact : Decimal) (attempts : Nat) :
    ∀ n, firstHit hit? exact n attempts = exact ∨
      ∃ m, hit? m = some (firstHit hit? exact n attempts) := by
  induction attempts with
  | zero => exact fun _ => .inl rfl
  | succ attempts ih =>
    intro n
    unfold firstHit
    split
    · next d hd => exact .inr ⟨n, hd⟩
    · exact ih (n + 1)

/-- The shortest decimal of a double is read as it. -/
theorem shortest_ordinal {k : Nat} (h : k < infinity) : (shortest k).ordinal = k := by
  unfold shortest
  rcases firstHit_cases (within? k) ⟨exactDigits k, -1074⟩ (exactLength k) 1 with heq | ⟨m, hm⟩
  · rw [heq]
    exact ordinal_exact h
  · exact within?_ordinal hm

/-! ## Positional notation -/

theorem isNumeral_toDigits (n : Nat) : IsNumeral (Nat.toDigits 10 n) :=
  ⟨Nat.toDigits_ne_nil, fun _ hc => Nat.isDigit_of_mem_toDigits (by omega) (by omega) hc⟩

theorem isNumeral_zero : IsNumeral ['0'] := by
  refine ⟨by simp, fun c hc => ?_⟩
  rw [List.mem_singleton.1 hc]
  rfl

/-- Two numerals around a point without a zero that could be left out: the first one begins with a
zero, and the second one ends in a zero, only where that is all of it. -/
structure Canonical (whole fraction : List Char) : Prop where
  isNumeral_whole : IsNumeral whole
  isNumeral_fraction : IsNumeral fraction
  leading : whole.head? = some '0' → whole = ['0']
  trailing : fraction.getLast? = some '0' → fraction = ['0']

theorem digit_le_nine {c : Char} (h : c.isDigit = true) : c.toNat - '0'.toNat ≤ 9 := by
  have hle : c.toNat ≤ '9'.toNat := (Char.isDigit_iff_toNat.1 h).2
  have hnine : '9'.toNat = '0'.toNat + 9 := rfl
  omega

theorem ofDigitChars_lt {digits : List Char} (h : ∀ c ∈ digits, c.isDigit = true) :
    Nat.ofDigitChars 10 digits 0 < 10 ^ digits.length := by
  induction digits with
  | nil => simp
  | cons c digits ih =>
    have hc := digit_le_nine (h c List.mem_cons_self)
    have hrest := ih fun d hd => h d (List.mem_cons_of_mem _ hd)
    rw [Nat.ofDigitChars_cons, Nat.ofDigitChars_eq_ofDigitChars_zero, List.length_cons, pow_succ]
    have hmul := Nat.mul_le_mul_left (10 ^ digits.length) hc
    rw [Nat.mul_zero, Nat.zero_add]
    omega

theorem toDigits_leading {n : Nat} (h : (Nat.toDigits 10 n).head? = some '0') :
    Nat.toDigits 10 n = ['0'] := by
  have hvalue := Nat.ofDigitChars_ten_toDigits (n := n)
  have hdigits := (isNumeral_toDigits n).2
  have hlength (k : Nat) := @Nat.length_toDigits_le_iff 10 n k (by omega)
  cases hcs : Nat.toDigits 10 n with
  | nil => exact absurd hcs Nat.toDigits_ne_nil
  | cons c rest =>
    rw [hcs] at h hvalue hdigits hlength
    cases h
    cases rest with
    | nil => rfl
    | cons d rest =>
      -- without the zero there are fewer digits, but they are as many as the number needs
      have hlt := ofDigitChars_lt fun e he => hdigits e (List.mem_cons_of_mem _ he)
      have hzero : Nat.ofDigitChars 10 (d :: rest) 0 = n := hvalue
      have := (hlength (d :: rest).length (by simp)).2 (hzero ▸ hlt)
      simp at this

theorem ofDigitChars_toDigits_append (n : Nat) (digits : List Char) :
    Nat.ofDigitChars 10 (Nat.toDigits 10 n ++ digits) 0 =
      n * 10 ^ digits.length + Nat.ofDigitChars 10 digits 0 := by
  rw [Nat.ofDigitChars_append, Nat.ofDigitChars_ten_toDigits, Nat.ofDigitChars_eq_ofDigitChars_zero]
  ring

theorem length_padded {width n : Nat} (hw : 0 < width) (h : n < 10 ^ width) :
    (padded width n).length = width := by
  have := (Nat.length_toDigits_le_iff (by omega) hw).2 h
  simp only [padded, List.length_append, List.length_replicate]
  omega

theorem ofDigitChars_padded (width n : Nat) : Nat.ofDigitChars 10 (padded width n) 0 = n := by
  simp [padded, Nat.ofDigitChars_append, Nat.ofDigitChars_replicate_zero, Nat.ofDigitChars_ten_toDigits]

theorem isNumeral_padded (width n : Nat) : IsNumeral (padded width n) := by
  refine ⟨by simp [padded, Nat.toDigits_ne_nil], fun c hc => ?_⟩
  rcases List.mem_append.1 hc with hc | hc
  · rw [List.eq_of_mem_replicate hc]
    rfl
  · exact (isNumeral_toDigits n).2 c hc

theorem stripZeros_append {digits : List Char} (h : digits ≠ []) :
    ∃ n, stripZeros digits ++ List.replicate n '0' = digits := by
  have hsplit := List.takeWhile_append_dropWhile (p := (· == '0')) (l := digits.reverse)
  have hzeros : digits.reverse.takeWhile (· == '0') =
      List.replicate (digits.reverse.takeWhile (· == '0')).length '0' :=
    List.eq_replicate_of_mem fun c hc => by simpa using List.mem_takeWhile_imp hc
  have hdigits : (digits.reverse.dropWhile (· == '0')).reverse ++
      (digits.reverse.takeWhile (· == '0')).reverse = digits := by
    rw [← List.reverse_append, hsplit, List.reverse_reverse]
  rw [hzeros, List.reverse_replicate] at hdigits
  unfold stripZeros
  split
  · next hnil =>
    rw [hnil, List.nil_append] at hdigits
    -- all digits are zeros, and one of them stays
    generalize (digits.reverse.takeWhile (· == '0')).length = n at hdigits
    cases n with
    | zero => exact absurd hdigits.symm h
    | succ n => exact ⟨n, hdigits⟩
  · exact ⟨_, hdigits⟩

theorem stripZeros_ne_nil (digits : List Char) : stripZeros digits ≠ [] := by
  unfold stripZeros
  split
  · simp
  · assumption

theorem stripZeros_trailing {digits : List Char} (h : (stripZeros digits).getLast? = some '0') :
    stripZeros digits = ['0'] := by
  unfold stripZeros at h ⊢
  split
  · rfl
  · next hnil =>
    split at h
    · contradiction
    · -- the first one of the reversed digits that is kept is no zero
      rw [List.getLast?_reverse] at h
      have := List.head?_dropWhile_not (· == '0') digits.reverse
      rw [h] at this
      simp at this

/-- Two numerals around a point, without a zero that could be left out, which denote the ratio of the
decimal. -/
theorem positional_eq (d : Decimal) : ∃ whole fraction, d.positional = whole ++ '.' :: fraction ∧
    Canonical whole fraction ∧
      (ofDigits whole fraction).ratio.1 * d.ratio.2 = d.ratio.1 * (ofDigits whole fraction).ratio.2 := by
  obtain ⟨digits, exponent⟩ := d
  cases exponent with
  | ofNat e =>
    refine ⟨Nat.toDigits 10 (digits * Nat.pow 10 e), ['0'], rfl,
      ⟨isNumeral_toDigits _, isNumeral_zero, toDigits_leading, fun _ => rfl⟩, ?_⟩
    rw [ratio_ofDigits, ofDigitChars_toDigits_append]
    simp [ratio, Nat.ofDigitChars_cons]
  | negSucc e =>
    have hstep : digits % 10 ^ (e + 1) < 10 ^ (e + 1) := Nat.mod_lt _ (by positivity)
    obtain ⟨n, hn⟩ := stripZeros_append (isNumeral_padded (e + 1) (digits % 10 ^ (e + 1))).1
    refine ⟨Nat.toDigits 10 (digits / 10 ^ (e + 1)),
      stripZeros (padded (e + 1) (digits % 10 ^ (e + 1))), rfl, ⟨isNumeral_toDigits _,
      ⟨stripZeros_ne_nil _, fun c hc => ?_⟩, toDigits_leading, stripZeros_trailing⟩, ?_⟩
    · exact (isNumeral_padded (e + 1) _).2 c (hn ▸ List.mem_append_left _ hc)
    · rw [ratio_ofDigits, ofDigitChars_toDigits_append]
      -- what is stripped are `n` zeros, which change neither the quotient nor the ratio
      have hlength := congrArg List.length hn
      have hvalue := congrArg (Nat.ofDigitChars 10 · 0) hn
      rw [length_padded (by omega) hstep, List.length_append, List.length_replicate] at hlength
      simp only [Nat.ofDigitChars_append, Nat.ofDigitChars_replicate_zero, ofDigitChars_padded] at hvalue
      generalize stripZeros (padded (e + 1) (digits % 10 ^ (e + 1))) = stripped at hlength hvalue ⊢
      simp only [ratio, Nat.pow_eq, ← hlength, pow_add] at hvalue ⊢
      have hdiv := Nat.div_add_mod digits (10 ^ stripped.length * 10 ^ n)
      rw [← hvalue] at hdiv
      generalize digits / (10 ^ stripped.length * 10 ^ n) = quotient at hdiv ⊢
      rw [← hdiv]
      ring

end Decimal

/-- The display of a magnitude is two numerals around a point, which are read as it. -/
theorem displayMagnitude_eq {k : Nat} (h : k < infinity) : ∃ whole fraction,
    displayMagnitude k = whole ++ '.' :: fraction ∧ Decimal.Canonical whole fraction ∧
      (Decimal.ofDigits whole fraction).toFloat = ofOrdinal false k := by
  unfold displayMagnitude Decimal.toFloat
  split
  · next hk =>
    have hzero : (Decimal.ofDigits ['0'] ['0']).ordinal = k := by
      rw [Decimal.ordinal, Decimal.ratio_ofDigits, hk]
      exact nearest_zero (by positivity)
    exact ⟨['0'], ['0'], rfl, ⟨Decimal.isNumeral_zero, Decimal.isNumeral_zero, fun _ => rfl, fun _ => rfl⟩,
      by rw [hzero]⟩
  · obtain ⟨whole, fraction, heq, hcanonical, hratio⟩ := (Decimal.shortest k).positional_eq
    exact ⟨whole, fraction, heq, hcanonical, by rw [Decimal.ordinal_congr hratio, Decimal.shortest_ordinal h]⟩

/-- The display of a finite double: a minus sign if it is negative, and the display of its
magnitude. -/
theorem display_of_finite {x : Float} (h : ordinal x < infinity) :
    (display x).toList = (if isNegative x then ['-'] else []) ++ displayMagnitude (ordinal x) := by
  unfold display
  rw [if_neg (by omega), if_neg (by omega), String.toList_ofList]

end Reckoner.Number
