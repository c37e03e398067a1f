/-
The bits of doubles. A double is made of a sign, an exponent and a mantissa; unless the exponent is
the greatest one, it is given back by its bits, and its negation has the other sign and the same
magnitude. So the finite doubles are exactly the signs with the ordinals below `infinity`.
-/
import Reckoner.Number.Ordinal
import Mathlib.Tactic

namespace Reckoner.Number

open Float.Model
open Float.Model.UnpackedFloat (Sign packComponents unpackSign unpackExponent unpackMantissa
  unpackExponent_packComponents unpackMantissa_packComponents)

/-! ## The parts of a double -/

/-- The bits of a double with the given parts. -/
def word (s : Sign) (e : BitVec 11) (m : BitVec 52) : BitVec 64 :=
  packComponents Format.binary64 s e m

theorem toNat_word (s : Sign) (e : BitVec 11) (m : BitVec 52) :
    (word s e m).toNat = s.toBitVec.toNat * 2 ^ 63 + e.toNat * 2 ^ 52 + m.toNat := by
  have happ : ∀ {a b : Nat} (x : BitVec a) (y : BitVec b), (x ++ y).toNat = x.toNat * 2 ^ b + y.toNat := by
    intro a b x y
    rw [BitVec.toNat_append, ← Nat.shiftLeft_add_eq_or_of_lt y.isLt, Nat.shiftLeft_eq]
  show (s.toBitVec ++ e ++ m).toNat = _
  rw [happ, happ]
  ring

theorem unpackSign_word (s : Sign) (e : BitVec 11) (m : BitVec 52) :
    Sign.ofBitVec (@unpackSign Format.binary64 (word s e m)) = s := by
  have hbit : @unpackSign Format.binary64 (word s e m) = s.toBitVec := by
    apply BitVec.eq_of_toNat_eq
    show ((word s e m).toNat >>> 63) % 2 = _
    rw [toNat_word, Nat.shiftRight_eq_div_pow]
    have := s.toBitVec.isLt
    omega
  rw [hbit]
  cases s <;> rfl

theorem unpackExponent_word (s : Sign) (e : BitVec 11) (m : BitVec 52) :
    @unpackExponent Format.binary64 (word s e m) = e :=
  unpackExponent_packComponents

theorem unpackMantissa_word (s : Sign) (e : BitVec 11) (m : BitVec 52) :
    @unpackMantissa Format.binary64 (word s e m) = m :=
  unpackMantissa_packComponents

/-- Every word is made of parts. -/
theorem exists_word (b : BitVec 64) : ∃ s e m, b = word s e m := by
  refine ⟨if b.toNat < 2 ^ 63 then .positive else .negative,
    BitVec.ofNat 11 (b.toNat / 2 ^ 52), BitVec.ofNat 52 b.toNat, BitVec.eq_of_toNat_eq ?_⟩
  rw [toNat_word, BitVec.toNat_ofNat, BitVec.toNat_ofNat]
  have := b.isLt
  split
  · show _ = 0 * 2 ^ 63 + _ + _
    omega
  · show _ = 1 * 2 ^ 63 + _ + _
    omega

/-- The four ways in which an exponent and a mantissa are read. -/
@[elab_as_elim] theorem parts_cases {P : BitVec 11 → BitVec 52 → Prop} (special : ∀ m, P (-1#11) m)
    (zero : P 0#11 0#52) (subnormal : ∀ m, 0 < m.toNat → P 0#11 m)
    (normal : ∀ e m, e ≠ 0#11 → e ≠ -1#11 → P e m) (e : BitVec 11) (m : BitVec 52) : P e m := by
  by_cases h1 : e = -1#11
  · rw [h1]
    exact special m
  by_cases h0 : e = 0#11
  · rw [h0]
    by_cases hm : m.toNat = 0
    · rw [show m = 0#52 from BitVec.eq_of_toNat_eq hm]
      exact zero
    · exact subnormal m (by omega)
  · exact normal e m h0 h1

/-! ## Reading and writing the bits -/

theorem unpack_special (s : Sign) (m : BitVec 52) :
    UnpackedFloat.unpack Format.binary64 (word s (-1#11) m) =
      if m = 0#52 then .infinity s else .notANumber := by
  unfold UnpackedFloat.unpack
  dsimp only
  rw [if_pos (unpackExponent_word s (-1#11) m), unpackSign_word, unpackMantissa_word]

theorem unpack_zero (s : Sign) : UnpackedFloat.unpack Format.binary64 (word s 0#11 0#52) = .zero s := by
  unfold UnpackedFloat.unpack
  dsimp only
  rw [if_neg (by rw [unpackExponent_word]; decide), if_pos (unpackExponent_word s 0#11 0#52),
    dif_pos (unpackMantissa_word s 0#11 0#52), unpackSign_word]

/-- The significand cannot be rewritten in place, since its positivity is a part of the float. -/
theorem finite_congr {s s' : Sign} {n n' : Nat} {e e' : Int} (hs : s = s') (hn : n = n') (he : e = e')
    (h : 0 < n) (h' : 0 < n') : UnpackedFloat.finite s n e h = .finite s' n' e' h' := by
  subst hs hn he
  rfl

theorem unpack_subnormal (s : Sign) {m : BitVec 52} (h : 0 < m.toNat) :
    UnpackedFloat.unpack Format.binary64 (word s 0#11 m) = .finite s m.toNat (-1074) h := by
  have hm : @unpackMantissa Format.binary64 (word s 0#11 m) ≠ 0#52 := by
    rw [unpackMantissa_word]
    rintro rfl
    simp at h
  unfold UnpackedFloat.unpack
  dsimp only
  rw [if_neg (by rw [unpackExponent_word]; decide), if_pos (unpackExponent_word s 0#11 m), dif_neg hm]
  refine finite_congr (unpackSign_word s 0#11 m) (by rw [unpackMantissa_word]) ?_ _ _
  rw [unpackExponent_word]
  rfl

theorem significand_pos (m : BitVec 52) : 0 < 2 ^ 52 + m.toNat :=
  Nat.add_pos_left (Nat.two_pow_pos 52) _

theorem unpack_normal (s : Sign) {e : BitVec 11} (h0 : e ≠ 0#11) (h1 : e ≠ -1#11) (m : BitVec 52) :
    UnpackedFloat.unpack Format.binary64 (word s e m) =
      .finite s (2 ^ 52 + m.toNat) (e.toNat - 1075) (significand_pos m) := by
  have hm : (1#1 ++ m).toNat = 2 ^ 52 + m.toNat := by
    rw [BitVec.toNat_append, ← Nat.shiftLeft_add_eq_or_of_lt m.isLt, Nat.shiftLeft_eq]
    rfl
  unfold UnpackedFloat.unpack
  dsimp only
  rw [if_neg (by rwa [unpackExponent_word]), if_neg (by rwa [unpackExponent_word])]
  refine finite_congr (unpackSign_word s e m) (by rw [unpackMantissa_word]; exact hm) ?_ _ _
  rw [unpackExponent_word]
  rfl

theorem log2_subnormal {m : BitVec 52} (h : 0 < m.toNat) :
    m.toNat.log2 + 1 ≠ Format.binary64.mantissaBits := by
  have hlog : m.toNat.log2 < 52 := (Nat.log2_lt (by omega)).2 m.isLt
  show m.toNat.log2 + 1 ≠ 53
  omega

theorem log2_normal (m : BitVec 52) : (2 ^ 52 + m.toNat).log2 + 1 = Format.binary64.mantissaBits := by
  have hm := m.isLt
  have hlog : (2 ^ 52 + m.toNat).log2 = 52 :=
    (Nat.log2_eq_iff (by positivity)).2 ⟨by omega, by omega⟩
  rw [hlog]
  rfl

/-- A finite double is given back by its bits. -/
theorem pack_unpack_word (s : Sign) {e : BitVec 11} (h : e ≠ -1#11) (m : BitVec 52) :
    UnpackedFloat.pack Format.binary64 (UnpackedFloat.unpack Format.binary64 (word s e m)) = word s e m := by
  induction e, m using parts_cases with
  | special m => exact absurd rfl h
  | zero =>
    rw [unpack_zero]
    rfl
  | subnormal m hm =>
    rw [unpack_subnormal s hm]
    unfold UnpackedFloat.pack
    simp only [if_neg (log2_subnormal hm), BitVec.ofNat_toNat, BitVec.setWidth_eq]
    rfl
  | normal e m h0 h1 =>
    rw [unpack_normal s h0 h1]
    have he : e.toNat ≠ 2047 := fun he => h1 (BitVec.eq_of_toNat_eq he)
    have he' := e.isLt
    -- the bias and the length of the mantissa that reading takes off are put back
    have hexp : ((e.toNat : Int) - 1075 + Format.binary64.exponentBias +
        Format.binary64.mantissaBitsWithoutImplicit).toNat = e.toNat := by
      show ((e.toNat : Int) - 1075 + (1023 : Nat) + (52 : Nat)).toNat = e.toNat
      omega
    have hmantissa : BitVec.ofNat 52 (2 ^ 52 + m.toNat) = m := by
      apply BitVec.eq_of_toNat_eq
      rw [BitVec.toNat_ofNat]
      have := m.isLt
      omega
    unfold UnpackedFloat.pack
    simp only [hexp, if_pos (log2_normal m), hmantissa, BitVec.ofNat_toNat, BitVec.setWidth_eq]
    rw [if_neg (by omega)]
    rfl

theorem neg_unpack_word (s : Sign) (e : BitVec 11) (m : BitVec 52) :
    (UnpackedFloat.unpack Format.binary64 (word s e m)).neg =
      UnpackedFloat.unpack Format.binary64 (word (-s) e m) := by
  induction e, m using parts_cases with
  | special m =>
    rw [unpack_special, unpack_special]
    split <;> rfl
  | zero =>
    rw [unpack_zero, unpack_zero]
    rfl
  | subnormal m hm =>
    rw [unpack_subnormal s hm, unpack_subnormal (-s) hm]
    rfl
  | normal e m h0 h1 =>
    rw [unpack_normal s h0 h1, unpack_normal (-s) h0 h1]
    rfl

theorem abs_unpack_word (s : Sign) (e : BitVec 11) (m : BitVec 52) :
    (UnpackedFloat.unpack Format.binary64 (word s e m)).abs =
      UnpackedFloat.unpack Format.binary64 (word .positive e m) := by
  induction e, m using parts_cases with
  | special m =>
    rw [unpack_special, unpack_special]
    split <;> rfl
  | zero =>
    rw [unpack_zero, unpack_zero]
    rfl
  | subnormal m hm =>
    rw [unpack_subnormal s hm, unpack_subnormal .positive hm]
    rfl
  | normal e m h0 h1 =>
    rw [unpack_normal s h0 h1, unpack_normal .positive h0 h1]
    rfl

/-! ## Ordinals -/

/-- The sign of a truth value. -/
def signOf (negative : Bool) : Sign :=
  if negative then .negative else .positive

theorem neg_signOf (negative : Bool) : -signOf negative = signOf (!negative) := by
  cases negative <;> rfl

theorem infinity_eq : infinity = 2047 * 2 ^ 52 := rfl

/-- The bit pattern of a sign and an ordinal. -/
def bitsOf (negative : Bool) (k : Nat) : UInt64 :=
  UInt64.ofNat (if negative then Nat.pow 2 63 + k else k)

theorem bitsOf_toNat {k : Nat} (h : k < infinity) (negative : Bool) :
    (bitsOf negative k).toNat = (if negative then 2 ^ 63 else 0) + k := by
  rw [infinity_eq] at h
  unfold bitsOf
  rw [UInt64.toNat_ofNat', Nat.pow_eq]
  cases negative <;> simp only [Bool.false_eq_true, if_true, if_false] <;> omega

theorem bitsOf_word {k : Nat} (h : k < infinity) (negative : Bool) :
    (bitsOf negative k).toBitVec =
      word (signOf negative) (BitVec.ofNat 11 (k / 2 ^ 52)) (BitVec.ofNat 52 k) := by
  apply BitVec.eq_of_toNat_eq
  rw [UInt64.toNat_toBitVec, bitsOf_toNat h, toNat_word, BitVec.toNat_ofNat, BitVec.toNat_ofNat]
  rw [infinity_eq] at h
  have hs : (signOf negative).toBitVec.toNat = if negative then 1 else 0 := by
    cases negative <;> rfl
  rw [hs]
  cases negative <;> simp only [Bool.false_eq_true, if_true, if_false] <;> omega

theorem exponent_ne {k : Nat} (h : k < infinity) : BitVec.ofNat 11 (k / 2 ^ 52) ≠ -1#11 := by
  intro he
  have := congrArg BitVec.toNat he
  rw [BitVec.toNat_ofNat] at this
  rw [infinity_eq] at h
  change k / 2 ^ 52 % 2 ^ 11 = 2047 at this
  omega

theorem toBits_ofOrdinal {k : Nat} (h : k < infinity) (negative : Bool) :
    (ofOrdinal negative k).toBits = bitsOf negative k := by
  show UInt64.ofBitVec (UnpackedFloat.pack Format.binary64
    (UnpackedFloat.unpack Format.binary64 (bitsOf negative k).toBitVec)) = _
  rw [bitsOf_word h, pack_unpack_word _ (exponent_ne h), ← bitsOf_word h]

@[simp] theorem ordinal_ofOrdinal {k : Nat} (h : k < infinity) (negative : Bool) :
    ordinal (ofOrdinal negative k) = k := by
  unfold ordinal
  rw [toBits_ofOrdinal h, bitsOf_toNat h, Nat.pow_eq]
  rw [infinity_eq] at h
  split <;> omega

theorem float_ext {x y : Float} (h : x.toBits = y.toBits) : x = y := by
  obtain ⟨⟨a, ha⟩⟩ := x
  obtain ⟨⟨b, hb⟩⟩ := y
  change a = b at h
  subst h
  rfl

/-- A finite double is the one with its sign and its ordinal. -/
theorem ofOrdinal_ordinal {x : Float} (h : ordinal x < infinity) :
    ofOrdinal (isNegative x) (ordinal x) = x := by
  apply float_ext
  rw [toBits_ofOrdinal h]
  apply UInt64.toNat_inj.1
  rw [bitsOf_toNat h]
  unfold isNegative ordinal
  rw [Nat.pow_eq]
  have := x.toBits.toNat_lt
  -- the sign is the highest bit, and the ordinal is what the others make up
  simp only [decide_eq_true_eq]
  split <;> omega

/-- The negation of a finite double has the other sign and the same ordinal. -/
theorem neg_ofOrdinal {k : Nat} (h : k < infinity) (negative : Bool) :
    -ofOrdinal negative k = ofOrdinal (!negative) k := by
  apply float_ext
  rw [toBits_ofOrdinal h]
  show UInt64.ofBitVec (UnpackedFloat.pack Format.binary64 (UnpackedFloat.unpack Format.binary64
    (ofOrdinal negative k).toBits.toBitVec).neg) = _
  rw [toBits_ofOrdinal h, bitsOf_word h, neg_unpack_word, neg_signOf,
    pack_unpack_word _ (exponent_ne h), ← bitsOf_word h]

/-- The magnitude of a finite double has the same ordinal, and no sign. -/
theorem abs_of_finite {x : Float} (h : ordinal x < infinity) : x.abs = ofOrdinal false (ordinal x) := by
  rw [← ofOrdinal_ordinal h, ordinal_ofOrdinal h]
  generalize ordinal x = k at h ⊢
  apply float_ext
  rw [toBits_ofOrdinal h]
  show UInt64.ofBitVec (UnpackedFloat.pack Format.binary64 (UnpackedFloat.unpack Format.binary64
    (ofOrdinal (isNegative x) k).toBits.toBitVec).abs) = _
  rw [toBits_ofOrdinal h, bitsOf_word h, abs_unpack_word, ← show signOf false = Sign.positive from rfl,
    pack_unpack_word _ (exponent_ne h), ← bitsOf_word h]

theorem isFinite_unpack_word (s : Sign) (e : BitVec 11) (m : BitVec 52) :
    (UnpackedFloat.unpack Format.binary64 (word s e m)).isFinite = true ↔ e ≠ -1#11 := by
  induction e, m using parts_cases with
  | special m =>
    rw [unpack_special]
    split <;> exact ⟨fun h => absurd h Bool.false_ne_true, fun h => absurd rfl h⟩
  | zero =>
    rw [unpack_zero]
    exact ⟨fun _ => by decide, fun _ => rfl⟩
  | subnormal m hm =>
    rw [unpack_subnormal s hm]
    exact ⟨fun _ => by decide, fun _ => rfl⟩
  | normal e m h0 h1 =>
    rw [unpack_normal s h0 h1]
    exact ⟨fun _ => h1, fun _ => rfl⟩

/-- The finite doubles are those with an ordinal below `infinity`. -/
theorem isFinite_iff (x : Float) : x.isFinite = true ↔ ordinal x < infinity := by
  obtain ⟨s, e, m, hb⟩ := exists_word x.toBits.toBitVec
  have hord : ordinal x = e.toNat * 2 ^ 52 + m.toNat := by
    unfold ordinal
    rw [← UInt64.toNat_toBitVec, hb, toNat_word, Nat.pow_eq]
    have := e.isLt
    have := m.isLt
    omega
  have hfinite : x.isFinite = (UnpackedFloat.unpack Format.binary64 (word s e m)).isFinite := by
    rw [← hb]
    rfl
  -- the words below `infinity` are those with a smaller exponent, whatever the mantissa
  have he : e ≠ -1#11 ↔ e.toNat ≠ 2047 :=
    not_congr ⟨fun h => congrArg BitVec.toNat h, fun h => BitVec.eq_of_toNat_eq h⟩
  rw [hfinite, hord, infinity_eq, isFinite_unpack_word, he]
  have := e.isLt
  have := m.isLt
  omega

end Reckoner.Number
