import LevelCollision.Proofs.BinaryArithmetic

namespace LevelCollision

/-!
# Packed binary scalars

A scalar is kept in 32 bits: a sign, an exponent and a mantissa without its leading bit,
which is left out. What denotes a number that is not too large is unpacked as it was
packed.
-/

open Float.Model (Format UnpackedFloat)
open Float.Model.UnpackedFloat
  (Sign pack unpack packComponents unpackExponent unpackMantissa
    unpackMantissa_packComponents unpackExponent_packComponents
    unpackSign_packComponents unpack_packedZero)

namespace Binary

/-- A leading bit in front of the bits of a mantissa. -/
theorem toNat_leading_append
    (bits : BitVec 23) :
    (1#1 ++ bits).toNat = 2 ^ 23 + bits.toNat := by
  rw [BitVec.toNat_append, ← Nat.shiftLeft_add_eq_or_of_lt bits.isLt]
  rfl

theorem finite_congr
    {sign : Sign}
    {mantissa other : Nat}
    {exponent otherExponent : Int}
    (sameMantissa : mantissa = other)
    (sameExponent : exponent = otherExponent)
    (positive : 0 < mantissa)
    (otherPositive : 0 < other) :
    UnpackedFloat.finite sign mantissa exponent positive =
      .finite sign other otherExponent otherPositive := by
  subst sameMantissa sameExponent
  rfl

variable {sign : Sign} {mantissa : Nat} {exponent : Int}

theorem zero_ne_allOnes :
    (0#8) ≠ -1#8 := by
  decide

/-- Bits that stand for a mantissa that is not full. -/
theorem unpack_short
    (positive : 0 < mantissa)
    (short : mantissa < 2 ^ 23) :
    unpack .binary32
        (packComponents .binary32 sign 0#8 (BitVec.ofNat 23 mantissa)) =
      .finite sign mantissa (-149) positive := by
  have kept : (BitVec.ofNat 23 mantissa).toNat = mantissa := by
    rw [BitVec.toNat_ofNat, Nat.mod_eq_of_lt short]
  have notZero : BitVec.ofNat 23 mantissa ≠ 0#23 := by
    intro isZero
    rw [isZero] at kept
    exact absurd kept positive.ne
  unfold unpack
  simp only [unpackMantissa_packComponents, unpackExponent_packComponents,
    unpackSign_packComponents, Sign.ofBitVec_toBitVec, zero_ne_allOnes, notZero,
    ↓reduceIte, ↓reduceDIte]
  exact finite_congr kept rfl _ positive

/-- Bits that stand for a full mantissa. -/
theorem unpack_full
    {biased : Nat}
    (positive : 0 < mantissa)
    (full : 2 ^ 23 ≤ mantissa)
    (short : mantissa < 2 ^ 24)
    (notLeast : 0 < biased)
    (notMost : biased < 255) :
    unpack .binary32
        (packComponents .binary32 sign (BitVec.ofNat 8 biased)
          (BitVec.ofNat 23 mantissa)) =
      .finite sign mantissa (biased - 150) positive := by
  have kept : (BitVec.ofNat 8 biased).toNat = biased := by
    rw [BitVec.toNat_ofNat, Nat.mod_eq_of_lt (by omega)]
  have notAllOnes : BitVec.ofNat 8 biased ≠ -1#8 := by
    intro isAllOnes
    rw [isAllOnes] at kept
    exact absurd kept notMost.ne'
  have notZero : BitVec.ofNat 8 biased ≠ 0#8 := by
    intro isZero
    rw [isZero] at kept
    exact absurd kept notLeast.ne
  have leading : (1#1 ++ BitVec.ofNat 23 mantissa).toNat = mantissa := by
    rw [toNat_leading_append, BitVec.toNat_ofNat]
    omega
  unfold unpack
  simp only [unpackMantissa_packComponents, unpackExponent_packComponents,
    unpackSign_packComponents, Sign.ofBitVec_toBitVec, notAllOnes, notZero,
    ↓reduceIte]
  refine finite_congr leading ?_ _ positive
  rw [kept]
  rfl

/-- What denotes a number and has no exponent that is too high is packed as it is. -/
theorem unpack_pack
    (positive : 0 < mantissa)
    (canonical : Canonical mantissa exponent)
    (notTooHigh : exponent ≤ 104) :
    unpack .binary32
        (pack .binary32 (.finite sign mantissa exponent positive)) =
      .finite sign mantissa exponent positive := by
  have notZero := Nat.pos_iff_ne_zero.mp positive
  have notTooLow := canonical.notTooLow
  obtain ⟨biased, isBiased⟩ :=
    Int.eq_ofNat_of_zero_le (by omega : 0 ≤ exponent + 150)
  have bias :
      (exponent + Format.exponentBias .binary32 +
          Format.mantissaBitsWithoutImplicit .binary32).toNat =
        biased := by
    change (exponent + 127 + 23).toNat = biased
    omega
  have fits : ¬2 ^ Format.exponentBits .binary32 ≤ biased + 1 := by
    change ¬2 ^ 8 ≤ biased + 1
    omega
  unfold pack
  simp only [bias, fits, ↓reduceIte]
  by_cases full : 2 ^ 23 ≤ mantissa
  · have bits : mantissa.log2 + 1 = Format.mantissaBits .binary32 := by
      have isLog :=
        (Nat.log2_eq_iff notZero).mpr ⟨full, canonical.short⟩
      rw [isLog]
      rfl
    rw [if_pos bits,
      unpack_full positive full canonical.short (by omega) (by omega)]
    exact finite_congr rfl (by omega) positive positive
  · have isLeast := canonical.full.resolve_left full
    have bits : mantissa.log2 + 1 ≠ Format.mantissaBits .binary32 := by
      have notFull := (Nat.log2_lt notZero).mpr (not_le.mp full)
      change mantissa.log2 + 1 ≠ 24
      omega
    rw [if_neg bits]
    subst isLeast
    exact unpack_short positive (not_le.mp full)

/-- A number that is not too large has no exponent that is too high. -/
theorem Canonical.notTooHigh
    (canonical : Canonical mantissa exponent)
    (bounded : (mantissa : Rat) * 2 ^ exponent ≤ 2 ^ (127 : Int)) :
    exponent ≤ 104 := by
  by_contra tooHigh
  have full := canonical.full.resolve_right (by omega)
  have least : (2 ^ 23 : Rat) ≤ mantissa := by
    exact_mod_cast full
  have power : (2 : Rat) ^ (105 : Int) ≤ 2 ^ exponent :=
    zpow_le_zpow_right₀ one_le_two (by omega)
  have large :
      (2 : Rat) ^ (127 : Int) < 2 ^ 23 * 2 ^ (105 : Int) := by
    norm_num
  have product :
      (2 : Rat) ^ 23 * 2 ^ (105 : Int) ≤ mantissa * 2 ^ exponent :=
    mul_le_mul least power (by positivity) (by positivity)
  linarith

/-- What a value denotes is still denoted after it was packed, if it is not too large. -/
theorem Denotes.unpack_pack
    {value : UnpackedFloat}
    {exact : Rat}
    (denotes : Denotes value exact)
    (bounded : |exact| ≤ 2 ^ (127 : Int)) :
    Denotes (unpack .binary32 (pack .binary32 value)) exact := by
  cases denotes with
  | zero sign =>
      rw [pack, unpack_packedZero]
      exact .zero sign
  | @finite sign mantissa exponent positive canonical =>
      have magnitude :
          |(sign.apply mantissa : Rat) * 2 ^ exponent| =
            mantissa * 2 ^ exponent := by
        have nonneg : (0 : Rat) ≤ mantissa * 2 ^ exponent :=
          mul_nonneg (Nat.cast_nonneg _) (zpow_pos two_pos _).le
        cases sign with
        | positive =>
            exact abs_of_nonneg nonneg
        | negative =>
            simp only [Sign.apply, Int.cast_neg, neg_mul, abs_neg,
              Int.cast_natCast]
            exact abs_of_nonneg nonneg
      rw [magnitude] at bounded
      rw [Binary.unpack_pack positive canonical
        (canonical.notTooHigh bounded)]
      exact .finite positive canonical

/-- A finite value that was unpacked is written in the one way. -/
theorem canonical_unpack
    {bits : BitVec (Format.numBits .binary32)}
    {positive : 0 < mantissa}
    (unpacks :
      unpack .binary32 bits = .finite sign mantissa exponent positive) :
    Canonical mantissa exponent := by
  have short : (unpackMantissa bits).toNat < 2 ^ 23 :=
    (unpackMantissa bits).isLt
  unfold unpack at unpacks
  dsimp only at unpacks
  split at unpacks
  · split at unpacks <;> cases unpacks
  · split at unpacks
    · rename_i isLeast
      split at unpacks
      · cases unpacks
      · cases unpacks
        have least :
            ((unpackExponent bits).toNat : Int) - (127 + 23) + 1 = -149 := by
          rw [isLeast]
          rfl
        exact ⟨by omega, le_of_eq least.symm, .inr least⟩
    · rename_i notLeast
      cases unpacks
      have positiveExponent : 0 < (unpackExponent bits).toNat := by
        refine Nat.pos_of_ne_zero fun isZero => notLeast ?_
        exact BitVec.eq_of_toNat_eq isZero
      have notTooLow :
          -149 ≤ ((unpackExponent bits).toNat : Int) - (127 + 23) := by
        omega
      have leading := toNat_leading_append (unpackMantissa bits)
      exact ⟨by omega, notTooLow, .inl (by omega)⟩

end Binary

end LevelCollision
