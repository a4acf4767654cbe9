/-
  The doubles of integers with 64 bits.

  A double keeps 53 bits.  A longer mantissa is shifted to the right bit by bit and rounded by the
  bits that were dropped, which is a division by a power of two to the nearest integer, a half to
  the even one (`roundedMantissa_shifted`).  The double that this gives is found again in its bits
  (`Normal.ofBits_toBits`), and so an integer with 64 bits becomes the nearest multiple of 2048
  (`ofNat_word`).
-/
import Mathlib.Data.Nat.Log
import LateralSql.Double.Convert

namespace LateralSql.Double

open Float.Model (UnpackedFloat Format)
open Float.Model.UnpackedFloat (Accuracy ExtendedMantissa Sign)

/-! ## Division to the nearest integer -/

theorem roundDiv_eq (num den : Nat) :
    roundDiv num den =
      if 2 * (num % den) < den then num / den
      else if den < 2 * (num % den) then num / den + 1
      else num / den + num / den % 2 := by
  unfold roundDiv
  dsimp only
  split
  · next h => rw [if_pos (Nat.compare_eq_lt.1 h)]
  · next h =>
    have hlt : den < 2 * (num % den) := Nat.compare_eq_gt.1 h
    rw [if_neg (Nat.lt_asymm hlt), if_pos hlt]
  · next h =>
    have heq : 2 * (num % den) = den := Nat.compare_eq_eq.1 h
    rw [if_neg heq.not_lt, if_neg heq.not_gt]
    split <;> omega

theorem roundDiv_mul (q : Nat) {den : Nat} (h : 0 < den) : roundDiv (q * den) den = q := by
  rw [roundDiv_eq, Nat.mul_mod_left, if_pos h, Nat.mul_div_cancel q h]

/-- The nearest multiple, of two the one by an even number. -/
def nearestMultiple (x step : Nat) : Nat := roundDiv x step * step

theorem dvd_nearestMultiple (x step : Nat) : step ∣ nearestMultiple x step :=
  Nat.dvd_mul_left step (roundDiv x step)

/-- The nearest multiple is off by at most half a step. -/
theorem nearestMultiple_near (x : Nat) {step : Nat} (h : 0 < step) :
    2 * x ≤ 2 * nearestMultiple x step + step ∧ 2 * nearestMultiple x step ≤ 2 * x + step := by
  have hx : x / step * step + x % step = x := Nat.div_add_mod' x step
  have hlt : x % step < step := Nat.mod_lt x h
  rw [nearestMultiple, roundDiv_eq]
  split_ifs with hless hmore
  · omega
  · rw [Nat.add_mul, Nat.one_mul]
    omega
  · rcases Nat.mod_two_eq_zero_or_one (x / step) with heven | hodd
    · rw [heven, Nat.add_zero]
      omega
    · rw [hodd, Nat.add_mul, Nat.one_mul]
      omega

/-! ## Rounding of mantissas -/

/-- The mantissa after `k` shifts. -/
def shifted (m k : Nat) : ExtendedMantissa := (⟨m, false, false⟩ : ExtendedMantissa) >>> k

theorem mod_pow_succ (m k : Nat) :
    m % Nat.pow 2 (k + 1) = m % Nat.pow 2 k + Nat.pow 2 k * (m / Nat.pow 2 k % 2) :=
  Nat.mod_mul

/-- The bits that were dropped are kept as far as rounding needs them. -/
theorem shifted_spec (m k : Nat) :
    (shifted m k).mantissa = m / Nat.pow 2 k ∧
      ((shifted m k).roundBit || (shifted m k).stickyBit) = (m % Nat.pow 2 k != 0) := by
  induction k with
  | zero => exact ⟨(Nat.div_one m).symm, by rw [show Nat.pow 2 0 = 1 from rfl, Nat.mod_one]; rfl⟩
  | succ k ih =>
    obtain ⟨hmantissa, hdropped⟩ := ih
    constructor
    · change (shifted m k).mantissa / 2 = _
      rw [hmantissa, Nat.div_div_eq_div_mul]
      rfl
    · change ((shifted m k).mantissa % 2 != 0 ||
        ((shifted m k).roundBit || (shifted m k).stickyBit)) = _
      rw [hmantissa, hdropped, mod_pow_succ]
      rcases Nat.mod_two_eq_zero_or_one (m / Nat.pow 2 k) with h | h <;> rw [h]
      · simp
      · simp

theorem roundedMantissa_eq (em : ExtendedMantissa) :
    em.roundedMantissa =
      if em.roundBit then
        if em.stickyBit then em.mantissa + 1 else em.mantissa + em.mantissa % 2
      else em.mantissa := by
  obtain ⟨m, round, sticky⟩ := em
  cases round <;> cases sticky <;> rfl

/-- **Shifting and rounding divides to the nearest integer.** -/
theorem roundedMantissa_shifted (m k : Nat) :
    (shifted m (k + 1)).roundedMantissa = roundDiv m (Nat.pow 2 (k + 1)) := by
  obtain ⟨hmantissa, hdropped⟩ := shifted_spec m k
  have hround : (shifted m (k + 1)).roundBit = (m / Nat.pow 2 k % 2 != 0) := by
    rw [← hmantissa]
    rfl
  have hsticky : (shifted m (k + 1)).stickyBit = (m % Nat.pow 2 k != 0) := hdropped
  have hlt : m % Nat.pow 2 k < Nat.pow 2 k := Nat.mod_lt m (Nat.pow_pos (by decide))
  have hpow : Nat.pow 2 (k + 1) = Nat.pow 2 k * 2 := rfl
  rw [roundedMantissa_eq, (shifted_spec m (k + 1)).1, hround, hsticky, roundDiv_eq, mod_pow_succ]
  generalize m / Nat.pow 2 (k + 1) = q
  rw [hpow]
  generalize Nat.pow 2 k = p at *
  rcases Nat.mod_two_eq_zero_or_one (m / p) with h | h <;> rw [h]
  · have hless : 2 * (m % p + p * 0) < p * 2 := by omega
    rw [if_pos hless, if_neg (by decide)]
  · have hmore : ¬ 2 * (m % p + p * 1) < p * 2 := by omega
    rw [if_neg hmore, if_pos (show (1 != 0) = true from rfl)]
    by_cases hzero : m % p = 0
    · have hhalf : ¬ p * 2 < 2 * (m % p + p * 1) := by omega
      rw [if_neg hhalf, hzero, if_neg (by decide)]
    · have habove : p * 2 < 2 * (m % p + p * 1) := by omega
      rw [if_pos habove, if_pos (bne_iff_ne.2 hzero)]

/-! ## Doubles with a full mantissa -/

/-- The parts of a positive double with all 53 bits of its mantissa. -/
structure Normal where
  mantissa : Nat
  exponent : Int
  low : 4503599627370496 ≤ mantissa
  high : mantissa < 9007199254740992
  least : -1074 ≤ exponent
  greatest : exponent ≤ 971

namespace Normal

/-- The double before it is packed into bits. -/
def unpacked (p : Normal) : UnpackedFloat :=
  .finite .positive p.mantissa p.exponent (Nat.lt_of_lt_of_le (by decide) p.low)

/-- The double. -/
def toFloat (p : Normal) : Float := .ofModel (.pack p.unpacked)

/-- The double is `r * 2 ^ e`, for `r` of 53 bits or the least number of 54. -/
def HasValue (p : Normal) (r : Nat) (e : Int) : Prop :=
  p.mantissa = r ∧ p.exponent = e ∨
    r = 9007199254740992 ∧ p.mantissa = 4503599627370496 ∧ p.exponent = e + 1

theorem log2_mantissa (p : Normal) : p.mantissa.log2 = 52 :=
  (Nat.log2_eq_iff (by have := p.low; omega)).2 ⟨p.low, p.high⟩

end Normal

theorem shiftToTargetExponent_eq {m k : Nat} {e : Int} (hlog : m.log2 = 52 + k)
    (he : -1074 ≤ e + k) :
    UnpackedFloat.shiftToTargetExponent .binary64 m e .exact = (shifted m k, e + k) := by
  have htarget : Format.binary64.targetExponent (Float.Model.totalExponent m e) = e + k := by
    change max ((m.log2 : Int) + 1 + e - 53) (-1074) = e + k
    omega
  have hshift : (e + k - e).toNat = k := by omega
  unfold UnpackedFloat.shiftToTargetExponent UnpackedFloat.shiftToExponent
  dsimp only
  rw [htarget, hshift]
  rfl

/-- The quotient of a mantissa that is too long has 53 bits, unless it is rounded up to 54. -/
theorem roundDiv_bounds {m k : Nat} (hlog : m.log2 = 52 + k) :
    4503599627370496 ≤ roundDiv m (Nat.pow 2 k) ∧ roundDiv m (Nat.pow 2 k) ≤ 9007199254740992 := by
  have hne : m ≠ 0 := by
    rintro rfl
    have hzero : Nat.log2 0 = 0 := Nat.log2_zero
    omega
  have hpos : 0 < Nat.pow 2 k := Nat.pow_pos (by decide)
  obtain ⟨hlow, hhigh⟩ := (Nat.log2_eq_iff hne).1 hlog
  have hlow' : 4503599627370496 ≤ m / Nat.pow 2 k := by
    refine (Nat.le_div_iff_mul_le hpos).2 ?_
    rwa [Nat.pow_add] at hlow
  have hhigh' : m / Nat.pow 2 k < 9007199254740992 := by
    refine (Nat.div_lt_iff_lt_mul hpos).2 ?_
    rwa [show 52 + k + 1 = 53 + k by omega, Nat.pow_add] at hhigh
  rw [roundDiv_eq]
  split_ifs <;> omega

/-- **Rounding to 53 bits**, where the exponent stays in its range. -/
theorem roundWithAccuracy_eq {m k : Nat} {e : Int} (hlog : m.log2 = 52 + (k + 1))
    (hleast : -1074 ≤ e + (k + 1)) (hgreatest : e + (k + 1) ≤ 970) :
    ∃ p : Normal, UnpackedFloat.roundWithAccuracy .binary64 .positive m e .exact = p.unpacked ∧
      p.HasValue (roundDiv m (Nat.pow 2 (k + 1))) (e + (k + 1)) := by
  obtain ⟨hlow, hhigh⟩ := roundDiv_bounds hlog
  have hfirst := shiftToTargetExponent_eq (e := e) hlog (by omega)
  have hround := roundedMantissa_shifted m k
  generalize roundDiv m (Nat.pow 2 (k + 1)) = r at *
  unfold UnpackedFloat.roundWithAccuracy
  rw [hfirst]
  dsimp only
  rw [hround]
  rcases Nat.lt_or_eq_of_le hhigh with hlt | rfl
  · have hlog' : r.log2 = 52 + 0 := (Nat.log2_eq_iff (by omega)).2 ⟨hlow, hlt⟩
    have hsecond := shiftToTargetExponent_eq (e := e + (k + 1 : Nat)) hlog' (by omega)
    refine ⟨⟨r, e + (k + 1 : Nat) + (0 : Nat), hlow, hlt, by omega, by omega⟩, ?_, .inl ⟨rfl, ?_⟩⟩
    · rw [hsecond]
      exact dif_neg (show r ≠ 0 by omega)
    · exact Int.add_zero _
  · have hlog' : Nat.log2 9007199254740992 = 52 + 1 := (Nat.log2_eq_iff (by decide)).2 (by decide)
    have hsecond := shiftToTargetExponent_eq (e := e + (k + 1 : Nat)) hlog' (by omega)
    have hshifted : shifted 9007199254740992 1 = ⟨4503599627370496, false, false⟩ := rfl
    refine ⟨⟨4503599627370496, e + (k + 1 : Nat) + (1 : Nat), by decide, by decide, by omega,
      by omega⟩, ?_, .inr ⟨rfl, rfl, rfl⟩⟩
    rw [hsecond, hshifted]
    exact dif_neg (show 4503599627370496 ≠ 0 by decide)

/-! ## Bits -/

theorem unpackSign_packComponents {spec : Format} {s : Sign} {e : BitVec spec.exponentBits}
    {m : BitVec spec.mantissaBitsWithoutImplicit} :
    UnpackedFloat.unpackSign (UnpackedFloat.packComponents spec s e m) = s.toBitVec := by
  refine BitVec.eq_of_getLsbD_eq fun i hi => ?_
  obtain rfl : i = 0 := by omega
  unfold UnpackedFloat.unpackSign UnpackedFloat.packComponents
  simp [BitVec.getLsbD_append, BitVec.getElem_append]

theorem unpack_normal (e : BitVec 11) (m : BitVec 52) (hinf : e ≠ -1#11) (hzero : e ≠ 0#11)
    (hpos : 0 < (1#1 ++ m).toNat) :
    UnpackedFloat.unpack .binary64 (UnpackedFloat.packComponents .binary64 .positive e m) =
      .finite .positive (1#1 ++ m).toNat (e.toNat - 1075) hpos := by
  unfold UnpackedFloat.unpack
  dsimp only
  rw [if_neg (by rwa [UnpackedFloat.unpackExponent_packComponents]),
    if_neg (by rwa [UnpackedFloat.unpackExponent_packComponents]),
    UnpackedFloat.finite.injEq, unpackSign_packComponents,
    UnpackedFloat.unpackMantissa_packComponents, UnpackedFloat.unpackExponent_packComponents]
  exact ⟨rfl, rfl, rfl⟩

theorem toNat_implicit (m : Nat) (hlow : 4503599627370496 ≤ m) (hhigh : m < 9007199254740992) :
    (1#1 ++ BitVec.ofNat 52 m).toNat = m := by
  rw [BitVec.toNat_append, ← Nat.shiftLeft_add_eq_or_of_lt (BitVec.isLt _), BitVec.toNat_ofNat]
  change 1 <<< 52 + m % 4503599627370496 = m
  rw [Nat.shiftLeft_eq]
  omega

namespace Normal

theorem pack_unpacked (p : Normal) :
    UnpackedFloat.pack .binary64 p.unpacked =
      UnpackedFloat.packComponents .binary64 .positive (.ofNat _ (p.exponent + 1075).toNat)
        (.ofNat _ p.mantissa) := by
  have hleast := p.least
  have hgreatest := p.greatest
  have hbiased : p.exponent + (Format.binary64.exponentBias : Int) + (52 : Nat) =
      p.exponent + 1075 := by
    change p.exponent + 1023 + 52 = _
    omega
  have hfits : ¬ 2048 ≤ (p.exponent + 1075).toNat + 1 := by omega
  have hfull : p.mantissa.log2 + 1 = Format.binary64.mantissaBits := by
    rw [p.log2_mantissa]
    rfl
  unfold unpacked UnpackedFloat.pack
  dsimp only
  rw [hbiased, if_neg hfits, if_pos hfull]

theorem unpack_toFloat (p : Normal) : p.toFloat.toModel.unpack = p.unpacked := by
  have hleast := p.least
  have hgreatest := p.greatest
  have hmantissa := toNat_implicit p.mantissa p.low p.high
  have hexponent :
      (BitVec.ofNat 11 (p.exponent + 1075).toNat).toNat = (p.exponent + 1075).toNat := by
    rw [BitVec.toNat_ofNat]
    exact Nat.mod_eq_of_lt (show _ < 2048 by omega)
  have hinf : BitVec.ofNat 11 (p.exponent + 1075).toNat ≠ -1#11 := by
    intro h
    have htoNat := congrArg BitVec.toNat h
    rw [hexponent, show (-1#11).toNat = 2047 from rfl] at htoNat
    omega
  have hzero : BitVec.ofNat 11 (p.exponent + 1075).toNat ≠ 0#11 := by
    intro h
    have htoNat := congrArg BitVec.toNat h
    rw [hexponent, show (0#11).toNat = 0 from rfl] at htoNat
    omega
  change UnpackedFloat.unpack .binary64 (UnpackedFloat.pack .binary64 p.unpacked) = p.unpacked
  rw [pack_unpacked, unpack_normal _ _ hinf hzero (by rw [hmantissa]; have := p.low; omega)]
  unfold unpacked
  rw [UnpackedFloat.finite.injEq, hmantissa, hexponent]
  refine ⟨rfl, rfl, ?_⟩
  omega

/-- The bits of the exponent, with those of the mantissa below them. -/
theorem toNat_toBits (p : Normal) :
    p.toFloat.toBits.toNat =
      (p.exponent + 1075).toNat * 4503599627370496 + (p.mantissa - 4503599627370496) := by
  have hleast := p.least
  have hgreatest := p.greatest
  have hlow := p.low
  have hhigh := p.high
  change (UnpackedFloat.pack .binary64 p.unpacked).toNat = _
  rw [pack_unpacked]
  change (0#1 ++ BitVec.ofNat 11 (p.exponent + 1075).toNat ++ BitVec.ofNat 52 p.mantissa).toNat = _
  rw [BitVec.toNat_append, BitVec.toNat_append, ← Nat.shiftLeft_add_eq_or_of_lt (BitVec.isLt _),
    BitVec.toNat_ofNat, BitVec.toNat_ofNat, Nat.zero_mod, Nat.zero_shiftLeft, Nat.zero_or,
    BitVec.toNat_ofNat, Nat.shiftLeft_eq]
  change (p.exponent + 1075).toNat % 2048 * 4503599627370496 + p.mantissa % 4503599627370496 = _
  omega

theorem isFinite_toFloat (p : Normal) : p.toFloat.isFinite = true := by
  change p.toFloat.toModel.unpack.isFinite = true
  rw [unpack_toFloat]
  rfl

theorem isNegative_toFloat (p : Normal) : isNegative p.toFloat = false := by
  have hleast := p.least
  have hgreatest := p.greatest
  have hhigh := p.high
  have hsign : (p.toFloat.toBits >>> 63).toNat = 0 := by
    rw [UInt64.toNat_shiftRight, toNat_toBits, Nat.shiftRight_eq_div_pow]
    change _ / 9223372036854775808 = 0
    omega
  unfold isNegative
  rw [beq_eq_false_iff_ne]
  intro h
  rw [h] at hsign
  cases hsign

/-- The parts of a double are found in its bits. -/
theorem ofBits_toBits (p : Normal) :
    (Binary.ofBits p.toFloat.toBits).mantissa = p.mantissa ∧
      (Binary.ofBits p.toFloat.toBits).exponent = p.exponent := by
  have hleast := p.least
  have hgreatest := p.greatest
  have hlow := p.low
  have hhigh := p.high
  have hexponent : ((p.toFloat.toBits >>> 52) &&& 0x7FF).toNat = (p.exponent + 1075).toNat := by
    rw [UInt64.toNat_and, UInt64.toNat_shiftRight, toNat_toBits, Nat.shiftRight_eq_div_pow]
    change _ / 4503599627370496 &&& (2 ^ 11 - 1) = _
    rw [Nat.and_two_pow_sub_one_eq_mod]
    omega
  have hfraction : (p.toFloat.toBits &&& 0xFFFFFFFFFFFFF).toNat =
      p.mantissa - 4503599627370496 := by
    rw [UInt64.toNat_and, toNat_toBits]
    change _ &&& (2 ^ 52 - 1) = _
    rw [Nat.and_two_pow_sub_one_eq_mod]
    omega
  unfold Binary.ofBits
  dsimp only
  rw [hexponent, hfraction, if_neg (by omega)]
  dsimp only
  omega

/-! ## Integers with 64 bits -/

/-- The double 1. -/
def one : Normal := ⟨4503599627370496, -52, by decide, by decide, by decide, by decide⟩

theorem toFloat_one : (1.0 : Float) = one.toFloat := rfl

theorem toFloat_congr {p q : Normal} (hmantissa : p.mantissa = q.mantissa)
    (hexponent : p.exponent = q.exponent) : p.toFloat = q.toFloat := by
  obtain ⟨m, e, _⟩ := p
  obtain rfl : m = q.mantissa := hmantissa
  obtain rfl : e = q.exponent := hexponent
  rfl

theorem mul_one (p : Normal) (h : p.exponent ≤ 970) : p.toFloat * 1.0 = p.toFloat := by
  have hlow := p.low
  have hhigh := p.high
  have hleast := p.least
  have hlog : (p.mantissa * 4503599627370496).log2 = 52 + (51 + 1) := by
    refine (Nat.log2_eq_iff (by omega)).2 ⟨?_, ?_⟩
    · change 20282409603651670423947251286016 ≤ _
      omega
    · change _ < 40564819207303340847894502572032
      omega
  obtain ⟨q, hround, hvalue⟩ :=
    roundWithAccuracy_eq (e := p.exponent + -52) hlog (by omega) (by omega)
  have hdiv : roundDiv (p.mantissa * 4503599627370496) (Nat.pow 2 (51 + 1)) = p.mantissa :=
    roundDiv_mul p.mantissa (by decide)
  rw [hdiv] at hvalue
  have hproduct : p.toFloat * one.toFloat = q.toFloat := by
    change Float.ofModel (.pack (UnpackedFloat.mul .binary64 p.toFloat.toModel.unpack
      one.toFloat.toModel.unpack)) = _
    rw [unpack_toFloat, unpack_toFloat, toFloat, ← hround]
    rfl
  rw [toFloat_one, hproduct]
  rcases hvalue with ⟨hmantissa, hexponent⟩ | ⟨hcarried, -⟩
  · exact toFloat_congr hmantissa (by omega)
  · omega

end Normal

/-- An integer that is too long for a mantissa is rounded. -/
theorem ofNat_binary64 {n : Nat} (h : 53 ≤ n.log2) :
    UnpackedFloat.ofNat .binary64 n =
      UnpackedFloat.roundWithAccuracy .binary64 .positive n 0 .exact := by
  have hne : n ≠ 0 := by
    rintro rfl
    rw [Nat.log2_zero] at h
    omega
  have hcompare : compare (n : Int) 0 = .gt := Int.compare_eq_gt.2 (by omega)
  have hshift : (0 - Format.binary64.targetExponent (Float.Model.totalExponent n 0)).toNat = 0 := by
    change (0 - max ((n.log2 : Int) + 1 + 0 - 53) (-1074)).toNat = 0
    omega
  change UnpackedFloat.normalize .binary64 (n : Int) 0 .positive = _
  unfold UnpackedFloat.normalize
  rw [hcompare]
  change UnpackedFloat.round .binary64 .positive n 0 = _
  unfold UnpackedFloat.round UnpackedFloat.decreaseExponent
  dsimp only
  rw [hshift]
  rfl

/-- An integer with 64 bits loses eleven of them. -/
theorem toFloat_word {n : Nat} (hlow : 9223372036854775808 ≤ n) (hhigh : n < 18446744073709551616) :
    ∃ p : Normal, n.toUInt64.toFloat = p.toFloat ∧ p.HasValue (roundDiv n 2048) 11 := by
  have hlog : n.log2 = 52 + (10 + 1) := (Nat.log2_eq_iff (by omega)).2 ⟨hlow, hhigh⟩
  obtain ⟨p, hround, hvalue⟩ := roundWithAccuracy_eq (e := 0) hlog (by decide) (by decide)
  refine ⟨p, ?_, hvalue⟩
  have hword : n.toUInt64.toNat = n := UInt64.toNat_ofNat_of_lt hhigh
  change Float.ofModel (.pack (UnpackedFloat.ofNat .binary64 n.toUInt64.toNat)) = _
  rw [hword, ofNat_binary64 (by omega), hround]
  rfl

/-- **An integer with 64 bits becomes the nearest multiple of 2048.** -/
theorem ofNat_word {n : Nat} (hlow : 9223372036854775808 ≤ n) (hhigh : n < 18446744073709551616) :
    ∃ p : Normal, ofNat n = p.toFloat ∧ p.HasValue (roundDiv n 2048) 11 := by
  have hlog : n.log2 = 63 := (Nat.log2_eq_iff (by omega)).2 ⟨hlow, hhigh⟩
  obtain ⟨p, htoFloat, hvalue⟩ := toFloat_word hlow hhigh
  refine ⟨p, ?_, hvalue⟩
  -- no bit is dropped before the conversion, and the power of two is 1
  have hexact : ofNat n = n.toUInt64.toFloat * 1.0 := by
    unfold ofNat
    rw [hlog]
    rfl
  rw [hexact, htoFloat]
  refine p.mul_one ?_
  rcases hvalue with ⟨-, hexponent⟩ | ⟨-, -, hexponent⟩ <;> omega

end LateralSql.Double
