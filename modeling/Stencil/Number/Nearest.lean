import Mathlib
import Stencil.Number.Place

/-!
# `Stencil/Number/Nearest.lean` — the place of an integer among the floats

`ofInt64` rounds an integer to 53 significant bits, by a composition of shifts that keep track of
what they shift out. A template sees what comes of it whenever it compares an integer with a float,
and then two things have to be known. With `placeOfInt z` for the place of the float nearest to `z`,
they are

> **conversion keeps the order** (`placeOfInt_mono`), and
> **two integers become one float only if both have more than 53 bits** (`placeOfInt_lt`).

The first one is proved without saying what the shifts amount to. A mantissa with the bits shifted
out of it weighs four times the mantissa, plus two for the bit after it, plus one if anything below
that bit is not zero. A shift keeps the order of the weights, and so does rounding; therefore the
whole composition does (`shorten_mono`). For the second, no bits are shifted out of an integer of at
most 53.

Rounding up may carry into a 54th bit, and the exponent then makes room. It is for this that the
exponent and the mantissa are each defined with a case for `2 ^ 53`.
-/

set_option autoImplicit false

namespace Stencil.Binary64

open Float.Model (UnpackedFloat Format totalExponent)
open Float.Model.UnpackedFloat (Sign ExtendedMantissa Accuracy)

/-! ## Shifting and rounding keep the order -/

/-- Four times the mantissa, with the two residual bits for the last binary digits. -/
def weight (x : ExtendedMantissa) : Nat :=
  4 * x.mantissa + 2 * x.roundBit.toNat + x.stickyBit.toNat

theorem weight_shiftRightOne (x : ExtendedMantissa) :
    weight x.shiftRightOne = 2 * (weight x / 4) + min 1 (weight x % 4) := by
  obtain ⟨m, r, s⟩ := x
  have parity : (m % 2 != 0).toNat = m % 2 := by
    rcases Nat.mod_two_eq_zero_or_one m with even | odd
    · rw [even]; rfl
    · rw [odd]; rfl
  simp only [weight, ExtendedMantissa.shiftRightOne, parity]
  cases r <;> cases s <;> simp <;> omega

theorem shiftRight_succ (x : ExtendedMantissa) (k : Nat) :
    x >>> (k + 1) = (x >>> k).shiftRightOne := rfl

theorem weight_shiftRight_mono {x y : ExtendedMantissa} (h : weight x ≤ weight y) (k : Nat) :
    weight (x >>> k) ≤ weight (y >>> k) := by
  induction k with
  | zero => exact h
  | succ k ih =>
    rw [shiftRight_succ, shiftRight_succ, weight_shiftRightOne, weight_shiftRightOne]
    omega

theorem roundedMantissa_bounds (x : ExtendedMantissa) :
    x.mantissa ≤ x.roundedMantissa ∧ x.roundedMantissa ≤ x.mantissa + 1 := by
  obtain ⟨m, r, s⟩ := x
  cases r <;> cases s <;>
    simp [ExtendedMantissa.roundedMantissa, ExtendedMantissa.accuracy, Accuracy.roundToNearestEven]
  omega

theorem roundedMantissa_mono {x y : ExtendedMantissa} (h : weight x ≤ weight y) :
    x.roundedMantissa ≤ y.roundedMantissa := by
  have upper := (roundedMantissa_bounds x).2
  have lower := (roundedMantissa_bounds y).1
  obtain ⟨m, r, s⟩ := x
  obtain ⟨n, r', s'⟩ := y
  obtain less | rfl : m < n ∨ m = n := by
    have bit (b : Bool) : b.toNat ≤ 1 := by cases b <;> decide
    have := bit r
    have := bit s
    have := bit r'
    have := bit s'
    simp only [weight] at h
    omega
  · exact Nat.le_trans upper (Nat.le_trans less lower)
  · cases r <;> cases s <;> cases r' <;> cases s' <;>
      simp only [weight, ExtendedMantissa.roundedMantissa, ExtendedMantissa.accuracy,
        Accuracy.roundToNearestEven, Bool.toNat_true, Bool.toNat_false] at h ⊢ <;>
      omega

/-- `n / 2 ^ k`, rounded to the nearest integer and a half to the even one. -/
def shorten (k n : Nat) : Nat := (ExtendedMantissa.mk n false false >>> k).roundedMantissa

theorem shorten_zero (n : Nat) : shorten 0 n = n := rfl

theorem shorten_mono (k : Nat) {m n : Nat} (h : m ≤ n) : shorten k m ≤ shorten k n := by
  refine roundedMantissa_mono (weight_shiftRight_mono ?_ k)
  simp only [weight]
  omega

theorem shorten_mul_two_pow (k q : Nat) : shorten k (q * 2 ^ k) = q := by
  have exactly (q : Nat) :
      ExtendedMantissa.mk (q * 2 ^ k) false false >>> k = ⟨q, false, false⟩ := by
    induction k generalizing q with
    | zero => rw [Nat.pow_zero, Nat.mul_one]; rfl
    | succ k ih =>
      rw [Nat.pow_succ', ← Nat.mul_assoc, shiftRight_succ, ih]
      simp [ExtendedMantissa.shiftRightOne]
  rw [shorten, exactly]
  rfl

/-! ## The mantissa and the exponent of an integer -/

theorem log2_eq {n k : Nat} (lower : 2 ^ k ≤ n) (upper : n < 2 ^ (k + 1)) : n.log2 = k := by
  have := Nat.two_pow_pos k
  exact (Nat.log2_eq_iff (by omega)).2 ⟨lower, upper⟩

/-- The integer brought to 53 bits, or 54 after a carry. One of the two shifts is by nothing. -/
def significand (n : Nat) : Nat := shorten (n.log2 - 52) (n * 2 ^ (52 - n.log2))

theorem le_significand {n : Nat} (pos : 0 < n) : 2 ^ 52 ≤ significand n := by
  rw [← shorten_mul_two_pow (n.log2 - 52) (2 ^ 52), significand]
  refine shorten_mono _ ?_
  calc 2 ^ 52 * 2 ^ (n.log2 - 52) = 2 ^ n.log2 * 2 ^ (52 - n.log2) := by
        rw [← Nat.pow_add, ← Nat.pow_add]
        congr 1
        omega
    _ ≤ n * 2 ^ (52 - n.log2) := Nat.mul_le_mul_right _ (Nat.log2_self_le (by omega))

theorem significand_le (n : Nat) : significand n ≤ 2 ^ 53 := by
  rw [← shorten_mul_two_pow (n.log2 - 52) (2 ^ 53), significand]
  refine shorten_mono _ ?_
  calc n * 2 ^ (52 - n.log2) ≤ 2 ^ (n.log2 + 1) * 2 ^ (52 - n.log2) :=
        Nat.mul_le_mul_right _ Nat.lt_log2_self.le
    _ = 2 ^ 53 * 2 ^ (n.log2 - 52) := by
        rw [← Nat.pow_add, ← Nat.pow_add]
        congr 1
        omega

/-- An integer of at most 53 bits is only moved to the left. -/
theorem significand_of_lt {n : Nat} (pos : 0 < n) (short : n < 2 ^ 53) :
    significand n = n * 2 ^ (52 - n.log2) ∧ significand n < 2 ^ 53 := by
  have log2 : n.log2 < 53 := (Nat.log2_lt (by omega)).2 short
  have value : significand n = n * 2 ^ (52 - n.log2) := by
    rw [significand, show n.log2 - 52 = 0 by omega, shorten_zero]
  refine ⟨value, ?_⟩
  calc significand n = n * 2 ^ (52 - n.log2) := value
    _ < 2 ^ (n.log2 + 1) * 2 ^ (52 - n.log2) :=
        Nat.mul_lt_mul_of_pos_right Nat.lt_log2_self (Nat.two_pow_pos _)
    _ = 2 ^ 53 := by
        rw [← Nat.pow_add]
        congr 1
        omega

def mantissa (n : Nat) : Nat := if significand n = 2 ^ 53 then 2 ^ 52 else significand n

def exponent (n : Nat) : Int := if significand n = 2 ^ 53 then n.log2 - 51 else n.log2 - 52

theorem le_mantissa {n : Nat} (pos : 0 < n) : 2 ^ 52 ≤ mantissa n := by
  have := le_significand pos
  unfold mantissa
  split <;> omega

theorem mantissa_lt (n : Nat) : mantissa n < 2 ^ 53 := by
  have := significand_le n
  unfold mantissa
  split <;> omega

theorem mantissa_pos {n : Nat} (pos : 0 < n) : 0 < mantissa n :=
  Nat.lt_of_lt_of_le (Nat.two_pow_pos 52) (le_mantissa pos)

/-- A greater integer has the greater exponent, or else at least as great a mantissa. -/
theorem magnitude_mono {m n : Nat} (pos : 0 < m) (h : m ≤ n) :
    exponent m < exponent n ∨ exponent m = exponent n ∧ mantissa m ≤ mantissa n := by
  have lower := le_significand (Nat.lt_of_lt_of_le pos h)
  have upper := significand_le m
  have upper' := significand_le n
  have log2 : m.log2 ≤ n.log2 :=
    (Nat.le_log2 (by omega)).2 (Nat.le_trans (Nat.log2_self_le (by omega)) h)
  unfold exponent mantissa
  obtain less | same : m.log2 < n.log2 ∨ m.log2 = n.log2 := by omega
  · split <;> split <;> omega
  · have : significand m ≤ significand n := by
      unfold significand
      rw [same]
      exact shorten_mono _ (Nat.mul_le_mul_right _ h)
    split <;> split <;> omega

/-- Where the lesser of two integers has at most 53 bits, they are not rounded to one float. -/
theorem magnitude_lt {m n : Nat} (pos : 0 < m) (h : m < n) (short : m < 2 ^ 53) :
    exponent m < exponent n ∨ exponent m = exponent n ∧ mantissa m < mantissa n := by
  obtain ⟨value, below⟩ := significand_of_lt pos short
  have log2 : m.log2 ≤ n.log2 :=
    (Nat.le_log2 (by omega)).2 (Nat.le_trans (Nat.log2_self_le (by omega)) h.le)
  obtain less | same : m.log2 < n.log2 ∨ m.log2 = n.log2 := by omega
  · unfold exponent mantissa
    split <;> split <;> omega
  · have short' : n < 2 ^ 53 := by
      rw [← Nat.log2_lt (by omega), ← same, Nat.log2_lt (by omega)]
      exact short
    obtain ⟨value', below'⟩ := significand_of_lt (Nat.lt_trans pos h) short'
    have : significand m < significand n := by
      rw [value, value', same]
      exact Nat.mul_lt_mul_of_pos_right h (Nat.two_pow_pos _)
    unfold exponent mantissa
    split <;> split <;> omega

/-! ## Rounding finds them -/

theorem targetExponent_eq {m : Nat} {e : Int} (normal : -1000 ≤ m.log2 + e) :
    Format.binary64.targetExponent (totalExponent m e) = m.log2 - 52 + e := by
  have bits : Format.binary64.mantissaBits = 53 := rfl
  have least : Format.binary64.minExponent = -1074 := rfl
  rw [Format.targetExponent, totalExponent, bits, least]
  omega

theorem shiftToTargetExponent_eq {m : Nat} {e : Int} (normal : -1000 ≤ m.log2 + e) :
    UnpackedFloat.shiftToTargetExponent .binary64 m e .exact =
      (ExtendedMantissa.mk m false false >>> (m.log2 - 52), e + (m.log2 - 52 : Nat)) := by
  have amount : ((m.log2 : Int) - 52 + e - e).toNat = m.log2 - 52 := by omega
  simp only [UnpackedFloat.shiftToTargetExponent, UnpackedFloat.shiftToExponent,
    targetExponent_eq normal, amount]
  rfl

/-- Rounding shifts twice. The second shift is for the bit that a carry has added. -/
theorem roundWithAccuracy_eq {sign : Sign} {m : Nat} {e e' e'' : Int} {x y : ExtendedMantissa}
    (first : UnpackedFloat.shiftToTargetExponent .binary64 m e .exact = (x, e'))
    (second : UnpackedFloat.shiftToTargetExponent .binary64 x.roundedMantissa e' .exact = (y, e''))
    (pos : 0 < y.mantissa) :
    UnpackedFloat.roundWithAccuracy .binary64 sign m e .exact =
      .finite sign y.mantissa e'' pos := by
  simp only [UnpackedFloat.roundWithAccuracy, first, second]
  rw [dif_neg (by omega)]

theorem round_eq (sign : Sign) {n : Nat} (pos : 0 < n) :
    UnpackedFloat.round .binary64 sign n 0 =
      .finite sign (mantissa n) (exponent n) (mantissa_pos pos) := by
  have decreased : UnpackedFloat.decreaseExponent n 0 (n.log2 - 52 + 0) =
      (n * 2 ^ (52 - n.log2), -((52 - n.log2 : Nat) : Int)) := by
    have amount : ((0 : Int) - (n.log2 - 52 + 0)).toNat = 52 - n.log2 := by omega
    simp only [UnpackedFloat.decreaseExponent, amount, Nat.shiftLeft_eq]
    rw [Int.zero_sub]
  have first : UnpackedFloat.shiftToTargetExponent .binary64 (n * 2 ^ (52 - n.log2))
      (-((52 - n.log2 : Nat) : Int)) .exact =
        (ExtendedMantissa.mk (n * 2 ^ (52 - n.log2)) false false >>> (n.log2 - 52),
          (n.log2 : Int) - 52) := by
    have log2 : (n * 2 ^ (52 - n.log2)).log2 = n.log2 + (52 - n.log2) := by
      refine log2_eq ?_ ?_
      · rw [Nat.pow_add]
        exact Nat.mul_le_mul_right _ (Nat.log2_self_le (by omega))
      · rw [Nat.add_right_comm, Nat.pow_add]
        exact Nat.mul_lt_mul_of_pos_right Nat.lt_log2_self (Nat.two_pow_pos _)
    have amount : n.log2 + (52 - n.log2) - 52 = n.log2 - 52 := by omega
    have reached : -((52 - n.log2 : Nat) : Int) + (n.log2 - 52 : Nat) = n.log2 - 52 := by omega
    rw [shiftToTargetExponent_eq (by omega), log2, amount, reached]
  have second : UnpackedFloat.shiftToTargetExponent .binary64 (significand n)
      ((n.log2 : Int) - 52) .exact = (⟨mantissa n, false, false⟩, exponent n) := by
    have lower := le_significand pos
    have upper := significand_le n
    unfold mantissa exponent
    split
    case isTrue carry =>
      have reached : (n.log2 : Int) - 52 + (53 - 52 : Nat) = n.log2 - 51 := by omega
      rw [carry, shiftToTargetExponent_eq (by rw [Nat.log2_two_pow]; omega), Nat.log2_two_pow,
        reached]
      rfl
    case isFalse =>
      have log2 : (significand n).log2 = 52 := log2_eq lower (by omega)
      rw [shiftToTargetExponent_eq (by omega), log2, Nat.sub_self, Int.natCast_zero, Int.add_zero]
      rfl
  unfold UnpackedFloat.round
  simp only [targetExponent_eq (show -1000 ≤ (n.log2 : Int) + 0 by omega), decreased]
  exact roundWithAccuracy_eq first second (mantissa_pos pos)

/-! ## Packing loses nothing -/

theorem unpackSign_packComponents (sign : Sign) (exponent : BitVec Format.binary64.exponentBits)
    (mantissa : BitVec Format.binary64.mantissaBitsWithoutImplicit) :
    Sign.ofBitVec (UnpackedFloat.unpackSign
      (UnpackedFloat.packComponents .binary64 sign exponent mantissa)) = sign := by
  have bit : UnpackedFloat.unpackSign
      (UnpackedFloat.packComponents .binary64 sign exponent mantissa) = sign.toBitVec := by
    unfold UnpackedFloat.unpackSign UnpackedFloat.packComponents BitVec.extractLsb
    rw [BitVec.extractLsb'_append_eq_of_le (by decide),
      BitVec.extractLsb'_append_eq_of_le (by decide)]
    exact BitVec.extractLsb'_eq_self
  rw [bit]
  cases sign <;> rfl

theorem unpack_pack_zero (sign : Sign) : (Float.Model.pack (.zero sign)).unpack = .zero sign := by
  cases sign <;> rfl

theorem unpack_pack_finite (sign : Sign) {m : Nat} {e : Int} (pos : 0 < m) (lower : 2 ^ 52 ≤ m)
    (upper : m < 2 ^ 53) (small : -1074 ≤ e) (large : e ≤ 971) :
    (Float.Model.pack (.finite sign m e pos)).unpack = .finite sign m e pos := by
  have biased : (BitVec.ofNat 11 (e + 1075).toNat).toNat = (e + 1075).toNat := by
    rw [BitVec.toNat_ofNat, Nat.mod_eq_of_lt (by omega)]
  have packed : UnpackedFloat.pack .binary64 (.finite sign m e pos) =
      UnpackedFloat.packComponents .binary64 sign (.ofNat 11 (e + 1075).toNat) (.ofNat 52 m) := by
    have bias : (e + Format.binary64.exponentBias +
        Format.binary64.mantissaBitsWithoutImplicit).toNat = (e + 1075).toNat := by
      show (e + (1023 : Nat) + (52 : Nat)).toNat = _
      omega
    unfold UnpackedFloat.pack
    simp only [log2_eq lower upper, bias]
    rw [if_neg (by omega), if_pos (show 52 + 1 = Format.binary64.mantissaBits from rfl)]
  have notGreatest : BitVec.ofNat 11 (e + 1075).toNat ≠ -1#11 := by
    intro greatest
    have := congrArg BitVec.toNat greatest
    rw [biased, show (-1#11).toNat = 2047 by decide] at this
    omega
  have notLeast : BitVec.ofNat 11 (e + 1075).toNat ≠ 0#11 := by
    intro least
    have := congrArg BitVec.toNat least
    rw [biased, show (0#11).toNat = 0 by decide] at this
    omega
  have leading : (1#1 ++ BitVec.ofNat 52 m).toNat = m := by
    rw [BitVec.toNat_append, ← Nat.shiftLeft_add_eq_or_of_lt (BitVec.isLt _), Nat.shiftLeft_eq,
      BitVec.toNat_ofNat, BitVec.toNat_ofNat]
    omega
  have unbiased : ((BitVec.ofNat 11 (e + 1075).toNat).toNat : Int) -
      (Format.binary64.exponentBias + Format.binary64.mantissaBitsWithoutImplicit) = e := by
    rw [biased]
    show ((e + 1075).toNat : Int) - ((1023 : Nat) + (52 : Nat)) = e
    omega
  show UnpackedFloat.unpack .binary64 (UnpackedFloat.pack .binary64 (.finite sign m e pos)) = _
  rw [packed]
  unfold UnpackedFloat.unpack
  simp only [UnpackedFloat.unpackExponent_packComponents,
    UnpackedFloat.unpackMantissa_packComponents, unpackSign_packComponents]
  rw [if_neg notGreatest, if_neg notLeast]
  simp only [leading, unbiased]

/-! ## The nearest float -/

/-- The float nearest to an integer of this sign and magnitude. -/
def nearest (sign : Sign) (n : Nat) : UnpackedFloat :=
  if pos : 0 < n then .finite sign (mantissa n) (exponent n) (mantissa_pos pos) else .zero sign

theorem ofInt_eq_nearest (n : Nat) : UnpackedFloat.ofInt .binary64 n = nearest .positive n := by
  unfold UnpackedFloat.ofInt UnpackedFloat.normalize nearest
  split
  case h_1 negative =>
    rw [compare_lt_iff_lt] at negative
    omega
  case h_2 zero =>
    rw [compare_eq_iff_eq] at zero
    rw [dif_neg (by omega)]
  case h_3 positive =>
    rw [compare_gt_iff_gt] at positive
    rw [dif_pos (by omega)]
    exact round_eq .positive (by omega)

theorem neg_nearest (n : Nat) : (nearest .positive n).neg = nearest .negative n := by
  unfold nearest
  split <;> rfl

theorem unpack_pack_nearest (sign : Sign) {n : Nat} (fits : n < 2 ^ 64) :
    (Float.Model.pack (nearest sign n)).unpack = nearest sign n := by
  unfold nearest
  split
  case isTrue pos =>
    have : n.log2 < 64 := (Nat.log2_lt (by omega)).2 fits
    have bounds : -1074 ≤ exponent n ∧ exponent n ≤ 971 := by
      unfold exponent
      split <;> omega
    exact unpack_pack_finite sign _ (le_mantissa pos) (mantissa_lt n) bounds.1 bounds.2
  case isFalse => exact unpack_pack_zero sign

/-- Read without a sign, an integer of 64 bits is its value or exceeds it by `2 ^ 64`. -/
theorem toInt_eq_toNat_toUInt64 (n : Int64) : n.toInt =
    if n.toInt < 0 then (n.toUInt64.toNat : Int) - 2 ^ 64 else (n.toUInt64.toNat : Int) := by
  have signed := BitVec.toInt_eq_toNat_cond n.toBitVec
  have := n.toBitVec.isLt
  rw [Int64.toNat_toBitVec, Int64.toInt_toBitVec] at signed
  rw [Int64.toNat_toBitVec] at this
  omega

theorem unpack_ofInt64 (n : Int64) : (ofInt64 n).toModel.unpack =
    nearest (if n < 0 then .negative else .positive) n.toInt.natAbs := by
  have toFloat (u : UInt64) : u.toFloat.toModel.unpack = nearest .positive u.toNat := by
    show (Float.Model.pack (UnpackedFloat.ofInt .binary64 u.toNat)).unpack = _
    rw [ofInt_eq_nearest, unpack_pack_nearest _ u.toNat_lt]
  have neg (x : Float) : (-x).toModel.unpack = (Float.Model.pack x.toModel.unpack.neg).unpack := rfl
  have sign : n < 0 ↔ n.toInt < 0 := Int64.lt_iff_toInt_lt
  have unsigned := toInt_eq_toNat_toUInt64 n
  unfold ofInt64
  split
  case isTrue negative =>
    rw [neg, toFloat, neg_nearest, unpack_pack_nearest _ (UInt64.toNat_lt _)]
    congr 1
    have size : UInt64.size = 2 ^ 64 := rfl
    have := n.le_toInt
    have below := sign.1 negative
    rw [if_pos below] at unsigned
    rw [Int64.toUInt64_neg, UInt64.toNat_neg, size]
    omega
  case isFalse nonnegative =>
    rw [toFloat]
    congr 1
    rw [if_neg (mt sign.2 nonnegative)] at unsigned
    omega

/-! ## Its place -/

/-- The place of the float nearest to `z`. -/
def placeOfInt (z : Int) : Place :=
  .of z.sign (z.sign * exponent z.natAbs) (z.sign * mantissa z.natAbs)

theorem place?_ofInt64 (n : Int64) : place? (ofInt64 n) = some (placeOfInt n.toInt) := by
  have sign : n < 0 ↔ n.toInt < 0 := Int64.lt_iff_toInt_lt
  rw [place?, unpack_ofInt64, placeOfInt]
  rcases Int.lt_trichotomy n.toInt 0 with negative | zero | positive
  · rw [if_pos (sign.2 negative), nearest, dif_pos (by omega), Int.sign_eq_neg_one_of_neg negative,
      Int.neg_one_mul, Int.neg_one_mul]
    rfl
  · rw [if_neg (mt sign.1 (by omega)), zero]
    rfl
  · rw [if_neg (mt sign.1 (by omega)), nearest, dif_pos (by omega), Int.sign_eq_one_of_pos positive,
      Int.one_mul, Int.one_mul]
    rfl

/-- Two integers in order are parted by zero, or are on one side of it with their magnitudes in
that order or the opposite one. -/
theorem sign_cases {z w : Int} (h : z < w) :
    z.sign < w.sign ∨ (z.sign = 1 ∧ w.sign = 1 ∧ 0 < z.natAbs ∧ z.natAbs < w.natAbs) ∨
      (z.sign = -1 ∧ w.sign = -1 ∧ 0 < w.natAbs ∧ w.natAbs < z.natAbs) := by
  have := Int.sign_eq_one_iff_pos (a := z)
  have := Int.sign_eq_one_iff_pos (a := w)
  have := Int.sign_eq_neg_one_iff_neg (a := z)
  have := Int.sign_eq_neg_one_iff_neg (a := w)
  have := Int.sign_eq_zero_iff_zero (a := z)
  have := Int.sign_eq_zero_iff_zero (a := w)
  omega

/-- **Conversion keeps the order.** -/
theorem placeOfInt_mono {z w : Int} (h : z ≤ w) : placeOfInt z ≤ placeOfInt w := by
  obtain less | rfl := Int.lt_or_eq_of_le h
  · rw [placeOfInt, placeOfInt, Place.of_le_iff]
    obtain parted | ⟨left, right, pos, less⟩ | ⟨left, right, pos, less⟩ := sign_cases less
    · exact .inl parted
    · have := magnitude_mono pos less.le
      rw [left, right]
      omega
    · have := magnitude_mono pos less.le
      rw [left, right]
      omega
  · exact le_refl _

/-- **Different integers become different floats** if one of the two has at most 53 bits. -/
theorem placeOfInt_lt {z w : Int} (h : z < w) (short : z.natAbs < 2 ^ 53 ∨ w.natAbs < 2 ^ 53) :
    placeOfInt z < placeOfInt w := by
  rw [placeOfInt, placeOfInt, Place.of_lt_iff]
  obtain parted | ⟨left, right, pos, less⟩ | ⟨left, right, pos, less⟩ := sign_cases h
  · exact .inl parted
  · have := magnitude_lt pos less (by omega)
    rw [left, right]
    omega
  · have := magnitude_lt pos less (by omega)
    rw [left, right]
    omega

end Stencil.Binary64
