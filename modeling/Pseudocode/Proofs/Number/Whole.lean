import Mathlib
import Pseudocode.Number.Binary

set_option autoImplicit false

namespace Pseudocode.Number

open Float.Model Float.Model.UnpackedFloat

def leadingBits (k : Nat) : Nat :=
  k * 2 ^ 52 / 2 ^ k.log2

section Bits

variable {j k m : Nat}

theorem leadingBits_ge (pos : 0 < k) : 2 ^ 52 ≤ leadingBits k := by
  have low := Nat.log2_self_le (Nat.ne_of_gt pos)
  rw [leadingBits, Nat.le_div_iff_mul_le (Nat.two_pow_pos _), Nat.mul_comm]
  exact Nat.mul_le_mul_right _ low

theorem leadingBits_lt (k : Nat) : leadingBits k < 2 ^ 53 := by
  have high : k < 2 ^ (k.log2 + 1) := Nat.lt_log2_self
  rw [leadingBits, Nat.div_lt_iff_lt_mul (Nat.two_pow_pos _)]
  calc k * 2 ^ 52
    _ < 2 ^ (k.log2 + 1) * 2 ^ 52 := Nat.mul_lt_mul_of_pos_right high (Nat.two_pow_pos _)
    _ = 2 ^ 53 * 2 ^ k.log2 := by rw [← Nat.pow_add, ← Nat.pow_add]; congr 1; omega

theorem log2_leadingBits (pos : 0 < k) : (leadingBits k).log2 = 52 := by
  have low := leadingBits_ge pos
  exact (Nat.log2_eq_iff (by omega)).mpr ⟨low, leadingBits_lt k⟩

theorem log2_le (pos : 0 < k) (small : k ≤ 2 ^ 53) : k.log2 ≤ 53 := by
  have below : k.log2 < 54 := (Nat.log2_lt (Nat.ne_of_gt pos)).mpr (by omega)
  omega

theorem leadingBits_mul (pos : 0 < k) (small : k ≤ 2 ^ 53) : leadingBits k * 2 ^ k.log2 = k * 2 ^ 52 := by
  refine Nat.div_mul_cancel ?_
  by_cases short : k.log2 ≤ 52
  · exact Nat.dvd_mul_left_of_dvd (Nat.pow_dvd_pow 2 short) k
  · have long : k.log2 = 53 := by
      have := log2_le pos small
      omega
    have low := Nat.log2_self_le (Nat.ne_of_gt pos)
    obtain rfl : k = 2 ^ 53 := by
      rw [long] at low
      omega
    rw [long]
    exact Nat.dvd_mul_right _ _

theorem shiftRight_exact (m s : Nat) :
    ExtendedMantissa.mk (m * 2 ^ s) false false >>> s = ⟨m, false, false⟩ := by
  induction s generalizing m with
  | zero => rw [Nat.pow_zero, Nat.mul_one]; rfl
  | succ s ih =>
    have again : m * 2 ^ (s + 1) = m * 2 * 2 ^ s := by rw [Nat.pow_succ', Nat.mul_assoc]
    change ExtendedMantissa.shiftRightOne (ExtendedMantissa.mk (m * 2 ^ (s + 1)) false false >>> s) = _
    rw [again, ih]
    simp [ExtendedMantissa.shiftRightOne]

theorem log2_mul_two_pow (bits : m.log2 = 52) (s : Nat) : (m * 2 ^ s).log2 = 52 + s := by
  have pos : m ≠ 0 := by
    rintro rfl
    cases bits
  obtain ⟨low, high⟩ := (Nat.log2_eq_iff pos).mp bits
  have scaled : m * 2 ^ s ≠ 0 := Nat.mul_ne_zero pos (Nat.ne_of_gt (Nat.two_pow_pos s))
  refine (Nat.log2_eq_iff scaled).mpr ⟨?_, ?_⟩
  · rw [Nat.pow_add]
    exact Nat.mul_le_mul_right _ low
  · rw [Nat.add_right_comm, Nat.pow_add]
    exact Nat.mul_lt_mul_of_pos_right high (Nat.two_pow_pos s)

end Bits

section Round

variable {m : Nat} {e : Int}

theorem targetExponent_eq (least : -1074 ≤ e) {total : Int} (same : total = e + 53) :
    Format.binary64.targetExponent total = e := by
  rw [same, Format.targetExponent]
  change max (e + 53 - 53) (-1074) = e
  omega

theorem shiftToTargetExponent_exact (bits : m.log2 = 52) (least : -1074 ≤ e) (s : Nat) :
    shiftToTargetExponent Format.binary64 (m * 2 ^ s) (e - s) .exact = (⟨m, false, false⟩, e) := by
  have target : Format.binary64.targetExponent (totalExponent (m * 2 ^ s) (e - s)) = e := by
    refine targetExponent_eq least ?_
    rw [totalExponent, log2_mul_two_pow bits]
    omega
  have shift : (e - (e - s)).toNat = s := by omega
  rw [shiftToTargetExponent, target, shiftToExponent, shift]
  refine Prod.ext (shiftRight_exact m s) ?_
  change e - s + s = e
  omega

theorem roundWithAccuracy_exact (bits : m.log2 = 52) (pos : 0 < m) (least : -1074 ≤ e) (s : Nat) :
    roundWithAccuracy Format.binary64 .positive (m * 2 ^ s) (e - s) .exact = .finite .positive m e pos := by
  -- There is nothing to round after the first shift, and nothing to shift after that.
  have again := shiftToTargetExponent_exact bits least 0
  rw [Nat.pow_zero, Nat.mul_one, Int.natCast_zero, Int.sub_zero] at again
  have rounded : (ExtendedMantissa.mk m false false).roundedMantissa = m := rfl
  simp only [roundWithAccuracy, shiftToTargetExponent_exact bits least s, rounded, again,
    Nat.ne_of_gt pos, dite_false]

theorem round_exact (bits : m.log2 = 52) (pos : 0 < m) (least : -1074 ≤ e) (s : Nat) :
    round Format.binary64 .positive (m * 2 ^ s) (e - s) = .finite .positive m e pos := by
  have target : Format.binary64.targetExponent (totalExponent (m * 2 ^ s) (e - s)) = e := by
    refine targetExponent_eq least ?_
    rw [totalExponent, log2_mul_two_pow bits]
    omega
  have apart : (e - s - e).toNat = 0 := by omega
  rw [UnpackedFloat.round, target, decreaseExponent, apart]
  simpa using roundWithAccuracy_exact bits pos least s

theorem round_short {k s : Nat} (bits : (k * 2 ^ s).log2 = 52) (pos : 0 < k * 2 ^ s) (least : -1074 ≤ e)
    (count : k.log2 + s = 52) : round Format.binary64 .positive k (e + s) = .finite .positive (k * 2 ^ s) e pos := by
  have target : Format.binary64.targetExponent (totalExponent k (e + s)) = e := by
    refine targetExponent_eq least ?_
    rw [totalExponent]
    omega
  have apart : (e + s - e).toNat = s := by omega
  have exact := roundWithAccuracy_exact bits pos least 0
  rw [Nat.pow_zero, Nat.mul_one] at exact
  rw [UnpackedFloat.round, target, decreaseExponent, apart, Nat.shiftLeft_eq]
  simpa using exact

theorem normalize_positive (pos : 0 < m) (zero : Sign) :
    normalize Format.binary64 m e zero = round Format.binary64 .positive m e := by
  have above : compare (m : Int) 0 = .gt := Int.compare_eq_gt.mpr (by omega)
  simp only [UnpackedFloat.normalize, above, Int.toNat_natCast]

theorem pack_eq_components (bits : m.log2 = 52) (pos : 0 < m) (most : e ≤ 971) :
    pack Format.binary64 (.finite .positive m e pos) =
      packComponents Format.binary64 .positive (BitVec.ofNat 11 (e + 1075).toNat) (BitVec.ofNat 52 m) := by
  have bias : e + Format.binary64.exponentBias + Format.binary64.mantissaBitsWithoutImplicit = e + 1075 := by
    change e + 1023 + 52 = e + 1075
    omega
  have small : ¬ 2 ^ Format.binary64.exponentBits ≤ (e + 1075).toNat + 1 := by
    change ¬ 2048 ≤ (e + 1075).toNat + 1
    omega
  have normal : m.log2 + 1 = Format.binary64.mantissaBits := by
    rw [bits]
    rfl
  simp only [UnpackedFloat.pack, bias, small, normal, if_true, if_false]

theorem unpackSign_positive (field : BitVec 11) (fraction : BitVec 52) :
    unpackSign (packComponents Format.binary64 .positive field fraction) = 0#1 := by
  change (0#1 ++ field ++ fraction).extractLsb' 63 1 = 0#1
  rw [BitVec.extractLsb'_append_eq_of_le (by decide), BitVec.extractLsb'_append_eq_of_le (by decide)]
  rfl

theorem toNat_one_append (bits : m.log2 = 52) (pos : 0 < m) : (1#1 ++ BitVec.ofNat 52 m).toNat = m := by
  obtain ⟨low, high⟩ := (Nat.log2_eq_iff (Nat.ne_of_gt pos)).mp bits
  have below : m % 2 ^ 52 < 2 ^ 52 := Nat.mod_lt m (Nat.two_pow_pos 52)
  rw [BitVec.toNat_append, BitVec.toNat_ofNat, BitVec.toNat_ofNat, ← Nat.shiftLeft_add_eq_or_of_lt below]
  change 1 <<< 52 + m % 2 ^ 52 = m
  rw [Nat.shiftLeft_eq]
  omega

theorem unpack_pack (bits : m.log2 = 52) (pos : 0 < m) (least : -1074 ≤ e) (most : e ≤ 971) :
    (Float.Model.pack (.finite .positive m e pos)).unpack = .finite .positive m e pos := by
  have field : (BitVec.ofNat 11 (e + 1075).toNat).toNat = (e + 1075).toNat := by
    rw [BitVec.toNat_ofNat]
    exact Nat.mod_eq_of_lt (by omega)
  have notTop : BitVec.ofNat 11 (e + 1075).toNat ≠ -1#11 := by
    intro top
    rw [top] at field
    change 2047 = _ at field
    omega
  have notZero : BitVec.ofNat 11 (e + 1075).toNat ≠ 0#11 := by
    intro zero
    rw [zero] at field
    change 0 = _ at field
    omega
  have exponent : ((e + 1075).toNat : Int) - (Format.binary64.exponentBias + (52 : Nat)) = e := by
    change ((e + 1075).toNat : Int) - (1023 + 52) = e
    omega
  change unpack Format.binary64 (pack Format.binary64 (.finite .positive m e pos)) = _
  rw [pack_eq_components bits pos most]
  simp only [UnpackedFloat.unpack, unpackExponent_packComponents, unpackMantissa_packComponents, unpackSign_positive]
  rw [if_neg notTop, if_neg notZero]
  simp only [toNat_one_append bits pos, field]
  rw [exponent]
  rfl

end Round

section Whole

variable {j k : Nat}

def wholeForm (k : Nat) (pos : 0 < k) : UnpackedFloat :=
  .finite .positive (leadingBits k) (k.log2 - 52) (Nat.lt_of_lt_of_le (Nat.two_pow_pos 52) (leadingBits_ge pos))

theorem round_whole (pos : 0 < k) (small : k ≤ 2 ^ 53) :
    round Format.binary64 .positive (k * 2 ^ 52) (-52) = wholeForm k pos := by
  have units : (-52 : Int) = k.log2 - 52 - k.log2 := by omega
  rw [← leadingBits_mul pos small, units]
  exact round_exact (log2_leadingBits pos) _ (by omega) k.log2

theorem unpack_whole (pos : 0 < k) (small : k ≤ 2 ^ 53) :
    (Float.Model.pack (wholeForm k pos)).unpack = wholeForm k pos := by
  have short := log2_le pos small
  exact unpack_pack (log2_leadingBits pos) _ (by omega) (by omega)

theorem leadingBits_eq (short : k.log2 ≤ 52) : leadingBits k = k * 2 ^ (52 - k.log2) := by
  have parts : 2 ^ 52 = 2 ^ (52 - k.log2) * 2 ^ k.log2 := by
    rw [← Nat.pow_add]
    congr 1
    omega
  rw [leadingBits, parts, ← Nat.mul_assoc, Nat.mul_div_cancel _ (Nat.two_pow_pos _)]

theorem ofUInt64_eq_whole (pos : 0 < k) (small : k < 2 ^ 53) :
    k.toUInt64.toFloat = .ofModel (.pack (wholeForm k pos)) := by
  have short : k.log2 < 53 := (Nat.log2_lt (Nat.ne_of_gt pos)).mpr small
  have held : k.toUInt64.toNat = k := Nat.mod_eq_of_lt (by omega)
  have bits := leadingBits_eq (k := k) (by omega)
  have full := log2_leadingBits pos
  have some := Nat.lt_of_lt_of_le (Nat.two_pow_pos 52) (leadingBits_ge pos)
  have rounded : normalize Format.binary64 k 0 .positive = wholeForm k pos := by
    have units : (0 : Int) = k.log2 - 52 + (52 - k.log2 : Nat) := by omega
    rw [normalize_positive pos, units]
    simp only [wholeForm, bits] at full some ⊢
    exact round_short full some (by omega) (by omega)
  change Float.ofModel (.pack (normalize Format.binary64 k.toUInt64.toNat 0 .positive)) = _
  rw [held, rounded]

theorem unpack_one : (1.0 : Float).toModel.unpack = wholeForm 1 Nat.one_pos := by
  rfl

theorem whole_mul_one (pos : 0 < k) (small : k ≤ 2 ^ 53) :
    Float.ofModel (.pack (wholeForm k pos)) * 1.0 = .ofModel (.pack (wholeForm k pos)) := by
  have product : UnpackedFloat.mul Format.binary64 (wholeForm k pos) (wholeForm 1 Nat.one_pos) =
      wholeForm k pos := by
    have short := log2_le pos small
    exact roundWithAccuracy_exact (log2_leadingBits pos) _ (by omega) 52
  change Float.ofModel (.pack (UnpackedFloat.mul Format.binary64 (Float.Model.pack (wholeForm k pos)).unpack
    (1.0 : Float).toModel.unpack)) = _
  rw [unpack_whole pos small, unpack_one, product]

theorem ofNat_eq_whole (pos : 0 < k) (small : k ≤ 2 ^ 53) :
    Float.ofNat k = .ofModel (.pack (wholeForm k pos)) := by
  by_cases below : k < 2 ^ 53
  · rw [← whole_mul_one pos small, ← ofUInt64_eq_whole pos below]
    change Float.ofScientific k false 0 = _
    rw [Float.ofScientific, dif_pos ⟨below, by decide⟩]
    rfl
  · obtain rfl : k = 2 ^ 53 := by omega
    have last : Float.ofNat (2 ^ 53) = .ofModel (.pack (wholeForm (2 ^ 53) (Nat.two_pow_pos 53))) := by
      decide +kernel
    exact last

theorem add_whole_one (pos : 0 < k) (small : k < 2 ^ 53) :
    UnpackedFloat.add Format.binary64 (wholeForm k pos) (wholeForm 1 Nat.one_pos) =
      wholeForm (k + 1) (Nat.succ_pos k) := by
  -- The two are brought to the unit of one, in which the sum has no fraction.
  have unit : min ((k.log2 : Int) - 52) ((Nat.log2 1 : Nat) - 52) = -52 := by
    have one : Nat.log2 1 = 0 := rfl
    omega
  have first : leadingBits k <<< ((k.log2 : Int) - 52 - -52).toNat = k * 2 ^ 52 := by
    have shift : ((k.log2 : Int) - 52 - -52).toNat = k.log2 := by omega
    rw [shift, Nat.shiftLeft_eq, leadingBits_mul pos (by omega)]
  have second : leadingBits 1 <<< (((Nat.log2 1 : Nat) : Int) - 52 - -52).toNat = 2 ^ 52 := by
    rfl
  have sum : ((k * 2 ^ 52 : Nat) : Int) + (2 ^ 52 : Nat) = ((k + 1) * 2 ^ 52 : Nat) := by
    rw [Nat.add_mul, Nat.one_mul, Int.natCast_add]
  have some : 0 < (k + 1) * 2 ^ 52 := Nat.mul_pos (Nat.succ_pos k) (Nat.two_pow_pos 52)
  rw [← round_whole (Nat.succ_pos k) small, ← normalize_positive some .positive, ← sum]
  simp only [wholeForm, UnpackedFloat.add, decreaseExponent, unit, first, second, Sign.apply]

theorem ofNat_add_one (small : k < 2 ^ 53) : Float.ofNat k + 1.0 = Float.ofNat (k + 1) := by
  rcases Nat.eq_zero_or_pos k with rfl | pos
  · rfl
  rw [ofNat_eq_whole pos (by omega), ofNat_eq_whole (Nat.succ_pos k) small]
  change Float.ofModel (.pack (UnpackedFloat.add Format.binary64 (Float.Model.pack (wholeForm k pos)).unpack
    (1.0 : Float).toModel.unpack)) = _
  rw [unpack_whole pos (by omega), unpack_one, add_whole_one pos small]

theorem leadingBits_lt_iff (left : 0 < j) (right : 0 < k) (small : j ≤ 2 ^ 53) (small' : k ≤ 2 ^ 53)
    (same : j.log2 = k.log2) : leadingBits j < leadingBits k ↔ j < k := by
  have bits := leadingBits_mul left small
  have bits' := leadingBits_mul right small'
  rw [← Nat.mul_lt_mul_right (Nat.two_pow_pos j.log2), bits, same, bits',
    Nat.mul_lt_mul_right (Nat.two_pow_pos 52)]

theorem compare_finite {m m' : Nat} {e e' : Int} (pos : 0 < m) (pos' : 0 < m') :
    (UnpackedFloat.finite .positive m e pos).compare (.finite .positive m' e' pos') =
      some ((compare e e').then (compare m m')) :=
  rfl

theorem compare_whole (left : 0 < j) (right : 0 < k) (small : j ≤ 2 ^ 53) (small' : k ≤ 2 ^ 53) :
    (wholeForm j left).compare (wholeForm k right) = some (compare j k) := by
  -- A number with more bits is greater; with as many, it is the bits that decide.
  have low := Nat.log2_self_le (Nat.ne_of_gt left)
  have low' := Nat.log2_self_le (Nat.ne_of_gt right)
  have high : j < 2 ^ (j.log2 + 1) := Nat.lt_log2_self
  have high' : k < 2 ^ (k.log2 + 1) := Nat.lt_log2_self
  rw [wholeForm, wholeForm, compare_finite]
  congr 1
  rcases Nat.lt_trichotomy j.log2 k.log2 with fewer | same | more
  · have below : 2 ^ (j.log2 + 1) ≤ 2 ^ k.log2 := Nat.pow_le_pow_right Nat.two_pos fewer
    have exponents : compare (j.log2 - 52 : Int) (k.log2 - 52) = .lt := Int.compare_eq_lt.mpr (by omega)
    have numbers : compare j k = .lt := Nat.compare_eq_lt.mpr (by omega)
    rw [exponents, numbers, Ordering.lt_then]
  · rw [same, Int.compare_eq_eq.mpr rfl, Ordering.eq_then]
    rcases Nat.lt_trichotomy j k with less | rfl | greater
    · rw [Nat.compare_eq_lt.mpr less]
      exact Nat.compare_eq_lt.mpr ((leadingBits_lt_iff left right small small' same).mpr less)
    · rw [Nat.compare_eq_eq.mpr rfl, Nat.compare_eq_eq.mpr rfl]
    · rw [Nat.compare_eq_gt.mpr greater]
      exact Nat.compare_eq_gt.mpr ((leadingBits_lt_iff right left small' small same.symm).mpr greater)
  · have above : 2 ^ (k.log2 + 1) ≤ 2 ^ j.log2 := Nat.pow_le_pow_right Nat.two_pos more
    have exponents : compare (j.log2 - 52 : Int) (k.log2 - 52) = .gt := Int.compare_eq_gt.mpr (by omega)
    have numbers : compare j k = .gt := Nat.compare_eq_gt.mpr (by omega)
    rw [exponents, numbers, Ordering.gt_then]

theorem ofNat_le_iff (left : 0 < j) (right : 0 < k) (small : j ≤ 2 ^ 53) (small' : k ≤ 2 ^ 53) :
    Float.ofNat j ≤ Float.ofNat k ↔ j ≤ k := by
  have unpacked : Float.ofNat j ≤ Float.ofNat k ↔
      (Float.ofNat j).toModel.unpack.le (Float.ofNat k).toModel.unpack = true := decide_eq_true_iff
  rw [unpacked, ofNat_eq_whole left small, ofNat_eq_whole right small', unpack_whole left small,
    unpack_whole right small', UnpackedFloat.le, compare_whole left right small small', Option.any_some]
  exact Nat.isLE_compare

end Whole

end Pseudocode.Number
