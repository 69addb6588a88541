import Confinement.Constraint
import Confinement.Number
import Mathlib.Tactic.Linarith
import Mathlib.Tactic.Positivity

/-!
# Whole numbers as doubles

The double nearest to a whole number has the sign of that number (`Number.isNegative_floatOfInt`),
and there is one if and only if the number is less than half a step beyond the largest double
(`Number.exists_floatOfInt_iff`). Both are read off the bits that are chosen for it: 53 bits of the
number, rounded, behind a field for their place. A double that is made from bits short of an
infinity has these bits again (`Binary.toBits_ofBits`) : they are taken apart into sign, field and
significand, and what they stand for is packed into the same three.
-/

namespace Confinement

namespace Binary

/-! ## Bits -/

section Fields

open Float.Model Float.Model.UnpackedFloat

variable {f : Format}

/-- Bits are put together again from their three fields. -/
theorem packComponents_fields (b : BitVec f.numBits) :
    packComponents f (.ofBitVec (unpackSign b)) (unpackExponent b) (unpackMantissa b) = b := by
  have hsign : (Sign.ofBitVec (unpackSign b)).toBitVec = unpackSign b := by
    generalize unpackSign b = s
    revert s
    decide
  ext i hi
  have hi' : i < 1 + f.exponentBits + f.mantissaBitsWithoutImplicit := hi
  show ((Sign.ofBitVec (unpackSign b)).toBitVec ++ unpackExponent b ++ unpackMantissa b)[i] = b[i]
  rw [hsign]
  show (BitVec.cast _ (b.extractLsb _ _) ++ BitVec.cast _ (b.extractLsb _ _) ++
    BitVec.cast _ (b.extractLsb _ _))[i] = b[i]
  simp only [Nat.sub_zero, BitVec.getElem_append, BitVec.getElem_cast, BitVec.getElem_extract,
    Nat.zero_add, dite_eq_ite]
  rw [← BitVec.getLsbD_eq_getElem hi]
  split
  · rfl
  · split
    · congr 1
      omega
    · congr 1
      omega

theorem pack_finite (s : Sign) {m : Nat} (hm : 0 < m) (place : Int) :
    UnpackedFloat.pack f (.finite s m place hm) =
      if 2 ^ f.exponentBits ≤
          (place + f.exponentBias + f.mantissaBitsWithoutImplicit).toNat + 1 then
        packedInfinity f s
      else if m.log2 + 1 = 1 + f.mantissaBitsWithoutImplicit then
        packComponents f s
          (BitVec.ofNat _ (place + f.exponentBias + f.mantissaBitsWithoutImplicit).toNat)
          (BitVec.ofNat _ m)
      else packComponents f s 0 (BitVec.ofNat _ m) := rfl

/-- Behind a field of zeros, a significand is packed as it is. -/
theorem pack_subnormal (hf : 1 < f.exponentBits) (s : Sign)
    {m : BitVec f.mantissaBitsWithoutImplicit} (hm : 0 < m.toNat) {place : Int}
    (hplace : place + f.exponentBias + f.mantissaBitsWithoutImplicit = 1) :
    UnpackedFloat.pack f (.finite s m.toNat place hm) = packComponents f s 0 m := by
  have hlog : m.toNat.log2 < f.mantissaBitsWithoutImplicit := (Nat.log2_lt hm.ne').mpr m.isLt
  have hroom : 2 ^ 2 ≤ 2 ^ f.exponentBits := Nat.pow_le_pow_right (by decide) hf
  rw [pack_finite, hplace, if_neg (by omega), if_neg (by omega), BitVec.ofNat_toNat,
    BitVec.setWidth_eq]

/-- Behind any other field but that of an infinity, it is packed without its leading bit. -/
theorem pack_normal (s : Sign) {e : BitVec f.exponentBits} (he : e.toNat + 1 < 2 ^ f.exponentBits)
    (m : BitVec f.mantissaBitsWithoutImplicit) (hm : 0 < (1#1 ++ m).toNat) {place : Int}
    (hplace : place + f.exponentBias + f.mantissaBitsWithoutImplicit = e.toNat) :
    UnpackedFloat.pack f (.finite s (1#1 ++ m).toNat place hm) = packComponents f s e m := by
  have hbits : (1#1 ++ m).toNat = 2 ^ f.mantissaBitsWithoutImplicit + m.toNat := by
    rw [BitVec.toNat_append, ← Nat.shiftLeft_add_eq_or_of_lt m.isLt, Nat.shiftLeft_eq]
    simp
  have hlog : (1#1 ++ m).toNat.log2 = f.mantissaBitsWithoutImplicit := by
    have := m.isLt
    exact (Nat.log2_eq_iff hm.ne').mpr (by omega)
  have hfield : BitVec.ofNat f.exponentBits e.toNat = e := by
    rw [BitVec.ofNat_toNat, BitVec.setWidth_eq]
  have hrest : BitVec.ofNat f.mantissaBitsWithoutImplicit (1#1 ++ m).toNat = m := by
    rw [BitVec.ofNat_toNat, BitVec.setWidth_append]
    simp
  rw [pack_finite, hplace, hlog, if_neg (by omega), if_pos (by omega), Int.toNat_natCast, hfield,
    hrest]

/-- Bits that are unpacked and packed again are the same, unless their field is that of an
infinity. -/
theorem pack_unpack_bits (hf : 1 < f.exponentBits) {b : BitVec f.numBits}
    (hb : (unpackExponent b).toNat + 1 < 2 ^ f.exponentBits) :
    (UnpackedFloat.unpack f b).pack f = b := by
  have hfield : unpackExponent b ≠ -1#_ := fun h => by
    rw [h, BitVec.neg_one_eq_allOnes, BitVec.toNat_allOnes] at hb
    omega
  refine Eq.trans ?_ (packComponents_fields b)
  show UnpackedFloat.pack f (if unpackExponent b = -1#_ then _ else
    if unpackExponent b = 0#_ then if h : unpackMantissa b = 0#_ then _ else _ else _) = _
  rw [if_neg hfield]
  by_cases hzero : unpackExponent b = 0#_
  · have hplace : (unpackExponent b).toNat = 0 := by rw [hzero, BitVec.toNat_zero]
    rw [if_pos hzero]
    by_cases hm : unpackMantissa b = 0#_
    · rw [dif_pos hm, hzero, hm]
      rfl
    · rw [dif_neg hm]
      exact (pack_subnormal hf _ _ (by omega)).trans (hzero ▸ rfl)
  · rw [if_neg hzero]
    exact pack_normal _ hb _ _ (by omega)

/-- A double that is made from bits has these bits, unless their field is that of an infinity. -/
theorem toBits_ofBits {bits : UInt64} (hbits : bits.toNat / 2 ^ 52 % 2 ^ 11 ≠ 2047) :
    (Float.ofBits bits).toBits = bits := by
  have hfield : (@unpackExponent Format.binary64 bits.toBitVec).toNat =
      bits.toNat / 2 ^ 52 % 2 ^ 11 := by
    show (BitVec.cast _ (bits.toBitVec.extractLsb 62 52)).toNat = _
    simp [Nat.shiftRight_eq_div_pow]
  refine UInt64.toBitVec_inj.mp (pack_unpack_bits (f := Format.binary64) (by decide) ?_)
  rw [hfield]
  simp only
  omega

end Fields

/-! ## Signs -/

theorem lessInt_finite_zero (negative : Bool) (m : Nat) (e : Int) :
    (finite negative m e).lessInt 0 = (negative && decide (m ≠ 0)) := by
  have hratio : (ratio m e).1 = 0 ↔ m = 0 := by
    unfold ratio
    split <;> simp [Nat.pow_eq]
  unfold lessInt fraction
  cases negative <;> simp [hratio, Nat.pos_iff_ne_zero]

/-- Bits short of those of an infinity, with a sign in front, stand for a number below zero if and
only if the sign is there and they are not all zero. -/
theorem lessInt_ofBits {bits : Nat} (hbits : bits < 2047 * 2 ^ 52) (negative : Bool) :
    (ofBits (bits + if negative then 2 ^ 63 else 0)).lessInt 0 =
      (negative && decide (bits ≠ 0)) := by
  have hsign : ((bits + if negative then 2 ^ 63 else 0) / 2 ^ 63 % 2 == 1) = negative := by
    cases negative <;> simp <;> omega
  have hfield : (bits + if negative then 2 ^ 63 else 0) / 2 ^ 52 % 2 ^ 11 = bits / 2 ^ 52 := by
    split <;> omega
  have hlow : (bits + if negative then 2 ^ 63 else 0) % 2 ^ 52 = bits % 2 ^ 52 := by
    split <;> omega
  unfold ofBits
  simp only [Nat.pow_eq]
  rw [hsign, hfield, hlow, if_neg (by omega)]
  split
  · rw [lessInt_finite_zero]
    congr 2
    simp
    omega
  · rw [lessInt_finite_zero]
    congr 2
    simp
    omega

/-! ## Rounding a whole number -/

theorem roundEven_mem (num den : Nat) :
    num / den ≤ roundEven num den ∧ roundEven num den ≤ num / den + 1 := by
  have := Nat.mod_lt (num / den) (show 0 < 2 by decide)
  unfold roundEven
  simp only
  split
  · omega
  · split <;> omega

/-- A quotient is rounded to beyond an odd number if and only if it is half a step beyond it. -/
theorem succ_le_roundEven_iff {num den k : Nat} (hden : 0 < den) (hk : k % 2 = 1) :
    k + 1 ≤ roundEven num den ↔ (2 * k + 1) * den ≤ 2 * num := by
  have hnum := Nat.div_add_mod num den
  have hmod := Nat.mod_lt num hden
  obtain ⟨hlow, hhigh⟩ := roundEven_mem num den
  rcases Nat.lt_trichotomy (num / den) k with hlt | heq | hgt
  · have hmul := Nat.mul_le_mul_left den (Nat.succ_le_of_lt hlt)
    rw [Nat.mul_succ] at hmul
    exact iff_of_false (by omega) (by linarith)
  · rw [heq] at hnum
    have hhalf : (2 * k + 1) * den ≤ 2 * num ↔ den ≤ 2 * (num % den) := by
      constructor <;> intro h <;> linarith
    rw [hhalf]
    unfold roundEven
    simp only [heq, hk]
    split
    · omega
    · split <;> omega
  · have hmul := Nat.mul_le_mul_left den (Nat.succ_le_of_lt hgt)
    have hle := Nat.mul_div_le num den
    rw [Nat.mul_succ] at hmul
    exact iff_of_true (by omega) (by linarith)

theorem scaled_one (n : Nat) (e : Int) :
    scaled n 1 e = if e < 0 then (n * 2 ^ (-e).toNat, 1) else (n, 2 ^ e.toNat) := by
  simp [scaled, Nat.pow_eq]

/-- A number is scaled to any number of bits by the place of its highest one. -/
theorem scaled_log2 {n : Nat} (hn : 0 < n) (k : Nat) :
    2 ^ k ≤ (scaled n 1 (n.log2 - k)).1 / (scaled n 1 (n.log2 - k)).2 ∧
      (scaled n 1 (n.log2 - k)).1 / (scaled n 1 (n.log2 - k)).2 < 2 ^ (k + 1) := by
  have hlow := Nat.log2_self_le (Nat.pos_iff_ne_zero.mp hn)
  have hhigh := @Nat.lt_log2_self n
  rw [scaled_one]
  generalize n.log2 = l at hlow hhigh ⊢
  split
  · obtain ⟨d, rfl⟩ : ∃ d, k = l + d := ⟨k - l, by omega⟩
    have hshift : (-((l : Int) - (l + d : Nat))).toNat = d := by omega
    simp only [Nat.div_one]
    rw [hshift, Nat.pow_add, Nat.add_right_comm, Nat.pow_add 2 (l + 1)]
    exact ⟨Nat.mul_le_mul_right _ hlow, Nat.mul_lt_mul_of_pos_right hhigh (Nat.two_pow_pos d)⟩
  · obtain ⟨d, rfl⟩ : ∃ d, l = k + d := ⟨l - k, by omega⟩
    have hshift : (((k + d : Nat) : Int) - k).toNat = d := by omega
    simp only
    rw [hshift, Nat.le_div_iff_mul_le (Nat.two_pow_pos d),
      Nat.div_lt_iff_lt_mul (Nat.two_pow_pos d), ← Nat.pow_add, ← Nat.pow_add, Nat.add_right_comm]
    exact ⟨hlow, hhigh⟩

/-- The bits chosen for a whole number : its highest 53 bits, rounded, added to a field that counts
how many there are in all. -/
theorem roundBits_one {n : Nat} (hn : 0 < n) : roundBits n 1 = (n.log2 + 1022) * 2 ^ 52 +
    roundEven (scaled n 1 (n.log2 - 52)).1 (scaled n 1 (n.log2 - 52)).2 := by
  -- At first 54 bits are left before the point, so that the exponent is always one more.
  have hguess := (scaled_log2 hn 53).1
  push_cast at hguess
  have hexponent : (n.log2 : Int) - 53 + 1 = n.log2 - 52 := by omega
  have hfield : ((n.log2 : Int) - 52 + 1074).toNat = n.log2 + 1022 := by omega
  unfold roundBits
  simp only [show Nat.log2 1 = 0 by decide, Nat.cast_zero, sub_zero, Nat.pow_eq]
  rw [if_neg (show ¬(n.log2 : Int) - 53 < -1074 by omega), if_neg (by omega), hexponent, hfield]

theorem roundBits_one_pos {n : Nat} (hn : 0 < n) : 0 < roundBits n 1 := by
  rw [roundBits_one hn]
  exact Nat.add_pos_left (Nat.mul_pos (by omega) (Nat.two_pow_pos 52)) _

/-- The bits are short of those of 2 ^ (k + 54) if and only if the number is : there the step is
2 ^ (k + 1), and what is half a step short is rounded up. -/
theorem roundBits_one_lt_iff {n : Nat} (hn : 0 < n) (k : Nat) :
    roundBits n 1 < (k + 1077) * 2 ^ 52 ↔ n < (2 ^ 54 - 1) * 2 ^ k := by
  have hround := roundEven_mem (scaled n 1 (n.log2 - 52)).1 (scaled n 1 (n.log2 - 52)).2
  obtain ⟨hlow, hhigh⟩ := scaled_log2 hn 52
  push_cast at hlow hhigh
  rw [roundBits_one hn]
  rcases Nat.lt_trichotomy n.log2 (53 + k) with hlt | heq | hgt
  · have hn' : n < 2 ^ 53 * 2 ^ k := by
      rw [← Nat.pow_add]
      exact (Nat.log2_lt (by omega)).mp hlt
    exact iff_of_true (by omega) (by omega)
  · have hscaled : scaled n 1 (n.log2 - 52) = (n, 2 * 2 ^ k) := by
      rw [heq, scaled_one, if_neg (by omega), ← Nat.pow_succ']
      congr 2
      omega
    have hhalf := @succ_le_roundEven_iff n (2 * 2 ^ k) (2 ^ 53 - 1)
      (Nat.mul_pos (by decide) (Nat.two_pow_pos k)) rfl
    rw [hscaled] at hlow hhigh hround ⊢
    simp only at hlow hhigh hround hhalf ⊢
    rw [heq]
    omega
  · have hn' : 2 ^ 54 * 2 ^ k ≤ n := by
      rw [← Nat.pow_add]
      exact (Nat.pow_le_pow_right (by decide) (by omega)).trans (Nat.log2_self_le (by omega))
    exact iff_of_false (by omega) (by omega)

/-- A rounded quotient has the bits that are chosen for it, with its sign in front. -/
theorem ofFloat_of_round? {negative : Bool} {num den : Nat} {x : Float}
    (h : round? negative num den = some x) :
    ∃ bits < 2047 * 2 ^ 52, bits = (if num = 0 then 0 else roundBits num den) ∧
      ofFloat x = ofBits (bits + if negative then 2 ^ 63 else 0) := by
  unfold round? at h
  simp only [Nat.pow_eq] at h
  generalize (if num = 0 then 0 else roundBits num den) = bits at h
  split at h
  · rename_i hbits
    refine ⟨bits, hbits, rfl, ?_⟩
    have hsize : bits + (if negative then 2 ^ 63 else 0) < 2 ^ 64 := by
      split <;> omega
    have hnat : (UInt64.ofNat (bits + if negative then 2 ^ 63 else 0)).toNat =
        bits + if negative then 2 ^ 63 else 0 := Nat.mod_eq_of_lt hsize
    have hfield : (bits + if negative then 2 ^ 63 else 0) / 2 ^ 52 % 2 ^ 11 ≠ 2047 := by
      split <;> omega
    rw [← Option.some.inj h, ofFloat, toBits_ofBits (by rwa [hnat]), hnat]
  · cases h

end Binary

namespace Number

/-- A whole number is below zero if and only if its double is. -/
theorem isNegative_floatOfInt {i : Int} {x : Float} (h : floatOfInt i = .ok x) :
    Constraint.isNegative (real x) = decide (i < 0) := by
  unfold floatOfInt at h
  split at h
  · rename_i y hy
    cases h
    obtain ⟨bits, hbits, hvalue, hx⟩ := Binary.ofFloat_of_round? hy
    have hless : Constraint.isNegative (real x) = (Binary.ofFloat x).lessInt 0 :=
      Bool.decide_eq_true
    rw [hless, hx, Binary.lessInt_ofBits hbits]
    by_cases hi : i < 0
    · have hpos := Binary.roundBits_one_pos (show 0 < i.natAbs by omega)
      rw [if_neg (by omega)] at hvalue
      simp [hi, hvalue, Nat.pos_iff_ne_zero.mp hpos]
    · simp [hi]
  · cases h

/-- There is a double for a whole number if and only if it is less than half a step beyond the
largest double, (2 ^ 53 - 1) * 2 ^ 971. -/
theorem exists_floatOfInt_iff (i : Int) :
    (∃ x, floatOfInt i = .ok x) ↔ i.natAbs < (2 ^ 54 - 1) * 2 ^ 970 := by
  have hrange : (∃ x, floatOfInt i = .ok x) ↔
      (if i.natAbs = 0 then 0 else Binary.roundBits i.natAbs 1) < 2047 * 2 ^ 52 := by
    unfold floatOfInt Binary.round?
    simp only [Nat.pow_eq]
    split <;> simp_all
  rw [hrange]
  split
  · rename_i hzero
    rw [hzero]
    exact iff_of_true (by decide) (by positivity)
  · exact Binary.roundBits_one_lt_iff (by omega) 970

/-- A whole number without a double lies beyond their range. -/
theorem floatOfInt_eq_ok_or (i : Int) :
    (∃ x, floatOfInt i = .ok x) ∨ floatOfInt i = .error .beyondRange := by
  unfold floatOfInt
  split
  · exact Or.inl ⟨_, rfl⟩
  · exact Or.inr rfl

end Number

end Confinement
