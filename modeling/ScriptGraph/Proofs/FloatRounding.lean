import Mathlib
import ScriptGraph.Binary

/-!
# How products and whole numbers are rounded to doubles

Arithmetic on doubles is that of `Float.Model`: an exact result is shifted to a mantissa of 53 bits and packed.  A
product below the middle between the largest double and the next power of two is not rounded to infinity
(`isInf_round`).  The double that `BinaryFormat.nearest` finds for a whole number exceeds it by one part in `2 ^ 53`
at most (`isNear_nearest`), so the product of two such doubles is finite if that of the whole numbers is a little
below the middle (`IsNear.isInf_mul`).
-/

namespace ScriptGraph

open Float.Model (UnpackedFloat Format totalExponent)
open Float.Model.UnpackedFloat

/-! ### Products -/

/-- Whatever has an exponent field that is not all ones is not infinite. -/
private theorem isInf_unpack {b : BitVec 64} (h : @unpackExponent Format.binary64 b ≠ -1#11) :
    (UnpackedFloat.unpack Format.binary64 b).isInf = false := by
  rw [UnpackedFloat.unpack]
  dsimp only
  rw [if_neg h]
  split
  · split <;> rfl
  · rfl

private theorem isInf_pack {s : Sign} {m : Nat} {e : Int} {hm : 0 < m} (he : e ≤ 971) :
    (Float.Model.pack (.finite s m e hm)).isInf = false := by
  refine isInf_unpack ?_
  change @unpackExponent Format.binary64 (UnpackedFloat.pack Format.binary64 (.finite s m e hm)) ≠ -1#11
  have hbiased : ¬2 ^ 11 ≤ (e + (1023 : Nat) + (52 : Nat)).toNat + 1 := by omega
  rw [UnpackedFloat.pack]
  dsimp only [Format.exponentBias]
  simp only [Nat.reducePow, Nat.reduceSub] at hbiased ⊢
  rw [if_neg hbiased]
  split
  · rw [unpackExponent_packComponents]
    intro h
    have := congrArg BitVec.toNat h
    simp at this
    omega
  · rw [unpackExponent_packComponents]
    decide

private theorem shiftRight_mantissa (em : ExtendedMantissa) (k : Nat) :
    (em >>> k).mantissa = em.mantissa / 2 ^ k := by
  induction k with
  | zero => simp [HShiftRight.hShiftRight, Nat.repeat]
  | succ k ih =>
    change (em >>> k).mantissa / 2 = _
    rw [ih, Nat.div_div_eq_div_mul, Nat.pow_succ]

private theorem shiftRight_roundBit (em : ExtendedMantissa) (k : Nat) :
    (em >>> (k + 1)).roundBit = (em.mantissa / 2 ^ k % 2 != 0) := by
  change ((em >>> k).mantissa % 2 != 0) = _
  rw [shiftRight_mantissa]

/-- A mantissa is rounded up by one at most, and only if the first bit that was cut off is set. -/
private theorem roundedMantissa_le (em : ExtendedMantissa) :
    em.mantissa ≤ em.roundedMantissa ∧ em.roundedMantissa ≤ em.mantissa + (if em.roundBit then 1 else 0) := by
  rcases em with ⟨m, _ | _, _ | _⟩ <;>
    simp [ExtendedMantissa.roundedMantissa, ExtendedMantissa.accuracy, Accuracy.roundToNearestEven]
  omega

private theorem shiftToTargetExponent_eq {m : Nat} {e : Int} (hm : 52 ≤ m.log2) (he : -104 ≤ e) :
    shiftToTargetExponent Format.binary64 m e .exact =
      (ExtendedMantissa.mk m false false >>> (m.log2 - 52), e + (m.log2 - 52 : Nat)) := by
  have htarget : Format.binary64.targetExponent (totalExponent m e) = m.log2 + e - 52 := by
    simp only [Format.targetExponent, totalExponent, Format.mantissaBits, Format.minExponent]
    norm_num
    omega
  have hshift : (m.log2 + e - 52 - e).toNat = m.log2 - 52 := by omega
  rw [shiftToTargetExponent, htarget, shiftToExponent, hshift]
  rfl

section Middle

variable {m top : Nat} {e : Int}

/-- The last place of a product below the end of the doubles. -/
private theorem place_le (hm : m ≠ 0) (htop : top ≤ 1074) (hlt : m * 2 ^ (e + 104).toNat < (2 ^ 54 - 1) * 2 ^ top) :
    e + m.log2 ≤ 1023 := by
  have hproduct : m * 2 ^ (e + 104).toNat < 2 ^ (54 + top) := by
    rw [Nat.pow_add]
    exact Nat.lt_of_lt_of_le hlt (Nat.mul_le_mul_right _ (by decide))
  have hsum : 2 ^ (m.log2 + (e + 104).toNat) < 2 ^ (54 + top) := by
    rw [Nat.pow_add]
    exact Nat.lt_of_le_of_lt (Nat.mul_le_mul_right _ (Nat.log2_self_le hm)) hproduct
  have hexponents := (Nat.pow_lt_pow_iff_right (by decide : 1 < 2)).1 hsum
  omega

/-- With the largest exponent, the first 54 bits of such a product are not all ones. -/
private theorem bits_ne {k : Nat} (htop : top ≤ 1074) (hlt : m * 2 ^ (e + 104).toNat < (2 ^ 54 - 1) * 2 ^ top)
    (hmax : 970 ≤ e + k) : m / 2 ^ k ≠ 2 ^ 54 - 1 := by
  intro hbits
  have hmiddle : (2 ^ 54 - 1) * 2 ^ k ≤ m := hbits ▸ Nat.div_mul_le_self m (2 ^ k)
  have hreach : 2 ^ top ≤ 2 ^ k * 2 ^ (e + 104).toNat := by
    rw [← Nat.pow_add]
    exact Nat.pow_le_pow_right (by decide) (by omega)
  have hproduct := Nat.mul_le_mul_right (2 ^ (e + 104).toNat) hmiddle
  rw [Nat.mul_assoc] at hproduct
  exact Nat.not_le.2 hlt (Nat.le_trans (Nat.mul_le_mul_left _ hreach) hproduct)

/-- A product below the middle between the largest double and the next power of two is rounded to a finite double. -/
theorem isInf_round {s : Sign} (hm : 2 ^ 104 ≤ m) (he : -104 ≤ e) (htop : top ≤ 1074)
    (hlt : m * 2 ^ (e + 104).toNat < (2 ^ 54 - 1) * 2 ^ top) :
    (Float.Model.pack (roundWithAccuracy Format.binary64 s m e .exact)).isInf = false := by
  have hne : m ≠ 0 := by omega
  have hlog : 104 ≤ m.log2 := (Nat.le_log2 hne).2 hm
  obtain ⟨k, hk⟩ : ∃ k, m.log2 - 52 = k + 1 := ⟨m.log2 - 53, by omega⟩
  have hfirst := shiftToTargetExponent_eq (m := m) (by omega) he
  rw [hk] at hfirst
  generalize hem : ExtendedMantissa.mk m false false >>> (k + 1) = em at hfirst
  have hmantissa : em.mantissa = m / 2 ^ (k + 1) := hem ▸ shiftRight_mantissa _ _
  have hround : em.roundBit = (m / 2 ^ k % 2 != 0) := hem ▸ shiftRight_roundBit _ _
  obtain ⟨hle, hge⟩ := roundedMantissa_le em
  have hlow : 2 ^ 52 ≤ em.mantissa := by
    rw [hmantissa, Nat.le_div_iff_mul_le (Nat.two_pow_pos _), ← Nat.pow_add, show 52 + (k + 1) = m.log2 by omega]
    exact Nat.log2_self_le hne
  have hhigh : em.mantissa < 2 ^ 53 := by
    rw [hmantissa, Nat.div_lt_iff_lt_mul (Nat.two_pow_pos _), ← Nat.pow_add, show 53 + (k + 1) = m.log2 + 1 by omega]
    exact Nat.lt_log2_self
  have hplace := place_le hne htop hlt
  have hexponent : e + (k + 1 : Nat) + (em.roundedMantissa.log2 - 52 : Nat) ≤ 971 := by
    by_cases hcarry : em.roundedMantissa < 2 ^ 53
    · have hlog' := (Nat.log2_lt (by omega)).2 hcarry
      omega
    · have hbit : em.roundBit = true := by
        by_contra hbit
        rw [if_neg hbit] at hge
        omega
      rw [if_pos hbit] at hge
      have hall : em.roundedMantissa = 2 ^ 53 := by omega
      rw [hall, Nat.log2_two_pow]
      -- all bits were ones, so the exponent is not the largest one
      have hbits : m / 2 ^ k = 2 ^ 54 - 1 := by
        rw [hround, bne_iff_ne] at hbit
        rw [Nat.pow_succ, ← Nat.div_div_eq_div_mul] at hmantissa
        omega
      by_contra hmax
      exact bits_ne htop hlt (by omega) hbits
  have hlog' : 52 ≤ em.roundedMantissa.log2 := (Nat.le_log2 (by omega)).2 (by omega)
  have hsecond := shiftToTargetExponent_eq (e := e + (k + 1 : Nat)) hlog' (by omega)
  rw [roundWithAccuracy, hfirst]
  dsimp only
  rw [hsecond]
  dsimp only
  split
  · cases s <;> rfl
  · exact isInf_pack hexponent

end Middle

/-! ### Packed numbers -/

private theorem toNat_unpackExponent (b : BitVec Format.binary64.numBits) :
    (unpackExponent b).toNat = b.toNat / 2 ^ 52 % 2 ^ 11 := by
  rw [unpackExponent, BitVec.toNat_cast, BitVec.extractLsb_toNat, Nat.shiftRight_eq_div_pow]
  rfl

private theorem toNat_unpackMantissa (b : BitVec Format.binary64.numBits) :
    (unpackMantissa b).toNat = b.toNat % 2 ^ 52 := by
  rw [unpackMantissa, BitVec.toNat_cast, BitVec.extractLsb_toNat, Nat.shiftRight_zero]
  rfl

private theorem toNat_unpackSign (b : BitVec Format.binary64.numBits) :
    (unpackSign b).toNat = b.toNat / 2 ^ 63 % 2 := by
  rw [unpackSign, BitVec.toNat_cast, BitVec.extractLsb_toNat, Nat.shiftRight_eq_div_pow]
  rfl

private theorem unpack_normal {b : BitVec Format.binary64.numBits} {field fraction : Nat}
    (hb : b.toNat = field * 2 ^ 52 + fraction) (hpos : 0 < field) (hfield : field < 2047)
    (hfraction : fraction < 2 ^ 52) :
    ∃ h, UnpackedFloat.unpack Format.binary64 b = .finite .positive (2 ^ 52 + fraction) (field - 1075) h := by
  have hexponent : (unpackExponent b).toNat = field := by rw [toNat_unpackExponent, hb]; omega
  have hmantissa : (unpackMantissa b).toNat = fraction := by rw [toNat_unpackMantissa, hb]; omega
  have hsign : unpackSign b = 0#1 := by
    apply BitVec.eq_of_toNat_eq
    rw [toNat_unpackSign, hb]
    simp
    omega
  refine ⟨by omega, ?_⟩
  rw [UnpackedFloat.unpack]
  dsimp only
  rw [if_neg, if_neg]
  · rw [UnpackedFloat.finite.injEq, hexponent, hsign]
    refine ⟨rfl, ?_, rfl⟩
    have hor := Nat.two_pow_add_eq_or_of_lt hfraction 1
    rw [Nat.mul_one] at hor
    rw [BitVec.toNat_append, hmantissa, Nat.shiftLeft_eq, hor]
    rfl
  · intro h
    rw [h] at hexponent
    simp at hexponent
    omega
  · intro h
    rw [h] at hexponent
    simp at hexponent
    omega

private theorem toNat_packComponents (exponent : BitVec 11) (mantissa : BitVec 52) :
    (packComponents Format.binary64 .positive exponent mantissa).toNat =
      exponent.toNat * 2 ^ 52 + mantissa.toNat := by
  have hor := Nat.two_pow_add_eq_or_of_lt mantissa.isLt exponent.toNat
  rw [Nat.mul_comm, hor, packComponents, BitVec.toNat_append, BitVec.toNat_append, Nat.shiftLeft_eq, Nat.shiftLeft_eq,
    Nat.mul_comm]
  have hsign : Sign.positive.toBitVec.toNat = 0 := rfl
  rw [hsign, Nat.zero_mul, Nat.zero_or]

private theorem unpack_pack {fraction : Nat} {e : Int} {h : 0 < 2 ^ 52 + fraction} (hfraction : fraction < 2 ^ 52)
    (hlow : -1075 < e) (hhigh : e < 972) :
    (Float.Model.pack (.finite .positive (2 ^ 52 + fraction) e h)).unpack =
      .finite .positive (2 ^ 52 + fraction) e h := by
  have hlog : (2 ^ 52 + fraction).log2 = 52 := (Nat.log2_eq_iff (by omega)).2 ⟨by omega, by omega⟩
  have hbiased : ¬2 ^ 11 ≤ (e + (1023 : Nat) + (52 : Nat)).toNat + 1 := by omega
  have hpack : UnpackedFloat.pack Format.binary64 (.finite .positive (2 ^ 52 + fraction) e h) =
      packComponents Format.binary64 .positive (BitVec.ofNat 11 (e + (1023 : Nat) + (52 : Nat)).toNat)
        (BitVec.ofNat 52 (2 ^ 52 + fraction)) := by
    rw [UnpackedFloat.pack]
    dsimp only [Format.exponentBias]
    simp only [Nat.reducePow, Nat.reduceSub] at hbiased hlog ⊢
    rw [if_neg hbiased, hlog, if_pos (show 52 + 1 = Format.binary64.mantissaBits from rfl)]
  have hbits : (UnpackedFloat.pack Format.binary64 (.finite .positive (2 ^ 52 + fraction) e h)).toNat =
      (e + 1075).toNat * 2 ^ 52 + fraction := by
    rw [hpack, toNat_packComponents, BitVec.toNat_ofNat, BitVec.toNat_ofNat]
    omega
  obtain ⟨h', hunpack⟩ := unpack_normal hbits (by omega) (by omega) hfraction
  change UnpackedFloat.unpack Format.binary64 (UnpackedFloat.pack Format.binary64 _) = _
  rw [hunpack, UnpackedFloat.finite.injEq]
  exact ⟨rfl, rfl, by omega⟩

/-- The double with the given fields. -/
private theorem unpack_ofBits {field fraction : Nat} (hpos : 0 < field) (hfield : field < 2047)
    (hfraction : fraction < 2 ^ 52) :
    ∃ h, (Float.ofBits (UInt64.ofNat (field * 2 ^ 52 + fraction))).toModel.unpack =
      .finite .positive (2 ^ 52 + fraction) (field - 1075) h := by
  have hbits : (UInt64.ofNat (field * 2 ^ 52 + fraction)).toBitVec.toNat = field * 2 ^ 52 + fraction := by
    rw [UInt64.toNat_toBitVec, UInt64.toNat_ofNat', Nat.mod_eq_of_lt]
    omega
  obtain ⟨h, hunpack⟩ := unpack_normal hbits hpos hfield hfraction
  refine ⟨h, ?_⟩
  rw [Float.ofBits]
  dsimp only
  rw [Float.Model.ofBits, hunpack]
  exact unpack_pack hfraction (by omega) (by omega)

/-- A finite double is a mantissa and an exponent. -/
theorem valueOfDouble_of_isFinite {x : Float} (h : x.isFinite = true) :
    ∃ negative mantissa exponent, valueOfDouble x = .finite negative mantissa exponent := by
  have hexponent : (@unpackExponent Format.binary64 x.toBits.toBitVec).toNat ≠ 2047 := by
    intro hfield
    have hones : @unpackExponent Format.binary64 x.toBits.toBitVec = -1#11 :=
      BitVec.eq_of_toNat_eq (by simpa using hfield)
    change (UnpackedFloat.unpack Format.binary64 x.toBits.toBitVec).isFinite = true at h
    rw [UnpackedFloat.unpack] at h
    dsimp only at h
    rw [if_pos hones] at h
    split at h <;> cases h
  rw [toNat_unpackExponent, UInt64.toNat_toBitVec] at hexponent
  have hinfinity : BinaryFormat.binary64.infinityBits = 2047 * 2 ^ 52 := rfl
  have hsign : BinaryFormat.binary64.signBit = 2048 * 2 ^ 52 := rfl
  unfold valueOfDouble BinaryFormat.decode
  dsimp only
  rw [if_neg (by rw [hinfinity, hsign]; omega), if_neg (by rw [hinfinity, hsign]; omega)]
  split
  · exact ⟨_, _, _, rfl⟩
  · exact ⟨_, _, _, rfl⟩

/-! ### Rounding whole numbers -/

private theorem log2Ratio_one (n : Nat) (hn : 0 < n) : BinaryFormat.log2Ratio n 1 = n.log2 := by
  have hone : Nat.log2 1 = 0 := by decide
  have hguess : 1 * twoPow ((n.log2 : Int) - (Nat.log2 1 : Int)).toNat ≤
      n * twoPow (-((n.log2 : Int) - (Nat.log2 1 : Int))).toNat := by
    rw [hone, show ((n.log2 : Int) - (0 : Nat)).toNat = n.log2 by omega,
      show (-((n.log2 : Int) - (0 : Nat))).toNat = 0 by omega, Nat.one_mul]
    exact Nat.le_trans (Nat.log2_self_le (by omega)) (Nat.le_of_eq (Nat.mul_one n).symm)
  rw [BinaryFormat.log2Ratio, if_pos hguess, hone]
  omega

private theorem roundToEven_bounds (num den : Nat) :
    num / den ≤ roundToEven num den ∧ 2 * (roundToEven num den * den) ≤ 2 * num + den := by
  have hdivision := Nat.div_add_mod num den
  rw [roundToEven]
  split
  · next hup =>
    have hhalf : den ≤ 2 * (num % den) := by
      simp only [Bool.or_eq_true, Bool.and_eq_true, decide_eq_true_eq, beq_iff_eq] at hup
      omega
    refine ⟨Nat.le_succ _, ?_⟩
    rw [Nat.add_mul, Nat.mul_comm (num / den)]
    omega
  · refine ⟨Nat.le_refl _, ?_⟩
    rw [Nat.mul_comm (num / den)]
    omega

/-- A whole number as a count of the last places of the doubles around it. -/
private theorem round_count {n : Nat} (hn : 0 < n) :
    ∃ count, roundToEven (n * twoPow (-(n.log2 - 52 : Int)).toNat) (1 * twoPow (n.log2 - 52 : Int).toNat) = count ∧
      2 ^ 52 ≤ count ∧ count ≤ 2 ^ 53 ∧ 2 * (count * 2 ^ n.log2) ≤ 2 * (n * 2 ^ 52) + 2 ^ n.log2 ∧
      count * 2 ^ n.log2 * 2 ^ 53 ≤ n * 2 ^ 52 * (2 ^ 53 + 1) := by
  have hpower : 2 ^ n.log2 ≤ n ∧ n < 2 ^ (n.log2 + 1) := ⟨Nat.log2_self_le (by omega), Nat.lt_log2_self⟩
  refine ⟨_, rfl, ?_⟩
  rcases Nat.le_total n.log2 52 with hsmall | hlarge
  · -- the number itself is a count
    obtain ⟨k, hk⟩ : ∃ k, 52 = n.log2 + k := ⟨52 - n.log2, by omega⟩
    have hexponents : (-(n.log2 - 52 : Int)).toNat = k ∧ (n.log2 - 52 : Int).toNat = 0 := by omega
    rw [hexponents.1, hexponents.2]
    obtain ⟨hlow, hhigh⟩ := roundToEven_bounds (n * twoPow k) (1 * twoPow 0)
    generalize roundToEven (n * twoPow k) (1 * twoPow 0) = count at hlow hhigh ⊢
    simp only [show twoPow 0 = 1 from rfl, Nat.mul_one, Nat.div_one, show twoPow k = 2 ^ k from rfl] at hlow hhigh
    have hcount : count = n * 2 ^ k := by omega
    have hexact : count * 2 ^ n.log2 = n * 2 ^ 52 := by
      rw [hcount, Nat.mul_assoc, ← Nat.pow_add, Nat.add_comm k, ← hk]
    refine ⟨?_, ?_, by omega, ?_⟩
    · rw [hcount, hk, Nat.pow_add]
      exact Nat.mul_le_mul_right _ hpower.1
    · rw [hcount, show 53 = n.log2 + 1 + k by omega, Nat.pow_add]
      exact Nat.mul_le_mul_right _ (Nat.le_of_lt hpower.2)
    · rw [hexact]
      exact Nat.mul_le_mul_left _ (Nat.le_succ _)
  · obtain ⟨k, hk⟩ : ∃ k, n.log2 = 52 + k := ⟨n.log2 - 52, by omega⟩
    have hexponents : (-(n.log2 - 52 : Int)).toNat = 0 ∧ (n.log2 - 52 : Int).toNat = k := by omega
    rw [hexponents.1, hexponents.2]
    obtain ⟨hlow, hhigh⟩ := roundToEven_bounds (n * twoPow 0) (1 * twoPow k)
    generalize roundToEven (n * twoPow 0) (1 * twoPow k) = count at hlow hhigh ⊢
    rw [show twoPow 0 = 1 from rfl, Nat.mul_one, Nat.one_mul, show twoPow k = 2 ^ k from rfl] at hlow hhigh
    rw [hk] at hpower ⊢
    have hpos := Nat.two_pow_pos k
    refine ⟨?_, ?_, ?_, ?_⟩
    · refine Nat.le_trans ?_ hlow
      rw [Nat.le_div_iff_mul_le hpos, ← Nat.pow_add]
      exact hpower.1
    · by_contra hmore
      have hmany : 2 * ((2 ^ 53 + 1) * 2 ^ k) ≤ 2 * (count * 2 ^ k) := by gcongr; omega
      have htop : n < 2 ^ 53 * 2 ^ k := by rw [← Nat.pow_add, show 53 + k = 52 + k + 1 by omega]; exact hpower.2
      omega
    · rw [Nat.pow_add]
      nlinarith
    · rw [Nat.pow_add] at hpower ⊢
      nlinarith

/-- A positive double with no places beyond `2 ^ (-52)` that exceeds a whole number by one part in `2 ^ 53` at
most. -/
def IsNear (x : Float) (n : Nat) : Prop :=
  ∃ m e h, x.toModel.unpack = .finite .positive m e h ∧ 2 ^ 52 ≤ m ∧ -52 ≤ e ∧
    m * 2 ^ (e + 52).toNat * 2 ^ 53 ≤ n * 2 ^ 52 * (2 ^ 53 + 1)

/-- A whole number is rounded to a double that is near. -/
theorem isNear_nearest {n top : Nat} (hn : 0 < n) (htop : top ≤ 1022) (hlt : n < 3 * 2 ^ top) :
    IsNear (Float.ofBits (UInt64.ofNat (BinaryFormat.binary64.nearest n 1))) n := by
  have hplace : max (BinaryFormat.log2Ratio n 1 - BinaryFormat.binary64.fractionBits) BinaryFormat.binary64.lowest =
      n.log2 - 52 := by
    rw [log2Ratio_one n hn, show BinaryFormat.binary64.lowest = -1074 from rfl,
      show BinaryFormat.binary64.fractionBits = 52 from rfl]
    omega
  obtain ⟨count, hcount, hlow, hhigh, hnear, hbound⟩ := round_count hn
  have hpos := Nat.two_pow_pos top
  have hlog : n.log2 ≤ top + 1 := by
    by_contra hmore
    have hpower := Nat.le_trans (Nat.pow_le_pow_right (by decide) (Nat.lt_of_not_le hmore))
      (Nat.log2_self_le (by omega))
    rw [Nat.succ_eq_add_one, Nat.pow_succ, Nat.pow_succ] at hpower
    omega
  have hcarry : n.log2 = 1023 → count < 2 ^ 53 := by
    intro hlast
    rw [show n.log2 = top + 1 by omega, Nat.pow_succ] at hnear
    by_contra hmore
    have hmany : 2 * (2 ^ 53 * (2 ^ top * 2)) ≤ 2 * (count * (2 ^ top * 2)) := by gcongr; omega
    omega
  have hbits : BinaryFormat.binary64.nearest n 1 = (n.log2 + 1022) * 2 ^ 52 + count := by
    rw [BinaryFormat.nearest, if_neg (by omega), hplace]
    dsimp only
    rw [hcount, show BinaryFormat.binary64.lowest = -1074 from rfl,
      show twoPow BinaryFormat.binary64.fractionBits = 2 ^ 52 from rfl,
      show BinaryFormat.binary64.infinityBits = 2047 * 2 ^ 52 from rfl]
    omega
  rw [IsNear, hbits]
  by_cases hfull : count < 2 ^ 53
  · obtain ⟨h, hunpack⟩ := @unpack_ofBits (n.log2 + 1023) (count - 2 ^ 52) (by omega) (by omega) (by omega)
    refine ⟨2 ^ 52 + (count - 2 ^ 52), (n.log2 + 1023 : Nat) - 1075, h, ?_, by omega, by omega, ?_⟩
    · have hfields : (n.log2 + 1022) * 2 ^ 52 + count = (n.log2 + 1023) * 2 ^ 52 + (count - 2 ^ 52) := by omega
      rw [hfields]
      exact hunpack
    · rw [show 2 ^ 52 + (count - 2 ^ 52) = count by omega,
        show (((n.log2 + 1023 : Nat) : Int) - 1075 + 52).toNat = n.log2 by omega]
      exact hbound
  · -- the count was rounded up to the next power of two
    obtain ⟨h, hunpack⟩ := @unpack_ofBits (n.log2 + 1024) 0 (by omega) (by omega) (by omega)
    refine ⟨2 ^ 52 + 0, (n.log2 + 1024 : Nat) - 1075, h, ?_, by omega, by omega, ?_⟩
    · have hfields : (n.log2 + 1022) * 2 ^ 52 + count = (n.log2 + 1024) * 2 ^ 52 + 0 := by omega
      rw [hfields]
      exact hunpack
    · rw [show count = 2 ^ 52 * 2 by omega, Nat.mul_assoc (2 ^ 52) 2, Nat.mul_comm 2, ← Nat.pow_succ] at hbound
      rw [show (((n.log2 + 1024 : Nat) : Int) - 1075 + 52).toNat = n.log2 + 1 by omega]
      exact hbound

/-- Rounding twice adds less than the distance of a bound from the middle beyond the doubles. -/
private theorem product_lt {m m' n ten scale scale' limit : Nat} (hpos : 0 < limit)
    (hnear : m * scale * 2 ^ 53 ≤ n * 2 ^ 52 * (2 ^ 53 + 1))
    (hnear' : m' * scale' * 2 ^ 53 ≤ ten * 2 ^ 52 * (2 ^ 53 + 1)) (hle : n * ten ≤ (2 ^ 54 - 5) * limit) :
    m * m' * (scale * scale') < (2 ^ 54 - 1) * (limit * 2 ^ 104) := by
  have hmiddle : (2 ^ 54 - 5) * 2 ^ 104 * (2 ^ 53 + 1) ^ 2 < (2 ^ 54 - 1) * 2 ^ 104 * 2 ^ 106 := by decide
  refine Nat.lt_of_mul_lt_mul_right (a := 2 ^ 106) ?_
  calc m * m' * (scale * scale') * 2 ^ 106 = m * scale * 2 ^ 53 * (m' * scale' * 2 ^ 53) := by ring
    _ ≤ n * 2 ^ 52 * (2 ^ 53 + 1) * (ten * 2 ^ 52 * (2 ^ 53 + 1)) := Nat.mul_le_mul hnear hnear'
    _ = n * ten * (2 ^ 104 * (2 ^ 53 + 1) ^ 2) := by ring
    _ ≤ (2 ^ 54 - 5) * limit * (2 ^ 104 * (2 ^ 53 + 1) ^ 2) := Nat.mul_le_mul_right _ hle
    _ = limit * ((2 ^ 54 - 5) * 2 ^ 104 * (2 ^ 53 + 1) ^ 2) := by ring
    _ < limit * ((2 ^ 54 - 1) * 2 ^ 104 * 2 ^ 106) := Nat.mul_lt_mul_of_pos_left hmiddle hpos
    _ = (2 ^ 54 - 1) * (limit * 2 ^ 104) * 2 ^ 106 := by ring

/-- The product of two doubles near whole numbers is finite if that of the numbers is far enough below the end of the
doubles. -/
theorem IsNear.isInf_mul {x y : Float} {n n' top : Nat} (hx : IsNear x n) (hy : IsNear y n') (htop : top ≤ 970)
    (hle : n * n' ≤ (2 ^ 54 - 5) * 2 ^ top) : (x * y).isInf = false := by
  obtain ⟨m, e, hm, hunpack, hlow, hexponent, hnear⟩ := hx
  obtain ⟨m', e', hm', hunpack', hlow', hexponent', hnear'⟩ := hy
  have hproduct : (2 : Nat) ^ 104 ≤ m * m' := by
    rw [show 104 = 52 + 52 from rfl, Nat.pow_add]
    exact Nat.mul_le_mul hlow hlow'
  have hlt : m * m' * 2 ^ (e + e' + 104).toNat < (2 ^ 54 - 1) * 2 ^ (top + 104) := by
    rw [show (e + e' + 104).toNat = (e + 52).toNat + (e' + 52).toNat by omega, Nat.pow_add, Nat.pow_add]
    exact product_lt (Nat.two_pow_pos top) hnear hnear' hle
  have hround := @isInf_round (m * m') (top + 104) (e + e') .positive hproduct (by omega) (by omega) hlt
  change (Float.Model.pack (UnpackedFloat.mul Format.binary64 x.toModel.unpack y.toModel.unpack)).isInf = false
  rw [hunpack, hunpack']
  exact hround

end ScriptGraph
