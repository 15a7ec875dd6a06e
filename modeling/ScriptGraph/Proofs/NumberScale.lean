import ScriptGraph.Json.Number
import ScriptGraph.Proofs.FloatRounding

/-!
# Scaling never leaves the doubles early

A number is read by scaling its first digits, rounded to a double, by a power of ten, rounded as well.  The two
roundings and that of the product add less than four parts in `2 ^ 54`, so what lies so far below the middle beyond
the largest double is read (`isSome_scaled`).
-/

namespace ScriptGraph.Json.Number

private theorem maxWord_lt : maxWord < 3 * 2 ^ 63 := by decide

private theorem encode_whole (n : Nat) :
    BinaryFormat.binary64.encode (.finite false n 0) = BinaryFormat.binary64.nearest n 1 := by
  rw [BinaryFormat.encode, BinaryFormat.withSign, if_neg Bool.false_ne_true, BinaryFormat.nearestBinary]
  exact congrArg (BinaryFormat.binary64.nearest · 1) (Nat.mul_one n)

private theorem isNear_whole {n : Nat} (hn : 0 < n) (hword : n ≤ maxWord) :
    IsNear (doubleOfValue (.finite false n 0)) n := by
  rw [doubleOfValue, encode_whole]
  exact isNear_nearest hn (by decide) (Nat.lt_of_le_of_lt hword maxWord_lt)

private theorem ofLiteral_powerOfTen {power : Nat} (hpower : power ≤ 308) :
    BinaryFormat.binary64.ofLiteral (.finite false 1 power) = BinaryFormat.binary64.nearest (10 ^ power) 1 := by
  have hpoint : ((Nat.toDigits 10 1).length : Int) = 1 := rfl
  have hexponents : (power : Int).toNat = power ∧ (-(power : Int)).toNat = 0 := by omega
  have hone : tenPow 0 = 1 := rfl
  rw [BinaryFormat.ofLiteral, hpoint, hexponents.1, hexponents.2, if_neg, if_neg, BinaryFormat.withSign,
    if_neg Bool.false_ne_true, Nat.one_mul, hone]
  · rfl
  · omega
  · simp only [Bool.or_eq_true, decide_eq_true_eq]
    omega

-- `10 ^ 308` and `3 * 2 ^ 1022`, then `2 ^ 1024` and `10 ^ 309`, are compared as powers of short numbers
private theorem exists_lt_twoPow {power : Nat} (hpower : power ≤ 308) : ∃ top ≤ 1022, 10 ^ power < 3 * 2 ^ top := by
  obtain ⟨k, hk⟩ : ∃ k, k = 4 := ⟨4, rfl⟩
  have hshort : power ≤ 77 * k := by omega
  refine ⟨255 * k + 2, by omega, Nat.lt_of_le_of_lt (Nat.pow_le_pow_right (by decide) hshort) ?_⟩
  rw [Nat.pow_add, Nat.pow_mul, Nat.pow_mul, hk]
  decide

private theorem exists_lt_tenPow {top : Nat} (htop : top ≤ 970) :
    ∃ limit ≤ 309, (2 ^ 54 - 5) * 2 ^ top < 10 ^ limit := by
  obtain ⟨k, hk⟩ : ∃ k, k = 3 := ⟨3, rfl⟩
  have hshort : top ≤ 162 * (2 * k) := by omega
  refine ⟨103 * k, by omega, Nat.lt_of_le_of_lt (Nat.mul_le_mul_left _ (Nat.pow_le_pow_right (by decide) hshort)) ?_⟩
  rw [Nat.pow_mul 2, Nat.pow_mul 10, hk]
  decide

private theorem isNear_powerOfTen {power : Nat} (hpower : power ≤ 308) : IsNear (powerOfTen power) (10 ^ power) := by
  obtain ⟨top, htop, hlt⟩ := exists_lt_twoPow hpower
  rw [powerOfTen, doubleOfLiteral, ofLiteral_powerOfTen hpower]
  exact isNear_nearest (Nat.pow_pos (by decide)) htop hlt

/-- Whatever is far enough below the end of the doubles is scaled. -/
theorem isSome_scaled {n top : Nat} {power : Int} (hword : n ≤ maxWord) (htop : top ≤ 970)
    (hle : 0 ≤ power → n * 10 ^ power.toNat ≤ (2 ^ 54 - 5) * 2 ^ top) : (scaled n power).isSome := by
  have hpower : 0 < n → power ≤ 308 := by
    intro hn
    by_contra hmore
    obtain ⟨limit, hlimit, hlt⟩ := exists_lt_tenPow htop
    have hten : 10 ^ limit ≤ n * 10 ^ power.toNat :=
      Nat.le_trans (Nat.pow_le_pow_right (by decide) (by omega)) (Nat.le_mul_of_pos_left _ hn)
    exact Nat.not_lt.2 (Nat.le_trans hten (hle (by omega))) hlt
  unfold scaled
  dsimp only
  by_cases hn : n = 0
  · rw [if_pos hn]
    rfl
  · rw [if_neg hn, if_neg (by have := hpower (by omega); omega)]
    split
    · next hpos =>
      have hnear := isNear_whole (Nat.pos_of_ne_zero hn) hword
      have hten := @isNear_powerOfTen power.toNat (by have := hpower (by omega); omega)
      have hfinite := hnear.isInf_mul hten htop (hle hpos)
      rw [hfinite]
      rfl
    · split
      · rfl
      · split <;> rfl

end ScriptGraph.Json.Number
