import Mathlib.Algebra.Order.Field.Power
import Mathlib.Tactic.FieldSimp
import Mathlib.Tactic.Linarith
import Mathlib.Tactic.Positivity
import Mathlib.Tactic.Ring
import ScriptGraph.Decimal

/-!
# What digits are worth

`Literal.natOfDigits` is the inverse of writing a number in base ten, and it goes through lists of digits from left to
right (`natOfDigits_append`).  The digits that `BinaryFormat.shortest` finds for a binary number are proper, the first
one not zero, and they are worth no more than the greatest number that is rounded to it (`shortest_le`).
-/

namespace ScriptGraph

namespace Literal

theorem natOfDigits_eq (l : List Char) : natOfDigits l = Nat.ofDigitChars 10 l 0 := rfl

theorem natOfDigits_append (l m : List Char) :
    natOfDigits (l ++ m) = natOfDigits l * 10 ^ m.length + natOfDigits m := by
  rw [natOfDigits_eq, Nat.ofDigitChars_append, Nat.ofDigitChars_eq_ofDigitChars_zero]
  rw [natOfDigits_eq, natOfDigits_eq, Nat.mul_comm]

theorem natOfDigits_replicate (n : Nat) : natOfDigits (List.replicate n '0') = 0 := by
  rw [natOfDigits_eq, Nat.ofDigitChars_replicate_zero, Nat.mul_zero]

theorem natOfDigits_toDigits (n : Nat) : natOfDigits (Nat.toDigits 10 n) = n :=
  Nat.ofDigitChars_ten_toDigits

theorem natOfDigits_lt {l : List Char} (h : ∀ c ∈ l, c.isDigit = true) : natOfDigits l < 10 ^ l.length := by
  induction l using List.reverseRecOn with
  | nil => decide
  | append_singleton l c ih =>
    have hl := ih fun d hd => h d (List.mem_append_left _ hd)
    have hc : c.toNat ≤ 57 := (Char.isDigit_iff_toNat.1 (h c (by simp))).2
    have hlast : natOfDigits [c] = c.toNat - 48 := by simp [natOfDigits]
    rw [natOfDigits_append, hlast, List.length_append, Nat.pow_add, List.length_singleton]
    omega

end Literal

open Literal (natOfDigits natOfDigits_append natOfDigits_replicate natOfDigits_toDigits)

/-! ### Digits -/

/-- A positive number is written with its first digit not zero. -/
theorem exists_toDigits {n : Nat} (h : 0 < n) : ∃ c rest, Nat.toDigits 10 n = c :: rest ∧ c ≠ '0' := by
  induction n using Nat.strongRecOn with
  | ind n ih =>
    by_cases hn : n < 10
    · refine ⟨n.digitChar, [], Nat.toDigits_of_lt_base hn, ?_⟩
      rw [ne_eq, Nat.digitChar_eq_zero]
      omega
    · obtain ⟨c, rest, hrest, hc⟩ := ih (n / 10) (by omega) (by omega)
      refine ⟨c, rest ++ [(n % 10).digitChar], ?_, hc⟩
      rw [Nat.toDigits_of_base_le (by decide) (by omega), hrest, List.cons_append]

private theorem exists_replicate (l : List Char) :
    ∃ k, l = (l.reverse.dropWhile (· == '0')).reverse ++ List.replicate k '0' := by
  refine ⟨(l.reverse.takeWhile (· == '0')).length, ?_⟩
  have hzeros : l.reverse.takeWhile (· == '0') = List.replicate (l.reverse.takeWhile (· == '0')).length '0' := by
    rw [List.eq_replicate_iff]
    refine ⟨rfl, fun c hc => ?_⟩
    have hall := List.all_eq_true.1 (List.all_takeWhile (p := (· == '0')) (l := l.reverse)) c hc
    simpa using hall
  have hsplit := congrArg List.reverse (List.takeWhile_append_dropWhile (p := (· == '0')) (l := l.reverse))
  rw [List.reverse_append, List.reverse_reverse, hzeros, List.reverse_replicate] at hsplit
  exact hsplit.symm

namespace Digits

/-- The number that digits stand for. -/
def value (d : Digits) : ℚ := natOfDigits d.digits * 10 ^ (d.point - d.digits.length)

/-- There are digits, and the first one is not zero. -/
structure Proper (d : Digits) : Prop where
  digit : ∀ c ∈ d.digits, c.isDigit = true
  first : ∃ c rest, d.digits = c :: rest ∧ c ≠ '0'

theorem value_ofScaled (count : Nat) (power : Int) : (ofScaled count power).value = count * 10 ^ power := by
  obtain ⟨k, hk⟩ := exists_replicate (Nat.toDigits 10 count)
  have hcount := congrArg natOfDigits hk
  have hlength := congrArg List.length hk
  rw [natOfDigits_toDigits, natOfDigits_append, natOfDigits_replicate, List.length_replicate, Nat.add_zero] at hcount
  rw [List.length_append, List.length_replicate] at hlength
  rw [value, ofScaled]
  dsimp only
  generalize ((Nat.toDigits 10 count).reverse.dropWhile (· == '0')).reverse = digits at hcount hlength ⊢
  rw [hlength, hcount, Nat.cast_mul, Nat.cast_pow, Nat.cast_ofNat, mul_assoc, ← zpow_natCast,
    ← zpow_add₀ (by norm_num)]
  congr 2
  push_cast
  omega

theorem proper_ofScaled {count : Nat} (h : 0 < count) (power : Int) : (ofScaled count power).Proper := by
  obtain ⟨k, hk⟩ := exists_replicate (Nat.toDigits 10 count)
  obtain ⟨c, rest, hfirst, hc⟩ := exists_toDigits h
  constructor
  · intro d hd
    have hmem : d ∈ Nat.toDigits 10 count := hk ▸ List.mem_append_left _ hd
    exact Nat.isDigit_of_mem_toDigits (by decide) (by decide) hmem
  · rw [hfirst] at hk
    rw [ofScaled]
    dsimp only
    rw [hfirst]
    cases hdigits : ((c :: rest).reverse.dropWhile (· == '0')).reverse with
    | nil =>
      -- nothing but zeros does not write a positive number
      rw [hdigits, List.nil_append] at hk
      exact absurd (List.eq_of_mem_replicate (hk ▸ List.mem_cons_self)) hc
    | cons d digits =>
      rw [hdigits, List.cons_append, List.cons.injEq] at hk
      exact ⟨d, digits, rfl, hk.1 ▸ hc⟩

end Digits

/-! ### The shortest digits -/

/-- A power of an integer exponent, without the division. -/
private theorem pow_toNat {b : ℚ} (hb : b ≠ 0) (k : Int) : b ^ k.toNat = b ^ k * b ^ (-k).toNat := by
  rw [← zpow_natCast, ← zpow_natCast, ← zpow_add₀ hb]
  congr 1
  omega

private theorem cast_twoPow (n : Nat) : ((twoPow n : Nat) : ℚ) = 2 ^ n := by
  rw [show twoPow n = 2 ^ n from rfl, Nat.cast_pow, Nat.cast_ofNat]

private theorem cast_tenPow (n : Nat) : ((tenPow n : Nat) : ℚ) = 10 ^ n := by
  rw [show tenPow n = 10 ^ n from rfl, Nat.cast_pow, Nat.cast_ofNat]

namespace BinaryFormat

private theorem eq_of_tie {tie : Tie} {under above floor count : Nat}
    (h : (if under < above then some floor
      else if above < under then some (floor + 1)
      else match tie with
        | .up => some (floor + 1)
        | .even => some (if floor % 2 == 0 then floor else floor + 1)) = some count) :
    count = floor ∨ count = floor + 1 := by
  split at h
  · exact .inl (Option.some.inj h).symm
  · split at h
    · exact .inr (Option.some.inj h).symm
    · split at h
      · exact .inr (Option.some.inj h).symm
      · split at h
        · exact .inl (Option.some.inj h).symm
        · exact .inr (Option.some.inj h).symm

/-- What is found on a grid is positive and not beyond the numbers that read back. -/
theorem onGrid_le {f : BinaryFormat} {tie : Tie} {mantissa count : Nat} {exponent power : Int}
    (h : f.onGrid tie mantissa exponent power = some count) :
    0 < count ∧ (count : ℚ) * 10 ^ power ≤ (4 * mantissa + 2) * 2 ^ (exponent - 2) := by
  obtain ⟨hpos, hle⟩ : 0 < count ∧
      count * (twoPow (-(exponent - 2)).toNat * tenPow power.toNat) ≤
        (4 * mantissa + 2) * (twoPow (exponent - 2).toNat * tenPow (-power).toNat) := by
    have hinside : ∀ low scale y step high : Nat,
        (if mantissa % 2 == 0 then decide (low * scale ≤ y * step) && decide (y * step ≤ high * scale)
          else decide (low * scale < y * step) && decide (y * step < high * scale)) = true →
        y * step ≤ high * scale := by
      intro low scale y step high hy
      split at hy <;> simp only [Bool.and_eq_true, decide_eq_true_eq] at hy <;> omega
    unfold onGrid interval at h
    dsimp only at h
    split at h
    · next hfloor hnext =>
      obtain ⟨hin, hne⟩ := Bool.and_eq_true_iff.1 hfloor
      rcases eq_of_tie h with rfl | rfl
      · exact ⟨Nat.pos_of_ne_zero (bne_iff_ne.1 hne), hinside _ _ _ _ _ hin⟩
      · exact ⟨Nat.succ_pos _, hinside _ _ _ _ _ hnext⟩
    · next hfloor _ =>
      obtain ⟨hin, hne⟩ := Bool.and_eq_true_iff.1 hfloor
      rw [← Option.some.inj h]
      exact ⟨Nat.pos_of_ne_zero (bne_iff_ne.1 hne), hinside _ _ _ _ _ hin⟩
    · next _ hnext =>
      rw [← Option.some.inj h]
      exact ⟨Nat.succ_pos _, hinside _ _ _ _ _ hnext⟩
    · cases h
  refine ⟨hpos, ?_⟩
  have hle : (count : ℚ) * (2 ^ (-(exponent - 2)).toNat * 10 ^ power.toNat) ≤
      (4 * mantissa + 2) * (2 ^ (exponent - 2).toNat * 10 ^ (-power).toNat) := by
    have hcast : ((count * (twoPow (-(exponent - 2)).toNat * tenPow power.toNat) : Nat) : ℚ) ≤
        ((4 * mantissa + 2) * (twoPow (exponent - 2).toNat * tenPow (-power).toNat) : Nat) := Nat.cast_le.2 hle
    push_cast [cast_twoPow, cast_tenPow] at hcast
    exact hcast
  rw [pow_toNat (by norm_num) power, pow_toNat (by norm_num) (exponent - 2)] at hle
  refine le_of_mul_le_mul_right ?_ (show (0 : ℚ) < 2 ^ (-(exponent - 2)).toNat * 10 ^ (-power).toNat by positivity)
  calc (count : ℚ) * 10 ^ power * (2 ^ (-(exponent - 2)).toNat * 10 ^ (-power).toNat)
      = count * (2 ^ (-(exponent - 2)).toNat * (10 ^ power * 10 ^ (-power).toNat)) := by ring
    _ ≤ (4 * mantissa + 2) * (2 ^ (exponent - 2) * 2 ^ (-(exponent - 2)).toNat * 10 ^ (-power).toNat) := hle
    _ = (4 * mantissa + 2) * 2 ^ (exponent - 2) * (2 ^ (-(exponent - 2)).toNat * 10 ^ (-power).toNat) := by ring

private theorem shortestFrom_le {f : BinaryFormat} {tie : Tie} {mantissa : Nat} {exponent power : Int} {limit : ℚ}
    (hpos : 0 < mantissa) (hgrid : (4 * mantissa + 2) * 2 ^ (exponent - 2) ≤ limit)
    (hwhole : (mantissa : ℚ) * 2 ^ exponent.toNat ≤ limit) (tries : Nat) :
    (f.shortestFrom tie mantissa exponent power tries).Proper ∧
      (f.shortestFrom tie mantissa exponent power tries).value ≤ limit := by
  induction tries generalizing power with
  | zero =>
    rw [shortestFrom]
    refine ⟨Digits.proper_ofScaled (Nat.mul_pos hpos (Nat.two_pow_pos _)) _, ?_⟩
    rw [Digits.value_ofScaled, zpow_zero, mul_one, Nat.cast_mul, cast_twoPow]
    exact hwhole
  | succ tries ih =>
    rw [shortestFrom]
    split
    · next count hcount =>
      obtain ⟨hcountPos, hle⟩ := onGrid_le hcount
      refine ⟨Digits.proper_ofScaled hcountPos _, ?_⟩
      rw [Digits.value_ofScaled]
      exact hle.trans hgrid
    · exact ih

/-- The shortest digits are proper, and they are not worth more than the numbers that read back. -/
theorem shortest_le {f : BinaryFormat} {tie : Tie} {mantissa : Nat} {exponent : Int} {limit : ℚ}
    (hpos : 0 < mantissa) (hgrid : (4 * mantissa + 2) * 2 ^ (exponent - 2) ≤ limit)
    (hwhole : (mantissa : ℚ) * 2 ^ exponent.toNat ≤ limit) :
    (f.shortest tie mantissa exponent).Proper ∧ (f.shortest tie mantissa exponent).value ≤ limit :=
  shortestFrom_le hpos hgrid hwhole 18

end BinaryFormat

/-! ### Doubles -/

/-- The mantissas and exponents of finite doubles. -/
theorem BinaryFormat.decode_binary64 {bits mantissa : Nat} {negative : Bool} {exponent : Int}
    (h : binary64.decode bits = .finite negative mantissa exponent) : mantissa < 2 ^ 53 ∧ exponent ≤ 971 := by
  have hsign : binary64.signBit = 2048 * 2 ^ 52 := rfl
  have hinfinity : binary64.infinityBits = 2047 * 2 ^ 52 := rfl
  have hfraction : twoPow binary64.fractionBits = 2 ^ 52 := rfl
  have hlowest : binary64.lowest = -1074 := rfl
  have hmagnitude := Nat.mod_lt bits (show 0 < binary64.signBit by rw [hsign]; decide)
  unfold decode at h
  dsimp only at h
  rw [hinfinity, hfraction, hlowest] at h
  split at h
  · cases h
  · split at h
    · cases h
    · split at h
      · obtain ⟨-, rfl, rfl⟩ := BinaryValue.finite.inj h
        omega
      · obtain ⟨-, rfl, rfl⟩ := BinaryValue.finite.inj h
        omega

/-- The numbers that are rounded to a double other than the last two. -/
private theorem grid_le {mantissa top : Nat} {exponent : Int} (htop : top = 970) (hmantissa : mantissa < 2 ^ 53)
    (hexponent : exponent ≤ 971) (hlast : exponent = 971 → mantissa + 2 < 2 ^ 53) :
    ((4 * mantissa + 2 : Nat) : ℚ) * 2 ^ (exponent - 2) ≤ (2 ^ 54 - 5) * 2 ^ top := by
  by_cases hbelow : exponent ≤ 970
  · have hpower : (2 : ℚ) ^ (exponent - 2) ≤ 2 ^ (top - 2 : Int) := zpow_le_zpow_right₀ (by norm_num) (by omega)
    have hsplit : (2 : ℚ) ^ top = 2 ^ (top - 2 : Int) * 2 ^ (2 : Int) := by
      rw [← zpow_natCast, ← zpow_add₀ (by norm_num), sub_add_cancel]
    have hcount : ((4 * mantissa + 2 : Nat) : ℚ) ≤ (2 ^ 55 - 2 : Nat) := Nat.cast_le.2 (by omega)
    have hpos : (0 : ℚ) < 2 ^ (top - 2 : Int) := by positivity
    calc ((4 * mantissa + 2 : Nat) : ℚ) * 2 ^ (exponent - 2) ≤ (2 ^ 55 - 2 : Nat) * 2 ^ (top - 2 : Int) := by gcongr
      _ ≤ (2 ^ 54 - 5) * 2 ^ top := by
        rw [hsplit]
        norm_num
        linarith
  · have hsplit : (2 : ℚ) ^ top = 2 ^ (exponent - 2) * 2 := by
      rw [← zpow_natCast, ← zpow_add_one₀ (by norm_num)]
      congr 1
      omega
    have hcount : ((4 * mantissa + 2 : Nat) : ℚ) ≤ (2 ^ 55 - 10 : Nat) := by
      have := hlast (by omega)
      exact Nat.cast_le.2 (by omega)
    have hpos : (0 : ℚ) < 2 ^ (exponent - 2) := by positivity
    rw [hsplit]
    calc ((4 * mantissa + 2 : Nat) : ℚ) * 2 ^ (exponent - 2) ≤ (2 ^ 55 - 10 : Nat) * 2 ^ (exponent - 2) := by gcongr
      _ = (2 ^ 54 - 5) * (2 ^ (exponent - 2) * 2) := by
        norm_num
        ring

/-- Only the last two doubles come so close to the end that they may be read as more. -/
theorem BinaryFormat.shortest_le_of_ne_last {tie : Tie} {mantissa : Nat} {exponent : Int}
    (hpos : 0 < mantissa) (hmantissa : mantissa < 2 ^ 53) (hexponent : exponent ≤ 971)
    (hlast : exponent = 971 → mantissa + 2 < 2 ^ 53) :
    ∃ top ≤ 970, (binary64.shortest tie mantissa exponent).Proper ∧
      (binary64.shortest tie mantissa exponent).value ≤ (2 ^ 54 - 5) * 2 ^ top := by
  obtain ⟨top, htop⟩ : ∃ top, top = 970 := ⟨970, rfl⟩
  have hgrid := grid_le htop hmantissa hexponent hlast
  rw [Nat.cast_add, Nat.cast_mul] at hgrid
  refine ⟨top, Nat.le_of_eq htop, shortest_le hpos hgrid ?_⟩
  by_cases hsign : 0 ≤ exponent
  · refine le_trans ?_ hgrid
    have hsplit : (2 : ℚ) ^ exponent.toNat = 2 ^ (exponent - 2) * 2 ^ (2 : Int) := by
      rw [← zpow_natCast, ← zpow_add₀ (by norm_num), sub_add_cancel, Int.toNat_of_nonneg hsign]
    have hunit : (0 : ℚ) < 2 ^ (exponent - 2) := by positivity
    rw [hsplit]
    norm_num
    linarith
  · have hone : (1 : ℚ) ≤ 2 ^ top := one_le_pow₀ (by norm_num)
    have hcount : (mantissa : ℚ) ≤ 2 ^ 53 := by exact_mod_cast Nat.le_of_lt hmantissa
    rw [Int.toNat_of_nonpos (by omega), pow_zero, mul_one]
    linarith

end ScriptGraph
