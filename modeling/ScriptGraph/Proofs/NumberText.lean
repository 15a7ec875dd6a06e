import ScriptGraph.Proofs.DecimalDigits
import ScriptGraph.Proofs.NumberScale

/-!
# Written numbers are read

A number is written as digits, a fraction and an exponent, of which the last two may be missing, and `unsigned?` cuts
such a text into these parts again (`unsigned?_chars`).  `Written` says so of a text together with what its digits are
worth: every way of laying out digits keeps their worth (`written_positional`, `written_exponential`), and what is
worth little enough is read (`Written.isSome_unsigned?`).  The two largest doubles are read as well, by computation.
-/

namespace ScriptGraph.Json.Number

open Literal (natOfDigits natOfDigits_append natOfDigits_toDigits natOfDigits_replicate natOfDigits_lt)

/-! ### Cutting a text into its parts -/

private theorem digits?_append {run rest : List Char} (hne : run ≠ []) (hrun : ∀ c ∈ run, c.isDigit = true)
    (hrest : ∀ c ∈ rest.head?, c.isDigit = false) : digits? (run ++ rest) = some (run, rest) := by
  have htake : (run ++ rest).takeWhile Char.isDigit = run := by
    rw [List.takeWhile_append_of_pos hrun]
    cases rest with
    | nil => simp
    | cons c rest => rw [List.takeWhile_cons_of_neg (by simp [hrest c rfl]), List.append_nil]
  have hdrop : (run ++ rest).dropWhile Char.isDigit = rest := by
    rw [List.dropWhile_append_of_pos hrun]
    cases rest with
    | nil => rfl
    | cons c rest => rw [List.dropWhile_cons_of_neg (by simp [hrest c rfl])]
  rw [digits?, htake, hdrop]
  simp [hne]

/-- A point and the digits after it. -/
def fractionChars : Option (List Char) → List Char
  | none => []
  | some run => '.' :: run

/-- A mark and the signed digits after it. -/
def exponentChars : Option Int → List Char
  | none => []
  | some e => 'e' :: (if e < 0 then '-' else '+') :: Nat.toDigits 10 e.natAbs

private theorem exponent?_exponentChars (exponent : Option Int) :
    exponent? (exponentChars exponent) = some exponent := by
  cases exponent with
  | none => rfl
  | some e =>
    have hdigits : digits? (Nat.toDigits 10 e.natAbs) = some (Nat.toDigits 10 e.natAbs, []) := by
      have := @digits?_append (Nat.toDigits 10 e.natAbs) [] Nat.toDigits_ne_nil
        (fun c hc => Nat.isDigit_of_mem_toDigits (by decide) (by decide) hc) (by simp)
      rwa [List.append_nil] at this
    by_cases he : e < 0
    · rw [exponentChars, if_pos he, exponent?]
      simp only [beq_self_eq_true, Bool.true_or, if_true, Literal.takeSign, hdigits, natOfDigits_toDigits]
      congr 2
      omega
    · rw [exponentChars, if_neg he, exponent?]
      simp only [beq_self_eq_true, Bool.true_or, if_true, Literal.takeSign, hdigits, natOfDigits_toDigits,
        Bool.false_eq_true, if_false]
      congr 2
      omega

private theorem head?_exponentChars (exponent : Option Int) :
    ∀ c ∈ (exponentChars exponent).head?, c.isDigit = false ∧ c ≠ '.' := by
  cases exponent <;> simp [exponentChars]

private theorem fraction?_append {fraction : Option (List Char)} {rest : List Char}
    (hfraction : ∀ run ∈ fraction, run ≠ [] ∧ ∀ c ∈ run, c.isDigit = true)
    (hrest : ∀ c ∈ rest.head?, c.isDigit = false ∧ c ≠ '.') :
    fraction? (fractionChars fraction ++ rest) = some (fraction, rest) := by
  cases fraction with
  | none =>
    rw [fractionChars, List.nil_append]
    cases rest with
    | nil => rfl
    | cons c rest =>
      have hc := (hrest c rfl).2
      rw [fraction?]
      intro _ h
      exact hc (List.cons.inj h).1
  | some run =>
    obtain ⟨hne, hrun⟩ := hfraction run rfl
    rw [fractionChars, List.cons_append, fraction?, digits?_append hne hrun fun c hc => (hrest c hc).1]
    rfl

/-- Digits, without a zero before others, and the digits after a point and of an exponent, if there are any. -/
structure Parts where
  whole : List Char
  fraction : Option (List Char)
  exponent : Option Int
  ne_nil : whole ≠ []
  isDigit_whole : ∀ c ∈ whole, c.isDigit = true
  length_of_zero : whole.head? = some '0' → whole.length = 1
  isDigit_fraction : ∀ run ∈ fraction, run ≠ [] ∧ ∀ c ∈ run, c.isDigit = true

/-- The text of some parts. -/
def Parts.chars (p : Parts) : List Char := p.whole ++ (fractionChars p.fraction ++ exponentChars p.exponent)

/-- What the digits of some parts are worth. -/
def Parts.value (p : Parts) : ℚ :=
  natOfDigits (p.whole ++ p.fraction.getD []) * 10 ^ (p.exponent.getD 0 - (p.fraction.getD []).length)

/-- A text of parts is cut into them. -/
theorem unsigned?_chars (negative : Bool) (p : Parts) :
    unsigned? negative p.chars = ofParts negative p.whole p.fraction p.exponent := by
  have hhead : ∀ c ∈ (fractionChars p.fraction ++ exponentChars p.exponent).head?, c.isDigit = false := by
    cases p.fraction with
    | none => exact fun c hc => (head?_exponentChars p.exponent c hc).1
    | some run =>
      intro c hc
      rw [← Option.some.inj hc]
      decide
  have hplain : ¬(p.whole.head? == some '0' && decide (1 < p.whole.length)) = true := by
    simp only [Bool.and_eq_true, beq_iff_eq, decide_eq_true_eq]
    rintro ⟨hfirst, hlong⟩
    have := p.length_of_zero hfirst
    omega
  rw [Parts.chars, unsigned?, digits?_append p.ne_nil p.isDigit_whole hhead]
  simp only [Option.bind_some]
  rw [if_neg hplain, fraction?_append p.isDigit_fraction (head?_exponentChars p.exponent), Option.bind_some,
    exponent?_exponentChars, Option.bind_some]

/-! ### The first digits -/

private theorem takeWhole_eq {l : List Char} {n : Nat} (h : n * 10 ^ l.length + natOfDigits l ≤ maxWord) :
    takeWhole n l = (n * 10 ^ l.length + natOfDigits l, 0) := by
  induction l generalizing n with
  | nil => simp [takeWhole, natOfDigits]
  | cons c l ih =>
    have hsplit : natOfDigits (c :: l) = (c.toNat - 48) * 10 ^ l.length + natOfDigits l := by
      rw [← List.singleton_append, natOfDigits_append]
      simp [natOfDigits]
    have hnext : n * 10 ^ (c :: l).length + natOfDigits (c :: l) =
        (10 * n + (c.toNat - 48)) * 10 ^ l.length + natOfDigits l := by
      rw [hsplit, List.length_cons]
      ring
    rw [hnext] at h ⊢
    have hle : 10 * n + (c.toNat - 48) ≤ maxWord :=
      Nat.le_trans (Nat.le_mul_of_pos_right _ (Nat.pow_pos (by decide))) (Nat.le_trans (Nat.le_add_right _ _) h)
    rw [takeWhole, if_pos hle, ih h]

/-- The digits that are taken are worth no more than all of them. -/
private theorem takeFraction_le (l : List Char) {n : Nat} (h : n ≤ maxWord) :
    (takeFraction n l).1 ≤ maxWord ∧ (takeFraction n l).2 ≤ l.length ∧
      (takeFraction n l).1 * 10 ^ (l.length - (takeFraction n l).2) ≤ n * 10 ^ l.length + natOfDigits l := by
  induction l generalizing n with
  | nil => exact ⟨h, Nat.le_refl _, Nat.le_add_right _ _⟩
  | cons c l ih =>
    rw [takeFraction]
    dsimp only
    split
    · next hnext =>
      obtain ⟨hword, hlength, hle⟩ := ih hnext
      have hsplit : natOfDigits (c :: l) = (c.toNat - 48) * 10 ^ l.length + natOfDigits l := by
        rw [← List.singleton_append, natOfDigits_append]
        simp [natOfDigits]
      refine ⟨hword, Nat.succ_le_succ hlength, ?_⟩
      rw [hsplit, List.length_cons, Nat.add_sub_add_right]
      refine Nat.le_trans hle (Nat.le_of_eq ?_)
      ring
    · exact ⟨h, Nat.zero_le _, Nat.le_add_right _ _⟩

/-- Parts that are worth little enough are read. -/
theorem Parts.isSome_unsigned? {p : Parts} {top : Nat} (htop : top ≤ 970) (hwhole : natOfDigits p.whole ≤ maxWord)
    (hle : p.value ≤ (2 ^ 54 - 5) * 2 ^ top) (negative : Bool) : (unsigned? negative p.chars).isSome := by
  have htake : takeWhole 0 p.whole = (natOfDigits p.whole, 0) := by
    have := @takeWhole_eq p.whole 0 (by rwa [Nat.zero_mul, Nat.zero_add])
    rwa [Nat.zero_mul, Nat.zero_add] at this
  obtain ⟨hword, hlength, hfirst⟩ := takeFraction_le (p.fraction.getD []) hwhole
  have hscaled : (scaled (takeFraction (natOfDigits p.whole) (p.fraction.getD [])).1
      ((0 : Nat) - ((takeFraction (natOfDigits p.whole) (p.fraction.getD [])).2 : Int) +
        p.exponent.getD 0)).isSome := by
    rw [Parts.value, natOfDigits_append] at hle
    generalize p.fraction.getD [] = digits at *
    generalize takeFraction (natOfDigits p.whole) digits = taken at *
    generalize p.exponent.getD 0 = e at *
    refine isSome_scaled hword htop fun hpower => ?_
    have hsplit : (10 : ℚ) ^ (((0 : Nat) : Int) - taken.2 + e).toNat =
        10 ^ (digits.length - taken.2) * 10 ^ (e - digits.length) := by
      rw [← zpow_natCast, ← zpow_natCast, ← zpow_add₀ (by norm_num)]
      congr 1
      omega
    have hfirst : (taken.1 : ℚ) * 10 ^ (digits.length - taken.2) ≤
        (natOfDigits p.whole * 10 ^ digits.length + natOfDigits digits : Nat) := by exact_mod_cast hfirst
    have hpos : (0 : ℚ) < 10 ^ (e - digits.length) := by positivity
    have hlimit : (taken.1 : ℚ) * 10 ^ (((0 : Nat) : Int) - taken.2 + e).toNat ≤ (2 ^ 54 - 5) * 2 ^ top := by
      rw [hsplit, ← mul_assoc]
      exact (mul_le_mul_of_nonneg_right hfirst hpos.le).trans hle
    have hcast : (((2 ^ 54 - 5) * 2 ^ top : Nat) : ℚ) = (2 ^ 54 - 5) * 2 ^ top := by
      rw [Nat.cast_mul, Nat.cast_sub (by decide)]
      push_cast
      rfl
    rw [← hcast] at hlimit
    exact_mod_cast hlimit
  rw [unsigned?_chars]
  unfold ofParts
  dsimp only
  split
  · rfl
  · split
    · rfl
    · rw [htake]
      dsimp only
      rw [Option.isSome_map]
      exact hscaled

/-! ### Layouts -/

/-- A text with parts that are worth `value`, of which the first fits into a word. -/
def Written (text : List Char) (value : ℚ) : Prop :=
  ∃ p : Parts, text = p.chars ∧ natOfDigits p.whole ≤ maxWord ∧ p.value = value

theorem written_toDigits {n : Nat} (h : n ≤ maxWord) : Written (Nat.toDigits 10 n) n := by
  refine ⟨⟨Nat.toDigits 10 n, none, none, Nat.toDigits_ne_nil,
    fun c hc => Nat.isDigit_of_mem_toDigits (by decide) (by decide) hc, ?_, by simp⟩, ?_, ?_, ?_⟩
  · intro hzero
    rcases Nat.eq_zero_or_pos n with rfl | hpos
    · rfl
    · obtain ⟨c, rest, hdigits, hc⟩ := exists_toDigits hpos
      rw [hdigits, List.head?_cons] at hzero
      exact absurd (Option.some.inj hzero) hc
  · simp [Parts.chars, fractionChars, exponentChars]
  · rwa [natOfDigits_toDigits]
  · simp [Parts.value, natOfDigits_toDigits]

private theorem isDigit_zero : ∀ c ∈ ['0'], c.isDigit = true := by simp

private theorem le_maxWord {l : List Char} (hl : ∀ c ∈ l, c.isDigit = true) (hlength : l.length ≤ 16) :
    natOfDigits l ≤ maxWord := by
  have hlt := natOfDigits_lt hl
  have hpower : 10 ^ l.length ≤ 10 ^ 16 := Nat.pow_le_pow_right (by decide) hlength
  have hword : 10 ^ 16 ≤ maxWord := by decide
  omega

section Positional

variable {d : Digits}

/-- Below one: a zero, the point and zeros before the digits. -/
private theorem written_below_one (h : d.Proper) (hpoint : d.point ≤ 0) :
    Written ('0' :: '.' :: (List.replicate (-d.point).toNat '0' ++ d.digits)) d.value := by
  obtain ⟨c, rest, hdigits, -⟩ := h.first
  have hword : natOfDigits ['0'] ≤ maxWord := by decide
  have hzeros : '0' :: (List.replicate (-d.point).toNat '0' ++ d.digits) =
      List.replicate ((-d.point).toNat + 1) '0' ++ d.digits := rfl
  refine ⟨⟨['0'], some (List.replicate (-d.point).toNat '0' ++ d.digits), none, by simp, isDigit_zero,
    fun _ => rfl, ?_⟩, ?_, hword, ?_⟩
  · intro run hrun
    obtain rfl := Option.some.inj hrun
    refine ⟨by simp [hdigits], fun e he => ?_⟩
    rcases List.mem_append.1 he with he | he
    · rw [List.eq_of_mem_replicate he]
      decide
    · exact h.digit e he
  · simp [Parts.chars, fractionChars, exponentChars]
  · rw [Parts.value, Digits.value]
    simp only [Option.getD_some, Option.getD_none, List.singleton_append]
    rw [hzeros, natOfDigits_append, natOfDigits_replicate, Nat.zero_mul, Nat.zero_add, List.length_append,
      List.length_replicate]
    congr 2
    omega

/-- A whole number: the digits, zeros up to the point and a zero after it. -/
private theorem written_whole (h : d.Proper) (hwhole : d.digits.length ≤ d.point.toNat) (hpoint : d.point ≤ 16) :
    Written (d.digits ++ List.replicate (d.point.toNat - d.digits.length) '0' ++ ['.', '0']) d.value := by
  obtain ⟨c, rest, hdigits, hc⟩ := h.first
  have hdigit : ∀ e ∈ d.digits ++ List.replicate (d.point.toNat - d.digits.length) '0', e.isDigit = true := by
    intro e he
    rcases List.mem_append.1 he with he | he
    · exact h.digit e he
    · rw [List.eq_of_mem_replicate he]
      decide
  have hlength : 0 < d.digits.length := by simp [hdigits]
  refine ⟨⟨d.digits ++ List.replicate (d.point.toNat - d.digits.length) '0', some ['0'], none, by simp [hdigits],
    hdigit, ?_, ?_⟩, ?_, ?_, ?_⟩
  · rw [hdigits]
    exact fun hzero => absurd (Option.some.inj hzero) hc
  · intro run hrun
    obtain rfl := Option.some.inj hrun
    exact ⟨by simp, isDigit_zero⟩
  · simp [Parts.chars, fractionChars, exponentChars]
  · refine le_maxWord hdigit ?_
    rw [List.length_append, List.length_replicate]
    omega
  · have hlast : natOfDigits ['0'] = 0 := rfl
    rw [Parts.value, Digits.value]
    simp only [Option.getD_some, Option.getD_none]
    rw [natOfDigits_append, natOfDigits_append, natOfDigits_replicate, List.length_replicate, hlast, Nat.add_zero,
      Nat.add_zero, List.length_singleton]
    push_cast
    rw [mul_assoc, mul_assoc, ← zpow_natCast, ← zpow_one_add₀ (by norm_num), add_neg_cancel, zpow_zero, mul_one]
    congr 2
    omega

/-- The point stands among the digits. -/
private theorem written_among (h : d.Proper) (hpos : 0 < d.point) (hamong : d.point.toNat < d.digits.length)
    (hpoint : d.point ≤ 16) :
    Written (d.digits.take d.point.toNat ++ '.' :: d.digits.drop d.point.toNat) d.value := by
  obtain ⟨c, rest, hdigits, hc⟩ := h.first
  have hjoin : d.digits.take d.point.toNat ++ d.digits.drop d.point.toNat = d.digits := List.take_append_drop ..
  have hdigit : ∀ e ∈ d.digits.take d.point.toNat, e.isDigit = true :=
    fun e he => h.digit e (List.mem_of_mem_take he)
  refine ⟨⟨d.digits.take d.point.toNat, some (d.digits.drop d.point.toNat), none, ?_, hdigit, ?_, ?_⟩, ?_, ?_, ?_⟩
  · rw [ne_eq, List.take_eq_nil_iff]
    rintro (hzero | hnil)
    · omega
    · simp [hnil] at hdigits
  · rw [List.head?_take, if_neg (by omega), hdigits]
    exact fun hzero => absurd (Option.some.inj hzero) hc
  · intro run hrun
    obtain rfl := Option.some.inj hrun
    exact ⟨by rw [ne_eq, List.drop_eq_nil_iff]; omega, fun e he => h.digit e (List.mem_of_mem_drop he)⟩
  · simp [Parts.chars, fractionChars, exponentChars]
  · refine le_maxWord hdigit ?_
    rw [List.length_take]
    omega
  · rw [Parts.value, Digits.value]
    simp only [Option.getD_some, Option.getD_none]
    rw [hjoin, List.length_drop]
    congr 2
    omega

/-- The positional form of a number whose point lies not too far to the right, with `.0` after a whole one. -/
theorem written_positional (h : d.Proper) (hpoint : d.point ≤ 16) :
    Written (d.positional ++ (if d.digits.length ≤ d.point.toNat && 0 < d.point then ".0" else "")).toList
      d.value := by
  by_cases hbelow : d.point ≤ 0
  · have hnot : ¬0 < d.point := by omega
    have htext := written_below_one h hbelow
    simpa [Digits.positional, hbelow, hnot] using htext
  · have hpos : 0 < d.point := by omega
    by_cases hwhole : d.digits.length ≤ d.point.toNat
    · have htext := written_whole h hwhole hpoint
      simpa [Digits.positional, hbelow, hpos, hwhole] using htext
    · have htext := written_among h hpos (Nat.not_le.1 hwhole) hpoint
      simpa [Digits.positional, hbelow, hwhole] using htext

end Positional

/-- The form with an exponent. -/
theorem written_exponential {d : Digits} (h : d.Proper) : Written d.exponential.toList d.value := by
  obtain ⟨c, rest, hdigits, hc⟩ := h.first
  have hdigit : c.isDigit = true := h.digit c (by simp [hdigits])
  have hword : natOfDigits [c] ≤ maxWord := le_maxWord (by simpa using hdigit) (Nat.le_of_lt (by simp))
  have hexponent : (if d.point - 1 < 0 then "-" else "+").toList ++ (toString (d.point - 1).natAbs).toList =
      (if d.point - 1 < 0 then '-' else '+') :: Nat.toDigits 10 (d.point - 1).natAbs := by
    have hdigits : (toString (d.point - 1).natAbs).toList = Nat.toDigits 10 (d.point - 1).natAbs := Nat.toList_repr
    rw [hdigits]
    split <;> rfl
  cases rest with
  | nil =>
    refine ⟨⟨[c], none, some (d.point - 1), by simp, by simpa using hdigit, fun _ => rfl, by simp⟩, ?_,
      hword, ?_⟩
    · simp only [Parts.chars, fractionChars, exponentChars, Digits.exponential, hdigits, String.toList_append,
        List.append_assoc, hexponent]
      simp
    · rw [Parts.value, Digits.value, hdigits]
      simp
  | cons e rest =>
    refine ⟨⟨[c], some (e :: rest), some (d.point - 1), by simp, by simpa using hdigit, fun _ => rfl, ?_⟩, ?_,
      hword, ?_⟩
    · intro run hrun
      obtain rfl := Option.some.inj hrun
      exact ⟨by simp, fun f hf => h.digit f (by rw [hdigits]; exact List.mem_cons_of_mem _ hf)⟩
    · simp only [Parts.chars, fractionChars, exponentChars, Digits.exponential, hdigits, String.toList_append,
        List.append_assoc, hexponent]
      simp
    · simp only [Parts.value, Digits.value, hdigits, Option.getD_some, List.singleton_append]
      congr 2
      simp only [List.length_cons]
      omega

/-! ### Numbers -/

/-- The numbers of a document: an integer that fits into 64 bits, with or without a sign, or a finite double. -/
def Valid : Number → Prop
  | .int value => -2 ^ 63 ≤ value ∧ value < 2 ^ 64
  | .double value => value.isFinite = true

private theorem written_zero : Written "0.0".toList 0 := by
  have hword : natOfDigits ['0'] ≤ maxWord := by decide
  refine ⟨⟨['0'], some ['0'], none, by simp, isDigit_zero, fun _ => rfl, ?_⟩, rfl, hword, ?_⟩
  · intro run hrun
    obtain rfl := Option.some.inj hrun
    exact ⟨by simp, isDigit_zero⟩
  · have hzero : natOfDigits ['0', '0'] = 0 := rfl
    simp [Parts.value, hzero]

private theorem isSome_last : ∀ negative : Bool, ∀ less ∈ [1, 2],
    (unsigned? negative (doubleStyle.magnitude .binary64 (2 ^ 53 - less) 971).toList).isSome := by
  decide +kernel

private theorem Written.isSome_unsigned? {text : List Char} {value : ℚ} {top : Nat} (h : Written text value)
    (htop : top ≤ 970) (hle : value ≤ (2 ^ 54 - 5) * 2 ^ top) (negative : Bool) :
    (unsigned? negative text).isSome := by
  obtain ⟨p, rfl, hword, rfl⟩ := h
  exact p.isSome_unsigned? htop hword hle negative

/-- The digits of a double are laid out without a change of what they are worth. -/
private theorem written_magnitude {mantissa : Nat} {exponent : Int} (hpos : mantissa ≠ 0)
    (h : (BinaryFormat.binary64.shortest doubleStyle.tie mantissa exponent).Proper) :
    Written (doubleStyle.magnitude .binary64 mantissa exponent).toList
      (BinaryFormat.binary64.shortest doubleStyle.tie mantissa exponent).value := by
  unfold NumberStyle.magnitude
  rw [if_neg hpos]
  generalize BinaryFormat.binary64.shortest doubleStyle.tie mantissa exponent = d at h ⊢
  by_cases hrange : (doubleStyle.lowest.all (· ≤ d.point) && doubleStyle.highest.all (d.point ≤ ·)) = true
  · rw [if_pos hrange]
    simp only [doubleStyle, Option.all_some, Bool.and_eq_true, decide_eq_true_eq] at hrange
    exact written_positional h hrange.2
  · rw [if_neg hrange]
    exact written_exponential h

/-- The written form of a finite double, without its sign, is read. -/
private theorem isSome_magnitude (negative : Bool) {mantissa : Nat} {exponent : Int} (hmantissa : mantissa < 2 ^ 53)
    (hexponent : exponent ≤ 971) :
    (unsigned? negative (doubleStyle.magnitude .binary64 mantissa exponent).toList).isSome := by
  by_cases hzero : mantissa = 0
  · rw [NumberStyle.magnitude, if_pos hzero]
    refine written_zero.isSome_unsigned? (Nat.zero_le 970) ?_ negative
    norm_num
  · by_cases hlast : exponent = 971 ∧ 2 ^ 53 ≤ mantissa + 2
    · have hless : mantissa = 2 ^ 53 - 1 ∨ mantissa = 2 ^ 53 - 2 := by omega
      rw [hlast.1]
      rcases hless with rfl | rfl
      · exact isSome_last negative 1 (by decide)
      · exact isSome_last negative 2 (by decide)
    · obtain ⟨top, htop, hproper, hle⟩ := @BinaryFormat.shortest_le_of_ne_last doubleStyle.tie mantissa exponent
        (Nat.pos_of_ne_zero hzero) hmantissa hexponent (by omega)
      exact (written_magnitude hzero hproper).isSome_unsigned? htop hle negative

private theorem ofChars?_of_ne {text : List Char} (h : ∀ rest, text ≠ '-' :: rest) :
    ofChars? text = unsigned? false text := by
  unfold ofChars?
  split
  · exact absurd rfl (h _)
  · rfl

private theorem ne_minus_of_isSome {text rest : List Char} (h : (unsigned? false text).isSome) :
    text ≠ '-' :: rest := by
  rintro rfl
  simp [unsigned?, digits?] at h

private theorem isSome_ofChars? {negative : Bool} {text : List Char} (h : (unsigned? negative text).isSome) :
    (ofChars? (if negative then '-' :: text else text)).isSome := by
  cases negative with
  | true => exact h
  | false =>
    rw [if_neg Bool.false_ne_true, ofChars?_of_ne fun rest => ne_minus_of_isSome h]
    exact h

private theorem isSome_toDigits (negative : Bool) {n : Nat} (h : n ≤ maxWord) :
    (unsigned? negative (Nat.toDigits 10 n)).isSome := by
  refine (written_toDigits h).isSome_unsigned? (show 60 ≤ 970 by decide) ?_ negative
  have hcast : (n : ℚ) ≤ (2 ^ 64 - 1 : Nat) := Nat.cast_le.2 h
  norm_num at hcast ⊢
  linarith

/-- Every written number is read. -/
theorem exists_ofChars?_text {n : Number} (h : n.Valid) : ∃ n', ofChars? n.text.toList = some n' := by
  rw [← Option.isSome_iff_exists]
  cases n with
  | int value =>
    obtain ⟨hlow, hhigh⟩ := h
    have hword : value.natAbs ≤ maxWord := by
      rw [show maxWord = 2 ^ 64 - 1 from rfl]
      omega
    have htext : (text (.int value)).toList =
        if decide (value < 0) then '-' :: Nat.toDigits 10 value.natAbs else Nat.toDigits 10 value.natAbs := by
      rw [text, show toString value = value.repr from rfl, Int.repr_eq_if]
      by_cases hsign : value < 0
      · rw [if_neg (by omega), if_pos (by simpa using hsign), String.toList_append, Nat.toList_repr,
          show (-value).toNat = value.natAbs by omega]
        rfl
      · rw [if_pos (by omega), if_neg (by simpa using hsign), Nat.toList_repr]
        congr 1
        omega
    rw [htext]
    exact isSome_ofChars? (isSome_toDigits _ hword)
  | double value =>
    obtain ⟨negative, mantissa, exponent, hvalue⟩ := valueOfDouble_of_isFinite h
    obtain ⟨hmantissa, hexponent⟩ := BinaryFormat.decode_binary64 hvalue
    have htext : (text (.double value)).toList =
        if negative then '-' :: (doubleStyle.magnitude .binary64 mantissa exponent).toList
        else (doubleStyle.magnitude .binary64 mantissa exponent).toList := by
      rw [text, hvalue, NumberStyle.text, String.toList_append]
      cases negative <;> rfl
    rw [htext]
    exact isSome_ofChars? (isSome_magnitude negative hmantissa hexponent)

end ScriptGraph.Json.Number
