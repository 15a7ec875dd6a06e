import Mathlib.Data.List.Basic
import ScriptGraph.Proofs.Trimming
import ScriptGraph.Text.Lowercase

/-!
# Lower case

The lower cases of a run of letters are a run again (`LowercaseRun.image`), and none of them is in a run itself
(`misses_image`).  What a character becomes is therefore in lower case already (`Lowers`), and a text that is in lower
case stays as it is (`lower_lower`).

Of the characters outside ASCII only the sign of the kelvin has a lower case inside it, a plain `k`.  So a text whose
lower case is all ASCII is itself in ASCII, kelvin signs aside (`ascii_of_lowerFrom`).
-/

namespace ScriptGraph.Text

/-! ### Runs of letters -/

namespace LowercaseRun

variable {r q : LowercaseRun} {n : Nat}

/-- The lower cases of the letters of a run. -/
def image (r : LowercaseRun) : LowercaseRun :=
  { r with first := ((r.first : Int) + r.shift).toNat, last := ((r.last : Int) + r.shift).toNat }

/-- Whether two runs are seen to have nothing in common: one ends before the other begins, or one is even and the
other one is odd. -/
def misses (r q : LowercaseRun) : Bool :=
  Nat.blt r.last q.first || (Nat.blt q.last r.first ||
    (Nat.beq q.step 2 && (Nat.beq r.step 2 || Nat.beq r.first r.last) && Nat.beq ((r.first + q.first) % 2) 1))

theorem contains_iff : r.contains n = true ↔ r.first ≤ n ∧ n ≤ r.last ∧ (n - r.first) % r.step = 0 := by
  simp [contains, and_assoc]

theorem not_contains_of_misses (h : r.misses q = true) (hn : r.contains n = true) : q.contains n = false := by
  rw [contains_iff] at hn
  simp only [misses, Bool.or_eq_true, Bool.and_eq_true, Nat.blt_eq, Nat.beq_eq] at h
  rw [Bool.eq_false_iff, ne_eq, contains_iff]
  rintro ⟨hfirst, hlast, hstep⟩
  obtain hbefore | hafter | ⟨⟨htwo, hsame⟩, hodd⟩ := h
  · omega
  · omega
  · -- all of `r` is as even as its first letter
    have hparity : n % 2 = r.first % 2 := by
      obtain hstep' | hone := hsame
      · rw [hstep'] at hn
        omega
      · omega
    rw [htwo] at hstep
    omega

theorem contains_image (h : 0 < r.image.first) (hn : r.contains n = true) :
    r.image.contains ((n : Int) + r.shift).toNat = true := by
  rw [contains_iff] at hn ⊢
  simp only [image] at h ⊢
  have hsame : ((n : Int) + r.shift).toNat - ((r.first : Int) + r.shift).toNat = n - r.first := by omega
  rw [hsame]
  exact ⟨by omega, by omega, hn.2.2⟩

/-- No lower case of a letter is a letter with another lower case. -/
theorem misses_image {r : LowercaseRun} (hr : r ∈ lowercaseRuns) {q : LowercaseRun} (hq : q ∈ lowercaseRuns) :
    r.image.misses q = true := by
  -- some thirty thousand pairs: `misses` compares with `Nat.blt` and `Nat.beq`, which the kernel computes at once
  have hall : ((lowercaseRuns.map image).all fun r => lowercaseRuns.all fun q => r.misses q) = true := by
    decide +kernel
  simp only [List.all_eq_true] at hall
  exact hall _ (List.mem_map_of_mem hr) q hq

end LowercaseRun

/-- The sign of the kelvin, whose lower case is a plain `k`. -/
def kelvin : Char := Char.ofNat 0x212A

private theorem toNat_ofNat {n : Nat} (h : n.isValidChar) : (Char.ofNat n).toNat = n := by
  rw [Char.ofNat, dif_pos h]
  rfl

/-- Where the lower cases of runs lie: outside ASCII but for that of the kelvin sign, and not among the blanks. -/
private theorem image_bounds : ∀ r ∈ lowercaseRuns,
    (160 < r.image.first ∨ 0 < r.image.first ∧ r.first = 0x212A ∧ r.last = 0x212A) ∧
    (r.image.last < 0x130 ∨ 0x130 < r.image.first) ∧ (r.image.last < 0x1680 ∨ 0x1680 < r.image.first) ∧
    (r.image.last < 0x2000 ∨ 0x205F < r.image.first) ∧ (r.image.last < 0x3000 ∨ 0x3000 < r.image.first) ∧
    (r.image.last < 0xD800 ∨ 0xDFFF < r.image.first ∧ r.image.last < 0x110000) := by
  decide +kernel

/-! ### Characters -/

theorem asciiLower_of_not_ascii {c : Char} (h : ¬c.toNat < 128) : asciiLower c = c :=
  if_neg (by simp only [Bool.and_eq_true, decide_eq_true_eq]; omega)

private theorem asciiLower_of_ascii {c : Char} (h : c.toNat < 128) :
    (asciiLower c).toNat < 128 ∧ asciiLower (asciiLower c) = asciiLower c ∧ isBlank (asciiLower c) = isBlank c := by
  have hall : ∀ n < 128, (asciiLower (Char.ofNat n)).toNat < 128 ∧
      asciiLower (asciiLower (Char.ofNat n)) = asciiLower (Char.ofNat n) ∧
      isBlank (asciiLower (Char.ofNat n)) = isBlank (Char.ofNat n) := by decide
  simpa only [Char.ofNat_toNat] using hall c.toNat h

theorem toNat_asciiLower_lt_iff {c : Char} : (asciiLower c).toNat < 128 ↔ c.toNat < 128 := by
  by_cases h : c.toNat < 128
  · exact iff_of_true (asciiLower_of_ascii h).1 h
  · rw [asciiLower_of_not_ascii h]

theorem asciiLower_asciiLower (c : Char) : asciiLower (asciiLower c) = asciiLower c := by
  by_cases h : c.toNat < 128
  · exact (asciiLower_of_ascii h).2.1
  · rw [asciiLower_of_not_ascii h, asciiLower_of_not_ascii h]

theorem isBlank_asciiLower (c : Char) : isBlank (asciiLower c) = isBlank c := by
  by_cases h : c.toNat < 128
  · exact (asciiLower_of_ascii h).2.2
  · rw [asciiLower_of_not_ascii h]

theorem lowerChar_of_ascii {c : Char} (h : c.toNat < 128) : lowerChar c = [asciiLower c] := if_pos h

theorem lowerChar_kelvin : lowerChar kelvin = ['k'] := by decide +kernel

/-- The lower case of a letter outside ASCII is its own lower case. -/
private theorem lowerChar_image {r : LowercaseRun} (hr : r ∈ lowercaseRuns) {d : Char}
    (hd : r.image.contains d.toNat = true) (hbeyond : 160 < r.image.first) : lowerChar d = [d] := by
  obtain ⟨-, hdotted, -⟩ := image_bounds r hr
  obtain ⟨hfirst, hlast, -⟩ := LowercaseRun.contains_iff.1 hd
  have hnone : lowercaseRuns.find? (·.contains d.toNat) = none := by
    refine List.find?_eq_none.2 fun q hq => ?_
    rw [LowercaseRun.not_contains_of_misses (LowercaseRun.misses_image hr hq) hd]
    exact Bool.false_ne_true
  rw [lowerChar, if_neg (by omega), if_neg (by simp only [beq_iff_eq]; omega), hnone]

private theorem isBlank_image {r : LowercaseRun} (hr : r ∈ lowercaseRuns) {d : Char}
    (hd : r.image.contains d.toNat = true) (hbeyond : 160 < r.image.first) : isBlank d = false := by
  obtain ⟨-, -, hogham, hspaces, hwide, -⟩ := image_bounds r hr
  obtain ⟨hfirst, hlast, -⟩ := LowercaseRun.contains_iff.1 hd
  rw [Bool.eq_false_iff]
  simp only [isBlank, ne_eq, Bool.or_eq_true, Bool.and_eq_true, decide_eq_true_eq, beq_iff_eq]
  omega

/-- A character outside ASCII has a lower case outside ASCII, which is its own lower case, but for the sign of the
kelvin and the dotted capital i, and for all that have none. -/
private theorem lowerChar_cases {c : Char} (h : ¬c.toNat < 128) :
    (∃ d, lowerChar c = [d] ∧ 128 ≤ d.toNat ∧ lowerChar d = [d] ∧ isBlank d = false) ∨ c = kelvin ∨
      c = Char.ofNat 0x130 ∨ lowerChar c = [c] := by
  rw [lowerChar, if_neg h]
  split
  · next hdotted => exact .inr (.inr (.inl (by rw [← beq_iff_eq.1 hdotted, Char.ofNat_toNat])))
  split
  · next r hfind =>
    have hr : r ∈ lowercaseRuns := List.mem_of_find?_eq_some hfind
    have hcontains : r.contains c.toNat = true := by simpa using List.find?_some hfind
    obtain ⟨hbeyond | ⟨-, hfirst, hlast⟩, -, -, -, -, hvalid⟩ := image_bounds r hr
    · have himage := LowercaseRun.contains_image (by omega) hcontains
      obtain ⟨hlow, hhigh, -⟩ := LowercaseRun.contains_iff.1 himage
      rw [← toNat_ofNat (n := ((c.toNat : Int) + r.shift).toNat) (by rw [Nat.isValidChar]; omega)] at himage hlow
      exact .inl ⟨_, rfl, by omega, lowerChar_image hr himage hbeyond, isBlank_image hr himage hbeyond⟩
    · obtain ⟨hlow, hhigh, -⟩ := LowercaseRun.contains_iff.1 hcontains
      refine .inr (.inl ?_)
      rw [← Char.ofNat_toNat c, show c.toNat = 0x212A by omega, kelvin]
  · exact .inr (.inr (.inr rfl))

/-- What a character becomes in lower case: some characters that are in lower case, none of them a blank unless it is
one itself, and all of them in ASCII only if it is so itself or is the sign of the kelvin. -/
structure Lowers (c : Char) (lower : List Char) : Prop where
  ne_nil : lower ≠ []
  settled : ∀ d ∈ lower, lowerChar d = [d]
  not_blank : isBlank c = false → ∀ d ∈ lower, isBlank d = false
  of_ascii : c.toNat < 128 → lower = [asciiLower c]
  ascii : (∀ d ∈ lower, d.toNat < 128) → c.toNat < 128 ∨ c = kelvin ∧ lower = ['k']

/-- A single character that is in lower case. -/
private theorem Lowers.single {c d : Char} (hsettled : lowerChar d = [d])
    (hblank : isBlank c = false → isBlank d = false)
    (hof : c.toNat < 128 → d = asciiLower c) (hascii : d.toNat < 128 → c.toNat < 128 ∨ c = kelvin ∧ [d] = ['k']) :
    Lowers c [d] where
  ne_nil := List.cons_ne_nil d []
  settled := List.forall_mem_singleton.2 hsettled
  not_blank h := List.forall_mem_singleton.2 (hblank h)
  of_ascii h := congrArg (fun x => [x]) (hof h)
  ascii h := hascii (h d List.mem_cons_self)

theorem lowers_lowerChar (c : Char) : Lowers c (lowerChar c) := by
  by_cases hascii : c.toNat < 128
  · have hsettled : lowerChar (asciiLower c) = [asciiLower c] := by
      rw [lowerChar_of_ascii (toNat_asciiLower_lt_iff.2 hascii), asciiLower_asciiLower]
    rw [lowerChar_of_ascii hascii]
    exact .single hsettled (isBlank_asciiLower c).trans (fun _ => rfl) fun _ => .inl hascii
  obtain ⟨d, hlower, hlarge, hsettled, hblank⟩ | rfl | rfl | hlower := lowerChar_cases hascii
  · rw [hlower]
    exact .single hsettled (fun _ => hblank) (fun h => absurd h hascii) fun h => absurd h (Nat.not_lt.2 hlarge)
  · rw [lowerChar_kelvin]
    exact .single (by decide) (fun _ => by decide) (fun h => absurd h hascii) fun _ => .inr ⟨rfl, rfl⟩
  · have hlower : lowerChar (Char.ofNat 0x130) = ['i', Char.ofNat 0x307] := rfl
    rw [hlower]
    have hsettled : lowerChar 'i' = ['i'] ∧ lowerChar (Char.ofNat 0x307) = [Char.ofNat 0x307] := by decide +kernel
    have hblank : isBlank 'i' = false ∧ isBlank (Char.ofNat 0x307) = false := by decide
    refine ⟨by simp, ?_, fun _ => ?_, fun h => absurd h hascii, fun h => ?_⟩
    · rwa [List.forall_mem_cons, List.forall_mem_singleton]
    · rwa [List.forall_mem_cons, List.forall_mem_singleton]
    · exact absurd (h (Char.ofNat 0x307) (by simp)) (by decide)
  · rw [hlower]
    exact .single hlower id (fun h => absurd h hascii) .inl

/-! ### Texts -/

theorem lowerFrom_cons (before : List Char) (c : Char) (rest : List Char) :
    ∃ lower, Lowers c lower ∧ lowerFrom before (c :: rest) = lower ++ lowerFrom (c :: before) rest := by
  rw [lowerFrom]
  split
  · next hsigma =>
    have hc : c = Char.ofNat 0x3A3 := by rw [← beq_iff_eq.1 hsigma, Char.ofNat_toNat]
    refine ⟨_, ?_, rfl⟩
    subst hc
    split
    · exact .single (by decide +kernel) (fun _ => by decide) (by decide) (by decide)
    · exact .single (by decide +kernel) (fun _ => by decide) (by decide) (by decide)
  · exact ⟨_, lowers_lowerChar c, rfl⟩

theorem lowerChar_of_mem_lowerFrom {before l : List Char} {d : Char} (h : d ∈ lowerFrom before l) :
    lowerChar d = [d] := by
  induction l generalizing before with
  | nil => cases h
  | cons c rest ih =>
    obtain ⟨lower, hlowers, heq⟩ := lowerFrom_cons before c rest
    rw [heq, List.mem_append] at h
    exact h.elim (hlowers.settled d) ih

/-- What is in lower case stays as it is.  That is no capital sigma, so it does not depend on its neighbours. -/
theorem lowerFrom_of_settled {l : List Char} (h : ∀ d ∈ l, lowerChar d = [d]) (before : List Char) :
    lowerFrom before l = l := by
  induction l generalizing before with
  | nil => rfl
  | cons c rest ih =>
    rw [List.forall_mem_cons] at h
    have hsigma : (c.toNat == 0x3A3) = false := by
      rw [beq_eq_false_iff_ne]
      intro hc
      have hc' : c = Char.ofNat 0x3A3 := by rw [← hc, Char.ofNat_toNat]
      rw [hc'] at h
      exact absurd h.1 (by decide +kernel)
    rw [lowerFrom, hsigma, ih h.2, h.1]
    rfl

theorem lowerFrom_of_ascii {l : List Char} (h : ∀ c ∈ l, c.toNat < 128) (before : List Char) :
    lowerFrom before l = l.map asciiLower := by
  induction l generalizing before with
  | nil => rfl
  | cons c rest ih =>
    rw [List.forall_mem_cons] at h
    obtain ⟨lower, hlowers, heq⟩ := lowerFrom_cons before c rest
    rw [heq, ih h.2, hlowers.of_ascii h.1, List.map_cons, List.singleton_append]

/-- A text whose lower case is in ASCII is so itself, but for signs of the kelvin. -/
theorem ascii_of_lowerFrom {before l : List Char} (h : ∀ d ∈ lowerFrom before l, d.toNat < 128) :
    ∀ c ∈ l, c.toNat < 128 ∨ c = kelvin ∧ 'k' ∈ lowerFrom before l := by
  induction l generalizing before with
  | nil => simp
  | cons c rest ih =>
    obtain ⟨lower, hlowers, heq⟩ := lowerFrom_cons before c rest
    rw [heq, List.forall_mem_append] at h
    rw [heq, List.forall_mem_cons]
    constructor
    · exact (hlowers.ascii h.1).imp_right fun hkelvin => ⟨hkelvin.1, by simp [hkelvin.2]⟩
    · intro c' hc'
      exact (ih h.2 c' hc').imp_right fun hkelvin => ⟨hkelvin.1, List.mem_append_right _ hkelvin.2⟩

private theorem head?_lowerFrom {before l : List Char} (h : ∀ c ∈ l.head?, isBlank c = false) :
    ∀ d ∈ (lowerFrom before l).head?, isBlank d = false := by
  cases l with
  | nil => simp [lowerFrom]
  | cons c rest =>
    obtain ⟨lower, hlowers, heq⟩ := lowerFrom_cons before c rest
    obtain ⟨d, ds, rfl⟩ := List.exists_cons_of_ne_nil hlowers.ne_nil
    rw [heq, List.cons_append, List.head?_cons]
    rintro d' ⟨⟩
    exact hlowers.not_blank (h c rfl) d List.mem_cons_self

private theorem getLast?_lowerFrom {before l : List Char} (h : ∀ c ∈ l.getLast?, isBlank c = false) :
    ∀ d ∈ (lowerFrom before l).getLast?, isBlank d = false := by
  induction l generalizing before with
  | nil => simp [lowerFrom]
  | cons c rest ih =>
    obtain ⟨lower, hlowers, heq⟩ := lowerFrom_cons before c rest
    rw [heq]
    cases rest with
    | nil =>
      rw [lowerFrom, List.append_nil]
      exact fun d hd => hlowers.not_blank (h c rfl) d (List.mem_of_getLast? hd)
    | cons c' rest =>
      obtain ⟨lower', hlowers', heq'⟩ := lowerFrom_cons (c :: before) c' rest
      have hne : lowerFrom (c :: before) (c' :: rest) ≠ [] := by
        rw [heq']
        exact List.append_ne_nil_of_left_ne_nil hlowers'.ne_nil _
      rw [List.getLast?_append_of_ne_nil _ hne]
      rw [List.getLast?_cons_cons] at h
      exact ih h

/-- A trimmed text stays trimmed. -/
theorem trimChars_lowerFrom {l : List Char} (h : trimChars l = l) (before : List Char) :
    trimChars (lowerFrom before l) = lowerFrom before l := by
  obtain ⟨hstart, hend⟩ := trimChars_eq_self_iff.1 h
  exact trimChars_eq_self_iff.2 ⟨head?_lowerFrom hstart, getLast?_lowerFrom hend⟩

theorem lower_lower (s : String) : lower (lower s) = lower s := by
  rw [lower, lower, String.toList_ofList, lowerFrom_of_settled fun d => lowerChar_of_mem_lowerFrom]

theorem trim_lower_trim (s : String) : trim (lower (trim s)) = lower (trim s) := by
  rw [trim, lower, trim, String.toList_ofList, String.toList_ofList, trimChars_lowerFrom (trimChars_trimChars _)]

end ScriptGraph.Text
