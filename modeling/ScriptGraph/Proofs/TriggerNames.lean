import ScriptGraph.Proofs.LowerCase
import ScriptGraph.Trigger

/-!
# Names of triggers

Names that are the same in lower case, blanks around them aside, have the same canonical form, which is its own
canonical form (`canonical_eq_iff`, `canonical_canonical_iff`).  There is an exception to this.  The names of the
built-in triggers are compared with ASCII letters in any case, while other names are lowered in full, and the sign of
the kelvin is not the same as a `k` until it is lowered.  So where it stands in `block-build` the name is not found,
and its lower case, which would be found, is taken for a canonical form (`IsMisread`).
-/

namespace ScriptGraph.Trigger

open Text

variable {s s' : String}

/-! ### Built-in names -/

private theorem all_ascii_names : ∀ (t : Trigger), ∀ word ∈ t.names, (word.toList.all fun c => c.toNat < 128) = true
  | start => by decide
  | wave => by decide
  | build => by decide
  | unitSpawn => by decide

/-- There is one built-in name with a `k`. -/
private theorem eq_of_mem_names : ∀ (t : Trigger), ∀ word ∈ t.names, 'k' ∈ word.toList.map asciiLower →
    word.toList.map asciiLower = "block-build".toList
  | start => by decide
  | wave => by decide
  | build => by decide
  | unitSpawn => by decide

/-- The lower case of a label is found under that label. -/
private theorem canonical_lower_label : ∀ t : Trigger, canonical (lower t.label) = lower t.label
  | start => by decide +kernel
  | wave => by decide +kernel
  | build => by decide +kernel
  | unitSpawn => by decide +kernel

theorem ofName?_congr (h : s.toList.map asciiLower = s'.toList.map asciiLower) : ofName? s = ofName? s' := by
  simp only [ofName?, isSameIgnoringAsciiCase, h]

theorem exists_name_of_ofName? {t : Trigger} (h : ofName? s = some t) :
    ∃ word ∈ t.names, word.toList.map asciiLower = s.toList.map asciiLower := by
  rw [ofName?] at h
  have hany := List.find?_some h
  obtain ⟨word, hword, hsame⟩ := List.any_eq_true.1 hany
  exact ⟨word, hword, beq_iff_eq.1 hsame⟩

/-- A name with a character outside ASCII is none of the built-in ones. -/
theorem ascii_of_ofName? {t : Trigger} (h : ofName? s = some t) : ∀ c ∈ s.toList, c.toNat < 128 := by
  intro c hc
  obtain ⟨word, hword, hsame⟩ := exists_name_of_ofName? h
  have hmem : asciiLower c ∈ word.toList.map asciiLower := by
    rw [hsame]
    exact List.mem_map_of_mem hc
  obtain ⟨c', hc', heq⟩ := List.mem_map.1 hmem
  rw [← toNat_asciiLower_lt_iff, ← heq, toNat_asciiLower_lt_iff]
  exact of_decide_eq_true (List.all_eq_true.1 (all_ascii_names t word hword) c' hc')

/-! ### Lower case -/

/-- A name is `block-build` once it is in lower case, but not before, for its `k` is the sign of the kelvin. -/
structure IsMisread (s : String) : Prop where
  lower_eq : lower (trim s) = "block-build"
  kelvin_mem : kelvin ∈ (trim s).toList

theorem ofName?_of_isMisread (h : IsMisread s) : ofName? (trim s) = none := by
  cases hname : ofName? (trim s) with
  | none => rfl
  | some t => exact absurd (ascii_of_ofName? hname kelvin h.kelvin_mem) (by decide)

/-- A text in lower case with a `k` that is a built-in name. -/
private theorem lower_eq_of_ofName? {t : Trigger} (h : ofName? (lower s) = some t) (hk : 'k' ∈ (lower s).toList) :
    lower s = "block-build" := by
  obtain ⟨word, hword, hsame⟩ := exists_name_of_ofName? h
  have hsettled : (lower s).toList.map asciiLower = (lower s).toList := by
    refine (List.map_congr_left fun c hc => ?_).trans (List.map_id _)
    have hlower := lowerChar_of_mem_lowerFrom (by rwa [lower, String.toList_ofList] at hc)
    rw [lowerChar_of_ascii (ascii_of_ofName? h c hc)] at hlower
    exact List.singleton_inj.1 hlower
  rw [hsettled] at hsame
  rw [← String.toList_inj, ← hsame]
  refine eq_of_mem_names t word hword ?_
  rwa [hsame]

/-- A built-in name is found in lower case if and only if it is found as it is. -/
theorem ofName?_lower (h : ¬IsMisread s) : ofName? (lower (trim s)) = ofName? (trim s) := by
  by_cases hascii : ∀ c ∈ (trim s).toList, c.toNat < 128
  · apply ofName?_congr
    rw [lower, String.toList_ofList, lowerFrom_of_ascii hascii, List.map_map]
    exact List.map_congr_left fun c _ => asciiLower_asciiLower c
  · have hnone : ofName? (trim s) = none :=
      Option.eq_none_iff_forall_ne_some.2 fun t hname => hascii (ascii_of_ofName? hname)
    rw [hnone]
    by_contra hname
    obtain ⟨t, hname⟩ := Option.ne_none_iff_exists'.1 hname
    -- nothing but the sign of the kelvin is lowered into ASCII, and it gives a `k`
    simp only [not_forall] at hascii
    obtain ⟨c, hc, hlarge⟩ := hascii
    have hlower := ascii_of_ofName? hname
    rw [lower, String.toList_ofList] at hlower
    obtain ⟨rfl, hk⟩ := (ascii_of_lowerFrom hlower c hc).resolve_left hlarge
    exact h ⟨lower_eq_of_ofName? hname (by rwa [lower, String.toList_ofList]), hc⟩

/-! ### Canonical forms -/

theorem canonical_of_some {t : Trigger} (h : ofName? (trim s) = some t) : canonical s = lower t.label := by
  rw [canonical, h]

theorem canonical_of_none (h : ofName? (trim s) = none) : canonical s = lower (trim s) := by
  rw [canonical, h]

theorem canonical_lower (h : ¬IsMisread s) : canonical (lower (trim s)) = canonical s := by
  rw [canonical, trim_lower_trim, ofName?_lower h, lower_lower, canonical]

theorem canonical_of_isMisread (h : IsMisread s) : canonical s = "block-build" := by
  rw [canonical_of_none (ofName?_of_isMisread h), h.lower_eq]

theorem canonical_block_build : canonical "block-build" = "on build" := by decide +kernel

theorem canonical_canonical_iff : canonical (canonical s) = canonical s ↔ ¬IsMisread s := by
  constructor
  · intro h hmisread
    rw [canonical_of_isMisread hmisread, canonical_block_build] at h
    exact absurd h (by decide)
  · intro h
    cases hname : ofName? (trim s) with
    | some t => rw [canonical_of_some hname, canonical_lower_label]
    | none =>
      have hlower := canonical_lower h
      rwa [← canonical_of_none hname] at hlower

/-- Names that are the same in lower case have the same canonical form, unless one of them is misread. -/
theorem canonical_eq_iff (h : lower (trim s) = lower (trim s')) :
    canonical s = canonical s' ↔ (IsMisread s ↔ IsMisread s') := by
  have hbuild : "block-build" ≠ "on build" := by decide
  by_cases hs : IsMisread s <;> by_cases hs' : IsMisread s'
  · rw [canonical_of_isMisread hs, canonical_of_isMisread hs']
    exact iff_of_true rfl (iff_of_true hs hs')
  · rw [canonical_of_isMisread hs, ← canonical_lower hs', ← h, hs.lower_eq, canonical_block_build]
    exact iff_of_false hbuild fun hiff => hs' (hiff.1 hs)
  · rw [canonical_of_isMisread hs', ← canonical_lower hs, h, hs'.lower_eq, canonical_block_build]
    exact iff_of_false hbuild.symm fun hiff => hs (hiff.2 hs')
  · rw [← canonical_lower hs, ← canonical_lower hs', h]
    exact iff_of_true rfl (iff_of_false hs hs')

/-- Misread names aside, a canonical form is its own, and names that are the same in lower case have the same one:
with such a name a trigger starts the events that have it as a label. -/
theorem canonical_unless_misread (s : String) :
    (canonical (canonical s) = canonical s ↔ ¬IsMisread s) ∧
    (∀ s', lower (trim s) = lower (trim s') → (canonical s = canonical s' ↔ (IsMisread s ↔ IsMisread s'))) ∧
    ∀ n : Node Float32, n.kind = .event → lower (trim n.label) = lower (trim s) →
      (starts s n = true ↔ (IsMisread n.label ↔ IsMisread s) ∨ canonical n.summary = canonical s) := by
  refine ⟨canonical_canonical_iff, fun s' => canonical_eq_iff, fun n hkind hlower => ?_⟩
  rw [starts, decide_eq_true hkind, Bool.true_and, Bool.or_eq_true, beq_iff_eq, beq_iff_eq, canonical_eq_iff hlower]

/-- A sigma at the end of a word has a lower case of its own. -/
theorem canonical_unless_misread_street :
    lower (trim " ΟΔΟΣ") = lower (trim "οδος") ∧ canonical " ΟΔΟΣ" = canonical "οδος" ∧
    starts " ΟΔΟΣ" (Node.make "street" .event "οδος" ⟨0, 0⟩ .gray) = true := by
  have hlower : lower (trim " ΟΔΟΣ") = lower (trim "οδος") := by decide +kernel
  have hcapital : ¬IsMisread " ΟΔΟΣ" := fun h => absurd h.lower_eq (by decide +kernel)
  have hsmall : ¬IsMisread "οδος" := fun h => absurd h.lower_eq (by decide +kernel)
  obtain ⟨-, hequal, hstarts⟩ := canonical_unless_misread " ΟΔΟΣ"
  refine ⟨hlower, (hequal _ hlower).2 (iff_of_false hcapital hsmall), ?_⟩
  exact (hstarts (Node.make "street" .event "οδος" ⟨0, 0⟩ .gray) rfl hlower.symm).2
    (.inl (iff_of_false hsmall hcapital))

/-- With the sign of the kelvin in it, `block-build` has another canonical form, and this form has one of its own. -/
theorem misread_block_build :
    lower (trim "bloc\u212a-build") = lower (trim "block-build") ∧
    canonical "bloc\u212a-build" = "block-build" ∧ canonical "block-build" = "on build" ∧
    canonical (canonical "bloc\u212a-build") = "on build" ∧
    starts "bloc\u212a-build" (Node.make "site" .event "block-build" ⟨0, 0⟩ .gray) = false := by
  decide +kernel

end ScriptGraph.Trigger
