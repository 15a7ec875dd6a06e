import ScriptGraph.Binary

/-!
# The order of floats

Floats are compared when they are unpacked.  The comparison is total apart from what is no number
(`exists_compare_unpacked`), and exchanging the two sides exchanges its answers (`compare_unpacked_swap`), so of two
doubles at most one is below the other.
-/

namespace ScriptGraph

open Float.Model (UnpackedFloat)

theorem compare_unpacked_self {a : UnpackedFloat} (ha : a ≠ .notANumber) : a.compare a = some .eq := by
  rcases a with (_ | _) | _ | _ | ⟨_ | _, m, e, hm⟩ <;>
    first
    | exact absurd rfl ha
    | rfl
    | exact congrArg some (by simp)

theorem compare_unpacked_swap (a b : UnpackedFloat) : b.compare a = (a.compare b).map Ordering.swap := by
  have hint (m n : Int) : compare n m = (compare m n).swap := Std.OrientedCmp.eq_swap
  have hnat (m n : Nat) : compare n m = (compare m n).swap := Std.OrientedCmp.eq_swap
  rcases a with (_ | _) | _ | _ | ⟨_ | _, m, e, hm⟩ <;> rcases b with (_ | _) | _ | _ | ⟨_ | _, n, f, hn⟩ <;>
    first
    | rfl
    | exact congrArg some (by simp only [Ordering.swap_then, hint f e, hnat n m, Ordering.swap_swap])

theorem exists_compare_unpacked {a b : UnpackedFloat} (ha : a ≠ .notANumber) (hb : b ≠ .notANumber) :
    ∃ o, a.compare b = some o := by
  rcases a with (_ | _) | _ | _ | ⟨_ | _, m, e, hm⟩ <;> rcases b with (_ | _) | _ | _ | ⟨_ | _, n, f, hn⟩ <;>
    first
    | exact absurd rfl ha
    | exact absurd rfl hb
    | exact ⟨_, rfl⟩

private theorem double_lt_iff {x y : Float} : x < y ↔ x.toModel.unpack.compare y.toModel.unpack = some .lt := by
  refine decide_eq_true_iff.trans ?_
  change x.toModel.unpack.lt y.toModel.unpack = true ↔ _
  rw [UnpackedFloat.lt, beq_iff_eq]

theorem double_lt_asymm {x y : Float} (h : x < y) : ¬y < x := by
  rw [double_lt_iff] at h ⊢
  rw [compare_unpacked_swap, h]
  simp

end ScriptGraph
