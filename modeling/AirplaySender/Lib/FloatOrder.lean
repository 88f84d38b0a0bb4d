/-
# Comparing binary floats

`<` and `≤` of `Float` read off one comparison of the unpacked numbers, which has no answer where
one of them is no number.  Swapping the two swaps its answer, so what is less is not at least
(`Float.not_le_of_lt`); the converse fails, for both are false of a NaN.
-/
import Mathlib

namespace Float.Model.UnpackedFloat

/-- Magnitudes in canonical form compare by exponent, then mantissa. -/
theorem compare_magnitude_swap (e e' : ℤ) (m m' : ℕ) :
    ((compare e e').then (compare m m')).swap = (compare e' e).then (compare m' m) := by
  rw [Ordering.swap_then, ← Std.OrientedOrd.eq_swap (a := e'), ← Std.OrientedOrd.eq_swap (a := m')]

theorem compare_swap (a b : UnpackedFloat) : (a.compare b).map Ordering.swap = b.compare a := by
  cases a with
  | notANumber => cases b <;> rfl
  | infinity s =>
    cases b with
    | infinity t => cases s <;> cases t <;> rfl
    | _ => cases s <;> rfl
  | zero s =>
    cases b with
    | infinity t => cases t <;> rfl
    | finite t => cases t <;> rfl
    | _ => rfl
  | finite s m e =>
    cases b with
    | infinity t => cases t <;> rfl
    | notANumber => rfl
    | zero t => cases s <;> rfl
    | finite t m' e' =>
      cases s <;> cases t
      all_goals simp [UnpackedFloat.compare, ← compare_magnitude_swap e' e m' m]

end Float.Model.UnpackedFloat

namespace Float

variable {a b : Float}

theorem lt_iff : a < b ↔ a.toModel.unpack.compare b.toModel.unpack = some .lt := by
  show Float.lt a b = true ↔ _
  rw [Float.lt, decide_eq_true_iff]
  show (a.toModel.unpack.compare b.toModel.unpack == some .lt) = true ↔ _
  rw [beq_iff_eq]

theorem le_iff : a ≤ b ↔ (a.toModel.unpack.compare b.toModel.unpack).any (·.isLE) = true := by
  show Float.le a b = true ↔ _
  rw [Float.le, decide_eq_true_iff]
  rfl

/-- What is less is not at least. -/
theorem not_le_of_lt (h : a < b) : ¬b ≤ a := by
  rw [lt_iff] at h
  rw [le_iff, ← Model.UnpackedFloat.compare_swap, h]
  decide

end Float
