/-
# Scaling by a ratio, rounded down

`scale a b n` is `n` counted in another unit, `a` of which make `b` of the first, and rounded down.
Scaling into a finer unit keeps numbers apart, and scaling back from there loses at most one
(`scale_scale`); scaling into the coarser unit and back loses less than one of the coarser and one
of the finer (`scale_back_near`).
-/
import Mathlib.Order.Monotone.Basic
import Mathlib.Tactic.Linarith
import Mathlib.Tactic.Ring

namespace Scale

/-- `n` times `a / b`, rounded down. -/
def scale (a b n : ℕ) : ℕ := n * a / b

variable {a b : ℕ}

theorem scale_le (a b n : ℕ) : scale a b n * b ≤ n * a := Nat.div_mul_le_self _ _

theorem lt_scale_succ (hb : 0 < b) (a n : ℕ) : n * a < (scale a b n + 1) * b := by
  have h := Nat.lt_mul_div_succ (n * a) hb
  rwa [Nat.mul_comm b] at h

theorem scale_mono (a b : ℕ) : Monotone (scale a b) := by
  intro m n hmn
  exact Nat.div_le_div_right (Nat.mul_le_mul_right a hmn)

/-- A finer unit keeps numbers apart. -/
theorem scale_strictMono (hb : 0 < b) (hab : b ≤ a) : StrictMono (scale a b) := by
  intro m n hmn
  have hstep : m * a + b ≤ n * a := by
    calc m * a + b ≤ m * a + a := Nat.add_le_add_left hab _
      _ = (m + 1) * a := by ring
      _ ≤ n * a := Nat.mul_le_mul_right a hmn
  calc scale a b m < scale a b m + 1 := Nat.lt_succ_self _
    _ = (m * a + b) / b := (Nat.add_div_right _ hb).symm
    _ ≤ scale a b n := Nat.div_le_div_right hstep

/-- **To the finer unit and back**, at most one is lost. -/
theorem scale_scale (hb : 0 < b) (hab : b ≤ a) (n : ℕ) :
    scale b a (scale a b n) = n ∨ scale b a (scale a b n) + 1 = n := by
  have ha : 0 < a := hb.trans_le hab
  have hle : scale b a (scale a b n) * a ≤ n * a := (scale_le b a _).trans (scale_le a b n)
  have hback : scale b a (scale a b n) ≤ n := Nat.le_of_mul_le_mul_right hle ha
  have hfar : n * a < (scale b a (scale a b n) + 2) * a := by
    have hup := lt_scale_succ hb a n
    have hdown := lt_scale_succ ha b (scale a b n)
    calc n * a < scale a b n * b + b := by linarith
      _ < (scale b a (scale a b n) + 1) * a + b := Nat.add_lt_add_right hdown b
      _ ≤ (scale b a (scale a b n) + 1) * a + a := Nat.add_le_add_left hab _
      _ = (scale b a (scale a b n) + 2) * a := by ring
  have hnear : n < scale b a (scale a b n) + 2 := Nat.lt_of_mul_lt_mul_right hfar
  omega

/-- To the coarser unit and back nothing is gained. -/
theorem scale_back_le (hb : 0 < b) (n : ℕ) : scale a b (scale b a n) ≤ n := by
  have hle : scale a b (scale b a n) * b ≤ n * b := (scale_le a b _).trans (scale_le b a n)
  exact Nat.le_of_mul_le_mul_right hle hb

/-- **To the coarser unit and back**, less than one of each is lost. -/
theorem scale_back_near (ha : 0 < a) (hb : 0 < b) (n : ℕ) :
    n * b < scale a b (scale b a n) * b + (a + b) := by
  have hdown := lt_scale_succ ha b n
  have hup := lt_scale_succ hb a (scale b a n)
  linarith

end Scale
