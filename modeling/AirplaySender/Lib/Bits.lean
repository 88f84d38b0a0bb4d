/-
# Bits, the most significant first

A number in `w` bits (`msbBits w n`), the number that bits spell (`bitVal`), and an octet string as
the bits of its octets one after the other (`octetBits`).  Writing a number and reading it back
gives it modulo `2 ^ w`; bits that are read as a number and written again are the same.
-/
import AirplaySender.Lib.Octets
import Mathlib.Tactic.Positivity

namespace Octets

/-! ## 1. Numbers -/

/-- The low `w` bits of a number. -/
def msbBits : ℕ → ℕ → List Bool
  | 0, _ => []
  | w + 1, n => n.testBit w :: msbBits w n

/-- The number that bits spell, continuing from `acc`. -/
def bitVal (acc : ℕ) : List Bool → ℕ
  | [] => acc
  | b :: bs => bitVal (2 * acc + b.toNat) bs

@[simp] theorem length_msbBits (w n : ℕ) : (msbBits w n).length = w := by
  induction w with
  | zero => rfl
  | succ w ih => simp [msbBits, ih]

theorem bitVal_append (acc : ℕ) (xs ys : List Bool) :
    bitVal acc (xs ++ ys) = bitVal (bitVal acc xs) ys := by
  induction xs generalizing acc with
  | nil => rfl
  | cons b bs ih => exact ih _

/-- What comes first counts most. -/
theorem bitVal_eq (acc : ℕ) (bs : List Bool) : bitVal acc bs = acc * 2 ^ bs.length + bitVal 0 bs := by
  induction bs generalizing acc with
  | nil => simp [bitVal]
  | cons b bs ih =>
    rw [bitVal, bitVal, ih, ih (2 * 0 + b.toNat), List.length_cons, pow_succ]
    ring

/-- A number fits the bits that spell it. -/
theorem bitVal_lt (bs : List Bool) : bitVal 0 bs < 2 ^ bs.length := by
  induction bs with
  | nil => simp [bitVal]
  | cons b bs ih =>
    rw [bitVal, bitVal_eq, List.length_cons, pow_succ]
    have hbit : 2 * 0 + b.toNat ≤ 1 := by
      have := Bool.toNat_le b
      omega
    have hmul := Nat.mul_le_mul_right (2 ^ bs.length) hbit
    omega

/-- **Reading back a number.** -/
theorem bitVal_msbBits (w n : ℕ) : bitVal 0 (msbBits w n) = n % 2 ^ w := by
  induction w with
  | zero => simp [msbBits, bitVal, Nat.mod_one]
  | succ w ih =>
    rw [msbBits, bitVal, bitVal_eq, length_msbBits, ih, Nat.toNat_testBit, pow_succ, Nat.mod_mul]
    ring

theorem bitVal_msbBits_of_lt {w n : ℕ} (h : n < 2 ^ w) : bitVal 0 (msbBits w n) = n := by
  rw [bitVal_msbBits, Nat.mod_eq_of_lt h]

/-- Only the low bits are written. -/
theorem msbBits_add_mul (w n k : ℕ) : msbBits w (n + k * 2 ^ w) = msbBits w n := by
  induction w generalizing k with
  | zero => rfl
  | succ w ih =>
    have hlow : n + k * 2 ^ (w + 1) = n + k * 2 * 2 ^ w := by
      rw [pow_succ]
      ring
    rw [msbBits, msbBits, hlow, ih, ← hlow, pow_succ, Nat.testBit_eq_decide_div_mod_eq,
      Nat.testBit_eq_decide_div_mod_eq]
    have hmul : k * (2 ^ w * 2) = 2 ^ w * (2 * k) := by ring
    have hdiv : (n + k * (2 ^ w * 2)) / 2 ^ w = n / 2 ^ w + 2 * k := by
      rw [hmul, Nat.add_mul_div_left _ _ (by positivity)]
    rw [hdiv, Nat.add_mul_mod_self_left]

/-- **Writing back bits.** -/
theorem msbBits_bitVal (bs : List Bool) : msbBits bs.length (bitVal 0 bs) = bs := by
  induction bs with
  | nil => rfl
  | cons b bs ih =>
    rw [bitVal, bitVal_eq, List.length_cons, msbBits, Nat.add_comm, msbBits_add_mul, ih]
    congr 1
    rw [Nat.testBit_eq_decide_div_mod_eq, Nat.add_mul_div_right _ _ (by positivity),
      Nat.div_eq_of_lt (bitVal_lt bs)]
    cases b <;> rfl

/-! ## 2. Octets -/

/-- The bits of octets. -/
def octetBits (os : Octets) : List Bool := os.flatMap fun o => msbBits 8 o.toNat

@[simp] theorem octetBits_nil : octetBits [] = [] := rfl

@[simp] theorem octetBits_append (xs ys : Octets) :
    octetBits (xs ++ ys) = octetBits xs ++ octetBits ys :=
  List.flatMap_append

@[simp] theorem length_octetBits (os : Octets) : (octetBits os).length = 8 * os.length := by
  induction os with
  | nil => rfl
  | cons o os ih =>
    rw [octetBits, List.flatMap_cons, List.length_append, length_msbBits, List.length_cons]
    change 8 + (octetBits os).length = _
    omega

/-- The octet that eight bits spell. -/
theorem octetBits_singleton {o : UInt8} {bs : List Bool} (hlen : bs.length = 8)
    (hval : o.toNat = bitVal 0 bs) : octetBits [o] = bs := by
  rw [octetBits, List.flatMap_cons, List.flatMap_nil, List.append_nil, hval, ← hlen]
  exact msbBits_bitVal bs

/-- The bit at a place of its number. -/
theorem msbBits_getElem? {w i : ℕ} (n : ℕ) (h : i < w) :
    (msbBits w n)[i]? = some (n.testBit (w - 1 - i)) := by
  induction w generalizing i with
  | zero => omega
  | succ w ih =>
    cases i with
    | zero => simp [msbBits]
    | succ i =>
      rw [msbBits, List.getElem?_cons_succ, ih (by omega)]
      congr 2
      omega

/-- **The bit at a place of octets** is found in its octet. -/
theorem octetBits_getElem? (os : Octets) (i : ℕ) :
    (octetBits os)[i]? = os[i / 8]?.map fun o => o.toNat.testBit (7 - i % 8) := by
  induction os generalizing i with
  | nil => simp
  | cons o os ih =>
    have hcons : octetBits (o :: os) = msbBits 8 o.toNat ++ octetBits os := List.flatMap_cons
    rw [hcons]
    by_cases hi : i < 8
    · rw [List.getElem?_append_left (by rw [length_msbBits]; exact hi), msbBits_getElem? _ hi,
        Nat.div_eq_of_lt hi, Nat.mod_eq_of_lt hi]
      rfl
    · have hdiv : i / 8 = (i - 8) / 8 + 1 := by omega
      have hmod : i % 8 = (i - 8) % 8 := by omega
      rw [List.getElem?_append_right (by rw [length_msbBits]; omega), length_msbBits, ih, hdiv, hmod,
        List.getElem?_cons_succ]

end Octets
