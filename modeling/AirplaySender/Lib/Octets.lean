/-
# Octet strings and fixed-width integers on the wire

Octet strings are lists of bytes.  A wire integer is written big-endian (`beBytes`) or
little-endian (`leBytes`) in a given number of octets, dropping what does not fit, and read back
by `beVal`.  The API the wire formats use: the two writers have the width as their length, and
reading back gives the value modulo `256 ^ width`.
-/
import Mathlib.Data.List.Basic
import Mathlib.Tactic.Ring

/-- An octet string. -/
abbrev Octets := List UInt8

namespace Octets

/-! ## 1. Fixed-width integers -/

/-- The octets of a text constant. -/
def ascii (s : String) : Octets := s.toList.map Char.toUInt8

/-- `w` octets, most significant first. -/
def beBytes : ℕ → ℕ → Octets
  | 0, _ => []
  | w + 1, n => beBytes w (n / 256) ++ [UInt8.ofNat n]

/-- `w` octets, least significant first. -/
def leBytes : ℕ → ℕ → Octets
  | 0, _ => []
  | w + 1, n => UInt8.ofNat n :: leBytes w (n / 256)

/-- The number a big-endian string spells, continuing from `acc`. -/
def beVal (acc : ℕ) : Octets → ℕ
  | [] => acc
  | b :: bs => beVal (acc * 256 + b.toNat) bs

@[simp] theorem length_beBytes (w n : ℕ) : (beBytes w n).length = w := by
  induction w generalizing n with
  | zero => rfl
  | succ w ih => simp [beBytes, ih]

@[simp] theorem length_leBytes (w n : ℕ) : (leBytes w n).length = w := by
  induction w generalizing n with
  | zero => rfl
  | succ w ih => simp [leBytes, ih]

theorem beVal_append (acc : ℕ) (xs ys : Octets) :
    beVal acc (xs ++ ys) = beVal (beVal acc xs) ys := by
  induction xs generalizing acc with
  | nil => rfl
  | cons b bs ih => exact ih _

/-- **Reading back a big-endian integer.** -/
theorem beVal_beBytes (w n : ℕ) : beVal 0 (beBytes w n) = n % 256 ^ w := by
  induction w generalizing n with
  | zero => simp [beBytes, beVal, Nat.mod_one]
  | succ w ih =>
    rw [beBytes, beVal_append, ih]
    have hlow : (UInt8.ofNat n).toNat = n % 256 := by simp
    have hsplit : n % 256 ^ (w + 1) = n / 256 % 256 ^ w * 256 + n % 256 := by
      rw [pow_succ, mul_comm (256 ^ w), Nat.mod_mul, mul_comm 256]
      omega
    simp only [beVal, hlow, hsplit]

theorem beVal_beBytes_of_lt {w n : ℕ} (h : n < 256 ^ w) : beVal 0 (beBytes w n) = n := by
  rw [beVal_beBytes, Nat.mod_eq_of_lt h]

/-- A number fits the octets that spell it. -/
theorem beVal_lt (bs : Octets) : beVal 0 bs < 256 ^ bs.length := by
  have hgen (bs : Octets) : ∀ acc, beVal acc bs < (acc + 1) * 256 ^ bs.length := by
    induction bs with
    | nil => simp [beVal]
    | cons b bs ih =>
      intro acc
      have hb : acc * 256 + b.toNat + 1 ≤ (acc + 1) * 256 := by
        have := b.toNat_lt
        omega
      calc beVal (acc * 256 + b.toNat) bs
          < (acc * 256 + b.toNat + 1) * 256 ^ bs.length := ih _
        _ ≤ (acc + 1) * 256 * 256 ^ bs.length := Nat.mul_le_mul_right _ hb
        _ = (acc + 1) * 256 ^ (bs.length + 1) := by rw [pow_succ']; ring
  simpa using hgen bs 0

/-- The little-endian octets determine the value modulo the width. -/
theorem leBytes_inj {w m n : ℕ} (h : leBytes w m = leBytes w n) :
    m % 256 ^ w = n % 256 ^ w := by
  induction w generalizing m n with
  | zero => simp [Nat.mod_one]
  | succ w ih =>
    simp only [leBytes, List.cons.injEq] at h
    have hlow : m % 256 = n % 256 := by
      have := congrArg UInt8.toNat h.1
      simpa using this
    rw [pow_succ, mul_comm (256 ^ w), Nat.mod_mul, Nat.mod_mul, hlow, ih h.2]

/-- What does not fit is dropped. -/
theorem leBytes_mod (w n : ℕ) : leBytes w (n % 256 ^ w) = leBytes w n := by
  induction w generalizing n with
  | zero => rfl
  | succ w ih =>
    have hlow : UInt8.ofNat (n % 256 ^ (w + 1)) = UInt8.ofNat n := by
      rw [← UInt8.toNat_inj, UInt8.toNat_ofNat', UInt8.toNat_ofNat']
      exact Nat.mod_mod_of_dvd n (dvd_pow_self 256 w.succ_ne_zero)
    have hhigh : n % 256 ^ (w + 1) / 256 = n / 256 % 256 ^ w := by
      rw [pow_succ, mul_comm, Nat.mod_mul_right_div_self]
    rw [leBytes, leBytes, hlow, hhigh, ih]

/-! ## 2. What stands at a position -/

/-- `At d pos bs`: the octets `bs` stand in `d` from position `pos` on. -/
def At (d : Octets) (pos : ℕ) (bs : Octets) : Prop := bs <+: d.drop pos

namespace At

variable {d xs ys : Octets} {b : UInt8} {pos : ℕ}

/-- The middle part of a concatenation stands behind the first one. -/
theorem middle (xs ys zs : Octets) : At (xs ++ ys ++ zs) xs.length ys := ⟨zs, by simp⟩

theorem left (h : At d pos (xs ++ ys)) : At d pos xs := (List.prefix_append xs ys).trans h

theorem right (h : At d pos (xs ++ ys)) : At d (pos + xs.length) ys := by
  obtain ⟨rest, hrest⟩ := h
  refine ⟨rest, ?_⟩
  rw [← List.drop_drop, ← hrest, List.append_assoc, List.drop_left]

theorem head (h : At d pos (b :: ys)) : d[pos]? = some b := by
  obtain ⟨rest, hrest⟩ := h
  have h0 : (d.drop pos)[0]? = some b := by rw [← hrest]; rfl
  simpa using h0

theorem tail (h : At d pos (b :: ys)) : At d (pos + 1) ys :=
  have hcons : At d pos ([b] ++ ys) := h
  hcons.right

theorem take (h : At d pos xs) : (d.drop pos).take xs.length = xs := by
  obtain ⟨rest, hrest⟩ := h
  rw [← hrest, List.take_left]

theorem pos_lt (h : At d pos xs) (hne : 0 < xs.length) : pos < d.length := by
  have hle := List.IsPrefix.length_le h
  rw [List.length_drop] at hle
  omega

theorem length_le (h : At d pos xs) (hpos : pos ≤ d.length) : pos + xs.length ≤ d.length := by
  have hle := List.IsPrefix.length_le h
  rw [List.length_drop] at hle
  omega

end At

end Octets
