/-
# Integers in headers (`parseInt`, `toInt`, `toUInt`)

Status codes, lengths and ports come from the network as text.  `parseInt` reads a sign and decimal
digits, with a guard against overflow that divides before it multiplies; `parseInt_eq_some_iff` says
that it accepts exactly the integers whose digits stay below 2^63, and gives their value.

What is made of the value depends on the overload.  `toInt(s, ok)` refuses what is no `int`;
`toInt(s)`, which reads the status codes and the lengths of pushed events, narrows it, so that
`4294967496` is a `200` (`header_integer_iff`, `status_truncated`).
-/
import AirplaySender.Channel
import Mathlib.Data.Nat.Digits.Defs

namespace AirplaySender

open Octets

/-! ## 1. Decimal numbers -/

/-- A decimal digit. -/
def isDigit (c : UInt8) : Prop := 48 ≤ c ∧ c ≤ 57

/-- The value of a digit. -/
def digitValue (c : UInt8) : ℕ := c.toNat - 48

/-- The value of digits, the most significant first. -/
def decimalValue (digits : Octets) : ℕ := Nat.ofDigits 10 (digits.reverse.map digitValue)

/-- `s` is a sign, or none, and decimal digits below 2^63; `v` is their signed value. -/
def Denotes (s : Octets) (v : ℤ) : Prop :=
  ∃ sign digits, (sign = [] ∨ sign = [43] ∨ sign = [45]) ∧ s = sign ++ digits ∧ digits ≠ [] ∧
    (∀ c ∈ digits, isDigit c) ∧ decimalValue digits ≤ 2 ^ 63 - 1 ∧
    v = if sign = [45] then -(decimalValue digits : ℤ) else decimalValue digits

theorem isDigit_toNat {c : UInt8} : isDigit c ↔ 48 ≤ c.toNat ∧ c.toNat ≤ 57 := by
  rw [isDigit, UInt8.le_iff_toNat_le, UInt8.le_iff_toNat_le]
  rfl

theorem digitValue_lt {c : UInt8} (h : isDigit c) : digitValue c < 10 := by
  have hc := isDigit_toNat.mp h
  unfold digitValue
  omega

@[simp] theorem decimalValue_nil : decimalValue [] = 0 := rfl

/-- The first digit counts most. -/
theorem decimalValue_cons (c : UInt8) (cs : Octets) :
    decimalValue (c :: cs) = digitValue c * 10 ^ cs.length + decimalValue cs := by
  unfold decimalValue
  rw [List.reverse_cons, List.map_append, Nat.ofDigits_append]
  simp [Nat.ofDigits_singleton, Nat.mul_comm, Nat.add_comm]

/-! ## 2. The digit loop -/

/-- **The overflow guard is exact**: it refuses a digit if and only if the value with it would be
above the largest `long long`. -/
theorem guard_iff {v d : ℕ} (hd : d < 10) : (2 ^ 63 - 1 - d) / 10 < v ↔ 2 ^ 63 - 1 < v * 10 + d := by
  rw [Nat.div_lt_iff_lt_mul (by decide)]
  omega

/-- What the digit loop makes of digits, behind the value of those it has read. -/
theorem parseDigits_eq_some_iff (cs : Octets) : ∀ {v r : ℕ}, v ≤ 2 ^ 63 - 1 →
    (parseDigits v cs = some r ↔ (∀ c ∈ cs, isDigit c) ∧
      v * 10 ^ cs.length + decimalValue cs ≤ 2 ^ 63 - 1 ∧
      r = v * 10 ^ cs.length + decimalValue cs) := by
  induction cs with
  | nil =>
    intro v r hv
    simp only [parseDigits, Option.some.injEq, List.not_mem_nil, false_implies, implies_true,
      true_and, List.length_nil, pow_zero, mul_one, decimalValue_nil, Nat.add_zero]
    exact ⟨fun h => ⟨hv, h.symm⟩, fun h => h.2.symm⟩
  | cons c cs ih =>
    intro v r hv
    have hvalue : v * 10 ^ (c :: cs).length + decimalValue (c :: cs) =
        (v * 10 + digitValue c) * 10 ^ cs.length + decimalValue cs := by
      rw [decimalValue_cons, List.length_cons, pow_succ]
      ring
    rw [hvalue]
    have hread : c.toNat - 48 = digitValue c := rfl
    unfold parseDigits
    rw [hread]
    by_cases hdigit : isDigit c
    · have hlt := digitValue_lt hdigit
      have hno : ¬ ((c < 48 || 57 < c) = true) := by
        rw [Bool.or_eq_true, decide_eq_true_eq, decide_eq_true_eq, not_or, UInt8.not_lt, UInt8.not_lt]
        exact hdigit
      rw [if_neg hno]
      by_cases hover : 2 ^ 63 - 1 < v * 10 + digitValue c
      · -- the value can only grow from here
        rw [if_pos ((guard_iff hlt).mpr hover)]
        have hgrow : v * 10 + digitValue c ≤ (v * 10 + digitValue c) * 10 ^ cs.length :=
          Nat.le_mul_of_pos_right _ (by positivity)
        constructor
        · intro h
          cases h
        · rintro ⟨-, hle, -⟩
          omega
      · rw [if_neg (fun h => hover ((guard_iff hlt).mp h))]
        rw [ih (Nat.le_of_not_lt hover)]
        simp [hdigit]
    · have hyes : (c < 48 || 57 < c) = true := by
        rw [Bool.or_eq_true, decide_eq_true_eq, decide_eq_true_eq]
        by_contra hno
        rw [not_or, UInt8.not_lt, UInt8.not_lt] at hno
        exact hdigit hno
      rw [if_pos hyes]
      constructor
      · intro h
        cases h
      · rintro ⟨hall, -⟩
        exact absurd (hall c List.mem_cons_self) hdigit

/-- The digits as a whole. -/
theorem parseDigits_zero_iff {digits : Octets} {n : ℕ} : parseDigits 0 digits = some n ↔
    (∀ c ∈ digits, isDigit c) ∧ decimalValue digits ≤ 2 ^ 63 - 1 ∧ n = decimalValue digits := by
  rw [parseDigits_eq_some_iff digits (Nat.zero_le _), Nat.zero_mul, Nat.zero_add]

/-! ## 3. `parseInt` -/

/-- The digits behind a sign, or all there is. -/
def unsigned (c : UInt8) (cs : Octets) : Octets := if c = 45 ∨ c = 43 then cs else c :: cs

theorem parseInt_cons (c : UInt8) (cs : Octets) : parseInt (c :: cs) =
    if unsigned c cs = [] then none
    else (parseDigits 0 (unsigned c cs)).map fun n : ℕ => if c = 45 then -(n : ℤ) else n := by
  by_cases hminus : c = 45
  · subst hminus
    rfl
  by_cases hplus : c = 43
  · subst hplus
    rfl
  · simp [parseInt, unsigned, hplus, hminus]

/-- What a text denotes is decided by its first character. -/
theorem denotes_cons {c : UInt8} {cs : Octets} {v : ℤ} : Denotes (c :: cs) v ↔
    ∃ digits, unsigned c cs = digits ∧ digits ≠ [] ∧
      (∀ d ∈ digits, isDigit d) ∧ decimalValue digits ≤ 2 ^ 63 - 1 ∧
      v = if c = 45 then -(decimalValue digits : ℤ) else decimalValue digits := by
  unfold unsigned
  constructor
  · rintro ⟨sign, digits, hsign, hs, hne, hdigits, hle, hv⟩
    refine ⟨digits, ?_, hne, hdigits, hle, ?_⟩
    · rcases hsign with rfl | rfl | rfl
      · have hc : isDigit c := by
          refine hdigits c ?_
          rw [← List.nil_append digits, ← hs]
          exact List.mem_cons_self
        have hrange := isDigit_toNat.mp hc
        rw [if_neg, hs, List.nil_append]
        rintro (rfl | rfl)
        · exact absurd hrange.1 (by decide)
        · exact absurd hrange.1 (by decide)
      · obtain ⟨rfl, rfl⟩ := List.cons.inj hs
        rfl
      · obtain ⟨rfl, rfl⟩ := List.cons.inj hs
        rfl
    · rcases hsign with rfl | rfl | rfl
      · have hc : c ≠ 45 := by
          rintro rfl
          have hmem : (45 : UInt8) ∈ digits := by
            rw [← List.nil_append digits, ← hs]
            exact List.mem_cons_self
          exact absurd (isDigit_toNat.mp (hdigits _ hmem)).1 (by decide)
        rw [hv, if_neg (by simp), if_neg hc]
      · obtain ⟨rfl, -⟩ := List.cons.inj hs
        rw [hv, if_neg (by decide), if_neg (by decide)]
      · obtain ⟨rfl, -⟩ := List.cons.inj hs
        rw [hv, if_pos rfl, if_pos rfl]
  · rintro ⟨digits, hs, hne, hdigits, hle, hv⟩
    by_cases hminus : c = 45
    · rw [if_pos (.inl hminus)] at hs
      rw [if_pos hminus] at hv
      exact ⟨[45], digits, by simp, by rw [hminus, hs]; rfl, hne, hdigits, hle, by rw [if_pos rfl]; exact hv⟩
    rw [if_neg hminus] at hv
    by_cases hplus : c = 43
    · rw [if_pos (.inr hplus)] at hs
      exact ⟨[43], digits, by simp, by rw [hplus, hs]; rfl, hne, hdigits, hle, by rw [if_neg (by decide)]; exact hv⟩
    · rw [if_neg (by simp [hminus, hplus])] at hs
      exact ⟨[], digits, by simp, hs, hne, hdigits, hle, by rw [if_neg (by simp)]; exact hv⟩

/-- **`parseInt` accepts signed decimal numbers below 2^63**, and gives their value. -/
theorem parseInt_eq_some_iff (s : Octets) (v : ℤ) : parseInt s = some v ↔ Denotes s v := by
  cases s with
  | nil =>
    constructor
    · intro h
      cases h
    · rintro ⟨sign, digits, -, hs, hne, -⟩
      exact absurd (List.append_eq_nil_iff.mp hs.symm).2 hne
  | cons c cs =>
    rw [denotes_cons, parseInt_cons]
    simp only [exists_eq_left']
    by_cases hne : unsigned c cs = []
    · simp [hne]
    · rw [if_neg hne]
      simp only [Option.map_eq_some_iff, parseDigits_zero_iff]
      constructor
      · rintro ⟨n, ⟨hdigits, hle, rfl⟩, rfl⟩
        exact ⟨hne, hdigits, hle, rfl⟩
      · rintro ⟨-, hdigits, hle, rfl⟩
        exact ⟨_, ⟨hdigits, hle, rfl⟩, rfl⟩

/-! ## 4. The two overloads of `toInt` -/

/-- The values of an `int`. -/
def FitsInt (v : ℤ) : Prop := -(2 ^ 31) ≤ v ∧ v < 2 ^ 31

instance (v : ℤ) : Decidable (FitsInt v) := inferInstanceAs (Decidable (_ ∧ _))

theorem wrap32_of_fits {v : ℤ} (h : FitsInt v) : wrap32 v = v :=
  Int.bmod_eq_of_le (by have := h.1; omega) (by have := h.2; omega)

theorem wrap32_eq_zero_iff {v : ℤ} : wrap32 v = 0 ↔ 2 ^ 32 ∣ v := by
  have hdvd : ((2 ^ 32 : ℕ) : ℤ) ∣ v ↔ Int.bmod v (2 ^ 32) = 0 := Int.dvd_iff_bmod_eq_zero
  unfold wrap32
  rw [← hdvd]
  norm_num

theorem toInt_of_parse {s : Octets} {v : ℤ} (h : parseInt s = some v) : toInt s = wrap32 v := by
  rw [toInt, h]
  rfl

/-- The checked overload gives what fits. -/
theorem toIntOk_of_fits {s : Octets} {v : ℤ} (h : parseInt s = some v) (hv : FitsInt v) :
    toIntOk s = some v := by
  unfold FitsInt at hv
  rw [toIntOk, h, Option.bind_some, if_neg (by omega)]

theorem toIntOk_of_not_fits {s : Octets} {v : ℤ} (h : parseInt s = some v) (hv : ¬ FitsInt v) :
    toIntOk s = none := by
  unfold FitsInt at hv
  rw [toIntOk, h, Option.bind_some, if_pos (by omega)]

/-- An integer of a header is read for what it is: `parseInt` takes signed decimal numbers below
2^63 and nothing else, the two overloads of `toInt` agree, and what is no `int` is 0. -/
structure ReadExactly (s : Octets) : Prop where
  parsed : ∀ v, parseInt s = some v ↔ Denotes s v
  agree : toInt s = (toIntOk s).getD 0
  zero : ∀ v, parseInt s = some v → ¬ FitsInt v → toInt s = 0

/-- **Headers are read exactly** if and only if the number there, if there is one, is an `int` or a
multiple of 2^32. -/
theorem header_integer_iff (s : Octets) :
    ReadExactly s ↔ ∀ v, Denotes s v → FitsInt v ∨ 2 ^ 32 ∣ v := by
  constructor
  · intro h v hv
    have hparse := (h.parsed v).mpr hv
    by_cases hfits : FitsInt v
    · exact .inl hfits
    · right
      rw [← wrap32_eq_zero_iff, ← toInt_of_parse hparse]
      exact h.zero v hparse hfits
  · intro h
    have hzero : ∀ v, parseInt s = some v → ¬ FitsInt v → toInt s = 0 := by
      intro v hparse hfits
      rw [toInt_of_parse hparse, wrap32_eq_zero_iff]
      exact (h v ((parseInt_eq_some_iff s v).mp hparse)).resolve_left hfits
    refine ⟨parseInt_eq_some_iff s, ?_, hzero⟩
    cases hparse : parseInt s with
    | none => rw [toInt, toIntOk, hparse]; rfl
    | some v =>
      by_cases hfits : FitsInt v
      · rw [toInt_of_parse hparse, toIntOk_of_fits hparse hfits, wrap32_of_fits hfits]
        rfl
      · rw [hzero v hparse hfits, toIntOk_of_not_fits hparse hfits]
        rfl

/-- **A truncated status code**: the text of 2^32 + 200 is refused by one overload and a 200 to the
other, which reads the status line; so it is with the length of a pushed event. -/
theorem status_truncated : ¬ ReadExactly (ascii "4294967496") ∧
    toIntOk (ascii "4294967496") = none ∧ toInt (ascii "4294967496") = 200 ∧
    statusCode (ascii "RTSP/1.0 4294967496 OK") = 200 := by
  have hparse : parseInt (ascii "4294967496") = some 4294967496 := by decide +kernel
  refine ⟨fun h => ?_, by decide +kernel, by decide +kernel, by decide +kernel⟩
  have hzero := h.zero _ hparse (by unfold FitsInt; omega)
  rw [toInt_of_parse hparse] at hzero
  exact absurd hzero (by decide)

end AirplaySender
