/-
# JSON texts

The grammar of JSON over octets, as relations between a text and what it says: blanks, numbers and
literals, strings as sequences of code units, and `Is`, one family for values, elements and members,
so that an induction over a text is an induction over its derivation.  `Members` reads the members of
an object, each with its key and with its value where that is a string.

What a string stands for is `decode`: two UTF-16 units that are a surrogate pair are one character,
every other unit is on its own.
-/
import AirplaySender.Lib.Octets

namespace JsonText

open Octets

/-! ## 1. Blanks, numbers and literals -/

/-- A blank. -/
def IsBlank (c : UInt8) : Prop := c = 32 ∨ c = 9 ∨ c = 10 ∨ c = 13

/-- Blanks between tokens. -/
def Ws (s : Octets) : Prop := ∀ c ∈ s, IsBlank c

/-- A decimal digit. -/
def IsDigit (c : UInt8) : Prop := 48 ≤ c.toNat ∧ c.toNat ≤ 57

/-- One digit or more. -/
def Digits (s : Octets) : Prop := s ≠ [] ∧ ∀ c ∈ s, IsDigit c

/-- The integer part of a number: no leading zeros. -/
inductive Whole : Octets → Prop
  | zero : Whole [48]
  | digits {d : UInt8} {ds : Octets} (hd : IsDigit d) (h0 : d ≠ 48) (hds : ∀ c ∈ ds, IsDigit c) :
      Whole (d :: ds)

/-- A fraction, or none. -/
def Fraction (s : Octets) : Prop := s = [] ∨ ∃ ds, Digits ds ∧ s = 46 :: ds

/-- An exponent, or none. -/
def Exponent (s : Octets) : Prop :=
  s = [] ∨ ∃ e sign ds, (e = 101 ∨ e = 69) ∧ (sign = [] ∨ sign = [43] ∨ sign = [45]) ∧ Digits ds ∧
    s = e :: (sign ++ ds)

/-- A number. -/
def Number (s : Octets) : Prop :=
  ∃ sign whole fraction exponent, (sign = [] ∨ sign = [45]) ∧ Whole whole ∧ Fraction fraction ∧
    Exponent exponent ∧ s = sign ++ (whole ++ (fraction ++ exponent))

/-- A value of one token that is no string. -/
def Atom (s : Octets) : Prop :=
  Number s ∨ s = ascii "true" ∨ s = ascii "false" ∨ s = ascii "null"

/-- A character that no number and no literal has: a blank, or one that structures a text. -/
def IsMark (c : UInt8) : Prop :=
  IsBlank c ∨ c = 34 ∨ c = 44 ∨ c = 58 ∨ c = 91 ∨ c = 93 ∨ c = 123 ∨ c = 125

instance (c : UInt8) : Decidable (IsBlank c) := inferInstanceAs (Decidable (_ ∨ _ ∨ _ ∨ _))

instance (c : UInt8) : Decidable (IsMark c) :=
  inferInstanceAs (Decidable (_ ∨ _ ∨ _ ∨ _ ∨ _ ∨ _ ∨ _ ∨ _))

theorem IsDigit.not_mark {c : UInt8} (h : IsDigit c) : ¬ IsMark c := by
  unfold IsDigit at h
  rintro ((rfl | rfl | rfl | rfl) | rfl | rfl | rfl | rfl | rfl | rfl | rfl) <;>
    exact absurd h (by decide)

theorem Digits.not_mark {s : Octets} (h : Digits s) : ∀ c ∈ s, ¬ IsMark c :=
  fun c hc => (h.2 c hc).not_mark

theorem Whole.not_mark {s : Octets} (h : Whole s) : ∀ c ∈ s, ¬ IsMark c := by
  cases h with
  | zero =>
    intro c hc
    rw [List.mem_singleton.mp hc]
    decide
  | digits hd h0 hds =>
    intro c hc
    rcases List.mem_cons.mp hc with rfl | hc
    · exact hd.not_mark
    · exact (hds c hc).not_mark

theorem Fraction.not_mark {s : Octets} (h : Fraction s) : ∀ c ∈ s, ¬ IsMark c := by
  rcases h with rfl | ⟨ds, hds, rfl⟩
  · intro c hc
    cases hc
  · intro c hc
    rcases List.mem_cons.mp hc with rfl | hc
    · decide
    · exact hds.not_mark c hc

theorem Exponent.not_mark {s : Octets} (h : Exponent s) : ∀ c ∈ s, ¬ IsMark c := by
  rcases h with rfl | ⟨e, sign, ds, he, hsign, hds, rfl⟩
  · intro c hc
    cases hc
  · intro c hc
    rcases List.mem_cons.mp hc with rfl | hc
    · rcases he with rfl | rfl <;> decide
    rcases List.mem_append.mp hc with hc | hc
    · rcases hsign with rfl | rfl | rfl
      · cases hc
      · rw [List.mem_singleton.mp hc]
        decide
      · rw [List.mem_singleton.mp hc]
        decide
    · exact hds.not_mark c hc

/-- **Numbers and literals have no marks.** -/
theorem Atom.not_mark {s : Octets} (h : Atom s) : ∀ c ∈ s, ¬ IsMark c := by
  rcases h with ⟨sign, whole, fraction, exponent, hsign, hwhole, hfraction, hexponent, rfl⟩ | rfl | rfl | rfl
  · intro c hc
    rcases List.mem_append.mp hc with hc | hc
    · rcases hsign with rfl | rfl
      · cases hc
      · rw [List.mem_singleton.mp hc]
        decide
    rcases List.mem_append.mp hc with hc | hc
    · exact hwhole.not_mark c hc
    rcases List.mem_append.mp hc with hc | hc
    · exact hfraction.not_mark c hc
    · exact hexponent.not_mark c hc
  · decide +kernel
  · decide +kernel
  · decide +kernel

theorem Whole.ne_nil {s : Octets} (h : Whole s) : s ≠ [] := by
  cases h <;> exact List.cons_ne_nil _ _

theorem Atom.ne_nil {s : Octets} (h : Atom s) : s ≠ [] := by
  rcases h with ⟨sign, whole, fraction, exponent, -, hwhole, -, -, rfl⟩ | rfl | rfl | rfl
  · intro hnil
    exact hwhole.ne_nil (List.append_eq_nil_iff.mp (List.append_eq_nil_iff.mp hnil).2).1
  · decide
  · decide
  · decide

/-! ## 2. Strings -/

/-- What a string is made of: octets as they are, and UTF-16 code units by number. -/
inductive CodeUnit
  | octet (c : UInt8)
  | utf16 (u : ℕ)
  deriving DecidableEq

/-- A hex digit and its value. -/
def HexDigit (c : UInt8) (v : ℕ) : Prop :=
  (48 ≤ c.toNat ∧ c.toNat ≤ 57 ∧ v = c.toNat - 48) ∨ (97 ≤ c.toNat ∧ c.toNat ≤ 102 ∧ v = c.toNat - 87) ∨
    (65 ≤ c.toNat ∧ c.toNat ≤ 70 ∧ v = c.toNat - 55)

/-- The escapes of one letter, with what they stand for. -/
def letters : List (UInt8 × UInt8) :=
  [(34, 34), (92, 92), (47, 47), (98, 8), (102, 12), (110, 10), (114, 13), (116, 9)]

/-- How one code unit is spelled. -/
inductive Spells : Octets → CodeUnit → Prop
  | plain {c : UInt8} (h : 32 ≤ c) (hquote : c ≠ 34) (hback : c ≠ 92) : Spells [c] (.octet c)
  | letter {e x : UInt8} (h : (e, x) ∈ letters) : Spells [92, e] (.octet x)
  | hex {h₁ h₂ h₃ h₄ : UInt8} {a b c d : ℕ} (ha : HexDigit h₁ a) (hb : HexDigit h₂ b)
      (hc : HexDigit h₃ c) (hd : HexDigit h₄ d) :
      Spells [92, 117, h₁, h₂, h₃, h₄] (.utf16 (((a * 16 + b) * 16 + c) * 16 + d))

/-- The text between the quotes of a string. -/
inductive Chars : Octets → List CodeUnit → Prop
  | nil : Chars [] []
  | cons {t ts : Octets} {u : CodeUnit} {us : List CodeUnit} (h : Spells t u) (hs : Chars ts us) :
      Chars (t ++ ts) (u :: us)

/-- The UTF-8 octets of a code point. -/
def utf8 (cp : ℕ) : Octets :=
  if cp < 0x80 then [UInt8.ofNat cp]
  else if cp < 0x800 then [UInt8.ofNat (0xC0 + cp / 64), UInt8.ofNat (0x80 + cp % 64)]
  else if cp < 0x10000 then
    [UInt8.ofNat (0xE0 + cp / 4096), UInt8.ofNat (0x80 + cp / 64 % 64), UInt8.ofNat (0x80 + cp % 64)]
  else
    [UInt8.ofNat (0xF0 + cp / 262144), UInt8.ofNat (0x80 + cp / 4096 % 64),
      UInt8.ofNat (0x80 + cp / 64 % 64), UInt8.ofNat (0x80 + cp % 64)]

/-- The octets of a code unit on its own. -/
def CodeUnit.octets : CodeUnit → Octets
  | .octet c => [c]
  | .utf16 u => utf8 u

/-- The first half of a surrogate pair. -/
def High (u : ℕ) : Prop := 0xD800 ≤ u ∧ u ≤ 0xDBFF

/-- The second half. -/
def Low (u : ℕ) : Prop := 0xDC00 ≤ u ∧ u ≤ 0xDFFF

instance (u : ℕ) : Decidable (High u) := inferInstanceAs (Decidable (_ ∧ _))

instance (u : ℕ) : Decidable (Low u) := inferInstanceAs (Decidable (_ ∧ _))

/-- The code point of a surrogate pair. -/
def pairPoint (hi lo : ℕ) : ℕ := 0x10000 + (hi - 0xD800) * 1024 + (lo - 0xDC00)

/-- **What a string stands for**, in UTF-8. -/
def decode : List CodeUnit → Octets
  | [] => []
  | .utf16 hi :: .utf16 lo :: us =>
    if High hi ∧ Low lo then utf8 (pairPoint hi lo) ++ decode us
    else utf8 hi ++ decode (.utf16 lo :: us)
  | u :: us => u.octets ++ decode us

/-- Every code unit on its own. -/
def separately (us : List CodeUnit) : Octets := us.flatMap CodeUnit.octets

/-- Somewhere there is a surrogate pair. -/
def HasPair (us : List CodeUnit) : Prop :=
  ∃ before hi lo behind, us = before ++ .utf16 hi :: .utf16 lo :: behind ∧ High hi ∧ Low lo

variable {us : List CodeUnit} {u : CodeUnit}

theorem separately_cons (u : CodeUnit) (us : List CodeUnit) :
    separately (u :: us) = u.octets ++ separately us := List.flatMap_cons

/-- The pair is in front or behind. -/
theorem hasPair_cons : HasPair (u :: us) ↔
    (∃ hi lo behind, u = .utf16 hi ∧ us = .utf16 lo :: behind ∧ High hi ∧ Low lo) ∨ HasPair us := by
  constructor
  · rintro ⟨before, hi, lo, behind, heq, hhi, hlo⟩
    cases before with
    | nil =>
      obtain ⟨rfl, rfl⟩ := List.cons.inj heq
      exact .inl ⟨hi, lo, behind, rfl, rfl, hhi, hlo⟩
    | cons v before =>
      obtain ⟨rfl, rfl⟩ := List.cons.inj heq
      exact .inr ⟨before, hi, lo, behind, rfl, hhi, hlo⟩
  · rintro (⟨hi, lo, behind, rfl, rfl, hhi, hlo⟩ | ⟨before, hi, lo, behind, rfl, hhi, hlo⟩)
    · exact ⟨[], hi, lo, behind, rfl, hhi, hlo⟩
    · exact ⟨u :: before, hi, lo, behind, rfl, hhi, hlo⟩

theorem not_hasPair_nil : ¬ HasPair [] := by
  rintro ⟨before, hi, lo, behind, heq, -⟩
  exact absurd heq.symm (by simp)

/-- A pair in front is one character. -/
theorem decode_pair {hi lo : ℕ} (h : High hi ∧ Low lo) (us : List CodeUnit) :
    decode (.utf16 hi :: .utf16 lo :: us) = utf8 (pairPoint hi lo) ++ decode us := by
  rw [decode, if_pos h]

/-- A unit in front that begins no pair is on its own. -/
theorem decode_cons (h : ¬ ∃ hi lo behind, u = .utf16 hi ∧ us = .utf16 lo :: behind ∧ High hi ∧ Low lo) :
    decode (u :: us) = u.octets ++ decode us := by
  cases u with
  | octet c => simp [decode]
  | utf16 hi =>
    cases us with
    | nil => simp [decode]
    | cons v us =>
      cases v with
      | octet c => simp [decode]
      | utf16 lo =>
        have hno : ¬ (High hi ∧ Low lo) := fun hpair => h ⟨hi, lo, us, rfl, rfl, hpair.1, hpair.2⟩
        rw [decode, if_neg hno]
        rfl

/-- The first octet of a pair, and of its first half on its own. -/
theorem head_pair {hi lo : ℕ} (hhi : High hi) (hlo : Low lo) :
    (∃ b rest, utf8 (pairPoint hi lo) = b :: rest ∧ 240 ≤ b.toNat) ∧
      ∃ rest, utf8 hi = 237 :: rest := by
  unfold High at hhi
  unfold Low at hlo
  have hpoint : 0x10000 ≤ pairPoint hi lo ∧ pairPoint hi lo < 0x110000 := by
    unfold pairPoint
    omega
  constructor
  · have hutf8 : utf8 (pairPoint hi lo) = UInt8.ofNat (0xF0 + pairPoint hi lo / 262144) ::
        [UInt8.ofNat (0x80 + pairPoint hi lo / 4096 % 64), UInt8.ofNat (0x80 + pairPoint hi lo / 64 % 64),
          UInt8.ofNat (0x80 + pairPoint hi lo % 64)] := by
      unfold utf8
      rw [if_neg (by omega), if_neg (by omega), if_neg (by omega)]
    refine ⟨_, _, hutf8, ?_⟩
    rw [UInt8.toNat_ofNat']
    omega
  · have hfirst : 0xE0 + hi / 4096 = 237 := by omega
    refine ⟨[UInt8.ofNat (0x80 + hi / 64 % 64), UInt8.ofNat (0x80 + hi % 64)], ?_⟩
    unfold utf8
    rw [if_neg (by omega), if_neg (by omega), if_pos (by omega), hfirst]
    rfl

/-- **Pairs are all that makes a difference** between decoding a string and taking its units one by
one. -/
theorem decode_eq_separately_iff (us : List CodeUnit) : decode us = separately us ↔ ¬ HasPair us := by
  induction us with
  | nil => exact ⟨fun _ => not_hasPair_nil, fun _ => rfl⟩
  | cons u us ih =>
    by_cases hfront : ∃ hi lo behind, u = .utf16 hi ∧ us = .utf16 lo :: behind ∧ High hi ∧ Low lo
    · obtain ⟨hi, lo, behind, rfl, rfl, hhi, hlo⟩ := hfront
      obtain ⟨⟨b, rest, hpair, hb⟩, rest', hhalf⟩ := head_pair hhi hlo
      constructor
      · intro h
        rw [decode_pair ⟨hhi, hlo⟩, hpair, separately_cons, CodeUnit.octets, hhalf] at h
        obtain ⟨rfl, -⟩ := List.cons.inj h
        exact absurd hb (by decide)
      · intro h
        exact absurd (hasPair_cons.mpr (.inl ⟨hi, lo, behind, rfl, rfl, hhi, hlo⟩)) h
    · rw [decode_cons hfront, separately_cons, List.append_cancel_left_eq, ih, hasPair_cons, not_or]
      exact (and_iff_right hfront).symm

/-- A pair leaves octets that are no ASCII, either way. -/
theorem HasPair.not_ascii (h : HasPair us) :
    (∃ b ∈ decode us, 128 ≤ b.toNat) ∧ ∃ b ∈ separately us, 128 ≤ b.toNat := by
  induction us with
  | nil => exact absurd h not_hasPair_nil
  | cons u us ih =>
    by_cases hfront : ∃ hi lo behind, u = .utf16 hi ∧ us = .utf16 lo :: behind ∧ High hi ∧ Low lo
    · obtain ⟨hi, lo, behind, rfl, rfl, hhi, hlo⟩ := hfront
      obtain ⟨⟨b, rest, hpair, hb⟩, rest', hhalf⟩ := head_pair hhi hlo
      constructor
      · refine ⟨b, ?_, by omega⟩
        rw [decode_pair ⟨hhi, hlo⟩, hpair]
        exact List.mem_cons_self
      · refine ⟨237, ?_, by decide⟩
        rw [separately_cons, CodeUnit.octets, hhalf]
        exact List.mem_cons_self
    · obtain ⟨⟨b, hb, hhigh⟩, b', hb', hhigh'⟩ := ih ((hasPair_cons.mp h).resolve_left hfront)
      rw [decode_cons hfront, separately_cons]
      exact ⟨⟨b, List.mem_append_right _ hb, hhigh⟩, b', List.mem_append_right _ hb', hhigh'⟩

/-- A string that stands for ASCII is read the same either way. -/
theorem decode_eq_iff_of_ascii {s : Octets} (h : ∀ b ∈ s, b.toNat < 128) :
    decode us = s ↔ separately us = s := by
  constructor
  · rintro rfl
    refine ((decode_eq_separately_iff us).mpr fun hpair => ?_).symm
    obtain ⟨⟨b, hb, hhigh⟩, -⟩ := hpair.not_ascii
    exact absurd (h b hb) (not_lt.mpr hhigh)
  · rintro rfl
    refine (decode_eq_separately_iff us).mpr fun hpair => ?_
    obtain ⟨-, b, hb, hhigh⟩ := hpair.not_ascii
    exact absurd (h b hb) (not_lt.mpr hhigh)

/-! ## 3. Values -/

/-- What a text can be a text of. -/
inductive Kind
  | value
  | elements
  | members

/-- **The grammar.** -/
inductive Is : Kind → Octets → Prop
  | atom {s : Octets} (h : Atom s) : Is .value s
  | string {s : Octets} {us : List CodeUnit} (h : Chars s us) : Is .value (34 :: (s ++ [34]))
  | emptyArray {w : Octets} (h : Ws w) : Is .value (91 :: (w ++ [93]))
  | array {s : Octets} (h : Is .elements s) : Is .value (91 :: (s ++ [93]))
  | emptyObject {w : Octets} (h : Ws w) : Is .value (123 :: (w ++ [125]))
  | object {s : Octets} (h : Is .members s) : Is .value (123 :: (s ++ [125]))
  | element {w₁ v w₂ : Octets} (h₁ : Ws w₁) (h : Is .value v) (h₂ : Ws w₂) :
      Is .elements (w₁ ++ (v ++ w₂))
  | elements {s₁ s₂ : Octets} (h₁ : Is .elements s₁) (h₂ : Is .elements s₂) :
      Is .elements (s₁ ++ 44 :: s₂)
  | member {w₁ k w₂ w₃ v w₄ : Octets} {us : List CodeUnit} (h₁ : Ws w₁) (hk : Chars k us) (h₂ : Ws w₂)
      (h₃ : Ws w₃) (h : Is .value v) (h₄ : Ws w₄) :
      Is .members (w₁ ++ 34 :: (k ++ 34 :: (w₂ ++ 58 :: (w₃ ++ (v ++ w₄)))))
  | members {s₁ s₂ : Octets} (h₁ : Is .members s₁) (h₂ : Is .members s₂) :
      Is .members (s₁ ++ 44 :: s₂)

/-- A value, and what it stands for where it is a string. -/
inductive Content : Octets → Option (List CodeUnit) → Prop
  | string {s : Octets} {us : List CodeUnit} (h : Chars s us) : Content (34 :: (s ++ [34])) (some us)
  | other {s : Octets} (h : Is .value s) (hno : s.head? ≠ some 34) : Content s none

/-- The members of an object, with their keys and contents in the order of the text. -/
inductive Members : Octets → List (List CodeUnit × Option (List CodeUnit)) → Prop
  | last {w₁ k w₂ w₃ v w₄ : Octets} {us : List CodeUnit} {c : Option (List CodeUnit)} (h₁ : Ws w₁)
      (hk : Chars k us) (h₂ : Ws w₂) (h₃ : Ws w₃) (h : Content v c) (h₄ : Ws w₄) :
      Members (w₁ ++ 34 :: (k ++ 34 :: (w₂ ++ 58 :: (w₃ ++ (v ++ w₄))))) [(us, c)]
  | more {w₁ k w₂ w₃ v w₄ s : Octets} {us : List CodeUnit} {c : Option (List CodeUnit)}
      {ms : List (List CodeUnit × Option (List CodeUnit))} (h₁ : Ws w₁) (hk : Chars k us) (h₂ : Ws w₂)
      (h₃ : Ws w₃) (h : Content v c) (h₄ : Ws w₄) (hs : Members s ms) :
      Members (w₁ ++ 34 :: (k ++ 34 :: (w₂ ++ 58 :: (w₃ ++ (v ++ (w₄ ++ 44 :: s)))))) ((us, c) :: ms)

/-- A text that is an object, with blanks around it. -/
inductive ObjectText : Octets → List (List CodeUnit × Option (List CodeUnit)) → Prop
  | empty {w₁ w₂ w₃ : Octets} (h₁ : Ws w₁) (h₂ : Ws w₂) (h₃ : Ws w₃) :
      ObjectText (w₁ ++ 123 :: (w₂ ++ 125 :: w₃)) []
  | members {w₁ s w₂ : Octets} {ms : List (List CodeUnit × Option (List CodeUnit))} (h₁ : Ws w₁)
      (h : Members s ms) (h₂ : Ws w₂) : ObjectText (w₁ ++ 123 :: (s ++ 125 :: w₂)) ms

end JsonText
