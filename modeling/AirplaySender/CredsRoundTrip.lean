/-
# The credentials round trip

What `raopCredsToJson` writes `raopCredsFromJson` reads back, whatever the three keys and the client
id are.  The writer and the reader of a string share no code, so the agreement is between the two
tables of escapes: every byte the escaper treats on its own comes back through `unescape` or through
the four-digit form (`strBody_escapeChar`), and every other byte is neither the quote nor the
backslash.  Hex needs no escape, so all four members are strings written by `escape` (`member`).
-/
import AirplaySender.Creds

namespace AirplaySender

open Octets

namespace Json

/-! ## 1. Hex digits -/

theorem toNat_hexDigit {d : ℕ} (h : d < 16) :
    (hexDigit d).toNat = if d < 10 then 48 + d else 87 + d := by
  have : (if d < 10 then 48 + d else 87 + d) < 256 := by split <;> omega
  simp [hexDigit, Nat.mod_eq_of_lt this]

theorem nibble_hexDigit {d : ℕ} (h : d < 16) : nibble (hexDigit d) = some d := by
  have hd := toNat_hexDigit h
  simp only [nibble, UInt8.le_iff_toNat_le, UInt8.toNat_ofNat]
  by_cases hlow : d < 10
  · rw [if_pos hlow] at hd
    rw [if_pos (by omega)]
    congr 1
    omega
  · rw [if_neg hlow] at hd
    rw [if_neg (by omega), if_pos (by omega)]
    congr 1
    omega

theorem hexDecode_hexEncode (b : Octets) : hexDecode (hexEncode b) = some b := by
  induction b with
  | nil => rfl
  | cons x b ih =>
    have hx := x.toNat_lt
    have hd : UInt8.ofNat (x.toNat / 16 * 16 + x.toNat % 16) = x := by
      rw [Nat.div_add_mod', UInt8.ofNat_toNat]
    have hstep : hexEncode (x :: b) =
        hexDigit (x.toNat / 16) :: hexDigit (x.toNat % 16) :: hexEncode b := rfl
    rw [hstep, hexDecode, nibble_hexDigit (by omega), nibble_hexDigit (by omega), ih]
    simp only [Option.bind_eq_bind, Option.bind_some, hd]
    rfl

/-! ## 2. Strings -/

@[simp] theorem escape_nil : escape [] = [] := rfl

@[simp] theorem escape_cons (c : UInt8) (s : Octets) : escape (c :: s) = escapeChar c ++ escape s :=
  rfl

/-- A byte the escaper leaves alone. -/
def Plain (c : UInt8) : Prop := 32 ≤ c ∧ c ≠ 34 ∧ c ≠ 92

instance (c : UInt8) : Decidable (Plain c) := inferInstanceAs (Decidable (_ ∧ _ ∧ _))

theorem escapeChar_plain {c : UInt8} (h : Plain c) : escapeChar c = [c] := by
  obtain ⟨h32, h34, h92⟩ := h
  rw [UInt8.le_iff_toNat_le] at h32
  have hne : ∀ d : UInt8, d.toNat < 32 → c ≠ d := by
    rintro d hd rfl
    exact absurd h32 (by simpa using hd)
  have hlt : ¬ c < 0x20 := by
    rw [UInt8.lt_iff_toNat_lt]
    exact Nat.not_lt.mpr h32
  simp [escapeChar, h34, h92, hlt, hne 10 (by decide), hne 13 (by decide), hne 9 (by decide)]

theorem escape_plain {s : Octets} (h : ∀ c ∈ s, Plain c) : escape s = s := by
  induction s with
  | nil => rfl
  | cons c s ih =>
    rw [escape_cons, escapeChar_plain (h c (by simp)), ih fun d hd => h d (by simp [hd])]
    rfl

theorem hexDigit_plain {d : ℕ} (h : d < 16) : Plain (hexDigit d) := by
  have hd := toNat_hexDigit h
  have hne : ∀ e : UInt8, e.toNat < 48 ∨ e.toNat = 92 → hexDigit d ≠ e := by
    rintro e he rfl
    split at hd <;> omega
  refine ⟨?_, hne 34 (by decide), hne 92 (by decide)⟩
  rw [UInt8.le_iff_toNat_le, hd]
  split <;> simp <;> omega

theorem hexEncode_plain (b : Octets) : ∀ c ∈ hexEncode b, Plain c := by
  intro c hc
  obtain ⟨x, -, hx⟩ := List.mem_flatMap.mp hc
  have := x.toNat_lt
  simp only [List.mem_cons, List.not_mem_nil, or_false] at hx
  rcases hx with rfl | rfl
  · exact hexDigit_plain (by omega)
  · exact hexDigit_plain (by omega)

/-- Putting one character in front of what was read. -/
def before (c : UInt8) (r : Octets × Octets) : Octets × Octets := (c :: r.1, r.2)

variable {fuel : ℕ} {c : UInt8} {s rest : Octets}

theorem strBody_plain (h : Plain c) :
    strBody (fuel + 1) (c :: s) = (strBody fuel s).map (before c) := by
  obtain ⟨-, h34, h92⟩ := h
  simp only [strBody, if_neg h34, if_pos h92]
  cases strBody fuel s <;> rfl

/-- A backslash and one letter. -/
theorem strBody_unescape {e x : UInt8} (h : unescape e = some x) :
    strBody (fuel + 1) (92 :: e :: s) = (strBody fuel s).map (before x) := by
  have he : e ≠ 117 := by
    rintro rfl
    have h117 : unescape 117 = none := by decide
    simp [h117] at h
  rw [strBody]
  · simp only [if_neg (show ¬ (92 : UInt8) = 34 by decide), ne_eq, not_true, if_false, h]
    cases strBody fuel s <;> rfl
  · simp [he]

/-- The four-digit form of a byte below 32. -/
theorem strBody_control (h : c.toNat < 32) :
    strBody (fuel + 1) (ascii "\\u00" ++ [hexDigit (c.toNat / 16), hexDigit (c.toNat % 16)] ++ s) =
      (strBody fuel s).map (before c) := by
  have ha : ascii "\\u00" = [92, 117, 48, 48] := by decide
  have h0 : nibble 48 = some 0 := by decide
  have hc : ((0 * 16 + 0) * 16 + c.toNat / 16) * 16 + c.toNat % 16 = c.toNat := by omega
  have hu : utf8 (((0 * 16 + 0) * 16 + c.toNat / 16) * 16 + c.toNat % 16) = [c] := by
    rw [hc]
    simp [utf8, show c.toNat < 128 by omega]
  rw [ha]
  simp only [List.cons_append, List.nil_append, strBody]
  rw [h0, nibble_hexDigit (show c.toNat / 16 < 16 by omega),
    nibble_hexDigit (show c.toNat % 16 < 16 by omega)]
  simp only [Option.bind_eq_bind, Option.bind_some, hu]
  cases strBody fuel s <;> rfl

/-- **One character.**  What the escaper writes for a byte is read back as that byte. -/
theorem strBody_escapeChar (fuel : ℕ) (c : UInt8) (s : Octets) :
    strBody (fuel + 1) (escapeChar c ++ s) = (strBody fuel s).map (before c) := by
  by_cases h34 : c = 34
  · subst h34
    exact strBody_unescape (by decide)
  by_cases h92 : c = 92
  · subst h92
    exact strBody_unescape (by decide)
  by_cases h10 : c = 10
  · subst h10
    exact strBody_unescape (by decide)
  by_cases h13 : c = 13
  · subst h13
    exact strBody_unescape (by decide)
  by_cases h9 : c = 9
  · subst h9
    exact strBody_unescape (by decide)
  by_cases hlt : c < 0x20
  · have : escapeChar c =
        ascii "\\u00" ++ [hexDigit (c.toNat / 16), hexDigit (c.toNat % 16)] := by
      simp [escapeChar, h34, h92, h10, h13, h9, hlt]
    rw [this]
    exact strBody_control (UInt8.lt_iff_toNat_lt.mp hlt)
  · have hp : Plain c := ⟨UInt8.not_lt.mp hlt, h34, h92⟩
    rw [escapeChar_plain hp]
    exact strBody_plain hp

/-- The text of a string, whatever stands behind its closing quote. -/
theorem strBody_escape (s rest : Octets) (h : s.length < fuel) :
    strBody fuel (escape s ++ 34 :: rest) = some (s, rest) := by
  induction s generalizing fuel with
  | nil =>
    obtain ⟨fuel, rfl⟩ := Nat.exists_eq_add_one_of_ne_zero (Nat.ne_of_gt h)
    simp [strBody]
  | cons c s ih =>
    obtain ⟨fuel, rfl⟩ := Nat.exists_eq_add_one_of_ne_zero (Nat.ne_of_gt (Nat.zero_lt_of_lt h))
    rw [escape_cons, List.append_assoc, strBody_escapeChar, ih (by simpa using h)]
    rfl

theorem length_escape (s : Octets) : s.length ≤ (escape s).length := by
  induction s with
  | nil => rfl
  | cons c s ih =>
    have : 1 ≤ (escapeChar c).length := by
      unfold escapeChar
      split_ifs <;> simp
    simp only [escape_cons, List.length_append, List.length_cons]
    omega

/-- A character that is no blank. -/
theorem eat_self (h : ¬ (c = 32 ∨ c = 9 ∨ c = 10 ∨ c = 13)) : eat c (c :: rest) = some rest := by
  have : ws (c :: rest) = c :: rest := by
    push Not at h
    simp [ws, h]
  simp [eat, this]

theorem eat_other {d : UInt8} (h : ¬ (c = 32 ∨ c = 9 ∨ c = 10 ∨ c = 13)) (hd : c ≠ d) :
    eat d (c :: rest) = none := by
  have : ws (c :: rest) = c :: rest := by
    push Not at h
    simp [ws, h]
  simp [eat, this, hd]

/-- A written string is read as what was written. -/
theorem str_escape (s rest : Octets) : str (34 :: (escape s ++ 34 :: rest)) = some (s, rest) := by
  have hl := length_escape s
  rw [str, eat_self (by decide)]
  exact strBody_escape s rest (by simp; omega)

/-! ## 3. Members -/

/-- One member as the writer writes it. -/
def member (key value : Octets) : Octets := 34 :: (key ++ 34 :: 58 :: 34 :: (escape value ++ [34]))

variable {f f' : Fields} {key value : Octets}

/-- Whether a key is known does not depend on the value. -/
theorem store_isSome (f : Fields) (key value other : Octets) :
    (f.store key value).isSome = (f.store key other).isSome := by
  unfold Fields.store
  split_ifs <;> rfl

theorem memberValue_escape (h : f.store key value = some f') :
    memberValue f key (34 :: (escape value ++ 34 :: rest)) = some (f', rest) := by
  have hk : (f.store key []).isSome := by rw [store_isSome f key [] value, h]; rfl
  obtain ⟨g, hg⟩ := Option.isSome_iff_exists.mp hk
  simp only [memberValue, hg, str_escape]
  simp [h]

/-- **One member.**  It is stored, and the reader is behind it. -/
theorem members_member (hk : ∀ c ∈ key, Plain c) (h : f.store key value = some f') :
    members (fuel + 1) f (member key value ++ rest) =
      match eat 44 rest with
      | some s => members fuel f' s
      | none => (eat 125 rest).map fun _ => f' := by
  have hkey : member key value ++ rest =
      34 :: (escape key ++ 34 :: 58 :: 34 :: (escape value ++ 34 :: rest)) := by
    simp [member, escape_plain hk]
  rw [hkey, members, str_escape]
  simp only [Option.bind_eq_bind, Option.bind_some]
  rw [eat_self (by decide), Option.bind_some, memberValue_escape h]
  rfl

/-- A member with another one behind it. -/
theorem members_more (hk : ∀ c ∈ key, Plain c) (h : f.store key value = some f') :
    members (fuel + 1) f (member key value ++ 44 :: rest) = members fuel f' rest := by
  rw [members_member hk h, eat_self (by decide)]

/-- The last member. -/
theorem members_last (hk : ∀ c ∈ key, Plain c) (h : f.store key value = some f') :
    members (fuel + 1) f (member key value ++ [125]) = some f' := by
  rw [members_member hk h, eat_other (by decide) (by decide), eat_self (by decide)]
  rfl

end Json

open Json

/-- The text the writer produces: four members in the order of their keys. -/
theorem raopCredsToJson_members (c : Creds) :
    raopCredsToJson c =
      123 :: (member (ascii "atvId") (hexEncode c.atvId) ++
        44 :: (member (ascii "clientId") c.clientId ++
          44 :: (member (ascii "ltpk") (hexEncode c.ltpk) ++
            44 :: (member (ascii "ltsk") (hexEncode c.ltsk) ++ [125])))) := by
  have h₁ : ascii "\"atvId\":\"" = 34 :: (ascii "atvId" ++ [34, 58, 34]) := by decide
  have h₂ : ascii "\",\"clientId\":\"" = 34 :: 44 :: 34 :: (ascii "clientId" ++ [34, 58, 34]) := by
    decide
  have h₃ : ascii "\",\"ltpk\":\"" = 34 :: 44 :: 34 :: (ascii "ltpk" ++ [34, 58, 34]) := by decide
  have h₄ : ascii "\",\"ltsk\":\"" = 34 :: 44 :: 34 :: (ascii "ltsk" ++ [34, 58, 34]) := by decide
  simp only [raopCredsToJson, member, escape_plain (hexEncode_plain _), h₁, h₂, h₃, h₄,
    List.cons_append, List.append_assoc, List.nil_append]

/-- Four members are read one after the other, with fuel to spare. -/
theorem members_four {f₁ f₂ f₃ f₄ : Fields} {k₁ k₂ k₃ k₄ v₁ v₂ v₃ v₄ : Octets} {fuel : ℕ}
    (hplain : ∀ key ∈ [k₁, k₂, k₃, k₄], ∀ x ∈ key, Plain x) (h₁ : Fields.store {} k₁ v₁ = some f₁)
    (h₂ : f₁.store k₂ v₂ = some f₂) (h₃ : f₂.store k₃ v₃ = some f₃)
    (h₄ : f₃.store k₄ v₄ = some f₄) (hfuel : 4 ≤ fuel) :
    members fuel {} (member k₁ v₁ ++ 44 :: (member k₂ v₂ ++ 44 :: (member k₃ v₃ ++
      44 :: (member k₄ v₄ ++ [125])))) = some f₄ := by
  obtain ⟨more, rfl⟩ := Nat.exists_eq_add_of_le' hfuel
  rw [members_more (hplain k₁ (by simp)) h₁, members_more (hplain k₂ (by simp)) h₂,
    members_more (hplain k₃ (by simp)) h₃, members_last (hplain k₄ (by simp)) h₄]

/-- **Stored credentials survive.**  Whatever the keys and the client id are, what was written is
what is read. -/
theorem raopCredsFromJson_raopCredsToJson (c : Creds) :
    raopCredsFromJson (raopCredsToJson c) = some c := by
  have hplain : ∀ key ∈ [ascii "atvId", ascii "clientId", ascii "ltpk", ascii "ltsk"],
      ∀ x ∈ key, Plain x := by decide +kernel
  have hquote : ∀ key value rest, eat 125 (member key value ++ rest) = none := by
    intro key value rest
    exact eat_other (by decide) (by decide)
  rw [raopCredsToJson_members, raopCredsFromJson, eat_self (by decide)]
  simp only [Option.bind_eq_bind, Option.bind_some]
  rw [hquote]
  simp only
  rw [members_four hplain rfl rfl rfl rfl (by simp; omega)]
  simp [hexDecode_hexEncode]

end AirplaySender
