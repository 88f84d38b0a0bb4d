/-
# The credentials reader takes any JSON object

`raopCredsFromJson` collects four members and skips the others, objects and arrays by counting
brackets outside strings.  Counting is enough: behind every value of the grammar the counter is where
it was (`skipNested_neutral`), so that `skipValue` ends behind the value, wherever brackets and quotes
stand inside it.  The loop over the members then is a fold over what the text says (`members_read`).

A string is read unit by unit, which leaves the halves of a surrogate pair apart; in the client id
they can be, so that the credentials are right exactly where its text has no such pair
(`reader_exact_iff`).
-/
import AirplaySender.CredsRoundTrip
import AirplaySender.Lib.JsonText
import Mathlib.Data.List.Induction

namespace AirplaySender

open Octets

namespace Json

open JsonText (Ws IsBlank IsMark Chars Spells CodeUnit HexDigit Is Content Members separately decode)

/-! ## 1. Blanks -/

theorem ws_blank {c : UInt8} (h : IsBlank c) (s : Octets) : ws (c :: s) = ws s := by
  rcases h with rfl | rfl | rfl | rfl <;> rfl

theorem ws_append {w : Octets} (h : Ws w) (s : Octets) : ws (w ++ s) = ws s := by
  induction w with
  | nil => rfl
  | cons c w ih =>
    rw [List.cons_append, ws_blank (h c List.mem_cons_self)]
    exact ih fun d hd => h d (List.mem_cons_of_mem _ hd)

theorem ws_cons {c : UInt8} (h : ¬ IsBlank c) (s : Octets) : ws (c :: s) = c :: s := by
  have hno : ¬ (c == 32 || c == 9 || c == 10 || c == 13) = true := by
    simp only [Bool.or_eq_true, beq_iff_eq, or_assoc]
    exact h
  exact List.dropWhile_cons_of_neg hno

theorem eat_append {w : Octets} (h : Ws w) (c : UInt8) (s : Octets) : eat c (w ++ s) = eat c s := by
  rw [eat, ws_append h, eat]

theorem str_append {w : Octets} (h : Ws w) (s : Octets) : str (w ++ s) = str s := by
  rw [str, eat_append h, str]

/-! ## 2. Strings -/

variable {t s rest : Octets} {u : CodeUnit} {us : List CodeUnit} {fuel : ℕ}

theorem nibble_of_hexDigit {c : UInt8} {v : ℕ} (h : HexDigit c v) : nibble c = some v ∧ v < 16 := by
  unfold nibble
  simp only [UInt8.le_iff_toNat_le, UInt8.toNat_ofNat]
  rcases h with ⟨hlow, hhigh, rfl⟩ | ⟨hlow, hhigh, rfl⟩ | ⟨hlow, hhigh, rfl⟩
  · rw [if_pos (by omega)]
    exact ⟨rfl, by omega⟩
  · rw [if_neg (by omega), if_pos (by omega)]
    exact ⟨rfl, by omega⟩
  · rw [if_neg (by omega), if_neg (by omega), if_pos (by omega)]
    exact ⟨rfl, by omega⟩

theorem utf8_eq {cp : ℕ} (h : cp < 0x10000) : utf8 cp = JsonText.utf8 cp := by
  unfold utf8 JsonText.utf8
  rw [if_pos h]

/-- **One unit.**  However it is spelled, its octets are read. -/
theorem strBody_spells (h : Spells t u) (s : Octets) :
    strBody (fuel + 1) (t ++ s) = (strBody fuel s).map fun r => (u.octets ++ r.1, r.2) := by
  cases h with
  | plain hlow hquote hback => exact strBody_plain ⟨hlow, hquote, hback⟩
  | letter hmem =>
    rename_i e x
    have hletter : unescape e = some x := by
      have hall : JsonText.letters.all fun p => unescape p.1 = some p.2 := by decide
      exact of_decide_eq_true (List.all_eq_true.mp hall _ hmem)
    exact strBody_unescape hletter
  | hex ha hb hc hd =>
    rename_i h₁ h₂ h₃ h₄ a b c d
    obtain ⟨hna, hla⟩ := nibble_of_hexDigit ha
    obtain ⟨hnb, hlb⟩ := nibble_of_hexDigit hb
    obtain ⟨hnc, hlc⟩ := nibble_of_hexDigit hc
    obtain ⟨hnd, hld⟩ := nibble_of_hexDigit hd
    simp only [List.cons_append, List.nil_append, strBody]
    rw [hna, hnb, hnc, hnd]
    have hpoint : ((a * 16 + b) * 16 + c) * 16 + d < 0x10000 := by omega
    simp only [Option.bind_eq_bind, Option.bind_some, utf8_eq hpoint]
    cases strBody fuel s <;> rfl

theorem Spells.length_pos (h : Spells t u) : 0 < t.length := by
  cases h <;> simp

/-- **A string is read to its end**, unit by unit. -/
theorem strBody_chars (h : Chars t us) (rest : Octets) :
    ∀ {fuel : ℕ}, t.length < fuel → strBody fuel (t ++ 34 :: rest) = some (separately us, rest) := by
  induction h with
  | nil =>
    intro fuel hfuel
    obtain ⟨fuel, rfl⟩ := Nat.exists_eq_add_one_of_ne_zero (Nat.ne_of_gt hfuel)
    simp [strBody, separately]
  | cons hspell _ ih =>
    intro fuel hfuel
    have hpos := Spells.length_pos hspell
    rw [List.length_append] at hfuel
    obtain ⟨fuel, rfl⟩ := Nat.exists_eq_add_one_of_ne_zero (Nat.ne_of_gt (Nat.zero_lt_of_lt hfuel))
    rw [List.append_assoc, strBody_spells hspell, ih (by omega), JsonText.separately_cons]
    rfl

theorem str_chars (h : Chars t us) (rest : Octets) :
    str (34 :: (t ++ 34 :: rest)) = some (separately us, rest) := by
  rw [str, eat_self (by decide)]
  refine strBody_chars h rest ?_
  rw [List.length_append]
  omega

/-! ## 3. Skipping a value -/

/-- Outside a string, the reader goes by the character alone. -/
theorem skipNested_cons (d : ℕ) (c : UInt8) (rest : Octets) : skipNested d false (c :: rest) =
    if c = 34 then skipNested d true rest
    else if c = 123 ∨ c = 91 then skipNested (d + 1) false rest
    else if c = 125 ∨ c = 93 then
      if d = 1 then some rest else skipNested (d - 1) false rest
    else skipNested d false rest := rfl

/-- Characters that are neither quotes nor brackets are passed over. -/
theorem skipNested_plain {d : ℕ} (h : ∀ c ∈ t, c ≠ 34 ∧ c ≠ 91 ∧ c ≠ 93 ∧ c ≠ 123 ∧ c ≠ 125) :
    skipNested d false (t ++ rest) = skipNested d false rest := by
  induction t with
  | nil => rfl
  | cons c t ih =>
    obtain ⟨h34, h91, h93, h123, h125⟩ := h c List.mem_cons_self
    have hopen : ¬ (c = 123 ∨ c = 91) := by rintro (rfl | rfl) <;> contradiction
    have hclose : ¬ (c = 125 ∨ c = 93) := by rintro (rfl | rfl) <;> contradiction
    rw [List.cons_append, skipNested_cons, if_neg h34, if_neg hopen, if_neg hclose]
    exact ih fun x hx => h x (List.mem_cons_of_mem _ hx)

theorem skipNested_ws {d : ℕ} {w : Octets} (h : Ws w) :
    skipNested d false (w ++ rest) = skipNested d false rest := by
  refine skipNested_plain fun c hc => ?_
  rcases h c hc with rfl | rfl | rfl | rfl <;> decide

theorem skipNested_atom {d : ℕ} (h : JsonText.Atom t) :
    skipNested d false (t ++ rest) = skipNested d false rest := by
  refine skipNested_plain fun c hc => ?_
  have hmark := h.not_mark c hc
  refine ⟨?_, ?_, ?_, ?_, ?_⟩ <;> rintro rfl <;> exact hmark (by decide)

/-- A character inside a string that is neither its end nor an escape. -/
theorem skipNested_inside {d : ℕ} {c : UInt8} (hquote : c ≠ 34) (hback : c ≠ 92) :
    skipNested d true (c :: rest) = skipNested d true rest := by
  have hno : (c != 34) = true := by simpa using hquote
  rw [skipNested.eq_def]
  dsimp only
  rw [if_neg hback, hno]

theorem HexDigit.inside {c : UInt8} {v : ℕ} (h : HexDigit c v) : c ≠ 34 ∧ c ≠ 92 := by
  constructor
  · rintro rfl
    rcases h with h | h | h <;> exact absurd h.1 (by decide)
  · rintro rfl
    rcases h with h | h | h
    · exact absurd h.2.1 (by decide)
    · exact absurd h.1 (by decide)
    · exact absurd h.2.1 (by decide)

/-- **A string inside a value is passed over**, with the brackets and the escaped quotes in it. -/
theorem skipNested_chars {d : ℕ} (h : Chars t us) :
    skipNested d true (t ++ 34 :: rest) = skipNested d false rest := by
  induction h with
  | nil =>
    rw [List.nil_append, skipNested.eq_def]
    rfl
  | cons hspell _ ih =>
    rw [List.append_assoc]
    cases hspell with
    | plain hlow hquote hback => exact (skipNested_inside hquote hback).trans ih
    | letter hmem => exact ih
    | hex ha hb hc hd =>
      have ha' := HexDigit.inside ha
      have hb' := HexDigit.inside hb
      have hc' := HexDigit.inside hc
      have hd' := HexDigit.inside hd
      refine Eq.trans ?_ ih
      exact (skipNested_inside ha'.1 ha'.2).trans ((skipNested_inside hb'.1 hb'.2).trans
        ((skipNested_inside hc'.1 hc'.2).trans (skipNested_inside hd'.1 hd'.2)))

theorem skipNested_string {d : ℕ} (h : Chars t us) :
    skipNested d false (34 :: (t ++ 34 :: rest)) = skipNested d false rest := by
  rw [skipNested_cons, if_pos rfl, skipNested_chars h]

/-- A bracket that opens, and one that closes but not the outermost. -/
theorem skipNested_open {d : ℕ} {c : UInt8} (h : c = 123 ∨ c = 91) :
    skipNested d false (c :: rest) = skipNested (d + 1) false rest := by
  have hquote : c ≠ 34 := by rcases h with rfl | rfl <;> decide
  rw [skipNested_cons, if_neg hquote, if_pos h]

theorem skipNested_close {d : ℕ} {c : UInt8} (h : c = 125 ∨ c = 93) :
    skipNested (d + 2) false (c :: rest) = skipNested (d + 1) false rest := by
  have hquote : c ≠ 34 := by rcases h with rfl | rfl <;> decide
  have hopen : ¬ (c = 123 ∨ c = 91) := by rcases h with rfl | rfl <;> decide
  rw [skipNested_cons, if_neg hquote, if_neg hopen, if_pos h, if_neg (by omega)]
  rfl

theorem skipNested_end {c : UInt8} (h : c = 125 ∨ c = 93) :
    skipNested 1 false (c :: rest) = some rest := by
  have hquote : c ≠ 34 := by rcases h with rfl | rfl <;> decide
  have hopen : ¬ (c = 123 ∨ c = 91) := by rcases h with rfl | rfl <;> decide
  rw [skipNested_cons, if_neg hquote, if_neg hopen, if_pos h, if_pos rfl]

/-- A comma or a colon. -/
theorem skipNested_between {d : ℕ} {c : UInt8} (h : c = 44 ∨ c = 58) :
    skipNested d false (c :: rest) = skipNested d false rest := by
  have hplain : ∀ x ∈ [c], x ≠ 34 ∧ x ≠ 91 ∧ x ≠ 93 ∧ x ≠ 123 ∧ x ≠ 125 := by
    rcases h with rfl | rfl <;> decide +kernel
  exact skipNested_plain hplain

/-- **Counting brackets is enough**: behind every text of the grammar the counter is where it was. -/
theorem skipNested_neutral {kind : JsonText.Kind} (h : Is kind t) : ∀ (d : ℕ) (rest : Octets),
    skipNested (d + 1) false (t ++ rest) = skipNested (d + 1) false rest := by
  induction h with
  | atom hatom =>
    intro d rest
    exact skipNested_atom hatom
  | string hs =>
    intro d rest
    rw [List.cons_append, List.append_assoc]
    exact skipNested_string hs
  | emptyArray hw =>
    intro d rest
    rw [List.cons_append, List.append_assoc, skipNested_open (.inr rfl), skipNested_ws hw]
    exact skipNested_close (.inr rfl)
  | array _ ih =>
    intro d rest
    rw [List.cons_append, List.append_assoc, skipNested_open (.inr rfl), ih]
    exact skipNested_close (.inr rfl)
  | emptyObject hw =>
    intro d rest
    rw [List.cons_append, List.append_assoc, skipNested_open (.inl rfl), skipNested_ws hw]
    exact skipNested_close (.inl rfl)
  | object _ ih =>
    intro d rest
    rw [List.cons_append, List.append_assoc, skipNested_open (.inl rfl), ih]
    exact skipNested_close (.inl rfl)
  | element h₁ _ h₂ ih =>
    intro d rest
    rw [List.append_assoc, List.append_assoc, skipNested_ws h₁, ih, skipNested_ws h₂]
  | elements _ _ ih₁ ih₂ =>
    intro d rest
    rw [List.append_assoc, ih₁, List.cons_append, skipNested_between (.inl rfl), ih₂]
  | member h₁ hk h₂ h₃ _ h₄ ih =>
    intro d rest
    rw [List.append_assoc, skipNested_ws h₁, List.cons_append, List.append_assoc, List.cons_append,
      skipNested_string hk, List.append_assoc, skipNested_ws h₂, List.cons_append,
      skipNested_between (.inr rfl), List.append_assoc, skipNested_ws h₃, List.append_assoc, ih,
      skipNested_ws h₄]
  | members _ _ ih₁ ih₂ =>
    intro d rest
    rw [List.append_assoc, ih₁, List.cons_append, skipNested_between (.inl rfl), ih₂]

/-- What is behind a value, as far as the reader looks: blanks do not count. -/
theorem eat_of_ws {c d : UInt8} (h : ws s = d :: rest) :
    eat c s = if d = c then some rest else none := by
  rw [eat, h]

/-- **A value is skipped to its end**, whatever it is. -/
theorem skipValue_content {w₁ v w₂ : Octets} {o : Option (List CodeUnit)} {d : UInt8} (h₁ : Ws w₁)
    (h : Content v o) (h₂ : Ws w₂) (hd : d = 44 ∨ d = 125) (rest : Octets) :
    ∃ s, skipValue (w₁ ++ (v ++ (w₂ ++ d :: rest))) = some s ∧ ws s = d :: rest := by
  have hmark : ¬ IsBlank d := by rcases hd with rfl | rfl <;> decide
  have hend : ws (w₂ ++ d :: rest) = d :: rest := by rw [ws_append h₂, ws_cons hmark]
  have hskip : skipValue (w₁ ++ (v ++ (w₂ ++ d :: rest))) = skipValue (v ++ (w₂ ++ d :: rest)) := by
    rw [skipValue, ws_append h₁, skipValue]
  rw [hskip]
  cases h with
  | string hs =>
    refine ⟨w₂ ++ d :: rest, ?_, hend⟩
    rw [List.cons_append, List.append_assoc, List.singleton_append, skipValue, ws_cons (by decide)]
    dsimp only
    rw [if_pos rfl, str_chars hs]
    rfl
  | other hv hno =>
    -- an object or an array, up to its last bracket
    have hnested {c e : UInt8} {t : Octets} (hc : c = 123 ∨ c = 91) (he : e = 125 ∨ e = 93)
        (hinner : ∀ rest, skipNested 1 false (t ++ rest) = skipNested 1 false rest) :
        skipValue (c :: (t ++ [e]) ++ (w₂ ++ d :: rest)) = some (w₂ ++ d :: rest) := by
      have hquote : c ≠ 34 := by rcases hc with rfl | rfl <;> decide
      have hblank : ¬ IsBlank c := by rcases hc with rfl | rfl <;> decide
      rw [List.cons_append, List.append_assoc, skipValue, ws_cons hblank]
      dsimp only
      rw [if_neg hquote, if_pos hc, skipNested_open hc, hinner, List.singleton_append,
        skipNested_end he]
    cases hv with
    | string _ => exact absurd rfl hno
    | atom hatom =>
      refine ⟨d :: rest, ?_, ws_cons hmark rest⟩
      obtain ⟨c, t, rfl⟩ := List.exists_cons_of_ne_nil hatom.ne_nil
      have hc := hatom.not_mark c List.mem_cons_self
      have hquote : c ≠ 34 := by rintro rfl; exact hc (by decide)
      have hopen : ¬ (c = 123 ∨ c = 91) := by rintro (rfl | rfl) <;> exact hc (by decide)
      have hgo : ∀ x ∈ c :: t ++ w₂, (x != 44 && x != 125 && x != 93) = true := by
        intro x hx
        have hx' : x ≠ 44 ∧ x ≠ 125 ∧ x ≠ 93 := by
          rcases List.mem_append.mp hx with hx | hx
          · have hxm := hatom.not_mark x hx
            refine ⟨?_, ?_, ?_⟩ <;> rintro rfl <;> exact hxm (by decide)
          · rcases h₂ x hx with rfl | rfl | rfl | rfl <;> decide
        simpa [and_assoc] using hx'
      have hstop : (d != 44 && d != 125 && d != 93) = false := by rcases hd with rfl | rfl <;> decide
      rw [List.cons_append, skipValue, ws_cons fun hb => hc (.inl hb)]
      dsimp only
      rw [if_neg hquote, if_neg hopen, ← List.cons_append, ← List.append_assoc,
        List.dropWhile_append_of_pos hgo, List.dropWhile_cons_of_neg (by rw [hstop]; decide)]
    | emptyArray hw => exact ⟨_, hnested (.inr rfl) (.inr rfl) fun rest => skipNested_ws hw, hend⟩
    | array hs => exact ⟨_, hnested (.inr rfl) (.inr rfl) (skipNested_neutral hs 0), hend⟩
    | emptyObject hw => exact ⟨_, hnested (.inl rfl) (.inl rfl) fun rest => skipNested_ws hw, hend⟩
    | object hs => exact ⟨_, hnested (.inl rfl) (.inl rfl) (skipNested_neutral hs 0), hend⟩

/-! ## 4. Members -/

/-- The fields of the credentials. -/
def names : List Octets := [ascii "ltsk", ascii "ltpk", ascii "atvId", ascii "clientId"]

/-- The value of a field so far. -/
def Fields.get (f : Fields) (name : Octets) : Option Octets :=
  if name = ascii "ltsk" then f.ltsk
  else if name = ascii "ltpk" then f.ltpk
  else if name = ascii "atvId" then f.atvId
  else if name = ascii "clientId" then f.clientId
  else none

/-- The keys that are stored are the fields. -/
theorem store_isSome_iff (f : Fields) (key value : Octets) :
    (f.store key value).isSome = true ↔ key ∈ names := by
  unfold Fields.store names
  simp only [List.mem_cons, List.not_mem_nil, or_false]
  split_ifs with h₁ h₂ h₃ h₄ <;> simp [*]

theorem store_get {f f' : Fields} {key value name : Octets} (h : f.store key value = some f')
    (hname : name ∈ names) : f'.get name = if key = name then some value else f.get name := by
  unfold Fields.store at h
  unfold names at hname
  simp only [List.mem_cons, List.not_mem_nil, or_false] at hname
  split_ifs at h with h₁ h₂ h₃ h₄ <;> obtain rfl := Option.some.inj h <;>
    rcases hname with rfl | rfl | rfl | rfl <;> subst key <;> rfl

/-- A member of an object: its key, and its value where that is a string. -/
abbrev Member := List CodeUnit × Option (List CodeUnit)

/-- What the reader does with a member. -/
def storeMember (f : Fields) (m : Member) : Fields :=
  match m.2 with
  | some us => (f.store (separately m.1) (separately us)).getD f
  | none => f

/-- **One value is stored or skipped**, and the reader is behind it. -/
theorem memberValue_content {f : Fields} {key w₁ v w₂ : Octets} {o : Option (List CodeUnit)}
    {k : List CodeUnit} {d : UInt8} (hkey : separately k = key) (hstring : key ∈ names → o.isSome)
    (h₁ : Ws w₁) (h : Content v o) (h₂ : Ws w₂) (hd : d = 44 ∨ d = 125) (rest : Octets) :
    ∃ s, memberValue f key (w₁ ++ (v ++ (w₂ ++ d :: rest))) = some (storeMember f (k, o), s) ∧
      ws s = d :: rest := by
  subst hkey
  have hmark : ¬ IsBlank d := by rcases hd with rfl | rfl <;> decide
  have hend : ws (w₂ ++ d :: rest) = d :: rest := by rw [ws_append h₂, ws_cons hmark]
  by_cases hknown : separately k ∈ names
  · obtain ⟨us, rfl⟩ := Option.isSome_iff_exists.mp (hstring hknown)
    obtain ⟨g, hg⟩ := Option.isSome_iff_exists.mp ((store_isSome_iff f (separately k) []).mpr hknown)
    obtain ⟨g', hg'⟩ :=
      Option.isSome_iff_exists.mp ((store_isSome_iff f (separately k) (separately us)).mpr hknown)
    cases h with
    | string hs =>
      refine ⟨w₂ ++ d :: rest, ?_, hend⟩
      rw [List.cons_append, List.append_assoc, List.singleton_append, memberValue, hg]
      dsimp only
      rw [str_append h₁, str_chars hs]
      simp [storeMember, hg']
  · have hnone (value : Octets) : f.store (separately k) value = none := by
      rw [← Option.not_isSome_iff_eq_none, store_isSome_iff]
      exact hknown
    have hsame : storeMember f (k, o) = f := by
      unfold storeMember
      cases o with
      | none => rfl
      | some us => simp [hnone]
    obtain ⟨s, hs, hws⟩ := skipValue_content h₁ h h₂ hd rest
    refine ⟨s, ?_, hws⟩
    simp [memberValue, hnone, hs, hsame]

/-- Known keys come with strings. -/
def Stringy (ms : List Member) : Prop := ∀ m ∈ ms, separately m.1 ∈ names → m.2.isSome

/-- One round of the loop. -/
theorem members_round (fuel : ℕ) (f : Fields) {w₁ k w₂ w₃ v w₄ : Octets}
    {o : Option (List CodeUnit)} {d : UInt8} (hstring : separately us ∈ names → o.isSome) (h₁ : Ws w₁)
    (hk : Chars k us) (h₂ : Ws w₂) (h₃ : Ws w₃) (h : Content v o) (h₄ : Ws w₄) (hd : d = 44 ∨ d = 125) (rest : Octets) :
    members (fuel + 1) f (w₁ ++ 34 :: (k ++ 34 :: (w₂ ++ 58 :: (w₃ ++ (v ++ (w₄ ++ d :: rest)))))) =
      if d = 44 then members fuel (storeMember f (us, o)) rest else some (storeMember f (us, o)) := by
  obtain ⟨s, hvalue, hws⟩ := memberValue_content (f := f) rfl hstring h₃ h h₄ hd rest
  have hcolon : eat 58 (w₂ ++ 58 :: (w₃ ++ (v ++ (w₄ ++ d :: rest)))) =
      some (w₃ ++ (v ++ (w₄ ++ d :: rest))) := by
    rw [eat_append h₂, eat_self (by decide)]
  rw [members, str_append h₁, str_chars hk]
  simp only [Option.bind_eq_bind, Option.bind_some, hcolon, hvalue]
  rw [eat_of_ws hws, eat_of_ws hws]
  rcases hd with rfl | rfl <;> rfl

/-- **The loop is a fold over the members of the text.** -/
theorem members_read {ms : List Member} (h : Members t ms) (rest : Octets) :
    ∀ {fuel : ℕ} {f : Fields}, ms.length ≤ fuel → Stringy ms →
      members fuel f (t ++ 125 :: rest) = some (ms.foldl storeMember f) := by
  induction h with
  | last h₁ hk h₂ h₃ hv h₄ =>
    intro fuel f hfuel hstringy
    obtain ⟨fuel, rfl⟩ := Nat.exists_eq_add_one_of_ne_zero (Nat.ne_of_gt hfuel)
    have hround := members_round fuel f (hstringy _ List.mem_cons_self) h₁ hk h₂ h₃ hv
      h₄ (.inr rfl) rest
    rw [if_neg (by decide)] at hround
    simpa using hround
  | @more _ _ _ _ _ _ s _ _ _ h₁ hk h₂ h₃ hv h₄ _ ih =>
    intro fuel f hfuel hstringy
    obtain ⟨fuel, rfl⟩ := Nat.exists_eq_add_one_of_ne_zero (Nat.ne_of_gt (Nat.zero_lt_of_lt hfuel))
    have hround := members_round fuel f (hstringy _ List.mem_cons_self) h₁ hk h₂ h₃ hv
      h₄ (.inl rfl) (s ++ 125 :: rest)
    have htail : Stringy _ := fun m hm => hstringy m (List.mem_cons_of_mem _ hm)
    rw [if_pos rfl, ih (by simpa using hfuel) htail] at hround
    simpa using hround

/-- An object begins with a quote, as far as the reader looks. -/
theorem eat_members {ms : List Member} (h : Members t ms) (rest : Octets) :
    eat 125 (t ++ rest) = none := by
  cases h with
  | last h₁ =>
    rw [List.append_assoc, eat_append h₁]
    exact eat_other (by decide) (by decide)
  | more h₁ =>
    rw [List.append_assoc, eat_append h₁]
    exact eat_other (by decide) (by decide)

/-- There are no more members than octets. -/
theorem length_members {ms : List Member} (h : Members t ms) : ms.length ≤ t.length := by
  induction h with
  | last =>
    simp only [List.length_append, List.length_cons, List.length_nil]
    omega
  | more _ _ _ _ _ _ _ ih =>
    simp only [List.length_append, List.length_cons]
    omega

/-! ## 5. The last of each name -/

/-- The value of the last member of a name, where it is a string. -/
def lastOf (name : Octets) (ms : List Member) : Option (List CodeUnit) :=
  (ms.reverse.find? fun m => decode m.1 = name).bind Prod.snd

theorem lastOf_append (name : Octets) (ms : List Member) (m : Member) :
    lastOf name (ms ++ [m]) = if decode m.1 = name then m.2 else lastOf name ms := by
  unfold lastOf
  rw [List.reverse_append, List.reverse_singleton, List.singleton_append, List.find?_cons]
  by_cases h : decode m.1 = name
  · simp [h]
  · simp [h]

theorem names_ascii : ∀ name ∈ names, ∀ b ∈ name, b.toNat < 128 := by
  decide +kernel

theorem separately_mem_names {k : List CodeUnit} (h : separately k ∈ names) : decode k ∈ names := by
  have hsame : decode k = separately k := (JsonText.decode_eq_iff_of_ascii (names_ascii _ h)).mpr rfl
  rw [hsame]
  exact h

/-- **One member**: the field of its name takes its value, the others stay. -/
theorem storeMember_get {f : Fields} {m : Member} {name : Octets} (hname : name ∈ names)
    (hstring : decode m.1 = name → m.2.isSome) :
    (storeMember f m).get name = if decode m.1 = name then m.2.map separately else f.get name := by
  obtain ⟨k, o⟩ := m
  have hkey : decode k = name ↔ separately k = name :=
    JsonText.decode_eq_iff_of_ascii (names_ascii name hname)
  cases o with
  | none =>
    have hno : ¬ decode k = name := fun h => absurd (hstring h) (by simp)
    rw [if_neg hno]
    rfl
  | some us =>
    simp only [hkey, Option.map_some, storeMember]
    cases hstore : f.store (separately k) (separately us) with
    | some g =>
      rw [Option.getD_some]
      exact store_get hstore hname
    | none =>
      have hunknown : separately k ∉ names := by
        rw [← store_isSome_iff f (separately k) (separately us), hstore]
        simp
      have hno : ¬ separately k = name := by
        rintro rfl
        exact hunknown hname
      rw [if_neg hno]
      rfl

/-- **Behind the loop every field has the last value of its name.** -/
theorem foldl_get {ms : List Member} {name : Octets} (hname : name ∈ names)
    (hstring : ∀ m ∈ ms, decode m.1 ∈ names → m.2.isSome) :
    (ms.foldl storeMember {}).get name = (lastOf name ms).map separately := by
  induction ms using List.reverseRecOn with
  | nil =>
    unfold Fields.get
    split_ifs <;> rfl
  | append_singleton ms m ih =>
    have hbefore := ih fun x hx => hstring x (List.mem_append_left _ hx)
    have hlast : decode m.1 = name → m.2.isSome := by
      rintro rfl
      exact hstring m (List.mem_append_right _ List.mem_cons_self) hname
    rw [List.foldl_append, List.foldl_cons, List.foldl_nil, storeMember_get hname hlast, lastOf_append,
      hbefore]
    split_ifs <;> rfl

/-! ## 6. Hex -/

/-- A hex text and the octets it stands for. -/
inductive HexOf : Octets → Octets → Prop
  | nil : HexOf [] []
  | cons {h l : UInt8} {a b : ℕ} {t s : Octets} (ha : HexDigit h a) (hb : HexDigit l b)
      (hs : HexOf t s) : HexOf (h :: l :: t) (UInt8.ofNat (a * 16 + b) :: s)

theorem hexDecode_hexOf {t s : Octets} (h : HexOf t s) : hexDecode t = some s := by
  induction h with
  | nil => rfl
  | cons ha hb _ ih =>
    rw [hexDecode, (nibble_of_hexDigit ha).1, (nibble_of_hexDigit hb).1, ih]
    rfl

theorem HexDigit.ascii {c : UInt8} {v : ℕ} (h : HexDigit c v) : c.toNat < 128 := by
  rcases h with h | h | h <;> omega

theorem HexOf.ascii {t s : Octets} (h : HexOf t s) : ∀ b ∈ t, b.toNat < 128 := by
  induction h with
  | nil =>
    intro b hb
    cases hb
  | cons ha hb _ ih =>
    intro b hmem
    rcases List.mem_cons.mp hmem with rfl | hmem
    · exact HexDigit.ascii ha
    rcases List.mem_cons.mp hmem with rfl | hmem
    · exact HexDigit.ascii hb
    · exact ih b hmem

end Json

open Json JsonText

/-! ## 7. The credentials of a text -/

/-- What an object says about the credentials: the members of the four names are strings, and of each
name the last one counts. -/
structure Provides (ms : List Member) (c : Creds) : Prop where
  strings : ∀ m ∈ ms, decode m.1 ∈ names → m.2.isSome
  ltsk : ∃ us, lastOf (ascii "ltsk") ms = some us ∧ HexOf (decode us) c.ltsk
  ltpk : ∃ us, lastOf (ascii "ltpk") ms = some us ∧ HexOf (decode us) c.ltpk
  atvId : ∃ us, lastOf (ascii "atvId") ms = some us ∧ HexOf (decode us) c.atvId
  clientId : ∃ us, lastOf (ascii "clientId") ms = some us ∧ decode us = c.clientId

variable {text : Octets} {ms : List Member} {c : Creds} {us : List CodeUnit}

/-- A key field is decoded right: hex has no surrogates. -/
theorem hexDecode_last {name key : Octets} (hname : name ∈ names)
    (hstring : ∀ m ∈ ms, decode m.1 ∈ names → m.2.isSome)
    (h : ∃ us, lastOf name ms = some us ∧ HexOf (decode us) key) :
    ∃ value, (ms.foldl storeMember {}).get name = some value ∧ hexDecode value = some key := by
  obtain ⟨us, hlast, hhex⟩ := h
  have hsame : separately us = decode us := (decode_eq_iff_of_ascii hhex.ascii).mp rfl
  refine ⟨separately us, ?_, ?_⟩
  · rw [foldl_get hname hstring, hlast]
    rfl
  · rw [hsame]
    exact hexDecode_hexOf hhex

/-- **The reader succeeds**, with the three keys as the text has them and the client id unit by unit. -/
theorem raopCredsFromJson_object (h : ObjectText text ms) (hc : Provides ms c)
    (hid : lastOf (ascii "clientId") ms = some us) :
    raopCredsFromJson text = some { c with clientId := separately us } := by
  cases h with
  | empty => cases hid
  | members h₁ hs h₂ =>
    obtain ⟨sk, hsk, hsk'⟩ := hexDecode_last (by decide) hc.strings hc.ltsk
    obtain ⟨pk, hpk, hpk'⟩ := hexDecode_last (by decide) hc.strings hc.ltpk
    obtain ⟨aid, haid, haid'⟩ := hexDecode_last (by decide) hc.strings hc.atvId
    have hclient : (ms.foldl storeMember {}).get (ascii "clientId") = some (separately us) := by
      rw [foldl_get (by decide) hc.strings, hid]
      rfl
    have hstringy : Stringy ms := fun m hm hmem => hc.strings m hm (separately_mem_names hmem)
    have hlength := length_members hs
    rw [raopCredsFromJson, eat_append h₁, eat_self (by decide)]
    simp only [Option.bind_eq_bind, Option.bind_some]
    rw [eat_members hs]
    dsimp only
    rw [members_read hs _ (by simp only [List.length_append]; omega) hstringy]
    change (ms.foldl storeMember {}).ltsk = some sk at hsk
    change (ms.foldl storeMember {}).ltpk = some pk at hpk
    change (ms.foldl storeMember {}).atvId = some aid at haid
    change (ms.foldl storeMember {}).clientId = some (separately us) at hclient
    simp [hsk, hpk, haid, hclient, hsk', hpk', haid']

/-- **What a text says is what is read**, whatever else it says, exactly where the client id is written
without surrogate pairs. -/
theorem raopCredsFromJson_exact_iff (h : ObjectText text ms) (hc : Provides ms c)
    (hid : lastOf (ascii "clientId") ms = some us) :
    raopCredsFromJson text = some c ↔ ¬ HasPair us := by
  obtain ⟨us', hid', hdecode⟩ := hc.clientId
  obtain rfl := Option.some.inj (hid'.symm.trans hid)
  rw [raopCredsFromJson_object h hc hid, ← decode_eq_separately_iff, hdecode]
  constructor
  · intro heq
    exact (congrArg Creds.clientId (Option.some.inj heq)).symm
  · intro heq
    rw [← heq]

/-! Texts to try the reader on. -/

/-- A key or a value without escapes. -/
def units (s : Octets) : List CodeUnit := s.map .octet

theorem chars_units {s : Octets} (h : ∀ c ∈ s, Plain c) : Chars s (units s) := by
  induction s with
  | nil => exact .nil
  | cons c s ih =>
    obtain ⟨hlow, hquote, hback⟩ := h c List.mem_cons_self
    exact .cons (.plain hlow hquote hback) (ih fun d hd => h d (List.mem_cons_of_mem _ hd))

theorem ws_nil : Ws [] := by
  intro c hc
  cases hc

theorem Members.plain_last {k v : Octets} {o : Option (List CodeUnit)} (hk : ∀ c ∈ k, Plain c)
    (hv : Content v o) : Members (34 :: (k ++ 34 :: 58 :: v)) [(units k, o)] := by
  have hlast := Members.last ws_nil (chars_units hk) ws_nil ws_nil hv ws_nil
  simpa using hlast

theorem Members.plain_more {k v s : Octets} {o : Option (List CodeUnit)} {ms : List Member}
    (hk : ∀ c ∈ k, Plain c) (hv : Content v o) (hs : Members s ms) :
    Members (34 :: (k ++ 34 :: 58 :: (v ++ 44 :: s))) ((units k, o) :: ms) := by
  have hmore := Members.more ws_nil (chars_units hk) ws_nil ws_nil hv ws_nil hs
  simpa using hmore

/-- An unknown member, empty keys and a client id. -/
def sampleText (unknown clientId : Octets) : Octets :=
  ascii "\x7b\"x\":" ++ unknown ++ ascii ",\"ltsk\":\"\",\"ltpk\":\"\",\"atvId\":\"\",\"clientId\":\"" ++
    clientId ++ ascii "\"\x7d"

/-- What the sample says. -/
def sampleMembers (us : List CodeUnit) : List Member :=
  [(units (ascii "x"), none), (units (ascii "ltsk"), some []), (units (ascii "ltpk"), some []),
    (units (ascii "atvId"), some []), (units (ascii "clientId"), some us)]

theorem sampleText_object {unknown clientId : Octets} (hu : Content unknown none)
    (hid : Chars clientId us) :
    ObjectText (sampleText unknown clientId) (sampleMembers us) := by
  have hempty : Content (34 :: ([] ++ [34])) (some []) := .string .nil
  have hmembers := Members.plain_more (k := ascii "x") (by decide +kernel) hu
    (Members.plain_more (k := ascii "ltsk") (by decide +kernel) hempty
      (Members.plain_more (k := ascii "ltpk") (by decide +kernel) hempty
        (Members.plain_more (k := ascii "atvId") (by decide +kernel) hempty
          (Members.plain_last (k := ascii "clientId") (by decide +kernel) (.string hid)))))
  have hopen : ascii "\x7b\"x\":" = 123 :: 34 :: (ascii "x" ++ [34, 58]) := by decide
  have hclose : ascii "\"\x7d" = [34, 125] := by decide
  have hkeys : ascii ",\"ltsk\":\"\",\"ltpk\":\"\",\"atvId\":\"\",\"clientId\":\"" =
      44 :: 34 :: (ascii "ltsk" ++ 34 :: 58 :: 34 :: 34 :: 44 :: 34 :: (ascii "ltpk" ++
        34 :: 58 :: 34 :: 34 :: 44 :: 34 :: (ascii "atvId" ++ 34 :: 58 :: 34 :: 34 :: 44 :: 34 ::
          (ascii "clientId" ++ [34, 58, 34])))) := by
    decide
  have hobject := ObjectText.members ws_nil hmembers ws_nil
  simpa [sampleText, sampleMembers, hopen, hclose, hkeys] using hobject

theorem sampleMembers_carries (us : List CodeUnit) :
    Provides (sampleMembers us) { ltsk := [], ltpk := [], atvId := [], clientId := decode us } where
  strings := by
    intro m hm hname
    have hx : decode (units (ascii "x")) ∉ names := by decide +kernel
    simp only [sampleMembers, List.mem_cons, List.not_mem_nil, or_false] at hm
    rcases hm with rfl | rfl | rfl | rfl | rfl
    · exact absurd hname hx
    all_goals rfl
  ltsk := ⟨[], rfl, .nil⟩
  ltpk := ⟨[], rfl, .nil⟩
  atvId := ⟨[], rfl, .nil⟩
  clientId := ⟨us, rfl, rfl⟩

/-- A bracket inside a string inside an array is skipped. -/
theorem raopCredsFromJson_exact_nested :
    raopCredsFromJson (sampleText (ascii "[\"]\"]") (ascii "a")) =
      some { ltsk := [], ltpk := [], atvId := [], clientId := ascii "a" } := by
  have hinner : Is .elements ([] ++ ((34 :: ([93] ++ [34])) ++ [])) :=
    .element ws_nil (.string (chars_units (s := [93]) (by decide +kernel))) ws_nil
  have hunknown : Content (ascii "[\"]\"]") none := .other (.array hinner) (by decide)
  have hid : Chars (ascii "a") (units (ascii "a")) := chars_units (by decide +kernel)
  have hiff := raopCredsFromJson_exact_iff (sampleText_object hunknown hid) (sampleMembers_carries _) rfl
  refine hiff.mpr ?_
  exact (decode_eq_separately_iff _).mp (by decide +kernel)

/-- **A surrogate pair is read as its halves**: the text says one character, and the client id has the
six octets of two. -/
theorem raopCredsFromJson_surrogates :
    ∃ ms c, ObjectText (sampleText (ascii "0") (ascii "\\ud83d\\ude00")) ms ∧ Provides ms c ∧
      c.clientId = [0xF0, 0x9F, 0x98, 0x80] ∧
      raopCredsFromJson (sampleText (ascii "0") (ascii "\\ud83d\\ude00")) =
        some { c with clientId := [0xED, 0xA0, 0xBD, 0xED, 0xB8, 0x80] } := by
  have hhigh : Spells (ascii "\\ud83d") (.utf16 (((13 * 16 + 8) * 16 + 3) * 16 + 13)) := by
    refine .hex ?_ ?_ ?_ ?_ <;> (unfold HexDigit; decide)
  have hlow : Spells (ascii "\\ude00") (.utf16 (((13 * 16 + 14) * 16 + 0) * 16 + 0)) := by
    refine .hex ?_ ?_ ?_ ?_ <;> (unfold HexDigit; decide)
  have hid := Chars.cons hhigh (.cons hlow .nil)
  have hzero : JsonText.Number (ascii "0") :=
    ⟨[], [48], [], [], .inl rfl, .zero, .inl rfl, .inl rfl, rfl⟩
  have hunknown : Content (ascii "0") none := .other (.atom (.inl hzero)) (by decide)
  have hobject := sampleText_object hunknown hid
  refine ⟨_, _, hobject, sampleMembers_carries _, by decide +kernel, ?_⟩
  exact raopCredsFromJson_object hobject (sampleMembers_carries _) rfl

end AirplaySender
