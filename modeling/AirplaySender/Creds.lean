/-
# The stored-credentials text (`raop_creds.h`)

One JSON object with four string fields, three of them hex.  The writer sorts the keys and writes
no blanks; the reader takes any order, blanks between tokens and unknown members, which it skips
by counting brackets outside strings.  A cursor is the text still to be read.
-/
import AirplaySender.Text

namespace AirplaySender

open Octets

/-- `RaopCreds`. -/
structure Creds where
  ltsk : Octets
  ltpk : Octets
  atvId : Octets
  clientId : Octets

namespace Json

/-- The value of one hex digit, either case. -/
def nibble (c : UInt8) : Option ℕ :=
  if 48 ≤ c ∧ c ≤ 57 then some (c.toNat - 48)
  else if 97 ≤ c ∧ c ≤ 102 then some (c.toNat - 87)
  else if 65 ≤ c ∧ c ≤ 70 then some (c.toNat - 55)
  else none

/-- `raopHexDecode`. -/
def hexDecode : Octets → Option Octets
  | [] => some []
  | [_] => none
  | hi :: lo :: rest => do
    let h ← nibble hi
    let l ← nibble lo
    let out ← hexDecode rest
    return UInt8.ofNat (h * 16 + l) :: out

/-- `jsonEscapeInto`, one character. -/
def escapeChar (c : UInt8) : Octets :=
  if c = 34 then [92, 34]
  else if c = 92 then [92, 92]
  else if c = 10 then [92, 110]
  else if c = 13 then [92, 114]
  else if c = 9 then [92, 116]
  else if c < 0x20 then ascii "\\u00" ++ [hexDigit (c.toNat / 16), hexDigit (c.toNat % 16)]
  else [c]

/-- `jsonEscapeInto`. -/
def escape (s : Octets) : Octets := s.flatMap escapeChar

/-- `JsonCursor::ws`. -/
def ws (s : Octets) : Octets := s.dropWhile fun c => c == 32 || c == 9 || c == 10 || c == 13

/-- `JsonCursor::eat`. -/
def eat (c : UInt8) (s : Octets) : Option Octets :=
  match ws s with
  | d :: rest => if d = c then some rest else none
  | [] => none

/-- The UTF-8 bytes of a code point below `0x10000`. -/
def utf8 (cp : ℕ) : Octets :=
  if cp < 0x80 then [UInt8.ofNat cp]
  else if cp < 0x800 then [UInt8.ofNat (0xC0 + cp / 64), UInt8.ofNat (0x80 + cp % 64)]
  else [UInt8.ofNat (0xE0 + cp / 4096), UInt8.ofNat (0x80 + cp / 64 % 64),
    UInt8.ofNat (0x80 + cp % 64)]

/-- The escapes of one letter. -/
def unescape (e : UInt8) : Option UInt8 :=
  if e = 34 then some 34 else if e = 92 then some 92 else if e = 47 then some 47
  else if e = 98 then some 8 else if e = 102 then some 12 else if e = 110 then some 10
  else if e = 114 then some 13 else if e = 116 then some 9 else none

/-- The body of a string behind its opening quote: the text and what follows the closing quote. -/
def strBody : ℕ → Octets → Option (Octets × Octets)
  | 0, _ => none
  | _, [] => none
  | fuel + 1, c :: rest =>
    if c = 34 then some ([], rest)
    else if c ≠ 92 then do
      let (out, rest') ← strBody fuel rest
      return (c :: out, rest')
    else
      match rest with
      | 117 :: h₁ :: h₂ :: h₃ :: h₄ :: rest' => do
        let a ← nibble h₁
        let b ← nibble h₂
        let c ← nibble h₃
        let d ← nibble h₄
        let (out, rest'') ← strBody fuel rest'
        return (utf8 (((a * 16 + b) * 16 + c) * 16 + d) ++ out, rest'')
      | e :: rest' => do
        let x ← unescape e
        let (out, rest'') ← strBody fuel rest'
        return (x :: out, rest'')
      | [] => none

/-- `JsonCursor::str`. -/
def str (s : Octets) : Option (Octets × Octets) := do
  let rest ← eat 34 s
  strBody (rest.length + 1) rest

/-- The bracket-counting loop of `skipValue`. -/
def skipNested : ℕ → Bool → Octets → Option Octets
  | _, _, [] => none
  | depth, true, c :: rest =>
    if c = 92 then
      match rest with
      | [] => none
      | _ :: rest' => skipNested depth true rest'
    else skipNested depth (c != 34) rest
  | depth, false, c :: rest =>
    if c = 34 then skipNested depth true rest
    else if c = 123 ∨ c = 91 then skipNested (depth + 1) false rest
    else if c = 125 ∨ c = 93 then
      if depth = 1 then some rest else skipNested (depth - 1) false rest
    else skipNested depth false rest

/-- `JsonCursor::skipValue`. -/
def skipValue (s : Octets) : Option Octets :=
  match ws s with
  | [] => none
  | c :: rest =>
    if c = 34 then (str (c :: rest)).map Prod.snd
    else if c = 123 ∨ c = 91 then skipNested 0 false (c :: rest)
    else some ((c :: rest).dropWhile fun d => d != 44 && d != 125 && d != 93)

/-- The fields the reader collects; a later occurrence replaces an earlier one. -/
structure Fields where
  ltsk : Option Octets := none
  ltpk : Option Octets := none
  atvId : Option Octets := none
  clientId : Option Octets := none

/-- Store the value of a known key; `none` for a key the reader skips. -/
def Fields.store (f : Fields) (key value : Octets) : Option Fields :=
  if key = ascii "ltsk" then some { f with ltsk := some value }
  else if key = ascii "ltpk" then some { f with ltpk := some value }
  else if key = ascii "atvId" then some { f with atvId := some value }
  else if key = ascii "clientId" then some { f with clientId := some value }
  else none

/-- The value of one member: stored for a known key, skipped for another one. -/
def memberValue (f : Fields) (key s : Octets) : Option (Fields × Octets) :=
  match f.store key [] with
  | some _ => do
    let (value, rest) ← str s
    let f' ← f.store key value
    return (f', rest)
  | none => do
    let rest ← skipValue s
    return (f, rest)

/-- The member loop of `raopCredsFromJson`. -/
def members : ℕ → Fields → Octets → Option Fields
  | 0, _, _ => none
  | fuel + 1, f, s => do
    let (key, s₁) ← str s
    let s₂ ← eat 58 s₁
    let (f', s₃) ← memberValue f key s₂
    match eat 44 s₃ with
    | some s₄ => members fuel f' s₄
    | none => (eat 125 s₃).map fun _ => f'

end Json

/-- `raopCredsToJson`. -/
def raopCredsToJson (c : Creds) : Octets :=
  123 :: ascii "\"atvId\":\"" ++ hexEncode c.atvId ++ ascii "\",\"clientId\":\"" ++
    Json.escape c.clientId ++ ascii "\",\"ltpk\":\"" ++ hexEncode c.ltpk ++
    ascii "\",\"ltsk\":\"" ++ hexEncode c.ltsk ++ [34, 125]

/-- `raopCredsFromJson`. -/
def raopCredsFromJson (json : Octets) : Option Creds := do
  let s ← Json.eat 123 json
  let f ←
    match Json.eat 125 s with
    | some _ => some {}
    | none => Json.members (s.length + 1) {} s
  let ltsk ← f.ltsk
  let ltpk ← f.ltpk
  let atvId ← f.atvId
  let clientId ← f.clientId
  let sk ← Json.hexDecode ltsk
  let pk ← Json.hexDecode ltpk
  let aid ← Json.hexDecode atvId
  return { ltsk := sk, ltpk := pk, atvId := aid, clientId := clientId }

end AirplaySender
