/-
# Text helpers of the sender (`raop_sender.cpp`, anonymous namespace)

`std::string` is a byte buffer in the source and an octet string here.  These are the parsing and
formatting helpers the request builders and the reply parsers share, with the source's exact
behaviour on junk: `parseInt` refuses anything that is not sign and digits, one `toInt` narrows
while the other one refuses what does not fit, and a missing header has a default.
-/
import AirplaySender.Lib.Octets
import Mathlib.Data.Rat.Floor

namespace AirplaySender

open Octets

/-! ## 1. Searching and splitting -/

/-- `std::string::find`: the first position at or after which `needle` stands. -/
def find (needle : Octets) : Octets → Option ℕ
  | [] => if needle = [] then some 0 else none
  | c :: cs => if needle.isPrefixOf (c :: cs) then some 0 else (find needle cs).map (· + 1)

/-- `"\r\n"`. -/
def crlf : Octets := [13, 10]

/-- `"\r\n\r\n"`, the end of a message head. -/
def headSep : Octets := [13, 10, 13, 10]

/-- The blanks `trimAscii` strips. -/
def isBlank (c : UInt8) : Bool := c == 32 || (9 ≤ c && c ≤ 13)

/-- `trimAscii`. -/
def trimAscii (s : Octets) : Octets := ((s.dropWhile isBlank).reverse.dropWhile isBlank).reverse

/-- `splitOn`: empty pieces kept. -/
def splitOn (s : Octets) (sep : UInt8) : List Octets := List.splitOn sep s

/-- `lowerAscii`. -/
def lowerAscii (s : Octets) : Octets := s.map fun c => if 65 ≤ c && c ≤ 90 then c + 32 else c

/-- `upperAscii`. -/
def upperAscii (s : Octets) : Octets := s.map fun c => if 97 ≤ c && c ≤ 122 then c - 32 else c

/-- `stripCrLf`. -/
def stripCrLf (s : Octets) : Octets := s.filter fun c => !(c == 13 || c == 10)

/-! ## 2. Numbers in headers -/

/-- The digit loop of `parseInt`, with its overflow guard. -/
def parseDigits : ℕ → Octets → Option ℕ
  | v, [] => some v
  | v, c :: cs =>
    if c < 48 || 57 < c then none
    else if (2 ^ 63 - 1 - (c.toNat - 48)) / 10 < v then none
    else parseDigits (v * 10 + (c.toNat - 48)) cs

/-- `parseInt`; `none` is `ok == false`. -/
def parseInt (s : Octets) : Option ℤ :=
  let neg := s.head? == some 45
  let digits := if s.head? == some 43 || neg then s.tail else s
  if digits = [] then none
  else (parseDigits 0 digits).map fun (v : ℕ) => if neg then -(v : ℤ) else v

/-- The conversion of a wider integer to `int`. -/
def wrap32 (v : ℤ) : ℤ := Int.bmod v (2 ^ 32)

/-- `toInt(s)`: narrows whatever was parsed. -/
def toInt (s : Octets) : ℤ := ((parseInt s).map wrap32).getD 0

/-- `toInt(s, ok)`; `none` is `ok == false`. -/
def toIntOk (s : Octets) : Option ℤ :=
  (parseInt s).bind fun v => if 0x7FFFFFFF < v ∨ v < -0x7FFFFFFF - 1 then none else some v

/-- `toUInt`. -/
def toUInt (s : Octets) : ℕ :=
  match parseInt s with
  | some v => if 0 ≤ v ∧ v ≤ 0xFFFFFFFF then v.toNat else 0
  | none => 0

/-! ## 3. Headers -/

/-- A parsed header map; the entry inserted last for a key comes first. -/
abbrev Headers := List (Octets × Octets)

/-- `headerValue`. -/
def headerValue (h : Headers) (key : Octets) (default : Octets) : Octets :=
  ((h.find? fun e => e.1 == key).map Prod.snd).getD default

/-- A header line cut at its first colon; `none` for a line without a name. -/
def headerLine (line : Octets) : Option (Octets × Octets) :=
  let line := trimAscii line
  match find [58] line with
  | none => none
  | some 0 => none
  | some colon => some (trimAscii (lowerAscii (line.take colon)), trimAscii (line.drop (colon + 1)))

/-- The header lines of a message head, as the loop over them leaves the map. -/
def parseHeaders (lines : List Octets) : Headers :=
  lines.foldl (fun h line => match headerLine line with | some e => e :: h | none => h) []

/-! ## 4. Formatting -/

/-- The digits of `n` in base `base`, most significant first, in front of `acc`. -/
def digitsIn (base : ℕ) (digit : ℕ → UInt8) : ℕ → ℕ → Octets → Octets
  | 0, _, acc => acc
  | fuel + 1, n, acc =>
    if n < base then digit n :: acc
    else digitsIn base digit fuel (n / base) (digit (n % base) :: acc)

/-- `std::to_string` of a non-negative integer. -/
def dec (n : ℕ) : Octets := digitsIn 10 (fun d => UInt8.ofNat (48 + d)) (n + 1) n []

/-- `std::to_string` of an integer. -/
def decInt (n : ℤ) : Octets := if n < 0 then 45 :: dec n.natAbs else dec n.natAbs

/-- `hexUpper`. -/
def hexUpper (n : ℕ) : Octets :=
  digitsIn 16 (fun d => UInt8.ofNat (if d < 10 then 48 + d else 55 + d)) (n + 1) n []

/-- One lower-case hex digit. -/
def hexDigit (d : ℕ) : UInt8 := UInt8.ofNat (if d < 10 then 48 + d else 87 + d)

/-- Lower-case hex, two digits a byte. -/
def hexEncode (b : Octets) : Octets :=
  b.flatMap fun x => [hexDigit (x.toNat / 16), hexDigit (x.toNat % 16)]

/-- The nearest integer, ties to even. -/
def roundEven (q : ℚ) : ℤ :=
  let f := ⌊q⌋
  if q - f < 1 / 2 then f else if 1 / 2 < q - f then f + 1 else if f % 2 = 0 then f else f + 1

/-- `"-"` for a negative sign. -/
def signText : Float.Model.UnpackedFloat.Sign → Octets
  | .positive => []
  | .negative => [45]

/-- A non-negative number with six decimals. -/
def sixDecimals (q : ℚ) : Octets :=
  let scaled := (roundEven (q * 1000000)).toNat
  let frac := dec (1000000 + scaled % 1000000)
  dec (scaled / 1000000) ++ [46] ++ frac.drop 1

/-- `fixed6`: `"%.6f"`.  The sign of a NaN is not modelled. -/
def fixed6 (v : Float) : Octets :=
  match v.toModel.unpack with
  | .notANumber => ascii "nan"
  | .infinity sign => signText sign ++ ascii "inf"
  | .zero sign => signText sign ++ sixDecimals 0
  | .finite sign mantissa exponent _ => signText sign ++ sixDecimals (mantissa * 2 ^ exponent)

/-- `dmapTag`: the code, a 4-byte length, the payload. -/
def dmapTag (code : Octets) (payload : Octets) : Octets := code ++ beBytes 4 payload.length ++ payload

end AirplaySender
