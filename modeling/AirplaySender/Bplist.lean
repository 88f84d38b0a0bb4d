/-
# The `bplist00` codec (`airplay_crypto.cpp`, namespace `bplist`)

The AirPlay 2 SETUP bodies are binary property lists.  `encode` flattens a value tree into an
object table: a slot is reserved for a container before its children are added, the children get
the following indices, and the slot is filled with the list of their 4-byte references.  The
table is written behind the 8-byte header and followed by a table of 4-byte offsets and the
32-byte trailer.  `decode` walks it back from object 0 through the offsets, with a depth bound,
and with a size or count guard at each object kind.

`ok` is the decoder's sticky failure flag.  It is threaded through `object` as the source's
member is, so that a branch that does not look at it goes on with the 0 a failed read returned.
-/
import AirplaySender.Lib.Octets

namespace AirplaySender.Bplist

open Octets

/-! ## 1. Values -/

/-- `bplist::Value`: the tagged value tree.  A `real` is the 64-bit pattern of its double. -/
inductive Value
  | bool (b : Bool)
  | int (i : Int64)
  | real (bits : UInt64)
  | str (s : Octets)
  | data (d : Octets)
  | arr (a : List Value)
  | dict (d : List (Octets × Value))

namespace Value

/-- `Value::find`: the first entry of a dict under a key. -/
def find (key : Octets) : Value → Option Value
  | .dict d => (d.find? fun e => e.1 == key).map Prod.snd
  | _ => none

/-- `Value::asInt`, with the default 0. -/
def asInt : Value → Int64
  | .int i => i
  | _ => 0

/-- `Value::asStr`, with the default empty string. -/
def asStr : Value → Octets
  | .str s => s
  | _ => []

end Value

/-! ## 2. The encoder -/

/-- `Encoder::encodeInt`: the smallest of the widths 1, 2, 4 for a non-negative value, else 8. -/
def encodeInt (value : Int64) : Octets :=
  if 0 ≤ value.toInt ∧ value.toInt ≤ 0xFF then 0x10 :: beBytes 1 value.toUInt64.toNat
  else if 0 ≤ value.toInt ∧ value.toInt ≤ 0xFFFF then 0x11 :: beBytes 2 value.toUInt64.toNat
  else if 0 ≤ value.toInt ∧ value.toInt ≤ 0xFFFFFFFF then 0x12 :: beBytes 4 value.toUInt64.toNat
  else 0x13 :: beBytes 8 value.toUInt64.toNat

/-- `Encoder::encodeMarkerLen`: the length in the marker's low nibble, or 0xF and an int. -/
def encodeMarkerLen (marker : UInt8) (len : ℕ) : Octets :=
  if len < 15 then [marker ||| UInt8.ofNat len]
  else (marker ||| 0x0F) :: encodeInt (Int64.ofNat len)

/-- `Encoder::encodeString`. -/
def encodeString (s : Octets) : Octets := encodeMarkerLen 0x50 s.length ++ s

/-- `Encoder::appendRef`. -/
def appendRef (ref : ℕ) : Octets := beBytes 4 ref

/-- Reserve the next slot of the object table and fill it at once. -/
def put (obj : Octets) (objects : List Octets) : ℕ × List Octets :=
  (objects.length, (objects ++ [[]]).set objects.length obj)

mutual

/-- `Encoder::add`: flatten `v` into the object table, returning its index. -/
def add : Value → List Octets → ℕ × List Octets
  | .bool b, objects => put [if b then 0x09 else 0x08] objects
  | .int i, objects => put (encodeInt i) objects
  | .real bits, objects => put (0x23 :: beBytes 8 bits.toNat) objects
  | .str s, objects => put (encodeString s) objects
  | .data d, objects => put (encodeMarkerLen 0x40 d.length ++ d) objects
  | .arr a, objects =>
    let (refs, table) := addAll a (objects ++ [[]])
    (objects.length,
      table.set objects.length (encodeMarkerLen 0xA0 refs.length ++ refs.flatMap appendRef))
  | .dict d, objects =>
    let (krefs, vrefs, table) := addPairs d (objects ++ [[]])
    (objects.length,
      table.set objects.length
        (encodeMarkerLen 0xD0 d.length ++ krefs.flatMap appendRef ++ vrefs.flatMap appendRef))

/-- The loop over an array's children. -/
def addAll : List Value → List Octets → List ℕ × List Octets
  | [], objects => ([], objects)
  | c :: cs, objects =>
    let (r, t₁) := add c objects
    let (rs, t₂) := addAll cs t₁
    (r :: rs, t₂)

/-- The loop over a dict's entries: the key as a string object, then the value. -/
def addPairs : List (Octets × Value) → List Octets → List ℕ × List ℕ × List Octets
  | [], objects => ([], [], objects)
  | (k, v) :: es, objects =>
    let (kr, t₁) := put (encodeString k) objects
    let (vr, t₂) := add v t₁
    let (krs, vrs, t₃) := addPairs es t₂
    (kr :: krs, vr :: vrs, t₃)

end

/-- `"bplist00"`. -/
def header : Octets := ascii "bplist00"

/-- The byte offset of each object, the first one at `at`. -/
def offsetsFrom (start : ℕ) : List Octets → List ℕ
  | [] => []
  | o :: os => start :: offsetsFrom (start + o.length) os

/-- The trailer: 6 unused, offset size, reference size, object count, top object, table start. -/
def trailer (numObjects offsetTableStart : ℕ) : Octets :=
  List.replicate 6 0 ++ [4, 4] ++ beBytes 8 numObjects ++ beBytes 8 0 ++ beBytes 8 offsetTableStart

/-- The file around an object table. -/
def assemble (objects : List Octets) : Octets :=
  header ++ objects.flatten ++ (offsetsFrom header.length objects).flatMap (beBytes 4) ++
    trailer objects.length (header.length + objects.flatten.length)

/-- `bplist::encode`: the root is object 0. -/
def encode (root : Value) : Octets := assemble (add root []).2

/-! ## 3. The decoder -/

/-- Wrap-around of the decoder's `uint64_t` arithmetic. -/
def u64 (n : ℕ) : ℕ := n % 2 ^ 64

/-- The loop of `Decoder::readBE`; `none` is the read that ran off the end. -/
def readLoop (d : Octets) : ℕ → ℕ → ℕ → Option ℕ
  | _, 0, v => some v
  | pos, n + 1, v =>
    match d[pos]? with
    | none => none
    | some b => readLoop d (pos + 1) n (u64 (v * 256) ||| b.toNat)

/-- `Decoder::readBE`: the value and the flag; a failed read clears the flag and gives 0. -/
def readBE (d : Octets) (pos n : ℕ) (ok : Bool) : ℕ × Bool :=
  match readLoop d pos n 0 with
  | none => (0, false)
  | some v => (v, ok)

/-- `Decoder` after `parseTrailer`. -/
structure Decoder where
  d : Octets
  refSize : ℕ
  numObjects : ℕ
  offsets : List ℕ

/-- The size fields the trailer may carry. -/
def validSize (s : ℕ) : Bool := s == 1 || s == 2 || s == 4 || s == 8

/-- `Decoder::parseTrailer`. -/
def parseTrailer (d : Octets) : Option Decoder :=
  if d.length < 8 + 32 then none
  else if d.take 8 ≠ header then none
  else
    let tr := d.length - 32
    let offsetSize := ((d[tr + 6]?).getD 0).toNat
    let refSize := ((d[tr + 7]?).getD 0).toNat
    let (numObjects, ok₁) := readBE d (tr + 8) 8 true
    let (offsetTableStart, ok₂) := readBE d (tr + 24) 8 ok₁
    if !ok₂ then none
    else if !validSize offsetSize || !validSize refSize then none
    else if d.length < offsetTableStart then none
    else if d.length < numObjects then none
    else if (d.length - offsetTableStart) / offsetSize < numObjects then none
    else
      let reads := (List.range numObjects).map fun i =>
        readBE d (u64 (offsetTableStart + i * offsetSize)) offsetSize true
      if reads.all Prod.snd then
        some { d := d, refSize := refSize, numObjects := numObjects, offsets := reads.map Prod.fst }
      else none

/-- A `float`'s bits widened to the `double` of the same value. -/
def widenFloat (b : ℕ) : ℕ :=
  let sign := b / 2 ^ 31 % 2
  let e := b / 2 ^ 23 % 256
  let m := b % 2 ^ 23
  sign * 2 ^ 63 +
    if e = 255 then 0x7FF * 2 ^ 52 + (if m = 0 then 0 else m * 2 ^ 29 ||| 2 ^ 51)
    else if e = 0 then
      if m = 0 then 0
      else (Nat.log2 m + 874) * 2 ^ 52 + (m * 2 ^ (52 - Nat.log2 m) - 2 ^ 52)
    else (e + 896) * 2 ^ 52 + m * 2 ^ 29

/-- `readCount`: the count of a marker with low nibble `lo`, the position behind it, the flag. -/
def readCount (d : Octets) (lo pos : ℕ) (ok : Bool) : ℕ × ℕ × Bool :=
  if lo ≠ 0x0F then (lo, pos, ok)
  else
    match d[pos]? with
    | none => (0, pos, false)
    | some im =>
      let n := 1 <<< (im.toNat % 16)
      let (c, ok') := readBE d (pos + 1) n ok
      (c, pos + 1 + n, ok')

/-- The `i`-th reference of a table at `pos`. -/
def refAt (dec : Decoder) (pos i : ℕ) (ok : Bool) : ℕ × Bool :=
  readBE dec.d (u64 (pos + i * dec.refSize)) dec.refSize ok

/-- The units of a UTF-16 string: the low byte of each, up to the end of the input. -/
def utf16Low (d : Octets) (pos : ℕ) : ℕ → ℕ → Octets
  | 0, _ => []
  | n + 1, i =>
    match d[pos + i * 2 + 1]? with
    | none => []
    | some b => b :: utf16Low d pos n (i + 1)

/-- The children of an array at references `i ..< i + n`, each decoded by `child`. -/
def objectsAt (dec : Decoder) (child : ℕ → Bool → Option (Value × Bool)) (pos : ℕ) :
    ℕ → ℕ → Bool → Option (List Value × Bool)
  | 0, _, ok => some ([], ok)
  | n + 1, i, ok => do
    let (r, ok₁) := refAt dec pos i ok
    let (v, ok₂) ← child r ok₁
    let (vs, ok₃) ← objectsAt dec child pos n (i + 1) ok₂
    return (v :: vs, ok₃)

/-- The entries of a dict: key reference `i`, value reference `cnt + i`. -/
def entriesAt (dec : Decoder) (child : ℕ → Bool → Option (Value × Bool)) (pos cnt : ℕ) :
    ℕ → ℕ → Bool → Option (List (Octets × Value) × Bool)
  | 0, _, ok => some ([], ok)
  | n + 1, i, ok => do
    let (kr, ok₁) := refAt dec pos i ok
    let (vr, ok₂) := refAt dec pos (cnt + i) ok₁
    let (k, ok₃) ← child kr ok₂
    let (v, ok₄) ← child vr ok₃
    let (es, ok₅) ← entriesAt dec child pos cnt n (i + 1) ok₄
    return ((k.asStr, v) :: es, ok₅)

/-- `Decoder::object`.  `left` counts the levels still allowed: the source's `depth` is
`33 - left`, so `left = 0` is its `depth > 32`. -/
def object (dec : Decoder) : ℕ → ℕ → Bool → Option (Value × Bool)
  | 0, _, _ => none
  | left + 1, ref, ok =>
    if dec.numObjects ≤ ref then none
    else
      match dec.offsets[ref]? with
      | none => none
      | some start =>
        match dec.d[start]? with
        | none => none
        | some marker =>
          let pos := start + 1
          let lo := marker.toNat % 16
          match marker.toNat / 16 with
          | 0x0 => some (.bool (marker == 0x09), ok)
          | 0x1 =>
            let (v, ok') := readBE dec.d pos (1 <<< lo) ok
            some (.int (UInt64.ofNat v).toInt64, ok')
          | 0x2 =>
            let (bits, ok') := readBE dec.d pos (1 <<< lo) ok
            if lo = 3 then some (.real (UInt64.ofNat bits), ok')
            else if lo = 2 then some (.real (UInt64.ofNat (widenFloat bits)), ok')
            else some (.real 0, ok')
          | 0x4 =>
            let (cnt, pos', ok') := readCount dec.d lo pos ok
            if dec.d.length < cnt ∨ dec.d.length < u64 (pos' + cnt) then none
            else some (.data ((dec.d.drop pos').take cnt), ok')
          | 0x5 =>
            let (cnt, pos', ok') := readCount dec.d lo pos ok
            if dec.d.length < cnt ∨ dec.d.length < u64 (pos' + cnt) then none
            else some (.str ((dec.d.drop pos').take cnt), ok')
          | 0x6 =>
            let (cnt, pos', ok') := readCount dec.d lo pos ok
            if dec.d.length < cnt then none
            else some (.str (utf16Low dec.d pos' cnt 0), ok')
          | 0xA =>
            let (cnt, pos', ok') := readCount dec.d lo pos ok
            if !ok' ∨ dec.numObjects < cnt ∨ dec.d.length < u64 (pos' + u64 (cnt * dec.refSize)) then
              none
            else (objectsAt dec (object dec left) pos' cnt 0 ok').map fun (a, ok'') => (.arr a, ok'')
          | 0xD =>
            let (cnt, pos', ok') := readCount dec.d lo pos ok
            if !ok' ∨ dec.numObjects < cnt ∨
                dec.d.length < u64 (pos' + u64 (2 * cnt * dec.refSize)) then none
            else
              (entriesAt dec (object dec left) pos' cnt cnt 0 ok').map fun (d, ok'') =>
                (.dict d, ok'')
          | _ => none

/-- `bplist::decode`. -/
def decode (data : Octets) : Option Value := do
  let dec ← parseTrailer data
  let (v, _) ← object dec 33 0 true
  return v

end AirplaySender.Bplist
