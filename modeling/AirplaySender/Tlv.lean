/-
# HomeKit TLV8 (`airplay_crypto.cpp`, namespace `tlv`)

Items are tag, one-octet length, value; a value longer than 255 octets is written as consecutive
items of the same tag, and the reader joins adjacent items of equal tag again.  A truncated last
item ends the reading without an error.
-/
import AirplaySender.Lib.Octets

namespace AirplaySender.Tlv

/-- `tlv::Type`: the tags the pairing messages use. -/
inductive Tag
  | method
  | identifier
  | salt
  | publicKey
  | proof
  | encryptedData
  | state
  | error
  | signature
  | flags

/-- The octet of a tag. -/
def Tag.code : Tag → UInt8
  | method => 0x00
  | identifier => 0x01
  | salt => 0x02
  | publicKey => 0x03
  | proof => 0x04
  | encryptedData => 0x05
  | state => 0x06
  | error => 0x07
  | signature => 0x0A
  | flags => 0x13

/-- `tlv::Map`: insertion-ordered. -/
abbrev Map := List (UInt8 × Octets)

/-- The do-while loop over one value: at least one chunk, 255 octets at most in each. -/
def encodeItem (tag : UInt8) : ℕ → Octets → Octets
  | 0, _ => []
  | fuel + 1, value =>
    let chunk := value.take 255
    let rest := value.drop 255
    tag :: UInt8.ofNat chunk.length :: chunk ++
      (if rest = [] then [] else encodeItem tag fuel rest)

/-- `tlv::encode`. -/
def encode (items : Map) : Octets :=
  items.flatMap fun (tag, value) => encodeItem tag (value.length + 1) value

/-- Append a chunk to the map, joining it to a last item of the same tag. -/
def join (out : Map) (tag : UInt8) (chunk : Octets) : Map :=
  match out.getLast? with
  | some (t, v) => if t = tag then out.dropLast ++ [(t, v ++ chunk)] else out ++ [(tag, chunk)]
  | none => [(tag, chunk)]

/-- The loop of `tlv::decode`. -/
def decodeLoop : ℕ → Map → Octets → Map
  | fuel + 1, out, tag :: len :: rest =>
    if rest.length < len.toNat then out
    else decodeLoop fuel (join out tag (rest.take len.toNat)) (rest.drop len.toNat)
  | _, out, _ => out

/-- `tlv::decode`. -/
def decode (data : Octets) : Map := decodeLoop data.length [] data

/-- `tlv::get`. -/
def get (m : Map) (tag : Tag) : Option Octets :=
  (m.find? fun e => e.1 == tag.code).map Prod.snd

end AirplaySender.Tlv
