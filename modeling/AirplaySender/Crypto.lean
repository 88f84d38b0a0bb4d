/-
# Crypto primitives and the wrappers around them (`airplay_crypto.cpp`)

Mbed TLS and the curve code are taken as the parameter `Primitives`: hashing, HKDF, the AEAD, X25519
and Ed25519 as functions whose results have the documented lengths, and nothing else about them.
What the sender's own file does with them is here: the nonce layout, the guards on key and operand
lengths, the digest header.  SRP and TLV8 have their own modules.
-/
import AirplaySender.Text

namespace AirplaySender

open Octets

/-- The octet strings of a fixed length. -/
abbrev Block (n : ℕ) := { b : Octets // b.length = n }

/-- The library primitives. -/
class Primitives where
  /-- `mbedtls_md` with SHA-512. -/
  sha512 : Octets → Block 64
  /-- `mbedtls_md` with MD5. -/
  md5 : Octets → Block 16
  /-- `mbedtls_hkdf` with SHA-512: salt, info, key material, output length. -/
  hkdf : Octets → Octets → Octets → (n : ℕ) → Block n
  /-- `mbedtls_chachapoly_encrypt_and_tag`: key, 12-byte nonce, associated data, plaintext. -/
  encryptAndTag : Octets → Octets → Octets → (pt : Octets) → Block (pt.length + 16)
  /-- `mbedtls_chachapoly_auth_decrypt`: key, nonce, associated data, ciphertext and tag. -/
  authDecrypt : Octets → Octets → Octets → (ct : Octets) → Option (Block (ct.length - 16))
  /-- `x25519_base`. -/
  x25519Base : Octets → Block 32
  /-- `x25519_scalarmult`. -/
  x25519Scalarmult : Octets → Octets → Block 32
  /-- `ed25519_create_keypair`, the public half. -/
  ed25519Public : Octets → Block 32
  /-- `ed25519_sign` under the pair of a seed. -/
  ed25519Sign : Octets → Octets → Block 64
  /-- `ed25519_verify`: public key, message, signature. -/
  ed25519Verify : Octets → Octets → Octets → Bool

/-- A stand-in for the library, to follow a session by hand: hashes are constant, a sealed text is
the text behind sixteen zero octets, which opens again where `genuine` allows it, and every
signature verifies. -/
@[reducible] def Primitives.transparent (genuine : Octets → Octets → Octets → Octets → Bool) :
    Primitives where
  sha512 _ := ⟨List.replicate 64 0, rfl⟩
  md5 _ := ⟨List.replicate 16 0, rfl⟩
  hkdf _ info _ n := ⟨(info ++ List.replicate n 0).take n, by simp⟩
  encryptAndTag _ _ _ pt := ⟨pt ++ List.replicate 16 0, by simp⟩
  authDecrypt key nonce aad ct :=
    if ct.drop (ct.length - 16) = List.replicate 16 0 ∧ genuine key nonce aad ct then
      some ⟨ct.take (ct.length - 16), by simp⟩
    else none
  x25519Base _ := ⟨List.replicate 32 1, rfl⟩
  x25519Scalarmult _ _ := ⟨List.replicate 32 1, rfl⟩
  ed25519Public _ := ⟨List.replicate 32 0, rfl⟩
  ed25519Sign _ _ := ⟨List.replicate 64 0, rfl⟩
  ed25519Verify _ _ _ := true

section Wrappers

variable [Primitives]

/-- `sha512`. -/
def sha512 (data : Octets) : Octets := (Primitives.sha512 data).1

@[simp] theorem length_sha512 (data : Octets) : (sha512 data).length = 64 :=
  (Primitives.sha512 data).2

/-- `hkdfSha512` with the 32-byte output every caller asks for. -/
def hkdfSha512 (salt info : String) (ikm : Octets) : Octets :=
  (Primitives.hkdf (ascii salt) (ascii info) ikm 32).1

@[simp] theorem length_hkdfSha512 (salt info : String) (ikm : Octets) :
    (hkdfSha512 salt info ikm).length = 32 := (Primitives.hkdf _ _ _ 32).2

/-- `counterNonce8`: the counter, little-endian. -/
def counterNonce8 (counter : UInt64) : Octets := leBytes 8 counter.toNat

/-- `pad12`: four zero bytes, then the first eight of the nonce, zero-filled. -/
def pad12 (nonce8 : Octets) : Octets := List.replicate 4 0 ++ (nonce8 ++ List.replicate 8 0).take 8

/-- `chacha20Poly1305Encrypt` behind its key-size guard: ciphertext and tag. -/
def chachaSeal (key nonce8 pt aad : Octets) : Octets :=
  (Primitives.encryptAndTag key (pad12 nonce8) aad pt).1

@[simp] theorem length_chachaSeal (key nonce8 pt aad : Octets) :
    (chachaSeal key nonce8 pt aad).length = pt.length + 16 :=
  (Primitives.encryptAndTag key (pad12 nonce8) aad pt).2

/-- `chacha20Poly1305Decrypt`. -/
def chacha20Poly1305Decrypt (key nonce8 ct aad : Octets) : Option Octets :=
  if ct.length < 16 ∨ key.length ≠ 32 then none
  else (Primitives.authDecrypt key (pad12 nonce8) aad ct).map Subtype.val

/-- The law of the cipher: what was sealed opens under the same key, nonce and associated data. -/
def OpensSealed : Prop := ∀ key nonce aad pt,
  (Primitives.authDecrypt key nonce aad (Primitives.encryptAndTag key nonce aad pt).1).map
    Subtype.val = some pt

/-- What `chacha20Poly1305Encrypt` sealed, `chacha20Poly1305Decrypt` opens. -/
theorem decrypt_seal (h : OpensSealed) {key : Octets} (hkey : key.length = 32)
    (nonce8 pt aad : Octets) :
    chacha20Poly1305Decrypt key nonce8 (chachaSeal key nonce8 pt aad) aad = some pt := by
  unfold chacha20Poly1305Decrypt
  rw [if_neg]
  · exact h key (pad12 nonce8) aad pt
  · rw [not_or, not_lt, length_chachaSeal]
    exact ⟨Nat.le_add_left _ _, not_not.mpr hkey⟩

/-- `x25519SharedSecret`: empty for operands of a wrong length and for an all-zero result. -/
def x25519SharedSecret (ourPriv theirPub : Octets) : Octets :=
  if ourPriv.length ≠ 32 ∨ theirPub.length ≠ 32 then []
  else
    let out := (Primitives.x25519Scalarmult ourPriv theirPub).1
    if out.all (· == 0) then [] else out

/-- A secret that was derived has 32 octets. -/
theorem length_x25519SharedSecret {ourPriv theirPub : Octets}
    (h : x25519SharedSecret ourPriv theirPub ≠ []) :
    (x25519SharedSecret ourPriv theirPub).length = 32 := by
  unfold x25519SharedSecret at h ⊢
  split at h
  · exact absurd rfl h
  · rename_i hlen
    rw [if_neg hlen]
    dsimp only at h ⊢
    split at h
    · exact absurd rfl h
    · rename_i hz
      rw [if_neg hz]
      exact (Primitives.x25519Scalarmult ourPriv theirPub).2

/-- `ed25519PublicFromSeed`. -/
def ed25519PublicFromSeed (seed : Octets) : Octets := (Primitives.ed25519Public seed).1

/-- `ed25519Sign`. -/
def ed25519Sign (seed msg : Octets) : Octets := (Primitives.ed25519Sign seed msg).1

/-- `ed25519Verify`. -/
def ed25519Verify (pub msg sig : Octets) : Bool :=
  if pub.length ≠ 32 ∨ sig.length ≠ 64 then false else Primitives.ed25519Verify pub msg sig

/-- `md5Hex`. -/
def md5Hex (s : Octets) : Octets := hexEncode (Primitives.md5 s).1

/-- `digestAuthResponse`: the value of the `Authorization` header. -/
def digestAuthResponse (method uri username realm password nonce : Octets) : Octets :=
  let ha1 := md5Hex (username ++ ascii ":" ++ realm ++ ascii ":" ++ password)
  let ha2 := md5Hex (method ++ ascii ":" ++ uri)
  let resp := md5Hex (ha1 ++ ascii ":" ++ nonce ++ ascii ":" ++ ha2)
  ascii "Digest username=\"" ++ username ++ ascii "\", realm=\"" ++ realm ++
    ascii "\", nonce=\"" ++ nonce ++ ascii "\", uri=\"" ++ uri ++
    ascii "\", response=\"" ++ resp ++ ascii "\""

end Wrappers

/-- The stand-in opens what it sealed. -/
theorem opensSealed_transparent : @OpensSealed (.transparent fun _ _ _ _ => true) := by
  intro key nonce aad pt
  have hdrop : (pt ++ List.replicate 16 (0 : UInt8)).drop
      ((pt ++ List.replicate 16 (0 : UInt8)).length - 16) = List.replicate 16 0 := by simp
  have htake : (pt ++ List.replicate 16 (0 : UInt8)).take
      ((pt ++ List.replicate 16 (0 : UInt8)).length - 16) = pt := by simp
  refine (congrArg (Option.map Subtype.val) (if_pos ⟨hdrop, rfl⟩)).trans ?_
  exact congrArg some htake

end AirplaySender
