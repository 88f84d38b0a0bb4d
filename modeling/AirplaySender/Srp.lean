/-
# SRP-6a, client side (`airplay_crypto.cpp`, `SrpClient`)

The bignum calls are exact arithmetic on naturals, with the one failure the library documents for
them: writing a number into a buffer it does not fit in.  `process` meets it when the server's `B`
has more than 384 significant octets, and what it throws there leaves the client unprocessed.
-/
import AirplaySender.Crypto

namespace AirplaySender

open Octets

/-- `kSrpN3072`: the modulus of RFC 5054 group 3072. -/
def srpN : ℕ :=
  0xFFFFFFFFFFFFFFFFC90FDAA22168C234C4C6628B80DC1CD129024E088A67CC74020BBEA63B139B22514A08798E3404DDEF9519B3CD3A431B302B0A6DF25F14374FE1356D6D51C245E485B576625E7EC6F44C42E9A637ED6B0BFF5CB6F406B7EDEE386BFB5A899FA5AE9F24117C4B1FE649286651ECE45B3DC2007CB8A163BF0598DA48361C55D39A69163FA8FD24CF5F83655D23DCA3AD961C62F356208552BB9ED529077096966D670C354E4ABC9804F1746C08CA18217C32905E462E36CE3BE39E772C180E86039B2783A2EC07A28FB5C55DF06F4C52C9DE2BCBF6955817183995497CEA956AE515D2261898FA051015728E5A8AAAC42DAD33170D04507A33A85521ABDF1CBA64ECFB850458DBEF0A8AEA71575D060C7DB3970F85A6E1E4C7ABF5AE8CDB0933D71E8C94E04A25619DCEE3D2261AD2EE6BF12FFA06D98A0864D87602733EC86A64521F2B18177B200CBBE117577A615D6C770988C0BAD946E208E24FA074E5AB3143DB5BFCE0FD108E4B82D120A93AD2CAFFFFFFFFFFFFFFFF

/-- `g`. -/
def srpG : ℕ := 5

/-- `kSrpNBytes`. -/
def srpNBytes : ℕ := 384

/-- `mpiToBytes`: the shortest big-endian form, one zero octet for zero. -/
def mpiToBytes (n : ℕ) : Octets := beBytes (if n = 0 then 1 else n.log2 / 8 + 1) n

/-- `mpiToBytesPadded`: `none` is the library refusing a number longer than the buffer. -/
def mpiToBytesPadded (n len : ℕ) : Option Octets :=
  if n < 256 ^ len then some (beBytes len n) else none

/-- `bytesToMpi`. -/
def bytesToMpi (b : Octets) : ℕ := beVal 0 b

/-- `mbedtls_mpi_exp_mod`. -/
def expMod (base exponent modulus : ℕ) : ℕ := base ^ exponent % modulus

/-- `SrpClient::Impl`, the members read after the exchange. -/
structure SrpClient where
  password : Octets := []
  a : ℕ := 0
  A : ℕ := 0
  /-- `K`, the session key. -/
  K : Octets := []
  M1 : Octets := []
  processed : Bool := false

namespace SrpClient

variable [Primitives]

/-- `hashTwoPadded`. -/
def hashTwoPadded (a b : ℕ) : Option Octets := do
  let pa ← mpiToBytesPadded a srpNBytes
  let pb ← mpiToBytesPadded b srpNBytes
  return sha512 (pa ++ pb)

/-- `SrpClient::start`, given the 32 random octets of the ephemeral secret. -/
def start (password aBytes : Octets) : SrpClient :=
  let a := bytesToMpi aBytes
  { password := password, a := a, A := expMod srpG a srpN }

/-- `SrpClient::publicA`. -/
def publicA (c : SrpClient) : Octets := mpiToBytes c.A

/-- `x = H(salt | H("Pair-Setup:" password))`. -/
def privateKey (c : SrpClient) (salt : Octets) : ℕ :=
  bytesToMpi (sha512 (salt ++ sha512 (ascii "Pair-Setup:" ++ c.password)))

/-- `S = (B - k * g^x) ^ (a + u * x) mod N`, the base kept non-negative. -/
def secret (c : SrpClient) (B k u x : ℕ) : ℕ :=
  let kgx := k * expMod srpG x srpN % srpN
  let base := (((B : ℤ) - kgx) % srpN).toNat
  expMod base (c.a + u * x) srpN

/-- `M1 = H(H(N) xor H(g) | H(I) | salt | A | B | K)`. -/
def clientProof (c : SrpClient) (salt : Octets) (B : ℕ) (K : Octets) : Octets :=
  let hXor := List.zipWith (· ^^^ ·) (sha512 (mpiToBytes srpN)) (sha512 (mpiToBytes srpG))
  sha512 (hXor ++ sha512 (ascii "Pair-Setup") ++ salt ++ mpiToBytes c.A ++ mpiToBytes B ++ K)

/-- What `SrpClient::process` ends in. -/
inductive Outcome
  | threw
  | refused
  | done (c : SrpClient)

/-- `SrpClient::process`. -/
def process (c : SrpClient) (salt serverB : Octets) : Outcome :=
  let B := bytesToMpi serverB
  if B % srpN = 0 then .refused
  else
    match hashTwoPadded srpN srpG, hashTwoPadded c.A B with
    | some kBytes, some uBytes =>
      let S := c.secret B (bytesToMpi kBytes) (bytesToMpi uBytes) (c.privateKey salt)
      let K := sha512 (mpiToBytes S)
      .done { c with K := K, M1 := c.clientProof salt B K, processed := true }
    | _, _ => .threw

/-- The session key is a hash. -/
theorem length_K {c c' : SrpClient} {salt serverB : Octets}
    (h : c.process salt serverB = .done c') : c'.K.length = 64 := by
  unfold process at h
  dsimp only at h
  split at h
  · cases h
  · split at h
    · obtain rfl := Outcome.done.inj h
      exact length_sha512 _
    · cases h

/-- `SrpClient::verifyServerProof`: the proof is `H(A | M1 | K)`. -/
def verifyServerProof (c : SrpClient) (serverM2 : Octets) : Bool :=
  c.processed && serverM2 == sha512 (mpiToBytes c.A ++ c.M1 ++ c.K)

end SrpClient

end AirplaySender
