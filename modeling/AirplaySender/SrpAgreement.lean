/-
# SRP-6a: both sides agree, and what the client does with a bad `B`

The server half is the reference server of the repository's own tests: `x`, `v`, `k`, `B` when it
starts, `u`, `S`, `K`, `M1` and `M2` when it answers.  It writes numbers trimmed and padded the way
the client does, so the two agree as soon as they agree on `S`; that is modular algebra, for every
modulus (`agreement`).

`process` does not survive every `B`.  What it refuses are the multiples of `N`; a number that is
none and that does not fit 384 octets makes the padding for `u` throw (`process_threw_iff`), out of
`sendPairSetupM3_` and on.
-/
import AirplaySender.Runs
import Mathlib.Data.ZMod.Basic

namespace AirplaySender

open Octets Prog

/-! ## 1. The algebra -/

/-- A remainder taken back to the naturals is what it was, modulo `N`. -/
theorem cast_toNat_emod {N : ℕ} (hN : 0 < N) (z : ℤ) : (((z % N).toNat : ℕ) : ZMod N) = z := by
  have hnonneg : 0 ≤ z % N := Int.emod_nonneg _ (Int.natCast_ne_zero.mpr hN.ne')
  have hcast := congrArg (Int.cast : ℤ → ZMod N) (Int.toNat_of_nonneg hnonneg)
  rw [Int.cast_natCast] at hcast
  rw [hcast, ZMod.intCast_mod]

/-- **Two ways to one secret.**  `(B - k * v) ^ (a + u * x)` is `(A * v ^ u) ^ b` where `v = g ^ x`,
`A = g ^ a` and `B = k * v + g ^ b`, everything reduced on the way. -/
theorem agreement {N : ℕ} (hN : 0 < N) (g a b x u k : ℕ) :
    ((((k * (g ^ x % N) + g ^ b % N) % N : ℕ) - (k * (g ^ x % N) % N : ℕ) : ℤ) % N).toNat ^
        (a + u * x) % N =
      ((g ^ a % N) * ((g ^ x % N) ^ u % N) % N) ^ b % N := by
  rw [← ZMod.natCast_eq_natCast_iff', Nat.cast_pow, cast_toNat_emod hN, Int.cast_sub,
    Int.cast_natCast, Int.cast_natCast]
  simp only [Nat.cast_pow, Nat.cast_mul, Nat.cast_add, ZMod.natCast_mod]
  have hbase : (k * (g : ZMod N) ^ x + g ^ b - k * g ^ x) = g ^ b := by ring
  calc (k * (g : ZMod N) ^ x + g ^ b - k * g ^ x) ^ (a + u * x)
      = (g ^ b) ^ (a + u * x) := by rw [hbase]
    _ = (g ^ a * (g ^ x) ^ u) ^ b := by ring

/-! ## 2. Numbers as octets -/

/-- Reading back the shortest form. -/
theorem bytesToMpi_mpiToBytes (n : ℕ) : bytesToMpi (mpiToBytes n) = n := by
  refine beVal_beBytes_of_lt ?_
  by_cases hn : n = 0
  · simp [hn]
  · rw [if_neg hn]
    calc n < 2 ^ (n.log2 + 1) := Nat.lt_log2_self
      _ ≤ 2 ^ (8 * (n.log2 / 8 + 1)) := Nat.pow_le_pow_right (by decide) (by omega)
      _ = 256 ^ (n.log2 / 8 + 1) := by rw [pow_mul]; rfl

theorem srpN_pos : 0 < srpN := by decide +kernel

theorem srpN_fits : srpN < 256 ^ srpNBytes := by decide +kernel

theorem srpG_fits : srpG < 256 ^ srpNBytes := by decide +kernel

theorem expMod_fits (base exponent : ℕ) : expMod base exponent srpN < 256 ^ srpNBytes :=
  (Nat.mod_lt _ srpN_pos).trans srpN_fits

/-! ## 3. How the client's half ends -/

section Client

variable [Primitives] {c : SrpClient} {salt serverB : Octets} {m n : ℕ}

/-- Two numbers that fit, padded and hashed. -/
def hashPadded (m n : ℕ) : Octets := sha512 (beBytes srpNBytes m ++ beBytes srpNBytes n)

theorem hashTwoPadded_fits (hm : m < 256 ^ srpNBytes) (hn : n < 256 ^ srpNBytes) :
    SrpClient.hashTwoPadded m n = some (hashPadded m n) := by
  have hpm : mpiToBytesPadded m srpNBytes = some (beBytes srpNBytes m) := by
    rw [mpiToBytesPadded, if_pos hm]
  have hpn : mpiToBytesPadded n srpNBytes = some (beBytes srpNBytes n) := by
    rw [mpiToBytesPadded, if_pos hn]
  simp only [SrpClient.hashTwoPadded, hpm, hpn]
  rfl

theorem hashTwoPadded_long (hn : 256 ^ srpNBytes ≤ n) : SrpClient.hashTwoPadded m n = none := by
  have hno : mpiToBytesPadded n srpNBytes = none := by
    rw [mpiToBytesPadded, if_neg (Nat.not_lt.mpr hn)]
  simp only [SrpClient.hashTwoPadded, hno]
  cases mpiToBytesPadded m srpNBytes <;> rfl

namespace SrpClient

/-- The `S` of `process`. -/
def sharedSecret (c : SrpClient) (salt : Octets) (B : ℕ) : ℕ :=
  c.secret B (bytesToMpi (hashPadded srpN srpG)) (bytesToMpi (hashPadded c.A B)) (c.privateKey salt)

/-- The client after `process`. -/
def completed (c : SrpClient) (salt : Octets) (B : ℕ) : SrpClient :=
  let K := sha512 (mpiToBytes (c.sharedSecret salt B))
  { c with K := K, M1 := c.clientProof salt B K, processed := true }

theorem process_refused (h : bytesToMpi serverB % srpN = 0) :
    c.process salt serverB = .refused := by
  simp only [process, if_pos h]

/-- A number the client can work with. -/
theorem process_done (hA : c.A < 256 ^ srpNBytes) (h : bytesToMpi serverB % srpN ≠ 0)
    (hfits : bytesToMpi serverB < 256 ^ srpNBytes) :
    c.process salt serverB = .done (c.completed salt (bytesToMpi serverB)) := by
  simp only [process, if_neg h, hashTwoPadded_fits srpN_fits srpG_fits, hashTwoPadded_fits hA hfits]
  rfl

/-- A number that the padding throws on. -/
theorem process_threw (h : bytesToMpi serverB % srpN ≠ 0)
    (hlong : 256 ^ srpNBytes ≤ bytesToMpi serverB) : c.process salt serverB = .threw := by
  simp only [process, if_neg h, hashTwoPadded_fits srpN_fits srpG_fits, hashTwoPadded_long hlong]

end SrpClient

/-! ## 4. Agreement with the reference server -/

/-- The reference server once it has started. -/
structure SrpServer where
  salt : Octets
  k : ℕ
  v : ℕ
  b : ℕ
  B : ℕ

/-- What the reference server computes from the client's `A`. -/
structure SrpAnswer where
  S : ℕ
  K : Octets
  M1expected : Octets
  M2 : Octets

namespace SrpServer

/-- `SrpServer::start`, given the salt and the octets of the secret. -/
def start (pin salt bBytes : Octets) : SrpServer :=
  let x := bytesToMpi (sha512 (salt ++ sha512 (ascii "Pair-Setup:" ++ pin)))
  let v := expMod srpG x srpN
  let b := bytesToMpi bBytes
  let k := bytesToMpi (sha512 (beBytes srpNBytes srpN ++ beBytes srpNBytes srpG))
  { salt := salt, k := k, v := v, b := b, B := (k * v + expMod srpG b srpN) % srpN }

/-- `SrpServer::publicB`. -/
def publicB (s : SrpServer) : Octets := mpiToBytes s.B

/-- `SrpServer::process`, what it fills in. -/
def answer (s : SrpServer) (clientA : Octets) : SrpAnswer :=
  let A := bytesToMpi clientA
  let u := bytesToMpi (sha512 (beBytes srpNBytes A ++ beBytes srpNBytes s.B))
  let S := expMod (A * expMod s.v u srpN % srpN) s.b srpN
  let K := sha512 (mpiToBytes S)
  let hx := List.zipWith (· ^^^ ·) (sha512 (mpiToBytes srpN)) (sha512 (mpiToBytes srpG))
  let M1 := sha512 (hx ++ sha512 (ascii "Pair-Setup") ++ s.salt ++ mpiToBytes A ++ mpiToBytes s.B ++ K)
  { S := S, K := K, M1expected := M1, M2 := sha512 (mpiToBytes A ++ M1 ++ K) }

/-- `SrpServer::process`, what it returns. -/
def process (s : SrpServer) (clientA clientM1 : Octets) : Bool :=
  clientM1 == (s.answer clientA).M1expected

omit [Primitives] in
theorem bytesToMpi_publicB (s : SrpServer) : bytesToMpi s.publicB = s.B := bytesToMpi_mpiToBytes s.B

theorem start_fits (pin salt bBytes : Octets) : (start pin salt bBytes).B < 256 ^ srpNBytes :=
  (Nat.mod_lt _ srpN_pos).trans srpN_fits

end SrpServer

namespace SrpClient

/-- The comparison loop of `verifyServerProof`: the bits in which the two differ, collected. -/
def difference (diff : UInt8) : Octets → Octets → UInt8
  | x :: xs, y :: ys => difference (diff ||| (x ^^^ y)) xs ys
  | _, _ => diff

omit [Primitives] in
theorem difference_eq_zero {diff : UInt8} {xs ys : Octets} (h : xs.length = ys.length) :
    difference diff xs ys = 0 ↔ diff = 0 ∧ xs = ys := by
  induction xs generalizing diff ys with
  | nil =>
    obtain rfl := List.length_eq_zero_iff.mp h.symm
    simp [difference]
  | cons x xs ih =>
    cases ys with
    | nil => simp at h
    | cons y ys =>
      rw [difference, ih (by simpa using h), UInt8.or_eq_zero_iff, UInt8.xor_eq_zero_iff,
        List.cons.injEq, and_assoc]

/-- `verifyServerProof` as the source computes it. -/
theorem verifyServerProof_loop (c : SrpClient) (serverM2 : Octets) :
    c.verifyServerProof serverM2 =
      (c.processed && (sha512 (mpiToBytes c.A ++ c.M1 ++ c.K)).length == serverM2.length &&
        difference 0 (sha512 (mpiToBytes c.A ++ c.M1 ++ c.K)) serverM2 == 0) := by
  rw [verifyServerProof]
  generalize sha512 (mpiToBytes c.A ++ c.M1 ++ c.K) = m2
  by_cases hlen : m2.length = serverM2.length
  · have hdiff : (difference 0 m2 serverM2 == 0) = (serverM2 == m2) := by
      rw [Bool.eq_iff_iff, beq_iff_eq, beq_iff_eq, difference_eq_zero hlen]
      exact ⟨fun h => h.2.symm, fun h => ⟨rfl, h.symm⟩⟩
    rw [hdiff, beq_iff_eq.mpr hlen, Bool.and_true]
  · have hne : (serverM2 == m2) = false := beq_eq_false_iff_ne.mpr fun heq => hlen (by rw [heq])
    rw [hne, beq_eq_false_iff_ne.mpr hlen, Bool.and_false, Bool.false_and]

end SrpClient

/-- The client's `S` is the server's. -/
theorem sharedSecret_eq (pin salt aBytes bBytes : Octets) :
    (SrpClient.start pin aBytes).sharedSecret salt (SrpServer.start pin salt bBytes).B =
      ((SrpServer.start pin salt bBytes).answer (SrpClient.start pin aBytes).publicA).S := by
  simp only [SrpServer.answer, SrpClient.publicA, bytesToMpi_mpiToBytes]
  exact agreement srpN_pos srpG (bytesToMpi aBytes) (bytesToMpi bBytes)
    (bytesToMpi (sha512 (salt ++ sha512 (ascii "Pair-Setup:" ++ pin))))
    (bytesToMpi (hashPadded (SrpClient.start pin aBytes).A (SrpServer.start pin salt bBytes).B))
    (bytesToMpi (hashPadded srpN srpG))

/-- **Both sides agree.**  For every PIN, salt and pair of secrets whose `B` is no multiple of `N`
the client ends with the server's `S`, `K` and `M1`, the server takes its proof, and it takes the
server's proof and nothing else. -/
theorem srp_agreement (pin salt aBytes bBytes : Octets)
    (hB : (SrpServer.start pin salt bBytes).B % srpN ≠ 0) :
    let server := SrpServer.start pin salt bBytes
    let client := SrpClient.start pin aBytes
    let answer := server.answer client.publicA
    client.sharedSecret salt server.B = answer.S ∧
      ∃ c, client.process salt server.publicB = .done c ∧ c.K = answer.K ∧ c.M1 = answer.M1expected ∧
        server.process client.publicA c.M1 = true ∧
        answer.M2 = sha512 (client.publicA ++ c.M1 ++ c.K) ∧
        ∀ proof, c.verifyServerProof proof = true ↔ proof = answer.M2 := by
  intro server client answer
  have hS : client.sharedSecret salt server.B = answer.S := sharedSecret_eq pin salt aBytes bBytes
  have hA : bytesToMpi client.publicA = client.A := bytesToMpi_mpiToBytes _
  have hK : (client.completed salt server.B).K = answer.K := by
    have : (client.completed salt server.B).K = sha512 (mpiToBytes (client.sharedSecret salt server.B)) :=
      rfl
    rw [this, hS]
    rfl
  have hM1 : (client.completed salt server.B).M1 = answer.M1expected := by
    have hproof : (client.completed salt server.B).M1 =
        client.clientProof salt server.B (client.completed salt server.B).K := rfl
    have hexpected : answer.M1expected =
        client.clientProof salt server.B answer.K := by
      simp only [answer, SrpServer.answer, hA]
      rfl
    rw [hproof, hK, hexpected]
  have hM2 : answer.M2 = sha512 (client.publicA ++ answer.M1expected ++ answer.K) := by
    simp only [answer, SrpServer.answer, hA]
    rfl
  have hdone : client.process salt server.publicB = .done (client.completed salt server.B) := by
    have hread := SrpServer.bytesToMpi_publicB server
    have := @SrpClient.process_done _ client salt server.publicB (expMod_fits _ _) (by rw [hread]; exact hB)
      (by rw [hread]; exact SrpServer.start_fits pin salt bBytes)
    rw [this, hread]
  refine ⟨hS, _, hdone, hK, hM1, ?_, ?_, ?_⟩
  · rw [SrpServer.process, hM1]
    exact beq_self_eq_true _
  · rw [hM1, hK]
    exact hM2
  · intro proof
    have hverify : (client.completed salt server.B).verifyServerProof proof =
        (proof == sha512 (client.publicA ++ (client.completed salt server.B).M1 ++
          (client.completed salt server.B).K)) := by
      rw [SrpClient.verifyServerProof]
      rfl
    rw [hverify, hM1, hK, ← hM2]
    exact beq_iff_eq

end Client

/-! ## 5. A bad `B` in `sendPairSetupM3_` -/

section Exchange

variable [Primitives] [Host] {w : World}

/-- The world in which the client answers: its 32 random octets are drawn. -/
def drawn (w : World) (a : Ap2State) (client : SrpClient) : World :=
  { w with
    s := { w.s with ap2 := some { a with srp := some client } }
    env := { w.env with entropy := w.env.entropy.tail } }

/-- What `sendPairSetupM3_` does with the outcome of `process`. -/
def onOutcome (pin : Octets) : SrpClient.Outcome → M Unit
  | .threw => Prog.raise (.runtimeError (ascii "airplay crypto: mpi_write_binary pad"))
  | .refused => fail (ascii "Pairing rejected the device's parameters")
  | .done c => do
    setAndEmit (fun s => { s with ap2 := s.ap2.map fun a => { a with srp := some c } })
      (.srpAgreed pin c.K)
    stageTo .setupM4
    httpPost (ascii "/pair-setup") octetStream
      (Tlv.encode [(Tlv.Tag.state.code, [0x03]), (Tlv.Tag.publicKey.code, c.publicA),
        (Tlv.Tag.proof.code, c.M1)])

theorem sendPairSetupM3_run {a : Ap2State} {f : ℕ → UInt8} (pin : Octets) (ha : w.s.ap2 = some a)
    (hf : w.env.entropy.head = some f) :
    sendPairSetupM3 pin w =
      onOutcome pin ((SrpClient.start pin ((List.range 32).map f)).process w.s.srpSalt w.s.srpServerB)
        (drawn w a (SrpClient.start pin ((List.range 32).map f))) := by
  let w₁ : World := { w with s := { w.s with ap2 := some { a with srp := some {} } } }
  let w₂ : World := { w₁ with env := { w₁.env with entropy := w₁.env.entropy.tail } }
  have hfresh : ap2Set (fun a => { a with srp := some {} }) w = (.ok (), w₁) := by
    simp [ap2Set, ap2Get, sender, setS, bind_run, ha, w₁]
  have hdraw : randomBytes 32 w₁ = (.ok ((List.range 32).map f), w₂) := by
    simp [randomBytes, ask, bind_run, w₂, w₁, hf]
  have hkeep : ap2Set (fun a => { a with srp := some (SrpClient.start pin ((List.range 32).map f)) }) w₂ =
      (.ok (), drawn w a (SrpClient.start pin ((List.range 32).map f))) := by
    simp [ap2Set, ap2Get, sender, setS, bind_run, w₂, w₁, drawn]
  let w₃ := drawn w a (SrpClient.start pin ((List.range 32).map f))
  have hsalt : w₃.s.srpSalt = w.s.srpSalt := rfl
  have hB : w₃.s.srpServerB = w.s.srpServerB := rfl
  rw [sendPairSetupM3, bind_ok hfresh, bind_ok hdraw, bind_ok hkeep, sender_bind, hsalt, hB]
  unfold onOutcome
  cases (SrpClient.start pin ((List.range 32).map f)).process w.s.srpSalt w.s.srpServerB <;> rfl

/-- A number the client can work with: not a multiple of `N`, and within the padding. -/
def Workable (B : ℕ) : Prop := B % srpN ≠ 0 ∧ B < 256 ^ srpNBytes

/-- **What a bad `B` does.**  `process` ends in true or false, and the session of a `B` that cannot
be worked with ends through `fail`, if and only if `B` is a multiple of `N` or fits the padding. -/
theorem process_ends_iff (pin salt serverB aBytes : Octets) :
    (((SrpClient.start pin aBytes).process salt serverB ≠ .threw ∧
        (¬ Workable (bytesToMpi serverB) →
          (SrpClient.start pin aBytes).process salt serverB = .refused)) ∧
      ∀ (w : World) (a : Ap2State) (f : ℕ → UInt8), w.s.ap2 = some a → w.s.srpSalt = salt →
        w.s.srpServerB = serverB → w.env.entropy.head = some f → ¬ Workable (bytesToMpi serverB) →
        sendPairSetupM3 pin w = fail (ascii "Pairing rejected the device's parameters")
          (drawn w a (SrpClient.start pin ((List.range 32).map f)))) ↔
    bytesToMpi serverB % srpN = 0 ∨ bytesToMpi serverB < 256 ^ srpNBytes := by
  constructor
  · rintro ⟨⟨hno, -⟩, -⟩
    by_contra hbad
    rw [not_or, not_lt] at hbad
    exact hno (SrpClient.process_threw hbad.1 hbad.2)
  · intro hgood
    have hrefused : ¬ Workable (bytesToMpi serverB) → ∀ client : SrpClient,
        client.process salt serverB = .refused := by
      intro hun client
      refine SrpClient.process_refused (by_contra fun hne => ?_)
      exact hun ⟨hne, hgood.resolve_left hne⟩
    refine ⟨⟨?_, fun hun => hrefused hun _⟩, ?_⟩
    · by_cases hzero : bytesToMpi serverB % srpN = 0
      · rw [SrpClient.process_refused hzero]
        nofun
      · rw [SrpClient.process_done (expMod_fits _ _) hzero (hgood.resolve_left hzero)]
        nofun
    · rintro w a f ha rfl rfl hf hun
      rw [sendPairSetupM3_run pin ha hf, hrefused hun]
      rfl

end Exchange

/-! ## 6. By hand -/

section ByHand

/-- An agreement with a key and a proof in it. -/
theorem srp_agreement_sample : ∃ c, @SrpClient.process trusting (@SrpClient.start [3] [7]) [1]
    (@SrpServer.start trusting [3] [1] [5]).publicB = .done c ∧
    @SrpClient.verifyServerProof trusting c (List.replicate 64 0) = true := by
  obtain ⟨-, c, hdone, -, -, -, hM2, hproof⟩ := @srp_agreement trusting [3] [1] [7] [5] (by decide +kernel)
  exact ⟨c, hdone, (hproof _).mpr hM2.symm⟩

/-- An `M2` whose public key has 385 octets. -/
def longReply2 : Octets :=
  okReply (Tlv.encode [(Tlv.Tag.salt.code, [1]), (Tlv.Tag.publicKey.code, 1 :: List.replicate 384 0)])

/-- The exception that leaves a call. -/
def escaped (r : Except Exn Unit) : Option Exn :=
  match r with
  | .ok _ => none
  | .error e => some e

/-- The client throws on a `B` of 385 octets, and the exception leaves `onTcpData`. -/
theorem process_throws :
    @SrpClient.process trusting (@SrpClient.start [] []) [1] (1 :: List.replicate 384 0) = .threw ∧
    escaped (@perform trusting (@host trusting 0) (.onTcpData .control longReply2)
      (worldAfter (connected .hapTransient true))).1 =
        some (.runtimeError (ascii "airplay crypto: mpi_write_binary pad")) := by
  constructor
  · have hbad : bytesToMpi (1 :: List.replicate 384 0) % srpN ≠ 0 ∧
        256 ^ srpNBytes ≤ bytesToMpi (1 :: List.replicate 384 0) := by decide +kernel
    exact @SrpClient.process_threw trusting _ _ _ hbad.1 hbad.2
  · decide +kernel

end ByHand

end AirplaySender
