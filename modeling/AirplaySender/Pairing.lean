/-
# Pairing (`raop_sender.cpp`, auth-setup, pair-setup and pair-verify)

The pairing sub-machine: which reply the next response is lies in `pairStage`, and every handler
sends the next request.  Two fallbacks change the method on the way: a 470 on the transient M1
restarts as on-screen-PIN pairing, a 403 on /pair-pin-start restarts as transient pairing, once.

The checks of the receiver are recorded with what they check: `serverProof` at M4, `signature` at
pair-verify M2.  `strictAuth` decides whether a failed one ends the session.
-/
import AirplaySender.Setup

namespace AirplaySender

open Octets

section Pairing

variable [Primitives] [Host]

/-! ## 1. Pair-setup -/

/-- The body type of the pairing posts. -/
def octetStream : Octets := ascii "application/octet-stream"

/-- The static curve25519 key of `sendAuthSetup_`, behind its mode byte. -/
def authSetupKey : Octets :=
  [0x01, 0x59, 0x02, 0xed, 0xe9, 0x0d, 0x4e, 0xf2, 0xbd, 0x4c, 0xb6, 0x8a, 0x63, 0x30, 0x03, 0x82,
    0x07, 0xa9, 0x4d, 0xbd, 0x50, 0xd8, 0xaa, 0x46, 0x5b, 0x5d, 0x8c, 0x01, 0x2a, 0x0c, 0x7e, 0x1d,
    0x4e]

/-- `sendAuthSetup_`. -/
def sendAuthSetup : M Unit := do
  stageTo .authSetup
  httpPost (ascii "/auth-setup") octetStream authSetupKey

/-- `sendPairPinStart_`. -/
def sendPairPinStart : M Unit := do
  stageTo .pinStart
  httpPost (ascii "/pair-pin-start") octetStream []

/-- `sendPairSetupM1_`. -/
def sendPairSetupM1 : M Unit := do
  let s ← sender
  let m : Tlv.Map := [(Tlv.Tag.method.code, [0x00]), (Tlv.Tag.state.code, [0x01])] ++
    (if s.authMethod = .hapTransient then [(Tlv.Tag.flags.code, [0x10])] else [])
  stageTo .setupM2
  httpPost (ascii "/pair-setup") octetStream (Tlv.encode m)

/-- `sendPairSetupM3_`. -/
def sendPairSetupM3 (pin : Octets) : M Unit := do
  ap2Set fun a => { a with srp := some {} }
  let aBytes ← randomBytes 32
  let client := SrpClient.start pin aBytes
  ap2Set fun a => { a with srp := some client }
  let s ← sender
  match client.process s.srpSalt s.srpServerB with
  | .threw => Prog.raise (.runtimeError (ascii "airplay crypto: mpi_write_binary pad"))
  | .refused => fail (ascii "Pairing rejected the device's parameters")
  | .done c =>
    setAndEmit (fun s => { s with ap2 := s.ap2.map fun a => { a with srp := some c } })
      (.srpAgreed pin c.K)
    stageTo .setupM4
    httpPost (ascii "/pair-setup") octetStream
      (Tlv.encode [(Tlv.Tag.state.code, [0x03]), (Tlv.Tag.publicKey.code, c.publicA),
        (Tlv.Tag.proof.code, c.M1)])

/-- The `Error` item of a reply as the messages print it. -/
def errorText (err : Octets) : Octets := dec ((err.head?.getD 0).toNat)

/-- `handlePairSetupM2_`. -/
def handlePairSetupM2 (body : Octets) : M Unit := do
  let m := Tlv.decode body
  match Tlv.get m .error with
  | some err => fail (ascii "The device rejected pairing (error " ++ errorText err ++ ascii ")")
  | none =>
    match Tlv.get m .salt, Tlv.get m .publicKey with
    | some salt, some pub =>
      setS fun s => { s with srpSalt := salt, srpServerB := pub }
      let s ← sender
      if s.authMethod = .hapTransient then sendPairSetupM3 (ascii "3939")
      else do
        setS fun s => ({ s with waitingForPin := true } : Sender).disarm .timeout
        arm .pinTimeout
        let s ← sender
        Host.fire (.pinRequired s.name)
    | _, _ => fail (ascii "Pairing setup response was incomplete")

/-- `sendPairSetupM5_`. -/
def sendPairSetupM5 : M Unit := do
  let a ← ap2Get
  Prog.when (a.ltSeed = []) do
    let seed ← randomBytes 32
    ap2Set fun a => { a with ltSeed := seed }
  ap2Set fun a => { a with ltPub := ed25519PublicFromSeed a.ltSeed }
  let a ← ap2Get
  Prog.when (a.pairingId = []) do
    let uuid ← uuidV4Lower
    ap2Set fun a => { a with pairingId := uuid }
  let a ← ap2Get
  match a.srp with
  | none => nullDeref
  | some srp =>
    let K := srp.K
    let sessionKey := hkdfSha512 "Pair-Setup-Encrypt-Salt" "Pair-Setup-Encrypt-Info" K
    let iosDeviceX := hkdfSha512 "Pair-Setup-Controller-Sign-Salt" "Pair-Setup-Controller-Sign-Info" K
    let sig := ed25519Sign a.ltSeed (iosDeviceX ++ a.pairingId ++ a.ltPub)
    let inner := Tlv.encode [(Tlv.Tag.identifier.code, a.pairingId),
      (Tlv.Tag.publicKey.code, a.ltPub), (Tlv.Tag.signature.code, sig)]
    let enc ← chacha20Poly1305Encrypt .setupM5 sessionKey (ascii "PS-Msg05") inner []
    setS fun s => { s with pairSetupSessionKey := sessionKey }
    stageTo .setupM6
    httpPost (ascii "/pair-setup") octetStream
      (Tlv.encode [(Tlv.Tag.state.code, [0x05]), (Tlv.Tag.encryptedData.code, enc)])

/-- The server proof of M4, checked where the message has one. -/
def checkServerProof (proof : Option Octets) : M Bool :=
  match proof with
  | none => return false
  | some p => do
    let a ← ap2Get
    match a.srp with
    | none => nullDeref
    | some srp => do
      emit (.serverProof srp p)
      return srp.verifyServerProof p

/-- The transient branch of M4: the control keys from the SRP key, then on to the setup. -/
def finishTransient : M Unit := do
  let a ← ap2Get
  match a.srp with
  | none => nullDeref
  | some srp =>
    let K := srp.K
    let s ← sender
    setAndEmit
      (fun s => { s with
        ap2 := s.ap2.map fun a => { a with
          sharedSecret := K
          controlOut := hkdfSha512 "Control-Salt" "Control-Write-Encryption-Key" K
          controlIn := hkdfSha512 "Control-Salt" "Control-Read-Encryption-Key" K }
        pairStage := .done })
      (.concluded s.authMethod)
    afterAuthOk

/-- `handlePairSetupM4_`. -/
def handlePairSetupM4 (body : Octets) : M Unit := do
  let m := Tlv.decode body
  match Tlv.get m .error with
  | some err => fail (ascii "Pairing PIN was not accepted (error " ++ errorText err ++ ascii ")")
  | none =>
    let proof := Tlv.get m .proof
    let ok ← checkServerProof proof
    let s ← sender
    if !ok ∧ s.strictAuth then
      fail (if proof.isSome then
        ascii "The device's pairing proof did not verify (receiver not authenticated)"
      else ascii "The device sent no pairing proof (receiver not authenticated)")
    else if s.authMethod = .hapTransient then finishTransient
    else sendPairSetupM5

/-! ## 2. Pair-verify -/

/-- `sendPairVerifyM1_`. -/
def sendPairVerifyM1 : M Unit := do
  let _ ← ap2Get
  let priv ← randomBytes 32
  let priv := ((priv.modify 0 (· &&& 248)).modify 31 (· &&& 127)).modify 31 (· ||| 64)
  let pub := (Primitives.x25519Base priv).1
  setS fun s => { s with
    ap2 := s.ap2.map fun a => { a with verifyPriv := priv, verifyPub := pub } }
  stageTo .verifyM2
  httpPost (ascii "/pair-verify") octetStream
    (Tlv.encode [(Tlv.Tag.state.code, [0x01]), (Tlv.Tag.publicKey.code, pub)])

/-- `handlePairSetupM6_`. -/
def handlePairSetupM6 (body : Octets) : M Unit := do
  let m := Tlv.decode body
  match Tlv.get m .error with
  | some err => fail (ascii "Pairing finalisation failed (error " ++ errorText err ++ ascii ")")
  | none =>
    match Tlv.get m .encryptedData with
    | none => fail (ascii "Pairing M6 response was incomplete")
    | some encrypted =>
      let s ← sender
      match chacha20Poly1305Decrypt s.pairSetupSessionKey (ascii "PS-Msg06") encrypted [] with
      | none => fail (ascii "Pairing M6 could not be decrypted")
      | some dec =>
        let sub := Tlv.decode dec
        match Tlv.get sub .identifier, Tlv.get sub .publicKey with
        | some atvId, some atvLtpk =>
          let a ← ap2Get
          setAndEmit
            (fun s => { s with
              ap2 := s.ap2.map fun a => { a with accessoryId := atvId, accessoryLtpk := atvLtpk } })
            (.ltpkLearned s.pairSetupSessionKey atvLtpk)
          let creds : Creds :=
            { ltsk := a.ltSeed, ltpk := atvLtpk, atvId := atvId, clientId := a.pairingId }
          Host.fire (.credentialsObtained s.deviceId (raopCredsToJson creds))
          let s ← sender
          emit (.resumed (s.state ≠ .idle) s.ap2.isSome)
          setS fun s => { s with pairSetupSessionKey := [] }
          sendPairVerifyM1
        | _, _ => fail (ascii "Pairing M6 was missing device keys")

/-- What the receiver signs in pair-verify M2. -/
def signedMessage (a : Ap2State) (sessionPub atvId : Octets) : Octets :=
  sessionPub ++ atvId ++ a.verifyPub

/-- A signature, checked where there is a long-term key. -/
def checkSignature (ltpk message sig : Octets) : Bool := ltpk ≠ [] && ed25519Verify ltpk message sig

/-- Pair-verify behind the check: sign our half, derive the channel keys, send M3. -/
def sendPairVerifyM3 (verifyKey sessionPub : Octets) : M Unit := do
  let a ← ap2Get
  let sig := ed25519Sign a.ltSeed (a.verifyPub ++ a.pairingId ++ sessionPub)
  let inner := Tlv.encode [(Tlv.Tag.identifier.code, a.pairingId), (Tlv.Tag.signature.code, sig)]
  let enc ← chacha20Poly1305Encrypt .verifyM3 verifyKey (ascii "PV-Msg03") inner []
  let secret := a.sharedSecret
  setS fun s => { s with
    ap2 := s.ap2.map fun a => { a with
      controlOut := hkdfSha512 "Control-Salt" "Control-Write-Encryption-Key" secret
      controlIn := hkdfSha512 "Control-Salt" "Control-Read-Encryption-Key" secret
      eventIn := hkdfSha512 "Events-Salt" "Events-Write-Encryption-Key" secret
      eventOut := hkdfSha512 "Events-Salt" "Events-Read-Encryption-Key" secret } }
  stageTo .verifyDone
  httpPost (ascii "/pair-verify") octetStream
    (Tlv.encode [(Tlv.Tag.state.code, [0x03]), (Tlv.Tag.encryptedData.code, enc)])

/-- Pair-verify M2 once the shared secret is there. -/
def checkPairVerify (verifyKey sessionPub encrypted : Octets) : M Unit := do
  match chacha20Poly1305Decrypt verifyKey (ascii "PV-Msg02") encrypted [] with
  | none => fail (ascii "Pair-verify could not be decrypted")
  | some dec =>
    let sub := Tlv.decode dec
    match Tlv.get sub .identifier, Tlv.get sub .signature with
    | some atvId, some atvSig =>
      let a ← ap2Get
      let message := signedMessage a sessionPub atvId
      let verified := checkSignature a.accessoryLtpk message atvSig
      emit (.signature a.accessoryLtpk message atvSig)
      let s ← sender
      if !verified ∧ s.strictAuth then
        fail (ascii "The device's pair-verify signature did not verify (receiver not authenticated)")
      else sendPairVerifyM3 verifyKey sessionPub
    | _, _ => fail (ascii "Pair-verify was missing the device signature")

/-- `handlePairVerifyM2_`. -/
def handlePairVerifyM2 (body : Octets) : M Unit := do
  let m := Tlv.decode body
  match Tlv.get m .error with
  | some err => fail (ascii "Pair-verify rejected (error " ++ errorText err ++ ascii ")")
  | none =>
    match Tlv.get m .publicKey, Tlv.get m .encryptedData with
    | some sessionPub, some encrypted =>
      let a ← ap2Get
      let secret := x25519SharedSecret a.verifyPriv sessionPub
      ap2Set fun a => { a with sharedSecret := secret }
      if secret = [] then fail (ascii "Pair-verify shared-secret derivation failed")
      else
        let verifyKey := hkdfSha512 "Pair-Verify-Encrypt-Salt" "Pair-Verify-Encrypt-Info" secret
        checkPairVerify verifyKey sessionPub encrypted
    | _, _ => fail (ascii "Pair-verify response incomplete")

/-! ## 3. The dispatcher -/

/-- A fresh pairing state for a method. -/
def freshPairing (auth : Auth) : M Unit := do
  setAndEmit (fun s => { s with authMethod := auth, ap2 := some {} }) (.pairing auth)
  let uuid ← uuidV4Lower
  ap2Set fun a => { a with sessionUuid := upperAscii uuid }

/-- The stored credentials `beginAuthChain_` can use. -/
def usableCreds (credsJson : Octets) : Option Creds :=
  match raopCredsFromJson credsJson with
  | some creds => if creds.ltsk.length = 32 ∧ creds.ltpk ≠ [] then some creds else none
  | none => none

/-- `beginAuthChain_`. -/
def beginAuthChain : M Unit := do
  setS fun s => { s with state := .pairing }
  let s ← sender
  match s.authMethod with
  | .none => do
    setAndEmit (fun s => { s with state := .handshake }) (.cleared .none false s.ap2.isSome)
    sendOptions
  | .password => do
    setAndEmit (fun s => { s with state := .handshake }) (.cleared .password false s.ap2.isSome)
    sendOptions
  | .authSetup => sendAuthSetup
  | .legacyPin =>
    fail (s.name ++ ascii (" uses an older AirPlay pairing that isn't supported yet. " ++
      "Update the device's software, or use an AirPlay-2 receiver " ++
      "(HomePod, Apple TV 4K, or a modern AirPlay speaker)."))
  | .hapTransient => do
    freshPairing .hapTransient
    sendPairSetupM1
  | .hapPin => do
    freshPairing .hapPin
    match usableCreds s.credsJson with
    | some creds => do
      setAndEmit
        (fun s => { s with
          ap2 := s.ap2.map fun a => { a with
            ltSeed := creds.ltsk
            pairingId := creds.clientId
            accessoryId := creds.atvId
            accessoryLtpk := creds.ltpk
            ltPub := ed25519PublicFromSeed creds.ltsk } })
        (.ltpkStored s.credsJson creds.ltpk)
      sendPairVerifyM1
    | none => sendPairPinStart

/-- The texts of a refused pairing. -/
def refusedText (code : ℤ) (name : Octets) : Octets :=
  if code = 403 then
    name ++ ascii (" refused pairing. On a Mac, set System Settings > " ++
      "AirDrop & Handoff > AirPlay Receiver > \"Allow AirPlay " ++
      "for: Everyone\" and turn off Require Password, though a " ++
      "Mac may only accept Apple devices. An Apple TV or HomePod " ++
      "(Allow Access > \"Anyone on the Same Network\") is the reliable target.")
  else if code = 470 then
    name ++ ascii (" needs to be paired with a PIN, but it didn't show " ++
      "one. On the Apple TV / Mac set AirPlay access to " ++
      "\"Anyone on the Same Network\" and try again.")
  else ascii "Pairing with " ++ name ++ ascii " failed (HTTP " ++ decInt code ++ ascii ")"

/-- A reply outside 200..299 to a pairing request: one of the two fallbacks, or the end. -/
def onPairingRefused (code : ℤ) : M Unit := do
  let s ← sender
  if code = 470 ∧ s.authMethod = .hapTransient ∧ s.pairStage = .setupM2 then
    freshPairing .hapPin
    sendPairPinStart
  else if code = 403 ∧ s.pairStage = .pinStart ∧ !s.triedTransientAfterPin403 then
    setAndEmit (fun s => { s with triedTransientAfterPin403 := true }) .refused403
    freshPairing .hapTransient
    sendPairSetupM1
  else fail (refusedText code s.name)

/-- The stage switch of `onPairingResponse_`. -/
def onPairingStage (body : Octets) : M Unit := do
  let s ← sender
  match s.pairStage with
  | .pinStart => sendPairSetupM1
  | .setupM2 => handlePairSetupM2 body
  | .setupM4 => handlePairSetupM4 body
  | .setupM6 => handlePairSetupM6 body
  | .verifyM2 => handlePairVerifyM2 body
  | .verifyDone => do
    setS fun s => { s with pairStage := .done }
    afterAuthOk
  | .ap2Info => sendAp2SetupSession
  | .ap2Session => handleAp2SetupSession body
  | .ap2Stream => handleAp2SetupStream body
  | _ => return ()

/-- `onPairingResponse_`. -/
def onPairingResponse (code : ℤ) (body : Octets) : M Unit := do
  let s ← sender
  if s.state = .idle then return ()
  else if s.state = .streaming then return ()
  else if s.authMethod = .authSetup ∧ s.ap2.isNone ∧ s.pairStage = .authSetup then
    setS fun s => { s with pairStage := .done }
    afterAuthOk
  else if s.pairStage = .ap2Record then sendAp2SetupStream
  else if code < 200 ∨ 300 ≤ code then onPairingRefused code
  else onPairingStage body

end Pairing

end AirplaySender
