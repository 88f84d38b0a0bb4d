/-
# After authentication: the two setup sequences (`raop_sender.cpp`)

AirPlay 1 runs OPTIONS, ANNOUNCE, SETUP, RECORD as RTSP requests; AirPlay 2 runs GET /info, the
session SETUP, RECORD and the stream SETUP with binary-plist bodies, each sent from the handler of
the previous reply.  `afterAuthOk_` is the fork, and on AirPlay 2 the point where the control
channel becomes encrypted.
-/
import AirplaySender.Streaming
import AirplaySender.Bplist

namespace AirplaySender

open Octets

section Setup

variable [Primitives]

/-! ## 1. The AirPlay 1 handshake -/

/-- `sendOptions_`. -/
def sendOptions : M Unit := sendRequest (ascii "OPTIONS") (ascii "*") [] [] []

/-- The SDP body of ANNOUNCE. -/
def announceSdp (s : Sender) : Octets :=
  ascii "v=0\r\n" ++
    ascii "o=iTunes " ++ dec s.sessionId.toNat ++ ascii " 0 IN IP4 " ++ s.localIp ++ crlf ++
    ascii "s=iTunes\r\n" ++ ascii "c=IN IP4 " ++ s.hostIp ++ crlf ++ ascii "t=0 0\r\n" ++
    ascii "m=audio 0 RTP/AVP 96\r\n" ++ ascii "a=rtpmap:96 L16/44100/2\r\n" ++
    ascii "a=fmtp:96 352 0 16 40 10 14 2 255 0 0 44100\r\n"

/-- `sendAnnounce_`. -/
def sendAnnounce : M Unit := do
  let s ← sender
  sendRequest (ascii "ANNOUNCE") s.rtspUri (ascii "application/sdp") (announceSdp s) []

/-- `sendSetup_`. -/
def sendSetup : M Unit := do
  let s ← sender
  sendRequest (ascii "SETUP") s.rtspUri [] []
    [(ascii "Transport", ascii "RTP/AVP/UDP;unicast;interleaved=0-1;mode=record;control_port=" ++
      dec s.localControlPort.toNat ++ ascii ";timing_port=" ++ dec s.localTimingPort.toNat)]

/-- `sendRecord_`. -/
def sendRecord : M Unit := do
  let s ← sender
  sendRequest (ascii "RECORD") s.rtspUri [] []
    ([(ascii "Range", ascii "npt=0-"), (ascii "RTP-Info", rtpInfo s)] ++ sessionHeader s)

/-! ## 2. The AirPlay 2 setup -/

/-- Assign `pairStage_`. -/
def stageTo (stage : PairStage) : M Unit :=
  setAndEmit (fun s => { s with pairStage := stage }) (.staged stage)

/-- `sendAp2Info_`. -/
def sendAp2Info : M Unit := do
  stageTo .ap2Info
  sendAp2Rtsp (ascii "GET") (ascii "/info") [] []

/-- A string entry of a plist dictionary. -/
def strEntry (key : String) (value : Octets) : Octets × Bplist.Value := (ascii key, .str value)

/-- An integer entry. -/
def intEntry (key : String) (value : ℕ) : Octets × Bplist.Value :=
  (ascii key, .int (Int64.ofNat value))

/-- A boolean entry. -/
def boolEntry (key : String) (value : Bool) : Octets × Bplist.Value := (ascii key, .bool value)

/-- The plist of the session SETUP. -/
def sessionPlist (s : Sender) (sessionUuid : Octets) : Bplist.Value :=
  .dict
    [strEntry "deviceID" s.identity.deviceId, strEntry "sessionUUID" sessionUuid,
      intEntry "timingPort" s.localTimingPort.toNat, strEntry "timingProtocol" (ascii "NTP"),
      boolEntry "isMultiSelectAirPlay" true, boolEntry "groupContainsGroupLeader" false,
      strEntry "macAddress" s.identity.deviceId, strEntry "model" s.identity.model,
      strEntry "name" s.identity.name, strEntry "osBuildVersion" (ascii "20F66"),
      strEntry "osName" (ascii "iPhone OS"), strEntry "osVersion" (ascii "16.5"),
      boolEntry "senderSupportsRelay" false, strEntry "sourceVersion" (ascii "690.7.1"),
      boolEntry "statsCollectionEnabled" false]

/-- `"application/x-apple-binary-plist"`. -/
def plistType : Octets := ascii "application/x-apple-binary-plist"

/-- `sendAp2SetupSession_`. -/
def sendAp2SetupSession : M Unit := do
  let s ← sender
  let a ← ap2Get
  stageTo .ap2Session
  sendAp2Rtsp (ascii "SETUP") s.rtspUri plistType (Bplist.encode (sessionPlist s a.sessionUuid))

/-- `sendAp2Record_`. -/
def sendAp2Record : M Unit := do
  stageTo .ap2Record
  let s ← sender
  sendAp2Rtsp (ascii "RECORD") s.rtspUri [] []

/-- `uint16_t` of a plist integer. -/
def portOf (v : Bplist.Value) : UInt16 := v.asInt.toInt16.toUInt16

/-- The event port of a session SETUP reply that has one. -/
def noteEventPort (body : Octets) : M Unit :=
  match (Bplist.decode body).bind (Bplist.Value.find (ascii "eventPort")) with
  | some ep => ap2Set fun a => { a with eventPort := portOf ep }
  | none => pure ()

/-- `handleAp2SetupSession_`. -/
def handleAp2SetupSession [Host] (body : Octets) : M Unit := do
  noteEventPort body
  let a ← ap2Get
  Prog.when (a.eventPort ≠ 0) do
    emit (.tcpClose .event false)
    let s ← sender
    tcpConnect .event s.hostIp a.eventPort
  sendAp2Record

/-- The plist of the stream SETUP, with the audio key as `shk`. -/
def streamPlist (s : Sender) (shk : Octets) : Bplist.Value :=
  .dict [(ascii "streams", .arr [.dict
    [intEntry "audioFormat" 0x40000, strEntry "audioMode" (ascii "default"),
      intEntry "controlPort" s.localControlPort.toNat, intEntry "ct" 2, boolEntry "isMedia" true,
      intEntry "latencyMax" 88200, intEntry "latencyMin" 11025, (ascii "shk", .data shk),
      intEntry "spf" 352, intEntry "sr" 44100, intEntry "type" 0x60,
      boolEntry "supportsDynamicStreamID" false,
      intEntry "streamConnectionID" s.sessionId.toNat]])]

/-- `sendAp2SetupStream_`: the audio key is the first 32 bytes of the shared secret. -/
def sendAp2SetupStream : M Unit := do
  let s ← sender
  let a ← ap2Get
  let audioKey := a.sharedSecret.take 32
  setS fun s => { s with
    ap2 := s.ap2.map fun a => { a with audioKey := audioKey, audioNonce := 0, encryptAudio := true } }
  stageTo .ap2Stream
  sendAp2Rtsp (ascii "SETUP") s.rtspUri plistType (Bplist.encode (streamPlist s audioKey))

/-- The first stream of a stream SETUP reply. -/
def firstStream (body : Octets) : Option Bplist.Value := do
  let root ← Bplist.decode body
  match root.find (ascii "streams") with
  | some (.arr (s₀ :: _)) => some s₀
  | _ => none

/-- A port of the first stream, 0 where the reply has none. -/
def streamPort (body : Octets) (key : String) : UInt16 :=
  (((firstStream body).bind (Bplist.Value.find (ascii key))).map portOf).getD 0

/-- `handleAp2SetupStream_`. -/
def handleAp2SetupStream [Host] (body : Octets) : M Unit := do
  let serverPort := streamPort body "dataPort"
  let controlPort := streamPort body "controlPort"
  setS fun s => { s with serverPort := serverPort, controlPort := controlPort }
  if serverPort = 0 then fail (ascii "AirPlay 2 stream SETUP returned no data port")
  else do
    setS fun s => { s with
      controlPort := if controlPort = 0 then serverPort else controlPort
      timingPort := serverPort }
    startStreaming

/-! ## 3. The fork -/

/-- The control channel can be switched: an AirPlay 2 pairing state with both control keys. -/
def controlKeyed (s : Sender) : Option Ap2State :=
  match s.ap2 with
  | some a => if a.controlOut.length = 32 ∧ a.controlIn.length = 32 then some a else none
  | none => none

/-- Switch the control channel to frames, when there are keys for it. -/
def switchControl : M Unit := do
  let s ← sender
  match controlKeyed s with
  | some a =>
    setAndEmit
      (fun s => { s with
        controlEncrypted := true
        ctrlSendCtr := 0
        ctrlRecvCtr := 0
        rtspEncBuf := [] })
      (.switched a.controlOut a.controlIn s.rxBuf)
  | none => pure ()

/-- `afterAuthOk_`. -/
def afterAuthOk : M Unit := do
  setS fun s => { s with digestRetried := false }
  let s ← sender
  if s.airplay2 then
    switchControl
    setAndEmit (fun s => { s with state := .handshake }) (.cleared s.authMethod true s.ap2.isSome)
    sendAp2Info
  else
    setAndEmit (fun s => { s with state := .handshake }) (.cleared s.authMethod false s.ap2.isSome)
    sendOptions

end Setup

end AirplaySender
