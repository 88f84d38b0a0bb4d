/-
# Requests, and the end of a session (`raop_sender.cpp`, RTSP plumbing)

Three builders put a request on the control channel: `sendRequest_` for RTSP, `httpPost_` for the
pairing posts, `sendAp2Rtsp_` for the AirPlay 2 setup, whose replies go to the pairing dispatcher.
Each one counts the request, queues its method and its reply kind, and hands the text to
`writeRtsp_`; the AirPlay 2 feedback timer builds its own (`feedbackText`).

`fail_` and the socket releases are here because a refused connect ends the session from inside
`tcpConnect`.
-/
import AirplaySender.Frames

namespace AirplaySender

open Octets

/-! ## 1. Ending a session -/

/-- `releaseSockets_`. -/
def releaseSockets : M Unit := do
  let s ← sender
  Prog.when s.udpBound do
    emit (.udpClose .audio)
    emit (.udpClose .control)
    emit (.udpClose .timing)
    setS fun s => { s with udpBound := false }
  setS fun s => { s with localControlPort := 0, localTimingPort := 0 }
  emit (.tcpClose .event false)

/-- The two events at the end of a session the application did not stop. -/
def reportEnd [Host] (wasStarting : Bool) (why : Octets) : M Unit := do
  emit (.failed wasStarting)
  Prog.when wasStarting (Host.fire (.launched false why))
  emit (.reported wasStarting)
  Host.fire .closed

/-- `fail_` behind the reset of the state and the timers. -/
def reportFailure [Host] (wasStarting : Bool) (why : Octets) : M Unit := do
  emit (.tcpClose .control false)
  setS fun s => { s with rtspConnected := false }
  releaseSockets
  reportEnd wasStarting why

/-- The state and the timers at the end of a session. -/
def Sender.ended (s : Sender) : Sender := { s with state := .idle }.stopTimers

/-- `fail_`. -/
def fail [Host] (why : Octets) : M Unit := do
  let s ← sender
  setAndEmit Sender.ended (.ending s.state s.waitingForPin false)
  reportFailure (s.state ≠ .streaming) why

/-- `onTcpConnectFailed`. -/
def onTcpConnectFailed [Host] (ch : Tcp) (reason : Octets) : M Unit :=
  match ch with
  | .event => return ()
  | .control => do
    let s ← sender
    if s.state ≠ .idle then
      fail (if reason = [] then ascii "Connection failed" else reason)

/-- `io_.tcpConnect`; the host may report a failure from inside the call. -/
def tcpConnect [Host] (ch : Tcp) (host : Octets) (port : UInt16) : M Unit := do
  emit (.tcpConnect ch host port)
  let failure ← ask (fun e => e.connects.head) fun e => { e with connects := e.connects.tail }
  match failure with
  | some reason => onTcpConnectFailed ch reason
  | none => return ()

/-! ## 2. Request texts -/

/-- A header line. -/
def headerText (name : String) (value : Octets) : Octets := ascii name ++ ascii ": " ++ value ++ crlf

/-- The request line and the `CSeq` header every request starts with. -/
def requestHead (method uri : Octets) (version : String) (cseq : ℤ) : Octets :=
  method ++ ascii " " ++ uri ++ ascii " " ++ ascii version ++ crlf ++
    headerText "CSeq" (decInt cseq)

/-- `Content-Type`, when there is one. -/
def contentTypeText (contentType : Octets) : Octets :=
  if contentType = [] then [] else headerText "Content-Type" contentType

/-- `Content-Length`, when there is a body. -/
def contentLengthText (body : Octets) : Octets :=
  if body = [] then [] else headerText "Content-Length" (dec body.length)

/-- The sender's identity headers. -/
def identityText (s : Sender) : Octets :=
  headerText "DACP-ID" s.dacpId ++ headerText "Active-Remote" (dec s.activeRemote.toNat) ++
    headerText "Client-Instance" s.dacpId

/-- The text `sendRequest_` builds. -/
def rtspText [Primitives] (s : Sender) (method uri contentType body : Octets)
    (extra : List (Octets × Octets)) : Octets :=
  requestHead method uri "RTSP/1.0" s.cseq ++ headerText "User-Agent" (ascii "AirPlay/550.10") ++
    identityText s ++ headerText "X-Apple-Client-Name" s.identity.name ++
    (if s.digestNonce ≠ [] ∧ s.digestPassword ≠ [] then
      headerText "Authorization"
        (digestAuthResponse method uri (ascii "iTunes") s.digestRealm s.digestPassword
          s.digestNonce)
    else []) ++
    extra.flatMap (fun h => h.1 ++ ascii ": " ++ h.2 ++ crlf) ++
    contentTypeText contentType ++ contentLengthText body ++ crlf ++ body

/-- The text `httpPost_` builds. -/
def httpText (s : Sender) (uri contentType body : Octets) : Octets :=
  requestHead (ascii "POST") uri "HTTP/1.1" s.cseq ++
    headerText "User-Agent" (ascii "AirPlay/550.10") ++
    headerText "Connection" (ascii "keep-alive") ++
    headerText "X-Apple-HKP" (dec (if s.authMethod = .hapTransient then 4 else 3)) ++
    identityText s ++ headerText "X-Apple-Client-Name" s.identity.name ++
    contentTypeText contentType ++ headerText "Content-Length" (dec body.length) ++ crlf ++ body

/-- The text `sendAp2Rtsp_` builds. -/
def ap2Text (s : Sender) (method uri contentType body : Octets) : Octets :=
  requestHead method uri "RTSP/1.0" s.cseq ++ headerText "User-Agent" (ascii "AirPlay/550.10") ++
    identityText s ++ headerText "X-Apple-Client-Name" s.identity.name ++
    (if method = ascii "SETUP" then headerText "X-Apple-StreamID" (dec 1) else []) ++
    contentTypeText contentType ++ contentLengthText body ++ crlf ++ body

/-- The AirPlay 2 keep-alive `onFeedbackTimer_` builds. -/
def feedbackText (s : Sender) : Octets :=
  requestHead (ascii "POST") (ascii "/feedback") "RTSP/1.0" s.cseq ++
    headerText "User-Agent" (ascii "AirPlay/550.10") ++ identityText s ++
    headerText "Content-Length" (dec 0) ++ crlf

/-! ## 3. The builders -/

section Builders

variable [Primitives]

/-- Count a request and queue its method and the kind of its reply.  The count is an `int`: behind
2^31 - 1 it wraps around, as the processor has it; the language leaves that open. -/
def enqueue (method : Octets) (isHttp : Bool) (text : Octets) : M Unit := do
  let s ← sender
  setAndEmit
    (fun s => { s with
      cseq := wrap32 (s.cseq + 1)
      pendingMethods := s.pendingMethods ++ [method]
      pendingIsHttp := s.pendingIsHttp ++ [isHttp] })
    (.requested s.cseq method isHttp text)

/-- `sendRequest_`. -/
def sendRequest (method uri contentType body : Octets) (extra : List (Octets × Octets)) :
    M Unit := do
  let s ← sender
  let text := rtspText s method uri contentType body extra
  enqueue method false text
  writeRtsp text
  let s ← sender
  Prog.when (s.state = .handshake ∨ s.state = .pairing) (arm .timeout)

/-- `httpPost_`. -/
def httpPost (uri contentType body : Octets) : M Unit := do
  let s ← sender
  let text := httpText s uri contentType body
  enqueue (ascii "POST") true text
  writeRtsp text
  let s ← sender
  Prog.when (!s.waitingForPin) (arm .timeout)

/-- `sendAp2Rtsp_`. -/
def sendAp2Rtsp (method uri contentType body : Octets) : M Unit := do
  let s ← sender
  let text := ap2Text s method uri contentType body
  enqueue method true text
  writeRtsp text
  arm .timeout

/-- The `Session` header, when SETUP gave one. -/
def sessionHeader (s : Sender) : List (Octets × Octets) :=
  if s.rtspSession = [] then [] else [(ascii "Session", s.rtspSession)]

/-- The volume `SET_PARAMETER`. -/
def sendVolume (dbfs : Float) : M Unit := do
  let s ← sender
  sendRequest (ascii "SET_PARAMETER") s.rtspUri (ascii "text/parameters")
    (ascii "volume: " ++ fixed6 dbfs) (sessionHeader s)

/-- `RTP-Info`: the sequence number and timestamp of the next audio packet. -/
def rtpInfo (s : Sender) : Octets :=
  ascii "seq=" ++ dec s.seq.toNat ++ ascii ";rtptime=" ++ dec s.rtptime32.toNat

/-- The DMAP items of the now-playing fields that are set. -/
def dmapInner (s : Sender) : Octets :=
  (if s.npTitle = [] then [] else dmapTag (ascii "minm") s.npTitle) ++
    (if s.npAlbum = [] then [] else dmapTag (ascii "asal") s.npAlbum) ++
    (if s.npArtist = [] then [] else dmapTag (ascii "asar") s.npArtist)

/-- `sendMetadata_`. -/
def sendMetadata : M Unit := do
  let s ← sender
  if s.state ≠ .streaming then return ()
  else if s.npTitle = [] ∧ s.npArtist = [] ∧ s.npAlbum = [] ∧ s.npCover = [] then return ()
  else do
    let hdr := sessionHeader s ++ [(ascii "RTP-Info", rtpInfo s)]
    Prog.when (dmapInner s ≠ []) (sendRequest (ascii "SET_PARAMETER") s.rtspUri
      (ascii "application/x-dmap-tagged") (dmapTag (ascii "mlit") (dmapInner s)) hdr)
    Prog.when (s.npCover ≠ [] ∧ s.npCover.length ≤ 8 * 1024 * 1024) (sendRequest
      (ascii "SET_PARAMETER") s.rtspUri
      (if s.npCoverMime = [] then ascii "image/jpeg" else s.npCoverMime) s.npCover hdr)

end Builders

end AirplaySender
