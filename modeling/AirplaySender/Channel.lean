/-
# What arrives (`raop_sender.cpp`, `onRtspReadyRead_`, `onEventReadyRead_`, `handleResponse_`)

Bytes of the control connection are buffered (through the frame reader once the channel is
encrypted), cut into responses and routed by the queue of pending requests.  Bytes of the event
channel go through the same frame reader into requests, each answered with an encrypted 200.

The two message loops take messages off their buffer until none is complete.  Their fuel is the
length of the buffer, which every message shortens.
-/
import AirplaySender.Pairing

namespace AirplaySender

open Octets

/-! ## 1. Messages in a buffer -/

/-- A message cut off the control buffer. -/
structure Message where
  statusLine : Octets
  headers : Headers
  body : Octets
  /-- All its octets. -/
  bytes : Octets

/-- The first complete message of the control buffer. -/
def nextMessage (rxBuf : Octets) : Option Message :=
  match find headSep rxBuf with
  | none => none
  | some headEnd =>
    let lines := splitOn (rxBuf.take headEnd) 10
    let headers := parseHeaders lines.tail
    let contentLen :=
      ((toIntOk (headerValue headers (ascii "content-length") (ascii "0"))).getD 0).toNat
    if rxBuf.length < headEnd + 4 + contentLen then none
    else some
      { statusLine := trimAscii (lines.headD [])
        headers := headers
        body := (rxBuf.drop (headEnd + 4)).take contentLen
        bytes := rxBuf.take (headEnd + 4 + contentLen) }

/-- The status line of a response. -/
def isResponse (statusLine : Octets) : Bool :=
  (ascii "RTSP/").isPrefixOf statusLine || (ascii "HTTP/").isPrefixOf statusLine

/-- The text of the status code. -/
def statusText (statusLine : Octets) : Octets := (splitOn statusLine 32).getD 1 []

/-- The status code. -/
def statusCode (statusLine : Octets) : ℤ := toInt (statusText statusLine)

/-- The first complete request of the event buffer: its `CSeq` and its length. -/
def nextEventRequest (plainBuf : Octets) : Option (Octets × ℕ) :=
  match find headSep plainBuf with
  | none => none
  | some headEnd =>
    let headers := parseHeaders (splitOn (plainBuf.take headEnd) 10)
    let contentLen := (toInt (headerValue headers (ascii "content-length") [])).toNat
    if plainBuf.length < headEnd + 4 + contentLen then none
    else some (headerValue headers (ascii "cseq") [], headEnd + 4 + contentLen)

section Channel

variable [Primitives]

/-! ## 2. The event channel -/

/-- The answer to an event request. -/
def eventResponse (cseq : Octets) : Octets :=
  ascii "RTSP/1.0 200 OK\r\n" ++ ascii "Server: AirTunes/550.10\r\n" ++
    (if cseq = [] then [] else headerText "CSeq" cseq) ++ crlf

/-- Seal an answer and send it.  Its length is an `int`: the source throws where that is negative,
and seals only as much of the answer as it covers. -/
def sendAnswer (eventOut nonce resp : Octets) : M Unit :=
  if wrap32 resp.length < 0 then do
    emit .answerLost
    Prog.raise .lengthError
  else do
    let rlp := leBytes 2 resp.length
    let rct ← chacha20Poly1305Encrypt .event eventOut nonce (intPrefix resp) rlp
    emit (.tcpSend .event (rlp ++ rct))

/-- Answer each complete request of the event buffer. -/
def answerEvents : ℕ → M Unit
  | 0 => return ()
  | fuel + 1 => do
    let s ← sender
    match nextEventRequest s.eventPlainBuf with
    | none => return ()
    | some (cseq, total) =>
      let nonce := counterNonce8 s.eventSendCtr
      setS fun s => { s with
        eventPlainBuf := s.eventPlainBuf.drop total
        eventSendCtr := s.eventSendCtr + 1 }
      let a ← ap2Get
      sendAnswer a.eventOut nonce (eventResponse cseq)
      answerEvents fuel

/-- The trace entries of opened event frames, newest first. -/
def eventEntries (key : Octets) (frames : List (UInt64 × Octets)) : List Entry :=
  (frames.map fun f => .eventOpened key f.1 f.2).reverse

/-- The trace entries of a run of the event decrypt loop, newest first. -/
def eventReadEntries (key buf : Octets) (ctr : UInt64) : List Entry :=
  let o := openFrames key buf ctr
  (if o.failed then [.eventDropped] else []) ++ eventEntries key o.frames ++ [.eventRead key ctr buf]

/-- Append what the decrypt loop opened to the event buffer; a frame that does not open empties
the reassembly buffer. -/
def takeEventFrames (key bytes : Octets) (w : World) : World :=
  let o := openFrames key (w.s.eventEncBuf ++ bytes) w.s.eventRecvCtr
  { w with
    s := { w.s with
      eventEncBuf := if o.failed then [] else o.rest
      eventRecvCtr := o.ctr
      eventPlainBuf := w.s.eventPlainBuf ++ o.plaintext }
    out := eventReadEntries key (w.s.eventEncBuf ++ bytes) w.s.eventRecvCtr ++ w.out }

/-- `onEventReadyRead_`. -/
def onEventReadyRead (bytes : Octets) : M Unit := do
  let s ← sender
  if s.state = .idle then return ()
  else
    match s.ap2 with
    | none => return ()
    | some a =>
      if a.eventIn.length ≠ 32 ∨ a.eventOut.length ≠ 32 then return ()
      else do
        let failed := (openFrames a.eventIn (s.eventEncBuf ++ bytes) s.eventRecvCtr).failed
        Prog.modify (takeEventFrames a.eventIn bytes)
        if failed then return ()
        else do
          let s ← sender
          answerEvents s.eventPlainBuf.length

/-! ## 3. RTSP responses -/

/-- `extractQuoted`: the quoted string behind a key. -/
def extractQuoted (wa : Octets) (key : String) : Octets :=
  match find (ascii key) wa with
  | none => []
  | some k =>
    match find [34] (wa.drop k) with
    | none => []
    | some q₁ =>
      let rest := wa.drop (k + q₁ + 1)
      match find [34] rest with
      | none => []
      | some q₂ => rest.take q₂

/-- The ports of a `Transport` header. -/
def transportPort (transport : Octets) (key : String) : UInt16 :=
  (splitOn transport 59).foldl (fun port opt =>
    match find [61] opt with
    | none => port
    | some 0 => port
    | some eq =>
      if trimAscii (opt.take eq) = ascii key then
        UInt16.ofNat (toUInt (trimAscii (opt.drop (eq + 1))))
      else port) 0

variable [Host]

/-- A 401: one retry with the digest of the challenge. -/
def onUnauthorized (method : Octets) (headers : Headers) : M Unit := do
  let s ← sender
  if s.digestPassword = [] then fail (ascii "The device requires a password")
  else if s.digestRetried then fail (ascii "The password was not accepted by the device")
  else
    let wa := headerValue headers (ascii "www-authenticate") []
    setS fun s => { s with
      digestRealm := extractQuoted wa "realm="
      digestNonce := extractQuoted wa "nonce=" }
    if extractQuoted wa "nonce=" = [] then
      fail (ascii "The device password challenge could not be parsed")
    else
      setS fun s => { s with digestRetried := true }
      if method = ascii "OPTIONS" then sendOptions
      else if method = ascii "ANNOUNCE" then sendAnnounce
      else if method = ascii "SETUP" then sendSetup
      else if method = ascii "RECORD" then sendRecord
      else fail (ascii "The device password was required at an unexpected step")

/-- The reply to SETUP: the receiver's ports and the session id. -/
def onSetupReply (headers : Headers) : M Unit := do
  let transport := headerValue headers (ascii "transport") []
  let session := headerValue headers (ascii "session") []
  let serverPort := transportPort transport "server_port"
  setS fun s => { s with
    serverPort := serverPort
    controlPort := transportPort transport "control_port"
    timingPort := transportPort transport "timing_port"
    rtspSession := if session = [] then ascii "1" else session }
  if serverPort = 0 then fail (ascii "SETUP reply carried no server_port") else sendRecord

/-- The AirPlay 1 keep-alive probe was answered. -/
def onFeedbackReply (code : ℤ) : M Unit := do
  if code = 200 then
    let s ← sender
    if !s.feedbackTimer.active then arm .feedbackTimer
  else disarm .feedbackTimer

/-- A reply outside 200..299 ends the session, but for RECORD and FLUSH while streaming. -/
def onRefused (method : Octets) (code : ℤ) : M Unit := do
  let s ← sender
  if s.state = .streaming ∧ (method = ascii "RECORD" ∨ method = ascii "FLUSH") then return ()
  else fail (ascii "Device refused " ++ method ++ ascii " (" ++ decInt code ++ ascii ")")

/-- A reply in 200..299 drives the AirPlay 1 handshake. -/
def onAccepted (method : Octets) (headers : Headers) : M Unit := do
  if method = ascii "OPTIONS" then sendAnnounce
  else if method = ascii "ANNOUNCE" then sendSetup
  else if method = ascii "SETUP" then onSetupReply headers
  else if method = ascii "RECORD" then
    let s ← sender
    if s.state ≠ .streaming then startStreaming
  else return ()

/-- `handleResponse_`. -/
def handleResponse (method : Octets) (code : ℤ) (headers : Headers) : M Unit :=
  if method = ascii "SET_PARAMETER" then return ()
  else if method = ascii "POST" then onFeedbackReply code
  else if method = ascii "FEEDBACK" then return ()
  else if method = ascii "TEARDOWN" then return ()
  else if code = 401 then onUnauthorized method headers
  else if code < 200 ∨ 300 ≤ code then onRefused method code
  else onAccepted method headers

/-! ## 4. The control channel -/

/-- Route a response by the oldest pending request. -/
def dispatch (m : Message) : M Unit := do
  let s ← sender
  match s.pendingMethods with
  | [] => emit .unexpected
  | method :: methods =>
    let code := statusCode m.statusLine
    let isHttp := s.pendingIsHttp.headD false
    setAndEmit
      (fun s => { s with pendingMethods := methods, pendingIsHttp := s.pendingIsHttp.tail })
      (.dispatched (s.state ≠ .idle) method isHttp (statusText m.statusLine) m.headers m.body)
    if isHttp then onPairingResponse code m.body else handleResponse method code m.headers

/-- The response loop: a dispatch that ends the session ends the loop. -/
def responseLoop : ℕ → M Unit
  | 0 => return ()
  | fuel + 1 => do
    let s ← sender
    match nextMessage s.rxBuf with
    | none => return ()
    | some m =>
      setAndEmit (fun s => { s with rxBuf := s.rxBuf.drop m.bytes.length }) (.took m.bytes)
      if !isResponse m.statusLine then
        emit .ignored
        responseLoop fuel
      else if s.pendingMethods = [] then
        dispatch m
        responseLoop fuel
      else
        dispatch m
        let s ← sender
        if s.state = .idle then return () else responseLoop fuel

/-- The trace entries of opened control frames, newest first. -/
def controlEntries (key : Octets) (frames : List (UInt64 × Octets)) : List Entry :=
  (frames.map fun f => .received (.opened key f.1) f.2).reverse

/-- Append what the decrypt loop opened to the receive buffer. -/
def takeControlFrames (key bytes : Octets) (w : World) : World :=
  let o := openFrames key (w.s.rtspEncBuf ++ bytes) w.s.ctrlRecvCtr
  { w with
    s := { w.s with
      rtspEncBuf := o.rest
      ctrlRecvCtr := o.ctr
      rxBuf := w.s.rxBuf ++ o.plaintext }
    out := controlEntries key o.frames ++ .delivered (w.s.state ≠ .idle) bytes :: w.out }

/-- Append plaintext to the receive buffer. -/
def takePlain (bytes : Octets) (w : World) : World :=
  { w with
    s := { w.s with rxBuf := w.s.rxBuf ++ bytes }
    out := .received .plain bytes :: .delivered (w.s.state ≠ .idle) bytes :: w.out }

/-- The cap on the receive buffer. -/
def rxCap : ℕ := 4 * 1024 * 1024

/-- Drop the session if the receive buffer has grown past its cap, else work through it. -/
def readResponses : M Unit := do
  let s ← sender
  if rxCap < s.rxBuf.length then fail (ascii "Oversized RTSP response from the receiver")
  else responseLoop s.rxBuf.length

/-- `onRtspReadyRead_`. -/
def onRtspReadyRead (bytes : Octets) : M Unit := do
  let s ← sender
  match s.controlEncrypted, s.ap2 with
  | true, some a =>
    let failed := (openFrames a.controlIn (s.rtspEncBuf ++ bytes) s.ctrlRecvCtr).failed
    Prog.modify (takeControlFrames a.controlIn bytes)
    if failed then fail (ascii "Encrypted control channel authentication failed")
    else readResponses
  | _, _ =>
    Prog.modify (takePlain bytes)
    readResponses

end Channel

end AirplaySender
