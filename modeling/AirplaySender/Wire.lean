/-
# What ends up on the wire, and how it changes

A `Wire` is the part of a world that decides what the sender writes and what it holds: the sockets,
the texts that go into requests, the counters of the stream with the packets kept for
retransmission, the receive buffers, and the entries of the trace that record socket calls,
datagrams and requests.  `Act` lists every way it changes in a call, and unlike `Step` it has next
to no premises: what the order of a session has to do with it is read off the trace afterwards.

`Ok` says which calls and notifications are considered, those made from inside callbacks included;
an act that stores a text of the application or the host comes with the call that brought it.

Bytes that arrive and a connection that the peer closes are not acts: they are what a notification
begins with (`Arrives`), and everything behind that is acts.
-/
import AirplaySender.Core

namespace AirplaySender

open Octets

/-! ## 1. The projection -/

/-- The entries that record socket calls, datagrams, requests and replies, and where the session
stands. -/
def Entry.wired : Entry → Bool
  | .started .. => true
  | .cleared .. => true
  | .entered => true
  | .pairing _ => true
  | .staged .ap2Stream => true
  | .volumeSet .. => true
  | .requested .. => true
  | .dispatched .. => true
  | .udpSend .. => true
  | .tcpConnect .. => true
  | .tcpClose .. => true
  | .udpBind .. => true
  | .udpClose .. => true
  | _ => false

/-- The members that decide what is written and what is held. -/
structure Members where
  state : State
  udpBound : Bool
  identity : Identity
  localIp : Octets
  hostIp : Octets
  dacpId : Octets
  sessionId : UInt32
  rtspSession : Octets
  digestRealm : Octets
  digestNonce : Octets
  npTitle : Octets
  npArtist : Octets
  npAlbum : Octets
  npCover : Octets
  npCoverMime : Octets
  serverPort : UInt16
  controlPort : UInt16
  pendingVolumeDb : Float
  startTs : UInt64
  seq : UInt16
  framesSent : UInt64
  firstAudio : Bool
  backlog : ℕ → Octets
  backlogSeq : ℕ → ℤ
  /-- The key, the nonce and whether audio is encrypted, once there is a pairing state. -/
  audio : Option (Octets × UInt64 × Bool)
  /-- The event port of the pairing state, 0 where there is none. -/
  eventPort : UInt16
  controlEncrypted : Bool
  rxBuf : Octets
  rtspEncBuf : Octets
  eventEncBuf : Octets
  eventPlainBuf : Octets

/-- The audio part of a pairing state. -/
def audioOf (a : Ap2State) : Octets × UInt64 × Bool := (a.audioKey, a.audioNonce, a.encryptAudio)

/-- What the wire needs of a pairing state. -/
def Ap2State.wired (a : Ap2State) : (Octets × UInt64 × Bool) × UInt16 := (audioOf a, a.eventPort)

/-- The event port of a sender. -/
def eventPortOf (s : Sender) : UInt16 := (s.ap2.map Ap2State.eventPort).getD 0

def membersOf (s : Sender) : Members where
  state := s.state
  udpBound := s.udpBound
  identity := s.identity
  localIp := s.localIp
  hostIp := s.hostIp
  dacpId := s.dacpId
  sessionId := s.sessionId
  rtspSession := s.rtspSession
  digestRealm := s.digestRealm
  digestNonce := s.digestNonce
  npTitle := s.npTitle
  npArtist := s.npArtist
  npAlbum := s.npAlbum
  npCover := s.npCover
  npCoverMime := s.npCoverMime
  serverPort := s.serverPort
  controlPort := s.controlPort
  pendingVolumeDb := s.pendingVolumeDb
  startTs := s.startTs
  seq := s.seq
  framesSent := s.framesSent
  firstAudio := s.firstAudio
  backlog := s.backlog
  backlogSeq := s.backlogSeq
  audio := s.ap2.map audioOf
  eventPort := eventPortOf s
  controlEncrypted := s.controlEncrypted
  rxBuf := s.rxBuf
  rtspEncBuf := s.rtspEncBuf
  eventEncBuf := s.eventEncBuf
  eventPlainBuf := s.eventPlainBuf

/-- The members, what the application does in its callbacks, and what happened. -/
structure Wire extends Members where
  reactions : Stream' (List Api)
  log : List Entry

def wireOf (w : World) : Wire :=
  { membersOf w.s with reactions := w.env.reactions, log := w.out.filter Entry.wired }

/-! ## 2. What is written -/

/-- The headers a request adds to the common ones. -/
inductive Extra (s : Sender) : Octets × Octets → Prop
  | session : Extra s (ascii "Session", s.rtspSession)
  | rtpInfo : Extra s (ascii "RTP-Info", rtpInfo s)
  | range : Extra s (ascii "Range", ascii "npt=0-")
  | transport (control timing : UInt16) : Extra s
      (ascii "Transport", ascii "RTP/AVP/UDP;unicast;interleaved=0-1;mode=record;control_port=" ++
        dec control.toNat ++ ascii ";timing_port=" ++ dec timing.toNat)

/-- The type and the body of an RTSP request. -/
inductive Content (s : Sender) : Octets → Octets → Prop
  | none : Content s [] []
  | sdp : Content s (ascii "application/sdp") (announceSdp s)
  | volume (dbfs : Float) : Content s (ascii "text/parameters") (ascii "volume: " ++ fixed6 dbfs)
  | metadata : Content s (ascii "application/x-dmap-tagged") (dmapTag (ascii "mlit") (dmapInner s))
  | cover (h : s.npCover.length ≤ 8 * 1024 * 1024) :
      Content s (if s.npCoverMime = [] then ascii "image/jpeg" else s.npCoverMime) s.npCover

/-- What `sendRequest_` is asked to send. -/
structure Composed (s : Sender) (method uri contentType body : Octets)
    (extra : List (Octets × Octets)) : Prop where
  known : method ∈ ["OPTIONS", "ANNOUNCE", "SETUP", "RECORD", "SET_PARAMETER", "POST",
    "TEARDOWN"].map ascii
  target : uri ∈ [s.rtspUri, ascii "*", ascii "/feedback"]
  content : Content s contentType body
  extras : ∀ h ∈ extra, Extra s h
  record : method = ascii "RECORD" → (ascii "RTP-Info", rtpInfo s) ∈ extra

section Acts

variable [Primitives]

/-- The texts the four builders make of the members. -/
inductive Built (m : Members) : Octets → Bool → Octets → Prop
  | rtsp {s : Sender} (hs : membersOf s = m) {method uri contentType body : Octets}
      {extra : List (Octets × Octets)} (h : Composed s method uri contentType body extra) :
      Built m method false (rtspText s method uri contentType body extra)
  | post {s : Sender} (hs : membersOf s = m) {uri : Octets} (body : Octets)
      (huri : uri ∈ ["/auth-setup", "/pair-pin-start", "/pair-setup", "/pair-verify"].map ascii) :
      Built m (ascii "POST") true (httpText s uri octetStream body)
  | info {s : Sender} (hs : membersOf s = m) :
      Built m (ascii "GET") true (ap2Text s (ascii "GET") (ascii "/info") [] [])
  | session {s : Sender} (hs : membersOf s = m) (uuid : Octets) :
      Built m (ascii "SETUP") true (ap2Text s (ascii "SETUP") s.rtspUri plistType
        (Bplist.encode (sessionPlist s uuid)))
  | record {s : Sender} (hs : membersOf s = m) :
      Built m (ascii "RECORD") true (ap2Text s (ascii "RECORD") s.rtspUri [] [])
  | feedback {s : Sender} (hs : membersOf s = m) :
      Built m (ascii "FEEDBACK") false (feedbackText s)

/-- `rtptime32_`. -/
def Members.rtptime (m : Members) : UInt32 := (Sender.latency.toUInt64 + m.framesSent).toUInt32

/-- The RTP header of the next audio packet. -/
def Members.header (m : Members) : Octets :=
  [0x80, if m.firstAudio then 0xE0 else 0x60] ++ beBytes 2 m.seq.toNat ++
    beBytes 4 m.rtptime.toNat ++ beBytes 4 m.sessionId.toNat

/-- Audio is encrypted: the key and the nonce. -/
def Members.sealing (m : Members) : Option (Octets × UInt64) :=
  match m.audio with
  | some (key, nonce, true) => some (key, nonce)
  | _ => none

/-- The payload of the next audio packet. -/
def Members.payload (m : Members) (samples : List Int16) : Octets :=
  match m.sealing with
  | some (key, nonce) =>
    chachaSeal key (counterNonce8 nonce) (encodeAlacFrame samples) ((m.header.drop 4).take 8) ++
      counterNonce8 nonce
  | none => samples.flatMap fun x => beBytes 2 (sampleBits x)

/-- The next audio packet. -/
def Members.packet (m : Members) (samples : List Int16) : Octets := m.header ++ m.payload samples

/-- A nonce is used once. -/
def nextNonce (audio : Octets × UInt64 × Bool) : Octets × UInt64 × Bool :=
  if audio.2.2 then (audio.1, audio.2.1 + 1, true) else audio

/-- The members behind it. -/
def Members.advance (m : Members) (pkt : Octets) : Members :=
  { m with
    backlog := Function.update m.backlog (slotOf m.seq) pkt
    backlogSeq := Function.update m.backlogSeq (slotOf m.seq) m.seq.toNat
    firstAudio := false
    seq := m.seq + 1
    framesSent := m.framesSent + 352
    audio := m.audio.map nextNonce }

/-- The sync packet for the next frame, at some wall-clock time. -/
def Members.sync (m : Members) (mark : UInt8) (ntp : ℕ) : Octets :=
  [mark, 0xD4] ++ beBytes 2 7 ++ beBytes 4 (m.rtptime - Sender.latency).toNat ++ beBytes 8 ntp ++
    beBytes 4 m.rtptime.toNat

/-- The clock of the stream: the NTP time of the next frame. -/
def Members.clock (m : Members) : ℕ := (ts2ntp (m.startTs + m.framesSent) raopRate).toNat

/-- One sync packet for the next frame, or none. -/
def Members.Syncs (m : Members) (es : List Entry) : Prop :=
  es = [] ∨ ∃ dest mark, es = [.udpSend .control dest (m.sync mark m.clock)]

/-- The request that sends the volume. -/
def Members.VolumeText (m : Members) (text : Octets) : Prop :=
  ∃ s, membersOf s = m ∧ text = rtspText s (ascii "SET_PARAMETER") s.rtspUri
    (ascii "text/parameters") (ascii "volume: " ++ fixed6 s.pendingVolumeDb) (sessionHeader s)

/-- Where `p` holds the volume is sent, and else it is not. -/
def Members.Conveys (m : Members) (p : Prop) (es : List Entry) : Prop :=
  (p → ∃ cseq text, m.VolumeText text ∧ es = [.requested cseq (ascii "SET_PARAMETER") false text]) ∧
    (¬ p → es = [])

omit [Primitives] in
theorem Members.Syncs.mem {m : Members} {es : List Entry} (h : m.Syncs es) {e : Entry} (he : e ∈ es) :
    ∃ dest mark, e = .udpSend .control dest (m.sync mark m.clock) := by
  rcases h with rfl | ⟨dest, mark, rfl⟩
  · cases he
  · exact ⟨dest, mark, List.mem_singleton.mp he⟩

theorem Members.Conveys.mem {m : Members} {p : Prop} {es : List Entry} (h : m.Conveys p es) {e : Entry}
    (he : e ∈ es) : ∃ cseq text, e = .requested cseq (ascii "SET_PARAMETER") false text := by
  by_cases hp : p
  · obtain ⟨cseq, text, -, rfl⟩ := h.1 hp
    exact ⟨cseq, text, List.mem_singleton.mp he⟩
  · rw [h.2 hp] at he
    cases he

/-! ## 3. Sockets -/

/-- The entries of `releaseSockets_`, newest first. -/
def releaseEntries (bound : Bool) : List Entry :=
  .tcpClose .event false ::
    bif bound then [.udpClose .timing, .udpClose .control, .udpClose .audio] else []

/-- The end of a session: what was there is released, behind some entries of its own. -/
def Wire.finished (c : Wire) (es : List Entry) (backlog : ℕ → Octets) (backlogSeq : ℕ → ℤ) : Wire :=
  { c with
    state := .idle, udpBound := false, backlog, backlogSeq
    log := releaseEntries c.udpBound ++ (es ++ c.log) }

/-- A session that failed. -/
def Wire.failed (c : Wire) : Wire := c.finished [.tcpClose .control false] c.backlog c.backlogSeq

/-- The ports a session got for its three datagram sockets. -/
structure Ports where
  timing : UInt16
  control : UInt16
  audio : UInt16

/-- All three were bound. -/
def Ports.good (p : Ports) : Bool := p.timing ≠ 0 && p.control ≠ 0 && p.audio ≠ 0

/-- The entries of a new session that binds its sockets, newest first. -/
def bindEntries (auth : Auth) (airplay2 strict : Bool) (p : Ports) : List Entry :=
  [.udpBind .audio p.audio, .udpBind .control p.control, .udpBind .timing p.timing,
    .started auth airplay2 strict]

/-- A new session that has bound its sockets, and released them again where one is missing. -/
def Wire.begun (c : Wire) (seq : UInt16) (auth : Auth) (airplay2 strict : Bool) (p : Ports) : Wire :=
  { c with
    state := bif p.good then .connecting else c.state
    udpBound := p.good
    seq
    rtspSession := []
    digestRealm := []
    digestNonce := []
    serverPort := 0
    controlPort := 0
    pendingVolumeDb := kNoVolume
    framesSent := 0
    firstAudio := true
    backlogSeq := fun _ => -1
    audio := none
    eventPort := 0
    controlEncrypted := false
    rxBuf := []
    rtspEncBuf := []
    eventEncBuf := []
    eventPlainBuf := []
    log := (bif p.good then [] else releaseEntries true) ++
      (bindEntries auth airplay2 strict p ++ c.log) }

/-- An entry that closes or binds a socket. -/
def Entry.isSocket : Entry → Bool
  | .tcpClose .. => true
  | .udpClose _ => true
  | .udpBind .. => true
  | _ => false

omit [Primitives] in
theorem isSocket_release {bound : Bool} : ∀ e ∈ releaseEntries bound, e.isSocket = true := by
  cases bound <;> simp [releaseEntries, Entry.isSocket]

omit [Primitives] in
theorem Wire.begun_log (c : Wire) (seq : UInt16) (auth : Auth) (airplay2 strict : Bool) (p : Ports) :
    ∃ es, (∀ e ∈ es, e.isSocket = true) ∧
      (c.begun seq auth airplay2 strict p).log = es ++ .started auth airplay2 strict :: c.log := by
  refine ⟨(bif p.good then [] else releaseEntries true) ++
    [.udpBind .audio p.audio, .udpBind .control p.control, .udpBind .timing p.timing],
    fun e he => ?_, by simp [Wire.begun, bindEntries]⟩
  rcases List.mem_append.mp he with he | he
  · cases hgood : p.good with
    | true =>
      rw [hgood] at he
      cases he
    | false =>
      rw [hgood] at he
      exact isSocket_release e he
  · have hbind : e = .udpBind .audio p.audio ∨ e = .udpBind .control p.control ∨
        e = .udpBind .timing p.timing := by simpa using he
    rcases hbind with rfl | rfl | rfl <;> rfl

/-! ## 4. The beginning of the stream -/

/-- The reply at hand. -/
def Wire.Replied (c : Wire) (method : Octets) (isHttp : Bool) (code : ℤ) (headers : Headers)
    (body : Octets) : Prop :=
  ∃ live status, c.log.head? = some (.dispatched live method isHttp status headers body) ∧
    toInt status = code

/-- The ports a stream begins with: those there are, on AirPlay 2 those of the reply. -/
inductive Wire.Opening (c : Wire) : UInt16 → UInt16 → Prop
  | kept {code : ℤ} {headers : Headers} {body : Octets}
      (h : c.Replied (ascii "RECORD") false code headers body) : Opening c c.serverPort c.controlPort
  | named {method : Octets} {code : ℤ} {headers : Headers} {body : Octets}
      (h : c.Replied method true code headers body) (hcode : 200 ≤ code ∧ code < 300)
      (hport : streamPort body "dataPort" ≠ 0) :
      Opening c (streamPort body "dataPort")
        (if streamPort body "controlPort" = 0 then streamPort body "dataPort"
        else streamPort body "controlPort")

/-- RECORD is due: the reply to SETUP has a port, or RECORD was asked for a password. -/
def Wire.Recording (c : Wire) : Prop :=
  (c.serverPort ≠ 0 ∧ ∃ code headers body, c.Replied (ascii "SETUP") false code headers body ∧
      200 ≤ code ∧ code < 300) ∨
    ∃ headers body, c.Replied (ascii "RECORD") false 401 headers body

/-- A session whose stream begins, with nothing sent yet. -/
def Wire.entering (c : Wire) (ntp : UInt64) (serverPort controlPort : UInt16) (dbfs : Float) : Wire :=
  { c with
    state := .streaming, serverPort, controlPort, pendingVolumeDb := dbfs
    startTs := ntp2ts ntp raopRate, framesSent := 0, firstAudio := true
    log := .entered :: c.log }

/-! ## 5. Acts -/

/-- A header value of a message: no line feed, and no longer than the buffer it came from. -/
def Received (value : Octets) : Prop := 10 ∉ value ∧ value.length ≤ rxCap

/-- A frame with its length and its tag is shorter than this. -/
def frameCap : ℕ := 2 + 65535 + 16

/-- The buffers of the control channel are within bounds. -/
def Members.Capped (m : Members) : Prop := m.rxBuf.length ≤ rxCap ∧ m.rtspEncBuf.length < frameCap

/-- Frames are expected on the control channel. -/
def Members.framed (m : Members) : Bool := m.controlEncrypted && m.audio.isSome

/-- Where no frames are expected there is no more than a part of one. -/
def Members.Reassembled (m : Members) : Prop := m.framed = false → m.rtspEncBuf.length < frameCap

/-- Every way the wire changes inside a call. -/
inductive Act (Ok : Action → Prop) : Wire → Wire → Prop
  -- the application and the host
  | react (c : Wire) : Act Ok c { c with reactions := c.reactions.tail }
  | identify (c : Wire) (identity : Identity) (h : Ok (.call (.setIdentity identity))) :
      Act Ok c { c with identity :=
        { name := identityField identity.name ({} : Identity).name
          deviceId := identityField identity.deviceId ({} : Identity).deviceId
          model := identityField identity.model ({} : Identity).model } }
  | nowPlaying (c : Wire) (title artist album cover coverMime : Octets)
      (h : Ok (.call (.setNowPlaying title artist album cover coverMime))) :
      Act Ok c { c with
        npTitle := title, npArtist := artist, npAlbum := album, npCover := cover
        npCoverMime := coverMime }
  | connected (c : Wire) (localEnd peer : Endpoint) (h : Ok (.onTcpConnected .control localEnd peer)) :
      Act Ok c { c with localIp := localEnd.ip, hostIp := peer.ip }
  -- a new session
  | blank (c : Wire) : Act Ok c { c with localIp := [], hostIp := [] }
  | number (c : Wire) (sessionId : UInt32) (h : c.state = .idle) : Act Ok c { c with sessionId }
  | dacp (c : Wire) (n : UInt64) : Act Ok c { c with dacpId := hexUpper n.toNat }
  | begin (c : Wire) (seq : UInt16) (auth : Auth) (airplay2 strict : Bool) (p : Ports)
      (h : c.state = .idle) : Act Ok c (c.begun seq auth airplay2 strict p)
  -- sockets and the end of a session
  | connect (c : Wire) (ch : Tcp) (host : Octets) (port : UInt16) (h : c.state ≠ .idle)
      (hport : ch = .event → port ≠ 0 ∧ port = c.eventPort) :
      Act Ok c { c with log := .tcpConnect ch host port :: c.log }
  | dropEvent (c : Wire) : Act Ok c { c with log := .tcpClose .event false :: c.log }
  | progress (c : Wire) (state : State) (h : c.state ≠ .idle)
      (hstate : state = .pairing ∨ state = .handshake) : Act Ok c { c with state }
  | clear (c : Wire) (auth : Auth) (setup2 paired : Bool) (h : c.state ≠ .idle) :
      Act Ok c { c with state := .handshake, log := .cleared auth setup2 paired :: c.log }
  | refuse (c : Wire) (controlPort : UInt16) {method : Octets} {code : ℤ} {headers : Headers}
      {body : Octets} (h : c.Replied method true code headers body) :
      Act Ok c ({ c with serverPort := 0, controlPort } : Wire).failed
  | fail (c : Wire) : Act Ok c c.failed
  | stop (c : Wire) :
      Act Ok c (c.finished [.tcpClose .control true] (fun _ => []) fun _ => -1)
  -- requests and what replies leave behind
  | request (c : Wire) (cseq : ℤ) {method : Octets} {isHttp : Bool} {text : Octets}
      (h : Built c.toMembers method isHttp text)
      (hrecord : method = ascii "RECORD" → isHttp = false → c.Recording) :
      Act Ok c { c with log := .requested cseq method isHttp text :: c.log }
  | dispatch (c : Wire) (live : Bool) (method : Octets) (isHttp : Bool) (status : Octets)
      (headers : Headers) (body : Octets)
      (h : ¬ (method = ascii "SETUP" ∧ isHttp = false ∧ 200 ≤ toInt status ∧ toInt status < 300)) :
      Act Ok c { c with log := .dispatched live method isHttp status headers body :: c.log }
  | setUp (c : Wire) (live : Bool) (status : Octets) (headers : Headers) (body session : Octets)
      (h : 200 ≤ toInt status ∧ toInt status < 300) (hsession : Received session) :
      Act Ok c { c with
        serverPort := transportPort (headerValue headers (ascii "transport") []) "server_port"
        controlPort := transportPort (headerValue headers (ascii "transport") []) "control_port"
        rtspSession := session
        log := .dispatched live (ascii "SETUP") false status headers body :: c.log }
  | note (c : Wire) {method : Octets} {code : ℤ} {headers : Headers} {body : Octets}
      (h : c.Replied method true code headers body) :
      Act Ok c { c with eventPort := replyEventPort body }
  | pair (c : Wire) (auth : Auth) :
      Act Ok c { c with audio := some ([], 0, false), eventPort := 0, log := .pairing auth :: c.log }
  | offer (c : Wire) (cseq : ℤ) {s : Sender} (hs : membersOf s = c.toMembers) (shk : Octets)
      (hshk : shk.length ≤ 32) :
      Act Ok c { c with
        audio := some (shk, 0, true)
        log := .requested cseq (ascii "SETUP") true (ap2Text s (ascii "SETUP") s.rtspUri plistType
          (Bplist.encode (streamPlist s shk))) :: .staged .ap2Stream :: c.log }
  | challenge (c : Wire) (realm nonce : Octets) (hrealm : Received realm) (hnonce : Received nonce) :
      Act Ok c { c with digestRealm := realm, digestNonce := nonce }
  -- the stream
  | volume (c : Wire) (dbfs : Float) (sent : List Entry)
      (hsent : ({ c.toMembers with pendingVolumeDb := dbfs } : Members).Conveys (c.state = .streaming) sent) :
      Act Ok c { c with
        pendingVolumeDb := dbfs
        log := sent ++ .volumeSet (c.state = .streaming) dbfs :: c.log }
  | enter (c : Wire) (ntp : UInt64) {serverPort controlPort : UInt16} {dbfs : Float}
      {synced sent : List Entry} (h : c.Capped) (hports : c.Opening serverPort controlPort)
      (hdbfs : kNoVolume + 1.0 < c.pendingVolumeDb → dbfs = c.pendingVolumeDb)
      (hsynced : (c.entering ntp serverPort controlPort dbfs).Syncs synced)
      (hsent : (c.entering ntp serverPort controlPort dbfs).Conveys (kNoVolume + 1.0 < dbfs) sent) :
      Act Ok c { c.entering ntp serverPort controlPort dbfs with
        log := sent ++ (synced ++ .entered :: c.log) }
  | packet (c : Wire) (dest : Endpoint) (samples : List Int16) (h : c.state = .streaming)
      (hsamples : samples.length = 704) (hkey : ∀ key nonce, c.sealing = some (key, nonce) → key.length = 32) :
      Act Ok c { c with
        toMembers := c.toMembers.advance (c.packet samples)
        log := .udpSend .audio dest (c.packet samples) :: c.log }
  | sync (c : Wire) (dest : Endpoint) (mark : UInt8) (h : c.state = .streaming) :
      Act Ok c { c with log := .udpSend .control dest (c.toMembers.sync mark c.clock) :: c.log }
  | reply (c : Wire) (u : Udp) (dest : Endpoint) (bytes : Octets)
      (h : u ≠ .audio ∧ (u = .control → bytes[1]? = some 0xD6)) :
      Act Ok c { c with log := .udpSend u dest bytes :: c.log }
  -- buffers
  | secure (c : Wire) : Act Ok c { c with controlEncrypted := true, rtspEncBuf := [] }
  | drain (c : Wire) (rxBuf eventPlainBuf : Octets) (hrx : rxBuf <:+ c.rxBuf)
      (hplain : eventPlainBuf <:+ c.eventPlainBuf) : Act Ok c { c with rxBuf, eventPlainBuf }

end Acts

end AirplaySender
