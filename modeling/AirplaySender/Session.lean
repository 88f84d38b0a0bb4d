/-
# Sessions, notifications and runs (`raop_sender.cpp`, lifecycle)

The calls the application makes (`Api`) and the notifications the host pushes in (`Action`).  A
callback may call back into the sender: `host n` is an application whose callbacks make up to `n`
levels of nested calls, and every result about a run is a result for every `n`.

A run performs actions one after the other.  An exception leaves the sender where it was thrown
and the run goes on; a null dereference ends it.
-/
import AirplaySender.Channel

namespace AirplaySender

open Octets

section Session

variable [Primitives]

/-! ## 1. Lifecycle -/

/-- The receiver is told that the session is over. -/
def needsTeardown (s : Sender) : Bool := s.rtspConnected && (s.rtspSession ≠ [] || s.airplay2)

/-- `stop`. -/
def stop : M Unit := do
  let s ← sender
  if s.state = .idle then emit .stopped
  else
    setAndEmit Sender.stopTimers (.ending s.state s.waitingForPin (needsTeardown s))
    Prog.when (needsTeardown s)
      (sendRequest (ascii "TEARDOWN") s.rtspUri [] [] (sessionHeader s))
    setS fun s => { s with state := .idle }
    emit (.tcpClose .control true)
    setS fun s => { s with rtspConnected := false }
    releaseSockets
    setS Sender.clearBacklog
    emit .stopped

/-- The resets of `start` behind the new session identity. -/
def freshSession (s : Sender) : Sender :=
  { s with
    cseq := 0
    rxBuf := []
    controlEncrypted := false
    ctrlSendCtr := 0
    ctrlRecvCtr := 0
    rtspEncBuf := []
    eventSendCtr := 0
    eventRecvCtr := 0
    eventEncBuf := []
    eventPlainBuf := []
    pendingMethods := []
    rtspSession := []
    serverPort := 0
    controlPort := 0
    timingPort := 0
    framesSent := 0
    firstAudio := true
    srcPhase := 0
    inBuf := []
    backlogSeq := fun _ => -1
    pendingVolumeDb := kNoVolume
    ap2 := none
    pairStage := .none
    waitingForPin := false
    triedTransientAfterPin403 := false
    pendingIsHttp := []
    digestRealm := []
    digestNonce := []
    digestRetried := false }

variable [Host]

/-- `start`. -/
def start (host : Octets) (port : UInt16) (name : Octets) : M Unit := do
  stop
  setS fun s => { s with host := host, name := name, hostIp := [], localIp := [] }
  let sessionId ← rand32
  setS fun s => { s with sessionId := sessionId }
  let dacp ← rand64
  setS fun s => { s with dacpId := hexUpper dacp.toNat }
  let activeRemote ← rand32
  setS fun s => { s with activeRemote := activeRemote }
  let seq ← rand16
  setS fun s => { s with seq := seq }
  let s ← sender
  setAndEmit freshSession (.started s.authMethod s.airplay2 s.strictAuth)
  let timingPort ← udpBind .timing
  setS fun s => { s with localTimingPort := timingPort }
  let controlPort ← udpBind .control
  setS fun s => { s with localControlPort := controlPort }
  let audioPort ← udpBind .audio
  setS fun s => { s with udpBound := true }
  if timingPort = 0 ∨ controlPort = 0 ∨ audioPort = 0 then
    releaseSockets
    Host.fire (.launched false (ascii "Could not bind UDP sockets"))
  else
    setS fun s => { s with state := .connecting, rtspConnected := false }
    arm .timeout
    tcpConnect .control host port

/-! ## 2. Timers -/

/-- `onHandshakeTimeout_`. -/
def onHandshakeTimeout : M Unit := do
  let s ← sender
  if s.waitingForPin then return ()
  else if s.state = .connecting ∨ s.state = .pairing ∨ s.state = .handshake then
    fail (ascii "Timed out waiting for the device")

/-- `onPinTimeout_`. -/
def onPinTimeout : M Unit := do
  let s ← sender
  if !s.waitingForPin then return ()
  else
    setS fun s => { s with waitingForPin := false }
    fail (ascii "No PIN was entered. Switch " ++ s.name ++
      ascii " on and make sure its screen shows the AirPlay code, then try again.")

/-- `onFeedbackTimer_`. -/
def onFeedbackTimer : M Unit := do
  let s ← sender
  if s.state ≠ .streaming then return ()
  else if s.airplay2 then do
    let text := feedbackText s
    enqueue (ascii "FEEDBACK") false text
    writeRtsp text
  else sendRequest (ascii "POST") (ascii "/feedback") [] [] []

/-- What a due timer calls. -/
def onTimer : TimerId → M Unit
  | .timeout => onHandshakeTimeout
  | .pinTimeout => onPinTimeout
  | .feedbackTimer => onFeedbackTimer
  | .syncTimer => sendSyncPacket false
  | .pacer => onPacerTick

/-- The `due` test of `tick` and the call behind it. -/
def tickTimer (now : ℤ) (t : TimerId) : M Unit := do
  let s ← sender
  let x := s.timer t
  if !x.active ∨ now < x.due then return ()
  else
    setS fun s => s.setTimer (fun x =>
      if x.repeating then { x with due := now + x.interval * 1000000 } else { x with active := false }) t
    onTimer t

/-- `tick`. -/
def tick : M Unit := do
  let n ← now
  tickTimer n .timeout
  tickTimer n .pinTimeout
  tickTimer n .feedbackTimer
  tickTimer n .syncTimer
  tickTimer n .pacer

/-! ## 3. Notifications -/

/-- `onTcpConnected`. -/
def onTcpConnected (ch : Tcp) (localEnd peer : Endpoint) : M Unit :=
  match ch with
  | .event => return ()
  | .control => do
    let s ← sender
    if s.state ≠ .connecting then return ()
    else
      setS fun s => { s with rtspConnected := true, localIp := localEnd.ip, hostIp := peer.ip }
      beginAuthChain

/-- `onTcpData`. -/
def onTcpData (ch : Tcp) (bytes : Octets) : M Unit :=
  match ch with
  | .control => onRtspReadyRead bytes
  | .event => onEventReadyRead bytes

/-- `onTcpClosed`. -/
def onTcpClosed (ch : Tcp) (reason : Octets) : M Unit :=
  match ch with
  | .event => return ()
  | .control => do
    setS fun s => { s with rtspConnected := false }
    let s ← sender
    if s.state = .idle then return ()
    else if reason ≠ [] then fail reason
    else
      setAndEmit Sender.ended (.ending s.state s.waitingForPin false)
      releaseSockets
      setS Sender.clearBacklog
      reportEnd (s.state ≠ .streaming) (ascii "Connection closed by the device")

/-- `onUdpDatagram`. -/
def onUdpDatagram (u : Udp) (bytes : Octets) (source : Endpoint) : M Unit := do
  let s ← sender
  if s.state = .idle then return ()
  else
    match u with
    | .control => onControlDatagram bytes source
    | .timing => onTimingDatagram bytes source
    | .audio => return ()

/-! ## 4. Application calls -/

/-- `std::clamp`. -/
def clamp (v lo hi : Float) : Float := if v < lo then lo else if hi < v then hi else v

/-- The dBFS value of a percentage. -/
def volumeDb (pct : Float) : Float :=
  let pct := clamp pct 0.0 100.0
  if pct < 0.01 then -144.0 else (pct * 3.0 - 300.0) / 10.0

/-- `setVolume`. -/
def setVolume (pct : Float) : M Unit := do
  let s ← sender
  setAndEmit (fun s => { s with pendingVolumeDb := volumeDb pct })
    (.volumeSet (s.state = .streaming) (volumeDb pct))
  Prog.when (s.state = .streaming) (sendVolume (volumeDb pct))

/-- `submitPin`. -/
def submitPin (code : Octets) : M Unit := do
  let s ← sender
  if !s.waitingForPin then return ()
  else
    setAndEmit (fun s => ({ s with waitingForPin := false } : Sender).disarm .pinTimeout)
      (.typed (s.state ≠ .idle) code)
    arm .timeout
    sendPairSetupM3 code

/-- `setNowPlaying`. -/
def setNowPlaying (title artist album cover coverMime : Octets) : M Unit := do
  let s ← sender
  let changed := title ≠ s.npTitle ∨ artist ≠ s.npArtist ∨ album ≠ s.npAlbum ∨ cover ≠ s.npCover ∨
    coverMime ≠ s.npCoverMime
  setS fun s => { s with
    npTitle := title
    npArtist := artist
    npAlbum := album
    npCover := cover
    npCoverMime := coverMime }
  let s ← sender
  Prog.when (s.state = .streaming ∧ changed) sendMetadata

/-- A field of the identity, the default where it is empty. -/
def identityField (value default : Octets) : Octets :=
  if stripCrLf value = [] then default else stripCrLf value

/-- `setIdentity`. -/
def setIdentity (identity : Identity) : M Unit :=
  setS fun s => { s with identity :=
    { name := identityField identity.name ({} : Identity).name
      deviceId := identityField identity.deviceId ({} : Identity).deviceId
      model := identityField identity.model ({} : Identity).model } }

/-- `setAuth`. -/
def setAuth (auth : Auth) (airplay2 : Bool) (deviceId credsJson password : Octets) : M Unit := do
  let s ← sender
  setAndEmit
    (fun s => { s with
      authMethod := auth
      airplay2 := airplay2
      deviceId := deviceId
      credsJson := credsJson
      digestPassword := password })
    (.configured auth airplay2 s.strictAuth)

/-- `setStrictReceiverAuth`. -/
def setStrictReceiverAuth (strict : Bool) : M Unit :=
  setAndEmit (fun s => { s with strictAuth := strict }) (.guarded strict)

/-- `setInputFormat`. -/
def setInputFormat (sampleRate : UInt32) : M Unit :=
  setS fun s => { s with inputRate := if 0 < sampleRate then sampleRate else 48000 }

/-- An application call. -/
def call : Api → M Unit
  | .setAuth auth airplay2 deviceId credsJson password =>
    setAuth auth airplay2 deviceId credsJson password
  | .setIdentity identity => setIdentity identity
  | .setInputFormat sampleRate => setInputFormat sampleRate
  | .attachRing ring => setS fun s => { s with ring := ring }
  | .setStrictReceiverAuth strict => setStrictReceiverAuth strict
  | .start host port name => start host port name
  | .stop => stop
  | .submitPin code => submitPin code
  | .setVolume pct => setVolume pct
  | .setNowPlaying title artist album cover coverMime =>
    setNowPlaying title artist album cover coverMime

end Session

/-! ## 5. Runs -/

/-- An application whose callbacks nest `n` levels deep: each fired event takes the next list of
reactions and makes those calls. -/
@[reducible] def host [Primitives] : ℕ → Host
  | 0 => ⟨fun e => emit (.event e)⟩
  | n + 1 =>
    let _ := host n
    ⟨fun e => do
      emit (.event e)
      let calls ← ask (fun env => env.reactions.head) fun env =>
        { env with reactions := env.reactions.tail }
      Prog.each call calls⟩

/-- What is done to the sender from outside. -/
inductive Action
  | call (a : Api)
  | onTcpConnected (ch : Tcp) (localEnd peer : Endpoint)
  | onTcpConnectFailed (ch : Tcp) (reason : Octets)
  | onTcpData (ch : Tcp) (bytes : Octets)
  | onTcpClosed (ch : Tcp) (reason : Octets)
  | onUdpDatagram (u : Udp) (bytes : Octets) (source : Endpoint)
  | tick

section Runs

variable [Primitives]

/-- Perform one action. -/
def perform [Host] : Action → M Unit
  | .call a => call a
  | .onTcpConnected ch localEnd peer => onTcpConnected ch localEnd peer
  | .onTcpConnectFailed ch reason => onTcpConnectFailed ch reason
  | .onTcpData ch bytes => onTcpData ch bytes
  | .onTcpClosed ch reason => onTcpClosed ch reason
  | .onUdpDatagram u bytes source => onUdpDatagram u bytes source
  | .tick => tick

/-- Perform actions in order. -/
def run [Host] : List Action → World → World
  | [], w => w
  | a :: as, w =>
    match perform a w with
    | (.error .nullDeref, w') => w'
    | (_, w') => run as w'

/-- A new sender in an environment. -/
def World.init (env : Env) : World := { s := {}, env := env, out := [] }

/-- `w` is reached by some run of a new sender, with callbacks of any nesting depth. -/
def Reachable (w : World) : Prop :=
  ∃ (depth : ℕ) (env : Env) (actions : List Action), w = @run _ (host depth) actions (World.init env)

end Runs

end AirplaySender
