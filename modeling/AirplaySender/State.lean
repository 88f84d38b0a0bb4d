/-
# The sender's state and the world it runs in (`raop_sender.h`, `raop_io.h`)

`Sender` is the data members of `RaopSender` under their own names, without the trailing
underscore.  A method is a computation over `World`: the members, the answers the outside still
has in store (`Env`: clock readings, random draws, bind and connect results, what the ring holds,
what the application does in its callbacks), and the trace of everything that happened, newest
entry first.

Besides the calls through `RaopIo` and `RaopEvents` the trace records facts the wire alone does not
show: which encryptions were made, where buffered bytes came from, which checks passed.  Nothing
reads the trace back, so recording changes no behaviour.  Log lines are left out, and the
exception of a failed random draw is the only one the generator has.
-/
import AirplaySender.Lib.Prog
import AirplaySender.Srp
import AirplaySender.Tlv
import AirplaySender.Creds
import Mathlib.Data.Stream.Init

namespace AirplaySender

open Octets

/-! ## 1. Enumerations and small records -/

/-- `RaopDeviceInfo::Auth`. -/
inductive Auth
  | none
  | password
  | authSetup
  | legacyPin
  | hapTransient
  | hapPin
  deriving DecidableEq

/-- `RaopSender::State`. -/
inductive State
  | idle
  | connecting
  | pairing
  | handshake
  | streaming
  deriving DecidableEq

/-- `RaopSender::PairStage`. -/
inductive PairStage
  | none
  | authSetup
  | pinStart
  | setupM2
  | setupM4
  | setupM6
  | verifyM2
  | verifyDone
  | ap2Info
  | ap2Session
  | ap2Record
  | ap2Stream
  | done
  deriving DecidableEq

/-- `RaopTcp`. -/
inductive Tcp
  | control
  | event
  deriving DecidableEq

/-- `RaopUdp`. -/
inductive Udp
  | audio
  | control
  | timing
  deriving DecidableEq

/-- `RaopEndpoint`. -/
structure Endpoint where
  ip : Octets
  port : UInt16
  deriving DecidableEq

/-- `RaopIdentity`, with the defaults of the header. -/
structure Identity where
  name : Octets := ascii "airplay2-sender-cpp"
  deviceId : Octets := ascii "AA:BB:CC:DD:EE:FF"
  model : Octets := ascii "iPhone14,3"

/-- `RaopEvents`: the four callbacks. -/
inductive Event
  | launched (ok : Bool) (error : Octets)
  | closed
  | pinRequired (deviceName : Octets)
  | credentialsObtained (deviceId credsJson : Octets)

/-- `Timer_`: the interval in milliseconds, the deadline in nanoseconds. -/
structure Timer where
  interval : ℕ
  repeating : Bool
  active : Bool := false
  due : ℤ := 0

/-- `RaopAp2State`. -/
structure Ap2State where
  srp : Option SrpClient := none
  ltSeed : Octets := []
  ltPub : Octets := []
  pairingId : Octets := []
  accessoryId : Octets := []
  accessoryLtpk : Octets := []
  verifyPriv : Octets := []
  verifyPub : Octets := []
  sharedSecret : Octets := []
  controlOut : Octets := []
  controlIn : Octets := []
  eventOut : Octets := []
  eventIn : Octets := []
  audioKey : Octets := []
  audioNonce : UInt64 := 0
  encryptAudio : Bool := false
  sessionUuid : Octets := []
  eventPort : UInt16 := 0

/-- `kNoVolume`. -/
def kNoVolume : Float := -1000.0

/-! ## 2. The members -/

/-- The data members of `RaopSender`. -/
structure Sender where
  identity : Identity := {}
  strictAuth : Bool := false
  rtspConnected : Bool := false
  udpBound : Bool := false
  localIp : Octets := []
  hostIp : Octets := []
  localControlPort : UInt16 := 0
  localTimingPort : UInt16 := 0
  rxBuf : Octets := []
  controlEncrypted : Bool := false
  ctrlSendCtr : UInt64 := 0
  ctrlRecvCtr : UInt64 := 0
  rtspEncBuf : Octets := []
  eventSendCtr : UInt64 := 0
  eventRecvCtr : UInt64 := 0
  eventEncBuf : Octets := []
  eventPlainBuf : Octets := []
  pendingMethods : List Octets := []
  /-- `cseq_`, an `int`. -/
  cseq : ℤ := 0
  sessionId : UInt32 := 0
  dacpId : Octets := []
  activeRemote : UInt32 := 0
  rtspSession : Octets := []
  host : Octets := []
  name : Octets := []
  state : State := .idle
  serverPort : UInt16 := 0
  controlPort : UInt16 := 0
  timingPort : UInt16 := 0
  pacer : Timer := { interval := 8, repeating := true }
  syncTimer : Timer := { interval := 1000, repeating := true }
  timeout : Timer := { interval := 10000, repeating := false }
  pinTimeout : Timer := { interval := 180000, repeating := false }
  feedbackTimer : Timer := { interval := 25000, repeating := true }
  clockStart : ℤ := 0
  startTs : UInt64 := 0
  framesSent : UInt64 := 0
  seq : UInt16 := 0
  firstAudio : Bool := true
  pendingVolumeDb : Float := kNoVolume
  /-- `ring_`: the handle of the attached ring. -/
  ring : Option ℕ := none
  inputRate : UInt32 := 44100
  inBuf : List Int16 := []
  /-- `srcPhase_`, taken exactly: the source adds the ratio of the rates up in a `double`. -/
  srcPhase : ℚ := 0
  /-- `backlog_`, by slot. -/
  backlog : ℕ → Octets := fun _ => []
  /-- `backlogSeq_`, by slot. -/
  backlogSeq : ℕ → ℤ := fun _ => -1
  npTitle : Octets := []
  npArtist : Octets := []
  npAlbum : Octets := []
  npCover : Octets := []
  npCoverMime : Octets := []
  pairStage : PairStage := .none
  authMethod : Auth := .none
  airplay2 : Bool := false
  deviceId : Octets := []
  credsJson : Octets := []
  digestPassword : Octets := []
  waitingForPin : Bool := false
  triedTransientAfterPin403 : Bool := false
  srpSalt : Octets := []
  srpServerB : Octets := []
  pairSetupSessionKey : Octets := []
  ap2 : Option Ap2State := none
  pendingIsHttp : List Bool := []
  digestRealm : Octets := []
  digestNonce : Octets := []
  digestRetried : Bool := false

/-- The five deadlines. -/
inductive TimerId
  | pacer
  | syncTimer
  | timeout
  | pinTimeout
  | feedbackTimer
  deriving DecidableEq

namespace Sender

/-- The timer of a name. -/
def timer (s : Sender) : TimerId → Timer
  | .pacer => s.pacer
  | .syncTimer => s.syncTimer
  | .timeout => s.timeout
  | .pinTimeout => s.pinTimeout
  | .feedbackTimer => s.feedbackTimer

/-- Change the timer of a name. -/
def setTimer (s : Sender) (f : Timer → Timer) : TimerId → Sender
  | .pacer => { s with pacer := f s.pacer }
  | .syncTimer => { s with syncTimer := f s.syncTimer }
  | .timeout => { s with timeout := f s.timeout }
  | .pinTimeout => { s with pinTimeout := f s.pinTimeout }
  | .feedbackTimer => { s with feedbackTimer := f s.feedbackTimer }

/-- `disarm_`. -/
def disarm (s : Sender) (t : TimerId) : Sender := s.setTimer (fun x => { x with active := false }) t

/-- `stopTimers_`. -/
def stopTimers (s : Sender) : Sender :=
  { s with
    pacer := { s.pacer with active := false }
    syncTimer := { s.syncTimer with active := false }
    timeout := { s.timeout with active := false }
    pinTimeout := { s.pinTimeout with active := false }
    feedbackTimer := { s.feedbackTimer with active := false } }

/-- `nextDeadline`. -/
def nextDeadline (s : Sender) : Option ℤ :=
  ([s.pacer, s.syncTimer, s.timeout, s.pinTimeout, s.feedbackTimer].filter Timer.active).foldl
    (fun best t => match best with
      | none => some t.due
      | some b => if t.due < b then some t.due else some b) none

/-- Free the backlog payloads and forget which packets they were. -/
def clearBacklog (s : Sender) : Sender :=
  { s with backlog := fun _ => [], backlogSeq := fun _ => -1 }

/-- `rtspUri_`. -/
def rtspUri (s : Sender) : Octets :=
  ascii "rtsp://" ++ s.localIp ++ ascii "/" ++ dec s.sessionId.toNat

/-- `latency_`. -/
def latency : UInt32 := 22050 + 44100

/-- `rtptime32_`. -/
def rtptime32 (s : Sender) : UInt32 := (latency.toUInt64 + s.framesSent).toUInt32

end Sender

/-! ## 3. What the outside does -/

/-- The calls an application makes. -/
inductive Api
  | setAuth (auth : Auth) (airplay2 : Bool) (deviceId credsJson password : Octets)
  | setIdentity (identity : Identity)
  | setInputFormat (sampleRate : UInt32)
  | attachRing (ring : Option ℕ)
  | setStrictReceiverAuth (strict : Bool)
  | start (host : Octets) (port : UInt16) (name : Octets)
  | stop
  | submitPin (code : Octets)
  | setVolume (pct : Float)
  | setNowPlaying (title artist album cover coverMime : Octets)

/-- The answers still in store. -/
structure Env where
  /-- Readings of the steady clock, in nanoseconds. -/
  steady : Stream' ℤ
  /-- Readings of the system clock, in microseconds since the epoch. -/
  wall : Stream' ℕ
  /-- Draws from the random generator; `none` is its failure. -/
  entropy : Stream' (Option (ℕ → UInt8))
  /-- Results of `udpBind`. -/
  binds : Stream' UInt16
  /-- `some reason` where `tcpConnect` reports a failure from inside the call. -/
  connects : Stream' (Option Octets)
  /-- What each ring holds, and what a producer adds to it before each look. -/
  rings : ℕ → List Int16
  produced : Stream' (List Int16)
  /-- What the application calls from inside each callback. -/
  reactions : Stream' (List Api)

/-- The purposes of an encryption. -/
inductive Site
  | control
  | event
  | audio
  | setupM5
  | verifyM3
  deriving DecidableEq

/-- Where plaintext in the control receive buffer came from. -/
inductive Origin
  | plain
  | opened (key : Octets) (counter : UInt64)
  deriving DecidableEq

/-- An entry of the trace. -/
inductive Entry
  -- calls through `RaopIo` and `RaopEvents`
  | tcpConnect (ch : Tcp) (host : Octets) (port : UInt16)
  | tcpSend (ch : Tcp) (bytes : Octets)
  | tcpClose (ch : Tcp) (flush : Bool)
  | udpBind (s : Udp) (port : UInt16)
  | udpSend (s : Udp) (dest : Endpoint) (bytes : Octets)
  | udpClose (s : Udp)
  | event (e : Event)
  -- configuration and sessions
  /-- `setAuth` and `setStrictReceiverAuth`. -/
  | configured (auth : Auth) (airplay2 strict : Bool)
  | guarded (strict : Bool)
  | started (auth : Auth) (airplay2 strict : Bool)
  /-- The session is ended in a state; `teardown`: with a TEARDOWN request. -/
  | ending (state : State) (waiting teardown : Bool)
  /-- `stop` returns. -/
  | stopped
  /-- The end of a session is about to be reported; `starting`: `launched` first. -/
  | failed (starting : Bool)
  /-- `closed` is next. -/
  | reported (starting : Bool)
  | armed (t : TimerId)
  | derefNull
  | keyRefused (site : Site)
  /-- `setVolume` asks for a volume. -/
  | volumeSet (streaming : Bool) (dbfs : Float)
  -- requests and responses on the control channel
  | requested (cseq : ℤ) (method : Octets) (isHttp : Bool) (text : Octets)
  | delivered (live : Bool) (bytes : Octets)
  | received (origin : Origin) (bytes : Octets)
  | took (bytes : Octets)
  | ignored
  | unexpected
  /-- A response is routed; `status` is the text of its status code. -/
  | dispatched (live : Bool) (method : Octets) (isHttp : Bool) (status : Octets)
      (headers : Headers) (body : Octets)
  | eventRead (key : Octets) (counter : UInt64) (buffered : Octets)
  | eventOpened (key : Octets) (counter : UInt64) (bytes : Octets)
  | eventDropped
  /-- The answer to an event request is not sent. -/
  | answerLost
  -- pairing
  | pairing (auth : Auth)
  | refused403
  | staged (stage : PairStage)
  | typed (live : Bool) (code : Octets)
  | srpAgreed (pin sessionKey : Octets)
  /-- `verifyServerProof` is called for a message. -/
  | serverProof (client : SrpClient) (serverM2 : Octets)
  /-- Pairing ends at M4, without pair-verify. -/
  | concluded (auth : Auth)
  | ltpkStored (credsJson ltpk : Octets)
  | ltpkLearned (key ltpk : Octets)
  /-- Pair-setup goes on after the application was told the credentials. -/
  | resumed (live paired : Bool)
  /-- The signature of pair-verify M2 is at hand, for the long-term key, if there is one. -/
  | signature (ltpk message sig : Octets)
  /-- The session got past authentication; `setup2`: to the AirPlay 2 setup. -/
  | cleared (auth : Auth) (setup2 paired : Bool)
  | switched (controlOut controlIn leftover : Octets)
  | entered
  | sealed (site : Site) (key nonce aad plaintext : Octets)

/-- The members, the outside, and what happened. -/
structure World where
  s : Sender
  env : Env
  out : List Entry

/-- What ends a call early: an exception that leaves the sender, or a null dereference. -/
inductive Exn
  | runtimeError (what : Octets)
  /-- `std::length_error`, of a range whose end lies in front of its beginning. -/
  | lengthError
  | nullDeref
  deriving DecidableEq

/-- A method of the sender. -/
abbrev M := Prog World Exn

/-! ## 4. Elementary operations -/

/-- The members. -/
def sender : M Sender := do
  let w ← Prog.get
  return w.s

/-- Behind a reading of the members the rest runs in the same world. -/
theorem sender_bind {α : Type} (f : Sender → M α) (w : World) : (sender >>= f) w = f w.s w := rfl

/-- Change the members. -/
def setS (f : Sender → Sender) : M Unit := Prog.modify fun w => { w with s := f w.s }

/-- Behind a change of the members the rest runs in the changed world. -/
theorem setS_bind {α : Type} (f : Sender → Sender) (m : Unit → M α) (w : World) :
    (setS f >>= m) w = m () { w with s := f w.s } := rfl

/-- Add an entry to the trace. -/
def emit (e : Entry) : M Unit := Prog.modify fun w => { w with out := e :: w.out }

/-- Change the members and record it. -/
def setAndEmit (f : Sender → Sender) (e : Entry) : M Unit :=
  Prog.modify fun w => { w with s := f w.s, out := e :: w.out }

/-- Take the next answer out of the store. -/
def ask {α : Type} (read : Env → α) (next : Env → Env) : M α := do
  let w ← Prog.get
  Prog.modify fun w => { w with env := next w.env }
  return read w.env

/-- `clock_()`. -/
def now : M ℤ := ask (fun e => e.steady.head) fun e => { e with steady := e.steady.tail }

/-- The system clock behind `ntpNow_`. -/
def wallClock : M ℕ := ask (fun e => e.wall.head) fun e => { e with wall := e.wall.tail }

/-- `randomBytes`. -/
def randomBytes (n : ℕ) : M Octets := do
  let draw ← ask (fun e => e.entropy.head) fun e => { e with entropy := e.entropy.tail }
  match draw with
  | some f => return (List.range n).map f
  | none => Prog.raise (.runtimeError (ascii "airplay crypto: ctr_drbg_random"))

/-- `arm_`. -/
def arm (t : TimerId) : M Unit := do
  let n ← now
  setAndEmit
    (fun s => s.setTimer (fun x => { x with due := n + x.interval * 1000000, active := true }) t)
    (.armed t)

/-- `disarm_`. -/
def disarm (t : TimerId) : M Unit := setS fun s => s.disarm t

/-- A null pointer is dereferenced. -/
def nullDeref {α : Type} : M α := do
  emit .derefNull
  Prog.raise .nullDeref

/-- `ap2_->`. -/
def ap2Get : M Ap2State := do
  let s ← sender
  match s.ap2 with
  | some a => return a
  | none => nullDeref

/-- Assign through `ap2_->`. -/
def ap2Set (f : Ap2State → Ap2State) : M Unit := do
  let _ ← ap2Get
  setS fun s => { s with ap2 := s.ap2.map f }

/-- `io_.udpBind`. -/
def udpBind (u : Udp) : M UInt16 := do
  let port ← ask (fun e => e.binds.head) fun e => { e with binds := e.binds.tail }
  emit (.udpBind u port)
  return port

/-- `rand32`. -/
def rand32 : M UInt32 := do
  let b ← randomBytes 4
  return UInt32.ofNat (beVal 0 b.reverse)

/-- `rand64`. -/
def rand64 : M UInt64 := do
  let b ← randomBytes 8
  return UInt64.ofNat (beVal 0 b.reverse)

/-- `rand16`. -/
def rand16 : M UInt16 := do
  let b ← randomBytes 2
  return UInt16.ofNat (beVal 0 b.reverse)

/-- The hex digits of a UUID's bytes, with the dashes. -/
def uuidText (i : ℕ) : Octets → Octets
  | [] => []
  | x :: xs =>
    (if i = 4 ∨ i = 6 ∨ i = 8 ∨ i = 10 then [45] else []) ++ hexEncode [x] ++ uuidText (i + 1) xs

/-- `uuidV4Lower`. -/
def uuidV4Lower : M Octets := do
  let b ← randomBytes 16
  let b := (b.modify 6 fun x => x &&& 0x0F ||| 0x40).modify 8 fun x => x &&& 0x3F ||| 0x80
  return uuidText 0 b

/-- `chacha20Poly1305Encrypt`. -/
def chacha20Poly1305Encrypt [Primitives] (site : Site) (key nonce8 pt aad : Octets) : M Octets := do
  if key.length ≠ 32 then
    emit (.keyRefused site)
    Prog.raise (.runtimeError (ascii "chacha key size"))
  else
    emit (.sealed site key nonce8 aad pt)
    return chachaSeal key nonce8 pt aad

/-- The application side of `RaopEvents`. -/
class Host where
  /-- Fire a callback and let the application react. -/
  fire : Event → M Unit

end AirplaySender
