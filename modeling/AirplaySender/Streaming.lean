/-
# Streaming (`raop_sender.cpp`, audio, sync, retransmission and timing)

The pacer turns elapsed time into packets; a packet takes 352 frames from the ring through
`fillFrames_`, wraps them as big-endian PCM or as an uncompressed ALAC frame, and goes out sealed
on AirPlay 2.  Sync packets map the RTP timeline to wall-clock NTP.  The last 1024 packets are
kept by slot for retransmission.

Samples are exact; the resampler's phase is an exact rational where the source has a double.
-/
import AirplaySender.Requests

namespace AirplaySender

open Octets

/-! ## 1. Clocks -/

/-- `kFramesPerPacket`. -/
def framesPerPacket : ℕ := 352

/-- `kBacklogSize`. -/
def backlogSize : ℕ := 1024

/-- `kMaxPacketsPerTick`. -/
def maxPacketsPerTick : ℕ := 16

/-- `kInBufMaxFrames`. -/
def inBufMaxFrames : ℕ := 8192

/-- `ntp2ts`. -/
def ntp2ts (ntp : UInt64) (rate : UInt32) : UInt64 := ((ntp >>> 16) * rate.toUInt64) >>> 16

/-- `ts2ntp`. -/
def ts2ntp (ts : UInt64) (rate : UInt32) : UInt64 := ((ts <<< 16) / rate.toUInt64) <<< 16

/-- `kRaopRate`. -/
def raopRate : UInt32 := 44100

/-- `ntpNow_`. -/
def ntpNow : M UInt64 := do
  let us := UInt64.ofNat (← wallClock)
  let sec := us / 1000000
  let frac := us % 1000000
  return ((sec + 0x83AA7E80) <<< 32) ||| ((frac <<< 32) / 1000000)

/-! ## 2. Samples -/

/-- What the ring holds when the sender looks at it. -/
def ringRead (ring : ℕ) : M (List Int16) := do
  let more ← ask (fun e => e.produced.head) fun e => { e with produced := e.produced.tail }
  Prog.modify fun w =>
    { w with env := { w.env with
        rings := Function.update w.env.rings ring (w.env.rings ring ++ more) } }
  let w ← Prog.get
  return w.env.rings ring

/-- `tryPop`. -/
def ringPop (ring n : ℕ) : M Unit :=
  Prog.modify fun w =>
    { w with env := { w.env with
        rings := Function.update w.env.rings ring ((w.env.rings ring).drop n) } }

/-- `int16_t` of a double: truncation. -/
def truncSample (q : ℚ) : Int16 := Int16.ofInt (if q < 0 then ⌈q⌉ else ⌊q⌋)

/-- One channel between its two neighbours. -/
def lerp (a b : Int16) (frac : ℚ) : Int16 := truncSample (a.toInt + (b.toInt - a.toInt) * frac)

/-- The interpolation loop of `fillFrames_`: the frames it produces and the phase it ends at. -/
def interpolate (buf : List Int16) (step : ℚ) : ℕ → ℚ → List Int16 × ℚ
  | 0, phase => ([], phase)
  | want + 1, phase =>
    let i₀ := phase.floor.toNat
    if buf.length / 2 ≤ i₀ + 1 then ([], phase)
    else
      let frac := phase - i₀
      let left := lerp (buf.getD (i₀ * 2) 0) (buf.getD (i₀ * 2 + 2) 0) frac
      let right := lerp (buf.getD (i₀ * 2 + 1) 0) (buf.getD (i₀ * 2 + 3) 0) frac
      let (rest, phase') := interpolate buf step want (phase + step)
      (left :: right :: rest, phase')

/-- Pad with silence up to `want` frames. -/
def padFrames (want : ℕ) (samples : List Int16) : List Int16 :=
  samples ++ List.replicate (want * 2 - samples.length) 0

/-- Drop the consumed frames in front of the phase. -/
def compact (s : Sender) : Sender :=
  let keepFrom := s.srcPhase.floor.toNat
  let drop := min keepFrom (s.inBuf.length / 2)
  if keepFrom = 0 then s
  else { s with inBuf := s.inBuf.drop (drop * 2), srcPhase := s.srcPhase - drop }

/-- `fillFrames_`: `want` stereo frames at 44.1 kHz, silence where the ring runs dry. -/
def fillFrames (want : ℕ) : M (List Int16) := do
  let s ← sender
  match s.ring with
  | none => return List.replicate (want * 2) 0
  | some ring =>
    let held ← ringRead ring
    if s.inputRate = raopRate then
      let take := min (held.length / 2) want
      ringPop ring (take * 2)
      return padFrames want (held.take (take * 2))
    else
      let step : ℚ := (s.inputRate.toNat : ℚ) / 44100
      let room := inBufMaxFrames - s.inBuf.length / 2
      let pull := min room (held.length / 2)
      ringPop ring (pull * 2)
      let buf := s.inBuf ++ held.take (pull * 2)
      let (samples, phase) := interpolate buf step want s.srcPhase
      setS fun s => compact { s with inBuf := buf, srcPhase := phase }
      return padFrames want samples

/-- `uint16_t` of a sample. -/
def sampleBits (x : Int16) : ℕ := x.toUInt16.toNat

/-! ## 3. ALAC -/

/-- The bit writer of `encodeAlacFrame_`: finished octets, the current one, how many bits it has. -/
structure BitWriter where
  out : Octets := []
  cur : UInt8 := 0
  filled : ℕ := 0

namespace BitWriter

/-- Append one bit. -/
def putBit (w : BitWriter) (bit : ℕ) : BitWriter :=
  let cur := w.cur <<< 1 ||| UInt8.ofNat bit
  if w.filled + 1 = 8 then { out := w.out ++ [cur] } else { w with cur := cur, filled := w.filled + 1 }

/-- `put`: the low `bits` bits of a value, most significant first. -/
def put (w : BitWriter) (value : ℕ) : ℕ → BitWriter
  | 0 => w
  | bits + 1 => (w.putBit (value / 2 ^ bits % 2)).put value bits

/-- Pad the last octet with zero bits. -/
def finish (w : BitWriter) : Octets :=
  if 0 < w.filled then w.out ++ [w.cur <<< UInt8.ofNat (8 - w.filled)] else w.out

end BitWriter

/-- `encodeAlacFrame_`: the escape header, the samples, the end tag. -/
def encodeAlacFrame (samples : List Int16) : Octets :=
  let w : BitWriter := {}
  let w := (((((w.put 1 3).put 0 4).put 0 12).put 0 1).put 0 2).put 1 1
  let w := samples.foldl (fun w x => w.put (sampleBits x) 16) w
  (w.put 7 3).finish

/-! ## 4. Packets -/

section Packets

variable [Primitives]

/-- `encryptAudioPayload_`. -/
def encryptAudioPayload (rtpHeader payload : Octets) : M Octets := do
  let s ← sender
  match s.ap2 with
  | none => return payload
  | some a =>
    if !a.encryptAudio then return payload
    else do
      let nonce8 := counterNonce8 a.audioNonce
      let ct ← chacha20Poly1305Encrypt .audio a.audioKey nonce8 payload ((rtpHeader.drop 4).take 8)
      ap2Set fun a => { a with audioNonce := a.audioNonce + 1 }
      return ct ++ nonce8

/-- The RTP header of the next audio packet. -/
def rtpHeader (s : Sender) : Octets :=
  [0x80, if s.firstAudio then 0xE0 else 0x60] ++ beBytes 2 s.seq.toNat ++
    beBytes 4 s.rtptime32.toNat ++ beBytes 4 s.sessionId.toNat

/-- The payload before encryption: ALAC on AirPlay 2, big-endian PCM otherwise. -/
def audioPayload (s : Sender) (samples : List Int16) : Octets :=
  if (s.ap2.map Ap2State.encryptAudio).getD false then encodeAlacFrame samples
  else samples.flatMap fun x => beBytes 2 (sampleBits x)

/-- The backlog slot of a sequence number. -/
def slotOf (seq : UInt16) : ℕ := seq.toNat % backlogSize

/-- Keep a packet for retransmission and move on to the next one. -/
def keepPacket (pkt : Octets) (s : Sender) : Sender :=
  { s with
    backlog := Function.update s.backlog (slotOf s.seq) pkt
    backlogSeq := Function.update s.backlogSeq (slotOf s.seq) s.seq.toNat
    firstAudio := false
    seq := s.seq + 1
    framesSent := s.framesSent + 352 }

/-- `sendAudioPacket_`. -/
def sendAudioPacket : M Unit := do
  let samples ← fillFrames framesPerPacket
  let s ← sender
  let header := rtpHeader s
  let wirePayload ← encryptAudioPayload header (audioPayload s samples)
  let pkt := header ++ wirePayload
  emit (.udpSend .audio ⟨s.hostIp, s.serverPort⟩ pkt)
  setS (keepPacket pkt)

/-- The packet loop of `onPacerTick_`, `n` packets still allowed in this tick. -/
def pacerLoop (target : UInt64) : ℕ → M Unit
  | 0 => return ()
  | n + 1 => do
    let s ← sender
    Prog.when (s.framesSent + 352 ≤ target) do
      sendAudioPacket
      pacerLoop target n

/-- The frames due after a number of nanoseconds, in the source's `uint64_t` arithmetic. -/
def frameTarget (elapsedNs : UInt64) : UInt64 := elapsedNs * 44100 / 1000000000

/-- `onPacerTick_`. -/
def onPacerTick : M Unit := do
  let n ← now
  let s ← sender
  pacerLoop (frameTarget (UInt64.ofInt (n - s.clockStart))) maxPacketsPerTick

/-- The sync packet for the next frame. -/
def syncPacket (s : Sender) (first : Bool) : Octets :=
  let curNtp := ts2ntp (s.startTs + s.framesSent) raopRate
  [if first then 0x90 else 0x80, 0xD4] ++ beBytes 2 7 ++
    beBytes 4 (s.rtptime32 - Sender.latency).toNat ++ beBytes 8 curNtp.toNat ++
    beBytes 4 s.rtptime32.toNat

/-- `sendSyncPacket_`. -/
def sendSyncPacket (first : Bool) : M Unit := do
  let s ← sender
  if s.serverPort = 0 ∨ s.controlPort = 0 then return ()
  else emit (.udpSend .control ⟨s.hostIp, s.controlPort⟩ (syncPacket s first))

/-- The reply to one lost sequence number, if the backlog still has the packet. -/
def retransmit (source : Endpoint) (seq : UInt16) : M Unit := do
  let s ← sender
  if s.backlogSeq (slotOf seq) ≠ seq.toNat then return ()
  else emit (.udpSend .control source
    ([0x80, 0xD6] ++ beBytes 2 seq.toNat ++ s.backlog (slotOf seq)))

/-- `onControlDatagram_`. -/
def onControlDatagram (dg : Octets) (source : Endpoint) : M Unit :=
  if dg.length < 8 then return ()
  else if (dg.getD 1 0 &&& 0x7F) ≠ 0x55 then return ()
  else
    let lostSeq := UInt16.ofNat (beVal 0 ((dg.drop 4).take 2))
    let lostCount := beVal 0 ((dg.drop 6).take 2)
    Prog.each (fun i => retransmit source (lostSeq + UInt16.ofNat i)) (List.range lostCount)

/-- `onTimingDatagram_`. -/
def onTimingDatagram (dg : Octets) (source : Endpoint) : M Unit :=
  if dg.length < 32 then return ()
  else do
    let n ← ntpNow
    emit (.udpSend .timing source
      ([dg.getD 0 0, 0xD3] ++ beBytes 2 7 ++ beBytes 4 0 ++ (dg.drop 24).take 8 ++
        beBytes 8 n.toNat ++ beBytes 8 n.toNat))

/-! ## 5. Into the stream -/

/-- The AirPlay 2 default: audible unless the application asked for a volume. -/
def defaultVolume (s : Sender) : Sender :=
  if s.airplay2 ∧ s.pendingVolumeDb ≤ kNoVolume + 1.0 then { s with pendingVolumeDb := 0.0 } else s

/-- The keep-alive of a stream: the AirPlay 2 timer, or a probe whose reply starts it. -/
def startFeedback : M Unit := do
  let s ← sender
  if s.airplay2 then do
    setS fun s => s.setTimer (fun t => { t with interval := 2000 }) .feedbackTimer
    arm .feedbackTimer
  else do
    setS fun s => s.setTimer (fun t => { t with interval := 25000 }) .feedbackTimer
    sendRequest (ascii "POST") (ascii "/feedback") [] [] []

/-- `startStreaming_`. -/
def startStreaming [Host] : M Unit := do
  setAndEmit (fun s => ({ s with state := .streaming } : Sender).disarm .timeout) .entered
  let ntp ← ntpNow
  setS fun s => { s with startTs := ntp2ts ntp raopRate, framesSent := 0, firstAudio := true }
  let n ← now
  setS fun s => { s with clockStart := n }
  sendSyncPacket true
  arm .syncTimer
  setS defaultVolume
  let s ← sender
  Prog.when (kNoVolume + 1.0 < s.pendingVolumeDb) (sendVolume s.pendingVolumeDb)
  arm .pacer
  startFeedback
  sendMetadata
  Host.fire (.launched true [])

end Packets

end AirplaySender
