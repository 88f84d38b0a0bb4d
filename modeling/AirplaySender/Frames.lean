/-
# HomeKit frames (`raop_sender.cpp`, `writeRtsp_` and the two decrypt loops)

A frame is a 2-byte little-endian length, that many octets of ciphertext and a 16-byte tag; the
length bytes are the associated data and the nonce is a per-direction counter.  The writer cuts a
message into chunks of 1024.  The reader takes whole frames off a reassembly buffer; the control
and the event channel run the same loop and differ in what they do when a frame does not open.

The writer measures a message with an `int`, so `sealLoop` sees only as much of it as that `int`
says.
-/
import AirplaySender.State

namespace AirplaySender

open Octets

section Frames

variable [Primitives]

/-! ## 1. Writing -/

/-- The octets an `int` count of a message covers. -/
def intPrefix (data : Octets) : Octets := data.take (wrap32 data.length).toNat

/-- The chunk loop of `writeRtsp_`: seal what is left of the message behind what is framed. -/
def sealLoop (controlOut : Octets) : ℕ → Octets → Octets → M Octets
  | 0, _, out => return out
  | fuel + 1, data, out =>
    if data = [] then return out
    else do
      let chunk := data.take 1024
      let lp := leBytes 2 chunk.length
      let s ← sender
      let nonce8 := counterNonce8 s.ctrlSendCtr
      setS fun s => { s with ctrlSendCtr := s.ctrlSendCtr + 1 }
      let ct ← chacha20Poly1305Encrypt .control controlOut nonce8 chunk lp
      sealLoop controlOut fuel (data.drop 1024) (out ++ lp ++ ct)

/-- `writeRtsp_`: framed once the control channel is encrypted, plaintext before. -/
def writeRtsp (data : Octets) : M Unit := do
  let s ← sender
  match s.controlEncrypted, s.ap2 with
  | true, some a =>
    let out ← sealLoop a.controlOut (intPrefix data).length (intPrefix data) []
    emit (.tcpSend .control out)
  | _, _ => emit (.tcpSend .control data)

/-! ## 2. Reading -/

/-- What a decrypt loop leaves: the opened frames with their counters, the buffer, the counter,
and whether it stopped because a frame did not open. -/
structure Opened where
  frames : List (UInt64 × Octets)
  rest : Octets
  ctr : UInt64
  failed : Bool

/-- The plaintext of the opened frames. -/
def Opened.plaintext (o : Opened) : Octets := o.frames.flatMap Prod.snd

/-- The decrypt loop over the reassembly buffer.  The counter has moved on when a frame does not
open, and that frame is still at the front of the buffer. -/
def openLoop (key : Octets) : ℕ → Octets → UInt64 → Opened
  | fuel + 1, l₀ :: l₁ :: body, ctr =>
    let len := l₀.toNat + l₁.toNat * 256
    if body.length < len + 16 then ⟨[], l₀ :: l₁ :: body, ctr, false⟩
    else
      match chacha20Poly1305Decrypt key (counterNonce8 ctr) (body.take (len + 16)) [l₀, l₁] with
      | none => ⟨[], l₀ :: l₁ :: body, ctr + 1, true⟩
      | some pt =>
        let o := openLoop key fuel (body.drop (len + 16)) (ctr + 1)
        { o with frames := (ctr, pt) :: o.frames }
  | _, buf, ctr => ⟨[], buf, ctr, false⟩

/-- The decrypt loop, started on a buffer. -/
def openFrames (key buf : Octets) (ctr : UInt64) : Opened := openLoop key buf.length buf ctr

end Frames

end AirplaySender
