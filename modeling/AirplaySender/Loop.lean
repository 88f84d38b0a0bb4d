/-
# The bundled host (`raop_loop.cpp`)

`RaopLoop` owns the five sockets of a session and runs the sender: the sender calls it through
`RaopIo`, and `pump` polls the sockets and calls the sender back.  Each slot carries a generation
counter, because a callback may close and reopen any of them while `pump` still holds the list of
sockets it polled.

What the operating system returns and what the sender calls are scripts.  A system call takes the
next answer, a call into the sender the next list of `RaopIo` calls, and a run whose script is
used up stops where it is, so that every moment of every run is the end of one.  `trace` keeps
what passes between the sender and the loop.
-/
import AirplaySender.Lib.Octets
import AirplaySender.Lib.Prog
import AirplaySender.State

namespace AirplaySender.Loop

open Octets

/-! ## 1. Slots -/

/-- What differs between platforms: the text of an error and which errors are not failures. -/
class Platform where
  errorText : ℤ → Octets
  wouldBlock : ℤ → Bool
  connectInProgress : ℤ → Bool

/-- `kBadSock`. -/
def badSock : ℤ := -1

/-- `TcpSlot`.  Two fields are not in the source: `attempt` counts the calls of `tcpConnect`, which
`gen` counts modulo 2^32, and `taken` is what the kernel has taken of the queue since the last one. -/
structure TcpSlot where
  fd : ℤ := badSock
  gen : UInt32 := 0
  connecting : Bool := false
  connected : Bool := false
  out : Octets := []
  outOff : ℕ := 0
  failedToStart : Option Octets := none
  sendFailed : Option Octets := none
  attempt : ℕ := 0
  taken : Octets := []

/-- `TcpSlot::reset`. -/
def TcpSlot.reset (s : TcpSlot) : TcpSlot :=
  { gen := s.gen, attempt := s.attempt, taken := s.taken }

/-- `UdpSlot`, with the number of calls of `udpBind`. -/
structure UdpSlot where
  fd : ℤ := badSock
  gen : UInt32 := 0
  attempt : ℕ := 0

/-! ## 2. The sender and the system -/

/-- A call of the sender through `RaopIo`. -/
inductive Call
  | tcpConnect (ch : Tcp) (host : Octets) (port : UInt16)
  | tcpSend (ch : Tcp) (bytes : Octets)
  | tcpClose (ch : Tcp) (flush : Bool)
  | udpBind (u : Udp)
  | udpSend (u : Udp) (dest : Endpoint) (bytes : Octets)
  | udpClose (u : Udp)

/-- A call of the loop into the sender.  `attempt` is not in the source: it is the attempt, or the
bind, whose socket the loop is handling. -/
inductive Note
  | onTcpConnected (ch : Tcp) (attempt : ℕ) (localEnd peer : Endpoint)
  | onTcpConnectFailed (ch : Tcp) (attempt : ℕ) (why : Octets)
  | onTcpData (ch : Tcp) (attempt : ℕ) (bytes : Octets)
  | onTcpClosed (ch : Tcp) (attempt : ℕ) (why : Octets)
  | onUdpDatagram (u : Udp) (attempt : ℕ) (bytes : Octets) (source : Endpoint)
  | tick

/-- What passes between the two.  A `RaopIo` call returns a port, 0 where it returns nothing. -/
inductive Event
  | enter (c : Call)
  | leave (port : UInt16)
  | notify (n : Note)

/-- `pollfd::revents`. -/
structure Revents where
  pollIn : Bool := false
  pollOut : Bool := false
  err : Bool := false
  hup : Bool := false
  nval : Bool := false
  deriving DecidableEq

/-- What a system call returns: its value, `errno`, and what it writes. -/
structure Answer where
  ret : ℤ := 0
  errno : ℤ := 0
  bytes : Octets := []
  ends : Endpoint := ⟨[], 0⟩
  revents : List Revents := []

/-- `RaopLoop::Impl`, the two scripts, and the trace, the latest event first. -/
structure World where
  tcp : Tcp → TcpSlot := fun _ => {}
  udp : Udp → UdpSlot := fun _ => {}
  answers : List Answer := []
  calls : List (List Call) := []
  trace : List Event := []

/-- The exception is the end of a script. -/
abbrev M := Prog World Unit

/-- The next answer of the system. -/
def ask : M Answer := fun w =>
  match w.answers with
  | [] => (.error (), w)
  | a :: rest => (.ok a, { w with answers := rest })

/-- The next calls of the sender. -/
def nextCalls : M (List Call) := fun w =>
  match w.calls with
  | [] => (.error (), w)
  | cs :: rest => (.ok cs, { w with calls := rest })

def emit (e : Event) : M Unit := Prog.modify fun w => { w with trace := e :: w.trace }

/-- `d_->t(ch)`. -/
def slot (ch : Tcp) : M TcpSlot := do return (← Prog.get).tcp ch

/-- `d_->u(which)`. -/
def uslot (u : Udp) : M UdpSlot := do return (← Prog.get).udp u

def setTcp (ch : Tcp) (f : TcpSlot → TcpSlot) : M Unit :=
  Prog.modify fun w => { w with tcp := Function.update w.tcp ch (f (w.tcp ch)) }

def setUdp (u : Udp) (f : UdpSlot → UdpSlot) : M Unit :=
  Prog.modify fun w => { w with udp := Function.update w.udp u (f (w.udp u)) }

/-- Rounds enough for a loop that asks the system in each. -/
def rounds : M ℕ := do return (← Prog.get).answers.length + 1

/-- `socketError`. -/
def socketError : M ℤ := do return (← ask).errno

/-- `localOf` and `peerOf`. -/
def endOf : M Endpoint := do
  let a ← ask
  return if a.ret ≠ 0 then ⟨[], 0⟩ else a.ends

/-! ## 3. `RaopIo` -/

section Io

variable [Platform]

open Platform

/-- `Impl::closeTcp`. -/
def closeTcp (ch : Tcp) : M Unit := setTcp ch TcpSlot.reset

/-- `Impl::closeUdp`. -/
def closeUdp (u : Udp) : M Unit := setUdp u fun s => { s with fd := badSock }

/-- The loop of `Impl::drain`; the fatal error, if there is one. -/
def drainLoop (ch : Tcp) : ℕ → M (Option ℤ)
  | 0 => Prog.raise ()
  | n + 1 => do
    let s ← slot ch
    if s.outOff < s.out.length then do
      let sent ← ask
      if 0 < sent.ret then do
        setTcp ch fun s => { s with
          outOff := s.outOff + sent.ret.toNat
          taken := s.taken ++ (s.out.drop s.outOff).take sent.ret.toNat }
        drainLoop ch n
      else if sent.ret < 0 ∧ wouldBlock sent.errno then return none
      else return some sent.errno
    else do
      setTcp ch fun s => { s with out := [], outOff := 0 }
      return none

/-- `Impl::drain`. -/
def drain (ch : Tcp) : M (Option ℤ) := do drainLoop ch (← rounds)

/-- `RaopLoop::tcpConnect`. -/
def tcpConnect (ch : Tcp) (host : Octets) : M Unit := do
  closeTcp ch
  setTcp ch fun s => { s with gen := s.gen + 1, attempt := s.attempt + 1, taken := [] }
  let res ← ask
  if res.ret ≠ 0 then
    setTcp ch fun s => { s with failedToStart := some (ascii "cannot resolve " ++ host) }
  else do
    let sock ← ask
    if sock.ret = badSock then
      setTcp ch fun s => { s with failedToStart := some (ascii "socket: " ++ errorText sock.errno) }
    else do
      let rc ← ask
      if rc.ret ≠ 0 ∧ !connectInProgress rc.errno then
        setTcp ch fun s => { s with failedToStart := some (errorText rc.errno) }
      else setTcp ch fun s => { s with fd := sock.ret, connecting := true, connected := false }

/-- `RaopLoop::tcpSend`. -/
def tcpSend (ch : Tcp) (bytes : Octets) : M Unit := do
  let s ← slot ch
  if s.fd = badSock ∨ bytes = [] then return ()
  else do
    setTcp ch fun s => { s with out := s.out ++ bytes }
    if !s.connected then return ()
    else do
      match ← drain ch with
      | none => return ()
      | some err =>
        setTcp ch fun s => { s with
          sendFailed := s.sendFailed.or (some (ascii "send failed: " ++ errorText err)) }

/-- The loop of `tcpClose` that gets the queued bytes out before a deadline. -/
def flushLoop (ch : Tcp) (sendDeadline : ℤ) : ℕ → M Unit
  | 0 => Prog.raise ()
  | n + 1 => do
    let s ← slot ch
    if s.outOff < s.out.length then do
      let now ← ask
      if now.ret < sendDeadline then do
        match ← drain ch with
        | some _ => return ()
        | none => do
          let s ← slot ch
          if s.out.length ≤ s.outOff then return ()
          else do
            let _ ← ask
            let _ ← ask
            flushLoop ch sendDeadline n
      else return ()
    else return ()

/-- The loop of `tcpClose` that waits for the peer's FIN. -/
def finLoop (finDeadline : ℤ) : ℕ → M Unit
  | 0 => Prog.raise ()
  | n + 1 => do
    let now ← ask
    if finDeadline - now.ret ≤ 0 then return ()
    else do
      let polled ← ask
      if polled.ret ≤ 0 then return ()
      else do
        let got ← ask
        if 0 < got.ret then finLoop finDeadline n
        else if got.ret < 0 ∧ wouldBlock got.errno then finLoop finDeadline n
        else return ()

/-- `RaopLoop::tcpClose`. -/
def tcpClose (ch : Tcp) (flush : Bool) : M Unit := do
  let s ← slot ch
  if s.fd = badSock then setTcp ch TcpSlot.reset
  else do
    Prog.when (flush ∧ s.connected ∧ s.sendFailed = none) do
      let now ← ask
      flushLoop ch (now.ret + 500) (← rounds)
      let now ← ask
      finLoop (now.ret + 300) (← rounds)
    closeTcp ch

/-- `RaopLoop::udpBind`. -/
def udpBind (u : Udp) : M UInt16 := do
  closeUdp u
  setUdp u fun s => { s with gen := s.gen + 1, attempt := s.attempt + 1 }
  let sock ← ask
  if sock.ret = badSock then return 0
  else do
    let bound ← ask
    if bound.ret ≠ 0 then return 0
    else do
      let localEnd ← endOf
      if localEnd.port = 0 then return 0
      else do
        setUdp u fun s => { s with fd := sock.ret }
        return localEnd.port

/-- `RaopLoop::udpSend`: `toSockAddr` and `sendto`. -/
def udpSend (u : Udp) : M Unit := do
  let s ← uslot u
  if s.fd = badSock then return ()
  else do
    let parsed ← ask
    if parsed.ret ≠ 1 then return ()
    else do
      let _ ← ask
      return ()

/-- The body of a `RaopIo` call and the port it returns. -/
def body : Call → M UInt16
  | .tcpConnect ch host _ => do
    tcpConnect ch host
    return 0
  | .tcpSend ch bytes => do
    tcpSend ch bytes
    return 0
  | .tcpClose ch flush => do
    tcpClose ch flush
    return 0
  | .udpBind u => udpBind u
  | .udpSend u _ _ => do
    udpSend u
    return 0
  | .udpClose u => do
    closeUdp u
    return 0

/-- The sender calls the loop. -/
def perform (c : Call) : M Unit := do
  emit (.enter c)
  let port ← body c
  emit (.leave port)

/-- The loop calls the sender, which calls back any number of times before it returns. -/
def serve (n : Note) : M Unit := do
  emit (.notify n)
  Prog.each perform (← nextCalls)

/-! ## 4. `RaopLoop::pump` -/

/-- A parked notification of a slot. -/
def parked (ch : Tcp) : M Unit := do
  let s ← slot ch
  match s.failedToStart, s.sendFailed with
  | some why, _ => do
    closeTcp ch
    serve (.onTcpConnectFailed ch s.attempt why)
  | none, some why => do
    closeTcp ch
    serve (.onTcpClosed ch s.attempt why)
  | none, none => return ()

/-- `Entry`: a socket that was polled. -/
inductive Entry
  | tcp (ch : Tcp) (fd : ℤ) (gen : UInt32) (attempt : ℕ)
  | udp (u : Udp) (fd : ℤ) (gen : UInt32) (attempt : ℕ)

/-- The snapshot of the live sockets. -/
def snapshot (w : World) : List Entry :=
  (([.control, .event].filter fun ch => (w.tcp ch).fd ≠ badSock).map fun ch =>
    .tcp ch (w.tcp ch).fd (w.tcp ch).gen (w.tcp ch).attempt) ++
  (([.audio, .control, .timing].filter fun u => (w.udp u).fd ≠ badSock).map fun u =>
    .udp u (w.udp u).fd (w.udp u).gen (w.udp u).attempt)

/-- The burst of datagrams: at most 64, each from the socket as it is then. -/
def burst (u : Udp) (fd : ℤ) (attempt : ℕ) : ℕ → M Unit
  | 0 => return ()
  | n + 1 => do
    let got ← ask
    if 0 < got.ret then do
      let gen := (← uslot u).gen
      serve (.onUdpDatagram u attempt got.bytes got.ends)
      let s ← uslot u
      if s.fd ≠ fd ∨ s.gen ≠ gen then return ()
      else burst u fd attempt n
    else if got.ret = 0 then burst u fd attempt n
    else do
      Prog.when (¬ wouldBlock got.errno) do
        let _ ← socketError
      return ()

/-- Close first, report second. -/
def closed (ch : Tcp) (attempt : ℕ) (why : Octets) : M Unit := do
  closeTcp ch
  serve (.onTcpClosed ch attempt why)

/-- The loop that reads a connected socket until it is empty, ends, or is not the sender's any
more. -/
def readLoop (ch : Tcp) (fd : ℤ) (attempt : ℕ) : ℕ → M Unit
  | 0 => Prog.raise ()
  | n + 1 => do
    let got ← ask
    if 0 < got.ret then do
      let gen := (← slot ch).gen
      serve (.onTcpData ch attempt got.bytes)
      let s ← slot ch
      if s.fd ≠ fd ∨ s.gen ≠ gen then return ()
      else readLoop ch fd attempt n
    else if got.ret = 0 then closed ch attempt []
    else if wouldBlock got.errno then return ()
    else closed ch attempt (errorText got.errno)

/-- The text of a pending socket error. -/
def errorOr (err : ℤ) (other : Octets) : Octets := if err ≠ 0 then errorText err else other

/-- A polled socket whose connect is under way. -/
def whileConnecting (ch : Tcp) (fd : ℤ) (attempt : ℕ) (re : Revents) : M Unit :=
  if !(re.pollOut || re.err || re.hup) then return ()
  else do
    let err ← socketError
    if err ≠ 0 ∨ re.err ∨ re.hup then do
      closeTcp ch
      serve (.onTcpConnectFailed ch attempt (errorOr err (ascii "connection failed")))
    else do
      setTcp ch fun s => { s with connecting := false, connected := true }
      let gen := (← slot ch).gen
      let localEnd ← endOf
      let peer ← endOf
      serve (.onTcpConnected ch attempt localEnd peer)
      let s ← slot ch
      if s.fd ≠ fd ∨ s.gen ≠ gen then return ()
      else do
        match ← drain ch with
        | none => return ()
        | some err => closed ch attempt (ascii "send failed: " ++ errorText err)

/-- A polled socket that is connected. -/
def whileConnected (ch : Tcp) (fd : ℤ) (attempt : ℕ) (re : Revents) : M Unit :=
  if re.err || re.nval then do
    let err ← socketError
    closed ch attempt (errorOr err (ascii "socket error"))
  else do
    let fatal ← (if re.pollOut then drain ch else pure none)
    match fatal with
    | some err => closed ch attempt (ascii "send failed: " ++ errorText err)
    | none =>
      if re.pollIn || re.hup then do readLoop ch fd attempt (← rounds)
      else return ()

/-- One entry of the snapshot and what the poll returned for it. -/
def deliver (re : Revents) : Entry → M Unit
  | .tcp ch fd gen attempt =>
    if re = {} then return ()
    else do
      let s ← slot ch
      if s.fd ≠ fd ∨ s.gen ≠ gen then return ()
      else if s.connecting then whileConnecting ch fd attempt re
      else whileConnected ch fd attempt re
  | .udp u fd gen attempt =>
    if re = {} then return ()
    else do
      let s ← uslot u
      if s.fd ≠ fd ∨ s.gen ≠ gen then return ()
      else if !(re.pollIn || re.err || re.hup) then return ()
      else burst u fd attempt 64

/-- `RaopLoop::pump`.  How long the poll may take is not part of the model. -/
def pump : M Unit := do
  Prog.each parked [.control, .event]
  let entries := snapshot (← Prog.get)
  Prog.when (entries ≠ []) do
    let polled ← ask
    Prog.when (0 < polled.ret) do
      Prog.each (fun (e, re) => deliver re e) (entries.zip polled.revents)
  serve .tick

/-! ## 5. Runs -/

/-- What the program does next, with what the system and the sender do meanwhile: a call of the
sender from outside, or a round of the loop. -/
inductive Turn
  | call (c : Call) (answers : List Answer)
  | pump (answers : List Answer) (calls : List (List Call))

/-- One turn, from its scripts. -/
def turn : Turn → M Unit
  | .call c answers => do
    Prog.modify fun w => { w with answers := answers, calls := [] }
    perform c
  | .pump answers calls => do
    Prog.modify fun w => { w with answers := answers, calls := calls }
    pump

/-- A run from a loop that has just been made. -/
def run (turns : List Turn) : World := (Prog.each turn turns {}).2

end Io

end AirplaySender.Loop
