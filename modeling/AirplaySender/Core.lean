/-
# The session protocol, abstractly

What a session may do, without the texts, timers and sockets: a `Core` is the part of the members
the protocol properties speak about, together with the part of the trace they speak about, and
`Step` lists every way it changes.  A step's premises are what the code has established where it
takes the step, so that an invariant of sessions is proved by cases on `Step` and never looks at
the code.  That the code only ever takes these steps is `Walk`.

A step of level `app` can be taken from inside a call the application makes; the others only from
inside a host notification.  The distinction matters once: the application may call the sender
from a callback in the middle of pair-setup M6, and what pair-setup relies on afterwards must
survive every such call (`Flow.callback`).
-/
import AirplaySender.Session

namespace AirplaySender

open Octets

/-! ## 1. Traces -/

/-- The entry that begins a session. -/
def Entry.isStarted : Entry → Bool
  | .started .. => true
  | _ => false

/-- The entry that begins a pairing attempt. -/
def Entry.isPairing : Entry → Bool
  | .pairing _ => true
  | _ => false

/-- The entry that records that the session got past authentication. -/
def Entry.isCleared : Entry → Bool
  | .cleared .. => true
  | _ => false

/-- The entries of the current session, newest first. -/
def sessionOf (log : List Entry) : List Entry := log.takeWhile fun e => !e.isStarted

/-- The entries since the current pairing attempt began. -/
def attemptOf (log : List Entry) : List Entry := (sessionOf log).takeWhile fun e => !e.isPairing

/-- An entry that neither starts a session nor a pairing attempt. -/
def Entry.isPlain (e : Entry) : Bool := !e.isStarted && !e.isPairing

@[simp] theorem sessionOf_nil : sessionOf [] = [] := rfl

theorem sessionOf_cons {e : Entry} (h : e.isStarted = false) (log : List Entry) :
    sessionOf (e :: log) = e :: sessionOf log := by
  simp [sessionOf, h]

theorem sessionOf_started (auth : Auth) (airplay2 strict : Bool) (log : List Entry) :
    sessionOf (.started auth airplay2 strict :: log) = [] := by
  simp [sessionOf, Entry.isStarted]

theorem sessionOf_append {es : List Entry} (h : ∀ e ∈ es, e.isStarted = false) (log : List Entry) :
    sessionOf (es ++ log) = es ++ sessionOf log := by
  induction es with
  | nil => rfl
  | cons e es ih =>
    rw [List.cons_append, sessionOf_cons (h e (by simp)), ih fun x hx => h x (by simp [hx])]
    rfl

/-- The session has got past authentication. -/
def Cleared (log : List Entry) : Prop :=
  ∃ auth setup2 paired, Entry.cleared auth setup2 paired ∈ sessionOf log

theorem Cleared.append {es log : List Entry} (h : Cleared log)
    (hes : ∀ e ∈ es, e.isStarted = false) : Cleared (es ++ log) := by
  obtain ⟨auth, setup2, paired, hmem⟩ := h
  exact ⟨auth, setup2, paired, by rw [sessionOf_append hes]; exact List.mem_append_right _ hmem⟩

theorem Cleared.cons {e : Entry} {log : List Entry} (h : Cleared log) (he : e.isStarted = false) :
    Cleared (e :: log) := by
  obtain ⟨auth, setup2, paired, hmem⟩ := h
  exact ⟨auth, setup2, paired, by rw [sessionOf_cons he]; exact List.mem_cons_of_mem _ hmem⟩

/-- `stop` closes the control connection. -/
def Entry.isStop : Entry → Bool
  | .tcpClose .control true => true
  | _ => false

/-- The entries of the current session since it was stopped, all of them while it was not. -/
def afterStop (log : List Entry) : List Entry :=
  log.takeWhile fun e => !e.isStarted && !e.isStop

theorem afterStop_append {es : List Entry}
    (h : ∀ e ∈ es, e.isStarted = false ∧ e.isStop = false) (log : List Entry) :
    afterStop (es ++ log) = es ++ afterStop log := by
  unfold afterStop
  rw [List.takeWhile_append_of_pos]
  intro e he
  simp [h e he]

/-- A response that `handleResponse_` acts on in a session that is over. -/
def reacts (method : Octets) (isHttp : Bool) (code : ℤ) : Bool :=
  !isHttp && ((method == ascii "POST" && code == 200) ||
    ((method == ascii "OPTIONS" || method == ascii "ANNOUNCE" || method == ascii "SETUP" ||
      method == ascii "RECORD") && (code == 401 || (200 ≤ code && code < 300))))

/-- What arms a timer in a session that is over: a PIN submitted late, pair-setup going on after
its callback stopped the session, the late answer to a keep-alive probe. -/
def Entry.rearms : Entry → Bool
  | .typed live _ => !live
  | .resumed live _ => !live
  | .dispatched live method isHttp status _ _ =>
    !live && !isHttp && method == ascii "POST" && toInt status == 200
  | _ => false

/-- What makes the sender act in a session that is over. -/
def Entry.stirs : Entry → Bool
  | .typed live _ => !live
  | .resumed live _ => !live
  | .dispatched live method isHttp status _ _ => !live && reacts method isHttp (toInt status)
  | _ => false

theorem Entry.stirs_of_rearms {e : Entry} (h : e.rearms = true) : e.stirs = true := by
  cases e with
  | typed | resumed => exact h
  | dispatched live method isHttp status headers body =>
    simp only [rearms, Bool.and_eq_true] at h
    obtain ⟨⟨⟨hlive, hhttp⟩, hm⟩, hcode⟩ := h
    simp [stirs, reacts, hlive, hhttp, hm, hcode]
  | _ => cases h

/-- The entries in which a session begins, is ended and is reported. -/
def Entry.isLife : Entry → Bool
  | .started .. => true
  | .entered => true
  | .ending .. => true
  | .stopped => true
  | .failed _ => true
  | .reported _ => true
  | .event (.launched ..) => true
  | .event .closed => true
  | _ => false

/-- The last of them. -/
def lastLife (log : List Entry) : Option Entry := log.find? Entry.isLife

theorem Entry.isStarted_of_isLife {e : Entry} (h : e.isLife = false) : e.isStarted = false := by
  cases e with
  | started => cases h
  | _ => rfl

theorem lastLife_append {es : List Entry} (h : ∀ e ∈ es, e.isLife = false) (log : List Entry) :
    lastLife (es ++ log) = lastLife log := by
  unfold lastLife
  rw [List.find?_append, List.find?_eq_none.mpr fun e he => by simp [h e he]]
  rfl

/-- The entries the protocol properties speak about: not the sockets coming and going, but for
the end of the control connection in `stop` and the event connection. -/
def Entry.tracked : Entry → Bool
  | .tcpConnect .control _ _ => false
  | .tcpClose .control false => false
  | .tcpClose .event _ => false
  | .udpBind .. => false
  | .udpClose .. => false
  | .volumeSet .. => false
  | _ => true

/-- An audio packet or a sync packet. -/
def isMedia (u : Udp) (bytes : Octets) : Prop := u = .audio ∨ (u = .control ∧ bytes[1]? = some 0xD4)

/-! ## 2. The core of a sender -/

/-- What the protocol properties need of the pairing state. -/
structure Keys where
  srpK : Option Octets := none
  accessoryLtpk : Octets := []
  secret : Octets := []
  controlOut : Octets := []
  controlIn : Octets := []
  eventOut : Octets := []
  eventIn : Octets := []
  audioKey : Octets := []
  audioNonce : UInt64 := 0
  encryptAudio : Bool := false

/-- The keys of a pairing state. -/
def keysOf (a : Ap2State) : Keys :=
  { srpK := a.srp.map SrpClient.K
    accessoryLtpk := a.accessoryLtpk
    secret := a.sharedSecret
    controlOut := a.controlOut
    controlIn := a.controlIn
    eventOut := a.eventOut
    eventIn := a.eventIn
    audioKey := a.audioKey
    audioNonce := a.audioNonce
    encryptAudio := a.encryptAudio }

/-- Which timers are active. -/
structure Timers where
  pacer : Bool := false
  syncTimer : Bool := false
  timeout : Bool := false
  pinTimeout : Bool := false
  feedbackTimer : Bool := false
  deriving DecidableEq

/-- The active timers of a sender. -/
def timersOf (s : Sender) : Timers :=
  { pacer := s.pacer.active
    syncTimer := s.syncTimer.active
    timeout := s.timeout.active
    pinTimeout := s.pinTimeout.active
    feedbackTimer := s.feedbackTimer.active }

/-- Arm a timer. -/
def Timers.arm (x : Timers) : TimerId → Timers
  | .pacer => { x with pacer := true }
  | .syncTimer => { x with syncTimer := true }
  | .timeout => { x with timeout := true }
  | .pinTimeout => { x with pinTimeout := true }
  | .feedbackTimer => { x with feedbackTimer := true }

/-- The part of the world the protocol properties speak about. -/
structure Core where
  state : State := .idle
  stage : PairStage := .none
  auth : Auth := .none
  airplay2 : Bool := false
  strict : Bool := false
  connected : Bool := false
  keys : Option Keys := none
  waiting : Bool := false
  tried403 : Bool := false
  retried : Bool := false
  encrypted : Bool := false
  sendCtr : UInt64 := 0
  recvCtr : UInt64 := 0
  encBuf : Octets := []
  rxBuf : Octets := []
  eventSendCtr : UInt64 := 0
  eventRecvCtr : UInt64 := 0
  eventEncBuf : Octets := []
  eventPlainBuf : Octets := []
  methods : List Octets := []
  kinds : List Bool := []
  cseq : ℤ := 0
  setupKey : Octets := []
  timers : Timers := {}
  log : List Entry := []

/-- The core of a world. -/
def coreOf (w : World) : Core :=
  { state := w.s.state
    stage := w.s.pairStage
    auth := w.s.authMethod
    airplay2 := w.s.airplay2
    strict := w.s.strictAuth
    connected := w.s.rtspConnected
    keys := w.s.ap2.map keysOf
    waiting := w.s.waitingForPin
    tried403 := w.s.triedTransientAfterPin403
    retried := w.s.digestRetried
    encrypted := w.s.controlEncrypted
    sendCtr := w.s.ctrlSendCtr
    recvCtr := w.s.ctrlRecvCtr
    encBuf := w.s.rtspEncBuf
    rxBuf := w.s.rxBuf
    eventSendCtr := w.s.eventSendCtr
    eventRecvCtr := w.s.eventRecvCtr
    eventEncBuf := w.s.eventEncBuf
    eventPlainBuf := w.s.eventPlainBuf
    methods := w.s.pendingMethods
    kinds := w.s.pendingIsHttp
    cseq := w.s.cseq
    setupKey := w.s.pairSetupSessionKey
    timers := timersOf w.s
    log := w.out.filter Entry.tracked }

/-! ## 3. Frames on the control channel -/

section Frames

variable [Primitives]

/-- A frame: the length bytes, then ciphertext and tag. -/
def frame (key : Octets) (ctr : UInt64) (chunk : Octets) : Octets :=
  leBytes 2 chunk.length ++ chachaSeal key (counterNonce8 ctr) chunk (leBytes 2 chunk.length)

/-- The frames of a run of chunks, the counter moving on by one for each. -/
def frames (key : Octets) (ctr : UInt64) : List Octets → Octets
  | [] => []
  | chunk :: chunks => frame key ctr chunk ++ frames key (ctr + 1) chunks

/-- The encryptions behind a run of frames, newest first. -/
def frameSeals (key : Octets) (ctr : UInt64) : List Octets → List Entry
  | [] => []
  | chunk :: chunks =>
    frameSeals key (ctr + 1) chunks ++
      [.sealed .control key (counterNonce8 ctr) (leBytes 2 chunk.length) chunk]

/-- A message in pieces of 1024. -/
def chunksOf : ℕ → Octets → List Octets
  | 0, _ => []
  | fuel + 1, data => if data = [] then [] else data.take 1024 :: chunksOf fuel (data.drop 1024)

/-- The chunks `writeRtsp_` makes of a message. -/
def chunks (data : Octets) : List Octets := chunksOf (intPrefix data).length (intPrefix data)

end Frames

/-- An `int` counts what is shorter than 2^31. -/
theorem wrap32_of_lt {n : ℕ} (h : n < 2 ^ 31) : wrap32 n = n := Int.bmod_eq_of_le (by omega) (by omega)

/-- Counting in an `int` is counting modulo 2^32. -/
theorem wrap32_succ (n : ℕ) : wrap32 (wrap32 n + 1) = wrap32 (n + 1 : ℕ) := by
  rw [Nat.cast_succ]
  exact Int.bmod_add_bmod

theorem intPrefix_of_lt {data : Octets} (h : data.length < 2 ^ 31) : intPrefix data = data := by
  rw [intPrefix, wrap32_of_lt h]
  exact List.take_length

theorem length_intPrefix_le (data : Octets) : (intPrefix data).length ≤ data.length := by
  unfold intPrefix
  generalize (wrap32 data.length).toNat = n
  rw [List.length_take]
  exact Nat.min_le_right n data.length

theorem length_intPrefix_lt (data : Octets) : (intPrefix data).length < 2 ^ 31 := by
  have hlt : wrap32 data.length < ((2 ^ 32 : ℕ) + 1 : ℤ) / 2 := Int.bmod_lt (by norm_num)
  rw [intPrefix, List.length_take]
  omega

/-- What is left of a length behind an `int` has the same two low octets. -/
theorem leBytes_intPrefix {data : Octets} (h : 0 ≤ wrap32 data.length) :
    leBytes 2 (intPrefix data).length = leBytes 2 data.length := by
  have hlow : (intPrefix data).length % 256 ^ 2 = data.length % 256 ^ 2 := by
    rw [intPrefix, List.length_take]
    generalize data.length = n at h ⊢
    unfold wrap32 at h ⊢
    rw [Int.bmod_eq_emod] at h ⊢
    split_ifs at h ⊢ <;> omega
  rw [← leBytes_mod, hlow, leBytes_mod]

/-- A piece is neither empty nor longer than 1024 octets. -/
theorem mem_chunksOf {pt : Octets} : ∀ {fuel : ℕ} {data : Octets}, pt ∈ chunksOf fuel data →
    1 ≤ pt.length ∧ pt.length ≤ 1024
  | 0, _, h => by cases h
  | fuel + 1, data, h => by
    unfold chunksOf at h
    split at h
    · cases h
    · rename_i hne
      rcases List.mem_cons.mp h with rfl | h
      · have hpos := List.length_pos_of_ne_nil hne
        rw [List.length_take]
        omega
      · exact mem_chunksOf h

theorem flatten_chunksOf : ∀ (fuel : ℕ) (data : Octets), data.length ≤ fuel →
    (chunksOf fuel data).flatten = data
  | 0, data, h => by
    rw [List.length_eq_zero_iff.mp (Nat.le_zero.mp h)]
    rfl
  | fuel + 1, data, h => by
    unfold chunksOf
    split
    · rename_i hnil
      rw [hnil]
      rfl
    · rename_i hne
      have hpos := List.length_pos_of_ne_nil hne
      rw [List.flatten_cons, flatten_chunksOf fuel _ (by rw [List.length_drop]; omega)]
      exact List.take_append_drop 1024 data

theorem flatten_chunks (data : Octets) : (chunks data).flatten = intPrefix data :=
  flatten_chunksOf _ _ le_rfl

/-- The method on the request line of a queued request. -/
def wireMethod (method : Octets) : Octets :=
  if method = ascii "FEEDBACK" then ascii "POST" else method

/-- A request text: its request line and its `CSeq`. -/
def IsRequest (method : Octets) (cseq : ℤ) (text : Octets) : Prop :=
  ∃ uri version, requestHead (wireMethod method) uri version cseq <+: text

/-! ## 4. What a step may rely on -/

/-- Where a step can be taken. -/
inductive Level
  | app
  | host
  deriving DecidableEq

/-- The core a new session starts from. -/
def Core.fresh (c : Core) : Core :=
  { state := c.state
    auth := c.auth
    airplay2 := c.airplay2
    strict := c.strict
    connected := c.connected
    setupKey := c.setupKey
    timers := c.timers
    log := .started c.auth c.airplay2 c.strict :: c.log }

/-- A core that has not been connected yet. -/
def Core.Untouched (c : Core) : Prop :=
  c.stage = .none ∧ c.keys = none ∧ c.waiting = false ∧ c.encrypted = false ∧ true ∉ c.kinds ∧
    c.retried = false

/-- A session that has neither ended nor reached the stream. -/
def Core.Early (c : Core) : Prop := c.state ≠ .idle ∧ c.state ≠ .streaming

/-- The session is alive, or was stirred after its end. -/
def Core.Awake (c : Core) : Prop :=
  c.state ≠ .idle ∨ ∃ e ∈ afterStop c.log, e.stirs = true

/-- The session is alive, or was stirred after its end by something that arms a timer. -/
def Core.Rearmed (c : Core) : Prop :=
  c.state ≠ .idle ∨ ∃ e ∈ afterStop c.log, e.rearms = true

theorem Core.Rearmed.awake {c : Core} (h : c.Rearmed) : c.Awake :=
  h.imp_right fun ⟨e, he, hr⟩ => ⟨e, he, Entry.stirs_of_rearms hr⟩

/-- Nothing happened that begins or ends a session. -/
def Core.Extends (c c' : Core) : Prop :=
  c'.state = c.state ∧
    ∃ es, c'.log = es ++ c.log ∧ ∀ e ∈ es, e.isLife = false ∧ e.isStop = false

namespace Core.Extends

variable {c c' c'' : Core}

theorem refl (c : Core) : c.Extends c := ⟨rfl, [], rfl, nofun⟩

theorem trans (h : c.Extends c') (h' : c'.Extends c'') : c.Extends c'' := by
  obtain ⟨hstate, es, hlog, hes⟩ := h
  obtain ⟨hstate', es', hlog', hes'⟩ := h'
  refine ⟨hstate'.trans hstate, es' ++ es, by rw [hlog', hlog, List.append_assoc], fun e he => ?_⟩
  rcases List.mem_append.mp he with he | he
  · exact hes' e he
  · exact hes e he

theorem one {e : Entry} (hstate : c'.state = c.state) (hlog : c'.log = e :: c.log)
    (he : e.isLife = false ∧ e.isStop = false) : c.Extends c' :=
  ⟨hstate, [e], hlog, by simpa using he⟩

theorem cleared (h : c.Extends c') (hc : Cleared c.log) : Cleared c'.log := by
  obtain ⟨_, es, hlog, hes⟩ := h
  rw [hlog]
  exact hc.append fun e he => Entry.isStarted_of_isLife (hes e he).1

theorem lastLife (h : c.Extends c') : AirplaySender.lastLife c'.log = AirplaySender.lastLife c.log := by
  obtain ⟨_, es, hlog, hes⟩ := h
  rw [hlog, lastLife_append fun e he => (hes e he).1]

theorem mem_afterStop (h : c.Extends c') {e : Entry} (he : e ∈ afterStop c.log) :
    e ∈ afterStop c'.log := by
  obtain ⟨_, es, hlog, hes⟩ := h
  rw [hlog, afterStop_append fun e he => ⟨Entry.isStarted_of_isLife (hes e he).1, (hes e he).2⟩]
  exact List.mem_append_right _ he

theorem rearmed (h : c.Extends c') (hr : c.Rearmed) : c'.Rearmed := by
  rcases hr with hst | ⟨e, he, hs⟩
  · exact .inl (by rw [h.1]; exact hst)
  · exact .inr ⟨e, h.mem_afterStop he, hs⟩

end Core.Extends

/-- The stages of pairing. -/
def PairStage.pairing : PairStage → Bool
  | .authSetup | .pinStart | .setupM2 | .setupM4 | .setupM6 | .verifyM2 | .verifyDone => true
  | _ => false

/-- The stages of HomeKit pairing. -/
def PairStage.hap : PairStage → Bool
  | .pinStart | .setupM2 | .setupM4 | .setupM6 | .verifyM2 | .verifyDone => true
  | _ => false

/-- The stages behind authentication. -/
def PairStage.postAuth (stage : PairStage) : Prop :=
  stage = .ap2Info ∨ stage = .ap2Session ∨ stage = .ap2Record ∨ stage = .ap2Stream

/-- The stage changes that change nothing else. -/
inductive Follows : PairStage → PairStage → Prop
  | authSetup : Follows .none .authSetup
  | pinStart : Follows .none .pinStart
  | pinAgain : Follows .setupM2 .pinStart
  | setup : Follows .none .setupM2
  | setupAfterPin : Follows .pinStart .setupM2
  | verify : Follows .none .verifyM2
  | verifyAfterSetup : Follows .setupM6 .verifyM2
  | info : Follows .done .ap2Info
  | session : Follows .ap2Info .ap2Session
  | record : Follows .ap2Session .ap2Record

/-- The method of the setup request that belongs to a stage. -/
def PairStage.setupMethod : PairStage → Option Octets
  | .ap2Info => some (ascii "GET")
  | .ap2Session => some (ascii "SETUP")
  | .ap2Record => some (ascii "RECORD")
  | _ => Option.none

theorem PairStage.postAuth_of_setupMethod {stage : PairStage} {method : Octets}
    (h : stage.setupMethod = some method) : stage.postAuth := by
  cases stage with
  | ap2Info => exact .inl rfl
  | ap2Session => exact .inr (.inl rfl)
  | ap2Record => exact .inr (.inr (.inl rfl))
  | _ => cases h

theorem PairStage.postAuth.not_pairing {stage : PairStage} (h : stage.postAuth) :
    stage.pairing = false ∧ stage.hap = false := by
  rcases h with rfl | rfl | rfl | rfl <;> exact ⟨rfl, rfl⟩

/-- The pairing attempts a session makes: its own method, and the two fallbacks. -/
def Attempt (c : Core) (auth : Auth) : Prop :=
  (c.stage = .none ∧ auth = c.auth ∧ (auth = .hapTransient ∨ auth = .hapPin)) ∨
    (c.stage = .setupM2 ∧ c.auth = .hapTransient ∧ auth = .hapPin) ∨
    (c.stage = .pinStart ∧ auth = .hapTransient ∧ c.log.head? = some .refused403)

/-- The next request of the AirPlay 1 handshake. -/
inductive Succeeds : Octets → Octets → Prop
  | announce : Succeeds (ascii "OPTIONS") (ascii "ANNOUNCE")
  | setup : Succeeds (ascii "ANNOUNCE") (ascii "SETUP")
  | record : Succeeds (ascii "SETUP") (ascii "RECORD")

/-- The requests of the AirPlay 1 handshake. -/
def isHandshake (method : Octets) : Prop :=
  method = ascii "OPTIONS" ∨ method = ascii "ANNOUNCE" ∨ method = ascii "SETUP" ∨
    method = ascii "RECORD"

/-- The newest entry is a response with this status. -/
def Core.Answering (c : Core) (method : Octets) (isHttp : Bool) (code : ℤ) : Prop :=
  ∃ live status headers body,
    c.log.head? = some (.dispatched live method isHttp status headers body) ∧ toInt status = code

/-- Why a request is sent. -/
inductive Cause (k : Level) (c : Core) : Octets → Bool → Prop
  /-- A pairing post, behind the change of stage it belongs to. -/
  | post (hhead : c.log.head? = some (.staged c.stage)) (hstage : c.stage.pairing = true)
      (hwait : c.waiting = false) (hkinds : true ∉ c.kinds) (hlevel : k = .app → c.stage = .setupM4) :
      Cause k c (ascii "POST") true
  /-- The first request of the AirPlay 1 handshake. -/
  | options (hhead : ∃ auth paired, c.log.head? = some (.cleared auth false paired)) :
      Cause k c (ascii "OPTIONS") false
  /-- The next one. -/
  | next {last method : Octets} {code : ℤ} (hanswer : c.Answering last false code)
      (hcode : 200 ≤ code ∧ code < 300) (hnext : Succeeds last method) (hc : Cleared c.log) :
      Cause k c method false
  /-- What a stream sends. -/
  | stream {method : Octets} (hst : c.state = .streaming)
      (hm : method = ascii "SET_PARAMETER" ∨ method = ascii "POST" ∨ method = ascii "FEEDBACK") :
      Cause k c method false

/-- The event port of a session SETUP reply, 0 where it names none. -/
def replyEventPort (body : Octets) : UInt16 :=
  (((Bplist.decode body).bind (Bplist.Value.find (ascii "eventPort"))).map portOf).getD 0

/-- The reply to the session SETUP was taken, and the event connection it asks for requested. -/
def EventTaken (log : List Entry) : Prop :=
  ∃ live method status headers body rest,
    (log = .dispatched live method true status headers body :: rest ∧ replyEventPort body = 0) ∨
    ∃ host port, log = .tcpConnect .event host port ::
      .dispatched live method true status headers body :: rest ∧
      (replyEventPort body ≠ 0 → port = replyEventPort body)

/-- The newest entry is the response to a pairing post or a setup request. -/
def Core.Replied (c : Core) : Prop :=
  ∃ live method status headers body,
    c.log.head? = some (.dispatched live method true status headers body)

/-- What each stage of the AirPlay 2 setup waits for. -/
inductive Summons (c : Core) : PairStage → Prop
  | info (h : ∃ auth paired, c.log.head? = some (.cleared auth true paired)) : Summons c .ap2Info
  | session (h : c.Replied) : Summons c .ap2Session
  | record (h : EventTaken c.log) : Summons c .ap2Record

/-- The reply that lets the stream begin. -/
def Core.Entrance (c : Core) : Prop :=
  (∃ code, c.Answering (ascii "RECORD") false code ∧ 200 ≤ code ∧ code < 300) ∨
    (c.stage = .ap2Stream ∧ ∃ live method status headers body,
      c.log.head? = some (.dispatched live method true status headers body) ∧
        200 ≤ toInt status ∧ toInt status < 300 ∧ streamPort body "dataPort" ≠ 0)

/-- When a callback is fired. -/
inductive Due (c : Core) : Event → Prop
  | launched (h : lastLife c.log = some .entered) (hst : c.state = .streaming) :
      Due c (.launched true [])
  | unbound (why : Octets) (h : ∃ auth airplay2 strict,
      c.log.head? = some (.started auth airplay2 strict)) (hidle : c.state = .idle) :
      Due c (.launched false why)
  | failed (why : Octets) (h : c.log.head? = some (.failed true)) : Due c (.launched false why)
  | closed (h : ∃ starting, c.log.head? = some (.reported starting)) : Due c .closed
  | pinRequired (name : Octets) (hlive : c.state ≠ .idle) : Due c (.pinRequired name)
  | credentialsObtained (deviceId json : Octets) (hlive : c.state ≠ .idle) :
      Due c (.credentialsObtained deviceId json)

/-- Where a null pointer would be dereferenced. -/
def Core.Faulty (c : Core) : Prop :=
  (c.keys = none ∧ (c.stage.hap = true ∨ c.stage.postAuth)) ∨
    (c.stage = .setupM4 ∧ ∃ keys, c.keys = some keys ∧ keys.srpK = none) ∨
    (∃ live, c.log.head? = some (.resumed live false)) 

/-- The `shk` of the first stream that a stream SETUP asks for. -/
def offeredKey (body : Octets) : Option Octets :=
  match (firstStream body).bind (Bplist.Value.find (ascii "shk")) with
  | some (.data shk) => some shk
  | _ => none

/-- The body of a request, behind its head: as much as its `Content-Length` says. -/
def HasBody (text body : Octets) : Prop :=
  ∃ head, text = head ++ headerText "Content-Length" (dec body.length) ++ crlf ++ body

/-- A stream SETUP that offers an audio key: its body is a plist with this `shk`. -/
def Offers (text shk : Octets) : Prop := ∃ body, HasBody text body ∧ offeredKey body = some shk

section Writing

variable [Primitives]

/-- How many frames a text takes on the control channel: none in plaintext. -/
def Core.frameCount (c : Core) (text : Octets) : ℕ :=
  if c.encrypted = true ∧ c.keys.isSome then (chunks text).length else 0

/-- The entries of writing a text to the control channel: in plaintext, or as frames. -/
def Core.writeEntries (c : Core) (text : Octets) : List Entry :=
  match c.encrypted, c.keys with
  | true, some keys =>
    .tcpSend .control (frames keys.controlOut c.sendCtr (chunks text)) ::
      frameSeals keys.controlOut c.sendCtr (chunks text)
  | _, _ => [.tcpSend .control text]

/-- The core after a request was queued and written. -/
def Core.request (c : Core) (method : Octets) (isHttp : Bool) (text : Octets) : Core :=
  { c with
    cseq := wrap32 (c.cseq + 1)
    methods := c.methods ++ [method]
    kinds := c.kinds ++ [isHttp]
    sendCtr := c.sendCtr + UInt64.ofNat (c.frameCount text)
    log := c.writeEntries text ++ .requested c.cseq method isHttp text :: c.log }

omit [Primitives] in
theorem mem_frameSeals {key : Octets} {e : Entry} :
    ∀ {chunks : List Octets} {ctr : UInt64}, e ∈ frameSeals key ctr chunks →
      ∃ nonce aad pt, e = .sealed .control key nonce aad pt
  | [], _, h => by simp [frameSeals] at h
  | chunk :: chunks, ctr, h => by
    rw [frameSeals, List.mem_append] at h
    rcases h with h | h
    · exact mem_frameSeals h
    · exact ⟨_, _, _, List.mem_singleton.mp h⟩

theorem mem_writeEntries {c : Core} {text : Octets} {e : Entry} (h : e ∈ c.writeEntries text) :
    (∃ bytes, e = .tcpSend .control bytes) ∨
      ∃ key nonce aad pt, e = .sealed .control key nonce aad pt := by
  unfold Core.writeEntries at h
  split at h
  · rcases List.mem_cons.mp h with h | h
    · exact .inl ⟨_, h⟩
    · exact .inr ⟨_, mem_frameSeals h⟩
  · exact .inl ⟨_, List.mem_singleton.mp h⟩

/-- The entries of queueing and writing a request. -/
def Core.requestEntries (c : Core) (method : Octets) (isHttp : Bool) (text : Octets) : List Entry :=
  c.writeEntries text ++ [.requested c.cseq method isHttp text]

theorem Core.request_log {c : Core} {method text : Octets} {isHttp : Bool} :
    (c.request method isHttp text).log = c.requestEntries method isHttp text ++ c.log := by
  simp [Core.request, Core.requestEntries]

theorem mem_requestEntries {c : Core} {method text : Octets} {isHttp : Bool} {e : Entry}
    (h : e ∈ c.requestEntries method isHttp text) :
    (∃ bytes, e = .tcpSend .control bytes) ∨
      (∃ key nonce aad pt, e = .sealed .control key nonce aad pt) ∨
      e = .requested c.cseq method isHttp text := by
  rcases List.mem_append.mp h with h | h
  · exact (mem_writeEntries h).imp_right .inl
  · exact .inr (.inr (List.mem_singleton.mp h))

theorem isStarted_writeEntries {c : Core} {text : Octets} :
    ∀ e ∈ c.writeEntries text, e.isStarted = false := by
  intro e he
  rcases mem_writeEntries he with ⟨_, rfl⟩ | ⟨_, _, _, _, rfl⟩ <;> rfl

theorem Core.request_extends (c : Core) (method : Octets) (isHttp : Bool) (text : Octets) :
    c.Extends (c.request method isHttp text) := by
  refine ⟨rfl, _, Core.request_log, fun e he => ?_⟩
  rcases mem_requestEntries he with ⟨_, rfl⟩ | ⟨_, _, _, _, rfl⟩ | rfl <;> exact ⟨rfl, rfl⟩

/-- The core after its timers were stopped to end the session. -/
def Core.ending (c : Core) (teardown : Bool) : Core :=
  { c with timers := {}, log := .ending c.state c.waiting teardown :: c.log }

/-- The core after the session was ended. -/
def Core.ended (c : Core) : Core := { c.ending false with state := .idle }

/-- The core after `stop` closed the control connection. -/
def Core.closed (c : Core) : Core :=
  { c with state := .idle, log := .tcpClose .control true :: c.log }

/-- Arm a timer. -/
def Core.arm (c : Core) (t : TimerId) : Core :=
  { c with timers := c.timers.arm t, log := .armed t :: c.log }

omit [Primitives] in
theorem Core.arm_extends (c : Core) (t : TimerId) : c.Extends (c.arm t) :=
  .one rfl rfl ⟨rfl, rfl⟩

/-- `sendRequest_` opens a fresh window where the session is not streaming yet. -/
def Core.rewinds (c : Core) : Bool := c.state = .handshake || c.state = .pairing

/-- The entries of opening it. -/
def Core.rewindEntries (c : Core) : List Entry := bif c.rewinds then [.armed .timeout] else []

/-- The core after it was opened. -/
def Core.rewind (c : Core) : Core :=
  { c with
    timers := bif c.rewinds then c.timers.arm .timeout else c.timers
    log := c.rewindEntries ++ c.log }

/-- The entries of a delivery to the sealed control channel, newest first. -/
def Core.receiveEntries (c : Core) (key bytes : Octets) : List Entry :=
  controlEntries key (openFrames key (c.encBuf ++ bytes) c.recvCtr).frames ++
    [.delivered (c.state ≠ .idle) bytes]

/-- The core after bytes went through the control frame reader. -/
def Core.receive (c : Core) (key bytes : Octets) : Core :=
  let o := openFrames key (c.encBuf ++ bytes) c.recvCtr
  { c with
    encBuf := o.rest
    recvCtr := o.ctr
    rxBuf := c.rxBuf ++ o.plaintext
    log := c.receiveEntries key bytes ++ c.log }

/-- The core after bytes went through the event frame reader. -/
def Core.receiveEvent (c : Core) (key bytes : Octets) : Core :=
  let o := openFrames key (c.eventEncBuf ++ bytes) c.eventRecvCtr
  { c with
    eventEncBuf := if o.failed then [] else o.rest
    eventRecvCtr := o.ctr
    eventPlainBuf := c.eventPlainBuf ++ o.plaintext
    log := eventReadEntries key (c.eventEncBuf ++ bytes) c.eventRecvCtr ++ c.log }

end Writing

/-! ## 5. Steps -/

section Steps

variable [Primitives]

/-- A proof of the server was checked in the last attempt, and verified. -/
def ServerProven (log : List Entry) : Prop :=
  ∃ client serverM2, Entry.serverProof client serverM2 ∈ attemptOf log ∧
    client.verifyServerProof serverM2 = true

/-- A signature of the receiver was checked in the last attempt under a long-term key, and
verified. -/
def Signed (log : List Entry) (ltpk : Octets) : Prop :=
  ltpk ≠ [] ∧ ∃ message sig, Entry.signature ltpk message sig ∈ attemptOf log ∧
    ed25519Verify ltpk message sig = true

/-- Every way the core changes. -/
inductive Step : Level → Core → Core → Prop
  -- configuration and lifecycle
  | configure {k} (c : Core) (auth : Auth) (airplay2 : Bool) :
      Step k c { c with
        auth := auth, airplay2 := airplay2, log := .configured auth airplay2 c.strict :: c.log }
  | guard {k} (c : Core) (strict : Bool) :
      Step k c { c with strict := strict, log := .guarded strict :: c.log }
  | restart {k} (c : Core) (h : c.state = .idle) : Step k c c.fresh
  | connecting {k} (c : Core) (h : c.Untouched) (hidle : c.state = .idle)
      (hhead : ∃ auth airplay2 strict, c.log.head? = some (.started auth airplay2 strict)) :
      Step k c ({ c with state := .connecting, connected := false }.arm .timeout)
  | leave {k} (c : Core) (h : c.state ≠ .idle) : Step k c (c.ending false).closed
  | teardown {k} (c : Core) (text : Octets) (h : c.state ≠ .idle)
      (htext : IsRequest (ascii "TEARDOWN") c.cseq text) :
      Step k c (((c.ending true).request (ascii "TEARDOWN") false text).rewind).closed
  | stopped {k} (c : Core) (h : c.state = .idle) : Step k c { c with log := .stopped :: c.log }
  | ended {k} (c : Core) : Step k c c.ended
  | disconnect {k} (c : Core) (h : c.state = .idle) : Step k c { c with connected := false }
  | hangUp (c : Core) : Step .host c { c.ended with connected := false }
  | expirePin (c : Core) (h : c.waiting = true) :
      Step .host c { c with waiting := false }.ended
  | failed {k} (c : Core) (starting : Bool)
      (h : ∃ state waiting, c.log.head? = some (.ending state waiting false) ∧
        starting = decide (state ≠ .streaming)) :
      Step k c { c with log := .failed starting :: c.log }
  | reported {k} (c : Core) (starting : Bool)
      (h : starting = false → c.log.head? = some (.failed false)) :
      Step k c { c with log := .reported starting :: c.log }
  | event {k} (c : Core) (e : Event) (h : Due c e) : Step k c { c with log := .event e :: c.log }
  -- timers
  | arm {k} (c : Core) (t : TimerId) (h : c.Rearmed) (hpin : t ≠ .pinTimeout)
      (hstream : t = .pacer ∨ t = .syncTimer → c.state = .streaming) : Step k c (c.arm t)
  | lapse (c : Core) (timers : Timers)
      (hpacer : timers.pacer = true → c.timers.pacer = true)
      (hsync : timers.syncTimer = true → c.timers.syncTimer = true)
      (hfeedback : timers.feedbackTimer = true → c.timers.feedbackTimer = true)
      (htimeout : timers.timeout = c.timers.timeout ∨
        (timers.timeout = false ∧ (c.waiting = true ∨ c.state = .idle ∨ c.state = .streaming)))
      (hpin : timers.pinTimeout = c.timers.pinTimeout ∨
        (timers.pinTimeout = false ∧ c.waiting = false)) :
      Step .host c { c with timers := timers }
  -- the control channel
  | request {k} (c : Core) (method : Octets) (isHttp : Bool) (text : Octets)
      (h : Cause k c method isHttp) (hawake : c.Awake) (htext : IsRequest method c.cseq text) :
      Step k c (c.request method isHttp text)
  | receivePlain (c : Core) (bytes : Octets) (h : c.encrypted = false ∨ c.keys = none) :
      Step .host c { c with
        rxBuf := c.rxBuf ++ bytes
        log := .received .plain bytes :: .delivered (c.state ≠ .idle) bytes :: c.log }
  | receiveSealed (c : Core) (keys : Keys) (bytes : Octets) (henc : c.encrypted = true)
      (hkeys : c.keys = some keys)
      (hgood : (openFrames keys.controlIn (c.encBuf ++ bytes) c.recvCtr).failed = false) :
      Step .host c (c.receive keys.controlIn bytes)
  | receiveBroken (c : Core) (keys : Keys) (bytes : Octets) (henc : c.encrypted = true)
      (hkeys : c.keys = some keys)
      (hbad : (openFrames keys.controlIn (c.encBuf ++ bytes) c.recvCtr).failed = true) :
      Step .host c (c.receive keys.controlIn bytes).ended
  | take (c : Core) (bytes rest : Octets) (h : c.rxBuf = bytes ++ rest) (hne : bytes ≠ []) :
      Step .host c { c with rxBuf := rest, log := .took bytes :: c.log }
  | ignored (c : Core) : Step .host c { c with log := .ignored :: c.log }
  | unexpected (c : Core) (h : c.methods = []) : Step .host c { c with log := .unexpected :: c.log }
  | dispatch (c : Core) (method : Octets) (methods : List Octets) (status : Octets)
      (headers : Headers) (body : Octets) (h : c.methods = method :: methods) :
      Step .host c { c with
        methods := methods, kinds := c.kinds.tail
        log := .dispatched (c.state ≠ .idle) method (c.kinds.headD false) status headers body ::
          c.log }
  | retry (c : Core) (method : Octets) (h : c.Answering method false 401)
      (hretried : c.retried = false) (hc : Cleared c.log) : Step .host c { c with retried := true }
  | reask (c : Core) (method text : Octets) (h : c.Answering method false 401)
      (hm : isHandshake method) (hretried : c.retried = false) (hc : Cleared c.log)
      (hawake : c.Awake) (htext : IsRequest method c.cseq text) :
      Step .host c (({ c with retried := true } : Core).request method false text)
  -- the event channel
  | receiveEvent (c : Core) (keys : Keys) (bytes : Octets) (hlive : c.state ≠ .idle)
      (hkeys : c.keys = some keys) (hin : keys.eventIn.length = 32)
      (hout : keys.eventOut.length = 32) : Step .host c (c.receiveEvent keys.eventIn bytes)
  | answerEvent (c : Core) (keys : Keys) (total : ℕ) (resp : Octets) (hlive : c.state ≠ .idle)
      (hkeys : c.keys = some keys) (hout : keys.eventOut.length = 32) :
      Step .host c { c with
        eventPlainBuf := c.eventPlainBuf.drop total, eventSendCtr := c.eventSendCtr + 1
        log := .tcpSend .event (frame keys.eventOut c.eventSendCtr resp) ::
          .sealed .event keys.eventOut (counterNonce8 c.eventSendCtr) (leBytes 2 resp.length)
            resp :: c.log }
  | loseAnswer (c : Core) (keys : Keys) (total : ℕ) (hlive : c.state ≠ .idle)
      (hkeys : c.keys = some keys) (hout : keys.eventOut.length = 32) :
      Step .host c { c with
        eventPlainBuf := c.eventPlainBuf.drop total, eventSendCtr := c.eventSendCtr + 1
        log := .answerLost :: c.log }
  -- pairing
  | beginPairing (c : Core) (h : c.state = .connecting) :
      Step .host c { c with state := .pairing, connected := true }
  | refused403 (c : Core) (h : c.stage = .pinStart) (htried : c.tried403 = false) :
      Step .host c { c with tried403 := true, log := .refused403 :: c.log }
  | attempt (c : Core) (auth : Auth) (h : Attempt c auth) (hwait : c.waiting = false)
      (hstate : c.state = .pairing) :
      Step .host c { c with auth := auth, keys := some {}, log := .pairing auth :: c.log }
  | stage (c : Core) (stage : PairStage) (h : Follows c.stage stage) (hp : stage.pairing = true)
      (hwait : c.waiting = false)
      (hstate : c.state = .pairing ∨ (c.state = .idle ∧ c.stage = .setupM6))
      (hkeyed : stage.hap = true → c.keys ≠ none)
      (hagain : c.stage = .setupM2 → c.log.head? = some (.pairing .hapPin)) :
      Step .host c { c with stage := stage, log := .staged stage :: c.log }
  | authSetupDone (c : Core) (h : c.stage = .authSetup) (hauth : c.auth = .authSetup)
      (hwait : c.waiting = false) (hstate : c.state = .pairing) (hkeys : c.keys = none) :
      Step .host c { c with stage := .done }
  | verified (c : Core) (h : c.stage = .verifyDone) (hwait : c.waiting = false)
      (hstate : c.state = .pairing) : Step .host c { c with stage := .done }
  | wait (c : Core) (h : c.stage = .setupM2) (hhttp : true ∉ c.kinds) (hauth : c.auth ≠ .hapTransient)
      (hstate : c.state = .pairing) :
      Step .host c ({ c with waiting := true, timers := { c.timers with timeout := false } }.arm
        .pinTimeout)
  | typed {k} (c : Core) (code : Octets) (h : c.waiting = true) :
      Step k c (({ c with
        waiting := false
        timers := { c.timers with pinTimeout := false }
        log := .typed (c.state ≠ .idle) code :: c.log } : Core).arm .timeout)
  | srpStart {k} (c : Core) (keys : Keys) (h : c.stage = .setupM2) (hwait : c.waiting = false)
      (hkeys : c.keys = some keys) : Step k c { c with keys := some { keys with srpK := some [] } }
  | srpAgreed {k} (c : Core) (keys : Keys) (pin K : Octets) (h : c.stage = .setupM2)
      (hwait : c.waiting = false) (hkeys : c.keys = some keys) (hK : K.length = 64)
      (hpin : (c.auth = .hapTransient ∧ pin = ascii "3939") ∨
        ∃ live, Entry.typed live pin ∈ sessionOf c.log) :
      Step k c { c with
        keys := some { keys with srpK := some K }, stage := .setupM4
        log := .staged .setupM4 :: .srpAgreed pin K :: c.log }
  | serverProof (c : Core) (client : SrpClient) (serverM2 : Octets) (h : c.stage = .setupM4) :
      Step .host c { c with log := .serverProof client serverM2 :: c.log }
  | transientKeys (c : Core) (keys : Keys) (K out inn : Octets) (h : c.stage = .setupM4)
      (hwait : c.waiting = false) (hauth : c.auth = .hapTransient) (hkeys : c.keys = some keys)
      (hsrp : keys.srpK = some K) (hstate : c.state = .pairing)
      (hproof : c.strict = true → ServerProven c.log) :
      Step .host c { c with
        keys := some { keys with secret := K, controlOut := out, controlIn := inn }, stage := .done
        log := .concluded c.auth :: c.log }
  | setupM5 (c : Core) (keys : Keys) (K nonce pt : Octets) (h : c.stage = .setupM4)
      (hwait : c.waiting = false) (hauth : c.auth ≠ .hapTransient) (hkeys : c.keys = some keys)
      (hsrp : keys.srpK = some K) (hstate : c.state = .pairing) :
      Step .host c { c with
        setupKey := hkdfSha512 "Pair-Setup-Encrypt-Salt" "Pair-Setup-Encrypt-Info" K
        stage := .setupM6
        log := .staged .setupM6 :: .sealed .setupM5
          (hkdfSha512 "Pair-Setup-Encrypt-Salt" "Pair-Setup-Encrypt-Info" K) nonce [] pt :: c.log }
  | learn (c : Core) (keys : Keys) (ltpk : Octets) (h : c.stage = .setupM6)
      (hkeys : c.keys = some keys) (hkey : c.setupKey.length = 32) :
      Step .host c { c with
        keys := some { keys with accessoryLtpk := ltpk }
        log := .ltpkLearned c.setupKey ltpk :: c.log }
  | resumed (c : Core) : Step .host c { c with
        log := .resumed (c.state ≠ .idle) c.keys.isSome :: c.log }
  | forget (c : Core) : Step .host c { c with setupKey := [] }
  | stored (c : Core) (keys : Keys) (json : Octets) (creds : Creds) (h : c.stage = .none)
      (hkeys : c.keys = some keys) (hcreds : usableCreds json = some creds) :
      Step .host c { c with
        keys := some { keys with accessoryLtpk := creds.ltpk }
        log := .ltpkStored json creds.ltpk :: c.log }
  | agreed (c : Core) (keys : Keys) (secret : Octets) (h : c.stage = .verifyM2)
      (hkeys : c.keys = some keys) : Step .host c { c with keys := some { keys with secret := secret } }
  | signature (c : Core) (keys : Keys) (message sig : Octets) (h : c.stage = .verifyM2)
      (hkeys : c.keys = some keys) :
      Step .host c { c with log := .signature keys.accessoryLtpk message sig :: c.log }
  | verifyKeys (c : Core) (keys : Keys) (key nonce pt out inn evOut evIn : Octets)
      (h : c.stage = .verifyM2) (hwait : c.waiting = false) (hkeys : c.keys = some keys)
      (hsecret : keys.secret.length = 32) (hstate : c.state = .pairing)
      (hproof : c.strict = true → Signed c.log keys.accessoryLtpk) :
      Step .host c { c with
        keys := some { keys with
          controlOut := out, controlIn := inn, eventOut := evOut, eventIn := evIn }
        stage := .verifyDone
        log := .staged .verifyDone :: .sealed .verifyM3 key nonce [] pt :: c.log }
  -- past authentication
  | unretry (c : Core) (h : c.stage = .done) (hstate : c.state = .pairing) :
      Step .host c { c with retried := false }
  | clear (c : Core) (setup2 : Bool) (h : (c.stage = .done ∧ setup2 = c.airplay2) ∨
      (c.stage = .none ∧ (c.auth = .none ∨ c.auth = .password) ∧ setup2 = false))
      (hstate : c.state = .pairing) (hretried : c.retried = false) (hkinds : true ∉ c.kinds) :
      Step .host c { c with
        state := .handshake, log := .cleared c.auth setup2 c.keys.isSome :: c.log }
  | switch (c : Core) (keys : Keys) (h : c.stage = .done) (henc : c.encrypted = false)
      (hstate : c.state = .pairing) (hair : c.airplay2 = true) (hkeys : c.keys = some keys)
      (hout : keys.controlOut.length = 32) (hin : keys.controlIn.length = 32) :
      Step .host c { c with
        encrypted := true, sendCtr := 0, recvCtr := 0, encBuf := []
        log := .switched keys.controlOut keys.controlIn c.rxBuf :: c.log }
  | setup (c : Core) (stage : PairStage) (method text : Octets) (h : Follows c.stage stage)
      (hmethod : stage.setupMethod = some method) (hlive : c.Early) (hwait : c.waiting = false)
      (hkinds : true ∉ c.kinds) (hc : Cleared c.log) (hsummons : Summons c stage)
      (htext : IsRequest method c.cseq text)
      (hinfo : stage = .ap2Info → requestHead (ascii "GET") (ascii "/info") "RTSP/1.0" c.cseq <+: text) :
      Step .host c (({ c with stage := stage, log := .staged stage :: c.log } : Core).request method
        true text)
  | connectEvent (c : Core) (host : Octets) (port : UInt16) (h : c.stage = .ap2Session) :
      Step .host c { c with log := .tcpConnect .event host port :: c.log }
  | stream (c : Core) (keys : Keys) (text : Octets) (h : c.stage = .ap2Record) (hlive : c.Early)
      (hwait : c.waiting = false) (hkinds : true ∉ c.kinds) (hkeys : c.keys = some keys)
      (htext : IsRequest (ascii "SETUP") c.cseq text) (hoffer : Offers text (keys.secret.take 32))
      (hreply : c.Replied) :
      Step .host c ({ c with
        keys := some { keys with
          audioKey := keys.secret.take 32, audioNonce := 0, encryptAudio := true }
        stage := .ap2Stream
        log := .staged .ap2Stream :: c.log }.request (ascii "SETUP") true text)
  | enter (c : Core) (h : c.Entrance) (hc : Cleared c.log) (hlive : c.Awake)
      (hst : c.state ≠ .streaming) :
      Step .host c { c with
        state := .streaming, timers := { c.timers with timeout := false }, log := .entered :: c.log }
  | sealAudio (c : Core) (keys : Keys) (aad pt : Octets) (hst : c.state = .streaming)
      (hkeys : c.keys = some keys) (haudio : keys.encryptAudio = true) :
      Step .host c { c with
        keys := some { keys with audioNonce := keys.audioNonce + 1 }
        log := .sealed .audio keys.audioKey (counterNonce8 keys.audioNonce) aad pt :: c.log }
  | datagram (c : Core) (u : Udp) (dest : Endpoint) (bytes : Octets) (hlive : c.state ≠ .idle)
      (hmedia : isMedia u bytes → c.state = .streaming) :
      Step .host c { c with log := .udpSend u dest bytes :: c.log }
  -- what should not happen
  | derefNull {k} (c : Core) (h : c.Faulty) : Step k c { c with log := .derefNull :: c.log }
  | keyRefused (c : Core) (keys : Keys) (hkeys : c.keys = some keys)
      (haudio : keys.encryptAudio = true) (hlen : keys.audioKey.length ≠ 32) :
      Step .host c { c with log := .keyRefused .audio :: c.log }

/-- What can happen inside a call of the application can happen anywhere. -/
theorem Step.ofApp {k : Level} {c c' : Core} (h : Step .app c c') : Step k c c' := by
  cases h with
  | configure => exact .configure ..
  | guard => exact .guard ..
  | restart _ h => exact .restart _ h
  | connecting _ h hidle hhead => exact .connecting _ h hidle hhead
  | leave _ h => exact .leave _ h
  | teardown _ text h htext => exact .teardown _ text h htext
  | stopped _ h => exact .stopped _ h
  | ended => exact .ended _
  | disconnect _ h => exact .disconnect _ h
  | failed _ starting h => exact .failed _ starting h
  | reported _ starting h => exact .reported _ starting h
  | event _ e h => exact .event _ e h
  | arm _ t h hpin hstream => exact .arm _ t h hpin hstream
  | request _ method isHttp text h hawake htext =>
    refine .request _ method isHttp text ?_ hawake htext
    cases h with
    | post hhead hstage hwait hkinds hlevel =>
      exact .post hhead hstage hwait hkinds fun _ => hlevel rfl
    | options hhead => exact .options hhead
    | next hanswer hcode hnext hc => exact .next hanswer hcode hnext hc
    | stream hst hm => exact .stream hst hm
  | typed _ code h => exact .typed _ code h
  | srpStart _ keys h hwait hkeys => exact .srpStart _ keys h hwait hkeys
  | srpAgreed _ keys pin K h hwait hkeys hK hpin =>
    exact .srpAgreed _ keys pin K h hwait hkeys hK hpin
  | derefNull _ h => exact .derefNull _ h

end Steps

end AirplaySender
