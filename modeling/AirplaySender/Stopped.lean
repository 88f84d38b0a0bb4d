/-
# Behind a stop

`stop` may be called from every callback, and whatever the handler around the callback goes on to
do, nothing more leaves the sender: no bytes, no timer, no request (`stop_silences`).

There is an exception: pair-setup goes on behind the callback that hands out the credentials, with
no look at the state (`stopped_resumed`).  `stop_silences` names it, and the two calls from outside
that act in a session that is over.
-/
import AirplaySender.Timers
import AirplaySender.Lib.Trace

namespace AirplaySender

open Octets Prog Trace

/-! ## 1. What a stopped session does -/

/-- What a stopped session must not do: hand over bytes, arm a timer, queue a request. -/
def Entry.acts : Entry → Bool
  | .tcpSend .. | .udpSend .. | .armed _ | .requested .. => true
  | _ => false

/-- The session was stopped, and nothing has stirred it since. -/
def Stopped : List Entry → Prop
  | [] => False
  | e :: log => e.isStop = true ∨ (e.isStarted = false ∧ e.stirs = false ∧ Stopped log)

/-- A stopped session does not act. -/
def Silent (e : Entry) (older : List Entry) : Prop := Stopped older → e.acts = false

/-- What was done behind the stop so far. -/
structure Still (c : Core) : Prop where
  silent : Always Silent c.log
  idle : Stopped c.log → c.state = .idle

theorem Stopped.calm {log : List Entry} (h : Stopped log) : ∀ e ∈ afterStop log, e.stirs = false := by
  induction log with
  | nil => cases h
  | cons x log ih =>
    intro e he
    rcases h with hstop | ⟨hstarted, hcalm, hlog⟩
    · simp [afterStop, hstop] at he
    · unfold afterStop at he
      rw [List.takeWhile_cons] at he
      split at he
      · rcases List.mem_cons.mp he with rfl | he
        · exact hcalm
        · exact ih hlog e he
      · cases he

theorem Stopped.of_append {es log : List Entry} (hes : ∀ e ∈ es, e.isStop = false)
    (h : Stopped (es ++ log)) : Stopped log := by
  induction es with
  | nil => exact h
  | cons e es ih =>
    rcases h with hstop | ⟨_, _, h⟩
    · exact absurd hstop (Bool.eq_false_iff.mp (hes e List.mem_cons_self))
    · exact ih (fun x hx => hes x (List.mem_cons_of_mem e hx)) h

theorem Stopped.append {es log : List Entry}
    (hes : ∀ e ∈ es, e.isStarted = false ∧ e.stirs = false) (h : Stopped log) :
    Stopped (es ++ log) := by
  induction es with
  | nil => exact h
  | cons e es ih =>
    obtain ⟨hstarted, hcalm⟩ := hes e List.mem_cons_self
    exact .inr ⟨hstarted, hcalm, ih fun x hx => hes x (List.mem_cons_of_mem e hx)⟩

/-- A session that is awake was not stopped, or was stirred. -/
theorem Still.not_stopped {c : Core} (h : Still c) (hawake : c.Awake) : ¬ Stopped c.log := by
  intro hstop
  rcases hawake with hlive | ⟨e, he, hstirs⟩
  · exact hlive (h.idle hstop)
  · exact absurd hstirs (Bool.eq_false_iff.mp (hstop.calm e he))

/-- In a session that was not stopped anything may happen. -/
theorem always_silent {es log : List Entry} (h : Always Silent log) (hlog : ¬ Stopped log)
    (hes : ∀ e ∈ es, e.isStop = false) : Always Silent (es ++ log) := by
  induction es with
  | nil => exact h
  | cons e es ih =>
    have hes' : ∀ x ∈ es, x.isStop = false := fun x hx => hes x (List.mem_cons_of_mem e hx)
    exact ⟨fun hstop => absurd (hstop.of_append hes') hlog, ih hes'⟩

section Still

variable [Primitives] {k : Level} {c c' : Core}

omit [Primitives] in
/-- Entries that are no act and no stop. -/
theorem Still.extend (h : Still c) (es : List Entry) (hlog : c'.log = es ++ c.log)
    (hes : ∀ e ∈ es, e.acts = false ∧ e.isStop = false)
    (hidle : c.state = .idle → c'.state = .idle) : Still c' := by
  constructor
  · rw [hlog]
    exact h.silent.append fun e he _ _ => (hes e he).1
  · rw [hlog]
    exact fun hstop => hidle (h.idle (hstop.of_append fun e he => (hes e he).2))

omit [Primitives] in
/-- Entries of a session that was not stopped. -/
theorem Still.act (h : Still c) (hlive : ¬ Stopped c.log) (es : List Entry)
    (hlog : c'.log = es ++ c.log) (hes : ∀ e ∈ es, e.isStop = false) : Still c' := by
  constructor
  · rw [hlog]
    exact always_silent h.silent hlive hes
  · rw [hlog]
    exact fun hstop => absurd (hstop.of_append hes) hlive

omit [Primitives] in
/-- Entries of a session that was not stopped, up to its stop. -/
theorem Still.stop (h : Still c) (hlive : ¬ Stopped c.log) (es : List Entry)
    (hlog : c'.log = .tcpClose .control true :: (es ++ c.log)) (hes : ∀ e ∈ es, e.isStop = false)
    (hidle : c'.state = .idle) : Still c' := by
  refine ⟨?_, fun _ => hidle⟩
  rw [hlog]
  exact ⟨fun _ => rfl, always_silent h.silent hlive hes⟩

theorem isStop_requestEntries {d : Core} {method text : Octets} {isHttp : Bool} :
    ∀ e ∈ d.requestEntries method isHttp text, e.isStop = false := by
  intro e he
  rcases mem_requestEntries he with ⟨_, rfl⟩ | ⟨_, _, _, _, rfl⟩ | rfl <;> rfl

theorem isStop_stagedRequest {d : Core} {method text : Octets} {isHttp : Bool} {stage : PairStage} :
    ∀ e ∈ d.requestEntries method isHttp text ++ [.staged stage], e.isStop = false := by
  intro e he
  rcases List.mem_append.mp he with he | he
  · exact isStop_requestEntries e he
  · rw [List.mem_singleton.mp he]
    rfl

/-- **Every step keeps a stopped session still.** -/
theorem Still.step (h : Still c) (hs : Step k c c') : Still c' := by
  have hawake (hlive : c.state ≠ .idle) : ¬ Stopped c.log := h.not_stopped (.inl hlive)
  cases hs with
  | restart =>
    refine ⟨⟨fun _ => rfl, h.silent⟩, fun hstop => ?_⟩
    simp [Core.fresh, Stopped, Entry.isStop, Entry.isStarted] at hstop
  | connecting _ _ _ hhead =>
    obtain ⟨auth, airplay2, strict, hhead⟩ := hhead
    obtain ⟨rest, hlog⟩ := List.head?_eq_some_iff.mp hhead
    refine h.act ?_ [_] rfl (by simp [Entry.isStop])
    rw [hlog]
    simp [Stopped, Entry.isStop, Entry.isStarted]
  | leave _ hlive => exact h.stop (hawake hlive) [_] rfl (by simp [Entry.isStop]) rfl
  | teardown _ text hlive =>
    refine h.stop (hawake hlive)
      (((c.ending true).request (ascii "TEARDOWN") false text).rewindEntries ++
        ((c.ending true).requestEntries (ascii "TEARDOWN") false text ++
          [.ending c.state c.waiting true])) ?_ (fun e he => ?_) rfl
    · simp [Core.closed, Core.rewind, Core.request, Core.requestEntries, Core.ending]
    rcases List.mem_append.mp he with he | he
    · rw [mem_rewindEntries he]
      rfl
    rcases List.mem_append.mp he with he | he
    · exact isStop_requestEntries e he
    · rw [List.mem_singleton.mp he]
      rfl
  | arm _ t hrearmed =>
    exact h.act (h.not_stopped hrearmed.awake) [_] rfl (by simp [Entry.isStop])
  | request _ method isHttp text _ hawake =>
    exact h.act (h.not_stopped hawake) _ Core.request_log isStop_requestEntries
  | reask _ method text _ _ _ _ hawake =>
    exact h.act (h.not_stopped hawake) _ Core.request_log isStop_requestEntries
  | setup _ stage method text _ _ hlive =>
    exact h.act (hawake hlive.1)
      (Core.requestEntries { c with stage := stage, log := .staged stage :: c.log } method true text ++
        [.staged stage]) (by simp [Core.request_log]) isStop_stagedRequest
  | stream _ keys text _ hlive =>
    exact h.act (hawake hlive.1)
      (Core.requestEntries { c with
          keys := some { keys with
            audioKey := keys.secret.take 32, audioNonce := 0, encryptAudio := true }
          stage := .ap2Stream
          log := .staged .ap2Stream :: c.log } (ascii "SETUP") true text ++ [.staged .ap2Stream])
      (by simp [Core.request_log]) isStop_stagedRequest
  | receiveSealed _ keys bytes =>
    refine h.extend _ rfl (fun e he => ?_) id
    rcases mem_receiveEntries he with ⟨_, _, rfl⟩ | rfl <;> exact ⟨rfl, rfl⟩
  | receiveBroken _ keys bytes =>
    refine h.extend (.ending c.state c.waiting false :: c.receiveEntries keys.controlIn bytes)
      rfl (fun e he => ?_) fun _ => rfl
    rcases List.mem_cons.mp he with rfl | he
    · exact ⟨rfl, rfl⟩
    rcases mem_receiveEntries he with ⟨_, _, rfl⟩ | rfl <;> exact ⟨rfl, rfl⟩
  | receiveEvent _ keys bytes =>
    refine h.extend _ rfl (fun e he => ?_) id
    rcases mem_eventReadEntries he with rfl | ⟨_, _, rfl⟩ | rfl <;> exact ⟨rfl, rfl⟩
  | answerEvent _ keys total resp hlive =>
    exact h.act (hawake hlive) [_, _] rfl (by simp [Entry.isStop])
  | datagram _ u dest bytes hlive =>
    exact h.act (hawake hlive) [_] rfl (by simp [Entry.isStop])
  | wait _ _ _ _ hst =>
    exact h.act (hawake (by rw [hst]; simp)) [_] rfl (by simp [Entry.isStop])
  | typed _ code =>
    by_cases hlive : c.state = .idle
    · -- the PIN stirs the session before its timer is armed
      refine ⟨⟨fun hstop => ?_, fun _ => rfl, h.silent⟩, fun _ => hlive⟩
      simp [Stopped, Entry.isStop, Entry.stirs, hlive] at hstop
    · exact h.act (hawake hlive) [_, _] rfl (by simp [Entry.isStop])
  | ended | hangUp | expirePin =>
    exact h.extend [_] rfl (by simp [Entry.acts, Entry.isStop]) fun _ => rfl
  | beginPairing _ hst =>
    exact h.act (hawake (by rw [hst]; simp)) [] rfl (by simp)
  | clear _ _ _ hst =>
    exact h.act (hawake (by rw [hst]; simp)) [_] rfl (by simp [Entry.isStop])
  | enter _ _ _ hawake =>
    exact h.act (h.not_stopped hawake) [_] rfl (by simp [Entry.isStop])
  | disconnect | lapse | retry | authSetupDone | verified | srpStart | forget
  | agreed | unretry => exact h.extend [] rfl (by simp) id
  | receivePlain | srpAgreed | setupM5 | verifyKeys =>
    exact h.extend [_, _] rfl (by simp [Entry.acts, Entry.isStop]) id
  | _ => exact h.extend [_] rfl (by simp [Entry.acts, Entry.isStop]) id

/-- **Behind `stop`**, wherever it was called from, nothing is sent, no timer is armed and no
request is queued until the next `start`, and the sender is idle: unless a PIN is submitted to the
idle sender, pair-setup goes on behind its callback, or a response is acted on. -/
theorem stop_silences {w : World} {later newer older : List Entry} (h : Reachable w)
    (hlog : w.log = later ++ (newer ++ .tcpClose .control true :: older))
    (hnewer : ∀ e ∈ newer, e.isStarted = false ∧ e.stirs = false) :
    (∀ e ∈ newer, e.acts = false) ∧ (later = [] → w.s.state = .idle) := by
  have hstill : Still (coreOf w) :=
    h.induct ⟨trivial, False.elim⟩ fun _ hs hi => hi.step hs
  have hsilent : Always Silent w.log := hstill.silent
  have hclose : Stopped (.tcpClose .control true :: older) := .inl rfl
  constructor
  · intro e he
    obtain ⟨after, before, rfl⟩ := List.append_of_mem he
    have hsuffix : e :: (before ++ .tcpClose .control true :: older) <:+ w.log := by
      rw [hlog]
      exact ⟨later ++ after, by simp⟩
    refine always_iff.mp hsilent e _ hsuffix (hclose.append fun x hx => hnewer x ?_)
    exact List.mem_append_right _ (List.mem_cons_of_mem e hx)
  · rintro rfl
    have hstop : Stopped (newer ++ .tcpClose .control true :: older) := hclose.append hnewer
    rw [List.nil_append] at hlog
    rw [← hlog] at hstop
    exact hstill.idle hstop

end Still

/-! ## 2. The trace behind a stop -/

/-- The trace of a session that was stopped. -/
theorem afterStop_split {log : List Entry} (h : (sessionOf log).any Entry.isStop = true) :
    ∃ older, log = afterStop log ++ .tcpClose .control true :: older := by
  induction log with
  | nil => cases h
  | cons e log ih =>
    by_cases hstop : e.isStop = true
    · have he : e = .tcpClose .control true := by
        unfold Entry.isStop at hstop
        split at hstop
        · rfl
        · cases hstop
      exact ⟨log, by simp [afterStop, he, Entry.isStop]⟩
    · have hstop : e.isStop = false := by simpa using hstop
      cases hstarted : e.isStarted with
      | true => simp [sessionOf, hstarted] at h
      | false =>
        rw [sessionOf_cons hstarted] at h
        obtain ⟨older, holder⟩ := ih (by simpa [hstop] using h)
        refine ⟨older, ?_⟩
        rw [show afterStop (e :: log) = e :: afterStop log by simp [afterStop, hstop, hstarted],
          List.cons_append, ← holder]

theorem isStarted_afterStop {log : List Entry} {e : Entry} (h : e ∈ afterStop log) :
    e.isStarted = false := by
  have hkept := List.all_takeWhile (p := fun e : Entry => !e.isStarted && !e.isStop) (l := log)
  have he := List.all_eq_true.mp hkept e h
  simp only [Bool.and_eq_true, Bool.not_eq_true'] at he
  exact he.1

/-- A stream that was stopped, and nothing behind. -/
theorem stop_silences_stream : (afterStop stoppedStream.log).any Entry.acts = false := by
  obtain ⟨hstopped, hcalm⟩ : (sessionOf stoppedStream.log).any Entry.isStop = true ∧
      (afterStop stoppedStream.log).any Entry.stirs = false := by decide +kernel
  obtain ⟨older, hlog⟩ := afterStop_split hstopped
  have hquiet : ∀ e ∈ afterStop stoppedStream.log, e.acts = false :=
    (@stop_silences trusting stoppedStream [] _ older (worldAfter_reachable _) hlog fun e he =>
      ⟨isStarted_afterStop he, by simpa using List.any_eq_false.mp hcalm e he⟩).1
  rw [List.any_eq_false]
  exact fun e he => Bool.eq_false_iff.mp (hquiet e he)

/-- Pair-setup M6: the receiver's identifier and its long-term key, sealed. -/
def setupReply6 : Octets :=
  okReply (Tlv.encode [(Tlv.Tag.encryptedData.code, Tlv.encode [(Tlv.Tag.identifier.code, [1]),
    (Tlv.Tag.publicKey.code, List.replicate 32 0)] ++ List.replicate 16 0)])

/-- A pairing with a PIN, up to the credentials. -/
def pairedActions : List Action :=
  pinActions ++ [.call (.submitPin (ascii "1234")), .onTcpData .control setupReply4,
    .onTcpData .control setupReply6]

/-- **An application that stops the session when it is handed the credentials**: pair-verify is
begun behind the stop, on the closed connection. -/
theorem stopped_resumed :
    let w := worldIn 1 (.calling 1 [.stop]) pairedActions
    @Reachable trusting w ∧ ∃ older, w.log = afterStop w.log ++ .tcpClose .control true :: older ∧
      (∀ e ∈ afterStop w.log, e.isStarted = false) ∧
      (afterStop w.log).countP Entry.acts = 3 ∧ w.s.timeout.active = true := by
  intro w
  obtain ⟨hstopped, hthree, harmed⟩ : (sessionOf w.log).any Entry.isStop = true ∧
      (afterStop w.log).countP Entry.acts = 3 ∧ w.s.timeout.active = true := by decide +kernel
  obtain ⟨older, hlog⟩ := afterStop_split hstopped
  exact ⟨worldIn_reachable _ _ _, older, hlog, fun e => isStarted_afterStop, hthree, harmed⟩

end AirplaySender
