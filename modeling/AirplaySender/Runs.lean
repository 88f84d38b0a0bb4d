/-
# Runs are acts

An action of the environment is a call of the application, a notification of a socket, or a tick.
Calls, connections and datagrams are acts from the start.  Data is not: it is taken into a buffer
first, or ends the session, with no regard to what the protocol expects (`Arrives`); what the sender
then makes of the buffer is acts again.  A tick lets timers fall due, which only the pulse shows
(`Performs`), and what the timers do is acts.

So an action is something that arrives and a path of acts behind it (`perform_carriesOut`), and a run
is a path of such turns (`run_turns`), beside a path of beats between which timers fall due.  Callbacks
may nest to any depth: what the host does inside one is calls, which are acts by induction on the
depth (`host_heeds`).

From there on no proof looks at the code any more.  What turns keep holds in every reachable world
(`Reachable.turns_induct`), with whatever the trace says about the past at hand: the trace only grows,
so what holds of all of it held of the part that was there at any earlier turn.
-/
import AirplaySender.Acts
import AirplaySender.Arrivals
import AirplaySender.Heads
import AirplaySender.Lib.Trace

namespace AirplaySender

open Octets Prog Trace

/-! ## 1. Header values

Three things that the sender puts into its requests come from the receiver: the session, and the realm
and the nonce of a challenge.  They are parts of header lines, so none holds a line feed, and none is
longer than the receive buffer. -/

section Headers

/-- The value of a header that is not there. -/
theorem received_nil : Received [] := ⟨by simp, Nat.zero_le _⟩

/-- A part of a received value. -/
theorem Received.sublist {v v' : Octets} (h : Received v) (hv : v'.Sublist v) : Received v' :=
  ⟨fun hmem => h.1 (hv.subset hmem), hv.length_le.trans h.2⟩

/-- Trimming takes octets from both ends. -/
theorem sublist_trimAscii (s : Octets) : (trimAscii s).Sublist s := by
  have hdrop (l : Octets) : (l.dropWhile isBlank).Sublist l := List.dropWhile_sublist _
  have h := (hdrop (s.dropWhile isBlank).reverse).reverse
  rw [List.reverse_reverse] at h
  exact h.trans (hdrop s)

/-- The value of a header is part of its line. -/
theorem headerLine_sublist {line : Octets} {e : Octets × Octets} (h : headerLine line = some e) :
    e.2.Sublist line := by
  unfold headerLine at h
  dsimp only at h
  split at h
  · cases h
  · cases h
  · cases h
    exact (sublist_trimAscii _).trans ((List.drop_sublist _ _).trans (sublist_trimAscii line))

/-- The values of a parsed head are parts of its lines. -/
theorem parseHeaders_mem {lines : List Octets} {e : Octets × Octets} (h : e ∈ parseHeaders lines) :
    ∃ line ∈ lines, e.2.Sublist line := by
  rw [parseHeaders_eq, List.mem_reverse] at h
  obtain ⟨line, hl, hline⟩ := List.mem_filterMap.mp h
  exact ⟨line, hl, headerLine_sublist hline⟩

/-- No line has the octet it was split at, and none is longer than the whole. -/
theorem splitOn_mem {sep : UInt8} :
    ∀ {s line : Octets}, line ∈ splitOn s sep → sep ∉ line ∧ line.length ≤ s.length
  | [], line, h => by
    rw [splitOn, List.splitOn_nil, List.mem_singleton] at h
    rw [h]
    exact ⟨List.not_mem_nil, le_rfl⟩
  | c :: s, line, h => by
    have hrest (l : Octets) (hl : l ∈ splitOn s sep) : sep ∉ l ∧ l.length ≤ (c :: s).length := by
      obtain ⟨hsep, hlen⟩ := splitOn_mem hl
      exact ⟨hsep, hlen.trans (Nat.le_succ _)⟩
    rw [splitOn, List.splitOn_cons_eq_if_modifyHead] at h
    split at h
    · rcases List.mem_cons.mp h with rfl | h
      · exact ⟨List.not_mem_nil, Nat.zero_le _⟩
      · exact hrest line h
    · rename_i hc
      cases hs : List.splitOn sep s with
      | nil => exact absurd hs (List.splitOn_ne_nil _ _)
      | cons first lines =>
        rw [hs, List.modifyHead_cons] at h
        have hmem (l : Octets) (hl : l ∈ first :: lines) : l ∈ splitOn s sep := by
          rw [splitOn, hs]
          exact hl
        rcases List.mem_cons.mp h with rfl | h
        · obtain ⟨hsep, hlen⟩ := splitOn_mem (hmem first List.mem_cons_self)
          refine ⟨fun hin => ?_, Nat.succ_le_succ hlen⟩
          rcases List.mem_cons.mp hin with rfl | hin
          · exact hc (beq_self_eq_true _)
          · exact hsep hin
        · exact hrest line (hmem line (List.mem_cons_of_mem _ h))

/-- The values of a head that was buffered. -/
theorem nextMessage_received {rxBuf : Octets} {m : Message} (h : nextMessage rxBuf = some m)
    (hcap : rxBuf.length ≤ rxCap) : ∀ e ∈ m.headers, Received e.2 := by
  intro e he
  unfold nextMessage at h
  split at h
  · cases h
  · rename_i headEnd _
    dsimp only at h
    split at h
    · cases h
    · cases h
      obtain ⟨line, hline, hsub⟩ := parseHeaders_mem he
      obtain ⟨hlf, hlen⟩ := splitOn_mem (List.mem_of_mem_tail hline)
      refine Received.sublist ⟨hlf, hlen.trans ?_⟩ hsub
      rw [List.length_take]
      omega

/-- A value that is looked up was received, if the default was. -/
theorem headerValue_received {headers : Headers} {key default : Octets}
    (h : ∀ e ∈ headers, Received e.2) (hdefault : Received default) :
    Received (headerValue headers key default) := by
  unfold headerValue
  cases hfind : headers.find? fun e => e.1 == key with
  | none => exact hdefault
  | some e => exact h e (List.mem_of_find?_eq_some hfind)

/-- So was what stands in quotation marks inside it. -/
theorem extractQuoted_received {wa : Octets} (h : Received wa) (key : String) :
    Received (extractQuoted wa key) := by
  unfold extractQuoted
  split
  · exact received_nil
  · split
    · exact received_nil
    · dsimp only
      split
      · exact received_nil
      · exact h.sublist ((List.take_sublist _ _).trans (List.drop_sublist _ _))

end Headers

/-! ## 2. The message loops

Both loops take messages from the front of a buffer as long as there is a whole one.  They are modelled
with fuel, the length of the buffer, and each message takes at least an octet. -/

section Loops

variable [Primitives] {Ok : Action → Prop} {w : World}

/-- The answers on the event channel are nothing the wire shows: what is followed of that channel is
what arrives on it. -/
theorem Tacit.sendAnswer (eventOut nonce resp : Octets) :
    Tacit (sendAnswer eventOut nonce resp) := by
  refine Fixes.ite (Fixes.bind (Overlooks.emit rfl) fun _ => Fixes.raise _) ?_
  exact Fixes.bind (Tacit.chacha (by decide) _ _ _ _) fun _ => Overlooks.emit rfl

/-- Each request that is answered leaves the event buffer, which is one act.  The induction is on
the fuel. -/
theorem answerEvents_acts :
    ∀ (fuel : ℕ) {w : World}, Acts Ok w (answerEvents fuel) fun _ _ => True
  | 0, _ => Within.pure trivial
  | fuel + 1, w => by
    refine Within.sender ?_
    split
    · exact Within.pure trivial
    · rename_i cseq total _
      dsimp only
      refine Within.modify_bind (.act ?_ rfl) ?_
      · exact .drain (wireOf w) w.s.rxBuf (w.s.eventPlainBuf.drop total) List.suffix_rfl
          (List.drop_suffix _ _)
      · refine Tacit.acts_bind Tacit.ap2Get fun a w₁ _ => ?_
        exact Tacit.acts_bind (Tacit.sendAnswer _ _ _) fun _ w₂ _ => answerEvents_acts fuel

variable [Host]

/-- A challenge is taken, and the request it answers goes out again.  The realm and the nonce are
parts of a header that was received, which is all that the request texts need of them. -/
theorem onUnauthorized_acts (hfire : Heeds Ok) {method body : Octets} {headers : Headers}
    (hreply : (wireOf w).Replied method false 401 headers body)
    (hheaders : ∀ e ∈ headers, Received e.2) :
    Acts Ok w (onUnauthorized method headers) fun _ _ => True := by
  refine Within.sender (Within.ite (fun _ => fail_acts hfire _) fun _ => ?_)
  refine Within.ite (fun _ => fail_acts hfire _) fun _ => ?_
  have hwa : Received (headerValue headers (ascii "www-authenticate") []) :=
    headerValue_received hheaders received_nil
  refine Within.modify_bind (.act ?_ rfl) (Within.ite (fun _ => fail_acts hfire _) fun _ => ?_)
  · exact .challenge (wireOf w) _ _ (extractQuoted_received hwa _) (extractQuoted_received hwa _)
  refine Tacit.acts_bind (Overlooks.setS fun _ => rfl) fun _ w₂ h₂ => ?_
  refine Within.ite (fun _ => sendOptions_acts) fun _ => ?_
  refine Within.ite (fun _ => sendAnnounce_acts) fun _ => ?_
  refine Within.ite (fun _ => sendSetup_acts) fun _ => ?_
  refine Within.ite (fun hrecord => sendRecord_acts (.inr ?_)) fun _ => fail_acts hfire _
  rw [h₂, ← hrecord]
  exact ⟨headers, body, hreply⟩

/-- The session of a reply to SETUP. -/
def replySession (headers : Headers) : Octets :=
  if headerValue headers (ascii "session") [] = [] then ascii "1"
  else headerValue headers (ascii "session") []

omit [Primitives] [Host] in
/-- The session is a header value, or the `1` that stands for none. -/
theorem replySession_received {headers : Headers} (h : ∀ e ∈ headers, Received e.2) :
    Received (replySession headers) := by
  unfold replySession
  split
  · exact ⟨by decide, by decide⟩
  · exact headerValue_received h received_nil

omit [Host] in
/-- Feedback that is answered goes on; a refusal stops its timer. -/
theorem onFeedbackReply_acts (code : ℤ) : Acts Ok w (onFeedbackReply code) fun _ _ => True := by
  refine Within.ite (fun _ => ?_) fun _ => (disarm_acts _).mono fun _ _ _ => trivial
  refine Within.sender (Within.ite (fun _ => ?_) fun _ => Within.pure trivial)
  exact (arm_acts _).mono fun _ _ _ => trivial

/-- A refused request ends the session, but for `RECORD` and `FLUSH` in a stream. -/
theorem onRefused_acts (hfire : Heeds Ok) (method : Octets) (code : ℤ) :
    Acts Ok w (onRefused method code) fun _ _ => True :=
  Within.sender (Within.ite (fun _ => Within.pure trivial) fun _ => fail_acts hfire _)

/-- The handshake of AirPlay 1: each reply is followed by the next request, and the one to `RECORD`
by the stream. -/
theorem onAccepted_acts (hfire : Heeds Ok) {method body : Octets} {code : ℤ} {headers : Headers}
    (hreply : (wireOf w).Replied method false code headers body) (hsetup : method ≠ ascii "SETUP")
    (hcap : (membersOf w.s).Capped) : Acts Ok w (onAccepted method headers) fun _ _ => True := by
  refine Within.ite (fun _ => sendAnnounce_acts) fun _ => ?_
  refine Within.ite (fun _ => sendSetup_acts) fun _ => ?_
  refine Within.ite (fun heq => absurd heq hsetup) fun _ => ?_
  refine Within.ite (fun hrecord => Within.sender ?_) fun _ => Within.pure trivial
  rw [hrecord] at hreply
  exact Within.ite (fun _ => startStreaming_acts hfire hcap (.kept hreply) rfl rfl rfl) fun _ =>
    Within.pure trivial

/-- A reply that is no success of SETUP. -/
theorem handleResponse_acts (hfire : Heeds Ok) {method body : Octets} {code : ℤ} {headers : Headers}
    (hreply : (wireOf w).Replied method false code headers body)
    (hsetup : ¬ (method = ascii "SETUP" ∧ 200 ≤ code ∧ code < 300))
    (hheaders : ∀ e ∈ headers, Received e.2) (hcap : (membersOf w.s).Capped) :
    Acts Ok w (handleResponse method code headers) fun _ _ => True := by
  refine Within.ite (fun _ => Within.pure trivial) fun _ => ?_
  refine Within.ite (fun _ => onFeedbackReply_acts code) fun _ => ?_
  refine Within.ite (fun _ => Within.pure trivial) fun _ => ?_
  refine Within.ite (fun _ => Within.pure trivial) fun _ => ?_
  refine Within.ite (fun hcode => ?_) fun _ => ?_
  · rw [hcode] at hreply
    exact onUnauthorized_acts hfire hreply hheaders
  refine Within.ite (fun _ => onRefused_acts hfire method code) fun hcode => ?_
  exact onAccepted_acts hfire hreply (fun heq => hsetup ⟨heq, by omega⟩) hcap

omit [Primitives] in
/-- What a dispatch leaves behind. -/
def dispatched (m : Message) (method : Octets) (methods : List Octets) (w : World) : World :=
  { w with
    s := { w.s with pendingMethods := methods, pendingIsHttp := w.s.pendingIsHttp.tail }
    out := .dispatched (w.s.state ≠ .idle) method (w.s.pendingIsHttp.headD false)
      (statusText m.statusLine) m.headers m.body :: w.out }

/-- The oldest request takes the reply, and says which of the two protocols handles it. -/
theorem dispatch_run (m : Message) {method : Octets} {methods : List Octets}
    (h : w.s.pendingMethods = method :: methods) : dispatch m w =
      (if w.s.pendingIsHttp.headD false = true then onPairingResponse (statusCode m.statusLine) m.body
      else handleResponse method (statusCode m.statusLine) m.headers)
        (dispatched m method methods w) := by
  unfold dispatch
  rw [sender_bind, h]
  rfl

/-- A reply to SETUP that is a success. -/
theorem onSetupReply_run {method : Octets} {code : ℤ} (headers : Headers)
    (hmethod : method = ascii "SETUP") (hcode : 200 ≤ code ∧ code < 300) (w : World) :
    handleResponse method code headers w =
      (if transportPort (headerValue headers (ascii "transport") []) "server_port" = 0 then
        fail (ascii "SETUP reply carried no server_port")
      else sendRecord) { w with s := { w.s with
        serverPort := transportPort (headerValue headers (ascii "transport") []) "server_port"
        controlPort := transportPort (headerValue headers (ascii "transport") []) "control_port"
        timingPort := transportPort (headerValue headers (ascii "transport") []) "timing_port"
        rtspSession := replySession headers } } := by
  have hsetup : handleResponse method code headers = onSetupReply headers := by
    unfold handleResponse onAccepted
    rw [hmethod, if_neg (by decide), if_neg (by decide), if_neg (by decide), if_neg (by decide),
      if_neg (by omega), if_neg (by omega), if_neg (by decide), if_neg (by decide), if_pos rfl]
  rw [hsetup]
  exact setS_bind _ _ w

/-- **A reply is one act**, and what its handler does.  A success of `SETUP` is kept apart, since
its ports and its session are taken with the reply; what comes after relies on the two together. -/
theorem dispatch_acts (hfire : Heeds Ok) {m : Message} (hheaders : ∀ e ∈ m.headers, Received e.2)
    (hcap : (membersOf w.s).Capped) : Acts Ok w (dispatch m) fun _ _ => True := by
  cases hpending : w.s.pendingMethods with
  | nil =>
    have hrun : dispatch m w = (emit .unexpected) w := by
      unfold dispatch
      rw [sender_bind, hpending]
    exact Within.advance hrun (.still rfl rfl)
      ((Tacit.acts (Overlooks.emit rfl)).mono fun _ _ _ => trivial)
  | cons method methods =>
    have hrun := dispatch_run m hpending
    obtain ⟨code, hcode⟩ : ∃ code, code = statusCode m.statusLine := ⟨_, rfl⟩
    obtain ⟨isHttp, hhttp⟩ : ∃ isHttp, isHttp = w.s.pendingIsHttp.headD false := ⟨_, rfl⟩
    have hreplied : (wireOf (dispatched m method methods w)).Replied method isHttp code m.headers
        m.body := by
      rw [hcode, hhttp]
      exact ⟨decide (w.s.state ≠ .idle), statusText m.statusLine, rfl, rfl⟩
    rw [← hcode, ← hhttp] at hrun
    by_cases hsetup : method = ascii "SETUP" ∧ isHttp = false ∧ 200 ≤ code ∧ code < 300
    · -- the ports and the session of the reply are taken with it
      obtain ⟨rfl, hplain, hok⟩ := hsetup
      rw [hplain, if_neg (by decide), onSetupReply_run m.headers rfl hok] at hrun
      rw [hplain] at hreplied
      refine Within.advance hrun (.act ?_ rfl) (Within.ite (fun _ => fail_acts hfire _) fun hport => ?_)
      · rw [hcode] at hok
        have hact : Act Ok _ _ := .setUp (wireOf w) (decide (w.s.state ≠ .idle))
          (statusText m.statusLine) m.headers m.body (replySession m.headers) hok
          (replySession_received hheaders)
        rw [← hplain, hhttp] at hact
        exact hact
      · exact sendRecord_acts (.inl ⟨hport, code, m.headers, m.body, hreplied, hok⟩)
    · have hact : Act Ok (wireOf w) (wireOf (dispatched m method methods w)) := by
        rw [hcode] at hsetup
        have hact : Act Ok _ _ := .dispatch (wireOf w) (decide (w.s.state ≠ .idle)) method isHttp
          (statusText m.statusLine) m.headers m.body hsetup
        rw [hhttp] at hact
        exact hact
      refine Within.advance hrun (.act hact rfl) ?_
      refine Within.ite (fun htrue => ?_) fun hfalse => ?_
      · rw [htrue] at hreplied
        exact onPairingResponse_acts hfire hreplied hcap
      · rw [Bool.not_eq_true] at hfalse
        rw [hfalse] at hreplied
        exact handleResponse_acts hfire hreplied (fun h => hsetup ⟨h.1, hfalse, h.2⟩) hheaders hcap

omit [Host] in
/-- No act lets the buffers of the control channel grow. -/
theorem Act.keeps_cap {c c' : Wire} (h : Act Ok c c') (hc : c.Capped) : c'.Capped := by
  cases h with
  | begin => exact ⟨Nat.zero_le _, Nat.zero_lt_succ _⟩
  | secure => exact ⟨hc.1, Nat.zero_lt_succ _⟩
  | drain _ _ hrx => exact ⟨hrx.length_le.trans hc.1, hc.2⟩
  | _ => exact hc

/-- The loop takes a message from the buffer, which only shrinks it, and dispatches it.  The cap on
the buffer is kept on the way, for the next head to be of a bounded size. -/
theorem responseLoop_acts (hfire : Heeds Ok) :
    ∀ (fuel : ℕ) {w : World}, (membersOf w.s).Capped →
      Acts Ok w (responseLoop fuel) fun _ _ => True
  | 0, _, _ => Within.pure trivial
  | fuel + 1, w, hcap => by
    refine Within.sender ?_
    split
    · exact Within.pure trivial
    · rename_i m hm
      have hheaders := nextMessage_received hm hcap.1
      have htaken : (membersOf { w.s with rxBuf := w.s.rxBuf.drop m.bytes.length }).Capped :=
        ⟨(List.drop_suffix _ _).length_le.trans hcap.1, hcap.2⟩
      refine Within.modify_bind (.act ?_ rfl) (Within.ite (fun _ => ?_) fun _ => ?_)
      · exact .drain (wireOf w) (w.s.rxBuf.drop m.bytes.length) w.s.eventPlainBuf
          (List.drop_suffix _ _) List.suffix_rfl
      · refine Tacit.acts_bind (Overlooks.emit rfl) fun _ w₁ h₁ => responseLoop_acts hfire fuel ?_
        rw [members_of_wire h₁]
        exact htaken
      · have hdispatch {w : World} (hw : (membersOf w.s).Capped) : Acts Ok w (dispatch m)
            fun _ w' => (membersOf w'.s).Capped ∧ True :=
          Acts.keeping (fun _ _ => Act.keeps_cap) hw (dispatch_acts hfire hheaders hw)
        refine Within.ite (fun _ => ?_) fun _ => ?_
        · exact Within.bind (hdispatch htaken) fun _ w₁ h₁ => responseLoop_acts hfire fuel h₁.1
        · refine Within.bind (hdispatch htaken) fun _ w₁ h₁ => Within.sender ?_
          exact Within.ite (fun _ => Within.pure trivial) fun _ => responseLoop_acts hfire fuel h₁.1

end Loops

/-! ## 3. Timers and calls -/

/-- A move of an action: a move of a method, or in a tick a timer that falls due. -/
def Performs [Primitives] (Ok : Action → Prop) (a : Action) (w w' : World) : Prop :=
  Deeds Ok w w' ∨
    wireOf w' = wireOf w ∧ a = .tick ∧ ∃ now t, pulseOf w' = (pulseOf w).lapsed now t

section Timers

variable [Primitives] [Host] {Ok : Action → Prop} {w : World}

/-- The handshake timeout ends a session that is not streaming yet and waits for no PIN. -/
theorem onHandshakeTimeout_acts (hfire : Heeds Ok) :
    Acts Ok w onHandshakeTimeout fun _ _ => True := by
  refine Within.sender (Within.ite (fun _ => Within.pure trivial) fun _ => ?_)
  exact Within.ite (fun _ => fail_acts hfire _) fun _ => Within.pure trivial

/-- The PIN timeout ends a session that still waits for one. -/
theorem onPinTimeout_acts (hfire : Heeds Ok) : Acts Ok w onPinTimeout fun _ _ => True := by
  refine Within.sender (Within.ite (fun _ => Within.pure trivial) fun _ => ?_)
  exact Tacit.acts_bind (Overlooks.setS fun _ => rfl) fun _ w₁ _ => fail_acts hfire _

omit [Host] in
/-- The feedback of a stream, in the form its protocol has. -/
theorem onFeedbackTimer_acts : Acts Ok w onFeedbackTimer fun _ _ => True := by
  refine Within.sender (Within.ite (fun _ => Within.pure trivial) fun _ => Within.ite (fun _ => ?_) fun _ => ?_)
  · refine enqueue_bind (.feedback rfl) (fun h => absurd h (by decide)) fun w₁ _ => ?_
    exact (Tacit.writeRtsp _).acts.mono fun _ _ _ => trivial
  · exact (sendOther_acts ⟨by decide, by simp, .none, by simp, fun h => absurd h (by decide)⟩
      (by decide)).mono fun _ _ _ => trivial

/-- What a timer does once it has fallen due: the pacer and the sync timer only run in a stream. -/
theorem onTimer_acts (hfire : Heeds Ok) (t : TimerId)
    (hst : t = .pacer ∨ t = .syncTimer → w.s.state = .streaming) :
    Acts Ok w (onTimer t) fun _ _ => True := by
  cases t with
  | timeout => exact onHandshakeTimeout_acts hfire
  | pinTimeout => exact onPinTimeout_acts hfire
  | feedbackTimer => exact onFeedbackTimer_acts
  | syncTimer => exact (sendSyncPacket_acts false (hst (.inr rfl))).mono fun _ _ _ => trivial
  | pacer => exact onPacerTick_acts (hst (.inl rfl))

omit [Host] in
/-- A timer that falls due leaves the calls in store alone. -/
theorem Performs.allowed {a : Action} {w w' : World} (h : Performs Ok a w w') (hw : (wireOf w).Allowed Ok) :
    (wireOf w').Allowed Ok := by
  rcases h with hdeed | ⟨hwire, -⟩
  · exact hdeed.allowed hw
  · rw [hwire]
    exact hw

instance {a : Action} : Preserves (Performs Ok a) fun w => (wireOf w).Allowed Ok :=
  ⟨Performs.allowed⟩

/-- A timer that is due lapses and is heard; any other is left alone. -/
theorem tickTimer_run (now : ℤ) (t : TimerId) (w : World) :
    (((w.s.timer t).active = true → now < (w.s.timer t).due) ∧ tickTimer now t w = (.ok (), w)) ∨
      ∃ w₁, (w.s.timer t).active = true ∧ w₁.s.state = w.s.state ∧ wireOf w₁ = wireOf w ∧
        pulseOf w₁ = (pulseOf w).lapsed now t ∧ tickTimer now t w = onTimer t w₁ := by
  unfold tickTimer
  rw [sender_bind]
  by_cases hdue : (!(w.s.timer t).active) = true ∨ now < (w.s.timer t).due
  · rw [if_pos hdue]
    refine .inl ⟨fun hactive => hdue.resolve_left ?_, rfl⟩
    simp [hactive]
  · rw [if_neg hdue]
    have hactive : (w.s.timer t).active = true := by
      by_contra h
      exact hdue (.inl (by simpa using h))
    have hwire (f : Timer → Timer) : wireOf { w with s := w.s.setTimer f t } = wireOf w := by
      simp only [wireOf, membersOf_setTimer]
    exact .inr ⟨_, hactive, state_of_wire (hwire _), hwire _, pulseOf_setTimer w _ t, rfl⟩

omit [Primitives] [Host] in
/-- A timer that only runs in a stream. -/
theorem streaming_of_active {t : TimerId} (hflow : Flow (coreOf w))
    (hactive : (w.s.timer t).active = true) (ht : t = .pacer ∨ t = .syncTimer) :
    w.s.state = .streaming := by
  rcases ht with rfl | rfl
  · exact hflow.pacing (.inl hactive)
  · exact hflow.pacing (.inr hactive)

/-- A timer that is due lapses, and the rest are acts. -/
theorem tickTimer_performs (hfire : Heeds Ok) (now : ℤ) (t : TimerId) (hflow : Flow (coreOf w)) :
    Within (Performs Ok .tick) (fun w => (wireOf w).Allowed Ok) w (tickTimer now t)
      fun _ _ => True := by
  obtain ⟨-, hrun⟩ | ⟨w₁, hactive, hstate, hwire, hpulse, hrun⟩ := tickTimer_run now t w
  · exact Within.advance (n := Prog.pure ()) hrun (.inl (.still rfl rfl)) (Within.pure trivial)
  · refine Within.advance hrun (.inr ⟨hwire, rfl, now, t, hpulse⟩) ?_
    refine (onTimer_acts hfire t fun ht => ?_).weaken fun _ _ => .inl
    exact hstate.trans (streaming_of_active hflow hactive ht)

/-- A tick is a reading and five timers.  Whether the session streams may change from one to the
next, so `Flow` is carried along. -/
theorem tick_performs (hfire : Heeds Ok) (htame : Tame) (hflow : Flow (coreOf w)) :
    Within (Performs Ok .tick) (fun w => (wireOf w).Allowed Ok) w tick fun _ _ => True := by
  -- each timer finds the world that the one before it has left
  have hnext {w : World} (now : ℤ) (t : TimerId) (hflow : Flow (coreOf w)) :
      Within (Performs Ok .tick) (fun w => (wireOf w).Allowed Ok) w (tickTimer now t) fun _ w' =>
        Flow (coreOf w') := by
    refine (tickTimer_performs hfire now t hflow).ending.mono fun _ w' ⟨hw', _⟩ => ?_
    rw [hw']
    exact (tickTimer_walks htame now t).keeps hflow
  refine Within.bind (Q := fun _ w' => Flow (coreOf w')) ?_ fun n w₁ hflow₁ => ?_
  · refine (now_acts.weaken fun _ _ => .inl).ending.mono fun _ w' ⟨hw', _⟩ => ?_
    rw [hw', Quiet.now.core w]
    exact hflow
  refine (hnext n .timeout hflow₁).bind fun _ w₂ hflow₂ => ?_
  refine (hnext n .pinTimeout hflow₂).bind fun _ w₃ hflow₃ => ?_
  refine (hnext n .feedbackTimer hflow₃).bind fun _ w₄ hflow₄ => ?_
  refine (hnext n .syncTimer hflow₄).bind fun _ w₅ hflow₅ => ?_
  exact tickTimer_performs hfire n .pacer hflow₅

omit [Host] in
/-- Setting the volume is one act, with the request that sends it. -/
theorem setVolume_acts (pct : Float) : Acts Ok w (setVolume pct) fun _ _ => True := by
  let v : World := { w with
    s := { w.s with pendingVolumeDb := volumeDb pct }
    out := .volumeSet (w.s.state = .streaming) (volumeDb pct) :: w.out }
  obtain ⟨sent, w₁, rest, hsent, hwire, hpulse, hrest, hrun⟩ :=
    conveys_run Ok (w.s.state = .streaming) v
  have hset : setVolume pct w = rest w₁ := by
    rw [← hrun]
    rfl
  refine Within.advance hset (.act ?_ hpulse) hrest
  rw [hwire]
  exact .volume (wireOf w) (volumeDb pct) sent hsent

/-- The PIN stops its timeout, arms that of the handshake, and goes on with the proof. -/
theorem submitPin_acts (hfire : Heeds Ok) (code : Octets) :
    Acts Ok w (submitPin code) fun _ _ => True := by
  refine Within.sender (Within.ite (fun _ => Within.pure trivial) fun _ => ?_)
  refine Within.modify_bind (setTimer_deed [_] (f := fun s => { s with waitingForPin := false })
    (fun _ => rfl) ?_ fun _ => .disarm .pinTimeout) ?_
  · intro e he
    rw [List.mem_singleton.mp he]
    rfl
  · exact Within.bind (arm_acts _) fun _ w₂ _ => sendPairSetupM3_acts hfire code

/-- **Every call of the application is acts.** -/
theorem call_acts (hfire : Heeds Ok) {a : Api} (ha : Ok (.call a)) :
    Acts Ok w (call a) fun _ _ => True := by
  cases a with
  | setAuth auth airplay2 deviceId credsJson password =>
    exact Within.sender (Within.modify (.still rfl rfl) trivial)
  | setIdentity identity =>
    exact Within.modify (.act (.identify (wireOf w) identity ha) rfl) trivial
  | setInputFormat sampleRate => exact Within.modify (.beat rfl (.format sampleRate ha)) trivial
  | attachRing ring => exact Within.modify (.beat rfl (.attach ring ha)) trivial
  | setStrictReceiverAuth => exact Within.modify (.still rfl rfl) trivial
  | start host port name => exact start_acts hfire host port name
  | stop => exact stop_acts.mono fun _ _ _ => trivial
  | submitPin code => exact submitPin_acts hfire code
  | setVolume pct => exact setVolume_acts pct
  | setNowPlaying title artist album cover coverMime =>
    refine Within.sender (Within.modify_bind (.act ?_ rfl) (Within.sender ?_))
    · exact .nowPlaying (wireOf w) title artist album cover coverMime ha
    · exact Within.when (fun _ => sendMetadata_acts.mono fun _ _ _ => trivial) fun _ => trivial

end Timers

/-- **Callbacks of any nesting depth are acts.** -/
theorem host_heeds [Primitives] {Ok : Action → Prop} (depth : ℕ) : @Heeds _ (host depth) Ok := by
  induction depth with
  | zero => exact fun e w => (Tacit.acts (Overlooks.emit rfl)).mono fun _ _ _ => trivial
  | succ depth ih =>
    intro e w
    refine Tacit.acts_bind (Overlooks.emit rfl) fun _ w₁ _ hallowed => ?_
    have hcalls : ∀ a ∈ (wireOf w₁).reactions.head, Ok (.call a) := hallowed 0
    have hreact : Deeds Ok w₁ { w₁ with env := { w₁.env with reactions := w₁.env.reactions.tail } } :=
      ⟨.inr (.react (wireOf w₁)), .single .react⟩
    refine Within.advance (n := Prog.each (@call _ (host depth)) w₁.env.reactions.head) rfl hreact ?_
      hallowed
    -- the calls of one reaction, each of them acts by the depth below
    have heach : ∀ (calls : List Api) (w : World), (∀ a ∈ calls, Ok (.call a)) →
        Acts Ok w (Prog.each (@call _ (host depth)) calls) fun _ _ => True := by
      intro calls
      induction calls with
      | nil => exact fun w _ => Within.pure trivial
      | cons a calls hrest =>
        intro w hcalls
        refine Within.bind (@call_acts _ (host depth) Ok w ih a (hcalls a List.mem_cons_self))
          fun _ w' _ => hrest w' fun b hb => hcalls b (List.mem_cons_of_mem a hb)
    exact heach _ _ hcalls

/-! ## 4. What arrives

The buffers are the only members an outsider writes to.  `Arrives` lists what it can do to them,
action by action; that the control buffer keeps its cap, and the reassembly buffers less than a frame,
is read off there. -/

open Relation (ReflTransGen)

section Arrives

variable [Primitives]

/-- What the decrypt loop leaves is part of a frame, if it did not stop at one. -/
theorem openLoop_rest (key : Octets) :
    ∀ (fuel : ℕ) (buf : Octets) (ctr : UInt64), buf.length ≤ fuel →
      (openLoop key fuel buf ctr).failed = false → (openLoop key fuel buf ctr).rest.length < frameCap
  | 0, buf, ctr, hfuel, _ => by
    rw [List.length_eq_zero_iff.mp (Nat.le_zero.mp hfuel)]
    exact Nat.zero_lt_succ _
  | fuel + 1, [], ctr, _, _ => Nat.zero_lt_succ _
  | fuel + 1, [b], ctr, _, _ => by
    show 1 < frameCap
    decide
  | fuel + 1, l₀ :: l₁ :: body, ctr, hfuel, hfailed => by
    unfold openLoop at hfailed ⊢
    dsimp only at hfailed ⊢
    split at hfailed
    · rename_i hshort
      rw [if_pos hshort]
      have h₀ := l₀.toNat_lt
      have h₁ := l₁.toNat_lt
      simp only [List.length_cons, frameCap]
      omega
    · rename_i hlong
      rw [if_neg hlong]
      split at hfailed
      · cases hfailed
      · refine openLoop_rest key fuel _ _ ?_ hfailed
        simp only [List.length_cons, List.length_drop] at hfuel ⊢
        omega

/-- A frame that did open leaves less than a frame behind. -/
theorem openFrames_rest {key buf : Octets} {ctr : UInt64}
    (h : (openFrames key buf ctr).failed = false) :
    (openFrames key buf ctr).rest.length < frameCap := openLoop_rest key _ buf ctr le_rfl h

/-- What an action begins with, before the acts. -/
inductive Arrives : Action → Wire → Wire → Prop
  | nothing (a : Action) (c : Wire) : Arrives a c c
  | plain (bytes : Octets) (c : Wire) (hframed : c.framed = false)
      (hcap : (c.rxBuf ++ bytes).length ≤ rxCap) :
      Arrives (.onTcpData .control bytes) c { c with rxBuf := c.rxBuf ++ bytes }
  | opened (bytes key : Octets) (ctr : UInt64) (c : Wire)
      (hopen : (openFrames key (c.rtspEncBuf ++ bytes) ctr).failed = false)
      (hcap : (c.rxBuf ++ (openFrames key (c.rtspEncBuf ++ bytes) ctr).plaintext).length ≤ rxCap) :
      Arrives (.onTcpData .control bytes) c { c with
        rtspEncBuf := (openFrames key (c.rtspEncBuf ++ bytes) ctr).rest
        rxBuf := c.rxBuf ++ (openFrames key (c.rtspEncBuf ++ bytes) ctr).plaintext }
  /-- Too much of it, or a frame that does not open: the session is over. -/
  | refused (bytes rxBuf rtspEncBuf : Octets) (c : Wire)
      (hframed : c.framed = false → rtspEncBuf = c.rtspEncBuf) :
      Arrives (.onTcpData .control bytes) c (({ c with rxBuf, rtspEncBuf } : Wire).finished
        [.tcpClose .control false] c.backlog c.backlogSeq)
  | events (bytes key : Octets) (ctr : UInt64) (c : Wire) (hlive : c.state ≠ .idle) :
      Arrives (.onTcpData .event bytes) c { c with
        eventEncBuf := if (openFrames key (c.eventEncBuf ++ bytes) ctr).failed then []
          else (openFrames key (c.eventEncBuf ++ bytes) ctr).rest
        eventPlainBuf := c.eventPlainBuf ++ (openFrames key (c.eventEncBuf ++ bytes) ctr).plaintext }
  | hungUp (c : Wire) (hlive : c.state ≠ .idle) :
      Arrives (.onTcpClosed .control []) c (c.finished [] (fun _ => []) fun _ => -1)

/-- What arrives has nothing to do with the calls in store. -/
theorem Arrives.allowed {Ok : Action → Prop} {a : Action} {c c' : Wire} (h : Arrives a c c')
    (hc : c.Allowed Ok) : c'.Allowed Ok := by
  cases h <;> exact hc

/-- `m` carries out an action: it begins with what arrives and goes on with acts; the pulse takes
beats all along. -/
def CarriesOut (Ok : Action → Prop) (a : Action) (w : World) (m : M Unit) : Prop :=
  (wireOf w).Allowed Ok → (∃ c, Arrives a (wireOf w) c ∧
    ReflTransGen (Act Ok) c (wireOf (m w).2) ∧ (wireOf (m w).2).Allowed Ok) ∧
      ReflTransGen (Swings Ok a) (pulseOf w) (pulseOf (m w).2)

variable {Ok : Action → Prop} {a : Action} {w w₁ : World} {m : M Unit} {Q : Unit → World → Prop}

/-- Moves of worlds, as a path of wires and a path of pulses. -/
theorem Performs.paths {w w' : World} (h : ReflTransGen (Performs Ok a) w w') :
    ReflTransGen (Act Ok) (wireOf w) (wireOf w') ∧
      ReflTransGen (Swings Ok a) (pulseOf w) (pulseOf w') := by
  induction h with
  | refl => exact ⟨.refl, .refl⟩
  | tail _ ht ih =>
    obtain ⟨hacts, hswings⟩ := ih
    rcases ht with hdeed | ⟨hwire, hlapsed⟩
    · refine ⟨?_, hswings.trans (ReflTransGen.mono (fun _ _ => .inl) _ _ hdeed.pulse)⟩
      rcases hdeed.wire with heq | hact
      · rw [heq]
        exact hacts
      · exact hacts.tail hact
    · rw [hwire]
      exact ⟨hacts, hswings.tail (.inr hlapsed)⟩

/-- An action that is acts from some world on, and arrives there. -/
theorem Performs.carriesOut_from {m' : M Unit}
    (h : Within (Performs Ok a) (fun w => (wireOf w).Allowed Ok) w₁ m' Q) (hrun : m w = m' w₁)
    (harrives : Arrives a (wireOf w) (wireOf w₁))
    (hpulse : ReflTransGen (Swings Ok a) (pulseOf w) (pulseOf w₁)) : CarriesOut Ok a w m := by
  intro hallowed
  have hallowed₁ := harrives.allowed hallowed
  obtain ⟨hacts, hswings⟩ := Performs.paths (h hallowed₁).1
  have hend := h.keeps hallowed₁
  rw [← hrun] at hacts hswings hend
  exact ⟨⟨_, harrives, hacts, hend⟩, hpulse.trans hswings⟩

theorem Acts.carriesOut_from {m' : M Unit} (h : Acts Ok w₁ m' Q) (hrun : m w = m' w₁)
    (harrives : Arrives a (wireOf w) (wireOf w₁))
    (hpulse : ReflTransGen (Swings Ok a) (pulseOf w) (pulseOf w₁)) : CarriesOut Ok a w m :=
  Performs.carriesOut_from (h.weaken fun _ _ => .inl) hrun harrives hpulse

/-- An action that is acts from the start. -/
theorem Acts.carriesOut (h : Acts Ok w m Q) : CarriesOut Ok a w m :=
  h.carriesOut_from rfl (.nothing a _) .refl

omit [Primitives] in
/-- The entries of opened control frames, to a filter that shows none. -/
theorem filter_controlEntries {p : Entry → Bool} {key : Octets}
    (h : ∀ n bytes, p (.received (.opened key n) bytes) = false) (frames : List (UInt64 × Octets))
    (log : List Entry) : (controlEntries key frames ++ log).filter p = log.filter p := by
  rw [List.filter_append, List.append_left_eq_self, List.filter_eq_nil_iff]
  intro e he
  obtain ⟨f, _, rfl⟩ := List.mem_map.mp (List.mem_reverse.mp he)
  rw [Bool.not_eq_true]
  exact h _ _

/-- The entries of a read of the event channel, to a filter that shows none. -/
theorem filter_eventReadEntries {p : Entry → Bool} {key : Octets} (hdropped : p .eventDropped = false)
    (hopened : ∀ n bytes, p (.eventOpened key n bytes) = false)
    (hread : ∀ n bytes, p (.eventRead key n bytes) = false) (buf : Octets) (ctr : UInt64)
    (log : List Entry) : (eventReadEntries key buf ctr ++ log).filter p = log.filter p := by
  rw [List.filter_append, List.append_left_eq_self, List.filter_eq_nil_iff]
  intro e he
  rw [Bool.not_eq_true]
  rcases mem_eventReadEntries he with rfl | ⟨_, _, rfl⟩ | rfl
  · exact hdropped
  · exact hopened _ _
  · exact hread _ _

variable [Host]

/-- Reading the responses, once something has arrived. -/
theorem readResponses_carriesOut (hfire : Heeds Ok) {bytes : Octets}
    (hcap : (wireOf w₁).rxBuf.length ≤ rxCap →
      Arrives (.onTcpData .control bytes) (wireOf w) (wireOf w₁))
    (hframe : (membersOf w₁.s).rtspEncBuf.length < frameCap)
    (hover : Arrives (.onTcpData .control bytes) (wireOf w) ((wireOf w₁).finished
      [.tcpClose .control false] w₁.s.backlog w₁.s.backlogSeq)) (hpulse : pulseOf w₁ = pulseOf w)
    (hrun : m w = readResponses w₁) : CarriesOut Ok (.onTcpData .control bytes) w m := by
  unfold readResponses at hrun
  rw [sender_bind] at hrun
  by_cases h : rxCap < w₁.s.rxBuf.length
  · rw [if_pos h] at hrun
    obtain ⟨w₂, hfail, hwire, hpulse₂⟩ :=
      fail_wire (ascii "Oversized RTSP response from the receiver") w₁
    rw [← hwire] at hover
    refine (reportEnd_acts hfire _ _).carriesOut_from (hrun.trans hfail) hover ?_
    rw [hpulse₂, hpulse]
    exact .single (.inl .still)
  · rw [if_neg h] at hrun
    refine (responseLoop_acts hfire _ ⟨not_lt.mp h, hframe⟩).carriesOut_from hrun
      (hcap (not_lt.mp h)) ?_
    rw [hpulse]

/-- **Control data arrives** in the clear or through the decrypt loop.  Either way it is in the
receive buffer before a message is looked for, or the session is over: by the cap, or by a frame
that does not open. -/
theorem onRtspReadyRead_carriesOut (hfire : Heeds Ok) (hwhole : (wireOf w).Reassembled)
    (bytes : Octets) : CarriesOut Ok (.onTcpData .control bytes) w (onRtspReadyRead bytes) := by
  have hplain (hframed : (wireOf w).framed = false)
      (hrun : onRtspReadyRead bytes w = readResponses (takePlain bytes w)) :
      CarriesOut Ok (.onTcpData .control bytes) w (onRtspReadyRead bytes) := by
    have hframe : (membersOf (takePlain bytes w).s).rtspEncBuf.length < frameCap := hwhole hframed
    refine readResponses_carriesOut hfire (fun hcap => ?_) hframe ?_ rfl hrun
    · exact .plain bytes (wireOf w) hframed hcap
    · exact .refused bytes (w.s.rxBuf ++ bytes) w.s.rtspEncBuf (wireOf w) fun _ => rfl
  cases henc : w.s.controlEncrypted with
  | false =>
    refine hplain (by simp [Members.framed, wireOf, membersOf, henc]) ?_
    unfold onRtspReadyRead
    rw [sender_bind, henc]
    rfl
  | true =>
    cases ha : w.s.ap2 with
    | none =>
      refine hplain (by simp [Members.framed, wireOf, membersOf, ha]) ?_
      unfold onRtspReadyRead
      rw [sender_bind, henc, ha]
      rfl
    | some a =>
      obtain ⟨w₁, hw₁⟩ : ∃ w₁, w₁ = takeControlFrames a.controlIn bytes w := ⟨_, rfl⟩
      have hwire : wireOf w₁ = { wireOf w with
          rtspEncBuf := (openFrames a.controlIn (w.s.rtspEncBuf ++ bytes) w.s.ctrlRecvCtr).rest
          rxBuf := w.s.rxBuf ++
            (openFrames a.controlIn (w.s.rtspEncBuf ++ bytes) w.s.ctrlRecvCtr).plaintext } := by
        rw [hw₁]
        simp only [wireOf, takeControlFrames, filter_controlEntries (p := Entry.wired) fun _ _ => rfl]
        rfl
      have hpulse : pulseOf w₁ = pulseOf w := by
        rw [hw₁]
        simp only [pulseOf, takeControlFrames, filter_controlEntries (p := Entry.sounds) fun _ _ => rfl]
        rfl
      have hover : Arrives (.onTcpData .control bytes) (wireOf w) ((wireOf w₁).finished
          [.tcpClose .control false] w₁.s.backlog w₁.s.backlogSeq) := by
        have hframed : (wireOf w).framed = true := by
          simp [Members.framed, wireOf, membersOf, ha, henc]
        rw [hwire, hw₁]
        refine .refused bytes _ _ (wireOf w) fun hno => ?_
        rw [hframed] at hno
        cases hno
      have hrun : onRtspReadyRead bytes w =
          (if (openFrames a.controlIn (w.s.rtspEncBuf ++ bytes) w.s.ctrlRecvCtr).failed then
            fail (ascii "Encrypted control channel authentication failed")
          else readResponses) w₁ := by
        unfold onRtspReadyRead
        rw [sender_bind, henc, ha, hw₁]
        rfl
      cases hfailed : (openFrames a.controlIn (w.s.rtspEncBuf ++ bytes) w.s.ctrlRecvCtr).failed with
      | true =>
        rw [hfailed, if_pos rfl] at hrun
        obtain ⟨w₂, hfail, hwire₂, hpulse₂⟩ :=
          fail_wire (ascii "Encrypted control channel authentication failed") w₁
        rw [← hwire₂] at hover
        refine (reportEnd_acts hfire _ _).carriesOut_from (hrun.trans hfail) hover ?_
        rw [hpulse₂, hpulse]
        exact .single (.inl .still)
      | false =>
        rw [hfailed] at hrun
        refine readResponses_carriesOut hfire (fun hcap => ?_) ?_ hover hpulse hrun
        · rw [hwire] at hcap ⊢
          exact .opened bytes a.controlIn w.s.ctrlRecvCtr (wireOf w) hfailed hcap
        · rw [hw₁]
          exact openFrames_rest hfailed

omit [Host] in
/-- **Event data arrives** through the decrypt loop of its own channel, and is answered as far as it
is whole. -/
theorem onEventReadyRead_carriesOut (bytes : Octets) :
    CarriesOut Ok (.onTcpData .event bytes) w (onEventReadyRead bytes) := by
  by_cases hidle : w.s.state = .idle
  · refine Acts.carriesOut (Q := fun _ _ => True) (Within.sender ?_)
    rw [if_pos hidle]
    exact Within.pure trivial
  cases ha : w.s.ap2 with
  | none =>
    refine Acts.carriesOut (Q := fun _ _ => True) (Within.sender ?_)
    rw [if_neg hidle, ha]
    exact Within.pure trivial
  | some a =>
    by_cases hkeys : a.eventIn.length ≠ 32 ∨ a.eventOut.length ≠ 32
    · refine Acts.carriesOut (Q := fun _ _ => True) (Within.sender ?_)
      rw [if_neg hidle, ha]
      dsimp only
      rw [if_pos hkeys]
      exact Within.pure trivial
    obtain ⟨w₁, hw₁⟩ : ∃ w₁, w₁ = takeEventFrames a.eventIn bytes w := ⟨_, rfl⟩
    have hrun : onEventReadyRead bytes w =
        (if (openFrames a.eventIn (w.s.eventEncBuf ++ bytes) w.s.eventRecvCtr).failed then pure ()
        else do
          let s ← sender
          answerEvents s.eventPlainBuf.length : M Unit) w₁ := by
      unfold onEventReadyRead
      rw [sender_bind, if_neg hidle, ha, hw₁]
      dsimp only
      rw [if_neg hkeys]
      rfl
    have harrives : Arrives (.onTcpData .event bytes) (wireOf w) (wireOf w₁) := by
      have hact := Arrives.events bytes a.eventIn w.s.eventRecvCtr (wireOf w) hidle
      rw [hw₁]
      simp only [takeEventFrames, wireOf,
        filter_eventReadEntries (p := Entry.wired) rfl (fun _ _ => rfl) fun _ _ => rfl]
      exact hact
    have hpulse : pulseOf w₁ = pulseOf w := by
      rw [hw₁]
      simp only [takeEventFrames, pulseOf,
        filter_eventReadEntries (p := Entry.sounds) rfl (fun _ _ => rfl) fun _ _ => rfl]
      rfl
    refine Acts.carriesOut_from (Q := fun _ _ => True) ?_ hrun harrives (by rw [hpulse])
    refine Within.ite (fun _ => Within.pure trivial) fun _ => Within.sender (answerEvents_acts _)

/-- A connection that is closed without a reason was hung up by the receiver, which ends the session
without an act; any other close is a failure. -/
theorem onTcpClosed_carriesOut (hfire : Heeds Ok) (ch : Tcp) (reason : Octets) :
    CarriesOut Ok (.onTcpClosed ch reason) w (onTcpClosed ch reason) := by
  cases ch with
  | event => exact Acts.carriesOut (Within.pure (Q := fun _ _ => True) trivial)
  | control =>
    -- hung up by the receiver, or idle, or a failure
    by_cases hhang : w.s.state ≠ .idle ∧ reason = []
    · obtain ⟨hlive, rfl⟩ := hhang
      obtain ⟨w₁, hrun, hwire, hpulse⟩ := releaseSockets_wire { w with
        s := { w.s with rtspConnected := false }.ended
        out := .ending w.s.state w.s.waitingForPin false :: w.out }
      have hclosed : onTcpClosed .control [] w = (releaseSockets >>= fun _ => do
          setS Sender.clearBacklog
          reportEnd (w.s.state ≠ .streaming) (ascii "Connection closed by the device")) { w with
            s := { w.s with rtspConnected := false }.ended
            out := .ending w.s.state w.s.waitingForPin false :: w.out } := by
        show ((if w.s.state = .idle then return () else if ([] : Octets) ≠ [] then fail [] else _) :
          M Unit) { w with s := { w.s with rtspConnected := false } } = _
        rw [if_neg hlive, if_neg (not_not.mpr rfl)]
        rfl
      rw [bind_ok hrun] at hclosed
      have hended : Acts _ { w₁ with s := w₁.s.clearBacklog } _ _ :=
        reportEnd_acts hfire (w.s.state ≠ .streaming) (ascii "Connection closed by the device")
      have hcleared : wireOf { w₁ with s := w₁.s.clearBacklog } =
          { wireOf w₁ with backlog := fun _ => [], backlogSeq := fun _ => -1 } := rfl
      have hstill : pulseOf { w₁ with s := w₁.s.clearBacklog } = (pulseOf w).stopped :=
        hpulse.trans (pulseOf_stopTimers rfl rfl)
      refine Acts.carriesOut_from hended hclosed ?_ ?_
      · rw [hcleared, hwire]
        exact .hungUp (wireOf w) hlive
      · rw [hstill]
        exact .single (.inl .still)
    · refine Acts.carriesOut (Q := fun _ _ => True) ?_
      refine Within.modify_bind (.still rfl rfl) (Within.sender ?_)
      refine Within.ite (fun _ => Within.pure trivial) fun hlive => ?_
      refine Within.ite (fun _ => fail_acts hfire _) fun hreason => ?_
      exact absurd ⟨hlive, not_not.mp hreason⟩ hhang

/-- A connection that comes about begins the authentication. -/
theorem onTcpConnected_acts (hfire : Heeds Ok) (ch : Tcp) (localEnd peer : Endpoint)
    (hok : Ok (.onTcpConnected ch localEnd peer)) :
    Acts Ok w (onTcpConnected ch localEnd peer) fun _ _ => True := by
  cases ch with
  | event => exact Within.pure trivial
  | control =>
    refine Within.sender (Within.ite (fun _ => Within.pure trivial) fun hst => ?_)
    refine Within.modify_bind (.act (.connected (wireOf w) localEnd peer hok) rfl) ?_
    refine beginAuthChain_acts hfire fun hidle => ?_
    exact absurd ((not_not.mp hst).symm.trans hidle) nofun

omit [Host] in
/-- Datagrams are answered, or ignored. -/
theorem onUdpDatagram_acts (u : Udp) (bytes : Octets) (source : Endpoint) :
    Acts Ok w (onUdpDatagram u bytes source) fun _ _ => True := by
  refine Within.sender (Within.ite (fun _ => Within.pure trivial) fun _ => ?_)
  cases u with
  | control => exact onControlDatagram_acts bytes source
  | timing => exact onTimingDatagram_acts bytes source
  | audio => exact Within.pure trivial

/-- **Every action is something that arrives and acts behind it.** -/
theorem perform_carriesOut (hfire : Heeds Ok) (htame : Tame) (hflow : Flow (coreOf w))
    (hwhole : (wireOf w).Reassembled) {a : Action} (ha : Ok a) : CarriesOut Ok a w (perform a) := by
  cases a with
  | call a => exact (call_acts hfire ha).carriesOut
  | onTcpConnected ch localEnd peer => exact (onTcpConnected_acts hfire ch localEnd peer ha).carriesOut
  | onTcpConnectFailed ch reason => exact (onTcpConnectFailed_acts hfire ch reason).carriesOut
  | onTcpData ch bytes =>
    cases ch with
    | control => exact onRtspReadyRead_carriesOut hfire hwhole bytes
    | event => exact onEventReadyRead_carriesOut bytes
  | onTcpClosed ch reason => exact onTcpClosed_carriesOut hfire ch reason
  | onUdpDatagram u bytes source => exact (onUdpDatagram_acts u bytes source).carriesOut
  | tick => exact Performs.carriesOut_from (tick_performs hfire htame hflow) rfl (.nothing _ _) .refl

end Arrives

/-! ## 5. Runs

A run is a list of actions, and ends early only where a null pointer is read.  The step lemmas of the
turns come first (what one adds to the trace, what becomes of the reassembly), then the run. -/

section Runs

variable [Primitives] {Ok : Action → Prop} {c c' : Wire} {w : World}

/-- One way a run changes the wire. -/
inductive Turn (Ok : Action → Prop) (c c' : Wire) : Prop
  | act (h : Act Ok c c')
  | arrives (a : Action) (ha : Ok a) (h : Arrives a c c')

omit [Primitives] in
/-- Sockets do not begin sessions. -/
theorem Entry.not_started_of_isSocket {e : Entry} (h : e.isSocket = true) :
    e.isStarted = false := by
  cases e with
  | started => cases h
  | _ => rfl

/-- What is added to the trace: entries of the session, or the beginning of a new one. -/
def Grows (log log' : List Entry) : Prop :=
  ∃ es, (∀ e ∈ es, e.isStarted = false) ∧ (log' = es ++ log ∨
    ∃ auth airplay2 strict, log' = es ++ .started auth airplay2 strict :: log)

omit [Primitives] in
/-- More entries of the session. -/
theorem Grows.append {log log' es : List Entry} (h : Grows log log')
    (hes : ∀ e ∈ es, e.isStarted = false) : Grows log (es ++ log') := by
  obtain ⟨es', hes', hlog⟩ := h
  refine ⟨es ++ es', fun e he => ?_, ?_⟩
  · rcases List.mem_append.mp he with he | he
    · exact hes e he
    · exact hes' e he
  · rcases hlog with rfl | ⟨auth, airplay2, strict, rfl⟩
    · exact .inl (List.append_assoc _ _ _).symm
    · exact .inr ⟨auth, airplay2, strict, (List.append_assoc _ _ _).symm⟩

omit [Primitives] in
/-- What the end of a session adds. -/
theorem Wire.finished_grows (c : Wire) {es : List Entry} (backlog : ℕ → Octets)
    (backlogSeq : ℕ → ℤ) (hes : ∀ e ∈ es, e.isStarted = false) :
    Grows c.log (c.finished es backlog backlogSeq).log := by
  refine ⟨releaseEntries c.udpBound ++ es, fun e he => ?_, .inl (List.append_assoc _ _ _).symm⟩
  rcases List.mem_append.mp he with he | he
  · exact Entry.not_started_of_isSocket (isSocket_release e he)
  · exact hes e he

omit [Primitives] in
theorem Members.Syncs.not_started {m : Members} {es : List Entry} (h : m.Syncs es) :
    ∀ e ∈ es, e.isStarted = false := by
  intro e he
  obtain ⟨dest, mark, rfl⟩ := h.mem he
  rfl

theorem Members.Conveys.not_started {m : Members} {p : Prop} {es : List Entry} (h : m.Conveys p es) :
    ∀ e ∈ es, e.isStarted = false := by
  intro e he
  obtain ⟨cseq, text, rfl⟩ := h.mem he
  rfl

/-- **No act takes an entry back**, and only `begin` begins a session. -/
theorem Act.grows (h : Act Ok c c') : Grows c.log c'.log := by
  have hone {e : Entry} (he : e.isStarted = false) : Grows c.log (e :: c.log) :=
    ⟨[e], by simpa using he, .inl rfl⟩
  cases h with
  | begin seq auth airplay2 strict p =>
    obtain ⟨es, hes, hlog⟩ := c.begun_log seq auth airplay2 strict p
    exact ⟨es, fun e he => Entry.not_started_of_isSocket (hes e he), .inr ⟨_, _, _, hlog⟩⟩
  | connect | dropEvent | clear | request | dispatch | setUp | pair | packet | sync | reply =>
    exact hone rfl
  | offer => exact ⟨[_, _], by simp [Entry.isStarted], .inl rfl⟩
  | volume dbfs sent hsent => exact (hone rfl).append hsent.not_started
  | enter ntp _ _ _ hsynced hsent =>
    exact ((hone rfl).append hsynced.not_started).append hsent.not_started
  | refuse controlPort =>
    exact Wire.finished_grows { c with serverPort := 0, controlPort } c.backlog c.backlogSeq
      (by simp [Entry.isStarted])
  | fail | stop => exact c.finished_grows _ _ (by simp [Entry.isStarted])
  | _ => exact ⟨[], (by simp), .inl rfl⟩

theorem Arrives.grows {a : Action} (h : Arrives a c c') : Grows c.log c'.log := by
  cases h with
  | refused bytes rxBuf rtspEncBuf =>
    exact Wire.finished_grows { c with rxBuf, rtspEncBuf } c.backlog c.backlogSeq
      (by simp [Entry.isStarted])
  | hungUp => exact c.finished_grows _ _ (by simp)
  | _ => exact ⟨[], (by simp), .inl rfl⟩

theorem Turn.grows (h : Turn Ok c c') : Grows c.log c'.log := by
  cases h with
  | act h => exact h.grows
  | arrives a ha h => exact h.grows

/-- What held of the session so far held of every session when the next one began. -/
theorem Turn.past (h : Turn Ok c c') {T : List Entry → Prop}
    (hpast : Always (fun e older => e.isStarted = true → T older) c.log) (hnow : T c.log) :
    Always (fun e older => e.isStarted = true → T older) c'.log := by
  have hadd {es log : List Entry} (hes : ∀ e ∈ es, e.isStarted = false)
      (hlog : Always (fun e older => e.isStarted = true → T older) log) :
      Always (fun e older => e.isStarted = true → T older) (es ++ log) := by
    refine Always.append hlog fun e he _ hst => ?_
    rw [hes e he] at hst
    cases hst
  obtain ⟨es, hes, hlog | ⟨_, _, _, hlog⟩⟩ := h.grows
  · rw [hlog]
    exact hadd hes hpast
  · rw [hlog]
    exact hadd hes ⟨fun _ => hnow, hpast⟩

/-- Nothing is taken back. -/
theorem Turn.extends (h : Turn Ok c c') : ∃ es, c'.log = es ++ c.log := by
  obtain ⟨es, -, hlog | ⟨_, _, _, hlog⟩⟩ := h.grows
  · exact ⟨es, hlog⟩
  · exact ⟨es ++ [_], by rw [hlog, List.append_assoc, List.singleton_append]⟩

/-- Part of a frame stays part of a frame. -/
theorem Turn.reassembled (h : Turn Ok c c') (hc : c.Reassembled) : c'.Reassembled := by
  have haudio {audio : Option (Octets × UInt64 × Bool)}
      (hframed : (c.controlEncrypted && audio.isSome) = false) (hsome : audio.isSome = true) :
      c.rtspEncBuf.length < frameCap := by
    rw [hsome, Bool.and_true] at hframed
    exact hc (by rw [Members.framed, hframed, Bool.false_and])
  cases h with
  | act h =>
    cases h with
    | begin | secure => exact fun _ => Nat.zero_lt_succ _
    | pair | offer => exact fun hframed => haudio hframed rfl
    | packet =>
      intro hframed
      refine hc ?_
      rw [← hframed]
      simp [Members.framed, Members.advance]
    | _ => exact hc
  | arrives a ha h =>
    cases h with
    | opened bytes key ctr _ hopen => exact fun _ => openFrames_rest hopen
    | refused bytes rxBuf rtspEncBuf _ hframed =>
      intro hno
      rw [hframed hno]
      exact hc hno
    | _ => exact hc

/-- An action takes turns, and beats. -/
theorem perform_turns [Host] (hfire : Heeds Ok) (htame : Tame) (hflow : Flow (coreOf w))
    (hwhole : (wireOf w).Reassembled) (hallowed : (wireOf w).Allowed Ok) {a : Action} (ha : Ok a) :
    (ReflTransGen (Turn Ok) (wireOf w) (wireOf (perform a w).2) ∧
      (wireOf (perform a w).2).Allowed Ok) ∧
        ReflTransGen (Swings Ok a) (pulseOf w) (pulseOf (perform a w).2) := by
  obtain ⟨⟨c, harrives, hacts, hallowed'⟩, hswings⟩ :=
    perform_carriesOut hfire htame hflow hwhole ha hallowed
  exact ⟨⟨.head (.arrives a ha harrives) (ReflTransGen.mono (fun _ _ h => .act h) _ _ hacts),
    hallowed'⟩, hswings⟩

/-- So it is over a run. -/
theorem turns_reassembled (h : ReflTransGen (Turn Ok) c c') (hc : c.Reassembled) :
    c'.Reassembled :=
  moves_keep (I := fun c : Wire => c.Reassembled) (fun _ _ => Turn.reassembled) h hc

theorem perform_reassembled [Host] (hfire : Heeds fun _ => True) (htame : Tame)
    (hflow : Flow (coreOf w)) (hwhole : (wireOf w).Reassembled) (a : Action) :
    (wireOf (perform a w).2).Reassembled :=
  turns_reassembled (perform_turns hfire htame hflow hwhole (fun _ _ _ => trivial) trivial).1.1 hwhole

/-- **A run takes turns**, and its pulse takes beats, between which timers fall due. -/
theorem run_turns [Host] (hfire : Heeds Ok) (htame : Tame) :
    ∀ (actions : List Action) (w : World), Flow (coreOf w) → (wireOf w).Reassembled →
      (wireOf w).Allowed Ok → (∀ a ∈ actions, Ok a) →
        ReflTransGen (Turn Ok) (wireOf w) (wireOf (run actions w)) ∧
          ReflTransGen (fun p p' => ∃ a, Swings Ok a p p') (pulseOf w) (pulseOf (run actions w)) := by
  intro actions
  induction actions with
  | nil => exact fun w _ _ _ _ => ⟨.refl, .refl⟩
  | cons a actions ih =>
    intro w hflow hwhole hallowed hok
    obtain ⟨⟨hturns, hallowed'⟩, hswings⟩ :=
      perform_turns hfire htame hflow hwhole hallowed (hok a List.mem_cons_self)
    have hswings := ReflTransGen.mono (fun _ _ h => (⟨a, h⟩ : ∃ a, Swings Ok a _ _)) _ _ hswings
    have hflow' : Flow (coreOf (perform a w).2) := (perform_walks htame a).keeps hflow
    have hwhole' := turns_reassembled hturns hwhole
    unfold run
    split
    case h_1 w' hw =>
      rw [hw] at hturns hswings
      exact ⟨hturns, hswings⟩
    case h_2 r w' _ hw =>
      rw [hw] at hturns hswings hflow' hallowed' hwhole'
      obtain ⟨hrest, hlater⟩ := ih w' hflow' hwhole' hallowed' fun b hb =>
        hok b (List.mem_cons_of_mem a hb)
      exact ⟨hturns.trans hrest, hswings.trans hlater⟩

omit [Primitives] in
/-- At first there is nothing to reassemble. -/
theorem reassembled_init (env : Env) : (wireOf (World.init env)).Reassembled :=
  fun _ => Nat.zero_lt_succ _

/-- In a reachable world, whatever is left over is part of a frame. -/
theorem Reachable.reassembled (h : Reachable w) : (wireOf w).Reassembled := by
  obtain ⟨depth, env, actions, rfl⟩ := h
  obtain ⟨hturns, -⟩ := @run_turns _ (fun _ => True) (host depth) (host_heeds depth)
    (host_tame depth) actions (World.init env) Flow.init (reassembled_init env)
    (fun _ _ _ => trivial) fun _ _ => trivial
  exact turns_reassembled hturns (reassembled_init env)

/-- **What turns keep holds in every reachable world**, and the trace of the world may be asked
about the past. -/
theorem Reachable.turns_induct {I : Wire → Prop} {Q : Entry → List Entry → Prop} (h : Reachable w)
    (hlog : Always Q (wireOf w).log) (hinit : ∀ env, I (wireOf (World.init env)))
    (hturn : ∀ c c', Always Q c'.log → Turn (fun _ => True) c c' → I c → I c') : I (wireOf w) := by
  obtain ⟨depth, env, actions, rfl⟩ := h
  have hturns := @run_turns _ (fun _ => True) (host depth) (host_heeds depth) (host_tame depth)
    actions (World.init env) Flow.init (reassembled_init env) (fun _ _ _ => trivial)
    fun _ _ => trivial
  have hall : ∀ c, ReflTransGen (Turn fun _ => True) (wireOf (World.init env)) c →
      Always Q c.log → I c := by
    intro c hc
    induction hc with
    | refl => exact fun _ => hinit env
    | tail _ ht ih =>
      intro hq
      obtain ⟨es, hes⟩ := ht.extends
      exact hturn _ _ hq ht (ih (Always.of_append (hes ▸ hq)))
  exact hall _ hturns.1 hlog

end Runs

end AirplaySender
