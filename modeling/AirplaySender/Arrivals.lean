/-
# What the host pushes in

The walks over the two receive paths, the timers and the notifications, and with them the summary:
every action walks (`perform_walks`), so a run only ever takes steps, and what steps preserve holds
in every reachable world (`Reachable.induct`).
-/
import AirplaySender.Replies

namespace AirplaySender

open Octets Prog

/-! ## 1. The event channel -/

section EventChannel

variable [Primitives]

/-- The world when one more event request is answered. -/
def World.answered (w : World) (key resp : Octets) (total : ℕ) : World :=
  { w with
    s := { w.s with
      eventPlainBuf := w.s.eventPlainBuf.drop total
      eventSendCtr := w.s.eventSendCtr + 1 }
    out := .tcpSend .event (frame key w.s.eventSendCtr resp) ::
      .sealed .event key (counterNonce8 w.s.eventSendCtr) (leBytes 2 resp.length) resp :: w.out }

/-- The world when an event request was taken off the buffer, and the counter of its answer used. -/
def World.skipped (w : World) (total : ℕ) : World :=
  { w with s := { w.s with
    eventPlainBuf := w.s.eventPlainBuf.drop total
    eventSendCtr := w.s.eventSendCtr + 1 } }

/-- The world when an answer is lost. -/
def World.lost (w : World) : World := { w with out := .answerLost :: w.out }

/-- A round of the answer loop, up to the answer. -/
theorem answerEvents_next {a : Ap2State} {w : World} (ha : w.s.ap2 = some a) {cseq : Octets}
    {total : ℕ} (hnext : nextEventRequest w.s.eventPlainBuf = some (cseq, total)) (fuel : ℕ) :
    answerEvents (fuel + 1) w = (sendAnswer a.eventOut (counterNonce8 w.s.eventSendCtr)
      (eventResponse cseq) >>= fun _ => answerEvents fuel) (w.skipped total) := by
  have hset : setS (fun s => { s with
      eventPlainBuf := s.eventPlainBuf.drop total
      eventSendCtr := s.eventSendCtr + 1 }) w = (.ok (), w.skipped total) := rfl
  have hget : ap2Get (w.skipped total) = (.ok a, w.skipped total) := by
    simp [ap2Get, sender, bind_run, World.skipped, ha]
  rw [answerEvents, sender_bind, hnext]
  dsimp only
  rw [bind_ok hset, bind_ok hget]

/-- A round of the answer loop, where the length of the answer is no negative `int`. -/
theorem answerEvents_round {a : Ap2State} (hout : a.eventOut.length = 32) {w : World}
    (ha : w.s.ap2 = some a) {cseq : Octets} {total : ℕ}
    (hnext : nextEventRequest w.s.eventPlainBuf = some (cseq, total))
    (hresp : 0 ≤ wrap32 (eventResponse cseq).length) (fuel : ℕ) :
    answerEvents (fuel + 1) w =
      answerEvents fuel (w.answered a.eventOut (intPrefix (eventResponse cseq)) total) := by
  have hsend : sendAnswer a.eventOut (counterNonce8 w.s.eventSendCtr) (eventResponse cseq)
      (w.skipped total) = (.ok (), w.answered a.eventOut (intPrefix (eventResponse cseq)) total) := by
    have hrlp := leBytes_intPrefix hresp
    unfold sendAnswer
    rw [if_neg (not_lt.mpr hresp), ← hrlp, bind_ok (seal_run hout _)]
    rfl
  rw [answerEvents_next ha hnext, bind_ok hsend]

/-- Where it is one, the request is lost, and with it the counter. -/
theorem answerEvents_lost {a : Ap2State} {w : World} (ha : w.s.ap2 = some a) {cseq : Octets}
    {total : ℕ} (hnext : nextEventRequest w.s.eventPlainBuf = some (cseq, total))
    (hresp : wrap32 (eventResponse cseq).length < 0) (fuel : ℕ) :
    answerEvents (fuel + 1) w = (.error .lengthError, (w.skipped total).lost) := by
  have hsend : sendAnswer a.eventOut (counterNonce8 w.s.eventSendCtr) (eventResponse cseq)
      (w.skipped total) = (.error .lengthError, (w.skipped total).lost) := by
    unfold sendAnswer
    rw [if_pos hresp]
    rfl
  rw [answerEvents_next ha hnext, bind_error hsend]

/-- **Each event request is answered under the next nonce**, or lost with it. -/
theorem answerEvents_walks {a : Ap2State} (hout : a.eventOut.length = 32) :
    ∀ (fuel : ℕ) (w : World), w.s.ap2 = some a → (coreOf w).state ≠ .idle →
      Walks .host w (answerEvents fuel) fun _ _ => True := by
  intro fuel
  induction fuel with
  | zero => exact fun w _ _ => Within.pure trivial
  | succ fuel ih =>
    intro w ha hlive
    cases hreq : nextEventRequest w.s.eventPlainBuf with
    | none =>
      refine Within.sender ?_
      rw [hreq]
      exact Within.pure trivial
    | some req =>
      obtain ⟨cseq, total⟩ := req
      have hkeys := keys_of_some ha
      by_cases hresp : 0 ≤ wrap32 (eventResponse cseq).length
      · exact Within.advance (answerEvents_round hout ha hreq hresp fuel)
          (.inr (.answerEvent _ (keysOf a) total _ hlive hkeys hout)) (ih _ ha hlive)
      · exact Within.advance (answerEvents_lost ha hreq (not_le.mp hresp) fuel)
          (.inr (.loseAnswer _ (keysOf a) total hlive hkeys hout)) Within.raise

theorem onEventReadyRead_walks {w : World} (bytes : Octets) :
    Walks .host w (onEventReadyRead bytes) fun _ _ => True := by
  refine Within.sender (Within.ite (fun _ => Within.pure trivial) fun hlive => ?_)
  cases ha : w.s.ap2 with
  | none => exact Within.pure trivial
  | some a =>
    refine Within.ite (fun _ => Within.pure trivial) fun hlen => ?_
    have hin : a.eventIn.length = 32 := by
      by_contra h
      exact hlen (.inl h)
    have hout : a.eventOut.length = 32 := by
      by_contra h
      exact hlen (.inr h)
    have hkeys := keys_of_some ha
    have hentries : (eventReadEntries a.eventIn (w.s.eventEncBuf ++ bytes) w.s.eventRecvCtr).filter
        Entry.tracked = eventReadEntries a.eventIn (w.s.eventEncBuf ++ bytes) w.s.eventRecvCtr := by
      refine List.filter_eq_self.mpr fun e he => ?_
      rcases mem_eventReadEntries he with rfl | ⟨_, _, rfl⟩ | rfl <;> rfl
    have hcore : coreOf (takeEventFrames a.eventIn bytes w) =
        (coreOf w).receiveEvent a.eventIn bytes := by
      simp only [coreOf, takeEventFrames, Core.receiveEvent, List.filter_append, hentries]
      rfl
    refine Within.modify_bind (.inr ?_) ?_
    · rw [hcore]
      exact .receiveEvent _ (keysOf a) bytes hlive hkeys hin hout
    · refine Within.ite (fun _ => Within.pure trivial) fun _ => Within.sender ?_
      exact answerEvents_walks hout _ _ ha hlive

end EventChannel

/-! ## 2. Replies on the control channel -/

section Replies

variable [Primitives] [Host] {w : World}

/-- The newest entry is the response to an RTSP request that is being handled. -/
def Core.Heard (c : Core) (method : Octets) (code : ℤ) : Prop :=
  ∃ status headers body, c.log.head? =
    some (.dispatched (c.state ≠ .idle) method false status headers body) ∧ toInt status = code

omit [Primitives] [Host] in
theorem Core.Heard.answering {c : Core} {method : Octets} {code : ℤ} (h : c.Heard method code) :
    c.Answering method false code := by
  obtain ⟨status, headers, body, h, hcode⟩ := h
  exact ⟨_, status, headers, body, h, hcode⟩

omit [Primitives] [Host] in
/-- What a response sets off in a session that is over, it is recorded as stirring. -/
theorem Core.Heard.stirred {c : Core} {method : Octets} {code : ℤ} (h : c.Heard method code) :
    c.state ≠ .idle ∨ ∃ status headers body,
      Entry.dispatched false method false status headers body ∈ afterStop c.log ∧
        toInt status = code := by
  obtain ⟨status, headers, body, h, hcode⟩ := h
  refine or_iff_not_imp_left.mpr fun hidle => ⟨status, headers, body, ?_, hcode⟩
  obtain ⟨rest, hlog⟩ := List.head?_eq_some_iff.mp h
  simp [hlog, afterStop, Entry.isStarted, Entry.isStop, not_not.mp hidle]

omit [Primitives] [Host] in
theorem Core.Heard.awake {c : Core} {method : Octets} {code : ℤ} (h : c.Heard method code)
    (hreacts : reacts method false code = true) : c.Awake :=
  h.stirred.imp_right fun ⟨_, _, _, hmem, hcode⟩ =>
    ⟨_, hmem, by simp [Entry.stirs, hcode, hreacts]⟩

omit [Primitives] [Host] in
theorem reacts_of_isHandshake {method : Octets} {code : ℤ} (hm : isHandshake method)
    (hcode : code = 401 ∨ (200 ≤ code ∧ code < 300)) : reacts method false code = true := by
  unfold isHandshake at hm
  simp only [reacts, Bool.not_false, Bool.true_and, Bool.or_eq_true, Bool.and_eq_true, beq_iff_eq,
    decide_eq_true_eq]
  refine .inr ⟨?_, hcode⟩
  rcases hm with h | h | h | h <;> simp [h]

omit [Host] in
/-- **The request is repeated with the digest, once, in one step.** -/
theorem reask_walks {next : M Unit} {method : Octets} (hm : isHandshake method)
    (hwire : wireMethod method = method)
    (hnext : ∀ w, ∃ uri contentType body extra,
      next w = sendRequest method uri contentType body extra w)
    (hc : Cleared (coreOf w).log) (hheard : (coreOf w).Heard method 401)
    (hretried : (coreOf w).retried = false) :
    Walks .host w (setS (fun s => { s with digestRetried := true }) >>= fun _ => next)
      fun _ _ => True := by
  refine Within.given fun hflow => ?_
  let w₁ : World := { w with s := { w.s with digestRetried := true } }
  obtain ⟨uri, contentType, body, extra, hnext⟩ := hnext w₁
  obtain ⟨w₂, hrun, hcore⟩ := send_run (w := w₁) method false
    (rtspText w₁.s method uri contentType body extra)
    (fun _ => do
      let s ← sender
      Prog.when (s.state = .handshake ∨ s.state = .pairing) (arm .timeout))
    fun _ henc ha => hflow.controlOut (w := w) henc ha
  have htext : IsRequest method (coreOf w).cseq
      (rtspText w₁.s method uri contentType body extra) := isRequest_rtspText (s := w₁.s) hwire
  have hcore : coreOf w₂ = ({ coreOf w with retried := true } : Core).request method false
      (rtspText w₁.s method uri contentType body extra) := hcore
  refine Within.advance (hnext.trans hrun) (.inr ?_) (Within.sender (Within.when (fun hst => ?_)
    fun _ => trivial))
  · rw [hcore]
    exact .reask _ method _ hheard.answering hm hretried hc
      (hheard.awake (reacts_of_isHandshake hm (.inl rfl))) htext
  · have hlive : (coreOf w₂).state ≠ .idle := by
      intro hidle
      rcases hst with h | h <;> exact absurd (h.symm.trans hidle) (by simp)
    exact Walks.arm (.arm _ .timeout (.inl hlive) (by simp) (by simp)) fun _ _ => trivial

/-- A 401 to the handshake is answered once, by the same request with the digest. -/
theorem onUnauthorized_walks (hfire : Tame) {method : Octets} (headers : Headers)
    (hc : Cleared (coreOf w).log) (hheard : (coreOf w).Heard method 401) :
    Walks .host w (onUnauthorized method headers) fun _ _ => True := by
  refine Within.sender (Within.ite (fun _ => fail_walks hfire _) fun _ => ?_)
  refine Within.ite (fun _ => fail_walks hfire _) fun hretried => ?_
  refine Quiet.walks_bind (Overlooks.setS fun _ => rfl) fun _ w₁ h₁ => ?_
  refine Within.ite (fun _ => fail_walks hfire _) fun _ => ?_
  have hretried₁ : (coreOf w₁).retried = false := by
    rw [h₁]
    exact Bool.eq_false_iff.mpr hretried
  rw [← h₁] at hc hheard
  refine Within.bind_ite (fun h => ?_) fun _ => Within.bind_ite (fun h => ?_) fun _ =>
    Within.bind_ite (fun h => ?_) fun _ => Within.bind_ite (fun h => ?_) fun _ => ?_
  · subst h
    exact reask_walks (.inl rfl) (by decide) (fun w => ⟨_, _, _, _, rfl⟩) hc hheard hretried₁
  · subst h
    exact reask_walks (.inr (.inl rfl)) (by decide) (fun w => ⟨_, _, _, _, bind_ok rfl⟩) hc hheard
      hretried₁
  · subst h
    exact reask_walks (.inr (.inr (.inl rfl))) (by decide) (fun w => ⟨_, _, _, _, bind_ok rfl⟩) hc
      hheard hretried₁
  · subst h
    exact reask_walks (.inr (.inr (.inr rfl))) (by decide) (fun w => ⟨_, _, _, _, bind_ok rfl⟩) hc
      hheard hretried₁
  · exact Walks.step_bind (.retry _ method hheard.answering hretried₁ hc) rfl
      fun _ _ => fail_walks hfire _

theorem onSetupReply_walks (hfire : Tame) (headers : Headers)
    (hcause : Cause .host (coreOf w) (ascii "RECORD") false) (hawake : (coreOf w).Awake) :
    Walks .host w (onSetupReply headers) fun _ _ => True := by
  refine Quiet.walks_bind (Overlooks.setS fun _ => rfl) fun _ w₁ h₁ => ?_
  rw [← h₁] at hcause hawake
  exact Within.ite (fun _ => fail_walks hfire _) fun _ => sendRecord_walks hcause hawake

omit [Host] in
theorem onFeedbackReply_walks {code : ℤ} (hheard : (coreOf w).Heard (ascii "POST") code) :
    Walks .host w (onFeedbackReply code) fun _ _ => True := by
  refine Within.ite (fun hcode => Within.sender ?_) fun _ => ?_
  · subst hcode
    have hrearmed : (coreOf w).Rearmed :=
      hheard.stirred.imp_right fun ⟨_, _, _, hmem, hcode⟩ => ⟨_, hmem, by simp [Entry.rearms, hcode]⟩
    refine Within.ite (fun _ => ?_) fun _ => Within.pure trivial
    exact Walks.arm (.arm _ .feedbackTimer hrearmed (by simp) (by simp)) fun _ _ => trivial
  · refine Within.modify (.inr (.lapse _ { (coreOf w).timers with feedbackTimer := false } ?_ ?_ ?_
      (.inl rfl) (.inl rfl))) trivial
    · exact fun h => h
    · exact fun h => h
    · intro hno
      cases hno

theorem onAccepted_walks (hfire : Tame) {method : Octets} {code : ℤ} (headers : Headers)
    (hcode : 200 ≤ code ∧ code < 300) (hc : Cleared (coreOf w).log)
    (hheard : (coreOf w).Heard method code) :
    Walks .host w (onAccepted method headers) fun _ _ => True := by
  have hcause {next : Octets} (h : Succeeds method next) : Cause .host (coreOf w) next false :=
    .next hheard.answering hcode h hc
  have hawake (hm : isHandshake method) : (coreOf w).Awake :=
    hheard.awake (reacts_of_isHandshake hm (.inr hcode))
  refine Within.ite (fun h => ?_) fun _ => Within.ite (fun h => ?_) fun _ =>
    Within.ite (fun h => ?_) fun _ => Within.ite (fun h => Within.sender ?_) fun _ => Within.pure trivial
  all_goals subst h
  · exact sendAnnounce_walks (hcause .announce) (hawake (.inl rfl))
  · exact sendSetup_walks (hcause .setup) (hawake (.inr (.inl rfl)))
  · exact onSetupReply_walks hfire headers (hcause .record) (hawake (.inr (.inr (.inl rfl))))
  · refine Within.ite (fun hst => ?_) fun _ => Within.pure trivial
    exact startStreaming_walks hfire (.inl ⟨code, hheard.answering, hcode⟩) hc
      (hawake (.inr (.inr (.inr rfl)))) hst

/-- A reply to an RTSP request; only a TEARDOWN is ever sent before the session is cleared. -/
theorem handleResponse_walks (hfire : Tame) {method : Octets} {code : ℤ} (headers : Headers)
    (hc : method ≠ ascii "TEARDOWN" → Cleared (coreOf w).log)
    (hheard : (coreOf w).Heard method code) :
    Walks .host w (handleResponse method code headers) fun _ _ => True := by
  refine Within.ite (fun _ => Within.pure trivial) fun _ => ?_
  refine Within.ite (fun h => ?_) fun _ => ?_
  · subst h
    exact onFeedbackReply_walks hheard
  refine Within.ite (fun _ => Within.pure trivial) fun _ => ?_
  refine Within.ite (fun _ => Within.pure trivial) fun htear => ?_
  refine Within.ite (fun h => ?_) fun _ => ?_
  · subst h
    exact onUnauthorized_walks hfire headers (hc htear) hheard
  refine Within.ite (fun _ => Within.sender ?_) fun hcode => ?_
  · exact Within.ite (fun _ => Within.pure trivial) fun _ => fail_walks hfire _
  · exact onAccepted_walks hfire headers
      ⟨not_lt.mp fun h => hcode (.inl h), not_le.mp fun h => hcode (.inr h)⟩ (hc htear) hheard

/-- **The oldest pending request routes the response.** -/
theorem dispatch_walks (hfire : Tame) (m : Message) : Walks .host w (dispatch m) fun _ _ => True := by
  refine Within.given fun hflow => Within.sender ?_
  cases hm : w.s.pendingMethods with
  | nil => exact Within.modify (.inr (.unexpected _ hm)) trivial
  | cons method methods =>
    have hlock : w.s.pendingMethods.length = w.s.pendingIsHttp.length := hflow.lockstep
    obtain ⟨isHttp, kinds, hk⟩ : ∃ isHttp kinds, w.s.pendingIsHttp = isHttp :: kinds := by
      cases hk : w.s.pendingIsHttp with
      | nil => simp [hm, hk] at hlock
      | cons isHttp kinds => exact ⟨isHttp, kinds, rfl⟩
    have hkinds : (coreOf w).kinds = isHttp :: kinds := hk
    have hhead : w.s.pendingIsHttp.headD false = isHttp := by rw [hk]; rfl
    have hstep := Step.dispatch (coreOf w) method methods (statusText m.statusLine) m.headers m.body hm
    refine Walks.step_bind hstep rfl fun w₁ h₁ => ?_
    have hw₁ : (coreOf w₁).kinds = kinds := by rw [h₁, hkinds]; rfl
    refine Within.ite (fun hhttp => ?_) fun hhttp => ?_
    · have htrue : isHttp = true := hhead.symm.trans hhttp
      subst htrue
      have hsingle := hflow.single
      rw [hkinds, List.count_cons_self] at hsingle
      have hquiet : true ∉ kinds := List.count_eq_zero.mp (by omega)
      refine onPairingResponse_walks hfire ⟨?_, by rw [hw₁]; exact hquiet⟩ ?_
      · rw [h₁]
        by_contra hwait
        refine (hflow.waiting (by simpa using hwait)).2 ?_
        rw [hkinds]
        exact List.mem_cons_self
      · rw [h₁, hkinds]
        exact ⟨_, _, _, _, rfl, rfl⟩
    · have hfalse : isHttp = false := hhead.symm.trans (by simpa using hhttp)
      subst hfalse
      have hheard : (coreOf w₁).Heard method (statusCode m.statusLine) := by
        rw [h₁, hkinds]
        exact ⟨_, _, _, rfl, rfl⟩
      refine handleResponse_walks hfire _ (fun htear => ?_) hheard
      rw [h₁]
      exact (hflow.cleared_of_pending hm hhead htear).cons rfl

end Replies

/-! ## 3. The control channel -/

section ControlChannel

theorem find_nil {needle : Octets} (h : needle ≠ []) : find needle [] = none := by
  rw [find, if_neg h]

/-- A message is a non-empty prefix of the buffer. -/
theorem nextMessage_bytes {rxBuf : Octets} {m : Message} (h : nextMessage rxBuf = some m) :
    rxBuf = m.bytes ++ rxBuf.drop m.bytes.length ∧ m.bytes ≠ [] := by
  unfold nextMessage at h
  split at h
  case h_1 => cases h
  case h_2 headEnd hfind =>
    dsimp only at h
    split at h
    case isTrue => cases h
    case isFalse hlen =>
      obtain rfl := Option.some.inj h
      have hne : rxBuf ≠ [] := by
        rintro rfl
        rw [find_nil (by simp [headSep])] at hfind
        cases hfind
      refine ⟨?_, ?_⟩
      · dsimp only
        rw [List.length_take, Nat.min_eq_left (by omega), List.take_append_drop]
      · simp [List.take_eq_nil_iff, hne]

variable [Primitives] [Host]

omit [Host] in
/-- Taking the frames of a delivery, on the core. -/
theorem coreOf_takeControlFrames (key bytes : Octets) (w : World) :
    coreOf (takeControlFrames key bytes w) = (coreOf w).receive key bytes := by
  have hentries : ∀ frames : List (UInt64 × Octets),
      (controlEntries key frames).filter Entry.tracked = controlEntries key frames := by
    intro frames
    refine List.filter_eq_self.mpr fun e he => ?_
    obtain ⟨f, _, rfl⟩ := List.mem_map.mp (List.mem_reverse.mp he)
    rfl
  simp only [coreOf, takeControlFrames, Core.receive, Core.receiveEntries, List.filter_append,
    hentries, List.append_assoc, List.singleton_append]
  rfl

theorem responseLoop_walks (hfire : Tame) :
    ∀ (fuel : ℕ) (w : World), Walks .host w (responseLoop fuel) fun _ _ => True := by
  intro fuel
  induction fuel with
  | zero => exact fun w => Within.pure trivial
  | succ fuel ih =>
    intro w
    refine Within.sender ?_
    cases hm : nextMessage w.s.rxBuf with
    | none => exact Within.pure trivial
    | some m =>
      obtain ⟨hbytes, hne⟩ := nextMessage_bytes hm
      refine Walks.step_bind (.take _ m.bytes _ hbytes hne) rfl fun w₁ h₁ => ?_
      refine Within.ite (fun _ => ?_) fun _ => Within.ite (fun _ => ?_) fun _ => ?_
      · exact Walks.step_bind (.ignored _) rfl fun w₂ _ => ih w₂
      · exact (dispatch_walks hfire m).bind fun _ w₂ _ => ih w₂
      · refine (dispatch_walks hfire m).bind fun _ w₂ _ => Within.sender ?_
        exact Within.ite (fun _ => Within.pure trivial) fun _ => ih w₂

theorem readResponses_walks (hfire : Tame) {w : World} :
    Walks .host w readResponses fun _ _ => True :=
  Within.sender (Within.ite (fun _ => fail_walks hfire _) fun _ => responseLoop_walks hfire _ w)

theorem onRtspReadyRead_walks (hfire : Tame) {w : World} (bytes : Octets) :
    Walks .host w (onRtspReadyRead bytes) fun _ _ => True := by
  have hplain {w : World} (h : (coreOf w).encrypted = false ∨ (coreOf w).keys = none) :
      Walks .host w (Prog.modify (takePlain bytes) >>= fun _ => readResponses) fun _ _ => True :=
    Walks.step_bind (.receivePlain _ bytes h) rfl fun w₁ _ => readResponses_walks hfire
  refine Within.sender ?_
  cases henc : w.s.controlEncrypted with
  | false => exact hplain (.inl henc)
  | true =>
    cases ha : w.s.ap2 with
    | none => exact hplain (.inr (keys_of_ap2 ha))
    | some a =>
      have hkeys := keys_of_some ha
      have hcore := coreOf_takeControlFrames a.controlIn bytes w
      by_cases hbad : (openFrames a.controlIn (w.s.rtspEncBuf ++ bytes) w.s.ctrlRecvCtr).failed
      · -- the frame that does not open ends the session in the same step
        have hstep := Step.receiveBroken (coreOf w) (keysOf a) bytes henc hkeys hbad
        rw [show (keysOf a).controlIn = a.controlIn from rfl, ← hcore] at hstep
        let w₁ : World :=
          { takeControlFrames a.controlIn bytes w with
            s := (takeControlFrames a.controlIn bytes w).s.ended
            out := .ending w.s.state w.s.waitingForPin false ::
              (takeControlFrames a.controlIn bytes w).out }
        have hstep₁ : Step .host (coreOf w) (coreOf w₁) := hstep
        have hrest : Walks .host w₁ (reportFailure (w.s.state ≠ .streaming)
            (ascii "Encrypted control channel authentication failed")) fun _ _ => True :=
          reportFailure_walks hfire _ rfl ⟨w.s.state, w.s.waitingForPin, rfl, rfl⟩
        refine Within.advance ?_ (.inr hstep₁) hrest
        simp only [hbad, if_true]
        rfl
      · have hgood : (openFrames a.controlIn (w.s.rtspEncBuf ++ bytes) w.s.ctrlRecvCtr).failed =
            false := by simpa using hbad
        exact Walks.step_bind (.receiveSealed _ (keysOf a) bytes henc hkeys hgood) hcore
          fun w₁ _ => Within.ite (fun h => absurd h hbad) fun _ => readResponses_walks hfire

end ControlChannel

/-! ## 4. Timers and notifications -/

section Notifications

variable [Primitives] [Host] {w : World}

omit [Host] in
theorem onFeedbackTimer_walks : Walks .host w onFeedbackTimer fun _ _ => True := by
  refine Within.sender (Within.ite (fun _ => Within.pure trivial) fun hst => ?_)
  have hst : (coreOf w).state = .streaming := not_not.mp hst
  have hawake : (coreOf w).Awake := .inl (live_of_streaming hst)
  refine Within.ite (fun _ => ?_) fun _ => ?_
  · have hsend := Walks.send (k := .host) (w := w) (f := pure) (P := fun _ _ => True)
      (.stream hst (.inr (.inr rfl))) hawake (isRequest_feedbackText (s := w.s))
      fun _ _ => Within.pure trivial
    simp only [bind_pure] at hsend
    exact hsend
  · exact (sendRequest_walks (by decide) (.stream hst (.inr (.inl rfl))) hawake).mono
      fun _ _ _ => trivial

/-- A timer that comes due, before what it does. -/
def Timer.lapsed (now : ℤ) (x : Timer) : Timer :=
  if x.repeating then { x with due := now + x.interval * 1000000 } else { x with active := false }

omit [Primitives] [Host] in
theorem Timer.active_lapsed {now : ℤ} {x : Timer} (h : (x.lapsed now).active = true) :
    x.active = true := by
  unfold lapsed at h
  split at h
  · exact h
  · cases h

/-- The world in which a timer has come due. -/
def World.lapsed (w : World) (now : ℤ) (t : TimerId) : World :=
  { w with s := w.s.setTimer (Timer.lapsed now) t }

omit [Host] in
/-- A timer that comes due where it may. -/
theorem lapse_step (now : ℤ) (t : TimerId)
    (htimeout : t = .timeout → w.s.waitingForPin = true ∨ w.s.state = .idle ∨ w.s.state = .streaming)
    (hpin : t = .pinTimeout → w.s.waitingForPin = false) :
    Step .host (coreOf w) (coreOf (w.lapsed now t)) := by
  have hoff {x : Timer} {p : Prop} (h : p) : (x.lapsed now).active = x.active ∨
      ((x.lapsed now).active = false ∧ p) := by
    unfold Timer.lapsed
    split
    · exact .inl rfl
    · exact .inr ⟨rfl, h⟩
  cases t with
  | pacer =>
    exact .lapse _ (timersOf _) Timer.active_lapsed (fun h => h) (fun h => h) (.inl rfl) (.inl rfl)
  | syncTimer =>
    exact .lapse _ (timersOf _) (fun h => h) Timer.active_lapsed (fun h => h) (.inl rfl) (.inl rfl)
  | feedbackTimer =>
    exact .lapse _ (timersOf _) (fun h => h) (fun h => h) Timer.active_lapsed (.inl rfl) (.inl rfl)
  | timeout =>
    exact .lapse _ (timersOf _) (fun h => h) (fun h => h) (fun h => h) (hoff (htimeout rfl)) (.inl rfl)
  | pinTimeout =>
    exact .lapse _ (timersOf _) (fun h => h) (fun h => h) (fun h => h) (.inl rfl) (hoff (hpin rfl))

/-- A session that has not reached the stream. -/
def State.starting : State → Bool
  | .connecting | .pairing | .handshake => true
  | _ => false

/-- The world in which a session has been ended. -/
def World.ended (w : World) : World :=
  { w with s := w.s.ended, out := .ending w.s.state w.s.waitingForPin false :: w.out }

omit [Primitives] in
theorem fail_run (why : Octets) (w : World) :
    fail why w = reportFailure (w.s.state ≠ .streaming) why w.ended := rfl

omit [Primitives] in
/-- The handshake timeout ends a session that is starting and not waiting for a PIN. -/
theorem onHandshakeTimeout_run (hwait : w.s.waitingForPin = false)
    (hst : w.s.state.starting = true) :
    onHandshakeTimeout w = fail (ascii "Timed out waiting for the device") w := by
  have hlive : w.s.state = .connecting ∨ w.s.state = .pairing ∨ w.s.state = .handshake := by
    revert hst
    cases w.s.state <;> simp [State.starting]
  unfold onHandshakeTimeout
  rw [sender_bind, if_neg (Bool.eq_false_iff.mp hwait),
    if_pos hlive]

omit [Primitives] in
/-- Otherwise it does nothing. -/
theorem onHandshakeTimeout_idle (h : w.s.waitingForPin = true ∨ w.s.state.starting = false) :
    onHandshakeTimeout w = (.ok (), w) := by
  unfold onHandshakeTimeout
  rw [sender_bind]
  rcases h with hwait | hst
  · rw [if_pos hwait]
    rfl
  · have hnot : ¬ (w.s.state = .connecting ∨ w.s.state = .pairing ∨ w.s.state = .handshake) := by
      revert hst
      cases w.s.state <;> simp [State.starting]
    by_cases hwait : w.s.waitingForPin = true
    · rw [if_pos hwait]
      rfl
    · rw [if_neg hwait, if_neg hnot]
      rfl

/-- What the PIN timeout says. -/
def pinTimeoutText (name : Octets) : Octets :=
  ascii "No PIN was entered. Switch " ++ name ++
    ascii " on and make sure its screen shows the AirPlay code, then try again."

omit [Primitives] in
/-- The PIN timeout ends a session that waits for a PIN. -/
theorem onPinTimeout_run (hwait : w.s.waitingForPin = true) :
    onPinTimeout w = fail (pinTimeoutText w.s.name)
      { w with s := { w.s with waitingForPin := false } } := by
  unfold onPinTimeout
  rw [sender_bind, if_neg (by simp [hwait])]
  rfl

omit [Primitives] in
/-- Otherwise it does nothing. -/
theorem onPinTimeout_idle (hwait : w.s.waitingForPin = false) :
    onPinTimeout w = (.ok (), w) := by
  unfold onPinTimeout
  rw [sender_bind, if_pos (by simp [hwait])]
  rfl

/-- A due timer runs in the world in which it has come due. -/
theorem tickTimer_due {now : ℤ} {t : TimerId} (hactive : (w.s.timer t).active = true)
    (hdue : (w.s.timer t).due ≤ now) : tickTimer now t w = onTimer t (w.lapsed now t) := by
  unfold tickTimer
  rw [sender_bind]
  rw [if_neg]
  · rfl
  · rw [not_or, not_lt]
    exact ⟨by simp [hactive], hdue⟩

/-- A timer that is not due does nothing. -/
theorem tickTimer_idle {now : ℤ} {t : TimerId}
    (h : (w.s.timer t).active = false ∨ now < (w.s.timer t).due) :
    tickTimer now t w = (.ok (), w) := by
  unfold tickTimer
  rw [sender_bind]
  rw [if_pos]
  · rfl
  · exact h.imp_left fun h => by simp [h]

/-- The handshake timeout, come due. -/
theorem lapse_timeout_walks (hfire : Tame) (now : ℤ) :
    Walks .host w (setS (fun s => s.setTimer (Timer.lapsed now) .timeout) >>= fun _ =>
      onHandshakeTimeout) fun _ _ => True := by
  by_cases hquiet : w.s.waitingForPin = true ∨ w.s.state.starting = false
  · have hstep : Step .host (coreOf w) (coreOf (w.lapsed now .timeout)) := by
      refine lapse_step now .timeout (fun _ => hquiet.imp_right fun hst => ?_) nofun
      revert hst
      cases w.s.state <;> simp [State.starting]
    have hrun : onHandshakeTimeout (w.lapsed now .timeout) =
        (pure () : M Unit) (w.lapsed now .timeout) := onHandshakeTimeout_idle hquiet
    exact Within.advance hrun (.inr hstep) (Within.pure trivial)
  · simp only [not_or, Bool.not_eq_true, Bool.not_eq_false] at hquiet
    have hend : Walks .host ((w.lapsed now .timeout).ended) (reportFailure (w.s.state ≠ .streaming)
        (ascii "Timed out waiting for the device")) fun _ _ => True :=
      reportFailure_walks hfire _ rfl ⟨w.s.state, w.s.waitingForPin, rfl, rfl⟩
    refine Within.advance ?_ (.inr (.ended _)) hend
    exact onHandshakeTimeout_run (w := w.lapsed now .timeout) hquiet.1 hquiet.2

/-- The PIN timeout, come due. -/
theorem lapse_pinTimeout_walks (hfire : Tame) (now : ℤ) :
    Walks .host w (setS (fun s => s.setTimer (Timer.lapsed now) .pinTimeout) >>= fun _ =>
      onPinTimeout) fun _ _ => True := by
  cases hwait : w.s.waitingForPin with
  | true =>
    let w₁ : World := { w.lapsed now .pinTimeout with
      s := { (w.lapsed now .pinTimeout).s with waitingForPin := false } }
    have hend : Walks .host w₁.ended (reportFailure (w.s.state ≠ .streaming)
        (pinTimeoutText w.s.name)) fun _ _ => True :=
      reportFailure_walks hfire _ rfl ⟨w.s.state, false, rfl, rfl⟩
    refine Within.advance ?_ (.inr (.expirePin _ hwait)) hend
    exact onPinTimeout_run (w := w.lapsed now .pinTimeout) hwait
  | false =>
    have hrun : onPinTimeout (w.lapsed now .pinTimeout) =
        (pure () : M Unit) (w.lapsed now .pinTimeout) := onPinTimeout_idle hwait
    exact Within.advance hrun (.inr (lapse_step now .pinTimeout nofun fun _ => hwait))
      (Within.pure trivial)

/-- A due timer is re-armed or stopped, and runs. -/
theorem tickTimer_walks (hfire : Tame) (now : ℤ) (t : TimerId) :
    Walks .host w (tickTimer now t) fun _ _ => True := by
  refine Within.given fun hflow => Within.sender (Within.ite (fun _ => Within.pure trivial) fun hdue => ?_)
  have hactive : (w.s.timer t).active = true := by
    by_contra h
    exact hdue (.inl (by simpa using h))
  cases t with
  | timeout => exact lapse_timeout_walks hfire now
  | pinTimeout => exact lapse_pinTimeout_walks hfire now
  | feedbackTimer =>
    exact Within.modify_bind (.inr (lapse_step now .feedbackTimer nofun nofun)) onFeedbackTimer_walks
  | syncTimer =>
    have hst : (coreOf w).state = .streaming := hflow.pacing (.inr hactive)
    exact Within.modify_bind (.inr (lapse_step now .syncTimer nofun nofun))
      (Within.mono (sendSyncPacket_walks hst) fun _ _ _ => trivial)
  | pacer =>
    have hst : (coreOf w).state = .streaming := hflow.pacing (.inl hactive)
    exact Within.modify_bind (.inr (lapse_step now .pacer nofun nofun)) (onPacerTick_walks hst)

theorem tick_walks (hfire : Tame) : Walks .host w tick fun _ _ => True := by
  refine Quiet.walks_bind Quiet.now fun n w₁ _ => ?_
  refine (tickTimer_walks hfire n .timeout).bind fun _ w₂ _ => ?_
  refine (tickTimer_walks hfire n .pinTimeout).bind fun _ w₃ _ => ?_
  refine (tickTimer_walks hfire n .feedbackTimer).bind fun _ w₄ _ => ?_
  refine (tickTimer_walks hfire n .syncTimer).bind fun _ w₅ _ => ?_
  exact tickTimer_walks hfire n .pacer

theorem onTcpConnected_walks (hfire : Tame) (ch : Tcp) (localEnd peer : Endpoint) :
    Walks .host w (onTcpConnected ch localEnd peer) fun _ _ => True := by
  cases ch with
  | event => exact Within.pure trivial
  | control =>
    refine Within.given fun hflow => Within.sender (Within.ite (fun _ => Within.pure trivial) fun hst => ?_)
    have hst : (coreOf w).state = .connecting := not_not.mp hst
    exact beginAuthChain_walks hfire hst (hflow.connecting hst)

theorem onTcpConnectFailed_walks (hfire : Tame) (ch : Tcp) (reason : Octets) :
    Walks .host w (onTcpConnectFailed ch reason) fun _ _ => True := by
  cases ch with
  | event => exact Within.pure trivial
  | control => exact Within.sender (Within.ite (fun _ => fail_walks hfire _) fun _ => Within.pure trivial)

theorem onTcpClosed_walks (hfire : Tame) (ch : Tcp) (reason : Octets) :
    Walks .host w (onTcpClosed ch reason) fun _ _ => True := by
  cases ch with
  | event => exact Within.pure trivial
  | control =>
    by_cases hidle : w.s.state = .idle
    · refine Walks.step_bind (.disconnect _ hidle) rfl fun w₁ h₁ => Within.sender ?_
      have hidle₁ : w₁.s.state = .idle := (congrArg Core.state h₁).trans hidle
      exact Within.ite (fun _ => Within.pure trivial) fun h => absurd hidle₁ h
    · -- losing the connection and ending the session are one step
      let w₀ : World := { w with s := { w.s with rtspConnected := false } }
      let w₁ : World := { w₀ with
        s := w₀.s.ended, out := .ending w.s.state w.s.waitingForPin false :: w.out }
      have hcore₁ : coreOf w₁ = { (coreOf w).ended with connected := false } := rfl
      have hstep : Step .host (coreOf w) (coreOf w₁) := by
        rw [hcore₁]
        exact .hangUp _
      have hhead : ∃ state waiting, (coreOf w₁).log.head? = some (.ending state waiting false) ∧
          (decide (w.s.state ≠ .streaming)) = decide (state ≠ .streaming) :=
        ⟨w.s.state, w.s.waitingForPin, rfl, rfl⟩
      have hclosed (m : M Unit) (hrun : onTcpClosed .control reason w = m w₁)
          (h : Walks .host w₁ m fun _ _ => True) :
          Walks .host w (onTcpClosed .control reason) fun _ _ => True :=
        Within.advance hrun (.inr hstep) h
      have hbranch : onTcpClosed .control reason w = (if reason ≠ [] then fail reason else do
          setAndEmit Sender.ended (.ending w.s.state w.s.waitingForPin false)
          releaseSockets
          setS Sender.clearBacklog
          reportEnd (w.s.state ≠ .streaming) (ascii "Connection closed by the device")) w₀ := by
        show ((if w.s.state = .idle then return () else if reason ≠ [] then fail reason else _) :
          M Unit) w₀ = _
        rw [if_neg hidle]
      by_cases hreason : reason ≠ []
      · rw [if_pos hreason] at hbranch
        exact hclosed _ hbranch (reportFailure_walks hfire reason rfl hhead)
      · rw [if_neg hreason] at hbranch
        refine hclosed _ hbranch (Quiet.walks_bind Quiet.releaseSockets fun _ w₂ h₂ => ?_)
        refine Quiet.walks_bind (Overlooks.setS fun _ => rfl) fun _ w₃ h₃ => ?_
        rw [← h₂, ← h₃] at hhead
        exact reportEnd_walks hfire _ hhead

omit [Host] in
theorem onUdpDatagram_walks (u : Udp) (bytes : Octets) (source : Endpoint) :
    Walks .host w (onUdpDatagram u bytes source) fun _ _ => True := by
  refine Within.sender (Within.ite (fun _ => Within.pure trivial) fun hlive => ?_)
  cases u with
  | control => exact onControlDatagram_walks bytes source hlive
  | timing => exact onTimingDatagram_walks bytes source hlive
  | audio => exact Within.pure trivial

/-- **Every action walks.** -/
theorem perform_walks (hfire : Tame) (a : Action) : Walks .host w (perform a) fun _ _ => True := by
  cases a with
  | call a => exact (call_walks hfire a).ofApp
  | onTcpConnected ch localEnd peer => exact onTcpConnected_walks hfire ch localEnd peer
  | onTcpConnectFailed ch reason => exact onTcpConnectFailed_walks hfire ch reason
  | onTcpData ch bytes =>
    cases ch with
    | control => exact onRtspReadyRead_walks hfire bytes
    | event => exact onEventReadyRead_walks bytes
  | onTcpClosed ch reason => exact onTcpClosed_walks hfire ch reason
  | onUdpDatagram u bytes source => exact onUdpDatagram_walks u bytes source
  | tick => exact tick_walks hfire

end Notifications

/-! ## 5. Runs -/

section Runs

open Relation (ReflTransGen)

variable [Primitives]

/-- **A run only takes steps.** -/
theorem run_steps [Host] (hfire : Tame) :
    ∀ (actions : List Action) (w : World), Flow (coreOf w) →
      ReflTransGen (Moves .host) w (run actions w) := by
  intro actions
  induction actions with
  | nil => exact fun w _ => .refl
  | cons a actions ih =>
    intro w hflow
    have hwalk := perform_walks hfire a hflow
    have hreach := hwalk.1
    have hflow' : Flow (coreOf (perform a w).2) :=
      hwalk.invariant (I := fun w => Flow (coreOf w)) (fun _ _ hm h => h.moves hm) hflow
    unfold run
    split
    case h_1 w' hw =>
      rw [hw] at hreach
      exact hreach
    case h_2 r w' _ hw =>
      rw [hw] at hreach hflow'
      exact hreach.trans (ih w' hflow')

/-- **What steps preserve holds in every reachable world.** -/
theorem Reachable.induct {I : Core → Prop} (hinit : I {})
    (hstep : ∀ {c c'}, Flow c → Step .host c c' → I c → I c') {w : World} (h : Reachable w) :
    I (coreOf w) := by
  obtain ⟨depth, env, actions, rfl⟩ := h
  have hsteps := @run_steps _ (host depth) (host_tame depth) actions (World.init env) Flow.init
  suffices hall : ∀ w, ReflTransGen (Moves .host) (World.init env) w →
      Flow (coreOf w) ∧ I (coreOf w) from (hall _ hsteps).2
  intro w hw
  induction hw with
  | refl => exact ⟨Flow.init, hinit⟩
  | tail _ hm ih =>
    obtain ⟨hflow, hi⟩ := ih
    refine ⟨hflow.moves hm, ?_⟩
    rcases hm with heq | hs
    · rw [heq]; exact hi
    · exact hstep hflow hs hi

/-- The tracked part of what happened. -/
def World.log (w : World) : List Entry := w.out.filter Entry.tracked

/-- What happened in the current session. -/
def World.session (w : World) : List Entry := sessionOf w.log

/-- **What steps preserve as long as nothing of a kind happens** holds in every reachable world
where nothing of the kind has. -/
theorem Reachable.induct_while {P : List Entry → Prop} {J : Core → Prop} (hinit : J {})
    (hpast : ∀ es log, P (es ++ log) → P log)
    (hstep : ∀ {c c'}, Flow c → Step .host c c' → P c'.log → J c → J c') {w : World}
    (h : Reachable w) (hP : P w.log) : J (coreOf w) := by
  refine h.induct (I := fun c => P c.log → J c) (fun _ => hinit) ?_ hP
  intro c c' hflow hs ih hP
  obtain ⟨es, hlog⟩ := hs.extends
  exact hstep hflow hs hP (ih (hpast es c.log (hlog ▸ hP)))

theorem Reachable.flow {w : World} (h : Reachable w) : Flow (coreOf w) :=
  Reachable.induct Flow.init (fun hflow hs _ => hflow.step hs) h

section Appended

variable [Host]

theorem run_cons (a : Action) (as : List Action) (w : World) :
    run (a :: as) w =
      if (perform a w).1 = .error .nullDeref then (perform a w).2
      else run as (perform a w).2 := by
  rw [run]
  rcases perform a w with ⟨_ | _, w'⟩
  · rename_i e
    cases e <;> rfl
  · rfl

theorem run_single (a : Action) (w : World) : run [a] w = (perform a w).2 := by
  rw [run_cons]
  split <;> rfl

/-- No action of a run dereferences a null pointer. -/
def runsOn : List Action → World → Bool
  | [], _ => true
  | a :: as, w => (perform a w).1 ≠ .error .nullDeref && runsOn as (perform a w).2

theorem run_append (bs : List Action) : ∀ {as : List Action} {w : World},
    runsOn as w = true → run (as ++ bs) w = run bs (run as w)
  | [], _, _ => rfl
  | a :: as, w, h => by
    rw [runsOn, Bool.and_eq_true, decide_eq_true_eq] at h
    rw [List.cons_append, run_cons, run_cons, if_neg h.1, if_neg h.1, run_append bs h.2]

end Appended

end Runs

/-! ## 6. A session by hand

The sender against a receiver spelled out reply by reply, with the transparent primitives in place
of the library.  The results about runs are tried on these. -/

section ByHand

/-- An outside that always answers the same. -/
def Env.still : Env where
  steady _ := 0
  wall _ := 0
  entropy _ := some fun _ => 0
  binds _ := 1
  connects _ := none
  rings _ := []
  produced _ := []
  reactions _ := []

/-- The primitives of a receiver that sealed whatever opens. -/
@[reducible] def trusting : Primitives := .transparent fun _ _ _ _ => true

/-- The world some actions end in.  Irreducible: only the kernel should run it. -/
@[irreducible] def worldAfter (actions : List Action) : World :=
  @run trusting (@host trusting 0) actions (.init .still)

theorem worldAfter_reachable (actions : List Action) : @Reachable trusting (worldAfter actions) := by
  unfold worldAfter
  exact ⟨0, .still, actions, rfl⟩

/-- The same in an outside of one's choice, with callbacks that nest. -/
@[irreducible] def worldIn (depth : ℕ) (env : Env) (actions : List Action) : World :=
  @run trusting (@host trusting depth) actions (.init env)

theorem worldIn_reachable (depth : ℕ) (env : Env) (actions : List Action) :
    @Reachable trusting (worldIn depth env actions) := by
  unfold worldIn
  exact ⟨depth, env, actions, rfl⟩

/-- Ten seconds pass between two readings of the clock. -/
def Env.ticking : Env := { Env.still with steady := fun n => n * 10000000000 }

/-- An application that makes some calls in its `n`-th callback, counted from 0. -/
def Env.calling (n : ℕ) (calls : List Api) : Env :=
  { Env.still with reactions := fun i => if i = n then calls else [] }

/-- Both ends of the connection. -/
def loopback : Endpoint := ⟨ascii "127.0.0.1", 7000⟩

/-- A 200 with a body. -/
def okReply (body : Octets) : Octets :=
  ascii "HTTP/1.1 200 OK\r\nContent-Length: " ++ dec body.length ++ headSep ++ body

/-- A reply without a body. -/
def statusReply (code : String) : Octets := ascii "HTTP/1.1 " ++ ascii code ++ headSep

/-- Pair-setup M2 and M4. -/
def setupReply2 : Octets :=
  okReply (Tlv.encode [(Tlv.Tag.salt.code, [1]), (Tlv.Tag.publicKey.code, [2])])

def setupReply4 : Octets := okReply (Tlv.encode [(Tlv.Tag.proof.code, List.replicate 64 0)])

/-- Configure the sender, start a session and connect it. -/
def connected (auth : Auth) (strict : Bool) : List Action :=
  [.call (.setAuth auth true [] [] []), .call (.setStrictReceiverAuth strict),
    .call (.start (ascii "receiver") 7000 (ascii "Receiver")),
    .onTcpConnected .control loopback loopback]

/-- A transient pairing up to M3. -/
def transientM3 (strict : Bool) : List Action :=
  connected .hapTransient strict ++ [.onTcpData .control setupReply2]

/-- The whole of it. -/
def transientDone (strict : Bool) : List Action :=
  transientM3 strict ++ [.onTcpData .control setupReply4]

/-- The key under which the receiver of a transient pairing seals. -/
def sampleIn : Octets := @hkdfSha512 trusting "Control-Salt" "Control-Read-Encryption-Key" []

/-- A reply in a frame. -/
def sealedReply (ctr : UInt64) (reply : Octets) : Action :=
  .onTcpData .control (@frame trusting sampleIn ctr reply)

/-- The reply to the stream SETUP. -/
def streamReply : Octets :=
  okReply (Bplist.encode (.dict [(ascii "streams", .arr [.dict [(ascii "dataPort", .int 6000)]])]))

/-- A session all the way to the stream. -/
def streamingActions : List Action :=
  transientDone true ++ [sealedReply 0 (okReply []), sealedReply 1 (okReply []),
    sealedReply 2 (okReply []), sealedReply 3 streamReply]

end ByHand

end AirplaySender
