/-
# Notifications that come too late

What the host pushes into an idle sender has no effect (`idle_deaf_iff`), but for one channel: the
control connection is read in every state, while the event connection has a guard.  What is still
in its buffers, and which request is still pending, decides whether a late response is acted on;
`Overlooked` says exactly when it is not, with the reader's own functions, and `idle_heard` is a
sender that is idle and sends.

Each method is followed twice: along the branch that gives no sign, to where it leaves the world
(`Dead`), and along the others up to the first sign (`Core.Signed`), behind which the walks of the
earlier modules take over.
-/
import AirplaySender.Stopped

namespace AirplaySender

open Octets Prog

/-! ## 1. Signs of life -/

/-- What an idle sender must not do: send, fire an event, or be back in the stream. -/
def Entry.isSign : Entry → Bool
  | .tcpSend .. | .udpSend .. | .event _ | .entered => true
  | _ => false

/-- The sender stayed idle and gave no sign. -/
def Dead (w w' : World) : Prop :=
  w'.s.state = .idle ∧ ∃ es, w'.out = es ++ w.out ∧ ∀ e ∈ es, e.isSign = false

/-- The buffered bytes of the control channel behind a delivery; none where a frame does not
open. -/
def receiveBuffer [Primitives] (s : Sender) (bytes : Octets) : Option Octets :=
  match s.controlEncrypted, s.ap2 with
  | true, some a =>
    let o := openFrames a.controlIn (s.rtspEncBuf ++ bytes) s.ctrlRecvCtr
    if o.failed then none else some (s.rxBuf ++ o.plaintext)
  | _, _ => some (s.rxBuf ++ bytes)

/-- The first response in a buffer. -/
def firstResponse : ℕ → Octets → Option Message
  | 0, _ => none
  | fuel + 1, rxBuf =>
    match nextMessage rxBuf with
    | none => none
    | some m =>
      if isResponse m.statusLine then some m else firstResponse fuel (rxBuf.drop m.bytes.length)

/-- An RTSP response that is acted on, whatever the state. -/
def Heeded (method : Octets) (isHttp : Bool) (code : ℤ) : Prop :=
  isHttp = false ∧
    (method ≠ ascii "SET_PARAMETER" ∧ method ≠ ascii "POST" ∧ method ≠ ascii "FEEDBACK" ∧
      method ≠ ascii "TEARDOWN") ∧
    (code = 401 ∨ code < 200 ∨ 300 ≤ code ∨ isHandshake method)

/-- Bytes on the control channel that an idle sender overlooks: every frame opens, the buffer stays
under its cap, and the first response, if a request is still pending, is one it does not heed. -/
def Overlooked [Primitives] (s : Sender) (bytes : Octets) : Prop :=
  ∃ buf, receiveBuffer s bytes = some buf ∧ buf.length ≤ rxCap ∧
    ∀ m method methods, firstResponse buf.length buf = some m →
      s.pendingMethods = method :: methods →
      ¬ Heeded method (s.pendingIsHttp.headD false) (statusCode m.statusLine)

/-- A notification an idle sender overlooks: every one but some data on the control channel. -/
def Action.Overlooked [Primitives] (s : Sender) : Action → Prop
  | .onTcpData .control bytes => AirplaySender.Overlooked s bytes
  | _ => True

/-- What the host pushes in. -/
def Action.isNotification : Action → Bool
  | .call _ => false
  | _ => true

namespace Dead

variable {w w' w'' : World}

theorem refl (hidle : w.s.state = .idle) : Dead w w := ⟨hidle, [], rfl, nofun⟩

theorem trans (h : Dead w w') (h' : Dead w' w'') : Dead w w'' := by
  obtain ⟨_, es, hout, hes⟩ := h
  obtain ⟨hidle, es', hout', hes'⟩ := h'
  refine ⟨hidle, es' ++ es, by rw [hout', hout, List.append_assoc], fun e he => ?_⟩
  rcases List.mem_append.mp he with he | he
  · exact hes' e he
  · exact hes e he

/-- One entry. -/
theorem one {e : Entry} (hidle : w'.s.state = .idle) (hout : w'.out = e :: w.out)
    (he : e.isSign = false) : Dead w w' := ⟨hidle, [e], hout, by simpa using he⟩

/-- No entry at all. -/
theorem same (hidle : w'.s.state = .idle) (hout : w'.out = w.out) : Dead w w' :=
  ⟨hidle, [], hout, nofun⟩

end Dead

section Signs

variable [Primitives] {k : Level} {w w' : World} {base : List Entry} {c c' : Core}

/-- A sign was given since `base`. -/
def Core.Signed (base : List Entry) (c : Core) : Prop :=
  ∃ es, c.log = es ++ base ∧ ∃ e ∈ es, e.isSign = true

/-- A sign once given stays in the trace. -/
theorem Core.Signed.step (h : c.Signed base) (hs : Step k c c') : c'.Signed base := by
  obtain ⟨es, hlog, e, he, hsign⟩ := h
  obtain ⟨es', hlog'⟩ := hs.extends
  exact ⟨es' ++ es, by rw [hlog', hlog, List.append_assoc], e, List.mem_append_right _ he, hsign⟩

omit [Primitives] in
/-- A sender that gave a sign is not dead. -/
theorem Core.Signed.not_dead (h : (coreOf w').Signed (coreOf w).log) : ¬ Dead w w' := by
  rintro ⟨_, es, hout, hes⟩
  obtain ⟨es', hlog, e, he, hsign⟩ := h
  have hlog' : (coreOf w').log = es.filter Entry.tracked ++ (coreOf w).log := by
    show w'.out.filter Entry.tracked = _
    rw [hout, List.filter_append]
    rfl
  obtain rfl : es' = es.filter Entry.tracked := List.append_cancel_right (hlog.symm.trans hlog')
  exact absurd hsign (Bool.eq_false_iff.mp (hes e (List.mem_of_mem_filter he)))

/-- What walks on from a sign. -/
theorem Core.Signed.walk {α : Type} {m : M α} {Q : α → World → Prop}
    (h : (coreOf w).Signed base) (hflow : Flow (coreOf w)) (hm : Walks k w m Q) :
    (coreOf (m w).2).Signed base := by
  refine (hm hflow).invariant (I := fun w => (coreOf w).Signed base) (fun a b hmove h => ?_) h
  rcases hmove with heq | hs
  · rw [heq]
    exact h
  · exact h.step hs

/-- A session that is ended is one step away. -/
theorem Flow.ended (h : Flow (coreOf w)) : Flow (coreOf w.ended) :=
  h.step (k := .app) (.ended _)

/-- **Reporting a failure is a sign.** -/
theorem fail_signed (depth : ℕ) (why : Octets) (hflow : Flow (coreOf w.ended))
    (hidle : w.s.state = .idle) :
    (coreOf (@AirplaySender.fail (host depth) why w).2).Signed (coreOf w).log := by
  let _ := host depth
  have hne : w.s.state ≠ .streaming := by
    rw [hidle]
    nofun
  obtain ⟨_, newer, hlog, _⟩ := Past.fail depth why hflow hne
  refine ⟨newer ++ [_, _, _], by simpa using hlog, .event (.launched false why), ?_, rfl⟩
  simp

/-- Writing a request is a sign. -/
theorem Core.signed_request (method : Octets) (isHttp : Bool) (text : Octets) :
    (c.request method isHttp text).Signed c.log := by
  refine ⟨c.writeEntries text ++ [.requested c.cseq method isHttp text], by simp [Core.request], ?_⟩
  unfold Core.writeEntries
  split
  · exact ⟨_, List.mem_append_left _ List.mem_cons_self, rfl⟩
  · exact ⟨_, List.mem_append_left _ List.mem_cons_self, rfl⟩

/-- **Sending a request is a sign.** -/
theorem sendRequest_signed (hflow : Flow (coreOf w)) {method uri contentType body : Octets}
    {extra : List (Octets × Octets)} :
    (coreOf (sendRequest method uri contentType body extra w).2).Signed (coreOf w).log := by
  obtain ⟨w', hrun, hcore⟩ := sendRequest_run (w := w) method uri contentType body extra
    fun a henc ha => hflow.controlOut henc ha
  rw [hrun]
  show (coreOf w').Signed _
  rw [hcore]
  have hsent := Core.signed_request (c := coreOf w) method false
    (rtspText w.s method uri contentType body extra)
  generalize (coreOf w).request method false _ = c at hsent ⊢
  obtain ⟨es, hlog, e, he, hsign⟩ := hsent
  exact ⟨c.rewindEntries ++ es, by simp [Core.rewind, hlog], e, List.mem_append_right _ he, hsign⟩

/-- The four requests of the AirPlay 1 handshake. -/
theorem sendOptions_signed (hflow : Flow (coreOf w)) :
    (coreOf (sendOptions w).2).Signed (coreOf w).log := by
  unfold sendOptions
  exact sendRequest_signed hflow

theorem sendAnnounce_signed (hflow : Flow (coreOf w)) :
    (coreOf (sendAnnounce w).2).Signed (coreOf w).log := by
  unfold sendAnnounce
  rw [sender_bind]
  exact sendRequest_signed hflow

theorem sendSetup_signed (hflow : Flow (coreOf w)) :
    (coreOf (sendSetup w).2).Signed (coreOf w).log := by
  unfold sendSetup
  rw [sender_bind]
  exact sendRequest_signed hflow

theorem sendRecord_signed (hflow : Flow (coreOf w)) :
    (coreOf (sendRecord w).2).Signed (coreOf w).log := by
  unfold sendRecord
  rw [sender_bind]
  exact sendRequest_signed hflow

omit [Primitives] in
/-- The digest flag of an idle sender is no concern of the invariant. -/
theorem Flow.retry (h : Flow c) (hidle : c.state = .idle) (b : Bool) :
    Flow { c with retried := b } where
  connecting hc := absurd (hc.symm.trans hidle) nofun
  live := h.live
  uncleared := h.uncleared
  paired := h.paired
  keyed := h.keyed
  pending := h.pending
  pacing := h.pacing
  waiting := h.waiting
  encrypted := h.encrypted
  lockstep := h.lockstep
  single := h.single

end Signs

/-! ## 2. Responses in an idle sender -/

section Responses

variable [Primitives] {w : World} {method : Octets} {code : ℤ}

/-- A response that is not heeded changes at most the keep-alive timer. -/
theorem handleResponse_dead [Host] (headers : Headers) (hidle : w.s.state = .idle)
    (h : ¬ Heeded method false code) : Dead w (handleResponse method code headers w).2 := by
  unfold handleResponse
  by_cases hset : method = ascii "SET_PARAMETER"
  · rw [if_pos hset]
    exact .refl hidle
  rw [if_neg hset]
  by_cases hpost : method = ascii "POST"
  · rw [if_pos hpost]
    unfold onFeedbackReply
    by_cases hcode : code = 200
    · rw [if_pos hcode, sender_bind]
      split
      · exact .one (e := .armed .feedbackTimer) hidle rfl rfl
      · exact .refl hidle
    · rw [if_neg hcode]
      exact .same hidle rfl
  rw [if_neg hpost]
  by_cases hfeedback : method = ascii "FEEDBACK"
  · rw [if_pos hfeedback]
    exact .refl hidle
  rw [if_neg hfeedback]
  by_cases htear : method = ascii "TEARDOWN"
  · rw [if_pos htear]
    exact .refl hidle
  rw [if_neg htear]
  have hnot : ¬ (code = 401 ∨ code < 200 ∨ 300 ≤ code ∨ isHandshake method) := fun hcode =>
    h ⟨rfl, ⟨hset, hpost, hfeedback, htear⟩, hcode⟩
  simp only [isHandshake, not_or] at hnot
  obtain ⟨hdenied, hlow, hhigh, hoptions, hannounce, hsetup, hrecord⟩ := hnot
  rw [if_neg hdenied, if_neg (not_or.mpr ⟨hlow, hhigh⟩)]
  unfold onAccepted
  rw [if_neg hoptions, if_neg hannounce, if_neg hsetup, if_neg hrecord]
  exact .refl hidle

variable (depth : ℕ)

/-- A 401 is answered or reported. -/
theorem onUnauthorized_signed (hflow : Flow (coreOf w)) (hidle : w.s.state = .idle)
    (headers : Headers) :
    (coreOf (@onUnauthorized _ (host depth) method headers w).2).Signed (coreOf w).log := by
  let _ := host depth
  unfold onUnauthorized
  rw [sender_bind]
  by_cases hpassword : w.s.digestPassword = []
  · rw [if_pos hpassword]
    exact fail_signed depth _ hflow.ended hidle
  rw [if_neg hpassword]
  by_cases hretried : w.s.digestRetried = true
  · rw [if_pos hretried]
    exact fail_signed depth _ hflow.ended hidle
  rw [if_neg hretried]
  generalize hwa : headerValue headers (ascii "www-authenticate") [] = wa
  let w₁ : World := { w with s := { w.s with
    digestRealm := extractQuoted wa "realm=", digestNonce := extractQuoted wa "nonce=" } }
  rw [bind_ok (show setS (fun s => { s with
    digestRealm := extractQuoted wa "realm="
    digestNonce := extractQuoted wa "nonce=" }) w = (.ok (), w₁) from rfl)]
  by_cases hnonce : extractQuoted wa "nonce=" = []
  · rw [if_pos hnonce]
    exact fail_signed (w := w₁) depth _ (Flow.ended (w := w₁) hflow) hidle
  rw [if_neg hnonce]
  let w₂ : World := { w₁ with s := { w₁.s with digestRetried := true } }
  rw [bind_ok (show setS (fun s => { s with digestRetried := true }) w₁ = (.ok (), w₂) from rfl)]
  have hflow₂ : Flow (coreOf w₂) := hflow.retry hidle true
  split
  · exact sendOptions_signed (w := w₂) hflow₂
  split
  · exact sendAnnounce_signed (w := w₂) hflow₂
  split
  · exact sendSetup_signed (w := w₂) hflow₂
  split
  · exact sendRecord_signed (w := w₂) hflow₂
  · exact fail_signed (w := w₂) depth _ hflow₂.ended hidle

/-- The reply to SETUP is answered or reported. -/
theorem onSetupReply_signed (hflow : Flow (coreOf w)) (hidle : w.s.state = .idle)
    (headers : Headers) :
    (coreOf (@onSetupReply _ (host depth) headers w).2).Signed (coreOf w).log := by
  let _ := host depth
  unfold onSetupReply
  generalize headerValue headers (ascii "transport") [] = transport
  generalize headerValue headers (ascii "session") [] = session
  let w₁ : World := { w with s := { w.s with
    serverPort := transportPort transport "server_port"
    controlPort := transportPort transport "control_port"
    timingPort := transportPort transport "timing_port"
    rtspSession := if session = [] then ascii "1" else session } }
  rw [bind_ok (show setS _ w = (.ok (), w₁) from rfl)]
  split
  · exact fail_signed (w := w₁) depth _ (Flow.ended (w := w₁) hflow) hidle
  · exact sendRecord_signed (w := w₁) hflow

/-- **A response that is heeded is seen to be.** -/
theorem handleResponse_signed (hflow : Flow (coreOf w)) (hidle : w.s.state = .idle)
    (headers : Headers) (hheard : (coreOf w).Heard method code)
    (hc : method ≠ ascii "TEARDOWN" → Cleared (coreOf w).log) (h : Heeded method false code) :
    (coreOf (@handleResponse _ (host depth) method code headers w).2).Signed (coreOf w).log := by
  let _ := host depth
  unfold handleResponse
  obtain ⟨-, ⟨hset, hpost, hfeedback, htear⟩, hheeds⟩ := h
  rw [if_neg hset, if_neg hpost, if_neg hfeedback, if_neg htear]
  by_cases hdenied : code = 401
  · rw [if_pos hdenied]
    exact onUnauthorized_signed depth hflow hidle headers
  rw [if_neg hdenied]
  by_cases hrange : code < 200 ∨ 300 ≤ code
  · rw [if_pos hrange]
    unfold onRefused
    rw [sender_bind, if_neg]
    · exact fail_signed depth _ hflow.ended hidle
    · rw [hidle]
      nofun
  rw [if_neg hrange]
  rw [not_or] at hrange
  unfold onAccepted
  by_cases hoptions : method = ascii "OPTIONS"
  · rw [if_pos hoptions]
    exact sendAnnounce_signed hflow
  rw [if_neg hoptions]
  by_cases hannounce : method = ascii "ANNOUNCE"
  · rw [if_pos hannounce]
    exact sendSetup_signed hflow
  rw [if_neg hannounce]
  by_cases hsetup : method = ascii "SETUP"
  · rw [if_pos hsetup]
    exact onSetupReply_signed depth hflow hidle headers
  rw [if_neg hsetup]
  have hrecord : method = ascii "RECORD" := by
    rcases hheeds with h | h | h | h | h | h | h
    · exact absurd h hdenied
    · exact absurd h hrange.1
    · exact absurd h hrange.2
    · exact absurd h hoptions
    · exact absurd h hannounce
    · exact absurd h hsetup
    · exact h
  rw [if_pos hrecord, sender_bind]
  have hne : w.s.state ≠ .streaming := by
    rw [hidle]
    nofun
  rw [if_pos hne]
  -- the stream is entered from the idle state
  subst hrecord
  have hcode : 200 ≤ code ∧ code < 300 := ⟨not_lt.mp hrange.1, not_le.mp hrange.2⟩
  obtain ⟨rest, hsplit, hrest⟩ := startStreaming_split (host_tame depth)
  let w₁ : World := { w with
    s := ({ w.s with state := .streaming } : Sender).disarm .timeout, out := .entered :: w.out }
  have hentered : Step .host (coreOf w) (coreOf w₁) :=
    .enter _ (.inl ⟨code, hheard.answering, hcode⟩) (hc (by decide))
      (hheard.awake (reacts_of_isHandshake (.inr (.inr (.inr rfl))) (.inr hcode))) hne
  have hsigned : (coreOf w₁).Signed (coreOf w).log := ⟨[.entered], rfl, .entered, by simp, rfl⟩
  rw [hsplit, bind_ok (show setAndEmit _ .entered w = (.ok (), w₁) from rfl)]
  exact hsigned.walk (hflow.step hentered) (hrest w₁ rfl rfl)

/-- **The response of a pending request, in an idle sender.** -/
theorem dispatch_dead [Host] (m : Message) {methods : List Octets} (hidle : w.s.state = .idle)
    (hm : w.s.pendingMethods = method :: methods)
    (h : ¬ Heeded method (w.s.pendingIsHttp.headD false) (statusCode m.statusLine)) :
    Dead w (dispatch m w).2 := by
  let w₁ : World := { w with
    s := { w.s with pendingMethods := methods, pendingIsHttp := w.s.pendingIsHttp.tail }
    out := .dispatched (w.s.state ≠ .idle) method (w.s.pendingIsHttp.headD false)
      (statusText m.statusLine) m.headers m.body :: w.out }
  have hrun : dispatch m w = (if w.s.pendingIsHttp.headD false then
      onPairingResponse (statusCode m.statusLine) m.body
    else handleResponse method (statusCode m.statusLine) m.headers) w₁ := by
    unfold dispatch
    rw [sender_bind]
    simp only [hm]
    rfl
  have hone : Dead w w₁ := .one hidle rfl rfl
  rw [hrun]
  cases hhttp : w.s.pendingIsHttp.headD false with
  | true =>
    refine hone.trans ?_
    -- the pairing handler has the check that the other lacks
    have hskip : onPairingResponse (statusCode m.statusLine) m.body w₁ = (.ok (), w₁) := by
      unfold onPairingResponse
      rw [sender_bind, if_pos hidle]
      rfl
    rw [if_pos rfl, hskip]
    exact .refl hidle
  | false =>
    rw [hhttp] at h
    exact hone.trans (handleResponse_dead (w := w₁) m.headers hidle h)

/-- A heeded response is seen in what its handler does. -/
theorem dispatch_signed (m : Message) {methods : List Octets} (hflow : Flow (coreOf w))
    (hidle : w.s.state = .idle) (hm : w.s.pendingMethods = method :: methods)
    (h : Heeded method (w.s.pendingIsHttp.headD false) (statusCode m.statusLine)) :
    (coreOf (@dispatch _ (host depth) m w).2).Signed (coreOf w).log := by
  let _ := host depth
  let w₁ : World := { w with
    s := { w.s with pendingMethods := methods, pendingIsHttp := w.s.pendingIsHttp.tail }
    out := .dispatched (w.s.state ≠ .idle) method false
      (statusText m.statusLine) m.headers m.body :: w.out }
  have hcode : statusCode m.statusLine = toInt (statusText m.statusLine) := rfl
  have hkind : w.s.pendingIsHttp.headD false = false := h.1
  have hrun : dispatch m w = handleResponse method (statusCode m.statusLine) m.headers w₁ := by
    unfold dispatch
    rw [sender_bind]
    simp only [hm, hkind]
    rfl
  have hstep := Step.dispatch (coreOf w) method methods (statusText m.statusLine) m.headers m.body hm
  rw [show (coreOf w).kinds.headD false = false from hkind] at hstep
  have hflow₁ : Flow (coreOf w₁) := hflow.step hstep
  have hc (htear : method ≠ ascii "TEARDOWN") : Cleared (coreOf w₁).log :=
    (hflow.cleared_of_pending hm hkind htear).cons rfl
  rw [hkind] at h
  obtain ⟨es, hlog, e, he, hsign⟩ :=
    handleResponse_signed depth hflow₁ hidle m.headers ⟨_, _, _, rfl, rfl⟩ hc h
  rw [hrun, hcode]
  exact ⟨es ++ [_], by rw [hlog, List.append_assoc]; rfl, e, List.mem_append_left _ he, hsign⟩

/-- **The response loop of an idle sender, as long as nothing in it is heeded.** -/
theorem responseLoop_dead [Host] : ∀ (fuel : ℕ) (w : World), w.s.state = .idle →
    (∀ m method methods, firstResponse fuel w.s.rxBuf = some m →
      w.s.pendingMethods = method :: methods →
      ¬ Heeded method (w.s.pendingIsHttp.headD false) (statusCode m.statusLine)) →
    Dead w (responseLoop fuel w).2 := by
  intro fuel
  induction fuel with
  | zero => exact fun w hidle _ => .refl hidle
  | succ fuel ih =>
    -- what is no response is skipped, so the induction passes the first response of the rest on
    intro w hidle h
    unfold responseLoop
    rw [sender_bind]
    cases hnext : nextMessage w.s.rxBuf with
    | none => exact .refl hidle
    | some m =>
      let w₁ : World := { w with
        s := { w.s with rxBuf := w.s.rxBuf.drop m.bytes.length }, out := .took m.bytes :: w.out }
      have hone : Dead w w₁ := .one hidle rfl rfl
      simp only
      rw [bind_ok (show setAndEmit _ (.took m.bytes) w = (.ok (), w₁) from rfl)]
      refine hone.trans ?_
      cases hresponse : isResponse m.statusLine with
      | false =>
        let w₂ : World := { w₁ with out := .ignored :: w₁.out }
        have hsame : Dead w₁ w₂ := .one hidle rfl rfl
        refine hsame.trans (ih w₂ hidle fun m' method methods hfirst => ?_)
        refine h m' method methods ?_
        rw [firstResponse, hnext]
        simp only [hresponse]
        exact hfirst
      | true =>
        have hfirst : firstResponse (fuel + 1) w.s.rxBuf = some m := by
          rw [firstResponse, hnext]
          simp only [hresponse, if_true]
        rw [if_neg (by simp)]
        cases hm : w.s.pendingMethods with
        | nil =>
          have hm₁ : w₁.s.pendingMethods = [] := hm
          let w₂ : World := { w₁ with out := .unexpected :: w₁.out }
          have hunexpected : dispatch m w₁ = (.ok (), w₂) := by
            unfold dispatch
            rw [sender_bind]
            simp only [hm₁]
            rfl
          have hsame : Dead w₁ w₂ := .one hidle rfl rfl
          rw [if_pos rfl, bind_ok hunexpected]
          refine hsame.trans (ih w₂ hidle fun m' method methods _ hm' => ?_)
          exact absurd (hm₁.symm.trans hm') nofun
        | cons method methods =>
          have hdead : Dead w₁ (dispatch m w₁).2 :=
            dispatch_dead m hidle hm (h m method methods hfirst hm)
          rw [if_neg (by simp)]
          refine bind_keeps hdead fun _ w₂ h₂ => ?_
          rw [sender_bind, if_pos h₂.1]
          exact h₂

/-- **It is heard where something is.** -/
theorem responseLoop_signed {m : Message} {methods : List Octets} :
    ∀ (fuel : ℕ) (w : World), Flow (coreOf w) → w.s.state = .idle →
      firstResponse fuel w.s.rxBuf = some m → w.s.pendingMethods = method :: methods →
      Heeded method (w.s.pendingIsHttp.headD false) (statusCode m.statusLine) →
      (coreOf (@responseLoop _ (host depth) fuel w).2).Signed (coreOf w).log := by
  let _ := host depth
  intro fuel
  induction fuel with
  | zero => exact fun w _ _ hfirst => absurd hfirst nofun
  | succ fuel ih =>
    intro w hflow hidle hfirst hm h
    unfold responseLoop
    rw [sender_bind]
    cases hnext : nextMessage w.s.rxBuf with
    | none => simp [firstResponse, hnext] at hfirst
    | some m' =>
      obtain ⟨hbytes, hne⟩ := nextMessage_bytes hnext
      let w₁ : World := { w with
        s := { w.s with rxBuf := w.s.rxBuf.drop m'.bytes.length }, out := .took m'.bytes :: w.out }
      have hflow₁ : Flow (coreOf w₁) := hflow.step (.take _ m'.bytes _ hbytes hne)
      simp only
      rw [bind_ok (show setAndEmit _ (.took m'.bytes) w = (.ok (), w₁) from rfl)]
      rw [firstResponse, hnext] at hfirst
      simp only at hfirst
      cases hresponse : isResponse m'.statusLine with
      | false =>
        let w₂ : World := { w₁ with out := .ignored :: w₁.out }
        rw [hresponse] at hfirst
        obtain ⟨es, hlog, e, he, hsign⟩ :=
          ih w₂ (hflow₁.step (k := .host) (.ignored _)) hidle hfirst hm h
        exact ⟨es ++ [.ignored, .took m'.bytes], by
          rw [List.append_assoc]
          exact hlog, e, List.mem_append_left _ he, hsign⟩
      | true =>
        rw [hresponse, if_pos rfl] at hfirst
        obtain rfl := Option.some.inj hfirst
        have hpending : ¬ w.s.pendingMethods = [] := by
          rw [hm]
          nofun
        rw [if_neg (by simp), if_neg hpending]
        have hsigned : (coreOf (dispatch m' w₁).2).Signed (coreOf w).log := by
          obtain ⟨es, hlog, e, he, hsign⟩ :=
            dispatch_signed depth m' hflow₁ hidle hm h
          exact ⟨es ++ [.took m'.bytes], by
            rw [List.append_assoc]
            exact hlog, e, List.mem_append_left _ he, hsign⟩
        have hflow₂ : Flow (coreOf (dispatch m' w₁).2) :=
          (dispatch_walks (host_tame depth) m').keeps hflow₁
        -- behind the sign the handler may have done anything that keeps the invariant
        refine (bind_keeps (I := fun w' => Flow (coreOf w') ∧ (coreOf w').Signed (coreOf w).log)
          ⟨hflow₂, hsigned⟩ fun _ w₂ h₂ => ?_).2
        have hrest : Walks .host w₂ (do
            let s ← sender
            if s.state = .idle then return () else responseLoop fuel) fun _ _ => True :=
          Within.sender (Within.ite (fun _ => Within.pure trivial) fun _ =>
            responseLoop_walks (host_tame depth) fuel w₂)
        exact ⟨hrest.keeps h₂.1, h₂.2.walk h₂.1 hrest⟩

/-- Data on the control channel of an idle sender: the frames are opened, then either the failure
is reported or the responses are read. -/
theorem onRtspReadyRead_run [Host] (bytes : Octets) (hflow : Flow (coreOf w))
    (hidle : w.s.state = .idle) : ∃ w₁, Dead w w₁ ∧
    (∃ es, (coreOf w₁).log = es ++ (coreOf w).log) ∧ Flow (coreOf w₁.ended) ∧
    w₁.s.pendingMethods = w.s.pendingMethods ∧ w₁.s.pendingIsHttp = w.s.pendingIsHttp ∧
    match receiveBuffer w.s bytes with
    | none => ∃ why, onRtspReadyRead bytes w = fail why w₁
    | some buf => Flow (coreOf w₁) ∧ onRtspReadyRead bytes w = readResponses w₁ ∧
      w₁.s.rxBuf = buf := by
  have hplain (h : (coreOf w).encrypted = false ∨ (coreOf w).keys = none) :
      Flow (coreOf (takePlain bytes w)) := hflow.step (.receivePlain _ bytes h)
  have hdead : Dead w (takePlain bytes w) :=
    ⟨hidle, [.received .plain bytes, .delivered (w.s.state ≠ .idle) bytes], rfl,
      by simp [Entry.isSign]⟩
  unfold receiveBuffer
  cases henc : w.s.controlEncrypted with
  | false =>
    have hrun : onRtspReadyRead bytes w = readResponses (takePlain bytes w) := by
      unfold onRtspReadyRead
      rw [sender_bind, henc]
      rfl
    exact ⟨_, hdead, ⟨[_, _], rfl⟩, (hplain (.inl henc)).ended, rfl, rfl, hplain (.inl henc), hrun, rfl⟩
  | true =>
    cases ha : w.s.ap2 with
    | none =>
      have hrun : onRtspReadyRead bytes w = readResponses (takePlain bytes w) := by
        unfold onRtspReadyRead
        rw [sender_bind, henc, ha]
        rfl
      have hkeys := keys_of_ap2 ha
      exact ⟨_, hdead, ⟨[_, _], rfl⟩, (hplain (.inr hkeys)).ended, rfl, rfl, hplain (.inr hkeys), hrun,
        rfl⟩
    | some a =>
      have hkeys := keys_of_some ha
      have hcore := coreOf_takeControlFrames a.controlIn bytes w
      let w₁ : World := takeControlFrames a.controlIn bytes w
      have hdead : Dead w w₁ := by
        refine ⟨hidle, controlEntries a.controlIn (openFrames a.controlIn (w.s.rtspEncBuf ++ bytes)
          w.s.ctrlRecvCtr).frames ++ [.delivered (w.s.state ≠ .idle) bytes], by
            simp [w₁, takeControlFrames], fun e he => ?_⟩
        rcases List.mem_append.mp he with he | he
        · obtain ⟨f, _, rfl⟩ := List.mem_map.mp (List.mem_reverse.mp he)
          rfl
        · rw [List.mem_singleton.mp he]
          rfl
      have hlog : ∃ es, (coreOf w₁).log = es ++ (coreOf w).log :=
        ⟨_, congrArg Core.log hcore⟩
      have hrun : onRtspReadyRead bytes w =
          (if (openFrames a.controlIn (w.s.rtspEncBuf ++ bytes) w.s.ctrlRecvCtr).failed then
            fail (ascii "Encrypted control channel authentication failed")
          else readResponses) w₁ := by
        unfold onRtspReadyRead
        rw [sender_bind, henc, ha]
        rfl
      simp only
      cases hfailed : (openFrames a.controlIn (w.s.rtspEncBuf ++ bytes) w.s.ctrlRecvCtr).failed with
      | true =>
        rw [hfailed, if_pos rfl] at hrun
        have hended : Flow (coreOf w₁.ended) := by
          have hstep := Step.receiveBroken (coreOf w) (keysOf a) bytes henc hkeys hfailed
          rw [show (keysOf a).controlIn = a.controlIn from rfl, ← hcore] at hstep
          exact hflow.step hstep
        exact ⟨w₁, hdead, hlog, hended, rfl, rfl, _, hrun⟩
      | false =>
        rw [hfailed] at hrun
        have hflow₁ : Flow (coreOf w₁) := by
          have hstep := Step.receiveSealed (coreOf w) (keysOf a) bytes henc hkeys hfailed
          rw [show (keysOf a).controlIn = a.controlIn from rfl, ← hcore] at hstep
          exact hflow.step hstep
        exact ⟨w₁, hdead, hlog, hflow₁.ended, rfl, rfl, hflow₁, hrun, rfl⟩

/-- **What the control channel does in an idle sender.** -/
theorem onRtspReadyRead_dead_iff (bytes : Octets) (hflow : Flow (coreOf w))
    (hidle : w.s.state = .idle) :
    Dead w (@onRtspReadyRead _ (host depth) bytes w).2 ↔ Overlooked w.s bytes := by
  let _ := host depth
  obtain ⟨w₁, hdead, ⟨es, hlog⟩, hended, hmethods, hkinds, hread⟩ :=
    onRtspReadyRead_run bytes hflow hidle
  -- a sign behind the read is one behind the notification
  have hsign {w' : World} (h : (coreOf w').Signed (coreOf w₁).log) : ¬ Dead w w' := by
    obtain ⟨es', hlog', e, he, hsign⟩ := h
    exact Core.Signed.not_dead
      ⟨es' ++ es, by rw [hlog', hlog, List.append_assoc], e, List.mem_append_left _ he, hsign⟩
  cases hbuf : receiveBuffer w.s bytes with
  | none =>
    rw [hbuf] at hread
    obtain ⟨why, hrun⟩ := hread
    rw [hrun]
    refine iff_of_false (hsign (fail_signed depth why hended hdead.1)) ?_
    rintro ⟨buf, hsome, -⟩
    exact absurd (hbuf.symm.trans hsome) nofun
  | some buf =>
    rw [hbuf] at hread
    obtain ⟨hflow₁, hrun, hrx⟩ := hread
    have hread : readResponses w₁ = (if rxCap < buf.length then
        fail (ascii "Oversized RTSP response from the receiver") else responseLoop buf.length) w₁ := by
      unfold readResponses
      rw [sender_bind, hrx]
    rw [hrun, hread]
    by_cases hcap : rxCap < buf.length
    · rw [if_pos hcap]
      refine iff_of_false (hsign (fail_signed depth _ hended hdead.1)) ?_
      rintro ⟨buf', hsome, hle, -⟩
      obtain rfl := Option.some.inj (hbuf.symm.trans hsome)
      exact absurd hle (not_le.mpr hcap)
    rw [if_neg hcap]
    constructor
    · intro h
      refine ⟨buf, hbuf, not_lt.mp hcap, fun m method methods hfirst hm hheeded => ?_⟩
      rw [← hrx] at hfirst h
      rw [← hmethods] at hm
      rw [← hkinds] at hheeded
      exact hsign (responseLoop_signed depth _ w₁ hflow₁ hdead.1 hfirst hm hheeded) h
    · rintro ⟨buf', hsome, -, hquiet⟩
      obtain rfl := Option.some.inj (hbuf.symm.trans hsome)
      refine hdead.trans (responseLoop_dead _ w₁ hdead.1 fun m method methods hfirst hm => ?_)
      rw [hrx] at hfirst
      rw [hmethods] at hm
      rw [hkinds]
      exact hquiet m method methods hfirst hm

end Responses

/-! ## 3. Every notification -/

section Late

variable [Primitives] {w : World}

/-- An idle sender whose streaming timers and PIN timeout are off. -/
structure Asleep (w : World) : Prop where
  idle : w.s.state = .idle
  pacer : w.s.pacer.active = false
  sync : w.s.syncTimer.active = false
  pin : w.s.pinTimeout.active = false

/-- The PIN timeout is only armed while pairing. -/
theorem unpinned_step {k : Level} {c c' : Core} (hs : Step k c c')
    (h : c.state = .idle → c.timers.pinTimeout = false) :
    c'.state = .idle → c'.timers.pinTimeout = false := by
  intro hidle
  cases hs with
  | leave | ended | hangUp | expirePin | receiveBroken | typed => rfl
  | teardown _ text =>
    have harm : ∀ b : Bool, (bif b then Timers.arm {} .timeout else {}).pinTimeout = false := by
      decide
    exact harm _
  | connecting | beginPairing | clear | enter => cases hidle
  | arm _ t _ hpin =>
    cases t with
    | pinTimeout => exact absurd rfl hpin
    | _ => exact h hidle
  | lapse _ timers _ _ _ _ hpin =>
    rcases hpin with heq | ⟨hoff, _⟩
    · exact heq.trans (h hidle)
    · exact hoff
  | wait _ _ _ _ hst => exact absurd (hst.symm.trans hidle) nofun
  | _ => exact h hidle

/-- A reachable idle sender is asleep. -/
theorem Reachable.asleep (h : Reachable w) (hidle : w.s.state = .idle) : Asleep w where
  idle := hidle
  pacer := by
    cases hon : w.s.pacer.active with
    | false => rfl
    | true => exact absurd (hidle.symm.trans (h.flow.pacing (.inl hon))) nofun
  sync := by
    cases hon : w.s.syncTimer.active with
    | false => rfl
    | true => exact absurd (hidle.symm.trans (h.flow.pacing (.inr hon))) nofun
  pin := h.induct (I := fun c => c.state = .idle → c.timers.pinTimeout = false) (fun _ => rfl)
    (fun _ hs hi => unpinned_step hs hi) hidle

/-- A timer that comes due in an idle sender has nothing to do. -/
theorem tickTimer_dead [Host] (now : ℤ) (t : TimerId) (h : Asleep w) :
    Dead w (tickTimer now t w).2 ∧ Asleep (tickTimer now t w).2 := by
  by_cases hdue : (w.s.timer t).active = true ∧ (w.s.timer t).due ≤ now
  swap
  · rw [tickTimer_idle (by rw [not_and_or, not_le] at hdue; simpa using hdue)]
    exact ⟨.refl h.idle, h⟩
  obtain ⟨hactive, hdue⟩ := hdue
  rw [tickTimer_due hactive hdue]
  cases t with
  | timeout =>
    have hrun : onHandshakeTimeout (w.lapsed now .timeout) = (.ok (), w.lapsed now .timeout) := by
      refine onHandshakeTimeout_idle (.inr ?_)
      rw [show (w.lapsed now .timeout).s.state = .idle from h.idle]
      rfl
    show Dead w (onHandshakeTimeout (w.lapsed now .timeout)).2 ∧ Asleep _
    rw [show onTimer .timeout (w.lapsed now .timeout) = _ from hrun, hrun]
    exact ⟨.same h.idle rfl, ⟨h.idle, h.pacer, h.sync, h.pin⟩⟩
  | feedbackTimer =>
    have hrun : onTimer .feedbackTimer (w.lapsed now .feedbackTimer) =
        (.ok (), w.lapsed now .feedbackTimer) := by
      show onFeedbackTimer (w.lapsed now .feedbackTimer) = _
      unfold onFeedbackTimer
      rw [sender_bind, if_pos]
      · rfl
      · rw [show (w.lapsed now .feedbackTimer).s.state = .idle from h.idle]
        nofun
    rw [hrun]
    exact ⟨.same h.idle rfl, ⟨h.idle, h.pacer, h.sync, h.pin⟩⟩
  -- the other three are off
  | syncTimer => exact absurd (h.sync.symm.trans hactive) nofun
  | pacer => exact absurd (h.pacer.symm.trans hactive) nofun
  | pinTimeout => exact absurd (h.pin.symm.trans hactive) nofun

/-- The five timers, one after the other. -/
theorem tick_dead [Host] (h : Asleep w) : Dead w (tick w).2 := by
  let I : World → Prop := fun w' => Dead w w' ∧ Asleep w'
  have hstart : I (AirplaySender.now w).2 := ⟨.same h.idle rfl, h.idle, h.pacer, h.sync, h.pin⟩
  have hround {w' : World} (now : ℤ) (t : TimerId) (h' : I w') : I (tickTimer now t w').2 :=
    ⟨h'.1.trans (tickTimer_dead now t h'.2).1, (tickTimer_dead now t h'.2).2⟩
  refine (bind_keeps (I := I) hstart fun n w₁ h₁ => ?_).1
  refine bind_keeps (I := I) (hround n .timeout h₁) fun _ w₂ h₂ => ?_
  refine bind_keeps (I := I) (hround n .pinTimeout h₂) fun _ w₃ h₃ => ?_
  refine bind_keeps (I := I) (hround n .feedbackTimer h₃) fun _ w₄ h₄ => ?_
  exact bind_keeps (I := I) (hround n .syncTimer h₄) fun _ w₅ h₅ => hround n .pacer h₅

/-- A call of the application that is not `start` leaves the idle state only where a callback
starts a session. -/
theorem call_idle (depth : ℕ) {a : Api} (hflow : Flow (coreOf w)) (hidle : w.s.state = .idle)
    (ha : ∀ host port name, a ≠ .start host port name) :
    let w' := (@call _ (host depth) a w).2
    w'.s.state = .idle ∨ ∃ newer, w'.log = newer ++ w.log ∧ ∃ e ∈ newer, e.isStarted = true := by
  let _ := host depth
  have hnot : ¬ w.s.state = .streaming := by
    rw [hidle]
    intro hno
    cases hno
  cases a with
  | start host port name => exact absurd rfl (ha host port name)
  | setAuth | setIdentity | setInputFormat | attachRing | setStrictReceiverAuth => exact .inl hidle
  | stop =>
    left
    show (stop w).2.s.state = .idle
    unfold stop
    rw [sender_bind, if_pos hidle]
    exact hidle
  | setVolume pct =>
    left
    have hrun : setVolume pct w = (Prog.when (w.s.state = .streaming) (sendVolume (volumeDb pct)))
        { w with
          s := { w.s with pendingVolumeDb := volumeDb pct }
          out := .volumeSet (w.s.state = .streaming) (volumeDb pct) :: w.out } := rfl
    show (setVolume pct w).2.s.state = .idle
    rw [hrun, Prog.when, if_neg hnot]
    exact hidle
  | setNowPlaying title artist album cover coverMime =>
    left
    show (setNowPlaying title artist album cover coverMime w).2.s.state = .idle
    unfold setNowPlaying
    rw [sender_bind, setS_bind, sender_bind, Prog.when, if_neg fun h => hnot h.1]
    exact hidle
  | submitPin code =>
    show (submitPin code w).2.s.state = .idle ∨ _
    cases hwait : w.s.waitingForPin with
    | false =>
      left
      unfold submitPin
      rw [sender_bind, if_pos (by simp [hwait])]
      exact hidle
    | true =>
      obtain ⟨w₁, hrun, h₁, hwalk⟩ :=
        submitPin_split (k := .app) (host_tame depth) code hflow hwait
      have hflow₁ : Flow (coreOf w₁) := by
        rw [h₁]
        exact hflow.step (k := .app) (.typed _ code hwait)
      have hidle₁ : (coreOf w₁).state = .idle := by
        rw [h₁]
        exact hidle
      have hbase : Settled (coreOf w₁).log := by
        rw [h₁]
        exact settled_cons rfl _
      obtain ⟨_, newer, hlog, hover⟩ :=
        Past.walk hbase ⟨hflow₁, [], rfl, .inl hidle₁⟩ hwalk
      rw [h₁] at hlog
      rw [hrun]
      refine hover.imp_right ?_
      rintro ⟨e, he, hstarted⟩
      refine ⟨newer ++ [.armed .timeout, .typed (w.s.state ≠ .idle) code], ?_, e,
        List.mem_append_left _ he, hstarted⟩
      rw [List.append_assoc]
      show (coreOf (submitPin code w).2).log = _
      rw [hrun]
      exact hlog

/-- **A dead session stays dead**, but for one channel.  In every reachable idle sender a
notification has no effect an observer could see exactly if it is overlooked, which is to say
unless it is data on the control channel that does not open, is too much, or begins with a
response that is heeded; and of the calls of the application only `start` leaves the idle state. -/
theorem idle_deaf_iff (h : Reachable w) (hidle : w.s.state = .idle) (depth : ℕ) :
    (∀ a : Action, a.isNotification = true →
      (Dead w (@perform _ (host depth) a w).2 ↔ a.Overlooked w.s)) ∧
    ∀ a : Api, (∀ host port name, a ≠ .start host port name) →
      let w' := (@call _ (host depth) a w).2
      w'.s.state = .idle ∨ ∃ newer, w'.log = newer ++ w.log ∧ ∃ e ∈ newer, e.isStarted = true := by
  let _ := host depth
  refine ⟨fun a ha => ?_, fun a ha => call_idle depth h.flow hidle ha⟩
  have hsame (hrun : perform a w = (.ok (), w)) : Dead w (perform a w).2 := by
    rw [hrun]
    exact .refl hidle
  cases a with
  | call => cases ha
  | onTcpConnected ch localEnd peer =>
    refine iff_of_true (hsame ?_) trivial
    cases ch with
    | event => rfl
    | control =>
      show ((if w.s.state ≠ .connecting then return () else _) : M Unit) w = _
      rw [if_pos]
      · rfl
      · rw [hidle]
        nofun
  | onTcpConnectFailed ch reason =>
    refine iff_of_true (hsame ?_) trivial
    cases ch with
    | event => rfl
    | control =>
      show ((if w.s.state ≠ .idle then _ else return ()) : M Unit) w = _
      rw [if_neg (not_not.mpr hidle)]
      rfl
  | onTcpData ch bytes =>
    cases ch with
    | control => exact onRtspReadyRead_dead_iff depth bytes h.flow hidle
    | event =>
      refine iff_of_true (hsame ?_) trivial
      show onEventReadyRead bytes w = _
      unfold onEventReadyRead
      rw [sender_bind, if_pos hidle]
      rfl
  | onTcpClosed ch reason =>
    refine iff_of_true ?_ trivial
    cases ch with
    | event => exact hsame rfl
    | control =>
      let w₁ : World := { w with s := { w.s with rtspConnected := false } }
      have hrun : perform (.onTcpClosed .control reason) w = (.ok (), w₁) := by
        show ((if w.s.state = .idle then return () else _) : M Unit) w₁ = _
        rw [if_pos hidle]
        rfl
      rw [hrun]
      exact .same hidle rfl
  | onUdpDatagram u bytes source =>
    refine iff_of_true (hsame ?_) trivial
    show onUdpDatagram u bytes source w = _
    unfold onUdpDatagram
    rw [sender_bind, if_pos hidle]
    rfl
  | tick => exact iff_of_true (tick_dead (h.asleep hidle)) trivial

end Late

/-- A stream that was stopped sleeps through a tick. -/
theorem idle_deaf_iff_stream : Dead stoppedStream (@tick trusting (@host trusting 0) stoppedStream).2 :=
  ((@idle_deaf_iff trusting _ (worldAfter_reachable _) stoppedStream_idle.1 0).1 .tick rfl).mpr
    trivial

/-- The entries since, of a sender that stayed dead. -/
theorem Dead.signs {w w' : World} (h : Dead w w') :
    (w'.out.take (w'.out.length - w.out.length)).any Entry.isSign = false := by
  obtain ⟨_, es, hout, hes⟩ := h
  rw [hout, List.length_append, Nat.add_sub_cancel, List.take_left', List.any_eq_false]
  · exact fun e he => Bool.eq_false_iff.mp (hes e he)
  · rfl

/-- A session without authentication, stopped while OPTIONS is unanswered. -/
def stoppedOptions : List Action :=
  [.call (.setAuth .none false [] [] []), .call (.start (ascii "receiver") 7000 (ascii "Receiver")),
    .onTcpConnected .control loopback loopback, .call .stop]

/-- **The late answer to OPTIONS is answered with ANNOUNCE**, from the idle state. -/
theorem idle_heard :
    let w := worldAfter stoppedOptions
    @Reachable trusting w ∧ w.s.state = .idle ∧
      ¬ Dead w (@perform trusting (@host trusting 0) (.onTcpData .control (statusReply "200")) w).2 := by
  intro w
  obtain ⟨hidle, hsign⟩ : w.s.state = .idle ∧
      ((@perform trusting (@host trusting 0) (.onTcpData .control (statusReply "200")) w).2.out.take
        ((@perform trusting (@host trusting 0) (.onTcpData .control (statusReply "200")) w).2.out.length -
          w.out.length)).any Entry.isSign = true := by decide +kernel
  refine ⟨worldAfter_reachable _, hidle, fun h => ?_⟩
  rw [h.signs] at hsign
  cases hsign

end AirplaySender
