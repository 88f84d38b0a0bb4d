/-
# What the calls of an application do

The walks over the methods that an application call can reach: the request builders, `fail_`,
`start`, `stop` and the setters.  They hold at every level, so the receiver's side (`Replies`) uses
them too.

A callback hands control to the application, whose calls come back here.  `Tame` says that the
callbacks only take steps of level `app`; `host_tame` proves it for every nesting depth.
-/
import AirplaySender.Walk

namespace AirplaySender

open Octets Prog

/-! ## 1. Writing to the control channel -/

section Writing

variable [Primitives] {k : Level} {w : World} {β : Type} {P : β → World → Prop}

/-- An encryption under a key of the right length. -/
theorem seal_run {site : Site} {key nonce pt aad : Octets} (hkey : key.length = 32) (w : World) :
    chacha20Poly1305Encrypt site key nonce pt aad w =
      (.ok (chachaSeal key nonce pt aad), { w with out := .sealed site key nonce aad pt :: w.out }) := by
  unfold chacha20Poly1305Encrypt
  rw [if_neg (not_not.mpr hkey)]
  rfl

/-- A key of a wrong length is refused. -/
theorem seal_refused {site : Site} {key nonce pt aad : Octets} (hkey : key.length ≠ 32)
    (hs : Step k (coreOf w) { coreOf w with log := .keyRefused site :: (coreOf w).log }) :
    Walks k w (chacha20Poly1305Encrypt site key nonce pt aad) fun _ _ => False := by
  unfold chacha20Poly1305Encrypt
  rw [if_pos hkey]
  exact Within.modify_bind (.inr hs) Within.raise

/-- An encryption and the assignments that belong to it take one step together. -/
theorem Walks.seal_bind {site : Site} {key nonce pt aad : Octets} (hkey : key.length = 32)
    {g₁ g₂ : World → World} {f : Octets → M β} {c : Core} (hs : Step k (coreOf w) c)
    (hcore : coreOf (g₂ (g₁ { w with out := .sealed site key nonce aad pt :: w.out })) = c)
    (h : ∀ w', coreOf w' = c → Walks k w' (f (chachaSeal key nonce pt aad)) P) :
    Walks k w (chacha20Poly1305Encrypt site key nonce pt aad >>= fun ct =>
      (Prog.modify g₁ : M Unit) >>= fun _ => (Prog.modify g₂ : M Unit) >>= fun _ => f ct) P := by
  refine Within.advance ?_ (.inr ?_) (h _ hcore)
  · rw [bind_ok (seal_run hkey w)]
    rfl
  · rw [hcore]
    exact hs

/-- **The chunk loop writes the frames of the chunks, and moves the counter by their number.** -/
theorem sealLoop_run {key : Octets} (hkey : key.length = 32) :
    ∀ (fuel : ℕ) (data out : Octets) (w : World), sealLoop key fuel data out w =
      (.ok (out ++ frames key w.s.ctrlSendCtr (chunksOf fuel data)),
        { w with
          s := { w.s with
            ctrlSendCtr := w.s.ctrlSendCtr + UInt64.ofNat (chunksOf fuel data).length }
          out := frameSeals key w.s.ctrlSendCtr (chunksOf fuel data) ++ w.out }) := by
  intro fuel
  induction fuel with
  | zero =>
    intro data out w
    simp [sealLoop, chunksOf, frames, frameSeals]
  | succ fuel ih =>
    intro data out w
    by_cases hdata : data = []
    · simp [sealLoop, chunksOf, frames, frameSeals, hdata]
    · have hctr : ∀ n : ℕ, w.s.ctrlSendCtr + 1 + UInt64.ofNat n =
          w.s.ctrlSendCtr + UInt64.ofNat (n + 1) := by
        intro n
        rw [UInt64.ofNat_add, UInt64.add_assoc, UInt64.add_comm 1]
        rfl
      have hrun : sealLoop key (fuel + 1) data out w =
          sealLoop key fuel (data.drop 1024)
            (out ++ frame key w.s.ctrlSendCtr (data.take 1024))
            { w with
              s := { w.s with ctrlSendCtr := w.s.ctrlSendCtr + 1 }
              out := .sealed .control key (counterNonce8 w.s.ctrlSendCtr)
                (leBytes 2 (data.take 1024).length) (data.take 1024) :: w.out } := by
        rw [sealLoop, if_neg hdata]
        simp only [sender, setS, bind_run, get_run, pure_run, modify_run, seal_run hkey]
        simp [frame]
      rw [hrun, ih]
      simp [chunksOf, hdata, frames, frameSeals, hctr]

/-- The world after something was written to the control channel. -/
def World.wrote (w : World) (ctr : UInt64) (es : List Entry) : World :=
  { w with s := { w.s with ctrlSendCtr := ctr }, out := es ++ w.out }

/-- The world after a request was queued. -/
def World.queued (w : World) (method : Octets) (isHttp : Bool) (text : Octets) : World :=
  { w with
    s := { w.s with
      cseq := wrap32 (w.s.cseq + 1)
      pendingMethods := w.s.pendingMethods ++ [method]
      pendingIsHttp := w.s.pendingIsHttp ++ [isHttp] }
    out := .requested w.s.cseq method isHttp text :: w.out }

omit [Primitives] in
/-- What is written shows in the core, entry by entry. -/
theorem coreOf_wrote {es : List Entry} (h : ∀ e ∈ es, e.tracked = true) (w : World) (ctr : UInt64) :
    coreOf (w.wrote ctr es) = { coreOf w with sendCtr := ctr, log := es ++ (coreOf w).log } := by
  have hes : es.filter Entry.tracked = es := List.filter_eq_self.mpr h
  simp only [coreOf, World.wrote, List.filter_append, hes]
  rfl

/-- What is written to the control channel is on the record. -/
theorem tracked_writeEntries {c : Core} (text : Octets) :
    ∀ e ∈ c.writeEntries text, e.tracked = true := by
  intro e he
  rcases mem_writeEntries he with ⟨_, rfl⟩ | ⟨_, _, _, _, rfl⟩ <;> rfl

/-- Sealing and writing, in one run. -/
theorem sealSend_run {key : Octets} (hkey : key.length = 32) (fuel : ℕ) (data : Octets) (w : World) :
    (sealLoop key fuel data [] >>= fun out => emit (.tcpSend .control out)) w =
      (.ok (), w.wrote (w.s.ctrlSendCtr + UInt64.ofNat (chunksOf fuel data).length)
        (.tcpSend .control (frames key w.s.ctrlSendCtr (chunksOf fuel data)) ::
          frameSeals key w.s.ctrlSendCtr (chunksOf fuel data))) := by
  rw [bind_ok (sealLoop_run hkey fuel data [] w), List.nil_append]
  rfl

/-- `writeRtsp_` on a channel that is keyed where it is encrypted. -/
theorem writeRtsp_run (text : Octets)
    (hkey : ∀ a, w.s.controlEncrypted = true → w.s.ap2 = some a → a.controlOut.length = 32) :
    writeRtsp text w =
      (.ok (), w.wrote (w.s.ctrlSendCtr + UInt64.ofNat ((coreOf w).frameCount text))
        ((coreOf w).writeEntries text)) := by
  by_cases h : w.s.controlEncrypted = false ∨ w.s.ap2 = none
  · have hcount : (coreOf w).frameCount text = 0 := by
      rcases h with h | h <;> simp [Core.frameCount, coreOf, h]
    have hentries : (coreOf w).writeEntries text = [.tcpSend .control text] := by
      rcases h with h | h <;> simp [Core.writeEntries, coreOf, h]
    have hctr : w.s.ctrlSendCtr + UInt64.ofNat 0 = w.s.ctrlSendCtr := UInt64.add_zero _
    rw [hcount, hentries, hctr]
    unfold writeRtsp
    rw [sender_bind]
    rcases h with h | h
    · simp only [h]
      rfl
    · cases w.s.controlEncrypted <;> simp only [h] <;> rfl
  · obtain ⟨henc, a, ha⟩ : w.s.controlEncrypted = true ∧ ∃ a, w.s.ap2 = some a := by
      simpa [Option.ne_none_iff_exists'] using h
    have hcount : (coreOf w).frameCount text = (chunks text).length := by
      simp [Core.frameCount, coreOf, henc, ha]
    have hentries : (coreOf w).writeEntries text =
        .tcpSend .control (frames a.controlOut w.s.ctrlSendCtr (chunks text)) ::
          frameSeals a.controlOut w.s.ctrlSendCtr (chunks text) := by
      simp [Core.writeEntries, coreOf, henc, ha, keysOf]
    rw [hcount, hentries]
    unfold writeRtsp chunks
    -- the measured message is taken as it is: unfolding its 32-bit length is no use here
    generalize intPrefix text = data
    generalize data.length = fuel
    rw [sender_bind, ← sealSend_run (hkey a henc ha)]
    simp only [henc, ha]

omit [Primitives] in
/-- An encrypted channel has its key. -/
theorem Flow.controlOut {a : Ap2State} (h : Flow (coreOf w)) (henc : w.s.controlEncrypted = true)
    (ha : w.s.ap2 = some a) : a.controlOut.length = 32 := by
  obtain ⟨_, keys, hkeys, hout, _⟩ := h.encrypted henc
  have hsome : (coreOf w).keys = some (keysOf a) := congrArg (Option.map keysOf) ha
  rw [hsome] at hkeys
  obtain rfl := Option.some.inj hkeys
  exact hout

/-- Queueing a request and writing it. -/
theorem send_run (method : Octets) (isHttp : Bool) (text : Octets) (f : Unit → M β)
    (hkey : ∀ a, w.s.controlEncrypted = true → w.s.ap2 = some a → a.controlOut.length = 32) :
    ∃ w', (enqueue method isHttp text >>= fun _ => writeRtsp text >>= f) w = f () w' ∧
      coreOf w' = (coreOf w).request method isHttp text := by
  have hqueue : enqueue method isHttp text w = (.ok (), w.queued method isHttp text) := rfl
  have hwrite := writeRtsp_run (w := w.queued method isHttp text) text hkey
  refine ⟨_, by rw [bind_ok hqueue, bind_ok hwrite], ?_⟩
  exact coreOf_wrote (tracked_writeEntries text) _ _

/-- **Queueing a request and writing it is one step.** -/
theorem Walks.send {method text : Octets} {isHttp : Bool} {f : Unit → M β}
    (hcause : Cause k (coreOf w) method isHttp) (hawake : (coreOf w).Awake)
    (htext : IsRequest method w.s.cseq text)
    (h : ∀ w', coreOf w' = (coreOf w).request method isHttp text → Walks k w' (f ()) P) :
    Walks k w (enqueue method isHttp text >>= fun _ => writeRtsp text >>= f) P := by
  refine Within.given fun hflow => ?_
  obtain ⟨w', hrun, hcore⟩ := send_run method isHttp text f
    fun a henc ha => hflow.controlOut henc ha
  refine Within.advance hrun (.inr ?_) (h w' hcore)
  rw [hcore]
  exact .request _ method isHttp text hcause hawake htext

end Writing

/-! ## 2. The request builders -/

section Builders

variable [Primitives] {k : Level} {w : World}

/-- The texts of the four builders begin with their method and carry the number of the request. -/
theorem isRequest_rtspText {s : Sender} {method uri contentType body : Octets}
    {extra : List (Octets × Octets)} (h : wireMethod method = method) :
    IsRequest method s.cseq (rtspText s method uri contentType body extra) := by
  refine ⟨uri, "RTSP/1.0", ?_⟩
  simp only [rtspText, List.append_assoc, h]
  exact List.prefix_append _ _

omit [Primitives] in
theorem isRequest_httpText {s : Sender} {uri contentType body : Octets} :
    IsRequest (ascii "POST") s.cseq (httpText s uri contentType body) := by
  refine ⟨uri, "HTTP/1.1", ?_⟩
  have h : wireMethod (ascii "POST") = ascii "POST" := by decide
  simp only [httpText, List.append_assoc, h]
  exact List.prefix_append _ _

omit [Primitives] in
theorem isRequest_ap2Text {s : Sender} {method uri contentType body : Octets}
    (h : wireMethod method = method) :
    IsRequest method s.cseq (ap2Text s method uri contentType body) := by
  refine ⟨uri, "RTSP/1.0", ?_⟩
  simp only [ap2Text, List.append_assoc, h]
  exact List.prefix_append _ _

omit [Primitives] in
theorem isRequest_feedbackText {s : Sender} :
    IsRequest (ascii "FEEDBACK") s.cseq (feedbackText s) := by
  refine ⟨ascii "/feedback", "RTSP/1.0", ?_⟩
  have h : wireMethod (ascii "FEEDBACK") = ascii "POST" := by decide
  simp only [feedbackText, List.append_assoc, h]
  exact List.prefix_append _ _

/-- `sendRequest_` as a whole: the request, and a fresh window before the stream. -/
theorem sendRequest_run (method uri contentType body : Octets) (extra : List (Octets × Octets))
    (hkey : ∀ a, w.s.controlEncrypted = true → w.s.ap2 = some a → a.controlOut.length = 32) :
    ∃ w', sendRequest method uri contentType body extra w = (.ok (), w') ∧
      coreOf w' = ((coreOf w).request method false
        (rtspText w.s method uri contentType body extra)).rewind := by
  obtain ⟨w₁, hrun, hcore⟩ := send_run method false
    (rtspText w.s method uri contentType body extra)
    (fun _ => do
      let s ← sender
      Prog.when (s.state = .handshake ∨ s.state = .pairing) (arm .timeout)) hkey
  have hwhole : sendRequest method uri contentType body extra w =
      (Prog.when (w₁.s.state = .handshake ∨ w₁.s.state = .pairing) (arm .timeout)) w₁ := hrun
  rw [hwhole, ← hcore]
  by_cases hst : w₁.s.state = .handshake ∨ w₁.s.state = .pairing
  · refine ⟨(arm .timeout w₁).2, by rw [Prog.when, if_pos hst]; rfl, ?_⟩
    have hrewinds : (coreOf w₁).rewinds = true := by
      rcases hst with h | h <;> simp [Core.rewinds, coreOf, h]
    rw [coreOf_arm]
    simp [Core.rewind, Core.rewindEntries, hrewinds, Core.arm]
  · refine ⟨w₁, by rw [Prog.when, if_neg hst]; rfl, ?_⟩
    have hrewinds : (coreOf w₁).rewinds = false := by
      rw [not_or] at hst
      simp [Core.rewinds, coreOf, hst.1, hst.2]
    simp [Core.rewind, Core.rewindEntries, hrewinds]

/-- A request, and a fresh window before the stream. -/
theorem sendRequest_walks {method uri contentType body : Octets} {extra : List (Octets × Octets)}
    (hm : wireMethod method = method) (hcause : Cause k (coreOf w) method false)
    (hawake : (coreOf w).Awake) :
    Walks k w (sendRequest method uri contentType body extra) fun _ w' =>
      (coreOf w).Extends (coreOf w') := by
  refine Within.sender (Walks.send hcause hawake (isRequest_rtspText hm) fun w₁ h₁ => ?_)
  have hext : (coreOf w).Extends (coreOf w₁) := by
    rw [h₁]
    exact Core.request_extends ..
  refine Within.sender (Within.when (fun hst => ?_) fun _ => hext)
  have hlive : (coreOf w₁).state ≠ .idle := by
    intro hidle
    rcases hst with h | h <;> exact absurd (h.symm.trans hidle) (by simp)
  refine Walks.arm (.arm _ .timeout (.inl hlive) (by simp) (by simp)) fun w₂ h₂ => ?_
  rw [h₂]
  exact hext.trans (Core.arm_extends _ _)

/-- A pairing post, and a fresh window before the stream. -/
theorem httpPost_walks {uri contentType body : Octets}
    (hcause : Cause k (coreOf w) (ascii "POST") true) (hrearmed : (coreOf w).Rearmed) :
    Walks k w (httpPost uri contentType body) fun _ _ => True := by
  refine Within.sender (Walks.send hcause hrearmed.awake isRequest_httpText fun w₁ h₁ => ?_)
  refine Within.sender (Within.when (fun _ => ?_) fun _ => trivial)
  have hext : (coreOf w).Extends (coreOf w₁) := by
    rw [h₁]
    exact Core.request_extends ..
  exact Walks.arm (.arm _ .timeout (hext.rearmed hrearmed) (by simp) (by simp)) fun _ _ => trivial

omit [Primitives] in
theorem live_of_streaming {c : Core} (h : c.state = .streaming) : c.state ≠ .idle := by
  rw [h]
  nofun

/-- The volume is set in a stream. -/
theorem sendVolume_walks {dbfs : Float} (h : (coreOf w).state = .streaming) :
    Walks k w (sendVolume dbfs) fun _ w' => (coreOf w).Extends (coreOf w') :=
  Within.sender
    (sendRequest_walks (by decide) (.stream h (.inl rfl)) (.inl (live_of_streaming h)))

/-- A request or none. -/
theorem sendMetadata_walks (h : (coreOf w).state = .streaming) :
    Walks k w sendMetadata fun _ w' => (coreOf w).Extends (coreOf w') := by
  refine Within.sender (Within.ite (fun _ => Within.pure (.refl _)) fun _ => ?_)
  refine Within.ite (fun _ => Within.pure (.refl _)) fun _ => ?_
  have hsend {w : World} {uri contentType body : Octets} {extra : List (Octets × Octets)}
      (h : (coreOf w).state = .streaming) :
      Walks k w (sendRequest (ascii "SET_PARAMETER") uri contentType body extra)
        fun _ w' => (coreOf w).Extends (coreOf w') :=
    sendRequest_walks (by decide) (.stream h (.inl rfl)) (.inl (live_of_streaming h))
  refine Within.bind (Within.when (fun _ => hsend h) fun _ => .refl _) fun _ w₁ h₁ => ?_
  refine Within.when (fun _ => ?_) fun _ => h₁
  exact (hsend (h₁.1.trans h)).mono fun _ _ h₂ => h₁.trans h₂

end Builders

/-! ## 3. Lifecycle and setters -/

/-- Whatever the application does in a callback, it does through its calls. -/
def Tame [Primitives] [Host] : Prop :=
  ∀ e w, Due (coreOf w) e → Walks .app w (Host.fire e) fun _ _ => True

section Lifecycle

variable [Primitives] [Host] {k : Level} {w : World}

theorem fire_walks (hfire : Tame) {e : Event} (h : Due (coreOf w) e) :
    Walks k w (Host.fire e) fun _ _ => True :=
  (hfire e w h).ofApp

/-- The end of a session is reported once, behind the entry that records it. -/
theorem reportEnd_walks (hfire : Tame) {wasStarting : Bool} (why : Octets)
    (h : ∃ state waiting, (coreOf w).log.head? = some (.ending state waiting false) ∧
      wasStarting = decide (state ≠ .streaming)) :
    Walks k w (reportEnd wasStarting why) fun _ _ => True := by
  refine Walks.step_bind (.failed _ wasStarting h) rfl fun w₁ h₁ => ?_
  have hreport {w : World} (hq : wasStarting = false →
      (coreOf w).log.head? = some (.failed false)) :
      Walks k w (emit (.reported wasStarting) >>= fun _ => Host.fire .closed)
        fun _ _ => True := by
    refine Walks.step_bind (.reported _ wasStarting hq) rfl fun w₂ h₂ => ?_
    exact fire_walks hfire (.closed ⟨wasStarting, by rw [h₂]; rfl⟩)
  cases wasStarting with
  | false =>
    refine hreport fun _ => ?_
    rw [h₁]
    rfl
  | true =>
    refine Within.bind (Q := fun _ _ => True) ?_ fun _ _ _ => hreport nofun
    exact fire_walks hfire (.failed why (by rw [h₁]; rfl))

omit [Primitives] [Host] in
theorem releaseSockets_run (w : World) :
    ∃ w', releaseSockets w = (.ok (), w') ∧ coreOf w' = coreOf w := by
  have hquiet := Quiet.releaseSockets.core w
  have hok : (releaseSockets w).1 = .ok () := by
    unfold releaseSockets Prog.when
    rw [sender_bind]
    split <;> rfl
  exact ⟨_, Prod.ext hok rfl, hquiet⟩

omit [Primitives] in
/-- `fail_` closes what is open, then reports. -/
theorem reportFailure_run (wasStarting : Bool) (why : Octets) (w : World) :
    ∃ w', reportFailure wasStarting why w = reportEnd wasStarting why w' ∧
      coreOf w' = { coreOf w with connected := false } := by
  obtain ⟨w', hrun, hcore⟩ := releaseSockets_run { w with
    s := { w.s with rtspConnected := false }, out := .tcpClose .control false :: w.out }
  have hclose : reportFailure wasStarting why w =
      (releaseSockets >>= fun _ => reportEnd wasStarting why) { w with
        s := { w.s with rtspConnected := false }, out := .tcpClose .control false :: w.out } := rfl
  exact ⟨w', by rw [hclose, bind_ok hrun], hcore⟩

/-- What `fail_` still does once the timers are stopped: it closes the channel and reports. -/
theorem reportFailure_walks (hfire : Tame) {wasStarting : Bool} (why : Octets)
    (hidle : (coreOf w).state = .idle)
    (h : ∃ state waiting, (coreOf w).log.head? = some (.ending state waiting false) ∧
      wasStarting = decide (state ≠ .streaming)) :
    Walks k w (reportFailure wasStarting why) fun _ _ => True := by
  obtain ⟨w₁, hrun, h₁⟩ := reportFailure_run wasStarting why w
  refine Within.advance hrun (.inr ?_) (reportEnd_walks hfire why ?_)
  all_goals rw [h₁]
  · exact .disconnect _ hidle
  · exact h

/-- `fail_` ends the session, closes what is open and reports. -/
theorem fail_walks (hfire : Tame) (why : Octets) : Walks k w (fail why) fun _ _ => True := by
  refine Within.sender (Walks.step_bind (.ended _) rfl fun w₁ h₁ => ?_)
  refine reportFailure_walks hfire why (by rw [h₁]; rfl) ⟨w.s.state, w.s.waitingForPin, ?_, rfl⟩
  rw [h₁]
  rfl

/-- A connection that cannot be made fails the session at once. -/
theorem tcpConnect_walks (hfire : Tame) (host : Octets) (port : UInt16) :
    Walks k w (tcpConnect .control host port) fun _ _ => True := by
  refine Quiet.walks_bind (Overlooks.emit rfl) fun _ _ _ => ?_
  refine Quiet.walks_bind Quiet.ask fun failure _ _ => ?_
  cases failure with
  | none => exact Within.pure trivial
  | some reason =>
    exact Within.sender (Within.ite (fun _ => fail_walks hfire _) fun _ => Within.pure trivial)

omit [Host] in
/-- `stop` leaves the sender idle. -/
theorem stop_walks : Walks k w stop fun _ w' => (coreOf w').state = .idle := by
  refine Within.sender (Within.ite (fun hidle => ?_) fun hlive => Within.given fun hflow => ?_)
  · exact Within.modify (.inr (.stopped _ hidle)) hidle
  let rest : M Unit := do
    setS fun s => { s with rtspConnected := false }
    releaseSockets
    setS Sender.clearBacklog
    emit .stopped
  have hrest {w : World} (hidle : (coreOf w).state = .idle) :
      Walks k w rest fun _ w' => (coreOf w').state = .idle := by
    refine Walks.step_bind (.disconnect _ hidle) rfl fun w₁ h₁ => ?_
    refine Quiet.walks_bind Quiet.releaseSockets fun _ w₂ h₂ => ?_
    refine Quiet.walks_bind (Overlooks.setS fun _ => rfl) fun _ w₃ h₃ => ?_
    have hidle₃ : (coreOf w₃).state = .idle := by rw [h₃, h₂, h₁]; exact hidle
    exact Within.modify (.inr (.stopped _ hidle₃)) hidle₃
  let w₁ : World := { w with
    s := w.s.stopTimers, out := .ending w.s.state w.s.waitingForPin (needsTeardown w.s) :: w.out }
  have hcore₁ : coreOf w₁ = (coreOf w).ending (needsTeardown w.s) := rfl
  -- with a TEARDOWN the request and the close are one step, so that no step ends in between
  by_cases htear : needsTeardown w.s = true
  · obtain ⟨w₂, hrun, hcore₂⟩ := sendRequest_run (w := w₁) (ascii "TEARDOWN") w₁.s.rtspUri
      [] [] (sessionHeader w₁.s)
      fun a henc ha => hflow.controlOut (w := w) henc ha
    let w₃ : World := { w₂ with
      s := { w₂.s with state := .idle }, out := .tcpClose .control true :: w₂.out }
    have hcore₃ : coreOf w₃ = (((coreOf w).ending true).request (ascii "TEARDOWN") false
        (rtspText w₁.s (ascii "TEARDOWN") w₁.s.rtspUri [] [] (sessionHeader w₁.s))).rewind.closed := by
      rw [← htear, ← hcore₁, ← hcore₂]
      rfl
    refine Within.advance (?_ : _ = rest w₃) (.inr ?_) (hrest (by rw [hcore₃]; rfl))
    · show (Prog.when (needsTeardown w.s) _ >>= fun _ => _) w₁ = _
      rw [bind_ok (show Prog.when (needsTeardown w.s) (sendRequest (ascii "TEARDOWN")
        w.s.rtspUri [] [] (sessionHeader w.s)) w₁ = (.ok (), w₂) by rw [Prog.when, if_pos htear]; exact hrun)]
      rfl
    · rw [hcore₃]
      exact .teardown _ _ hlive (isRequest_rtspText (s := w₁.s) (by decide))
  · let w₃ : World := { w₁ with
      s := { w₁.s with state := .idle }, out := .tcpClose .control true :: w₁.out }
    have hcore₃ : coreOf w₃ = ((coreOf w).ending false).closed := by
      rw [← Bool.eq_false_iff.mpr htear, ← hcore₁]
      rfl
    refine Within.advance (?_ : _ = rest w₃) (.inr ?_) (hrest (by rw [hcore₃]; rfl))
    · show (Prog.when (needsTeardown w.s) _ >>= fun _ => _) w₁ = _
      rw [Prog.when, if_neg htear]
      rfl
    · rw [hcore₃]
      exact .leave _ hlive

/-- `start` stops the session there is, draws what the next one needs, and connects once its three
sockets are bound. -/
theorem start_walks (hfire : Tame) (host : Octets) (port : UInt16) (name : Octets) :
    Walks k w (start host port name) fun _ _ => True := by
  refine stop_walks.bind fun _ w₁ h₁ => ?_
  refine Quiet.walks_bind (Overlooks.setS fun _ => rfl) fun _ w₂ h₂ => ?_
  refine Quiet.walks_bind Overlooks.rand32 fun _ w₃ h₃ => ?_
  refine Quiet.walks_bind (Overlooks.setS fun _ => rfl) fun _ w₄ h₄ => ?_
  refine Quiet.walks_bind Overlooks.rand64 fun _ w₅ h₅ => ?_
  refine Quiet.walks_bind (Overlooks.setS fun _ => rfl) fun _ w₆ h₆ => ?_
  refine Quiet.walks_bind Overlooks.rand32 fun _ w₇ h₇ => ?_
  refine Quiet.walks_bind (Overlooks.setS fun _ => rfl) fun _ w₈ h₈ => ?_
  refine Quiet.walks_bind Overlooks.rand16 fun _ w₉ h₉ => ?_
  refine Quiet.walks_bind (Overlooks.setS fun _ => rfl) fun _ w₁₀ h₁₀ => ?_
  have hidle : (coreOf w₁₀).state = .idle := by
    rw [h₁₀, h₉, h₈, h₇, h₆, h₅, h₄, h₃, h₂]
    exact h₁
  refine Within.sender (Within.modify_bind (.inr (.restart _ hidle)) ?_)
  refine Quiet.walks_bind (Quiet.udpBind _) fun timingPort w₁₁ h₁₁ => ?_
  refine Quiet.walks_bind (Overlooks.setS fun _ => rfl) fun _ w₁₂ h₁₂ => ?_
  refine Quiet.walks_bind (Quiet.udpBind _) fun controlPort w₁₃ h₁₃ => ?_
  refine Quiet.walks_bind (Overlooks.setS fun _ => rfl) fun _ w₁₄ h₁₄ => ?_
  refine Quiet.walks_bind (Quiet.udpBind _) fun audioPort w₁₅ h₁₅ => ?_
  refine Quiet.walks_bind (Overlooks.setS fun _ => rfl) fun _ w₁₆ h₁₆ => ?_
  -- what follows the reset draws ports, which the core does not show
  have hfresh : coreOf w₁₆ = (coreOf w₁₀).fresh := by
    rw [h₁₆, h₁₅, h₁₄, h₁₃, h₁₂, h₁₁]
    rfl
  have hstill : (coreOf w₁₆).state = .idle := by rw [hfresh]; exact hidle
  have hhead : ∃ auth airplay2 strict,
      (coreOf w₁₆).log.head? = some (.started auth airplay2 strict) := by
    rw [hfresh]
    exact ⟨_, _, _, rfl⟩
  refine Within.ite (fun _ => ?_) fun _ => ?_
  · refine Quiet.walks_bind Quiet.releaseSockets fun _ w₁₇ h₁₇ => fire_walks hfire ?_
    rw [← h₁₇] at hhead hstill
    exact .unbound _ hhead hstill
  · have huntouched : (coreOf w₁₆).Untouched := by
      rw [hfresh]
      exact ⟨rfl, rfl, rfl, rfl, by simp [Core.fresh], rfl⟩
    refine Walks.assign_arm (.connecting _ huntouched hstill hhead) rfl fun _ _ => ?_
    exact tcpConnect_walks hfire _ _

omit [Host] in
/-- A volume set in a stream is sent at once. -/
theorem setVolume_walks (pct : Float) : Walks k w (setVolume pct) fun _ _ => True := by
  refine Within.sender (Quiet.walks_bind (Fixes.modify fun _ => rfl) fun _ w₁ h₁ => ?_)
  refine Within.when (fun hst => ?_) fun _ => trivial
  have hst₁ : (coreOf w₁).state = .streaming := by
    rw [h₁]
    exact hst
  exact (sendVolume_walks hst₁).mono fun _ _ _ => trivial

omit [Host] in
/-- Metadata given in a stream is sent at once. -/
theorem setNowPlaying_walks (title artist album cover coverMime : Octets) :
    Walks k w (setNowPlaying title artist album cover coverMime) fun _ _ => True := by
  refine Within.sender (Quiet.walks_bind (Overlooks.setS fun _ => rfl) fun _ w₁ _ => Within.sender ?_)
  refine Within.when (fun hst => ?_) fun _ => trivial
  exact (sendMetadata_walks hst.1).mono fun _ _ _ => trivial

/-- Pair-setup M3, for the fixed PIN of a transient pairing or one the user typed. -/
theorem sendPairSetupM3_walks (hfire : Tame) {pin : Octets} (hstage : (coreOf w).stage = .setupM2)
    (hwait : (coreOf w).waiting = false) (hkinds : true ∉ (coreOf w).kinds)
    (hrearmed : (coreOf w).Rearmed)
    (hpin : ((coreOf w).auth = .hapTransient ∧ pin = ascii "3939") ∨
      ∃ live, Entry.typed live pin ∈ sessionOf (coreOf w).log) :
    Walks k w (sendPairSetupM3 pin) fun _ _ => True := by
  -- the source dereferences `ap2_` here without looking
  have hnull {w : World} (hst : (coreOf w).stage = .setupM2) (hn : w.s.ap2 = none) :
      (coreOf w).Faulty := .inl ⟨congrArg (Option.map keysOf) hn, .inl (by rw [hst]; rfl)⟩
  have hstart {w : World} {a : Ap2State} {srp : SrpClient} (hst : (coreOf w).stage = .setupM2)
      (hw : (coreOf w).waiting = false) (ha : w.s.ap2 = some a) (hK : srp.K = []) :
      Moves k w { w with s := { w.s with ap2 := some { a with srp := some srp } } } := by
    have hkeys : (coreOf w).keys = some (keysOf a) := congrArg (Option.map keysOf) ha
    have hcore : coreOf { w with s := { w.s with ap2 := some { a with srp := some srp } } } =
        { coreOf w with keys := some { keysOf a with srpK := some [] } } := by
      simp only [coreOf, keysOf, Option.map_some, hK]
      rfl
    refine .inr ?_
    rw [hcore]
    exact .srpStart _ _ hst hw hkeys
  refine Walks.ap2Set (hnull hstage) (fun a ha => hstart hstage hwait ha rfl) fun a ha => ?_
  refine Quiet.walks_bind (Overlooks.randomBytes 32) fun aBytes w₁ h₁ => ?_
  have hstage₁ : (coreOf w₁).stage = .setupM2 := by rw [h₁]; exact hstage
  have hwait₁ : (coreOf w₁).waiting = false := by rw [h₁]; exact hwait
  refine Walks.ap2Set (hnull hstage₁) (fun b hb => hstart hstage₁ hwait₁ hb rfl) fun b hb =>
    Within.sender ?_
  dsimp only
  split
  case h_1 => exact Within.raise
  case h_2 => exact fail_walks hfire _
  case h_3 c hdone =>
    have hpin₁ : ((coreOf w₁).auth = .hapTransient ∧ pin = ascii "3939") ∨
        ∃ live, Entry.typed live pin ∈ sessionOf (coreOf w₁).log := by rw [h₁]; exact hpin
    refine Walks.step_bind₂ (.srpAgreed _ { keysOf b with srpK := some [] } pin c.K
      hstage₁ hwait₁ rfl (SrpClient.length_K hdone) hpin₁) rfl fun w₂ h₂ => ?_
    have hext₁ : (coreOf w).Extends (coreOf w₁) := by
      rw [h₁]
      exact ⟨rfl, [], rfl, by simp⟩
    have hext₂ : (coreOf w₁).Extends (coreOf w₂) := by
      rw [h₂]
      exact ⟨rfl, [_, _], rfl, by simp [Entry.isLife, Entry.isStop]⟩
    have hext := hext₁.trans hext₂
    refine (httpPost_walks (.post ?_ ?_ ?_ ?_ ?_) (hext.rearmed hrearmed)).mono fun _ _ _ => trivial
    all_goals rw [h₂]
    · rfl
    · rfl
    · exact hwait₁
    · show true ∉ (coreOf w₁).kinds
      rw [h₁]
      exact hkinds
    · exact fun _ => rfl

/-- A PIN is taken and its window opened, then the key exchange runs. -/
theorem submitPin_split (hfire : Tame) (code : Octets) (hflow : Flow (coreOf w))
    (hwait : w.s.waitingForPin = true) : ∃ w₁,
    submitPin code w = sendPairSetupM3 code w₁ ∧
    coreOf w₁ = ({ coreOf w with
      waiting := false
      timers := { (coreOf w).timers with pinTimeout := false }
      log := .typed (w.s.state ≠ .idle) code :: (coreOf w).log } : Core).arm .timeout ∧
    Walks k w₁ (sendPairSetupM3 code) fun _ _ => True := by
  obtain ⟨hstage, hkinds⟩ := hflow.waiting hwait
  let w₀ : World := { w with
    s := ({ w.s with waitingForPin := false } : Sender).disarm .pinTimeout
    out := .typed (w.s.state ≠ .idle) code :: w.out }
  have h₁ : coreOf (arm .timeout w₀).2 = (coreOf w₀).arm .timeout := coreOf_arm _ _
  refine ⟨(arm .timeout w₀).2, ?_, h₁, ?_⟩
  · unfold submitPin
    rw [sender_bind, if_neg (by simp [hwait])]
    rfl
  refine sendPairSetupM3_walks hfire ?_ ?_ ?_ ?_ (.inr ⟨w.s.state ≠ .idle, ?_⟩)
  all_goals rw [h₁]
  · exact hstage
  · rfl
  · exact hkinds
  · by_cases hst : w.s.state = .idle
    · refine .inr ⟨.typed false code, ?_, rfl⟩
      show _ ∈ afterStop (.armed .timeout :: .typed (w.s.state ≠ .idle) code :: (coreOf w).log)
      simp [afterStop, Entry.isStarted, Entry.isStop, hst]
    · exact .inl hst
  · show _ ∈ sessionOf (.armed .timeout :: .typed (w.s.state ≠ .idle) code :: (coreOf w).log)
    rw [sessionOf_cons rfl, sessionOf_cons rfl]
    exact List.mem_cons_of_mem _ List.mem_cons_self

/-- A PIN nobody waits for is dropped. -/
theorem submitPin_walks (hfire : Tame) (code : Octets) :
    Walks k w (submitPin code) fun _ _ => True := by
  refine Within.given fun hflow => ?_
  cases hwait : w.s.waitingForPin with
  | false =>
    have hrun : submitPin code w = (pure () : M Unit) w := by
      unfold submitPin
      rw [sender_bind, if_pos (by simp [hwait])]
    exact Within.advance hrun (.inl rfl) (Within.pure trivial)
  | true =>
    obtain ⟨w₁, hrun, h₁, hwalk⟩ := submitPin_split (k := k) hfire code hflow hwait
    refine Within.advance hrun (.inr ?_) hwalk
    rw [h₁]
    exact .typed _ code hwait

/-- **Every call of the application walks.** -/
theorem call_walks (hfire : Tame) (a : Api) : Walks k w (call a) fun _ _ => True := by
  cases a with
  | setAuth auth airplay2 deviceId credsJson password =>
    exact Within.sender (Within.modify (.inr (.configure _ auth airplay2)) trivial)
  | setIdentity => exact Quiet.walks (Overlooks.setS fun _ => rfl) fun _ _ _ => trivial
  | setInputFormat => exact Quiet.walks (Overlooks.setS fun _ => rfl) fun _ _ _ => trivial
  | attachRing => exact Quiet.walks (Overlooks.setS fun _ => rfl) fun _ _ _ => trivial
  | setStrictReceiverAuth strict =>
    exact Within.modify (.inr (.guard _ strict)) trivial
  | start host port name => exact start_walks hfire host port name
  | stop => exact stop_walks.mono fun _ _ _ => trivial
  | submitPin code => exact submitPin_walks hfire code
  | setVolume pct => exact setVolume_walks pct
  | setNowPlaying title artist album cover coverMime =>
    exact setNowPlaying_walks title artist album cover coverMime

end Lifecycle

/-- **Callbacks of any nesting depth are calls of the application.** -/
theorem host_tame [Primitives] (depth : ℕ) : @Tame _ (host depth) := by
  induction depth with
  | zero => exact fun e w hdue => Within.modify (.inr (.event _ e hdue)) trivial
  | succ depth ih =>
    intro e w hdue
    refine Walks.step_bind (.event _ e hdue) rfl fun _ _ => ?_
    refine Quiet.walks_bind Quiet.ask fun calls w' _ => ?_
    exact Within.each (fun a _ _ => @call_walks _ (host depth) _ _ ih a) calls w' trivial

/-- A callback is its entry, then calls of the application. -/
theorem host_fire [Primitives] (depth : ℕ) (e : Event) : ∃ rest : M Unit,
    (host depth).fire e = (emit (.event e) >>= fun _ => rest) ∧
      ∀ w, Walks .app w rest fun _ _ => True := by
  cases depth with
  | zero => exact ⟨pure (), rfl, fun w => Within.pure trivial⟩
  | succ depth =>
    refine ⟨_, rfl, fun w => Quiet.walks_bind Quiet.ask fun calls w' _ => ?_⟩
    exact Within.each (fun a _ _ => @call_walks _ (host depth) _ _ (host_tame depth) a) calls w' trivial

end AirplaySender
