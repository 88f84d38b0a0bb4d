/-
# What a reply sets off

The walks over streaming, the setup sequences and pairing.  A reply is dispatched to the handler of
its stage, the handler looks into the body, and what it then does is a step of the protocol or the
end of the session.

Each lemma has as hypotheses what its callers have established: a stage, a session past
authentication, no unanswered pairing post, in strict mode a proof on the record.  None of it is
checked again by the code, so it has to be handed down from the dispatcher (`onPairingResponse_walks`)
to the assignment that relies on it, through whatever comes between.  What comes between leaves the
core alone or extends its trace, and `Flow`, which the judgment carries, gives the rest: that a stage
of pairing is in state Pairing, that there are keys behind the first stages, that the control channel
is in the clear until authentication is over.

A step is as large as the protocol asks, and no larger: the audio key and the request that offers it
are one step, a post and the stage it belongs to are two.
-/
import AirplaySender.Calls
import AirplaySender.BplistRoundTrip

namespace AirplaySender

open Octets Prog

/-! ## 1. Streaming -/

section Streaming

variable [Primitives] {w : World}

/-- A packet that is asked for again, to a sender that is not idle.  No stream need be running. -/
theorem retransmit_walks (source : Endpoint) (seq : UInt16) (hlive : (coreOf w).state ≠ .idle) :
    Walks .host w (retransmit source seq) fun _ w' => (coreOf w').state ≠ .idle := by
  refine Within.sender (Within.ite (fun _ => Within.pure hlive) fun _ => ?_)
  refine Within.modify (.inr (.datagram _ .control source _ hlive fun hmedia => ?_)) hlive
  rcases hmedia with h | ⟨_, h⟩
  · cases h
  · simp at h

/-- A resend request, for each packet it names. -/
theorem onControlDatagram_walks (dg : Octets) (source : Endpoint)
    (hlive : (coreOf w).state ≠ .idle) :
    Walks .host w (onControlDatagram dg source) fun _ _ => True := by
  refine Within.ite (fun _ => Within.pure trivial) fun _ => ?_
  refine Within.ite (fun _ => Within.pure trivial) fun _ => ?_
  refine Within.mono (Within.each (J := fun w => (coreOf w).state ≠ .idle) ?_ _ w hlive)
    fun _ _ _ => trivial
  exact fun i w hlive => retransmit_walks _ _ hlive

/-- A timing reply is no media and may go out in any live session. -/
theorem onTimingDatagram_walks (dg : Octets) (source : Endpoint)
    (hlive : (coreOf w).state ≠ .idle) :
    Walks .host w (onTimingDatagram dg source) fun _ _ => True := by
  refine Within.ite (fun _ => Within.pure trivial) fun _ => ?_
  refine Quiet.walks_bind Overlooks.ntpNow fun _ w₁ h₁ => ?_
  rw [← h₁] at hlive
  refine Within.modify (.inr (.datagram _ .timing source _ hlive fun hmedia => ?_)) trivial
  rcases hmedia with h | ⟨h, _⟩ <;> cases h

/-- A sync packet is media, and needs a stream. -/
theorem sendSyncPacket_walks {first : Bool} (h : (coreOf w).state = .streaming) :
    Walks .host w (sendSyncPacket first) fun _ w' => (coreOf w).Extends (coreOf w') := by
  refine Within.sender (Within.ite (fun _ => Within.pure (.refl _)) fun _ => ?_)
  refine Within.modify (.inr (.datagram _ .control _ _ (live_of_streaming h) fun _ => h)) ?_
  exact .one rfl rfl ⟨rfl, rfl⟩

/-- Sealing the payload is one use of the audio key. -/
theorem encryptAudioPayload_walks {rtpHeader payload : Octets} (h : (coreOf w).state = .streaming) :
    Walks .host w (encryptAudioPayload rtpHeader payload) fun _ w' =>
      (coreOf w').state = .streaming := by
  refine Within.sender ?_
  cases ha : w.s.ap2 with
  | none => exact Within.pure h
  | some a =>
    refine Within.ite (fun _ => Within.pure h) fun henc => ?_
    have hkeys : (coreOf w).keys = some (keysOf a) := congrArg (Option.map keysOf) ha
    have haudio : a.encryptAudio = true := by simpa using henc
    by_cases hkey : a.audioKey.length = 32
    · let w₁ : World := { w with
        s := { w.s with ap2 := some { a with audioNonce := a.audioNonce + 1 } }
        out := .sealed .audio a.audioKey (counterNonce8 a.audioNonce) ((rtpHeader.drop 4).take 8)
          payload :: w.out }
      have hrun : (chacha20Poly1305Encrypt .audio a.audioKey (counterNonce8 a.audioNonce) payload
          ((rtpHeader.drop 4).take 8) >>= fun ct =>
            ap2Set (fun a => { a with audioNonce := a.audioNonce + 1 }) >>= fun _ =>
              (pure (ct ++ counterNonce8 a.audioNonce) : M Octets)) w =
          (pure (chachaSeal a.audioKey (counterNonce8 a.audioNonce) payload
            ((rtpHeader.drop 4).take 8) ++ counterNonce8 a.audioNonce) : M Octets) w₁ := by
        rw [bind_ok (seal_run hkey w)]
        simp [ap2Set, ap2Get, sender, setS, bind_run, ha, w₁]
      have hstep := Step.sealAudio (coreOf w) (keysOf a) ((rtpHeader.drop 4).take 8) payload h hkeys
        haudio
      exact Within.advance hrun (.inr hstep) (Within.pure h)
    · -- the cipher refuses the key: the exception leaves the tick
      refine (seal_refused hkey (.keyRefused _ (keysOf a) hkeys haudio hkey)).bind ?_
      exact fun _ _ hf => hf.elim

/-- **A packet**: the frames are nothing the core sees, sealing them uses up a nonce, and the packet
is media. -/
theorem sendAudioPacket_walks (h : (coreOf w).state = .streaming) :
    Walks .host w sendAudioPacket fun _ w' => (coreOf w').state = .streaming := by
  refine Quiet.walks_bind (Overlooks.fillFrames Quiet.deaf _) fun samples w₁ h₁ => Within.sender ?_
  rw [← h₁] at h
  refine (encryptAudioPayload_walks h).bind fun wirePayload w₂ h₂ => ?_
  refine Walks.step_bind (.datagram _ .audio _ _ (live_of_streaming h₂) fun _ => h₂) rfl
    fun w₃ h₃ => ?_
  refine Quiet.walks (Overlooks.setS fun _ => rfl) fun _ w₄ h₄ => ?_
  rw [h₄, h₃]
  exact h₂

/-- Every packet of a tick finds the stream running, since the one before leaves it so. -/
theorem pacerLoop_walks (target : UInt64) :
    ∀ (n : ℕ) (w : World), (coreOf w).state = .streaming →
      Walks .host w (pacerLoop target n) fun _ _ => True := by
  intro n
  induction n with
  | zero => exact fun w _ => Within.pure trivial
  | succ n ih =>
    intro w h
    refine Within.sender (Within.when (fun _ => ?_) fun _ => trivial)
    exact (sendAudioPacket_walks h).bind fun _ w' hw' => ih w' hw'

theorem onPacerTick_walks (h : (coreOf w).state = .streaming) :
    Walks .host w onPacerTick fun _ _ => True := by
  refine Quiet.walks_bind Quiet.now fun _ w₁ h₁ => Within.sender ?_
  exact pacerLoop_walks _ _ _ (by rw [h₁]; exact h)

/-- The feedback timer is armed in a live session; the request of the older protocol belongs to the
stream. -/
theorem startFeedback_walks (h : (coreOf w).state = .streaming) :
    Walks .host w startFeedback fun _ w' => (coreOf w).Extends (coreOf w') := by
  refine Within.sender (Within.ite (fun _ => ?_) fun _ => ?_)
  · refine Quiet.walks_bind (Overlooks.setS fun _ => rfl) fun _ w₁ h₁ => ?_
    rw [← h₁] at h ⊢
    refine Walks.arm (.arm _ .feedbackTimer (.inl (live_of_streaming h)) (by simp) (by simp)) ?_
    exact fun w₂ h₂ => by rw [h₂]; exact Core.arm_extends _ _
  · refine Quiet.walks_bind (Overlooks.setS fun _ => rfl) fun _ w₁ h₁ => ?_
    rw [← h₁] at h ⊢
    exact sendRequest_walks (by decide) (.stream h (.inr (.inl rfl))) (.inl (live_of_streaming h))

variable [Host]

/-- The stream is entered, then opened. -/
theorem startStreaming_split (hfire : Tame) : ∃ rest : M Unit,
    startStreaming = (setAndEmit
      (fun s => ({ s with state := .streaming } : Sender).disarm .timeout) .entered >>= fun _ => rest) ∧
    ∀ w, (coreOf w).state = .streaming → lastLife (coreOf w).log = some .entered →
      Walks .host w rest fun _ _ => True := by
  refine ⟨_, rfl, fun w₁ hst hlife => ?_⟩
  -- nothing in the opening leaves the stream: each piece only extends the core it starts from
  have hs {w : World} (hext : (coreOf w₁).Extends (coreOf w)) : (coreOf w).state = .streaming := by
    rw [hext.1, hst]
  refine Quiet.walks_bind Overlooks.ntpNow fun ntp w₂ h₂ => ?_
  refine Quiet.walks_bind (Overlooks.setS fun _ => rfl) fun _ w₃ h₃ => ?_
  refine Quiet.walks_bind Quiet.now fun n w₄ h₄ => ?_
  refine Quiet.walks_bind (Overlooks.setS fun _ => rfl) fun _ w₅ h₅ => ?_
  have e₅ : (coreOf w₁).Extends (coreOf w₅) := by
    rw [h₅, h₄, h₃, h₂]
    exact .refl _
  refine (sendSyncPacket_walks (hs e₅)).bind fun _ w₆ h₆ => ?_
  have e₆ := e₅.trans h₆
  refine Walks.arm_bind (.arm _ .syncTimer (.inl (live_of_streaming (hs e₆))) (by simp)
    fun _ => hs e₆) fun w₇ h₇ => ?_
  have e₇ : (coreOf w₁).Extends (coreOf w₇) := by
    rw [h₇]
    exact e₆.trans (Core.arm_extends _ _)
  refine Quiet.walks_bind (Overlooks.setS fun w => ?_) fun _ w₈ h₈ => Within.sender ?_
  · unfold defaultVolume
    split <;> rfl
  rw [← h₈] at e₇
  refine Within.bind (Within.when (fun _ => sendVolume_walks (hs e₇)) fun _ => .refl _)
    fun _ w₉ h₉ => ?_
  have e₉ := e₇.trans h₉
  refine Walks.arm_bind (.arm _ .pacer (.inl (live_of_streaming (hs e₉))) (by simp)
    fun _ => hs e₉) fun w₁₀ h₁₀ => ?_
  have e₁₀ : (coreOf w₁).Extends (coreOf w₁₀) := by
    rw [h₁₀]
    exact e₉.trans (Core.arm_extends _ _)
  refine (startFeedback_walks (hs e₁₀)).bind fun _ w₁₁ h₁₁ => ?_
  have e₁₁ := e₁₀.trans h₁₁
  refine (sendMetadata_walks (hs e₁₁)).bind fun _ w₁₂ h₁₂ => ?_
  have e₁₂ := e₁₁.trans h₁₂
  refine fire_walks hfire (.launched ?_ (hs e₁₂))
  rw [e₁₂.lastLife, hlife]

/-- The entry itself is the step that needs a cause: an entrance, a session past authentication, and
no stream so far. -/
theorem startStreaming_walks (hfire : Tame) (h : (coreOf w).Entrance) (hc : Cleared (coreOf w).log)
    (hlive : (coreOf w).Awake) (hst : (coreOf w).state ≠ .streaming) :
    Walks .host w startStreaming fun _ _ => True := by
  obtain ⟨rest, hsplit, hrest⟩ := startStreaming_split hfire
  rw [hsplit]
  refine Walks.step_bind (.enter _ h hc hlive hst) rfl fun w₁ h₁ => hrest w₁ ?_ ?_
  · rw [h₁]
  · rw [h₁]
    rfl

end Streaming

/-! ## 2. The setup sequences

Two protocols share the code.  AirPlay 1 asks `OPTIONS`, `ANNOUNCE`, `SETUP`, `RECORD`, each on the
reply before it; AirPlay 2 asks `/info`, `SETUP`, `RECORD`, `SETUP`, and keeps the place it has reached
in the pairing stage.  A stage of either is entered together with its request (`setup_walks`), so in
every world the queue and the stage tell the same story. -/

/-- No pairing post is unanswered, and no PIN is awaited. -/
structure Core.Rests (c : Core) : Prop where
  waiting : c.waiting = false
  quiet : true ∉ c.kinds

/-- The core in a new stage. -/
def Core.staged (c : Core) (stage : PairStage) : Core :=
  { c with stage := stage, log := .staged stage :: c.log }

/-- A stage of pairing is entered with its post. -/
theorem Core.Rests.post {c : Core} {stage : PairStage} (h : c.Rests) (hp : stage.pairing = true) :
    Cause .host (c.staged stage) (ascii "POST") true :=
  .post rfl hp h.waiting h.quiet nofun

/-- The newest entry, as a part of the session. -/
theorem cleared_of_head {log : List Entry} {auth : Auth} {setup2 paired : Bool}
    (h : log.head? = some (.cleared auth setup2 paired)) : Cleared log := by
  obtain ⟨rest, rfl⟩ := List.head?_eq_some_iff.mp h
  exact ⟨auth, setup2, paired, List.mem_cons_self⟩

section Setup

variable [Primitives] {w : World}

/-- The four requests of AirPlay 1, each with the cause its caller has for it. -/
theorem sendOptions_walks (hcause : Cause .host (coreOf w) (ascii "OPTIONS") false)
    (hawake : (coreOf w).Awake) : Walks .host w sendOptions fun _ _ => True :=
  (sendRequest_walks (by decide) hcause hawake).mono fun _ _ _ => trivial

theorem sendAnnounce_walks (hcause : Cause .host (coreOf w) (ascii "ANNOUNCE") false)
    (hawake : (coreOf w).Awake) : Walks .host w sendAnnounce fun _ _ => True :=
  Within.sender ((sendRequest_walks (by decide) hcause hawake).mono fun _ _ _ => trivial)

theorem sendSetup_walks (hcause : Cause .host (coreOf w) (ascii "SETUP") false)
    (hawake : (coreOf w).Awake) : Walks .host w sendSetup fun _ _ => True :=
  Within.sender ((sendRequest_walks (by decide) hcause hawake).mono fun _ _ _ => trivial)

theorem sendRecord_walks (hcause : Cause .host (coreOf w) (ascii "RECORD") false)
    (hawake : (coreOf w).Awake) : Walks .host w sendRecord fun _ _ => True :=
  Within.sender ((sendRequest_walks (by decide) hcause hawake).mono fun _ _ _ => trivial)

/-- **A stage of the setup is entered with its request, in one step.** -/
theorem setup_walks {stage : PairStage} {method contentType body : Octets} {next : M Unit}
    (uri : World → Octets) (hnext : ∀ w, next w = sendAp2Rtsp method (uri w) contentType body w)
    (hf : Follows (coreOf w).stage stage) (hmethod : stage.setupMethod = some method)
    (hm : wireMethod method = method) (hr : (coreOf w).Rests) (hlive : (coreOf w).Early)
    (hc : Cleared (coreOf w).log) (hsummons : Summons (coreOf w) stage)
    (hinfo : stage = .ap2Info → ∀ w, uri w = ascii "/info") :
    Walks .host w (stageTo stage >>= fun _ => next) fun _ _ => True := by
  refine Within.given fun hflow => ?_
  let w₁ : World := { w with
    s := { w.s with pairStage := stage }
    out := .staged stage :: w.out }
  have hcore₁ : coreOf w₁ = (coreOf w).staged stage := rfl
  obtain ⟨w₂, hrun, hcore₂⟩ := send_run (w := w₁) method true
    (ap2Text w₁.s method (uri w₁) contentType body) (fun _ => arm .timeout)
    fun _ henc ha => hflow.controlOut (w := w) henc ha
  have hwhole : (stageTo stage >>= fun _ => next) w = arm .timeout w₂ := (hnext w₁).trans hrun
  rw [hcore₁] at hcore₂
  have htext : IsRequest method (coreOf w).cseq
      (ap2Text w₁.s method (uri w₁) contentType body) := isRequest_ap2Text (s := w₁.s) hm
  have hlive₂ : (coreOf w₂).state ≠ .idle := by rw [hcore₂]; exact hlive.1
  refine Within.advance hwhole (.inr ?_)
    (Walks.arm (.arm _ .timeout (.inl hlive₂) (by simp) (by simp)) fun _ _ => trivial)
  rw [hcore₂]
  refine .setup _ stage method _ hf hmethod hlive hr.waiting hr.quiet hc hsummons htext ?_
  rintro rfl
  obtain rfl := Option.some.inj hmethod
  rw [hinfo rfl, ap2Text]
  simp only [List.append_assoc]
  exact List.prefix_append _ _

/-- `GET /info` comes right behind the clearance of the session. -/
theorem sendAp2Info_walks (hstage : (coreOf w).stage = .done) (hr : (coreOf w).Rests)
    (hlive : (coreOf w).Early)
    (hhead : ∃ auth paired, (coreOf w).log.head? = some (.cleared auth true paired)) :
    Walks .host w sendAp2Info fun _ _ => True := by
  have hf : Follows (coreOf w).stage .ap2Info := by rw [hstage]; exact .info
  have hc : Cleared (coreOf w).log := by
    obtain ⟨auth, paired, h⟩ := hhead
    exact cleared_of_head h
  exact setup_walks (fun _ => ascii "/info") (fun _ => rfl) hf rfl (by decide) hr hlive hc
    (.info hhead) fun _ _ => rfl

omit [Primitives] in
/-- In the stages of pairing and of the setup there is a pairing state, or the code would read
through a null pointer. -/
theorem faulty_of_stage {c : Core} {stage : PairStage} (h : c.stage = stage)
    (hs : stage.hap = true ∨ stage.postAuth) (hn : c.keys = none) : c.Faulty :=
  .inl ⟨hn, by rw [h]; exact hs⟩

omit [Primitives] in
/-- No pairing state, no keys. -/
theorem keys_of_ap2 (h : w.s.ap2 = none) : (coreOf w).keys = none := congrArg (Option.map keysOf) h

omit [Primitives] in
theorem keys_of_some {a : Ap2State} (h : w.s.ap2 = some a) : (coreOf w).keys = some (keysOf a) :=
  congrArg (Option.map keysOf) h

/-- The session `SETUP` answers the reply to `/info`. -/
theorem sendAp2SetupSession_walks (hstage : (coreOf w).stage = .ap2Info) (hr : (coreOf w).Rests)
    (hlive : (coreOf w).Early) (hc : Cleared (coreOf w).log) (hreply : (coreOf w).Replied) :
    Walks .host w sendAp2SetupSession fun _ _ => True := by
  have hf : Follows (coreOf w).stage .ap2Session := by rw [hstage]; exact .session
  refine Within.sender (Walks.ap2Get (fun hn => faulty_of_stage hstage (.inr (.inl rfl))
    (keys_of_ap2 hn)) fun a _ => ?_)
  exact setup_walks (fun _ => w.s.rtspUri) (fun _ => rfl) hf rfl (by decide) hr hlive hc
    (.session hreply) nofun

/-- `RECORD` comes behind the session `SETUP`, once the event port of its reply has been taken care
of. -/
theorem sendAp2Record_walks (hstage : (coreOf w).stage = .ap2Session) (hr : (coreOf w).Rests)
    (hlive : (coreOf w).Early) (hc : Cleared (coreOf w).log) (hevent : EventTaken (coreOf w).log) :
    Walks .host w sendAp2Record fun _ _ => True := by
  have hf : Follows (coreOf w).stage .ap2Record := by rw [hstage]; exact .record
  have hnext (w : World) : (sender >>= fun s => sendAp2Rtsp (ascii "RECORD") s.rtspUri [] []) w =
      sendAp2Rtsp (ascii "RECORD") w.s.rtspUri [] [] w := bind_ok rfl
  exact setup_walks (fun w => w.s.rtspUri) hnext hf rfl (by decide) hr hlive hc (.record hevent)
    nofun

omit [Primitives] in
/-- The size of the stream plist depends on the key alone, since everything else in it has a fixed
width. -/
theorem weight_streamPlist (s : Sender) (shk : Octets) :
    Bplist.weight (streamPlist s shk) = Bplist.weight (streamPlist {} []) + shk.length := by
  simp only [streamPlist, intEntry, strEntry, boolEntry, Bplist.weight, Bplist.weightAll,
    Bplist.weightPairs, List.length_nil]
  ring

omit [Primitives] in
theorem height_streamPlist (s : Sender) (shk : Octets) :
    Bplist.height (streamPlist s shk) ≤ 32 := by
  simp only [streamPlist, intEntry, strEntry, boolEntry, Bplist.height, Bplist.heightAll,
    Bplist.heightPairs]
  decide

omit [Primitives] in
/-- The stream SETUP is read back with the key it was built with. -/
theorem offeredKey_streamPlist (s : Sender) {shk : Octets} (hshk : shk.length ≤ 32) :
    offeredKey (Bplist.encode (streamPlist s shk)) = some shk := by
  have hfile : (Bplist.assemble (Bplist.add (streamPlist s shk) []).2).length < 2 ^ 32 := by
    have hlen := Bplist.length_encode_le (streamPlist s shk)
    have hempty : Bplist.weight (streamPlist {} []) ≤ 1000 := by decide +kernel
    rw [weight_streamPlist] at hlen
    exact hlen.trans_lt (by omega)
  have hdecode : Bplist.decode (Bplist.encode (streamPlist s shk)) = some (streamPlist s shk) := by
    unfold Bplist.decode
    rw [Bplist.encode, Bplist.parseTrailer_assemble hfile]
    simp only [Option.bind_eq_bind, Option.bind_some,
      Bplist.object_root (height_streamPlist s shk) hfile]
    rfl
  unfold offeredKey firstStream
  rw [hdecode]
  rfl

omit [Primitives] in
/-- A request of `sendAp2Rtsp_` has its body behind the `Content-Length`. -/
theorem hasBody_ap2Text (s : Sender) (method uri contentType : Octets) {body : Octets}
    (h : body ≠ []) : HasBody (ap2Text s method uri contentType body) body := by
  unfold ap2Text contentLengthText
  rw [if_neg h]
  exact ⟨_, rfl⟩

omit [Primitives] in
/-- So the request offers the key it was built with: its body decodes to a plist that has it under
`shk`. -/
theorem offers_streamPlist (s s' : Sender) (uri : Octets) {shk : Octets} (hshk : shk.length ≤ 32) :
    Offers (ap2Text s (ascii "SETUP") uri plistType (Bplist.encode (streamPlist s' shk))) shk := by
  refine ⟨_, hasBody_ap2Text _ _ _ _ ?_, offeredKey_streamPlist s' hshk⟩
  intro hempty
  have hlen := congrArg List.length hempty
  rw [Bplist.encode, Bplist.length_assemble] at hlen
  simp at hlen

/-- The stream SETUP offers the audio key it has just put in use. -/
theorem sendAp2SetupStream_walks (hstage : (coreOf w).stage = .ap2Record) (hr : (coreOf w).Rests)
    (hlive : (coreOf w).Early) (hreply : (coreOf w).Replied) :
    Walks .host w sendAp2SetupStream fun _ _ => True := by
  refine Within.given fun hflow => Within.sender (Walks.ap2Get (fun hn =>
    faulty_of_stage hstage (.inr (.inr (.inr (.inl rfl)))) (keys_of_ap2 hn)) fun a ha => ?_)
  have hkeys := keys_of_some ha
  -- key, stage and request are one step, so that no world has a key in use that was not offered
  let w₂ : World := { w with
    s := { w.s with
      ap2 := w.s.ap2.map fun b => { b with
        audioKey := a.sharedSecret.take 32, audioNonce := 0, encryptAudio := true }
      pairStage := .ap2Stream }
    out := .staged .ap2Stream :: w.out }
  have hcore₂ : coreOf w₂ = { coreOf w with
      keys := some { keysOf a with
        audioKey := (keysOf a).secret.take 32, audioNonce := 0, encryptAudio := true }
      stage := .ap2Stream
      log := .staged .ap2Stream :: (coreOf w).log } := by
    simp only [w₂, coreOf, ha]
    rfl
  have hkey : ∀ b, w₂.s.controlEncrypted = true → w₂.s.ap2 = some b → b.controlOut.length = 32 := by
    intro b henc hb
    obtain rfl : ({ a with
        audioKey := a.sharedSecret.take 32, audioNonce := 0, encryptAudio := true } : Ap2State) = b := by
      simpa [w₂, ha] using hb
    exact hflow.controlOut (w := w) (a := a) henc ha
  obtain ⟨w₃, hrun, hcore₃⟩ := send_run (ascii "SETUP") true
    (ap2Text w₂.s (ascii "SETUP") w.s.rtspUri plistType
      (Bplist.encode (streamPlist w.s (a.sharedSecret.take 32)))) (fun _ => arm .timeout) hkey
  have hoffer : Offers (ap2Text w₂.s (ascii "SETUP") w.s.rtspUri plistType
      (Bplist.encode (streamPlist w.s (a.sharedSecret.take 32)))) ((keysOf a).secret.take 32) :=
    offers_streamPlist w₂.s w.s _ (List.length_take_le _ _)
  rw [hcore₂] at hcore₃
  have hstep := Step.stream (coreOf w) (keysOf a) _ hstage hlive hr.waiting hr.quiet hkeys
    (isRequest_ap2Text (s := w₂.s) (by decide)) hoffer hreply
  rw [← hcore₃] at hstep
  refine Within.advance hrun (.inr hstep) ?_
  have hlive₃ : (coreOf w₃).state ≠ .idle := by rw [hcore₃]; exact hlive.1
  exact Walks.arm (.arm _ .timeout (.inl hlive₃) (by simp) (by simp)) fun _ _ => trivial

/-- The state of the session when its control channel may be switched. -/
structure Core.Proven (c : Core) : Prop where
  rests : c.Rests
  stage : c.stage = .done
  plain : c.encrypted = false
  pairing : c.state = .pairing

/-- **The control channel is switched only behind authentication**, with keys of the right size, and
only once: it is in the clear before.  Without such keys the code goes on in the clear. -/
theorem switchControl_walks (h : (coreOf w).Proven) (hair : (coreOf w).airplay2 = true) :
    Walks .host w switchControl fun _ w' => (coreOf w').Rests ∧ (coreOf w').stage = .done ∧
      (coreOf w').state = .pairing ∧ (coreOf w').retried = (coreOf w).retried ∧
      (coreOf w').auth = (coreOf w).auth ∧ (coreOf w').keys = (coreOf w).keys ∧
      (coreOf w').airplay2 = true := by
  refine Within.sender ?_
  cases hk : controlKeyed w.s with
  | none => exact Within.pure ⟨h.rests, h.stage, h.pairing, rfl, rfl, rfl, hair⟩
  | some a =>
    obtain ⟨ha, hout, hin⟩ : w.s.ap2 = some a ∧ a.controlOut.length = 32 ∧ a.controlIn.length = 32 := by
      unfold controlKeyed at hk
      split at hk
      case h_1 b hb =>
        split at hk
        · next hlen =>
          obtain rfl := Option.some.inj hk
          exact ⟨hb, hlen⟩
        · cases hk
      case h_2 => cases hk
    refine Within.modify (.inr (.switch _ (keysOf a) h.stage h.plain h.pairing hair (keys_of_some ha)
      hout hin)) ?_
    exact ⟨⟨h.rests.waiting, h.rests.quiet⟩, h.stage, h.pairing, rfl, rfl, rfl, hair⟩

omit [Primitives] in
theorem isSome_ap2 (w : World) : w.s.ap2.isSome = (coreOf w).keys.isSome := by
  simp only [coreOf, Option.isSome_map]

/-- Authentication ends in a clearance on the record, and the first request of the setup. -/
theorem afterAuthOk_walks (h : (coreOf w).Proven) :
    Walks .host w afterAuthOk fun _ _ => True := by
  refine Walks.step_bind (.unretry _ h.stage h.pairing) rfl fun w₁ h₁ => Within.sender ?_
  have hp : (coreOf w₁).Proven := by
    rw [h₁]
    exact ⟨⟨h.rests.waiting, h.rests.quiet⟩, h.stage, h.plain, h.pairing⟩
  have hretried : (coreOf w₁).retried = false := by rw [h₁]
  refine Within.ite (fun hair => ?_) fun hair => ?_
  · refine (switchControl_walks hp hair).bind
      fun _ w₂ ⟨hr, hst, hstate, hret, hauth, hkeys, hair₂⟩ => ?_
    have hentry : Entry.cleared w₁.s.authMethod true w₁.s.ap2.isSome =
        .cleared (coreOf w₂).auth true (coreOf w₂).keys.isSome := by
      rw [hauth, hkeys, isSome_ap2]
      rfl
    rw [hentry]
    refine Walks.step_bind (.clear _ true (.inl ⟨hst, hair₂.symm⟩) hstate (hret.trans hretried)
      hr.quiet) rfl fun w₃ h₃ => ?_
    refine sendAp2Info_walks ?_ ?_ ?_ ?_
    all_goals rw [h₃]
    · exact hst
    · exact ⟨hr.waiting, hr.quiet⟩
    · exact ⟨nofun, nofun⟩
    · exact ⟨_, _, rfl⟩
  · rw [isSome_ap2]
    have hair₁ : (coreOf w₁).airplay2 = false := Bool.eq_false_iff.mpr hair
    refine Walks.step_bind (.clear _ false (.inl ⟨hp.stage, hair₁.symm⟩) hp.pairing hretried
      hp.rests.quiet) rfl fun w₂ h₂ => ?_
    refine sendOptions_walks ?_ ?_
    all_goals rw [h₂]
    · exact .options ⟨_, _, rfl⟩
    · exact .inl nofun

/-- The event port of the reply, kept where it names one. -/
theorem noteEventPort_walks (body : Octets) (hstage : (coreOf w).stage = .ap2Session) :
    Walks .host w (noteEventPort body) fun _ w' => coreOf w' = coreOf w ∧
      ∀ a, w'.s.ap2 = some a → replyEventPort body ≠ 0 → a.eventPort = replyEventPort body := by
  unfold noteEventPort replyEventPort
  cases (Bplist.decode body).bind (Bplist.Value.find (ascii "eventPort")) with
  | none => exact Within.pure ⟨rfl, fun _ _ h => absurd rfl h⟩
  | some ep =>
    dsimp only
    rw [← bind_pure (ap2Set _)]
    have hcore (a : Ap2State) (ha : w.s.ap2 = some a) : coreOf { w with
        s := { w.s with ap2 := some { a with eventPort := portOf ep } } } = coreOf w := by
      simp only [coreOf, ha, Option.map_some]
      rfl
    refine Walks.ap2Set (fun hn => faulty_of_stage hstage (.inr (.inr (.inl rfl))) (keys_of_ap2 hn))
      (fun a ha => .inl (hcore a ha)) fun a ha => Within.pure ⟨hcore a ha, fun b hb _ => ?_⟩
    obtain rfl := Option.some.inj hb
    rfl

variable [Host]

/-- The reply to the session `SETUP`.  Its entry is the newest of the trace; what the handler adds
in front of it is at most the connect of the event channel, so that `RECORD` finds the two together.
-/
theorem handleAp2SetupSession_walks (body : Octets) (hstage : (coreOf w).stage = .ap2Session)
    (hr : (coreOf w).Rests) (hlive : (coreOf w).Early) (hc : Cleared (coreOf w).log)
    (hhead : ∃ live method code headers,
      (coreOf w).log.head? = some (.dispatched live method true code headers body)) :
    Walks .host w (handleAp2SetupSession body) fun _ _ => True := by
  obtain ⟨live, method, code, headers, hhead⟩ := hhead
  obtain ⟨rest, hlog⟩ := List.head?_eq_some_iff.mp hhead
  refine (noteEventPort_walks body hstage).bind fun _ w₁ ⟨h₁, hport⟩ => ?_
  rw [← h₁] at hstage hr hlive hc hlog
  refine Walks.ap2Get (fun hn => faulty_of_stage hstage (.inr (.inr (.inl rfl)))
    (keys_of_ap2 hn)) fun a ha => ?_
  -- with or without an event port the handler ends with RECORD
  have hdone {log : List Entry} (hcl : Cleared log) (hevent : EventTaken log) {w₂ : World}
      (h₂ : coreOf w₂ = { coreOf w₁ with log := log }) :
      Walks .host w₂ sendAp2Record fun _ _ => True := by
    refine sendAp2Record_walks ?_ ?_ ?_ ?_ ?_
    all_goals rw [h₂]
    · exact hstage
    · exact ⟨hr.waiting, hr.quiet⟩
    · exact hlive
    · exact hcl
    · exact hevent
  refine Within.bind (Q := fun _ w' => ∃ log, coreOf w' = { coreOf w₁ with log := log } ∧
    Cleared log ∧ EventTaken log) ?_ fun _ w₂ ⟨log, h₂, hcl, hevent⟩ => hdone hcl hevent h₂
  refine Within.when (fun hep => ?_) fun hep => ?_
  · refine Quiet.walks_bind (Overlooks.emit rfl) fun _ w₂ h₂ => Within.sender ?_
    rw [← h₂] at hstage
    refine Walks.step_bind (.connectEvent _ w₂.s.hostIp a.eventPort hstage) rfl fun w₃ h₃ => ?_
    refine Quiet.walks (Quiet.ask.bind fun failure => ?_) fun _ w₄ h₄ =>
      ⟨_, by rw [h₄, h₃, h₂], hc.cons rfl, ?_⟩
    · -- a failed connect of the event channel changes nothing
      cases failure <;> exact Fixes.pure ()
    refine ⟨live, method, code, headers, body, rest, .inr ⟨w₂.s.hostIp, a.eventPort, ?_, hport a ha⟩⟩
    exact congrArg (_ :: ·) hlog
  · have hnone : replyEventPort body = 0 := by
      by_contra hne
      exact hep (by rw [hport a ha hne]; exact hne)
    exact ⟨_, rfl, hc, live, method, code, headers, body, rest, .inl ⟨hlog, hnone⟩⟩

/-- The reply to the stream `SETUP` is an entrance if it is a 2xx with a data port. -/
theorem handleAp2SetupStream_walks (hfire : Tame) (body : Octets)
    (hstage : (coreOf w).stage = .ap2Stream) (hc : Cleared (coreOf w).log)
    (hlive : (coreOf w).Early)
    (hhead : ∃ live method status headers, (coreOf w).log.head? =
      some (.dispatched live method true status headers body) ∧
        200 ≤ toInt status ∧ toInt status < 300) :
    Walks .host w (handleAp2SetupStream body) fun _ _ => True := by
  obtain ⟨live, method, status, headers, hhead, hcode⟩ := hhead
  refine Quiet.walks_bind (Overlooks.setS fun _ => rfl) fun _ w₁ h₁ => ?_
  refine Within.ite (fun _ => fail_walks hfire _) fun hport => ?_
  refine Quiet.walks_bind (Overlooks.setS fun _ => rfl) fun _ w₂ h₂ => ?_
  rw [← h₁, ← h₂] at hstage hc hlive hhead
  exact startStreaming_walks hfire
    (.inr ⟨hstage, live, method, status, headers, body, hhead, hcode.1, hcode.2, hport⟩) hc
    (.inl hlive.1) hlive.2

end Setup

/-! ## 3. Pair-setup

A handler of pairing is entered at rest: no post is unanswered and no PIN awaited.  It leaves with the
next post on its way, or hands over to the setup, or fails. -/

section PairSetup

variable [Primitives] {w : World}

/-- Enter a pairing stage and send its post. -/
theorem enter_walks {stage : PairStage} {uri contentType body : Octets} (hr : (coreOf w).Rests)
    (hf : Follows (coreOf w).stage stage) (hp : stage.pairing = true)
    (hstate : (coreOf w).state = .pairing)
    (hkeyed : stage.hap = true → (coreOf w).keys ≠ none)
    (hagain : (coreOf w).stage = .setupM2 →
      (coreOf w).log.head? = some (.pairing .hapPin)) :
    Walks .host w (stageTo stage >>= fun _ => httpPost uri contentType body) fun _ _ => True := by
  refine Walks.step_bind (c := (coreOf w).staged stage)
    (.stage _ stage hf hp hr.waiting (.inl hstate) hkeyed hagain) rfl fun w₁ h₁ => ?_
  refine (httpPost_walks ?_ ?_).mono fun _ _ _ => trivial
  all_goals rw [h₁]
  · exact hr.post hp
  · refine .inl ?_
    show (coreOf w).state ≠ .idle
    rw [hstate]
    nofun

/-- The stages that the chain may begin with. -/
theorem sendAuthSetup_walks (hr : (coreOf w).Rests) (hstage : (coreOf w).stage = .none)
    (hstate : (coreOf w).state = .pairing) : Walks .host w sendAuthSetup fun _ _ => True := by
  have hf : Follows (coreOf w).stage .authSetup := by rw [hstage]; exact .authSetup
  exact enter_walks hr hf rfl hstate nofun (by rw [hstage]; nofun)

theorem sendPairPinStart_walks (hr : (coreOf w).Rests) (hf : Follows (coreOf w).stage .pinStart)
    (hstate : (coreOf w).state = .pairing) (hkeys : (coreOf w).keys ≠ none)
    (hagain : (coreOf w).stage = .setupM2 →
      (coreOf w).log.head? = some (.pairing .hapPin)) :
    Walks .host w sendPairPinStart fun _ _ => True :=
  enter_walks hr hf rfl hstate (fun _ => hkeys) hagain

/-- Pair-setup begins an attempt, or follows the request that makes the receiver show its PIN; it
does not follow itself. -/
theorem sendPairSetupM1_walks (hr : (coreOf w).Rests) (hf : Follows (coreOf w).stage .setupM2)
    (hstate : (coreOf w).state = .pairing) (hkeys : (coreOf w).keys ≠ none) :
    Walks .host w sendPairSetupM1 fun _ _ => True := by
  refine Within.sender (enter_walks hr hf rfl hstate (fun _ => hkeys) fun hstage => ?_)
  rw [hstage] at hf
  cases hf

/-- Pair-setup M5: the sealed half of our identity, under the key it is sealed with. -/
theorem sendPairSetupM5_walks (hr : (coreOf w).Rests) (hstage : (coreOf w).stage = .setupM4)
    (hstate : (coreOf w).state = .pairing) (hauth : (coreOf w).auth ≠ .hapTransient) :
    Walks .host w sendPairSetupM5 fun _ _ => True := by
  have hnull {w : World} (hst : (coreOf w).stage = .setupM4) (hn : w.s.ap2 = none) :
      (coreOf w).Faulty := faulty_of_stage hst (.inl rfl) (keys_of_ap2 hn)
  refine Walks.ap2Get (hnull hstage) fun a _ => ?_
  -- a seed and an identifier are drawn where there are none yet; the core sees neither
  have hseed : Walks .host w (Prog.when (a.ltSeed = []) do
      let seed ← randomBytes 32
      ap2Set fun a => { a with ltSeed := seed }) fun _ w' => coreOf w' = coreOf w := by
    refine Within.when (fun _ => Quiet.walks_bind (Overlooks.randomBytes 32) fun _ w₁ h₁ => ?_)
      fun _ => rfl
    rw [← h₁] at hstage ⊢
    exact Walks.ap2Set_quiet (hnull hstage) fun _ => rfl
  refine hseed.bind fun _ w₁ h₁ => ?_
  rw [← h₁] at hr hstage hstate hauth
  refine Within.bind (Q := fun _ w' => coreOf w' = coreOf w₁)
    (Walks.ap2Set_quiet (hnull hstage) fun _ => rfl) fun _ w₂ h₂ => ?_
  rw [← h₂] at hr hstage hstate hauth
  refine Walks.ap2Get (hnull hstage) fun a₂ _ => ?_
  have hid : Walks .host w₂ (Prog.when (a₂.pairingId = []) do
      let uuid ← uuidV4Lower
      ap2Set fun a => { a with pairingId := uuid }) fun _ w' => coreOf w' = coreOf w₂ := by
    refine Within.when (fun _ => Quiet.walks_bind Overlooks.uuidV4Lower fun _ w₁ h₁ => ?_) fun _ => rfl
    rw [← h₁] at hstage ⊢
    exact Walks.ap2Set_quiet (hnull hstage) fun _ => rfl
  refine hid.bind fun _ w₃ h₃ => ?_
  rw [← h₃] at hr hstage hstate hauth
  refine Walks.ap2Get (hnull hstage) fun a₃ ha₃ => ?_
  cases hsrp : a₃.srp with
  | none =>
    refine Walks.nullDeref (.inr (.inl ⟨hstage, keysOf a₃, keys_of_some ha₃, ?_⟩))
    exact congrArg (Option.map SrpClient.K) hsrp
  | some srp =>
    have hK : (keysOf a₃).srpK = some srp.K := congrArg (Option.map SrpClient.K) hsrp
    refine Walks.seal_bind (length_hkdfSha512 _ _ _) (.setupM5 _ (keysOf a₃) srp.K _ _
      hstage hr.waiting hauth (keys_of_some ha₃) hK hstate) rfl fun w₄ h₄ => ?_
    refine (httpPost_walks ?_ ?_).mono fun _ _ _ => trivial
    all_goals rw [h₄]
    · exact .post rfl rfl hr.waiting hr.quiet nofun
    · refine .inl ?_
      show (coreOf w₃).state ≠ .idle
      rw [hstate]
      nofun

/-- The proof of the server is checked, and recorded, where there is one. -/
theorem checkServerProof_walks (proof : Option Octets) (hstage : (coreOf w).stage = .setupM4) :
    Walks .host w (checkServerProof proof) fun ok w' => ∃ es, coreOf w' =
      { coreOf w with log := es ++ (coreOf w).log } ∧ (ok = true → ServerProven (coreOf w').log) := by
  cases proof with
  | none => exact Within.pure ⟨[], rfl, nofun⟩
  | some p =>
    refine Walks.ap2Get (fun hn => faulty_of_stage hstage (.inl rfl) (keys_of_ap2 hn)) fun a ha => ?_
    cases hsrp : a.srp with
    | none =>
      refine Walks.nullDeref (.inr (.inl ⟨hstage, keysOf a, keys_of_some ha, ?_⟩))
      exact congrArg (Option.map SrpClient.K) hsrp
    | some srp =>
      refine Walks.step_bind (.serverProof _ srp p hstage) rfl fun w₁ h₁ => Within.pure ?_
      refine ⟨[.serverProof srp p], h₁, fun hok => ⟨srp, p, ?_, hok⟩⟩
      rw [h₁]
      exact List.mem_cons_self

/-- The transient branch of M4. -/
theorem finishTransient_walks (hr : (coreOf w).Rests) (hstage : (coreOf w).stage = .setupM4)
    (hauth : (coreOf w).auth = .hapTransient) (hstate : (coreOf w).state = .pairing)
    (hproof : (coreOf w).strict = true → ServerProven (coreOf w).log) :
    Walks .host w finishTransient fun _ _ => True := by
  refine Within.given fun hflow => Walks.ap2Get (fun hn =>
    faulty_of_stage hstage (.inl rfl) (keys_of_ap2 hn)) fun a ha => ?_
  have hplain : (coreOf w).encrypted = false :=
    hflow.plain (by rw [hstage]; nofun) (by rw [hstage]; simp [PairStage.postAuth])
  cases hsrp : a.srp with
  | none =>
    refine Walks.nullDeref (.inr (.inl ⟨hstage, keysOf a, keys_of_some ha, ?_⟩))
    exact congrArg (Option.map SrpClient.K) hsrp
  | some srp =>
    have hK : (keysOf a).srpK = some srp.K := congrArg (Option.map SrpClient.K) hsrp
    have hcore : coreOf { w with
        s := { w.s with
          ap2 := w.s.ap2.map fun a => { a with
            sharedSecret := srp.K
            controlOut := hkdfSha512 "Control-Salt" "Control-Write-Encryption-Key" srp.K
            controlIn := hkdfSha512 "Control-Salt" "Control-Read-Encryption-Key" srp.K }
          pairStage := .done }
        out := .concluded w.s.authMethod :: w.out } =
        { coreOf w with
          keys := some { keysOf a with
            secret := srp.K
            controlOut := hkdfSha512 "Control-Salt" "Control-Write-Encryption-Key" srp.K
            controlIn := hkdfSha512 "Control-Salt" "Control-Read-Encryption-Key" srp.K }
          stage := .done
          log := .concluded (coreOf w).auth :: (coreOf w).log } := by
      simp only [coreOf, ha, Option.map_some]
      rfl
    refine Within.sender (Walks.step_bind (.transientKeys _ (keysOf a) srp.K _ _ hstage hr.waiting hauth
      (keys_of_some ha) hK hstate hproof) hcore fun w₁ h₁ => afterAuthOk_walks ?_)
    rw [h₁]
    exact ⟨⟨hr.waiting, hr.quiet⟩, rfl, hplain, hstate⟩

variable [Host]

/-- Transient pairing goes on with its fixed PIN.  Otherwise the sender waits for the application,
with the handshake timeout stopped and that of the PIN armed in one step. -/
theorem handlePairSetupM2_walks (hfire : Tame) (body : Octets) (hr : (coreOf w).Rests)
    (hstage : (coreOf w).stage = .setupM2) (hstate : (coreOf w).state = .pairing) :
    Walks .host w (handlePairSetupM2 body) fun _ _ => True := by
  have hlive {w : World} (h : (coreOf w).state = .pairing) : (coreOf w).state ≠ .idle := by
    rw [h]
    nofun
  unfold handlePairSetupM2
  dsimp only
  split
  case h_1 => exact fail_walks hfire _
  case h_2 =>
    split
    case h_2 => exact fail_walks hfire _
    case h_1 salt pub _ _ =>
      refine Quiet.walks_bind (Overlooks.setS fun _ => rfl) fun _ w₁ h₁ => Within.sender ?_
      rw [← h₁] at hr hstage hstate
      refine Within.ite (fun hauth => ?_) fun hauth => ?_
      · exact sendPairSetupM3_walks hfire hstage hr.waiting hr.quiet (.inl (hlive hstate))
          (.inl ⟨hauth, rfl⟩)
      · refine Walks.assign_arm (.wait _ hstage hr.quiet hauth hstate) rfl fun w₂ h₂ =>
          Within.sender (fire_walks hfire (.pinRequired _ (hlive ?_)))
        rw [h₂]
        exact hstate

/-- Pair-setup M4: in strict mode nothing goes on without the proof. -/
theorem handlePairSetupM4_walks (hfire : Tame) (body : Octets) (hr : (coreOf w).Rests)
    (hstage : (coreOf w).stage = .setupM4) (hstate : (coreOf w).state = .pairing) :
    Walks .host w (handlePairSetupM4 body) fun _ _ => True := by
  unfold handlePairSetupM4
  dsimp only
  split
  case h_1 => exact fail_walks hfire _
  case h_2 =>
    refine (checkServerProof_walks _ hstage).bind fun ok w₁ ⟨es, h₁, hproven⟩ => Within.sender ?_
    have hr₁ : (coreOf w₁).Rests := by rw [h₁]; exact ⟨hr.waiting, hr.quiet⟩
    have hstage₁ : (coreOf w₁).stage = .setupM4 := by rw [h₁]; exact hstage
    have hstate₁ : (coreOf w₁).state = .pairing := by rw [h₁]; exact hstate
    refine Within.ite (fun _ => fail_walks hfire _) fun hcheck => ?_
    refine Within.ite (fun hauth => ?_) fun hauth => ?_
    · refine finishTransient_walks hr₁ hstage₁ hauth hstate₁ fun hstrict => hproven ?_
      by_contra hno
      exact hcheck ⟨by simpa using hno, hstrict⟩
    · exact sendPairSetupM5_walks hr₁ hstage₁ hstate₁ hauth

end PairSetup

/-! ## 4. Pair-verify

The channel keys are derived here, from a secret that is agreed on anew for each session.  In strict
mode they exist only behind a signature that verified under the stored key. -/

section PairVerify

variable [Primitives] {w : World}

/-- Pair-verify begins: with stored credentials, or behind pair-setup, where the application may
have ended the session in the meantime. -/
theorem sendPairVerifyM1_walks (hr : (coreOf w).Rests) (hf : Follows (coreOf w).stage .verifyM2)
    (hstate : (coreOf w).state = .pairing ∨
      ((coreOf w).state = .idle ∧ (coreOf w).stage = .setupM6))
    (hrearmed : (coreOf w).Rearmed) (hnull : w.s.ap2 = none → (coreOf w).Faulty) :
    Walks .host w sendPairVerifyM1 fun _ _ => True := by
  refine Walks.ap2Get hnull fun a ha => ?_
  have hkeys := keys_of_some ha
  refine Quiet.walks_bind (Overlooks.randomBytes 32) fun priv w₁ h₁ => ?_
  rw [← h₁] at hr hf hstate hrearmed hkeys
  have hset : Quiet (setS fun s => { s with
      ap2 := s.ap2.map fun a => { a with
        verifyPriv := ((priv.modify 0 (· &&& 248)).modify 31 (· &&& 127)).modify 31 (· ||| 64)
        verifyPub := (Primitives.x25519Base
          (((priv.modify 0 (· &&& 248)).modify 31 (· &&& 127)).modify 31 (· ||| 64))).1 } }) := by
    refine Overlooks.setS fun s => ?_
    simp only [coreView, coreOf]
    cases s.ap2 <;> rfl
  refine Quiet.walks_bind hset fun _ w₂ h₂ => ?_
  rw [← h₂] at hr hf hstate hrearmed hkeys
  have hext : (coreOf w₂).Extends ((coreOf w₂).staged .verifyM2) := .one rfl rfl ⟨rfl, rfl⟩
  have hagain : (coreOf w₂).stage ≠ .setupM2 := by
    intro hstage
    rw [hstage] at hf
    cases hf
  refine Walks.step_bind (c := (coreOf w₂).staged .verifyM2) (.stage _ .verifyM2 hf rfl hr.waiting
    hstate (by simp [hkeys]) fun hstage => absurd hstage hagain) rfl fun w₃ h₃ => ?_
  refine (httpPost_walks ?_ ?_).mono fun _ _ _ => trivial
  all_goals rw [h₃]
  · exact hr.post rfl
  · exact hext.rearmed hrearmed

/-- Pair-verify M3 and the channel keys: in strict mode only behind a verified signature. -/
theorem sendPairVerifyM3_walks {a : Ap2State} {verifyKey sessionPub : Octets}
    (hkey : verifyKey.length = 32) (ha : w.s.ap2 = some a) (hr : (coreOf w).Rests)
    (hstage : (coreOf w).stage = .verifyM2) (hstate : (coreOf w).state = .pairing)
    (hsecret : a.sharedSecret.length = 32)
    (hproof : (coreOf w).strict = true → Signed (coreOf w).log a.accessoryLtpk) :
    Walks .host w (sendPairVerifyM3 verifyKey sessionPub) fun _ _ => True := by
  refine Walks.ap2Get (fun hn => absurd (ha.symm.trans hn) (by simp)) fun b hb => ?_
  obtain rfl : a = b := Option.some.inj (ha.symm.trans hb)
  refine Walks.seal_bind hkey (.verifyKeys _ (keysOf a) verifyKey (ascii "PV-Msg03")
    (Tlv.encode [(Tlv.Tag.identifier.code, a.pairingId), (Tlv.Tag.signature.code,
      ed25519Sign a.ltSeed (a.verifyPub ++ a.pairingId ++ sessionPub))])
    (hkdfSha512 "Control-Salt" "Control-Write-Encryption-Key" a.sharedSecret)
    (hkdfSha512 "Control-Salt" "Control-Read-Encryption-Key" a.sharedSecret)
    (hkdfSha512 "Events-Salt" "Events-Read-Encryption-Key" a.sharedSecret)
    (hkdfSha512 "Events-Salt" "Events-Write-Encryption-Key" a.sharedSecret)
    hstage hr.waiting (keys_of_some ha) hsecret hstate hproof) ?_ fun w₁ h₁ => ?_
  · simp only [coreOf, ha]
    rfl
  · refine (httpPost_walks ?_ ?_).mono fun _ _ _ => trivial
    all_goals rw [h₁]
    · exact .post rfl rfl hr.waiting hr.quiet (by simp)
    · refine .inl ?_
      show (coreOf w).state ≠ .idle
      rw [hstate]
      intro hno
      cases hno

variable [Host]

/-- The signature is on the record before it is judged; behind the judgment a strict session has one
that verifies. -/
theorem checkPairVerify_walks (hfire : Tame) {verifyKey sessionPub encrypted : Octets}
    (hkey : verifyKey.length = 32) (hr : (coreOf w).Rests) (hstage : (coreOf w).stage = .verifyM2)
    (hstate : (coreOf w).state = .pairing)
    (hsecret : ∀ a, w.s.ap2 = some a → a.sharedSecret.length = 32) :
    Walks .host w (checkPairVerify verifyKey sessionPub encrypted) fun _ _ => True := by
  unfold checkPairVerify
  split
  case h_1 => exact fail_walks hfire _
  case h_2 dec _ =>
    dsimp only
    split
    case h_2 => exact fail_walks hfire _
    case h_1 atvId atvSig _ _ =>
      refine Walks.ap2Get (fun hn => faulty_of_stage hstage (.inl rfl) (keys_of_ap2 hn))
        fun a ha => ?_
      refine Within.modify_bind (.inr (.signature _ (keysOf a) (signedMessage a sessionPub atvId)
        atvSig hstage (keys_of_some ha))) (Within.sender ?_)
      refine Within.ite (fun _ => fail_walks hfire _) fun hcheck => ?_
      refine sendPairVerifyM3_walks hkey ha ⟨hr.waiting, hr.quiet⟩ hstage hstate (hsecret a ha)
        fun hstrict => ?_
      have hverified : checkSignature a.accessoryLtpk (signedMessage a sessionPub atvId) atvSig =
          true := by
        by_contra hno
        exact hcheck ⟨by simpa using hno, hstrict⟩
      simp only [checkSignature, Bool.and_eq_true, decide_eq_true_eq] at hverified
      exact ⟨hverified.1, _, _, List.mem_cons_self, hverified.2⟩

/-- The shared secret is agreed on first.  Where there is none, since a public key has the wrong size
or the secret is all zeros, the session ends here. -/
theorem handlePairVerifyM2_walks (hfire : Tame) (body : Octets) (hr : (coreOf w).Rests)
    (hstage : (coreOf w).stage = .verifyM2) (hstate : (coreOf w).state = .pairing) :
    Walks .host w (handlePairVerifyM2 body) fun _ _ => True := by
  have hnull (hn : w.s.ap2 = none) : (coreOf w).Faulty :=
    faulty_of_stage hstage (.inl rfl) (keys_of_ap2 hn)
  unfold handlePairVerifyM2
  dsimp only
  split
  case h_1 => exact fail_walks hfire _
  case h_2 =>
    split
    case h_2 => exact fail_walks hfire _
    case h_1 sessionPub encrypted _ _ =>
      refine Walks.ap2Get hnull fun a ha => ?_
      have hcore (b : Ap2State) (hb : w.s.ap2 = some b) : coreOf { w with s := { w.s with
          ap2 := some { b with sharedSecret := x25519SharedSecret a.verifyPriv sessionPub } } } =
          { coreOf w with keys := some { keysOf b with
            secret := x25519SharedSecret a.verifyPriv sessionPub } } := by
        simp only [coreOf, Option.map_some]
        rfl
      refine Walks.ap2Set hnull (fun b hb => .inr ?_) fun b hb => ?_
      · rw [hcore b hb]
        exact .agreed _ (keysOf b) _ hstage (keys_of_some hb)
      · refine Within.ite (fun _ => fail_walks hfire _) fun hsecret => ?_
        refine checkPairVerify_walks hfire (length_hkdfSha512 _ _ _) ⟨hr.waiting, hr.quiet⟩ hstage
          hstate fun c hc => ?_
        obtain rfl := Option.some.inj hc
        exact length_x25519SharedSecret hsecret

/-- What the application does while M6 hands it the credentials leaves the sender calm. -/
theorem fire_calm (hfire : Tame) {e : Event} (hdue : Due (coreOf w) e) (h : Calm (coreOf w)) :
    Walks .host w (Host.fire e) fun _ w' => Calm (coreOf w') := by
  intro hflow
  have hwalk := hfire e w hdue hflow
  have hcalm : Calm (coreOf (Host.fire e w).2) := by
    refine hwalk.invariant (I := fun w => Calm (coreOf w)) (fun a b hm hc => ?_) h
    rcases hm with heq | hs
    · rw [heq]; exact hc
    · exact hc.step hs
  refine ⟨(Walks.ofApp (hfire e w hdue) hflow).1, fun a ha => ⟨(hwalk.2 a ha).1, hcalm⟩⟩

omit [Host] in
/-- Pair-setup M6 behind the callback: pair-verify, in whatever the application left. -/
theorem resumeM6_walks (h : Calm (coreOf w)) : Walks .host w (do
    let s ← sender
    emit (.resumed (s.state ≠ .idle) s.ap2.isSome)
    setS fun s => { s with pairSetupSessionKey := [] }
    sendPairVerifyM1) fun _ _ => True := by
  refine Within.given fun hflow => Within.sender ?_
  rw [isSome_ap2]
  refine Walks.step_bind (.resumed _) rfl fun w₁ h₁ => ?_
  refine Walks.step_bind (.forget _) rfl fun w₂ h₂ => ?_
  have hrearmed : (coreOf w₂).Rearmed := by
    rw [h₂, h₁]
    by_cases hst : (coreOf w).state = .idle
    · refine .inr ⟨.resumed false (coreOf w).keys.isSome, ?_, rfl⟩
      simp [afterStop, Entry.isStarted, Entry.isStop, hst]
    · exact .inl hst
  have hnull (hn : w₂.s.ap2 = none) : (coreOf w₂).Faulty := by
    have hkeys : (coreOf w).keys = none := by
      have hsame : (coreOf w₂).keys = (coreOf w).keys := by rw [h₂, h₁]
      exact hsame.symm.trans (keys_of_ap2 hn)
    refine .inr (.inr ⟨(coreOf w).state ≠ .idle, ?_⟩)
    rw [h₂, h₁, hkeys]
    rfl
  rcases h.stage with ⟨hst, _⟩ | ⟨_, hnone⟩
  · -- still at M6, alive or stopped: pair-verify goes out either way
    have hstage : (coreOf w₂).stage = .setupM6 := by rw [h₂, h₁]; exact hst
    have hf : Follows (coreOf w₂).stage .verifyM2 := by rw [hstage]; exact .verifyAfterSetup
    refine sendPairVerifyM1_walks ?_ hf ?_ hrearmed hnull
    · rw [h₂, h₁]
      exact ⟨h.waiting, h.quiet⟩
    · have hstate : (coreOf w₂).state = (coreOf w).state := by rw [h₂, h₁]
      rw [hstate]
      exact (hflow.paired (by rw [hst]; rfl)).1.imp_right fun hidle => ⟨hidle, hstage⟩
  · -- the application began a new session from inside the callback
    refine Walks.ap2Get hnull fun b hb => ?_
    have hkeys : (coreOf w₂).keys = none := by rw [h₂, h₁]; exact hnone
    exact absurd ((keys_of_some hb).symm.trans hkeys) (by simp)

/-- **Pair-setup M6**: the long-term key is learnt, the application is told, and pair-verify begins.
The callback is the one place of a reply where the application gets control in the middle, and what
it leaves may be another session (`Calm`). -/
theorem handlePairSetupM6_walks (hfire : Tame) (body : Octets) (hr : (coreOf w).Rests)
    (hstage : (coreOf w).stage = .setupM6) (hstate : (coreOf w).state = .pairing) :
    Walks .host w (handlePairSetupM6 body) fun _ _ => True := by
  refine Within.given fun hflow => ?_
  have hplain : (coreOf w).encrypted = false :=
    hflow.plain (by rw [hstage]; simp) (by rw [hstage]; simp [PairStage.postAuth])
  unfold handlePairSetupM6
  dsimp only
  split
  case h_1 => exact fail_walks hfire _
  case h_2 =>
    split
    case h_1 => exact fail_walks hfire _
    case h_2 encrypted _ =>
      refine Within.sender ?_
      split
      case h_1 => exact fail_walks hfire _
      case h_2 dec hdec =>
        -- what opened was opened under a key of the right size
        have hkey : w.s.pairSetupSessionKey.length = 32 := by
          by_contra hlen
          simp [chacha20Poly1305Decrypt, hlen] at hdec
        split
        case h_2 => exact fail_walks hfire _
        case h_1 atvId atvLtpk _ _ =>
          refine Walks.ap2Get (fun hn => faulty_of_stage hstage (.inl rfl) (keys_of_ap2 hn))
            fun a ha => ?_
          refine Walks.step_bind (.learn _ (keysOf a) atvLtpk hstage (keys_of_some ha) hkey) ?_
            fun w₁ h₁ => ?_
          · simp only [coreOf, ha]
            rfl
          have hcalm₁ : Calm (coreOf w₁) := by
            rw [h₁]
            exact ⟨hr.waiting, hr.quiet, hplain, .inl ⟨hstage, by simp⟩⟩
          have hlive : (coreOf w₁).state ≠ .idle := by
            rw [h₁]
            show (coreOf w).state ≠ .idle
            rw [hstate]
            intro hno
            cases hno
          refine (fire_calm hfire (.credentialsObtained _ _ hlive) hcalm₁).bind ?_
          exact fun _ w₂ hcalm₂ => resumeM6_walks hcalm₂

end PairVerify

/-! ## 5. The dispatcher

From the newest entry of the trace (`Core.Handling`) and the stage the handlers get everything they
ask for; that the two fit together is part of `Flow`. -/

section Dispatcher

variable [Primitives] {w : World}

/-- The core in which a pairing attempt begins. -/
def Core.attempting (c : Core) (auth : Auth) : Core :=
  { c with auth := auth, keys := some {}, log := .pairing auth :: c.log }

/-- A fresh pairing state begins an attempt. -/
theorem freshPairing_walks {auth : Auth} (h : Attempt (coreOf w) auth) (hr : (coreOf w).Rests)
    (hstate : (coreOf w).state = .pairing) :
    Walks .host w (freshPairing auth) fun _ w' => coreOf w' = (coreOf w).attempting auth := by
  refine Walks.step_bind (c := (coreOf w).attempting auth) (.attempt _ auth h hr.waiting hstate) rfl
    fun w₁ h₁ => ?_
  refine Quiet.walks_bind Overlooks.uuidV4Lower fun uuid w₂ h₂ => ?_
  refine Within.mono (Q := fun _ w' => coreOf w' = coreOf w₂)
    (Walks.ap2Set_quiet (fun hn => ?_) fun _ => rfl) fun _ w₃ h₃ => h₃.trans (h₂.trans h₁)
  have hkeys := keys_of_ap2 hn
  rw [h₂, h₁] at hkeys
  exact absurd hkeys nofun

/-- The AirPlay 1 handshake begins without pairing. -/
theorem clearPlain_walks {auth : Auth} (hauth : (coreOf w).auth = auth)
    (hplain : auth = .none ∨ auth = .password) (hstage : (coreOf w).stage = .none)
    (hstate : (coreOf w).state = .pairing) (hretried : (coreOf w).retried = false)
    (hkinds : true ∉ (coreOf w).kinds) :
    Walks .host w (do
      setAndEmit (fun s => { s with state := .handshake }) (.cleared auth false w.s.ap2.isSome)
      sendOptions) fun _ _ => True := by
  subst hauth
  rw [isSome_ap2]
  refine Walks.step_bind (.clear _ false (.inr ⟨hstage, hplain, rfl⟩) hstate hretried hkinds) rfl
    fun w₁ h₁ => ?_
  refine sendOptions_walks ?_ ?_
  all_goals rw [h₁]
  · exact .options ⟨_, _, rfl⟩
  · exact .inl nofun

variable [Host]

/-- The chain behind the change of state. -/
theorem beginAuthChain_walks (hfire : Tame) {localEnd peer : Endpoint}
    (hstate : (coreOf w).state = .connecting) (hun : (coreOf w).Untouched) :
    Walks .host w (do
      setS fun s => { s with rtspConnected := true, localIp := localEnd.ip, hostIp := peer.ip }
      beginAuthChain) fun _ _ => True := by
  obtain ⟨hstage, _, hwait, _, hkinds, hretried⟩ := hun
  refine Walks.step_bind₂ (.beginPairing _ hstate) rfl fun w₁ h₁ => Within.sender ?_
  have hr : (coreOf w₁).Rests := by
    rw [h₁]
    exact ⟨hwait, hkinds⟩
  have hstage₁ : (coreOf w₁).stage = .none := by rw [h₁]; exact hstage
  have hstate₁ : (coreOf w₁).state = .pairing := by rw [h₁]
  have hretried₁ : (coreOf w₁).retried = false := by rw [h₁]; exact hretried
  -- the two methods of HAP begin with a fresh pairing state, the others with a request
  have hbegin {auth : Auth} (hauth : w₁.s.authMethod = auth)
      (hhap : auth = .hapTransient ∨ auth = .hapPin) : Attempt (coreOf w₁) auth :=
    .inl ⟨hstage₁, hauth.symm, hhap⟩
  have hattempting {auth : Auth} {w₂ : World} (h₂ : coreOf w₂ = (coreOf w₁).attempting auth) :
      (coreOf w₂).Rests ∧ (coreOf w₂).stage = .none ∧ (coreOf w₂).state = .pairing ∧
        (coreOf w₂).keys ≠ none := by
    rw [h₂]
    exact ⟨⟨hr.waiting, hr.quiet⟩, hstage₁, hstate₁, by rintro ⟨⟩⟩
  cases hauth : w₁.s.authMethod with
  | none => exact clearPlain_walks hauth (.inl rfl) hstage₁ hstate₁ hretried₁ hr.quiet
  | password => exact clearPlain_walks hauth (.inr rfl) hstage₁ hstate₁ hretried₁ hr.quiet
  | authSetup => exact sendAuthSetup_walks hr hstage₁ hstate₁
  | legacyPin => exact fail_walks hfire _
  | hapTransient =>
    refine (freshPairing_walks (hbegin hauth (.inl rfl)) hr hstate₁).bind fun _ w₂ h₂ => ?_
    obtain ⟨hr₂, hstage₂, hstate₂, hkeys₂⟩ := hattempting h₂
    have hf : Follows (coreOf w₂).stage .setupM2 := by rw [hstage₂]; exact .setup
    exact sendPairSetupM1_walks hr₂ hf hstate₂ hkeys₂
  | hapPin =>
    refine (freshPairing_walks (hbegin hauth (.inr rfl)) hr hstate₁).bind fun _ w₂ h₂ => ?_
    obtain ⟨hr₂, hstage₂, hstate₂, hkeys₂⟩ := hattempting h₂
    cases hcreds : usableCreds w₁.s.credsJson with
    | none =>
      have hf : Follows (coreOf w₂).stage .pinStart := by rw [hstage₂]; exact .pinStart
      exact sendPairPinStart_walks hr₂ hf hstate₂ hkeys₂ (by rw [hstage₂]; simp)
    | some creds =>
      obtain ⟨a, ha⟩ : ∃ a, w₂.s.ap2 = some a := by
        by_contra hno
        exact hkeys₂ (keys_of_ap2 (Option.eq_none_iff_forall_ne_some.mpr fun a ha => hno ⟨a, ha⟩))
      refine Walks.step_bind (.stored _ (keysOf a) _ creds hstage₂ (keys_of_some ha) hcreds) ?_
        fun w₃ h₃ => ?_
      · simp only [coreOf, ha]
        rfl
      · have hr₃ : (coreOf w₃).Rests := by rw [h₃]; exact ⟨hr₂.waiting, hr₂.quiet⟩
        have hf : Follows (coreOf w₃).stage .verifyM2 := by rw [h₃, hstage₂]; exact .verify
        have hstate₃ : (coreOf w₃).state = .pairing := by rw [h₃]; exact hstate₂
        refine sendPairVerifyM1_walks hr₃ hf (.inl hstate₃) (.inl ?_) fun hn => ?_
        · rw [hstate₃]
          intro hno
          cases hno
        · have hkeys := keys_of_ap2 hn
          rw [h₃] at hkeys
          exact absurd hkeys (by simp)

/-- A refusal either falls back to another pairing or ends the session. -/
theorem onPairingRefused_walks (hfire : Tame) (code : ℤ) (hr : (coreOf w).Rests)
    (hlive : (coreOf w).Early) : Walks .host w (onPairingRefused code) fun _ _ => True := by
  refine Within.given fun hflow => Within.sender ?_
  refine Within.ite (fun h470 => ?_) fun _ => Within.ite (fun h403 => ?_) fun _ => fail_walks hfire _
  · -- a 470 to transient pairing: the receiver wants a PIN
    obtain ⟨_, hauth, hstage⟩ := h470
    have hstage : (coreOf w).stage = .setupM2 := hstage
    have hstate := hflow.inPairing (by rw [hstage]; rfl) hlive.1
    have hat : Attempt (coreOf w) .hapPin := .inr (.inl ⟨hstage, hauth, rfl⟩)
    refine (freshPairing_walks hat hr hstate).bind fun _ w₁ h₁ => ?_
    refine sendPairPinStart_walks ?_ ?_ ?_ ?_ ?_
    all_goals rw [h₁]
    · exact ⟨hr.waiting, hr.quiet⟩
    · show Follows (coreOf w).stage _
      rw [hstage]
      exact .pinAgain
    · exact hstate
    · exact nofun
    · exact fun _ => rfl
  · -- a 403 to the PIN prompt: transient pairing instead, once
    obtain ⟨_, hstage, htried⟩ := h403
    have hstage : (coreOf w).stage = .pinStart := hstage
    have hstate := hflow.inPairing (by rw [hstage]; rfl) hlive.1
    have htried : w.s.triedTransientAfterPin403 = false := by simpa using htried
    refine Walks.step_bind (.refused403 _ hstage htried) rfl fun w₁ h₁ => ?_
    have hstage₁ : (coreOf w₁).stage = .pinStart := by rw [h₁]; exact hstage
    have hstate₁ : (coreOf w₁).state = .pairing := by rw [h₁]; exact hstate
    have hr₁ : (coreOf w₁).Rests := by rw [h₁]; exact ⟨hr.waiting, hr.quiet⟩
    have hat : Attempt (coreOf w₁) .hapTransient := .inr (.inr ⟨hstage₁, rfl, by rw [h₁]; rfl⟩)
    refine (freshPairing_walks hat hr₁ hstate₁).bind fun _ w₂ h₂ => ?_
    refine sendPairSetupM1_walks ?_ ?_ ?_ ?_
    all_goals rw [h₂]
    · exact ⟨hr₁.waiting, hr₁.quiet⟩
    · show Follows (coreOf w₁).stage _
      rw [hstage₁]
      exact .setupAfterPin
    · exact hstate₁
    · exact nofun

/-- The newest entry is the response being handled. -/
def Core.Handling (c : Core) (code : ℤ) (body : Octets) : Prop :=
  ∃ live method status headers,
    c.log.head? = some (.dispatched live method true status headers body) ∧ toInt status = code

omit [Primitives] [Host] in
/-- A response that is being handled is a reply. -/
theorem Core.Handling.replied {c : Core} {code : ℤ} {body : Octets} (h : c.Handling code body) :
    c.Replied := by
  obtain ⟨live, method, status, headers, hhead, -⟩ := h
  exact ⟨live, method, status, headers, body, hhead⟩

/-- The stage decides what an accepted reply means. -/
theorem onPairingStage_walks (hfire : Tame) {code : ℤ} {body : Octets} (hr : (coreOf w).Rests)
    (hlive : (coreOf w).Early) (hrecord : (coreOf w).stage ≠ .ap2Record)
    (hhead : (coreOf w).Handling code body) (hcode : 200 ≤ code ∧ code < 300) :
    Walks .host w (onPairingStage body) fun _ _ => True := by
  refine Within.given fun hflow => Within.sender ?_
  have hpost (h : (coreOf w).stage.postAuth) : Cleared (coreOf w).log := hflow.live (.inr (.inr h))
  have hpairing {stage : PairStage} (h : (coreOf w).stage = stage) (hp : stage.pairing = true) :
      (coreOf w).state = .pairing := hflow.inPairing (by rw [h]; exact hp) hlive.1
  have hreply := hhead.replied
  obtain ⟨live, method, status, headers, hhead, rfl⟩ := hhead
  cases hstage : w.s.pairStage with
  | none | authSetup | done => exact Within.pure trivial
  | ap2Record => exact absurd hstage hrecord
  | pinStart =>
    have hstage : (coreOf w).stage = .pinStart := hstage
    have hf : Follows (coreOf w).stage .setupM2 := by rw [hstage]; exact .setupAfterPin
    exact sendPairSetupM1_walks hr hf (hpairing hstage rfl) (hflow.keyed (by rw [hstage]; rfl))
  | setupM2 => exact handlePairSetupM2_walks hfire body hr hstage (hpairing hstage rfl)
  | setupM4 => exact handlePairSetupM4_walks hfire body hr hstage (hpairing hstage rfl)
  | setupM6 => exact handlePairSetupM6_walks hfire body hr hstage (hpairing hstage rfl)
  | verifyM2 => exact handlePairVerifyM2_walks hfire body hr hstage (hpairing hstage rfl)
  | verifyDone =>
    have hstage : (coreOf w).stage = .verifyDone := hstage
    have hplain : (coreOf w).encrypted = false :=
      hflow.plain (by rw [hstage]; nofun) (by rw [hstage]; simp [PairStage.postAuth])
    refine Walks.step_bind (.verified _ hstage hr.waiting (hpairing hstage rfl)) rfl
      fun w₁ h₁ => afterAuthOk_walks ?_
    rw [h₁]
    exact ⟨⟨hr.waiting, hr.quiet⟩, rfl, hplain, hpairing hstage rfl⟩
  | ap2Info => exact sendAp2SetupSession_walks hstage hr hlive (hpost (.inl hstage)) hreply
  | ap2Session =>
    exact handleAp2SetupSession_walks body hstage hr hlive (hpost (.inr (.inl hstage)))
      ⟨live, method, status, headers, hhead⟩
  | ap2Stream =>
    exact handleAp2SetupStream_walks hfire body hstage (hpost (.inr (.inr (.inr hstage)))) hlive
      ⟨live, method, status, headers, hhead, hcode⟩

/-- A reply to a pairing post or a setup request. -/
theorem onPairingResponse_walks (hfire : Tame) {code : ℤ} {body : Octets} (hr : (coreOf w).Rests)
    (hhead : (coreOf w).Handling code body) :
    Walks .host w (onPairingResponse code body) fun _ _ => True := by
  refine Within.given fun hflow => Within.sender ?_
  refine Within.ite (fun _ => Within.pure trivial) fun hidle => ?_
  refine Within.ite (fun _ => Within.pure trivial) fun hstreaming => ?_
  have hlive : (coreOf w).Early := ⟨hidle, hstreaming⟩
  refine Within.ite (fun h => ?_) fun _ => Within.ite (fun hrecord => ?_) fun hrecord => ?_
  · -- any status will do for auth-setup
    obtain ⟨hauth, hnone, hstage⟩ := h
    have hstage : (coreOf w).stage = .authSetup := hstage
    have hstate := hflow.inPairing (by rw [hstage]; rfl) hidle
    have hplain : (coreOf w).encrypted = false :=
      hflow.plain (by rw [hstage]; nofun) (by rw [hstage]; simp [PairStage.postAuth])
    refine Walks.step_bind (.authSetupDone _ hstage hauth hr.waiting hstate
      (keys_of_ap2 (by simpa using hnone))) rfl fun w₁ h₁ => afterAuthOk_walks ?_
    rw [h₁]
    exact ⟨⟨hr.waiting, hr.quiet⟩, rfl, hplain, hstate⟩
  · -- and for RECORD
    exact sendAp2SetupStream_walks hrecord hr hlive hhead.replied
  · refine Within.ite (fun _ => onPairingRefused_walks hfire code hr hlive) fun hcode => ?_
    exact onPairingStage_walks hfire hr hlive hrecord hhead
      ⟨not_lt.mp fun h => hcode (.inl h), not_le.mp fun h => hcode (.inr h)⟩

end Dispatcher

end AirplaySender
