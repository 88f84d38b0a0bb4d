/-
# The encrypted channels, step by step

What a step does to the buffers and counters of the control channel, the event channel and the
audio stream.  Most steps leave them all alone; `Conducts` lists the others, so that what holds of a
channel is proved by cases on ten moves and not on all of `Step`.

The keys of the event channel are agreed once a session: `Step.event_keys` says that no step changes
them afterwards.
-/
import AirplaySender.Pointers

namespace AirplaySender

open Octets

/-- An entry that belongs to what comes in on an encrypted channel, or goes out on the event channel
or as audio. -/
def Entry.conducts : Entry → Bool
  | .switched .. => true
  | .delivered .. => true
  | .received .. => true
  | .took _ => true
  | .eventRead .. => true
  | .eventOpened .. => true
  | .eventDropped => true
  | .answerLost => true
  | .tcpSend .event _ => true
  | .sealed .event _ _ _ _ => true
  | .sealed .audio _ _ _ _ => true
  | _ => false

instance (stage : PairStage) : Decidable stage.postAuth := inferInstanceAs (Decidable (_ ∨ _))

instance (stage : PairStage) : Decidable stage.agreed := inferInstanceAs (Decidable (_ ∨ _))

/-! ## 1. Moves -/

/-- Key and nonce of the next audio packet, once audio is encrypted. -/
def Core.audioMeter (c : Core) : Option (Octets × UInt64) :=
  c.keys.bind fun keys =>
    if keys.encryptAudio = true then some (keys.audioKey, keys.audioNonce) else none

/-- Nothing that comes in or goes out is touched, but that a stream may be given its key. -/
structure Core.Still (c c' : Core) : Prop where
  audio : c'.audioMeter = c.audioMeter ∨ (c.stage ≠ .ap2Stream ∧
    (c'.audioMeter = none ∨ ∃ key, c'.audioMeter = some (key, 0)))
  encrypted : c'.encrypted = c.encrypted
  recvCtr : c'.recvCtr = c.recvCtr
  encBuf : c'.encBuf = c.encBuf
  rxBuf : c'.rxBuf = c.rxBuf
  eventSendCtr : c'.eventSendCtr = c.eventSendCtr
  eventRecvCtr : c'.eventRecvCtr = c.eventRecvCtr
  eventEncBuf : c'.eventEncBuf = c.eventEncBuf
  eventPlainBuf : c'.eventPlainBuf = c.eventPlainBuf

/-- Entries of one session that have nothing to do with the channels. -/
def Aside (es : List Entry) : Prop := ∀ e ∈ es, e.isStarted = false ∧ e.conducts = false

section Conduits

variable [Primitives] {k : Level} {c c' : Core}

/-- The moves of the channels. -/
inductive Conducts (c : Core) : Core → Prop
  | restart : Conducts c c.fresh
  | switch (keys : Keys) (henc : c.encrypted = false) (hkeys : c.keys = some keys) :
      Conducts c { c with
        encrypted := true, sendCtr := 0, recvCtr := 0, encBuf := []
        log := .switched keys.controlOut keys.controlIn c.rxBuf :: c.log }
  | receivePlain (bytes : Octets) (h : c.encrypted = false ∨ c.keys = none) :
      Conducts c { c with
        rxBuf := c.rxBuf ++ bytes
        log := .received .plain bytes :: .delivered (c.state ≠ .idle) bytes :: c.log }
  | receiveSealed (keys : Keys) (bytes : Octets) (henc : c.encrypted = true)
      (hkeys : c.keys = some keys)
      (hgood : (openFrames keys.controlIn (c.encBuf ++ bytes) c.recvCtr).failed = false) :
      Conducts c (c.receive keys.controlIn bytes)
  | receiveBroken (keys : Keys) (bytes : Octets) (henc : c.encrypted = true)
      (hkeys : c.keys = some keys)
      (hbad : (openFrames keys.controlIn (c.encBuf ++ bytes) c.recvCtr).failed = true) :
      Conducts c (c.receive keys.controlIn bytes).ended
  | take (bytes rest : Octets) (h : c.rxBuf = bytes ++ rest) :
      Conducts c { c with rxBuf := rest, log := .took bytes :: c.log }
  | receiveEvent (keys : Keys) (bytes : Octets) (hkeys : c.keys = some keys)
      (hin : keys.eventIn.length = 32) : Conducts c (c.receiveEvent keys.eventIn bytes)
  | answerEvent (keys : Keys) (total : ℕ) (resp : Octets) (hkeys : c.keys = some keys)
      (hout : keys.eventOut.length = 32) :
      Conducts c { c with
        eventPlainBuf := c.eventPlainBuf.drop total, eventSendCtr := c.eventSendCtr + 1
        log := .tcpSend .event (frame keys.eventOut c.eventSendCtr resp) ::
          .sealed .event keys.eventOut (counterNonce8 c.eventSendCtr) (leBytes 2 resp.length)
            resp :: c.log }
  | loseAnswer (keys : Keys) (total : ℕ) (hkeys : c.keys = some keys)
      (hout : keys.eventOut.length = 32) :
      Conducts c { c with
        eventPlainBuf := c.eventPlainBuf.drop total, eventSendCtr := c.eventSendCtr + 1
        log := .answerLost :: c.log }
  | sealAudio (keys : Keys) (aad pt : Octets) (hkeys : c.keys = some keys)
      (haudio : keys.encryptAudio = true) :
      Conducts c { c with
        keys := some { keys with audioNonce := keys.audioNonce + 1 }
        log := .sealed .audio keys.audioKey (counterNonce8 keys.audioNonce) aad pt :: c.log }
  | silent {c' : Core} (hstill : c.Still c') (es : List Entry) (hlog : c'.log = es ++ c.log)
      (hes : Aside es) : Conducts c c'

theorem aside_requestEntries {d : Core} {method text : Octets} {isHttp : Bool} :
    Aside (d.requestEntries method isHttp text) := by
  intro e he
  rcases mem_requestEntries he with ⟨_, rfl⟩ | ⟨_, _, _, _, rfl⟩ | rfl <;> exact ⟨rfl, rfl⟩

omit [Primitives] in
theorem Aside.append {es es' : List Entry} (h : Aside es) (h' : Aside es') : Aside (es ++ es') := by
  intro e he
  rcases List.mem_append.mp he with he | he
  · exact h e he
  · exact h' e he

omit [Primitives] in
theorem Aside.cons {e : Entry} {es : List Entry} (he : e.isStarted = false ∧ e.conducts = false)
    (h : Aside es) : Aside (e :: es) := by
  intro x hx
  rcases List.mem_cons.mp hx with rfl | hx
  · exact he
  · exact h x hx

omit [Primitives] in
theorem Aside.nil : Aside [] := by simp [Aside]

omit [Primitives] in
/-- A new session is not a continuation of the old one. -/
theorem Core.ne_fresh {es : List Entry} (hlog : c'.log = es ++ c.log)
    (hes : ∀ e ∈ es, e.isStarted = false) : c' ≠ c.fresh := by
  rintro rfl
  have hcons : [Entry.started c.auth c.airplay2 c.strict] = es :=
    List.append_cancel_right hlog
  have hno := hes (.started c.auth c.airplay2 c.strict) (by rw [← hcons]; exact List.mem_cons_self)
  cases hno

/-- **A step is one move.** -/
theorem Step.conducts (hs : Step k c c') : Conducts c c' := by
  have one {c c' : Core} {e : Entry} (hstill : c.Still c') (hlog : c'.log = e :: c.log)
      (he : e.isStarted = false ∧ e.conducts = false) : Conducts c c' :=
    .silent hstill [e] hlog (Aside.nil.cons he)
  -- keys that change leave the audio key alone
  have same {keys keys' : Keys} (hkeys : c.keys = some keys) (hkeys' : c'.keys = some keys')
      (haudio : (keys'.encryptAudio, keys'.audioKey, keys'.audioNonce) =
        (keys.encryptAudio, keys.audioKey, keys.audioNonce)) : c'.audioMeter = c.audioMeter := by
    simp only [Prod.mk.injEq] at haudio
    obtain ⟨hon, hkey, hnonce⟩ := haudio
    simp only [Core.audioMeter, hkeys, hkeys', Option.bind_some, hon, hkey, hnonce]
  cases hs with
  | restart => exact .restart
  | switch _ keys _ henc _ _ hkeys => exact .switch keys henc hkeys
  | receivePlain _ bytes h => exact .receivePlain bytes h
  | receiveSealed _ keys bytes henc hkeys hgood => exact .receiveSealed keys bytes henc hkeys hgood
  | receiveBroken _ keys bytes henc hkeys hbad => exact .receiveBroken keys bytes henc hkeys hbad
  | take _ bytes rest h => exact .take bytes rest h
  | receiveEvent _ keys bytes _ hkeys hin => exact .receiveEvent keys bytes hkeys hin
  | answerEvent _ keys total resp _ hkeys hout => exact .answerEvent keys total resp hkeys hout
  | loseAnswer _ keys total _ hkeys hout => exact .loseAnswer keys total hkeys hout
  | sealAudio _ keys aad pt _ hkeys haudio => exact .sealAudio keys aad pt hkeys haudio
  | request _ method isHttp text =>
    exact .silent ⟨.inl rfl, rfl, rfl, rfl, rfl, rfl, rfl, rfl, rfl⟩ _ Core.request_log aside_requestEntries
  | reask _ method text =>
    exact .silent ⟨.inl rfl, rfl, rfl, rfl, rfl, rfl, rfl, rfl, rfl⟩ _ Core.request_log aside_requestEntries
  | setup _ stage method text =>
    exact .silent ⟨.inl rfl, rfl, rfl, rfl, rfl, rfl, rfl, rfl, rfl⟩
      (Core.requestEntries { c with stage := stage, log := .staged stage :: c.log } method true text ++
        [.staged stage]) (by simp [Core.request_log])
      (aside_requestEntries.append (Aside.nil.cons ⟨rfl, rfl⟩))
  | stream _ keys text hst =>
    exact .silent ⟨.inr ⟨by rw [hst]; decide, .inr ⟨_, rfl⟩⟩, rfl, rfl, rfl, rfl, rfl, rfl, rfl, rfl⟩
      (Core.requestEntries { c with
        keys := some { keys with
          audioKey := keys.secret.take 32, audioNonce := 0, encryptAudio := true }
        stage := .ap2Stream
        log := .staged .ap2Stream :: c.log } (ascii "SETUP") true text ++ [.staged .ap2Stream])
      (by simp [Core.request_log]) (aside_requestEntries.append (Aside.nil.cons ⟨rfl, rfl⟩))
  | teardown _ text =>
    refine .silent ⟨.inl rfl, rfl, rfl, rfl, rfl, rfl, rfl, rfl, rfl⟩ (.tcpClose .control true ::
      (((c.ending true).request (ascii "TEARDOWN") false text).rewindEntries ++
        ((c.ending true).requestEntries (ascii "TEARDOWN") false text ++
          [.ending c.state c.waiting true])))
      (by simp [Core.closed, Core.rewind, Core.request, Core.requestEntries, Core.ending])
      (Aside.cons ⟨rfl, rfl⟩ (Aside.append (fun e he => ?_)
        (aside_requestEntries.append (Aside.nil.cons ⟨rfl, rfl⟩))))
    rw [mem_rewindEntries he]
    exact ⟨rfl, rfl⟩
  | attempt _ auth hat =>
    refine one ⟨.inr ⟨?_, .inl rfl⟩, rfl, rfl, rfl, rfl, rfl, rfl, rfl, rfl⟩ rfl ⟨rfl, rfl⟩
    rcases hat with ⟨hst, -⟩ | ⟨hst, -⟩ | ⟨hst, -⟩ <;> rw [hst] <;> decide
  | srpStart _ keys _ _ hkeys =>
    exact .silent ⟨.inl (same hkeys rfl rfl), rfl, rfl, rfl, rfl, rfl, rfl, rfl, rfl⟩ [] rfl .nil
  | srpAgreed _ keys _ _ _ _ hkeys =>
    exact .silent ⟨.inl (same hkeys rfl rfl), rfl, rfl, rfl, rfl, rfl, rfl, rfl, rfl⟩ [_, _] rfl
      ((Aside.nil.cons ⟨rfl, rfl⟩).cons ⟨rfl, rfl⟩)
  | transientKeys _ keys _ _ _ _ _ _ hkeys =>
    exact one ⟨.inl (same hkeys rfl rfl), rfl, rfl, rfl, rfl, rfl, rfl, rfl, rfl⟩ rfl ⟨rfl, rfl⟩
  | learn _ keys _ _ hkeys =>
    exact one ⟨.inl (same hkeys rfl rfl), rfl, rfl, rfl, rfl, rfl, rfl, rfl, rfl⟩ rfl ⟨rfl, rfl⟩
  | stored _ keys _ _ _ hkeys =>
    exact one ⟨.inl (same hkeys rfl rfl), rfl, rfl, rfl, rfl, rfl, rfl, rfl, rfl⟩ rfl ⟨rfl, rfl⟩
  | agreed _ keys _ _ hkeys =>
    exact .silent ⟨.inl (same hkeys rfl rfl), rfl, rfl, rfl, rfl, rfl, rfl, rfl, rfl⟩ [] rfl .nil
  | verifyKeys _ keys _ _ _ _ _ _ _ _ _ hkeys =>
    exact .silent ⟨.inl (same hkeys rfl rfl), rfl, rfl, rfl, rfl, rfl, rfl, rfl, rfl⟩ [_, _] rfl
      ((Aside.nil.cons ⟨rfl, rfl⟩).cons ⟨rfl, rfl⟩)
  | disconnect | lapse | retry | beginPairing | authSetupDone | verified | forget | unretry =>
    exact .silent ⟨.inl rfl, rfl, rfl, rfl, rfl, rfl, rfl, rfl, rfl⟩ [] rfl .nil
  | leave | typed | setupM5 =>
    exact .silent ⟨.inl rfl, rfl, rfl, rfl, rfl, rfl, rfl, rfl, rfl⟩ [_, _] rfl
      ((Aside.nil.cons ⟨rfl, rfl⟩).cons ⟨rfl, rfl⟩)
  | _ => exact one ⟨.inl rfl, rfl, rfl, rfl, rfl, rfl, rfl, rfl, rfl⟩ rfl ⟨rfl, rfl⟩

/-! ## 2. Keys -/

/-- The stages only ever lead on to the agreement. -/
theorem Step.not_agreed (hs : Step k c c') (hno : ¬ c'.stage.agreed) :
    c' = c.fresh ∨ ¬ c.stage.agreed := by
  have early {st : PairStage} (hst : c.stage = st) (hearly : ¬ st.agreed) :
      c' = c.fresh ∨ ¬ c.stage.agreed := .inr (hst ▸ hearly)
  cases hs with
  | restart => exact .inl rfl
  | stage _ st hf | setup _ st _ _ hf =>
    refine .inr ?_
    have hno : ¬ st.agreed := hno
    generalize c.stage = before at hf ⊢
    cases hf <;> simp_all [PairStage.agreed, PairStage.postAuth]
  | authSetupDone _ hst => exact early hst (by decide)
  | verified | transientKeys => exact absurd (by decide : PairStage.done.agreed) hno
  | verifyKeys => exact absurd (by decide : PairStage.verifyDone.agreed) hno
  | stream => exact absurd (by decide : PairStage.ap2Stream.agreed) hno
  | srpAgreed _ _ _ _ hst => exact early hst (by decide)
  | setupM5 _ _ _ _ _ hst => exact early hst (by decide)
  | _ => exact .inr hno

/-- The keys of the event channel change only before they are agreed. -/
theorem Step.event_keys (hs : Step k c c') {keys' : Keys} (hkeys' : c'.keys = some keys') :
    (∃ keys, c.keys = some keys ∧ keys'.eventOut = keys.eventOut ∧ keys'.eventIn = keys.eventIn) ∨
      (¬ c.stage.agreed ∧ (c'.stage.agreed ∨ (keys'.eventOut = [] ∧ keys'.eventIn = []))) := by
  have kept {keys new : Keys} (hkeys : c.keys = some keys) (hnew : some new = some keys')
      (hsame : new.eventOut = keys.eventOut ∧ new.eventIn = keys.eventIn) :
      (∃ keys, c.keys = some keys ∧ keys'.eventOut = keys.eventOut ∧ keys'.eventIn = keys.eventIn) ∨
        (¬ c.stage.agreed ∧ (c'.stage.agreed ∨ (keys'.eventOut = [] ∧ keys'.eventIn = []))) := by
    obtain rfl := Option.some.inj hnew
    exact .inl ⟨keys, hkeys, hsame⟩
  cases hs with
  | restart => cases hkeys'
  | attempt _ auth hat =>
    obtain rfl := Option.some.inj hkeys'
    refine .inr ⟨?_, .inr ⟨rfl, rfl⟩⟩
    rcases hat with ⟨hst, -⟩ | ⟨hst, -⟩ | ⟨hst, -⟩ <;> rw [hst] <;> decide
  | verifyKeys _ keys _ _ _ _ _ _ _ hst =>
    refine .inr ⟨?_, .inl (by decide : PairStage.verifyDone.agreed)⟩
    rw [hst]
    decide
  | srpStart _ keys _ _ hkeys => exact kept hkeys hkeys' ⟨rfl, rfl⟩
  | srpAgreed _ keys _ _ _ _ hkeys => exact kept hkeys hkeys' ⟨rfl, rfl⟩
  | transientKeys _ keys _ _ _ _ _ _ hkeys => exact kept hkeys hkeys' ⟨rfl, rfl⟩
  | learn _ keys _ _ hkeys => exact kept hkeys hkeys' ⟨rfl, rfl⟩
  | stored _ keys _ _ _ hkeys => exact kept hkeys hkeys' ⟨rfl, rfl⟩
  | agreed _ keys _ _ hkeys => exact kept hkeys hkeys' ⟨rfl, rfl⟩
  | stream _ keys _ _ _ _ _ hkeys => exact kept hkeys hkeys' ⟨rfl, rfl⟩
  | sealAudio _ keys _ _ _ hkeys => exact kept hkeys hkeys' ⟨rfl, rfl⟩
  | _ => exact .inl ⟨keys', hkeys', rfl, rfl⟩

end Conduits

end AirplaySender
