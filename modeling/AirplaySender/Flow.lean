/-
# The control-flow invariant of a session

`Flow` is what the code relies on without checking it: which stages and queues go together with
which states, that a request for setup or streaming traffic is only ever waiting for its reply in a
session that got past authentication, that at most one pairing post is unanswered, that the
encrypted channel always has its keys.  `Flow.step` proves it step by step; `Calm` is the part that
survives whatever the application does from a callback.
-/
import AirplaySender.Core

namespace AirplaySender

open Octets

/-! ## 1. The invariant -/

/-- The encrypted channel: past pairing, and keyed. -/
def Core.Keyed (c : Core) : Prop :=
  (c.stage = .done ∨ c.stage.postAuth) ∧
    ∃ keys, c.keys = some keys ∧ keys.controlOut.length = 32 ∧ keys.controlIn.length = 32

/-- The control-flow invariant. -/
structure Flow (c : Core) : Prop where
  connecting : c.state = .connecting → c.Untouched
  live : c.state = .handshake ∨ c.state = .streaming ∨ c.stage.postAuth → Cleared c.log
  uncleared : c.state = .connecting ∨ c.state = .pairing → ¬ Cleared c.log
  paired : c.stage.pairing = true → (c.state = .pairing ∨ c.state = .idle) ∧ ¬ Cleared c.log
  keyed : c.stage.hap = true → c.keys ≠ none
  pending : ∀ p ∈ c.methods.zip c.kinds, p.2 = false → p.1 ≠ ascii "TEARDOWN" → Cleared c.log
  pacing : c.timers.pacer = true ∨ c.timers.syncTimer = true → c.state = .streaming
  waiting : c.waiting = true → c.stage = .setupM2 ∧ true ∉ c.kinds
  encrypted : c.encrypted = true → c.Keyed
  lockstep : c.methods.length = c.kinds.length
  single : c.kinds.count true ≤ 1

/-- A sender that was never started keeps it. -/
theorem Flow.init : Flow {} := by
  constructor <;> simp [PairStage.postAuth, PairStage.pairing, PairStage.hap, Core.Untouched]

/-- Nothing of the pairing has happened while the connection is awaited. -/
theorem Flow.stage_ne (h : Flow c) (hstage : c.stage ≠ .none) : c.state ≠ .connecting :=
  fun hc => hstage (h.connecting hc).1

/-- An encrypted channel is past pairing. -/
theorem Flow.plain (h : Flow c) (hdone : c.stage ≠ .done) (hpost : ¬ c.stage.postAuth) :
    c.encrypted = false := by
  by_contra henc
  rcases (h.encrypted (by simpa using henc)).1 with hd | hp
  · exact hdone hd
  · exact hpost hp

/-- An RTSP request is only ever pending in a session that got past authentication. -/
theorem Flow.cleared_of_pending {method : Octets} {methods : List Octets} (h : Flow c)
    (hm : c.methods = method :: methods) (hk : c.kinds.headD false = false)
    (htear : method ≠ ascii "TEARDOWN") : Cleared c.log := by
  have hlock := h.lockstep
  rw [hm] at hlock
  cases hkinds : c.kinds with
  | nil => simp [hkinds] at hlock
  | cons isHttp kinds =>
    rw [hkinds] at hk
    refine h.pending (method, isHttp) ?_ hk htear
    rw [hm, hkinds]
    exact List.mem_cons_self

/-- A pairing stage in a session that is alive. -/
theorem Flow.inPairing (h : Flow c) (hstage : c.stage.pairing = true) (hlive : c.state ≠ .idle) :
    c.state = .pairing :=
  (h.paired hstage).1.resolve_right hlive

/-! ## 2. Steps extend the trace -/

variable [Primitives] {k : Level} {c c' : Core}

/-- What a read of the control channel adds to the trace. -/
theorem mem_receiveEntries {key bytes : Octets} {e : Entry} (h : e ∈ c.receiveEntries key bytes) :
    (∃ n pt, e = .received (.opened key n) pt) ∨ e = .delivered (c.state ≠ .idle) bytes := by
  simp only [Core.receiveEntries, controlEntries, List.mem_append, List.mem_reverse, List.mem_map,
    List.mem_singleton] at h
  rcases h with ⟨f, _, rfl⟩ | h
  · exact .inl ⟨_, _, rfl⟩
  · exact .inr h

/-- What a read of the event channel adds to the trace. -/
theorem mem_eventReadEntries {key buf : Octets} {ctr : UInt64} {e : Entry}
    (h : e ∈ eventReadEntries key buf ctr) :
    e = .eventDropped ∨ (∃ n bytes, e = .eventOpened key n bytes) ∨ e = .eventRead key ctr buf := by
  simp only [eventReadEntries, List.mem_append, List.mem_singleton] at h
  rcases h with (h | h) | h
  · split at h
    · exact .inl (List.mem_singleton.mp h)
    · cases h
  · obtain ⟨f, _, rfl⟩ := List.mem_map.mp (List.mem_reverse.mp h)
    exact .inr (.inl ⟨_, _, rfl⟩)
  · exact .inr (.inr h)

omit [Primitives] in
/-- A window that is opened again is one armed timer. -/
theorem mem_rewindEntries {e : Entry} (h : e ∈ c.rewindEntries) : e = .armed .timeout := by
  unfold Core.rewindEntries at h
  cases hr : c.rewinds with
  | true => rw [hr] at h; exact List.mem_singleton.mp h
  | false => rw [hr] at h; cases h

/-- What an entry that a step adds says about the core before and behind it. -/
def Core.Emits (c c' : Core) : Entry → Prop
  | .started .. => False
  | .configured auth airplay2 strict =>
    c' = { c with
      auth := auth, airplay2 := airplay2, log := .configured auth airplay2 strict :: c.log }
  | .cleared auth setup2 paired =>
    c.state = .pairing ∧ c.stage.pairing = false ∧ auth = c.auth ∧ paired = c.keys.isSome ∧
      c' = { c with state := .handshake, log := .cleared auth setup2 paired :: c.log }
  | .udpSend u _ bytes => isMedia u bytes → c.state = .streaming
  | .derefNull => c.Faulty
  | .keyRefused _ => ∃ keys, c.keys = some keys ∧ keys.encryptAudio = true ∧
      keys.audioKey.length ≠ 32
  | _ => True

omit [Primitives] in
/-- A session begins by a step of its own. -/
theorem Core.Emits.not_started {e : Entry} (h : c.Emits c' e) : e.isStarted = false := by
  cases e with
  | started => exact h.elim
  | _ => rfl

/-- What the entries of a request say: nothing. -/
theorem emits_requestEntries {d : Core} {method text : Octets} {isHttp : Bool} :
    ∀ e ∈ d.requestEntries method isHttp text, c.Emits c' e := by
  intro e he
  rcases mem_requestEntries he with ⟨_, rfl⟩ | ⟨_, _, _, _, rfl⟩ | rfl <;> trivial

/-- What those of a setup request say, behind the change of stage: nothing either. -/
theorem emits_stagedRequest {d : Core} {method text : Octets} {isHttp : Bool} {stage : PairStage} :
    ∀ e ∈ d.requestEntries method isHttp text ++ [.staged stage], c.Emits c' e := by
  intro e he
  rcases List.mem_append.mp he with he | he
  · exact emits_requestEntries e he
  · rw [List.mem_singleton.mp he]
    trivial

/-- What was received says nothing of the state either. -/
theorem emits_receiveEntries {key bytes : Octets} :
    ∀ e ∈ c.receiveEntries key bytes, c.Emits c' e := by
  intro e he
  rcases mem_receiveEntries he with ⟨_, _, rfl⟩ | rfl <;> trivial

/-- **A step either begins a session or adds entries to the one there is**, and says by each
entry what it has found. -/
theorem Step.log (h : Step k c c') : (c' = c.fresh ∧ c.state = .idle) ∨
    ∃ es, c'.log = es ++ c.log ∧ ∀ e ∈ es, c.Emits c' e := by
  have plain (es : List Entry) (hlog : c'.log = es ++ c.log) (hes : ∀ e ∈ es, c.Emits c' e) :
      (c' = c.fresh ∧ c.state = .idle) ∨ ∃ es, c'.log = es ++ c.log ∧ ∀ e ∈ es, c.Emits c' e :=
    .inr ⟨es, hlog, hes⟩
  cases h with
  | restart _ hidle => exact .inl ⟨rfl, hidle⟩
  | configure =>
    refine plain [_] rfl fun e he => ?_
    rw [List.mem_singleton.mp he]
    rfl
  | clear _ setup2 hst hstate =>
    refine plain [_] rfl fun e he => ?_
    rw [List.mem_singleton.mp he]
    refine ⟨hstate, ?_, rfl, rfl, rfl⟩
    rcases hst with ⟨hst, _⟩ | ⟨hst, _⟩ <;> rw [hst] <;> rfl
  | datagram _ u dest bytes _ hmedia =>
    refine plain [_] rfl fun e he => ?_
    rw [List.mem_singleton.mp he]
    exact hmedia
  | derefNull _ hfaulty =>
    refine plain [_] rfl fun e he => ?_
    rw [List.mem_singleton.mp he]
    exact hfaulty
  | keyRefused _ keys hkeys haudio hlen =>
    refine plain [_] rfl fun e he => ?_
    rw [List.mem_singleton.mp he]
    exact ⟨keys, hkeys, haudio, hlen⟩
  | request _ method isHttp text => exact plain _ Core.request_log emits_requestEntries
  | reask _ method text => exact plain _ Core.request_log emits_requestEntries
  | setup _ stage method text =>
    exact plain (Core.requestEntries { c with stage := stage, log := .staged stage :: c.log } method
      true text ++ [.staged stage]) (by simp [Core.request_log]) emits_stagedRequest
  | stream _ keys text =>
    exact plain (Core.requestEntries { c with
        keys := some { keys with
          audioKey := keys.secret.take 32, audioNonce := 0, encryptAudio := true }
        stage := .ap2Stream
        log := .staged .ap2Stream :: c.log } (ascii "SETUP") true text ++ [.staged .ap2Stream])
      (by simp [Core.request_log]) emits_stagedRequest
  | teardown _ text =>
    refine plain (.tcpClose .control true ::
      (((c.ending true).request (ascii "TEARDOWN") false text).rewindEntries ++
        ((c.ending true).requestEntries (ascii "TEARDOWN") false text ++
          [.ending c.state c.waiting true])))
      (by simp [Core.closed, Core.rewind, Core.request, Core.requestEntries, Core.ending]) fun e he => ?_
    rcases List.mem_cons.mp he with rfl | he
    · trivial
    rcases List.mem_append.mp he with he | he
    · rw [mem_rewindEntries he]
      trivial
    rcases List.mem_append.mp he with he | he
    · exact emits_requestEntries e he
    · rw [List.mem_singleton.mp he]
      trivial
  | receiveSealed => exact plain _ rfl emits_receiveEntries
  | receiveBroken _ keys bytes =>
    refine plain (.ending c.state c.waiting false :: c.receiveEntries keys.controlIn bytes) rfl
      fun e he => ?_
    rcases List.mem_cons.mp he with rfl | he
    · trivial
    · exact emits_receiveEntries e he
  | receiveEvent =>
    refine plain _ rfl fun e he => ?_
    rcases mem_eventReadEntries he with rfl | ⟨_, _, rfl⟩ | rfl <;> trivial
  | disconnect | lapse | retry | beginPairing | authSetupDone | verified | srpStart
  | forget | agreed | unretry => exact plain [] rfl (by simp)
  | receivePlain | answerEvent | leave | typed | srpAgreed | setupM5 | verifyKeys =>
    exact plain [_, _] rfl (by simp [Core.Emits])
  | _ => exact plain [_] rfl (by simp [Core.Emits])

/-- Nothing is ever taken back from the trace. -/
theorem Step.extends (h : Step k c c') : ∃ es, c'.log = es ++ c.log := by
  rcases h.log with ⟨rfl, _⟩ | ⟨es, hlog, _⟩
  · exact ⟨[.started c.auth c.airplay2 c.strict], rfl⟩
  · exact ⟨es, hlog⟩

/-- A session that got past authentication stays so until the next one begins. -/
theorem Cleared.step (hs : Step k c c') (h : Cleared c.log) :
    (c' = c.fresh ∧ c.state = .idle) ∨ Cleared c'.log := by
  rcases hs.log with hfresh | ⟨es, hlog, hes⟩
  · exact .inl hfresh
  · exact .inr (hlog ▸ h.append fun e he => (hes e he).not_started)

/-- Only a session in pairing gets past authentication. -/
theorem Step.cleared (hs : Step k c c') (h : Cleared c'.log) : Cleared c.log ∨
    (c.state = .pairing ∧ c'.state = .handshake ∧ c'.stage = c.stage ∧ c.stage.pairing = false) := by
  obtain ⟨auth, setup2, paired, hmem⟩ := h
  rcases hs.log with ⟨rfl, _⟩ | ⟨es, hlog, hes⟩
  · simp [Core.fresh, sessionOf, Entry.isStarted] at hmem
  · rw [hlog, sessionOf_append fun e he => (hes e he).not_started] at hmem
    rcases List.mem_append.mp hmem with hmem | hmem
    · obtain ⟨hst, hstage, _, _, rfl⟩ := hes _ hmem
      exact .inr ⟨hst, rfl, rfl, hstage⟩
    · exact .inl ⟨auth, setup2, paired, hmem⟩

/-! ## 3. Every step keeps the invariant -/

/-- A session that waits for its connection is as `start` left it. A reply or a pairing step would
need a stage it has not reached. -/
theorem Flow.connecting_step (h : Flow c) (hs : Step k c c') :
    c'.state = .connecting → c'.Untouched := by
  intro hc
  cases hs with
  | restart _ => exact ⟨rfl, rfl, rfl, rfl, by simp [Core.fresh], rfl⟩
  | connecting _ hun => exact hun
  | request _ method isHttp text hcause =>
    obtain ⟨h1, h2, h3, h4, h5, h6⟩ := h.connecting hc
    refine ⟨h1, h2, h3, h4, ?_, h6⟩
    cases hcause with
    | post _ hstage => rw [h1] at hstage; cases hstage
    | _ => simpa [Core.request] using h5
  | dispatch =>
    obtain ⟨h1, h2, h3, h4, h5, h6⟩ := h.connecting hc
    exact ⟨h1, h2, h3, h4, fun hmem => h5 (List.mem_of_mem_tail hmem), h6⟩
  | retry _ _ _ _ hcl => exact absurd hcl (h.uncleared (.inl hc))
  | reask _ _ _ _ _ _ hcl => exact absurd hcl (h.uncleared (.inl hc))
  | setup _ _ _ _ _ _ _ _ _ hcl => exact absurd hcl (h.uncleared (.inl hc))
  | unretry _ hst => exact absurd hc (h.stage_ne (by rw [hst]; simp))
  | leave | teardown | ended | hangUp | expirePin | receiveBroken => cases hc
  | beginPairing | clear | enter => cases hc
  | attempt _ _ _ _ hstate => exact absurd (hstate.symm.trans hc) (by decide)
  | stage _ st _ _ _ hpairing =>
    have hc : c.state = .connecting := hc
    rcases hpairing with hst | ⟨hst, _⟩ <;> rw [hst] at hc <;> cases hc
  | authSetupDone _ hst => exact absurd hc (h.stage_ne (by rw [hst]; simp))
  | verified _ hst => exact absurd hc (h.stage_ne (by rw [hst]; simp))
  | wait _ hst => exact absurd hc (h.stage_ne (by rw [hst]; simp))
  | srpStart _ _ hst => exact absurd hc (h.stage_ne (by rw [hst]; simp))
  | srpAgreed _ _ _ _ hst => exact absurd hc (h.stage_ne (by rw [hst]; simp))
  | transientKeys _ _ _ _ _ hst => exact absurd hc (h.stage_ne (by rw [hst]; simp))
  | setupM5 _ _ _ _ _ hst => exact absurd hc (h.stage_ne (by rw [hst]; simp))
  | learn _ _ _ hst => exact absurd hc (h.stage_ne (by rw [hst]; simp))
  | agreed _ _ _ hst => exact absurd hc (h.stage_ne (by rw [hst]; simp))
  | verifyKeys _ _ _ _ _ _ _ _ _ hst => exact absurd hc (h.stage_ne (by rw [hst]; simp))
  | switch _ _ hst => exact absurd hc (h.stage_ne (by rw [hst]; simp))
  | stream _ _ _ hst => exact absurd hc (h.stage_ne (by rw [hst]; simp))
  | stored _ keys _ _ _ hkeys => exact absurd ((h.connecting hc).2.1) (by rw [hkeys]; simp)
  | sealAudio _ keys _ _ _ hkeys => exact absurd ((h.connecting hc).2.1) (by rw [hkeys]; simp)
  | typed _ code hw =>
    rw [(h.connecting hc).2.2.1] at hw
    cases hw
  | _ => exact h.connecting hc

/-- A session gets behind authentication by `clear`; every later state and stage is entered by a step
that asks for a cleared session. -/
theorem Flow.live_step (h : Flow c) (hs : Step k c c') :
    c'.state = .handshake ∨ c'.state = .streaming ∨ c'.stage.postAuth → Cleared c'.log := by
  intro hc
  -- only a step that enters these states or stages says anything new
  by_cases hold : c.state = .handshake ∨ c.state = .streaming ∨ c.stage.postAuth
  · rcases (h.live hold).step hs with ⟨rfl, hidle⟩ | hcl
    · simp [Core.fresh, hidle, PairStage.postAuth] at hc
    · exact hcl
  · cases hs with
    | clear => exact ⟨_, _, _, List.mem_cons_self⟩
    | enter _ _ hcl => exact hcl.cons rfl
    | stage _ st _ hp =>
      rcases hc with hc | hc | hc
      · exact absurd (.inl hc) hold
      · exact absurd (.inr (.inl hc)) hold
      · exact absurd hp (by simp [hc.not_pairing])
    | setup _ _ _ _ _ _ _ _ _ hcl =>
      exact (Core.request_extends _ _ _ _).cleared (hcl.cons rfl)
    | stream _ _ _ hst => exact absurd (.inr (.inr (by simp [hst, PairStage.postAuth]))) hold
    | restart _ hidle => simp [Core.fresh, hidle, PairStage.postAuth] at hc
    | connecting | leave | teardown | ended | hangUp | expirePin | beginPairing | receiveBroken =>
      exact absurd (.inr (.inr (hc.resolve_left nofun |>.resolve_left nofun))) hold
    | authSetupDone | verified | transientKeys | setupM5 | verifyKeys | srpAgreed =>
      simp only [PairStage.postAuth, reduceCtorEq, or_false] at hc
      exact absurd (hc.elim .inl fun h => .inr (.inl h)) hold
    | _ => exact absurd hc hold

/-- Before authentication there is no way back from `.cleared`: only `clear` records it, and it
leaves the pairing. -/
theorem Flow.uncleared_step (h : Flow c) (hs : Step k c c') :
    c'.state = .connecting ∨ c'.state = .pairing → ¬ Cleared c'.log := by
  intro hc hcl
  have hnot : ¬ Cleared c.log → False := by
    intro hno
    rcases hs.cleared hcl with hyes | ⟨_, hst, _⟩
    · exact hno hyes
    · rw [hst] at hc
      rcases hc with hc | hc <;> cases hc
  cases hs with
  | restart =>
    obtain ⟨_, _, _, hmem⟩ := hcl
    simp [Core.fresh, sessionOf, Entry.isStarted] at hmem
  | connecting _ _ hidle hhead =>
    obtain ⟨auth, airplay2, strict, hhead⟩ := hhead
    obtain ⟨rest, hlog⟩ := List.head?_eq_some_iff.mp hhead
    refine hnot ?_
    rintro ⟨_, _, _, hmem⟩
    rw [hlog, sessionOf_started] at hmem
    cases hmem
  | beginPairing _ hst => exact hnot (h.uncleared (.inl hst))
  | leave | teardown | ended | hangUp | expirePin | receiveBroken | clear | enter =>
    rcases hc with hc | hc <;> cases hc
  | _ => exact hnot (h.uncleared hc)

/-- A pairing stage is left when authentication is passed, and no step enters it again in that
session. -/
theorem Flow.paired_step (h : Flow c) (hs : Step k c c') : c'.stage.pairing = true →
    (c'.state = .pairing ∨ c'.state = .idle) ∧ ¬ Cleared c'.log := by
  intro hp
  have hkeep : ¬ Cleared c.log → c'.stage.pairing = true → ¬ Cleared c'.log := by
    intro hno hp hcl
    rcases hs.cleared hcl with hyes | ⟨_, _, hst, hbad⟩
    · exact hno hyes
    · rw [hst, hbad] at hp; cases hp
  -- most steps that end in a pairing stage started from one
  have hsame (hst : c.stage.pairing = true) : (c.state = .pairing ∨ c.state = .idle) ∧
      ¬ Cleared c'.log := ⟨(h.paired hst).1, hkeep (h.paired hst).2 hp⟩
  cases hs with
  | restart => cases hp
  | connecting _ hun => exact absurd hp (by simp [Core.arm, hun.1, PairStage.pairing])
  | leave | teardown | ended | hangUp | expirePin | receiveBroken =>
    exact ⟨.inr rfl, (hsame hp).2⟩
  | beginPairing => exact ⟨.inl rfl, (hsame hp).2⟩
  | stage _ st _ _ _ hpairing =>
    rcases hpairing with hst | ⟨hst, hm6⟩
    · exact ⟨.inl hst, hkeep (h.uncleared (.inr hst)) hp⟩
    · exact ⟨.inr hst, hkeep (h.paired (by rw [hm6]; rfl)).2 hp⟩
  | srpAgreed _ _ _ _ hst => exact hsame (by rw [hst]; rfl)
  | setupM5 _ _ _ _ _ hst => exact hsame (by rw [hst]; rfl)
  | verifyKeys _ _ _ _ _ _ _ _ _ hst => exact hsame (by rw [hst]; rfl)
  | authSetupDone | verified | transientKeys | stream => cases hp
  | setup _ stage _ _ _ hm =>
    have hp : stage.pairing = true := hp
    exact absurd hp (by simp [(PairStage.postAuth_of_setupMethod hm).not_pairing])
  | clear _ _ hst =>
    rcases hst with ⟨hst, _⟩ | ⟨hst, _⟩
    · exact absurd hp (by simp [hst, PairStage.pairing])
    · exact absurd hp (by simp [hst, PairStage.pairing])
  | enter _ _ hcl => exact absurd hcl (h.paired hp).2
  | _ => exact hsame hp

/-- A HAP stage has its pairing state: each step to one creates it or finds it there. -/
theorem Flow.keyed_step (h : Flow c) (hs : Step k c c') : c'.stage.hap = true → c'.keys ≠ none := by
  intro hp
  cases hs with
  | restart => cases hp
  | stage _ _ _ _ _ _ hkeyed => exact hkeyed hp
  | setup _ stage _ _ _ hm =>
    have hp : stage.hap = true := hp
    exact absurd hp (by simp [(PairStage.postAuth_of_setupMethod hm).not_pairing])
  | authSetupDone | verified | transientKeys => cases hp
  | attempt | srpStart | srpAgreed | learn | stored | agreed | verifyKeys | stream | sealAudio =>
    simp [Core.request]
  | setupM5 _ keys _ _ _ _ _ _ hkeys => simp [hkeys]
  | _ => exact h.keyed hp

/-- A request that is neither a post nor a TEARDOWN waits for its reply in an authenticated session.
The queues move together, so a request keeps its kind while others are answered. -/
theorem Flow.pending_step (h : Flow c) (hs : Step k c c') :
    ∀ p ∈ c'.methods.zip c'.kinds, p.2 = false → p.1 ≠ ascii "TEARDOWN" → Cleared c'.log := by
  intro p hp hfalse htear
  have hkeep (hcl : Cleared c.log) : Cleared c'.log := by
    rcases hcl.step hs with ⟨rfl, _⟩ | hcl
    · simp [Core.fresh] at hp
    · exact hcl
  have hold (hmem : p ∈ c.methods.zip c.kinds) : Cleared c'.log :=
    hkeep (h.pending p hmem hfalse htear)
  have hnew {method : Octets} {isHttp : Bool}
      (hp : p ∈ (c.methods ++ [method]).zip (c.kinds ++ [isHttp]))
      (hcl : p = (method, isHttp) → Cleared c.log) : Cleared c'.log := by
    rw [List.zip_append h.lockstep] at hp
    rcases List.mem_append.mp hp with hp | hp
    · exact hold hp
    · exact hkeep (hcl (List.mem_singleton.mp hp))
  cases hs with
  | restart => simp [Core.fresh] at hp
  | request _ method isHttp text hcause =>
    refine hnew hp ?_
    rintro rfl
    cases hcause with
    | post => cases hfalse
    | options hhead =>
      obtain ⟨auth, paired, hhead⟩ := hhead
      obtain ⟨rest, hlog⟩ := List.head?_eq_some_iff.mp hhead
      exact ⟨auth, false, paired, by rw [hlog]; exact List.mem_cons_self⟩
    | next _ _ _ hc => exact hc
    | stream hst => exact h.live (.inr (.inl hst))
  | reask _ _ _ _ _ _ hc => exact hnew hp fun _ => hc
  | teardown =>
    refine hnew hp ?_
    rintro rfl
    exact absurd rfl htear
  | setup | stream =>
    refine hnew hp ?_
    rintro rfl
    cases hfalse
  | dispatch _ method methods code headers body hm =>
    -- the reply takes the head of both queues
    refine hold ?_
    rw [hm]
    have hk := h.lockstep
    rw [hm] at hk
    cases hkinds : c.kinds with
    | nil => simp [hkinds] at hk
    | cons x xs =>
      simp only [hkinds, List.tail_cons] at hp
      exact List.mem_cons_of_mem _ hp
  | _ => exact hold hp

/-- The pacer and the sync timer are armed in a stream and stopped with it. -/
theorem Flow.pacing_step (h : Flow c) (hs : Step k c c') :
    c'.timers.pacer = true ∨ c'.timers.syncTimer = true → c'.state = .streaming := by
  intro hc
  cases hs with
  | leave | ended | hangUp | expirePin | receiveBroken => rcases hc with hc | hc <;> cases hc
  | teardown =>
    have harm : ∀ b : Bool, (bif b then Timers.arm {} .timeout else {}).pacer = false ∧
        (bif b then Timers.arm {} .timeout else {}).syncTimer = false := by decide
    rcases hc with hc | hc
    · exact absurd hc (Bool.eq_false_iff.mp (harm _).1)
    · exact absurd hc (Bool.eq_false_iff.mp (harm _).2)
  | connecting _ _ hidle => exact absurd (h.pacing hc) (by simp [hidle])
  | arm _ t _ _ hstream =>
    cases t with
    | pacer => exact hstream (.inl rfl)
    | syncTimer => exact hstream (.inr rfl)
    | _ => exact h.pacing hc
  | lapse _ _ hpacer hsync => exact h.pacing (hc.imp hpacer hsync)
  | beginPairing _ hst => exact absurd (h.pacing hc) (by simp [hst])
  | clear _ _ _ hst => exact absurd (h.pacing hc) (by simp [hst])
  | enter => rfl
  | _ => exact h.pacing hc

/-- While the user is asked for the PIN the stage stays M2 and no post is unanswered, so no reply
can move the pairing on. -/
theorem Flow.waiting_step (h : Flow c) (hs : Step k c c') :
    c'.waiting = true → c'.stage = .setupM2 ∧ true ∉ c'.kinds := by
  intro hw
  cases hs with
  | restart => cases hw
  | request _ method isHttp text hcause =>
    have hold := h.waiting hw
    cases hcause with
    | post _ _ hwait => exact absurd hw (Bool.eq_false_iff.mp hwait)
    | _ => exact ⟨hold.1, by simpa [Core.request] using hold.2⟩
  | reask =>
    have hold := h.waiting hw
    exact ⟨hold.1, by simpa [Core.request] using hold.2⟩
  | teardown =>
    have hold := h.waiting hw
    exact ⟨hold.1, by simpa [Core.closed, Core.rewind, Core.ending, Core.request] using hold.2⟩
  | dispatch => exact ⟨(h.waiting hw).1, fun hm => (h.waiting hw).2 (List.mem_of_mem_tail hm)⟩
  | wait _ hst hhttp => exact ⟨hst, hhttp⟩
  | expirePin | typed => cases hw
  | stage _ _ _ _ hwait => exact absurd hw (by simp [hwait])
  | setup _ _ _ _ _ _ _ hwait => exact absurd hw (by simp [Core.request, hwait])
  | authSetupDone _ _ _ hwait => exact absurd hw (by simp [hwait])
  | verified _ _ hwait => exact absurd hw (by simp [hwait])
  | srpAgreed _ _ _ _ _ hwait => exact absurd hw (by simp [hwait])
  | transientKeys _ _ _ _ _ _ hwait => exact absurd hw (by simp [hwait])
  | setupM5 _ _ _ _ _ _ hwait => exact absurd hw (by simp [hwait])
  | verifyKeys _ _ _ _ _ _ _ _ _ _ hwait => exact absurd hw (by simp [hwait])
  | stream _ _ _ _ _ hwait => exact absurd hw (by simp [Core.request, hwait])
  | _ => exact h.waiting hw

/-- An encrypted channel is past pairing, and the steps that set its keys belong to stages before. -/
theorem Flow.encrypted_step (h : Flow c) (hs : Step k c c') :
    c'.encrypted = true → c'.Keyed := by
  intro henc
  -- the pairing steps start from stages in which the channel is still plain
  have hearly : ∀ st, c.stage = st → st ≠ .done → ¬ st.postAuth → c.encrypted = true → False := by
    intro st hst hdone hpost he
    rcases (h.encrypted he).1 with hd | hp
    · exact hdone (hst ▸ hd)
    · exact hpost (hst ▸ hp)
  cases hs with
  | restart => cases henc
  | attempt _ _ hat =>
    rcases hat with ⟨hst, _⟩ | ⟨hst, _⟩ | ⟨hst, _⟩ <;>
      exact (hearly _ hst (by simp) (by simp [PairStage.postAuth]) henc).elim
  | stage _ st hf hp =>
    -- no stage that follows one past pairing is before it
    obtain ⟨hst, hkeys⟩ := h.encrypted henc
    generalize c.stage = before at hf hst
    cases hf <;> simp_all [PairStage.postAuth, PairStage.pairing]
  | setup _ stage _ _ _ hm =>
    exact ⟨.inr (PairStage.postAuth_of_setupMethod hm), (h.encrypted henc).2⟩
  | authSetupDone _ hst => exact (hearly _ hst (by simp) (by simp [PairStage.postAuth]) henc).elim
  | verified _ hst => exact (hearly _ hst (by simp) (by simp [PairStage.postAuth]) henc).elim
  | srpStart _ _ hst => exact (hearly _ hst (by simp) (by simp [PairStage.postAuth]) henc).elim
  | srpAgreed _ _ _ _ hst => exact (hearly _ hst (by simp) (by simp [PairStage.postAuth]) henc).elim
  | transientKeys _ _ _ _ _ hst =>
    exact (hearly _ hst (by simp) (by simp [PairStage.postAuth]) henc).elim
  | setupM5 _ _ _ _ _ hst =>
    exact (hearly _ hst (by simp) (by simp [PairStage.postAuth]) henc).elim
  | learn _ _ _ hst => exact (hearly _ hst (by simp) (by simp [PairStage.postAuth]) henc).elim
  | stored _ _ _ _ hst => exact (hearly _ hst (by simp) (by simp [PairStage.postAuth]) henc).elim
  | agreed _ _ _ hst => exact (hearly _ hst (by simp) (by simp [PairStage.postAuth]) henc).elim
  | verifyKeys _ _ _ _ _ _ _ _ _ hst =>
    exact (hearly _ hst (by simp) (by simp [PairStage.postAuth]) henc).elim
  | switch _ keys hst _ _ _ hkeys hout hin => exact ⟨.inl hst, keys, hkeys, hout, hin⟩
  | stream _ keys _ hst _ _ _ hkeys =>
    obtain ⟨_, keys', hkeys', hout, hin⟩ := h.encrypted henc
    obtain rfl : keys' = keys := by rw [hkeys] at hkeys'; exact (Option.some.inj hkeys').symm
    exact ⟨.inr (by simp [Core.request, PairStage.postAuth]), _, rfl, hout, hin⟩
  | sealAudio _ keys _ _ _ hkeys =>
    obtain ⟨hst, keys', hkeys', hout, hin⟩ := h.encrypted henc
    obtain rfl : keys' = keys := by rw [hkeys] at hkeys'; exact (Option.some.inj hkeys').symm
    exact ⟨hst, _, rfl, hout, hin⟩
  | _ => exact h.encrypted henc

/-- The two queues of requests have one length. -/
theorem Flow.lockstep_step (h : Flow c) (hs : Step k c c') : c'.methods.length = c'.kinds.length := by
  cases hs with
  | restart => rfl
  | request | teardown | reask | setup | stream =>
    simp [Core.request, Core.closed, Core.rewind, Core.ending, h.lockstep]
  | dispatch _ _ _ _ _ _ hm =>
    have hk := h.lockstep
    rw [hm] at hk
    simp only [List.length_tail, ← hk, List.length_cons, Nat.add_sub_cancel]
  | _ => exact h.lockstep

/-- At most one pairing post is unanswered: each cause of a post asks that there is none. -/
theorem Flow.single_step (h : Flow c) (hs : Step k c c') : c'.kinds.count true ≤ 1 := by
  have hpost (hkinds : true ∉ c.kinds) : (c.kinds ++ [true]).count true ≤ 1 := by
    simp [List.count_eq_zero.mpr hkinds]
  cases hs with
  | restart => simp [Core.fresh]
  | request _ method isHttp text hcause =>
    cases hcause with
    | post _ _ _ hkinds => exact hpost hkinds
    | _ => simpa [Core.request] using h.single
  | reask => simpa [Core.request] using h.single
  | setup _ _ _ _ _ _ _ _ hkinds => exact hpost hkinds
  | teardown => simpa [Core.request, Core.closed, Core.rewind, Core.ending] using h.single
  | stream _ _ _ _ _ _ hkinds => exact hpost hkinds
  | dispatch => exact ((List.tail_sublist _).count_le _).trans h.single
  | _ => exact h.single

/-- **The control-flow invariant is inductive.** -/
theorem Flow.step (h : Flow c) (hs : Step k c c') : Flow c' where
  connecting := h.connecting_step hs
  live := h.live_step hs
  uncleared := h.uncleared_step hs
  paired := h.paired_step hs
  keyed := h.keyed_step hs
  pending := h.pending_step hs
  pacing := h.pacing_step hs
  waiting := h.waiting_step hs
  encrypted := h.encrypted_step hs
  lockstep := h.lockstep_step hs
  single := h.single_step hs

/-! ## 4. What a callback leaves alone -/

/-- A core that is waiting for nothing from the receiver: in the middle of M6, or already dropped
for a new session that has not paired. -/
structure Calm (c : Core) : Prop where
  waiting : c.waiting = false
  quiet : true ∉ c.kinds
  plain : c.encrypted = false
  stage : (c.stage = .setupM6 ∧ c.keys ≠ none) ∨ (c.stage = .none ∧ c.keys = none)

/-- **Nothing an application can do in a callback disturbs it.** -/
theorem Calm.step (h : Calm c) (hs : Step .app c c') : Calm c' := by
  obtain ⟨hwait, hquiet, hplain, hstage⟩ := h
  -- the steps that would disturb it need a stage it does not have
  have hno (st : PairStage) (h6 : st ≠ .setupM6) (h0 : st ≠ .none) : c.stage ≠ st := by
    intro hst
    rcases hstage with ⟨h, _⟩ | ⟨h, _⟩
    · exact h6 (hst.symm.trans h)
    · exact h0 (hst.symm.trans h)
  cases hs with
  | restart => exact ⟨rfl, by simp [Core.fresh], rfl, .inr ⟨rfl, rfl⟩⟩
  | request _ method isHttp text hcause =>
    refine ⟨hwait, ?_, hplain, hstage⟩
    cases hcause with
    | post _ _ _ _ hlevel => exact absurd (hlevel rfl) (hno _ (by simp) (by simp))
    | _ => simpa [Core.request] using hquiet
  | teardown =>
    refine ⟨hwait, ?_, hplain, hstage⟩
    simpa [Core.request, Core.closed, Core.rewind, Core.ending] using hquiet
  | typed _ _ hw => rw [hwait] at hw; cases hw
  | srpStart _ _ hst => exact absurd hst (hno _ (by simp) (by simp))
  | srpAgreed _ _ _ _ hst => exact absurd hst (hno _ (by simp) (by simp))
  | _ => exact ⟨hwait, hquiet, hplain, hstage⟩

end AirplaySender
