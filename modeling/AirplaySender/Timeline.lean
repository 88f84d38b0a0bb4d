/-
# The audio timeline

The sequence number, the timestamp, the marker and the nonce of an audio packet come from four
counters that are reset in three functions and advanced in two.  `audio_timeline` says what they
come to: the `k`-th packet of a session is numbered `s₀ + k`, stamped `66150 + 352 k`, marked
exactly where `k` is 0 and sealed under nonce `k`, and every sync packet agrees.

The invariant (`Timed`) is about the wire alone.  That no counter is reset in the middle of a stream
is a matter of the order of a session: what resets one comes before the stream (`Before`).
-/
import AirplaySender.Alac
import AirplaySender.Order
import AirplaySender.Runs
import AirplaySender.Lib.Recent

namespace AirplaySender

open Octets Prog Trace

/-! ## 1. What comes before the stream -/

/-- The offer of an audio key. -/
def Entry.isOffer : Entry → Bool
  | .staged .ap2Stream => true
  | _ => false

/-- What resets a counter, and the request that announces them. -/
def Entry.prepares : Entry → Bool
  | .pairing _ => true
  | .staged .ap2Stream => true
  | .requested _ method false _ => method = ascii "RECORD"
  | .entered => true
  | _ => false

/-- The stream begins once, behind what prepares it, and pairing is over when the key is offered. -/
def Before (e : Entry) (older : List Entry) : Prop :=
  (e.prepares = true → .entered ∉ sessionOf older) ∧
    (e.isPairing = true → .staged .ap2Stream ∉ sessionOf older)

/-- On AirPlay 2 a session that streams has offered a key. -/
def Keyed (log : List Entry) : Prop :=
  isSetup2 log = true → .entered ∈ sessionOf log → .staged .ap2Stream ∈ sessionOf log

/-- What the stages of a session say about the offer of the key. -/
structure Preceded (c : Core) : Prop where
  before : Always Before c.log
  cleared : .staged .ap2Stream ∈ sessionOf c.log → Cleared c.log
  offered : c.stage = .ap2Stream → .staged .ap2Stream ∈ sessionOf c.log
  keyed : Keyed c.log
  past : Always (fun e older => e.isStarted = true → Keyed older) c.log

/-- The stream of the session has begun. -/
theorem entered_iff {log : List Entry} : Entered log ↔ .entered ∈ sessionOf log := by
  rw [Entered, List.any_eq_true]
  constructor
  · rintro ⟨e, hmem, he⟩
    cases e with
    | entered => exact hmem
    | _ => cases he
  · exact fun hmem => ⟨_, hmem, rfl⟩

/-- The entries `Preceded` speaks about. -/
def Entry.precedes (e : Entry) : Bool := e.prepares || e.isCleared || e.isStarted

theorem Entry.not_started_of_precedes {e : Entry} (h : e.precedes = false) :
    e.isStarted = false := by
  simp only [precedes, Bool.or_eq_false_iff] at h
  exact h.2

section Preceded

variable {c c' : Core}

/-- A step that adds nothing of the kind. -/
theorem Preceded.beside (h : Preceded c) (es : List Entry) (hlog : c'.log = es ++ c.log)
    (hes : ∀ e ∈ es, e.precedes = false)
    (hstage : c'.stage = .ap2Stream → c.stage = .ap2Stream) : Preceded c' := by
  have hstarted : ∀ e ∈ es, e.isStarted = false := fun e he =>
    Entry.not_started_of_precedes (hes e he)
  have hmem {e : Entry} (he : e.precedes = true) :
      e ∈ sessionOf c'.log ↔ e ∈ sessionOf c.log := by
    rw [hlog, sessionOf_append hstarted, List.mem_append]
    refine ⟨fun h => h.resolve_left fun hin => ?_, .inr⟩
    exact absurd he (Bool.eq_false_iff.mp (hes e hin))
  have hcleared : Cleared c.log → Cleared c'.log := fun hc => hlog ▸ hc.append hstarted
  have hsetup2 : isSetup2 c'.log = isSetup2 c.log := by
    rw [hlog, isSetup2, sessionOf_append hstarted, List.any_append, isSetup2, List.any_eq_false.mpr,
      Bool.false_or]
    intro e he
    have hno := hes e he
    cases e with
    | cleared => cases hno
    | _ => exact Bool.false_ne_true
  constructor
  · rw [hlog]
    refine h.before.append fun e he older => ⟨fun hp => ?_, fun hp => ?_⟩
    · have hno := hes e he
      simp [Entry.precedes, hp] at hno
    · have hno := hes e he
      cases e with
      | pairing => cases hno
      | _ => cases hp
  · exact fun hin => hcleared (h.cleared ((hmem rfl).mp hin))
  · exact fun hst => (hmem rfl).mpr (h.offered (hstage hst))
  · rw [Keyed, hsetup2, hmem rfl, hmem rfl]
    exact h.keyed
  · rw [hlog]
    refine h.past.append fun e he _ hst => ?_
    rw [hstarted e he] at hst
    cases hst

variable [Primitives] {k : Level}

omit [Primitives] in
/-- Before authentication nothing was offered and nothing has begun. -/
theorem Preceded.clean (h : Preceded c) (ho : Ordered c) (hnot : ¬ Cleared c.log) :
    .entered ∉ sessionOf c.log ∧ .staged .ap2Stream ∉ sessionOf c.log :=
  ⟨fun hin => hnot (ho.begun (entered_iff.mpr hin)), fun hin => hnot (h.cleared hin)⟩

omit [Primitives] in
/-- A step that adds one entry of the kind, where it belongs. -/
theorem Preceded.cons (h : Preceded c) {e : Entry} (hlog : c'.log = e :: c.log)
    (hstarted : e.isStarted = false) (hbefore : Before e c.log)
    (hoffer : e.isOffer = true → Cleared c.log)
    (hstage : c'.stage = .ap2Stream → c.stage = .ap2Stream ∨ e.isOffer = true)
    (hsealing : e.isEntered = true ∨ e.isSetup2 = true → isSetup2 c'.log = true →
      .entered ∈ sessionOf c'.log → .staged .ap2Stream ∈ sessionOf c'.log) : Preceded c' := by
  have hsession : sessionOf c'.log = e :: sessionOf c.log := by rw [hlog, sessionOf_cons hstarted]
  have hcleared : Cleared c.log → Cleared c'.log := fun hc => hlog ▸ hc.cons hstarted
  constructor
  · rw [hlog]
    exact ⟨hbefore, h.before⟩
  · intro hin
    rw [hsession] at hin
    rcases List.mem_cons.mp hin with rfl | hin
    · exact hcleared (hoffer rfl)
    · exact hcleared (h.cleared hin)
  · intro hst
    rw [hsession]
    rcases hstage hst with hst | he
    · exact List.mem_cons_of_mem _ (h.offered hst)
    · cases e with
      | staged stage =>
        cases stage with
        | ap2Stream => exact List.mem_cons_self
        | _ => cases he
      | _ => cases he
  · intro hsetup2 hentered
    by_cases he : e.isEntered = true ∨ e.isSetup2 = true
    · exact hsealing he hsetup2 hentered
    rw [not_or, Bool.not_eq_true, Bool.not_eq_true] at he
    rw [hlog, isSetup2_cons hstarted, he.2, Bool.false_or] at hsetup2
    rw [hsession] at hentered ⊢
    rcases List.mem_cons.mp hentered with rfl | hentered
    · cases he.1
    · exact List.mem_cons_of_mem _ (h.keyed hsetup2 hentered)
  · rw [hlog]
    refine ⟨fun hst => ?_, h.past⟩
    rw [hstarted] at hst
    cases hst

omit [Primitives] in
theorem precedes_rewindEntries {d : Core} : ∀ e ∈ d.rewindEntries, e.precedes = false := by
  intro e he
  rw [mem_rewindEntries he]
  rfl

theorem precedes_writeEntries {d : Core} {text : Octets} :
    ∀ e ∈ d.writeEntries text, e.precedes = false := by
  intro e he
  rcases mem_writeEntries he with ⟨_, rfl⟩ | ⟨_, _, _, _, rfl⟩ <;> rfl

/-- A request: the RECORD of AirPlay 1 comes before the stream. -/
theorem Preceded.request {d : Core} (h : Preceded d) (method : Octets) (isHttp : Bool) (text : Octets)
    (hrecord : isHttp = false → method = ascii "RECORD" → .entered ∉ sessionOf d.log) :
    Preceded (d.request method isHttp text) := by
  let d' : Core := { d with log := .requested d.cseq method isHttp text :: d.log }
  have hd' : Preceded d' := by
    refine @Preceded.cons d d' h _ rfl rfl ⟨fun hp => ?_, nofun⟩ nofun .inl ?_
    · cases isHttp with
      | true => cases hp
      | false => exact hrecord rfl (of_decide_eq_true hp)
    · rintro (he | he) <;> cases he
  exact hd'.beside (d.writeEntries text) rfl precedes_writeEntries id

/-- **Every step keeps it.** -/
theorem Preceded.step (hflow : Flow c) (ho : Ordered c) (ho' : Ordered c') (h : Preceded c)
    (hs : Step k c c') : Preceded c' := by
  have hearly (hlive : c.Early) : .entered ∉ sessionOf c.log := by
    intro hin
    rcases (ho.past (entered_iff.mpr hin)).state with hst | hst
    · exact hlive.2 hst
    · exact hlive.1 hst
  have hanswered {last : Octets} {code : ℤ} (ha : c.Answering last false code)
      (hlast : isHandshake last) : .entered ∉ sessionOf c.log := by
    intro hin
    have htear : last ≠ ascii "TEARDOWN" := by rcases hlast with rfl | rfl | rfl | rfl <;> decide
    exact ((ho.past (entered_iff.mpr hin)).replied last false ⟨htear, code, ha⟩).2 hlast
  have hpairing (hp : c'.stage.pairing = true) (hst : c'.stage = .ap2Stream) :
      c.stage = .ap2Stream := by
    rw [hst] at hp
    cases hp
  cases hs with
  | restart =>
    have hsession : sessionOf c.fresh.log = [] := sessionOf_started ..
    refine ⟨⟨⟨(by rintro ⟨⟩), by rintro ⟨⟩⟩, h.before⟩, fun hin => ?_, (by rintro ⟨⟩), fun _ hin => ?_,
      ⟨fun _ => h.keyed, h.past⟩⟩
    · rw [hsession] at hin
      cases hin
    · rw [hsession] at hin
      cases hin
  | request _ method isHttp text hcause =>
    refine h.request method isHttp text fun hhttp hrecord => ?_
    subst hrecord
    generalize hmethod : ascii "RECORD" = method at hcause
    cases hcause with
    | post => cases hhttp
    | options => exact absurd hmethod (by decide)
    | @next last _ _ ha _ hnext =>
      refine hanswered ha ?_
      cases hnext with
      | announce => exact .inl rfl
      | setup => exact .inr (.inl rfl)
      | record => exact .inr (.inr (.inl rfl))
    | stream _ hm =>
      rcases hm with rfl | rfl | rfl <;> exact absurd hmethod (by decide)
  | reask _ method text ha hm =>
    have hd : Preceded { c with retried := true } := h.beside [] rfl (by simp) id
    exact hd.request method false text fun _ _ => hanswered ha hm
  | teardown _ text =>
    have hending : Preceded (c.ending true) :=
      h.beside [_] rfl (by simp [Entry.precedes, Entry.prepares, Entry.isCleared, Entry.isStarted]) id
    have hrequest := hending.request (ascii "TEARDOWN") false text fun _ hm => absurd hm (by decide)
    refine hrequest.beside (.tcpClose .control true :: Core.rewindEntries _) rfl (fun e he => ?_) id
    rcases List.mem_cons.mp he with rfl | he
    · rfl
    · exact precedes_rewindEntries e he
  | setup _ stage method text hf hmethod hlive =>
    have hne : stage ≠ .ap2Stream := by
      rintro rfl
      cases hmethod
    have hd : Preceded { c with stage := stage, log := .staged stage :: c.log } := by
      refine h.beside [_] rfl (fun e he => ?_) fun hst => absurd hst hne
      rw [List.mem_singleton.mp he]
      cases stage <;> first | rfl | exact absurd rfl hne
    exact hd.request method true text (by simp)
  | stage _ stage _ hp =>
    refine h.beside [_] rfl (fun e he => ?_) (hpairing hp)
    rw [List.mem_singleton.mp he]
    cases stage <;> first | rfl | cases hp
  | stream _ keys text hstage hlive =>
    have hc : Cleared c.log := hflow.live (.inr (.inr (by rw [hstage]; simp [PairStage.postAuth])))
    have hd : Preceded { c with
        keys := some { keys with
          audioKey := keys.secret.take 32, audioNonce := 0, encryptAudio := true }
        stage := .ap2Stream, log := .staged .ap2Stream :: c.log } := by
      refine h.cons rfl rfl ⟨fun _ => hearly hlive, by rintro ⟨⟩⟩ (fun _ => hc) (fun _ => .inr rfl) ?_
      rintro (he | he) <;> cases he
    exact hd.request (ascii "SETUP") true text (by simp)
  | attempt _ auth hat _ hstate =>
    obtain ⟨hno, hnot⟩ := h.clean ho (hflow.uncleared (.inr hstate))
    refine h.cons rfl rfl ⟨fun _ => hno, fun _ => hnot⟩ (by rintro ⟨⟩) .inl ?_
    rintro (he | he) <;> cases he
  | clear _ setup2 _ hstate =>
    obtain ⟨hno, -⟩ := h.clean ho (hflow.uncleared (.inr hstate))
    refine h.cons rfl rfl ⟨(by rintro ⟨⟩), by rintro ⟨⟩⟩ (by rintro ⟨⟩) .inl fun _ _ hin => ?_
    rw [sessionOf_cons rfl] at hin
    exact absurd ((List.mem_cons.mp hin).resolve_left (by simp)) hno
  | enter _ hentrance =>
    have hin : inSetup c.log = true := ho'.order.1.1
    have hno : .entered ∉ sessionOf c.log := fun h => (inSetup_iff.mp hin).2 (entered_iff.mpr h)
    refine h.cons rfl rfl ⟨fun _ => hno, by rintro ⟨⟩⟩ (by rintro ⟨⟩) .inl fun _ hsetup2 _ => ?_
    rw [sessionOf_cons rfl]
    refine List.mem_cons_of_mem _ ?_
    rcases hentrance with ⟨code, ha, -⟩ | ⟨hstage, -⟩
    · have hfalse := ((ho.setup hin).replied _ _ ⟨by decide, code, ha⟩).2.1
      rw [isSetup2_cons rfl] at hsetup2
      exact absurd (hfalse.trans hsetup2) (by simp)
    · exact h.offered hstage
  | receiveSealed _ keys bytes =>
    refine h.beside _ rfl (fun e he => ?_) id
    rcases mem_receiveEntries he with ⟨_, _, rfl⟩ | rfl <;> rfl
  | receiveBroken _ keys bytes =>
    refine h.beside (.ending c.state c.waiting false :: c.receiveEntries keys.controlIn bytes) rfl
      (fun e he => ?_) id
    rcases List.mem_cons.mp he with rfl | he
    · rfl
    · rcases mem_receiveEntries he with ⟨_, _, rfl⟩ | rfl <;> rfl
  | receiveEvent =>
    refine h.beside _ rfl (fun e he => ?_) id
    rcases mem_eventReadEntries he with rfl | ⟨_, _, rfl⟩ | rfl <;> rfl
  | disconnect | lapse | retry | beginPairing | srpStart | forget | agreed | unretry =>
    exact h.beside [] rfl (by simp) id
  | authSetupDone | verified => exact h.beside [] rfl (by simp) (by simp)
  | transientKeys => exact h.beside [_] rfl (by simp [Entry.precedes, Entry.prepares, Entry.isCleared, Entry.isStarted]) (by simp)
  | srpAgreed | setupM5 | verifyKeys => exact h.beside [_, _] rfl (by simp [Entry.precedes, Entry.prepares, Entry.isCleared, Entry.isStarted]) (by simp)
  | receivePlain | answerEvent | leave | typed => exact h.beside [_, _] rfl (by simp [Entry.precedes, Entry.prepares, Entry.isCleared, Entry.isStarted]) id
  | _ => exact h.beside [_] rfl (by simp [Entry.precedes, Entry.prepares, Entry.isCleared, Entry.isStarted]) id

end Preceded

/-! ## 2. From the trace to the wire -/

section Views

variable {p : Entry → Bool}

/-- Leaving entries out leaves them out of the session. -/
theorem sessionOf_filter (hp : ∀ e, e.isStarted = true → p e = true) (log : List Entry) :
    sessionOf (log.filter p) = (sessionOf log).filter p := by
  induction log with
  | nil => rfl
  | cons e log ih =>
    cases he : e.isStarted with
    | true =>
      rw [List.filter_cons_of_pos (hp e he)]
      simp [sessionOf, he]
    | false =>
      rw [sessionOf_cons he]
      cases hpe : p e with
      | true => rw [List.filter_cons_of_pos hpe, sessionOf_cons he, List.filter_cons_of_pos hpe, ih]
      | false =>
        rw [List.filter_cons_of_neg (by simp [hpe]), List.filter_cons_of_neg (by simp [hpe]), ih]

/-- An entry a filter keeps is in the session whether the rest is filtered or not. -/
theorem mem_sessionOf_filter (hp : ∀ e, e.isStarted = true → p e = true) {e : Entry}
    (he : p e = true) {log : List Entry} : e ∈ sessionOf (log.filter p) ↔ e ∈ sessionOf log := by
  rw [sessionOf_filter hp, List.mem_filter]
  exact ⟨fun h => h.1, fun h => ⟨h, he⟩⟩

theorem Entry.tracked_of_isStarted {e : Entry} (h : e.isStarted = true) : e.tracked = true := by
  cases e with
  | started => rfl
  | _ => cases h

theorem Entry.wired_of_isStarted {e : Entry} (h : e.isStarted = true) : e.wired = true := by
  cases e with
  | started => rfl
  | _ => cases h

end Views

/-- Nothing is reset in the middle of a stream. -/
theorem Reachable.preceded [Primitives] {w : World} (h : Reachable w) : Preceded (coreOf w) := by
  have hinv : (coreOf w).airplay2 = airplay2Of (coreOf w).log ∧ Ordered (coreOf w) ∧
      Preceded (coreOf w) := by
    refine h.induct (I := fun c => c.airplay2 = airplay2Of c.log ∧ Ordered c ∧ Preceded c)
      ⟨rfl, Ordered.init, trivial, nofun, nofun, nofun, trivial⟩ fun hflow hs hi => ?_
    have hordered := hi.2.1.step hflow hi.1 hs
    exact ⟨airplay2Of_step hi.1 hs, hordered, hi.2.2.step hflow hi.2.1 hordered hs⟩
  exact hinv.2.2

/-- The order of a session, read on the wire: what the wire shows of the trace is enough to say that
nothing is reset late. -/
theorem Reachable.before [Primitives] {w : World} (h : Reachable w) :
    Always Before (wireOf w).log := by
  have hfilter {p : Entry → Bool} (hp : ∀ e, e.isStarted = true → p e = true)
      (hentered : p .entered = true) (hoffer : p (.staged .ap2Stream) = true) (e : Entry)
      (older : List Entry) : Before e (older.filter p) ↔ Before e older := by
    unfold Before
    rw [mem_sessionOf_filter hp hentered, mem_sessionOf_filter hp hoffer]
  have hout : Always Before w.out := by
    refine Always.of_filter (p := Entry.tracked) h.preceded.before (fun e older _ hb => ?_)
      fun e older he => ?_
    · exact (hfilter (fun _ => Entry.tracked_of_isStarted) rfl rfl e older).mp hb
    · refine ⟨fun hp => ?_, fun hp => ?_⟩
      · cases e with
        | pairing | staged | requested | entered => cases he
        | _ => cases hp
      · cases e with
        | pairing => cases he
        | _ => cases hp
  refine hout.filter fun e older _ hb => ?_
  exact (hfilter (fun _ => Entry.wired_of_isStarted) rfl rfl e older).mpr hb

/-! ## 3. The packets of a session -/

/-- The bytes of an audio packet. -/
def Entry.audio? : Entry → Option Octets
  | .udpSend .audio _ bytes => some bytes
  | _ => none

/-- The audio packets of the session, oldest first. -/
def audioSent (log : List Entry) : List Octets := shown Entry.audio? (sessionOf log)

/-- The header of packet `k`. -/
def audioHeader (s₀ : UInt16) (id : UInt32) (k : ℕ) : Octets :=
  [0x80, if k = 0 then 0xE0 else 0x60] ++ beBytes 2 ((s₀.toNat + k) % 2 ^ 16) ++
    beBytes 4 ((66150 + 352 * k) % 2 ^ 32) ++ beBytes 4 id.toNat

/-- The payload of packet `k`: in the clear, or an ALAC frame sealed under a key with nonce `k`. -/
inductive Payload [Primitives] (k : ℕ) (header : Octets) : Option Octets → Octets → Prop
  | plain (samples : List Int16) (h : samples.length = 704) :
      Payload k header none (samples.flatMap fun x => beBytes 2 (sampleBits x))
  | sealed (shk : Octets) (samples : List Int16) (hkey : shk.length = 32) (h : samples.length = 704) :
      Payload k header (some shk)
        (chachaSeal shk (counterNonce8 (UInt64.ofNat k)) (encodeAlacFrame samples)
          ((header.drop 4).take 8) ++ counterNonce8 (UInt64.ofNat k))

/-- RECORD announces the number of the first packet, and its timestamp. -/
def Announces (s₀ : UInt16) (text : Octets) : Prop :=
  headerText "RTP-Info" (ascii "seq=" ++ dec s₀.toNat ++ ascii ";rtptime=" ++ dec 66150) <:+: text

/-- A sync packet behind `n` audio packets. -/
def Synced : Entry → List Entry → Prop
  | .udpSend .control _ bytes, older => bytes[1]? = some 0xD4 →
    (bytes.drop 4).take 4 = beBytes 4 (352 * (audioSent older).length % 2 ^ 32) ∧
      (bytes.drop 16).take 4 = beBytes 4 ((66150 + 352 * (audioSent older).length) % 2 ^ 32)
  | _, _ => True

section AudioSent

variable {e : Entry} {es log : List Entry}

@[simp] theorem audioSent_started (auth : Auth) (airplay2 strict : Bool) (log : List Entry) :
    audioSent (.started auth airplay2 strict :: log) = [] := by
  rw [audioSent, sessionOf_started, shown_nil]

theorem audioSent_audio (dest : Endpoint) (bytes : Octets) (log : List Entry) :
    audioSent (.udpSend .audio dest bytes :: log) = audioSent log ++ [bytes] := by
  have hbytes : Entry.audio? (.udpSend .audio dest bytes) = some bytes := rfl
  rw [audioSent, sessionOf_cons rfl, shown_cons_some hbytes, audioSent]

/-- Entries of the session that are no packets. -/
theorem audioSent_append (hes : ∀ e ∈ es, e.isStarted = false ∧ e.audio? = none) :
    audioSent (es ++ log) = audioSent log := by
  rw [audioSent, sessionOf_append fun e he => (hes e he).1, shown_append_none fun e he => (hes e he).2,
    audioSent]

end AudioSent

/-- The counters are where the packets of the session have brought them. -/
structure Timed [Primitives] (s₀ : UInt16) (id : UInt32) (key : Option Octets) (c : Wire) : Prop where
  seq : c.seq = s₀ + UInt16.ofNat (audioSent c.log).length
  frames : c.framesSent = UInt64.ofNat (352 * (audioSent c.log).length)
  first : c.firstAudio = decide (audioSent c.log = [])
  begun : audioSent c.log ≠ [] ∨ c.state = .streaming → .entered ∈ sessionOf c.log
  ssrc : c.state ≠ .idle → c.sessionId = id
  packets : ∀ k pkt, (audioSent c.log)[k]? = some pkt → ∃ payload,
    pkt = audioHeader s₀ id k ++ payload ∧ Payload k (audioHeader s₀ id k) key payload
  records : ∀ cseq text, .requested cseq (ascii "RECORD") false text ∈ sessionOf c.log →
    Announces s₀ text
  plain : key = none → c.sealing = none
  sealed : ∀ shk, key = some shk →
    c.audio = some (shk, UInt64.ofNat (audioSent c.log).length, true) ∧ Offered c.log shk
  offered : .staged .ap2Stream ∈ sessionOf c.log → key ≠ none
  fresh : audioSent c.log = [] → ∀ i, c.backlogSeq i = -1
  backlog : c.state ≠ .idle → Recent.Keeps 1024 (2 ^ 16) s₀.toNat (audioSent c.log) c.backlog c.backlogSeq
  synced : Always Synced c.log

section Timed

variable [Primitives] {s₀ : UInt16} {id : UInt32} {key : Option Octets} {c c' : Wire}

/-- Nothing was sent in a session whose stream has not begun. -/
theorem Timed.unsent (h : Timed s₀ id key c) (hno : .entered ∉ sessionOf c.log) :
    audioSent c.log = [] := by
  by_contra hne
  exact hno (h.begun (.inl hne))

/-- A change that leaves the counters alone and adds nothing they speak about. -/
theorem Timed.beside (h : Timed s₀ id key c) (es : List Entry) (hlog : c'.log = es ++ c.log)
    (hes : ∀ e ∈ es, e.isStarted = false ∧ e.audio? = none)
    (hrecord : ∀ cseq text, .requested cseq (ascii "RECORD") false text ∈ es → Announces s₀ text)
    (hoffer : .staged .ap2Stream ∉ es)
    (hsync : ∀ e older, e :: older <:+ es → Synced e (older ++ c.log))
    (hcounters : c'.seq = c.seq ∧ c'.framesSent = c.framesSent ∧ c'.firstAudio = c.firstAudio ∧
      c'.audio = c.audio)
    (hstream : c'.state = .streaming → c.state = .streaming)
    (hfresh : (∀ i, c.backlogSeq i = -1) → ∀ i, c'.backlogSeq i = -1)
    (hlive : c'.state ≠ .idle → c.state ≠ .idle ∧ c'.sessionId = c.sessionId ∧
      c'.backlog = c.backlog ∧ c'.backlogSeq = c.backlogSeq) : Timed s₀ id key c' := by
  have hstarted : ∀ e ∈ es, e.isStarted = false := fun e he => (hes e he).1
  have hsent : audioSent c'.log = audioSent c.log := hlog ▸ audioSent_append hes
  have hsession : sessionOf c'.log = es ++ sessionOf c.log := hlog ▸ sessionOf_append hstarted _
  obtain ⟨hseq, hframes, hfirst, haudio⟩ := hcounters
  constructor
  · rw [hsent, hseq]
    exact h.seq
  · rw [hsent, hframes]
    exact h.frames
  · rw [hsent, hfirst]
    exact h.first
  · rw [hsent, hsession]
    exact fun hb => List.mem_append_right _ (h.begun (hb.imp_right hstream))
  · exact fun hst => (hlive hst).2.1.trans (h.ssrc (hlive hst).1)
  · rw [hsent]
    exact h.packets
  · intro cseq text hmem
    rw [hsession] at hmem
    rcases List.mem_append.mp hmem with hmem | hmem
    · exact hrecord cseq text hmem
    · exact h.records cseq text hmem
  · intro hkey
    have hplain := h.plain hkey
    unfold Members.sealing at hplain ⊢
    rw [haudio]
    exact hplain
  · intro shk hkey
    obtain ⟨hold, hoffered⟩ := h.sealed shk hkey
    rw [hsent, haudio, hlog]
    exact ⟨hold, hoffered.append hstarted⟩
  · intro hmem
    rw [hsession] at hmem
    exact h.offered ((List.mem_append.mp hmem).resolve_left hoffer)
  · rw [hsent]
    exact fun hempty => hfresh (h.fresh hempty)
  · intro hst
    obtain ⟨hold, -, hb, hbs⟩ := hlive hst
    rw [hsent, hb, hbs]
    exact h.backlog hold
  · rw [hlog]
    exact h.synced.append_of_suffix hsync

/-! ## 4. The counters -/

omit [Primitives] in
/-- The sequence number wraps at 2^16. -/
theorem toNat_seq (s₀ : UInt16) (n : ℕ) :
    (s₀ + UInt16.ofNat n).toNat = (s₀.toNat + n) % 2 ^ 16 := by
  rw [UInt16.toNat_add, UInt16.toNat_ofNat']
  omega

omit [Primitives] in
/-- The timestamp is the low half of a 64-bit count, and wraps at 2^32. -/
theorem toNat_rtptime {m : Members} {n : ℕ} (h : m.framesSent = UInt64.ofNat (352 * n)) :
    m.rtptime.toNat = (66150 + 352 * n) % 2 ^ 32 := by
  have hlatency : Sender.latency.toUInt64.toNat = 66150 := rfl
  rw [Members.rtptime, UInt64.toNat_toUInt32, UInt64.toNat_add, h, UInt64.toNat_ofNat', hlatency]
  omega

/-- The timestamp of the next packet. -/
theorem Timed.rtptime (h : Timed s₀ id key c) :
    c.rtptime.toNat = (66150 + 352 * (audioSent c.log).length) % 2 ^ 32 := toNat_rtptime h.frames

/-- The header of the next packet. -/
theorem Timed.header (h : Timed s₀ id key c) (hlive : c.state ≠ .idle) :
    c.header = audioHeader s₀ id (audioSent c.log).length := by
  unfold Members.header audioHeader
  rw [h.rtptime, h.seq, toNat_seq, h.ssrc hlive, h.first]
  simp [List.length_eq_zero_iff]

/-- A sync packet speaks of the next packet. -/
theorem Timed.sync (h : Timed s₀ id key c) (mark : UInt8) (ntp : ℕ) :
    ((c.sync mark ntp).drop 4).take 4 =
        beBytes 4 (352 * (audioSent c.log).length % 2 ^ 32) ∧
      ((c.sync mark ntp).drop 16).take 4 =
        beBytes 4 ((66150 + 352 * (audioSent c.log).length) % 2 ^ 32) := by
  have hlatency : Sender.latency.toNat = 66150 := rfl
  have hnow : (c.rtptime - Sender.latency).toNat = 352 * (audioSent c.log).length % 2 ^ 32 := by
    rw [UInt32.toNat_sub, h.rtptime, hlatency]
    omega
  unfold Members.sync
  rw [hnow, h.rtptime]
  generalize 352 * (audioSent c.log).length % 2 ^ 32 = first
  generalize (66150 + 352 * (audioSent c.log).length) % 2 ^ 32 = next
  constructor
  · simp
  · have hat := At.middle ([mark, 0xD4] ++ beBytes 2 7 ++ beBytes 4 first ++ beBytes 8 ntp)
      (beBytes 4 next) []
    simpa using hat.take

/-- The payload of the next packet. -/
theorem Timed.payload (h : Timed s₀ id key c) (hlive : c.state ≠ .idle) {samples : List Int16}
    (hsamples : samples.length = 704)
    (hkey : ∀ key nonce, c.sealing = some (key, nonce) → key.length = 32) :
    Payload (audioSent c.log).length (audioHeader s₀ id (audioSent c.log).length) key
      (c.payload samples) := by
  unfold Members.payload
  rw [h.header hlive]
  cases key with
  | none =>
    rw [h.plain rfl]
    exact .plain samples hsamples
  | some shk =>
    have hsealing : c.sealing = some (shk, UInt64.ofNat (audioSent c.log).length) := by
      rw [Members.sealing, (h.sealed shk rfl).1]
    rw [hsealing]
    exact .sealed shk samples (hkey shk _ hsealing) hsamples

/-- **A packet moves every counter on by one packet.** -/
theorem Timed.packet (h : Timed s₀ id key c) (dest : Endpoint) {samples : List Int16}
    (hst : c.state = .streaming) (hsamples : samples.length = 704)
    (hkey : ∀ key nonce, c.sealing = some (key, nonce) → key.length = 32) :
    Timed s₀ id key { c with
      toMembers := c.toMembers.advance (c.packet samples)
      log := .udpSend .audio dest (c.packet samples) :: c.log } := by
  have hlive : c.state ≠ .idle := by
    rw [hst]
    intro hno
    cases hno
  have hentered := h.begun (.inr hst)
  constructor
  -- the four counters
  · show c.seq + 1 = _
    rw [audioSent_audio, List.length_append, h.seq, List.length_singleton, UInt16.ofNat_add,
      UInt16.add_assoc]
    rfl
  · show c.framesSent + 352 = _
    rw [audioSent_audio, List.length_append, h.frames, List.length_singleton, Nat.mul_add,
      UInt64.ofNat_add]
    rfl
  · show false = _
    rw [audioSent_audio]
    simp
  · intro _
    show _ ∈ sessionOf (_ :: c.log)
    rw [sessionOf_cons rfl]
    exact List.mem_cons_of_mem _ hentered
  · exact h.ssrc
  · intro k pkt hk
    rw [audioSent_audio] at hk
    -- an older packet, the one just sent, or none
    rcases Nat.lt_trichotomy k (audioSent c.log).length with hlt | rfl | hgt
    · rw [List.getElem?_append_left hlt] at hk
      exact h.packets k pkt hk
    · rw [List.getElem?_append_right le_rfl, Nat.sub_self] at hk
      obtain rfl : c.packet samples = pkt := Option.some.inj hk
      refine ⟨c.payload samples, ?_, h.payload hlive hsamples hkey⟩
      rw [Members.packet, h.header hlive]
    · rw [List.getElem?_eq_none (by simp; omega)] at hk
      cases hk
  · intro cseq text hmem
    rw [sessionOf_cons rfl] at hmem
    exact h.records cseq text ((List.mem_cons.mp hmem).resolve_left (by simp))
  · intro hnone
    have hplain := h.plain hnone
    show Members.sealing { c.toMembers with audio := c.audio.map nextNonce } = none
    unfold Members.sealing at hplain ⊢
    rcases haudio : c.audio with _ | ⟨shk, nonce, encrypt⟩
    · rfl
    · rw [haudio] at hplain
      cases encrypt with
      | false => rfl
      | true => cases hplain
  · intro shk hsome
    obtain ⟨hold, hoffered⟩ := h.sealed shk hsome
    refine ⟨?_, @Offered.append [_] _ _ hoffered (by simp [Entry.isStarted])⟩
    show c.audio.map nextNonce = _
    rw [hold, audioSent_audio, List.length_append, List.length_singleton, UInt64.ofNat_add]
    rfl
  · intro hmem
    rw [sessionOf_cons rfl] at hmem
    exact h.offered ((List.mem_cons.mp hmem).resolve_left (by simp))
  · rw [audioSent_audio]
    exact fun hempty => absurd hempty (by simp)
  · intro _
    rw [audioSent_audio]
    -- the backlog is indexed by the low bits of the sequence number, which count the packets
    have hpush := (h.backlog hlive).push (by decide) (by decide) (c.packet samples)
    have hnumber : Recent.number (2 ^ 16) s₀.toNat (audioSent c.log).length = c.seq.toNat := by
      rw [h.seq, toNat_seq, Recent.number]
    rw [hnumber] at hpush
    exact hpush
  · exact ⟨trivial, h.synced⟩

/-- Before the first packet the counters stand at their beginnings. -/
theorem Timed.of_unsent (hsent : audioSent c.log = []) (hseq : c.seq = s₀) (hframes : c.framesSent = 0)
    (hfirst : c.firstAudio = true)
    (hbegun : c.state = .streaming → .entered ∈ sessionOf c.log)
    (hssrc : c.state ≠ .idle → c.sessionId = id)
    (hrecords : ∀ cseq text, .requested cseq (ascii "RECORD") false text ∈ sessionOf c.log →
      Announces s₀ text)
    (hplain : key = none → c.sealing = none)
    (hsealed : ∀ shk, key = some shk → c.audio = some (shk, 0, true) ∧ Offered c.log shk)
    (hoffered : .staged .ap2Stream ∈ sessionOf c.log → key ≠ none)
    (hfresh : ∀ i, c.backlogSeq i = -1) (hsynced : Always Synced c.log) : Timed s₀ id key c := by
  constructor
  · rw [hsent, hseq]
    exact (UInt16.add_zero s₀).symm
  · rw [hsent, hframes]
    rfl
  · rw [hsent, hfirst]
    rfl
  · exact fun hb => hbegun (hb.resolve_left fun hne => hne hsent)
  · exact hssrc
  · rw [hsent]
    exact fun k pkt hk => nomatch hk
  · exact hrecords
  · exact hplain
  · rw [hsent]
    exact hsealed
  · exact hoffered
  · exact fun _ => hfresh
  · rw [hsent]
    exact fun _ => Recent.Keeps.empty _ hfresh
  · exact hsynced

/-- The counters of a session before its first packet. -/
theorem Timed.at_start (h : Timed s₀ id key c) (hsent : audioSent c.log = []) :
    c.seq = s₀ ∧ c.framesSent = 0 ∧ c.firstAudio = true := by
  refine ⟨?_, ?_, ?_⟩
  · rw [h.seq, hsent]
    exact UInt16.add_zero s₀
  · rw [h.frames, hsent]
    rfl
  · rw [h.first, hsent]
    rfl

/-- What RECORD announces before the first packet. -/
theorem announces_record {s : Sender} (hs : membersOf s = c.toMembers) (h : Timed s₀ id key c)
    (hsent : audioSent c.log = []) {uri contentType body : Octets} {extra : List (Octets × Octets)}
    (hcomposed : Composed s (ascii "RECORD") uri contentType body extra) :
    Announces s₀ (rtspText s (ascii "RECORD") uri contentType body extra) := by
  obtain ⟨hseq, hframes, -⟩ := h.at_start hsent
  have hinfo : rtpInfo s = ascii "seq=" ++ dec s₀.toNat ++ ascii ";rtptime=" ++ dec 66150 := by
    have hsseq : s.seq = s₀ := (congrArg Members.seq hs).trans hseq
    have hsframes : s.framesSent = 0 := (congrArg Members.framesSent hs).trans hframes
    have hlatency : (Sender.latency.toUInt64 + 0).toUInt32.toNat = 66150 := rfl
    rw [rtpInfo, Sender.rtptime32, hsseq, hsframes, hlatency]
  obtain ⟨before, after, hextra⟩ := List.append_of_mem (hcomposed.record rfl)
  have hflat : headerText "RTP-Info" (rtpInfo s) <:+:
      extra.flatMap fun h => h.1 ++ ascii ": " ++ h.2 ++ crlf := by
    rw [hextra, List.flatMap_append, List.flatMap_cons]
    exact ⟨_, _, (List.append_assoc _ _ _)⟩
  rw [Announces, ← hinfo]
  unfold rtspText
  refine List.IsInfix.trans ?_ (List.prefix_append _ body).isInfix
  refine List.IsInfix.trans ?_ (List.prefix_append _ crlf).isInfix
  refine List.IsInfix.trans ?_ (List.prefix_append _ (contentLengthText body)).isInfix
  exact hflat.trans (List.infix_append _ _ (contentTypeText contentType))

/-- A change of members the counters have nothing to do with. -/
theorem Timed.same (h : Timed s₀ id key c) (hlog : c'.log = c.log)
    (hcounters : c'.seq = c.seq ∧ c'.framesSent = c.framesSent ∧ c'.firstAudio = c.firstAudio ∧
      c'.audio = c.audio)
    (hstream : c'.state = .streaming → c.state = .streaming) (hfresh : c'.backlogSeq = c.backlogSeq)
    (hlive : c'.state ≠ .idle → c.state ≠ .idle ∧ c'.sessionId = c.sessionId ∧
      c'.backlog = c.backlog ∧ c'.backlogSeq = c.backlogSeq) : Timed s₀ id key c' :=
  h.beside [] hlog (by simp) (by simp) (by simp) (by simp) hcounters hstream
    (fun hold i => by rw [hfresh]; exact hold i) hlive

/-- An entry that is no packet. -/
theorem Timed.entry (h : Timed s₀ id key c) {e : Entry}
    (he : e.isStarted = false ∧ e.audio? = none ∧ e.isOffer = false)
    (hrecord : ∀ cseq text, e = .requested cseq (ascii "RECORD") false text → Announces s₀ text)
    (hsync : Synced e c.log) : Timed s₀ id key { c with log := e :: c.log } := by
  refine h.beside [e] rfl (fun x hx => ?_) (fun cseq text hmem => ?_) (fun hmem => ?_)
    (fun x older hx => ?_) ⟨rfl, rfl, rfl, rfl⟩ (fun hst => hst) (fun hold => hold)
    fun hlive => ⟨hlive, rfl, rfl, rfl⟩
  · rw [List.mem_singleton.mp hx]
    exact ⟨he.1, he.2.1⟩
  · exact hrecord cseq text (List.mem_singleton.mp hmem).symm
  · rw [← List.mem_singleton.mp hmem] at he
    cases he.2.2
  · obtain ⟨rfl, rfl⟩ : x = e ∧ older = [] := by
      rcases List.suffix_cons_iff.mp hx with heq | hnil
      · simpa using heq
      · cases List.suffix_nil.mp hnil
    exact hsync

omit [Primitives] in
/-- Sockets are no concern of the counters. -/
theorem Entry.of_isSocket {e : Entry} (h : e.isSocket = true) :
    (e.isStarted = false ∧ e.audio? = none) ∧
      (∀ cseq method isHttp text, e ≠ .requested cseq method isHttp text) ∧
      (∀ stage, e ≠ .staged stage) ∧ ∀ older, Synced e older := by
  cases e with
  | tcpClose | udpClose | udpBind => exact ⟨⟨rfl, rfl⟩, nofun, nofun, fun _ => trivial⟩
  | _ => cases h

/-- The end of a session leaves the counters where they are. -/
theorem Timed.finished (h : Timed s₀ id key c) {es : List Entry} {backlog : ℕ → Octets}
    {backlogSeq : ℕ → ℤ} (hes : ∀ e ∈ es, e.isSocket = true)
    (hfresh : (∀ i, c.backlogSeq i = -1) → ∀ i, backlogSeq i = -1) :
    Timed s₀ id key (c.finished es backlog backlogSeq) := by
  have hall : ∀ e ∈ releaseEntries c.udpBound ++ es, e.isSocket = true := by
    intro e he
    rcases List.mem_append.mp he with he | he
    · exact isSocket_release e he
    · exact hes e he
  refine h.beside (releaseEntries c.udpBound ++ es) (List.append_assoc _ _ _).symm
    (fun e he => (Entry.of_isSocket (hall e he)).1) (fun cseq text hmem => ?_) (fun hmem => ?_)
    (fun e older hsuf => ?_) ⟨rfl, rfl, rfl, rfl⟩ nofun hfresh fun hlive => absurd rfl hlive
  · exact absurd rfl ((Entry.of_isSocket (hall _ hmem)).2.1 cseq (ascii "RECORD") false text)
  · exact absurd rfl ((Entry.of_isSocket (hall _ hmem)).2.2.1 .ap2Stream)
  · exact (Entry.of_isSocket (hall e (hsuf.subset List.mem_cons_self))).2.2.2 _

/-- A session begins with fresh counters. -/
theorem Timed.restart (h : Timed s₀ id key c) (hidle : c.state = .idle) (seq : UInt16) (auth : Auth)
    (airplay2 strict : Bool) (p : Ports) :
    Timed seq c.sessionId none (c.begun seq auth airplay2 strict p) := by
  obtain ⟨es, hes, hlog⟩ := c.begun_log seq auth airplay2 strict p
  have hquiet : ∀ e ∈ es, e.isStarted = false ∧ e.audio? = none := fun e he =>
    (Entry.of_isSocket (hes e he)).1
  have hsession : sessionOf (c.begun seq auth airplay2 strict p).log = es := by
    rw [hlog, sessionOf_append fun e he => (hquiet e he).1, sessionOf_started, List.append_nil]
  refine .of_unsent ?_ rfl rfl rfl (fun hst => ?_) (fun _ => rfl) (fun cseq text hmem => ?_)
    (fun _ => rfl) nofun (fun hmem => ?_) (fun _ => rfl) ?_
  · rw [hlog, audioSent_append hquiet, audioSent_started]
  · have hstate : (bif p.good then State.connecting else c.state) = .streaming := hst
    rw [hidle] at hstate
    cases hgood : p.good <;> rw [hgood] at hstate <;> cases hstate
  · rw [hsession] at hmem
    exact absurd rfl ((Entry.of_isSocket (hes _ hmem)).2.1 cseq (ascii "RECORD") false text)
  · rw [hsession] at hmem
    exact absurd rfl ((Entry.of_isSocket (hes _ hmem)).2.2.1 .ap2Stream)
  · rw [hlog]
    exact Always.append ⟨trivial, h.synced⟩ fun e he => (Entry.of_isSocket (hes e he)).2.2.2

/-- Sync packets are no concern of them either, nor is the volume. -/
theorem Timed.syncs (h : Timed s₀ id key c) {es : List Entry} (hes : c.toMembers.Syncs es) :
    Timed s₀ id key { c with log := es ++ c.log } := by
  rcases hes with rfl | ⟨dest, mark, rfl⟩
  · exact h
  · exact h.entry ⟨rfl, rfl, rfl⟩ (by simp) fun _ => h.sync mark c.clock

/-- A volume is a request, and no RECORD. -/
theorem Timed.conveys (h : Timed s₀ id key c) {m : Members} {p : Prop} {es : List Entry}
    (hes : m.Conveys p es) : Timed s₀ id key { c with log := es ++ c.log } := by
  by_cases hp : p
  · obtain ⟨cseq, text, -, rfl⟩ := hes.1 hp
    refine h.entry ⟨rfl, rfl, rfl⟩ (fun cseq' text' heq => ?_) trivial
    cases heq
  · rw [hes.2 hp]
    exact h

/-- A stream begins where the counters stand. -/
theorem Timed.entering (h : Timed s₀ id key c) (hbefore : Before .entered c.log) (ntp : UInt64)
    (serverPort controlPort : UInt16) (dbfs : Float) :
    Timed s₀ c.sessionId key (c.entering ntp serverPort controlPort dbfs) := by
  have hno : .entered ∉ sessionOf c.log := hbefore.1 rfl
  have hsent := h.unsent hno
  have hsession : sessionOf (.entered :: c.log) = .entered :: sessionOf c.log := sessionOf_cons rfl _
  refine .of_unsent ?_ (h.at_start hsent).1 rfl rfl (fun _ => ?_)
    (fun _ => rfl) (fun cseq text hmem => ?_) h.plain (fun shk hshk => ?_) (fun hmem => ?_)
    (h.fresh hsent) ⟨trivial, h.synced⟩
  · exact (@audioSent_append [_] _ (by simp [Entry.isStarted, Entry.audio?])).trans hsent
  · have hmem : Entry.entered ∈ sessionOf (.entered :: c.log) := by
      rw [hsession]
      exact List.mem_cons_self
    exact hmem
  · have hmem' : .requested cseq (ascii "RECORD") false text ∈ sessionOf (.entered :: c.log) := hmem
    rw [hsession] at hmem'
    exact h.records cseq text ((List.mem_cons.mp hmem').resolve_left (by simp))
  · obtain ⟨haudio, hoffered⟩ := h.sealed shk hshk
    rw [hsent] at haudio
    exact ⟨haudio, @Offered.append [_] _ _ hoffered (by simp [Entry.isStarted])⟩
  · have hmem' : Entry.staged .ap2Stream ∈ sessionOf (.entered :: c.log) := hmem
    rw [hsession] at hmem'
    exact h.offered ((List.mem_cons.mp hmem').resolve_left (by simp))

variable {Ok : Action → Prop}

/-- **No act moves a counter but a packet, and none resets one in the middle of a stream.** -/
theorem Timed.act (h : Timed s₀ id key c) (hbefore : Always Before c'.log) (ha : Act Ok c c') :
    ∃ s₀ id key, Timed s₀ id key c' := by
  cases ha with
  | number sessionId hidle =>
    exact ⟨s₀, id, key, h.same rfl ⟨rfl, rfl, rfl, rfl⟩ (fun hst => hst) rfl
      fun hlive => absurd hidle hlive⟩
  | begin seq auth airplay2 strict p hidle =>
    exact ⟨seq, c.sessionId, none, h.restart hidle seq auth airplay2 strict p⟩
  | connect | dropEvent | dispatch =>
    exact ⟨s₀, id, key, h.entry ⟨rfl, rfl, rfl⟩ (by simp) trivial⟩
  | clear auth setup2 paired hlive =>
    have hnoted : Timed s₀ id key { c with log := .cleared auth setup2 paired :: c.log } :=
      h.entry ⟨rfl, rfl, rfl⟩ (by simp) trivial
    exact ⟨s₀, id, key, hnoted.same rfl ⟨rfl, rfl, rfl, rfl⟩ nofun rfl fun _ => ⟨hlive, rfl, rfl, rfl⟩⟩
  | setUp live code headers body session =>
    have hnoted : Timed s₀ id key
        { c with log := .dispatched live (ascii "SETUP") false code headers body :: c.log } :=
      h.entry ⟨rfl, rfl, rfl⟩ (by simp) trivial
    exact ⟨s₀, id, key, hnoted.same rfl ⟨rfl, rfl, rfl, rfl⟩ (fun hst => hst) rfl
      fun hlive => ⟨hlive, rfl, rfl, rfl⟩⟩
  | refuse controlPort =>
    have hsame : Timed s₀ id key { c with serverPort := 0, controlPort } :=
      h.same rfl ⟨rfl, rfl, rfl, rfl⟩ (fun hst => hst) rfl fun hlive => ⟨hlive, rfl, rfl, rfl⟩
    exact ⟨s₀, id, key, hsame.finished (by simp [Entry.isSocket]) fun hold => hold⟩
  | progress state hlive hstate =>
    refine ⟨s₀, id, key, h.same rfl ⟨rfl, rfl, rfl, rfl⟩ (fun hst => ?_) rfl
      fun _ => ⟨hlive, rfl, rfl, rfl⟩⟩
    have hst' : state = .streaming := hst
    subst hst'
    rcases hstate with hstate | hstate <;> cases hstate
  | fail =>
    exact ⟨s₀, id, key, h.finished (by simp [Entry.isSocket]) fun hold => hold⟩
  | stop =>
    exact ⟨s₀, id, key, h.finished (by simp [Entry.isSocket]) fun _ _ => rfl⟩
  | @request cseq method isHttp text hbuilt =>
    refine ⟨s₀, id, key, h.entry ⟨rfl, rfl, rfl⟩ (fun cseq' text' heq => ?_) trivial⟩
    cases heq
    have hno : .entered ∉ sessionOf c.log := hbefore.1.1 rfl
    -- of the builders only `sendRequest_` makes a RECORD
    generalize hmethod : ascii "RECORD" = method at hbuilt
    generalize hhttp : false = isHttp at hbuilt
    cases hbuilt with
    | rtsp hs hcomposed =>
      subst hmethod
      exact announces_record hs h (h.unsent hno) hcomposed
    | feedback => exact absurd hmethod (by decide)
    | _ => cases hhttp
  | pair auth =>
    -- a pairing attempt makes a new `ap2_`, so the counters of its audio start again; no stream has
    -- begun by then
    have hclean : .entered ∉ sessionOf c.log ∧ .staged .ap2Stream ∉ sessionOf c.log :=
      ⟨hbefore.1.1 rfl, hbefore.1.2 rfl⟩
    have hsent := h.unsent hclean.1
    obtain ⟨hseq, hframes, hfirst⟩ := h.at_start hsent
    have hsession : sessionOf (.pairing auth :: c.log) = .pairing auth :: sessionOf c.log :=
      sessionOf_cons rfl _
    refine ⟨s₀, id, none, .of_unsent ?_ hseq hframes hfirst (fun hst => ?_) h.ssrc
      (fun cseq text hmem => ?_) (fun _ => rfl) (by simp) (fun hmem => ?_) (h.fresh hsent)
      ⟨trivial, h.synced⟩⟩
    · exact (@audioSent_append [_] _ (by simp [Entry.isStarted, Entry.audio?])).trans hsent
    · exact absurd (h.begun (.inr hst)) hclean.1
    · rw [hsession] at hmem
      exact h.records cseq text ((List.mem_cons.mp hmem).resolve_left (by simp))
    · rw [hsession] at hmem
      exact absurd ((List.mem_cons.mp hmem).resolve_left (by simp)) hclean.2
  | @offer cseq s hs shk hlen =>
    -- the key is offered before the stream begins, and its nonce starts from 0
    have hno : .entered ∉ sessionOf c.log := hbefore.2.1.1 rfl
    have hsent := h.unsent hno
    obtain ⟨hseq, hframes, hfirst⟩ := h.at_start hsent
    let text := ap2Text s (ascii "SETUP") s.rtspUri plistType (Bplist.encode (streamPlist s shk))
    have hsession : sessionOf (.requested cseq (ascii "SETUP") true text :: .staged .ap2Stream ::
        c.log) = .requested cseq (ascii "SETUP") true text :: .staged .ap2Stream ::
        sessionOf c.log := by rw [sessionOf_cons rfl, sessionOf_cons rfl]
    have hold {e : Entry} (hmem : e ∈ sessionOf (.requested cseq (ascii "SETUP") true text ::
        .staged .ap2Stream :: c.log)) : e = .requested cseq (ascii "SETUP") true text ∨
        e = .staged .ap2Stream ∨ e ∈ sessionOf c.log := by
      rw [hsession] at hmem
      simpa using hmem
    refine ⟨s₀, id, some shk, .of_unsent ?_ hseq hframes hfirst (fun hst => ?_) h.ssrc
      (fun cseq text hmem => ?_) (by simp) (fun shk' hshk => ?_) (fun _ => (by simp)) (h.fresh hsent)
      ⟨trivial, trivial, h.synced⟩⟩
    · exact (@audioSent_append [_, _] _ (by simp [Entry.isStarted, Entry.audio?])).trans hsent
    · exact absurd (h.begun (.inr hst)) hno
    · rcases hold hmem with heq | heq | hmem
      · cases heq
      · cases heq
      · exact h.records cseq text hmem
    · obtain rfl : shk = shk' := Option.some.inj hshk
      refine ⟨rfl, cseq, text, ?_, offers_streamPlist s s s.rtspUri hlen⟩
      rw [hsession]
      exact List.mem_cons_self
  | volume dbfs sent hsent =>
    have hset : Timed s₀ id key { c with pendingVolumeDb := dbfs } :=
      h.same rfl ⟨rfl, rfl, rfl, rfl⟩ (fun hst => hst) rfl fun hlive => ⟨hlive, rfl, rfl, rfl⟩
    have hnoted : Timed s₀ id key { c with
        pendingVolumeDb := dbfs, log := .volumeSet (c.state = .streaming) dbfs :: c.log } :=
      hset.entry ⟨rfl, rfl, rfl⟩ (by simp) trivial
    exact ⟨s₀, id, key, hnoted.conveys hsent⟩
  | enter ntp _ _ _ hsynced hsent =>
    -- the stream resets its counters where they stand anyway: nothing was sent before it
    have hentered : Always Before (.entered :: c.log) := hbefore.of_append.of_append
    exact ⟨s₀, c.sessionId, key, ((h.entering hentered.1 ntp _ _ _).syncs hsynced).conveys hsent⟩
  | packet dest samples hst hsamples hkey => exact ⟨s₀, id, key, h.packet dest hst hsamples hkey⟩
  | sync dest mark =>
    exact ⟨s₀, id, key, h.entry ⟨rfl, rfl, rfl⟩ (by simp) fun _ => h.sync mark c.clock⟩
  | reply u dest bytes hreply =>
    -- a timing reply or a retransmission: no audio packet and no sync packet
    refine ⟨s₀, id, key, h.entry ⟨rfl, ?_, rfl⟩ (by simp) ?_⟩
    · cases u with
      | audio => exact absurd rfl hreply.1
      | _ => rfl
    · cases u with
      | control =>
        intro hsync
        rw [hreply.2 rfl] at hsync
        cases hsync
      | _ => trivial
  | _ =>
    exact ⟨s₀, id, key, h.same rfl ⟨rfl, rfl, rfl, rfl⟩ (fun hst => hst) rfl
      fun hlive => ⟨hlive, rfl, rfl, rfl⟩⟩

/-- What arrives leaves the counters alone; only an act moves them. -/
theorem Timed.turn (h : Timed s₀ id key c) (hbefore : Always Before c'.log) (ht : Turn Ok c c') :
    ∃ s₀ id key, Timed s₀ id key c' := by
  cases ht with
  | act ha => exact h.act hbefore ha
  | arrives a _ ha =>
    refine ⟨s₀, id, key, ?_⟩
    cases ha with
    | refused bytes rxBuf rtspEncBuf =>
      have hsame : Timed s₀ id key { c with rxBuf, rtspEncBuf } :=
        h.same rfl ⟨rfl, rfl, rfl, rfl⟩ (fun hst => hst) rfl fun hlive => ⟨hlive, rfl, rfl, rfl⟩
      exact hsame.finished (by simp [Entry.isSocket]) fun hold => hold
    | hungUp => exact h.finished (by simp) fun _ _ => rfl
    | nothing => exact h
    | _ =>
      exact h.same rfl ⟨rfl, rfl, rfl, rfl⟩ (fun hst => hst) rfl fun hlive => ⟨hlive, rfl, rfl, rfl⟩

end Timed

/-! ## 5. Sessions -/

/-- A session as the receiver sees it: its first sequence number, its id and its key. -/
structure Told [Primitives] (s₀ : UInt16) (id : UInt32) (key : Option Octets) (log : List Entry) :
    Prop where
  packets : ∀ k pkt, (audioSent log)[k]? = some pkt → ∃ payload,
    pkt = audioHeader s₀ id k ++ payload ∧ Payload k (audioHeader s₀ id k) key payload
  records : ∀ cseq text, .requested cseq (ascii "RECORD") false text ∈ sessionOf log →
    Announces s₀ text
  begun : audioSent log ≠ [] → .entered ∈ sessionOf log
  keyed : .staged .ap2Stream ∈ sessionOf log → key ≠ none
  offered : ∀ shk, key = some shk → Offered log shk

section Told

variable [Primitives] {s₀ : UInt16} {id : UInt32} {key : Option Octets} {c c' : Wire}
  {log : List Entry}

/-- What the receiver sees is the part of the invariant that speaks of the trace. -/
theorem Timed.told (h : Timed s₀ id key c) : Told s₀ id key c.log where
  packets := h.packets
  records := h.records
  begun := fun hne => h.begun (.inl hne)
  keyed := h.offered
  offered := fun shk hkey => (h.sealed shk hkey).2

omit [Primitives] in
theorem audioSent_filter (log : List Entry) : audioSent (log.filter Entry.wired) = audioSent log := by
  rw [audioSent, sessionOf_filter fun _ => Entry.wired_of_isStarted, audioSent]
  refine shown_filter (fun e he => ?_) _
  cases e with
  | udpSend => cases he
  | _ => rfl

/-- What the wire tells of a session, the trace does. -/
theorem Told.of_filter (h : Told s₀ id key (log.filter Entry.wired)) : Told s₀ id key log := by
  have hmem {e : Entry} (he : e.wired = true) :
      e ∈ sessionOf (log.filter Entry.wired) ↔ e ∈ sessionOf log :=
    mem_sessionOf_filter (fun _ => Entry.wired_of_isStarted) he
  constructor
  · rw [← audioSent_filter log]
    exact h.packets
  · exact fun cseq text hin => h.records cseq text ((hmem rfl).mpr hin)
  · rw [← audioSent_filter log]
    exact fun hne => (hmem rfl).mp (h.begun hne)
  · exact fun hin => h.keyed ((hmem rfl).mpr hin)
  · intro shk hkey
    obtain ⟨cseq, text, hin, hoffers⟩ := h.offered shk hkey
    exact ⟨cseq, text, (hmem rfl).mp hin, hoffers⟩

/-- The sessions that are over have told their stories. -/
def Recounted (log : List Entry) : Prop :=
  Always (fun e older => e.isStarted = true → ∃ s₀ id key, Told s₀ id key older) log

/-- A session that ends has told its story by then. -/
theorem Recounted.turn {Ok : Action → Prop} (h : Recounted c.log)
    (ht : ∃ s₀ id key, Timed s₀ id key c) (hturn : Turn Ok c c') : Recounted c'.log := by
  obtain ⟨s₀, id, key, htimed⟩ := ht
  exact hturn.past h ⟨s₀, id, key, htimed.told⟩

/-- Before the first session there is nothing to count. -/
theorem Timed.init (env : Env) : Timed 0 0 none (wireOf (World.init env)) :=
  .of_unsent rfl rfl rfl rfl nofun (fun hlive => absurd rfl hlive) nofun (fun _ => rfl) nofun nofun
    (fun _ => rfl) trivial

/-- **The counters agree with the trace in every reachable world**, and did in every session. -/
theorem Reachable.timed {w : World} (h : Reachable w) :
    (∃ s₀ id key, Timed s₀ id key (wireOf w)) ∧ Recounted (wireOf w).log := by
  refine h.turns_induct (I := fun c => (∃ s₀ id key, Timed s₀ id key c) ∧ Recounted c.log) h.before
    (fun env => ⟨⟨0, 0, none, Timed.init env⟩, trivial⟩) fun c c' hbefore ht hi => ?_
  obtain ⟨s₀, id, key, htimed⟩ := hi.1
  exact ⟨htimed.turn hbefore ht, hi.2.turn hi.1 ht⟩

/-- Packet `k`, opened under a key: the counter behind it, and one ALAC frame in it, in which a
decoder finds the samples. -/
def OpensTo (shk : Octets) (k : ℕ) (pkt : Octets) : Prop :=
  ∃ ct payload samples, pkt.drop 12 = ct ++ leBytes 8 k ∧
    chacha20Poly1305Decrypt shk (leBytes 8 k) ct ((pkt.drop 4).take 8) = some payload ∧
    decodeAlacUncompressed payload framesPerPacket = some samples ∧
    List.length samples = 704 ∧ payload = encodeAlacFrame samples

/-- The timeline of a session: what RECORD announced, the headers of its packets, and on AirPlay 2
what is in them. -/
structure Timeline (s₀ : UInt16) (id : UInt32) (log : List Entry) : Prop where
  announced : ∀ cseq text, .requested cseq (ascii "RECORD") false text ∈ sessionOf log →
    Announces s₀ text
  header : ∀ k pkt, (audioSent log)[k]? = some pkt → pkt.take 12 = audioHeader s₀ id k
  sealed : isSetup2 log = true → audioSent log ≠ [] →
    ∃ shk, Offered log shk ∧ ∀ k pkt, (audioSent log)[k]? = some pkt → OpensTo shk k pkt

omit [Primitives] in
@[simp] theorem length_audioHeader (s₀ : UInt16) (id : UInt32) (k : ℕ) :
    (audioHeader s₀ id k).length = 12 := by
  simp [audioHeader]

omit [Primitives] in
/-- The nonce of packet `k` is `k`, in eight bytes. -/
theorem counterNonce8_ofNat (k : ℕ) : counterNonce8 (UInt64.ofNat k) = leBytes 8 k := by
  rw [counterNonce8, UInt64.toNat_ofNat']
  exact leBytes_mod 8 k

/-- A sealed packet opens to the frame that was sealed, and the frame decodes. -/
theorem opensTo_sealed (hopens : OpensSealed) {shk : Octets} (hkey : shk.length = 32)
    (s₀ : UInt16) (id : UInt32) (k : ℕ) {samples : List Int16} (hsamples : samples.length = 704) :
    OpensTo shk k (audioHeader s₀ id k ++
      (chachaSeal shk (counterNonce8 (UInt64.ofNat k)) (encodeAlacFrame samples)
        (((audioHeader s₀ id k).drop 4).take 8) ++ counterNonce8 (UInt64.ofNat k))) := by
  refine ⟨chachaSeal shk (leBytes 8 k) (encodeAlacFrame samples)
    (((audioHeader s₀ id k).drop 4).take 8), encodeAlacFrame samples, samples, ?_, ?_,
    decode_encodeAlacFrame hsamples, hsamples, rfl⟩
  · rw [List.drop_left' (length_audioHeader s₀ id k), counterNonce8_ofNat]
  · have haad (payload : Octets) : ((audioHeader s₀ id k ++ payload).drop 4).take 8 =
        ((audioHeader s₀ id k).drop 4).take 8 := by
      rw [List.drop_append_of_le_length (by simp), List.take_append_of_le_length (by simp)]
    rw [haad]
    exact decrypt_seal hopens hkey _ _ _

/-- The story of a session, with its packets opened. -/
theorem Told.timeline (hopens : OpensSealed) (h : Told s₀ id key log) (hkeyed : Keyed log) :
    Timeline s₀ id log := by
  refine ⟨h.records, fun k pkt hk => ?_, fun hsetup2 hne => ?_⟩
  · obtain ⟨payload, rfl, -⟩ := h.packets k pkt hk
    exact List.take_left' (length_audioHeader s₀ id k)
  · obtain ⟨shk, rfl⟩ := Option.ne_none_iff_exists'.mp (h.keyed (hkeyed hsetup2 (h.begun hne)))
    refine ⟨shk, h.offered shk rfl, fun k pkt hk => ?_⟩
    obtain ⟨payload, rfl, hpayload⟩ := h.packets k pkt hk
    cases hpayload with
    | «sealed» _ samples hkey hsamples => exact opensTo_sealed hopens hkey s₀ id k hsamples

omit [Primitives] in
/-- What the core shows of the trace is enough for `Keyed`. -/
theorem keyed_filter (log : List Entry) : Keyed (log.filter Entry.tracked) ↔ Keyed log := by
  have hcleared : isSetup2 (log.filter Entry.tracked) = isSetup2 log := by
    rw [isSetup2, sessionOf_filter fun _ => Entry.tracked_of_isStarted, List.any_filter, isSetup2]
    congr 1
    funext e
    cases e <;> simp [Entry.isSetup2, Entry.tracked]
  unfold Keyed
  rw [hcleared, mem_sessionOf_filter (fun _ => Entry.tracked_of_isStarted) rfl,
    mem_sessionOf_filter (fun _ => Entry.tracked_of_isStarted) rfl]

end Told

/-- **The audio timeline**, in every run, with any clock and callbacks of any nesting depth.  In the
session, and in every session before it, the `k`-th audio packet has the header of packet `k`:
sequence number `s₀ + k`, timestamp `66150 + 352 k`, the session's id, the marker exactly for the
first; `s₀` and 66150 are what the RECORD of AirPlay 1 announced; on AirPlay 2 it opens under
the offered key with nonce `k`.  Every sync packet agrees with the packets before it. -/
theorem audio_timeline [Primitives] (hopens : OpensSealed) {w : World} (h : Reachable w) :
    (∃ s₀ id, Timeline s₀ id w.out ∧ (w.s.state ≠ .idle → w.s.sessionId = id)) ∧
      (∀ auth airplay2 strict older, .started auth airplay2 strict :: older <:+ w.out →
        ∃ s₀ id, Timeline s₀ id older) ∧
      Always Synced w.out := by
  obtain ⟨⟨s₀, id, key, htimed⟩, hpast⟩ := h.timed
  have hpreceded := h.preceded
  have htold : Always (fun e older => e.isStarted = true → ∃ s₀ id key, Told s₀ id key older)
      w.out := by
    refine Always.of_filter hpast (fun e older _ htold hst => ?_) fun e older he hst => ?_
    · obtain ⟨s₀, id, key, htold⟩ := htold hst
      exact ⟨s₀, id, key, htold.of_filter⟩
    · exact absurd (Entry.wired_of_isStarted hst) (Bool.eq_false_iff.mp he)
  have hkeyed : Always (fun e older => e.isStarted = true → Keyed older) w.out := by
    refine Always.of_filter hpreceded.past (fun e older _ hkeyed hst => ?_) fun e older he hst => ?_
    · exact (keyed_filter older).mp (hkeyed hst)
    · exact absurd (Entry.tracked_of_isStarted hst) (Bool.eq_false_iff.mp he)
  refine ⟨⟨s₀, id, ?_, htimed.ssrc⟩, fun auth airplay2 strict older hsuf => ?_, ?_⟩
  · exact htimed.told.of_filter.timeline hopens ((keyed_filter w.out).mp hpreceded.keyed)
  · obtain ⟨s₀, id, key, htold⟩ := always_iff.mp htold _ _ hsuf rfl
    exact ⟨s₀, id, htold.timeline hopens (always_iff.mp hkeyed _ _ hsuf rfl)⟩
  · refine Always.of_filter htimed.synced (fun e older _ hsynced => ?_) fun e older he => ?_
    · cases e with
      | udpSend u dest bytes =>
        cases u with
        | control =>
          intro hmark
          rw [← audioSent_filter older]
          exact hsynced hmark
        | _ => trivial
      | _ => trivial
    · cases e with
      | udpSend => cases he
      | _ => trivial

/-- Ten milliseconds pass between two readings of the clock. -/
def Env.running : Env := { Env.still with steady := fun n => n * 10000000 }

/-- A stream on AirPlay 2 behind its first tick. -/
def tickedStream : World := worldIn 0 .running (streamingActions ++ [.tick])

theorem audio_timeline_stream :
    (audioSent tickedStream.out).length = 6 ∧ isSetup2 tickedStream.out = true ∧
      ∃ s₀ id, @Timeline trusting s₀ id tickedStream.out := by
  obtain ⟨⟨s₀, id, htimeline, -⟩, -⟩ :=
    @audio_timeline trusting opensSealed_transparent _ (worldIn_reachable 0 .running _)
  obtain ⟨hsix, hsetup⟩ : (audioSent tickedStream.out).length = 6 ∧
      isSetup2 tickedStream.out = true := by decide +kernel
  exact ⟨hsix, hsetup, s₀, id, htimeline⟩

end AirplaySender
