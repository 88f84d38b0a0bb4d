/-
# What a session encrypts

Three channels of a session are encrypted under a key and a 64-bit counter each: requests on the
control channel once it is switched, answers on the event channel, audio.  Nothing may be encrypted
twice under one key and counter, and a receiver that counts along must be able to read everything.

`control_framed` is about the octets of the control channel: behind the switch there is nothing but
the frames of the requests, so a receiver reads exactly these.  `nonces_counted` is about all three
counters.  On the control channel and for audio the `k`-th encryption takes nonce `k`, under one key
a session.  On the event channel the counter moves before the answer is measured, and an answer too
long for an `int` is never sealed: there nonce `k` belongs to the `k`-th request, and some nonces
are skipped.
-/
import AirplaySender.Conduits
import AirplaySender.Routing
import AirplaySender.FrameRoundTrip
import AirplaySender.Timeline
import AirplaySender.Lib.Counted

namespace AirplaySender

open Octets Trace
open Counted (counters placed)
open Relation (ReflTransGen)

/-! ## 1. What the trace shows -/

/-- An encryption. -/
structure Seal where
  key : Octets
  nonce : Octets
  aad : Octets
  plaintext : Octets

/-- What must not come twice. -/
def Seal.use (s : Seal) : Octets × Octets := (s.key, s.nonce)

/-- The seal of a frame: the length it is sent behind is authenticated with it. -/
def frameSeal (key : Octets) (ctr : UInt64) (pt : Octets) : Seal :=
  ⟨key, counterNonce8 ctr, leBytes 2 pt.length, pt⟩

/-- The encryption an entry shows, if it was made for this purpose. -/
def Entry.seal? (site : Site) : Entry → Option Seal
  | .sealed site' key nonce aad pt => if site' = site then some ⟨key, nonce, aad, pt⟩ else none
  | _ => none

/-- The encryptions made for a purpose, oldest first. -/
def seals (site : Site) (log : List Entry) : List Seal := shown (Entry.seal? site) log

/-- Their keys and nonces. -/
def uses (site : Site) (log : List Entry) : List (Octets × Octets) := (seals site log).map Seal.use

theorem seals_nil {site : Site} {log : List Entry} (h : ∀ e ∈ log, e.seal? site = none) :
    seals site log = [] := by
  rw [seals, shown, List.filterMap_eq_nil_iff.mpr h]
  rfl

/-- The first `n` encryptions under a key. -/
def nonces (key : Octets) (n : ℕ) : List (Octets × Octets) :=
  (counters n).map fun ctr => (key, counterNonce8 ctr)

@[simp] theorem length_nonces (key : Octets) (n : ℕ) : (nonces key n).length = n := by simp [nonces]

/-- No nonce comes twice before the counter wraps. -/
theorem nodup_nonces (key : Octets) {n : ℕ} (h : n ≤ 2 ^ 64) : (nonces key n).Nodup := by
  refine List.Nodup.map (fun x y heq => ?_) (Counted.nodup_counters h)
  have hmod := leBytes_inj (congrArg Prod.snd heq)
  have hx := x.toNat_lt
  have hy := y.toNat_lt
  exact UInt64.toNat_inj.mp (by omega)

/-- The next encryptions take the next nonces. -/
theorem nonces_add (key : Octets) (m n : ℕ) : nonces key (m + n) =
    nonces key m ++ (counters n).map fun i => (key, counterNonce8 (UInt64.ofNat m + i)) := by
  rw [nonces, nonces, Counted.counters_add, List.map_append, List.map_map]
  rfl

/-- The control channel is switched to frames. -/
def Entry.isSwitched : Entry → Bool
  | .switched .. => true
  | _ => false

/-- The entries of the session since the control channel was switched. -/
def sinceSwitch (log : List Entry) : List Entry := (sessionOf log).takeWhile fun e => !e.isSwitched

/-- The pieces of the requests since then, of each as far as an `int` measures it. -/
def pieces (log : List Entry) : List Octets := (texts (sinceSwitch log)).flatMap chunks

theorem sinceSwitch_append {es : List Entry} (hes : ∀ e ∈ es, e.isStarted = false ∧ e.isSwitched = false)
    (log : List Entry) : sinceSwitch (es ++ log) = es ++ sinceSwitch log := by
  rw [sinceSwitch, sessionOf_append fun e he => (hes e he).1, List.takeWhile_append_of_pos]
  · rfl
  · intro e he
    simp [(hes e he).2]

/-! ## 2. The control channel -/

/-- An entry that carries something out on the control channel. -/
def Entry.transmits : Entry → Bool
  | .started .. => true
  | .switched .. => true
  | .requested .. => true
  | .tcpSend .control _ => true
  | .sealed .control _ _ _ _ => true
  | _ => false

theorem transmits_false {e : Entry} (h : e.transmits = false) :
    e.isStarted = false ∧ e.isSwitched = false ∧ e.text? = none ∧ e.write? = none ∧
      e.seal? .control = none := by
  cases e with
  | tcpSend ch bytes =>
    cases ch with
    | control => cases h
    | event => exact ⟨rfl, rfl, rfl, rfl, rfl⟩
  | «sealed» site =>
    cases site with
    | control => cases h
    | _ => exact ⟨rfl, rfl, rfl, rfl, rfl⟩
  | started | switched | requested => cases h
  | _ => exact ⟨rfl, rfl, rfl, rfl, rfl⟩

section Control

variable [Primitives] {k : Level} {c c' : Core}

/-- The moves of the control channel: a new session, the switch, a request, and whatever leaves an
encrypted channel its keys and its counter. -/
inductive Transmits (c : Core) : Core → Prop
  | restart : Transmits c c.fresh
  | switch {c' : Core} (keys : Keys) (leftover : Octets) (henc : c.encrypted = false)
      (henc' : c'.encrypted = true) (hkeys : c'.keys = some keys) (hctr : c'.sendCtr = 0)
      (hlog : c'.log = .switched keys.controlOut keys.controlIn leftover :: c.log) : Transmits c c'
  | request (method : Octets) (isHttp : Bool) (text : Octets) :
      Transmits c (c.request method isHttp text)
  | silent {c' : Core} (henc : c'.encrypted = c.encrypted) (hctr : c'.sendCtr = c.sendCtr)
      (hkeys : c.encrypted = true → ∀ keys, c.keys = some keys → ∃ keys', c'.keys = some keys' ∧
        keys'.controlOut = keys.controlOut ∧ keys'.controlIn = keys.controlIn)
      (es : List Entry) (hlog : c'.log = es ++ c.log) (hes : ∀ e ∈ es, e.transmits = false) :
      Transmits c c'

omit [Primitives] in
/-- Before the keys are agreed the control channel is not encrypted. -/
theorem Flow.plain_of_stage (h : Flow c) {stage : PairStage} (hst : c.stage = stage)
    (hno : ¬ stage.agreed) : c.encrypted = false := by
  subst hst
  exact h.plain (fun hd => hno (.inr (.inl hd))) fun hp => hno (.inr (.inr hp))

/-- **A step is a run of moves.** -/
theorem Step.transmits (hflow : Flow c) (h : Step k c c') : ReflTransGen Transmits c c' := by
  have same {c c' : Core} (hkeys : c'.keys = c.keys) : c.encrypted = true →
      ∀ keys, c.keys = some keys → ∃ keys', c'.keys = some keys' ∧
        keys'.controlOut = keys.controlOut ∧ keys'.controlIn = keys.controlIn :=
    fun _ keys hk => ⟨keys, hkeys.trans hk, rfl, rfl⟩
  have one {c c' : Core} {e : Entry} (henc : c'.encrypted = c.encrypted)
      (hctr : c'.sendCtr = c.sendCtr) (hkeys : c'.keys = c.keys) (hlog : c'.log = e :: c.log)
      (he : e.transmits = false) : Transmits c c' :=
    .silent henc hctr (same hkeys) [e] hlog (by simpa using he)
  have unkeyed {stage : PairStage} (hst : c.stage = stage) (hno : ¬ stage.agreed)
      (henc : c'.encrypted = c.encrypted) (hctr : c'.sendCtr = c.sendCtr) (es : List Entry)
      (hlog : c'.log = es ++ c.log) (hes : ∀ e ∈ es, e.transmits = false) : Transmits c c' := by
    refine .silent henc hctr (fun hon => ?_) es hlog hes
    rw [hflow.plain_of_stage hst hno] at hon
    cases hon
  cases h with
  | restart => exact .single .restart
  | request _ method isHttp text => exact .single (.request method isHttp text)
  | switch _ keys _ henc _ _ hkeys => exact .single (.switch keys c.rxBuf henc rfl hkeys rfl rfl)
  | teardown _ text =>
    have hending : Transmits c (c.ending true) := one rfl rfl rfl rfl rfl
    have hrewind (c : Core) : Transmits c c.rewind := .silent rfl rfl (same rfl) _ rfl fun e he => by
      rw [mem_rewindEntries he]
      rfl
    have hclosed (c : Core) : Transmits c c.closed := one rfl rfl rfl rfl rfl
    exact (((ReflTransGen.single hending).tail (.request _ false text)).tail (hrewind _)).tail
      (hclosed _)
  | reask _ method text =>
    refine ReflTransGen.tail (.single ?_) (.request method false text)
    exact .silent rfl rfl (same rfl) [] rfl (by simp)
  | setup _ stage method text =>
    refine ReflTransGen.tail (.single ?_) (.request method true text)
    exact one (e := .staged stage) rfl rfl rfl rfl rfl
  | stream _ keys text _ _ _ _ hkeys =>
    refine ReflTransGen.tail (.single ?_) (.request _ true text)
    refine .silent rfl rfl (fun _ old hold => ⟨_, rfl, ?_⟩) [.staged .ap2Stream] rfl
      (by simp [Entry.transmits])
    obtain rfl := Option.some.inj (hkeys.symm.trans hold)
    exact ⟨rfl, rfl⟩
  | sealAudio _ keys aad pt _ hkeys =>
    refine .single (.silent rfl rfl (fun _ old hold => ⟨_, rfl, ?_⟩) [_] rfl (by simp [Entry.transmits]))
    obtain rfl := Option.some.inj (hkeys.symm.trans hold)
    exact ⟨rfl, rfl⟩
  | attempt _ auth hat =>
    refine .single ?_
    rcases hat with ⟨hst, -⟩ | ⟨hst, -⟩ | ⟨hst, -⟩ <;>
      exact unkeyed hst (by decide) rfl rfl [.pairing auth] rfl
        (by simp [Entry.transmits])
  | srpStart _ keys hst =>
    exact .single (unkeyed hst (by decide) rfl rfl [] rfl (by simp))
  | srpAgreed _ keys pin K hst =>
    exact .single (unkeyed hst (by decide) rfl rfl [_, _] rfl
      (by simp [Entry.transmits]))
  | transientKeys _ keys K out inn hst =>
    exact .single (unkeyed hst (by decide) rfl rfl [_] rfl (by simp [Entry.transmits]))
  | learn _ keys ltpk hst =>
    exact .single (unkeyed hst (by decide) rfl rfl [_] rfl
      (by simp [Entry.transmits]))
  | stored _ keys json creds hst =>
    exact .single (unkeyed hst (by decide) rfl rfl [_] rfl
      (by simp [Entry.transmits]))
  | agreed _ keys secret hst =>
    exact .single (unkeyed hst (by decide) rfl rfl [] rfl (by simp))
  | verifyKeys _ keys key nonce pt out inn evOut evIn hst =>
    exact .single (unkeyed hst (by decide) rfl rfl [_, _] rfl
      (by simp [Entry.transmits]))
  | receivePlain | answerEvent | leave | typed | setupM5 =>
    exact .single (.silent rfl rfl (same rfl) [_, _] rfl (by simp [Entry.transmits]))
  | receiveSealed _ keys bytes =>
    refine .single (.silent rfl rfl (same rfl) _ rfl fun e he => ?_)
    rcases mem_receiveEntries he with ⟨_, _, rfl⟩ | rfl <;> rfl
  | receiveBroken _ keys bytes =>
    have hreceive : Transmits c (c.receive keys.controlIn bytes) := by
      refine .silent rfl rfl (same rfl) _ rfl fun e he => ?_
      rcases mem_receiveEntries he with ⟨_, _, rfl⟩ | rfl <;> rfl
    exact (ReflTransGen.single hreceive).tail (one rfl rfl rfl rfl rfl)
  | receiveEvent _ keys bytes =>
    refine .single (.silent rfl rfl (same rfl) _ rfl fun e he => ?_)
    rcases mem_eventReadEntries he with rfl | ⟨_, _, rfl⟩ | rfl <;> rfl
  | disconnect | lapse | retry | beginPairing | authSetupDone | verified | forget | unretry =>
    exact .single (.silent rfl rfl (same rfl) [] rfl (by simp))
  | _ => exact .single (one rfl rfl rfl rfl rfl)

/-- What was written to the switched channel, and with which nonces. -/
structure FramedBy (key : Octets) (log : List Entry) : Prop where
  written : (writes (sinceSwitch log)).flatten = (framesOf key 0 (pieces log)).flatten
  nonced : seals .control (sinceSwitch log) = placed (frameSeal key) 0 ((pieces log).map some)

/-- The control channel up to its switch, and behind it. -/
structure Ciphered (c : Core) : Prop where
  plain : c.encrypted = false →
    ∀ e ∈ sessionOf c.log, e.isSwitched = false ∧ e.seal? .control = none
  framed : c.encrypted = true → ∃ keys leftover before, c.keys = some keys ∧
    sessionOf c.log =
      sinceSwitch c.log ++ .switched keys.controlOut keys.controlIn leftover :: before ∧
    (∀ e ∈ before, e.isSwitched = false ∧ e.seal? .control = none) ∧
    FramedBy keys.controlOut c.log ∧ c.sendCtr = UInt64.ofNat (pieces c.log).length

omit [Primitives] in
/-- The frames of one message take the nonces from the counter on. -/
theorem seals_frameSeals (key : Octets) (pts : List Octets) (ctr : UInt64) :
    seals .control (frameSeals key ctr pts) = placed (frameSeal key) ctr (pts.map some) := by
  induction pts generalizing ctr with
  | nil => rfl
  | cons pt pts ih =>
    have hhead : seals .control [.sealed .control key (counterNonce8 ctr) (leBytes 2 pt.length) pt] =
        [frameSeal key ctr pt] := rfl
    rw [frameSeals, seals, shown_append, ← seals, ← seals, ih, hhead, List.map_cons, placed,
      List.singleton_append]

omit [Primitives] in
theorem uses_frameSeals (key : Octets) (pts : List Octets) :
    (placed (frameSeal key) 0 (pts.map some)).map Seal.use = nonces key pts.length := by
  have huse : (fun (i : UInt64) (pt : Octets) => (frameSeal key i pt).use) =
      fun i _ => (key, counterNonce8 i) := rfl
  rw [Counted.map_placed, huse, Counted.placed_some, nonces]
  simp only [UInt64.zero_add]

/-- Writing to the switched channel. -/
theorem Core.writeEntries_sealed {keys : Keys} (henc : c.encrypted = true)
    (hkeys : c.keys = some keys) (text : Octets) : c.writeEntries text =
      .tcpSend .control (frames keys.controlOut c.sendCtr (chunks text)) ::
        frameSeals keys.controlOut c.sendCtr (chunks text) := by
  unfold Core.writeEntries
  rw [henc, hkeys]

theorem Ciphered.init : Ciphered {} := by
  constructor <;> simp

theorem Ciphered.restart : Ciphered c.fresh := by
  refine ⟨fun _ e he => ?_, fun henc => ?_⟩
  · rw [Core.fresh, sessionOf_started] at he
    cases he
  · cases henc

/-- A request in plaintext, or in frames behind those that went before. -/
theorem Ciphered.request (h : Ciphered c) (method : Octets) (isHttp : Bool) (text : Octets) :
    Ciphered (c.request method isHttp text) := by
  have hkept : (c.request method isHttp text).encrypted = c.encrypted := rfl
  have hstart (e : Entry) (he : e ∈ c.requestEntries method isHttp text) :
      e.isStarted = false ∧ e.isSwitched = false := by
    rcases mem_requestEntries he with ⟨_, rfl⟩ | ⟨_, _, _, _, rfl⟩ | rfl <;> exact ⟨rfl, rfl⟩
  have hsession : sessionOf (c.request method isHttp text).log =
      c.requestEntries method isHttp text ++ sessionOf c.log := by
    rw [Core.request_log, sessionOf_append fun e he => (hstart e he).1]
  have hsince : sinceSwitch (c.request method isHttp text).log =
      c.requestEntries method isHttp text ++ sinceSwitch c.log := by
    rw [Core.request_log, sinceSwitch_append hstart]
  cases henc : c.encrypted with
  | false =>
    refine ⟨fun _ e he => ?_, fun hon => ?_⟩
    · rw [hsession] at he
      rcases List.mem_append.mp he with he | he
      · have hentries : c.requestEntries method isHttp text =
            [.tcpSend .control text, .requested c.cseq method isHttp text] := by
          simp [Core.requestEntries, Core.writeEntries, henc]
        rw [hentries] at he
        simp only [List.mem_cons, List.not_mem_nil, or_false] at he
        rcases he with rfl | rfl <;> exact ⟨rfl, rfl⟩
      · exact h.plain henc e he
    · rw [hkept, henc] at hon
      cases hon
  | true =>
    obtain ⟨keys, leftover, before, hkeys, hsplit, hbefore, hby, hctr⟩ := h.framed henc
    have hentries : c.requestEntries method isHttp text =
        .tcpSend .control (frames keys.controlOut c.sendCtr (chunks text)) ::
          (frameSeals keys.controlOut c.sendCtr (chunks text) ++
            [.requested c.cseq method isHttp text]) := by
      rw [Core.requestEntries, Core.writeEntries_sealed henc hkeys, List.cons_append]
    have hseal (e : Entry) (he : e ∈ frameSeals keys.controlOut c.sendCtr (chunks text)) :
        e.text? = none ∧ e.write? = none := by
      obtain ⟨_, _, _, rfl⟩ := mem_frameSeals he
      exact ⟨rfl, rfl⟩
    have htexts : texts (c.requestEntries method isHttp text) = [text] := by
      rw [hentries, texts, shown_cons_none (f := Entry.text?) rfl,
        shown_append_none fun e he => (hseal e he).1]
      rfl
    have hwrites : writes (c.requestEntries method isHttp text) =
        [frames keys.controlOut c.sendCtr (chunks text)] := by
      rw [hentries, writes, shown_cons_some (f := Entry.write?) rfl,
        shown_append_none fun e he => (hseal e he).2]
      rfl
    have hseals : seals .control (c.requestEntries method isHttp text) =
        placed (frameSeal keys.controlOut) c.sendCtr ((chunks text).map some) := by
      have hnone : seals .control [.requested c.cseq method isHttp text] = [] := rfl
      rw [hentries, seals, shown_cons_none (f := Entry.seal? .control) rfl, shown_append,
        ← seals, ← seals, seals_frameSeals, hnone, List.nil_append]
    have hpieces : pieces (c.request method isHttp text).log = pieces c.log ++ chunks text := by
      rw [pieces, hsince, texts, shown_append, ← texts, ← texts, htexts, List.flatMap_append]
      simp [pieces]
    refine ⟨fun hoff => ?_, fun _ => ⟨keys, leftover, before, hkeys, ?_, hbefore, ⟨?_, ?_⟩, ?_⟩⟩
    · rw [hkept, henc] at hoff
      cases hoff
    · rw [hsession, hsince, hsplit, List.append_assoc]
    · rw [hsince, writes, shown_append, ← writes, ← writes, hwrites, hpieces, framesOf_append,
        List.flatten_append, List.flatten_append, hby.written, hctr, frames_eq, UInt64.zero_add]
      simp
    · rw [hsince, seals, shown_append, ← seals, ← seals, hseals, hpieces, List.map_append,
        Counted.placed_append, List.length_map, UInt64.zero_add, hby.nonced, hctr]
    · have hcount : c.frameCount text = (chunks text).length := by
        simp [Core.frameCount, henc, hkeys]
      rw [hpieces, List.length_append, UInt64.ofNat_add, ← hctr, ← hcount]
      rfl

/-- The switch: nothing was sealed before, and the counter begins at 0. -/
theorem Ciphered.switch (h : Ciphered c) {keys : Keys} {leftover : Octets} (henc : c.encrypted = false)
    (henc' : c'.encrypted = true) (hkeys : c'.keys = some keys) (hctr : c'.sendCtr = 0)
    (hlog : c'.log = .switched keys.controlOut keys.controlIn leftover :: c.log) : Ciphered c' := by
  have hsession : sessionOf c'.log =
      .switched keys.controlOut keys.controlIn leftover :: sessionOf c.log := by
    rw [hlog, sessionOf_cons rfl]
  have hsince : sinceSwitch c'.log = [] := by
    rw [sinceSwitch, hsession]
    rfl
  have hpieces : pieces c'.log = [] := by
    rw [pieces, hsince]
    rfl
  refine ⟨fun hoff => ?_, fun _ =>
    ⟨keys, leftover, sessionOf c.log, hkeys, ?_, h.plain henc, ⟨?_, ?_⟩, ?_⟩⟩
  · rw [henc'] at hoff
    cases hoff
  · rw [hsince, hsession, List.nil_append]
  · rw [hsince, hpieces]
    rfl
  · rw [hsince, hpieces]
    rfl
  · rw [hctr, hpieces]
    rfl

/-- Whatever carries nothing out. -/
theorem Ciphered.silent (h : Ciphered c) (henc : c'.encrypted = c.encrypted)
    (hctr : c'.sendCtr = c.sendCtr)
    (hkeys : c.encrypted = true → ∀ keys, c.keys = some keys → ∃ keys', c'.keys = some keys' ∧
      keys'.controlOut = keys.controlOut ∧ keys'.controlIn = keys.controlIn)
    {es : List Entry} (hlog : c'.log = es ++ c.log) (hes : ∀ e ∈ es, e.transmits = false) :
    Ciphered c' := by
  have hquiet (e : Entry) (he : e ∈ es) := transmits_false (hes e he)
  have hsession : sessionOf c'.log = es ++ sessionOf c.log := by
    rw [hlog, sessionOf_append fun e he => (hquiet e he).1]
  have hsince : sinceSwitch c'.log = es ++ sinceSwitch c.log := by
    rw [hlog, sinceSwitch_append fun e he => ⟨(hquiet e he).1, (hquiet e he).2.1⟩]
  have hpieces : pieces c'.log = pieces c.log := by
    rw [pieces, hsince, texts, shown_append_none fun e he => (hquiet e he).2.2.1]
    rfl
  have hwrites : writes (sinceSwitch c'.log) = writes (sinceSwitch c.log) := by
    rw [hsince, writes, shown_append_none fun e he => (hquiet e he).2.2.2.1]
    rfl
  have hseals : seals .control (sinceSwitch c'.log) = seals .control (sinceSwitch c.log) := by
    rw [hsince, seals, shown_append_none fun e he => (hquiet e he).2.2.2.2]
    rfl
  refine ⟨fun hoff e he => ?_, fun hon => ?_⟩
  · rw [hsession] at he
    rcases List.mem_append.mp he with he | he
    · exact ⟨(hquiet e he).2.1, (hquiet e he).2.2.2.2⟩
    · exact h.plain (henc.symm.trans hoff) e he
  · have hon : c.encrypted = true := henc.symm.trans hon
    obtain ⟨keys, leftover, before, hold, hsplit, hbefore, hby, hcount⟩ := h.framed hon
    obtain ⟨keys', hnew, hout, hin⟩ := hkeys hon keys hold
    refine ⟨keys', leftover, before, hnew, ?_, hbefore, ⟨?_, ?_⟩, ?_⟩
    · rw [hsession, hsince, hout, hin, List.append_assoc, ← hsplit]
    · rw [hwrites, hpieces, hout, hby.written]
    · rw [hseals, hpieces, hout, hby.nonced]
    · rw [hctr, hpieces, hcount]

/-- A move keeps the channel framed. -/
theorem Ciphered.move (h : Ciphered c) (hm : Transmits c c') : Ciphered c' := by
  cases hm with
  | restart => exact .restart
  | switch keys leftover henc henc' hkeys hctr hlog => exact h.switch henc henc' hkeys hctr hlog
  | request method isHttp text => exact h.request method isHttp text
  | silent henc hctr hkeys es hlog hes => exact h.silent henc hctr hkeys hlog hes

theorem Ciphered.step (hflow : Flow c) (h : Ciphered c) (hs : Step k c c') : Ciphered c' :=
  Prog.moves_keep (fun _ _ hm hc => hc.move hm) (hs.transmits hflow) h

variable {w : World}

theorem Reachable.ciphered (h : Reachable w) : Ciphered (coreOf w) :=
  h.induct .init fun hflow hs hf => hf.step hflow hs

/-- The one switch of a session, and what came before and after it. -/
theorem Ciphered.of_mem (h : Ciphered c) {out inn leftover : Octets}
    (hmem : .switched out inn leftover ∈ sessionOf c.log) :
    c.encrypted = true ∧ ∃ keys before, c.keys = some keys ∧ keys.controlOut = out ∧
      keys.controlIn = inn ∧
      sessionOf c.log = sinceSwitch c.log ++ .switched out inn leftover :: before ∧
      (∀ e ∈ before, e.isSwitched = false ∧ e.seal? .control = none) ∧ FramedBy out c.log := by
  have henc : c.encrypted = true := by
    by_contra hoff
    have hnone := (h.plain (by simpa using hoff) _ hmem).1
    cases hnone
  obtain ⟨keys, left, before, hkeys, hsplit, hbefore, hby, -⟩ := h.framed henc
  have heq : (Entry.switched out inn leftover) = .switched keys.controlOut keys.controlIn left := by
    rw [hsplit] at hmem
    rcases List.mem_append.mp hmem with hin | hin
    · have hno := List.mem_takeWhile_imp hin
      cases hno
    rcases List.mem_cons.mp hin with heq | hin
    · exact heq
    · have hno := (hbefore _ hin).1
      cases hno
  obtain ⟨rfl, rfl, rfl⟩ := Entry.switched.inj heq
  exact ⟨henc, keys, before, hkeys, rfl, rfl, hsplit, hbefore, hby⟩

/-- A receiver that counts frames from 0 makes these messages of the octets behind a switch, however
they arrive in pieces, from the first octet to the last and with nothing left over. -/
def Readable (key : Octets) (bytes : Octets) (messages : List Octets) : Prop :=
  ∀ (pieces : List Octets) (r : World), pieces.flatten = bytes → r.s.rtspEncBuf = [] →
    r.s.ctrlRecvCtr = 0 → ∃ r', readChunks key pieces r = some r' ∧ r'.s.rtspEncBuf = [] ∧
      r'.s.rxBuf = r.s.rxBuf ++ messages.flatten

omit [Primitives] in
/-- What an `int` measures is whole. -/
theorem map_intPrefix {messages : List Octets} (h : ∀ m ∈ messages, m.length < 2 ^ 31) :
    messages.map intPrefix = messages :=
  (List.map_congr_left fun m hm => intPrefix_of_lt (h m hm)).trans (List.map_id _)

/-- **The frames of some requests are read as these requests**, if an `int` measures each. -/
theorem readable_framesOf (hopens : OpensSealed) {key : Octets} (hkey : key.length = 32)
    {messages : List Octets} (hmeasured : ∀ m ∈ messages, m.length < 2 ^ 31) :
    Readable key (framesOf key 0 (messages.flatMap chunks)).flatten messages := by
  intro pieces r hcut hbuf hctr
  have hpieces : ∀ pt ∈ messages.flatMap chunks, pt.length < 2 ^ 16 := by
    intro pt hpt
    obtain ⟨m, -, hpt⟩ := List.mem_flatMap.mp hpt
    exact (mem_chunksOf hpt).2.trans_lt (by norm_num)
  have hne : ∀ e ∈ framesOf key 0 (messages.flatMap chunks), e ≠ [] := by
    intro e he
    obtain ⟨pt, c, -, rfl⟩ := mem_framesOf he
    exact List.ne_nil_of_length_pos (by rw [length_frame]; omega)
  obtain ⟨hwhole, hpart⟩ := Cut.part_zero hne
  have hstart : Reads key 0 (messages.flatMap chunks) r.s.rxBuf 0 r :=
    ⟨by rw [hbuf, hpart], by rw [hwhole, hctr]; rfl, by rw [hwhole]; simp⟩
  obtain ⟨r', hread, hend⟩ := hstart.chunks hopens hkey hpieces pieces (by rw [hcut]; rfl)
  rw [Nat.zero_add, hcut] at hend
  have hall := Cut.wholes_all (le_refl (framesOf key 0 (messages.flatMap chunks)).flatten.length)
  refine ⟨r', hread, ?_, ?_⟩
  · rw [hend.encBuf, Cut.part_nil (by rw [hall, List.getElem?_eq_none le_rfl])]
  · rw [hend.rxBuf, hall, length_framesOf, List.take_length, flatten_flatMap_chunks,
      map_intPrefix hmeasured]

/-- **Behind the switch there are only frames.**  In every reachable world nothing of the session
was sealed for the control channel before it was switched; since then the pieces of the session's
requests are, the `k`-th under the new key with nonce `k`, and its length with it; every octet
written belongs to these frames, in order; and where no request has 2^31 octets, whoever reads them
with that key has exactly the requests. -/
theorem control_framed (hopens : OpensSealed) (h : Reachable w) {out inn leftover : Octets}
    (hmem : .switched out inn leftover ∈ w.session) :
    ∃ before, w.session = sinceSwitch w.log ++ .switched out inn leftover :: before ∧
      seals .control before = [] ∧
      seals .control (sinceSwitch w.log) = placed (frameSeal out) 0 ((pieces w.log).map some) ∧
      (∀ pt ∈ pieces w.log, 1 ≤ pt.length ∧ pt.length ≤ 1024) ∧
      (writes (sinceSwitch w.log)).flatten = (framesOf out 0 (pieces w.log)).flatten ∧
      ((∀ m ∈ texts (sinceSwitch w.log), m.length < 2 ^ 31) →
        (pieces w.log).flatten = (texts (sinceSwitch w.log)).flatten ∧
        Readable out (writes (sinceSwitch w.log)).flatten (texts (sinceSwitch w.log))) := by
  obtain ⟨henc, keys, before, hkeys, rfl, -, hsplit, hbefore, hby⟩ := h.ciphered.of_mem hmem
  obtain ⟨-, keys', hkeys', hlen, -⟩ := h.flow.encrypted henc
  obtain rfl : keys = keys' := Option.some.inj (hkeys.symm.trans hkeys')
  have hlog : w.log = (coreOf w).log := rfl
  refine ⟨before, hsplit, seals_nil fun e he => (hbefore e he).2, hby.nonced, fun pt hpt => ?_,
    hby.written, fun hmeasured => ⟨?_, ?_⟩⟩
  · obtain ⟨m, -, hm⟩ := List.mem_flatMap.mp hpt
    exact mem_chunksOf hm
  · rw [pieces, flatten_flatMap_chunks, map_intPrefix hmeasured]
  · rw [hlog, hby.written]
    exact readable_framesOf hopens hlen hmeasured

end Control

/-- A stream: the requests of its setup and its first volume went out in five frames. -/
theorem control_framed_stream : ∃ out inn leftover before,
    (worldAfter streamingActions).session = sinceSwitch (worldAfter streamingActions).log ++
      .switched out inn leftover :: before ∧
    (seals .control (sinceSwitch (worldAfter streamingActions).log)).length = 5 ∧
    @Readable trusting out (writes (sinceSwitch (worldAfter streamingActions).log)).flatten
      (texts (sinceSwitch (worldAfter streamingActions).log)) := by
  obtain ⟨hswitched, hfive, hmeasured⟩ :
      (worldAfter streamingActions).session.any Entry.isSwitched = true ∧
      (seals .control (sinceSwitch (worldAfter streamingActions).log)).length = 5 ∧
      ∀ m ∈ texts (sinceSwitch (worldAfter streamingActions).log), m.length < 2 ^ 31 := by
    decide +kernel
  obtain ⟨e, hmem, he⟩ := List.any_eq_true.mp hswitched
  cases e with
  | switched out inn leftover =>
    obtain ⟨before, hsplit, -, -, -, -, hread⟩ :=
      @control_framed trusting _ opensSealed_transparent (worldAfter_reachable _) _ _ _ hmem
    exact ⟨out, inn, leftover, before, hsplit, hfive, (hread hmeasured).2⟩
  | _ => cases he

/-! ## 3. The event channel -/

/-- An answer on the event channel, its encryption or its loss. -/
def Entry.replies : Entry → Bool
  | .tcpSend .event _ => true
  | .sealed .event _ _ _ _ => true
  | .answerLost => true
  | _ => false

/-- What an event request is answered: nothing, if the answer is lost. -/
def Entry.answer? : Entry → Option (Option Octets)
  | .sealed .event _ _ _ pt => some (some pt)
  | .answerLost => some none
  | _ => none

/-- What the event requests of a session were answered, in their order. -/
def answers (log : List Entry) : List (Option Octets) := shown Entry.answer? log

theorem replies_false {e : Entry} (h : e.replies = false) :
    e.answer? = none ∧ eventSent e = none ∧ e.seal? .event = none := by
  cases e with
  | answerLost => cases h
  | tcpSend ch bytes =>
    cases ch with
    | event => cases h
    | control => exact ⟨rfl, rfl, rfl⟩
  | «sealed» site =>
    cases site with
    | event => cases h
    | _ => exact ⟨rfl, rfl, rfl⟩
  | _ => exact ⟨rfl, rfl, rfl⟩

section Events

variable [Primitives] {k : Level} {c c' : Core}

/-- The entries of what an event request is answered. -/
def replyEntries (key : Octets) (ctr : UInt64) : Option Octets → List Entry
  | some resp => [.tcpSend .event (frame key ctr resp),
      .sealed .event key (counterNonce8 ctr) (leBytes 2 resp.length) resp]
  | none => [.answerLost]

/-- **A move begins a session, answers one event or loses its answer, or answers nothing.** -/
theorem Conducts.replies (hm : Conducts c c') : c' = c.fresh ∨
    (c'.eventSendCtr = c.eventSendCtr ∧ ∃ es, c'.log = es ++ c.log ∧
      ∀ e ∈ es, e.isStarted = false ∧ e.replies = false) ∨
    ∃ keys answer, c.keys = some keys ∧ keys.eventOut.length = 32 ∧ c'.keys = c.keys ∧
      c'.stage = c.stage ∧ c'.eventSendCtr = c.eventSendCtr + 1 ∧
      c'.log = replyEntries keys.eventOut c.eventSendCtr answer ++ c.log := by
  cases hm with
  | restart => exact .inl rfl
  | answerEvent keys total resp hkeys hout =>
    exact .inr (.inr ⟨keys, some resp, hkeys, hout, rfl, rfl, rfl, rfl⟩)
  | loseAnswer keys total hkeys hout =>
    exact .inr (.inr ⟨keys, none, hkeys, hout, rfl, rfl, rfl, rfl⟩)
  | receiveSealed keys bytes =>
    refine .inr (.inl ⟨rfl, _, rfl, fun e he => ?_⟩)
    rcases mem_receiveEntries he with ⟨_, _, rfl⟩ | rfl <;> exact ⟨rfl, rfl⟩
  | receiveBroken keys bytes =>
    refine .inr (.inl ⟨rfl, .ending _ _ _ :: c.receiveEntries keys.controlIn bytes, rfl, fun e he => ?_⟩)
    rcases List.mem_cons.mp he with rfl | he
    · exact ⟨rfl, rfl⟩
    · rcases mem_receiveEntries he with ⟨_, _, rfl⟩ | rfl <;> exact ⟨rfl, rfl⟩
  | receiveEvent keys bytes =>
    refine .inr (.inl ⟨rfl, _, rfl, fun e he => ?_⟩)
    rcases mem_eventReadEntries he with rfl | ⟨_, _, rfl⟩ | rfl <;> exact ⟨rfl, rfl⟩
  | receivePlain =>
    exact .inr (.inl ⟨rfl, [_, _], rfl, by simp [Entry.isStarted, Entry.replies]⟩)
  | switch | take | sealAudio =>
    exact .inr (.inl ⟨rfl, [_], rfl, by simp [Entry.isStarted, Entry.replies]⟩)
  | silent hstill es hlog hes =>
    refine .inr (.inl ⟨hstill.eventSendCtr, es, hlog, fun e he => ⟨(hes e he).1, ?_⟩⟩)
    have hno := (hes e he).2
    cases e with
    | answerLost => cases hno
    | tcpSend ch =>
      cases ch with
      | event => cases hno
      | control => rfl
    | «sealed» site =>
      cases site with
      | event => cases hno
      | _ => rfl
    | _ => rfl

/-- The answers of the session: none before its keys are agreed, and then one frame for each that is
not lost, under the counter of its request. -/
structure Replying (c : Core) : Prop where
  unkeyed : ¬ c.stage.agreed → ∀ keys, c.keys = some keys → keys.eventOut = []
  unused : c.keys = none ∨ ¬ c.stage.agreed → ∀ e ∈ sessionOf c.log, e.replies = false
  counted : c.eventSendCtr = UInt64.ofNat (answers (sessionOf c.log)).length
  framed : ∀ keys, c.keys = some keys →
    seals .event (sessionOf c.log) =
      placed (frameSeal keys.eventOut) 0 (answers (sessionOf c.log)) ∧
    shown eventSent (sessionOf c.log) = placed (frame keys.eventOut) 0 (answers (sessionOf c.log))

/-- Where nothing was answered the frames are under any key. -/
theorem framed_unused {log : List Entry} (h : ∀ e ∈ log, e.replies = false) (key : Octets) :
    seals .event log = placed (frameSeal key) 0 (answers log) ∧
      shown eventSent log = placed (frame key) 0 (answers log) := by
  have hanswers : answers log = [] := by
    rw [answers, shown, List.filterMap_eq_nil_iff.mpr fun e he => (replies_false (h e he)).1]
    rfl
  have hsent : shown eventSent log = [] := by
    rw [shown, List.filterMap_eq_nil_iff.mpr fun e he => (replies_false (h e he)).2.1]
    rfl
  have hseals : seals .event log = [] := seals_nil fun e he => (replies_false (h e he)).2.2
  rw [hanswers, hsent, hseals]
  exact ⟨rfl, rfl⟩

theorem Replying.init : Replying {} := by
  constructor
  · simp
  · simp
  · rfl
  · simp

theorem Replying.restart : Replying c.fresh := by
  have hnil : sessionOf c.fresh.log = [] := sessionOf_started _ _ _ _
  refine ⟨fun _ keys hkeys => ?_, fun _ e he => ?_, ?_, fun keys hkeys => ?_⟩
  · cases hkeys
  · rw [hnil] at he
    cases he
  · rw [hnil]
    rfl
  · cases hkeys

theorem Replying.silent (h : Replying c) (hs : Step k c c')
    (hctr : c'.eventSendCtr = c.eventSendCtr) {es : List Entry} (hlog : c'.log = es ++ c.log)
    (hes : ∀ e ∈ es, e.isStarted = false ∧ e.replies = false) : Replying c' := by
  have hsession : sessionOf c'.log = es ++ sessionOf c.log := by
    rw [hlog, sessionOf_append fun e he => (hes e he).1]
  have hfresh : c' ≠ c.fresh := Core.ne_fresh hlog fun e he => (hes e he).1
  have hanswers : answers (sessionOf c'.log) = answers (sessionOf c.log) := by
    rw [hsession, answers, shown_append_none fun e he => (replies_false (hes e he).2).1]
    rfl
  have hsent : shown eventSent (sessionOf c'.log) = shown eventSent (sessionOf c.log) := by
    rw [hsession, shown_append_none fun e he => (replies_false (hes e he).2).2.1]
  have hseals : seals .event (sessionOf c'.log) = seals .event (sessionOf c.log) := by
    rw [hsession, seals, shown_append_none fun e he => (replies_false (hes e he).2).2.2]
    rfl
  refine ⟨fun hno keys hkeys => ?_, fun hnone e he => ?_, ?_, fun keys hkeys => ?_⟩
  · have hold := (hs.not_agreed hno).resolve_left hfresh
    rcases hs.event_keys hkeys with ⟨old, holdKeys, hout, -⟩ | ⟨-, hagreed | ⟨hout, -⟩⟩
    · rw [hout]
      exact h.unkeyed hold old holdKeys
    · exact absurd hagreed hno
    · exact hout
  · rw [hsession] at he
    rcases List.mem_append.mp he with he | he
    · exact (hes e he).2
    refine h.unused ?_ e he
    rcases hnone with hnone | hno
    · exact .inl ((hs.keys_none hnone).resolve_left hfresh)
    · exact .inr ((hs.not_agreed hno).resolve_left hfresh)
  · rw [hanswers, hctr]
    exact h.counted
  · rw [hanswers, hsent, hseals]
    rcases hs.event_keys hkeys with ⟨old, hold, hout, -⟩ | ⟨hno, -⟩
    · rw [hout]
      exact h.framed old hold
    · exact framed_unused (h.unused (.inr hno)) keys.eventOut

/-- What the entries of an answer show. -/
theorem shown_replyEntries (key : Octets) (ctr : UInt64) (answer : Option Octets)
    (log : List Entry) :
    answers (replyEntries key ctr answer ++ log) = answers log ++ [answer] ∧
      shown eventSent (replyEntries key ctr answer ++ log) =
        shown eventSent log ++ placed (frame key) ctr [answer] ∧
      seals .event (replyEntries key ctr answer ++ log) =
        seals .event log ++ placed (frameSeal key) ctr [answer] := by
  cases answer with
  | some resp => exact ⟨by rw [answers, shown_append]; rfl, by rw [shown_append]; rfl,
      by rw [seals, shown_append]; rfl⟩
  | none => exact ⟨by rw [answers, shown_append]; rfl, by rw [shown_append]; rfl,
      by rw [seals, shown_append]; rfl⟩

theorem Replying.answer (h : Replying c) {keys : Keys} {answer : Option Octets}
    (hkeys : c.keys = some keys) (hlen : keys.eventOut.length = 32) (hsame : c'.keys = c.keys)
    (hstage : c'.stage = c.stage) (hctr : c'.eventSendCtr = c.eventSendCtr + 1)
    (hlog : c'.log = replyEntries keys.eventOut c.eventSendCtr answer ++ c.log) : Replying c' := by
  have hsession : sessionOf c'.log =
      replyEntries keys.eventOut c.eventSendCtr answer ++ sessionOf c.log := by
    rw [hlog, sessionOf_append]
    intro e he
    cases answer with
    | some resp =>
      simp only [replyEntries, List.mem_cons, List.not_mem_nil, or_false] at he
      rcases he with rfl | rfl <;> rfl
    | none =>
      rw [List.mem_singleton.mp he]
      rfl
  obtain ⟨hanswers, hsent, hseals⟩ :=
    shown_replyEntries keys.eventOut c.eventSendCtr answer (sessionOf c.log)
  rw [← hsession] at hanswers hsent hseals
  have hagreed : c.stage.agreed := by
    by_contra hno
    rw [h.unkeyed hno keys hkeys] at hlen
    cases hlen
  refine ⟨fun hno => ?_, fun hnone => ?_, ?_, fun keys' hkeys' => ?_⟩
  · rw [hstage] at hno
    exact absurd hagreed hno
  · rw [hsame, hkeys, hstage] at hnone
    rcases hnone with hnone | hno
    · cases hnone
    · exact absurd hagreed hno
  · rw [hctr, hanswers, h.counted, List.length_append, UInt64.ofNat_add]
    rfl
  · obtain rfl : keys = keys' := Option.some.inj (hkeys.symm.trans (hsame.symm.trans hkeys'))
    obtain ⟨hnonced, hframes⟩ := h.framed keys hkeys
    rw [hseals, hsent, hanswers, hnonced, hframes, h.counted, Counted.placed_append,
      Counted.placed_append, UInt64.zero_add]
    exact ⟨rfl, rfl⟩

theorem Replying.step (h : Replying c) (hs : Step k c c') : Replying c' := by
  rcases hs.conducts.replies with rfl | ⟨hctr, es, hlog, hes⟩ |
    ⟨keys, answer, hkeys, hlen, hsame, hstage, hctr, hlog⟩
  · exact .restart
  · exact h.silent hs hctr hlog hes
  · exact h.answer hkeys hlen hsame hstage hctr hlog

end Events

/-! ## 4. The stream -/

section Stream

variable [Primitives] {k : Level} {c c' : Core} {w : World}

/-- **A move begins a session, seals one packet, or seals none.** -/
theorem Conducts.audio (hm : Conducts c c') : c' = c.fresh ∨
    ((c'.audioMeter = c.audioMeter ∨ (c.stage ≠ .ap2Stream ∧
        (c'.audioMeter = none ∨ ∃ key, c'.audioMeter = some (key, 0)))) ∧
      ∃ es, c'.log = es ++ c.log ∧ ∀ e ∈ es, e.isStarted = false ∧ e.seal? .audio = none) ∨
    ∃ key ctr aad pt, c.audioMeter = some (key, ctr) ∧ c'.audioMeter = some (key, ctr + 1) ∧
      c'.log = .sealed .audio key (counterNonce8 ctr) aad pt :: c.log := by
  cases hm with
  | restart => exact .inl rfl
  | sealAudio keys aad pt hkeys haudio =>
    refine .inr (.inr ⟨keys.audioKey, keys.audioNonce, aad, pt, ?_, ?_, rfl⟩)
    · simp [Core.audioMeter, hkeys, haudio]
    · simp [Core.audioMeter, haudio]
  | receiveSealed keys bytes =>
    refine .inr (.inl ⟨.inl rfl, _, rfl, fun e he => ?_⟩)
    rcases mem_receiveEntries he with ⟨_, _, rfl⟩ | rfl <;> exact ⟨rfl, rfl⟩
  | receiveBroken keys bytes =>
    refine .inr (.inl ⟨.inl rfl, .ending _ _ _ :: c.receiveEntries keys.controlIn bytes, rfl,
      fun e he => ?_⟩)
    rcases List.mem_cons.mp he with rfl | he
    · exact ⟨rfl, rfl⟩
    · rcases mem_receiveEntries he with ⟨_, _, rfl⟩ | rfl <;> exact ⟨rfl, rfl⟩
  | receiveEvent keys bytes =>
    refine .inr (.inl ⟨.inl rfl, _, rfl, fun e he => ?_⟩)
    rcases mem_eventReadEntries he with rfl | ⟨_, _, rfl⟩ | rfl <;> exact ⟨rfl, rfl⟩
  | receivePlain | answerEvent =>
    exact .inr (.inl ⟨.inl rfl, [_, _], rfl, by simp [Entry.isStarted, Entry.seal?]⟩)
  | switch | take | loseAnswer =>
    exact .inr (.inl ⟨.inl rfl, [_], rfl, by simp [Entry.isStarted, Entry.seal?]⟩)
  | silent hstill es hlog hes =>
    refine .inr (.inl ⟨hstill.audio, es, hlog, fun e he => ⟨(hes e he).1, ?_⟩⟩)
    have hno := (hes e he).2
    cases e with
    | «sealed» site =>
      cases site with
      | audio => cases hno
      | _ => rfl
    | _ => rfl

/-- The packets of the session: none sealed before it has an audio key, and then one for each nonce
so far. -/
structure Metered (c : Core) : Prop where
  off : c.audioMeter = none → uses .audio (sessionOf c.log) = []
  on : ∀ key ctr, c.audioMeter = some (key, ctr) →
    uses .audio (sessionOf c.log) = nonces key (uses .audio (sessionOf c.log)).length ∧
      ctr = UInt64.ofNat (uses .audio (sessionOf c.log)).length

omit [Primitives] in
theorem Metered.empty (h : uses .audio (sessionOf c.log) = [])
    (hctr : ∀ key ctr, c.audioMeter = some (key, ctr) → ctr = 0) : Metered c := by
  refine ⟨fun _ => h, fun key ctr hmeter => ?_⟩
  rw [h, hctr key ctr hmeter]
  exact ⟨rfl, rfl⟩

omit [Primitives] in
/-- Only the stage of a stream has an audio key. -/
theorem Sized.audioMeter_none (h : Sized c) (hst : c.stage ≠ .ap2Stream) : c.audioMeter = none := by
  unfold Core.audioMeter
  cases hkeys : c.keys with
  | none => rfl
  | some keys =>
    rw [Option.bind_some, if_neg]
    exact fun hon => hst (h.audio keys hkeys hon).1

theorem Metered.step (hsized : Sized c) (h : Metered c) (hs : Step k c c') : Metered c' := by
  rcases hs.conducts.audio with rfl | ⟨hmeter, es, hlog, hes⟩ |
    ⟨key, ctr, aad, pt, hmeter, hmeter', hlog⟩
  · refine .empty ?_ fun key ctr hsome => by cases hsome
    rw [Core.fresh, sessionOf_started]
    rfl
  · have huses : uses .audio (sessionOf c'.log) = uses .audio (sessionOf c.log) := by
      rw [hlog, sessionOf_append fun e he => (hes e he).1, uses, seals,
        shown_append_none fun e he => (hes e he).2]
      rfl
    rcases hmeter with hmeter | ⟨hst, hmeter⟩
    · refine ⟨fun hnone => ?_, fun key ctr hsome => ?_⟩
      · rw [huses]
        exact h.off (hmeter ▸ hnone)
      · rw [huses]
        exact h.on key ctr (hmeter ▸ hsome)
    · refine .empty ?_ fun key ctr hsome => ?_
      · rw [huses]
        exact h.off (hsized.audioMeter_none hst)
      · rcases hmeter with hmeter | ⟨key', hmeter⟩
        · rw [hmeter] at hsome
          cases hsome
        · rw [hmeter] at hsome
          exact (congrArg Prod.snd (Option.some.inj hsome)).symm
  · obtain ⟨hnonced, hctr⟩ := h.on key ctr hmeter
    have huses : uses .audio (sessionOf c'.log) =
        uses .audio (sessionOf c.log) ++ [(key, counterNonce8 ctr)] := by
      rw [hlog, sessionOf_cons rfl, uses, seals, shown_cons_some (f := Entry.seal? .audio) rfl,
        List.map_append]
      rfl
    refine ⟨fun hnone => ?_, fun key' ctr' hsome => ?_⟩
    · rw [hmeter'] at hnone
      cases hnone
    · rw [hmeter'] at hsome
      obtain ⟨rfl, rfl⟩ := Prod.mk.inj (Option.some.inj hsome)
      rw [huses, List.length_append, nonces_add, UInt64.ofNat_add, ← hnonced, ← hctr]
      refine ⟨?_, rfl⟩
      simp [counters]

theorem Reachable.replying (h : Reachable w) : Replying (coreOf w) :=
  h.induct .init fun _ hs hr => hr.step hs

theorem Reachable.metered (h : Reachable w) : Metered (coreOf w) := by
  have hboth : Sized (coreOf w) ∧ Metered (coreOf w) :=
    h.induct (I := fun c => Sized c ∧ Metered c) ⟨.init, .empty rfl fun key ctr hsome => by cases hsome⟩
      fun _ hs hi => ⟨hi.1.step hs, hi.2.step hi.1 hs⟩
  exact hboth.2

/-- Requests are sealed under one key, and counted. -/
theorem Reachable.control_counted (h : Reachable w) :
    ∃ key, uses .control w.session = nonces key (uses .control w.session).length := by
  have hciphered := h.ciphered
  cases henc : (coreOf w).encrypted with
  | false =>
    have hnil : seals .control w.session = [] := seals_nil fun e he => (hciphered.plain henc e he).2
    exact ⟨[], by rw [uses, hnil]; rfl⟩
  | true =>
    obtain ⟨keys, leftover, before, -, hsplit, hbefore, hby, -⟩ := hciphered.framed henc
    have hnil : seals .control before = [] := seals_nil fun e he => (hbefore e he).2
    have hall : uses .control w.session = nonces keys.controlOut (pieces (coreOf w).log).length := by
      have hsession : w.session = sessionOf (coreOf w).log := rfl
      rw [hsession, hsplit, uses, seals, shown_append,
        shown_cons_none (f := Entry.seal? .control) rfl, ← seals, ← seals, hnil, hby.nonced,
        List.nil_append, uses_frameSeals]
    exact ⟨keys.controlOut, by rw [hall, length_nonces]⟩

/-- Answers are sealed under one key, each under the counter of its request. -/
theorem Reachable.event_counted (h : Reachable w) :
    ∃ key, seals .event w.session = placed (frameSeal key) 0 (answers w.session) ∧
      shown eventSent w.session = placed (frame key) 0 (answers w.session) := by
  have hreplying := h.replying
  cases hkeys : (coreOf w).keys with
  | none => exact ⟨[], framed_unused (hreplying.unused (.inl hkeys)) []⟩
  | some keys => exact ⟨keys.eventOut, hreplying.framed keys hkeys⟩

/-- Packets are sealed under the key the receiver was offered, and counted. -/
theorem Reachable.audio_counted (h : Reachable w) :
    ∃ key, uses .audio w.session = nonces key (uses .audio w.session).length ∧
      (uses .audio w.session ≠ [] → Offered w.log key) := by
  cases hmeter : (coreOf w).audioMeter with
  | none =>
    have hnil : uses .audio w.session = [] := h.metered.off hmeter
    exact ⟨[], by rw [hnil]; rfl, fun hne => absurd hnil hne⟩
  | some meter =>
    obtain ⟨key, ctr⟩ := meter
    refine ⟨key, (h.metered.on key ctr hmeter).1, fun _ => ?_⟩
    obtain ⟨keys, hkeys, hon⟩ := Option.bind_eq_some_iff.mp hmeter
    split at hon
    · rename_i haudio
      obtain ⟨rfl, -⟩ := Prod.mk.inj (Option.some.inj hon)
      exact (h.sized.audio keys hkeys haudio).2.2
    · cases hon

/-- **Every nonce once.**  In every reachable world the `k`-th encryption of the session for the
control channel and for audio takes nonce `k`, each under one key, audio under the key the receiver
was offered.  On the event channel the answer to the `k`-th request takes nonce `k`, in one frame; an
answer that is lost leaves its nonce unused.  So before a counter has wrapped no two encryptions on a
channel share key and nonce. -/
theorem nonces_counted (h : Reachable w) :
    (∃ key, uses .control w.session = nonces key (uses .control w.session).length) ∧
    (∃ key, seals .event w.session = placed (frameSeal key) 0 (answers w.session) ∧
      shown eventSent w.session = placed (frame key) 0 (answers w.session)) ∧
    (∃ key, uses .audio w.session = nonces key (uses .audio w.session).length ∧
      (uses .audio w.session ≠ [] → Offered w.log key)) ∧
    ((uses .control w.session).length ≤ 2 ^ 64 → (uses .control w.session).Nodup) ∧
    ((answers w.session).length ≤ 2 ^ 64 → (uses .event w.session).Nodup) ∧
    ((uses .audio w.session).length ≤ 2 ^ 64 → (uses .audio w.session).Nodup) := by
  refine ⟨h.control_counted, h.event_counted, h.audio_counted, fun hlen => ?_, fun hlen => ?_,
    fun hlen => ?_⟩
  · obtain ⟨key, hnonced⟩ := h.control_counted
    rw [hnonced]
    exact nodup_nonces key hlen
  · -- the answers that were not lost have some of the nonces
    obtain ⟨key, hnonced, -⟩ := h.event_counted
    have huse : (fun (i : UInt64) (pt : Octets) => (frameSeal key i pt).use) =
        fun i _ => (key, counterNonce8 i) := rfl
    have hsome := Counted.placed_sublist (fun i => (key, counterNonce8 i)) (answers w.session) 0
    simp only [UInt64.zero_add] at hsome
    rw [uses, hnonced, Counted.map_placed, huse]
    exact (nodup_nonces key hlen).sublist hsome
  · obtain ⟨key, hnonced, -⟩ := h.audio_counted
    rw [hnonced]
    exact nodup_nonces key hlen

end Stream

/-- A stream on AirPlay 2 behind its first tick: five frames and six packets, all with their own
nonces. -/
theorem nonces_counted_ticked :
    (uses .control tickedStream.session).length = 5 ∧ (uses .control tickedStream.session).Nodup ∧
      (uses .audio tickedStream.session).length = 6 ∧ (uses .audio tickedStream.session).Nodup := by
  obtain ⟨-, -, -, hcontrol, -, haudio⟩ := @nonces_counted trusting _ (worldIn_reachable 0 .running _)
  obtain ⟨hfive, hsix⟩ : (uses .control tickedStream.session).length = 5 ∧
      (uses .audio tickedStream.session).length = 6 := by decide +kernel
  refine ⟨hfive, hcontrol ?_, hsix, haudio ?_⟩
  · exact hfive.le.trans (by norm_num)
  · exact hsix.le.trans (by norm_num)

end AirplaySender
