/-
# Requests and their responses

The control channel is a pipeline: requests are numbered and queued when they are written, and a
response is routed by the head of the queue.  The conservation law is `Routed.queue`: the requests
of a session are the dispatched ones followed by the pending ones, in order.

Restarting the session from inside a callback, the pairing posts, the keep-alive and everything
the application calls come down to the same moves of the queue (`Step.routing`), so nothing here
depends on which handler asked for a request.

Both the length of a write and the number of a request are `int`s of the source: a request is
written whole below 2^31 octets (`Written`) and the k-th carries CSeq k for k below 2^31, and at
either bound it no longer is so (`titled_cut`, `louder_wraps`).
-/
import AirplaySender.Lib.Trace
import AirplaySender.Arrivals

namespace AirplaySender

open Octets Prog Trace

/-! ## 1. What the trace shows of the control channel -/

/-- The method and the kind of a request. -/
def Entry.request? : Entry → Option (Octets × Bool)
  | .requested _ method isHttp _ => some (method, isHttp)
  | _ => none

/-- The text of a request. -/
def Entry.text? : Entry → Option Octets
  | .requested _ _ _ text => some text
  | _ => none

/-- Octets written to the control connection. -/
def Entry.write? : Entry → Option Octets
  | .tcpSend .control bytes => some bytes
  | _ => none

/-- What a response was dispatched with. -/
def Entry.dispatch? : Entry → Option (Octets × Bool)
  | .dispatched _ method isHttp _ _ _ => some (method, isHttp)
  | _ => none

/-- A response that was taken off the receive buffer, with or without a request to go with. -/
def Entry.response? : Entry → Option Unit
  | .dispatched .. => some ()
  | .unexpected => some ()
  | _ => none

/-- The requests of a session, oldest first. -/
def requests (session : List Entry) : List (Octets × Bool) := shown Entry.request? session

/-- The texts of its requests. -/
def texts (session : List Entry) : List Octets := shown Entry.text? session

/-- What it wrote to the control connection. -/
def writes (session : List Entry) : List Octets := shown Entry.write? session

/-- What its responses were dispatched with. -/
def dispatches (session : List Entry) : List (Octets × Bool) := shown Entry.dispatch? session

/-- Its responses. -/
def responses (session : List Entry) : List Unit := shown Entry.response? session

/-- An entry none of the observers above sees, inside one session. -/
def Entry.routes : Entry → Bool
  | .started .. => true
  | .requested .. => true
  | .tcpSend .control _ => true
  | .dispatched .. => true
  | .unexpected => true
  | _ => false

section Written

variable [Primitives]

/-- Octets that carry a text from its first octet to its last: the text itself, or the frames of
pieces it falls into. -/
def Carries (text bytes : Octets) : Prop :=
  bytes = text ∨ ∃ key ctr pts, bytes = frames key ctr pts ∧ pts.flatten = text ∧
    ∀ pt ∈ pts, 1 ≤ pt.length ∧ pt.length ≤ 1024

/-- What is written for a text that an `int` measures. -/
def Written (text bytes : Octets) : Prop := text.length < 2 ^ 31 → Carries text bytes

/-- The `k`-th request has number `k`, as far as an `int` counts, the `k`-th write carries its text,
and the `k`-th response that finds a request is dispatched with its method and kind. -/
def Numbered : Entry → List Entry → Prop
  | .requested cseq method _ text, older =>
    ((requests (sessionOf older)).length < 2 ^ 31 →
      cseq = (requests (sessionOf older)).length) ∧ IsRequest method cseq text
  | .tcpSend .control bytes, older =>
    ∃ text, (texts (sessionOf older))[(writes (sessionOf older)).length]? = some text ∧
      Written text bytes
  | .dispatched _ method isHttp _ _ _, older =>
    (requests (sessionOf older))[(dispatches (sessionOf older)).length]? = some (method, isHttp)
  | _, _ => True

end Written

/-- The receiver never gets ahead: a response comes when more requests than responses came before
it in the session. -/
def Punctual : List Entry → Prop :=
  Always fun e older => e.response?.isSome →
    (responses (sessionOf older)).length < (requests (sessionOf older)).length

instance (log : List Entry) : Decidable (Punctual log) :=
  inferInstanceAs (Decidable (Always _ log))

/-- The `k`-th response is dispatched, with the method and the kind of the `k`-th request. -/
def Answered : Entry → List Entry → Prop
  | .unexpected, _ => False
  | .dispatched _ method isHttp _ _ _, older =>
    (requests (sessionOf older))[(responses (sessionOf older)).length]? = some (method, isHttp)
  | _, _ => True

/-! ## 2. What a step does to the queue -/

section Queue

variable [Primitives] {k : Level} {c c' : Core}

/-- The moves of the queue: a new session, a request, a response, and whatever leaves the queue and
the count alone and adds entries that route nothing. -/
inductive Routes (c : Core) : Core → Prop
  | restart : Routes c c.fresh
  | request (method : Octets) (isHttp : Bool) (text : Octets)
      (htext : IsRequest method c.cseq text) : Routes c (c.request method isHttp text)
  | dispatch (live : Bool) (method : Octets) (methods : List Octets) (status : Octets)
      (headers : Headers) (body : Octets) (hm : c.methods = method :: methods) :
      Routes c { c with
        methods := methods, kinds := c.kinds.tail
        log := .dispatched live method (c.kinds.headD false) status headers body :: c.log }
  | unexpected (hm : c.methods = []) : Routes c { c with log := .unexpected :: c.log }
  | silent {c' : Core} (hcseq : c'.cseq = c.cseq) (hmethods : c'.methods = c.methods)
      (hkinds : c'.kinds = c.kinds) (es : List Entry) (hlog : c'.log = es ++ c.log)
      (hes : ∀ e ∈ es, e.routes = false) : Routes c c'

open Relation (ReflTransGen)

/-- **A step is a run of moves**: most are one, but a TEARDOWN and the stream SETUP come with what
goes before and behind them. -/
theorem Step.routing (h : Step k c c') : ReflTransGen Routes c c' := by
  have one {c c' : Core} {e : Entry} (hcseq : c'.cseq = c.cseq) (hmethods : c'.methods = c.methods)
      (hkinds : c'.kinds = c.kinds) (hlog : c'.log = e :: c.log) (he : e.routes = false) :
      Routes c c' :=
    .silent hcseq hmethods hkinds [e] hlog (by simpa using he)
  cases h with
  | restart => exact .single .restart
  | request _ method isHttp text _ _ htext => exact .single (.request method isHttp text htext)
  | dispatch _ method methods status headers body hm =>
    exact .single (.dispatch _ method methods status headers body hm)
  | unexpected _ hm => exact .single (.unexpected hm)
  | teardown _ text _ htext =>
    have hending : Routes c (c.ending true) := one rfl rfl rfl rfl rfl
    have hrewind (c : Core) : Routes c c.rewind := .silent rfl rfl rfl _ rfl fun e he => by
      rw [mem_rewindEntries he]
      rfl
    have hclosed (c : Core) : Routes c c.closed := one rfl rfl rfl rfl rfl
    exact (((ReflTransGen.single hending).tail (.request _ false text htext)).tail (hrewind _)).tail
      (hclosed _)
  | reask _ method text _ _ _ _ _ htext =>
    refine ReflTransGen.tail (.single ?_) (.request method false text htext)
    exact .silent rfl rfl rfl [] rfl (by simp)
  | setup _ stage method text _ _ _ _ _ _ _ htext =>
    refine ReflTransGen.tail (.single ?_) (.request method true text htext)
    exact one (e := .staged stage) rfl rfl rfl rfl rfl
  | stream _ keys text _ _ _ _ _ htext =>
    refine ReflTransGen.tail (.single ?_) (.request _ true text htext)
    exact one rfl rfl rfl rfl rfl
  | receivePlain | answerEvent | leave | typed | srpAgreed | setupM5 | verifyKeys =>
    exact .single (.silent rfl rfl rfl [_, _] rfl (by simp [Entry.routes]))
  | receiveSealed _ keys bytes =>
    refine .single (.silent rfl rfl rfl _ rfl fun e he => ?_)
    rcases mem_receiveEntries he with ⟨_, _, rfl⟩ | rfl <;> rfl
  | receiveBroken _ keys bytes =>
    have hreceive : Routes c (c.receive keys.controlIn bytes) := by
      refine .silent rfl rfl rfl _ rfl fun e he => ?_
      rcases mem_receiveEntries he with ⟨_, _, rfl⟩ | rfl <;> rfl
    exact (ReflTransGen.single hreceive).tail (one rfl rfl rfl rfl rfl)
  | receiveEvent _ keys bytes =>
    refine .single (.silent rfl rfl rfl _ rfl fun e he => ?_)
    rcases mem_eventReadEntries he with rfl | ⟨_, _, rfl⟩ | rfl <;> rfl
  | disconnect | lapse | retry | beginPairing | authSetupDone | verified | srpStart
  | forget | agreed | unretry =>
    exact .single (.silent rfl rfl rfl [] rfl (by simp))
  | _ => exact .single (one rfl rfl rfl rfl rfl)

end Queue

/-! ## 3. The conservation law -/

section Conservation

variable [Primitives] {k : Level} {c c' : Core}

/-- The queue is what is left of the requests when the dispatched ones are taken off, the counter
is their number, and each of them was written. -/
structure Routed (c : Core) : Prop where
  lockstep : c.methods.length = c.kinds.length
  counted : c.cseq = wrap32 (requests (sessionOf c.log)).length
  queue : requests (sessionOf c.log) = dispatches (sessionOf c.log) ++ c.methods.zip c.kinds
  written : List.Forall₂ Written (texts (sessionOf c.log)) (writes (sessionOf c.log))
  numbered : Always Numbered c.log

/-- What is sealed of a text an `int` measures is all of it. -/
theorem written_frames (key : Octets) (ctr : UInt64) (text : Octets) :
    Written text (frames key ctr (chunks text)) := by
  intro hlt
  refine .inr ⟨key, ctr, chunks text, rfl, ?_, fun pt => mem_chunksOf⟩
  rw [flatten_chunks, intPrefix_of_lt hlt]

/-- A write to the control channel: the seals of its frames, then the octets. -/
theorem Core.writeEntries_eq (c : Core) (text : Octets) :
    ∃ bytes seals, c.writeEntries text = .tcpSend .control bytes :: seals ∧ Written text bytes ∧
      ∀ e ∈ seals, e.routes = false := by
  unfold Core.writeEntries
  split
  · refine ⟨_, _, rfl, fun hlt => written_frames _ _ _ hlt, fun e he => ?_⟩
    obtain ⟨_, _, _, rfl⟩ := mem_frameSeals he
    rfl
  · exact ⟨text, [], rfl, fun _ => .inl rfl, by simp⟩

/-- Entries that route nothing are invisible to all four observers. -/
theorem routes_false {e : Entry} (h : e.routes = false) :
    e.isStarted = false ∧ e.request? = none ∧ e.text? = none ∧ e.write? = none ∧
      e.dispatch? = none ∧ e.response? = none ∧ ∀ older, Numbered e older := by
  cases e with
  | tcpSend ch bytes =>
    cases ch with
    | control => cases h
    | event => exact ⟨rfl, rfl, rfl, rfl, rfl, rfl, fun _ => trivial⟩
  | started | requested | dispatched | unexpected => cases h
  | _ => exact ⟨rfl, rfl, rfl, rfl, rfl, rfl, fun _ => trivial⟩

theorem Routed.init : Routed {} := ⟨rfl, rfl, rfl, .nil, trivial⟩

theorem Routed.restart (h : Routed c) : Routed c.fresh := by
  have hnil : sessionOf c.fresh.log = [] := sessionOf_started _ _ _ _
  refine ⟨rfl, ?_, ?_, ?_, trivial, h.numbered⟩
  · rw [hnil]; rfl
  · rw [hnil]; rfl
  · rw [hnil]; exact .nil

/-- What a request adds to what the session shows. -/
theorem Core.request_shows (c : Core) (method : Octets) (isHttp : Bool) (text : Octets) :
    ∃ bytes seals, c.writeEntries text = .tcpSend .control bytes :: seals ∧ Written text bytes ∧
      (∀ e ∈ seals, e.routes = false) ∧
      requests (sessionOf (c.request method isHttp text).log) =
        requests (sessionOf c.log) ++ [(method, isHttp)] ∧
      texts (sessionOf (c.request method isHttp text).log) = texts (sessionOf c.log) ++ [text] ∧
      writes (sessionOf (c.request method isHttp text).log) = writes (sessionOf c.log) ++ [bytes] ∧
      dispatches (sessionOf (c.request method isHttp text).log) = dispatches (sessionOf c.log) := by
  obtain ⟨bytes, seals, hwrite, hcarries, hseals⟩ := c.writeEntries_eq text
  have hsession : sessionOf (c.request method isHttp text).log = .tcpSend .control bytes ::
      (seals ++ .requested c.cseq method isHttp text :: sessionOf c.log) := by
    rw [Core.request, hwrite, List.cons_append, sessionOf_cons rfl,
      sessionOf_append fun e he => (routes_false (hseals e he)).1, sessionOf_cons rfl]
  refine ⟨bytes, seals, hwrite, hcarries, hseals, ?_, ?_, ?_, ?_⟩
  · rw [hsession, requests, shown_cons_none (f := Entry.request?) rfl,
      shown_append_none fun e he => (routes_false (hseals e he)).2.1,
      shown_cons_some (f := Entry.request?) rfl]
    rfl
  · rw [hsession, texts, shown_cons_none (f := Entry.text?) rfl,
      shown_append_none fun e he => (routes_false (hseals e he)).2.2.1,
      shown_cons_some (f := Entry.text?) rfl]
    rfl
  · rw [hsession, writes, shown_cons_some (f := Entry.write?) rfl,
      shown_append_none fun e he => (routes_false (hseals e he)).2.2.2.1,
      shown_cons_none (f := Entry.write?) rfl]
    rfl
  · rw [hsession, dispatches, shown_cons_none (f := Entry.dispatch?) rfl,
      shown_append_none fun e he => (routes_false (hseals e he)).2.2.2.2.1,
      shown_cons_none (f := Entry.dispatch?) rfl]
    rfl

theorem Routed.request (h : Routed c) {method text : Octets} {isHttp : Bool}
    (htext : IsRequest method c.cseq text) : Routed (c.request method isHttp text) := by
  obtain ⟨bytes, seals, hwrite, hcarries, hseals, hrequests, htexts, hwrites, hdispatches⟩ :=
    c.request_shows method isHttp text
  have hlog : (c.request method isHttp text).log =
      .tcpSend .control bytes :: (seals ++ .requested c.cseq method isHttp text :: c.log) := by
    rw [Core.request, hwrite, List.cons_append]
  obtain ⟨hlockstep, hcounted, hqueue, hwritten, hnumbered⟩ := h
  refine ⟨?_, ?_, ?_, ?_, ?_⟩
  · simp [Core.request, hlockstep]
  · rw [hrequests, List.length_append]
    exact (congrArg (fun n => wrap32 (n + 1)) hcounted).trans (wrap32_succ _)
  · rw [hrequests, hdispatches, hqueue]
    simp only [Core.request]
    rw [List.zip_append hlockstep, List.append_assoc]
    rfl
  · rw [htexts, hwrites]
    exact List.rel_append hwritten (.cons hcarries .nil)
  · -- in front of the write there are the text and the older writes
    have htold : texts (sessionOf (seals ++ .requested c.cseq method isHttp text :: c.log)) =
        texts (sessionOf c.log) ++ [text] := by
      rw [← htexts, hlog, sessionOf_cons rfl]
      exact (shown_cons_none (f := Entry.text?) rfl).symm
    have hwrote : writes (sessionOf (seals ++ .requested c.cseq method isHttp text :: c.log)) =
        writes (sessionOf c.log) := by
      rw [hlog, sessionOf_cons rfl] at hwrites
      exact List.append_cancel_right ((shown_cons_some (f := Entry.write?) rfl).symm.trans hwrites)
    rw [hlog]
    refine ⟨⟨text, ?_, hcarries⟩, Always.append ⟨⟨fun hlt => ?_, htext⟩, hnumbered⟩
      fun e he older => (routes_false (hseals e he)).2.2.2.2.2.2 older⟩
    · rw [htold, hwrote, ← hwritten.length_eq]
      simp
    · rw [hcounted, wrap32_of_lt hlt]

theorem Routed.dispatch (h : Routed c) (live : Bool) {method : Octets} {methods : List Octets}
    (status : Octets) (headers : Headers) (body : Octets) (hm : c.methods = method :: methods) :
    Routed { c with
      methods := methods, kinds := c.kinds.tail
      log := .dispatched live method (c.kinds.headD false) status headers body :: c.log } := by
  obtain ⟨hlockstep, hcounted, hqueue, hwritten, hnumbered⟩ := h
  obtain ⟨isHttp, kinds, hk⟩ : ∃ isHttp kinds, c.kinds = isHttp :: kinds := by
    refine List.exists_cons_of_length_pos ?_
    rw [← hlockstep, hm]
    exact Nat.succ_pos _
  rw [hm, hk, List.zip_cons_cons] at hqueue
  rw [hm, hk] at hlockstep
  refine ⟨?_, ?_, ?_, ?_, ⟨?_, hnumbered⟩⟩
  · simpa [hk] using hlockstep
  · exact hcounted
  · dsimp only
    rw [sessionOf_cons rfl, requests, shown_cons_none (f := Entry.request?) rfl, dispatches,
      shown_cons_some (f := Entry.dispatch?) rfl, hk]
    simpa [requests, dispatches] using hqueue
  · exact hwritten
  · simp only [Numbered]
    rw [hqueue, hk]
    simp

/-- A move keeps the queue law. -/
theorem Routed.move (h : Routed c) (hm : Routes c c') : Routed c' := by
  cases hm with
  | restart => exact h.restart
  | request method isHttp text htext => exact h.request htext
  | dispatch live method methods status headers body hm =>
    exact h.dispatch live status headers body hm
  | unexpected hm =>
    obtain ⟨hlockstep, hcounted, hqueue, hwritten, hnumbered⟩ := h
    exact ⟨hlockstep, hcounted, hqueue, hwritten, trivial, hnumbered⟩
  | silent hcseq hmethods hkinds es hlog hes =>
    obtain ⟨hlockstep, hcounted, hqueue, hwritten, hnumbered⟩ := h
    have hsession : sessionOf c'.log = es ++ sessionOf c.log := by
      rw [hlog, sessionOf_append fun e he => (routes_false (hes e he)).1]
    refine ⟨?_, ?_, ?_, ?_, ?_⟩
    · rw [hmethods, hkinds]
      exact hlockstep
    · rw [hcseq, hsession, requests, shown_append_none fun e he => (routes_false (hes e he)).2.1]
      exact hcounted
    · rw [hmethods, hkinds, hsession, requests, dispatches,
        shown_append_none fun e he => (routes_false (hes e he)).2.1,
        shown_append_none fun e he => (routes_false (hes e he)).2.2.2.2.1]
      exact hqueue
    · rw [hsession, texts, writes, shown_append_none fun e he => (routes_false (hes e he)).2.2.1,
        shown_append_none fun e he => (routes_false (hes e he)).2.2.2.1]
      exact hwritten
    · rw [hlog]
      exact hnumbered.append fun e he => (routes_false (hes e he)).2.2.2.2.2.2

/-- **The queue law is inductive.** -/
theorem Routed.step (h : Routed c) (hs : Step k c c') : Routed c' :=
  moves_keep (fun _ _ hm hc => hc.move hm) hs.routing h

end Conservation

/-! ## 4. Responses and requests -/

section Answers

variable [Primitives] {k : Level} {c c' : Core} {w : World}

/-- As long as no response is unexpected, the dispatched ones are all the responses. -/
structure Prompt (c : Core) : Prop where
  balance : (responses (sessionOf c.log)).length = (dispatches (sessionOf c.log)).length
  answered : Always Answered c.log

/-- **A punctual receiver is answered request by request**, as long as it is punctual. -/
theorem Prompt.move (hrouted : Routed c) (hm : Routes c c') (h : Punctual c.log → Prompt c) :
    Punctual c'.log → Prompt c' := by
  intro hpunctual
  cases hm with
  | restart =>
    have hnil : sessionOf c.fresh.log = [] := sessionOf_started _ _ _ _
    refine ⟨?_, trivial, (h hpunctual.2).answered⟩
    rw [hnil]
    rfl
  | request method isHttp text htext =>
    obtain ⟨bytes, seals, hwrite, _, hseals⟩ := c.writeEntries_eq text
    have hlog : (c.request method isHttp text).log =
        (.tcpSend .control bytes :: (seals ++ [.requested c.cseq method isHttp text])) ++ c.log := by
      rw [Core.request, hwrite]
      simp
    have hsilent : ∀ e ∈ (Entry.tcpSend .control bytes ::
        (seals ++ [.requested c.cseq method isHttp text])),
        e.isStarted = false ∧ e.dispatch? = none ∧ e.response? = none ∧
          ∀ older, Answered e older := by
      intro e he
      rcases List.mem_cons.mp he with rfl | he
      · exact ⟨rfl, rfl, rfl, fun _ => trivial⟩
      rcases List.mem_append.mp he with he | he
      · obtain ⟨h₁, -, -, -, h₂, h₃, -⟩ := routes_false (hseals e he)
        refine ⟨h₁, h₂, h₃, fun _ => ?_⟩
        cases e with
        | dispatched | unexpected => cases h₃
        | _ => trivial
      · rw [List.mem_singleton.mp he]
        exact ⟨rfl, rfl, rfl, fun _ => trivial⟩
    rw [hlog] at hpunctual
    obtain ⟨hbalance, hanswered⟩ := h hpunctual.of_append
    refine ⟨?_, ?_⟩
    · rw [hlog, sessionOf_append fun e he => (hsilent e he).1, responses, dispatches,
        shown_append_none fun e he => (hsilent e he).2.2.1,
        shown_append_none fun e he => (hsilent e he).2.1]
      exact hbalance
    · rw [hlog]
      exact hanswered.append fun e he => (hsilent e he).2.2.2
  | dispatch live method methods status headers body hm =>
    obtain ⟨hbalance, hanswered⟩ := h hpunctual.2
    have hnumbered := (hrouted.dispatch live status headers body hm).numbered.1
    refine ⟨?_, ?_, hanswered⟩
    · simp only [sessionOf_cons (e := .dispatched _ _ _ _ _ _) rfl, responses, dispatches]
      rw [shown_cons_some (f := Entry.response?) rfl, shown_cons_some (f := Entry.dispatch?) rfl,
        List.length_append, List.length_append]
      exact congrArg (· + 1) hbalance
    · simp only [Answered, Numbered] at hnumbered ⊢
      rw [hbalance]
      exact hnumbered
  | unexpected hm =>
    -- every request is dispatched already, so a punctual receiver has nothing left to answer
    obtain ⟨hearly, hpast⟩ := hpunctual
    obtain ⟨hbalance, -⟩ := h hpast
    have hlt := hearly rfl
    rw [hrouted.queue, hm, List.zip_nil_left, List.append_nil, hbalance] at hlt
    exact absurd hlt (lt_irrefl _)
  | silent hcseq hmethods hkinds es hlog hes =>
    rw [hlog] at hpunctual
    obtain ⟨hbalance, hanswered⟩ := h hpunctual.of_append
    refine ⟨?_, ?_⟩
    · rw [hlog, sessionOf_append fun e he => (routes_false (hes e he)).1, responses, dispatches,
        shown_append_none fun e he => (routes_false (hes e he)).2.2.2.2.2.1,
        shown_append_none fun e he => (routes_false (hes e he)).2.2.2.2.1]
      exact hbalance
    · rw [hlog]
      refine hanswered.append fun e he older => ?_
      have hnone := (routes_false (hes e he)).2.2.2.2.2.1
      cases e with
      | dispatched | unexpected => cases hnone
      | _ => trivial

/-- So it is over a whole step. -/
theorem Prompt.step (hrouted : Routed c) (hs : Step k c c') (h : Punctual c.log → Prompt c) :
    Punctual c'.log → Prompt c' := by
  suffices hall : ∀ c', Relation.ReflTransGen Routes c c' →
      Routed c' ∧ (Punctual c'.log → Prompt c') from (hall _ hs.routing).2
  intro c' hmoves
  induction hmoves with
  | refl => exact ⟨hrouted, h⟩
  | tail _ hm ih => exact ⟨ih.1.move hm, Prompt.move ih.1 hm ih.2⟩

theorem Reachable.routed (h : Reachable w) : Routed (coreOf w) :=
  h.induct Routed.init fun _ hs hr => hr.step hs

/-- **Routing.**  In every reachable world the two queues have one length and hold, in order, the
requests of the session that are not dispatched yet; each request of each session was written, from
the first octet to the last if it has less than 2^31, and the `k`-th carries number `k`, for `k`
below 2^31; and where the receiver never sends more responses than it got requests, the `k`-th
response is dispatched with the method and the kind of the `k`-th request. -/
theorem requests_routed (h : Reachable w) :
    w.s.pendingMethods.length = w.s.pendingIsHttp.length ∧
    requests w.session = dispatches w.session ++ w.s.pendingMethods.zip w.s.pendingIsHttp ∧
    List.Forall₂ Written (texts w.session) (writes w.session) ∧
    Always Numbered w.log ∧
    (Punctual w.log → Always Answered w.log) := by
  have hrouted := h.routed
  have hprompt : Routed (coreOf w) ∧ (Punctual (coreOf w).log → Prompt (coreOf w)) := by
    refine h.induct (I := fun c => Routed c ∧ (Punctual c.log → Prompt c))
      ⟨Routed.init, fun _ => ⟨rfl, trivial⟩⟩ ?_
    intro c c' _ hs ⟨hr, hp⟩
    exact ⟨hr.step hs, Prompt.step hr hs hp⟩
  exact ⟨h.flow.lockstep, hrouted.queue, hrouted.written, hrouted.numbered,
    fun hpunctual => (hprompt.2 hpunctual).answered⟩

end Answers

/-- A transient pairing whose first post is refused with 470. -/
def refusedRun : List Action :=
  connected .hapTransient true ++ [.onTcpData .control (statusReply "470")]

/-- There the first post is answered as what it is, and the post of the fallback is pending. -/
theorem requests_routed_refused :
    requests (worldAfter refusedRun).session = [(ascii "POST", true)] ++ [(ascii "POST", true)] ∧
      Always Answered (worldAfter refusedRun).log := by
  obtain ⟨hdone, hpending⟩ : dispatches (worldAfter refusedRun).session = [(ascii "POST", true)] ∧
      (worldAfter refusedRun).s.pendingMethods.zip (worldAfter refusedRun).s.pendingIsHttp =
        [(ascii "POST", true)] := by
    decide +kernel
  obtain ⟨-, hqueue, -, -, hanswered⟩ :=
    @requests_routed trusting _ (worldAfter_reachable refusedRun)
  refine ⟨?_, hanswered (by decide +kernel)⟩
  rw [hqueue, hdone, hpending]

/-! ## 5. Past the end of an `int` -/

section Past

variable [Primitives] [Host] {w : World}

omit [Host] in
/-- A request of a stream is queued and written, and that is all. -/
theorem sendRequest_streaming (hflow : Flow (coreOf w)) (hst : w.s.state = .streaming)
    (method uri contentType body : Octets) (extra : List (Octets × Octets)) :
    ∃ w', sendRequest method uri contentType body extra w = (.ok (), w') ∧
      coreOf w' = (coreOf w).request method false
        (rtspText w.s method uri contentType body extra) := by
  obtain ⟨w', hrun, hcore⟩ := sendRequest_run method uri contentType body extra
    fun a henc ha => hflow.controlOut henc ha
  have hrewinds : ((coreOf w).request method false
      (rtspText w.s method uri contentType body extra)).rewinds = false := by
    simp [Core.rewinds, Core.request, coreOf, hst]
  refine ⟨w', hrun, hcore.trans ?_⟩
  rw [Core.rewind, Core.rewindEntries, hrewinds]
  rfl

omit [Host] in
theorem sendVolume_streaming (hflow : Flow (coreOf w)) (hst : w.s.state = .streaming) (dbfs : Float) :
    ∃ w' text, sendVolume dbfs w = (.ok (), w') ∧
      coreOf w' = (coreOf w).request (ascii "SET_PARAMETER") false text := by
  obtain ⟨w', hrun, hcore⟩ := sendRequest_streaming hflow hst (ascii "SET_PARAMETER") w.s.rtspUri
    (ascii "text/parameters") (ascii "volume: " ++ fixed6 dbfs) (sessionHeader w.s)
  exact ⟨w', _, by rw [sendVolume, sender_bind, hrun], hcore⟩

theorem setVolume_streaming (hflow : Flow (coreOf w)) (hst : w.s.state = .streaming) (pct : Float) :
    ∃ w' text, perform (.call (.setVolume pct)) w = (.ok (), w') ∧
      coreOf w' = (coreOf w).request (ascii "SET_PARAMETER") false text := by
  have hcall : perform (.call (.setVolume pct)) w = setVolume pct w := rfl
  rw [hcall, setVolume, sender_bind]
  generalize volumeDb pct = dbfs
  let w₁ : World := { w with
    s := { w.s with pendingVolumeDb := dbfs }
    out := .volumeSet (w.s.state = .streaming) dbfs :: w.out }
  have hcore : coreOf w₁ = coreOf w := rfl
  obtain ⟨w', text, hrun, hcore'⟩ := sendVolume_streaming (w := w₁) (hcore ▸ hflow) hst dbfs
  have hset : setAndEmit (fun s => { s with pendingVolumeDb := dbfs })
      (.volumeSet (w.s.state = .streaming) dbfs) w = (.ok (), w₁) := rfl
  exact ⟨w', text, by rw [bind_ok hset, Prog.when, if_pos hst, hrun], hcore'⟩

/-- **Each call is one more request.** -/
theorem volumes_counted (hfire : Tame) (pct : Float) : ∀ (k : ℕ) {w : World}, Flow (coreOf w) →
    w.s.state = .streaming →
    runsOn (List.replicate k (.call (.setVolume pct))) w = true ∧
      Flow (coreOf (run (List.replicate k (.call (.setVolume pct))) w)) ∧
      (run (List.replicate k (.call (.setVolume pct))) w).s.state = .streaming ∧
      (requests (run (List.replicate k (.call (.setVolume pct))) w).session).length =
        (requests w.session).length + k
  | 0, _, hflow, hst => ⟨rfl, hflow, hst, rfl⟩
  | k + 1, w, hflow, hst => by
    obtain ⟨w₁, text, hrun, hcore⟩ := setVolume_streaming hflow hst pct
    have hflow₁ : Flow (coreOf w₁) := by
      have hkept := (perform_walks hfire (.call (.setVolume pct))).keeps hflow
      rwa [hrun] at hkept
    have hst₁ : w₁.s.state = .streaming := (congrArg Core.state hcore).trans hst
    have hcount : (requests w₁.session).length = (requests w.session).length + 1 := by
      obtain ⟨_, _, -, -, -, hrequests, -⟩ :=
        (coreOf w).request_shows (ascii "SET_PARAMETER") false text
      have hlog : w₁.log = ((coreOf w).request (ascii "SET_PARAMETER") false text).log :=
        congrArg Core.log hcore
      rw [World.session, hlog, hrequests, List.length_append]
      rfl
    obtain ⟨hon, hflow', hst', hlength⟩ := volumes_counted hfire pct k hflow₁ hst₁
    have hnext : run (List.replicate (k + 1) (.call (.setVolume pct))) w =
        run (List.replicate k (.call (.setVolume pct))) w₁ := by
      rw [List.replicate_succ, run_cons, hrun, if_neg (by simp)]
    rw [hnext]
    refine ⟨?_, hflow', hst', by rw [hlength, hcount, Nat.add_assoc, Nat.add_comm 1]⟩
    rw [List.replicate_succ, runsOn, hrun]
    simpa using hon

/-- A title is one request, and all of it is in there. -/
theorem setTitle_streaming (hflow : Flow (coreOf w)) (hst : w.s.state = .streaming)
    (hnp : w.s.npTitle = []) {title : Octets} (hne : title ≠ []) :
    ∃ w' text, perform (.call (.setNowPlaying title [] [] [] [])) w = (.ok (), w') ∧
      coreOf w' = (coreOf w).request (ascii "SET_PARAMETER") false text ∧
      ascii "SE" <+: text ∧ title.length ≤ text.length := by
  let w₁ : World := { w with s := { w.s with
    npTitle := title, npArtist := [], npAlbum := [], npCover := [], npCoverMime := [] } }
  have hcore : coreOf w₁ = coreOf w := rfl
  have hinner : dmapInner w₁.s ≠ [] := by simp [dmapInner, w₁, hne, dmapTag, ascii]
  obtain ⟨w', hrun, hcore'⟩ := sendRequest_streaming (w := w₁) (hcore ▸ hflow) hst
    (ascii "SET_PARAMETER") w₁.s.rtspUri (ascii "application/x-dmap-tagged")
    (dmapTag (ascii "mlit") (dmapInner w₁.s))
    (sessionHeader w₁.s ++ [(ascii "RTP-Info", rtpInfo w₁.s)])
  refine ⟨w', _, ?_, hcore', ?_, ?_⟩
  · have hset : setS (fun s => { s with
        npTitle := title, npArtist := [], npAlbum := [], npCover := [], npCoverMime := [] }) w =
        (.ok (), w₁) := rfl
    have hcall : perform (.call (.setNowPlaying title [] [] [] [])) w =
        setNowPlaying title [] [] [] [] w := rfl
    have hmeta : sendMetadata w₁ = (.ok (), w') := by
      rw [sendMetadata, sender_bind, if_neg (not_not.mpr hst), if_neg (fun h => hne h.1),
        Prog.when, if_pos hinner, bind_ok hrun, Prog.when, if_neg (fun h => h.1 rfl)]
      rfl
    have hchanged : title ≠ w.s.npTitle := by rw [hnp]; exact hne
    rw [hcall, setNowPlaying, sender_bind, bind_ok hset, sender_bind, Prog.when,
      if_pos ⟨hst, .inl hchanged⟩]
    exact hmeta
  · simp only [rtspText, requestHead, List.append_assoc]
    exact ⟨ascii "T_PARAMETER" ++ _, rfl⟩
  · simp only [rtspText, dmapInner, dmapTag, w₁, if_neg hne, List.length_append]
    omega

end Past

section Frames

variable [Primitives]

/-- Frames say how long the pieces are. -/
theorem length_flatten_of_frames {key key' : Octets} : ∀ {pts pts' : List Octets} {ctr ctr' : UInt64},
    (∀ pt ∈ pts, pt.length ≤ 1024) → (∀ pt ∈ pts', pt.length ≤ 1024) →
    frames key ctr pts = frames key' ctr' pts' → pts.flatten.length = pts'.flatten.length
  | [], [], _, _, _, _, _ => rfl
  | [], pt :: pts, _, _, _, _, h => by simp [frames, frame, leBytes] at h
  | pt :: pts, [], _, _, _, _, h => by simp [frames, frame, leBytes] at h
  | pt :: pts, pt' :: pts', ctr, ctr', hpts, hpts', h => by
    have hle := hpts pt List.mem_cons_self
    have hle' := hpts' pt' List.mem_cons_self
    have hhead : leBytes 2 pt.length = leBytes 2 pt'.length := by
      have htwo := congrArg (List.take 2) h
      simpa [frames, frame, List.take_append_of_le_length] using htwo
    have hlen : pt.length = pt'.length := by
      have hmod := leBytes_inj hhead
      omega
    have hframes : frames key (ctr + 1) pts = frames key' (ctr' + 1) pts' :=
      (List.append_inj h (by simp [frame, hlen])).2
    have hrest := length_flatten_of_frames (fun x hx => hpts x (List.mem_cons_of_mem pt hx))
      (fun x hx => hpts' x (List.mem_cons_of_mem pt' hx)) hframes
    rw [List.flatten_cons, List.flatten_cons, List.length_append, List.length_append, hlen, hrest]

/-- Frames of small pieces never look like a request. -/
theorem frames_ne {key : Octets} {ctr : UInt64} {pts : List Octets} {text : Octets}
    (hpts : ∀ pt ∈ pts, pt.length ≤ 1024) (htext : ascii "SE" <+: text) :
    frames key ctr pts ≠ text := by
  intro heq
  obtain ⟨rest, rfl⟩ := htext
  cases pts with
  | nil => cases heq
  | cons pt pts =>
    -- the second octet of a length is 4 at most
    have hle := hpts pt List.mem_cons_self
    have hsecond := congrArg (fun l => l[1]?.map UInt8.toNat) heq
    have hletter : ('E'.toUInt8).toNat = 69 := by decide
    simp [frames, frame, leBytes, ascii, hletter] at hsecond
    omega

/-- **What is written of a request of 2^31 octets is not all of it.** -/
theorem not_carries_of_long {key : Octets} {ctr : UInt64} {text : Octets} (hlong : 2 ^ 31 ≤ text.length)
    (htext : ascii "SE" <+: text) : ¬ Carries text (frames key ctr (chunks text)) := by
  have hchunks : ∀ pt ∈ chunks text, pt.length ≤ 1024 := fun pt hpt => (mem_chunksOf hpt).2
  rintro (heq | ⟨key', ctr', pts, heq, hflat, hpts⟩)
  · exact frames_ne hchunks htext heq
  · have hlen := length_flatten_of_frames hchunks (fun pt hpt => (hpts pt hpt).2) heq
    rw [hflat, flatten_chunks] at hlen
    have hshort := length_intPrefix_lt text
    omega

end Frames

/-- A stream that is told its volume, again and again. -/
def louder (k : ℕ) : List Action := streamingActions ++ List.replicate k (.call (.setVolume 50))

/-- A stream that is told a title. -/
def titled (title : Octets) : List Action :=
  streamingActions ++ [.call (.setNowPlaying title [] [] [] [])]

/-- What the two begin with. -/
theorem streaming_ready : @runsOn trusting (@host trusting 0) streamingActions (.init .still) = true ∧
    (worldAfter streamingActions).s.state = .streaming ∧
    (worldAfter streamingActions).s.npTitle = [] ∧
    (worldAfter streamingActions).s.controlEncrypted = true ∧
    (worldAfter streamingActions).s.ap2.isSome = true ∧
    (requests (worldAfter streamingActions).session).length = 7 := by
  decide +kernel

theorem worldAfter_streaming (as : List Action) : worldAfter (streamingActions ++ as) =
    @run trusting (@host trusting 0) as (worldAfter streamingActions) := by
  unfold worldAfter
  exact @run_append trusting (@host trusting 0) as _ _ streaming_ready.1

theorem louder_wraps {k : ℕ} (hk : 7 + k = 2 ^ 31) : ∃ method isHttp text older,
    .requested (-2 ^ 31) method isHttp text :: older <:+ (worldAfter (louder (k + 1))).log ∧
      (requests (sessionOf older)).length = 2 ^ 31 := by
  let _ : Primitives := trusting
  let _ : Host := host 0
  obtain ⟨-, hst, -, -, -, hseven⟩ := streaming_ready
  obtain ⟨hon, hflow, hst', hcount⟩ := volumes_counted (host_tame 0) 50 k
    (worldAfter_reachable streamingActions).flow hst
  obtain ⟨w', text, hrun, hcore⟩ := setVolume_streaming hflow hst' 50
  have hworld : worldAfter (louder (k + 1)) = w' := by
    rw [louder, worldAfter_streaming, List.replicate_succ', run_append _ hon, run_single, hrun]
  have hprev : worldAfter (louder k) = run (List.replicate k (.call (.setVolume 50)))
      (worldAfter streamingActions) := worldAfter_streaming _
  rw [← hprev] at hcore hcount
  rw [hseven, hk] at hcount
  have hcounted := (worldAfter_reachable (louder k)).routed.counted
  have hwraps : (coreOf (worldAfter (louder k))).cseq = -2 ^ 31 := by
    rw [hcounted]
    exact (congrArg (fun n : ℕ => wrap32 n) hcount).trans (by decide)
  refine ⟨ascii "SET_PARAMETER", false, text, (worldAfter (louder k)).log, ?_, hcount⟩
  have hlog : (worldAfter (louder (k + 1))).log =
      ((coreOf (worldAfter (louder k))).request (ascii "SET_PARAMETER") false text).log := by
    rw [hworld, ← hcore]
    rfl
  rw [hlog, ← hwraps]
  exact List.suffix_append _ _

theorem titled_cut {title : Octets} (hlong : 2 ^ 31 ≤ title.length) : ∃ text bytes,
    (text, bytes) ∈
      (texts (worldAfter (titled title)).session).zip (writes (worldAfter (titled title)).session) ∧
      ¬ @Carries trusting text bytes := by
  let _ : Primitives := trusting
  let _ : Host := host 0
  obtain ⟨-, hst, hnp, henc, hsome, -⟩ := streaming_ready
  have hflow := (worldAfter_reachable streamingActions).flow
  have hne : title ≠ [] := by
    rintro rfl
    exact absurd hlong (by decide)
  obtain ⟨w', text, hrun, hcore, htext, hle⟩ := setTitle_streaming hflow hst hnp hne
  have hworld : worldAfter (titled title) = w' := by
    rw [titled, worldAfter_streaming, run_single, hrun]
  obtain ⟨a, ha⟩ := Option.isSome_iff_exists.mp hsome
  obtain ⟨bytes, seals, hwrite, -, -, -, htexts, hwrites, -⟩ :=
    (coreOf (worldAfter streamingActions)).request_shows (ascii "SET_PARAMETER") false text
  have hbytes : bytes = frames a.controlOut (worldAfter streamingActions).s.ctrlSendCtr
      (chunks text) := by
    have hentries : (coreOf (worldAfter streamingActions)).writeEntries text =
        .tcpSend .control (frames a.controlOut (worldAfter streamingActions).s.ctrlSendCtr
          (chunks text)) ::
          frameSeals a.controlOut (worldAfter streamingActions).s.ctrlSendCtr (chunks text) := by
      simp [Core.writeEntries, coreOf, henc, ha, keysOf]
    rw [hwrite] at hentries
    injection hentries with hentry
    injection hentry
  have hlog : (worldAfter (titled title)).log = ((coreOf (worldAfter streamingActions)).request
      (ascii "SET_PARAMETER") false text).log := by
    rw [hworld, ← hcore]
    rfl
  have hsame := (worldAfter_reachable streamingActions).routed.written.length_eq
  refine ⟨text, bytes, ?_, ?_⟩
  · rw [World.session, hlog, htexts, hwrites, List.zip_append hsame]
    exact List.mem_append_right _ List.mem_cons_self
  · rw [hbytes]
    exact not_carries_of_long (hlong.trans hle) htext

/-- **A count and a length of 2^31 are too much for an `int`**: the request with that number carries
a negative one, and of a request with a title of that length less is written. -/
theorem requests_overflow :
    (∃ method isHttp text older,
      .requested (-2 ^ 31) method isHttp text :: older <:+
        (worldAfter (louder (2 ^ 31 - 7 + 1))).log ∧
      (requests (sessionOf older)).length = 2 ^ 31) ∧
    ∃ text bytes, (text, bytes) ∈
      (texts (worldAfter (titled (List.replicate (2 ^ 31) 97))).session).zip
        (writes (worldAfter (titled (List.replicate (2 ^ 31) 97))).session) ∧
      ¬ @Carries trusting text bytes :=
  ⟨louder_wraps (by norm_num), titled_cut (List.length_replicate (n := 2 ^ 31)).ge⟩

end AirplaySender
