/-
# The receive buffers

Four buffers take what the receiver sends: the plaintext and the frames of the control channel, and
the same of the event channel.  Three of them are bounded whatever arrives.  The plaintext of the
event channel is not: the loop that answers its requests has no cap, unlike the loop that reads
responses, so a request that never ends stays buffered for as long as it goes on.

`buffers_within` says exactly which runs keep the bounds, and `event_buffer_unbounded` shows one
that does not.
-/
import AirplaySender.Events
import AirplaySender.Runs

namespace AirplaySender

open Octets Prog

/-! ## 1. What the answer loop leaves -/

/-- A request with its head and its body, and nothing behind them. -/
def Whole (r : Octets) : Prop := ∃ cseq, nextEventRequest r = some (cseq, r.length)

/-- A request that is whole is the first one of the buffer it begins. -/
theorem Whole.next {r : Octets} (h : Whole r) (rest : Octets) :
    ∃ cseq, nextEventRequest (r ++ rest) = some (cseq, r.length) := by
  obtain ⟨cseq, hnext⟩ := h
  exact ⟨cseq, nextEventRequest_append hnext rest⟩

/-- A request whose answer has a length that is no negative `int`.  Behind any other the loop
ends. -/
def Answerable (r : Octets) : Prop :=
  ∀ cseq total, nextEventRequest r = some (cseq, total) → 0 ≤ wrap32 (eventResponse cseq).length

theorem forall_dropLast_cons {P : Octets → Prop} {r : Octets} {rs : List Octets} :
    (∀ x ∈ (r :: rs).dropLast, P x) ↔ (rs ≠ [] → P r) ∧ ∀ x ∈ rs.dropLast, P x := by
  cases rs <;> simp

/-- **Requests are cut off in one way only**: what is left when no more is complete, or when the
last was not answerable, is the least. -/
theorem left_le {requests : List Octets} (hwhole : ∀ r ∈ requests, Whole r) {left : Octets}
    (hleft : nextEventRequest left = none ∨ ∃ r, requests.getLast? = some r ∧ ¬ Answerable r) :
    ∀ {others : List Octets} {rest : Octets}, (∀ r ∈ others, Whole r) →
      (∀ r ∈ others.dropLast, Answerable r) →
      requests.flatten ++ left = others.flatten ++ rest → left.length ≤ rest.length := by
  induction requests with
  | nil =>
    intro others rest hothers _ heq
    replace hleft : nextEventRequest left = none := by simpa using hleft
    cases others with
    | nil =>
      rw [List.flatten_nil, List.nil_append, List.nil_append] at heq
      rw [heq]
    | cons r others =>
      obtain ⟨cseq, hnext⟩ := (hothers r List.mem_cons_self).next (others.flatten ++ rest)
      rw [List.flatten_nil, List.nil_append, List.flatten_cons, List.append_assoc] at heq
      rw [← heq, hleft] at hnext
      cases hnext
  | cons q requests ih =>
    intro others rest hothers hanswered heq
    cases others with
    | nil =>
      have hlen := congrArg List.length heq
      rw [List.flatten_nil, List.nil_append, List.length_append] at hlen
      omega
    | cons r others =>
      rw [List.flatten_cons, List.flatten_cons, List.append_assoc, List.append_assoc] at heq
      obtain ⟨c, hq⟩ := (hwhole q List.mem_cons_self).next (requests.flatten ++ left)
      obtain ⟨d, hr⟩ := (hothers r List.mem_cons_self).next (others.flatten ++ rest)
      rw [heq, hr] at hq
      have hlen : r.length = q.length := congrArg Prod.snd (Option.some.inj hq)
      obtain ⟨rfl, hrest⟩ := List.append_inj heq hlen.symm
      obtain ⟨hhead, htail⟩ := forall_dropLast_cons.mp hanswered
      cases requests with
      | nil =>
        rcases hleft with hleft | ⟨_, hlast, hlost⟩
        · exact ih nofun (.inl hleft) (fun x hx => hothers x (List.mem_cons_of_mem q hx)) htail hrest
        · -- the loop ended here, so the other requests end here as well
          obtain rfl : q = _ := Option.some.inj hlast
          have hnone : others = [] := by
            by_contra hmore
            exact hlost (hhead hmore)
          rw [hnone] at hrest
          exact (congrArg List.length hrest).le
      | cons p requests =>
        rw [List.getLast?_cons_cons] at hleft
        exact ih (fun x hx => hwhole x (List.mem_cons_of_mem q hx)) hleft
          (fun x hx => hothers x (List.mem_cons_of_mem q hx)) htail hrest

section Buffers

variable [Primitives]

/-- **The answer loop takes every complete request**, up to one it cannot answer, and touches
nothing else that is buffered. -/
theorem answerEvents_leaves {a : Ap2State} (hout : a.eventOut.length = 32) :
    ∀ (fuel : ℕ) (w : World), w.s.ap2 = some a → w.s.eventPlainBuf.length ≤ fuel →
      ∃ (w' : World) (requests : List Octets), (answerEvents fuel w).2 = w' ∧
        w'.s.state = w.s.state ∧ (∀ r ∈ requests, Whole r) ∧
        (∀ r ∈ requests.dropLast, Answerable r) ∧
        w.s.eventPlainBuf = requests.flatten ++ w'.s.eventPlainBuf ∧
        (nextEventRequest w'.s.eventPlainBuf = none ∨
          ∃ r, requests.getLast? = some r ∧ ¬ Answerable r) := by
  intro fuel
  induction fuel with
  | zero =>
    intro w _ hlen
    refine ⟨w, [], rfl, rfl, List.forall_mem_nil _, List.forall_mem_nil _, rfl, .inl ?_⟩
    rw [List.length_eq_zero_iff.mp (Nat.le_zero.mp hlen)]
    rfl
  | succ fuel ih =>
    intro w ha hlen
    cases hnext : nextEventRequest w.s.eventPlainBuf with
    | none =>
      refine ⟨w, [], ?_, rfl, List.forall_mem_nil _, List.forall_mem_nil _, rfl, .inl hnext⟩
      rw [answerEvents, sender_bind, hnext]
      rfl
    | some found =>
      obtain ⟨cseq, total⟩ := found
      obtain ⟨hpos, hle⟩ := nextEventRequest_le hnext
      have hfirst := nextEventRequest_take hnext
      have hone : Whole (w.s.eventPlainBuf.take total) := by
        refine ⟨cseq, ?_⟩
        rw [List.length_take, Nat.min_eq_left hle]
        exact hfirst
      by_cases hresp : 0 ≤ wrap32 (eventResponse cseq).length
      · have hanswerable : Answerable (w.s.eventPlainBuf.take total) := by
          intro other count hother
          rw [hfirst] at hother
          obtain ⟨rfl, -⟩ := Prod.mk.inj (Option.some.inj hother)
          exact hresp
        let w₁ := w.answered a.eventOut (intPrefix (eventResponse cseq)) total
        have hdrop : w₁.s.eventPlainBuf = w.s.eventPlainBuf.drop total := rfl
        have hshort : w₁.s.eventPlainBuf.length ≤ fuel := by
          rw [hdrop, List.length_drop]
          omega
        obtain ⟨w', requests, hrun, hstate, hwhole, hanswered, hbuf, hstop⟩ := ih w₁ ha hshort
        refine ⟨w', w.s.eventPlainBuf.take total :: requests, ?_, hstate,
          List.forall_mem_cons.mpr ⟨hone, hwhole⟩,
          forall_dropLast_cons.mpr ⟨fun _ => hanswerable, hanswered⟩, ?_, ?_⟩
        · rw [answerEvents_round hout ha hnext hresp]
          exact hrun
        · rw [List.flatten_cons, List.append_assoc, ← hbuf]
          exact (List.take_append_drop total w.s.eventPlainBuf).symm
        · rcases hstop with hnone | ⟨r, hlast, hlost⟩
          · exact .inl hnone
          · refine .inr ⟨r, ?_, hlost⟩
            rw [List.getLast?_cons, hlast]
            rfl
      · refine ⟨(w.skipped total).lost, [w.s.eventPlainBuf.take total], ?_, rfl,
          List.forall_mem_singleton.mpr hone, List.forall_mem_nil _, ?_, .inr ⟨_, rfl, ?_⟩⟩
        · rw [answerEvents_lost ha hnext (not_le.mp hresp)]
        · rw [List.flatten_cons, List.flatten_nil, List.append_nil]
          exact (List.take_append_drop total w.s.eventPlainBuf).symm
        · exact fun hanswerable => hresp (hanswerable cseq total hfirst)

/-! ## 2. A delivery on the event channel -/

/-- Requests, and no more than the cap behind the last of them.  All but that one have to be
answerable. -/
def Settles (buf : Octets) : Prop :=
  ∃ (requests : List Octets) (rest : Octets), (∀ r ∈ requests, Whole r) ∧
    (∀ r ∈ requests.dropLast, Answerable r) ∧
    buf = requests.flatten ++ rest ∧ rest.length ≤ rxCap

/-- What the receiver has to keep to, delivery by delivery: where frames are opened, the plaintext
that is buffered and the plaintext that comes behind it are requests, answerable up to the last of
them, and at most 4 MiB of an unfinished one; where a frame does not open, they are at most
4 MiB. -/
def Modest (w : World) : Action → Prop
  | .onTcpData .event bytes =>
    w.s.state ≠ .idle → ∀ a, w.s.ap2 = some a → a.eventIn.length = 32 → a.eventOut.length = 32 →
      let o := openFrames a.eventIn (w.s.eventEncBuf ++ bytes) w.s.eventRecvCtr
      if o.failed then (w.s.eventPlainBuf ++ o.plaintext).length ≤ rxCap
      else Settles (w.s.eventPlainBuf ++ o.plaintext)
  | _ => True

/-- **A delivery on the event channel keeps the cap exactly where it is modest.** -/
theorem onEventReadyRead_plain {w : World} (hcap : w.s.eventPlainBuf.length ≤ rxCap)
    (bytes : Octets) : (onEventReadyRead bytes w).2.s.state = w.s.state ∧
      ((onEventReadyRead bytes w).2.s.eventPlainBuf.length ≤ rxCap ↔
        Modest w (.onTcpData .event bytes)) := by
  have hnothing (hrun : onEventReadyRead bytes w = (.ok (), w))
      (hmodest : Modest w (.onTcpData .event bytes)) :
      (onEventReadyRead bytes w).2.s.state = w.s.state ∧
        ((onEventReadyRead bytes w).2.s.eventPlainBuf.length ≤ rxCap ↔
          Modest w (.onTcpData .event bytes)) := by
    rw [hrun]
    exact ⟨rfl, fun _ => hmodest, fun _ => hcap⟩
  by_cases hidle : w.s.state = .idle
  · refine hnothing ?_ fun hlive => absurd hidle hlive
    unfold onEventReadyRead
    rw [sender_bind, if_pos hidle]
    rfl
  cases ha : w.s.ap2 with
  | none =>
    refine hnothing ?_ fun _ a hsome => ?_
    · unfold onEventReadyRead
      rw [sender_bind, if_neg hidle, ha]
      rfl
    · rw [ha] at hsome
      cases hsome
  | some a =>
    by_cases hkeys : a.eventIn.length ≠ 32 ∨ a.eventOut.length ≠ 32
    · refine hnothing ?_ fun _ b hb hin hout => ?_
      · unfold onEventReadyRead
        rw [sender_bind, if_neg hidle, ha]
        dsimp only
        rw [if_pos hkeys]
        rfl
      · rw [ha] at hb
        obtain rfl : a = b := Option.some.inj hb
        exact absurd hkeys (by simp [hin, hout])
    rw [not_or, not_not, not_not] at hkeys
    obtain ⟨hin, hout⟩ := hkeys
    have htake : (Prog.modify (takeEventFrames a.eventIn bytes) : M Unit) w =
        (.ok (), takeEventFrames a.eventIn bytes w) := rfl
    have hrun : onEventReadyRead bytes w =
        (if (openFrames a.eventIn (w.s.eventEncBuf ++ bytes) w.s.eventRecvCtr).failed then pure ()
        else answerEvents (takeEventFrames a.eventIn bytes w).s.eventPlainBuf.length : M Unit)
          (takeEventFrames a.eventIn bytes w) := by
      unfold onEventReadyRead
      rw [sender_bind, if_neg hidle, ha]
      dsimp only
      rw [if_neg (by simp [hin, hout]), bind_ok htake]
      split <;> rfl
    have hmodest : Modest w (.onTcpData .event bytes) ↔
        if (openFrames a.eventIn (w.s.eventEncBuf ++ bytes) w.s.eventRecvCtr).failed then
          (takeEventFrames a.eventIn bytes w).s.eventPlainBuf.length ≤ rxCap
        else Settles (takeEventFrames a.eventIn bytes w).s.eventPlainBuf := by
      constructor
      · intro h
        exact h hidle a ha hin hout
      · intro h _ b hb _ _
        rw [ha] at hb
        obtain rfl : a = b := Option.some.inj hb
        exact h
    rw [hrun, hmodest]
    split
    · exact ⟨rfl, Iff.rfl⟩
    · obtain ⟨w', requests, hanswer, hstate, hwhole, hanswered, hbuf, hstop⟩ :=
        answerEvents_leaves hout _ (takeEventFrames a.eventIn bytes w) ha le_rfl
      rw [hanswer]
      refine ⟨hstate, fun hle => ⟨requests, _, hwhole, hanswered, hbuf, hle⟩, ?_⟩
      rintro ⟨others, rest, hothers, hall, heq, hle⟩
      exact (left_le hwhole hstop hothers hall (hbuf.symm.trans heq)).trans hle

/-! ## 3. The other three -/

/-- The buffers that are bounded whatever arrives. -/
structure Wire.Held (c : Wire) : Prop where
  control : c.state ≠ .idle → c.Capped
  event : c.eventEncBuf.length < frameCap

variable {Ok : Action → Prop} {c c' : Wire} {w : World}

omit [Primitives] in
/-- Nothing is awaited on the control channel of a session that is over. -/
theorem Wire.Held.finished (h : c.Held) (es : List Entry) (backlog : ℕ → Octets)
    (backlogSeq : ℕ → ℤ) : (c.finished es backlog backlogSeq).Held :=
  ⟨fun hlive => absurd rfl hlive, h.event⟩

theorem Turn.held (h : Turn Ok c c') (hc : c.Held) : c'.Held := by
  cases h with
  | act h =>
    cases h with
    | begin => exact ⟨fun _ => ⟨Nat.zero_le _, Nat.zero_lt_succ _⟩, Nat.zero_lt_succ _⟩
    | progress _ hlive => exact ⟨fun _ => hc.control hlive, hc.event⟩
    | clear _ _ _ hlive => exact ⟨fun _ => hc.control hlive, hc.event⟩
    | refuse | fail | stop => exact ⟨fun hlive => absurd rfl hlive, hc.event⟩
    | enter _ hcap => exact ⟨fun _ => hcap, hc.event⟩
    | secure => exact ⟨fun hlive => ⟨(hc.control hlive).1, Nat.zero_lt_succ _⟩, hc.event⟩
    | drain _ _ hrx =>
      exact ⟨fun hlive => ⟨hrx.length_le.trans (hc.control hlive).1, (hc.control hlive).2⟩, hc.event⟩
    | _ => exact ⟨hc.control, hc.event⟩
  | arrives a ha h =>
    cases h with
    | nothing => exact hc
    | plain _ _ _ hcap => exact ⟨fun hlive => ⟨hcap, (hc.control hlive).2⟩, hc.event⟩
    | opened _ _ _ _ hopen hcap => exact ⟨fun _ => ⟨hcap, openFrames_rest hopen⟩, hc.event⟩
    | refused => exact ⟨fun hlive => absurd rfl hlive, hc.event⟩
    | events bytes key ctr =>
      refine ⟨hc.control, ?_⟩
      dsimp only
      split
      · exact Nat.zero_lt_succ _
      · rename_i hopen
        exact openFrames_rest (Bool.eq_false_iff.mpr hopen)
    | hungUp => exact hc.finished _ _ _

/-- The event plaintext only grows by what is delivered there. -/
theorem Act.plain_le (h : Act Ok c c') : c'.eventPlainBuf.length ≤ c.eventPlainBuf.length := by
  cases h with
  | begin => exact Nat.zero_le _
  | drain _ _ _ hplain => exact hplain.length_le
  | _ => exact le_rfl

theorem Arrives.plain_le {a : Action} (h : Arrives a c c')
    (ha : ∀ bytes, a ≠ .onTcpData .event bytes) :
    c'.eventPlainBuf.length ≤ c.eventPlainBuf.length := by
  cases h with
  | events bytes => exact absurd rfl (ha bytes)
  | _ => exact le_rfl

/-! ## 4. Runs -/

/-- All four buffers are within their bounds. -/
structure Sender.Within (s : Sender) : Prop where
  rxBuf : s.rxBuf.length ≤ rxCap
  rtspEncBuf : s.rtspEncBuf.length < frameCap
  eventPlainBuf : s.eventPlainBuf.length ≤ rxCap
  eventEncBuf : s.eventEncBuf.length < frameCap

/-- What is known of a sender between two actions. -/
structure Bounded (w : World) : Prop where
  flow : Flow (coreOf w)
  whole : (wireOf w).Reassembled
  held : (wireOf w).Held
  plain : w.s.eventPlainBuf.length ≤ rxCap

omit [Primitives] in
theorem Bounded.init (env : Env) : Bounded (World.init env) :=
  ⟨Flow.init, reassembled_init env, ⟨fun hlive => absurd rfl hlive, Nat.zero_lt_succ _⟩,
    Nat.zero_le _⟩

omit [Primitives] in
theorem Bounded.within (h : Bounded w) (hlive : w.s.state ≠ .idle) : w.s.Within :=
  ⟨(h.held.control hlive).1, (h.held.control hlive).2, h.plain, h.held.event⟩

section Runs

variable [Host]

/-- Every action of a run meets a condition. -/
def EachMeets (P : World → Action → Prop) : List Action → World → Prop
  | [], _ => True
  | a :: as, w =>
    P w a ∧ ((perform a w).1 ≠ .error .nullDeref → EachMeets P as (perform a w).2)

/-- An action keeps everything but the cap of the event plaintext. -/
theorem Bounded.next (hfire : Heeds fun _ => True) (htame : Tame) (h : Bounded w) {a : Action}
    (hplain : (perform a w).2.s.eventPlainBuf.length ≤ rxCap) : Bounded (perform a w).2 := by
  have hallowed : (wireOf w).Allowed fun _ => True := fun _ _ _ => trivial
  obtain ⟨⟨hturns, -⟩, -⟩ := perform_turns hfire htame h.flow h.whole hallowed (a := a) trivial
  exact ⟨(perform_walks htame a).keeps h.flow, turns_reassembled hturns h.whole,
    moves_keep (I := Wire.Held) (fun _ _ => Turn.held) hturns h.held, hplain⟩

/-- **An action keeps the cap of the event plaintext exactly where it is modest.** -/
theorem Bounded.plain_iff (hfire : Heeds fun _ => True) (htame : Tame) (h : Bounded w) (a : Action) :
    (perform a w).2.s.eventPlainBuf.length ≤ rxCap ↔ Modest w a := by
  by_cases ha : ∃ bytes, a = .onTcpData .event bytes
  · obtain ⟨bytes, rfl⟩ := ha
    exact (onEventReadyRead_plain h.plain bytes).2
  · have hother (bytes : Octets) : a ≠ .onTcpData .event bytes := fun heq => ha ⟨bytes, heq⟩
    have hmodest : Modest w a := by
      unfold Modest
      split
      · exact absurd rfl (hother _)
      · trivial
    have hallowed : (wireOf w).Allowed fun _ => True := fun _ _ _ => trivial
    obtain ⟨⟨c, harrives, hacts, -⟩, -⟩ := perform_carriesOut hfire htame h.flow h.whole
      (a := a) trivial hallowed
    have hle : (wireOf (perform a w).2).eventPlainBuf.length ≤ c.eventPlainBuf.length := by
      generalize wireOf (perform a w).2 = c' at hacts
      induction hacts with
      | refl => exact le_rfl
      | tail _ hact ih => exact hact.plain_le.trans ih
    exact iff_of_true (hle.trans ((harrives.plain_le hother).trans h.plain)) hmodest

/-- It is enough to look at sessions that are alive. -/
theorem Bounded.modest (h : Bounded w) {a : Action}
    (hwithin : ∀ ch bytes, a = .onTcpData ch bytes → (perform a w).2.s.state ≠ .idle →
      (perform a w).2.s.Within) : Modest w a := by
  by_cases ha : ∃ bytes, a = .onTcpData .event bytes
  · obtain ⟨bytes, rfl⟩ := ha
    by_cases hidle : w.s.state = .idle
    · exact fun hlive => absurd hidle hlive
    · obtain ⟨hstate, hiff⟩ := onEventReadyRead_plain h.plain bytes
      refine hiff.mp (hwithin _ _ rfl ?_).eventPlainBuf
      intro hdone
      exact hidle (hstate.symm.trans hdone)
  · unfold Modest
    split
    · exact absurd ⟨_, rfl⟩ ha
    · trivial

/-- The buffers in a run that starts within bounds. -/
theorem Bounded.run_iff (hfire : Heeds fun _ => True) (htame : Tame) :
    ∀ (actions : List Action) {w : World}, Bounded w →
      ((∀ earlier ch bytes, earlier ++ [.onTcpData ch bytes] <+: actions →
        (run (earlier ++ [.onTcpData ch bytes]) w).s.state ≠ .idle →
          (run (earlier ++ [.onTcpData ch bytes]) w).s.Within) ↔ EachMeets Modest actions w) := by
  intro actions
  induction actions with
  | nil =>
    intro w _
    refine iff_of_true ?_ trivial
    intro earlier ch bytes hpre
    exact absurd (List.prefix_nil.mp hpre) (by simp)
  | cons a actions ih =>
    intro w h
    constructor
    · intro hwithin
      have hmodest : Modest w a := by
        refine h.modest ?_
        rintro ch bytes rfl
        rw [← run_single]
        exact hwithin [] ch bytes (List.prefix_cons_inj _ |>.mpr List.nil_prefix)
      refine ⟨hmodest, fun hgoes => ?_⟩
      refine (ih (h.next hfire htame ((h.plain_iff hfire htame a).mpr hmodest))).mp ?_
      intro earlier ch bytes hpre
      have hlater := hwithin (a :: earlier) ch bytes (List.cons_prefix_cons.mpr ⟨rfl, hpre⟩)
      rw [List.cons_append, run_cons, if_neg hgoes] at hlater
      exact hlater
    · rintro ⟨hmodest, hrest⟩ earlier ch bytes hpre hlive
      have hnext := h.next hfire htame ((h.plain_iff hfire htame a).mpr hmodest)
      cases earlier with
      | nil =>
        obtain ⟨rfl, -⟩ := List.cons_prefix_cons.mp hpre
        rw [List.nil_append, run_single] at hlive ⊢
        exact hnext.within hlive
      | cons b earlier =>
        rw [List.cons_append] at hpre
        obtain ⟨rfl, hrestpre⟩ := List.cons_prefix_cons.mp hpre
        rw [List.cons_append, run_cons] at hlive ⊢
        split at hlive
        · rename_i hends
          rw [if_pos hends]
          exact hnext.within hlive
        · rename_i hgoes
          rw [if_neg hgoes]
          exact (ih hnext).mpr (hrest hgoes) earlier ch bytes hrestpre hlive

end Runs

/-- **The receive buffers are bounded exactly in the runs whose event deliveries are modest**: in
such a run, after every delivery that leaves the session alive, the plaintext buffers hold at most
4 MiB and the frame buffers less than a frame; in any other run the cap is exceeded after one. -/
theorem buffers_within (depth : ℕ) (env : Env) (actions : List Action) :
    let _ := host depth
    (∀ earlier ch bytes, earlier ++ [.onTcpData ch bytes] <+: actions →
      (run (earlier ++ [.onTcpData ch bytes]) (World.init env)).s.state ≠ .idle →
        (run (earlier ++ [.onTcpData ch bytes]) (World.init env)).s.Within) ↔
      EachMeets Modest actions (World.init env) :=
  @Bounded.run_iff _ (host depth) (host_heeds depth) (host_tame depth) actions _ (Bounded.init env)

end Buffers

/-! ## 5. A request that never ends -/

section ByHand

/-- A request line that goes on and on, in frames. -/
def endlessLine : List Octets := List.replicate 65 (List.replicate 65535 97)

/-- It is delivered at once. -/
def flooded : List Action :=
  storedActions ++ [.onTcpData .event (@framesOf trusting sampleEventIn 0 endlessLine).flatten]

/-- There is no request in it. -/
theorem endless_unsettled : ¬ Settles endlessLine.flatten := by
  rintro ⟨requests, rest, hwhole, -, hsplit, hle⟩
  have hmem : ∀ c ∈ endlessLine.flatten, c = 97 := by
    intro c hc
    obtain ⟨line, hline, hin⟩ := List.mem_flatten.mp hc
    rw [endlessLine, List.mem_replicate] at hline
    rw [hline.2, List.mem_replicate] at hin
    exact hin.2
  have hnone : requests = [] := by
    cases requests with
    | nil => rfl
    | cons r requests =>
      obtain ⟨cseq, hnext⟩ := hwhole r List.mem_cons_self
      unfold nextEventRequest at hnext
      cases hfind : find headSep r with
      | none =>
        rw [hfind] at hnext
        cases hnext
      | some headEnd =>
        have hcr : (13 : UInt8) ∈ r :=
          List.mem_of_mem_drop (( find_prefix hfind).subset (List.mem_cons_self))
        have hin : (13 : UInt8) ∈ endlessLine.flatten := by
          rw [hsplit, List.flatten_cons]
          exact List.mem_append_left _ (List.mem_append_left _ hcr)
        exact absurd (hmem 13 hin) (by decide)
  rw [hnone, List.flatten_nil, List.nil_append] at hsplit
  rw [← hsplit, endlessLine, List.length_flatten, List.map_replicate, List.length_replicate,
    List.sum_replicate, rxCap] at hle
  exact absurd hle (by decide)

/-- **The event plaintext is not bounded**: 65 frames of one request line are all kept. -/
theorem event_buffer_unbounded :
    @Reachable trusting (worldAfter flooded) ∧ (worldAfter flooded).s.state ≠ .idle ∧
      rxCap < (worldAfter flooded).s.eventPlainBuf.length := by
  refine ⟨worldAfter_reachable flooded, ?_⟩
  obtain ⟨a, ha, ⟨hin, hout⟩, hlive, henc, hplain, hrecv, -, -⟩ := stored_keyed
  have hruns : @runsOn trusting (@host trusting 0) storedActions (.init .still) = true := by
    decide +kernel
  have hworld : worldAfter flooded = (@onEventReadyRead trusting
      (@framesOf trusting sampleEventIn 0 endlessLine).flatten (worldAfter storedActions)).2 := by
    unfold worldAfter flooded
    rw [@run_append trusting (@host trusting 0) _ _ _ hruns]
    exact @run_single trusting (@host trusting 0) _ _
  obtain ⟨hstate, hiff⟩ := @onEventReadyRead_plain trusting (worldAfter storedActions)
    (by rw [hplain]; exact Nat.zero_le _) (@framesOf trusting sampleEventIn 0 endlessLine).flatten
  rw [← hworld] at hstate hiff
  refine ⟨by rw [hstate]; exact hlive, ?_⟩
  rw [← not_le, hiff]
  intro hmodest
  have hsize : ∀ line ∈ endlessLine, line.length < 2 ^ 16 := by
    intro line hline
    rw [endlessLine, List.mem_replicate] at hline
    rw [hline.2, List.length_replicate]
    decide
  have hopen := @openFrames_framesOf trusting opensSealed_transparent sampleEventIn
    length_sampleEventIn endlessLine hsize 0
  have hsettles := hmodest hlive a ha (by rw [hin, length_sampleEventIn])
    (by rw [hout, length_sampleEventOut])
  rw [hin, henc, hrecv, hplain, List.nil_append, hopen] at hsettles
  dsimp only at hsettles
  rw [if_neg Bool.false_ne_true, List.nil_append, Opened.plaintext, flatMap_opening] at hsettles
  exact endless_unsettled hsettles

end ByHand

end AirplaySender
