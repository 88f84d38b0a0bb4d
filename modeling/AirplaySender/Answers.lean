/-
# The frames of an event answer

`onEventReadyRead_` frames its answers itself, without the chunk loop of `writeRtsp_`: an answer is
one frame, whatever its length, behind a prefix of two octets.  Frames hold 1024 octets at most, so
an answer is well framed as long as it is no longer than that (`framed_iff`), and the only part of
it that can grow is the `CSeq` that is echoed.

`event_answers_framed_iff` says this of a whole delivery: whatever arrives, every request that is
complete is answered under the next counter, and the answers are well framed if and only if no
`CSeq` among them has more than 972 octets.
-/
import AirplaySender.Events

namespace AirplaySender

open Octets Prog Trace

section Answers

variable [Primitives]

/-! ## 1. Text in frames -/

/-- `written` is `answer` in frames: pieces of 1024 octets at most, each behind its length and
sealed under the next counter.  A reader of frames gets the answer back, has nothing left over, and
expects the counter `next`. -/
structure Framed (key : Octets) (ctr next : UInt64) (answer written : Octets) : Prop where
  pieces : ∃ pts : List Octets, pts.flatten = answer ∧ (∀ pt ∈ pts, pt.length ≤ 1024) ∧
    written = (framesOf key ctr pts).flatten
  recovered : OpensSealed → ∃ frames, openFrames key written ctr = ⟨frames, [], next, false⟩ ∧
    frames.flatMap Prod.snd = answer

theorem length_flatten_framesOf (key : Octets) (pts : List Octets) (ctr : UInt64) :
    (framesOf key ctr pts).flatten.length = pts.flatten.length + 18 * pts.length := by
  induction pts generalizing ctr with
  | nil => rfl
  | cons pt pts ih =>
    rw [framesOf, List.flatten_cons, List.length_append, length_frame, ih, List.flatten_cons,
      List.length_append, List.length_cons]
    omega

variable {key answer written : Octets} {ctr next : UInt64}

/-- The length of what is written gives the number of frames away. -/
theorem Framed.length_le (h : Framed key ctr next answer written)
    (hone : written.length ≤ answer.length + 18) : answer.length ≤ 1024 := by
  obtain ⟨pts, rfl, hsize, rfl⟩ := h.pieces
  rw [length_flatten_framesOf] at hone
  match pts with
  | [] => exact Nat.zero_le _
  | [pt] =>
    rw [List.flatten_cons, List.flatten_nil, List.append_nil]
    exact hsize pt (List.mem_singleton_self pt)
  | _ :: _ :: pts =>
    rw [List.length_cons, List.length_cons] at hone
    omega

/-- **One frame is enough for 1024 octets**, and for no more. -/
theorem framed_iff (hkey : key.length = 32) :
    Framed key ctr (ctr + 1) answer (frame key ctr answer) ↔ answer.length ≤ 1024 := by
  constructor
  · intro h
    exact h.length_le (length_frame key ctr answer).le
  · intro hle
    have hframe : frame key ctr answer = (framesOf key ctr [answer]).flatten := by
      rw [framesOf, framesOf, List.flatten_cons, List.flatten_nil, List.append_nil]
    constructor
    · refine ⟨[answer], List.append_nil answer, ?_, hframe⟩
      intro pt hpt
      rw [List.mem_singleton.mp hpt]
      exact hle
    · intro hopens
      refine ⟨opening ctr [answer], ?_, ?_⟩
      · rw [hframe]
        refine openFrames_framesOf hopens hkey ?_ ctr
        intro pt hpt
        rw [List.mem_singleton.mp hpt]
        omega
      · rw [flatMap_opening, List.flatten_cons, List.flatten_nil, List.append_nil]

/-! ## 2. How long an answer is -/

omit [Primitives] in
theorem eventResponse_le_iff (cseq : Octets) :
    (eventResponse cseq).length ≤ 1024 ↔ cseq.length ≤ 972 := by
  rw [length_eventResponse]
  split
  · rename_i h
    rw [h]
    decide
  · omega

/-! ## 3. A delivery -/

/-- The `CSeq` values of the complete requests of a buffer, in order. -/
def cseqsOf : ℕ → Octets → List Octets
  | 0, _ => []
  | fuel + 1, buf =>
    match nextEventRequest buf with
    | none => []
    | some (cseq, total) => cseq :: cseqsOf fuel (buf.drop total)

/-- The answers that go out: those in front of the first whose length is a negative `int`, each as
far as its own `int` reaches. -/
def sentAnswers (cseqs : List Octets) : List Octets :=
  (cseqs.takeWhile fun cseq => 0 ≤ wrap32 (eventResponse cseq).length).map fun cseq =>
    intPrefix (eventResponse cseq)

omit [Primitives] in
theorem wrap32_brief {cseq : Octets} (h : BriefCseq cseq) : 0 ≤ wrap32 (eventResponse cseq).length := by
  rw [wrap32_of_lt ((briefCseq_iff cseq).mp h)]
  exact Int.natCast_nonneg _

omit [Primitives] in
/-- Where no `CSeq` is that long, that is all of them. -/
theorem sentAnswers_brief {cseqs : List Octets} (h : ∀ cseq ∈ cseqs, BriefCseq cseq) :
    sentAnswers cseqs = cseqs.map eventResponse := by
  have hall : cseqs.takeWhile (fun cseq => 0 ≤ wrap32 (eventResponse cseq).length) = cseqs :=
    List.takeWhile_eq_self_iff.mpr fun cseq hcseq => decide_eq_true (wrap32_brief (h cseq hcseq))
  rw [sentAnswers, hall]
  exact List.map_congr_left fun cseq hcseq =>
    intPrefix_of_lt ((briefCseq_iff cseq).mp (h cseq hcseq))

omit [Primitives] in
theorem sentAnswers_cons (cseq : Octets) (cseqs : List Octets) : sentAnswers (cseq :: cseqs) =
    if 0 ≤ wrap32 (eventResponse cseq).length then
      intPrefix (eventResponse cseq) :: sentAnswers cseqs
    else [] := by
  unfold sentAnswers
  rw [List.takeWhile_cons]
  by_cases h : 0 ≤ wrap32 (eventResponse cseq).length
  · rw [if_pos h, if_pos (decide_eq_true h), List.map_cons]
  · rw [if_neg h, if_neg (by simpa using h), List.map_nil]

omit [Primitives] in
/-- What is sent for a request is its answer, or less. -/
theorem sentAnswers_getElem {cseqs : List Octets} {i : ℕ} {cseq answer : Octets}
    (hcseq : cseqs[i]? = some cseq) (hanswer : (sentAnswers cseqs)[i]? = some answer) :
    answer = intPrefix (eventResponse cseq) := by
  rw [sentAnswers, List.getElem?_map, Option.map_eq_some_iff] at hanswer
  obtain ⟨told, htold, rfl⟩ := hanswer
  obtain ⟨more, hmore⟩ := List.takeWhile_prefix (l := cseqs) fun cseq =>
    decide (0 ≤ wrap32 (eventResponse cseq).length)
  have hsame : cseqs[i]? = some told := by
    rw [← hmore, List.getElem?_append_left (List.getElem?_eq_some_iff.mp htold).1, htold]
  rw [Option.some.inj (hcseq.symm.trans hsame)]

/-- **Each complete request is answered** under the next counter, in one frame, up to one whose
answer an `int` does not measure. -/
theorem answerEvents_sends {a : Ap2State} (hout : a.eventOut.length = 32) (fuel : ℕ) {w : World}
    (ha : w.s.ap2 = some a) :
    shown eventSent (answerEvents fuel w).2.out = shown eventSent w.out ++
        framesOf a.eventOut w.s.eventSendCtr (sentAnswers (cseqsOf fuel w.s.eventPlainBuf)) ∧
      ((∀ cseq ∈ cseqsOf fuel w.s.eventPlainBuf, BriefCseq cseq) →
        (answerEvents fuel w).1 = .ok () ∧ (answerEvents fuel w).2.s.eventSendCtr =
          w.s.eventSendCtr + UInt64.ofNat (cseqsOf fuel w.s.eventPlainBuf).length) := by
  induction fuel generalizing w with
  | zero => exact ⟨by simp [cseqsOf, sentAnswers, framesOf, answerEvents], by simp [cseqsOf, answerEvents]⟩
  | succ fuel ih =>
    cases hnext : nextEventRequest w.s.eventPlainBuf with
    | none =>
      have hrun : answerEvents (fuel + 1) w = (.ok (), w) := by
        rw [answerEvents, sender_bind, hnext]
        rfl
      rw [hrun, cseqsOf, hnext]
      exact ⟨by simp [sentAnswers, framesOf], by simp⟩
    | some found =>
      obtain ⟨cseq, total⟩ := found
      have hcseqs : cseqsOf (fuel + 1) w.s.eventPlainBuf =
          cseq :: cseqsOf fuel (w.s.eventPlainBuf.drop total) := by rw [cseqsOf, hnext]
      rw [hcseqs, sentAnswers_cons]
      by_cases hresp : 0 ≤ wrap32 (eventResponse cseq).length
      · obtain ⟨hsent, hbrief⟩ :=
          ih (w := w.answered a.eventOut (intPrefix (eventResponse cseq)) total) ha
        rw [answerEvents_round hout ha hnext hresp, if_pos hresp]
        refine ⟨?_, fun hall => ?_⟩
        · have hone : shown eventSent
              (w.answered a.eventOut (intPrefix (eventResponse cseq)) total).out =
              shown eventSent w.out ++
                [frame a.eventOut w.s.eventSendCtr (intPrefix (eventResponse cseq))] :=
            (shown_cons_some (f := eventSent) rfl).trans
              (congrArg (· ++ _) (shown_cons_none (f := eventSent) rfl))
          rw [hsent, hone, framesOf, List.append_assoc]
          rfl
        · obtain ⟨hok, hctr⟩ := hbrief fun c hc => hall c (List.mem_cons_of_mem cseq hc)
          refine ⟨hok, hctr.trans ?_⟩
          rw [List.length_cons]
          exact ctr_succ _ _
      · rw [answerEvents_lost ha hnext (not_le.mp hresp), if_neg hresp]
        refine ⟨?_, fun hall => absurd ?_ hresp⟩
        · rw [framesOf, List.append_nil]
          exact shown_cons_none (f := eventSent) rfl
        · exact wrap32_brief (hall cseq List.mem_cons_self)

/-- The `CSeq` values of the requests a delivery completes.  A frame that does not open hides the
requests behind it, and those before it are left for the next delivery. -/
def World.asked (w : World) (a : Ap2State) (bytes : Octets) : List Octets :=
  let o := openFrames a.eventIn (w.s.eventEncBuf ++ bytes) w.s.eventRecvCtr
  let plainBuf := w.s.eventPlainBuf ++ o.plaintext
  if o.failed then [] else cseqsOf plainBuf.length plainBuf

/-- What a delivery to a keyed event channel sends. -/
theorem onEventReadyRead_sends {w : World} {a : Ap2State} (hlive : w.s.state ≠ .idle)
    (ha : w.s.ap2 = some a) (hin : a.eventIn.length = 32) (hout : a.eventOut.length = 32)
    (bytes : Octets) :
    shown eventSent (onEventReadyRead bytes w).2.out = shown eventSent w.out ++
        framesOf a.eventOut w.s.eventSendCtr (sentAnswers (w.asked a bytes)) ∧
      ((∀ cseq ∈ w.asked a bytes, BriefCseq cseq) → (onEventReadyRead bytes w).1 = .ok () ∧
        (onEventReadyRead bytes w).2.s.eventSendCtr =
          w.s.eventSendCtr + UInt64.ofNat (w.asked a bytes).length) := by
  let w₁ := takeEventFrames a.eventIn bytes w
  have htake : (Prog.modify (takeEventFrames a.eventIn bytes) : M Unit) w = (.ok (), w₁) := rfl
  have hquiet : shown eventSent w₁.out = shown eventSent w.out := shown_eventReadEntries ..
  have hkeyed : ¬ (a.eventIn.length ≠ 32 ∨ a.eventOut.length ≠ 32) :=
    not_or.mpr ⟨not_not.mpr hin, not_not.mpr hout⟩
  rw [onEventReadyRead, sender_bind, if_neg hlive, ha]
  dsimp only
  rw [if_neg hkeyed, bind_ok htake]
  cases hfailed : (openFrames a.eventIn (w.s.eventEncBuf ++ bytes) w.s.eventRecvCtr).failed with
  | true =>
    have hnone : w.asked a bytes = [] := by rw [World.asked, if_pos hfailed]
    rw [hnone]
    refine ⟨?_, fun _ => ⟨rfl, (UInt64.add_zero _).symm⟩⟩
    rw [sentAnswers, List.takeWhile_nil, List.map_nil, framesOf, List.append_nil]
    exact hquiet
  | false =>
    have hasked : w.asked a bytes = cseqsOf w₁.s.eventPlainBuf.length w₁.s.eventPlainBuf := by
      rw [World.asked, hfailed]
      rfl
    obtain ⟨hsent, hbrief⟩ := answerEvents_sends hout w₁.s.eventPlainBuf.length (w := w₁) ha
    rw [if_neg (by decide), sender_bind, hasked, ← hquiet]
    exact ⟨hsent, hbrief⟩

/-- **The answers of a delivery are well framed**, each complete request with one under the next
counter, if and only if no request it completes has a `CSeq` of more than 972 octets. -/
theorem event_answers_framed_iff {w : World} {a : Ap2State} (hlive : w.s.state ≠ .idle)
    (ha : w.s.ap2 = some a) (hin : a.eventIn.length = 32) (hout : a.eventOut.length = 32)
    (bytes : Octets) : ∃ w' written, (onEventReadyRead bytes w).2 = w' ∧
      shown eventSent w'.out = shown eventSent w.out ++ written ∧
      ((∀ cseq ∈ w.asked a bytes, BriefCseq cseq) → (onEventReadyRead bytes w).1 = .ok () ∧
        written.length = (w.asked a bytes).length ∧
        w'.s.eventSendCtr = w.s.eventSendCtr + UInt64.ofNat (w.asked a bytes).length) ∧
      ((∀ (i : ℕ) (cseq : Octets), (w.asked a bytes)[i]? = some cseq → ∃ sent,
        written[i]? = some sent ∧ Framed a.eventOut (w.s.eventSendCtr + UInt64.ofNat i)
          (w.s.eventSendCtr + UInt64.ofNat (i + 1)) (eventResponse cseq) sent) ↔
        ∀ cseq ∈ w.asked a bytes, cseq.length ≤ 972) := by
  obtain ⟨hsent, hbrief⟩ := onEventReadyRead_sends hlive ha hin hout bytes
  have hnext : ∀ i, w.s.eventSendCtr + UInt64.ofNat (i + 1) =
      w.s.eventSendCtr + UInt64.ofNat i + 1 := by
    intro i
    rw [UInt64.ofNat_add, ← UInt64.add_assoc]
    rfl
  refine ⟨_, _, rfl, hsent, fun hall => ?_, ?_⟩
  · obtain ⟨hok, hctr⟩ := hbrief hall
    rw [length_framesOf, sentAnswers_brief hall, List.length_map]
    exact ⟨hok, rfl, hctr⟩
  · constructor
    · intro hall cseq hmem
      obtain ⟨i, hi⟩ := List.getElem?_of_mem hmem
      obtain ⟨sent, hwritten, hframed⟩ := hall i cseq hi
      rw [getElem?_framesOf, Option.map_eq_some_iff] at hwritten
      obtain ⟨answer, hanswer, rfl⟩ := hwritten
      have hprefix : answer.length ≤ (eventResponse cseq).length := by
        rw [sentAnswers_getElem hi hanswer]
        exact length_intPrefix_le (eventResponse cseq)
      exact (eventResponse_le_iff cseq).mp (hframed.length_le (by rw [length_frame]; omega))
    · intro hsmall i cseq hcseq
      have hall : ∀ cseq ∈ w.asked a bytes, BriefCseq cseq := fun cseq hmem =>
        lt_of_le_of_lt (Nat.add_le_add_right (hsmall cseq hmem) 52) (by norm_num)
      refine ⟨frame a.eventOut (w.s.eventSendCtr + UInt64.ofNat i) (eventResponse cseq), ?_, ?_⟩
      · rw [getElem?_framesOf, sentAnswers_brief hall, List.getElem?_map, hcseq]
        rfl
      · rw [hnext]
        exact (framed_iff hout).mpr
          ((eventResponse_le_iff cseq).mpr (hsmall cseq (List.mem_of_getElem? hcseq)))

end Answers

/-! ## 4. By hand -/

section ByHand

/-- The two requests of the sample are answered in frames. -/
theorem event_answers_framed_sample : ∃ w' written,
    (@onEventReadyRead trusting pushed (worldAfter storedActions)).2 = w' ∧
    shown eventSent w'.out = shown eventSent (worldAfter storedActions).out ++ written := by
  obtain ⟨a, ha, ⟨hin, hout⟩, hlive, -⟩ := stored_keyed
  obtain ⟨w', written, hrun, hsent, -⟩ := @event_answers_framed_iff trusting _ a hlive ha
    (by rw [hin, length_sampleEventIn]) (by rw [hout, length_sampleEventOut]) pushed
  exact ⟨w', written, hrun, hsent⟩

/-- One octet too many. -/
def longCseq : Octets := List.replicate 973 49

/-- A request that asks for an answer of more than 1024 octets. -/
def longRequest : Octets :=
  @frame trusting sampleEventIn 0 (ascii "POST /command RTSP/1.0\r\nCSeq: " ++ longCseq ++ headSep)

/-- Its answer is no sequence of frames of 1024 octets, under whichever counter. -/
theorem event_answer_oversized : ∃ w' sent,
    @onEventReadyRead trusting longRequest (worldAfter storedActions) = (.ok (), w') ∧
    shown eventSent w'.out = shown eventSent (worldAfter storedActions).out ++ [sent] ∧
    ∀ ctr next, ¬ @Framed trusting sampleEventOut ctr next (eventResponse longCseq) sent := by
  obtain ⟨a, ha, ⟨hin, hout⟩, hlive, hbufs⟩ := stored_keyed
  obtain ⟨hsent, hbrief⟩ := @onEventReadyRead_sends trusting _ a hlive ha
    (by rw [hin, length_sampleEventIn]) (by rw [hout, length_sampleEventOut]) longRequest
  obtain ⟨henc, hplain, hrecv, hsend, -⟩ := hbufs
  have hopened : (@openFrames trusting sampleEventIn longRequest 0).failed = false ∧
      cseqsOf (@openFrames trusting sampleEventIn longRequest 0).plaintext.length
        (@openFrames trusting sampleEventIn longRequest 0).plaintext = [longCseq] := by
    decide +kernel
  have hasked : @World.asked trusting (worldAfter storedActions) a longRequest = [longCseq] := by
    unfold World.asked
    dsimp only
    rw [henc, hplain, hrecv, hin, List.nil_append, List.nil_append, hopened.1,
      if_neg Bool.false_ne_true, hopened.2]
  have hone : ∀ cseq ∈ [longCseq], BriefCseq cseq := by
    intro cseq hmem
    rw [List.mem_singleton.mp hmem, BriefCseq, longCseq, List.length_replicate]
    omega
  rw [hasked, sentAnswers_brief hone] at hsent
  refine ⟨_, _, Prod.ext (hbrief (by rw [hasked]; exact hone)).1 rfl, hsent, ?_⟩
  intro ctr next hframed
  have hle := @Framed.length_le trusting _ _ _ _ _ hframed (@length_frame trusting ..).le
  have hlong : longCseq.length = 973 := List.length_replicate
  rw [eventResponse_le_iff, hlong] at hle
  omega

end ByHand

end AirplaySender
