/-
# The event channel

The receiver pushes RTSP requests over a connection of its own, sealed in frames, and drops the
session when one is left unanswered.  Frames are put together from what TCP delivers, requests from
what the frames hold, and either may be cut anywhere.

`event_keepalive` says what the receiver gets back: after any number of deliveries, one answer for
each request that lies within the frames that lie within the octets delivered so far, in order, with
the request's `CSeq`.
-/
import AirplaySender.Heads
import AirplaySender.Arrivals
import AirplaySender.Lib.Cut
import AirplaySender.Lib.Trace

namespace AirplaySender

open Octets Prog Trace

/-! ## 1. Requests -/

/-- A request of the receiver: the request line, the header fields as they are written, the body. -/
structure EventRequest where
  line : Octets
  fields : List (Octets × Octets)
  body : Octets

namespace EventRequest

variable {r : EventRequest}

/-- Everything up to the empty line. -/
def head (r : EventRequest) : Octets := joinLines (r.line :: r.fields.map fun f => f.1 ++ 58 :: f.2)

def text (r : EventRequest) : Octets := r.head ++ headSep ++ r.body

/-- A field's name, in any case and between blanks. -/
def named (key : Octets) (f : Octets × Octets) : Bool := trimAscii (lowerAscii f.1) == key

/-- The value of `CSeq`, empty where there is none. -/
def cseq (r : EventRequest) : Octets :=
  ((r.fields.find? (named (ascii "cseq"))).map fun f => trimAscii f.2).getD []

/-- A request a receiver may push. -/
structure WellFormed (r : EventRequest) : Prop where
  /-- No empty line ends the head early. -/
  whole : ¬ headSep <:+: r.head ++ [13, 10, 13]
  lines : 10 ∉ r.line ∧ ∀ f ∈ r.fields, 10 ∉ f.1 ∧ 10 ∉ f.2
  names : ∀ f ∈ r.fields, 58 ∉ f.1 ∧ ¬ Blank f.1
  /-- The request line is none of the headers that count. -/
  plain : ∀ e, headerLine r.line = some e → e.1 ≠ ascii "cseq" ∧ e.1 ≠ ascii "content-length"
  once : (r.fields.filter (named (ascii "cseq"))).length ≤ 1
  length : ∀ f ∈ r.fields, named (ascii "content-length") f = true →
    Spells (trimAscii f.2) r.body.length
  given : r.body ≠ [] → ∃ f ∈ r.fields, named (ascii "content-length") f = true
  small : r.body.length < 2 ^ 31

/-- The headers of a request. -/
def headers (r : EventRequest) : Headers :=
  (headerLine r.line).toList ++ r.fields.map fun f => (trimAscii (lowerAscii f.1), trimAscii f.2)

theorem headers_eq (h : r.WellFormed) :
    parseHeaders (splitOn r.head 10) = r.headers.reverse := by
  have hlf : ∀ l ∈ r.line :: r.fields.map (fun f => f.1 ++ 58 :: f.2), 10 ∉ l := by
    intro l hl
    rcases List.mem_cons.mp hl with rfl | hl
    · exact h.lines.1
    · obtain ⟨f, hf, rfl⟩ := List.mem_map.mp hl
      obtain ⟨hname, hvalue⟩ := h.lines.2 f hf
      simp [hname, hvalue]
  have hfields : (r.fields.map fun f => f.1 ++ 58 :: f.2).filterMap headerLine =
      r.fields.map fun f => (trimAscii (lowerAscii f.1), trimAscii f.2) := by
    rw [List.filterMap_map, ← List.filterMap_eq_map]
    refine List.filterMap_congr fun f hf => ?_
    obtain ⟨hcolon, hblank⟩ := h.names f hf
    exact headerLine_field hcolon hblank
  rw [head, parseHeaders_joinLines hlf, List.filterMap_cons, headers, hfields]
  cases headerLine r.line <;> rfl

/-- The request line adds no header that counts. -/
theorem filter_headers (h : r.WellFormed) {key : Octets}
    (hkey : key = ascii "cseq" ∨ key = ascii "content-length") :
    r.headers.filter (fun e => e.1 == key) =
      (r.fields.filter (named key)).map fun f => (trimAscii (lowerAscii f.1), trimAscii f.2) := by
  have hline : (headerLine r.line).toList.filter (fun e => e.1 == key) = [] := by
    rw [List.filter_eq_nil_iff]
    intro e he
    obtain ⟨hcseq, hlength⟩ := h.plain e (Option.mem_toList.mp he)
    rcases hkey with rfl | rfl
    · simpa using hcseq
    · simpa using hlength
  rw [headers, List.filter_append, hline, List.nil_append, List.filter_map]
  rfl

theorem headerValue_cseq (h : r.WellFormed) :
    headerValue r.headers.reverse (ascii "cseq") [] = r.cseq := by
  rw [headerValue_reverse]
  · unfold headerValue cseq
    rw [← List.head?_filter, filter_headers h (.inl rfl), ← List.head?_filter, List.head?_map,
      Option.map_map]
    rfl
  · rw [filter_headers h (.inl rfl), List.length_map]
    exact h.once

theorem toInt_length (h : r.WellFormed) :
    toInt (headerValue r.headers.reverse (ascii "content-length") []) = r.body.length := by
  unfold headerValue
  cases hfind : r.headers.reverse.find? fun e => e.1 == ascii "content-length" with
  | none =>
    have hbody : r.body = [] := by
      by_contra hne
      obtain ⟨f, hf, hnamed⟩ := h.given hne
      have hmem : (trimAscii (lowerAscii f.1), trimAscii f.2) ∈ r.headers.reverse := by
        rw [List.mem_reverse, headers]
        exact List.mem_append_right _ (List.mem_map.mpr ⟨f, hf, rfl⟩)
      exact absurd hnamed (List.find?_eq_none.mp hfind _ hmem)
    rw [hbody]
    rfl
  | some e =>
    have hkey := List.find?_some hfind
    have hmem : e ∈ r.headers.filter fun e => e.1 == ascii "content-length" :=
      List.mem_filter.mpr ⟨List.mem_reverse.mp (List.mem_of_find?_eq_some hfind), hkey⟩
    rw [filter_headers h (.inr rfl)] at hmem
    obtain ⟨f, hf, rfl⟩ := List.mem_map.mp hmem
    obtain ⟨hin, hnamed⟩ := List.mem_filter.mp hf
    exact toInt_spells (h.length f hin hnamed) h.small

/-- **A complete request is taken as it is**, with its `CSeq`. -/
theorem next_text (h : r.WellFormed) :
    nextEventRequest r.text = some (r.cseq, r.text.length) := by
  unfold nextEventRequest
  rw [text, find_headSep h.whole r.body]
  dsimp only
  rw [List.append_assoc, List.take_left, headers_eq h, headerValue_cseq h, toInt_length h]
  rw [if_neg]
  · simp [headSep]
    omega
  · simp [headSep]
    omega

/-- A request that is not complete waits. -/
theorem next_part (h : r.WellFormed) {part : Octets} (hpart : part <+: r.text)
    (hlen : part.length < r.text.length) : nextEventRequest part = none := by
  cases hnext : nextEventRequest part with
  | none => rfl
  | some found =>
    obtain ⟨cseq, total⟩ := found
    obtain ⟨more, hmore⟩ := hpart
    have hwhole := nextEventRequest_append hnext more
    rw [hmore, next_text h] at hwhole
    have htotal : r.text.length = total := by
      simpa using congrArg (Option.map Prod.snd) hwhole
    have := (nextEventRequest_le hnext).2
    omega

theorem text_ne_nil (r : EventRequest) : r.text ≠ [] := by
  simp [text, headSep]

end EventRequest

theorem le_length_texts (rs : List EventRequest) :
    rs.length ≤ (rs.map EventRequest.text).flatten.length := by
  induction rs with
  | nil => exact Nat.zero_le _
  | cons r rs ih =>
    have hpos := List.length_pos_of_ne_nil r.text_ne_nil
    rw [List.map_cons, List.flatten_cons, List.length_append, List.length_cons]
    omega

/-! ## 2. Frames -/

section Frames

variable [Primitives]

/-- Texts in frames, one after the other. -/
def framesOf (key : Octets) : UInt64 → List Octets → List Octets
  | _, [] => []
  | ctr, pt :: pts => frame key ctr pt :: framesOf key (ctr + 1) pts

@[simp] theorem length_frame (key : Octets) (ctr : UInt64) (pt : Octets) :
    (frame key ctr pt).length = pt.length + 18 := by
  simp [frame]
  omega

theorem length_framesOf (key : Octets) (pts : List Octets) (ctr : UInt64) :
    (framesOf key ctr pts).length = pts.length := by
  induction pts generalizing ctr with
  | nil => rfl
  | cons pt pts ih => simp [framesOf, ih]

theorem take_framesOf (key : Octets) (pts : List Octets) (ctr : UInt64) (n : ℕ) :
    (framesOf key ctr pts).take n = framesOf key ctr (pts.take n) := by
  induction pts generalizing ctr n with
  | nil => simp [framesOf]
  | cons pt pts ih =>
    cases n with
    | zero => rfl
    | succ n => simp [framesOf, ih]

omit [Primitives] in
theorem ctr_succ (ctr : UInt64) (n : ℕ) :
    ctr + 1 + UInt64.ofNat n = ctr + UInt64.ofNat (n + 1) := by
  rw [UInt64.ofNat_add, UInt64.add_assoc, UInt64.add_comm 1]
  rfl

omit [Primitives] in
/-- Counting on from where a counter stands. -/
theorem counter_on {ctr : UInt64} {m n : ℕ} (h : m ≤ n) :
    ctr + UInt64.ofNat m + UInt64.ofNat (n - m) = ctr + UInt64.ofNat n := by
  rw [UInt64.add_assoc, ← UInt64.ofNat_add, Nat.add_sub_cancel' h]

theorem drop_framesOf (key : Octets) (pts : List Octets) (ctr : UInt64) (n : ℕ) :
    (framesOf key ctr pts).drop n = framesOf key (ctr + UInt64.ofNat n) (pts.drop n) := by
  induction pts generalizing ctr n with
  | nil => simp [framesOf]
  | cons pt pts ih =>
    cases n with
    | zero => simp [framesOf]
    | succ n => rw [framesOf, List.drop_succ_cons, List.drop_succ_cons, ih, ctr_succ]

theorem framesOf_append (key : Octets) (pts qts : List Octets) (ctr : UInt64) :
    framesOf key ctr (pts ++ qts) =
      framesOf key ctr pts ++ framesOf key (ctr + UInt64.ofNat pts.length) qts := by
  induction pts generalizing ctr with
  | nil => simp [framesOf]
  | cons pt pts ih =>
    rw [List.cons_append, framesOf, ih, framesOf, List.cons_append, List.length_cons, ctr_succ]

/-- A frame is not empty. -/
theorem le_length_framesOf (key : Octets) (pts : List Octets) (ctr : UInt64) :
    pts.length ≤ (framesOf key ctr pts).flatten.length := by
  induction pts generalizing ctr with
  | nil => exact Nat.zero_le _
  | cons pt pts ih =>
    have hrest := ih (ctr + 1)
    rw [framesOf, List.flatten_cons, List.length_append, length_frame, List.length_cons]
    omega

theorem mem_framesOf {key : Octets} {pts : List Octets} {ctr : UInt64} {e : Octets}
    (h : e ∈ framesOf key ctr pts) : ∃ pt c, pt ∈ pts ∧ e = frame key c pt := by
  induction pts generalizing ctr with
  | nil => cases h
  | cons pt pts ih =>
    rcases List.mem_cons.mp h with rfl | h
    · exact ⟨pt, ctr, List.mem_cons_self, rfl⟩
    · obtain ⟨q, c, hq, rfl⟩ := ih h
      exact ⟨q, c, List.mem_cons_of_mem pt hq, rfl⟩

/-- The plaintexts of frames behind each other, with the counters they were opened with. -/
def opening : UInt64 → List Octets → List (UInt64 × Octets)
  | _, [] => []
  | ctr, pt :: pts => (ctr, pt) :: opening (ctr + 1) pts

omit [Primitives] in
theorem flatMap_opening (pts : List Octets) (ctr : UInt64) :
    (opening ctr pts).flatMap Prod.snd = pts.flatten := by
  induction pts generalizing ctr with
  | nil => rfl
  | cons pt pts ih => rw [opening, List.flatMap_cons, ih, List.flatten_cons]

omit [Primitives] in
/-- The length bytes of a frame say its length. -/
theorem length_bytes {n : ℕ} (h : n < 2 ^ 16) :
    (UInt8.ofNat n).toNat + (UInt8.ofNat (n / 256)).toNat * 256 = n := by
  rw [UInt8.toNat_ofNat', UInt8.toNat_ofNat']
  omega

/-- Part of a frame is kept. -/
theorem openLoop_part (key : Octets) (fuel : ℕ) {ctr : UInt64} (ctr' : UInt64) {pt tail : Octets}
    (hsize : pt.length < 2 ^ 16) (hpart : tail <+: frame key ctr pt)
    (hlen : tail.length < (frame key ctr pt).length) :
    openLoop key fuel tail ctr' = ⟨[], tail, ctr', false⟩ := by
  match fuel, tail with
  | 0, _ => rfl
  | _ + 1, [] => rfl
  | _ + 1, [_] => rfl
  | fuel + 1, l₀ :: l₁ :: body =>
    have hle : leBytes 2 pt.length = [UInt8.ofNat pt.length, UInt8.ofNat (pt.length / 256)] := rfl
    rw [length_frame, List.length_cons, List.length_cons] at hlen
    rw [frame, hle, List.cons_append, List.cons_append] at hpart
    obtain ⟨h₀, hpart⟩ := List.cons_prefix_cons.mp hpart
    obtain ⟨h₁, -⟩ := List.cons_prefix_cons.mp hpart
    unfold openLoop
    dsimp only
    rw [h₀, h₁, length_bytes hsize, if_pos (by omega)]

/-- **Frames that were sealed are opened**, and what is part of another one is kept. -/
theorem openLoop_framesOf (hopens : OpensSealed) {key : Octets} (hkey : key.length = 32)
    {tail : Octets}
    (htail : ∀ (fuel : ℕ) (ctr : UInt64), openLoop key fuel tail ctr = ⟨[], tail, ctr, false⟩) :
    ∀ (pts : List Octets) (ctr : UInt64) (fuel : ℕ), (∀ pt ∈ pts, pt.length < 2 ^ 16) →
      pts.length ≤ fuel → openLoop key fuel ((framesOf key ctr pts).flatten ++ tail) ctr =
        ⟨opening ctr pts, tail, ctr + UInt64.ofNat pts.length, false⟩ := by
  intro pts
  induction pts with
  | nil =>
    intro ctr fuel _ _
    rw [framesOf, List.flatten_nil, List.nil_append, htail]
    simp [opening]
  | cons pt pts ih =>
    intro ctr fuel hsize hfuel
    obtain ⟨fuel, rfl⟩ : ∃ k, fuel = k + 1 :=
      Nat.exists_eq_succ_of_ne_zero (Nat.ne_of_gt (Nat.lt_of_lt_of_le (Nat.succ_pos _) hfuel))
    have hpt := hsize pt List.mem_cons_self
    have hrest := ih (ctr + 1) fuel (fun q hq => hsize q (List.mem_cons_of_mem pt hq))
      (Nat.le_of_succ_le_succ hfuel)
    have hdecrypt := decrypt_seal hopens hkey (counterNonce8 ctr) pt (leBytes 2 pt.length)
    have hcipher : (chachaSeal key (counterNonce8 ctr) pt (leBytes 2 pt.length)).length =
      pt.length + 16 := length_chachaSeal ..
    have hle : leBytes 2 pt.length = [UInt8.ofNat pt.length, UInt8.ofNat (pt.length / 256)] := rfl
    have hbuf : (framesOf key ctr (pt :: pts)).flatten ++ tail =
        UInt8.ofNat pt.length :: UInt8.ofNat (pt.length / 256) ::
          (chachaSeal key (counterNonce8 ctr) pt (leBytes 2 pt.length) ++
            ((framesOf key (ctr + 1) pts).flatten ++ tail)) := by
      rw [framesOf, List.flatten_cons, frame, hle]
      simp
    rw [hbuf]
    unfold openLoop
    dsimp only
    rw [length_bytes hpt, if_neg (by rw [List.length_append, hcipher]; omega),
      List.take_left' hcipher, List.drop_left' hcipher, ← hle, hdecrypt]
    dsimp only
    rw [hrest, ctr_succ]
    rfl

/-- Frames with nothing behind them. -/
theorem openFrames_framesOf (hopens : OpensSealed) {key : Octets} (hkey : key.length = 32)
    {pts : List Octets} (hsize : ∀ pt ∈ pts, pt.length < 2 ^ 16) (ctr : UInt64) :
    openFrames key (framesOf key ctr pts).flatten ctr =
      ⟨opening ctr pts, [], ctr + UInt64.ofNat pts.length, false⟩ := by
  have hnil (fuel : ℕ) (ctr : UInt64) : openLoop key fuel [] ctr = ⟨[], [], ctr, false⟩ := by
    cases fuel <;> rfl
  have hread := openLoop_framesOf hopens hkey hnil pts ctr _ hsize (le_length_framesOf key pts ctr)
  rwa [List.append_nil] at hread

/-- What is left of frames does not open yet. -/
theorem openLoop_left {key : Octets} {pts : List Octets} (hsize : ∀ pt ∈ pts, pt.length < 2 ^ 16)
    (ctr : UInt64) (n fuel : ℕ) (ctr' : UInt64) :
    openLoop key fuel (Cut.part (framesOf key ctr pts) n) ctr' =
      ⟨[], Cut.part (framesOf key ctr pts) n, ctr', false⟩ := by
  cases hnext : (framesOf key ctr pts)[Cut.wholes (framesOf key ctr pts) n]? with
  | none =>
    rw [Cut.part_nil hnext]
    cases fuel <;> rfl
  | some e =>
    obtain ⟨hpart, hlen⟩ := Cut.part_lt hnext
    obtain ⟨pt, c, hmem, rfl⟩ := mem_framesOf (List.mem_of_getElem? hnext)
    exact openLoop_part key fuel ctr' (hsize pt hmem) hpart hlen

/-- **The frame reader, given more octets**: it opens the frames that have become whole, and keeps
the part of the next. -/
theorem openFrames_more (hopens : OpensSealed) {key : Octets} (hkey : key.length = 32)
    {pts : List Octets} (hsize : ∀ pt ∈ pts, pt.length < 2 ^ 16) (ctr : UInt64) {n : ℕ}
    {bytes : Octets}
    (hbytes : bytes = ((framesOf key ctr pts).flatten.take (n + bytes.length)).drop n) :
    ∃ frames : List (UInt64 × Octets),
      openFrames key (Cut.part (framesOf key ctr pts) n ++ bytes)
          (ctr + UInt64.ofNat (Cut.wholes (framesOf key ctr pts) n)) =
        ⟨frames, Cut.part (framesOf key ctr pts) (n + bytes.length),
          ctr + UInt64.ofNat (Cut.wholes (framesOf key ctr pts) (n + bytes.length)), false⟩ ∧
      frames.flatMap Prod.snd =
        ((pts.take (Cut.wholes (framesOf key ctr pts) (n + bytes.length))).drop
          (Cut.wholes (framesOf key ctr pts) n)).flatten := by
  have hle : n ≤ n + bytes.length := Nat.le_add_right n _
  generalize n + bytes.length = n' at hbytes hle ⊢
  have hcut : Cut.part (framesOf key ctr pts) n ++
      ((framesOf key ctr pts).flatten.take n').drop n = _ := Cut.part_append hle
  have hmono : Cut.wholes (framesOf key ctr pts) n ≤ Cut.wholes (framesOf key ctr pts) n' :=
    Cut.wholes_mono hle
  have hall : Cut.wholes (framesOf key ctr pts) n' ≤ pts.length := by
    rw [← length_framesOf key pts ctr]
    exact Cut.wholes_le ..
  rw [← hbytes, take_framesOf, drop_framesOf] at hcut
  have hleft (fuel : ℕ) (ctr' : UInt64) :
      openLoop key fuel (Cut.part (framesOf key ctr pts) n') ctr' = _ :=
    openLoop_left hsize ctr n' fuel ctr'
  generalize Cut.part (framesOf key ctr pts) n ++ bytes = buf at hcut ⊢
  generalize Cut.part (framesOf key ctr pts) n' = tail at hcut hleft ⊢
  generalize Cut.wholes (framesOf key ctr pts) n = m at hcut hmono ⊢
  generalize Cut.wholes (framesOf key ctr pts) n' = m' at hcut hmono hall ⊢
  refine ⟨_, ?_, flatMap_opening _ (ctr + UInt64.ofNat m)⟩
  have hread := openLoop_framesOf hopens hkey hleft ((pts.take m').drop m) (ctr + UInt64.ofNat m)
    buf.length (fun pt hpt => hsize pt (List.mem_of_mem_take (List.mem_of_mem_drop hpt)))
    (by rw [hcut, List.length_append]
        exact (le_length_framesOf ..).trans (Nat.le_add_right _ _))
  rw [← hcut] at hread
  rw [openFrames, hread, List.length_drop, List.length_take, Nat.min_eq_left hall, counter_on hmono]

theorem getElem?_framesOf (key : Octets) (pts : List Octets) (ctr : UInt64) (i : ℕ) :
    (framesOf key ctr pts)[i]? = pts[i]?.map (frame key (ctr + UInt64.ofNat i)) := by
  induction pts generalizing ctr i with
  | nil => rfl
  | cons pt pts ih =>
    cases i with
    | zero => simp [framesOf]
    | succ i => rw [framesOf, List.getElem?_cons_succ, ih, List.getElem?_cons_succ, ctr_succ]

/-! ## 3. Answers -/

/-- What the sender answers a request with. -/
def EventRequest.answer (r : EventRequest) : Octets := eventResponse r.cseq

omit [Primitives] in
theorem length_eventResponse (cseq : Octets) :
    (eventResponse cseq).length = if cseq = [] then 44 else cseq.length + 52 := by
  have hstatus : (ascii "RTSP/1.0 200 OK\r\n").length = 17 := by decide
  have hserver : (ascii "Server: AirTunes/550.10\r\n").length = 25 := by decide
  have hname : (ascii "CSeq").length = 4 := by decide
  have hsep : (ascii ": ").length = 2 := by decide
  unfold eventResponse
  split
  · simp only [List.length_append, hstatus, hserver, crlf, List.length_cons, List.length_nil]
  · simp only [List.length_append, hstatus, hserver, headerText, hname, hsep, crlf, List.length_cons,
      List.length_nil]
    omega

/-- The `CSeq` leaves the answer short enough for its length to be an `int`. -/
def BriefCseq (cseq : Octets) : Prop := cseq.length + 52 < 2 ^ 31

omit [Primitives] in
theorem briefCseq_iff (cseq : Octets) : BriefCseq cseq ↔ (eventResponse cseq).length < 2 ^ 31 := by
  rw [length_eventResponse, BriefCseq]
  split
  · rename_i h
    rw [h]
    decide
  · exact Iff.rfl

/-- A round of the answer loop with a `CSeq` like that. -/
theorem answerEvents_brief {a : Ap2State} (hout : a.eventOut.length = 32) {w : World}
    (ha : w.s.ap2 = some a) {cseq : Octets} {total : ℕ}
    (hnext : nextEventRequest w.s.eventPlainBuf = some (cseq, total)) (hbrief : BriefCseq cseq)
    (fuel : ℕ) :
    answerEvents (fuel + 1) w =
      answerEvents fuel (w.answered a.eventOut (eventResponse cseq) total) := by
  have hlen := (briefCseq_iff cseq).mp hbrief
  have hround := answerEvents_round hout ha hnext (by rw [wrap32_of_lt hlen]; omega) fuel
  rwa [intPrefix_of_lt hlen] at hround

/-- The trace of answering requests, newest first. -/
def answerEntries (key : Octets) : UInt64 → List EventRequest → List Entry
  | _, [] => []
  | ctr, r :: rs =>
    answerEntries key (ctr + 1) rs ++
      [.tcpSend .event (frame key ctr r.answer),
        .sealed .event key (counterNonce8 ctr) (leBytes 2 r.answer.length) r.answer]

/-- What goes out on the event channel. -/
def eventSent : Entry → Option Octets
  | .tcpSend .event bytes => some bytes
  | _ => none

theorem shown_answerEntries (key : Octets) (rs : List EventRequest) (ctr : UInt64) :
    shown eventSent (answerEntries key ctr rs) =
      framesOf key ctr (rs.map EventRequest.answer) := by
  induction rs generalizing ctr with
  | nil => rfl
  | cons r rs ih =>
    rw [answerEntries, shown_append, ih]
    rfl

theorem shown_eventReadEntries (key buf : Octets) (ctr : UInt64) (log : List Entry) :
    shown eventSent (eventReadEntries key buf ctr ++ log) = shown eventSent log := by
  refine shown_append_none ?_
  intro e he
  rcases mem_eventReadEntries he with rfl | ⟨_, _, rfl⟩ | rfl <;> rfl

/-- **Each complete request is answered**, and what is part of another one is kept. -/
theorem answerEvents_texts {a : Ap2State} (hout : a.eventOut.length = 32) {tail : Octets}
    (htail : nextEventRequest tail = none) :
    ∀ (rs : List EventRequest) (fuel : ℕ) (w : World), (∀ r ∈ rs, r.WellFormed) →
      (∀ r ∈ rs, BriefCseq r.cseq) → rs.length ≤ fuel → w.s.ap2 = some a →
      w.s.eventPlainBuf = (rs.map EventRequest.text).flatten ++ tail →
      answerEvents fuel w = (.ok (), { w with
        s := { w.s with
          eventPlainBuf := tail
          eventSendCtr := w.s.eventSendCtr + UInt64.ofNat rs.length }
        out := answerEntries a.eventOut w.s.eventSendCtr rs ++ w.out }) := by
  intro rs
  induction rs with
  | nil =>
    intro fuel w _ _ _ _ hbuf
    have hstop : answerEvents fuel w = (.ok (), w) := by
      cases fuel with
      | zero => rfl
      | succ fuel =>
        have hnext : nextEventRequest w.s.eventPlainBuf = none := by
          rw [hbuf]
          exact htail
        rw [answerEvents, sender_bind, hnext]
        rfl
    have hend : w.s.eventSendCtr + UInt64.ofNat ([] : List EventRequest).length =
        w.s.eventSendCtr := by simp
    have htext : tail = w.s.eventPlainBuf := hbuf.symm
    rw [hstop, hend, htext]
    rfl
  | cons r rs ih =>
    intro fuel w hrs hbrief hfuel ha hbuf
    obtain ⟨fuel, rfl⟩ : ∃ k, fuel = k + 1 :=
      Nat.exists_eq_succ_of_ne_zero (Nat.ne_of_gt (Nat.lt_of_lt_of_le (Nat.succ_pos _) hfuel))
    rw [List.map_cons, List.flatten_cons, List.append_assoc] at hbuf
    have hnext : nextEventRequest w.s.eventPlainBuf = some (r.cseq, r.text.length) := by
      rw [hbuf]
      exact nextEventRequest_append (r.next_text (hrs r List.mem_cons_self)) _
    obtain ⟨w₂, hw₂⟩ : ∃ w₂, w₂ = w.answered a.eventOut r.answer r.text.length := ⟨_, rfl⟩
    have hrun : answerEvents (fuel + 1) w = answerEvents fuel w₂ := by
      rw [hw₂]
      exact answerEvents_brief hout ha hnext (hbrief r List.mem_cons_self) fuel
    have hrest : w₂.s.eventPlainBuf = (rs.map EventRequest.text).flatten ++ tail := by
      have hdrop : w₂.s.eventPlainBuf = w.s.eventPlainBuf.drop r.text.length := by rw [hw₂]; rfl
      rw [hdrop, hbuf, List.drop_left]
    rw [hrun, ih fuel w₂ (fun q hq => hrs q (List.mem_cons_of_mem r hq))
      (fun q hq => hbrief q (List.mem_cons_of_mem r hq)) (Nat.le_of_succ_le_succ hfuel) (by rw [hw₂]; exact ha) hrest]
    have hctr : w₂.s.eventSendCtr + UInt64.ofNat rs.length =
        w.s.eventSendCtr + UInt64.ofNat (rs.length + 1) := by
      rw [hw₂]
      exact ctr_succ _ _
    rw [hctr, hw₂, answerEntries, List.append_assoc]
    rfl

/-! ## 4. What the receiver pushes -/

/-- Requests, and the plaintexts of the frames that carry them, which divide them anywhere. -/
structure Push where
  requests : List EventRequest
  plaintexts : List Octets
  wellFormed : ∀ r ∈ requests, r.WellFormed
  divides : plaintexts.flatten = (requests.map EventRequest.text).flatten
  sized : ∀ pt ∈ plaintexts, pt.length < 2 ^ 16

namespace Push

variable {p : Push} {key : Octets} {ctr : UInt64} {n i : ℕ}

/-- The frames on the wire. -/
def frames (p : Push) (key : Octets) (ctr : UInt64) : List Octets := framesOf key ctr p.plaintexts

def texts (p : Push) : List Octets := p.requests.map EventRequest.text

/-- The first `f` frames hold request `i`. -/
def Holds (p : Push) (f i : ℕ) : Prop :=
  (p.texts.take (i + 1)).flatten.length ≤ (p.plaintexts.take f).flatten.length

/-- How many frames lie within the first `n` octets on the wire. -/
def whole (p : Push) (key : Octets) (ctr : UInt64) (n : ℕ) : ℕ := Cut.wholes (p.frames key ctr) n

/-- How much plaintext they hold. -/
def opened (p : Push) (key : Octets) (ctr : UInt64) (n : ℕ) : ℕ :=
  (p.plaintexts.take (p.whole key ctr n)).flatten.length

/-- How many requests are complete within the first `n` octets on the wire. -/
def complete (p : Push) (key : Octets) (ctr : UInt64) (n : ℕ) : ℕ :=
  Cut.wholes p.texts (p.opened key ctr n)

theorem length_frames (p : Push) (key : Octets) (ctr : UInt64) :
    (p.frames key ctr).length = p.plaintexts.length := length_framesOf ..

theorem whole_mono {m : ℕ} (h : m ≤ n) : p.whole key ctr m ≤ p.whole key ctr n := Cut.wholes_mono h

theorem opened_mono {m : ℕ} (h : m ≤ n) : p.opened key ctr m ≤ p.opened key ctr n :=
  (List.take_prefix_take_left (whole_mono h)).flatten.length_le

/-- **A request is complete when frames that hold it lie within the octets.** -/
theorem lt_complete : i < p.complete key ctr n ↔ i < p.requests.length ∧
    ∃ f ≤ p.plaintexts.length, p.Holds f i ∧ ((p.frames key ctr).take f).flatten.length ≤ n := by
  have hlen : p.texts.length = p.requests.length := List.length_map ..
  rw [complete, Cut.lt_wholes, hlen]
  constructor
  · rintro ⟨hi, hfit⟩
    refine ⟨hi, p.whole key ctr n, ?_, hfit, Cut.length_take_wholes ..⟩
    rw [← p.length_frames key ctr]
    exact Cut.wholes_le ..
  · rintro ⟨hi, f, hf, hholds, hfit⟩
    have hle : f ≤ p.whole key ctr n :=
      Cut.le_wholes (by rw [length_frames]; exact hf) hfit
    exact ⟨hi, hholds.trans (List.take_prefix_take_left hle).flatten.length_le⟩

theorem complete_le (p : Push) : p.complete key ctr n ≤ p.requests.length := by
  refine (Cut.wholes_le _ _).trans (le_of_eq ?_)
  exact List.length_map ..

/-- Everything is complete in the end. -/
theorem complete_all (h : ((p.frames key ctr).flatten).length ≤ n) :
    p.complete key ctr n = p.requests.length := by
  have hall : p.opened key ctr n = p.texts.flatten.length := by
    rw [opened, whole, Cut.wholes_all h, length_frames, List.take_length, p.divides]
    rfl
  rw [complete, hall, Cut.wholes_all le_rfl]
  exact List.length_map ..

/-- **More octets open more plaintext**, which the event buffer takes behind what it holds. -/
theorem opened_more (p : Push) (key : Octets) (ctr : UInt64) {m : ℕ} (h : m ≤ n) :
    Cut.part p.texts (p.opened key ctr m) ++
        ((p.plaintexts.take (p.whole key ctr n)).drop
          (p.whole key ctr m)).flatten =
      ((p.texts.take (p.complete key ctr n)).drop (p.complete key ctr m)).flatten ++
        Cut.part p.texts (p.opened key ctr n) := by
  have hcut (l : ℕ) : (p.plaintexts.take (p.whole key ctr l)).flatten =
      p.texts.flatten.take (p.opened key ctr l) := by
    have hprefix := (List.take_prefix (p.whole key ctr l) p.plaintexts).flatten
    rw [p.divides] at hprefix
    exact List.prefix_iff_eq_take.mp hprefix
  have hdrop : ((p.plaintexts.take (p.whole key ctr n)).drop
      (p.whole key ctr m)).flatten =
        (p.texts.flatten.take (p.opened key ctr n)).drop (p.opened key ctr m) := by
    have hsplit := congrArg List.flatten (List.take_append_drop (p.whole key ctr m)
      (p.plaintexts.take (p.whole key ctr n)))
    rw [List.flatten_append, List.take_take, Nat.min_eq_left (whole_mono h), hcut n] at hsplit
    rw [← hsplit]
    exact (List.drop_left' rfl).symm
  rw [hdrop]
  exact Cut.part_append (opened_mono h)

omit [Primitives] in
/-- What is left of the requests is not answered yet. -/
theorem next_left (p : Push) : nextEventRequest (Cut.part p.texts n) = none := by
  cases hnext : p.texts[Cut.wholes p.texts n]? with
  | none =>
    rw [Cut.part_nil hnext]
    rfl
  | some e =>
    obtain ⟨hpart, hlen⟩ := Cut.part_lt hnext
    obtain ⟨r, hr, rfl⟩ := List.mem_map.mp (List.mem_of_getElem? hnext)
    exact EventRequest.next_part (p.wellFormed r hr) hpart hlen

end Push

/-! ## 5. The sender in between -/

/-- The sender when `n` octets of what is pushed have been delivered: each reassembly buffer holds
the part that is not whole, and the requests that are complete have been answered. -/
structure Served (p : Push) (a : Ap2State) (recv send : UInt64) (sent : List Octets) (n : ℕ)
    (w : World) : Prop where
  live : w.s.state ≠ .idle
  keyed : w.s.ap2 = some a
  eventIn : a.eventIn.length = 32
  eventOut : a.eventOut.length = 32
  encBuf : w.s.eventEncBuf = Cut.part (p.frames a.eventIn recv) n
  recvCtr : w.s.eventRecvCtr = recv + UInt64.ofNat (p.whole a.eventIn recv n)
  plainBuf : w.s.eventPlainBuf = Cut.part p.texts (p.opened a.eventIn recv n)
  sendCtr : w.s.eventSendCtr = send + UInt64.ofNat (p.complete a.eventIn recv n)
  answered : shown eventSent w.out = sent ++ framesOf a.eventOut send
    ((p.requests.take (p.complete a.eventIn recv n)).map EventRequest.answer)

namespace Served

variable {p : Push} {a : Ap2State} {recv send : UInt64} {sent : List Octets} {n : ℕ} {w : World}

/-- The frame reader, given more octets. -/
theorem opens (hopens : OpensSealed) (h : Served p a recv send sent n w) {bytes : Octets}
    (hbytes : bytes = ((p.frames a.eventIn recv).flatten.take (n + bytes.length)).drop n) :
    ∃ frames : List (UInt64 × Octets),
      openFrames a.eventIn (w.s.eventEncBuf ++ bytes) w.s.eventRecvCtr =
        ⟨frames, Cut.part (p.frames a.eventIn recv) (n + bytes.length),
          recv + UInt64.ofNat (p.whole a.eventIn recv (n + bytes.length)), false⟩ ∧
      frames.flatMap Prod.snd =
        ((p.plaintexts.take (p.whole a.eventIn recv (n + bytes.length))).drop
          (p.whole a.eventIn recv n)).flatten := by
  rw [h.encBuf, h.recvCtr]
  exact openFrames_more hopens h.eventIn p.sized recv hbytes

/-- **A delivery** moves on by as many octets. -/
theorem deliver (hopens : OpensSealed) (hbrief : ∀ r ∈ p.requests, BriefCseq r.cseq)
    (h : Served p a recv send sent n w) {bytes : Octets}
    (hbytes : bytes = ((p.frames a.eventIn recv).flatten.take (n + bytes.length)).drop n) :
    ∃ w', onEventReadyRead bytes w = (.ok (), w') ∧
      Served p a recv send sent (n + bytes.length) w' := by
  obtain ⟨frames, hopen, hplain⟩ := h.opens hopens hbytes
  have hle : n ≤ n + bytes.length := Nat.le_add_right n _
  generalize n + bytes.length = n' at hopen hplain hle ⊢
  have hq : p.complete a.eventIn recv n ≤ p.complete a.eventIn recv n' :=
    Cut.wholes_mono (Push.opened_mono hle)
  have hall : p.complete a.eventIn recv n' ≤ p.requests.length := p.complete_le
  obtain ⟨rs, hrs⟩ : ∃ rs, rs = (p.requests.take (p.complete a.eventIn recv n')).drop
      (p.complete a.eventIn recv n) := ⟨_, rfl⟩
  have hlen : rs.length = p.complete a.eventIn recv n' - p.complete a.eventIn recv n := by
    rw [hrs, List.length_drop, List.length_take, Nat.min_eq_left hall]
  have hbuf : (takeEventFrames a.eventIn bytes w).s.eventPlainBuf =
      (rs.map EventRequest.text).flatten ++ Cut.part p.texts (p.opened a.eventIn recv n') := by
    have hmore := p.opened_more a.eventIn recv hle
    rw [← h.plainBuf, ← hplain] at hmore
    have htaken : (takeEventFrames a.eventIn bytes w).s.eventPlainBuf =
        w.s.eventPlainBuf ++ frames.flatMap Prod.snd := by
      simp only [takeEventFrames, hopen]
      rfl
    rw [htaken, hmore, hrs, Push.texts, List.map_drop, List.map_take]
  have hanswer := answerEvents_texts h.eventOut p.next_left rs
    (takeEventFrames a.eventIn bytes w).s.eventPlainBuf.length
    (takeEventFrames a.eventIn bytes w)
    (fun r hr => p.wellFormed r (List.mem_of_mem_take (List.mem_of_mem_drop (hrs ▸ hr))))
    (fun r hr => hbrief r (List.mem_of_mem_take (List.mem_of_mem_drop (hrs ▸ hr))))
    (by rw [hbuf, List.length_append]
        exact (le_length_texts rs).trans (Nat.le_add_right _ _)) h.keyed hbuf
  have hrun : onEventReadyRead bytes w =
      answerEvents (takeEventFrames a.eventIn bytes w).s.eventPlainBuf.length
        (takeEventFrames a.eventIn bytes w) := by
    have htake : (Prog.modify (takeEventFrames a.eventIn bytes) : M Unit) w =
        (.ok (), takeEventFrames a.eventIn bytes w) := rfl
    unfold onEventReadyRead
    rw [sender_bind, if_neg h.live, h.keyed]
    dsimp only
    rw [if_neg (by simp [h.eventIn, h.eventOut]), bind_ok htake, hopen, if_neg Bool.false_ne_true]
    rfl
  refine ⟨_, hrun.trans hanswer, ?_⟩
  have hsent : (takeEventFrames a.eventIn bytes w).s.eventSendCtr = w.s.eventSendCtr := rfl
  constructor
  · exact h.live
  · exact h.keyed
  · exact h.eventIn
  · exact h.eventOut
  · simp only [takeEventFrames, hopen]
    rfl
  · simp only [takeEventFrames, hopen]
  · rfl
  · dsimp only
    rw [hsent, h.sendCtr, hlen, counter_on hq]
  · dsimp only
    rw [shown_append, shown_answerEntries, hsent, h.sendCtr]
    have hquiet : shown eventSent (takeEventFrames a.eventIn bytes w).out =
        shown eventSent w.out := shown_eventReadEntries ..
    have hsplit : p.requests.take (p.complete a.eventIn recv n') =
        p.requests.take (p.complete a.eventIn recv n) ++ rs := by
      have hparts := List.take_append_drop (p.complete a.eventIn recv n)
        (p.requests.take (p.complete a.eventIn recv n'))
      rw [List.take_take, Nat.min_eq_left hq, ← hrs] at hparts
      exact hparts.symm
    rw [hquiet, h.answered, hsplit, List.map_append, framesOf_append, List.append_assoc,
      List.length_map, List.length_take, Nat.min_eq_left (hq.trans hall)]

/-- Nothing was delivered yet. -/
theorem init (p : Push) (hlive : w.s.state ≠ .idle) (ha : w.s.ap2 = some a)
    (hin : a.eventIn.length = 32) (hout : a.eventOut.length = 32) (henc : w.s.eventEncBuf = [])
    (hplain : w.s.eventPlainBuf = []) :
    Served p a w.s.eventRecvCtr w.s.eventSendCtr (shown eventSent w.out) 0 w := by
  have hframes : ∀ e ∈ p.frames a.eventIn w.s.eventRecvCtr, e ≠ [] := by
    intro e he hnil
    obtain ⟨pt, c, -, rfl⟩ := mem_framesOf he
    have hlen := length_frame a.eventIn c pt
    rw [hnil] at hlen
    cases hlen
  have htexts : ∀ e ∈ p.texts, e ≠ [] := by
    intro e he
    obtain ⟨r, -, rfl⟩ := List.mem_map.mp he
    exact r.text_ne_nil
  obtain ⟨hwhole, hpart⟩ := Cut.part_zero hframes
  have hopened : p.opened a.eventIn w.s.eventRecvCtr 0 = 0 := by
    rw [Push.opened, Push.whole, hwhole]
    rfl
  obtain ⟨hcomplete, hrest⟩ := Cut.part_zero htexts
  constructor
  · exact hlive
  · exact ha
  · exact hin
  · exact hout
  · rw [henc, hpart]
  · rw [Push.whole, hwhole]
    simp
  · rw [hplain, hopened, hrest]
  · rw [Push.complete, hopened, hcomplete]
    simp
  · rw [Push.complete, hopened, hcomplete]
    simp [framesOf]

/-- **Deliveries, one after the other.** -/
theorem run [Host] (hopens : OpensSealed) (hbrief : ∀ r ∈ p.requests, BriefCseq r.cseq) :
    ∀ (pieces : List Octets) {n : ℕ} {w : World},
    Served p a recv send sent n w →
      pieces.flatten <+: (p.frames a.eventIn recv).flatten.drop n →
      Served p a recv send sent (n + pieces.flatten.length)
        (AirplaySender.run (pieces.map (Action.onTcpData .event)) w) := by
  intro pieces
  induction pieces with
  | nil =>
    intro n w h _
    exact h
  | cons bytes pieces ih =>
    intro n w h hpre
    rw [List.flatten_cons] at hpre
    have hbytes : bytes = ((p.frames a.eventIn recv).flatten.take (n + bytes.length)).drop n := by
      rw [List.drop_take, Nat.add_sub_cancel_left]
      exact List.prefix_iff_eq_take.mp ((List.prefix_append bytes pieces.flatten).trans hpre)
    obtain ⟨w', hrun, hserved⟩ := h.deliver hopens hbrief hbytes
    have hrest : pieces.flatten <+: (p.frames a.eventIn recv).flatten.drop (n + bytes.length) := by
      obtain ⟨more, hmore⟩ := hpre
      refine ⟨more, ?_⟩
      rw [← List.drop_drop, ← hmore, List.append_assoc, List.drop_left]
    have hnext := ih hserved hrest
    have hperform : perform (Action.onTcpData .event bytes) w = (.ok (), w') := hrun
    rw [List.map_cons, AirplaySender.run, hperform, List.flatten_cons, List.length_append,
      ← Nat.add_assoc]
    exact hnext

end Served

/-! ## 6. What is never sent -/

/-- What goes out on the event channel from one world to another is no longer than an `int` and a
frame around it. -/
def Curt (w w' : World) : Prop := ∃ sent, shown eventSent w'.out = shown eventSent w.out ++ sent ∧
  ∀ b ∈ sent, b.length < 2 ^ 31 + 18

namespace Curt

omit [Primitives] in
theorem of_shown {w w' : World} (h : shown eventSent w'.out = shown eventSent w.out) : Curt w w' :=
  ⟨[], by rw [h, List.append_nil], nofun⟩

omit [Primitives] in
theorem trans {w w' w'' : World} (h : Curt w w') (h' : Curt w' w'') : Curt w w'' := by
  obtain ⟨sent, hsent, hshort⟩ := h
  obtain ⟨sent', hsent', hshort'⟩ := h'
  refine ⟨sent ++ sent', by rw [hsent', hsent, List.append_assoc], fun b hb => ?_⟩
  rcases List.mem_append.mp hb with hb | hb
  · exact hshort b hb
  · exact hshort' b hb

omit [Primitives] in
theorem fixes {α : Type} {m : M α} (h : Fixes (fun w => shown eventSent w.out) m) :
    Inside Curt m := .of_fixes h fun _ _ => of_shown

omit [Primitives] in
theorem ap2Get : Inside Curt ap2Get := by
  refine fixes (Fixes.bind (fun _ => rfl) fun s => ?_)
  cases s.ap2 with
  | some a => exact Fixes.pure a
  | none => exact Fixes.bind (fun w => shown_cons_none rfl) fun _ => Fixes.raise _

/-- An answer that is sent was measured by an `int`. -/
theorem sendAnswer (eventOut nonce resp : Octets) : Inside Curt (sendAnswer eventOut nonce resp) := by
  refine Inside.ite (fixes (Fixes.bind (fun w => shown_cons_none rfl) fun _ => Fixes.raise _))
    fun w => ?_
  by_cases hkey : eventOut.length = 32
  · rw [bind_ok (seal_run hkey w)]
    refine .single ⟨[leBytes 2 resp.length ++ chachaSeal eventOut nonce (intPrefix resp)
      (leBytes 2 resp.length)], ?_, fun b hb => ?_⟩
    · exact (shown_cons_some (f := eventSent) rfl).trans
        (congrArg (· ++ _) (shown_cons_none (f := eventSent) rfl))
    · have hlen := length_intPrefix_lt resp
      rw [List.mem_singleton.mp hb, List.length_append, length_leBytes, length_chachaSeal]
      omega
  · have hrefused : Fixes (fun w => shown eventSent w.out)
        (chacha20Poly1305Encrypt .event eventOut nonce (intPrefix resp) (leBytes 2 resp.length)) := by
      unfold chacha20Poly1305Encrypt
      rw [if_pos hkey]
      exact Fixes.bind (fun w => shown_cons_none rfl) fun _ => Fixes.raise _
    have hraised : ∃ e w', chacha20Poly1305Encrypt .event eventOut nonce (intPrefix resp)
        (leBytes 2 resp.length) w = (.error e, w') := by
      unfold chacha20Poly1305Encrypt
      rw [if_pos hkey]
      exact ⟨_, _, rfl⟩
    obtain ⟨e, w', hrun⟩ := hraised
    have hquiet := hrefused w
    rw [hrun] at hquiet
    rw [bind_error hrun]
    exact .single (of_shown hquiet)

theorem answerEvents : ∀ fuel : ℕ, Inside Curt (answerEvents fuel)
  | 0 => Inside.pure ()
  | fuel + 1 => by
    refine Inside.bind (fixes fun _ => rfl) fun s => ?_
    split
    · exact Inside.pure ()
    · refine Inside.bind (fixes fun _ => rfl) fun _ => Inside.bind ap2Get fun a => ?_
      exact Inside.bind (sendAnswer _ _ _) fun _ => answerEvents fuel

theorem onEventReadyRead (bytes : Octets) : Inside Curt (onEventReadyRead bytes) := by
  refine Inside.bind (fixes fun _ => rfl) fun s => Inside.ite (Inside.pure ()) ?_
  split
  · exact Inside.pure ()
  · refine Inside.ite (Inside.pure ()) (Inside.bind (fixes fun w => ?_) fun _ => ?_)
    · exact shown_eventReadEntries ..
    · refine Inside.ite (Inside.pure ()) (Inside.bind (fixes fun _ => rfl) fun s => ?_)
      exact answerEvents _

/-- **Whatever is delivered**, nothing longer goes out. -/
theorem run [Host] (pieces : List Octets) (w : World) :
    Curt w (AirplaySender.run (pieces.map (Action.onTcpData .event)) w) := by
  induction pieces generalizing w with
  | nil => exact of_shown rfl
  | cons bytes pieces ih =>
    have hone : Curt w (AirplaySender.onEventReadyRead bytes w).2 :=
      (onEventReadyRead bytes).keeps (fun _ _ h h' => h'.trans h) (of_shown rfl)
    have hperform : perform (Action.onTcpData .event bytes) w =
        AirplaySender.onEventReadyRead bytes w := rfl
    rw [List.map_cons, AirplaySender.run, hperform]
    split
    · rename_i hrun
      rwa [hrun] at hone
    · rename_i hrun
      rw [hrun] at hone
      exact hone.trans (ih _)

end Curt

/-! ## 7. The keep-alive -/

/-- What the receiver is promised, however `pieces` divides the frames of its requests: `k`
deliveries have been answered with one sealed 200 for each of the first `q` requests, in order and
with its `CSeq`, and nothing else was sent; request `i` is among them as soon as the deliveries
reach the end of the first frames that hold it. -/
def KeptAlive [Host] (p : Push) (a : Ap2State) (w : World) (pieces : List Octets) : Prop :=
  ∀ k, ∃ q ≤ p.requests.length,
    shown eventSent (run ((pieces.take k).map (Action.onTcpData .event)) w).out =
      shown eventSent w.out ++ framesOf a.eventOut w.s.eventSendCtr
        ((p.requests.take q).map fun r => eventResponse r.cseq) ∧
    (∀ i < p.requests.length, i < q ↔ ∃ f ≤ p.plaintexts.length, p.Holds f i ∧
      ((p.frames a.eventIn w.s.eventRecvCtr).take f).flatten.length ≤
        (pieces.take k).flatten.length) ∧
    (pieces.length ≤ k → q = p.requests.length)

/-- Answers longer than an `int` are not sent, so the receiver waits for them. -/
theorem KeptAlive.brief [Host] {p : Push} {a : Ap2State} {w : World} {pieces : List Octets}
    (h : KeptAlive p a w pieces) : ∀ r ∈ p.requests, BriefCseq r.cseq := by
  intro r hr
  obtain ⟨q, -, hsent, -, hall⟩ := h pieces.length
  obtain ⟨sent, hcurt, hshort⟩ := Curt.run (pieces.take pieces.length) w
  obtain rfl := hall le_rfl
  rw [hcurt, List.take_length] at hsent
  have hframes := List.append_cancel_left hsent
  obtain ⟨i, hi⟩ := List.getElem?_of_mem hr
  have hframe : frame a.eventOut (w.s.eventSendCtr + UInt64.ofNat i) (eventResponse r.cseq) ∈ sent := by
    rw [hframes]
    refine List.mem_of_getElem? (i := i) ?_
    rw [getElem?_framesOf, List.getElem?_map, hi]
    rfl
  have hlen := hshort _ hframe
  rw [length_frame] at hlen
  exact (briefCseq_iff r.cseq).mpr (by omega)

/-- **The keep-alive of the event channel** works if and only if every `CSeq` is short enough for
the length of its answer to be an `int`: behind a longer one the call ends with an exception, or
the answer is cut short. -/
theorem event_keepalive_iff [Host] (hopens : OpensSealed) (p : Push) {w : World} {a : Ap2State}
    (hlive : w.s.state ≠ .idle) (ha : w.s.ap2 = some a) (hin : a.eventIn.length = 32)
    (hout : a.eventOut.length = 32) (henc : w.s.eventEncBuf = []) (hplain : w.s.eventPlainBuf = [])
    {pieces : List Octets}
    (hpieces : pieces.flatten = (p.frames a.eventIn w.s.eventRecvCtr).flatten) :
    KeptAlive p a w pieces ↔ ∀ r ∈ p.requests, BriefCseq r.cseq := by
  refine ⟨KeptAlive.brief, fun hbrief k => ?_⟩
  have hpre : (pieces.take k).flatten <+:
      (p.frames a.eventIn w.s.eventRecvCtr).flatten.drop 0 := by
    rw [List.drop_zero, ← hpieces]
    exact (List.take_prefix k pieces).flatten
  have hserved := (Served.init p hlive ha hin hout henc hplain).run hopens hbrief (pieces.take k) hpre
  rw [Nat.zero_add] at hserved
  refine ⟨p.complete a.eventIn w.s.eventRecvCtr (pieces.take k).flatten.length, ?_,
    hserved.answered, ?_, ?_⟩
  · exact p.complete_le
  · intro i hi
    rw [Push.lt_complete, and_iff_right hi]
  · intro hk
    refine Push.complete_all ?_
    rw [List.take_of_length_le hk, hpieces]

end Frames

/-! ## 8. A session by hand -/

section ByHand

/-- The credentials of a receiver that was paired before. -/
def sampleCreds : Octets := raopCredsToJson
  { ltsk := List.replicate 32 1, ltpk := List.replicate 32 2, atvId := [3], clientId := ascii "id" }

/-- Pair-verify M2. -/
def verifyReply2 : Octets := okReply (Tlv.encode
  [(Tlv.Tag.publicKey.code, List.replicate 32 1), (Tlv.Tag.encryptedData.code,
    @chachaSeal trusting [] [] (Tlv.encode [(Tlv.Tag.identifier.code, [3]),
      (Tlv.Tag.signature.code, List.replicate 64 0)]) [])])

/-- The reply to the session SETUP, with a port for the event channel. -/
def sessionReply : Octets := okReply (Bplist.encode (.dict [(ascii "eventPort", .int 7001)]))

/-- A session with stored credentials, all the way to the stream, and the event channel with it. -/
def storedActions : List Action :=
  [.call (.setAuth .hapPin true (ascii "device") sampleCreds []),
    .call (.setStrictReceiverAuth true), .call (.start (ascii "receiver") 7000 (ascii "Receiver")),
    .onTcpConnected .control loopback loopback, .onTcpData .control verifyReply2,
    .onTcpData .control (okReply []), sealedReply 0 (okReply []), sealedReply 1 sessionReply,
    .onTcpConnected .event loopback loopback, sealedReply 2 (okReply []), sealedReply 3 streamReply]

/-- The keys of its event channel. -/
def sampleEventIn : Octets := @hkdfSha512 trusting "Events-Salt" "Events-Write-Encryption-Key" []

def sampleEventOut : Octets := @hkdfSha512 trusting "Events-Salt" "Events-Read-Encryption-Key" []

/-- The event channel is keyed and nothing was exchanged on it. -/
theorem stored_keyed : ∃ a, (worldAfter storedActions).s.ap2 = some a ∧
    (a.eventIn = sampleEventIn ∧ a.eventOut = sampleEventOut) ∧
    (worldAfter storedActions).s.state ≠ .idle ∧
    (worldAfter storedActions).s.eventEncBuf = [] ∧
    (worldAfter storedActions).s.eventPlainBuf = [] ∧
    (worldAfter storedActions).s.eventRecvCtr = 0 ∧
    (worldAfter storedActions).s.eventSendCtr = 0 ∧
    shown eventSent (worldAfter storedActions).out = [] := by
  have hdone : (worldAfter storedActions).s.ap2.any
        (fun a => a.eventIn = sampleEventIn ∧ a.eventOut = sampleEventOut) = true ∧
      (worldAfter storedActions).s.state ≠ .idle ∧
      (worldAfter storedActions).s.eventEncBuf = [] ∧
      (worldAfter storedActions).s.eventPlainBuf = [] ∧
      (worldAfter storedActions).s.eventRecvCtr = 0 ∧
      (worldAfter storedActions).s.eventSendCtr = 0 ∧
      shown eventSent (worldAfter storedActions).out = [] := by decide +kernel
  obtain ⟨hkeys, hrest⟩ := hdone
  obtain ⟨a, ha, hsample⟩ := (Option.any_eq_true _ _).mp hkeys
  exact ⟨a, ha, of_decide_eq_true hsample, hrest⟩

theorem length_sampleEventIn : sampleEventIn.length = 32 := @length_hkdfSha512 trusting _ _ _

theorem length_sampleEventOut : sampleEventOut.length = 32 := @length_hkdfSha512 trusting _ _ _

/-- The request line of the keep-alive is no header. -/
theorem headerLine_command : headerLine (ascii "POST /command RTSP/1.0") = none := by decide +kernel

/-- Two requests in three frames. -/
def twoRequests : Push where
  requests :=
    [⟨ascii "POST /command RTSP/1.0", [(ascii "Content-Length", ascii " 4")], ascii "\r\n\r\n"⟩,
      ⟨ascii "POST /command RTSP/1.0", [(ascii "CSeq", ascii " 7")], []⟩]
  plaintexts :=
    [ascii "POST /command RT", ascii "SP/1.0\r\nContent-Length: 4\r\n\r\n\r\n\r\nPOST /comm",
      ascii "and RTSP/1.0\r\nCSeq: 7\r\n\r\n"]
  wellFormed := by
    intro r hr
    rw [List.mem_cons, List.mem_singleton] at hr
    rcases hr with rfl | rfl
    · constructor
      · decide +kernel
      · decide +kernel
      · decide +kernel
      · intro e he
        rw [headerLine_command] at he
        cases he
      · decide +kernel
      · intro f hf _
        rw [List.mem_singleton.mp hf]
        exact ⟨by decide +kernel, by decide +kernel, by decide +kernel⟩
      · decide +kernel
      · decide +kernel
    · constructor
      · decide +kernel
      · decide +kernel
      · decide +kernel
      · intro e he
        rw [headerLine_command] at he
        cases he
      · decide +kernel
      · intro f hf hnamed
        rw [List.mem_singleton.mp hf] at hnamed
        exact absurd hnamed (by decide +kernel)
      · intro h
        exact absurd rfl h
      · decide +kernel
  divides := by decide +kernel
  sized := by decide +kernel

/-- The frames on the wire. -/
def pushed : Octets := (@Push.frames trusting twoRequests sampleEventIn 0).flatten

/-- Pushed to that session and cut in two, they are answered. -/
theorem event_keepalive_stored :
    shown eventSent (@run trusting (@host trusting 0)
      (([pushed.take 50, pushed.drop 50].take 2).map (Action.onTcpData .event))
        (worldAfter storedActions)).out =
      @framesOf trusting sampleEventOut 0 [eventResponse [], eventResponse (ascii "7")] := by
  obtain ⟨a, ha, ⟨hin, hout⟩, hidle, henc, hplain, hrecv, hsend, hquiet⟩ := stored_keyed
  obtain ⟨q, -, hsent, -, hall⟩ := (@event_keepalive_iff trusting (@host trusting 0)
    opensSealed_transparent twoRequests _ a hidle ha (by rw [hin, length_sampleEventIn])
    (by rw [hout, length_sampleEventOut]) henc hplain [pushed.take 50, pushed.drop 50]
    (by rw [hin, hrecv]; simp [pushed])).mpr (by unfold BriefCseq; decide +kernel) 2
  obtain rfl : q = 2 := hall le_rfl
  have hanswers : (twoRequests.requests.take 2).map (fun r => eventResponse r.cseq) =
      [eventResponse [], eventResponse (ascii "7")] := by decide +kernel
  rw [hsend, hquiet, hout, List.nil_append, hanswers] at hsent
  exact hsent

/-- A request with a `CSeq` of `n` digits. -/
def countedRequest (n : ℕ) : EventRequest :=
  ⟨ascii "POST /command RTSP/1.0", [(ascii "CSeq", List.replicate n 49)], []⟩

theorem cseq_countedRequest (n : ℕ) : (countedRequest n).cseq = List.replicate n 49 := by
  have hdigit : isBlank 49 = false := by decide
  have htrim : trimAscii (List.replicate n 49) = List.replicate n 49 := by
    simp [trimAscii, hdigit]
  exact htrim

theorem countedRequest_wellFormed {n : ℕ} (hn : n ≠ 0) : (countedRequest n).WellFormed := by
  have hline : (10 : UInt8) ∉ ascii "POST /command RTSP/1.0" ∧ (10 : UInt8) ∉ ascii "CSeq" := by
    decide
  constructor
  · intro hinfix
    have hhead : (countedRequest n).head ++ [13, 10, 13] =
        ascii "POST /command RTSP/1.0\r\nCSeq:" ++ (List.replicate n 49 ++ [13, 10, 13]) := by
      simp only [EventRequest.head, countedRequest, List.map_cons, List.map_nil, joinLines_cons]
      rw [joinLines, List.intercalate_singleton]
      simp [ascii]
      decide
    rw [hhead] at hinfix
    rcases Cut.infix_of_replicate (by decide) hn hinfix with h | h
    · exact absurd h (by decide +kernel)
    · exact absurd h (by decide +kernel)
  · refine ⟨hline.1, fun f hf => ?_⟩
    rw [List.mem_singleton.mp hf]
    exact ⟨hline.2, fun h => absurd (List.eq_of_mem_replicate h) (by decide)⟩
  · intro f hf
    rw [List.mem_singleton.mp hf]
    exact ⟨show (58 : UInt8) ∉ ascii "CSeq" by decide, show ¬ Blank (ascii "CSeq") by decide +kernel⟩
  · intro e he
    have hnone : headerLine (countedRequest n).line = none := headerLine_command
    rw [hnone] at he
    cases he
  · exact List.length_filter_le _ _
  · intro f hf hnamed
    rw [List.mem_singleton.mp hf] at hnamed
    exact absurd (show trimAscii (lowerAscii (ascii "CSeq")) = ascii "content-length" from
      beq_iff_eq.mp hnamed) (by decide +kernel)
  · intro h
    exact absurd rfl h
  · exact Nat.two_pow_pos 31

/-- A request pushed octet by octet. -/
def Push.single (r : EventRequest) (h : r.WellFormed) : Push where
  requests := [r]
  plaintexts := r.text.map fun b => [b]
  wellFormed := by simpa using h
  divides := by simp [← List.flatMap_def]
  sized := by simp

/-- **An answer as long as 2^31 octets**: the request of that session is taken off the buffer, its
counter is used, and no answer is sent. -/
theorem event_keepalive_overflows : ∃ (a : Ap2State) (p : Push),
    (worldAfter storedActions).s.ap2 = some a ∧ p.requests = [countedRequest (2 ^ 31 - 52)] ∧
    ¬ @KeptAlive trusting (@host trusting 0) p a (worldAfter storedActions)
      [(@Push.frames trusting p a.eventIn (worldAfter storedActions).s.eventRecvCtr).flatten] := by
  obtain ⟨a, ha, -⟩ := stored_keyed
  refine ⟨a, .single (countedRequest (2 ^ 31 - 52)) (countedRequest_wellFormed (by norm_num)), ha,
    rfl, fun h => ?_⟩
  have hbrief := @KeptAlive.brief trusting (@host trusting 0) _ _ _ _ h _ (List.mem_singleton_self _)
  rw [BriefCseq, cseq_countedRequest, List.length_replicate] at hbrief
  omega

end ByHand

end AirplaySender
