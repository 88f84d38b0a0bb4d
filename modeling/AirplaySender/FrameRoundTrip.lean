/-
# Frames of the control channel, written and read

`writeRtsp_` cuts a message into pieces of 1024 octets and frames each; the decrypt loop of
`onRtspReadyRead_` gets the messages back, in whatever chunks the frames arrive.  A message is
measured in an `int`: what is sent of one with 2^31 octets or more is as much as that `int` says,
nothing when it is negative.  So the messages come back if and only if each is shorter
(`frames_recovered_iff`).
-/
import AirplaySender.Events

namespace AirplaySender

open Octets Prog Trace

section FrameRoundTrip

variable [Primitives] {w r : World} {a : Ap2State} {key : Octets}

/-! ## 1. Pieces -/

omit [Primitives] in
/-- **An `int` measures what is shorter than 2^31.** -/
theorem length_intPrefix_iff (data : Octets) :
    (intPrefix data).length = data.length ↔ data.length < 2 ^ 31 := by
  unfold intPrefix wrap32
  rw [List.length_take]
  constructor
  · intro h
    have hlt : Int.bmod data.length (2 ^ 32) < ((2 ^ 32 : ℕ) + 1 : ℤ) / 2 :=
      Int.bmod_lt (by norm_num)
    omega
  · intro h
    have hsmall : Int.bmod data.length (2 ^ 32) = data.length := Int.bmod_eq_of_le (by omega) (by omega)
    rw [hsmall]
    omega

omit [Primitives] in
theorem flatten_flatMap_chunks (messages : List Octets) :
    (messages.flatMap chunks).flatten = (messages.map intPrefix).flatten := by
  induction messages with
  | nil => rfl
  | cons m messages ih =>
    rw [List.flatMap_cons, List.flatten_append, ih, flatten_chunks, List.map_cons, List.flatten_cons]

omit [Primitives] in
theorem length_prefixes_le (messages : List Octets) :
    (messages.map intPrefix).flatten.length ≤ messages.flatten.length := by
  induction messages with
  | nil => exact le_rfl
  | cons m messages ih =>
    have hm := length_intPrefix_le m
    rw [List.map_cons, List.flatten_cons, List.flatten_cons, List.length_append, List.length_append]
    omega

omit [Primitives] in
/-- Messages are whole when nothing is missing from all of them. -/
theorem prefixes_eq_iff (messages : List Octets) :
    (messages.map intPrefix).flatten = messages.flatten ↔ ∀ m ∈ messages, m.length < 2 ^ 31 := by
  constructor
  · intro h
    have hlen := congrArg List.length h
    clear h
    induction messages with
    | nil => simp
    | cons m messages ih =>
      have hm := length_intPrefix_le m
      have hrest := length_prefixes_le messages
      rw [List.map_cons, List.flatten_cons, List.flatten_cons, List.length_append,
        List.length_append] at hlen
      intro x hx
      rcases List.mem_cons.mp hx with rfl | hx
      · exact (length_intPrefix_iff x).mp (by omega)
      · exact ih (by omega) x hx
  · intro h
    congr 1
    rw [List.map_congr_left, List.map_id]
    intro m hm
    have hlen := (length_intPrefix_iff m).mpr (h m hm)
    exact (List.take_prefix _ m).eq_of_length hlen

/-! ## 2. Writing -/

theorem frames_eq (pts : List Octets) (ctr : UInt64) :
    frames key ctr pts = (framesOf key ctr pts).flatten := by
  induction pts generalizing ctr with
  | nil => rfl
  | cons pt pts ih => rw [frames, framesOf, List.flatten_cons, ih]

/-- What goes out on the control channel. -/
def controlSent : Entry → Option Octets
  | .tcpSend .control bytes => some bytes
  | _ => none

omit [Primitives] in
/-- What went out between two moments. -/
def sentSince (w w' : World) : Octets :=
  ((shown controlSent w'.out).drop (shown controlSent w.out).length).flatten

/-- One message on the encrypted channel. -/
theorem writeRtsp_sends (henc : w.s.controlEncrypted = true) (ha : w.s.ap2 = some a)
    (hkey : a.controlOut.length = 32) (text : Octets) : ∃ w', writeRtsp text w = (.ok (), w') ∧
      w'.s.controlEncrypted = true ∧ w'.s.ap2 = some a ∧
      w'.s.ctrlSendCtr = w.s.ctrlSendCtr + UInt64.ofNat (chunks text).length ∧
      shown controlSent w'.out = shown controlSent w.out ++
        [(framesOf a.controlOut w.s.ctrlSendCtr (chunks text)).flatten] := by
  have hrun := writeRtsp_run (w := w) text fun b _ hb => by
    obtain rfl : b = a := Option.some.inj (hb.symm.trans ha)
    exact hkey
  refine ⟨_, hrun, henc, ha, ?_, ?_⟩
  · have hcount : (coreOf w).frameCount text = (chunks text).length := by
      simp [Core.frameCount, coreOf, henc, ha]
    exact congrArg (fun n => w.s.ctrlSendCtr + UInt64.ofNat n) hcount
  · have hentries : (coreOf w).writeEntries text =
        .tcpSend .control (frames a.controlOut w.s.ctrlSendCtr (chunks text)) ::
          frameSeals a.controlOut w.s.ctrlSendCtr (chunks text) := by
      simp [Core.writeEntries, coreOf, henc, ha, keysOf]
    have hseals : shown controlSent (frameSeals a.controlOut w.s.ctrlSendCtr (chunks text) ++ w.out) =
        shown controlSent w.out := by
      refine shown_append_none ?_
      intro e he
      obtain ⟨_, _, _, rfl⟩ := mem_frameSeals he
      rfl
    show shown controlSent ((coreOf w).writeEntries text ++ w.out) = _
    rw [hentries, List.cons_append, shown_cons_some (f := controlSent) rfl, hseals, frames_eq]

/-- **Messages go out as the frames of their pieces**, the counter moving on by one for each. -/
theorem each_writeRtsp : ∀ (messages : List Octets) {w : World}, w.s.controlEncrypted = true →
    w.s.ap2 = some a → a.controlOut.length = 32 → ∃ w' sent, each writeRtsp messages w = (.ok (), w') ∧
      w'.s.ctrlSendCtr = w.s.ctrlSendCtr + UInt64.ofNat (messages.flatMap chunks).length ∧
      shown controlSent w'.out = shown controlSent w.out ++ sent ∧
      sent.flatten = (framesOf a.controlOut w.s.ctrlSendCtr (messages.flatMap chunks)).flatten
  | [], w, _, _, _ => ⟨w, [], rfl, by simp, by simp, by simp [framesOf]⟩
  | m :: messages, w, henc, ha, hkey => by
    obtain ⟨w₁, hrun, henc₁, ha₁, hctr, hsent⟩ := writeRtsp_sends henc ha hkey m
    obtain ⟨w', sent, hrest, hctr', hsent', hframes⟩ := each_writeRtsp messages henc₁ ha₁ hkey
    refine ⟨w', (framesOf a.controlOut w.s.ctrlSendCtr (chunks m)).flatten :: sent, ?_, ?_, ?_, ?_⟩
    · rw [each, bind_ok hrun]
      exact hrest
    · rw [hctr', hctr, List.flatMap_cons, List.length_append, UInt64.ofNat_add, UInt64.add_assoc]
    · rw [hsent', hsent, List.append_assoc]
      rfl
    · rw [List.flatten_cons, hframes, hctr, List.flatMap_cons, framesOf_append, List.flatten_append]

/-! ## 3. Reading -/

/-- The decrypt loop of `onRtspReadyRead_` over what is delivered, without the responses that are
made of it; `none` where a frame does not open. -/
def readChunks (key : Octets) : List Octets → World → Option World
  | [], r => some r
  | chunk :: chunks, r =>
    if (openFrames key (r.s.rtspEncBuf ++ chunk) r.s.ctrlRecvCtr).failed then none
    else readChunks key chunks (takeControlFrames key chunk r)

/-- The reader when `n` octets of the frames have been delivered. -/
structure Reads (key : Octets) (ctr : UInt64) (pts : List Octets) (before : Octets) (n : ℕ)
    (r : World) : Prop where
  encBuf : r.s.rtspEncBuf = Cut.part (framesOf key ctr pts) n
  recvCtr : r.s.ctrlRecvCtr = ctr + UInt64.ofNat (Cut.wholes (framesOf key ctr pts) n)
  rxBuf : r.s.rxBuf = before ++ (pts.take (Cut.wholes (framesOf key ctr pts) n)).flatten

variable {ctr : UInt64} {pts : List Octets} {before : Octets} {n : ℕ}

theorem Reads.chunk (hopens : OpensSealed) (hkey : key.length = 32)
    (hsize : ∀ pt ∈ pts, pt.length < 2 ^ 16) (h : Reads key ctr pts before n r) {chunk : Octets}
    (hchunk : chunk = ((framesOf key ctr pts).flatten.take (n + chunk.length)).drop n) :
    (openFrames key (r.s.rtspEncBuf ++ chunk) r.s.ctrlRecvCtr).failed = false ∧
      Reads key ctr pts before (n + chunk.length) (takeControlFrames key chunk r) := by
  obtain ⟨opened, hopen, hplain⟩ := openFrames_more hopens hkey hsize ctr hchunk
  rw [← h.encBuf, ← h.recvCtr] at hopen
  refine ⟨by rw [hopen], ⟨?_, ?_, ?_⟩⟩
  · simp only [takeControlFrames, hopen]
  · simp only [takeControlFrames, hopen]
  · have hwhole : Cut.wholes (framesOf key ctr pts) n ≤
        Cut.wholes (framesOf key ctr pts) (n + chunk.length) :=
      Cut.wholes_mono (Nat.le_add_right n chunk.length)
    have htaken : (takeControlFrames key chunk r).s.rxBuf = r.s.rxBuf ++ opened.flatMap Prod.snd := by
      simp only [takeControlFrames, hopen]
      rfl
    rw [htaken, hplain, h.rxBuf, List.append_assoc, ← List.flatten_append]
    have hsplit := List.take_append_drop (Cut.wholes (framesOf key ctr pts) n)
      (pts.take (Cut.wholes (framesOf key ctr pts) (n + chunk.length)))
    rw [List.take_take, Nat.min_eq_left hwhole] at hsplit
    rw [hsplit]

/-- **Frames are read however they are cut.** -/
theorem Reads.chunks (hopens : OpensSealed) (hkey : key.length = 32)
    (hsize : ∀ pt ∈ pts, pt.length < 2 ^ 16) : ∀ (chunks : List Octets) {n : ℕ} {r : World},
      Reads key ctr pts before n r → chunks.flatten = (framesOf key ctr pts).flatten.drop n →
      ∃ r', readChunks key chunks r = some r' ∧
        Reads key ctr pts before (n + chunks.flatten.length) r'
  | [], n, r, h, _ => ⟨r, rfl, h⟩
  | chunk :: chunks, n, r, h, hcut => by
    rw [List.flatten_cons] at hcut
    have hchunk : chunk = ((framesOf key ctr pts).flatten.take (n + chunk.length)).drop n := by
      rw [List.drop_take, Nat.add_sub_cancel_left, ← hcut, List.take_left]
    obtain ⟨hgood, h₁⟩ := h.chunk hopens hkey hsize hchunk
    have hcut₁ : chunks.flatten = (framesOf key ctr pts).flatten.drop (n + chunk.length) := by
      rw [← List.drop_drop, ← hcut, List.drop_left]
    obtain ⟨r', hrun, h'⟩ := Reads.chunks hopens hkey hsize chunks h₁ hcut₁
    refine ⟨r', ?_, ?_⟩
    · rw [readChunks, hgood]
      exact hrun
    · rwa [List.flatten_cons, List.length_append, ← Nat.add_assoc]

/-! ## 4. Both -/

/-- What the reader `r` has, and where it stands, when it has read `chunks`. -/
structure Recovered (key : Octets) (chunks messages : List Octets) (next : UInt64) (r : World) :
    Prop where
  read : ∃ r', readChunks key chunks r = some r' ∧ r'.s.rxBuf = r.s.rxBuf ++ messages.flatten ∧
    r'.s.rtspEncBuf = [] ∧ r'.s.ctrlRecvCtr = next
  sized : ∃ pts : List Octets, chunks.flatten = (framesOf key r.s.ctrlRecvCtr pts).flatten ∧
    ∀ pt ∈ pts, 1 ≤ pt.length ∧ pt.length ≤ 1024

/-- **What is written to the encrypted channel is read at its other end**, in whatever chunks, if
and only if every message is shorter than 2^31 octets. -/
theorem frames_recovered_iff (hopens : OpensSealed) (henc : w.s.controlEncrypted = true)
    (ha : w.s.ap2 = some a) (hkey : a.controlOut.length = 32) (messages chunks : List Octets)
    (hchunks : chunks.flatten = sentSince w (each writeRtsp messages w).2)
    (hbuf : r.s.rtspEncBuf = []) (hctr : r.s.ctrlRecvCtr = w.s.ctrlSendCtr) :
    Recovered a.controlOut chunks messages (each writeRtsp messages w).2.s.ctrlSendCtr r ↔
      ∀ m ∈ messages, m.length < 2 ^ 31 := by
  obtain ⟨w', sent, hrun, hnext, hsent, hframes⟩ := each_writeRtsp messages henc ha hkey
  have hsince : sentSince w w' = sent.flatten := by
    rw [sentSince, hsent, List.drop_left]
  rw [hrun] at hchunks ⊢
  simp only at hchunks ⊢
  rw [hsince, hframes, ← hctr] at hchunks
  rw [← hctr] at hnext
  have hpieces : ∀ pt ∈ messages.flatMap AirplaySender.chunks, 1 ≤ pt.length ∧ pt.length ≤ 1024 := by
    intro pt hpt
    obtain ⟨m, -, hpt⟩ := List.mem_flatMap.mp hpt
    exact mem_chunksOf hpt
  generalize hpts : messages.flatMap AirplaySender.chunks = pts at hchunks hnext hpieces
  have hflat : pts.flatten = (messages.map intPrefix).flatten := by
    rw [← hpts]
    exact flatten_flatMap_chunks messages
  -- the reader before anything is delivered, and after all of it
  have hstart : Reads a.controlOut r.s.ctrlRecvCtr pts r.s.rxBuf 0 r := by
    have hframe : ∀ e ∈ framesOf a.controlOut r.s.ctrlRecvCtr pts, e ≠ [] := by
      intro e he
      obtain ⟨pt, c, -, rfl⟩ := mem_framesOf he
      exact List.ne_nil_of_length_pos (by rw [length_frame]; omega)
    obtain ⟨hwhole, hpart⟩ := Cut.part_zero hframe
    exact ⟨by rw [hbuf, hpart], by rw [hwhole]; simp, by rw [hwhole]; simp⟩
  obtain ⟨r', hread, hend⟩ := hstart.chunks hopens hkey
    (fun pt hpt => (hpieces pt hpt).2.trans_lt (by norm_num)) chunks (by rw [hchunks]; rfl)
  rw [Nat.zero_add, hchunks] at hend
  have hall := Cut.wholes_all (le_refl (framesOf a.controlOut r.s.ctrlRecvCtr pts).flatten.length)
  have hrest := hend.encBuf
  have hplain := hend.rxBuf
  have hcount := hend.recvCtr
  rw [Cut.part_nil (by rw [hall, List.getElem?_eq_none le_rfl])] at hrest
  rw [hall, length_framesOf, List.take_length, hflat] at hplain
  rw [hall, length_framesOf, ← hnext] at hcount
  rw [← prefixes_eq_iff]
  constructor
  · rintro ⟨⟨r'', hread', hplain', -, -⟩, -⟩
    obtain rfl : r' = r'' := Option.some.inj (hread.symm.trans hread')
    exact List.append_cancel_left (hplain.symm.trans hplain')
  · intro hwhole
    rw [hwhole] at hplain
    exact ⟨⟨r', hread, hplain, hrest, hcount⟩, ⟨pts, hchunks, hpieces⟩⟩

end FrameRoundTrip

/-- An encrypted channel under the key of zeros. -/
def sampleChannel : World where
  s := { controlEncrypted := true, ap2 := some { controlOut := List.replicate 32 0 } }
  env := .still
  out := []

/-- Three octets in a frame of the stand-in. -/
def sampleFrame : Octets := [3, 0, 1, 2, 3] ++ List.replicate 16 0

theorem frames_recovered_sample : @Recovered trusting (List.replicate 32 0)
    [sampleFrame.take 1, sampleFrame.drop 1] [[], [1, 2, 3]] 1 sampleChannel :=
  (@frames_recovered_iff trusting sampleChannel sampleChannel _ opensSealed_transparent rfl rfl rfl
    [[], [1, 2, 3]] [sampleFrame.take 1, sampleFrame.drop 1] (by decide +kernel) rfl rfl).mpr
      (by decide)

/-- A message that an `int` measures as negative. -/
def longMessage : Octets := List.replicate (2 ^ 31) 0

/-- Of a message of 2^31 octets nothing is sent, and so nothing is read. -/
theorem long_message_lost :
    sentSince sampleChannel (each (@writeRtsp trusting) [longMessage] sampleChannel).2 = [] ∧
      ¬ @Recovered trusting (List.replicate 32 0) [] [longMessage] 0 sampleChannel := by
  have hlen : longMessage.length = 2 ^ 31 := List.length_replicate
  constructor
  · obtain ⟨w', sent, hrun, -, hsent, hframes⟩ :=
      @each_writeRtsp trusting _ [longMessage] sampleChannel rfl rfl rfl
    have hprefix : intPrefix longMessage = [] := by
      have hneg : (wrap32 (2 ^ 31 : ℕ)).toNat = 0 := by decide
      unfold intPrefix
      rw [hlen, hneg, List.take_zero]
    have hnone : [longMessage].flatMap chunks = [] := by
      rw [List.flatMap_singleton, chunks, hprefix]
      rfl
    rw [hnone] at hframes
    rw [hrun]
    simp only
    rw [sentSince, hsent, List.drop_left, hframes]
    rfl
  · rintro ⟨⟨r', hread, hplain, -⟩, -⟩
    obtain rfl : sampleChannel = r' := Option.some.inj hread
    rw [List.flatten_cons, List.flatten_nil, List.append_nil] at hplain
    have hnil := congrArg List.length hplain
    rw [List.length_append, hlen] at hnil
    omega

end AirplaySender
