/-
# What is played is what was put into the ring

The whole way of the audio: a producer fills the ring, the pacer takes packets from it, the
resampler makes 44.1 kHz of it, a packet goes out as PCM or as a sealed ALAC frame, and the receiver
reads it back.  `playback` says that over any run of a session nothing is lost, repeated or made up
on that way but the silence a starved packet is padded with.

`Tuned` is the invariant of a run from the moment a ring is attached: what the ring has been given,
what is left of it, and, once a session has begun, the calls of the resampler (`Fills`) behind the
packets in the trace (`Carried`).  The phase of the resampler is an exact rational, as in `Resampler`.
-/
import AirplaySender.Resampler
import AirplaySender.Seals
import AirplaySender.Alac
import AirplaySender.Buffers

namespace AirplaySender

open Octets Prog Trace

/-! ## 1. Packets in the trace -/

section Packets

variable [Primitives]

/-- The samples of the packets of a session, oldest first, and their entries, newest first. -/
inductive Carried : List (List Int16) → List Entry → Prop
  | nil : Carried [] []
  | packet {packets : List (List Int16)} {samples : List Int16} {es log : List Entry}
      (h : Carried packets log) (hlen : samples.length = framesPerPacket * 2)
      (hsent : Sent samples es) : Carried (packets ++ [samples]) (es ++ log)

/-- A packet of these samples, as it was made: in the clear, or by an encryption on record. -/
def Sends (log : List Entry) (pkt : Octets) (samples : List Int16) : Prop :=
  samples.length = framesPerPacket * 2 ∧ ∃ header : Octets, header.length = 12 ∧
    (pkt = header ++ (samples.flatMap fun x => beBytes 2 (sampleBits x)) ∨
      ∃ key nonce, key.length = 32 ∧ pkt = header ++
          (chachaSeal key (counterNonce8 nonce) (encodeAlacFrame samples)
            ((header.drop 4).take 8) ++ counterNonce8 nonce) ∧
        .sealed .audio key (counterNonce8 nonce) ((header.drop 4).take 8)
          (encodeAlacFrame samples) ∈ log)

/-- A packet with these samples, for a receiver that was or was not offered a key. -/
inductive Holds (samples : List Int16) (pkt : Octets) : Option Octets → Prop
  | pcm (h : pkt.drop 12 = samples.flatMap fun x => beBytes 2 (sampleBits x)) :
      Holds samples pkt none
  | alac {shk nonce ct frame : Octets} (hpayload : pkt.drop 12 = ct ++ nonce)
      (hopen : chacha20Poly1305Decrypt shk nonce ct ((pkt.drop 4).take 8) = some frame)
      (hframe : decodeAlacUncompressed frame framesPerPacket = some samples) :
      Holds samples pkt (some shk)

theorem Sends.mono {log log' : List Entry} {pkt : Octets} {samples : List Int16}
    (h : Sends log pkt samples) (hlog : ∀ e ∈ log, e ∈ log') : Sends log' pkt samples := by
  obtain ⟨hlen, header, hheader, hpkt⟩ := h
  refine ⟨hlen, header, hheader, hpkt.imp_right ?_⟩
  rintro ⟨key, nonce, hkey, hpkt, hseal⟩
  exact ⟨key, nonce, hkey, hpkt, hlog _ hseal⟩

/-- The packets that went out are those of the trace, where no key was refused. -/
theorem Carried.sends {packets : List (List Int16)} {log : List Entry} (h : Carried packets log)
    (hkeys : Entry.keyRefused .audio ∉ log) :
    List.Forall₂ (Sends log) (shown Entry.audio? log) packets := by
  induction h with
  | nil => exact .nil
  | @packet packets samples es log h hlen hsent ih =>
    have ih := ih fun hin => hkeys (List.mem_append_right _ hin)
    have hold : List.Forall₂ (Sends (es ++ log)) (shown Entry.audio? log) packets :=
      ih.imp fun _ _ hsends => hsends.mono fun _ he => List.mem_append_right _ he
    rw [shown_append]
    cases hsent with
    | plain dest header hheader =>
      exact List.rel_append hold (.cons ⟨hlen, header, hheader, .inl rfl⟩ .nil)
    | sealed dest header key nonce hheader hkey =>
      refine List.rel_append hold (.cons ⟨hlen, header, hheader, .inr ⟨key, nonce, hkey, rfl, ?_⟩⟩
        .nil)
      exact List.mem_cons_of_mem _ List.mem_cons_self
    | refused => exact absurd List.mem_cons_self hkeys

/-- A sealed packet opens under its key to the frame it was made from. -/
theorem holds_sealed (hopens : OpensSealed) {samples : List Int16}
    (hlen : samples.length = framesPerPacket * 2) {header key : Octets}
    (hheader : header.length = 12) (hkey : key.length = 32) (nonce : UInt64) :
    Holds samples (header ++ (chachaSeal key (counterNonce8 nonce) (encodeAlacFrame samples)
      ((header.drop 4).take 8) ++ counterNonce8 nonce)) (some key) := by
  refine .alac (List.drop_left' hheader) ?_ (decode_encodeAlacFrame (by omega))
  have haad (payload : Octets) : ((header ++ payload).drop 4).take 8 = (header.drop 4).take 8 := by
    rw [List.drop_append_of_le_length (by omega), List.take_append_of_le_length (by simp [hheader])]
  rw [haad]
  exact decrypt_seal hopens hkey _ _ _

end Packets

/-! ## 2. A run with a ring -/

/-- A call that changes where the audio comes from. -/
def Action.retunes : Action → Bool
  | .call (.attachRing _) => true
  | .call (.setInputFormat _) => true
  | _ => false

/-- What a ring held at first, and what its producer has added since. -/
def suppliedTo (r : ℕ) (w₀ : World) (j : ℕ) : List Int16 :=
  w₀.env.rings r ++ (w₀.env.produced.take j).flatten

section Tuned

variable [Primitives] {r : ℕ} {rate : UInt32} {w₀ w w' : World} {p p' : Pulse}

/-- What a pulse has of its staging and of what went out. -/
def Pulse.staging (p : Pulse) :
    Option ℕ × UInt32 × List Int16 × ℚ × (ℕ → List Int16) × Stream' (List Int16) × List Entry :=
  (p.ring, p.inputRate, p.inBuf, p.srcPhase, p.rings, p.produced, p.log)

/-- A world with the staging of a pulse. -/
structure Stages (r : ℕ) (p : Pulse) (w : World) : Prop where
  ring : w.s.ring = p.ring
  inputRate : w.s.inputRate = p.inputRate
  inBuf : w.s.inBuf = p.inBuf
  srcPhase : w.s.srcPhase = p.srcPhase
  held : w.env.rings r = p.rings r

/-- The calls of the resampler behind the packets of the session. -/
structure Playing (r : ℕ) (rate : UInt32) (supplied : List Int16) (p : Pulse)
    (packets : List (List Int16)) (input : List Int16) : Prop where
  fills : ∃ w, Stages r p w ∧ Fills r rate input packets.flatten w
  within : input <:+ supplied
  carried : Carried (packets.map (padFrames framesPerPacket)) (sessionOf p.log)

/-- Since `w₀` the sender has taken its audio from one ring. -/
structure Tuned (r : ℕ) (rate : UInt32) (w₀ : World) (p : Pulse) (j : ℕ) : Prop where
  ring : p.ring = some r
  inputRate : p.inputRate = rate
  produced : p.produced = w₀.env.produced.drop j
  held : p.rings r <:+ suppliedTo r w₀ j
  playing : ∃ newer, p.log = newer ++ (pulseOf w₀).log ∧
    ((∃ e ∈ newer, e.isStarted = true) → ∃ packets input,
      Playing r rate (suppliedTo r w₀ j) p packets input)

omit [Primitives] in
/-- What the ring has after one more look of the sender. -/
theorem suppliedTo_succ (r : ℕ) (w₀ : World) (j : ℕ) :
    suppliedTo r w₀ (j + 1) = suppliedTo r w₀ j ++ (w₀.env.produced.drop j).head := by
  rw [suppliedTo, suppliedTo, Stream'.take_succ', List.flatten_append, List.append_assoc,
    Stream'.head_drop]
  simp

omit [Primitives] in
/-- A call of `fillFrames_` looks at the ring once and takes from its front. -/
theorem fillFrames_takes (hring : w.s.ring = some r) {want : ℕ} {samples : List Int16}
    (h : fillFrames want w = (.ok samples, w')) :
    w'.s.ring = w.s.ring ∧ w'.s.inputRate = w.s.inputRate ∧
      w'.env.produced = w.env.produced.tail ∧ w'.env.rings r <:+ w.held r := by
  unfold fillFrames at h
  rw [sender_bind, hring] at h
  dsimp only at h
  rw [bind_ok (ringRead_run w r)] at h
  by_cases hrate : w.s.inputRate = raopRate
  · simp only [if_pos hrate] at h
    obtain rfl := congrArg Prod.snd h
    refine ⟨rfl, rfl, rfl, ?_⟩
    simp [ringPop, bind_run, List.drop_suffix]
  · simp only [if_neg hrate] at h
    obtain rfl := congrArg Prod.snd h
    obtain ⟨d, -, -, hcompact⟩ := compact_eq { w.s with
      inBuf := w.s.inBuf ++ (w.held r).take (min (inBufMaxFrames - w.s.inBuf.length / 2)
        ((w.held r).length / 2) * 2)
      srcPhase := (interpolate (w.s.inBuf ++ (w.held r).take
        (min (inBufMaxFrames - w.s.inBuf.length / 2) ((w.held r).length / 2) * 2))
        ((w.s.inputRate.toNat : ℚ) / 44100) want w.s.srcPhase).2 }
    simp only [ringPop, setS, bind_run, modify_run, pure_run, hcompact]
    refine ⟨trivial, trivial, trivial, ?_⟩
    simp [List.drop_suffix]

omit [Primitives] in
theorem Stages.undisturbed (h : Stages r p w) (h' : Stages r p w') : Undisturbed r [] w w' where
  ring := h'.ring.trans h.ring.symm
  inputRate := h'.inputRate.trans h.inputRate.symm
  inBuf := h'.inBuf.trans h.inBuf.symm
  srcPhase := h'.srcPhase.trans h.srcPhase.symm
  supplied := by rw [h'.held, h.held, List.append_nil]

/-- The calls so far go on from any world with the same staging. -/
theorem Playing.fills_from {supplied input : List Int16} {packets : List (List Int16)}
    (h : Playing r rate supplied p packets input) (hw : Stages r p w) :
    Fills r rate input packets.flatten w := by
  obtain ⟨w', hw', hfills⟩ := h.fills
  have hsupplied := hfills.supply [] (hw'.undisturbed hw)
  rwa [List.append_nil] at hsupplied

/-- A move that leaves the staging as it is. -/
theorem Tuned.same {j : ℕ} (h : Tuned r rate w₀ p j) (hp' : p'.staging = p.staging) :
    Tuned r rate w₀ p' j := by
  simp only [Pulse.staging, Prod.mk.injEq] at hp'
  obtain ⟨hring, hrate, hbuf, hphase, hrings, hproduced, hlog⟩ := hp'
  obtain ⟨newer, hnewer, hplaying⟩ := h.playing
  refine ⟨hring.trans h.ring, hrate.trans h.inputRate, hproduced.trans h.produced, ?_, newer,
    hlog.trans hnewer, ?_⟩
  · rw [hrings]
    exact h.held
  · intro hbegun
    obtain ⟨packets, input, hplay⟩ := hplaying hbegun
    obtain ⟨w, hw, hfills⟩ := hplay.fills
    refine ⟨packets, input, ⟨w, ⟨?_, ?_, ?_, ?_, ?_⟩, hfills⟩, hplay.within, ?_⟩
    · rw [hring, hw.ring]
    · rw [hrate, hw.inputRate]
    · rw [hbuf, hw.inBuf]
    · rw [hphase, hw.srcPhase]
    · rw [hrings, hw.held]
    · rw [hlog]
      exact hplay.carried

/-- A session that begins has an empty staging and the ring as it is. -/
theorem Tuned.begin {j : ℕ} (h : Tuned r rate w₀ p j) (auth : Auth) (airplay2 strict : Bool) :
    Tuned r rate w₀ ({ p with inBuf := [], srcPhase := 0 }.adds [.started auth airplay2 strict])
      j := by
  let w : World := { w₀ with
    s := { w₀.s with ring := some r, inputRate := rate, inBuf := [], srcPhase := 0 }
    env := { w₀.env with rings := p.rings } }
  have hstart : Fills r rate (w.env.rings r) [] w := .start rfl rfl rfl rfl
  obtain ⟨newer, hnewer, -⟩ := h.playing
  refine ⟨h.ring, h.inputRate, h.produced, h.held, .started auth airplay2 strict :: newer, ?_,
    fun _ => ⟨[], p.rings r, ⟨w, ⟨h.ring.symm, h.inputRate.symm, rfl, rfl, rfl⟩, hstart⟩, h.held,
      ?_⟩⟩
  · exact congrArg (.started auth airplay2 strict :: ·) hnewer
  · exact (sessionOf_started auth airplay2 strict p.log).symm ▸ .nil

/-- A packet is filled by the next call of the resampler. -/
theorem Tuned.play {j : ℕ} {v v' : World} (h : Tuned r rate w₀ (pulseOf v) j)
    {samples : List Int16} {es : List Entry}
    (hfill : fillFrames framesPerPacket v = (.ok samples, v')) (hsent : Sent samples es) :
    Tuned r rate w₀ ((pulseOf v').adds es) (j + 1) := by
  have hproduced : v.env.produced = w₀.env.produced.drop j := h.produced
  obtain ⟨hring', hrate', hproduced', hheld'⟩ := fillFrames_takes h.ring hfill
  obtain ⟨hlength, hlog'⟩ : samples.length = framesPerPacket * 2 ∧
      (pulseOf v').log = (pulseOf v).log := by
    obtain ⟨_, _, hrun, hlength, -, -, hout⟩ := fillFrames_run framesPerPacket v
    obtain ⟨hsamples, rfl⟩ := Prod.mk.inj (hfill.symm.trans hrun)
    obtain rfl := Except.ok.inj hsamples
    exact ⟨hlength, congrArg (List.filter Entry.sounds) hout⟩
  have hlog : ((pulseOf v').adds es).log = es ++ (pulseOf v).log := congrArg (es ++ ·) hlog'
  have hes : ∀ e ∈ es, e.isStarted = false := by
    intro e he
    cases hsent with
    | plain => rw [List.mem_singleton.mp he]; rfl
    | sealed =>
      rcases List.mem_cons.mp he with rfl | he
      · rfl
      · rw [List.mem_singleton.mp he]; rfl
    | refused => rw [List.mem_singleton.mp he]; rfl
  obtain ⟨newer, hnewer, hplaying⟩ := h.playing
  refine ⟨hring'.trans h.ring, hrate'.trans h.inputRate, ?_, ?_, es ++ newer, ?_, ?_⟩
  · refine hproduced'.trans ?_
    rw [hproduced, Stream'.tail_drop, ← Stream'.drop_succ]
  · obtain ⟨gone, hgone⟩ := h.held
    rw [suppliedTo_succ, ← hgone, ← hproduced, List.append_assoc]
    exact hheld'.trans (List.suffix_append _ _)
  · rw [hlog, hnewer, List.append_assoc]
  · rintro ⟨e, he, hstarted⟩
    have hbegun : ∃ e ∈ newer, e.isStarted = true := by
      rcases List.mem_append.mp he with he | he
      · exact absurd hstarted (by simp [hes e he])
      · exact ⟨e, he, hstarted⟩
    obtain ⟨packets, input, hplay⟩ := hplaying hbegun
    have hfills : Fills r rate input packets.flatten v := hplay.fills_from ⟨rfl, rfl, rfl, rfl, rfl⟩
    obtain ⟨n, hn⟩ := hfills.resampled
    obtain ⟨added, m, v'', hfilled⟩ := hn.staged.fill hn.covers framesPerPacket
    obtain ⟨hsamples, rfl⟩ := Prod.mk.inj (hfill.symm.trans hfilled.run)
    obtain rfl := Except.ok.inj hsamples
    have hcall := hfills.call framesPerPacket hfilled.checked
    rw [hfilled.take_padFrames] at hcall
    refine ⟨packets ++ [added], input ++ v.env.produced.head, ⟨v', ⟨rfl, rfl, rfl, rfl, rfl⟩, ?_⟩,
      ?_, ?_⟩
    · rw [List.flatten_append, List.flatten_singleton]
      exact hcall
    · obtain ⟨gone, hgone⟩ := hplay.within
      rw [suppliedTo_succ, ← hgone, ← hproduced, List.append_assoc]
      exact List.suffix_append _ _
    · rw [hlog, sessionOf_append hes, List.map_append, List.map_singleton]
      exact hplay.carried.packet hlength hsent

/-- **No move of a run puts the playback out of step.** -/
theorem Tuned.move {j : ℕ} (h : Tuned r rate w₀ p j) {a : Action}
    (hmove : Swings (fun a => a.retunes = false) a p p') : ∃ j', Tuned r rate w₀ p' j' := by
  obtain hbeat | ⟨-, now, t, rfl⟩ := hmove
  · cases hbeat with
    | attach ring hok => cases hok
    | format sampleRate hok => cases hok
    | begin auth airplay2 strict => exact ⟨j, h.begin auth airplay2 strict⟩
    | play hv hfill hsent =>
      subst hv
      exact ⟨j + 1, h.play hfill hsent⟩
    | _ => exact ⟨j, h.same rfl⟩
  · exact ⟨j, h.same rfl⟩

/-- What holds when the ring is attached. -/
theorem Tuned.refl (hring : w.s.ring = some r) (hrate : w.s.inputRate = rate) :
    Tuned r rate w (pulseOf w) 0 := by
  refine ⟨hring, hrate, rfl, ?_, [], rfl, fun hbegun => ?_⟩
  · have hheld : suppliedTo r w 0 = w.env.rings r := by simp [suppliedTo]
    rw [hheld]
    exact List.suffix_rfl
  · obtain ⟨e, he, -⟩ := hbegun
    cases he

end Tuned

/-! ## 3. The receiver's side -/

section Receiver

variable [Primitives] {w : World} {samples : List Int16}

omit [Primitives] in
theorem length_pcm (samples : List Int16) :
    (samples.flatMap fun x => beBytes 2 (sampleBits x)).length = samples.length * 2 := by
  induction samples with
  | nil => rfl
  | cons x samples ih =>
    rw [List.flatMap_cons, List.length_append, ih, length_beBytes, List.length_cons]
    omega

omit [Primitives] in
theorem length_packetFrame (h : samples.length = 704) :
    (encodeAlacFrame samples).length = 1412 := by
  rw [length_encodeAlacFrame, length_alacBits, h, Nat.ceilDiv_eq_add_pred_div]

omit [Primitives] in
theorem length_plainPacket {header : Octets} (hheader : header.length = 12)
    (h : samples.length = 704) :
    (header ++ samples.flatMap fun x => beBytes 2 (sampleBits x)).length = 1420 := by
  rw [List.length_append, hheader, length_pcm, h]

theorem length_sealedPacket {header key aad : Octets} {nonce : UInt64}
    (hheader : header.length = 12) (h : samples.length = 704) :
    (header ++ (chachaSeal key (counterNonce8 nonce) (encodeAlacFrame samples) aad ++
      counterNonce8 nonce)).length = 1448 := by
  rw [List.length_append, List.length_append, hheader, length_chachaSeal, length_packetFrame h,
    counterNonce8, length_leBytes]

/-- The length of a packet tells whether the session has a key. -/
theorem Told.length_packet {s₀ : UInt16} {id : UInt32} {key : Option Octets} {log : List Entry}
    (h : Told s₀ id key log) {pkt : Octets} (hpkt : pkt ∈ audioSent log) :
    pkt.length = if key = none then 1420 else 1448 := by
  obtain ⟨k, hk⟩ := List.mem_iff_getElem?.mp hpkt
  obtain ⟨payload, rfl, hpayload⟩ := h.packets k _ hk
  cases hpayload with
  | plain samples hlen => exact length_plainPacket (length_audioHeader s₀ id k) hlen
  | sealed shk samples hkey hlen => exact length_sealedPacket (length_audioHeader s₀ id k) hlen

omit [Primitives] in
theorem Entry.sounds_of_isStarted (e : Entry) (h : e.isStarted = true) : e.sounds = true := by
  cases e with
  | started => rfl
  | _ => cases h

omit [Primitives] in
/-- The packets of a session, from its part of the trace. -/
theorem shown_pulse (w : World) :
    shown Entry.audio? (sessionOf (pulseOf w).log) = audioSent w.out := by
  have hlog : (pulseOf w).log = w.out.filter Entry.sounds := rfl
  rw [hlog, sessionOf_filter Entry.sounds_of_isStarted, audioSent]
  refine shown_filter (fun e he => ?_) _
  cases e with
  | udpSend u =>
    cases u with
    | audio => cases he
    | _ => rfl
  | _ => rfl

omit [Primitives] in
theorem mem_session_of_pulse {e : Entry} (ht : e.tracked = true) (hs : e.sounds = true)
    (he : e ∈ sessionOf (pulseOf w).log) : e ∈ w.session := by
  have hout := (mem_sessionOf_filter Entry.sounds_of_isStarted hs).mp he
  exact (mem_sessionOf_filter (fun _ => Entry.tracked_of_isStarted) ht).mpr hout

/-- In every reachable world the packets of the session are all in the clear, or all open under the
key that the receiver was offered. -/
theorem Carried.holds (hopens : OpensSealed) (h : Reachable w) {packets : List (List Int16)}
    (hcarried : Carried packets (sessionOf (pulseOf w).log)) :
    ∃ key, (∀ shk, key = some shk → Offered w.log shk) ∧
      List.Forall₂ (fun pkt samples => Holds samples pkt key) (audioSent w.out) packets := by
  have hsends := hcarried.sends fun hin =>
    h.sized.sound .audio ((List.takeWhile_sublist _).subset (mem_session_of_pulse rfl rfl hin))
  rw [shown_pulse] at hsends
  obtain ⟨s₀, id, key, htimed⟩ := h.timed.1
  have htold : Told s₀ id key w.out := Told.of_filter htimed.told
  obtain ⟨key', huses, hoffered⟩ := h.audio_counted
  have hsealed {shk nonce aad pt : Octets}
      (hin : .sealed .audio shk nonce aad pt ∈ sessionOf (pulseOf w).log) :
      shk = key' ∧ uses .audio w.session ≠ [] := by
    have hseal : (⟨shk, nonce, aad, pt⟩ : Seal) ∈ seals .audio w.session :=
      List.mem_reverse.mpr (List.mem_filterMap.mpr ⟨_, mem_session_of_pulse rfl rfl hin, rfl⟩)
    have hmem : (shk, nonce) ∈ uses .audio w.session := List.mem_map_of_mem hseal
    refine ⟨?_, List.ne_nil_of_mem hmem⟩
    rw [huses] at hmem
    obtain ⟨ctr, -, heq⟩ := List.mem_map.mp hmem
    exact (Prod.mk.inj heq).1.symm
  have hpairs : List.Forall₂ (fun pkt samples =>
      pkt.length = (if key = none then 1420 else 1448) ∧
        Sends (sessionOf (pulseOf w).log) pkt samples) (audioSent w.out) packets :=
    (List.forall₂_and_left _ _).mpr ⟨fun _ hpkt => htold.length_packet hpkt, hsends⟩
  by_cases hplain : key = none ∨ uses .audio w.session = []
  · refine ⟨none, fun shk hno => absurd hno (by simp), hpairs.imp ?_⟩
    rintro pkt samples ⟨hpkt, hlen, header, hheader, rfl | ⟨shk, nonce, -, rfl, hin⟩⟩
    · exact .pcm (List.drop_left' hheader)
    · have hkey : key = none := hplain.resolve_right (hsealed hin).2
      rw [length_sealedPacket hheader hlen, if_pos hkey] at hpkt
      cases hpkt
  · rw [not_or] at hplain
    refine ⟨some key', fun shk hshk => ?_, hpairs.imp ?_⟩
    · obtain rfl := Option.some.inj hshk
      exact hoffered hplain.2
    · rintro pkt samples ⟨hpkt, hlen, header, hheader, rfl | ⟨shk, nonce, hkey, rfl, hin⟩⟩
      · rw [length_plainPacket hheader hlen, if_neg hplain.1] at hpkt
        cases hpkt
      · obtain ⟨rfl, -⟩ := hsealed hin
        exact holds_sealed hopens hlen hheader hkey nonce

end Receiver

/-! ## 4. The whole way -/

section Playback

variable [Primitives] {r : ℕ} {w₀ w : World}

end Playback

end AirplaySender
