/-
# What a session takes for genuine

Once the control channel is switched, its reader takes what a frame opens to for the receiver's
word, and the event channel does so from the start.  Both count their frames.  Assumed of the run is
`Authentic`: of all that came in on the channel nothing opens, under a key and a nonce, but to what
the receiver sealed there.

`control_authentic`: whatever an attacker does to the stream, as long as the session lasts the
sender acts on a prefix of what the receiver sent, behind what was left in the buffer, in plaintext,
when the channel was switched.  `event_authentic`: on the event channel a frame that does not open
costs its place in the count and not the session, so there the `k`-th frame that is read is the
receiver's `k`-th or nothing.
-/
import AirplaySender.Events
import AirplaySender.Seals

namespace AirplaySender

open Octets Trace
open Counted (counters Sequential)

/-! ## 1. Frames -/

section Frames

variable [Primitives]

/-- Something that `came` in opens under this key and counter to this plaintext. -/
def Unseals (came : Octets → Prop) (key : Octets) (ctr : UInt64) (pt : Octets) : Prop :=
  ∃ ct aad, came ct ∧ chacha20Poly1305Decrypt key (counterNonce8 ctr) ct aad = some pt

/-- The other side has sealed `made` under a key, in this order, and nothing else that came in
opens. -/
def Authentic (came : Octets → Prop) (key : Octets) (made : List Octets) : Prop :=
  made.length < 2 ^ 64 ∧ ∀ ctr pt, Unseals came key ctr pt → made[ctr.toNat]? = some pt

theorem Unseals.mono {came came' : Octets → Prop} {key pt : Octets} {ctr : UInt64}
    (h : Unseals came key ctr pt) (hcame : ∀ ct, came ct → came' ct) : Unseals came' key ctr pt := by
  obtain ⟨ct, aad, hct, hopen⟩ := h
  exact ⟨ct, aad, hcame ct hct, hopen⟩

/-- What a run of the decrypt loop over a buffer opens: pieces of it, under the next counters, one
after the other.  What it leaves is the end of the buffer. -/
structure Opened.Counts (o : Opened) (key buf : Octets) (ctr : UInt64) : Prop where
  counters : o.frames.map Prod.fst = (counters o.frames.length).map (ctr + ·)
  next : o.ctr = ctr + UInt64.ofNat (o.frames.length + if o.failed then 1 else 0)
  opens : ∀ f ∈ o.frames, Unseals (· <:+: buf) key f.1 f.2
  rest : o.rest <:+ buf

theorem Opened.Counts.nil (key buf : Octets) (ctr : UInt64) :
    (⟨[], buf, ctr, false⟩ : Opened).Counts key buf ctr :=
  ⟨rfl, by simp, by simp, List.suffix_rfl⟩

theorem openLoop_counts (key : Octets) : ∀ (fuel : ℕ) (buf : Octets) (ctr : UInt64),
    (openLoop key fuel buf ctr).Counts key buf ctr
  | 0, buf, ctr => by
    unfold openLoop
    exact .nil key buf ctr
  | fuel + 1, [], ctr => .nil key [] ctr
  | fuel + 1, [b], ctr => .nil key [b] ctr
  | fuel + 1, l₀ :: l₁ :: body, ctr => by
    unfold openLoop
    dsimp only
    split
    · exact .nil key _ ctr
    split
    · exact ⟨rfl, by simp, by simp, List.suffix_rfl⟩
    · rename_i pt hopen
      have hbody : body <:+ l₀ :: l₁ :: body := ⟨[l₀, l₁], rfl⟩
      have hrest := openLoop_counts key fuel (body.drop (l₀.toNat + l₁.toNat * 256 + 16)) (ctr + 1)
      generalize openLoop key fuel (body.drop (l₀.toNat + l₁.toNat * 256 + 16)) (ctr + 1) = o at hrest
      obtain ⟨hcounters, hnext, hopens, hsuffix⟩ := hrest
      have hpast := (List.drop_suffix (l₀.toNat + l₁.toNat * 256 + 16) body).trans hbody
      refine ⟨?_, ?_, ?_, hsuffix.trans hpast⟩
      · rw [List.map_cons, hcounters, List.length_cons, Counted.counters_cons, List.map_cons,
          UInt64.add_zero, List.map_map]
        simp [Function.comp_def, UInt64.add_assoc]
      · rw [hnext, ctr_succ, List.length_cons, Nat.add_right_comm]
      · intro f hf
        rcases List.mem_cons.mp hf with rfl | hf
        · exact ⟨_, _, (List.take_prefix _ body).isInfix.trans hbody.isInfix, hopen⟩
        · exact (hopens f hf).mono fun ct hct => hct.trans hpast.isInfix

theorem openFrames_counts (key buf : Octets) (ctr : UInt64) :
    (openFrames key buf ctr).Counts key buf ctr := openLoop_counts key _ buf ctr

end Frames

/-! ## 2. What the trace shows -/

/-- A frame of the control channel that opened: its counter and its plaintext. -/
def Entry.frame? : Entry → Option (UInt64 × Octets)
  | .received (.opened _ ctr) pt => some (ctr, pt)
  | _ => none

/-- Octets taken off the receive buffer to be acted on. -/
def Entry.taken? : Entry → Option Octets
  | .took bytes => some bytes
  | _ => none

/-- Octets delivered on the control channel. -/
def Entry.delivery? : Entry → Option Octets
  | .delivered _ bytes => some bytes
  | _ => none

/-- The session is ended. -/
def Entry.isEnding : Entry → Bool
  | .ending .. => true
  | _ => false

/-- The session was never ended. -/
def Running (log : List Entry) : Prop := ∀ e ∈ sessionOf log, e.isEnding = false

/-- The session up to its end. -/
def lived (log : List Entry) : List Entry := upTo Entry.isEnding (sessionOf log)

/-- The part of a session behind the switch. -/
def behindSwitch (session : List Entry) : List Entry := session.takeWhile fun e => !e.isSwitched

/-- The frames opened behind the switch, oldest first. -/
def framesIn (session : List Entry) : List (UInt64 × Octets) :=
  shown Entry.frame? (behindSwitch session)

/-- The octets of these frames. -/
def heardIn (session : List Entry) : Octets := ((framesIn session).map Prod.snd).flatten

/-- The octets acted on behind the switch. -/
def takenIn (session : List Entry) : Octets := (shown Entry.taken? (behindSwitch session)).flatten

/-- The octets delivered on the control channel behind the switch. -/
def arrivedIn (session : List Entry) : Octets := (shown Entry.delivery? (behindSwitch session)).flatten

/-- A piece of these octets. -/
def Arrived (session : List Entry) (ct : Octets) : Prop := ct <:+: arrivedIn session

/-- An entry that has to do with what comes in on the control channel. -/
def Entry.hears : Entry → Bool
  | .started .. => true
  | .switched .. => true
  | .delivered .. => true
  | .received .. => true
  | .took _ => true
  | _ => false

theorem hears_false {e : Entry} (h : e.hears = false) : e.isStarted = false ∧ e.isSwitched = false ∧
    e.frame? = none ∧ e.taken? = none ∧ e.delivery? = none := by
  cases e with
  | started | switched | delivered | received | took => cases h
  | _ => exact ⟨rfl, rfl, rfl, rfl, rfl⟩

theorem behindSwitch_append {es : List Entry} (hes : ∀ e ∈ es, e.isSwitched = false)
    (session : List Entry) : behindSwitch (es ++ session) = es ++ behindSwitch session := by
  rw [behindSwitch, List.takeWhile_append_of_pos]
  · rfl
  · intro e he
    simp [hes e he]

section Deaf

variable {es session : List Entry}

theorem framesIn_deaf (hes : ∀ e ∈ es, e.hears = false) : framesIn (es ++ session) = framesIn session := by
  rw [framesIn, behindSwitch_append fun e he => (hears_false (hes e he)).2.1,
    shown_append_none fun e he => (hears_false (hes e he)).2.2.1]
  rfl

theorem takenIn_deaf (hes : ∀ e ∈ es, e.hears = false) : takenIn (es ++ session) = takenIn session := by
  rw [takenIn, behindSwitch_append fun e he => (hears_false (hes e he)).2.1,
    shown_append_none fun e he => (hears_false (hes e he)).2.2.2.1]
  rfl

theorem arrivedIn_deaf (hes : ∀ e ∈ es, e.hears = false) :
    arrivedIn (es ++ session) = arrivedIn session := by
  rw [arrivedIn, behindSwitch_append fun e he => (hears_false (hes e he)).2.1,
    shown_append_none fun e he => (hears_false (hes e he)).2.2.2.2]
  rfl

theorem arrived_deaf (hes : ∀ e ∈ es, e.hears = false) : Arrived (es ++ session) = Arrived session := by
  funext ct
  rw [Arrived, arrivedIn_deaf hes, Arrived]

theorem heardIn_deaf (hes : ∀ e ∈ es, e.hears = false) : heardIn (es ++ session) = heardIn session := by
  rw [heardIn, framesIn_deaf hes]
  rfl

end Deaf

/-! ## 3. The control channel -/

section Control

variable [Primitives] {k : Level} {c c' : Core}

/-- The session behind its switch: every frame in its turn, and nothing acted on that was neither
left over nor opened. -/
structure Sound (session : List Entry) (inn leftover : Octets) : Prop where
  ordered : Sequential (framesIn session)
  genuine : ∀ f ∈ framesIn session, Unseals (Arrived session) inn f.1 f.2
  taken : ∃ rest, takenIn session ++ rest = leftover ++ heardIn session

/-- As long as the session lasts the counter and the buffers are where its trace says. -/
structure Core.Hears (c : Core) (inn leftover : Octets) : Prop where
  ordered : Sequential (framesIn (sessionOf c.log))
  genuine : ∀ f ∈ framesIn (sessionOf c.log), Unseals (Arrived (sessionOf c.log)) inn f.1 f.2
  buffered : c.encBuf <:+ arrivedIn (sessionOf c.log)
  conserved : takenIn (sessionOf c.log) ++ c.rxBuf = leftover ++ heardIn (sessionOf c.log)
  counted : c.recvCtr = UInt64.ofNat (framesIn (sessionOf c.log)).length

theorem Core.Hears.sound {inn leftover : Octets} (h : c.Hears inn leftover) :
    Sound (sessionOf c.log) inn leftover := ⟨h.ordered, h.genuine, c.rxBuf, h.conserved⟩

/-- Entries that hear nothing change nothing. -/
theorem Sound.deaf {session es : List Entry} {inn leftover : Octets} (h : Sound session inn leftover)
    (hes : ∀ e ∈ es, e.hears = false) : Sound (es ++ session) inn leftover := by
  refine ⟨?_, ?_, ?_⟩
  · rw [framesIn_deaf hes]
    exact h.ordered
  · rw [framesIn_deaf hes, arrived_deaf hes]
    exact h.genuine
  · rw [takenIn_deaf hes, heardIn_deaf hes]
    exact h.taken

theorem Core.Hears.deaf {inn leftover : Octets} (h : c.Hears inn leftover) {es : List Entry}
    (hlog : c'.log = es ++ c.log) (hes : ∀ e ∈ es, e.hears = false) (hrx : c'.rxBuf = c.rxBuf)
    (henc : c'.encBuf = c.encBuf) (hctr : c'.recvCtr = c.recvCtr) : c'.Hears inn leftover := by
  have hsession : sessionOf c'.log = es ++ sessionOf c.log := by
    rw [hlog, sessionOf_append fun e he => (hears_false (hes e he)).1]
  refine ⟨?_, ?_, ?_, ?_, ?_⟩
  · rw [hsession, framesIn_deaf hes]
    exact h.ordered
  · rw [hsession, framesIn_deaf hes, arrived_deaf hes]
    exact h.genuine
  · rw [hsession, arrivedIn_deaf hes, henc]
    exact h.buffered
  · rw [hsession, takenIn_deaf hes, heardIn_deaf hes, hrx]
    exact h.conserved
  · rw [hsession, framesIn_deaf hes, hctr]
    exact h.counted

/-- What a delivery to the sealed channel shows. -/
theorem shown_receiveEntries (key bytes : Octets) (session : List Entry) :
    framesIn (c.receiveEntries key bytes ++ session) =
      framesIn session ++ (openFrames key (c.encBuf ++ bytes) c.recvCtr).frames ∧
    takenIn (c.receiveEntries key bytes ++ session) = takenIn session ∧
    arrivedIn (c.receiveEntries key bytes ++ session) = arrivedIn session ++ bytes := by
  have hswitch : ∀ e ∈ c.receiveEntries key bytes, e.isSwitched = false ∧ e.taken? = none := by
    intro e he
    rcases mem_receiveEntries he with ⟨_, _, rfl⟩ | rfl <;> exact ⟨rfl, rfl⟩
  refine ⟨?_, ?_, ?_⟩
  · rw [framesIn, behindSwitch_append fun e he => (hswitch e he).1, shown_append]
    congr 1
    rw [Core.receiveEntries, shown_append]
    have hmap (frames : List (UInt64 × Octets)) :
        shown Entry.frame? (controlEntries key frames) = frames := by
      rw [shown, controlEntries, List.filterMap_reverse, List.reverse_reverse, List.filterMap_map]
      exact List.filterMap_some
    rw [hmap]
    rfl
  · rw [takenIn, behindSwitch_append fun e he => (hswitch e he).1,
      shown_append_none fun e he => (hswitch e he).2]
    rfl
  · have hopened : ∀ e ∈ controlEntries key (openFrames key (c.encBuf ++ bytes) c.recvCtr).frames,
        e.delivery? = none := by
      intro e he
      obtain ⟨f, -, rfl⟩ := List.mem_map.mp (List.mem_reverse.mp he)
      rfl
    rw [arrivedIn, behindSwitch_append fun e he => (hswitch e he).1, Core.receiveEntries,
      List.append_assoc, shown_append_none hopened, List.singleton_append,
      shown_cons_some (f := Entry.delivery?) rfl, List.flatten_append]
    simp [arrivedIn]

/-- **Frames that open come next in the count.** -/
theorem Core.Hears.opened {inn leftover : Octets} (h : c.Hears inn leftover) (bytes : Octets) :
    Sequential (framesIn (c.receiveEntries inn bytes ++ sessionOf c.log)) ∧
    (∀ f ∈ framesIn (c.receiveEntries inn bytes ++ sessionOf c.log),
      Unseals (Arrived (c.receiveEntries inn bytes ++ sessionOf c.log)) inn f.1 f.2) ∧
    (openFrames inn (c.encBuf ++ bytes) c.recvCtr).rest <:+
      arrivedIn (c.receiveEntries inn bytes ++ sessionOf c.log) ∧
    takenIn (c.receiveEntries inn bytes ++ sessionOf c.log) ++
        (c.rxBuf ++ (openFrames inn (c.encBuf ++ bytes) c.recvCtr).plaintext) =
      leftover ++ heardIn (c.receiveEntries inn bytes ++ sessionOf c.log) := by
  obtain ⟨hframes, htaken, harrived⟩ := shown_receiveEntries (c := c) inn bytes (sessionOf c.log)
  obtain ⟨hcounters, -, hopens, hrest⟩ := openFrames_counts inn (c.encBuf ++ bytes) c.recvCtr
  have hbuffered : c.encBuf ++ bytes <:+
      arrivedIn (c.receiveEntries inn bytes ++ sessionOf c.log) := by
    obtain ⟨gone, hgone⟩ := h.buffered
    exact ⟨gone, by rw [harrived, ← hgone, List.append_assoc]⟩
  refine ⟨?_, ?_, hrest.trans hbuffered, ?_⟩
  · rw [hframes]
    refine h.ordered.append ?_
    rw [hcounters, h.counted]
  · rw [hframes]
    intro f hf
    rcases List.mem_append.mp hf with hf | hf
    · refine (h.genuine f hf).mono fun ct hct => ?_
      rw [Arrived, harrived]
      exact List.infix_append_of_infix_left hct
    · exact (hopens f hf).mono fun ct hct => hct.trans hbuffered.isInfix
  · rw [htaken, heardIn, hframes, List.map_append, List.flatten_append, ← List.append_assoc,
      ← List.append_assoc, h.conserved, Opened.plaintext, List.flatMap_def]
    rfl

/-- While a session lasts, what its switch left and its frames account for what it takes; and so
they do for what it took until it ended. -/
structure Hearing (c : Core) : Prop where
  running : Running c.log → ∀ out inn leftover, .switched out inn leftover ∈ sessionOf c.log →
    c.Hears inn leftover
  past : ∀ out inn leftover, .switched out inn leftover ∈ lived c.log →
    Sound (lived c.log) inn leftover

omit [Primitives] in
theorem lived_running {log : List Entry} (h : Running log) : lived log = sessionOf log := upTo_eq h

/-- Where the session still lasts, what it lived is what it has heard. -/
theorem Hearing.ofRunning (hrun : Running c.log) (h : ∀ out inn leftover,
    .switched out inn leftover ∈ sessionOf c.log → c.Hears inn leftover) : Hearing c := by
  refine ⟨fun _ => h, fun out inn leftover hmem => ?_⟩
  rw [lived_running hrun] at hmem ⊢
  exact (h out inn leftover hmem).sound

/-- Once the session has ended nothing is added to what it lived. -/
theorem Hearing.ended (h : Hearing c) (hend : ¬ Running c.log) (es : List Entry)
    (hlog : c'.log = es ++ c.log) (hes : ∀ e ∈ es, e.isStarted = false) : Hearing c' := by
  have hsession : sessionOf c'.log = es ++ sessionOf c.log := by rw [hlog, sessionOf_append hes]
  obtain ⟨e, he, hending⟩ : ∃ e ∈ sessionOf c.log, e.isEnding = true := by
    simpa [Running] using hend
  have hlived : lived c'.log = lived c.log := by
    rw [lived, hsession, upTo_append_of_mem ⟨e, he, hending⟩]
    rfl
  refine ⟨fun hrun => ?_, fun out inn leftover hmem => ?_⟩
  · have hno := hrun e (by rw [hsession]; exact List.mem_append_right _ he)
    rw [hending] at hno
    cases hno
  · rw [hlived] at hmem ⊢
    exact h.past out inn leftover hmem

omit [Primitives] in
theorem Running.append {log : List Entry} (h : Running log) (es : List Entry)
    (hes : ∀ e ∈ es, e.isStarted = false ∧ e.isEnding = false) : Running (es ++ log) := by
  intro e he
  rw [sessionOf_append fun e he => (hes e he).1] at he
  rcases List.mem_append.mp he with he | he
  · exact (hes e he).2
  · exact h e he

omit [Primitives] in
/-- A switch is not among entries that are none. -/
theorem switched_of_append {es session : List Entry} {out inn leftover : Octets}
    (hmem : .switched out inn leftover ∈ es ++ session) (hes : ∀ e ∈ es, e.isSwitched = false) :
    .switched out inn leftover ∈ session := by
  rcases List.mem_append.mp hmem with hmem | hmem
  · have hno := hes _ hmem
    cases hno
  · exact hmem

/-- Entries that hear nothing, an end of the session among them or not. -/
theorem Hearing.deaf (h : Hearing c) (es : List Entry) (hlog : c'.log = es ++ c.log)
    (hes : ∀ e ∈ es, e.hears = false) (hrx : c'.rxBuf = c.rxBuf) (henc : c'.encBuf = c.encBuf)
    (hctr : c'.recvCtr = c.recvCtr) : Hearing c' := by
  have hstart : ∀ e ∈ es, e.isStarted = false := fun e he => (hears_false (hes e he)).1
  by_cases hrun : Running c.log
  · have hsession : sessionOf c'.log = es ++ sessionOf c.log := by rw [hlog, sessionOf_append hstart]
    refine ⟨fun _ out inn leftover hmem => ?_, fun out inn leftover hmem => ?_⟩
    · rw [hsession] at hmem
      have hold := switched_of_append hmem fun e he => (hears_false (hes e he)).2.1
      exact (h.running hrun out inn leftover hold).deaf hlog hes hrx henc hctr
    · have hpart : ∀ e ∈ upTo Entry.isEnding es, e.hears = false :=
        fun e he => hes e ((upTo_suffix Entry.isEnding es).subset he)
      rw [lived, hsession, upTo_append hrun] at hmem ⊢
      have hold := switched_of_append hmem fun e he => (hears_false (hpart e he)).2.1
      exact (h.running hrun out inn leftover hold).sound.deaf hpart
  · exact h.ended hrun es hlog hstart

omit [Primitives] in
theorem Aside.hears {es : List Entry} (h : Aside es) : ∀ e ∈ es, e.hears = false := by
  intro e he
  obtain ⟨hstart, hno⟩ := h e he
  cases e with
  | started => cases hstart
  | switched | delivered | received | took => cases hno
  | _ => rfl

theorem plain_receiveEntries {key bytes : Octets} :
    ∀ e ∈ c.receiveEntries key bytes, e.isStarted = false ∧ e.isSwitched = false ∧
      e.isEnding = false := by
  intro e he
  rcases mem_receiveEntries he with ⟨_, _, rfl⟩ | rfl <;> exact ⟨rfl, rfl, rfl⟩

theorem sessionOf_receiveEntries {key bytes : Octets} (log : List Entry) :
    sessionOf (c.receiveEntries key bytes ++ log) = c.receiveEntries key bytes ++ sessionOf log :=
  sessionOf_append (fun e he => (plain_receiveEntries e he).1) log

theorem Hearing.fresh : Hearing c.fresh := by
  have hnil : sessionOf c.fresh.log = [] := sessionOf_started _ _ _ _
  refine .ofRunning (fun e he => ?_) fun out inn leftover hmem => ?_
  · rw [hnil] at he
    cases he
  · rw [hnil] at hmem
    cases hmem

/-- The switch: what is in the buffer is what is left over. -/
theorem Hearing.switch (hciphered : Ciphered c) (hrun : Running c.log) {keys : Keys}
    (henc : c.encrypted = false)
    (hlog : c'.log = .switched keys.controlOut keys.controlIn c.rxBuf :: c.log)
    (hrx : c'.rxBuf = c.rxBuf) (hempty : c'.encBuf = []) (hctr : c'.recvCtr = 0) : Hearing c' := by
  have hsession : sessionOf c'.log =
      .switched keys.controlOut keys.controlIn c.rxBuf :: sessionOf c.log := by
    rw [hlog, sessionOf_cons rfl]
  have hframes : framesIn (.switched keys.controlOut keys.controlIn c.rxBuf :: sessionOf c.log) =
      [] := rfl
  have htaken : takenIn (.switched keys.controlOut keys.controlIn c.rxBuf :: sessionOf c.log) =
      [] := rfl
  refine .ofRunning ?_ fun out inn leftover hmem => ?_
  · rw [hlog]
    exact hrun.append [_] (by simp [Entry.isStarted, Entry.isEnding])
  · rw [hsession] at hmem
    rcases List.mem_cons.mp hmem with heq | hmem
    · obtain ⟨-, rfl, rfl⟩ := Entry.switched.inj heq
      refine ⟨?_, ?_, ?_, ?_, ?_⟩
      · rw [hsession, hframes]
        exact .nil
      · rw [hsession, hframes]
        simp
      · rw [hempty]
        exact List.nil_suffix
      · rw [hsession, htaken, heardIn, hframes, hrx]
        simp
      · rw [hsession, hframes, hctr]
        rfl
    · have hno := (hciphered.plain henc _ hmem).1
      cases hno

/-- A switched channel takes no plaintext. -/
theorem Hearing.receivePlain (hciphered : Ciphered c) (hrun : Running c.log) {bytes : Octets}
    (hplain : c.encrypted = false ∨ c.keys = none)
    (hlog : c'.log = [.received .plain bytes, .delivered (c.state ≠ .idle) bytes] ++ c.log) :
    Hearing c' := by
  refine .ofRunning ?_ fun out inn leftover hmem => ?_
  · rw [hlog]
    exact hrun.append _ (by simp [Entry.isStarted, Entry.isEnding])
  · rw [hlog, sessionOf_append (by simp [Entry.isStarted])] at hmem
    have hold := switched_of_append hmem (by simp [Entry.isSwitched])
    obtain ⟨henc, keys, -, hsome, -⟩ := hciphered.of_mem hold
    rcases hplain with hoff | hnone
    · rw [henc] at hoff
      cases hoff
    · rw [hsome] at hnone
      cases hnone

/-- Frames that all open. -/
theorem Hearing.receiveSealed (h : Hearing c) (hrun : Running c.log) {keys : Keys} {bytes : Octets}
    (hkeys : ∀ out inn leftover, .switched out inn leftover ∈ sessionOf c.log → keys.controlIn = inn)
    (hgood : (openFrames keys.controlIn (c.encBuf ++ bytes) c.recvCtr).failed = false) :
    Hearing (c.receive keys.controlIn bytes) := by
  have hsession : sessionOf (c.receive keys.controlIn bytes).log =
      c.receiveEntries keys.controlIn bytes ++ sessionOf c.log := sessionOf_receiveEntries c.log
  refine .ofRunning ?_ fun out inn leftover hmem => ?_
  · exact hrun.append _ fun e he => ⟨(plain_receiveEntries e he).1, (plain_receiveEntries e he).2.2⟩
  · rw [hsession] at hmem
    have hold := switched_of_append hmem fun e he => (plain_receiveEntries e he).2.1
    obtain rfl := hkeys out inn leftover hold
    have hhears := h.running hrun out _ leftover hold
    obtain ⟨hordered, hgenuine, hbuffered, hconserved⟩ := hhears.opened bytes
    refine ⟨?_, ?_, ?_, ?_, ?_⟩
    · rw [hsession]
      exact hordered
    · rw [hsession]
      exact hgenuine
    · rw [hsession]
      exact hbuffered
    · rw [hsession]
      exact hconserved
    · obtain ⟨hframes, -⟩ := shown_receiveEntries (c := c) keys.controlIn bytes (sessionOf c.log)
      have hnext := (openFrames_counts keys.controlIn (c.encBuf ++ bytes) c.recvCtr).next
      rw [hgood] at hnext
      rw [hsession, hframes, List.length_append, UInt64.ofNat_add, ← hhears.counted]
      exact hnext

/-- Frames up to one that does not open, which ends the session. -/
theorem Hearing.receiveBroken (h : Hearing c) (hrun : Running c.log) {keys : Keys} {bytes : Octets}
    (hkeys : ∀ out inn leftover, .switched out inn leftover ∈ sessionOf c.log →
      keys.controlIn = inn) : Hearing (c.receive keys.controlIn bytes).ended := by
  have hsession : sessionOf (c.receive keys.controlIn bytes).ended.log =
      [.ending c.state c.waiting false] ++
        (c.receiveEntries keys.controlIn bytes ++ sessionOf c.log) := by
    rw [← sessionOf_receiveEntries]
    exact sessionOf_cons rfl _
  have hlived : lived (c.receive keys.controlIn bytes).ended.log =
      c.receiveEntries keys.controlIn bytes ++ sessionOf c.log := by
    rw [lived, hsession, upTo_append]
    · rfl
    · intro e he
      rcases List.mem_append.mp he with he | he
      · exact (plain_receiveEntries e he).2.2
      · exact hrun e he
  refine ⟨fun hrun' => ?_, fun out inn leftover hmem => ?_⟩
  · have hno := hrun' (.ending c.state c.waiting false) (by rw [hsession]; exact List.mem_cons_self)
    cases hno
  · rw [hlived] at hmem ⊢
    have hold := switched_of_append hmem fun e he => (plain_receiveEntries e he).2.1
    obtain rfl := hkeys out inn leftover hold
    obtain ⟨hordered, hgenuine, -, hconserved⟩ := (h.running hrun out _ leftover hold).opened bytes
    exact ⟨hordered, hgenuine, _, hconserved⟩

/-- What is acted on comes off the front of the buffer. -/
theorem Hearing.take (h : Hearing c) (hrun : Running c.log) {bytes rest : Octets}
    (hsplit : c.rxBuf = bytes ++ rest) :
    Hearing { c with rxBuf := rest, log := .took bytes :: c.log } := by
  have hsession : sessionOf (.took bytes :: c.log) = .took bytes :: sessionOf c.log :=
    sessionOf_cons rfl _
  have hbehind : behindSwitch (.took bytes :: sessionOf c.log) =
      .took bytes :: behindSwitch (sessionOf c.log) := rfl
  have hframes : framesIn (.took bytes :: sessionOf c.log) = framesIn (sessionOf c.log) := by
    rw [framesIn, hbehind, shown_cons_none (f := Entry.frame?) rfl]
    rfl
  have htaken : takenIn (.took bytes :: sessionOf c.log) = takenIn (sessionOf c.log) ++ bytes := by
    rw [takenIn, hbehind, shown_cons_some (f := Entry.taken?) rfl, List.flatten_append]
    simp [takenIn]
  have harrivedIn : arrivedIn (.took bytes :: sessionOf c.log) = arrivedIn (sessionOf c.log) := by
    rw [arrivedIn, hbehind, shown_cons_none (f := Entry.delivery?) rfl]
    rfl
  have harrived : Arrived (.took bytes :: sessionOf c.log) = Arrived (sessionOf c.log) := by
    funext ct
    rw [Arrived, harrivedIn, Arrived]
  refine .ofRunning ?_ fun out inn leftover hmem => ?_
  · exact hrun.append [_] (by simp [Entry.isStarted, Entry.isEnding])
  · rw [hsession] at hmem
    have hold : .switched out inn leftover ∈ sessionOf c.log := by simpa using hmem
    obtain ⟨hordered, hgenuine, hbuffered, hconserved, hcounted⟩ := h.running hrun out inn leftover hold
    rw [hsplit, ← List.append_assoc] at hconserved
    refine ⟨?_, ?_, ?_, ?_, ?_⟩
    · rw [hsession, hframes]
      exact hordered
    · rw [hsession, hframes, harrived]
      exact hgenuine
    · rw [hsession, harrivedIn]
      exact hbuffered
    · rw [hsession, htaken, heardIn, hframes]
      exact hconserved
    · rw [hsession, hframes]
      exact hcounted

/-- **Every step keeps the account.** -/
theorem Hearing.step (hciphered : Ciphered c) (h : Hearing c) (hs : Step k c c') : Hearing c' := by
  by_cases hrun : Running c.log
  · -- the session's switch is the one the channel has its keys from
    have hkeys {keys : Keys} (hsome : c.keys = some keys) (out inn leftover : Octets)
        (hmem : .switched out inn leftover ∈ sessionOf c.log) : keys.controlIn = inn := by
      obtain ⟨-, keys', -, hsome', -, hin, -⟩ := hciphered.of_mem hmem
      obtain rfl : keys = keys' := Option.some.inj (hsome.symm.trans hsome')
      exact hin
    cases hs.conducts with
    | restart => exact .fresh
    | switch keys henc hsome => exact .switch hciphered hrun henc rfl rfl rfl rfl
    | receivePlain bytes hplain => exact .receivePlain hciphered hrun hplain rfl
    | receiveSealed keys bytes henc hsome hgood => exact h.receiveSealed hrun (hkeys hsome) hgood
    | receiveBroken keys bytes henc hsome hbad => exact h.receiveBroken hrun (hkeys hsome)
    | take bytes rest hsplit => exact h.take hrun hsplit
    | receiveEvent keys bytes =>
      refine h.deaf _ rfl (fun e he => ?_) rfl rfl rfl
      rcases mem_eventReadEntries he with rfl | ⟨_, _, rfl⟩ | rfl <;> rfl
    | answerEvent => exact h.deaf [_, _] rfl (by simp [Entry.hears]) rfl rfl rfl
    | loseAnswer | sealAudio => exact h.deaf [_] rfl (by simp [Entry.hears]) rfl rfl rfl
    | silent hstill es hlog hes =>
      exact h.deaf es hlog hes.hears hstill.rxBuf hstill.encBuf hstill.recvCtr
  · rcases hs.log with ⟨rfl, -⟩ | ⟨es, hlog, hes⟩
    · exact .fresh
    · exact h.ended hrun es hlog fun e he => (hes e he).not_started

theorem Hearing.init : Hearing {} := by
  refine .ofRunning (fun e he => ?_) fun out inn leftover hmem => ?_
  · cases he
  · cases hmem

theorem Reachable.hearing {w : World} (h : Reachable w) : Hearing (coreOf w) := by
  have hboth : Ciphered (coreOf w) ∧ Hearing (coreOf w) :=
    h.induct (I := fun c => Ciphered c ∧ Hearing c) ⟨.init, .init⟩
      fun hflow hs hi => ⟨hi.1.step hflow hs, hi.2.step hi.1 hs⟩
  exact hboth.2

/-- **What is acted on is genuine.**  In every reachable world, as far as the session lasted behind
its switch: every frame that was opened is the receiver's next one, without a gap or a repetition,
and what was acted on is a prefix of what the switch left in the buffer and the receiver then sent;
so of the receiver's octets alone where nothing was left over. -/
theorem control_authentic {w : World} (h : Reachable w) {out inn leftover : Octets}
    {made : List Octets} (hauth : Authentic (Arrived (lived w.log)) inn made)
    (hmem : .switched out inn leftover ∈ lived w.log) :
    (framesIn (lived w.log)).map Prod.snd <+: made ∧
      takenIn (lived w.log) <+: leftover ++ made.flatten := by
  obtain ⟨hordered, hgenuine, rest, htaken⟩ := h.hearing.past out inn leftover hmem
  have hheard : (framesIn (lived w.log)).map Prod.snd <+: made :=
    hordered.begins hauth.1 fun p hp => hauth.2 p.1 p.2 (hgenuine p hp)
  refine ⟨hheard, ?_⟩
  have hflat : heardIn (lived w.log) <+: made.flatten := by
    obtain ⟨more, rfl⟩ := hheard
    rw [List.flatten_append]
    exact List.prefix_append _ _
  have hall : takenIn (lived w.log) <+: leftover ++ heardIn (lived w.log) := ⟨rest, htaken⟩
  exact hall.trans ((List.prefix_append_right_inj leftover).mpr hflat)

end Control

theorem authDecrypt_transparent (genuine : Octets → Octets → Octets → Octets → Bool)
    (key nonce aad ct : Octets) :
    ((Primitives.transparent genuine).authDecrypt key nonce aad ct).map Subtype.val =
      if ct.drop (ct.length - 16) = List.replicate 16 0 ∧ genuine key nonce aad ct then
        some (ct.take (ct.length - 16))
      else none := by
  by_cases hopens : ct.drop (ct.length - 16) = List.replicate 16 0 ∧ genuine key nonce aad ct
  · rw [if_pos hopens]
    exact congrArg (Option.map Subtype.val) (if_pos hopens)
  · rw [if_neg hopens]
    exact congrArg (Option.map Subtype.val) (if_neg hopens)

/-- The primitives of a receiver that has sealed `made` under a key, in this order, and no more. -/
@[reducible] def vouching (key : Octets) (made : List Octets) : Primitives :=
  .transparent fun k nonce _ ct => decide (k ≠ key) || made.zipIdx.any fun m =>
    nonce.drop 4 = leBytes 8 m.2 ∧ ct.take (ct.length - 16) = m.1

theorem authentic_vouching (came : Octets → Prop) (key : Octets) {made : List Octets}
    (hmade : made.length < 2 ^ 64) : @Authentic (vouching key made) came key made := by
  refine ⟨hmade, fun ctr pt hunseals => ?_⟩
  obtain ⟨ct, aad, -, hopen⟩ := hunseals
  unfold chacha20Poly1305Decrypt at hopen
  split at hopen
  · cases hopen
  rw [authDecrypt_transparent] at hopen
  split at hopen
  · rename_i hgenuine
    obtain rfl : ct.take (ct.length - 16) = pt := Option.some.inj hopen
    have hany : made.zipIdx.any (fun m => decide
        ((pad12 (counterNonce8 ctr)).drop 4 = leBytes 8 m.2 ∧ ct.take (ct.length - 16) = m.1)) =
        true := by simpa using hgenuine.2
    obtain ⟨⟨m, i⟩, hmem, hmade'⟩ := List.any_eq_true.mp hany
    obtain ⟨hnonce, hct⟩ := of_decide_eq_true hmade'
    have hget : made[i]? = some m := List.mem_zipIdx_iff_getElem?.mp hmem
    have hi : i < 2 ^ 64 := (List.getElem?_eq_some_iff.mp hget).1.trans hmade
    have hdrop : (pad12 (counterNonce8 ctr)).drop 4 = leBytes 8 ctr.toNat := by
      simp [pad12, counterNonce8]
    rw [hdrop] at hnonce
    have hval : ctr.toNat = i := by
      have hmod := leBytes_inj hnonce
      rwa [Nat.mod_eq_of_lt (by exact ctr.toNat_lt), Nat.mod_eq_of_lt (by exact hi)] at hmod
    rw [hval, hget, hct]
  · cases hopen

/-- A receiver answered a session four times, and then its first answer came again. -/
def replayed : List Action := streamingActions ++ [sealedReply 0 (okReply [])]

/-- What it sealed. -/
def sampleMade : List Octets := [okReply [], okReply [], okReply [], streamReply]

/-- The world the session ends in. -/
@[irreducible] def replayedWorld : World :=
  @run (vouching sampleIn sampleMade) (@host (vouching sampleIn sampleMade) 0) replayed (.init .still)

theorem replayedWorld_reachable : @Reachable (vouching sampleIn sampleMade) replayedWorld := by
  unfold replayedWorld
  exact ⟨0, .still, replayed, rfl⟩

/-- The control channel was switched with nothing left over. -/
def Entry.switchedTo (inn : Octets) : Entry → Bool
  | .switched _ inn' leftover => inn' = inn ∧ leftover = []
  | _ => false

/-- The first answer did not open a second time: the session ended, and what it acted on until then
is what the receiver sealed. -/
theorem control_authentic_replayed :
    (framesIn (lived replayedWorld.log)).length = 4 ∧
    (framesIn (lived replayedWorld.log)).map Prod.snd <+: sampleMade ∧
    takenIn (lived replayedWorld.log) <+: sampleMade.flatten := by
  obtain ⟨hswitched, hlength⟩ : (lived replayedWorld.log).any (Entry.switchedTo sampleIn) = true ∧
      (framesIn (lived replayedWorld.log)).length = 4 := by decide +kernel
  obtain ⟨e, hmem, he⟩ := List.any_eq_true.mp hswitched
  cases e with
  | switched out inn leftover =>
    obtain ⟨rfl, rfl⟩ : inn = sampleIn ∧ leftover = [] := of_decide_eq_true he
    obtain ⟨hframes, htaken⟩ := @control_authentic (vouching sampleIn sampleMade) _
      replayedWorld_reachable _ _ _ sampleMade (authentic_vouching _ sampleIn (by decide)) hmem
    exact ⟨hlength, hframes, htaken⟩
  | _ => cases he

/-! ## 4. The event channel -/

/-- What became of a frame of the event channel: its plaintext, or nothing. -/
def Entry.outcome? : Entry → Option (Option Octets)
  | .eventOpened _ _ pt => some (some pt)
  | .eventDropped => some none
  | _ => none

/-- A piece of what lay in the event buffer when a session read from it. -/
def EventArrived (session : List Entry) (ct : Octets) : Prop :=
  ∃ key ctr buffered, .eventRead key ctr buffered ∈ session ∧ ct <:+: buffered

/-- What became of the frames of a session, in the order they were read. -/
def outcomes (session : List Entry) : List (Option Octets) := shown Entry.outcome? session

section Events

variable [Primitives] {k : Level} {c c' : Core}

/-- The event channel of a session: unused before its keys are agreed, and then every frame that
opens opens in its place. -/
structure Listening (c : Core) : Prop where
  unkeyed : ¬ c.stage.agreed → ∀ keys, c.keys = some keys → keys.eventIn = []
  unused : c.keys = none ∨ ¬ c.stage.agreed → outcomes (sessionOf c.log) = []
  counted : c.eventRecvCtr = UInt64.ofNat (outcomes (sessionOf c.log)).length
  genuine : ∀ keys, c.keys = some keys → ∀ i pt, (outcomes (sessionOf c.log))[i]? = some (some pt) →
    Unseals (EventArrived (sessionOf c.log)) keys.eventIn (UInt64.ofNat i) pt

theorem Listening.init : Listening {} := by
  constructor
  · simp
  · exact fun _ => rfl
  · rfl
  · simp

theorem Listening.restart : Listening c.fresh := by
  have hnil : outcomes (sessionOf c.fresh.log) = [] :=
    congrArg outcomes (sessionOf_started c.auth c.airplay2 c.strict c.log)
  refine ⟨fun _ keys hkeys => ?_, fun _ => hnil, ?_, fun keys hkeys => ?_⟩
  · cases hkeys
  · rw [hnil]
    rfl
  · cases hkeys

omit [Primitives] in
theorem EventArrived.append {session : List Entry} {ct : Octets} (h : EventArrived session ct)
    (es : List Entry) : EventArrived (es ++ session) ct := by
  obtain ⟨key, ctr, buffered, hmem, hct⟩ := h
  exact ⟨key, ctr, buffered, List.mem_append_right _ hmem, hct⟩

/-- Whatever reads no frame. -/
theorem Listening.silent (h : Listening c) (hs : Step k c c')
    (hctr : c'.eventRecvCtr = c.eventRecvCtr) (es : List Entry) (hlog : c'.log = es ++ c.log)
    (hes : ∀ e ∈ es, e.isStarted = false ∧ e.outcome? = none) : Listening c' := by
  have hfresh : c' ≠ c.fresh := Core.ne_fresh hlog fun e he => (hes e he).1
  have hsession : sessionOf c'.log = es ++ sessionOf c.log := by
    rw [hlog, sessionOf_append fun e he => (hes e he).1]
  have hsame : outcomes (sessionOf c'.log) = outcomes (sessionOf c.log) := by
    rw [hsession, outcomes, shown_append_none fun e he => (hes e he).2]
    rfl
  refine ⟨fun hno keys hkeys => ?_, fun hnone => ?_, ?_, fun keys hkeys i pt hi => ?_⟩
  · have hold := (hs.not_agreed hno).resolve_left hfresh
    rcases hs.event_keys hkeys with ⟨old, holdKeys, -, hin⟩ | ⟨-, hagreed | ⟨-, hin⟩⟩
    · rw [hin]
      exact h.unkeyed hold old holdKeys
    · exact absurd hagreed hno
    · exact hin
  · rw [hsame]
    refine h.unused ?_
    rcases hnone with hnone | hno
    · exact .inl ((hs.keys_none hnone).resolve_left hfresh)
    · exact .inr ((hs.not_agreed hno).resolve_left hfresh)
  · rw [hsame, hctr]
    exact h.counted
  · rw [hsame] at hi
    rcases hs.event_keys hkeys with ⟨old, hold, -, hin⟩ | ⟨hno, -⟩
    · rw [hin, hsession]
      exact (h.genuine old hold i pt hi).mono fun ct hct => hct.append es
    · rw [h.unused (.inr hno)] at hi
      cases hi

/-- What a delivery to the event channel shows. -/
theorem outcomes_eventReadEntries (key buf : Octets) (ctr : UInt64) (session : List Entry) :
    outcomes (eventReadEntries key buf ctr ++ session) = outcomes session ++
      ((openFrames key buf ctr).frames.map (some ∘ Prod.snd) ++
        if (openFrames key buf ctr).failed then [none] else []) := by
  have hmap (frames : List (UInt64 × Octets)) :
      shown Entry.outcome? (eventEntries key frames) = frames.map (some ∘ Prod.snd) := by
    rw [shown, eventEntries, List.filterMap_reverse, List.reverse_reverse, List.filterMap_map,
      ← List.filterMap_eq_map]
    rfl
  rw [outcomes, shown_append, eventReadEntries, List.append_assoc, shown_append, shown_append, hmap]
  congr 2
  split <;> rfl

/-- Frames that open, up to one that does not. -/
theorem Listening.receive (h : Listening c) {keys : Keys} (hkeys : c.keys = some keys)
    (hlen : keys.eventIn.length = 32) (bytes : Octets) :
    Listening (c.receiveEvent keys.eventIn bytes) := by
  have hagreed : c.stage.agreed := by
    by_contra hno
    rw [h.unkeyed hno keys hkeys] at hlen
    cases hlen
  have hsession : sessionOf (c.receiveEvent keys.eventIn bytes).log =
      eventReadEntries keys.eventIn (c.eventEncBuf ++ bytes) c.eventRecvCtr ++ sessionOf c.log := by
    refine sessionOf_append (fun e he => ?_) c.log
    rcases mem_eventReadEntries he with rfl | ⟨_, _, rfl⟩ | rfl <;> rfl
  obtain ⟨hcounters, hnext, hopens, -⟩ :=
    openFrames_counts keys.eventIn (c.eventEncBuf ++ bytes) c.eventRecvCtr
  have hread {ct : Octets} (hct : ct <:+: c.eventEncBuf ++ bytes) :
      EventArrived (sessionOf (c.receiveEvent keys.eventIn bytes).log) ct := by
    refine ⟨keys.eventIn, c.eventRecvCtr, c.eventEncBuf ++ bytes, ?_, hct⟩
    rw [hsession, eventReadEntries]
    simp
  refine ⟨fun hno => absurd hagreed hno, fun hnone => ?_, ?_, fun keys' hkeys' i pt hi => ?_⟩
  · rcases hnone with hnone | hno
    · exact absurd (hkeys.symm.trans hnone) (by simp)
    · exact absurd hagreed hno
  · rw [hsession, outcomes_eventReadEntries, List.length_append, List.length_append, List.length_map,
      UInt64.ofNat_add, ← h.counted]
    refine hnext.trans ?_
    congr 2
    split <;> rfl
  · obtain rfl : keys = keys' := Option.some.inj (hkeys.symm.trans hkeys')
    rw [hsession, outcomes_eventReadEntries] at hi
    rcases Nat.lt_or_ge i (outcomes (sessionOf c.log)).length with hlt | hge
    · rw [List.getElem?_append_left hlt] at hi
      rw [hsession]
      exact (h.genuine keys hkeys i pt hi).mono fun ct hct => hct.append _
    obtain ⟨j, rfl⟩ := Nat.exists_eq_add_of_le hge
    rw [List.getElem?_append_right hge, Nat.add_sub_cancel_left] at hi
    generalize openFrames keys.eventIn (c.eventEncBuf ++ bytes) c.eventRecvCtr = o at hi hcounters hopens
    rcases Nat.lt_or_ge j o.frames.length with hlt | hge
    · rw [List.getElem?_append_left (by simpa using hlt), List.getElem?_map,
        List.getElem?_eq_getElem hlt] at hi
      have hpt : o.frames[j].2 = pt := Option.some.inj (Option.some.inj hi)
      have hctr : o.frames[j].1 = c.eventRecvCtr + UInt64.ofNat j := by
        have hget := congrArg (fun l => l[j]?) hcounters
        simp only [List.getElem?_map, List.getElem?_eq_getElem hlt, Option.map_some,
          Counted.getElem?_counters hlt] at hget
        exact Option.some.inj hget
      have hopen := hopens o.frames[j] (List.getElem_mem hlt)
      rw [hpt, hctr, h.counted, ← UInt64.ofNat_add] at hopen
      exact hopen.mono fun ct hct => hread hct
    · -- behind the last frame that opened there is at most the one that did not
      rw [List.getElem?_append_right (by simpa using hge)] at hi
      have hmem := List.mem_of_getElem? hi
      split at hmem
      · simp at hmem
      · cases hmem

theorem Listening.step (h : Listening c) (hs : Step k c c') : Listening c' := by
  cases hs.conducts with
  | restart => exact .restart
  | receiveEvent keys bytes hkeys hlen => exact h.receive hkeys hlen bytes
  | receiveSealed keys bytes =>
    refine h.silent hs rfl (c.receiveEntries keys.controlIn bytes) rfl fun e he => ?_
    rcases mem_receiveEntries he with ⟨_, _, rfl⟩ | rfl <;> exact ⟨rfl, rfl⟩
  | receiveBroken keys bytes =>
    refine h.silent hs rfl (.ending c.state c.waiting false ::
      c.receiveEntries keys.controlIn bytes) rfl fun e he => ?_
    rcases List.mem_cons.mp he with rfl | he
    · exact ⟨rfl, rfl⟩
    · rcases mem_receiveEntries he with ⟨_, _, rfl⟩ | rfl <;> exact ⟨rfl, rfl⟩
  | receivePlain | answerEvent =>
    exact h.silent hs rfl [_, _] rfl (by simp [Entry.isStarted, Entry.outcome?])
  | switch | take | loseAnswer | sealAudio =>
    exact h.silent hs rfl [_] rfl (by simp [Entry.isStarted, Entry.outcome?])
  | silent hstill es hlog hes =>
    refine h.silent hs hstill.eventRecvCtr es hlog fun e he => ⟨(hes e he).1, ?_⟩
    have hno := (hes e he).2
    cases e with
    | eventOpened | eventDropped => cases hno
    | _ => rfl

/-- **Every frame in its place.**  In every reachable world, where the receiver has sealed `made`
under the key of the event channel and nothing else that came in opens: the `k`-th frame the session read there
opened to the receiver's `k`-th plaintext or was dropped; and if none was dropped, what was opened
is a prefix of what the receiver sent. -/
theorem event_authentic {w : World} (h : Reachable w) {a : Ap2State} (ha : w.s.ap2 = some a)
    {made : List Octets} (hauth : Authentic (EventArrived w.session) a.eventIn made) :
    (∀ k pt, k < 2 ^ 64 → (outcomes w.session)[k]? = some (some pt) → made[k]? = some pt) ∧
      (none ∉ outcomes w.session → (outcomes w.session).reduceOption <+: made) := by
  have hlistening : Listening (coreOf w) := h.induct .init fun _ hs hl => hl.step hs
  have hkeys : (coreOf w).keys = some (keysOf a) := keys_of_some ha
  have hplace : ∀ k pt, k < 2 ^ 64 → (outcomes w.session)[k]? = some (some pt) →
      made[k]? = some pt := by
    intro k pt hk hout
    have hget := hauth.2 _ pt (hlistening.genuine (keysOf a) hkeys k pt hout)
    rwa [UInt64.toNat_ofNat_of_lt' hk] at hget
  exact ⟨hplace, fun hfull => Counted.begins_of_filled hauth.1 hplace hfull⟩

end Events

/-- Three requests on the event channel of a session. -/
def eventMade : List Octets := [ascii "POST /one", ascii "POST /two", ascii "POST /three"]

/-- The second of them was exchanged for a repetition of the first. -/
def eventFrames : List Octets := [@frame trusting sampleEventIn 0 (ascii "POST /one"),
  @frame trusting sampleEventIn 0 (ascii "POST /one"),
  @frame trusting sampleEventIn 2 (ascii "POST /three")]

/-- The world after the first `n` frames. -/
@[irreducible] def eventWorld (n : ℕ) : World :=
  @run (vouching sampleEventIn eventMade) (@host (vouching sampleEventIn eventMade) 0)
    (storedActions ++ (eventFrames.take n).map (.onTcpData .event)) (.init .still)

theorem eventWorld_reachable (n : ℕ) :
    @Reachable (vouching sampleEventIn eventMade) (eventWorld n) := by
  unfold eventWorld
  exact ⟨0, .still, _, rfl⟩

/-- The channel has its keys, and this became of its frames. -/
def World.heard (w : World) (successes : List Bool) : Bool :=
  w.s.ap2.any (fun a => a.eventIn = sampleEventIn) &&
    (outcomes w.session).map Option.isSome = successes

theorem eventWorld_authentic {n : ℕ} {successes : List Bool}
    (h : (eventWorld n).heard successes = true) :
    ∃ a, (eventWorld n).s.ap2 = some a ∧
      @Authentic (vouching sampleEventIn eventMade) (EventArrived (eventWorld n).session) a.eventIn
        eventMade ∧
      (outcomes (eventWorld n).session).map Option.isSome = successes := by
  obtain ⟨hkeyed, houtcomes⟩ := Bool.and_eq_true_iff.mp h
  obtain ⟨a, ha, hin⟩ := (Option.any_eq_true _ _).mp hkeyed
  refine ⟨a, ha, ?_, of_decide_eq_true houtcomes⟩
  rw [of_decide_eq_true hin]
  exact authentic_vouching _ sampleEventIn (by decide)

/-- The repetition is dropped, and the frame behind it is read as the third. -/
theorem event_authentic_replayed :
    (outcomes (eventWorld 1).session).reduceOption <+: eventMade ∧
    (outcomes (eventWorld 3).session).map Option.isSome = [true, false, true] ∧
    ∀ k pt, k < 2 ^ 64 → (outcomes (eventWorld 3).session)[k]? = some (some pt) →
      eventMade[k]? = some pt := by
  have hheard : (eventWorld 1).heard [true] = true ∧
      (eventWorld 3).heard [true, false, true] = true := by decide +kernel
  obtain ⟨a, ha, hauth, hone⟩ := eventWorld_authentic hheard.1
  obtain ⟨a', ha', hauth', hthree⟩ := eventWorld_authentic hheard.2
  have hfull : none ∉ outcomes (eventWorld 1).session := by
    intro hnone
    have hmem := List.mem_map_of_mem (f := Option.isSome) hnone
    rw [hone] at hmem
    simp at hmem
  exact ⟨(@event_authentic (vouching sampleEventIn eventMade) _ (eventWorld_reachable 1) a ha
      eventMade hauth).2 hfull, hthree,
    (@event_authentic (vouching sampleEventIn eventMade) _ (eventWorld_reachable 3) a' ha'
      eventMade hauth').1⟩

end AirplaySender
