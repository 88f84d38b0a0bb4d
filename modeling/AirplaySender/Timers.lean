/-
# Timers and the end of a session

Five timers, armed from seven methods; three exits that stop them.  Three questions about them:

* a session that has not reached the stream is watched by `timeout_` or, while it waits for a PIN,
  by `pinTimeout_`, and the one that is armed ends it (`handshake_watched`);
* a sender that is idle has no timer armed, unless something armed one behind its back: `stop`
  telling the receiver of a session that was still starting, or a call or reply that came too late
  (`idle_unarmed`);
* a PIN is only awaited by a session that is pairing, unless a session was ended while it waited:
  no exit but the PIN timeout takes the flag back (`pin_awaited`).

The exceptions of the last two are real: `stopped_armed` and `stopped_waiting` are runs into them.
-/
import AirplaySender.Arrivals

namespace AirplaySender

open Octets Prog

/-! ## 1. The two watchdogs -/

/-- A session that is starting is watched. -/
structure Watched (c : Core) : Prop where
  window : c.state.starting = true → c.waiting = false → c.timers.timeout = true
  pin : c.state.starting = true → c.waiting = true → c.timers.pinTimeout = true

section Watchdogs

variable [Primitives] {k : Level} {c c' : Core}

omit [Primitives] in
theorem Watched.init : Watched {} := ⟨nofun, nofun⟩

omit [Primitives] in
/-- Arming a timer leaves the others armed. -/
theorem Timers.arm_timeout {x : Timers} (h : x.timeout = true) (t : TimerId) :
    (x.arm t).timeout = true := by
  cases t <;> simp [Timers.arm, h]

omit [Primitives] in
theorem Timers.arm_pinTimeout {x : Timers} (h : x.pinTimeout = true) (t : TimerId) :
    (x.arm t).pinTimeout = true := by
  cases t <;> simp [Timers.arm, h]

/-- **No step leaves a starting session unwatched.** -/
theorem Watched.step (h : Watched c) (hs : Step k c c') : Watched c' := by
  cases hs with
  | restart _ hidle => constructor <;> intro hst <;> simp [Core.fresh, hidle, State.starting] at hst
  | connecting _ hun =>
    refine ⟨fun _ _ => rfl, fun _ hw => ?_⟩
    exact absurd (hun.2.2.1.symm.trans hw) (by simp)
  | leave | teardown | ended | hangUp | expirePin | receiveBroken => exact ⟨(by rintro ⟨⟩), by rintro ⟨⟩⟩
  | arm _ t =>
    exact ⟨fun hst hw => Timers.arm_timeout (h.window hst hw) t,
      fun hst hw => Timers.arm_pinTimeout (h.pin hst hw) t⟩
  | lapse _ timers _ _ _ htimeout hpin =>
    refine ⟨fun hst hw => ?_, fun hst hw => ?_⟩
    · rcases htimeout with heq | ⟨_, hwait | hidle | hstream⟩
      · exact heq.trans (h.window hst hw)
      · exact absurd (hwait.symm.trans hw) (by simp)
      · simp [hidle, State.starting] at hst
      · simp [hstream, State.starting] at hst
    · rcases hpin with heq | ⟨_, hwait⟩
      · exact heq.trans (h.pin hst hw)
      · exact absurd (hwait.symm.trans hw) (by simp)
  | beginPairing _ hst =>
    have hold : c.state.starting = true := by rw [hst]; rfl
    exact ⟨fun _ => h.window hold, fun _ => h.pin hold⟩
  | wait => exact ⟨(by rintro - ⟨⟩), fun _ _ => rfl⟩
  | typed => exact ⟨fun _ _ => rfl, by rintro - ⟨⟩⟩
  | clear _ _ _ hst =>
    have hold : c.state.starting = true := by rw [hst]; rfl
    exact ⟨fun _ => h.window hold, fun _ => h.pin hold⟩
  | enter => exact ⟨(by rintro ⟨⟩), by rintro ⟨⟩⟩
  | _ => exact ⟨h.window, h.pin⟩

end Watchdogs

/-! ## 2. The watchdog fires -/

section Firing

variable [Primitives] {k : Level} {c c' : Core} {w : World} {base : List Entry}

/-- Since `base` the sender has been idle, or a session has begun. -/
def Core.Over (base : List Entry) (c : Core) : Prop :=
  ∃ newer, c.log = newer ++ base ∧ (c.state = .idle ∨ ∃ e ∈ newer, e.isStarted = true)

/-- `base` does not end in the entry that begins a session. -/
def Settled (base : List Entry) : Prop := ∀ e, base.head? = some e → e.isStarted = false

/-- A call of the application leaves the idle state only by beginning a session. -/
theorem Core.Over.app (h : c.Over base) (hbase : Settled base) (hs : Step .app c c') :
    c'.Over base := by
  obtain ⟨newer, hlog, hst⟩ := h
  obtain ⟨es, hes⟩ := hs.extends
  refine ⟨es ++ newer, by rw [hes, hlog, List.append_assoc], ?_⟩
  rcases hst with hidle | ⟨e, he, hstarted⟩
  · cases hs with
    | connecting _ _ _ hhead =>
      obtain ⟨auth, airplay2, strict, hhead⟩ := hhead
      rw [hlog] at hhead
      cases newer with
      | nil => exact absurd (hbase _ hhead) nofun
      | cons e newer =>
        obtain rfl := Option.some.inj hhead
        exact .inr ⟨_, List.mem_append_right _ List.mem_cons_self, rfl⟩
    | leave | teardown | ended => exact .inl rfl
    | _ => exact .inl hidle
  · exact .inr ⟨e, List.mem_append_right _ he, hstarted⟩

/-- The invariant and what has happened since `base`. -/
def Past (base : List Entry) (w : World) : Prop := Flow (coreOf w) ∧ (coreOf w).Over base

/-- What only makes calls of the application keeps it. -/
theorem Past.walk {α : Type} {m : M α} {Q : α → World → Prop} (hbase : Settled base)
    (h : Past base w) (hm : Walks .app w m Q) : Past base (m w).2 := by
  refine (hm h.1).invariant (I := Past base) (fun a b hmove ⟨hflow, hover⟩ => ?_) h
  refine ⟨hflow.moves hmove, ?_⟩
  rcases hmove with heq | hs
  · rw [heq]; exact hover
  · exact hover.app hbase hs

omit [Primitives] in
theorem settled_cons {e : Entry} (h : e.isStarted = false) (log : List Entry) :
    Settled (e :: log) := by
  intro x hx
  obtain rfl := Option.some.inj hx
  exact h

/-- A callback fired in a session that is over. -/
theorem Past.fire (depth : ℕ) {e : Event} (hflow : Flow (coreOf w)) (hdue : Due (coreOf w) e)
    (hidle : (coreOf w).state = .idle) :
    Past (.event e :: (coreOf w).log) ((host depth).fire e w).2 := by
  obtain ⟨rest, hfire, hrest⟩ := host_fire depth e
  rw [hfire, bind_ok (show emit (.event e) w = (.ok (), { w with out := .event e :: w.out }) from rfl)]
  exact Past.walk (settled_cons rfl _) ⟨hflow.step (k := .app) (.event _ e hdue), [], rfl, .inl hidle⟩
    (hrest _)

/-- **A session that ends before its stream is reported as not launched**, from the idle state. -/
theorem Past.fail (depth : ℕ) (why : Octets) (hflow : Flow (coreOf w.ended))
    (hst : w.s.state ≠ .streaming) :
    Past (.event (.launched false why) :: .failed true ::
      .ending w.s.state w.s.waitingForPin false :: (coreOf w).log)
      (@AirplaySender.fail (host depth) why w).2 := by
  let _ := host depth
  have hstarting : decide (w.s.state ≠ .streaming) = true := decide_eq_true hst
  rw [fail_run, hstarting]
  obtain ⟨w₁, hrun, h₁⟩ := reportFailure_run true why w.ended
  rw [hrun]
  have hflow₁ : Flow (coreOf w₁) := by
    rw [h₁]
    exact hflow.step (k := .app) (.disconnect _ rfl)
  let w₂ : World := { w₁ with out := .failed true :: w₁.out }
  have hstep : Step .app (coreOf w₁) (coreOf w₂) := by
    refine .failed _ true ⟨w.s.state, w.s.waitingForPin, ?_, hstarting.symm⟩
    rw [h₁]
    rfl
  have hlog : (coreOf w₂).log =
      .failed true :: .ending w.s.state w.s.waitingForPin false :: (coreOf w).log :=
    congrArg (_ :: ·) (congrArg Core.log h₁)
  have hidle : (coreOf w₂).state = .idle := congrArg Core.state h₁
  unfold reportEnd
  rw [bind_ok (show emit (.failed true) w₁ = (.ok (), w₂) from rfl), ← hlog]
  refine bind_keeps (Past.fire depth (hflow₁.step hstep) (.failed why ?_) hidle) fun _ w₃ h₃ => ?_
  · rw [hlog]
    rfl
  · have hclosed : Walks .app w₃ (emit (.reported true) >>= fun _ => Host.fire .closed)
        fun _ _ => True :=
      Walks.step_bind (.reported _ true nofun) rfl fun w₄ h₄ =>
        fire_walks (host_tame depth) (.closed ⟨true, by rw [h₄]; rfl⟩)
    exact h₃.walk (settled_cons rfl _) hclosed

/-- A timer that comes due in a session that is over. -/
theorem Past.lapsed {now : ℤ} {t : TimerId} (h : Past base w) (hidle : (coreOf w).state = .idle)
    (hpin : t = .pinTimeout → w.s.waitingForPin = false) : Past base (w.lapsed now t) := by
  obtain ⟨hflow, newer, hlog, _⟩ := h
  refine ⟨hflow.step (lapse_step now t (fun _ => .inr (.inl hidle)) hpin), newer, ?_, .inl ?_⟩
  · cases t <;> exact hlog
  · cases t <;> exact hidle

/-- A due timer in a session that is over has nothing to do. -/
theorem Past.tickTimer (depth : ℕ) (now : ℤ) (t : TimerId) (hbase : Settled base)
    (h : Past base w) : Past base (@tickTimer _ (host depth) now t w).2 := by
  let _ := host depth
  have hwalk := tickTimer_walks (w := w) (host_tame depth) now t h.1
  have hflow : Flow (coreOf (AirplaySender.tickTimer now t w).2) :=
    hwalk.invariant (I := fun w => Flow (coreOf w)) (fun _ _ hm hf => hf.moves hm) h.1
  obtain ⟨newer, hlog, hidle | hstarted⟩ := h.2
  · by_cases hdue : (w.s.timer t).active = true ∧ (w.s.timer t).due ≤ now
    swap
    · rw [tickTimer_idle (by rw [not_and_or, not_le] at hdue; simpa using hdue)]
      exact h
    rw [tickTimer_due hdue.1 hdue.2]
    cases t with
    | timeout =>
      have hrun : onHandshakeTimeout (w.lapsed now .timeout) = (.ok (), w.lapsed now .timeout) := by
        refine onHandshakeTimeout_idle (.inr ?_)
        rw [show (w.lapsed now .timeout).s.state = .idle from hidle]
        rfl
      show Past base (onHandshakeTimeout (w.lapsed now .timeout)).2
      rw [hrun]
      exact h.lapsed hidle nofun
    | pinTimeout =>
      show Past base (onPinTimeout (w.lapsed now .pinTimeout)).2
      cases hwait : w.s.waitingForPin with
      | false =>
        have hrun : onPinTimeout (w.lapsed now .pinTimeout) =
            (.ok (), w.lapsed now .pinTimeout) := onPinTimeout_idle hwait
        rw [hrun]
        exact h.lapsed hidle fun _ => hwait
      | true =>
        let w₁ : World := { w.lapsed now .pinTimeout with
          s := { (w.lapsed now .pinTimeout).s with waitingForPin := false } }
        have hrun : onPinTimeout (w.lapsed now .pinTimeout) =
            reportFailure (w.s.state ≠ .streaming) (pinTimeoutText w.s.name) w₁.ended :=
          onPinTimeout_run (w := w.lapsed now .pinTimeout) hwait
        rw [hrun]
        have hend : Past base w₁.ended := by
          refine ⟨h.1.step (k := .host) (.expirePin _ hwait), .ending w.s.state false false :: newer,
            congrArg (_ :: ·) hlog, .inl rfl⟩
        exact hend.walk hbase (reportFailure_walks (host_tame depth) _ rfl
          ⟨w.s.state, false, rfl, rfl⟩)
    | feedbackTimer =>
      have hrun : onFeedbackTimer (w.lapsed now .feedbackTimer) =
          (.ok (), w.lapsed now .feedbackTimer) := by
        unfold onFeedbackTimer
        rw [sender_bind, if_pos]
        · rfl
        · rw [show (w.lapsed now .feedbackTimer).s.state = .idle from hidle]
          nofun
      show Past base (onFeedbackTimer (w.lapsed now .feedbackTimer)).2
      rw [hrun]
      exact h.lapsed hidle nofun
    | syncTimer => exact absurd (hidle.symm.trans (h.1.pacing (.inr hdue.1))) nofun
    | pacer => exact absurd (hidle.symm.trans (h.1.pacing (.inl hdue.1))) nofun
  · have hover : ∀ w', Relation.ReflTransGen (Moves .host) w w' →
        ∃ newer, (coreOf w').log = newer ++ base ∧ ∃ e ∈ newer, e.isStarted = true := by
      intro w' hreach
      induction hreach with
      | refl => exact ⟨newer, hlog, hstarted⟩
      | tail _ hm ih =>
        obtain ⟨newer, hlog, e, he, hs⟩ := ih
        rcases hm with heq | hstep
        · rw [heq]
          exact ⟨newer, hlog, e, he, hs⟩
        · obtain ⟨es, hes⟩ := hstep.extends
          exact ⟨es ++ newer, by rw [hes, hlog, List.append_assoc], e,
            List.mem_append_right _ he, hs⟩
    obtain ⟨newer', hlog', hstarted'⟩ := hover _ hwalk.1
    exact ⟨hflow, newer', hlog', .inr hstarted'⟩

omit [Primitives] in
/-- The timer that watches a session that is starting. -/
def Sender.watchdog (s : Sender) : TimerId := if s.waitingForPin then .pinTimeout else .timeout

/-- A tick at or after the due time of the watchdog ends the session and says so. -/
theorem tick_fires (depth : ℕ) (hflow : Flow (coreOf w)) (hst : w.s.state.starting = true)
    (hactive : (w.s.timer w.s.watchdog).active = true)
    (hdue : (w.s.timer w.s.watchdog).due ≤ w.env.steady.head) :
    ∃ why, Past (.event (.launched false why) :: .failed true :: .ending w.s.state false false ::
      (coreOf w).log) (@tick _ (host depth) w).2 := by
  let _ := host depth
  have hnot : w.s.state ≠ .streaming := by
    intro heq
    rw [heq] at hst
    cases hst
  let n := w.env.steady.head
  let w₁ : World := { w with env := { w.env with steady := w.env.steady.tail } }
  have hbase (why : Octets) : Settled (.event (.launched false why) :: .failed true ::
      .ending w.s.state false false :: (coreOf w).log) := settled_cons rfl _
  cases hwait : w.s.waitingForPin with
  | false =>
    have hdog : w.s.watchdog = .timeout := by simp [Sender.watchdog, hwait]
    rw [hdog] at hactive hdue
    refine ⟨ascii "Timed out waiting for the device", ?_⟩
    have hrun : AirplaySender.tickTimer n .timeout w₁ =
        AirplaySender.fail (ascii "Timed out waiting for the device") (w₁.lapsed n .timeout) := by
      rw [tickTimer_due (w := w₁) hactive hdue]
      exact onHandshakeTimeout_run (w := w₁.lapsed n .timeout) hwait hst
    have hfired := Past.fail (w := w₁.lapsed n .timeout) depth
      (ascii "Timed out waiting for the device") (hflow.step (k := .app) (.ended _)) hnot
    rw [show (w₁.lapsed n .timeout).s.waitingForPin = false from hwait] at hfired
    show Past _ ((AirplaySender.tickTimer n .timeout >>= fun _ => _) w₁).2
    refine bind_keeps (by rw [hrun]; exact hfired) fun _ w₂ h₂ => ?_
    refine bind_keeps (h₂.tickTimer depth n _ (hbase _)) fun _ w₃ h₃ => ?_
    refine bind_keeps (h₃.tickTimer depth n _ (hbase _)) fun _ w₄ h₄ => ?_
    exact bind_keeps (h₄.tickTimer depth n _ (hbase _)) fun _ w₅ h₅ =>
      h₅.tickTimer depth n _ (hbase _)
  | true =>
    have hdog : w.s.watchdog = .pinTimeout := by simp [Sender.watchdog, hwait]
    rw [hdog] at hactive hdue
    refine ⟨pinTimeoutText w.s.name, ?_⟩
    -- the handshake timer may come due first, and does nothing
    obtain ⟨w₂, hfirst, hsender, hflow₂, hlog⟩ : ∃ w₂,
        AirplaySender.tickTimer n .timeout w₁ = (.ok (), w₂) ∧
        (w₂.s = w.s ∨ w₂.s = (w.lapsed n .timeout).s) ∧ Flow (coreOf w₂) ∧
        (coreOf w₂).log = (coreOf w).log := by
      by_cases htimeout : (w₁.s.timer .timeout).active = true ∧ (w₁.s.timer .timeout).due ≤ n
      · refine ⟨w₁.lapsed n .timeout, ?_, .inr rfl, ?_, rfl⟩
        · rw [tickTimer_due htimeout.1 htimeout.2]
          exact onHandshakeTimeout_idle (w := w₁.lapsed n .timeout) (.inl hwait)
        · exact hflow.step (lapse_step (w := w₁) n .timeout (fun _ => .inl hwait) nofun)
      · rw [not_and_or, not_le] at htimeout
        exact ⟨w₁, tickTimer_idle (by simpa using htimeout), .inl rfl, hflow, rfl⟩
    have hsame : w₂.s.waitingForPin = true ∧ w₂.s.state = w.s.state ∧
        w₂.s.pinTimeout = w.s.pinTimeout ∧ w₂.s.name = w.s.name := by
      rcases hsender with h | h <;> rw [h] <;> exact ⟨hwait, rfl, rfl, rfl⟩
    obtain ⟨hwait₂, hstate₂, hpin₂, hname₂⟩ := hsame
    let w₃ : World := { w₂.lapsed n .pinTimeout with
      s := { (w₂.lapsed n .pinTimeout).s with waitingForPin := false } }
    have hrun : AirplaySender.tickTimer n .pinTimeout w₂ =
        AirplaySender.fail (pinTimeoutText w.s.name) w₃ := by
      rw [tickTimer_due (w := w₂) (by rw [Sender.timer, hpin₂]; exact hactive)
        (by rw [Sender.timer, hpin₂]; exact hdue), ← hname₂]
      exact onPinTimeout_run (w := w₂.lapsed n .pinTimeout) hwait₂
    have hfired := Past.fail (w := w₃) depth (pinTimeoutText w.s.name)
      (hflow₂.step (k := .host) (.expirePin _ hwait₂)) (by
        rw [show w₃.s.state = w.s.state from hstate₂]
        exact hnot)
    rw [show w₃.s.state = w.s.state from hstate₂, show (coreOf w₃).log = _ from hlog] at hfired
    show Past _ ((AirplaySender.tickTimer n .timeout >>= fun _ => _) w₁).2
    rw [bind_ok hfirst]
    refine bind_keeps (by rw [hrun]; exact hfired) fun _ w₄ h₄ => ?_
    refine bind_keeps (h₄.tickTimer depth n _ (hbase _)) fun _ w₅ h₅ => ?_
    exact bind_keeps (h₅.tickTimer depth n _ (hbase _)) fun _ w₆ h₆ =>
      h₆.tickTimer depth n _ (hbase _)

/-- **No stuck handshake.**  In every reachable world in which a session is connecting, pairing or
in the handshake, the handshake timeout is armed, or a PIN is awaited and the PIN timeout is armed;
and a tick that reads the clock at or past the armed one's due time makes the sender idle and fires
`launched(false)`, behind which only the application can begin another session. -/
theorem handshake_watched (h : Reachable w) (hst : w.s.state.starting = true) :
    ((w.s.waitingForPin = false ∧ w.s.timeout.active = true) ∨
      (w.s.waitingForPin = true ∧ w.s.pinTimeout.active = true)) ∧
    ∀ depth, (w.s.timer w.s.watchdog).due ≤ w.env.steady.head →
      let w' := (@tick _ (host depth) w).2
      ∃ newer why, w'.log = newer ++ .event (.launched false why) :: .failed true ::
        .ending w.s.state false false :: w.log ∧
        (w'.s.state = .idle ∨ ∃ e ∈ newer, e.isStarted = true) := by
  have hwatched : Watched (coreOf w) := h.induct Watched.init fun _ hs hw => hw.step hs
  have harmed : (w.s.waitingForPin = false ∧ w.s.timeout.active = true) ∨
      (w.s.waitingForPin = true ∧ w.s.pinTimeout.active = true) := by
    cases hwait : w.s.waitingForPin with
    | false => exact .inl ⟨rfl, hwatched.window hst hwait⟩
    | true => exact .inr ⟨rfl, hwatched.pin hst hwait⟩
  refine ⟨harmed, fun depth hdue => ?_⟩
  have hactive : (w.s.timer w.s.watchdog).active = true := by
    rcases harmed with ⟨hwait, hon⟩ | ⟨hwait, hon⟩ <;> simp [Sender.watchdog, hwait, Sender.timer, hon]
  obtain ⟨why, _, newer, hlog, hidle⟩ := tick_fires depth h.flow hst hactive hdue
  exact ⟨newer, why, hlog, hidle⟩

end Firing

/-- A sender that has just begun to pair, ten seconds before the next reading of the clock. -/
def lateWorld : World := worldIn 0 .ticking (connected .hapTransient true)

/-- There the next tick is one too late for the receiver. -/
theorem handshake_watched_late :
    let w' := (@tick trusting (@host trusting 0) lateWorld).2
    lateWorld.s.timeout.active = true ∧
      ∃ newer why, w'.log = newer ++ .event (.launched false why) :: .failed true ::
        .ending .pairing false false :: lateWorld.log ∧
        (w'.s.state = .idle ∨ ∃ e ∈ newer, e.isStarted = true) := by
  have hreach : @Reachable trusting lateWorld := worldIn_reachable 0 .ticking _
  obtain ⟨hstate, hwait, hdue⟩ : lateWorld.s.state = .pairing ∧ lateWorld.s.waitingForPin = false ∧
      (lateWorld.s.timer lateWorld.s.watchdog).due ≤ lateWorld.env.steady.head := by
    decide +kernel
  obtain ⟨harmed, hfires⟩ := @handshake_watched trusting _ hreach (by rw [hstate]; rfl)
  obtain ⟨newer, why, hlog, hidle⟩ := hfires 0 hdue
  refine ⟨?_, newer, why, ?_, hidle⟩
  · rcases harmed with ⟨_, h⟩ | ⟨h, _⟩
    · exact h
    · rw [hwait] at h
      cases h
  · rw [hlog, hstate]

/-! ## 3. An idle sender -/

/-- What leaves a timer armed in an idle sender: the TEARDOWN of a session that was still starting
opens another handshake window, and what happens in a session that is over. -/
def Entry.leavesArmed : Entry → Bool
  | .ending state _ teardown => teardown && (state == .pairing || state == .handshake)
  | e => e.rearms

section Idle

variable [Primitives] {k : Level} {c c' : Core} {w : World}

omit [Primitives] in
/-- Opening a handshake window is what a TEARDOWN does in a session that is still starting. -/
theorem Core.rewinds_eq (c : Core) :
    c.rewinds = (Entry.ending c.state c.waiting true).leavesArmed := by
  simp only [Core.rewinds, Entry.leavesArmed, Bool.true_and]
  cases c.state <;> rfl

omit [Primitives] in
theorem Core.Rearmed.live {c : Core} (h : c.Rearmed) (hlog : ∀ e ∈ c.log, e.leavesArmed = false) :
    c.state ≠ .idle := by
  rcases h with hst | ⟨e, he, hr⟩
  · exact hst
  · have hmem : e ∈ c.log := (List.takeWhile_sublist _).subset he
    have hbad := hlog e hmem
    cases e with
    | ending => cases hr
    | _ => exact absurd hr (Bool.eq_false_iff.mp hbad)

/-- **An idle sender has no timer armed**, as long as nothing happens that leaves one. -/
theorem unarmed_step (hs : Step k c c') (hlog : ∀ e ∈ c'.log, e.leavesArmed = false)
    (h : c.state = .idle → c.timers = {}) : c'.state = .idle → c'.timers = {} := by
  intro hidle
  obtain ⟨es, hes⟩ := hs.extends
  have hold : ∀ e ∈ c.log, e.leavesArmed = false := fun e he =>
    hlog e (by rw [hes]; exact List.mem_append_right _ he)
  cases hs with
  | leave | ended | hangUp | expirePin | receiveBroken => rfl
  | teardown _ text =>
    have hquiet : c.rewinds = false := by
      rw [Core.rewinds_eq]
      refine hlog _ ?_
      simp [Core.closed, Core.rewind, Core.request, Core.ending]
    show (bif ((c.ending true).request (ascii "TEARDOWN") false text).rewinds then _ else _) = _
    rw [show ((c.ending true).request (ascii "TEARDOWN") false text).rewinds = c.rewinds from rfl,
      hquiet]
    rfl
  | connecting | beginPairing | clear | enter => cases hidle
  | arm _ t hrearmed => exact absurd hidle (hrearmed.live hold)
  | lapse _ timers hpacer hsync hfeedback htimeout hpin =>
    have hoff := h hidle
    rw [hoff] at hpacer hsync hfeedback htimeout hpin
    have hnot {b : Bool} (hb : b = true → false = true) : b = false := by
      cases b with
      | false => rfl
      | true => exact absurd (hb rfl) (by simp)
    have htimeout : timers.timeout = false := htimeout.elim id And.left
    have hpin : timers.pinTimeout = false := hpin.elim id And.left
    show timers = {}
    cases timers
    simp only [Timers.mk.injEq]
    exact ⟨hnot hpacer, hnot hsync, htimeout, hpin, hnot hfeedback⟩
  | wait _ _ _ _ hst => exact absurd (hst.symm.trans hidle) (by simp)
  | typed _ code =>
    have hlive := hlog (.typed (c.state ≠ .idle) code) (by simp [Core.arm])
    have hst : c.state = .idle := hidle
    simp [Entry.leavesArmed, Entry.rearms, hst] at hlive
  | _ => exact h hidle

/-- **An idle sender has no deadline**, in every run in which no session is torn down while it
pairs or in the handshake, and no PIN, no pair-setup and no answer to a keep-alive probe comes
after the session it was for. -/
theorem idle_unarmed (h : Reachable w) (hlog : ∀ e ∈ w.log, e.leavesArmed = false)
    (hidle : w.s.state = .idle) : w.s.nextDeadline = none := by
  have hoff : timersOf w.s = {} := by
    refine h.induct_while (P := fun log => ∀ e ∈ log, e.leavesArmed = false)
      (J := fun c => c.state = .idle → c.timers = {}) (fun _ => rfl) ?_ ?_ hlog hidle
    · exact fun es log hall e he => hall e (List.mem_append_right _ he)
    · exact fun _ hs hall hi => unarmed_step hs hall hi
  simp only [timersOf, Timers.mk.injEq] at hoff
  obtain ⟨hpacer, hsync, htimeout, hpin, hfeedback⟩ := hoff
  simp [Sender.nextDeadline, hpacer, hsync, htimeout, hpin, hfeedback]

end Idle

/-- A session all the way to the stream, and stopped there. -/
def stoppedStream : World := worldAfter (streamingActions ++ [.call .stop])

theorem stoppedStream_idle : stoppedStream.s.state = .idle ∧
    ∀ e ∈ stoppedStream.log, e.leavesArmed = false := by
  decide +kernel

/-- It leaves nothing armed. -/
theorem idle_unarmed_stream : stoppedStream.s.nextDeadline = none :=
  @idle_unarmed trusting _ (worldAfter_reachable _) stoppedStream_idle.2 stoppedStream_idle.1

/-- **Stopping a session that is pairing leaves the handshake timeout armed**: the TEARDOWN that
`stop` sends behind `stopTimers_` opens another window. -/
theorem stopped_armed :
    let w := worldAfter (connected .hapTransient true ++ [.call .stop])
    @Reachable trusting w ∧ w.s.state = .idle ∧ w.s.nextDeadline = some 10000000000 :=
  ⟨worldAfter_reachable _, by decide +kernel⟩

/-! ## 4. Awaiting a PIN -/

section Pins

variable [Primitives] {k : Level} {c c' : Core} {w : World}

/-- A PIN is awaited in the pairing session that asked for it. -/
structure Awaited (c : Core) : Prop where
  pin : c.waiting = true → c.state = .pairing ∧ c.timers.pinTimeout = true
  connection : c.state = .pairing → c.connected = true

/-- The session was ended while it awaited a PIN, by something else than the PIN timeout. -/
def Entry.interrupts : Entry → Bool
  | .ending _ waiting _ => waiting
  | _ => false

omit [Primitives] in
theorem Awaited.init : Awaited {} := ⟨nofun, nofun⟩

/-- Every step keeps it, but the end of a session that awaits a PIN. -/
theorem Awaited.step (hflow : Flow c) (hs : Step k c c') (hlog : ∀ e ∈ c'.log, e.interrupts = false)
    (h : Awaited c) : Awaited c' := by
  have hno {p : Prop} (hw : c.waiting = true) (teardown : Bool)
      (hmem : .ending c.state c.waiting teardown ∈ c'.log) : p := by
    have hnot : c.waiting = false := hlog _ hmem
    exact absurd (hnot.symm.trans hw) (by simp)
  have hstage {p : Prop} {st : PairStage} (hw : c.waiting = true) (hst : c.stage = st)
      (hne : st ≠ .setupM2) : p :=
    absurd ((hst.symm.trans (hflow.waiting hw).1)) hne
  cases hs with
  | restart _ hidle => exact ⟨(by rintro ⟨⟩), fun hst => absurd (hst.symm.trans hidle) (by simp)⟩
  | connecting _ hun => exact ⟨fun hw => absurd (hun.2.2.1.symm.trans hw) (by simp), by rintro ⟨⟩⟩
  | leave => exact ⟨fun hw => hno hw false (by simp [Core.closed, Core.ending]), by rintro ⟨⟩⟩
  | teardown =>
    refine ⟨fun hw => hno hw true ?_, by rintro ⟨⟩⟩
    simp [Core.closed, Core.rewind, Core.request, Core.ending]
  | ended => exact ⟨fun hw => hno hw false (by simp [Core.ended, Core.ending]), by rintro ⟨⟩⟩
  | disconnect _ hidle => exact ⟨h.pin, fun hst => absurd (hst.symm.trans hidle) (by simp)⟩
  | hangUp => exact ⟨fun hw => hno hw false (by simp [Core.ended, Core.ending]), by rintro ⟨⟩⟩
  | expirePin => exact ⟨(by rintro ⟨⟩), by rintro ⟨⟩⟩
  | receiveBroken =>
    exact ⟨fun hw => hno hw false (by simp [Core.ended, Core.ending, Core.receive]), by rintro ⟨⟩⟩
  | arm _ t =>
    exact ⟨fun hw => ⟨(h.pin hw).1, Timers.arm_pinTimeout (h.pin hw).2 t⟩, h.connection⟩
  | lapse _ timers _ _ _ _ hpin =>
    refine ⟨fun hw => ⟨(h.pin hw).1, ?_⟩, h.connection⟩
    rcases hpin with heq | ⟨_, hnot⟩
    · exact heq.trans (h.pin hw).2
    · exact absurd (hnot.symm.trans hw) (by simp)
  | beginPairing _ hst =>
    exact ⟨fun hw => absurd (hst.symm.trans (h.pin hw).1) (by simp), fun _ => rfl⟩
  | wait _ _ _ _ hst => exact ⟨fun _ => ⟨hst, rfl⟩, h.connection⟩
  | typed => exact ⟨(by rintro ⟨⟩), h.connection⟩
  | clear _ _ hst =>
    refine ⟨fun hw => ?_, by rintro ⟨⟩⟩
    rcases hst with ⟨hst, _⟩ | ⟨hst, _⟩
    · exact hstage hw hst (by rintro ⟨⟩)
    · exact hstage hw hst (by rintro ⟨⟩)
  | enter _ _ hcl =>
    exact ⟨fun hw => absurd hcl (hflow.uncleared (.inr (h.pin hw).1)), by rintro ⟨⟩⟩
  | _ => exact ⟨h.pin, h.connection⟩

/-- **A PIN is only awaited by a session that is pairing**, at its stage, with its timeout armed and
the connection up; an idle sender awaits none and `submitPin` does nothing there; in every run in
which no session is ended, other than by the PIN timeout, while it awaits a PIN. -/
theorem pin_awaited (h : Reachable w) (hlog : ∀ e ∈ w.log, e.interrupts = false) :
    (w.s.waitingForPin = true → w.s.state = .pairing ∧ w.s.pairStage = .setupM2 ∧
      w.s.pinTimeout.active = true ∧ w.s.rtspConnected = true) ∧
    (w.s.state = .idle → w.s.waitingForPin = false ∧
      ∀ [Host] (code : Octets), submitPin code w = (.ok (), w)) := by
  have hawaited : Awaited (coreOf w) := by
    refine h.induct_while (P := fun log => ∀ e ∈ log, e.interrupts = false) (J := Awaited)
      Awaited.init ?_ ?_ hlog
    · exact fun es log hall e he => hall e (List.mem_append_right _ he)
    · exact fun hflow hs hall hi => hi.step hflow hs hall
  constructor
  · intro hw
    obtain ⟨hst, hpin⟩ := hawaited.pin hw
    exact ⟨hst, (h.flow.waiting hw).1, hpin, hawaited.connection hst⟩
  · intro hidle
    have hwait : w.s.waitingForPin = false := by
      cases hw : w.s.waitingForPin with
      | false => rfl
      | true => exact absurd ((hawaited.pin hw).1.symm.trans hidle) nofun
    refine ⟨hwait, fun [Host] code => ?_⟩
    unfold submitPin
    rw [sender_bind, if_pos (by simp [hwait])]
    rfl

end Pins

/-- A session that waits for the PIN on the receiver's screen. -/
def pinActions : List Action :=
  connected .hapPin true ++ [.onTcpData .control (okReply []), .onTcpData .control setupReply2]

theorem pin_awaited_waiting : (worldAfter pinActions).s.waitingForPin = true ∧
    (worldAfter pinActions).s.pinTimeout.active = true := by
  obtain ⟨hwait, hcalm⟩ : (worldAfter pinActions).s.waitingForPin = true ∧
      ∀ e ∈ (worldAfter pinActions).log, e.interrupts = false := by decide +kernel
  obtain ⟨hpin, -⟩ := @pin_awaited trusting _ (worldAfter_reachable pinActions) hcalm
  exact ⟨hwait, (hpin hwait).2.2.1⟩

/-- **Stopping a session that waits for a PIN leaves it waiting**, and the PIN submitted to the
idle sender runs the key exchange and arms the handshake timeout. -/
theorem stopped_waiting :
    let w := worldAfter (pinActions ++ [.call .stop])
    let w' := (@submitPin trusting (@host trusting 0) (ascii "1234") w).2
    @Reachable trusting w ∧ w.s.state = .idle ∧ w.s.waitingForPin = true ∧
      w'.s.timeout.active = true ∧ w.out.length < w'.out.length :=
  ⟨worldAfter_reachable _, by decide +kernel⟩

end AirplaySender
