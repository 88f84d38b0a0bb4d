/-
# Pairing replies that carry an error

HAP reports a failed authentication inside a 200 reply, as an `Error` item of its TLV8 body.  The
handlers of pair-setup M2, M4 and M6 and of pair-verify M2 look for it first and end the session.
Pair-verify M4 has no handler: the stage switch takes any 2xx reply for the acknowledgement and goes
on to the setup, over a channel whose keys the receiver has just refused.

`pairing_error_iff` says so for every stage that reads such a body: the reply ends the session if
and only if the stage is not the last one.
-/
import AirplaySender.Events
import AirplaySender.Runs

namespace AirplaySender

open Octets Prog

section Refusals

variable [Primitives]

/-! ## 1. The end of a session -/

/-- A request on the control channel. -/
def Entry.isRequested : Entry → Bool
  | .requested .. => true
  | _ => false

/-- The close of the control connection by a session that fails. -/
def Entry.isHangUp : Entry → Bool
  | .tcpClose .control false => true
  | _ => false

/-- What `fail_` tells the application once the session is over. -/
def lastEvents [Host] (why : Octets) : M Unit := do
  Host.fire (.launched false why)
  emit (.reported true)
  Host.fire .closed

/-- From `w`, `m` hangs up, reaches Idle without another request, and has nothing left to do but to
report `launched(false)` and the close. -/
def EndsSession [Host] (w : World) (m : M Unit) : Prop :=
  ∃ (w₁ : World) (new : List Entry) (why : Octets), m w = lastEvents why w₁ ∧ w₁.s.state = .idle ∧
    w₁.out = new ++ w.out ∧ (∃ e ∈ new, e.isHangUp = true) ∧ ∀ e ∈ new, e.isRequested = false

omit [Primitives] in
/-- Releasing the sockets adds closes to the trace, and nothing else. -/
theorem releaseSockets_closes (w : World) : ∃ w' new, releaseSockets w = (.ok (), w') ∧
    w'.s.state = w.s.state ∧ w'.out = new ++ w.out ∧ ∀ e ∈ new, e.isRequested = false := by
  unfold releaseSockets
  rw [sender_bind]
  cases hbound : w.s.udpBound with
  | false =>
    refine ⟨_, [.tcpClose .event false], rfl, rfl, rfl, ?_⟩
    intro e he
    rw [List.mem_singleton.mp he]
    rfl
  | true =>
    refine ⟨_, [.tcpClose .event false, .udpClose .timing, .udpClose .control, .udpClose .audio],
      rfl, rfl, rfl, ?_⟩
    intro e he
    simp only [List.mem_cons, List.not_mem_nil, or_false] at he
    rcases he with rfl | rfl | rfl | rfl <;> rfl

omit [Primitives] in
/-- **`fail_` ends a session** that was not streaming yet. -/
theorem fail_ends [Host] {w : World} (hstream : w.s.state ≠ .streaming) (why : Octets) :
    EndsSession w (fail why) := by
  let w₀ : World := { w with
    s := { w.s.ended with rtspConnected := false }
    out := .tcpClose .control false :: .ending w.s.state w.s.waitingForPin false :: w.out }
  obtain ⟨w₁, new, hrelease, hstate, hout, hquiet⟩ := releaseSockets_closes w₀
  let w₂ : World := { w₁ with out := .failed true :: w₁.out }
  have hstarting : decide (w.s.state ≠ .streaming) = true := decide_eq_true hstream
  have hrun : fail why w = lastEvents why w₂ := by
    have hopen : fail why w = (releaseSockets >>= fun _ =>
        reportEnd (w.s.state ≠ .streaming) why) w₀ := rfl
    rw [hopen, bind_ok hrelease, hstarting]
    rfl
  refine ⟨w₂, .failed true :: (new ++ [.tcpClose .control false,
    .ending w.s.state w.s.waitingForPin false]), why, hrun, hstate, ?_, ?_, ?_⟩
  · have hout₂ : w₂.out = .failed true :: w₁.out := rfl
    rw [hout₂, hout, List.cons_append, List.append_assoc]
    rfl
  · exact ⟨.tcpClose .control false, by simp, rfl⟩
  · intro e he
    simp only [List.mem_cons, List.mem_append, List.not_mem_nil, or_false] at he
    rcases he with rfl | he | rfl | rfl
    · rfl
    · exact hquiet e he
    · rfl
    · rfl

/-! ## 2. A session that goes on -/

/-- How often the control connection was hung up. -/
def World.hangUps (w : World) : ℕ := w.out.countP Entry.isHangUp

omit [Primitives] in
/-- Hang-ups are part of the wire. -/
theorem hangUps_eq (w : World) : w.hangUps = (wireOf w).log.countP Entry.isHangUp := by
  have hlog : (wireOf w).log = w.out.filter Entry.wired := rfl
  rw [World.hangUps, hlog, List.countP_filter]
  refine List.countP_congr fun e _ => ?_
  cases e with
  | tcpClose ch flush => simp [Entry.wired]
  | _ => simp [Entry.isHangUp]

/-- What only takes acts takes nothing back. -/
theorem hangUps_le {α : Type} {w : World} {m : M α} {Q : α → World → Prop}
    (h : Acts (fun _ => True) w m Q) : w.hangUps ≤ (m w).2.hangUps := by
  have hall : (wireOf w).Allowed fun _ => True := fun _ _ _ => trivial
  rw [hangUps_eq, hangUps_eq]
  refine Reaches.invariant (I := fun v => (wireOf w).log.countP Entry.isHangUp ≤
    (wireOf v).log.countP Entry.isHangUp) (h hall) ?_ le_rfl
  intro v v' hdeed hle
  rcases hdeed.wire with heq | hact
  · rw [heq]
    exact hle
  · have hturn : Turn (fun _ => True) (wireOf v) (wireOf v') := .act hact
    obtain ⟨es, hlog⟩ := hturn.extends
    rw [hlog, List.countP_append]
    omega

/-- The hang-ups of a world, as a view. -/
def hangUpView : View Unit Unit where
  members _ := ()
  store _ := ()
  shows := Entry.isHangUp

/-- `m` hangs up nothing, however it ends. -/
def KeepsLine {α : Type} (m : M α) : Prop := Overlooks hangUpView m

omit [Primitives] in
theorem KeepsLine.hangUps {α : Type} {m : M α} (h : KeepsLine m) (w : World) :
    (m w).2.hangUps = w.hangUps := by
  have hshown : (m w).2.out.filter Entry.isHangUp = w.out.filter Entry.isHangUp :=
    congrArg (fun v => v.2.2) (h w)
  rw [World.hangUps, World.hangUps, List.countP_eq_length_filter, hshown,
    ← List.countP_eq_length_filter]

/-- A session that is ended was hung up. -/
theorem EndsSession.hangs_up {depth : ℕ} {w : World} {m : M Unit}
    (h : @EndsSession (host depth) w m) : ¬ w.hangUps = (m w).2.hangUps := by
  obtain ⟨w₁, new, why, hrun, -, hout, ⟨e, he, hhang⟩, -⟩ := h
  have hnew : w.hangUps < w₁.hangUps := by
    have hpos : 0 < new.countP Entry.isHangUp := List.countP_pos_iff.mpr ⟨e, he, hhang⟩
    rw [World.hangUps, World.hangUps, hout, List.countP_append]
    omega
  have hlast : Acts (fun _ => True) w₁ (@lastEvents (host depth) why) fun _ _ => True := by
    refine Within.bind (host_heeds depth _ w₁) fun _ w₂ _ => ?_
    refine Tacit.acts_bind (Overlooks.emit rfl) fun _ w₃ _ => ?_
    exact host_heeds depth _ w₃
  have hle := hangUps_le hlast
  rw [hrun]
  omega

namespace KeepsLine

omit [Primitives] in
theorem mute : hangUpView.Mute := ⟨fun _ _ => rfl, rfl, fun _ _ _ _ => rfl, fun _ => rfl⟩

omit [Primitives] in
theorem setS (f : Sender → Sender) : KeepsLine (setS f) := Overlooks.setS fun _ => rfl

omit [Primitives] in
theorem setAndEmit {f : Sender → Sender} {e : Entry} (h : e.isHangUp = false) :
    KeepsLine (setAndEmit f e) := Overlooks.setAndEmit (fun _ => rfl) h

omit [Primitives] in
theorem arm (t : TimerId) : KeepsLine (arm t) :=
  Fixes.bind (Overlooks.ask fun _ => rfl) fun _ => setAndEmit rfl

omit [Primitives] in
theorem enqueue (method : Octets) (isHttp : Bool) (text : Octets) :
    KeepsLine (enqueue method isHttp text) := Fixes.bind Overlooks.sender fun _ => setAndEmit rfl

omit [Primitives] in
theorem switchControl : KeepsLine switchControl := by
  refine Fixes.bind Overlooks.sender fun s => ?_
  split
  · exact setAndEmit rfl
  · exact Fixes.pure _

theorem sendAp2Info : KeepsLine sendAp2Info := by
  refine Fixes.bind (setAndEmit rfl) fun _ => Fixes.bind Overlooks.sender fun _ => ?_
  refine Fixes.bind (enqueue _ _ _) fun _ => Fixes.bind (Overlooks.writeRtsp mute _) fun _ => ?_
  exact arm _

theorem sendOptions : KeepsLine sendOptions := by
  refine Fixes.bind Overlooks.sender fun _ => Fixes.bind (enqueue _ _ _) fun _ => ?_
  refine Fixes.bind (Overlooks.writeRtsp mute _) fun _ => Fixes.bind Overlooks.sender fun _ => ?_
  exact Fixes.when (arm _)

/-- **Past authentication** the session goes on. -/
theorem afterAuthOk : KeepsLine afterAuthOk := by
  refine Fixes.bind (setS _) fun _ => Fixes.bind Overlooks.sender fun s => Fixes.ite ?_ ?_
  · refine Fixes.bind switchControl fun _ => ?_
    exact Fixes.bind (setAndEmit rfl) fun _ => sendAp2Info
  · exact Fixes.bind (setAndEmit rfl) fun _ => sendOptions

end KeepsLine

/-! ## 3. The stages -/

/-- The stages whose reply has a TLV8 body. -/
def PairStage.readsTlv : PairStage → Bool
  | .setupM2 | .setupM4 | .setupM6 | .verifyM2 | .verifyDone => true
  | _ => false

/-- A 2xx reply at such a stage goes to the stage switch. -/
theorem onPairingResponse_stage [Host] {w : World} {code : ℤ} {body : Octets}
    (hlive : w.s.state ≠ .idle) (hstream : w.s.state ≠ .streaming)
    (hstage : w.s.pairStage.readsTlv = true) (hcode : 200 ≤ code ∧ code < 300) :
    onPairingResponse code body w = onPairingStage body w := by
  have hauth : w.s.pairStage ≠ .authSetup := by
    intro h
    rw [h] at hstage
    cases hstage
  have hrecord : w.s.pairStage ≠ .ap2Record := by
    intro h
    rw [h] at hstage
    cases hstage
  rw [onPairingResponse, sender_bind, if_neg hlive, if_neg hstream,
    if_neg fun h => hauth h.2.2, if_neg hrecord, if_neg (by omega)]

/-- **Where an error is heard.**  A 2xx reply with an `Error` item ends the session at every stage
that reads a TLV8 body, if and only if the stage is not the last one of pair-verify. -/
theorem pairing_error_iff (depth : ℕ) {w : World} {code : ℤ} {body err : Octets}
    (hlive : w.s.state ≠ .idle) (hstream : w.s.state ≠ .streaming)
    (hstage : w.s.pairStage.readsTlv = true) (hcode : 200 ≤ code ∧ code < 300)
    (herr : Tlv.get (Tlv.decode body) .error = some err) :
    @EndsSession (host depth) w (@onPairingResponse _ (host depth) code body) ↔
      w.s.pairStage ≠ .verifyDone := by
  let _ := host depth
  have hswitch : onPairingResponse code body w = _ :=
    onPairingResponse_stage hlive hstream hstage hcode
  constructor
  · intro hends hdone
    refine hends.hangs_up ?_
    have hon : onPairingStage body w = (AirplaySender.setS (fun s => { s with pairStage := .done }) >>=
        fun _ => afterAuthOk) w := by
      rw [onPairingStage, sender_bind, hdone]
    rw [hswitch, hon]
    have hkept : KeepsLine (AirplaySender.setS (fun s => { s with pairStage := .done }) >>=
        fun _ => afterAuthOk) := Fixes.bind (KeepsLine.setS _) fun _ => KeepsLine.afterAuthOk
    exact (hkept.hangUps w).symm
  · intro hother
    have hfail : ∃ why, onPairingStage body w = fail why w := by
      rw [onPairingStage, sender_bind]
      cases hst : w.s.pairStage with
      | setupM2 =>
        simp only [handlePairSetupM2, herr]
        exact ⟨_, rfl⟩
      | setupM4 =>
        simp only [handlePairSetupM4, herr]
        exact ⟨_, rfl⟩
      | setupM6 =>
        simp only [handlePairSetupM6, herr]
        exact ⟨_, rfl⟩
      | verifyM2 =>
        simp only [handlePairVerifyM2, herr]
        exact ⟨_, rfl⟩
      | verifyDone => exact absurd hst hother
      | _ => simp [hst, PairStage.readsTlv] at hstage
    obtain ⟨why, hwhy⟩ := hfail
    obtain ⟨w₁, new, text, hrun, hrest⟩ := fail_ends hstream why
    exact ⟨w₁, new, text, by rw [hswitch, hwhy, hrun], hrest⟩

end Refusals

/-! ## 4. By hand -/

section ByHand

/-- A session at a stage of pairing. -/
def pairingAt (stage : PairStage) : World :=
  { s := { state := .pairing, pairStage := stage }, env := .still, out := [] }

/-- A body that says why not. -/
def refusal : Octets := Tlv.encode [(Tlv.Tag.state.code, [4]), (Tlv.Tag.error.code, [2])]

/-- At pair-setup M4 it ends the session. -/
theorem pairing_error_setup : @EndsSession (@host trusting 0) (pairingAt .setupM4)
    (@onPairingResponse trusting (@host trusting 0) 200 refusal) :=
  (@pairing_error_iff trusting 0 (pairingAt .setupM4) 200 refusal [2] (by decide) (by decide)
    (by decide) (by decide) (by decide +kernel)).mpr (by decide)

/-- The application was called. -/
def Entry.isEvent : Entry → Bool
  | .event _ => true
  | _ => false

/-- A stored session whose pair-verify M4 is refused. -/
def refusedVerify : List Action := storedActions.take 5 ++ [.onTcpData .control (okReply refusal)]

/-- At pair-verify M4 it does not: the channel is switched, the next request is sent, and the
application hears nothing. -/
theorem verify_refusal_unheard :
    (worldAfter (storedActions.take 5)).s.pairStage = .verifyDone ∧
    (worldAfter refusedVerify).s.state = .handshake ∧
    (worldAfter refusedVerify).s.controlEncrypted = true ∧
    (worldAfter refusedVerify).out.countP Entry.isRequested =
      (worldAfter (storedActions.take 5)).out.countP Entry.isRequested + 1 ∧
    (worldAfter refusedVerify).out.countP Entry.isEvent = 0 := by
  decide +kernel

end ByHand

end AirplaySender
