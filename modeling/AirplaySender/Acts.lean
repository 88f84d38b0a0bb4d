/-
# The code only takes these acts

What a receiver can tell of the sender is its wire (`Wire`), what a listener can tell is its pulse
(`Beats`).  Both change only in ways that are listed there, the wire by acts and the pulse by beats,
and this module walks the code once to say so for both.

`Acts Ok w m Q`: started in `w`, the method `m` moves the wire and the pulse only along the lists,
however it ends, and a normal end satisfies `Q`.  There is one lemma for each method of the sender,
in the order of the modules that define them.  A method ends in one of three ways: it returns, it
raises, or a callback inside it has ended the session; the judgment covers all of them, since it
speaks of the world that is left and not of the result.

Most of a method touches neither projection (`Tacit`), and next to nothing need be known where it
does: that a session is alive where a connection is opened, and idle where a new one begins.  The one
assumption about the application is a guard (`Ok`) on the calls it makes from inside a callback; that
it holds of the calls still to come is the invariant the judgment carries.
-/
import AirplaySender.Wire
import AirplaySender.Beats
import AirplaySender.Calls
import AirplaySender.Lib.FloatOrder

namespace AirplaySender

open Octets Prog

/-! ## 1. The judgment -/

open Relation (ReflTransGen)

section Rules

variable [Primitives] {Ok : Action → Prop} {w w' : World} {α β : Type}

/-- A move of the world: the wire stays or takes an act, and the pulse takes beats. -/
structure Deeds (Ok : Action → Prop) (w w' : World) : Prop where
  wire : wireOf w' = wireOf w ∨ Act Ok (wireOf w) (wireOf w')
  pulse : ReflTransGen (Beat Ok) (pulseOf w) (pulseOf w')

namespace Deeds

/-- A move that neither shows. -/
theorem still (hwire : wireOf w' = wireOf w) (hpulse : pulseOf w' = pulseOf w) : Deeds Ok w w' :=
  ⟨.inl hwire, by rw [hpulse]⟩

/-- An act that the pulse does not show. -/
theorem act (h : Act Ok (wireOf w) (wireOf w')) (hpulse : pulseOf w' = pulseOf w) : Deeds Ok w w' :=
  ⟨.inr h, by rw [hpulse]⟩

/-- A beat that the wire does not show. -/
theorem beat (hwire : wireOf w' = wireOf w) (h : Beat Ok (pulseOf w) (pulseOf w')) : Deeds Ok w w' :=
  ⟨.inl hwire, .single h⟩

end Deeds

/-- What the application does in its callbacks is all considered. -/
def Wire.Allowed (Ok : Action → Prop) (c : Wire) : Prop := ∀ n, ∀ a ∈ c.reactions n, Ok (.call a)

/-- Acts keep the calls in store, and taking the next batch leaves a suffix of them. -/
theorem Act.allowed {c c' : Wire} (h : Act Ok c c') (hc : c.Allowed Ok) : c'.Allowed Ok := by
  cases h with
  | react => exact fun n => hc (n + 1)
  | _ => exact hc

theorem Deeds.allowed (h : Deeds Ok w w') (hw : (wireOf w).Allowed Ok) :
    (wireOf w').Allowed Ok := by
  rcases h.wire with heq | hact
  · rw [heq]
    exact hw
  · exact hact.allowed hw

instance : Preserves (Deeds Ok) fun w => (wireOf w).Allowed Ok := ⟨Deeds.allowed⟩

/-- From `w`, `m` only takes acts and beats, and ends normally in `Q`. -/
abbrev Acts (Ok : Action → Prop) (w : World) (m : M α) (Q : α → World → Prop) : Prop :=
  Within (Deeds Ok) (fun w => (wireOf w).Allowed Ok) w m Q

/-- What acts keep holds at the end of a method. -/
theorem Acts.keeping {m : M α} {Q : α → World → Prop} {I : Wire → Prop}
    (hI : ∀ c c', Act Ok c c' → I c → I c') (hw : I (wireOf w)) (h : Acts Ok w m Q) :
    Acts Ok w m fun a w' => I (wireOf w') ∧ Q a w' := by
  refine Within.keeping (J := fun w => I (wireOf w)) (fun a b hd hi => ?_) hw h
  rcases hd.wire with heq | hact
  · rw [heq]
    exact hi
  · exact hI _ _ hact hi

end Rules

/-! ## 2. Methods that leave the wire and the pulse alone

Both are views (`wireView`, `pulseView`), so what leaves them alone is a matter of `Overlooks`, and a
method that does is skipped with one rule (`Tacit.acts_bind`). -/

/-- The wire as a view. -/
def wireView : View Members (Stream' (List Api)) where
  members := membersOf
  store := Env.reactions
  shows := Entry.wired

/-- `m` leaves the wire and the pulse alone. -/
def Tacit {α : Type} (m : M α) : Prop := Overlooks (wireView.prod pulseView) m

/-- A view is a tuple; the wire that goes with it is a structure. -/
theorem wire_of_view {w w' : World} (h : wireView.of w' = wireView.of w) : wireOf w' = wireOf w := by
  simp only [View.of, wireView, Prod.mk.injEq] at h
  obtain ⟨hmembers, hreactions, hlog⟩ := h
  simp only [wireOf, hmembers, hreactions, hlog]

namespace Tacit

variable {α β : Type} {m : M α}

theorem wire (hm : Tacit m) (w : World) : wireOf (m w).2 = wireOf w := wire_of_view (hm.left w)

theorem pulse (hm : Tacit m) (w : World) : pulseOf (m w).2 = pulseOf w := pulse_of_view (hm.right w)

/-- Such a method makes one move, which neither shows. -/
theorem acts [Primitives] {Ok : Action → Prop} {w : World} (hm : Tacit m) :
    Acts Ok w m fun _ w' => wireOf w' = wireOf w :=
  (Within.single (.still (hm.wire w) (hm.pulse w))).mono fun _ _ hend => hend ▸ hm.wire w

/-- In front of a method with acts it can be skipped, knowing that the wire is what it was. -/
theorem acts_bind [Primitives] {Ok : Action → Prop} {w : World} {f : α → M β}
    {P : β → World → Prop} (hm : Tacit m)
    (h : ∀ a w', wireOf w' = wireOf w → Acts Ok w' (f a) P) : Acts Ok w (m >>= f) P :=
  Within.bind hm.acts h

/-- A pairing state that changes where neither looks. -/
theorem members_ap2 {g : Ap2State → Ap2State} (h : ∀ a, (g a).wired = a.wired) (s : Sender) :
    (wireView.prod pulseView).members { s with ap2 := s.ap2.map g } =
      (wireView.prod pulseView).members s := by
  have haudio : (s.ap2.map g).map audioOf = s.ap2.map audioOf := by
    rw [Option.map_map]
    congr 1
    exact funext fun a => congrArg Prod.fst (h a)
  have hport : eventPortOf { s with ap2 := s.ap2.map g } = eventPortOf s := by
    unfold eventPortOf
    dsimp only
    rw [Option.map_map]
    congr 2
    exact funext fun a => congrArg Prod.snd (h a)
  have hmembers : membersOf { s with ap2 := s.ap2.map g } = membersOf s := by
    simp only [membersOf, haudio, hport]
  exact Prod.ext hmembers rfl

theorem nullDeref : Tacit (nullDeref : M α) := Overlooks.nullDeref rfl

theorem ap2Get : Tacit ap2Get := Overlooks.ap2Get rfl

/-- A change of the pairing state that keeps the audio key and the event port. -/
theorem ap2Set {g : Ap2State → Ap2State} (h : ∀ a, (g a).wired = a.wired) : Tacit (ap2Set g) :=
  Overlooks.ap2Set rfl (members_ap2 h)

/-- Sealing is on the record for its site; the audio is sealed elsewhere, as part of a packet
(`sendAudioPacket_acts`). -/
theorem chacha [Primitives] {site : Site} (h : site ≠ .audio) (key nonce pt aad : Octets) :
    Tacit (chacha20Poly1305Encrypt site key nonce pt aad) := by
  refine Overlooks.chacha ?_ (fun _ _ _ _ => ?_) key nonce pt aad
  all_goals cases site <;> first | rfl | exact absurd rfl h

/-- What goes out on the control channel is followed where it is composed, as a request that enters
the queue.  Neither view shows the octets. -/
theorem mute : (wireView.prod pulseView).Mute := ⟨fun _ _ => rfl, rfl, fun _ _ _ _ => rfl, fun _ => rfl⟩

theorem writeRtsp [Primitives] (data : Octets) : Tacit (writeRtsp data) := Overlooks.writeRtsp mute data

/-- Only the stage at which the stream is set up is shown, since the audio key changes with it. -/
theorem stageTo {stage : PairStage} (h : stage ≠ .ap2Stream) : Tacit (stageTo stage) := by
  refine Overlooks.setAndEmit (fun _ => rfl) ?_
  cases stage <;> first | rfl | exact absurd rfl h

theorem checkServerProof [Primitives] (proof : Option Octets) : Tacit (checkServerProof proof) := by
  cases proof with
  | none => exact Fixes.pure false
  | some p =>
    refine Fixes.bind ap2Get fun a => ?_
    split
    · exact nullDeref
    · exact Fixes.bind (Overlooks.emit rfl) fun _ => Fixes.pure _

end Tacit

/-- The ring and the staging behind it belong to the pulse. -/
theorem wire_deaf : wireView.Deaf := ⟨fun _ _ _ => rfl, fun _ _ _ => rfl⟩

/-! ## 3. The clock and the timers -/

section Timers

variable [Primitives] {Ok : Action → Prop} {w : World}

omit [Primitives] in
/-- No timer is on the wire. -/
theorem membersOf_setTimer (s : Sender) (f : Timer → Timer) (t : TimerId) :
    membersOf (s.setTimer f t) = membersOf s := by
  cases t <;> rfl

/-- A reading of the clock. -/
theorem now_acts : Acts Ok w now fun _ w' => wireOf w' = wireOf w :=
  (Within.single (.beat rfl .read)).mono fun _ _ hend => hend ▸ rfl

/-- Arming a timer takes a reading, and is one beat with it. -/
theorem arm_acts (t : TimerId) : Acts Ok w (arm t) fun _ w' => wireOf w' = wireOf w := by
  have hrun : arm t w = (.ok (), { w with
      s := w.s.setTimer (fun x =>
        { x with due := w.env.steady.head + x.interval * 1000000, active := true }) t
      env := { w.env with steady := w.env.steady.tail }
      out := .armed t :: w.out }) := rfl
  have hpulse := pulseOf_setTimer { w with
      env := { w.env with steady := w.env.steady.tail }
      out := .armed t :: w.out }
    (fun x => { x with due := w.env.steady.head + x.interval * 1000000, active := true }) t
  have hwire : wireOf (arm t w).2 = wireOf w := by
    rw [hrun]
    simp only [wireOf, membersOf_setTimer]
    rfl
  have hbeat : Beat Ok (pulseOf w) (pulseOf (arm t w).2) := by
    rw [hrun, hpulse]
    exact .arm t
  exact (Within.single (.beat hwire hbeat)).mono fun _ _ hend => hend ▸ hwire

/-- One timer changes, along with members and entries that neither shows. -/
theorem setTimer_deed (es : List Entry) {f : Sender → Sender} {g : Timer → Timer} {t : TimerId}
    (hf : ∀ s, (wireView.prod pulseView).members (f s) = (wireView.prod pulseView).members s)
    (hes : ∀ e ∈ es, (wireView.prod pulseView).shows e = false)
    (hbeat : ∀ p : Pulse, Beat Ok p (p.setTimer g t)) :
    Deeds Ok w { w with s := (f w.s).setTimer g t, out := es ++ w.out } := by
  have hfixed : Tacit (Prog.modify fun v => { v with s := f v.s, out := es ++ v.out } : M Unit) :=
    Fixes.modify fun v => by
      refine View.of_congr (hf v.s) rfl ?_
      rw [List.filter_append, List.filter_eq_nil_iff.mpr fun e he => by simp [hes e he],
        List.nil_append]
  have hwire : wireOf { w with s := f w.s, out := es ++ w.out } = wireOf w := hfixed.wire w
  have hpulse : pulseOf { w with s := f w.s, out := es ++ w.out } = pulseOf w := hfixed.pulse w
  refine .beat ?_ ?_
  · rw [← hwire]
    simp only [wireOf, membersOf_setTimer]
  · rw [← hpulse, pulseOf_setTimer { w with s := f w.s, out := es ++ w.out } g t]
    exact hbeat _

/-- A timer that is stopped or gets another interval, with an assignment that neither shows. -/
theorem setTimer_acts {f : Sender → Sender} {g : Timer → Timer} {t : TimerId}
    (hf : ∀ s, (wireView.prod pulseView).members (f s) = (wireView.prod pulseView).members s)
    (hbeat : ∀ p : Pulse, Beat Ok p (p.setTimer g t)) :
    Acts Ok w (setS fun s => (f s).setTimer g t) fun _ w' => wireOf w' = wireOf w := by
  refine Within.modify (setTimer_deed [] hf (by simp) hbeat) ?_
  have hmembers : membersOf (f w.s) = membersOf w.s := congrArg Prod.fst (hf w.s)
  simp only [wireOf, membersOf_setTimer, hmembers]

/-- Stopping a timer. -/
theorem disarm_acts (t : TimerId) : Acts Ok w (disarm t) fun _ w' => wireOf w' = wireOf w :=
  setTimer_acts (f := id) (fun _ => rfl) fun _ => .disarm t

end Timers

/-! ## 4. Requests

A request is queued before it is written, and its text depends on the members at that moment alone.
The act is the queueing; what writing does is counted elsewhere (`Seals`). -/

section Members

variable {s s' : Sender}

/-- What a request is composed of is in the members that the wire shows. -/
theorem rtspUri_congr (h : membersOf s = membersOf s') : s.rtspUri = s'.rtspUri := by
  have hip : s.localIp = s'.localIp := congrArg Members.localIp h
  have hid : s.sessionId = s'.sessionId := congrArg Members.sessionId h
  rw [Sender.rtspUri, Sender.rtspUri, hip, hid]

theorem rtpInfo_congr (h : membersOf s = membersOf s') : rtpInfo s = rtpInfo s' := by
  have hseq : s.seq = s'.seq := congrArg Members.seq h
  have hframes : s.framesSent = s'.framesSent := congrArg Members.framesSent h
  rw [rtpInfo, rtpInfo, Sender.rtptime32, Sender.rtptime32, hseq, hframes]

theorem Extra.congr (h : membersOf s = membersOf s') {header : Octets × Octets}
    (hx : Extra s header) : Extra s' header := by
  have hsession : s.rtspSession = s'.rtspSession := congrArg Members.rtspSession h
  cases hx with
  | session =>
    rw [hsession]
    exact .session
  | rtpInfo =>
    rw [rtpInfo_congr h]
    exact .rtpInfo
  | range => exact .range
  | transport control timing => exact .transport control timing

theorem Content.congr (h : membersOf s = membersOf s') {contentType body : Octets}
    (hc : Content s contentType body) : Content s' contentType body := by
  have hid : s.sessionId = s'.sessionId := congrArg Members.sessionId h
  have hlocal : s.localIp = s'.localIp := congrArg Members.localIp h
  have hhost : s.hostIp = s'.hostIp := congrArg Members.hostIp h
  have htitle : s.npTitle = s'.npTitle := congrArg Members.npTitle h
  have halbum : s.npAlbum = s'.npAlbum := congrArg Members.npAlbum h
  have hartist : s.npArtist = s'.npArtist := congrArg Members.npArtist h
  have hcover : s.npCover = s'.npCover := congrArg Members.npCover h
  have hmime : s.npCoverMime = s'.npCoverMime := congrArg Members.npCoverMime h
  cases hc with
  | none => exact .none
  | sdp =>
    rw [announceSdp, hid, hlocal, hhost]
    exact .sdp
  | volume dbfs => exact .volume dbfs
  | metadata =>
    rw [dmapInner, htitle, halbum, hartist]
    exact .metadata
  | cover hlen =>
    rw [hmime, hcover]
    exact .cover (hcover ▸ hlen)

/-- So a request composed for one sender is composed for every sender with the same members: a
request may be composed before a method that leaves the wire alone, and sent after it. -/
theorem Composed.congr (h : membersOf s = membersOf s') {method uri contentType body : Octets}
    {extra : List (Octets × Octets)} (hc : Composed s method uri contentType body extra) :
    Composed s' method uri contentType body extra where
  known := hc.known
  target := rtspUri_congr h ▸ hc.target
  content := hc.content.congr h
  extras := fun x hx => (hc.extras x hx).congr h
  record := fun hm => rtpInfo_congr h ▸ hc.record hm

end Members

section Requests

variable [Primitives] {Ok : Action → Prop} {w : World} {β : Type} {P : β → World → Prop}

/-- Queueing a request. -/
theorem enqueue_bind {method text : Octets} {isHttp : Bool} {f : Unit → M β}
    (h : Built (membersOf w.s) method isHttp text)
    (hrecord : method = ascii "RECORD" → isHttp = false → (wireOf w).Recording)
    (hf : ∀ w', membersOf w'.s = membersOf w.s → Acts Ok w' (f ()) P) :
    Acts Ok w (enqueue method isHttp text >>= f) P := by
  have hrun : (enqueue method isHttp text >>= f) w = f () { w with
      s := { w.s with
        cseq := wrap32 (w.s.cseq + 1)
        pendingMethods := w.s.pendingMethods ++ [method]
        pendingIsHttp := w.s.pendingIsHttp ++ [isHttp] }
      out := .requested w.s.cseq method isHttp text :: w.out } := rfl
  exact Within.advance hrun (.act (.request (wireOf w) w.s.cseq h hrecord) rfl) (hf _ rfl)

omit [Primitives] in
theorem members_of_wire {w w' : World} (h : wireOf w' = wireOf w) :
    membersOf w'.s = membersOf w.s := congrArg Wire.toMembers h

omit [Primitives] in
theorem state_of_wire {w w' : World} (h : wireOf w' = wireOf w) : w'.s.state = w.s.state :=
  congrArg (fun c : Wire => c.state) h

/-- A request is one act: it is queued, written, and the timeout is armed while the session is still
being set up.  `RECORD` may only go out where the protocol is ready for it. -/
theorem sendRequest_acts {method uri contentType body : Octets} {extra : List (Octets × Octets)}
    (h : Composed w.s method uri contentType body extra)
    (hrecord : method = ascii "RECORD" → (wireOf w).Recording) :
    Acts Ok w (sendRequest method uri contentType body extra) fun _ w' =>
      membersOf w'.s = membersOf w.s := by
  refine Within.sender (enqueue_bind (.rtsp rfl h) (fun hm _ => hrecord hm) fun w₁ h₁ => ?_)
  refine Tacit.acts_bind (Tacit.writeRtsp _) fun _ w₂ h₂ => Within.sender ?_
  have hsame := (members_of_wire h₂).trans h₁
  refine Within.when (fun _ => ?_) fun _ => hsame
  exact (arm_acts _).mono fun _ _ h₃ => (members_of_wire h₃).trans hsame

/-- A request that is no RECORD. -/
theorem sendOther_acts {method uri contentType body : Octets} {extra : List (Octets × Octets)}
    (h : Composed w.s method uri contentType body extra) (hm : method ≠ ascii "RECORD") :
    Acts Ok w (sendRequest method uri contentType body extra) fun _ w' =>
      membersOf w'.s = membersOf w.s := sendRequest_acts h fun heq => absurd heq hm

/-- The same for the requests of the pairing, which are HTTP. -/
theorem httpPost_acts {uri contentType body : Octets}
    (h : Built (membersOf w.s) (ascii "POST") true (httpText w.s uri contentType body)) :
    Acts Ok w (httpPost uri contentType body) fun _ w' => membersOf w'.s = membersOf w.s := by
  refine Within.sender (enqueue_bind h (fun hm => absurd hm (by decide)) fun w₁ h₁ => ?_)
  refine Tacit.acts_bind (Tacit.writeRtsp _) fun _ w₂ h₂ => Within.sender ?_
  have hsame := (members_of_wire h₂).trans h₁
  refine Within.when (fun _ => ?_) fun _ => hsame
  exact (arm_acts _).mono fun _ _ h₃ => (members_of_wire h₃).trans hsame

/-- The same for the requests of AirPlay 2, behind which the timeout is always armed. -/
theorem sendAp2Rtsp_acts {method uri contentType body : Octets}
    (h : Built (membersOf w.s) method true (ap2Text w.s method uri contentType body)) :
    Acts Ok w (sendAp2Rtsp method uri contentType body) fun _ w' =>
      membersOf w'.s = membersOf w.s := by
  refine Within.sender (enqueue_bind h (fun _ hhttp => nomatch hhttp) fun w₁ h₁ => ?_)
  refine Tacit.acts_bind (Tacit.writeRtsp _) fun _ w₂ h₂ => ?_
  exact (arm_acts _).mono fun _ _ h₃ => (members_of_wire h₃).trans ((members_of_wire h₂).trans h₁)

omit [Primitives] in
theorem extra_session {s : Sender} : ∀ h ∈ sessionHeader s, Extra s h := by
  intro h hh
  unfold sessionHeader at hh
  split at hh
  · cases hh
  · rw [List.mem_singleton.mp hh]
    exact .session

/-- The titles, and the cover where there is one, go out as `SET_PARAMETER`. -/
theorem sendMetadata_acts :
    Acts Ok w sendMetadata fun _ w' => membersOf w'.s = membersOf w.s := by
  refine Within.sender (Within.ite (fun _ => Within.pure rfl) fun _ => ?_)
  refine Within.ite (fun _ => Within.pure rfl) fun _ => ?_
  have hextra : ∀ h ∈ sessionHeader w.s ++ [(ascii "RTP-Info", rtpInfo w.s)], Extra w.s h := by
    intro h hh
    rcases List.mem_append.mp hh with hh | hh
    · exact extra_session h hh
    · rw [List.mem_singleton.mp hh]
      exact .rtpInfo
  have hsend {contentType body : Octets} (hcontent : Content w.s contentType body) :
      Composed w.s (ascii "SET_PARAMETER") w.s.rtspUri contentType body
        (sessionHeader w.s ++ [(ascii "RTP-Info", rtpInfo w.s)]) :=
    ⟨by decide, by simp, hcontent, hextra, fun h => absurd h (by decide)⟩
  refine Within.bind (Within.when (fun _ => sendOther_acts (hsend .metadata) (by decide)) fun _ => rfl)
    fun _ w₁ h₁ => ?_
  refine Within.when (fun hcover => ?_) fun _ => h₁
  refine (sendOther_acts ((hsend (.cover hcover.2)).congr h₁.symm) (by decide)).mono fun _ _ h₂ => ?_
  exact h₂.trans h₁

end Requests

/-! ## 5. Lifecycle -/

/-- Whatever the application does in a callback is acts. -/
def Heeds [Primitives] [Host] (Ok : Action → Prop) : Prop :=
  ∀ e w, Acts Ok w (Host.fire e) fun _ _ => True

section Lifecycle

variable [Primitives] [Host] {Ok : Action → Prop} {w : World}

omit [Primitives] [Host] in
/-- Releasing the sockets closes the event connection, and the datagram sockets if they are bound. 
It always goes through, so callers may take it as one assignment. -/
theorem releaseSockets_wire (w : World) :
    ∃ w', releaseSockets w = (.ok (), w') ∧ wireOf w' = { wireOf w with
      udpBound := false
      log := releaseEntries (wireOf w).udpBound ++ (wireOf w).log } ∧ pulseOf w' = pulseOf w := by
  unfold releaseSockets
  rw [sender_bind]
  have hbound : (wireOf w).udpBound = w.s.udpBound := rfl
  rw [hbound]
  cases hb : w.s.udpBound with
  | true => exact ⟨_, rfl, rfl, rfl⟩
  | false =>
    refine ⟨_, rfl, ?_, rfl⟩
    have hmembers : membersOf { w.s with localControlPort := 0, localTimingPort := 0 } =
        { membersOf w.s with udpBound := false } := by
      rw [← hb]
      rfl
    have hm := hmembers
    simp only [wireOf, hm]
    rfl

/-- Telling the application is callbacks, and whatever they do. -/
theorem reportEnd_acts (hfire : Heeds Ok) (wasStarting : Bool) (why : Octets) :
    Acts Ok w (reportEnd wasStarting why) fun _ _ => True := by
  refine Tacit.acts_bind (Overlooks.emit rfl) fun _ w₁ _ => ?_
  refine Within.bind (Within.when (fun _ => hfire _ _) fun _ => trivial) fun _ w₂ _ => ?_
  exact Tacit.acts_bind (Overlooks.emit rfl) fun _ w₃ _ => hfire _ _

omit [Primitives] in
/-- **A session that fails is over before the application hears of it**: the members, the sockets
and the timers are done with in one move, and `reportEnd` is all that is left. -/
theorem fail_wire (why : Octets) (w : World) :
    ∃ w₁, fail why w = reportEnd (w.s.state ≠ .streaming) why w₁ ∧
      wireOf w₁ = (wireOf w).finished [.tcpClose .control false] w.s.backlog w.s.backlogSeq ∧
      pulseOf w₁ = (pulseOf w).stopped := by
  obtain ⟨w₁, hrun, hwire, hpulse⟩ := releaseSockets_wire { w with
    s := { w.s.ended with rtspConnected := false }
    out := .tcpClose .control false :: .ending w.s.state w.s.waitingForPin false :: w.out }
  refine ⟨w₁, ?_, hwire, hpulse.trans (pulseOf_stopTimers rfl rfl)⟩
  have hclose : fail why w = (releaseSockets >>= fun _ =>
      reportEnd (w.s.state ≠ .streaming) why) { w with
        s := { w.s.ended with rtspConnected := false }
        out := .tcpClose .control false :: .ending w.s.state w.s.waitingForPin false :: w.out } := rfl
  rw [hclose, bind_ok hrun]

/-- Failing is one act and one beat, and the callbacks behind them. -/
theorem fail_acts (hfire : Heeds Ok) (why : Octets) : Acts Ok w (fail why) fun _ _ => True := by
  obtain ⟨w₁, hfail, hwire, hpulse⟩ := fail_wire why w
  refine Within.advance hfail ⟨.inr ?_, ?_⟩ (reportEnd_acts hfire _ why)
  · rw [hwire]
    exact .fail (wireOf w)
  · rw [hpulse]
    exact .single .still

/-- A connection that does not come about ends the session if it is the control connection. -/
theorem onTcpConnectFailed_acts (hfire : Heeds Ok) (ch : Tcp) (reason : Octets) :
    Acts Ok w (onTcpConnectFailed ch reason) fun _ _ => True := by
  cases ch with
  | event => exact Within.pure trivial
  | control => exact Within.sender (Within.ite (fun _ => fail_acts hfire _) fun _ => Within.pure trivial)

/-- Opening a connection is one act.  A connection that fails at once is reported before the call
returns. -/
theorem tcpConnect_acts (hfire : Heeds Ok) (ch : Tcp) (host : Octets) (port : UInt16)
    (hlive : w.s.state ≠ .idle) (hport : ch = .event → port ≠ 0 ∧ port = eventPortOf w.s) :
    Acts Ok w (tcpConnect ch host port) fun _ _ => True := by
  refine Within.modify_bind (.act (.connect (wireOf w) ch host port hlive hport) rfl) ?_
  refine Tacit.acts_bind (Overlooks.ask fun _ => rfl) fun failure w₁ _ => ?_
  cases failure with
  | none => exact Within.pure trivial
  | some reason => exact onTcpConnectFailed_acts hfire ch reason

omit [Host] in
/-- `stop` leaves the sender idle. -/
theorem stop_acts : Acts Ok w stop fun _ w' => w'.s.state = .idle := by
  refine Within.sender (Within.ite (fun hidle => ?_) fun _ => ?_)
  · exact (Tacit.acts (Overlooks.emit rfl)).mono fun _ _ h => (state_of_wire h).trans hidle
  refine Within.bind (Q := fun _ w₁ => wireOf w₁ = wireOf w)
    (Within.modify (.beat rfl (pulseOf_stopTimers rfl rfl ▸ .still)) rfl) fun _ w₁ h₁ => ?_
  have hsame : membersOf w.s = membersOf w₁.s := (members_of_wire h₁).symm
  have htear : Composed w₁.s (ascii "TEARDOWN") w.s.rtspUri [] [] (sessionHeader w.s) := by
    refine Composed.congr hsame ⟨by decide, by simp, .none, extra_session, ?_⟩
    exact fun h => absurd h (by decide)
  refine Within.bind (Q := fun _ _ => True) ?_ fun _ w₂ _ => ?_
  · refine Within.when (fun _ => ?_) fun _ => trivial
    exact (sendOther_acts htear (by decide)).mono fun _ _ _ => trivial
  -- everything behind the TEARDOWN is one act
  obtain ⟨w₃, hrun, hwire, hpulse⟩ := releaseSockets_wire { w₂ with
    s := { w₂.s with state := .idle, rtspConnected := false }
    out := .tcpClose .control true :: w₂.out }
  refine Within.advance (v := { w₃ with s := w₃.s.clearBacklog, out := .stopped :: w₃.out })
    (n := Prog.pure ()) ?_ (.act ?_ hpulse) (Within.pure ?_)
  · have hclose : ((do
        setS fun s => { s with state := .idle }
        emit (.tcpClose .control true)
        setS fun s => { s with rtspConnected := false }
        releaseSockets
        setS Sender.clearBacklog
        emit .stopped : M Unit)) w₂ = (releaseSockets >>= fun _ => do
          setS Sender.clearBacklog
          emit .stopped) { w₂ with
            s := { w₂.s with state := .idle, rtspConnected := false }
            out := .tcpClose .control true :: w₂.out } := rfl
    rw [hclose, bind_ok hrun]
    rfl
  · have hcleared : wireOf { w₃ with s := w₃.s.clearBacklog, out := .stopped :: w₃.out } =
        { wireOf w₃ with backlog := fun _ => [], backlogSeq := fun _ => -1 } := rfl
    rw [hcleared, hwire]
    exact .stop (wireOf w₂)
  · have hstate : (wireOf w₃).state = .idle := by rw [hwire]; rfl
    exact hstate

omit [Primitives] [Host] in
/-- The block of `start` from the draw of the sequence number on: nothing in it can fail before the
sockets are there, or are released again. -/
theorem bind_run_start (seq : UInt16) (good bad : M Unit) (w : World) :
    ∃ (p : Ports) (w' : World),
      wireOf w' = (wireOf w).begun seq w.s.authMethod w.s.airplay2 w.s.strictAuth p ∧
      pulseOf w' = ({ pulseOf w with inBuf := [], srcPhase := 0 }.adds
        [.started w.s.authMethod w.s.airplay2 w.s.strictAuth]) ∧
      (do
        setS fun s => { s with seq := seq }
        let s ← sender
        setAndEmit freshSession (.started s.authMethod s.airplay2 s.strictAuth)
        let timingPort ← udpBind .timing
        setS fun s => { s with localTimingPort := timingPort }
        let controlPort ← udpBind .control
        setS fun s => { s with localControlPort := controlPort }
        let audioPort ← udpBind .audio
        setS fun s => { s with udpBound := true }
        if timingPort = 0 ∨ controlPort = 0 ∨ audioPort = 0 then
          releaseSockets
          bad
        else
          setS fun s => { s with state := .connecting, rtspConnected := false }
          good) w = (if p.good then good else bad) w' := by
  obtain ⟨p, hp⟩ : ∃ p : Ports,
      p = ⟨w.env.binds.head, w.env.binds.tail.head, w.env.binds.tail.tail.head⟩ := ⟨_, rfl⟩
  -- up to the test of the ports nothing depends on them
  obtain ⟨w₁, hwire, hpulse, hrun⟩ : ∃ w₁,
      wireOf w₁ = { (wireOf w).begun seq w.s.authMethod w.s.airplay2 w.s.strictAuth p with
        state := w.s.state
        udpBound := true
        log := bindEntries w.s.authMethod w.s.airplay2 w.s.strictAuth p ++ (wireOf w).log } ∧
      pulseOf w₁ = ({ pulseOf w with inBuf := [], srcPhase := 0 }.adds
        [.started w.s.authMethod w.s.airplay2 w.s.strictAuth]) ∧
      ∀ tail : UInt16 → UInt16 → UInt16 → M Unit, (do
        setS fun s => { s with seq := seq }
        let s ← sender
        setAndEmit freshSession (.started s.authMethod s.airplay2 s.strictAuth)
        let timingPort ← udpBind .timing
        setS fun s => { s with localTimingPort := timingPort }
        let controlPort ← udpBind .control
        setS fun s => { s with localControlPort := controlPort }
        let audioPort ← udpBind .audio
        setS fun s => { s with udpBound := true }
        tail timingPort controlPort audioPort) w = tail p.timing p.control p.audio w₁ := by
    subst hp
    exact ⟨_, rfl, rfl, fun _ => rfl⟩
  have hrun := hrun fun timingPort controlPort audioPort =>
    if timingPort = 0 ∨ controlPort = 0 ∨ audioPort = 0 then releaseSockets >>= fun _ => bad
    else setS (fun s => { s with state := .connecting, rtspConnected := false }) >>= fun _ => good
  refine ⟨p, ?_⟩
  by_cases hbad : p.timing = 0 ∨ p.control = 0 ∨ p.audio = 0
  · have hgood : p.good = false := by
      unfold Ports.good
      rcases hbad with h | h | h <;> simp [h]
    obtain ⟨w₂, hrelease, hwire₂, hpulse₂⟩ := releaseSockets_wire w₁
    refine ⟨w₂, ?_, hpulse₂.trans hpulse, ?_⟩
    · rw [hwire₂, hwire]
      simp only [Wire.begun, hgood]
      rfl
    · refine hrun.trans ?_
      rw [if_pos hbad, bind_ok hrelease, hgood]
      rfl
  · have hgood : p.good = true := by
      rw [not_or, not_or] at hbad
      simp [Ports.good, hbad]
    refine ⟨{ w₁ with s := { w₁.s with state := .connecting, rtspConnected := false } }, ?_,
      hpulse, ?_⟩
    · have hset : wireOf { w₁ with s := { w₁.s with state := .connecting, rtspConnected := false } } =
          { wireOf w₁ with state := .connecting } := rfl
      rw [hset, hwire]
      simp only [Wire.begun, hgood]
      rfl
    · refine hrun.trans ?_
      rw [if_neg hbad, hgood]
      rfl

/-- `start` ends what is there, draws the numbers of the session, and begins it in one act.  Until
then the sender is idle. -/
theorem start_acts (hfire : Heeds Ok) (host : Octets) (port : UInt16) (name : Octets) :
    Acts Ok w (start host port name) fun _ _ => True := by
  refine Within.bind stop_acts fun _ w₁ hidle₁ => ?_
  refine Within.modify_bind (.act (.blank (wireOf w₁)) rfl) ?_
  -- the numbers: each is drawn and assigned, and the sender is idle all the while
  refine Tacit.acts_bind Overlooks.rand32 fun sessionId w₂ h₂ => ?_
  have hidle₂ : (wireOf w₂).state = .idle := by rw [h₂]; exact hidle₁
  refine Within.modify_bind (.act (.number (wireOf w₂) sessionId hidle₂) rfl) ?_
  refine Tacit.acts_bind Overlooks.rand64 fun dacp w₃ h₃ => ?_
  have hidle₃ : (wireOf w₃).state = .idle := by rw [h₃]; exact hidle₂
  refine Within.modify_bind (.act (.dacp (wireOf w₃) dacp) rfl) ?_
  refine Tacit.acts_bind Overlooks.rand32 fun activeRemote w₄ h₄ => ?_
  have hidle₄ : (wireOf w₄).state = .idle := by rw [h₄]; exact hidle₃
  refine Tacit.acts_bind (Overlooks.setS fun _ => rfl) fun _ w₅ h₅ => ?_
  have hidle₅ : (wireOf w₅).state = .idle := by rw [h₅]; exact hidle₄
  refine Tacit.acts_bind Overlooks.rand16 fun seq w₆ h₆ => ?_
  have hidle₆ : (wireOf w₆).state = .idle := by rw [h₆]; exact hidle₅
  -- the sockets and the beginning of the session are one act and one beat
  obtain ⟨p, w₇, h₇, hpulse₇, hrun⟩ := bind_run_start seq
    (arm .timeout >>= fun _ => tcpConnect .control host port)
    (Host.fire (.launched false (ascii "Could not bind UDP sockets"))) w₆
  have hbegin : Deeds Ok w₆ w₇ := by
    refine ⟨.inr ?_, .single ?_⟩
    · rw [h₇]
      exact .begin (wireOf w₆) seq _ _ _ p hidle₆
    · rw [hpulse₇]
      exact .begin _ _ _
  refine Within.advance hrun hbegin (Within.ite (fun hp => ?_) fun _ => hfire _ _)
  have hstate : (wireOf w₇).state = .connecting := by
    rw [h₇, Wire.begun, hp]
    rfl
  refine Within.bind (arm_acts _) fun _ w₈ h₈ => ?_
  refine tcpConnect_acts hfire .control host port (fun hidle => ?_) fun h => by cases h
  have hstate₈ : (wireOf w₈).state = .connecting := by rw [h₈]; exact hstate
  exact absurd (hidle.symm.trans hstate₈) (by decide)

end Lifecycle

/-! ## 6. The stream

`startStreaming` is the longest piece that has to be one act: a world between its assignments is no
world the protocol knows, since the volume it sends and the sync packet it begins with depend on
ports and defaults assigned a few lines before.  So its pieces are run first (`enter_run`,
`firstSync_run`, `conveys_run`), and the act is read off the world behind them. -/

section Streaming

variable [Primitives] {Ok : Action → Prop} {w : World}

/-- A packet that goes out, once its payload is there. -/
theorem packet_act {v : World} {samples : List Int16} {payload : Octets}
    (hst : w.s.state = .streaming) (hsamples : samples.length = 704)
    (hkey : ∀ key nonce, (membersOf w.s).sealing = some (key, nonce) → key.length = 32)
    (hpayload : (membersOf w.s).payload samples = payload)
    (hwire : wireOf v = { wireOf w with audio := (wireOf w).audio.map nextNonce }) (dest : Endpoint) :
    Act Ok (wireOf w) (wireOf { v with
      s := keepPacket (rtpHeader w.s ++ payload) v.s
      out := .udpSend .audio dest (rtpHeader w.s ++ payload) :: v.out }) := by
  have hact : Act Ok _ _ := .packet (wireOf w) dest samples hst hsamples hkey
  have hpacket : (wireOf w).packet samples = rtpHeader w.s ++ payload := by
    rw [← hpayload]
    rfl
  rw [hpacket] at hact
  have hkeep : wireOf { v with
      s := keepPacket (rtpHeader w.s ++ payload) v.s
      out := .udpSend .audio dest (rtpHeader w.s ++ payload) :: v.out } = { wireOf v with
      backlog := Function.update (wireOf v).backlog (slotOf (wireOf v).seq) (rtpHeader w.s ++ payload)
      backlogSeq := Function.update (wireOf v).backlogSeq (slotOf (wireOf v).seq)
        (wireOf v).seq.toNat
      firstAudio := false
      seq := (wireOf v).seq + 1
      framesSent := (wireOf v).framesSent + 352
      log := .udpSend .audio dest (rtpHeader w.s ++ payload) :: (wireOf v).log } := rfl
  rw [hkeep, hwire]
  exact hact

/-- A packet that goes out in the clear. -/
theorem plain_payload {s : Sender} (h : s.ap2 = none ∨ ∃ a, s.ap2 = some a ∧ a.encryptAudio = false)
    (samples : List Int16) :
    (membersOf s).sealing = none ∧ (membersOf s).payload samples = audioPayload s samples ∧
      audioPayload s samples = (samples.flatMap fun x => beBytes 2 (sampleBits x)) ∧
      (membersOf s).audio.map nextNonce = (membersOf s).audio := by
  have hsealing : (membersOf s).sealing = none := by
    rcases h with h | ⟨a, h, hoff⟩
    · simp [Members.sealing, membersOf, h]
    · simp [Members.sealing, membersOf, h, audioOf, hoff]
  refine ⟨hsealing, ?_, ?_, ?_⟩
  · rcases h with h | ⟨a, h, hoff⟩
    · simp [Members.payload, hsealing, audioPayload, h]
    · simp [Members.payload, hsealing, audioPayload, h, hoff]
  · rcases h with h | ⟨a, h, hoff⟩
    · simp [audioPayload, h]
    · simp [audioPayload, h, hoff]
  · rcases h with h | ⟨a, h, hoff⟩
    · simp [membersOf, h]
    · simp [membersOf, h, audioOf, nextNonce, hoff]

/-- **A packet is one act and one beat**; where its key is refused, the beat alone. -/
theorem sendAudioPacket_acts (hst : w.s.state = .streaming) :
    Acts Ok w sendAudioPacket fun _ w' => w'.s.state = .streaming := by
  -- the frames leave the ring first: the wire does not see it, the beat of the packet has them
  obtain ⟨samples, w₁, hfill, hsamples, -⟩ := fillFrames_run framesPerPacket w
  have h₁ : wireOf w₁ = wireOf w := by
    have hfixed := wire_of_view (Overlooks.fillFrames wire_deaf framesPerPacket w)
    rwa [hfill] at hfixed
  have hst₁ : w₁.s.state = .streaming := (state_of_wire h₁).trans hst
  have hheader : (rtpHeader w₁.s).length = 12 := by simp [rtpHeader]
  -- in the clear, with a key, or with a key that the cipher refuses
  by_cases hplain : w₁.s.ap2 = none ∨ ∃ a, w₁.s.ap2 = some a ∧ a.encryptAudio = false
  · obtain ⟨hsealing, hpayload, hclear, haudio⟩ := plain_payload hplain samples
    have hencrypt : encryptAudioPayload (rtpHeader w₁.s) (audioPayload w₁.s samples) w₁ =
        (.ok (audioPayload w₁.s samples), w₁) := by
      unfold encryptAudioPayload
      rw [sender_bind]
      rcases hplain with hnone | ⟨a, hsome, hoff⟩
      · simp only [hnone]
        rfl
      · simp only [hsome, hoff]
        rfl
    have hwire : wireOf w₁ = { wireOf w₁ with audio := (wireOf w₁).audio.map nextNonce } := by
      rw [show (wireOf w₁).audio = (membersOf w₁.s).audio from rfl, haudio]
      rfl
    have hact := @packet_act _ Ok _ w₁ _ _ hst₁ hsamples
      (fun key nonce h => absurd (hsealing.symm.trans h) nofun) hpayload hwire
      ⟨w₁.s.hostIp, w₁.s.serverPort⟩
    rw [h₁] at hact
    have hsent : Sent samples [.udpSend .audio ⟨w₁.s.hostIp, w₁.s.serverPort⟩
        (rtpHeader w₁.s ++ audioPayload w₁.s samples)] := by
      rw [hclear]
      exact .plain _ _ hheader
    refine Within.advance (n := Prog.pure ()) ?_ ⟨.inr hact, .single (.play rfl hfill hsent)⟩
      (Within.pure hst₁)
    unfold sendAudioPacket
    rw [bind_ok hfill, sender_bind, bind_ok hencrypt]
    rfl
  · obtain ⟨a, ha, hon⟩ : ∃ a, w₁.s.ap2 = some a ∧ a.encryptAudio = true := by
      rw [not_or] at hplain
      obtain ⟨a, ha⟩ := Option.ne_none_iff_exists'.mp hplain.1
      exact ⟨a, ha, by simpa using fun hoff => hplain.2 ⟨a, ha, hoff⟩⟩
    have hsealing : (membersOf w₁.s).sealing = some (a.audioKey, a.audioNonce) := by
      simp [Members.sealing, membersOf, ha, audioOf, hon]
    have haudio : audioPayload w₁.s samples = encodeAlacFrame samples := by
      simp [audioPayload, ha, hon]
    by_cases hlen : a.audioKey.length = 32
    · have hseal := @seal_run _ .audio a.audioKey (counterNonce8 a.audioNonce)
        (encodeAlacFrame samples) (((rtpHeader w₁.s).drop 4).take 8) hlen w₁
      have hencrypt : encryptAudioPayload (rtpHeader w₁.s) (encodeAlacFrame samples) w₁ =
          (.ok ((membersOf w₁.s).payload samples), { w₁ with
            s := { w₁.s with ap2 := some { a with audioNonce := a.audioNonce + 1 } }
            out := .sealed .audio a.audioKey (counterNonce8 a.audioNonce)
              (((rtpHeader w₁.s).drop 4).take 8) (encodeAlacFrame samples) :: w₁.out }) := by
        unfold encryptAudioPayload
        rw [sender_bind]
        simp only [ha, hon]
        rw [if_neg (by decide), bind_ok hseal]
        simp [ap2Set, ap2Get, sender, setS, bind_run, ha, Members.payload, hsealing]
        exact ⟨rfl, hon⟩
      have hact := @packet_act _ Ok _ { w₁ with
          s := { w₁.s with ap2 := some { a with audioNonce := a.audioNonce + 1 } }
          out := .sealed .audio a.audioKey (counterNonce8 a.audioNonce)
            (((rtpHeader w₁.s).drop 4).take 8) (encodeAlacFrame samples) :: w₁.out }
        samples _ hst₁ hsamples ?_ rfl ?_ ⟨w₁.s.hostIp, w₁.s.serverPort⟩
      · rw [h₁] at hact
        have hsent := @Sent.sealed _ samples ⟨w₁.s.hostIp, w₁.s.serverPort⟩
          (rtpHeader w₁.s) a.audioKey a.audioNonce hheader hlen
        have hpayload : (membersOf w₁.s).payload samples = chachaSeal a.audioKey
            (counterNonce8 a.audioNonce) (encodeAlacFrame samples)
            (((rtpHeader w₁.s).drop 4).take 8) ++ counterNonce8 a.audioNonce := by
          simp only [Members.payload, hsealing]
          rfl
        rw [← hpayload] at hsent
        refine Within.advance (n := Prog.pure ()) ?_ ⟨.inr hact, .single (.play rfl hfill hsent)⟩
          (Within.pure hst₁)
        unfold sendAudioPacket
        rw [bind_ok hfill, sender_bind, haudio, bind_ok hencrypt]
        rfl
      · intro key nonce h
        obtain ⟨rfl, -⟩ := Prod.mk.inj (Option.some.inj (hsealing.symm.trans h))
        exact hlen
      · have hnext : (wireOf w₁).audio.map nextNonce = some (a.audioKey, a.audioNonce + 1, true) := by
          simp [wireOf, membersOf, ha, audioOf, nextNonce, hon]
        rw [hnext]
        simp only [wireOf, membersOf, eventPortOf, ha, List.filter_cons, Entry.wired, Option.map_some,
          audioOf, hon]
        rfl
    · have hrefuse : encryptAudioPayload (rtpHeader w₁.s) (encodeAlacFrame samples) w₁ =
          (.error (.runtimeError (ascii "chacha key size")),
            { w₁ with out := .keyRefused .audio :: w₁.out }) := by
        unfold encryptAudioPayload
        rw [sender_bind]
        simp only [ha, hon]
        rw [if_neg (by decide)]
        refine bind_error ?_
        unfold chacha20Poly1305Encrypt
        rw [if_pos hlen]
        rfl
      refine Within.advance (v := { w₁ with out := .keyRefused .audio :: w₁.out })
        (n := Prog.raise (.runtimeError (ascii "chacha key size"))) ?_
        (.beat h₁ (.play rfl hfill .refused)) Within.raise
      unfold sendAudioPacket
      rw [bind_ok hfill, sender_bind, haudio, bind_error hrefuse]
      rfl

/-- Packets as long as some are due.  Each leaves the session streaming, which is what the next one
needs. -/
theorem pacerLoop_acts (target : UInt64) :
    ∀ (n : ℕ) {w : World}, w.s.state = .streaming → Acts Ok w (pacerLoop target n) fun _ _ => True
  | 0, _, _ => Within.pure trivial
  | n + 1, _, hst => by
    refine Within.sender (Within.when (fun _ => ?_) fun _ => trivial)
    exact Within.bind (sendAudioPacket_acts hst) fun _ _ hst₁ => pacerLoop_acts target n hst₁

theorem onPacerTick_acts (hst : w.s.state = .streaming) :
    Acts Ok w onPacerTick fun _ _ => True := by
  refine Within.bind now_acts fun n w₁ h₁ => Within.sender ?_
  exact pacerLoop_acts _ _ ((congrArg (fun c : Wire => c.state) h₁).trans hst)

/-- A sync packet, where the ports for it are known. -/
theorem sendSyncPacket_acts (first : Bool) (hst : w.s.state = .streaming) :
    Acts Ok w (sendSyncPacket first) fun _ w' => membersOf w'.s = membersOf w.s := by
  refine Within.sender (Within.ite (fun _ => Within.pure rfl) fun _ => ?_)
  refine Within.modify (.act ?_ rfl) rfl
  exact .sync (wireOf w) ⟨w.s.hostIp, w.s.controlPort⟩ (if first then 0x90 else 0x80) hst

/-- A packet that is asked for again goes back to whoever asked. -/
theorem retransmit_acts (source : Endpoint) (seq : UInt16) :
    Acts Ok w (retransmit source seq) fun _ _ => True := by
  refine Within.sender (Within.ite (fun _ => Within.pure trivial) fun _ => ?_)
  exact Within.modify (.act (.reply (wireOf w) .control source _ ⟨nofun, fun _ => rfl⟩) rfl) trivial

theorem onControlDatagram_acts (dg : Octets) (source : Endpoint) :
    Acts Ok w (onControlDatagram dg source) fun _ _ => True := by
  refine Within.ite (fun _ => Within.pure trivial) fun _ => ?_
  refine Within.ite (fun _ => Within.pure trivial) fun _ => ?_
  exact Within.each (fun i w _ => retransmit_acts source _) _ w trivial

/-- A timing request is answered with the clock. -/
theorem onTimingDatagram_acts (dg : Octets) (source : Endpoint) :
    Acts Ok w (onTimingDatagram dg source) fun _ _ => True := by
  refine Within.ite (fun _ => Within.pure trivial) fun _ => ?_
  refine Tacit.acts_bind Overlooks.ntpNow fun n w₁ _ => ?_
  exact Within.modify (.act (.reply (wireOf w₁) .timing source _ ⟨nofun, nofun⟩) rfl) trivial

/-- The feedback timer gets the interval of the protocol.  With AirPlay 2 it is armed; in the older
protocol a first request goes out instead. -/
theorem startFeedback_acts :
    Acts Ok w startFeedback fun _ w' => membersOf w'.s = membersOf w.s := by
  refine Within.sender (Within.ite (fun _ => ?_) fun _ => ?_)
  · refine Within.bind (setTimer_acts (f := id) (fun _ => rfl) fun _ =>
      .retime .feedbackTimer 2000 (by decide) (by decide)) fun _ w₁ h₁ => ?_
    exact (arm_acts _).mono fun _ _ h₂ => (members_of_wire h₂).trans (members_of_wire h₁)
  · refine Within.bind (setTimer_acts (f := id) (fun _ => rfl) fun _ =>
      .retime .feedbackTimer 25000 (by decide) (by decide)) fun _ w₁ h₁ => ?_
    refine (sendOther_acts ⟨by decide, by simp, .none, by simp, fun h => absurd h (by decide)⟩
      (by decide)).mono fun _ _ h₂ => h₂.trans (members_of_wire h₁)

omit [Primitives] in
/-- The first assignments of the stream: nothing between them can fail. -/
theorem enter_run (rest : M Unit) (w : World) : ∃ ntp w₁,
    wireOf w₁ = (wireOf w).entering ntp w.s.serverPort w.s.controlPort w.s.pendingVolumeDb ∧
    pulseOf w₁ = (pulseOf w).setTimer (fun x => { x with active := false }) .timeout ∧
    (do
      setAndEmit (fun s => ({ s with state := .streaming } : Sender).disarm .timeout) .entered
      let ntp ← ntpNow
      setS fun s => { s with startTs := ntp2ts ntp raopRate, framesSent := 0, firstAudio := true }
      rest) w = rest w₁ := by
  obtain ⟨clock, hclock⟩ : ∃ clock : World → UInt64, ∀ w', ntpNow w' =
      (.ok (clock w'), { w' with env := { w'.env with wall := w'.env.wall.tail } }) :=
    ⟨_, fun _ => rfl⟩
  generalize ntpNow = ntpNow at hclock
  let w₁ : World := { w with
    s := ({ w.s with state := .streaming } : Sender).disarm .timeout, out := .entered :: w.out }
  have hrun : (ntpNow >>= fun ntp => setS (fun s => { s with
      startTs := ntp2ts ntp raopRate, framesSent := 0, firstAudio := true }) >>= fun _ => rest) w₁ =
      rest { w₁ with
        s := { w₁.s with startTs := ntp2ts (clock w₁) raopRate, framesSent := 0, firstAudio := true }
        env := { w₁.env with wall := w₁.env.wall.tail } } := by
    rw [bind_ok (hclock w₁)]
    rfl
  refine ⟨clock w₁, _, rfl, ?_, hrun⟩
  exact Eq.trans rfl (pulseOf_setTimer w (fun x => { x with active := false }) .timeout)

omit [Primitives] in
/-- The default of the volume touches nothing but the volume. -/
theorem membersOf_defaultVolume (s : Sender) : membersOf (defaultVolume s) =
    { membersOf s with pendingVolumeDb := (defaultVolume s).pendingVolumeDb } := by
  unfold defaultVolume
  split <;> rfl

omit [Primitives] in
theorem pending_defaultVolume (s : Sender) : (defaultVolume s).pendingVolumeDb =
    if s.airplay2 ∧ s.pendingVolumeDb ≤ kNoVolume + 1.0 then 0.0 else s.pendingVolumeDb := by
  unfold defaultVolume
  split <;> rfl

omit [Primitives] in
theorem wireOf_defaultVolume (s : Sender) (env : Env) (out : List Entry) :
    wireOf ⟨defaultVolume s, env, out⟩ =
      { wireOf ⟨s, env, out⟩ with pendingVolumeDb := (defaultVolume s).pendingVolumeDb } := by
  simp only [wireOf, membersOf_defaultVolume]

omit [Primitives] in
theorem pulseOf_defaultVolume (s : Sender) (env : Env) (out : List Entry) :
    pulseOf ⟨defaultVolume s, env, out⟩ = pulseOf ⟨s, env, out⟩ := by
  have hbeating : (defaultVolume s).beating = s.beating := by
    unfold defaultVolume
    split <;> rfl
  exact pulse_of_view (View.of_congr hbeating rfl rfl)

omit [Primitives] in
/-- A volume that was asked for is not replaced by the default. -/
theorem defaultVolume_of_asked {s : Sender} (h : kNoVolume + 1.0 < s.pendingVolumeDb) :
    (defaultVolume s).pendingVolumeDb = s.pendingVolumeDb := by
  rw [pending_defaultVolume, if_neg fun hdefault => Float.not_le_of_lt h hdefault.2]

/-- The first sync packet, and the default of the volume. -/
theorem firstSync_run (Ok : Action → Prop) (rest : M Unit) (w : World) : ∃ synced w₁,
    (membersOf w.s).Syncs synced ∧ wireOf w₁ = { wireOf w with
      pendingVolumeDb := (defaultVolume w.s).pendingVolumeDb, log := synced ++ (wireOf w).log } ∧
    ReflTransGen (Beat Ok) (pulseOf w) (pulseOf w₁) ∧
    (do
      let n ← now
      setS fun s => { s with clockStart := n }
      sendSyncPacket true
      arm .syncTimer
      setS defaultVolume
      rest) w = rest w₁ := by
  -- the readings are the same whether a sync packet goes out between them or not
  have hbeats {v : World} (hv : pulseOf v = (pulseOf w).read) : ReflTransGen (Beat Ok) (pulseOf w)
      (pulseOf { v with
        s := defaultVolume (v.s.setTimer (fun x => { x with
          due := v.env.steady.head + x.interval * 1000000, active := true }) .syncTimer)
        env := { v.env with steady := v.env.steady.tail }
        out := .armed .syncTimer :: v.out }) := by
    refine .tail (.single .read) ?_
    rw [← hv, pulseOf_defaultVolume]
    refine (pulseOf_setTimer { v with
      env := { v.env with steady := v.env.steady.tail }, out := .armed .syncTimer :: v.out } _ _) ▸ ?_
    exact .arm .syncTimer
  by_cases hno : w.s.serverPort = 0 ∨ w.s.controlPort = 0
  · let w₁ : World := { w with
      s := { w.s with clockStart := w.env.steady.head }
      env := { w.env with steady := w.env.steady.tail } }
    have hsync : sendSyncPacket true w₁ = (.ok (), w₁) := by
      unfold sendSyncPacket
      rw [sender_bind, if_pos hno]
      rfl
    have hrun : (sendSyncPacket true >>= fun _ => do
        arm .syncTimer
        setS defaultVolume
        rest) w₁ = rest { w₁ with
          s := defaultVolume (w₁.s.setTimer (fun x => { x with
            due := w₁.env.steady.head + x.interval * 1000000, active := true }) .syncTimer)
          env := { w₁.env with steady := w₁.env.steady.tail }
          out := .armed .syncTimer :: w₁.out } := by
      rw [bind_ok hsync]
      rfl
    refine ⟨[], _, .inl rfl, ?_, hbeats rfl, hrun⟩
    rw [wireOf_defaultVolume, pending_defaultVolume, pending_defaultVolume]
    rfl
  · let w₁ : World := { w with
      s := { w.s with clockStart := w.env.steady.head }
      env := { w.env with steady := w.env.steady.tail } }
    let w₂ : World := { w₁ with
      out := .udpSend .control ⟨w.s.hostIp, w.s.controlPort⟩ (syncPacket w₁.s true) :: w₁.out }
    have hsync : sendSyncPacket true w₁ = (.ok (), w₂) := by
      unfold sendSyncPacket
      rw [sender_bind, if_neg hno]
      rfl
    have hrun : (sendSyncPacket true >>= fun _ => do
        arm .syncTimer
        setS defaultVolume
        rest) w₁ = rest { w₂ with
          s := defaultVolume (w₂.s.setTimer (fun x => { x with
            due := w₂.env.steady.head + x.interval * 1000000, active := true }) .syncTimer)
          env := { w₂.env with steady := w₂.env.steady.tail }
          out := .armed .syncTimer :: w₂.out } := by
      rw [bind_ok hsync]
      rfl
    refine ⟨[_], _, .inr ⟨⟨w.s.hostIp, w.s.controlPort⟩, 0x90, rfl⟩, ?_, hbeats rfl, hrun⟩
    rw [wireOf_defaultVolume, pending_defaultVolume, pending_defaultVolume]
    rfl

/-- Where the volume is sent, the request is the first thing that happens. -/
theorem conveys_run (Ok : Action → Prop) (p : Prop) [Decidable p] (w : World) : ∃ sent w₁ m,
    (membersOf w.s).Conveys p sent ∧ wireOf w₁ = { wireOf w with log := sent ++ (wireOf w).log } ∧
      pulseOf w₁ = pulseOf w ∧ (Acts Ok w₁ m fun _ _ => True) ∧ Prog.when p (sendVolume w.s.pendingVolumeDb) w = m w₁ := by
  by_cases hp : p
  · obtain ⟨text, htext⟩ : ∃ text, text = rtspText w.s (ascii "SET_PARAMETER") w.s.rtspUri
        (ascii "text/parameters") (ascii "volume: " ++ fixed6 w.s.pendingVolumeDb)
        (sessionHeader w.s) := ⟨_, rfl⟩
    refine ⟨[.requested w.s.cseq (ascii "SET_PARAMETER") false text], { w with
      s := { w.s with
        cseq := wrap32 (w.s.cseq + 1)
        pendingMethods := w.s.pendingMethods ++ [ascii "SET_PARAMETER"]
        pendingIsHttp := w.s.pendingIsHttp ++ [false] }
      out := .requested w.s.cseq (ascii "SET_PARAMETER") false text :: w.out },
      writeRtsp text >>= fun _ => sender >>= fun s =>
        Prog.when (s.state = .handshake ∨ s.state = .pairing) (arm .timeout),
      ⟨fun _ => ⟨_, _, ⟨w.s, rfl, htext⟩, rfl⟩, fun hno => absurd hp hno⟩, rfl, rfl, ?_, ?_⟩
    · refine Tacit.acts_bind (Tacit.writeRtsp text) fun _ w₂ _ => Within.sender ?_
      exact Within.when (fun _ => (arm_acts .timeout).mono fun _ _ _ => trivial) fun _ => trivial
    · rw [Prog.when, if_pos hp, htext]
      rfl
  · refine ⟨[], w, pure (), ⟨fun h => absurd h hp, fun _ => rfl⟩, rfl, rfl, Within.pure trivial, ?_⟩
    rw [Prog.when, if_neg hp]

/-- **The stream begins in one act**: the ports it begins with, the first sync packet, and the volume
where one was asked for or AirPlay 2 has its default. -/
theorem startStreaming_acts [Host] (hfire : Heeds Ok) {m : M Unit} {v : World}
    {serverPort controlPort : UInt16} (hcap : (membersOf w.s).Capped)
    (hports : (wireOf w).Opening serverPort controlPort)
    (hv : wireOf v = { wireOf w with serverPort, controlPort }) (hm : m w = startStreaming v)
    (hpulse : pulseOf v = pulseOf w) :
    Acts Ok w m fun _ _ => True := by
  -- four pieces: the entry, the first sync packet, the volume, and what the timers are armed for
  let volume : M Unit := do
    let s ← sender
    Prog.when (kNoVolume + 1.0 < s.pendingVolumeDb) (sendVolume s.pendingVolumeDb)
    arm .pacer
    startFeedback
    sendMetadata
    Host.fire (.launched true [])
  obtain ⟨ntp, w₁, h₁, hpulse₁, hrun₁⟩ := enter_run (do
    let n ← now
    setS fun s => { s with clockStart := n }
    sendSyncPacket true
    arm .syncTimer
    setS defaultVolume
    volume) v
  obtain ⟨synced, w₂, hsynced, h₂, hpulse₂, hrun₂⟩ := firstSync_run Ok volume w₁
  obtain ⟨sent, w₃, tail, hsent, h₃, hpulse₃, htail, hrun₃⟩ :=
    conveys_run Ok (kNoVolume + 1.0 < w₂.s.pendingVolumeDb) w₂
  have hrun : m w = (tail >>= fun _ => do
      arm .pacer
      startFeedback
      sendMetadata
      Host.fire (.launched true [])) w₃ := by
    refine hm.trans (hrun₁.trans (hrun₂.trans ?_))
    dsimp only [volume]
    rw [sender_bind, bind_run, bind_run, hrun₃]
  have hwire₁ : wireOf w₁ = (wireOf w).entering ntp serverPort controlPort w.s.pendingVolumeDb := by
    have hserver : v.s.serverPort = serverPort := congrArg (fun c : Wire => c.serverPort) hv
    have hcontrol : v.s.controlPort = controlPort := congrArg (fun c : Wire => c.controlPort) hv
    have hpending : v.s.pendingVolumeDb = w.s.pendingVolumeDb :=
      congrArg (fun c : Wire => c.pendingVolumeDb) hv
    rw [h₁, hserver, hcontrol, hpending, hv]
    rfl
  have hpending : w₁.s.pendingVolumeDb = w.s.pendingVolumeDb :=
    congrArg (fun c : Wire => c.pendingVolumeDb) hwire₁
  obtain ⟨dbfs, hdbfs⟩ : ∃ dbfs, dbfs = (defaultVolume w₁.s).pendingVolumeDb := ⟨_, rfl⟩
  rw [← hdbfs, hwire₁] at h₂
  have hwire₂ : membersOf w₂.s = ((wireOf w).entering ntp serverPort controlPort dbfs).toMembers :=
    congrArg Wire.toMembers h₂
  -- the default of the volume is decided on the members that `w` had
  have hact : Act Ok (wireOf w) (wireOf w₃) := by
    rw [h₃, h₂]
    refine .enter (wireOf w) ntp hcap hports (fun hasked => ?_) ?_ ?_
    · rw [hdbfs, defaultVolume_of_asked (by rw [hpending]; exact hasked), hpending]
      rfl
    · have hmembers₁ : membersOf w₁.s =
          ((wireOf w).entering ntp serverPort controlPort w.s.pendingVolumeDb).toMembers :=
        congrArg Wire.toMembers hwire₁
      rw [hmembers₁] at hsynced
      exact hsynced
    · have hvalue : w₂.s.pendingVolumeDb = dbfs := congrArg Members.pendingVolumeDb hwire₂
      rw [hvalue, hwire₂] at hsent
      exact hsent
  have hbeats : ReflTransGen (Beat Ok) (pulseOf w) (pulseOf w₃) := by
    rw [hpulse₃]
    refine .head ?_ hpulse₂
    rw [hpulse₁, hpulse]
    exact .disarm .timeout
  refine Within.advance hrun ⟨.inr hact, hbeats⟩ ?_
  refine Within.bind htail fun _ w₄ _ => Within.bind (arm_acts _) fun _ w₅ _ => ?_
  refine Within.bind startFeedback_acts fun _ w₆ _ => ?_
  exact Within.bind sendMetadata_acts fun _ w₇ _ => hfire _ _

end Streaming

/-! ## 7. After authentication

The replies that carry something the wire shows (an event port, the ports of a stream) come with the
entry of the trace they were read from (`Replied`), so that what the sender believes of the receiver
can be traced back to what it said. -/

section Setup

variable [Primitives] {Ok : Action → Prop} {w : World}

theorem sendOptions_acts : Acts Ok w sendOptions fun _ _ => True :=
  (sendOther_acts ⟨by decide, by simp, .none, by simp, fun h => absurd h (by decide)⟩
    (by decide)).mono fun _ _ _ => trivial

theorem sendAnnounce_acts : Acts Ok w sendAnnounce fun _ _ => True :=
  Within.sender ((sendOther_acts ⟨by decide, by simp, .sdp, by simp, fun h => absurd h (by decide)⟩
    (by decide)).mono fun _ _ _ => trivial)

theorem sendSetup_acts : Acts Ok w sendSetup fun _ _ => True := by
  refine Within.sender ((sendOther_acts ⟨by decide, by simp, .none, ?_,
    fun h => absurd h (by decide)⟩ (by decide)).mono fun _ _ _ => trivial)
  intro h hh
  rw [List.mem_singleton.mp hh]
  exact .transport _ _

/-- `RECORD` goes out where the reply before it has been seen. -/
theorem sendRecord_acts (h : (wireOf w).Recording) : Acts Ok w sendRecord fun _ _ => True := by
  refine Within.sender ((sendRequest_acts ⟨by decide, by simp, .none, ?_, fun _ => by simp⟩
    fun _ => h).mono fun _ _ _ => trivial)
  intro h hh
  rcases List.mem_append.mp hh with hh | hh
  · rcases List.mem_cons.mp hh with rfl | hh
    · exact .range
    · rw [List.mem_singleton.mp hh]
      exact .rtpInfo
  · exact extra_session h hh

theorem sendAp2Info_acts : Acts Ok w sendAp2Info fun _ _ => True := by
  refine Tacit.acts_bind (Tacit.stageTo (by decide)) fun _ w₁ _ => ?_
  exact (sendAp2Rtsp_acts (.info rfl)).mono fun _ _ _ => trivial

/-- Reading the pairing state. -/
theorem ap2Get_acts (w : World) : Acts Ok w ap2Get fun a w' => w' = w ∧ w.s.ap2 = some a := by
  cases ha : w.s.ap2 with
  | none =>
    have hnull : ap2Get w = (nullDeref : M Ap2State) w := by
      simp [ap2Get, sender, bind_run, ha]
    exact Within.advance hnull (.still rfl rfl) (Within.modify_bind (.still rfl rfl) Within.raise)
  | some a =>
    have hget : ap2Get w = (pure a : M Ap2State) w := by
      simp [ap2Get, sender, bind_run, ha]
    exact Within.advance hget (.still rfl rfl) (Within.pure ⟨rfl, rfl⟩)

/-- The session is set up under the identifier that was drawn with its pairing state. -/
theorem sendAp2SetupSession_acts : Acts Ok w sendAp2SetupSession fun _ _ => True := by
  refine Within.sender (Within.bind (ap2Get_acts w) fun a w₁ ⟨h₁, _⟩ => ?_)
  obtain rfl := h₁
  refine Within.advance (v := { w₁ with
      s := { w₁.s with pairStage := .ap2Session }, out := .staged .ap2Session :: w₁.out })
    (n := sendAp2Rtsp (ascii "SETUP") w₁.s.rtspUri plistType
      (Bplist.encode (sessionPlist w₁.s a.sessionUuid))) rfl (.still rfl rfl) ?_
  exact (sendAp2Rtsp_acts (.session rfl a.sessionUuid)).mono fun _ _ _ => trivial

theorem sendAp2Record_acts : Acts Ok w sendAp2Record fun _ _ => True := by
  refine Tacit.acts_bind (Tacit.stageTo (by decide)) fun _ w₁ _ => Within.sender ?_
  exact (sendAp2Rtsp_acts (.record rfl)).mono fun _ _ _ => trivial

/-- The event port is the one the reply names. -/
theorem noteEventPort_acts {method body : Octets} {code : ℤ} {headers : Headers}
    (hreply : (wireOf w).Replied method true code headers body) :
    Acts Ok w (noteEventPort body) fun _ w' => w'.s.state = w.s.state := by
  have hport : replyEventPort body =
      (((Bplist.decode body).bind (Bplist.Value.find (ascii "eventPort"))).map portOf).getD 0 := rfl
  unfold noteEventPort
  cases hep : (Bplist.decode body).bind (Bplist.Value.find (ascii "eventPort")) with
  | none => exact Within.pure rfl
  | some ep =>
    rw [hep] at hport
    dsimp only
    refine Within.bind (ap2Get_acts w) fun a w₁ ⟨h₁, ha⟩ => ?_
    obtain rfl := h₁
    refine Within.modify (.act ?_ rfl) rfl
    have hact : Act Ok _ _ := .note (wireOf w₁) hreply
    have haudio : (wireOf w₁).audio = some (audioOf a) := by
      simp only [wireOf, membersOf, ha, Option.map_some]
    have hwire : wireOf { w₁ with
        s := { w₁.s with ap2 := w₁.s.ap2.map fun a => { a with eventPort := portOf ep } } } =
        { wireOf w₁ with audio := some (audioOf a), eventPort := portOf ep } := by
      simp only [wireOf, membersOf, eventPortOf, ha, Option.map_some, Option.getD_some]
      rfl
    rw [hport] at hact
    rw [hwire, ← haudio]
    exact hact

/-- The reply to the session's `SETUP`: its event port is noted and connected to, and `RECORD`
follows whether it had one or not. -/
theorem handleAp2SetupSession_acts [Host] (hfire : Heeds Ok) {method body : Octets} {code : ℤ}
    {headers : Headers} (hreply : (wireOf w).Replied method true code headers body)
    (hlive : w.s.state ≠ .idle) : Acts Ok w (handleAp2SetupSession body) fun _ _ => True := by
  refine Within.bind (noteEventPort_acts hreply) fun _ w₁ h₁ => ?_
  have hlive₁ : w₁.s.state ≠ .idle := by
    rw [h₁]
    exact hlive
  refine Within.bind (ap2Get_acts w₁) fun a w₂ ⟨h₂, ha⟩ => ?_
  obtain rfl := h₂
  refine Within.bind (Q := fun _ _ => True) ?_ fun _ _ _ => sendAp2Record_acts
  refine Within.when (fun hport => ?_) fun _ => trivial
  refine Within.modify_bind (.act (.dropEvent (wireOf w₂)) rfl) (Within.sender ?_)
  refine tcpConnect_acts hfire .event _ _ hlive₁ fun _ => ⟨hport, ?_⟩
  have hnow : eventPortOf w₂.s = a.eventPort := by
    simp only [eventPortOf, ha, Option.map_some, Option.getD_some]
  exact hnow.symm

/-- The stream is offered in one act, with the key it will be encrypted under. -/
theorem sendAp2SetupStream_acts : Acts Ok w sendAp2SetupStream fun _ _ => True := by
  refine Within.sender (Within.bind (ap2Get_acts w) fun a w₁ ⟨h₁, ha⟩ => ?_)
  obtain rfl := h₁
  obtain ⟨text, htext⟩ : ∃ text, text = ap2Text w₁.s (ascii "SETUP") w₁.s.rtspUri plistType
      (Bplist.encode (streamPlist w₁.s (a.sharedSecret.take 32))) := ⟨_, rfl⟩
  let w₂ : World := { w₁ with
    s := { w₁.s with
      ap2 := some { a with
        audioKey := a.sharedSecret.take 32, audioNonce := 0, encryptAudio := true }
      pairStage := .ap2Stream
      cseq := wrap32 (w₁.s.cseq + 1)
      pendingMethods := w₁.s.pendingMethods ++ [ascii "SETUP"]
      pendingIsHttp := w₁.s.pendingIsHttp ++ [true] }
    out := .requested w₁.s.cseq (ascii "SETUP") true text :: .staged .ap2Stream :: w₁.out }
  refine Within.advance (v := w₂) (n := writeRtsp text >>= fun _ => arm .timeout) ?_ (.act ?_ rfl) ?_
  · -- nothing between the key and the request can fail
    rw [htext]
    simp only [w₂, htext, setS, stageTo, setAndEmit, sendAp2Rtsp, enqueue, sender, bind_run, get_run,
      pure_run, modify_run, ha, Option.map_some]
    rfl
  · have hact : Act Ok _ _ := .offer (wireOf w₁) w₁.s.cseq rfl (a.sharedSecret.take 32)
      (List.length_take_le _ _)
    have hport : (wireOf w₁).eventPort = a.eventPort := by
      simp only [wireOf, membersOf, eventPortOf, ha, Option.map_some, Option.getD_some]
    have hwire : wireOf w₂ = { wireOf w₁ with
        audio := some (a.sharedSecret.take 32, 0, true)
        eventPort := a.eventPort
        log := .requested w₁.s.cseq (ascii "SETUP") true text :: .staged .ap2Stream ::
          (wireOf w₁).log } := rfl
    rw [← htext] at hact
    rw [hwire, ← hport]
    exact hact
  · refine Tacit.acts_bind (Tacit.writeRtsp _) fun _ w₃ _ => ?_
    exact (arm_acts _).mono fun _ _ _ => trivial

omit [Primitives] in
/-- An assignment, and a choice behind it. -/
theorem setS_ite {p : Prop} [Decidable p] (f : Sender → Sender) (m n : M Unit) (w : World) :
    (setS f >>= fun _ => if p then m else n) w =
      if p then m { w with s := f w.s } else n { w with s := f w.s } := by
  by_cases h : p
  · rw [if_pos h, if_pos h]
    exact setS_bind f _ w
  · rw [if_neg h, if_neg h]
    exact setS_bind f _ w

/-- A session that fails with the ports of a reply. -/
theorem refuse_acts [Host] (hfire : Heeds Ok) {m : M Unit} {v : World} {method body why : Octets}
    {code : ℤ} {headers : Headers} (hreply : (wireOf w).Replied method true code headers body)
    (controlPort : UInt16) (hm : m w = fail why v)
    (hv : wireOf v = { wireOf w with serverPort := 0, controlPort }) (hpulse : pulseOf v = pulseOf w) :
    Acts Ok w m fun _ _ => True := by
  obtain ⟨w₁, hfail, hwire, hpulse₁⟩ := fail_wire why v
  refine Within.advance (hm.trans hfail) ⟨.inr ?_, ?_⟩ (reportEnd_acts hfire _ _)
  · have hact : Act Ok _ _ := .refuse (wireOf w) controlPort hreply
    rw [← hv] at hact
    rw [hwire]
    exact hact
  · rw [hpulse₁, hpulse]
    exact .single .still

/-- The reply to the stream's `SETUP`: its ports are taken and the stream begins, in one act. 
Without a data port the session fails. -/
theorem handleAp2SetupStream_acts [Host] (hfire : Heeds Ok) {method body : Octets} {code : ℤ}
    {headers : Headers} (hreply : (wireOf w).Replied method true code headers body)
    (hcode : 200 ≤ code ∧ code < 300) (hcap : (membersOf w.s).Capped) :
    Acts Ok w (handleAp2SetupStream body) fun _ _ => True := by
  by_cases hport : streamPort body "dataPort" = 0
  · -- no port: the session fails with what the reply left
    have hrun : handleAp2SetupStream body w =
        fail (ascii "AirPlay 2 stream SETUP returned no data port") { w with s := { w.s with
          serverPort := streamPort body "dataPort", controlPort := streamPort body "controlPort" } } :=
      (setS_ite _ _ _ w).trans (if_pos hport)
    refine refuse_acts hfire hreply (streamPort body "controlPort") hrun ?_ rfl
    rw [hport]
    rfl
  · have hrun : handleAp2SetupStream body w = startStreaming { w with s := { w.s with
        serverPort := streamPort body "dataPort"
        controlPort := if streamPort body "controlPort" = 0 then streamPort body "dataPort"
          else streamPort body "controlPort"
        timingPort := streamPort body "dataPort" } } :=
      ((setS_ite _ _ _ w).trans (if_neg hport)).trans (setS_bind _ _ _)
    exact startStreaming_acts hfire hcap (.named hreply hcode hport) rfl hrun rfl

/-- From here on the control channel is encrypted.  What was left of a frame is forgotten; the
plaintext that came before stays in the receive buffer. -/
theorem switchControl_acts :
    Acts Ok w switchControl fun _ w' => w'.s.state = w.s.state := by
  refine Within.sender ?_
  cases controlKeyed w.s with
  | none => exact Within.pure rfl
  | some a =>
    refine Within.modify (.act ?_ rfl) rfl
    exact .secure (wireOf w)

/-- Past authentication the setup begins: AirPlay 2 asks for `/info`, the older protocol for
`OPTIONS`. -/
theorem afterAuthOk_acts (hlive : w.s.state ≠ .idle) : Acts Ok w afterAuthOk fun _ _ => True := by
  refine Tacit.acts_bind (Overlooks.setS fun _ => rfl) fun _ w₁ h₁ => Within.sender ?_
  have hlive₁ : w₁.s.state ≠ .idle := by
    rw [state_of_wire h₁]
    exact hlive
  refine Within.ite (fun _ => ?_) fun _ => ?_
  · refine Within.bind switchControl_acts fun _ w₂ h₂ => ?_
    have hlive₂ : w₂.s.state ≠ .idle := by
      rw [h₂]
      exact hlive₁
    refine Within.modify_bind (.act ?_ rfl) sendAp2Info_acts
    exact .clear (wireOf w₂) _ true _ hlive₂
  · refine Within.modify_bind (.act ?_ rfl) sendOptions_acts
    exact .clear (wireOf w₁) _ false _ hlive₁

end Setup

/-! ## 8. Pairing

Of all that pairing computes the wire shows the beginning of a new pairing state and the requests; the
rest is tacit.  A handler fails, asks the application, or sends the next message. -/

section Pairing

variable [Primitives] {Ok : Action → Prop} {w : World}

/-- Every pairing request is a stage and a `POST`. -/
theorem post_acts {stage : PairStage} {uri body : Octets} (hstage : stage ≠ .ap2Stream)
    (huri : uri ∈ ["/auth-setup", "/pair-pin-start", "/pair-setup", "/pair-verify"].map ascii) :
    Acts Ok w (stageTo stage >>= fun _ => httpPost uri octetStream body) fun _ _ => True := by
  refine Tacit.acts_bind (Tacit.stageTo hstage) fun _ w₁ _ => ?_
  exact (httpPost_acts (.post rfl body huri)).mono fun _ _ _ => trivial

theorem sendAuthSetup_acts : Acts Ok w sendAuthSetup fun _ _ => True :=
  post_acts (by decide) (by decide)

theorem sendPairPinStart_acts : Acts Ok w sendPairPinStart fun _ _ => True :=
  post_acts (by decide) (by decide)

theorem sendPairSetupM1_acts : Acts Ok w sendPairSetupM1 fun _ _ => True :=
  Within.sender (post_acts (by decide) (by decide))

/-- The proof of the PIN.  Parameters that the client refuses end the session; an exception on the
way leaves it as it is. -/
theorem sendPairSetupM3_acts [Host] (hfire : Heeds Ok) (pin : Octets) :
    Acts Ok w (sendPairSetupM3 pin) fun _ _ => True := by
  refine Tacit.acts_bind (Tacit.ap2Set fun _ => rfl) fun _ w₁ _ => ?_
  refine Tacit.acts_bind (Overlooks.randomBytes 32) fun aBytes w₂ _ => ?_
  refine Tacit.acts_bind (Tacit.ap2Set fun _ => rfl) fun _ w₃ _ => Within.sender ?_
  split
  · exact Within.raise
  · exact fail_acts hfire _
  · refine Tacit.acts_bind (Overlooks.setAndEmit (Tacit.members_ap2 fun _ => rfl) rfl) fun _ w₄ _ => ?_
    exact post_acts (by decide) (by decide)

/-- Without a fixed PIN the application is asked for one, and the timeout is that of the PIN. -/
theorem handlePairSetupM2_acts [Host] (hfire : Heeds Ok) (body : Octets) :
    Acts Ok w (handlePairSetupM2 body) fun _ _ => True := by
  unfold handlePairSetupM2
  dsimp only
  split
  · exact fail_acts hfire _
  · split
    · refine Tacit.acts_bind (Overlooks.setS fun _ => rfl) fun _ w₁ _ => Within.sender ?_
      refine Within.ite (fun _ => sendPairSetupM3_acts hfire _) fun _ => ?_
      refine Within.bind (setTimer_acts (f := fun s => { s with waitingForPin := true })
        (fun _ => rfl) fun _ => .disarm .timeout) fun _ w₂ _ => ?_
      exact Within.bind (arm_acts _) fun _ w₃ _ => Within.sender (hfire _ _)
    · exact fail_acts hfire _

/-- The identity goes out sealed; what is drawn for it first is no act. -/
theorem sendPairSetupM5_acts : Acts Ok w sendPairSetupM5 fun _ _ => True := by
  refine Tacit.acts_bind Tacit.ap2Get fun a w₁ _ => ?_
  refine Tacit.acts_bind (Fixes.when ?_) fun _ w₂ _ => ?_
  · exact Fixes.bind (Overlooks.randomBytes 32) fun _ => Tacit.ap2Set fun _ => rfl
  refine Tacit.acts_bind (Tacit.ap2Set fun _ => rfl) fun _ w₃ _ => ?_
  refine Tacit.acts_bind Tacit.ap2Get fun a w₄ _ => ?_
  refine Tacit.acts_bind (Fixes.when ?_) fun _ w₅ _ => ?_
  · exact Fixes.bind Overlooks.uuidV4Lower fun _ => Tacit.ap2Set fun _ => rfl
  refine Tacit.acts_bind Tacit.ap2Get fun a w₆ _ => ?_
  split
  · exact Tacit.nullDeref.acts.mono fun _ _ _ => trivial
  · refine Tacit.acts_bind (Tacit.chacha (by decide) _ _ _ _) fun enc w₇ _ => ?_
    refine Tacit.acts_bind (Overlooks.setS fun _ => rfl) fun _ w₈ _ => ?_
    exact post_acts (by decide) (by decide)

/-- Transient pairing is over here, with keys derived from the shared secret. -/
theorem finishTransient_acts (hlive : w.s.state ≠ .idle) :
    Acts Ok w finishTransient fun _ _ => True := by
  refine Tacit.acts_bind Tacit.ap2Get fun a w₁ h₁ => ?_
  split
  · exact Tacit.nullDeref.acts.mono fun _ _ _ => trivial
  · refine Within.sender (Tacit.acts_bind (Overlooks.setAndEmit (fun s => ?_) rfl) fun _ w₂ h₂ =>
      afterAuthOk_acts ?_)
    · refine Tacit.members_ap2 ?_ s
      exact fun _ => rfl
    · rw [state_of_wire h₂, state_of_wire h₁]
      exact hlive

/-- The receiver's proof is checked.  Transient pairing ends here and the setup begins; behind a PIN
the identities are exchanged. -/
theorem handlePairSetupM4_acts [Host] (hfire : Heeds Ok) (body : Octets) (hlive : w.s.state ≠ .idle) :
    Acts Ok w (handlePairSetupM4 body) fun _ _ => True := by
  unfold handlePairSetupM4
  dsimp only
  split
  · exact fail_acts hfire _
  · refine Tacit.acts_bind (Tacit.checkServerProof _) fun ok w₁ h₁ => Within.sender ?_
    refine Within.ite (fun _ => fail_acts hfire _) fun _ => ?_
    refine Within.ite (fun _ => finishTransient_acts ?_) fun _ => sendPairSetupM5_acts
    rw [state_of_wire h₁]
    exact hlive

theorem sendPairVerifyM1_acts : Acts Ok w sendPairVerifyM1 fun _ _ => True := by
  refine Tacit.acts_bind Tacit.ap2Get fun a w₁ _ => ?_
  refine Tacit.acts_bind (Overlooks.randomBytes 32) fun priv w₂ _ => ?_
  refine Tacit.acts_bind (Overlooks.setS (Tacit.members_ap2 fun _ => rfl)) fun _ w₃ _ => ?_
  exact post_acts (by decide) (by decide)

/-- The credentials go to the application in the middle of the reply.  Whatever the callback did,
pair-verify follows. -/
theorem handlePairSetupM6_acts [Host] (hfire : Heeds Ok) (body : Octets) :
    Acts Ok w (handlePairSetupM6 body) fun _ _ => True := by
  unfold handlePairSetupM6
  dsimp only
  split
  · exact fail_acts hfire _
  split
  · exact fail_acts hfire _
  refine Within.sender ?_
  split
  · exact fail_acts hfire _
  split
  · refine Tacit.acts_bind Tacit.ap2Get fun a w₁ _ => ?_
    refine Tacit.acts_bind (Overlooks.setAndEmit (Tacit.members_ap2 fun _ => rfl) rfl) fun _ w₂ _ => ?_
    refine Within.bind (hfire _ _) fun _ w₃ _ => Within.sender ?_
    refine Tacit.acts_bind (Overlooks.emit rfl) fun _ w₄ _ => ?_
    exact Tacit.acts_bind (Overlooks.setS fun _ => rfl) fun _ w₅ _ => sendPairVerifyM1_acts
  · exact fail_acts hfire _

theorem sendPairVerifyM3_acts (verifyKey sessionPub : Octets) :
    Acts Ok w (sendPairVerifyM3 verifyKey sessionPub) fun _ _ => True := by
  refine Tacit.acts_bind Tacit.ap2Get fun a w₁ _ => ?_
  refine Tacit.acts_bind (Tacit.chacha (by decide) _ _ _ _) fun enc w₂ _ => ?_
  refine Tacit.acts_bind (Overlooks.setS (Tacit.members_ap2 fun _ => rfl)) fun _ w₃ _ => ?_
  exact post_acts (by decide) (by decide)

/-- A signature that does not verify is on the record; it ends the session if the application is
strict. -/
theorem checkPairVerify_acts [Host] (hfire : Heeds Ok) (verifyKey sessionPub encrypted : Octets) :
    Acts Ok w (checkPairVerify verifyKey sessionPub encrypted) fun _ _ => True := by
  unfold checkPairVerify
  split
  · exact fail_acts hfire _
  dsimp only
  split
  · refine Tacit.acts_bind Tacit.ap2Get fun a w₁ _ => ?_
    refine Tacit.acts_bind (Overlooks.emit rfl) fun _ w₂ _ => Within.sender ?_
    exact Within.ite (fun _ => fail_acts hfire _) fun _ => sendPairVerifyM3_acts _ _
  · exact fail_acts hfire _

theorem handlePairVerifyM2_acts [Host] (hfire : Heeds Ok) (body : Octets) :
    Acts Ok w (handlePairVerifyM2 body) fun _ _ => True := by
  unfold handlePairVerifyM2
  dsimp only
  split
  · exact fail_acts hfire _
  split
  · refine Tacit.acts_bind Tacit.ap2Get fun a w₁ _ => ?_
    refine Tacit.acts_bind (Tacit.ap2Set fun _ => rfl) fun _ w₂ _ => ?_
    exact Within.ite (fun _ => fail_acts hfire _) fun _ => checkPairVerify_acts hfire _ _ _
  · exact fail_acts hfire _

/-- A new pairing state, with a session identifier of its own. -/
theorem freshPairing_acts (auth : Auth) : Acts Ok w (freshPairing auth) fun _ _ => True := by
  refine Within.modify_bind (.act (.pair (wireOf w) auth) rfl) ?_
  refine Tacit.acts_bind Overlooks.uuidV4Lower fun uuid w₁ _ => ?_
  refine (Tacit.ap2Set ?_).acts.mono fun _ _ _ => trivial
  exact fun _ => rfl

/-- How the session is authenticated is the application's choice.  Each method has its own first
request, and the one that is not supported fails. -/
theorem beginAuthChain_acts [Host] (hfire : Heeds Ok) (hlive : w.s.state ≠ .idle) :
    Acts Ok w beginAuthChain fun _ _ => True := by
  refine Within.modify_bind (.act (.progress (wireOf w) .pairing hlive (.inl rfl)) rfl) (Within.sender ?_)
  split
  · refine Within.modify_bind (.act ?_ rfl) sendOptions_acts
    exact .clear (wireOf { w with s := { w.s with state := .pairing } }) _ false _ nofun
  · refine Within.modify_bind (.act ?_ rfl) sendOptions_acts
    exact .clear (wireOf { w with s := { w.s with state := .pairing } }) _ false _ nofun
  · exact sendAuthSetup_acts
  · exact fail_acts hfire _
  · exact Within.bind (freshPairing_acts _) fun _ w₁ _ => sendPairSetupM1_acts
  · refine Within.bind (freshPairing_acts _) fun _ w₁ _ => ?_
    split
    · refine Tacit.acts_bind (Overlooks.setAndEmit (Tacit.members_ap2 fun _ => rfl) rfl) fun _ w₂ _ => ?_
      exact sendPairVerifyM1_acts
    · exact sendPairPinStart_acts

/-- A refusal may be met with the other method: a 470 to transient pairing with the PIN, a 403 to
the PIN with transient pairing, once.  Any other ends the session. -/
theorem onPairingRefused_acts [Host] (hfire : Heeds Ok) (code : ℤ) :
    Acts Ok w (onPairingRefused code) fun _ _ => True := by
  refine Within.sender (Within.ite (fun _ => ?_) fun _ => Within.ite (fun _ => ?_) fun _ => fail_acts hfire _)
  · exact Within.bind (freshPairing_acts _) fun _ w₁ _ => sendPairPinStart_acts
  · refine Tacit.acts_bind (Overlooks.setAndEmit (fun _ => rfl) rfl) fun _ w₁ _ => ?_
    exact Within.bind (freshPairing_acts _) fun _ w₂ _ => sendPairSetupM1_acts

/-- **The stage switch**: a reply is taken for what the stage waits for. -/
theorem onPairingStage_acts [Host] (hfire : Heeds Ok) {method body : Octets} {code : ℤ}
    {headers : Headers} (hreply : (wireOf w).Replied method true code headers body)
    (hcode : 200 ≤ code ∧ code < 300) (hlive : w.s.state ≠ .idle) (hcap : (membersOf w.s).Capped) :
    Acts Ok w (onPairingStage body) fun _ _ => True := by
  refine Within.sender ?_
  split
  · exact sendPairSetupM1_acts
  · exact handlePairSetupM2_acts hfire body
  · exact handlePairSetupM4_acts hfire body hlive
  · exact handlePairSetupM6_acts hfire body
  · exact handlePairVerifyM2_acts hfire body
  · refine Tacit.acts_bind (Overlooks.setS fun _ => rfl) fun _ w₁ h₁ => afterAuthOk_acts ?_
    rw [state_of_wire h₁]
    exact hlive
  · exact sendAp2SetupSession_acts
  · exact handleAp2SetupSession_acts hfire hreply hlive
  · exact handleAp2SetupStream_acts hfire hreply hcode hcap
  · exact Within.pure trivial

/-- A reply of the pairing, whatever its status.  The stage switch is only reached with a 2xx in a
live session. -/
theorem onPairingResponse_acts [Host] (hfire : Heeds Ok) {method body : Octets} {code : ℤ}
    {headers : Headers} (hreply : (wireOf w).Replied method true code headers body)
    (hcap : (membersOf w.s).Capped) : Acts Ok w (onPairingResponse code body) fun _ _ => True := by
  refine Within.sender (Within.ite (fun _ => Within.pure trivial) fun hlive => ?_)
  refine Within.ite (fun _ => Within.pure trivial) fun _ => Within.ite (fun _ => ?_) fun _ => ?_
  · refine Tacit.acts_bind (Overlooks.setS fun _ => rfl) fun _ w₁ h₁ => afterAuthOk_acts ?_
    rw [state_of_wire h₁]
    exact hlive
  refine Within.ite (fun _ => sendAp2SetupStream_acts) fun _ => ?_
  refine Within.ite (fun _ => onPairingRefused_acts hfire code) fun hcode => ?_
  exact onPairingStage_acts hfire hreply (by omega) hlive hcap

end Pairing

end AirplaySender
