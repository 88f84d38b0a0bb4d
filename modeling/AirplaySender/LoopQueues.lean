/-
# The order of the bytes of a connection

What the sender passes to `tcpSend` is queued and drained as the kernel takes it, from a place in the
queue that moves on and is set back when the queue is empty.  `InOrder` is what a slot says of the
bytes that were passed since its connect: what the kernel has taken is the front of them, and while
the socket is open the rest is what is still queued, so that no byte is lost, doubled or sent on the
next connection.

Between the note that a call was made and the work on the queue the two do not fit together; the
system is not asked there, so that no run ends there (`Ends`).
-/
import AirplaySender.Lib.Ends
import AirplaySender.Loop

namespace AirplaySender.Loop

open Octets Prog

/-! ## 1. The queue of a slot -/

/-- What an event does to the bytes passed on a channel since its connect. -/
def Event.passes (ch : Tcp) : Event → Octets → Octets
  | .enter (.tcpConnect ch' _ _), p => if ch' = ch then [] else p
  | .enter (.tcpSend ch' bytes), p => if ch' = ch then p ++ bytes else p
  | _, p => p

/-- The bytes that the sender has passed to `tcpSend` since its last `tcpConnect` of the channel. -/
def passed (ch : Tcp) (trace : List Event) : Octets := trace.foldr (Event.passes ch) []

/-- The kernel has taken the front of the bytes that were passed; while the slot has a socket the
rest is queued, and without one nothing is. -/
structure InOrder (s : TcpSlot) (p : Octets) : Prop where
  taken : s.taken <+: p
  queued : s.fd ≠ badSock → s.taken ++ s.out.drop s.outOff = p
  empty : s.fd = badSock → s.out = [] ∧ s.outOff = 0

/-- The offset is within the queue, as it is whenever the kernel is not being asked. -/
structure Ready (s : TcpSlot) (p : Octets) : Prop extends InOrder s p where
  within : s.outOff ≤ s.out.length

variable {s : TcpSlot} {p : Octets}

/-- A slot that was reset has nothing queued. -/
theorem InOrder.reset (h : InOrder s p) : Ready s.reset p where
  taken := h.taken
  queued := fun hfd => absurd rfl hfd
  empty := fun _ => ⟨rfl, rfl⟩
  within := le_rfl

/-- A slot with nothing taken and nothing queued. -/
theorem Ready.fresh (htaken : s.taken = []) (hout : s.out = []) (hoff : s.outOff = 0) :
    Ready s [] where
  taken := htaken ▸ List.prefix_rfl
  queued := fun _ => by rw [htaken, hout, List.drop_nil, List.append_nil]
  empty := fun _ => ⟨hout, hoff⟩
  within := by rw [hout, hoff, List.length_nil]

/-- Bytes are queued behind the others. -/
theorem Ready.queue (h : Ready s p) (hfd : s.fd ≠ badSock) (bytes : Octets) :
    Ready { s with out := s.out ++ bytes } (p ++ bytes) where
  taken := h.taken.trans (List.prefix_append p bytes)
  queued := fun _ => by
    rw [← h.queued hfd, List.append_assoc, List.drop_append_of_le_length h.within]
  empty := fun hbad => absurd hbad hfd
  within := by
    rw [List.length_append]
    exact h.within.trans (Nat.le_add_right _ _)

/-- The queue is all that matters. -/
theorem Ready.flags (h : Ready s p) {connecting connected : Bool} {failed closed : Option Octets} :
    Ready { s with
      connecting := connecting, connected := connected, failedToStart := failed, sendFailed := closed } p :=
  ⟨⟨h.taken, h.queued, h.empty⟩, h.within⟩

/-- Without a socket bytes are dropped. -/
theorem Ready.drop (h : Ready s p) (hfd : s.fd = badSock) (bytes : Octets) : Ready s (p ++ bytes) where
  taken := h.taken.trans (List.prefix_append p bytes)
  queued := fun hopen => absurd hfd hopen
  empty := h.empty
  within := h.within

/-- The kernel takes some of the queue. -/
theorem InOrder.take (h : InOrder s p) (hmore : s.outOff < s.out.length) (n : ℕ) :
    InOrder { s with
      outOff := s.outOff + n
      taken := s.taken ++ (s.out.drop s.outOff).take n } p := by
  have hfd : s.fd ≠ badSock := by
    intro hbad
    rw [(h.empty hbad).1, List.length_nil] at hmore
    omega
  have hsplit : s.taken ++ (s.out.drop s.outOff).take n ++ s.out.drop (s.outOff + n) = p := by
    rw [← List.drop_drop, List.append_assoc, List.take_append_drop, h.queued hfd]
  exact ⟨⟨_, hsplit⟩, fun _ => hsplit, fun hbad => absurd hbad hfd⟩

/-- A queue that was taken as a whole is cleared. -/
theorem InOrder.clear (h : InOrder s p) (hall : s.out.length ≤ s.outOff) :
    Ready { s with out := [], outOff := 0 } p where
  taken := h.taken
  queued := fun hfd => by
    have hqueued := h.queued hfd
    rw [List.drop_eq_nil_of_le hall] at hqueued
    exact hqueued
  empty := fun _ => ⟨rfl, rfl⟩
  within := le_rfl

/-! ## 2. The slots of a world -/

/-- Every channel is in order. -/
def World.InOrder (w : World) : Prop := ∀ ch, Loop.InOrder (w.tcp ch) (passed ch w.trace)

def World.Ready (w : World) : Prop := ∀ ch, Loop.Ready (w.tcp ch) (passed ch w.trace)

/-- Every channel but one. -/
def World.ReadyBut (w : World) (ch : Tcp) : Prop :=
  ∀ ch', ch' ≠ ch → Loop.Ready (w.tcp ch') (passed ch' w.trace)

variable {w w' : World} {ch : Tcp} {α : Type}

theorem World.Ready.inOrder (h : w.Ready) : w.InOrder := fun ch => (h ch).toInOrder

theorem World.Ready.but (h : w.Ready) (ch : Tcp) : w.ReadyBut ch := fun ch' _ => h ch'

theorem World.ReadyBut.ready (h : w.ReadyBut ch) (hs : Loop.Ready (w.tcp ch) (passed ch w.trace)) :
    w.Ready := by
  intro ch'
  by_cases hch : ch' = ch
  · subst hch
    exact hs
  · exact h ch' hch

/-- The slot of the channel is overwritten. -/
theorem World.ReadyBut.setTcp_but (h : w.ReadyBut ch) (s : TcpSlot) :
    World.ReadyBut { w with tcp := Function.update w.tcp ch s } ch := by
  intro ch' hch
  change Loop.Ready (Function.update w.tcp ch s ch') (passed ch' w.trace)
  rw [Function.update_of_ne hch]
  exact h ch' hch

theorem World.ReadyBut.setTcp (h : w.ReadyBut ch) (hs : Loop.Ready s (passed ch w.trace)) :
    World.Ready { w with tcp := Function.update w.tcp ch s } := by
  refine (h.setTcp_but s).ready ?_
  change Loop.Ready (Function.update w.tcp ch s ch) (passed ch w.trace)
  rw [Function.update_self]
  exact hs

/-- So it is with one that is in order only. -/
theorem World.ReadyBut.setTcp_inOrder (h : w.ReadyBut ch)
    (hs : Loop.InOrder s (passed ch w.trace)) :
    World.InOrder { w with tcp := Function.update w.tcp ch s } := by
  intro ch'
  by_cases hch : ch' = ch
  · subst hch
    change Loop.InOrder (Function.update w.tcp ch' s ch') (passed ch' w.trace)
    rw [Function.update_self]
    exact hs
  · exact (h.setTcp_but s ch' hch).toInOrder

/-- A piece of the loop that keeps the queues, however it ends. -/
abbrev Steady (m : M α) : Prop := Maintains World.InOrder World.Ready m

/-- The system answers, or the run stops here. -/
theorem ends_ask {Q : Answer → World → Prop} (h : w.InOrder)
    (hQ : ∀ a w', w'.tcp = w.tcp → w'.trace = w.trace → Q a w') : Ends World.InOrder w ask Q := by
  unfold Ends ask
  cases hanswers : w.answers with
  | nil =>
    dsimp only
    constructor
    · intro a ha
      cases ha
    · intro e _
      exact h
  | cons a rest =>
    dsimp only
    constructor
    · intro a' ha
      cases ha
      exact hQ a _ rfl rfl
    · intro e he
      cases he

theorem World.Ready.congr (h : w.Ready) (htcp : w'.tcp = w.tcp) (htrace : w'.trace = w.trace) :
    w'.Ready := by
  intro ch
  rw [htcp, htrace]
  exact h ch

theorem World.ReadyBut.congr (h : w.ReadyBut ch) (htcp : w'.tcp = w.tcp)
    (htrace : w'.trace = w.trace) : w'.ReadyBut ch := by
  intro ch' hch
  rw [htcp, htrace]
  exact h ch' hch

theorem keeps_ask : Steady ask :=
  fun _ h => ends_ask h.inOrder fun _ _ htcp htrace => h.congr htcp htrace

theorem ends_slot {E : World → Prop} {Q : TcpSlot → World → Prop} (h : Q (w.tcp ch) w) :
    Ends E w (slot ch) Q :=
  Ends.bind (Ends.get (Ends.pure h))

theorem keeps_slot (ch : Tcp) : Steady (slot ch) := fun _ h => ends_slot h

theorem keeps_uslot (u : Udp) : Steady (uslot u) := fun _ h => Ends.bind (Ends.get (Ends.pure h))

theorem keeps_rounds : Steady rounds := fun _ h => Ends.bind (Ends.get (Ends.pure h))

theorem keeps_raise {e : Unit} : Steady (raise e : M α) := Maintains.raise (fun _ h => h.inOrder) e

theorem keeps_setUdp (u : Udp) (f : UdpSlot → UdpSlot) : Steady (setUdp u f) :=
  Maintains.modify fun _ h => h.congr rfl rfl

/-- A change of a slot that leaves its queue ready. -/
theorem keeps_setTcp (ch : Tcp) {f : TcpSlot → TcpSlot} (hf : ∀ s p, Loop.Ready s p → Loop.Ready (f s) p) :
    Steady (setTcp ch f) :=
  Maintains.modify fun _ h => (h.but ch).setTcp (hf _ _ (h ch))

/-- An event leaves the channels it is not about. -/
theorem World.Ready.hear {e : Event} (h : w.Ready) (he : ∀ ch' p, ch' ≠ ch → e.passes ch' p = p) :
    World.ReadyBut { w with trace := e :: w.trace } ch := by
  intro ch' hch
  have hsame : passed ch' (e :: w.trace) = passed ch' w.trace := he ch' _ hch
  change Loop.Ready (w.tcp ch') (passed ch' (e :: w.trace))
  rw [hsame]
  exact h ch'

/-- An event that passes no bytes. -/
theorem keeps_emit {e : Event} (he : ∀ ch p, e.passes ch p = p) : Steady (emit e) := by
  refine Maintains.modify fun w h ch => ?_
  have hsame : passed ch (e :: w.trace) = passed ch w.trace := he ch _
  change Loop.Ready (w.tcp ch) (passed ch (e :: w.trace))
  rw [hsame]
  exact h ch

theorem keeps_socketError : Steady socketError := Maintains.bind keeps_ask fun _ => Maintains.pure _

theorem keeps_endOf : Steady endOf := Maintains.bind keeps_ask fun _ => Maintains.pure _

/-! ## 3. Draining the queue -/

theorem keeps_udpBind (u : Udp) : Steady (udpBind u) := by
  refine Maintains.bind (keeps_setUdp u _) fun _ => Maintains.bind (keeps_setUdp u _) fun _ => ?_
  refine Maintains.bind keeps_ask fun sock => Maintains.ite (Maintains.pure _) ?_
  refine Maintains.bind keeps_ask fun bound => Maintains.ite (Maintains.pure _) ?_
  refine Maintains.bind keeps_endOf fun localEnd => Maintains.ite (Maintains.pure _) ?_
  exact Maintains.bind (keeps_setUdp u _) fun _ => Maintains.pure _

theorem keeps_udpSend (u : Udp) : Steady (udpSend u) := by
  refine Maintains.bind (keeps_uslot u) fun s => Maintains.ite (Maintains.pure _) ?_
  refine Maintains.bind keeps_ask fun parsed => Maintains.ite (Maintains.pure _) ?_
  exact Maintains.bind keeps_ask fun _ => Maintains.pure _

theorem keeps_closeTcp (ch : Tcp) : Steady (closeTcp ch) :=
  keeps_setTcp ch fun _ _ h => h.toInOrder.reset

section Io

variable [Platform]

/-- The loop of `drain`, from a slot whose offset may be anywhere. -/
theorem ends_drainLoop (ch : Tcp) : ∀ (n : ℕ) {w : World}, w.ReadyBut ch → w.InOrder →
    Ends World.InOrder w (drainLoop ch n) fun _ => World.Ready := by
  intro n
  induction n with
  | zero =>
    intro w _ h
    exact Ends.raise h
  | succ n ih =>
    intro w hbut h
    refine Ends.bind (ends_slot (Ends.ite (fun hmore => ?_) fun hall => ?_))
    · have hready : w.Ready := hbut.ready ⟨h ch, hmore.le⟩
      refine Ends.bind (ends_ask h ?_)
      intro sent w₁ htcp htrace
      have hbut₁ := hbut.congr htcp htrace
      refine Ends.ite (fun _ => ?_) fun _ => ?_
      · -- the kernel has taken some
        have hslot : w₁.tcp ch = w.tcp ch := congrFun htcp ch
        have htaken := (h ch).take hmore sent.ret.toNat
        rw [← htrace, ← hslot] at htaken
        refine Ends.bind (Ends.modify (ih (hbut₁.setTcp_but _) ?_))
        exact hbut₁.setTcp_inOrder htaken
      · have hready₁ := hready.congr htcp htrace
        exact Ends.ite (fun _ => Ends.pure hready₁) fun _ => Ends.pure hready₁
    · refine Ends.bind (Ends.modify (Ends.pure ?_))
      exact hbut.setTcp ((h ch).clear (not_lt.mp hall))

theorem keeps_drain (ch : Tcp) : Steady (drain ch) :=
  fun _ h => Ends.bind (Ends.bind (Ends.get (Ends.pure (ends_drainLoop ch _ (h.but ch) h.inOrder))))

theorem keeps_flushLoop (ch : Tcp) (sendDeadline : ℤ) : ∀ n, Steady (flushLoop ch sendDeadline n)
  | 0 => keeps_raise
  | n + 1 => by
    refine Maintains.bind (keeps_slot ch) fun s => Maintains.ite ?_ (Maintains.pure ())
    refine Maintains.bind keeps_ask fun now => Maintains.ite ?_ (Maintains.pure ())
    refine Maintains.bind (keeps_drain ch) fun err => ?_
    cases err with
    | some err => exact Maintains.pure ()
    | none =>
      refine Maintains.bind (keeps_slot ch) fun s => Maintains.ite (Maintains.pure ()) ?_
      refine Maintains.bind keeps_ask fun _ => Maintains.bind keeps_ask fun _ => ?_
      exact keeps_flushLoop ch sendDeadline n

omit [Platform] in
theorem keeps_finLoop [Platform] (finDeadline : ℤ) : ∀ n, Steady (finLoop finDeadline n)
  | 0 => keeps_raise
  | n + 1 => by
    refine Maintains.bind keeps_ask fun now => Maintains.ite (Maintains.pure ()) ?_
    refine Maintains.bind keeps_ask fun polled => Maintains.ite (Maintains.pure ()) ?_
    refine Maintains.bind keeps_ask fun got => Maintains.ite (keeps_finLoop finDeadline n) ?_
    exact Maintains.ite (keeps_finLoop finDeadline n) (Maintains.pure ())

/-! ## 4. The calls of the sender -/

/-- A channel that starts over: nothing was passed, nothing is queued, nothing was taken. -/
structure World.Fresh (w : World) (ch : Tcp) : Prop where
  but : w.ReadyBut ch
  passed : passed ch w.trace = []
  taken : (w.tcp ch).taken = []
  out : (w.tcp ch).out = []
  outOff : (w.tcp ch).outOff = 0

omit [Platform] in
theorem World.Fresh.ready (h : w.Fresh ch) : w.Ready := by
  refine h.but.ready ?_
  rw [h.passed]
  exact .fresh h.taken h.out h.outOff

omit [Platform] in
theorem ends_ask_fresh {Q : Answer → World → Prop} (h : w.Fresh ch)
    (hQ : ∀ a w', w'.Fresh ch → Q a w') : Ends World.InOrder w ask Q := by
  refine ends_ask h.ready.inOrder fun a w' htcp htrace => hQ a w' ?_
  have hslot : w'.tcp ch = w.tcp ch := congrFun htcp ch
  exact ⟨h.but.congr htcp htrace, htrace ▸ h.passed, hslot ▸ h.taken, hslot ▸ h.out, hslot ▸ h.outOff⟩

omit [Platform] in
/-- How the attempt turns out is written down. -/
theorem World.Fresh.setTcp (h : w.Fresh ch) {s : TcpSlot} (htaken : s.taken = (w.tcp ch).taken)
    (hout : s.out = (w.tcp ch).out) (hoff : s.outOff = (w.tcp ch).outOff) :
    World.Ready { w with tcp := Function.update w.tcp ch s } := by
  refine h.but.setTcp ?_
  rw [h.passed]
  exact .fresh (htaken.trans h.taken) (hout.trans h.out) (hoff.trans h.outOff)

/-- **A connect starts over**: nothing is carried over from the connection before. -/
theorem ends_tcpConnect {host : Octets} (hbut : w.ReadyBut ch) (hpassed : passed ch w.trace = []) :
    Ends World.InOrder w (tcpConnect ch host) fun _ => World.Ready := by
  unfold tcpConnect closeTcp
  refine Ends.bind (Ends.modify (Ends.bind (Ends.modify (Ends.bind
    (ends_ask_fresh (?_ : World.Fresh _ ch) ?_)))))
  · refine ⟨(hbut.setTcp_but _).setTcp_but _, hpassed, ?_, ?_, ?_⟩ <;> simp [TcpSlot.reset]
  intro res w₁ h₁
  refine Ends.ite (fun _ => Ends.modify (h₁.setTcp rfl rfl rfl)) fun _ => ?_
  refine Ends.bind (ends_ask_fresh h₁ fun sock w₂ h₂ => ?_)
  refine Ends.ite (fun _ => Ends.modify (h₂.setTcp rfl rfl rfl)) fun _ => ?_
  refine Ends.bind (ends_ask_fresh h₂ fun rc w₃ h₃ => ?_)
  refine Ends.ite (fun _ => Ends.modify (h₃.setTcp rfl rfl rfl)) fun _ => ?_
  exact Ends.modify (h₃.setTcp rfl rfl rfl)

/-- **Bytes that are passed are queued behind the others**, or dropped where there is no socket. -/
theorem ends_tcpSend {p bytes : Octets} (hbut : w.ReadyBut ch) (hs : Loop.Ready (w.tcp ch) p)
    (hpassed : passed ch w.trace = p ++ bytes) :
    Ends World.InOrder w (tcpSend ch bytes) fun _ => World.Ready := by
  unfold tcpSend
  refine Ends.bind (ends_slot (Ends.ite (fun hno => Ends.pure (hbut.ready ?_)) fun hsome => ?_))
  · rw [hpassed]
    rcases hno with hfd | rfl
    · exact hs.drop hfd bytes
    · rwa [List.append_nil]
  · rw [not_or] at hsome
    refine Ends.bind (Ends.modify ?_)
    have hqueued := hs.queue hsome.1 bytes
    rw [← hpassed] at hqueued
    have hready := hbut.setTcp hqueued
    refine Ends.ite (fun _ => Ends.pure hready) fun _ => ?_
    refine Ends.bind ((keeps_drain ch _ hready).mono fun err w₁ h₁ => ?_)
    cases err with
    | none => exact Ends.pure h₁
    | some err => exact Ends.modify ((h₁.but ch).setTcp (h₁ ch).flags)

theorem keeps_tcpClose (ch : Tcp) (flush : Bool) : Steady (tcpClose ch flush) := by
  refine Maintains.bind (keeps_slot ch) fun s => Maintains.ite (keeps_closeTcp ch) ?_
  refine Maintains.bind (Maintains.when ?_) fun _ => keeps_closeTcp ch
  refine Maintains.bind keeps_ask fun now => Maintains.bind keeps_rounds fun n => ?_
  refine Maintains.bind (keeps_flushLoop ch _ n) fun _ => Maintains.bind keeps_ask fun now => ?_
  exact Maintains.bind keeps_rounds fun n => keeps_finLoop _ n

/-- A call that passes no bytes and opens no connection. -/
theorem keeps_perform_of {c : Call} (he : ∀ ch p, (Event.enter c).passes ch p = p)
    (hc : Steady (body c)) : Steady (perform c) :=
  Maintains.bind (keeps_emit he) fun _ => Maintains.bind hc fun _ => keeps_emit fun _ _ => rfl

/-- **Every call of the sender keeps the queues**, whatever the system answers. -/
theorem keeps_perform (c : Call) : Steady (perform c) := by
  have hleave (port : UInt16) : Steady (emit (.leave port)) := keeps_emit fun _ _ => rfl
  cases c with
  | tcpConnect ch host port =>
    intro w h
    have hbut := h.hear (e := .enter (.tcpConnect ch host port)) fun ch' p hch => if_neg (Ne.symm hch)
    refine Ends.bind (Ends.modify (Ends.bind (Ends.bind ?_)))
    refine (ends_tcpConnect hbut (if_pos rfl)).mono fun _ w' h' => Ends.pure ?_
    exact hleave 0 w' h'
  | tcpSend ch bytes =>
    intro w h
    have hbut := h.hear (e := .enter (.tcpSend ch bytes)) fun ch' p hch => if_neg (Ne.symm hch)
    refine Ends.bind (Ends.modify (Ends.bind (Ends.bind ?_)))
    refine (ends_tcpSend hbut (h ch) (if_pos rfl)).mono fun _ w' h' => Ends.pure ?_
    exact hleave 0 w' h'
  | tcpClose ch flush =>
    exact keeps_perform_of (fun _ _ => rfl) (Maintains.bind (keeps_tcpClose ch flush) fun _ => Maintains.pure _)
  | udpBind u => exact keeps_perform_of (fun _ _ => rfl) (keeps_udpBind u)
  | udpSend u dest bytes =>
    exact keeps_perform_of (fun _ _ => rfl) (Maintains.bind (keeps_udpSend u) fun _ => Maintains.pure _)
  | udpClose u =>
    exact keeps_perform_of (fun _ _ => rfl) (Maintains.bind (keeps_setUdp u _) fun _ => Maintains.pure _)

/-! ## 5. Runs -/

omit [Platform] in
theorem keeps_nextCalls : Steady nextCalls := by
  intro w h
  unfold Ends nextCalls
  cases hcalls : w.calls with
  | nil =>
    dsimp only
    constructor
    · intro cs hcs
      cases hcs
    · intro e _
      exact h.inOrder
  | cons cs rest =>
    dsimp only
    constructor
    · intro cs' _
      exact h
    · intro e he
      cases he

theorem keeps_serve (n : Note) : Steady (serve n) :=
  Maintains.bind (keeps_emit fun _ _ => rfl) fun _ => Maintains.bind keeps_nextCalls fun cs =>
    Maintains.each keeps_perform cs

theorem keeps_closed (ch : Tcp) (attempt : ℕ) (why : Octets) : Steady (closed ch attempt why) :=
  Maintains.bind (keeps_closeTcp ch) fun _ => keeps_serve _

theorem keeps_parked (ch : Tcp) : Steady (parked ch) := by
  refine Maintains.bind (keeps_slot ch) fun s => ?_
  cases s.failedToStart with
  | some why => exact Maintains.bind (keeps_closeTcp ch) fun _ => keeps_serve _
  | none =>
    cases s.sendFailed with
    | some why => exact keeps_closed ch _ why
    | none => exact Maintains.pure ()

theorem keeps_burst (u : Udp) (fd : ℤ) (attempt : ℕ) : ∀ n, Steady (burst u fd attempt n)
  | 0 => Maintains.pure ()
  | n + 1 => by
    refine Maintains.bind keeps_ask fun got => Maintains.ite ?_ (Maintains.ite (keeps_burst u fd attempt n) ?_)
    · refine Maintains.bind (keeps_uslot u) fun s => Maintains.bind (keeps_serve _) fun _ => ?_
      refine Maintains.bind (keeps_uslot u) fun s => Maintains.ite (Maintains.pure ()) ?_
      exact keeps_burst u fd attempt n
    · refine Maintains.bind (Maintains.when ?_) fun _ => Maintains.pure ()
      exact Maintains.bind keeps_socketError fun _ => Maintains.pure ()

theorem keeps_readLoop (ch : Tcp) (fd : ℤ) (attempt : ℕ) : ∀ n, Steady (readLoop ch fd attempt n)
  | 0 => keeps_raise
  | n + 1 => by
    refine Maintains.bind keeps_ask fun got => Maintains.ite ?_ (Maintains.ite (keeps_closed ch attempt _) ?_)
    · refine Maintains.bind (keeps_slot ch) fun s => Maintains.bind (keeps_serve _) fun _ => ?_
      refine Maintains.bind (keeps_slot ch) fun s => Maintains.ite (Maintains.pure ()) ?_
      exact keeps_readLoop ch fd attempt n
    · exact Maintains.ite (Maintains.pure ()) (keeps_closed ch attempt _)

theorem keeps_whileConnecting (ch : Tcp) (fd : ℤ) (attempt : ℕ) (re : Revents) :
    Steady (whileConnecting ch fd attempt re) := by
  refine Maintains.ite (Maintains.pure ()) (Maintains.bind keeps_socketError fun err => Maintains.ite ?_ ?_)
  · exact Maintains.bind (keeps_closeTcp ch) fun _ => keeps_serve _
  · refine Maintains.bind (keeps_setTcp ch fun _ _ h => h.flags) fun _ => ?_
    refine Maintains.bind (keeps_slot ch) fun s => ?_
    refine Maintains.bind keeps_endOf fun localEnd => Maintains.bind keeps_endOf fun peer => ?_
    refine Maintains.bind (keeps_serve _) fun _ => ?_
    refine Maintains.bind (keeps_slot ch) fun s => Maintains.ite (Maintains.pure ()) ?_
    refine Maintains.bind (keeps_drain ch) fun fatal => ?_
    cases fatal with
    | none => exact Maintains.pure ()
    | some err => exact keeps_closed ch attempt _

theorem keeps_whileConnected (ch : Tcp) (fd : ℤ) (attempt : ℕ) (re : Revents) :
    Steady (whileConnected ch fd attempt re) := by
  refine Maintains.ite ?_ ?_
  · exact Maintains.bind keeps_socketError fun err => keeps_closed ch attempt _
  · refine Maintains.bind (Maintains.ite (keeps_drain ch) (Maintains.pure none)) fun fatal => ?_
    cases fatal with
    | some err => exact keeps_closed ch attempt _
    | none =>
      refine Maintains.ite ?_ (Maintains.pure ())
      exact Maintains.bind keeps_rounds fun n => keeps_readLoop ch fd attempt n

theorem keeps_deliver (re : Revents) (e : Entry) : Steady (deliver re e) := by
  cases e with
  | tcp ch fd gen attempt =>
    refine Maintains.ite (Maintains.pure ()) (Maintains.bind (keeps_slot ch) fun s => ?_)
    refine Maintains.ite (Maintains.pure ()) (Maintains.ite ?_ ?_)
    · exact keeps_whileConnecting ch fd attempt re
    · exact keeps_whileConnected ch fd attempt re
  | udp u fd gen attempt =>
    refine Maintains.ite (Maintains.pure ()) (Maintains.bind (keeps_uslot u) fun s => ?_)
    refine Maintains.ite (Maintains.pure ()) (Maintains.ite (Maintains.pure ()) ?_)
    exact keeps_burst u fd attempt 64

theorem keeps_pump : Steady pump := by
  refine Maintains.bind (Maintains.each keeps_parked _) fun _ => Maintains.bind Maintains.get fun w => ?_
  refine Maintains.bind (Maintains.when ?_) fun _ => keeps_serve _
  refine Maintains.bind keeps_ask fun polled => Maintains.when ?_
  refine Maintains.each ?_ _
  intro e
  exact keeps_deliver e.2 e.1

/-- One turn, with any scripts. -/
theorem keeps_turn (t : Turn) : Steady (turn t) := by
  cases t with
  | call c answers =>
    exact Maintains.bind (Maintains.modify fun _ h => h.congr rfl rfl) fun _ => keeps_perform c
  | pump answers calls =>
    exact Maintains.bind (Maintains.modify fun _ h => h.congr rfl rfl) fun _ => keeps_pump

/-- **The bytes of a connection keep their order.**  At every moment of every run, whatever the
sender calls and the system answers, the kernel has taken the front of the bytes passed since the
connect, and while the socket is open the others are queued. -/
theorem run_inOrder (turns : List Turn) (ch : Tcp) :
    InOrder ((run turns).tcp ch) (passed ch (run turns).trace) := by
  have hstart : World.Ready {} := fun ch => .fresh rfl rfl rfl
  exact (Maintains.each keeps_turn turns {} hstart).final (fun _ h => h.inOrder) ch

end Io

end AirplaySender.Loop
