/-
# The calls of the sender

A `RaopIo` call changes one slot and says nothing.  `Linked` ties the slots to the books: a slot
serves the last attempt of its channel, has a socket only while there is something to notify, and is
connected only while the attempt is up.  What a call does to its slot is what the books say it does
(`reaches_body`), whatever the system answers; the queues and the answers left are not part of that
(`World.quiet`).
-/
import AirplaySender.LoopBooks

namespace AirplaySender.Loop

open Octets Prog

/-! ## 1. What the slots have to do with the books -/

/-- A slot that serves attempt `k`, which has come to phase `p`. -/
structure TcpSlot.Serves (s : TcpSlot) (k : ℕ) (p : Phase) : Prop where
  attempt : s.attempt = k
  gen : s.gen = UInt32.ofNat k
  ended : p = .ended →
    s.fd = badSock ∧ s.connected = false ∧ s.failedToStart = none ∧ s.sendFailed = none
  waiting : p = .waiting → s.connected = false ∧ s.sendFailed = none ∧
    (s.fd = badSock ∨ s.connecting = true ∧ s.failedToStart = none)
  up : p = .up → s.connected = true ∧ s.connecting = false ∧ s.failedToStart = none

/-- A slot that serves bind `k`. -/
structure UdpSlot.Serves (s : UdpSlot) (k : ℕ) (held : Bool) : Prop where
  attempt : s.attempt = k
  gen : s.gen = UInt32.ofNat k
  free : held = false → s.fd = badSock

/-- The slots of a world and the books of its trace. -/
structure Linked (w : World) (b : Books) : Prop where
  tcp : ∀ ch, (w.tcp ch).Serves (b.tcp ch).1 (b.tcp ch).2
  udp : ∀ u, (w.udp u).Serves (b.udp u).1 (b.udp u).2

namespace TcpSlot.Serves

variable {s : TcpSlot} {k : ℕ} {p : Phase}

/-- A slot that is closed serves the end of its attempt. -/
theorem reset (h : s.Serves k p) : s.reset.Serves k .ended where
  attempt := h.attempt
  gen := h.gen
  ended := fun _ => ⟨rfl, rfl, rfl, rfl⟩
  waiting := fun h => by cases h
  up := fun h => by cases h

/-- A slot that is opened anew has no socket yet. -/
theorem opened (h : s.Serves k .ended) :
    TcpSlot.Serves { s with gen := s.gen + 1, attempt := s.attempt + 1, taken := [] } (k + 1)
      .waiting where
  attempt := by rw [← h.attempt]
  gen := by
    simp only [h.gen]
    exact (UInt32.ofNat_add k 1).symm
  ended := fun h => by cases h
  waiting := fun _ => ⟨(h.ended rfl).2.1, (h.ended rfl).2.2.2, .inl (h.ended rfl).1⟩
  up := fun h => by cases h

/-- Only a socket that is up is connected. -/
theorem up_of_connected (h : s.Serves k p) (hc : s.connected = true) : p = .up := by
  cases hp : p with
  | waiting => exact absurd hc (by simp [(h.waiting hp).1])
  | up => rfl
  | ended => exact absurd hc (by simp [(h.ended hp).2.1])

end TcpSlot.Serves

namespace UdpSlot.Serves

variable {s : UdpSlot} {k : ℕ} {held : Bool}

theorem close (h : s.Serves k held) : UdpSlot.Serves { s with fd := badSock } k false :=
  ⟨h.attempt, h.gen, fun _ => rfl⟩

theorem opened (h : s.Serves k false) :
    UdpSlot.Serves { s with gen := s.gen + 1, attempt := s.attempt + 1 } (k + 1) false where
  attempt := by rw [← h.attempt]
  gen := by
    simp only [h.gen]
    exact (UInt32.ofNat_add k 1).symm
  free := h.free

theorem bound (h : s.Serves k held) (fd : ℤ) : UdpSlot.Serves { s with fd := fd } k true :=
  ⟨h.attempt, h.gen, fun h => by cases h⟩

end UdpSlot.Serves

namespace Linked

variable {w w' : World} {b : Books} {ch : Tcp} {u : Udp}

theorem setTcp {s : TcpSlot} {k : ℕ} {p : Phase} (h : Linked w b) (hs : s.Serves k p) :
    Linked { w with tcp := Function.update w.tcp ch s } (b.setTcp ch k p) where
  tcp := fun ch' => by
    by_cases hch : ch' = ch
    · subst hch
      simpa [Books.setTcp] using hs
    · simpa [Books.setTcp, hch] using h.tcp ch'
  udp := h.udp

theorem setUdp {s : UdpSlot} {k : ℕ} {held : Bool} (h : Linked w b) (hs : s.Serves k held) :
    Linked { w with udp := Function.update w.udp u s } (b.setUdp u k held) where
  tcp := h.tcp
  udp := fun u' => by
    by_cases hu : u' = u
    · subst hu
      simpa [Books.setUdp] using hs
    · simpa [Books.setUdp, hu] using h.udp u'

end Linked

/-! ## 2. A call of the sender -/

/-- A world but for the queues and the answers left. -/
def World.quiet (w : World) : World :=
  { w with answers := [], tcp := fun ch => { w.tcp ch with out := [], outOff := 0, taken := [] } }

/-- The books are not about the queues. -/
theorem Linked.of_quiet {w w' : World} {b : Books} (h : Linked w b) (hq : w'.quiet = w.quiet) :
    Linked w' b := by
  have hquiet : Linked w.quiet b := by
    constructor
    · intro ch
      have hs := h.tcp ch
      exact ⟨hs.attempt, hs.gen, hs.ended, hs.waiting, hs.up⟩
    · exact h.udp
  rw [← hq] at hquiet
  constructor
  · intro ch
    have hs := hquiet.tcp ch
    exact ⟨hs.attempt, hs.gen, hs.ended, hs.waiting, hs.up⟩
  · exact hquiet.udp

/-- Nothing passes between the sender and the loop. -/
def Silent (w w' : World) : Prop := w'.trace = w.trace ∧ w'.calls = w.calls

variable {α : Type} {w w' : World} {b b' : Books}

/-- What leaves a quiet world alone passes nothing on. -/
theorem reaches_of_fixes {m : M α} {Q : α → World → Prop} (hm : Fixes World.quiet m)
    (hQ : ∀ a w', w'.quiet = w.quiet → Q a w') : Reaches Silent w m Q := by
  constructor
  · have htrace : (m w).2.quiet.trace = w.quiet.trace := by rw [hm w]
    have hcalls : (m w).2.quiet.calls = w.quiet.calls := by rw [hm w]
    exact .single ⟨htrace, hcalls⟩
  · intro a _
    exact hQ a _ (hm w)

/-- An answer is taken off the list, which a quiet world does not have. -/
theorem fixes_ask : Fixes World.quiet ask := by
  intro w
  unfold ask
  cases w.answers with
  | nil => rfl
  | cons a rest => rfl

theorem fixes_slot (ch : Tcp) : Fixes World.quiet (slot ch) :=
  Fixes.bind Fixes.get fun _ => Fixes.pure _

theorem fixes_rounds : Fixes World.quiet rounds := Fixes.bind Fixes.get fun _ => Fixes.pure _

/-- A change to the queue of a slot. -/
theorem fixes_queue (ch : Tcp) {f : TcpSlot → TcpSlot}
    (hf : ∀ s, { f s with out := [], outOff := 0, taken := [] } =
      { s with out := [], outOff := 0, taken := [] }) :
    Fixes World.quiet (setTcp ch f) := by
  intro w
  unfold setTcp
  simp only [modify_run, World.quiet, World.mk.injEq, and_true]
  funext ch'
  by_cases hch : ch' = ch
  · subst hch
    simpa using hf (w.tcp ch')
  · simp [hch]

theorem fixes_endOf : Fixes World.quiet endOf := Fixes.bind fixes_ask fun _ => Fixes.pure _

theorem fixes_socketError : Fixes World.quiet socketError :=
  Fixes.bind fixes_ask fun _ => Fixes.pure _

/-- A slot is overwritten by one that serves some attempt. -/
theorem reaches_setTcp {ch : Tcp} {f : TcpSlot → TcpSlot} {k : ℕ} {p : Phase}
    {Q : Unit → World → Prop} (h : Linked w b) (hf : (f (w.tcp ch)).Serves k p)
    (hQ : ∀ w', Linked w' (b.setTcp ch k p) → w'.tcp ch = f (w.tcp ch) → Q () w') :
    Reaches Silent w (setTcp ch f) Q := by
  refine Reaches.modify ⟨rfl, rfl⟩ (hQ _ (h.setTcp hf) ?_)
  simp

theorem reaches_setUdp {u : Udp} {f : UdpSlot → UdpSlot} {k : ℕ} {held : Bool}
    {Q : Unit → World → Prop} (h : Linked w b) (hf : (f (w.udp u)).Serves k held)
    (hQ : ∀ w', Linked w' (b.setUdp u k held) → w'.udp u = f (w.udp u) → Q () w') :
    Reaches Silent w (setUdp u f) Q := by
  refine Reaches.modify ⟨rfl, rfl⟩ (hQ _ (h.setUdp hf) ?_)
  simp

/-- A slot is read. -/
theorem reaches_slot {R : World → World → Prop} {ch : Tcp} {Q : TcpSlot → World → Prop}
    (hQ : Q (w.tcp ch) w) : Reaches R w (slot ch) Q :=
  Reaches.bind (Reaches.get (Reaches.pure hQ))

theorem reaches_uslot {R : World → World → Prop} {u : Udp} {Q : UdpSlot → World → Prop}
    (hQ : Q (w.udp u) w) : Reaches R w (uslot u) Q :=
  Reaches.bind (Reaches.get (Reaches.pure hQ))

/-- The system answers, or the run stops here. -/
theorem reaches_ask {Q : Answer → World → Prop} (h : Linked w b)
    (hQ : ∀ a w', Linked w' b → w'.tcp = w.tcp → w'.udp = w.udp → Q a w') :
    Reaches Silent w ask Q := by
  unfold ask
  cases hanswers : w.answers with
  | nil =>
    constructor
    · simp only [hanswers]
      exact .refl
    · intro a ha
      simp only [hanswers] at ha
      cases ha
  | cons a rest =>
    constructor
    · simp only [hanswers]
      exact .single ⟨rfl, rfl⟩
    · intro a' ha
      simp only [hanswers] at ha ⊢
      cases ha
      exact hQ a _ ⟨h.tcp, h.udp⟩ rfl rfl

/-- `udpBind` is a bind in the books, which holds where it returns a port. -/
theorem reaches_udpBind {u : Udp} (h : Linked w b) : Reaches Silent w (udpBind u) fun port w' =>
    Linked w' (b.setUdp u ((b.udp u).1 + 1) (port ≠ 0)) := by
  unfold udpBind closeUdp
  refine Reaches.bind (reaches_setUdp h (h.udp u).close ?_)
  intro w₁ h₁ _
  have hs₁ : (w₁.udp u).Serves (b.udp u).1 false := by simpa using h₁.udp u
  refine Reaches.bind (reaches_setUdp h₁ hs₁.opened ?_)
  intro w₂ h₂ _
  rw [Books.setUdp_setUdp] at h₂
  refine Reaches.bind (reaches_ask h₂ ?_)
  intro sock w₃ h₃ _ _
  refine Reaches.ite (fun _ => Reaches.pure h₃) (fun _ => Reaches.bind (reaches_ask h₃ ?_))
  intro bound w₄ h₄ _ _
  refine Reaches.ite (fun _ => Reaches.pure h₄) (fun _ => ?_)
  refine Reaches.bind (reaches_of_fixes fixes_endOf ?_)
  intro localEnd w₅ hq₅
  have h₅ := h₄.of_quiet hq₅
  refine Reaches.ite (fun _ => Reaches.pure h₅) (fun hport => ?_)
  have hs₅ : (w₅.udp u).Serves ((b.udp u).1 + 1) false := by simpa using h₅.udp u
  refine Reaches.bind (reaches_setUdp h₅ (hs₅.bound sock.ret) ?_)
  intro w₆ h₆ _
  rw [Books.setUdp_setUdp] at h₆
  exact Reaches.pure (by simpa [hport] using h₆)

/-- Sending a datagram changes no slot. -/
theorem reaches_udpSend {u : Udp} (h : Linked w b) :
    Reaches Silent w (udpSend u) fun _ w' => Linked w' b := by
  unfold udpSend
  refine Reaches.bind (reaches_uslot ?_)
  refine Reaches.ite (fun _ => Reaches.pure h) (fun _ => Reaches.bind (reaches_ask h ?_))
  intro parsed w₁ h₁ _ _
  refine Reaches.ite (fun _ => Reaches.pure h₁) (fun _ => Reaches.bind (reaches_ask h₁ ?_))
  intro _ w₂ h₂ _ _
  exact Reaches.pure h₂

section Io

variable [Platform]

/-- Draining moves bytes of the queue to the system; the induction is on the rounds. -/
theorem fixes_drainLoop (ch : Tcp) : ∀ n, Fixes World.quiet (drainLoop ch n)
  | 0 => Fixes.raise ()
  | n + 1 => by
    refine Fixes.bind (fixes_slot ch) fun s => Fixes.ite ?_ ?_
    · refine Fixes.bind fixes_ask fun sent => Fixes.ite ?_ ?_
      · exact Fixes.bind (fixes_queue ch fun _ => rfl) fun _ => fixes_drainLoop ch n
      · exact Fixes.ite (Fixes.pure _) (Fixes.pure _)
    · exact Fixes.bind (fixes_queue ch fun _ => rfl) fun _ => Fixes.pure _

theorem fixes_drain (ch : Tcp) : Fixes World.quiet (drain ch) :=
  Fixes.bind fixes_rounds fun n => fixes_drainLoop ch n

/-- Flushing is draining until a deadline. -/
theorem fixes_flushLoop (ch : Tcp) (sendDeadline : ℤ) :
    ∀ n, Fixes World.quiet (flushLoop ch sendDeadline n)
  | 0 => Fixes.raise ()
  | n + 1 => by
    refine Fixes.bind (fixes_slot ch) fun s => Fixes.ite ?_ (Fixes.pure ())
    refine Fixes.bind fixes_ask fun now => Fixes.ite ?_ (Fixes.pure ())
    refine Fixes.bind (fixes_drain ch) fun err => ?_
    cases err with
    | some err => exact Fixes.pure ()
    | none =>
      refine Fixes.bind (fixes_slot ch) fun s => Fixes.ite (Fixes.pure ()) ?_
      refine Fixes.bind fixes_ask fun _ => Fixes.bind fixes_ask fun _ => ?_
      exact fixes_flushLoop ch sendDeadline n

/-- Waiting for the FIN only asks. -/
theorem fixes_finLoop (finDeadline : ℤ) : ∀ n, Fixes World.quiet (finLoop finDeadline n)
  | 0 => Fixes.raise ()
  | n + 1 => by
    refine Fixes.bind fixes_ask fun now => Fixes.ite (Fixes.pure ()) ?_
    refine Fixes.bind fixes_ask fun polled => Fixes.ite (Fixes.pure ()) ?_
    refine Fixes.bind fixes_ask fun got => Fixes.ite (fixes_finLoop finDeadline n) ?_
    exact Fixes.ite (fixes_finLoop finDeadline n) (Fixes.pure ())

/-- `tcpConnect` is an attempt in the books, failed or not: the failure is kept in the slot and
notified later. -/
theorem reaches_tcpConnect {ch : Tcp} {host : Octets} (h : Linked w b) :
    Reaches Silent w (tcpConnect ch host) fun _ w' =>
      Linked w' (b.setTcp ch ((b.tcp ch).1 + 1) .waiting) := by
  unfold tcpConnect closeTcp
  refine Reaches.bind (reaches_setTcp h (h.tcp ch).reset ?_)
  intro w₁ h₁ hslot₁
  have hs₁ : (w₁.tcp ch).Serves (b.tcp ch).1 .ended := by simpa using h₁.tcp ch
  refine Reaches.bind (reaches_setTcp h₁ hs₁.opened ?_)
  intro w₂ h₂ hslot₂
  rw [Books.setTcp_setTcp] at h₂
  have hs₂ : (w₂.tcp ch).Serves ((b.tcp ch).1 + 1) .waiting := by simpa using h₂.tcp ch
  have hfd : (w₂.tcp ch).fd = badSock := by rw [hslot₂, hslot₁]; rfl
  have hnone : (w₂.tcp ch).failedToStart = none := by rw [hslot₂, hslot₁]; rfl
  generalize hk : (b.tcp ch).1 + 1 = k at h₂ hs₂ ⊢
  -- a slot whose attempt failed to start still has no socket
  have hfailed : ∀ why, TcpSlot.Serves { w₂.tcp ch with failedToStart := some why } k .waiting :=
    fun why =>
      { attempt := hs₂.attempt
        gen := hs₂.gen
        ended := fun h => by cases h
        waiting := fun _ => ⟨(hs₂.waiting rfl).1, (hs₂.waiting rfl).2.1, .inl hfd⟩
        up := fun h => by cases h }
  refine Reaches.bind (reaches_ask h₂ ?_)
  intro res w₃ h₃ htcp₃ _
  refine Reaches.ite (fun _ => ?_) (fun _ => Reaches.bind (reaches_ask h₃ ?_))
  · refine reaches_setTcp h₃ (by rw [htcp₃]; exact hfailed _) ?_
    intro w' h' _
    rwa [Books.setTcp_setTcp] at h'
  intro sock w₄ h₄ htcp₄ _
  refine Reaches.ite (fun _ => ?_) (fun _ => Reaches.bind (reaches_ask h₄ ?_))
  · refine reaches_setTcp h₄ (by rw [htcp₄, htcp₃]; exact hfailed _) ?_
    intro w' h' _
    rwa [Books.setTcp_setTcp] at h'
  intro rc w₅ h₅ htcp₅ _
  refine Reaches.ite (fun _ => ?_) (fun _ => ?_)
  · refine reaches_setTcp h₅ (by rw [htcp₅, htcp₄, htcp₃]; exact hfailed _) ?_
    intro w' h' _
    rwa [Books.setTcp_setTcp] at h'
  · refine reaches_setTcp h₅ (k := k) (p := .waiting) ?_ ?_
    · rw [htcp₅, htcp₄, htcp₃]
      exact {
        attempt := hs₂.attempt
        gen := hs₂.gen
        ended := fun h => by cases h
        waiting := fun _ => ⟨rfl, (hs₂.waiting rfl).2.1, .inr ⟨rfl, hnone⟩⟩
        up := fun h => by cases h }
    · intro w' h' _
      rwa [Books.setTcp_setTcp] at h'

/-- `tcpSend` queues bytes, and keeps a failure for later. -/
theorem reaches_tcpSend {ch : Tcp} {bytes : Octets} (h : Linked w b) :
    Reaches Silent w (tcpSend ch bytes) fun _ w' => Linked w' b := by
  unfold tcpSend
  refine Reaches.bind (reaches_slot ?_)
  refine Reaches.ite (fun _ => Reaches.pure h) (fun _ => ?_)
  refine Reaches.bind (reaches_of_fixes (fixes_queue ch fun _ => rfl) ?_)
  intro _ w₁ hq₁
  refine Reaches.ite (fun _ => Reaches.pure (h.of_quiet hq₁)) (fun hconnected => ?_)
  refine Reaches.bind (reaches_of_fixes (fixes_drain ch) ?_)
  intro fatal w₂ hq₂
  have h₂ := h.of_quiet (hq₂.trans hq₁)
  cases fatal with
  | none => exact Reaches.pure h₂
  | some err =>
    have hsame : (w₂.quiet.tcp ch).connected = (w.quiet.tcp ch).connected := by rw [hq₂, hq₁]
    have hup := (h.tcp ch).up_of_connected (by simpa using hconnected)
    have hs := h₂.tcp ch
    rw [hup] at hs
    refine reaches_setTcp h₂ (k := (b.tcp ch).1) (p := .up) ?_ ?_
    · exact {
        attempt := hs.attempt
        gen := hs.gen
        ended := fun h => by cases h
        waiting := fun h => by cases h
        up := hs.up }
    · intro w' h' _
      rwa [Books.setTcp_self hup] at h'

/-- `tcpClose` ends the attempt of its channel, with the queue flushed before where that is asked. -/
theorem reaches_tcpClose {ch : Tcp} {flush : Bool} (h : Linked w b) :
    Reaches Silent w (tcpClose ch flush) fun _ w' => Linked w' (b.setTcp ch (b.tcp ch).1 .ended) := by
  have hclose : ∀ w', Linked w' b → Reaches Silent w' (setTcp ch TcpSlot.reset) fun _ w'' =>
      Linked w'' (b.setTcp ch (b.tcp ch).1 .ended) := by
    intro w' h'
    exact reaches_setTcp h' (h'.tcp ch).reset fun _ h'' _ => h''
  unfold tcpClose closeTcp
  refine Reaches.bind (reaches_slot ?_)
  refine Reaches.ite (fun _ => hclose w h) (fun _ => ?_)
  have hflush : Fixes World.quiet (do
      let now ← ask
      flushLoop ch (now.ret + 500) (← rounds)
      let now ← ask
      finLoop (now.ret + 300) (← rounds)) := by
    refine Fixes.bind fixes_ask fun now => Fixes.bind fixes_rounds fun n => ?_
    refine Fixes.bind (fixes_flushLoop ch _ n) fun _ => Fixes.bind fixes_ask fun now => ?_
    exact Fixes.bind fixes_rounds fun n => fixes_finLoop _ n
  refine Reaches.bind (reaches_of_fixes (Fixes.when hflush) ?_)
  intro _ w' hq
  exact hclose w' (h.of_quiet hq)

/-- **A `RaopIo` call does what it is said to do**, and says nothing. -/
theorem reaches_body (c : Call) (h : Linked w b) : Reaches Silent w (body c) fun port w' =>
    Linked w' ((b.begin c).finish port c) := by
  cases c with
  | tcpConnect ch host port =>
    exact Reaches.bind ((reaches_tcpConnect h).mono fun _ _ h' => Reaches.pure h')
  | tcpSend ch bytes => exact Reaches.bind ((reaches_tcpSend h).mono fun _ _ h' => Reaches.pure h')
  | tcpClose ch flush =>
    exact Reaches.bind ((reaches_tcpClose h).mono fun _ _ h' => Reaches.pure h')
  | udpBind u =>
    refine (reaches_udpBind h).mono ?_
    intro port w' h'
    simpa [Books.begin, Books.finish] using h'
  | udpSend u dest bytes =>
    exact Reaches.bind ((reaches_udpSend h).mono fun _ _ h' => Reaches.pure h')
  | udpClose u =>
    refine Reaches.bind (reaches_setUdp h (h.udp u).close ?_)
    intro w' h' _
    exact Reaches.pure h'

end Io

end AirplaySender.Loop
