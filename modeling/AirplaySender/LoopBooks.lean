/-
# What a sender may rely on

`Books` is what a sender may rely on, kept by nobody but these modules: for each TCP channel the
number of the last attempt and how far it has come, for each UDP socket the number of the last bind
and whether the socket is held, and the `RaopIo` call that is under way.  `Books.hear` takes an
event only if it is in order.  A notification names the current attempt: it is connected or failed
while the attempt waits, which both end; it has data or is closed while the attempt is up, which
closing ends; and a call of the sender that closes or replaces the socket leaves nothing to notify.
None is taken while a call is under way.

No event takes a channel back to something earlier (`Before`), and a call opens at most one attempt
(`Below`).
-/
import AirplaySender.Loop

namespace AirplaySender.Loop

open Octets Prog

/-! ## 1. The books -/

/-- How far an attempt has come. -/
inductive Phase
  | waiting
  | up
  | ended
  deriving DecidableEq

/-- What an attempt has come to, in the order of the attempts. -/
def Phase.rank : Phase → ℕ
  | .waiting => 0
  | .up => 1
  | .ended => 2

/-- The last attempt of each channel, the last bind of each socket, and the call under way. -/
structure Books where
  tcp : Tcp → ℕ × Phase := fun _ => (0, .ended)
  udp : Udp → ℕ × Bool := fun _ => (0, false)
  inside : Option Call := none

namespace Books

def setTcp (b : Books) (ch : Tcp) (k : ℕ) (p : Phase) : Books :=
  { b with tcp := Function.update b.tcp ch (k, p) }

def setUdp (b : Books) (u : Udp) (k : ℕ) (held : Bool) : Books :=
  { b with udp := Function.update b.udp u (k, held) }

/-- The sender opens or gives up a socket. -/
def begin (b : Books) : Call → Books
  | .tcpConnect ch _ _ => b.setTcp ch ((b.tcp ch).1 + 1) .waiting
  | .tcpClose ch _ => b.setTcp ch (b.tcp ch).1 .ended
  | .udpBind u => b.setUdp u ((b.udp u).1 + 1) false
  | .udpClose u => b.setUdp u (b.udp u).1 false
  | .tcpSend _ _ => b
  | .udpSend _ _ _ => b

/-- A bind that returns a port has a socket. -/
def finish (b : Books) (port : UInt16) : Call → Books
  | .udpBind u => b.setUdp u (b.udp u).1 (port ≠ 0)
  | _ => b

/-- A notification of the current attempt, when there is something to notify. -/
def accept (b : Books) : Note → Option Books
  | .onTcpConnected ch k _ _ => if b.tcp ch = (k, .waiting) then some (b.setTcp ch k .up) else none
  | .onTcpConnectFailed ch k _ =>
    if b.tcp ch = (k, .waiting) then some (b.setTcp ch k .ended) else none
  | .onTcpData ch k _ => if b.tcp ch = (k, .up) then some b else none
  | .onTcpClosed ch k _ => if b.tcp ch = (k, .up) then some (b.setTcp ch k .ended) else none
  | .onUdpDatagram u k _ _ => if b.udp u = (k, true) then some b else none
  | .tick => some b

/-- One event, if it is in order. -/
def hear (b : Books) : Event → Option Books
  | .enter c => if b.inside.isSome then none else some { b.begin c with inside := some c }
  | .leave port => b.inside.map fun c => { b.finish port c with inside := none }
  | .notify n => if b.inside.isSome then none else b.accept n

/-- The books after a trace, the latest event first. -/
def after : List Event → Option Books
  | [] => some {}
  | e :: es => (after es).bind fun b => b.hear e

@[simp] theorem setTcp_tcp (b : Books) (ch : Tcp) (k : ℕ) (p : Phase) :
    (b.setTcp ch k p).tcp ch = (k, p) := Function.update_self ..

@[simp] theorem setUdp_udp (b : Books) (u : Udp) (k : ℕ) (held : Bool) :
    (b.setUdp u k held).udp u = (k, held) := Function.update_self ..

theorem setTcp_self {b : Books} {ch : Tcp} {p : Phase} (h : (b.tcp ch).2 = p) :
    b.setTcp ch (b.tcp ch).1 p = b := by
  subst h
  simp [setTcp]

@[simp] theorem setTcp_setTcp (b : Books) (ch : Tcp) (k k' : ℕ) (p p' : Phase) :
    (b.setTcp ch k p).setTcp ch k' p' = b.setTcp ch k' p' := by
  simp [setTcp]

@[simp] theorem setUdp_setUdp (b : Books) (u : Udp) (k k' : ℕ) (held held' : Bool) :
    (b.setUdp u k held).setUdp u k' held' = b.setUdp u k' held' := by
  simp [setUdp]

end Books

/-- Every event of the run so far was in order. -/
def World.Orderly (w : World) : Prop := (Books.after w.trace).isSome

/-! ## 2. The order of the attempts -/

/-- Whether a call opens a slot. -/
def Call.opens : Call → Tcp ⊕ Udp → ℕ
  | .tcpConnect ch _ _, x => if x = .inl ch then 1 else 0
  | .udpBind u, x => if x = .inr u then 1 else 0
  | _, _ => 0

/-- How often some calls open a slot. -/
def opens (cs : List Call) (x : Tcp ⊕ Udp) : ℕ := (cs.map fun c => c.opens x).sum

theorem opens_cons (c : Call) (cs : List Call) (x : Tcp ⊕ Udp) :
    opens (c :: cs) x = c.opens x + opens cs x := by simp [opens]

theorem opens_append (cs ds : List Call) (x : Tcp ⊕ Udp) :
    opens (cs ++ ds) x = opens cs x + opens ds x := by simp [opens]

namespace Books

/-- No channel or socket is taken back to something earlier. -/
structure Before (b b' : Books) : Prop where
  tcp : ∀ ch, 3 * (b.tcp ch).1 + (b.tcp ch).2.rank ≤ 3 * (b'.tcp ch).1 + (b'.tcp ch).2.rank
  udp : ∀ u, (b.udp u).1 ≤ (b'.udp u).1

/-- The attempts of a channel, the binds of a socket. -/
def count (b : Books) : Tcp ⊕ Udp → ℕ
  | .inl ch => (b.tcp ch).1
  | .inr u => (b.udp u).1

/-- With `n` more attempts none is beyond `B`. -/
def Below (b : Books) (B n : Tcp ⊕ Udp → ℕ) : Prop := ∀ x, b.count x + n x ≤ B x

variable {b b' b'' : Books} {B n : Tcp ⊕ Udp → ℕ}

theorem Before.refl (b : Books) : b.Before b := ⟨fun _ => le_rfl, fun _ => le_rfl⟩

theorem Phase.rank_le (p : Phase) : p.rank ≤ 2 := by
  cases p <;> decide

theorem Before.attempt_le (h : b.Before b') (ch : Tcp) : (b.tcp ch).1 ≤ (b'.tcp ch).1 := by
  have hrank := h.tcp ch
  have hmax := Phase.rank_le (b'.tcp ch).2
  omega

theorem Before.trans (h : b.Before b') (h' : b'.Before b'') : b.Before b'' :=
  ⟨fun ch => (h.tcp ch).trans (h'.tcp ch), fun u => (h.udp u).trans (h'.udp u)⟩

theorem before_setTcp {ch : Tcp} {k : ℕ} {p : Phase}
    (h : 3 * (b.tcp ch).1 + (b.tcp ch).2.rank ≤ 3 * k + p.rank) : b.Before (b.setTcp ch k p) := by
  constructor
  · intro ch'
    by_cases hch : ch' = ch
    · subst hch
      simpa using h
    · simp [setTcp, hch]
  · intro u
    rfl

theorem before_setUdp {u : Udp} {k : ℕ} {held : Bool} (h : (b.udp u).1 ≤ k) :
    b.Before (b.setUdp u k held) := by
  constructor
  · intro ch
    rfl
  · intro u'
    by_cases hu : u' = u
    · subst hu
      simpa using h
    · simp [setUdp, hu]

/-- A call opens at most one attempt. -/
theorem before_begin (b : Books) (c : Call) : b.Before (b.begin c) := by
  cases c with
  | tcpConnect ch host port =>
    have := Phase.rank_le (b.tcp ch).2
    exact before_setTcp (by omega)
  | tcpClose ch flush => exact before_setTcp (Nat.add_le_add_left (Phase.rank_le _) _)
  | udpBind u => exact before_setUdp (by omega)
  | udpClose u => exact before_setUdp le_rfl
  | tcpSend ch bytes => exact Before.refl b
  | udpSend u dest bytes => exact Before.refl b

theorem before_finish (b : Books) (port : UInt16) (c : Call) : b.Before (b.finish port c) := by
  cases c with
  | udpBind u => exact before_setUdp le_rfl
  | _ => exact Before.refl b

theorem before_accept {note : Note} (h : b.accept note = some b') : b.Before b' := by
  cases note with
  | onTcpConnected ch k localEnd peer =>
    obtain ⟨hb, heq⟩ := Option.ite_none_right_eq_some.mp h
    cases heq
    exact before_setTcp (by simp [hb, Phase.rank])
  | onTcpConnectFailed ch k why =>
    obtain ⟨hb, heq⟩ := Option.ite_none_right_eq_some.mp h
    cases heq
    exact before_setTcp (by simp [hb, Phase.rank])
  | onTcpData ch k bytes =>
    obtain ⟨hb, heq⟩ := Option.ite_none_right_eq_some.mp h
    cases heq
    exact Before.refl b
  | onTcpClosed ch k why =>
    obtain ⟨hb, heq⟩ := Option.ite_none_right_eq_some.mp h
    cases heq
    exact before_setTcp (by simp [hb, Phase.rank])
  | onUdpDatagram u k bytes source =>
    obtain ⟨hb, heq⟩ := Option.ite_none_right_eq_some.mp h
    cases heq
    exact Before.refl b
  | tick =>
    cases h
    exact Before.refl b

theorem count_setTcp {ch : Tcp} {k : ℕ} {p : Phase} (x : Tcp ⊕ Udp) :
    (b.setTcp ch k p).count x = if x = .inl ch then k else b.count x := by
  cases x with
  | inl ch' =>
    by_cases hch : ch' = ch
    · subst hch
      simp [count]
    · simp [count, setTcp, hch]
  | inr u => simp [count, setTcp]

theorem count_setUdp {u : Udp} {k : ℕ} {held : Bool} (x : Tcp ⊕ Udp) :
    (b.setUdp u k held).count x = if x = .inr u then k else b.count x := by
  cases x with
  | inl ch => simp [count, setUdp]
  | inr u' =>
    by_cases hu : u' = u
    · subst hu
      simp [count]
    · simp [count, setUdp, hu]

theorem count_begin (b : Books) (c : Call) (x : Tcp ⊕ Udp) :
    (b.begin c).count x = b.count x + c.opens x := by
  cases c with
  | tcpConnect ch host port =>
    rw [begin, count_setTcp]
    by_cases hx : x = .inl ch
    · simp [hx, Call.opens, count]
    · simp [hx, Call.opens]
  | tcpClose ch flush =>
    rw [begin, count_setTcp]
    by_cases hx : x = .inl ch
    · simp [hx, Call.opens, count]
    · simp [hx, Call.opens]
  | udpBind u =>
    rw [begin, count_setUdp]
    by_cases hx : x = .inr u
    · simp [hx, Call.opens, count]
    · simp [hx, Call.opens]
  | udpClose u =>
    rw [begin, count_setUdp]
    by_cases hx : x = .inr u
    · simp [hx, Call.opens, count]
    · simp [hx, Call.opens]
  | tcpSend ch bytes => rfl
  | udpSend u dest bytes => rfl

theorem count_finish (b : Books) (port : UInt16) (c : Call) (x : Tcp ⊕ Udp) :
    (b.finish port c).count x = b.count x := by
  cases c with
  | udpBind u =>
    rw [finish, count_setUdp]
    by_cases hx : x = .inr u
    · simp [hx, count]
    · simp [hx]
  | _ => rfl

theorem count_accept {note : Note} (h : b.accept note = some b') (x : Tcp ⊕ Udp) :
    b'.count x = b.count x := by
  have hkept : ∀ ch k p p', b.tcp ch = (k, p) → (b.setTcp ch k p').count x = b.count x := by
    intro ch k p p' hb
    rw [count_setTcp]
    split
    · rename_i hx
      simp [hx, count, hb]
    · rfl
  cases note with
  | onTcpConnected ch k localEnd peer =>
    obtain ⟨hb, heq⟩ := Option.ite_none_right_eq_some.mp h
    cases heq
    exact hkept ch k _ _ hb
  | onTcpConnectFailed ch k why =>
    obtain ⟨hb, heq⟩ := Option.ite_none_right_eq_some.mp h
    cases heq
    exact hkept ch k _ _ hb
  | onTcpData ch k bytes =>
    obtain ⟨hb, heq⟩ := Option.ite_none_right_eq_some.mp h
    cases heq
    rfl
  | onTcpClosed ch k why =>
    obtain ⟨hb, heq⟩ := Option.ite_none_right_eq_some.mp h
    cases heq
    exact hkept ch k _ _ hb
  | onUdpDatagram u k bytes source =>
    obtain ⟨hb, heq⟩ := Option.ite_none_right_eq_some.mp h
    cases heq
    rfl
  | tick =>
    cases h
    rfl

/-- A notification is not a call. -/
theorem inside_accept {note : Note} (h : b.accept note = some b') : b'.inside = b.inside := by
  cases note with
  | tick =>
    cases h
    rfl
  | _ =>
    obtain ⟨-, heq⟩ := Option.ite_none_right_eq_some.mp h
    cases heq
    rfl

end Books

end AirplaySender.Loop
