/-
# The timers, the staging of audio, and what moves them

A `Pulse` is the part of a world that has to do with time and sound: the five timers and the clock,
the ring and the staging behind it, and the entries of the trace that begin a session or belong to
an audio packet.  `Beat` lists every way a call moves it.  Only `arm_`, `disarm_` and the intervals
of the feedback timer touch a timer, only `start` clears the staging, and only a packet takes frames
from the ring.

Nothing need be known of a world to know its next beat, so the walk over the code that finds the
acts of the wire finds the beats as it goes (`Acts`).  What the application may call from inside a
callback (`Ok`) is a guard of the relation.  A timer that falls due is no beat: `tick` begins with it
(`Pulse.lapsed`).
-/
import AirplaySender.Core
import AirplaySender.View

namespace AirplaySender

open Octets Prog

/-! ## 1. The projection -/

/-- An entry that begins a session, or belongs to an audio packet. -/
def Entry.sounds : Entry → Bool
  | .started .. => true
  | .udpSend .audio _ _ => true
  | .sealed .audio .. => true
  | .keyRefused .audio => true
  | _ => false

/-- The timers and the staging, and the answers in store that they depend on. -/
structure Pulse where
  timers : TimerId → Timer
  ring : Option ℕ
  inputRate : UInt32
  inBuf : List Int16
  srcPhase : ℚ
  steady : Stream' ℤ
  rings : ℕ → List Int16
  produced : Stream' (List Int16)
  reactions : Stream' (List Api)
  log : List Entry

def pulseOf (w : World) : Pulse where
  timers := w.s.timer
  ring := w.s.ring
  inputRate := w.s.inputRate
  inBuf := w.s.inBuf
  srcPhase := w.s.srcPhase
  steady := w.env.steady
  rings := w.env.rings
  produced := w.env.produced
  reactions := w.env.reactions
  log := w.out.filter Entry.sounds

/-- The members a pulse shows. -/
def Sender.beating (s : Sender) : (TimerId → Timer) × Option ℕ × UInt32 × List Int16 × ℚ :=
  (s.timer, s.ring, s.inputRate, s.inBuf, s.srcPhase)

/-- The pulse as a view. -/
def pulseView : View ((TimerId → Timer) × Option ℕ × UInt32 × List Int16 × ℚ)
    (Stream' ℤ × (ℕ → List Int16) × Stream' (List Int16) × Stream' (List Api)) where
  members := Sender.beating
  store env := (env.steady, env.rings, env.produced, env.reactions)
  shows := Entry.sounds

/-- The longest interval each timer is ever given, in milliseconds. -/
def TimerId.longest : TimerId → ℕ
  | .pacer => 8
  | .syncTimer => 1000
  | .timeout => 10000
  | .pinTimeout => 180000
  | .feedbackTimer => 25000

/-- Change one timer. -/
def Pulse.setTimer (p : Pulse) (f : Timer → Timer) (t : TimerId) : Pulse :=
  { p with timers := Function.update p.timers t (f (p.timers t)) }

/-- Take a reading. -/
def Pulse.read (p : Pulse) : Pulse := { p with steady := p.steady.tail }

/-- Stop all timers. -/
def Pulse.stopped (p : Pulse) : Pulse :=
  { p with timers := fun t => { p.timers t with active := false } }

/-- Add entries to the trace. -/
def Pulse.adds (p : Pulse) (es : List Entry) : Pulse := { p with log := es ++ p.log }

/-- A timer that falls due at a reading of the clock: it repeats, or it is done. -/
def Pulse.lapsed (p : Pulse) (now : ℤ) (t : TimerId) : Pulse :=
  p.setTimer (fun x =>
    if x.repeating then { x with due := now + x.interval * 1000000 }
    else { x with active := false }) t

theorem timer_setTimer (s : Sender) (f : Timer → Timer) (t : TimerId) :
    (s.setTimer f t).timer = Function.update s.timer t (f (s.timer t)) := by
  funext u
  cases t <;> cases u <;> rfl

theorem pulse_of_view {w w' : World} (h : pulseView.of w' = pulseView.of w) :
    pulseOf w' = pulseOf w := by
  simp only [View.of, pulseView, Sender.beating, Prod.mk.injEq] at h
  obtain ⟨⟨htimers, hring, hrate, hbuf, hphase⟩, ⟨hsteady, hrings, hproduced, hreactions⟩, hlog⟩ := h
  simp only [pulseOf, htimers, hring, hrate, hbuf, hphase, hsteady, hrings, hproduced, hreactions,
    hlog]

theorem pulseOf_setTimer (w : World) (f : Timer → Timer) (t : TimerId) :
    pulseOf { w with s := w.s.setTimer f t } = (pulseOf w).setTimer f t := by
  have hrest : (w.s.setTimer f t).ring = w.s.ring ∧ (w.s.setTimer f t).inputRate = w.s.inputRate ∧
      (w.s.setTimer f t).inBuf = w.s.inBuf ∧ (w.s.setTimer f t).srcPhase = w.s.srcPhase := by
    cases t <;> exact ⟨rfl, rfl, rfl, rfl⟩
  obtain ⟨hring, hrate, hbuf, hphase⟩ := hrest
  simp only [pulseOf, Pulse.setTimer, timer_setTimer, hring, hrate, hbuf, hphase]

/-- All timers are stopped. -/
theorem pulseOf_stopTimers {s s' : Sender} {env : Env} {out out' : List Entry}
    (hs : s'.beating = s.stopTimers.beating)
    (hout : out'.filter Entry.sounds = out.filter Entry.sounds) :
    pulseOf ⟨s', env, out'⟩ = (pulseOf ⟨s, env, out⟩).stopped := by
  have htimers : s.stopTimers.timer = fun t => { s.timer t with active := false } := by
    funext t
    cases t <;> rfl
  have hstopped : (pulseOf ⟨s, env, out⟩).stopped = pulseOf ⟨s.stopTimers, env, out⟩ := by
    simp only [Pulse.stopped, pulseOf, htimers]
    rfl
  rw [hstopped]
  exact pulse_of_view (View.of_congr hs rfl hout)

/-! ## 2. The beats -/

section Beats

variable [Primitives]

/-- The entries of a packet: in the clear, sealed, or a key that the cipher refuses. -/
inductive Sent (samples : List Int16) : List Entry → Prop
  | plain (dest : Endpoint) (header : Octets) (hheader : header.length = 12) :
      Sent samples
        [.udpSend .audio dest (header ++ samples.flatMap fun x => beBytes 2 (sampleBits x))]
  | sealed (dest : Endpoint) (header key : Octets) (nonce : UInt64) (hheader : header.length = 12)
      (hkey : key.length = 32) :
      Sent samples
        [.udpSend .audio dest (header ++
          (chachaSeal key (counterNonce8 nonce) (encodeAlacFrame samples)
            ((header.drop 4).take 8) ++ counterNonce8 nonce)),
          .sealed .audio key (counterNonce8 nonce) ((header.drop 4).take 8)
            (encodeAlacFrame samples)]
  | refused : Sent samples [.keyRefused .audio]

/-- What a call can do to a pulse. -/
inductive Beat (Ok : Action → Prop) (p : Pulse) : Pulse → Prop
  | read : Beat Ok p p.read
  | arm (t : TimerId) : Beat Ok p (p.read.setTimer (fun x =>
      { x with due := p.steady.head + x.interval * 1000000, active := true }) t)
  | disarm (t : TimerId) : Beat Ok p (p.setTimer (fun x => { x with active := false }) t)
  | still : Beat Ok p p.stopped
  | retime (t : TimerId) (interval : ℕ) (hpos : 0 < interval) (hlong : interval ≤ t.longest) :
      Beat Ok p (p.setTimer (fun x => { x with interval }) t)
  | react : Beat Ok p { p with reactions := p.reactions.tail }
  | attach (ring : Option ℕ) (hok : Ok (.call (.attachRing ring))) : Beat Ok p { p with ring }
  | format (sampleRate : UInt32) (hok : Ok (.call (.setInputFormat sampleRate))) :
      Beat Ok p { p with inputRate := if 0 < sampleRate then sampleRate else 48000 }
  | begin (auth : Auth) (airplay2 strict : Bool) :
      Beat Ok p ({ p with inBuf := [], srcPhase := 0 }.adds [.started auth airplay2 strict])
  | play {w w' : World} {samples : List Int16} {es : List Entry} (hw : pulseOf w = p)
      (hfill : fillFrames framesPerPacket w = (.ok samples, w')) (hsent : Sent samples es) :
      Beat Ok p ((pulseOf w').adds es)

/-- What an action can do to a pulse: beats, and in a tick a timer falls due. -/
def Swings (Ok : Action → Prop) (a : Action) (p p' : Pulse) : Prop :=
  Beat Ok p p' ∨ a = .tick ∧ ∃ now t, p' = p.lapsed now t

end Beats

end AirplaySender
