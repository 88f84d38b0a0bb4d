/-
# What one pacer tick sends

`onPacerTick_` is a token bucket: a packet of 352 frames is due whenever the frames sent lag the
frames that should have been sent by now, at most sixteen in a tick.  The loop is read as a count
(`paced`) and the count as a quotient (`paced_eq`); both are exact as long as no `uint64_t` wraps.

The product of the elapsed nanoseconds and the rate does wrap, after `2^64 / 44100` nanoseconds or
about 4.84 days, and from then on the target starts over at zero while the counter of frames goes
on.  `Paces` is the exact condition for a tick to send what is due, `paces_exactly` that it is; the
clauses that remain after the wrap are those where nothing is due, or sixteen packets and more.
-/
import AirplaySender.Pointers

namespace AirplaySender

open Octets Prog

variable [Primitives] {w : World}

/-! ## 1. The loop as a count -/

/-- A packet on the audio socket. -/
def Entry.isPacket : Entry → Bool
  | .udpSend .audio _ _ => true
  | _ => false

/-- The audio packets sent so far. -/
def World.packets (w : World) : ℕ := w.out.countP Entry.isPacket

/-- The audio key, where there is one, is a key the cipher takes. -/
def Sealable (s : Sender) : Prop :=
  ∀ a, s.ap2 = some a → a.encryptAudio = true → a.audioKey.length = 32

/-- Every session that got as far as a stream has such a key. -/
theorem Reachable.sealable (h : Reachable w) : Sealable w.s := by
  intro a ha haudio
  exact h.sized.length_audioKey (keys_of_some ha) haudio

/-- With a key the cipher takes a payload is sealed, without one it is left as it is. -/
theorem encryptAudioPayload_run (h : Sealable w.s) (header payload : Octets) :
    ∃ sealed w', encryptAudioPayload header payload w = (.ok sealed, w') ∧ Sealable w'.s ∧
      w'.s.framesSent = w.s.framesSent ∧ w'.packets = w.packets := by
  unfold encryptAudioPayload
  rw [sender_bind]
  cases ha : w.s.ap2 with
  | none => exact ⟨payload, w, rfl, h, rfl, rfl⟩
  | some a =>
    cases hon : a.encryptAudio with
    | false =>
      simp only [hon]
      exact ⟨payload, w, rfl, h, rfl, rfl⟩
    | true =>
      simp only [hon]
      rw [if_neg (by decide), bind_ok (seal_run (h a ha hon) w)]
      simp only [ap2Set, ap2Get, sender, setS, bind_run, Prog.get_run, Prog.modify_run,
        Prog.pure_run, ha, Option.map_some]
      refine ⟨_, _, rfl, ?_, rfl, rfl⟩
      rintro b hb hbon
      obtain rfl := Option.some.inj hb
      exact h a ha hon

/-- **One packet.**  It goes out, and the counter moves on by its frames. -/
theorem sendAudioPacket_run (h : Sealable w.s) : ∃ w', sendAudioPacket w = (.ok (), w') ∧
    Sealable w'.s ∧ w'.s.framesSent = w.s.framesSent + 352 ∧ w'.packets = w.packets + 1 := by
  obtain ⟨samples, w₁, hfill, -, hap2, hsent, hout⟩ := fillFrames_run framesPerPacket w
  have hkey : Sealable w₁.s := by
    intro a ha
    exact h a (hap2 ▸ ha)
  have hcount : w₁.packets = w.packets := by rw [World.packets, hout]; rfl
  obtain ⟨pl, w₂, henc, hkey₂, hsent₂, hcount₂⟩ :=
    encryptAudioPayload_run hkey (rtpHeader w₁.s) (audioPayload w₁.s samples)
  unfold sendAudioPacket
  rw [bind_ok hfill, sender_bind, bind_ok henc]
  refine ⟨_, rfl, hkey₂, ?_, ?_⟩
  · have : w₂.s.framesSent + 352 = w.s.framesSent + 352 := by rw [hsent₂, hsent]
    exact this
  · rw [← hcount, ← hcount₂]
    exact List.countP_cons_of_pos rfl

/-- The packets a tick sends that is still allowed `n` of them, with `sent` frames sent. -/
def paced (target : UInt64) : ℕ → UInt64 → ℕ
  | 0, _ => 0
  | n + 1, sent => if sent + 352 ≤ target then paced target n (sent + 352) + 1 else 0

theorem pacerLoop_run (target : UInt64) (n : ℕ) (h : Sealable w.s) :
    ∃ w', pacerLoop target n w = (.ok (), w') ∧
      w'.packets = w.packets + paced target n w.s.framesSent := by
  induction n generalizing w with
  | zero => exact ⟨w, rfl, rfl⟩
  | succ n ih =>
    rw [pacerLoop, sender_bind, paced]
    by_cases hdue : w.s.framesSent + 352 ≤ target
    · obtain ⟨w₁, hsend, hkey₁, hsent₁, hcount₁⟩ := sendAudioPacket_run h
      obtain ⟨w₂, hloop, hcount₂⟩ := ih hkey₁
      refine ⟨w₂, ?_, ?_⟩
      · rw [Prog.when, if_pos hdue, bind_ok hsend]
        exact hloop
      · rw [hcount₂, hcount₁, hsent₁, if_pos hdue]
        omega
    · refine ⟨w, ?_, ?_⟩
      · rw [Prog.when, if_neg hdue]
        rfl
      · rw [if_neg hdue]
        rfl

/-! ## 2. The count as a quotient -/

omit [Primitives] in
/-- While nothing wraps, the loop divides. -/
theorem paced_eq {target sent : UInt64} (n : ℕ) (hsent : sent.toNat + 352 < 2 ^ 64)
    (htarget : target.toNat + 352 < 2 ^ 64) :
    paced target n sent = min n ((target.toNat - sent.toNat) / 352) := by
  induction n generalizing sent with
  | zero => simp [paced]
  | succ n ih =>
    have hnext : (sent + 352).toNat = sent.toNat + 352 := by
      rw [UInt64.toNat_add]
      exact Nat.mod_eq_of_lt hsent
    have hiff : sent + 352 ≤ target ↔ sent.toNat + 352 ≤ target.toNat := by
      rw [UInt64.le_iff_toNat_le, hnext]
    by_cases hdue : sent + 352 ≤ target
    · have hle := hiff.mp hdue
      rw [paced, if_pos hdue, ih (by omega), hnext]
      omega
    · have hlt := mt hiff.mpr hdue
      rw [paced, if_neg hdue]
      omega

omit [Primitives] in
/-- No packet is sent where the target has not reached the first one, whose number may wrap. -/
theorem paced_eq_zero {target sent : UInt64} :
    paced target 16 sent = 0 ↔ target.toNat < (sent.toNat + 352) % 2 ^ 64 := by
  have hnext : (sent + 352).toNat = (sent.toNat + 352) % 2 ^ 64 := UInt64.toNat_add _ _
  rw [paced, ← hnext]
  by_cases hdue : sent + 352 ≤ target
  · rw [if_pos hdue]
    simpa using UInt64.le_iff_toNat_le.mp hdue
  · rw [if_neg hdue]
    simpa using Nat.not_le.mp (mt UInt64.le_iff_toNat_le.mpr hdue)

/-- The frames due after `e` nanoseconds. -/
def dueFrames (e : ℤ) : ℤ := e * 44100 / 1000000000

/-- The same with the product cut to 64 bits. -/
def wrappedFrames (e : ℤ) : ℤ := e * 44100 % 2 ^ 64 / 1000000000

/-- The packets due after `e` nanoseconds with `sent` frames sent, sixteen at most. -/
def duePackets (e : ℤ) (sent : ℕ) : ℤ := min 16 (max 0 ((dueFrames e - sent) / 352))

omit [Primitives] in
/-- What the source computes is the product cut to 64 bits. -/
theorem toNat_frameTarget (e : ℤ) : ((frameTarget (UInt64.ofInt e)).toNat : ℤ) = wrappedFrames e := by
  have he : ((UInt64.ofInt e).toNat : ℤ) = e % 2 ^ 64 := by
    have hpos : 0 ≤ e % 2 ^ 64 := Int.emod_nonneg _ (by decide)
    have hlt : e % 2 ^ 64 < 2 ^ 64 := Int.emod_lt_of_pos _ (by decide)
    rw [UInt64.ofInt, UInt64.toNat_ofNat', Nat.mod_eq_of_lt (by omega)]
    exact Int.toNat_of_nonneg hpos
  have hprod : (frameTarget (UInt64.ofInt e)).toNat =
      (UInt64.ofInt e).toNat * 44100 % 2 ^ 64 / 1000000000 := by
    simp [frameTarget, UInt64.toNat_div, UInt64.toNat_mul]
  have hmod : e % 2 ^ 64 * 44100 % 2 ^ 64 = e * 44100 % 2 ^ 64 := by
    rw [Int.mul_emod, Int.emod_emod_of_dvd _ dvd_rfl, ← Int.mul_emod]
  rw [hprod, wrappedFrames, ← hmod, ← he]
  push_cast
  rfl

omit [Primitives] in
/-- Before the wrap the two are one. -/
theorem wrappedFrames_eq {e : ℤ} (hpos : 0 ≤ e) (hfits : e * 44100 < 2 ^ 64) :
    wrappedFrames e = dueFrames e := by
  rw [wrappedFrames, Int.emod_eq_of_lt (by omega) hfits, dueFrames]

omit [Primitives] in
/-- After it they are further apart than a burst. -/
theorem wrappedFrames_far {e : ℤ} (hwraps : 2 ^ 64 ≤ e * 44100) :
    wrappedFrames e + 5984 ≤ dueFrames e := by
  have hr : e * 44100 % 2 ^ 64 + 2 ^ 64 ≤ e * 44100 := by
    have hq : 1 ≤ e * 44100 / 2 ^ 64 := (Int.le_ediv_iff_mul_le (by decide)).mpr (by simpa using hwraps)
    have hdiv := Int.emod_add_mul_ediv (e * 44100) (2 ^ 64)
    omega
  unfold wrappedFrames dueFrames
  omega

omit [Primitives] in
theorem wrappedFrames_bounds (e : ℤ) : 0 ≤ wrappedFrames e ∧ wrappedFrames e < 2 ^ 35 := by
  have hpos : 0 ≤ e * 44100 % 2 ^ 64 := Int.emod_nonneg _ (by decide)
  have hlt : e * 44100 % 2 ^ 64 < 2 ^ 64 := Int.emod_lt_of_pos _ (by decide)
  unfold wrappedFrames
  omega

/-! ## 3. When a tick sends what is due -/

/-- The clock reading of the tick, in nanoseconds since the stream began. -/
def World.elapsed (w : World) : ℤ := w.env.steady.head - w.s.clockStart

/-- Nothing wraps; or nothing is due and the wrapped target asks for nothing either; or a full burst
is due and the wrapped target asks for one as well. -/
def Paces (e : ℤ) (sent : ℕ) : Prop :=
  (0 ≤ e ∧ e * 44100 < 2 ^ 64 ∧ sent + 352 < 2 ^ 64) ∨
  (dueFrames e < sent + 352 ∧ wrappedFrames e < ((sent + 352) % 2 ^ 64 : ℕ)) ∨
  (sent + 5632 ≤ dueFrames e ∧ sent + 5632 ≤ wrappedFrames e)

/-- A tick sends what the loop counts. -/
theorem onPacerTick_run (h : Sealable w.s) : ∃ w', onPacerTick w = (.ok (), w') ∧
    w'.packets = w.packets + paced (frameTarget (UInt64.ofInt w.elapsed)) 16 w.s.framesSent := by
  let w₁ : World := { w with env := { w.env with steady := w.env.steady.tail } }
  have hnow : now w = (.ok w.env.steady.head, w₁) := rfl
  have hkey : Sealable w₁.s := h
  rw [onPacerTick, bind_ok hnow, sender_bind]
  exact pacerLoop_run _ _ hkey

omit [Primitives] in
/-- The count is the quotient exactly where `Paces` says. -/
theorem paced_iff {e : ℤ} {sent : UInt64} (hlow : -2 ^ 63 ≤ e) (hhigh : e < 2 ^ 63) :
    (paced (frameTarget (UInt64.ofInt e)) 16 sent : ℤ) = duePackets e sent.toNat ↔
      Paces e sent.toNat := by
  have htarget := toNat_frameTarget e
  obtain ⟨hnonneg, hsmall⟩ := wrappedFrames_bounds e
  have hdue : dueFrames e < 2 ^ 63 := by
    unfold dueFrames
    omega
  have hpast : e < 0 → dueFrames e < 0 := by
    unfold dueFrames
    omega
  simp only [Paces, duePackets]
  by_cases hwrap : sent.toNat + 352 < 2 ^ 64
  · rw [paced_eq 16 hwrap (by omega), Nat.mod_eq_of_lt hwrap]
    by_cases hfits : e * 44100 < 2 ^ 64
    · have heq : 0 ≤ e → wrappedFrames e = dueFrames e := fun hpos => wrappedFrames_eq hpos hfits
      omega
    · have hfar := wrappedFrames_far (Int.not_lt.mp hfits)
      omega
  · have hzero := @paced_eq_zero (frameTarget (UInt64.ofInt e)) sent
    have hsent := sent.toNat_lt
    omega

/-- **One tick.**  With a clock that fits its 64 bits a tick sends the packets that are due if and
only if `Paces` holds of the elapsed time and of the frames sent; and up to the wrap the target
never falls as time passes. -/
theorem paces_exactly (hkey : Sealable w.s) (hlow : -2 ^ 63 ≤ w.elapsed) (hhigh : w.elapsed < 2 ^ 63) :
    ((∃ w', onPacerTick w = (.ok (), w') ∧
        (w'.packets : ℤ) = w.packets + duePackets w.elapsed w.s.framesSent.toNat) ↔
      Paces w.elapsed w.s.framesSent.toNat) ∧
    ∀ e, 0 ≤ e → e ≤ w.elapsed → w.elapsed * 44100 < 2 ^ 64 →
      frameTarget (UInt64.ofInt e) ≤ frameTarget (UInt64.ofInt w.elapsed) := by
  constructor
  · obtain ⟨w', hrun, hcount⟩ := onPacerTick_run hkey
    rw [← paced_iff hlow hhigh]
    constructor
    · rintro ⟨w'', hrun', hcount'⟩
      obtain rfl : w' = w'' := (Prod.mk.inj (hrun.symm.trans hrun')).2
      omega
    · intro hpaced
      exact ⟨w', hrun, by omega⟩
  · intro e he hle hfits
    have htarget := toNat_frameTarget e
    have htarget' := toNat_frameTarget w.elapsed
    rw [wrappedFrames_eq he (by omega)] at htarget
    rw [wrappedFrames_eq (by omega) hfits] at htarget'
    rw [UInt64.le_iff_toNat_le]
    unfold dueFrames at htarget htarget'
    omega

/-- A stream that has sent some frames, at a tick some nanoseconds after it began. -/
def streamingFor (elapsedNs : ℤ) (sent : UInt64) : World :=
  { s := { state := .streaming, framesSent := sent }
    env := { Env.still with steady := Stream'.const elapsedNs }
    out := [] }

omit [Primitives] in
theorem streamingFor_sealable (elapsedNs : ℤ) (sent : UInt64) :
    Sealable (streamingFor elapsedNs sent).s := nofun

omit [Primitives] in
/-- A second into the stream a full burst goes out. -/
theorem paces_exactly_second : ∃ w', @onPacerTick trusting (streamingFor 1000000000 0) = (.ok (), w') ∧
    (w'.packets : ℤ) = 0 + 16 :=
  ((@paces_exactly trusting _ (streamingFor_sealable 1000000000 0) (by decide) (by decide)).1).mpr
    (.inl (by decide))

omit [Primitives] in
/-- After five days sixteen packets are due and none is sent: a wrapped target never gets beyond
2^64 / 10^9 frames, and the stream stands within a packet of that. -/
theorem pacer_silent :
    (¬ ∃ w', @onPacerTick trusting (streamingFor 432000000000000 18446743744) = (.ok (), w') ∧
      (w'.packets : ℤ) = (streamingFor 432000000000000 18446743744).packets +
        duePackets 432000000000000 18446743744) ∧
    frameTarget 432000000000000 < frameTarget 345600000000000 := by
  constructor
  · rintro ⟨w', hrun, hcount⟩
    obtain ⟨w'', hrun', hcount'⟩ :=
      @onPacerTick_run trusting _ (streamingFor_sealable 432000000000000 18446743744)
    obtain rfl : w'' = w' := (Prod.mk.inj (hrun'.symm.trans hrun)).2
    have hpaced : paced (frameTarget 432000000000000) 16 18446743744 = 0 := by decide
    have hdue : duePackets 432000000000000 18446743744 = 16 := by decide
    have helapsed : UInt64.ofInt (streamingFor 432000000000000 18446743744).elapsed =
        432000000000000 := by decide
    have hnone : w''.packets = (streamingFor 432000000000000 18446743744).packets := by
      rw [hcount', helapsed]
      exact congrArg _ hpaced
    rw [hdue] at hcount
    omega
  · decide

end AirplaySender
