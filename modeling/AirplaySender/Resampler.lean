/-
# The resampler (`fillFrames_`)

A packet takes its frames from the ring through a staging buffer: `fillFrames_` pulls what fits,
interpolates between neighbours at a phase that advances by the ratio of the rates, drops what is
behind the phase and rebases it.  At 44.1 kHz the frames pass through.

However the ring is supplied and however the calls starve, the frames of all calls together are the
interpolations of the whole input at 0, s, 2s and so on (`resampler_exact`).  What carries it through
the calls is that the staging buffer and the ring together are the input from some frame on, and that
the phase counts from there (`Staged`); the padding of a call is what `fillFrames_` does not count.

The phase is an exact rational here and a double in the source.
-/
import AirplaySender.Arrivals
import Mathlib.Algebra.Order.Floor.Ring
import Mathlib.Data.Rat.Floor
import Mathlib.Tactic.Linarith

namespace AirplaySender

open Octets Prog

/-! ## 1. The interpolations of a stream -/

/-- The frame left of a position. -/
def leftOf (q : ℚ) : ℕ := q.floor.toNat

/-- One channel of a stream at a position. -/
def channelAt (input : List Int16) (channel : ℕ) (q : ℚ) : Int16 :=
  lerp (input.getD (leftOf q * 2 + channel) 0) (input.getD (leftOf q * 2 + 2 + channel) 0)
    (q - leftOf q)

/-- The frames of a stream at `n` positions, `step` apart, from `pos` on. -/
def interpolations (input : List Int16) (step pos : ℚ) (n : ℕ) : List Int16 :=
  (List.range n).flatMap fun k : ℕ =>
    [channelAt input 0 (pos + k * step), channelAt input 1 (pos + k * step)]

section Stream

variable {input buf more : List Int16} {step pos phase : ℚ} {c i n m : ℕ}

@[simp] theorem interpolations_zero : interpolations input step pos 0 = [] := rfl

theorem interpolations_succ : interpolations input step pos (n + 1) =
    channelAt input 0 pos :: channelAt input 1 pos :: interpolations input step (pos + step) n := by
  have hshift (k : ℕ) : pos + ((k + 1 : ℕ) : ℚ) * step = pos + step + k * step := by
    push_cast
    ring
  have hzero : pos + ((0 : ℕ) : ℚ) * step = pos := by simp
  unfold interpolations
  rw [List.range_succ_eq_map, List.flatMap_cons, List.flatMap_map]
  simp only [Nat.succ_eq_add_one, hshift, hzero]
  rfl

theorem interpolations_add : interpolations input step pos (n + m) =
    interpolations input step pos n ++ interpolations input step (pos + n * step) m := by
  have hshift (k : ℕ) : pos + ((n + k : ℕ) : ℚ) * step = pos + n * step + k * step := by
    push_cast
    ring
  unfold interpolations
  rw [List.range_add, List.flatMap_append, List.flatMap_map]
  simp only [hshift]

/-- The samples of the `k`-th frame. -/
theorem interpolations_getD {k channel : ℕ} (hk : k < n) (hchannel : channel < 2) :
    (interpolations input step pos n).getD (k * 2 + channel) 0 =
      channelAt input channel (pos + k * step) := by
  induction n generalizing pos k with
  | zero => omega
  | succ n ih =>
    rw [interpolations_succ]
    cases k with
    | zero =>
      have hpos : pos + ((0 : ℕ) : ℚ) * step = pos := by simp
      rw [hpos]
      obtain rfl | rfl : channel = 0 ∨ channel = 1 := by omega
      · rfl
      · rfl
    | succ k =>
      have hpos : pos + ((k + 1 : ℕ) : ℚ) * step = pos + step + k * step := by
        push_cast
        ring
      have hindex : (k + 1) * 2 + channel = k * 2 + channel + 1 + 1 := by ring
      rw [hpos, hindex, ← ih (by omega), List.getD_cons_succ, List.getD_cons_succ]

@[simp] theorem length_interpolations : (interpolations input step pos n).length = n * 2 := by
  induction n generalizing pos with
  | zero => rfl
  | succ n ih =>
    rw [interpolations_succ, List.length_cons, List.length_cons, ih]
    omega

theorem leftOf_le (h : 0 ≤ pos) : (leftOf pos : ℚ) ≤ pos := by
  have hfloor : 0 ≤ pos.floor := Rat.le_floor_iff.mpr h
  have hcast : ((pos.floor.toNat : ℤ) : ℚ) = pos.floor := by rw [Int.toNat_of_nonneg hfloor]
  calc (leftOf pos : ℚ) = pos.floor := hcast
    _ ≤ pos := Rat.floor_le pos

theorem lt_leftOf (pos : ℚ) : pos < leftOf pos + 1 := by
  have hcast : (pos.floor : ℚ) ≤ ((pos.floor.toNat : ℤ) : ℚ) :=
    Int.cast_le.mpr (Int.self_le_toNat _)
  have hlt := Rat.lt_floor_add_one pos
  push_cast at hlt hcast
  unfold leftOf
  linarith

/-- Frames in front of a stream move its positions. -/
theorem leftOf_add (h : 0 ≤ pos) : leftOf (c + pos) = c + leftOf pos := by
  have hfloor : 0 ≤ pos.floor := Rat.le_floor_iff.mpr h
  have hadd : (c + pos : ℚ).floor = c + pos.floor := by
    have hint := Rat.floor_add_intCast (x := pos) (y := c)
    push_cast at hint
    rw [add_comm, hint, add_comm]
  unfold leftOf
  rw [hadd]
  omega

/-- What is in a window of the input. -/
theorem getD_window (h : buf <+: input.drop (2 * c)) (hi : i < buf.length) :
    buf.getD i 0 = input.getD (2 * c + i) 0 := by
  obtain ⟨rest, hrest⟩ := h
  rw [List.getD_eq_getElem?_getD, List.getD_eq_getElem?_getD, ← List.getElem?_drop, ← hrest,
    List.getElem?_append_left hi]

theorem length_window (h : buf <+: input.drop (2 * c)) : buf.length ≤ input.length - 2 * c := by
  have hle := h.length_le
  rwa [List.length_drop] at hle

/-- A channel is the same where both neighbours are. -/
theorem channelAt_window (h : buf <+: input.drop (2 * c)) (hpos : 0 ≤ pos)
    (hlt : leftOf pos + 1 < buf.length / 2) {channel : ℕ} (hchannel : channel < 2) :
    channelAt buf channel pos = channelAt input channel (c + pos) := by
  have hleft := leftOf_add (c := c) hpos
  have hfrac : (c : ℚ) + pos - ((c + leftOf pos : ℕ) : ℚ) = pos - leftOf pos := by
    push_cast
    ring
  have h₁ := getD_window h (i := leftOf pos * 2 + channel) (by omega)
  have h₂ := getD_window h (i := leftOf pos * 2 + 2 + channel) (by omega)
  have e₁ : 2 * c + (leftOf pos * 2 + channel) = (c + leftOf pos) * 2 + channel := by ring
  have e₂ : 2 * c + (leftOf pos * 2 + 2 + channel) = (c + leftOf pos) * 2 + 2 + channel := by ring
  rw [channelAt, channelAt, hleft, hfrac, h₁, h₂, e₁, e₂]

/-- More input leaves the interpolations as they are. -/
theorem interpolations_append (hpos : 0 ≤ pos) (hstep : 0 ≤ step)
    (h : ∀ k < n, leftOf (pos + k * step) + 1 < input.length / 2) :
    interpolations (input ++ more) step pos n = interpolations input step pos n := by
  have hwin : input <+: (input ++ more).drop (2 * 0) := List.prefix_append input more
  unfold interpolations
  refine List.flatMap_congr fun k hk => ?_
  have hk' : leftOf (pos + k * step) + 1 < input.length / 2 := h k (List.mem_range.mp hk)
  have hat : 0 ≤ pos + k * step := by positivity
  have hsame {channel : ℕ} (hchannel : channel < 2) :
      channelAt (input ++ more) channel (pos + k * step) = channelAt input channel (pos + k * step) := by
    rw [channelAt_window hwin hat hk' hchannel, Nat.cast_zero, zero_add]
  rw [hsame (by decide), hsame (by decide)]

end Stream

/-! ## 2. A sample lies between its neighbours -/

/-- Truncation stays between integers. -/
theorem truncSample_between {a b : Int16} {q : ℚ} (ha : (a.toInt : ℚ) ≤ q) (hb : q ≤ b.toInt) :
    a.toInt ≤ (truncSample q).toInt ∧ (truncSample q).toInt ≤ b.toInt := by
  have hlow := a.le_toInt
  have hhigh := b.toInt_lt
  unfold truncSample
  split
  · have h₁ : a.toInt ≤ ⌈q⌉ := Int.cast_le.mp (ha.trans (Int.le_ceil q))
    have h₂ : ⌈q⌉ ≤ b.toInt := Int.ceil_le.mpr hb
    rw [Int16.toInt_ofInt_of_le (by omega) (by omega)]
    exact ⟨h₁, h₂⟩
  · have h₁ : a.toInt ≤ ⌊q⌋ := Int.le_floor.mpr ha
    have h₂ : ⌊q⌋ ≤ b.toInt := Int.cast_le.mp ((Int.floor_le q).trans hb)
    rw [Int16.toInt_ofInt_of_le (by omega) (by omega)]
    exact ⟨h₁, h₂⟩

/-- `x` lies between `a` and `b`, whichever is the larger one. -/
def Between (a b x : Int16) : Prop :=
  min a.toInt b.toInt ≤ x.toInt ∧ x.toInt ≤ max a.toInt b.toInt

theorem lerp_between (a b : Int16) {frac : ℚ} (h0 : 0 ≤ frac) (h1 : frac ≤ 1) :
    Between a b (lerp a b frac) := by
  unfold Between lerp
  rcases le_total a.toInt b.toInt with hab | hab
  · rw [min_eq_left hab, max_eq_right hab]
    have hq : (a.toInt : ℚ) ≤ b.toInt := Int.cast_le.mpr hab
    refine truncSample_between ?_ ?_
    · nlinarith
    · nlinarith
  · rw [min_eq_right hab, max_eq_left hab]
    have hq : (b.toInt : ℚ) ≤ a.toInt := Int.cast_le.mpr hab
    refine truncSample_between ?_ ?_
    · nlinarith
    · nlinarith

/-- **Every interpolated sample lies between its two neighbours.** -/
theorem channelAt_between (input : List Int16) (channel : ℕ) {pos : ℚ} (h : 0 ≤ pos) :
    Between (input.getD (leftOf pos * 2 + channel) 0) (input.getD (leftOf pos * 2 + 2 + channel) 0)
      (channelAt input channel pos) := by
  have h0 := leftOf_le h
  have h1 := lt_leftOf pos
  exact lerp_between _ _ (by linarith) (by linarith)

/-! ## 3. The interpolation loop -/

/-- The interpolation loop with its accesses checked, and the frames it counts: `none` for a phase
below zero, which is no index, or an index outside of the staging buffer. -/
def interpolateChecked (buf : List Int16) (step : ℚ) : ℕ → ℚ → Option (List Int16 × ℕ × ℚ)
  | 0, phase => some ([], 0, phase)
  | want + 1, phase =>
    if phase < 0 then none
    else
      let i₀ := phase.floor.toNat
      if buf.length / 2 ≤ i₀ + 1 then some ([], 0, phase)
      else do
        let frac := phase - i₀
        let left := lerp (← buf[i₀ * 2]?) (← buf[i₀ * 2 + 2]?) frac
        let right := lerp (← buf[i₀ * 2 + 1]?) (← buf[i₀ * 2 + 3]?) frac
        let (rest, produced, phase') ← interpolateChecked buf step want (phase + step)
        return (left :: right :: rest, produced + 1, phase')

section Loop

variable {input buf : List Int16} {step : ℚ} {c want : ℕ}

theorem getElem?_getD {i : ℕ} (h : i < buf.length) : buf[i]? = some (buf.getD i 0) := by
  rw [List.getD_eq_getElem?_getD, List.getElem?_eq_getElem h]
  rfl

/-- One round of the loop, where both frames are there. -/
theorem interpolate_succ {phase : ℚ} (h : ¬ buf.length / 2 ≤ leftOf phase + 1) :
    interpolate buf step (want + 1) phase =
      (channelAt buf 0 phase :: channelAt buf 1 phase :: (interpolate buf step want (phase + step)).1,
        (interpolate buf step want (phase + step)).2) := by
  rw [interpolate]
  exact if_neg h

theorem interpolateChecked_succ {phase : ℚ} (h0 : 0 ≤ phase)
    (h : ¬ buf.length / 2 ≤ leftOf phase + 1) :
    interpolateChecked buf step (want + 1) phase =
      (interpolateChecked buf step want (phase + step)).map fun r =>
        (channelAt buf 0 phase :: channelAt buf 1 phase :: r.1, r.2.1 + 1, r.2.2) := by
  have hlt : leftOf phase * 2 + 3 < buf.length := by omega
  have hno : ¬ buf.length / 2 ≤ phase.floor.toNat + 1 := h
  rw [interpolateChecked, if_neg (not_lt.mpr h0)]
  dsimp only
  rw [if_neg hno]
  change ((buf[leftOf phase * 2]?).bind fun a => (buf[leftOf phase * 2 + 2]?).bind fun b =>
    (buf[leftOf phase * 2 + 1]?).bind fun a' => (buf[leftOf phase * 2 + 3]?).bind fun b' =>
    (interpolateChecked buf step want (phase + step)).bind fun r =>
      some (lerp a b (phase - leftOf phase) :: lerp a' b' (phase - leftOf phase) :: r.1, r.2.1 + 1, r.2.2)) = _
  rw [getElem?_getD (by omega), getElem?_getD (by omega), getElem?_getD (by omega), getElem?_getD hlt]
  cases interpolateChecked buf step want (phase + step) <;> rfl

/-- **The loop on a window of the input**: no access fails, and what it produces are interpolations
of the input from the phase on, until there are enough or the next one would need a frame that is
not there. -/
theorem interpolate_window (h : buf <+: input.drop (2 * c)) (hstep : 0 ≤ step) :
    ∀ (want : ℕ) {phase : ℚ}, 0 ≤ phase → ∃ m ≤ want,
      interpolate buf step want phase =
        (interpolations input step (c + phase) m, phase + m * step) ∧
      interpolateChecked buf step want phase =
        some (interpolations input step (c + phase) m, m, phase + m * step) ∧
      (∀ k < m, leftOf (c + phase + k * step) + 1 < input.length / 2) ∧
      (m < want → buf.length / 2 ≤ leftOf (phase + m * step) + 1) := by
  intro want
  induction want with
  | zero =>
    intro phase _
    have hphase : phase + ((0 : ℕ) : ℚ) * step = phase := by simp
    refine ⟨0, le_rfl, ?_, ?_, ?_, ?_⟩
    · rw [hphase]; rfl
    · rw [hphase]; rfl
    · intro k hk
      omega
    · omega
  | succ want ih =>
    intro phase h0
    by_cases hstarved : buf.length / 2 ≤ leftOf phase + 1
    · have hphase : phase + ((0 : ℕ) : ℚ) * step = phase := by simp
      refine ⟨0, Nat.zero_le _, ?_, ?_, ?_, ?_⟩
      · rw [hphase, interpolate]
        exact if_pos hstarved
      · rw [hphase, interpolateChecked, if_neg (not_lt.mpr h0)]
        exact if_pos hstarved
      · intro k hk
        omega
      · rw [hphase]
        exact fun _ => hstarved
    · have hnext : 0 ≤ phase + step := by linarith
      obtain ⟨m, hm, hrun, hchecked, hrange, hend⟩ := ih hnext
      have hlen := length_window h
      have hhere : leftOf phase + 1 < buf.length / 2 := not_le.mp hstarved
      have hpos : (c : ℚ) + (phase + step) = c + phase + step := by ring
      have hphase : phase + step + (m : ℚ) * step = phase + ((m + 1 : ℕ) : ℚ) * step := by
        push_cast
        ring
      have hframes : channelAt buf 0 phase :: channelAt buf 1 phase ::
          interpolations input step (c + phase + step) m =
          interpolations input step (c + phase) (m + 1) := by
        rw [interpolations_succ, channelAt_window h h0 hhere (by decide),
          channelAt_window h h0 hhere (by decide)]
      rw [hpos, hphase] at hrun hchecked
      refine ⟨m + 1, Nat.succ_le_succ hm, ?_, ?_, ?_, ?_⟩
      · rw [interpolate_succ hstarved, hrun, ← hframes]
      · rw [interpolateChecked_succ h0 hstarved, hchecked, Option.map_some, ← hframes]
      · intro k hk
        cases k with
        | zero =>
          rw [Nat.cast_zero, zero_mul, add_zero, leftOf_add h0]
          omega
        | succ k =>
          have hk' := hrange k (by omega)
          have hshift : (c : ℚ) + (phase + step) + k * step = c + phase + ((k + 1 : ℕ) : ℚ) * step := by
            push_cast
            ring
          rwa [hshift] at hk'
      · intro hlt
        have hstop := hend (by omega)
        rwa [hphase] at hstop

end Loop

/-! ## 4. A call, checked and counted -/

/-- `fillFrames_` with its accesses checked and with its return value, the number of frames that are
no padding; `none` is an access out of range. -/
def fillFramesChecked (want : ℕ) : M (Option (List Int16 × ℕ)) := do
  let s ← sender
  match s.ring with
  | none => return some (List.replicate (want * 2) 0, 0)
  | some ring =>
    let held ← ringRead ring
    if s.inputRate = raopRate then
      let take := min (held.length / 2) want
      ringPop ring (take * 2)
      return some (padFrames want (held.take (take * 2)), take)
    else
      let step : ℚ := (s.inputRate.toNat : ℚ) / 44100
      let room := inBufMaxFrames - s.inBuf.length / 2
      let pull := min room (held.length / 2)
      ringPop ring (pull * 2)
      let buf := s.inBuf ++ held.take (pull * 2)
      match interpolateChecked buf step want s.srcPhase with
      | none => return none
      | some (samples, produced, phase) => do
        setS fun s => compact { s with inBuf := buf, srcPhase := phase }
        return some (padFrames want samples, produced)

/-! ## 5. One call -/

/-- The ratio of the rates. -/
def stepOf (rate : UInt32) : ℚ := (rate.toNat : ℚ) / 44100

theorem stepOf_nonneg (rate : UInt32) : 0 ≤ stepOf rate := by
  unfold stepOf
  positivity

theorem stepOf_raopRate : stepOf raopRate = 1 := by
  have hrate : raopRate.toNat = 44100 := rfl
  rw [stepOf, hrate]
  norm_num

/-- What `n` frames of an input are to be: its interpolations from the first frame on, the input
itself where the rates are the same. -/
def played (rate : UInt32) (input : List Int16) (n : ℕ) : List Int16 :=
  if rate = raopRate then input.take (n * 2) else interpolations input (stepOf rate) 0 n

/-- The input has the frames that they need. -/
def Covers (rate : UInt32) (input : List Int16) (n : ℕ) : Prop :=
  if rate = raopRate then n * 2 ≤ input.length
  else ∀ k < n, leftOf (k * stepOf rate) + 1 < input.length / 2

/-- The staging of a sender that has been given an input and has produced `n` frames of it: the
staging buffer and the ring are the input from some frame on, and the phase counts from there. -/
structure Staged (r : ℕ) (rate : UInt32) (input : List Int16) (n : ℕ) (w : World) : Prop where
  attached : w.s.ring = some r
  inputRate : w.s.inputRate = rate
  window : ∃ c, w.s.inBuf ++ w.env.rings r = input.drop (2 * c) ∧ 2 * c ≤ input.length ∧
    c + w.s.srcPhase = n * stepOf rate
  phase : 0 ≤ w.s.srcPhase
  whole : w.s.inBuf.length % 2 = 0
  bounded : w.s.inBuf.length / 2 ≤ inBufMaxFrames
  through : rate = raopRate → w.s.inBuf = [] ∧ w.s.srcPhase = 0

/-- What a call finds in the ring. -/
def World.held (w : World) (r : ℕ) : List Int16 := w.env.rings r ++ w.env.produced.head

section Call

variable {w : World} {r : ℕ} {rate : UInt32} {input : List Int16} {n : ℕ}

theorem ringRead_run (w : World) (r : ℕ) : ringRead r w = (.ok (w.held r), { w with
    env := { w.env with
      produced := w.env.produced.tail
      rings := Function.update w.env.rings r (w.held r) } }) := by
  simp [ringRead, ask, bind_run, World.held]

/-- A call that passes frames through. -/
theorem fillFrames_through (hring : w.s.ring = some r) (hrate : w.s.inputRate = raopRate)
    (want : ℕ) {k : ℕ} (hk : min ((w.held r).length / 2) want = k) :
    ∃ w', fillFrames want w = (.ok (padFrames want ((w.held r).take (k * 2))), w') ∧
      fillFramesChecked want w = (.ok (some (padFrames want ((w.held r).take (k * 2)), k)), w') ∧
      w'.s = w.s ∧ w'.env.rings r = (w.held r).drop (k * 2) := by
  subst hk
  unfold fillFrames fillFramesChecked
  rw [sender_bind, sender_bind, hring]
  dsimp only
  rw [bind_ok (ringRead_run w r), bind_ok (ringRead_run w r)]
  simp only [if_pos hrate]
  refine ⟨_, rfl, rfl, rfl, ?_⟩
  simp

/-- A call that interpolates. -/
theorem fillFrames_interpolates (hring : w.s.ring = some r) (hrate : w.s.inputRate ≠ raopRate)
    (want : ℕ) {pull m : ℕ} {buf samples : List Int16} {phase : ℚ}
    (hpull : min (inBufMaxFrames - w.s.inBuf.length / 2) ((w.held r).length / 2) = pull)
    (hbuf : w.s.inBuf ++ (w.held r).take (pull * 2) = buf)
    (hrun : interpolate buf (stepOf w.s.inputRate) want w.s.srcPhase = (samples, phase))
    (hchecked : interpolateChecked buf (stepOf w.s.inputRate) want w.s.srcPhase =
      some (samples, m, phase)) :
    ∃ w', fillFrames want w = (.ok (padFrames want samples), w') ∧
      fillFramesChecked want w = (.ok (some (padFrames want samples, m)), w') ∧
      w'.s = compact { w.s with inBuf := buf, srcPhase := phase } ∧
      w'.env.rings r = (w.held r).drop (pull * 2) := by
  subst hpull hbuf
  unfold stepOf at hrun hchecked
  unfold fillFrames fillFramesChecked
  rw [sender_bind, sender_bind, hring]
  dsimp only
  rw [bind_ok (ringRead_run w r), bind_ok (ringRead_run w r)]
  simp only [if_neg hrate]
  simp only [hrun, hchecked]
  refine ⟨_, rfl, rfl, rfl, ?_⟩
  simp

/-- Compaction drops what is left of the phase, as far as it is there. -/
theorem compact_eq (s : Sender) : ∃ d, d ≤ leftOf s.srcPhase ∧ d ≤ s.inBuf.length / 2 ∧
    compact s = { s with inBuf := s.inBuf.drop (d * 2), srcPhase := s.srcPhase - d } := by
  unfold compact
  dsimp only
  split
  · rename_i hzero
    refine ⟨0, Nat.zero_le _, Nat.zero_le _, ?_⟩
    simp
  · exact ⟨_, Nat.min_le_left _ _, Nat.min_le_right _ _, rfl⟩

/-- There is no more to play: no whole frame in the ring, or nothing right of the phase. -/
def Starved (r : ℕ) (rate : UInt32) (w : World) : Prop :=
  if rate = raopRate then (w.env.rings r).length / 2 = 0
  else w.s.inBuf.length / 2 ≤ leftOf w.s.srcPhase + 1

/-- The frames of a call, the samples that it adds, and where it leaves the staging. -/
structure Fill (r : ℕ) (rate : UInt32) (input : List Int16) (n want : ℕ) (w : World)
    (added : List Int16) (m : ℕ) (w' : World) : Prop where
  run : fillFrames want w = (.ok (padFrames want added), w')
  checked : fillFramesChecked want w = (.ok (some (padFrames want added, m)), w')
  length : added.length = m * 2
  staged : Staged r rate (input ++ w.env.produced.head) (n + m) w'
  covers : Covers rate (input ++ w.env.produced.head) (n + m)
  played : played rate (input ++ w.env.produced.head) (n + m) = played rate input n ++ added
  starved : m < want → Starved r rate w'

/-- The ring of a staging that has nothing in its buffer. -/
theorem Staged.fill_through (h : Staged r rate input n w) (hrate : rate = raopRate)
    (hcovers : Covers rate input n) (want : ℕ) : ∃ added m w', Fill r rate input n want w added m w' := by
  subst hrate
  obtain ⟨hbuf, hphase⟩ := h.through rfl
  obtain ⟨c, hwindow, hle, hpos⟩ := h.window
  rw [hphase, stepOf_raopRate, add_zero, mul_one, Nat.cast_inj] at hpos
  subst hpos
  rw [hbuf, List.nil_append] at hwindow
  have hheld : w.held r = (input ++ w.env.produced.head).drop (2 * c) := by
    rw [World.held, hwindow, List.drop_append_of_le_length hle]
  obtain ⟨k, hk⟩ : ∃ k, min ((w.held r).length / 2) want = k := ⟨_, rfl⟩
  obtain ⟨w', hrun, hchecked, hs, hrings⟩ := fillFrames_through h.attached h.inputRate want hk
  have hcount : k * 2 ≤ (w.held r).length := by omega
  have hroom : 2 * c ≤ (input ++ w.env.produced.head).length := by
    rw [List.length_append]
    omega
  refine ⟨_, k, w', hrun, hchecked, ?_, ?_, ?_, ?_, ?_⟩
  · rw [List.length_take]
    omega
  · refine ⟨hs ▸ h.attached, hs ▸ h.inputRate, ⟨c + k, ?_, ?_, ?_⟩,
      hs ▸ h.phase, hs ▸ h.whole, hs ▸ h.bounded, fun _ => hs ▸ ⟨hbuf, hphase⟩⟩
    · rw [hs, hbuf, List.nil_append, hrings, hheld, List.drop_drop]
      congr 1
      omega
    · rw [hheld, List.length_drop] at hcount
      omega
    · rw [hs, hphase, stepOf_raopRate]
      ring
  · rw [Covers, if_pos rfl]
    rw [hheld, List.length_drop] at hcount
    omega
  · rw [AirplaySender.played, AirplaySender.played, if_pos rfl, if_pos rfl, Nat.add_mul, List.take_add,
      List.take_append_of_le_length (by omega), hheld, Nat.mul_comm c]
  · intro hlt
    rw [Starved, if_pos rfl, hrings, List.length_drop]
    omega

/-- The staging that interpolates. -/
theorem Staged.fill_interpolates (h : Staged r rate input n w) (hrate : rate ≠ raopRate)
    (hcovers : Covers rate input n) (want : ℕ) : ∃ added m w', Fill r rate input n want w added m w' := by
  have hinput := h.inputRate
  subst hinput
  obtain ⟨c, hwindow, hle, hpos⟩ := h.window
  obtain ⟨more, hmore⟩ : ∃ more, w.env.produced.head = more := ⟨_, rfl⟩
  have hstep := stepOf_nonneg w.s.inputRate
  have hall : w.s.inBuf ++ w.held r = (input ++ more).drop (2 * c) := by
    rw [World.held, ← List.append_assoc, hwindow, List.drop_append_of_le_length hle, hmore]
  obtain ⟨pull, hpull⟩ : ∃ pull, min (inBufMaxFrames - w.s.inBuf.length / 2)
      ((w.held r).length / 2) = pull := ⟨_, rfl⟩
  obtain ⟨buf, hbuf⟩ : ∃ buf, w.s.inBuf ++ (w.held r).take (pull * 2) = buf := ⟨_, rfl⟩
  have hlen : buf.length = w.s.inBuf.length + pull * 2 := by
    rw [← hbuf, List.length_append, List.length_take]
    omega
  have hrest : buf ++ (w.held r).drop (pull * 2) = (input ++ more).drop (2 * c) := by
    rw [← hbuf, List.append_assoc, List.take_append_drop, hall]
  obtain ⟨m, hm, hrun, hchecked, hrange, hend⟩ :=
    interpolate_window (c := c) ⟨_, hrest⟩ hstep want h.phase
  rw [hpos] at hrun hchecked hrange
  obtain ⟨w', hfill, hfillChecked, hs, hrings⟩ :=
    fillFrames_interpolates h.attached hrate want hpull hbuf hrun hchecked
  obtain ⟨d, hd, hdlen, hcompact⟩ := compact_eq { w.s with
    inBuf := buf
    srcPhase := w.s.srcPhase + m * stepOf w.s.inputRate }
  rw [hcompact] at hs
  have hdrop : d ≤ buf.length / 2 := hdlen
  have hwhole := h.whole
  have hbounded := h.bounded
  have hroom : 2 * c ≤ (input ++ more).length := by
    rw [List.length_append]
    omega
  have hsize : buf.length + ((w.held r).drop (pull * 2)).length = (input ++ more).length - 2 * c := by
    rw [← List.length_append, hrest, List.length_drop]
  have hnonneg : 0 ≤ w.s.srcPhase + m * stepOf w.s.inputRate := by
    have := h.phase
    positivity
  have hbase : 0 ≤ w.s.srcPhase + m * stepOf w.s.inputRate - d := by
    have hle := leftOf_le hnonneg
    have hcast : (d : ℚ) ≤ leftOf (w.s.srcPhase + m * stepOf w.s.inputRate) := Nat.cast_le.mpr hd
    linarith
  refine ⟨_, m, w', hfill, hfillChecked, length_interpolations, ?_, ?_, ?_, ?_⟩
  · refine ⟨hs ▸ h.attached, by rw [hs], ⟨c + d, ?_, ?_, ?_⟩, ?_, ?_, ?_, fun hr => absurd hr hrate⟩
    · rw [hs, hrings, hmore]
      change buf.drop (d * 2) ++ _ = _
      rw [← List.drop_append_of_le_length (by omega), hrest, List.drop_drop]
      congr 1
      ring
    · rw [hmore]
      omega
    · rw [hs]
      push_cast
      linarith
    · rw [hs]
      exact hbase
    · rw [hs]
      change (buf.drop (d * 2)).length % 2 = 0
      rw [List.length_drop]
      omega
    · rw [hs]
      change (buf.drop (d * 2)).length / 2 ≤ inBufMaxFrames
      rw [List.length_drop]
      omega
  · rw [hmore]
    unfold Covers at hcovers ⊢
    rw [if_neg hrate] at hcovers ⊢
    intro k hk
    by_cases hold : k < n
    · have hk' := hcovers k hold
      rw [List.length_append]
      omega
    · have hk' := hrange (k - n) (by omega)
      have hpos' : (n : ℚ) * stepOf w.s.inputRate + ((k - n : ℕ) : ℚ) * stepOf w.s.inputRate =
          k * stepOf w.s.inputRate := by
        rw [Nat.cast_sub (not_lt.mp hold)]
        ring
      rwa [hpos'] at hk'
  · rw [hmore]
    unfold Covers at hcovers
    rw [if_neg hrate] at hcovers
    unfold AirplaySender.played
    rw [if_neg hrate, if_neg hrate, interpolations_add, zero_add, interpolations_append le_rfl hstep]
    intro k hk
    rw [zero_add]
    exact hcovers k hk
  · intro hlt
    have hstop := hend hlt
    have hshift := leftOf_add (c := d) hbase
    rw [add_sub_cancel] at hshift
    rw [Starved, if_neg hrate, hs]
    change (buf.drop (d * 2)).length / 2 ≤ leftOf (w.s.srcPhase + m * stepOf w.s.inputRate - d) + 1
    rw [List.length_drop]
    omega

end Call

/-! ## 6. All calls -/

/-- Between two calls: the ring is given `more`, and nothing else is done to the staging. -/
structure Undisturbed (r : ℕ) (more : List Int16) (w w' : World) : Prop where
  ring : w'.s.ring = w.s.ring
  inputRate : w'.s.inputRate = w.s.inputRate
  inBuf : w'.s.inBuf = w.s.inBuf
  srcPhase : w'.s.srcPhase = w.s.srcPhase
  supplied : w'.env.rings r = w.env.rings r ++ more

/-- The calls of a session: what the ring has been given so far, and what the calls made of it
without their padding. -/
inductive Fills (r : ℕ) (rate : UInt32) : List Int16 → List Int16 → World → Prop
  | start {w : World} (ring : w.s.ring = some r) (inputRate : w.s.inputRate = rate)
      (inBuf : w.s.inBuf = []) (srcPhase : w.s.srcPhase = 0) : Fills r rate (w.env.rings r) [] w
  | supply {input out : List Int16} {w w' : World} (more : List Int16) (h : Fills r rate input out w)
      (between : Undisturbed r more w w') : Fills r rate (input ++ more) out w'
  | call {input out samples : List Int16} {w w' : World} (want : ℕ) {produced : ℕ}
      (h : Fills r rate input out w)
      (run : fillFramesChecked want w = (.ok (some (samples, produced)), w')) :
      Fills r rate (input ++ w.env.produced.head) (out ++ samples.take (produced * 2)) w'

section Fills

variable {w w' : World} {r : ℕ} {rate : UInt32} {input out more : List Int16} {n : ℕ}

/-- Every call goes through, and is what the staging says. -/
theorem Staged.fill (h : Staged r rate input n w) (hcovers : Covers rate input n) (want : ℕ) :
    ∃ added m w', Fill r rate input n want w added m w' := by
  by_cases hrate : rate = raopRate
  · exact h.fill_through hrate hcovers want
  · exact h.fill_interpolates hrate hcovers want

theorem Fill.take_padFrames {added : List Int16} {m want : ℕ}
    (h : Fill r rate input n want w added m w') : (padFrames want added).take (m * 2) = added := by
  rw [padFrames, List.take_append_of_le_length h.length.ge, ← h.length, List.take_length]

/-- A supply between two calls. -/
theorem Staged.supply (h : Staged r rate input n w) (hw : Undisturbed r more w w') :
    Staged r rate (input ++ more) n w' := by
  obtain ⟨c, hwindow, hle, hpos⟩ := h.window
  refine ⟨hw.ring.trans h.attached, hw.inputRate.trans h.inputRate, ⟨c, ?_, ?_, ?_⟩, ?_, ?_, ?_, ?_⟩
  · rw [hw.inBuf, hw.supplied, ← List.append_assoc, hwindow, List.drop_append_of_le_length hle]
  · rw [List.length_append]
    omega
  · rw [hw.srcPhase, hpos]
  · rw [hw.srcPhase]
    exact h.phase
  · rw [hw.inBuf]
    exact h.whole
  · rw [hw.inBuf]
    exact h.bounded
  · intro hrate
    rw [hw.inBuf, hw.srcPhase]
    exact h.through hrate

/-- What was played stays what it is with more input. -/
theorem Covers.append (h : Covers rate input n) (more : List Int16) :
    Covers rate (input ++ more) n ∧ played rate (input ++ more) n = played rate input n := by
  unfold Covers at h ⊢
  unfold played
  by_cases hrate : rate = raopRate
  · rw [if_pos hrate] at h
    rw [if_pos hrate, if_pos hrate, if_pos hrate, List.length_append, List.take_append_of_le_length h]
    exact ⟨by omega, rfl⟩
  · rw [if_neg hrate] at h
    rw [if_neg hrate, if_neg hrate, if_neg hrate, interpolations_append le_rfl (stepOf_nonneg rate)]
    · refine ⟨fun k hk => ?_, rfl⟩
      have hk' := h k hk
      rw [List.length_append]
      omega
    · intro k hk
      rw [zero_add]
      exact h k hk

/-- What the calls have made of an input: the first `n` frames of what is to be played, and a staging
that goes on from there. -/
structure Resampled (r : ℕ) (rate : UInt32) (input out : List Int16) (w : World) (n : ℕ) : Prop where
  output : out = played rate input n
  covers : Covers rate input n
  staged : Staged r rate input n w

theorem Fills.resampled (h : Fills r rate input out w) : ∃ n, Resampled r rate input out w n := by
  induction h with
  | start ring inputRate inBuf srcPhase =>
    have hempty := And.intro inBuf srcPhase
    refine ⟨0, ?_, ?_, ring, inputRate, ⟨0, ?_, Nat.zero_le _, ?_⟩, srcPhase.ge, ?_, ?_, fun _ => hempty⟩
    · unfold played
      split
      · rw [Nat.zero_mul, List.take_zero]
      · rfl
    · unfold Covers
      split
      · omega
      · intro k hk
        omega
    · rw [inBuf]
      rfl
    · rw [srcPhase]
      simp
    · rw [inBuf]
      rfl
    · rw [inBuf]
      exact Nat.zero_le _
  | supply more h between ih =>
    obtain ⟨n, hn⟩ := ih
    obtain ⟨hcovers, hplayed⟩ := hn.covers.append more
    exact ⟨n, hn.output.trans hplayed.symm, hcovers, hn.staged.supply between⟩
  | call want h run ih =>
    obtain ⟨n, hn⟩ := ih
    obtain ⟨added, m, w', hfill⟩ := hn.staged.fill hn.covers want
    have hsame := run.symm.trans hfill.checked
    obtain ⟨hresult, rfl⟩ := Prod.mk.inj hsame
    obtain ⟨rfl, rfl⟩ := Prod.mk.inj (Option.some.inj (Except.ok.inj hresult))
    refine ⟨n + _, ?_, hfill.covers, hfill.staged⟩
    rw [hfill.take_padFrames, hfill.played, hn.output]

/-- What holds of all calls: the frames they produced are the first ones of what is to be played,
the input they have not used is where it should be, an interpolated sample lies between its
neighbours, and the next call makes no access out of range and pads only when it starves. -/
structure Faithful (r : ℕ) (rate : UInt32) (input out : List Int16) (w : World) : Prop where
  segment : ∃ n, out = played rate input n ∧ Covers rate input n ∧
    ∃ c : ℕ, c ≤ n * stepOf rate ∧ w.s.srcPhase = n * stepOf rate - c ∧
      w.s.inBuf ++ w.env.rings r = input.drop (2 * c)
  between : rate ≠ raopRate → ∀ k channel, k * 2 + channel < out.length → channel < 2 →
    Between (input.getD (leftOf (k * stepOf rate) * 2 + channel) 0)
      (input.getD (leftOf (k * stepOf rate) * 2 + 2 + channel) 0) (out.getD (k * 2 + channel) 0)
  bounded : w.s.inBuf.length ≤ 2 * inBufMaxFrames
  inRange : ∀ want, ∃ samples produced w', fillFrames want w = (.ok samples, w') ∧
    fillFramesChecked want w = (.ok (some (samples, produced)), w') ∧
    (produced < want → Starved r rate w')

/-- What was made of the input so far is faithful to it. -/
theorem Resampled.faithful (hn : Resampled r rate input out w n) : Faithful r rate input out w := by
  obtain ⟨c, hwindow, hle, hpos⟩ := hn.staged.window
  have hphase := hn.staged.phase
  refine ⟨⟨n, hn.output, hn.covers, c, by linarith, by linarith, hwindow⟩, ?_, ?_, ?_⟩
  · intro hrate k channel hk hchannel
    have hstep := stepOf_nonneg rate
    have hat : 0 ≤ k * stepOf rate := by positivity
    have hout := hn.output
    rw [played, if_neg hrate] at hout
    rw [hout, length_interpolations] at hk
    rw [hout, interpolations_getD (by omega) hchannel, zero_add]
    exact channelAt_between input channel hat
  · have hwhole := hn.staged.whole
    have hbounded := hn.staged.bounded
    omega
  · intro want
    obtain ⟨added, m, w', hfill⟩ := hn.staged.fill hn.covers want
    exact ⟨_, m, w', hfill.run, hfill.checked, hfill.starved⟩

/-- **Resampler stream equivalence.**  Over all calls, however the ring is supplied, the frames
without the padding are an initial segment of the interpolations of the whole input. -/
theorem resampler_exact (h : Fills r rate input out w) : Faithful r rate input out w := by
  obtain ⟨n, hn⟩ := h.resampled
  exact hn.faithful

/-- A sender at 48 kHz with four frames in its ring. -/
def fourFrames : World where
  s := { ring := some 0, inputRate := 48000 }
  env := { Env.still with rings := fun _ => [0, 0, 100, -100, 200, -200, 300, -300] }
  out := []

/-- Of four frames three can be interpolated; the fourth frame of the call is padding. -/
theorem resampler_exact_starved :
    Faithful 0 48000 [0, 0, 100, -100, 200, -200, 300, -300] [0, 0, 108, -108, 217, -217]
      (fillFramesChecked 4 fourFrames).2 := by
  have hrun : (fillFramesChecked 4 fourFrames).1 =
      .ok (some ([0, 0, 108, -108, 217, -217, 0, 0], 3)) := by decide +kernel
  have hstart : Fills 0 48000 [0, 0, 100, -100, 200, -200, 300, -300] [] fourFrames :=
    .start (w := fourFrames) rfl rfl rfl rfl
  exact resampler_exact (.call 4 hstart (Prod.ext hrun rfl))

end Fills

end AirplaySender
