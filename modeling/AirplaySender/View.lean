/-
# Views of a world, and the methods that leave them alone

Each argument about a run follows a part of the world: the state of the protocol (`coreOf`), what
ends up on the wire (`wireOf`), the timers and the staging of audio (`pulseOf`), the hang-ups of a
connection.  A `View` is such a part, cut out the same way each time: some of the members, some of
the answers in store, some entries of the trace.

Most of what a method does touches none of it.  That is stated here once for every view, with what
the view must not show as a premise, so that a walk over the code (`Walks`, `Acts`) has to look only
at the assignments its view does show.
-/
import AirplaySender.Session

namespace AirplaySender

open Octets Prog

variable {μ ν μ' ν' α : Type}

/-! ## 1. Views -/

/-- A part of the world.  The system clock and the random octets are in none. -/
structure View (μ ν : Type) where
  members : Sender → μ
  store : Env → ν
  shows : Entry → Bool
  wall : ∀ env : Env, store { env with wall := env.wall.tail } = store env := by exact fun _ => rfl
  entropy : ∀ env : Env, store { env with entropy := env.entropy.tail } = store env := by
    exact fun _ => rfl

namespace View

/-- What a view shows of a world. -/
def of (v : View μ ν) (w : World) : μ × ν × List Entry :=
  (v.members w.s, v.store w.env, w.out.filter v.shows)

/-- Two views at once. -/
def prod (v : View μ ν) (v' : View μ' ν') : View (μ × μ') (ν × ν') where
  members s := (v.members s, v'.members s)
  store env := (v.store env, v'.store env)
  shows e := v.shows e || v'.shows e
  wall env := Prod.ext (v.wall env) (v'.wall env)
  entropy env := Prod.ext (v.entropy env) (v'.entropy env)

variable {v : View μ ν} {v' : View μ' ν'}

/-- What is shown is the same where the three parts are. -/
theorem of_congr {s s' : Sender} {env env' : Env} {out out' : List Entry}
    (hs : v.members s' = v.members s) (henv : v.store env' = v.store env)
    (hout : out'.filter v.shows = out.filter v.shows) :
    v.of ⟨s', env', out'⟩ = v.of ⟨s, env, out⟩ := by
  simp only [of, hs, henv, hout]

variable (v v') in
/-- What two views show together shows what each does. -/
theorem of_left (w : World) : v.of w =
    (((v.prod v').of w).1.1, ((v.prod v').of w).2.1.1, ((v.prod v').of w).2.2.filter v.shows) := by
  simp only [of, prod, List.filter_filter]
  congr 3
  funext e
  cases v.shows e <;> simp

variable (v v') in
theorem of_right (w : World) : v'.of w =
    (((v.prod v').of w).1.2, ((v.prod v').of w).2.1.2, ((v.prod v').of w).2.2.filter v'.shows) := by
  simp only [of, prod, List.filter_filter]
  congr 3
  funext e
  cases v'.shows e <;> simp

/-- A view that shows nothing of what `writeRtsp_` does. -/
structure Mute (v : View μ ν) : Prop where
  counter : ∀ (s : Sender) (ctr : UInt64), v.members { s with ctrlSendCtr := ctr } = v.members s
  refused : v.shows (.keyRefused .control) = false
  sealed : ∀ key nonce aad pt, v.shows (.sealed .control key nonce aad pt) = false
  sent : ∀ bytes, v.shows (.tcpSend .control bytes) = false

/-- A view that shows nothing of the ring and of the staging behind it. -/
structure Deaf (v : View μ ν) : Prop where
  staging : ∀ (s : Sender) (inBuf : List Int16) (srcPhase : ℚ),
    v.members { s with inBuf, srcPhase } = v.members s
  ring : ∀ (env : Env) (rings : ℕ → List Int16) (produced : Stream' (List Int16)),
    v.store { env with rings, produced } = v.store env

end View

/-! ## 2. What leaves a view alone -/

/-- `m` leaves the view alone, however it ends. -/
def Overlooks (v : View μ ν) (m : M α) : Prop := Fixes v.of m

namespace Overlooks

variable {v : View μ ν} {v' : View μ' ν'}

/-- A method that leaves two views alone leaves each alone. -/
theorem left {m : M α} (h : Overlooks (v.prod v') m) : Overlooks v m := fun w => by
  rw [View.of_left v v', h w, ← View.of_left v v']

theorem right {m : M α} (h : Overlooks (v.prod v') m) : Overlooks v' m := fun w => by
  rw [View.of_right v v', h w, ← View.of_right v v']

/-- Reading the members changes nothing. -/
theorem sender : Overlooks v sender := Fixes.bind Fixes.get fun _ => Fixes.pure _

/-- An assignment to members that are not shown. -/
theorem setS {f : Sender → Sender} (h : ∀ s, v.members (f s) = v.members s) :
    Overlooks v (setS f) := Fixes.modify fun w => View.of_congr (h w.s) rfl rfl

/-- An entry that is not shown. -/
theorem emit {e : Entry} (h : v.shows e = false) : Overlooks v (emit e) :=
  Fixes.modify fun _ => View.of_congr rfl rfl (List.filter_cons_of_neg (by simp [h]))

/-- An assignment and its entry. -/
theorem setAndEmit {f : Sender → Sender} {e : Entry} (hf : ∀ s, v.members (f s) = v.members s)
    (he : v.shows e = false) : Overlooks v (setAndEmit f e) :=
  Fixes.modify fun w => View.of_congr (hf w.s) rfl (List.filter_cons_of_neg (by simp [he]))

/-- An answer taken from a store that is not shown. -/
theorem ask {read : Env → α} {next : Env → Env} (h : ∀ env, v.store (next env) = v.store env) :
    Overlooks v (ask read next) := by
  refine Fixes.bind Fixes.get fun _ => Fixes.bind (Fixes.modify fun w => ?_) fun _ => Fixes.pure _
  exact View.of_congr rfl (h w.env) rfl

/-- The clock and the random octets are drawn, and no view shows either. -/
theorem wallClock : Overlooks v wallClock := ask v.wall

theorem ntpNow : Overlooks v ntpNow := Fixes.bind wallClock fun _ => Fixes.pure _

theorem randomBytes (n : ℕ) : Overlooks v (randomBytes n) := by
  refine Fixes.bind (ask v.entropy) fun draw => ?_
  cases draw with
  | some f => exact Fixes.pure _
  | none => exact Fixes.raise _

theorem rand32 : Overlooks v rand32 := Fixes.bind (randomBytes 4) fun _ => Fixes.pure _

theorem rand64 : Overlooks v rand64 := Fixes.bind (randomBytes 8) fun _ => Fixes.pure _

theorem rand16 : Overlooks v rand16 := Fixes.bind (randomBytes 2) fun _ => Fixes.pure _

theorem uuidV4Lower : Overlooks v uuidV4Lower := Fixes.bind (randomBytes 16) fun _ => Fixes.pure _

/-! ### The pairing state -/

/-- The null pointer, where its entry is not shown. -/
theorem nullDeref (h : v.shows .derefNull = false) : Overlooks v (nullDeref : M α) :=
  Fixes.bind (emit h) fun _ => Fixes.raise _

theorem ap2Get (h : v.shows .derefNull = false) : Overlooks v ap2Get := by
  refine Fixes.bind sender fun s => ?_
  cases s.ap2 with
  | some a => exact Fixes.pure a
  | none => exact nullDeref h

/-- An assignment to the pairing state. -/
theorem ap2Set {g : Ap2State → Ap2State} (h : v.shows .derefNull = false)
    (hg : ∀ s, v.members { s with ap2 := s.ap2.map g } = v.members s) : Overlooks v (ap2Set g) :=
  Fixes.bind (ap2Get h) fun _ => setS hg

/-! ### Encryption -/

/-- Sealing, where its site is not shown. -/
theorem chacha [Primitives] {site : Site} (hrefused : v.shows (.keyRefused site) = false)
    (hsealed : ∀ key nonce aad pt, v.shows (.sealed site key nonce aad pt) = false)
    (key nonce pt aad : Octets) :
    Overlooks v (chacha20Poly1305Encrypt site key nonce pt aad) := by
  refine Fixes.ite ?_ ?_
  · exact Fixes.bind (emit hrefused) fun _ => Fixes.raise _
  · exact Fixes.bind (emit (hsealed _ _ _ _)) fun _ => Fixes.pure _

/-- The induction is on the fuel, one chunk a round. -/
theorem sealLoop [Primitives] (h : v.Mute) (key : Octets) :
    ∀ (fuel : ℕ) (data out : Octets), Overlooks v (sealLoop key fuel data out)
  | 0, _, _ => Fixes.pure _
  | fuel + 1, data, out => by
    refine Fixes.ite (Fixes.pure _) ?_
    refine Fixes.bind sender fun s => Fixes.bind (setS fun s => h.counter s _) fun _ => ?_
    exact Fixes.bind (chacha h.refused h.sealed _ _ _ _) fun ct => sealLoop h key fuel _ _

/-- A write to the control channel, plain or sealed. -/
theorem writeRtsp [Primitives] (h : v.Mute) (data : Octets) : Overlooks v (writeRtsp data) := by
  refine Fixes.bind sender fun s => ?_
  split
  · exact Fixes.bind (sealLoop h _ _ _ _) fun _ => emit (h.sent _)
  · exact emit (h.sent _)

/-! ### The ring -/

theorem ringRead (h : v.Deaf) (ring : ℕ) : Overlooks v (ringRead ring) := by
  refine Fixes.bind (ask fun env => h.ring env env.rings _) fun more => ?_
  refine Fixes.bind (Fixes.modify fun w => ?_) fun _ => Fixes.bind Fixes.get fun _ => Fixes.pure _
  exact View.of_congr rfl (h.ring w.env _ w.env.produced) rfl

theorem ringPop (h : v.Deaf) (ring n : ℕ) : Overlooks v (ringPop ring n) :=
  Fixes.modify fun w => View.of_congr rfl (h.ring w.env _ w.env.produced) rfl

theorem compact (h : v.Deaf) (s : Sender) : v.members (compact s) = v.members s := by
  unfold AirplaySender.compact
  dsimp only
  split
  · rfl
  · exact h.staging s _ _

/-- The frames of a packet, taken from the ring or made from it by the resampler. -/
theorem fillFrames (h : v.Deaf) (want : ℕ) : Overlooks v (fillFrames want) := by
  refine Fixes.bind sender fun s => ?_
  cases s.ring with
  | none => exact Fixes.pure _
  | some ring =>
    refine Fixes.bind (ringRead h ring) fun held => Fixes.ite ?_ ?_
    · exact Fixes.bind (ringPop h ring _) fun _ => Fixes.pure _
    · refine Fixes.bind (ringPop h ring _) fun _ => ?_
      refine Fixes.bind (setS fun s => ?_) fun _ => Fixes.pure _
      exact (compact h _).trans (h.staging s _ _)

end Overlooks

/-! ## 3. Filling frames -/

/-- What `compact` leaves alone. -/
theorem compact_keeps (s : Sender) :
    (compact s).ap2 = s.ap2 ∧ (compact s).framesSent = s.framesSent := by
  unfold compact
  dsimp only
  split
  · exact ⟨rfl, rfl⟩
  · exact ⟨rfl, rfl⟩

/-- Frames are padded to the number that was asked for. -/
theorem length_padFrames {want : ℕ} {samples : List Int16} (h : samples.length ≤ want * 2) :
    (padFrames want samples).length = want * 2 := by
  rw [padFrames, List.length_append, List.length_replicate]
  omega

/-- Interpolation makes no more frames than were asked for. -/
theorem length_interpolate (buf : List Int16) (step : ℚ) :
    ∀ (want : ℕ) (phase : ℚ), (interpolate buf step want phase).1.length ≤ want * 2
  | 0, _ => Nat.zero_le _
  | want + 1, phase => by
    have ih := length_interpolate buf step want (phase + step)
    rw [interpolate]
    dsimp only
    split
    · exact Nat.zero_le _
    · simp only [List.length_cons]
      omega

/-- Taking frames from the ring always ends with as many as were asked for, and changes neither the
keys nor the counters. -/
theorem fillFrames_run (want : ℕ) (w : World) : ∃ samples w', fillFrames want w = (.ok samples, w') ∧
    samples.length = want * 2 ∧ w'.s.ap2 = w.s.ap2 ∧ w'.s.framesSent = w.s.framesSent ∧
      w'.out = w.out := by
  unfold fillFrames
  rw [sender_bind]
  cases w.s.ring with
  | none => exact ⟨_, w, rfl, List.length_replicate, rfl, rfl, rfl⟩
  | some ring =>
    by_cases hrate : w.s.inputRate = raopRate
    · simp only [if_pos hrate]
      refine ⟨_, _, rfl, length_padFrames ?_, rfl, rfl, rfl⟩
      rw [List.length_take]
      omega
    · simp only [if_neg hrate]
      obtain ⟨hap2, hsent⟩ := compact_keeps { w.s with
        inBuf := _
        srcPhase := _ }
      exact ⟨_, _, rfl, length_padFrames (length_interpolate _ _ _ _), hap2, hsent, rfl⟩

end AirplaySender
