/-
# Deadlines

Five timers and one clock.  `tick` reads the clock once and runs every timer that is due at the
reading; between two ticks the host sleeps until `nextDeadline`.  That is sound if `nextDeadline`
tells the truth on both sides: a tick before it does nothing, and a tick leaves nothing behind that
is due at its own reading, whatever its handlers and the callbacks inside them armed on the way.

`Pulse.Wound` holds over whole runs, `Pulse.Past` within one tick; both are kept by every beat.
-/
import AirplaySender.Runs

namespace AirplaySender

open Octets Prog

/-! ## 1. What beats keep -/

/-- A timer whose interval is in range and whose deadline is no further off than that. -/
def Timer.InRange (x : Timer) (now : ℤ) (longest : ℕ) : Prop :=
  0 < x.interval ∧ x.interval ≤ longest ∧ (x.active = true → x.due ≤ now + longest * 1000000)

/-- A clock that does not go back. -/
def Advances (clock : Stream' ℤ) : Prop := ∀ i j, i ≤ j → clock i ≤ clock j

/-- The clock goes forward, and every timer is in range at its next reading. -/
structure Pulse.Wound (p : Pulse) : Prop where
  clock : Advances p.steady
  timers : ∀ t, (p.timers t).InRange p.steady.head t.longest

/-- The clock has reached `now`, and of some timers none is due at it. -/
structure Pulse.Past (p : Pulse) (now : ℤ) (done : TimerId → Prop) : Prop where
  clock : ∀ k, now ≤ p.steady k
  timers : ∀ t, 0 < (p.timers t).interval ∧
    (done t → (p.timers t).active = true → now < (p.timers t).due)

section Kept

variable [Primitives] {Ok : Action → Prop} {p p' : Pulse} {now : ℤ} {done : TimerId → Prop}
  {t : TimerId}

omit [Primitives] in
theorem Pulse.timers_setTimer (p : Pulse) (f : Timer → Timer) (t u : TimerId) :
    (p.setTimer f t).timers u = if u = t then f (p.timers u) else p.timers u := by
  by_cases hu : u = t
  · subst hu
    simp [Pulse.setTimer]
  · simp [Pulse.setTimer, hu]

omit [Primitives] in
theorem Pulse.Wound.setTimer (h : p.Wound) {f : Timer → Timer}
    (ht : (f (p.timers t)).InRange p.steady.head t.longest) : (p.setTimer f t).Wound := by
  refine ⟨h.clock, fun u => ?_⟩
  rw [Pulse.timers_setTimer]
  split
  · rename_i hu
    subst hu
    exact ht
  · exact h.timers u

omit [Primitives] in
theorem Pulse.Past.setTimer (h : p.Past now done) {f : Timer → Timer}
    (hpos : 0 < (f (p.timers t)).interval)
    (ht : done t → (f (p.timers t)).active = true → now < (f (p.timers t)).due) :
    (p.setTimer f t).Past now done := by
  refine ⟨h.clock, fun u => ?_⟩
  rw [Pulse.timers_setTimer]
  split
  · rename_i hu
    subst hu
    exact ⟨hpos, ht⟩
  · exact h.timers u

/-- The timers and the clock, as a view. -/
def clockView : View (TimerId → Timer) (Stream' ℤ) where
  members := Sender.timer
  store := Env.steady
  shows _ := false

omit [Primitives] in
/-- Filling frames takes no reading and touches no timer. -/
theorem fillFrames_clock {w w' : World} {want : ℕ} {samples : List Int16}
    (h : fillFrames want w = (.ok samples, w')) :
    (pulseOf w').timers = (pulseOf w).timers ∧ (pulseOf w').steady = (pulseOf w).steady := by
  have hw := Overlooks.fillFrames (v := clockView) ⟨fun _ _ _ => rfl, fun _ _ _ => rfl⟩ want w
  rw [h] at hw
  exact ⟨congrArg Prod.fst hw, congrArg (fun v => v.2.1) hw⟩

omit [Primitives] in
theorem Pulse.Wound.read (h : p.Wound) : p.read.Wound where
  clock i j hij := h.clock (i + 1) (j + 1) (Nat.succ_le_succ hij)
  timers t := by
    obtain ⟨hpos, hlong, hdue⟩ := h.timers t
    have hnext : p.steady.head ≤ p.read.steady.head := h.clock 0 1 (Nat.zero_le 1)
    exact ⟨hpos, hlong, fun hactive => (hdue hactive).trans (Int.add_le_add_right hnext _)⟩

theorem Beat.wound (hb : Beat Ok p p') (h : p.Wound) : p'.Wound := by
  cases hb with
  | read => exact h.read
  | arm t =>
    obtain ⟨hpos, hlong, -⟩ := h.timers t
    refine h.read.setTimer ⟨hpos, hlong, fun _ => ?_⟩
    have hnext : p.steady.head ≤ p.read.steady.head := h.clock 0 1 (Nat.zero_le 1)
    have hdue : p.steady.head + ((p.timers t).interval : ℤ) * 1000000 ≤
        p.read.steady.head + (t.longest : ℤ) * 1000000 := by omega
    exact hdue
  | disarm t =>
    obtain ⟨hpos, hlong, -⟩ := h.timers t
    exact h.setTimer ⟨hpos, hlong, fun hoff => absurd hoff (by simp)⟩
  | still =>
    refine ⟨h.clock, fun t => ?_⟩
    obtain ⟨hpos, hlong, -⟩ := h.timers t
    exact ⟨hpos, hlong, fun hoff => absurd hoff (by simp [Pulse.stopped])⟩
  | retime t interval hpos hlong => exact h.setTimer ⟨hpos, hlong, (h.timers t).2.2⟩
  | play hw hfill =>
    obtain ⟨htimers, hsteady⟩ := fillFrames_clock hfill
    rw [hw] at htimers hsteady
    exact ⟨hsteady ▸ h.clock, fun t => htimers ▸ hsteady ▸ h.timers t⟩
  | _ => exact ⟨h.clock, h.timers⟩

omit [Primitives] in
theorem Pulse.Past.read (h : p.Past now done) : p.read.Past now done :=
  ⟨fun k => h.clock (k + 1), h.timers⟩

/-- **What is armed is armed for later**: after a reading no beat makes a timer due at it. -/
theorem Beat.past (hb : Beat Ok p p') (h : p.Past now done) : p'.Past now done := by
  cases hb with
  | read => exact h.read
  | arm t =>
    have hpos := (h.timers t).1
    refine h.read.setTimer hpos fun _ _ => ?_
    have hreading : now ≤ p.steady.head := h.clock 0
    have hdue : now < p.steady.head + ((p.timers t).interval : ℤ) * 1000000 := by omega
    exact hdue
  | disarm t => exact h.setTimer (h.timers t).1 fun _ hoff => absurd hoff (by simp)
  | still =>
    exact ⟨h.clock, fun t => ⟨(h.timers t).1, fun _ hoff => absurd hoff (by simp [Pulse.stopped])⟩⟩
  | retime t interval hpos => exact h.setTimer hpos (h.timers t).2
  | play hw hfill =>
    obtain ⟨htimers, hsteady⟩ := fillFrames_clock hfill
    rw [hw] at htimers hsteady
    exact ⟨hsteady ▸ h.clock, fun t => htimers ▸ h.timers t⟩
  | _ => exact ⟨h.clock, h.timers⟩

omit [Primitives] in
/-- A timer that repeats is next due an interval after the reading. -/
theorem Pulse.Wound.lapsed (h : p.Wound) (hpast : p.Past now done) (t : TimerId) :
    (p.lapsed now t).Wound := by
  obtain ⟨hpos, hlong, -⟩ := h.timers t
  refine h.setTimer ?_
  split
  · refine ⟨hpos, hlong, fun _ => ?_⟩
    have hreading : now ≤ p.steady.head := hpast.clock 0
    have hnext : now + ((p.timers t).interval : ℤ) * 1000000 ≤
        p.steady.head + (t.longest : ℤ) * 1000000 := by omega
    exact hnext
  · exact ⟨hpos, hlong, fun hoff => absurd hoff (by simp)⟩

omit [Primitives] in
/-- A timer that has fallen due is done with. -/
theorem Pulse.Past.lapsed (h : p.Past now done) (t : TimerId) :
    (p.lapsed now t).Past now fun u => done u ∨ u = t := by
  refine ⟨h.clock, fun u => ?_⟩
  obtain ⟨hpos, hlater⟩ := h.timers u
  rw [Pulse.lapsed, Pulse.timers_setTimer]
  by_cases hu : u = t
  · rw [if_pos hu]
    split
    · refine ⟨hpos, fun _ _ => ?_⟩
      have hdue : now < now + ((p.timers u).interval : ℤ) * 1000000 := by omega
      exact hdue
    · exact ⟨hpos, fun _ hoff => absurd hoff (by simp)⟩
  · rw [if_neg hu]
    exact ⟨hpos, fun hdone => hlater (hdone.resolve_right hu)⟩

end Kept

/-! ## 2. The tick -/

/-- The world behind a reading of the clock. -/
def World.readClock (w : World) : World :=
  { w with env := { w.env with steady := w.env.steady.tail } }

theorem now_run (w : World) : now w = (.ok w.env.steady.head, w.readClock) := rfl

/-- The clock has reached the reading that is taken. -/
theorem Pulse.Wound.reached {w : World} (hw : (pulseOf w).Wound) :
    (pulseOf w.readClock).Past w.env.steady.head fun _ => False :=
  ⟨fun k => hw.clock 0 (k + 1) (Nat.zero_le (k + 1)),
    fun t => ⟨(hw.timers t).1, fun hno => hno.elim⟩⟩

open Relation (ReflTransGen)

section Tick

variable [Primitives] [Host] {now : ℤ} {done : TimerId → Prop} {t : TimerId} {w w' : World}

omit [Host] in
theorem Acts.pulse_keeps {α : Type} {m : M α} {Q : α → World → Prop} {I : Pulse → Prop}
    (hI : ∀ p p', Beat (fun _ => True) p p' → I p → I p') (h : Acts (fun _ => True) w m Q)
    (hw : I (pulseOf w)) : I (pulseOf (m w).2) := by
  have hallowed : (wireOf w).Allowed fun _ => True := fun _ _ _ => trivial
  exact (h hallowed).invariant (I := fun v => I (pulseOf v))
    (fun _ _ hdeed => moves_keep hI hdeed.pulse) hw

variable (hfire : Heeds fun _ => True) (htame : Tame)
include hfire

theorem tickTimer_past (hflow : Flow (coreOf w)) (hw : (pulseOf w).Past now done) :
    (pulseOf (tickTimer now t w).2).Past now fun u => done u ∨ u = t := by
  obtain ⟨hlater, hrun⟩ | ⟨w₁, hactive, hstate, -, hlapsed, hrun⟩ := tickTimer_run now t w
  · rw [hrun]
    refine ⟨hw.clock, fun u => ⟨(hw.timers u).1, ?_⟩⟩
    rintro (hdone | rfl)
    · exact (hw.timers u).2 hdone
    · exact hlater
  · rw [hrun]
    refine (onTimer_acts hfire t fun ht => ?_).pulse_keeps (fun _ _ => Beat.past) ?_
    · exact hstate.trans (streaming_of_active hflow hactive ht)
    · rw [hlapsed]
      exact hw.lapsed t

theorem tickTimer_wound (hflow : Flow (coreOf w)) (hw : (pulseOf w).Wound)
    (hpast : (pulseOf w).Past now done) : (pulseOf (tickTimer now t w).2).Wound := by
  obtain ⟨-, hrun⟩ | ⟨w₁, hactive, hstate, -, hlapsed, hrun⟩ := tickTimer_run now t w
  · rw [hrun]
    exact hw
  · rw [hrun]
    refine (onTimer_acts hfire t fun ht => ?_).pulse_keeps (fun _ _ => Beat.wound) ?_
    · exact hstate.trans (streaming_of_active hflow hactive ht)
    · rw [hlapsed]
      exact hw.lapsed hpast t

include htame

/-- However `tick` ends, the timers are in range. -/
theorem tick_wound (hflow : Flow (coreOf w)) (hw : (pulseOf w).Wound) :
    (pulseOf (tick w).2).Wound := by
  let I : World → Prop := fun v => Flow (coreOf v) ∧
    (pulseOf v).Wound ∧ (pulseOf v).Past w.env.steady.head fun _ => False
  have hall (t : TimerId) (v : World) (hv : I v) : I (tickTimer w.env.steady.head t v).2 := by
    obtain ⟨hflow, hwound, hpast⟩ := hv
    have hpast' := tickTimer_past hfire hflow hpast (t := t)
    exact ⟨(tickTimer_walks htame _ t).keeps hflow, tickTimer_wound hfire hflow hwound hpast,
      hpast'.clock, fun u => ⟨(hpast'.timers u).1, fun hno => hno.elim⟩⟩
  have hstart : I w.readClock := ⟨hflow, hw.read, hw.reached⟩
  unfold tick
  rw [bind_ok (now_run w)]
  refine (bind_keeps (I := I) (hall .timeout _ hstart) fun _ _ h₁ => ?_).2.1
  refine bind_keeps (I := I) (hall .pinTimeout _ h₁) fun _ _ h₂ => ?_
  refine bind_keeps (I := I) (hall .feedbackTimer _ h₂) fun _ _ h₃ => ?_
  exact bind_keeps (I := I) (hall .syncTimer _ h₃) fun _ _ h₄ => hall .pacer _ h₄

/-- A tick that gets through all timers leaves none that is due at its reading. -/
theorem tick_past (hflow : Flow (coreOf w)) (hw : (pulseOf w).Wound) (h : tick w = (.ok (), w')) :
    (pulseOf w').Past w.env.steady.head fun _ => True := by
  have hnext {done : TimerId → Prop} {t : TimerId} {v v' : World} {r : Unit}
      (hv : Flow (coreOf v) ∧ (pulseOf v).Past w.env.steady.head done)
      (hrun : tickTimer w.env.steady.head t v = (.ok r, v')) :
      Flow (coreOf v') ∧ (pulseOf v').Past w.env.steady.head fun u => done u ∨ u = t := by
    have hflow' := (tickTimer_walks htame w.env.steady.head t).keeps hv.1
    have hpast' := tickTimer_past hfire hv.1 hv.2 (t := t)
    rw [hrun] at hflow' hpast'
    exact ⟨hflow', hpast'⟩
  unfold tick at h
  rw [bind_ok (now_run w)] at h
  obtain ⟨_, w₁, h₁, h⟩ := ok_of_bind h
  have hpast₁ := hnext (v := w.readClock) ⟨hflow, hw.reached⟩ h₁
  obtain ⟨_, w₂, h₂, h⟩ := ok_of_bind h
  have hpast₂ := hnext hpast₁ h₂
  obtain ⟨_, w₃, h₃, h⟩ := ok_of_bind h
  have hpast₃ := hnext hpast₂ h₃
  obtain ⟨_, w₄, h₄, h⟩ := ok_of_bind h
  obtain ⟨-, hpast₅⟩ := hnext (hnext hpast₃ h₄) h
  refine ⟨hpast₅.clock, fun t => ⟨(hpast₅.timers t).1, fun _ => (hpast₅.timers t).2 ?_⟩⟩
  cases t <;> simp

omit hfire htame in
/-- **A tick before every deadline takes its reading and does nothing.** -/
theorem tick_idle (h : ∀ t, (w.s.timer t).active = true → w.env.steady.head < (w.s.timer t).due) :
    tick w = (.ok (), w.readClock) := by
  have hread : sender w.readClock = (.ok w.s, w.readClock) := rfl
  have hquiet (t : TimerId) :
      tickTimer w.env.steady.head t w.readClock = (.ok (), w.readClock) := by
    have hidle : (!(w.s.timer t).active) = true ∨ w.env.steady.head < (w.s.timer t).due := by
      cases hactive : (w.s.timer t).active with
      | false => exact .inl rfl
      | true => exact .inr (h t hactive)
    unfold tickTimer
    rw [bind_ok hread, if_pos hidle]
    rfl
  unfold tick
  rw [bind_ok (now_run w), bind_ok (hquiet _), bind_ok (hquiet _), bind_ok (hquiet _),
    bind_ok (hquiet _)]
  exact hquiet _

/-- Every action leaves the timers in range. -/
theorem perform_wound (hflow : Flow (coreOf w)) (hwhole : (wireOf w).Reassembled)
    (hw : (pulseOf w).Wound) (a : Action) : (pulseOf (perform a w).2).Wound := by
  by_cases ha : a = .tick
  · subst ha
    exact tick_wound hfire htame hflow hw
  · obtain ⟨-, hswings⟩ :=
      perform_turns hfire htame hflow hwhole (fun _ _ _ => trivial) (a := a) trivial
    have hbeats : ReflTransGen (Beat fun _ => True) (pulseOf w) (pulseOf (perform a w).2) :=
      ReflTransGen.mono (fun _ _ h => h.resolve_right fun htick => ha htick.1) _ _ hswings
    exact moves_keep (fun _ _ => Beat.wound) hbeats hw

theorem run_wound : ∀ (actions : List Action) (w : World), Flow (coreOf w) →
    (wireOf w).Reassembled → (pulseOf w).Wound →
      Flow (coreOf (run actions w)) ∧ (pulseOf (run actions w)).Wound := by
  intro actions
  induction actions with
  | nil => exact fun w hflow _ hw => ⟨hflow, hw⟩
  | cons a actions ih =>
    intro w hflow hwhole hw
    have hflow' : Flow (coreOf (perform a w).2) := (perform_walks htame a).keeps hflow
    have hwhole' := perform_reassembled hfire htame hflow hwhole a
    have hnext := perform_wound hfire htame hflow hwhole hw a
    rw [run_cons]
    split
    · exact ⟨hflow', hnext⟩
    · exact ih _ hflow' hwhole' hnext

end Tick

/-! ## 3. The deadline the host is told -/

/-- The earliest of some deadlines lies after a reading if they all do. -/
theorem foldl_later {f : Option ℤ → Timer → Option ℤ} (hnone : ∀ x, f none x = some x.due)
    (hsome : ∀ b x, f (some b) x = if x.due < b then some x.due else some b) (now : ℤ)
    (timers : List Timer) (best : Option ℤ) :
    (∀ d, timers.foldl f best = some d → now < d) ↔
      (∀ d, best = some d → now < d) ∧ ∀ x ∈ timers, now < x.due := by
  induction timers generalizing best with
  | nil => simp
  | cons x timers ih =>
    rw [List.foldl_cons, ih, List.forall_mem_cons, ← and_assoc]
    refine and_congr_left fun _ => ?_
    cases best with
    | none => simp [hnone]
    | some b =>
      rw [hsome]
      by_cases hx : x.due < b
      · rw [if_pos hx]
        simp only [Option.some.injEq, forall_eq']
        omega
      · rw [if_neg hx]
        simp only [Option.some.injEq, forall_eq']
        omega

/-- `nextDeadline` lies after a reading if every armed timer is due after it. -/
theorem nextDeadline_later (s : Sender) (now : ℤ) :
    (∀ d, s.nextDeadline = some d → now < d) ↔
      ∀ t, (s.timer t).active = true → now < (s.timer t).due := by
  refine (foldl_later (fun _ => rfl) (fun _ _ => rfl) now _ none).trans ⟨fun h t hactive => ?_, ?_⟩
  · refine h.2 _ (List.mem_filter.mpr ⟨?_, hactive⟩)
    cases t <;> simp [Sender.timer]
  · refine fun h => ⟨fun d hd => absurd hd (by simp), fun x hx => ?_⟩
    obtain ⟨hx, hactive⟩ := List.mem_filter.mp hx
    simp only [List.mem_cons, List.not_mem_nil, or_false] at hx
    rcases hx with rfl | rfl | rfl | rfl | rfl
    · exact h .pacer hactive
    · exact h .syncTimer hactive
    · exact h .timeout hactive
    · exact h .pinTimeout hactive
    · exact h .feedbackTimer hactive

theorem wound_init {env : Env} (hclock : Advances env.steady) :
    (pulseOf (World.init env)).Wound := by
  have hnew (t : TimerId) : 0 < (({} : Sender).timer t).interval ∧
      (({} : Sender).timer t).interval ≤ t.longest ∧ (({} : Sender).timer t).active = false := by
    cases t <;> decide
  refine ⟨hclock, fun t => ?_⟩
  obtain ⟨hpos, hlong, hidle⟩ := hnew t
  exact ⟨hpos, hlong, fun hactive => absurd (hidle.symm.trans hactive) (by decide)⟩

/-- **`nextDeadline` is exact.**  Whatever has been done to a sender, with callbacks of any depth
and a clock that does not go back: an armed timer is due no later than its longest interval from
now; a tick before the deadline takes its reading and does nothing; and a tick that no exception
leaves early leaves no deadline up to its reading. -/
theorem deadline_exact [Primitives] (depth : ℕ) {env : Env} (hclock : Advances env.steady)
    (actions : List Action) :
    let w := @run _ (host depth) actions (World.init env)
    let now := w.env.steady.head
    let ticked := @tick _ (host depth) w
    (∀ t, (w.s.timer t).active = true → (w.s.timer t).due ≤ now + t.longest * 1000000) ∧
    ((∀ d, w.s.nextDeadline = some d → now < d) → ticked = (.ok (), w.readClock)) ∧
    (ticked.1 = .ok () → ∀ d, ticked.2.s.nextDeadline = some d → now < d) := by
  intro w now ticked
  obtain ⟨hflow, hwound⟩ : Flow (coreOf w) ∧ (pulseOf w).Wound :=
    @run_wound _ (host depth) (host_heeds depth) (host_tame depth) actions _ Flow.init
      (reassembled_init env) (wound_init hclock)
  refine ⟨fun t => (hwound.timers t).2.2, fun hlater => ?_, fun hok => ?_⟩
  · exact @tick_idle _ (host depth) w ((nextDeadline_later _ _).mp hlater)
  · have hrun : ticked = (.ok (), ticked.2) := Prod.ext hok rfl
    have hpast := @tick_past _ (host depth) w ticked.2 (host_heeds depth) (host_tame depth) hflow
      hwound hrun
    exact (nextDeadline_later _ _).mpr fun t => (hpast.timers t).2 trivial

/-- The handshake timeout is ten seconds off, and a tick before it does nothing. -/
theorem deadline_exact_waiting :
    let w := worldAfter (connected .hapTransient true)
    w.s.nextDeadline = some 10000000000 ∧
      @tick trusting (@host trusting 0) w = (.ok (), w.readClock) := by
  obtain ⟨hnext, hnow⟩ :
      (worldAfter (connected .hapTransient true)).s.nextDeadline = some 10000000000 ∧
      (worldAfter (connected .hapTransient true)).env.steady.head = 0 := by decide +kernel
  obtain ⟨-, hidle, -⟩ :=
    @deadline_exact trusting 0 .still (fun _ _ _ => le_rfl) (connected .hapTransient true)
  unfold worldAfter at hnext hnow ⊢
  refine ⟨hnext, hidle fun d hd => ?_⟩
  rw [hnow]
  obtain rfl := Option.some.inj (hnext.symm.trans hd)
  decide

end AirplaySender
