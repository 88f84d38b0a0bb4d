/-
# The code takes only these steps

`Walks k w m Q`: started in a world `w` that satisfies `Flow`, the method `m` changes the core only
along `Step k`, however it ends, and a normal end satisfies `Q`.  One lemma for each method of the
sender, in the order of the modules that define them; the summary is `perform_walks`.

Most of a method leaves the core alone (`Quiet`).  What does not is one step, taken where the code
has just established its premises.
-/
import AirplaySender.Flow
import AirplaySender.View

namespace AirplaySender

open Octets Prog

/-! ## 1. The judgment -/

section Rules

variable [Primitives] {k : Level} {w w' : World} {α β : Type}

/-- A move of the world: the core stays, or takes a step. -/
def Moves (k : Level) (w w' : World) : Prop :=
  coreOf w' = coreOf w ∨ Step k (coreOf w) (coreOf w')

theorem Flow.moves (h : Flow (coreOf w)) (hm : Moves k w w') : Flow (coreOf w') := by
  rcases hm with heq | hs
  · rw [heq]; exact h
  · exact h.step hs

omit [Primitives] in
/-- The core after a timer was armed. -/
theorem coreOf_arm (t : TimerId) (w : World) : coreOf (arm t w).2 = (coreOf w).arm t := by
  cases t <;> rfl

instance : Preserves (Moves k) fun w => Flow (coreOf w) := ⟨fun hm hf => hf.moves hm⟩

/-- From a world satisfying `Flow`, `m` only takes steps of level `k`, and ends normally in `Q`. -/
abbrev Walks (k : Level) (w : World) (m : M α) (Q : α → World → Prop) : Prop :=
  Within (Moves k) (fun w => Flow (coreOf w)) w m Q

omit [Primitives] in
/-- Reading the members moves nothing. -/
theorem Within.sender {R : World → World → Prop} {I : World → Prop} {f : Sender → M β}
    {P : β → World → Prop} (h : Within R I w (f w.s) P) :
    Within R I w (AirplaySender.sender >>= f) P := h

namespace Walks

variable {m : M α} {f : α → M β} {Q Q' : α → World → Prop} {P : β → World → Prop}

/-- An assignment that takes a step, when its effect on the core is known. -/
theorem step_bind {g : World → World} {f : Unit → M β} {c : Core} (hs : Step k (coreOf w) c)
    (hcore : coreOf (g w) = c) (h : ∀ w', coreOf w' = c → Walks k w' (f ()) P) :
    Walks k w ((Prog.modify g : M Unit) >>= f) P :=
  Within.modify_bind (.inr (by rw [hcore]; exact hs)) (h _ hcore)

/-- Two assignments that take one step together. -/
theorem step_bind₂ {g₁ g₂ : World → World} {f : Unit → M β} {c : Core} (hs : Step k (coreOf w) c)
    (hcore : coreOf (g₂ (g₁ w)) = c) (h : ∀ w', coreOf w' = c → Walks k w' (f ()) P) :
    Walks k w ((Prog.modify g₁ : M Unit) >>= fun _ => (Prog.modify g₂ : M Unit) >>= f) P := by
  have hrun : ((Prog.modify g₁ : M Unit) >>= fun _ => (Prog.modify g₂ : M Unit) >>= f) w =
      f () (g₂ (g₁ w)) := rfl
  refine Within.advance hrun (.inr ?_) (h _ hcore)
  rw [hcore]
  exact hs

/-- A null pointer is only dereferenced where the core says so. -/
theorem nullDeref (h : (coreOf w).Faulty) : Walks k w (AirplaySender.nullDeref : M α) Q :=
  Within.modify_bind (.inr (.derefNull _ h)) Within.raise

/-- Dereferencing the pairing state. -/
theorem ap2Get {f : Ap2State → M β} (hnull : w.s.ap2 = none → (coreOf w).Faulty)
    (h : ∀ a, w.s.ap2 = some a → Walks k w (f a) P) : Walks k w (AirplaySender.ap2Get >>= f) P := by
  cases ha : w.s.ap2 with
  | some a =>
    have hrun : (AirplaySender.ap2Get >>= f) w = f a w := by
      simp [AirplaySender.ap2Get, AirplaySender.sender, bind_run, ha]
    exact Within.advance hrun (.inl rfl) (h a ha)
  | none =>
    have hrun : (AirplaySender.ap2Get >>= f) w = (AirplaySender.nullDeref : M β) w := by
      simp [AirplaySender.ap2Get, AirplaySender.sender, bind_run, ha, AirplaySender.nullDeref, emit]
    exact Within.advance hrun (.inl rfl) (nullDeref (hnull ha))

/-- Assigning through the pairing state. -/
theorem ap2Set {g : Ap2State → Ap2State} {f : Unit → M β}
    (hnull : w.s.ap2 = none → (coreOf w).Faulty)
    (hm : ∀ a, w.s.ap2 = some a → Moves k w { w with s := { w.s with ap2 := some (g a) } })
    (h : ∀ a, w.s.ap2 = some a → Walks k { w with s := { w.s with ap2 := some (g a) } } (f ()) P) :
    Walks k w (AirplaySender.ap2Set g >>= f) P := by
  cases ha : w.s.ap2 with
  | some a =>
    have hrun : (AirplaySender.ap2Set g >>= f) w =
        f () { w with s := { w.s with ap2 := some (g a) } } := by
      simp [AirplaySender.ap2Set, AirplaySender.ap2Get, AirplaySender.sender, setS, bind_run, ha]
    exact Within.advance hrun (hm a ha) (h a ha)
  | none =>
    have hrun : (AirplaySender.ap2Set g >>= f) w = (AirplaySender.nullDeref : M β) w := by
      simp [AirplaySender.ap2Set, AirplaySender.ap2Get, AirplaySender.sender, bind_run, ha,
        AirplaySender.nullDeref, emit]
    exact Within.advance hrun (.inl rfl) (nullDeref (hnull ha))

/-- Assigning a part of the pairing state that is not in the core. -/
theorem ap2Set_quiet {g : Ap2State → Ap2State} (hnull : w.s.ap2 = none → (coreOf w).Faulty)
    (hg : ∀ a, keysOf (g a) = keysOf a) :
    Walks k w (AirplaySender.ap2Set g) fun _ w' => coreOf w' = coreOf w := by
  have hcore (a : Ap2State) (ha : w.s.ap2 = some a) :
      coreOf { w with s := { w.s with ap2 := some (g a) } } = coreOf w := by
    simp only [coreOf, ha, Option.map_some, hg]
    rfl
  rw [← bind_pure (AirplaySender.ap2Set g)]
  exact ap2Set hnull (fun a ha => .inl (hcore a ha)) fun a ha => Within.pure (hcore a ha)

/-- Arming a timer. -/
theorem arm_bind {t : TimerId} {f : Unit → M β} (hs : Step k (coreOf w) ((coreOf w).arm t))
    (h : ∀ w', coreOf w' = (coreOf w).arm t → Walks k w' (f ()) P) :
    Walks k w (AirplaySender.arm t >>= f) P := by
  have hrun : (AirplaySender.arm t >>= f) w = f () (AirplaySender.arm t w).2 := rfl
  refine Within.advance hrun (.inr ?_) (h _ (coreOf_arm t w))
  rw [coreOf_arm]
  exact hs

theorem arm {t : TimerId} {Q : Unit → World → Prop} (hs : Step k (coreOf w) ((coreOf w).arm t))
    (h : ∀ w', coreOf w' = (coreOf w).arm t → Q () w') : Walks k w (AirplaySender.arm t) Q := by
  rw [← bind_pure (AirplaySender.arm t)]
  exact arm_bind hs fun w' hw' => Within.pure (h w' hw')

/-- An assignment and the timer armed behind it take one step together. -/
theorem assign_arm {g : World → World} {t : TimerId} {f : Unit → M β} {c : Core}
    (hs : Step k (coreOf w) (c.arm t)) (hcore : coreOf (g w) = c)
    (h : ∀ w', coreOf w' = c.arm t → Walks k w' (f ()) P) :
    Walks k w ((Prog.modify g : M Unit) >>= fun _ => AirplaySender.arm t >>= f) P := by
  subst hcore
  have hrun : ((Prog.modify g : M Unit) >>= fun _ => AirplaySender.arm t >>= f) w =
      f () (AirplaySender.arm t (g w)).2 := rfl
  refine Within.advance hrun (.inr ?_) (h _ (coreOf_arm t (g w)))
  rw [coreOf_arm]
  exact hs

/-- A walk inside a call of the application is a walk. -/
theorem ofApp (h : Walks .app w m Q) : Walks k w m Q :=
  h.weaken fun _ _ hm => hm.imp_right Step.ofApp

end Walks

/-! ## 2. Methods that leave the core alone -/

/-- The core as a view. -/
def coreView : View (Env → Core) Unit where
  members s env := coreOf ⟨s, env, []⟩
  store _ := ()
  shows := Entry.tracked

/-- `m` leaves the core alone. -/
def Quiet (m : M α) : Prop := Overlooks coreView m

namespace Quiet

variable {m : M α} {f : α → M β} {Q : α → World → Prop} {P : β → World → Prop}

omit [Primitives] in
theorem core (hm : Quiet m) (w : World) : coreOf (m w).2 = coreOf w := by
  have hread (w : World) (env : Env) : coreOf w =
      { (coreView.of w).1 env with log := (coreView.of w).2.2 } := rfl
  rw [hread (m w).2 w.env, hm w, ← hread]

/-- A quiet method is a walk of any level. -/
theorem walks (hm : Quiet m) (h : ∀ a w', coreOf w' = coreOf w → Q a w') : Walks k w m Q :=
  (Within.of_fixes hm.core fun _ _ => .inl).mono h

theorem walks_bind (hm : Quiet m) (h : ∀ a w', coreOf w' = coreOf w → Walks k w' (f a) P) :
    Walks k w (m >>= f) P :=
  Within.bind (hm.walks fun _ _ h => h) h

end Quiet

end Rules

namespace Quiet

theorem deaf : coreView.Deaf := ⟨fun _ _ _ => rfl, fun _ _ _ => rfl⟩

theorem ask {α : Type} {read : Env → α} {next : Env → Env} : Quiet (ask read next) :=
  Overlooks.ask fun _ => rfl

theorem now : Quiet now := ask

theorem udpBind (u : Udp) : Quiet (udpBind u) :=
  Fixes.bind (Overlooks.ask fun _ => rfl) fun _ => Fixes.bind (Overlooks.emit rfl) fun _ => Fixes.pure _

theorem releaseSockets : Quiet releaseSockets := by
  refine Fixes.bind Overlooks.sender fun s => ?_
  refine Fixes.bind (Fixes.when ?_) fun _ => ?_
  · refine Fixes.bind (Overlooks.emit rfl) fun _ => Fixes.bind (Overlooks.emit rfl) fun _ => ?_
    exact Fixes.bind (Overlooks.emit rfl) fun _ => Overlooks.setS fun _ => rfl
  · exact Fixes.bind (Overlooks.setS fun _ => rfl) fun _ => Overlooks.emit rfl

end Quiet

end AirplaySender
