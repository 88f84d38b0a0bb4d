/-
# Stateful computations that an exception can leave early

`Prog σ ε α` is a computation over a state `σ` that ends with a value or with an exception
`ε`.  Unlike `StateT σ (Except ε)`, the state reached is kept on BOTH exits, which is what a
method of an object does: the fields it has written stay written when an exception leaves it.

The judgment is `Reaches R s m Q`: started in `s`, `m` only ever moves the state along `R`, and a
normal exit satisfies `Q`.  It is a weakest precondition whose invariant is "still inside `R*`", so
one walk over a program establishes every invariant that `R` preserves (`Reaches.invariant`).  With
an invariant that the walk itself relies on it is `Within R I s m Q`.  Where nothing need be known of
a state to know the next one, `Inside R m` is the same from every state and without an end.
-/
import Mathlib.Logic.Relation

/-- A computation over `σ` that ends with an `α` or an `ε`, and keeps the state either way. -/
def Prog (σ ε α : Type) : Type := σ → Except ε α × σ

namespace Prog

variable {σ ε α β : Type}

/-! ## 1. The operations -/

protected def pure (a : α) : Prog σ ε α := fun s => (.ok a, s)

protected def bind (m : Prog σ ε α) (f : α → Prog σ ε β) : Prog σ ε β := fun s =>
  match m s with
  | (.ok a, s') => f a s'
  | (.error e, s') => (.error e, s')

instance : Monad (Prog σ ε) where
  pure := Prog.pure
  bind := Prog.bind

/-- The state. -/
def get : Prog σ ε σ := fun s => (.ok s, s)

/-- Overwrite the state by a function of it. -/
def modify (f : σ → σ) : Prog σ ε Unit := fun s => (.ok (), f s)

/-- Leave with an exception. -/
def raise (e : ε) : Prog σ ε α := fun s => (.error e, s)

/-- Run `m` if a condition holds. -/
def when (c : Prop) [Decidable c] (m : Prog σ ε Unit) : Prog σ ε Unit := if c then m else pure ()

/-- Run `m` once for each element of a list, in order. -/
def each (f : α → Prog σ ε Unit) : List α → Prog σ ε Unit
  | [] => pure ()
  | a :: as => do f a; each f as

@[simp] theorem pure_run (a : α) (s : σ) : (pure a : Prog σ ε α) s = (.ok a, s) := rfl

@[simp] theorem get_run (s : σ) : (get : Prog σ ε σ) s = (.ok s, s) := rfl

@[simp] theorem modify_run (f : σ → σ) (s : σ) :
    (modify f : Prog σ ε Unit) s = (.ok (), f s) := rfl

@[simp] theorem raise_run (e : ε) (s : σ) : (raise e : Prog σ ε α) s = (.error e, s) := rfl

theorem bind_run (m : Prog σ ε α) (f : α → Prog σ ε β) (s : σ) :
    (m >>= f) s = match m s with
      | (.ok a, s') => f a s'
      | (.error e, s') => (.error e, s') := rfl

/-- A first half that ends normally hands over to the second. -/
theorem bind_ok {m : Prog σ ε α} {f : α → Prog σ ε β} {s s' : σ} {a : α}
    (h : m s = (.ok a, s')) : (m >>= f) s = f a s' := by rw [bind_run, h]

/-- A first half that raises is the whole computation. -/
theorem bind_error {m : Prog σ ε α} {f : α → Prog σ ε β} {s s' : σ} {e : ε}
    (h : m s = (.error e, s')) : (m >>= f) s = (.error e, s') := by rw [bind_run, h]

/-- A computation that ends normally has two halves that do. -/
theorem ok_of_bind {m : Prog σ ε α} {f : α → Prog σ ε β} {s t : σ} {b : β}
    (h : (m >>= f) s = (.ok b, t)) : ∃ a s', m s = (.ok a, s') ∧ f a s' = (.ok b, t) := by
  rcases hm : m s with ⟨r, s'⟩
  cases r with
  | ok a => exact ⟨a, s', rfl, (bind_ok hm).symm.trans h⟩
  | error e => exact absurd ((bind_error hm).symm.trans h) (by simp)

/-- What both halves keep, their sequence keeps, however it ends. -/
theorem bind_keeps {m : Prog σ ε α} {f : α → Prog σ ε β} {s : σ} {I : σ → Prop} (hm : I (m s).2)
    (hf : ∀ a s', I s' → I (f a s').2) : I ((m >>= f) s).2 := by
  rcases h : m s with ⟨r, s'⟩
  rw [h] at hm
  cases r with
  | error e => rw [bind_error h]; exact hm
  | ok a => rw [bind_ok h]; exact hf a s' hm

theorem each_map (g : β → α) (f : α → Prog σ ε Unit) (bs : List β) :
    each f (bs.map g) = each (fun b => f (g b)) bs := by
  induction bs with
  | nil => rfl
  | cons b bs ih => rw [List.map_cons, each, each, ih]

theorem each_append (f : α → Prog σ ε Unit) (as bs : List α) (s : σ) :
    each f (as ++ bs) s = (each f as >>= fun _ => each f bs) s := by
  induction as generalizing s with
  | nil => rfl
  | cons a as ih =>
    rw [List.cons_append, each, each, bind_run, bind_run, bind_run]
    rcases f a s with ⟨r, s'⟩
    cases r with
    | error e => rfl
    | ok u => exact ih s'

theorem bind_pure (m : Prog σ ε α) : m >>= pure = m := by
  funext s
  rw [bind_run]
  rcases m s with ⟨r, s'⟩
  cases r <;> rfl

/-! ## 2. Reachability along a step relation -/

open Relation (ReflTransGen)

variable {R : σ → σ → Prop} {s s' : σ}

/-- What every move keeps, any number of moves keeps. -/
theorem moves_keep {I : σ → Prop} (hI : ∀ a b, R a b → I a → I b) (h : ReflTransGen R s s')
    (hs : I s) : I s' := by
  induction h with
  | refl => exact hs
  | tail _ hR ih => exact hI _ _ hR ih

/-- `Reaches R s m Q`: from `s`, the program `m` stays inside `R*` however it ends, and ends
normally only in a value and a state satisfying `Q`. -/
def Reaches (R : σ → σ → Prop) (s : σ) (m : Prog σ ε α) (Q : α → σ → Prop) : Prop :=
  ReflTransGen R s (m s).2 ∧ ∀ a, (m s).1 = .ok a → Q a (m s).2

namespace Reaches

variable {m : Prog σ ε α} {Q Q' : α → σ → Prop}

protected theorem pure {a : α} (h : Q a s) : Reaches R s (pure a : Prog σ ε α) Q :=
  ⟨.refl, fun b hb => by cases hb; exact h⟩

protected theorem get {Q : σ → σ → Prop} (h : Q s s) : Reaches R s (get : Prog σ ε σ) Q :=
  ⟨.refl, fun b hb => by cases hb; exact h⟩

/-- An assignment is one step of `R`. -/
protected theorem modify {f : σ → σ} {Q : Unit → σ → Prop} (hR : R s (f s)) (h : Q () (f s)) :
    Reaches R s (modify f : Prog σ ε Unit) Q :=
  ⟨.single hR, fun b hb => by cases hb; exact h⟩

protected theorem raise {e : ε} : Reaches R s (raise e : Prog σ ε α) Q :=
  ⟨.refl, fun _ hb => by cases hb⟩

/-- Sequencing: the second half is walked from every state the first one can end in. -/
protected theorem bind {f : α → Prog σ ε β} {Q : β → σ → Prop}
    (h : Reaches R s m fun a s' => Reaches R s' (f a) Q) : Reaches R s (m >>= f) Q := by
  obtain ⟨hR, hQ⟩ := h
  rcases hm : m s with ⟨r, s'⟩
  rw [hm] at hR hQ
  cases r with
  | error e => exact ⟨by rw [bind_error hm]; exact hR, fun b hb => by rw [bind_error hm] at hb; cases hb⟩
  | ok a =>
    obtain ⟨hR', hQ'⟩ := hQ a rfl
    refine ⟨?_, fun b hb => ?_⟩
    · rw [bind_ok hm]; exact hR.trans hR'
    · rw [bind_ok hm] at hb ⊢; exact hQ' b hb

theorem mono (h : Reaches R s m Q) (hQ : ∀ a s', Q a s' → Q' a s') : Reaches R s m Q' :=
  ⟨h.1, fun a ha => hQ a _ (h.2 a ha)⟩

/-- The final state of a walk may be assumed reachable. -/
theorem mono_reach (h : Reaches R s m Q)
    (hQ : ∀ a s', ReflTransGen R s s' → Q a s' → Q' a s') : Reaches R s m Q' :=
  ⟨h.1, fun a ha => hQ a _ h.1 (h.2 a ha)⟩

/-- Skip a prefix that is known to run to a given state. -/
theorem advance {m' : Prog σ ε α} (hrun : m s = m' s') (hR : ReflTransGen R s s')
    (h : Reaches R s' m' Q) : Reaches R s m Q := by
  obtain ⟨hreach, hpost⟩ := h
  rw [← hrun] at hreach hpost
  exact ⟨hR.trans hreach, hpost⟩

protected theorem ite {c : Prop} [Decidable c] {m₁ m₂ : Prog σ ε α}
    (h₁ : c → Reaches R s m₁ Q) (h₂ : ¬ c → Reaches R s m₂ Q) :
    Reaches R s (if c then m₁ else m₂) Q := by
  by_cases hc : c
  · rw [if_pos hc]; exact h₁ hc
  · rw [if_neg hc]; exact h₂ hc

/-- A loop over a list: what the round of each of its elements re-establishes, the whole loop
does. -/
theorem each_mem {f : β → Prog σ ε Unit} {I : σ → Prop} : ∀ (bs : List β) (s : σ),
    (∀ b ∈ bs, ∀ s, I s → Reaches R s (f b) fun _ s' => I s') → I s →
      Reaches R s (each f bs) fun _ s' => I s'
  | [], _, _, hs => Reaches.pure hs
  | b :: bs, s, hf, hs => by
    refine Reaches.bind ((hf b (List.mem_cons_self ..) s hs).mono ?_)
    intro _ s' hs'
    exact each_mem bs s' (fun b' hb' => hf b' (List.mem_cons_of_mem _ hb')) hs'

/-- **One walk serves every invariant**: what `R` preserves, the program preserves. -/
theorem invariant {I : σ → Prop} (h : Reaches R s m Q) (hI : ∀ a b, R a b → I a → I b)
    (hs : I s) : I (m s).2 := moves_keep hI h.1 hs

/-- A walk along a finer relation is a walk along a coarser one. -/
theorem weaken {R' : σ → σ → Prop} (h : Reaches R s m Q) (hR : ∀ a b, R a b → R' a b) :
    Reaches R' s m Q := ⟨ReflTransGen.mono hR _ _ h.1, h.2⟩

end Reaches

/-! ## 3. Programs that leave a view of the state alone -/

/-- However `m` ends, the state looks the same through `f`. -/
def Fixes {γ : Type} (f : σ → γ) (m : Prog σ ε α) : Prop := ∀ s, f (m s).2 = f s

namespace Fixes

variable {γ : Type} {f : σ → γ} {m : Prog σ ε α}

protected theorem pure (a : α) : Fixes f (pure a : Prog σ ε α) := fun _ => rfl

protected theorem raise (e : ε) : Fixes f (raise e : Prog σ ε α) := fun _ => rfl

protected theorem get : Fixes f (get : Prog σ ε σ) := fun _ => rfl

protected theorem modify {g : σ → σ} (h : ∀ s, f (g s) = f s) :
    Fixes f (modify g : Prog σ ε Unit) := h

protected theorem bind {k : α → Prog σ ε β} (hm : Fixes f m) (hk : ∀ a, Fixes f (k a)) :
    Fixes f (m >>= k) := by
  intro s
  rcases h : m s with ⟨r, s'⟩
  have hs : f s' = f s := by simpa [h] using hm s
  cases r with
  | ok a => rw [bind_ok h, hk a s', hs]
  | error e => rw [bind_error h]; exact hs

protected theorem ite {c : Prop} [Decidable c] {m₁ m₂ : Prog σ ε α} (h₁ : Fixes f m₁)
    (h₂ : Fixes f m₂) : Fixes f (if c then m₁ else m₂) := by
  split
  · exact h₁
  · exact h₂

protected theorem when {c : Prop} [Decidable c] {m : Prog σ ε Unit} (h : Fixes f m) :
    Fixes f (when c m) :=
  Fixes.ite h (Fixes.pure ())

end Fixes

/-! ## 4. Programs that only make some moves -/

/-- From any state, and however it ends, `m` only moves the state along `R`. -/
def Inside (R : σ → σ → Prop) (m : Prog σ ε α) : Prop := ∀ s, ReflTransGen R s (m s).2

namespace Inside

variable {m : Prog σ ε α}

protected theorem pure (a : α) : Inside R (pure a : Prog σ ε α) := fun _ => .refl

protected theorem bind {k : α → Prog σ ε β} (hm : Inside R m) (hk : ∀ a, Inside R (k a)) :
    Inside R (m >>= k) := by
  intro s
  have hs := hm s
  rcases h : m s with ⟨r, s'⟩
  rw [h] at hs
  cases r with
  | ok a =>
    rw [bind_ok h]
    exact hs.trans (hk a s')
  | error e =>
    rw [bind_error h]
    exact hs

protected theorem ite {c : Prop} [Decidable c] {m₁ m₂ : Prog σ ε α} (h₁ : Inside R m₁)
    (h₂ : Inside R m₂) : Inside R (if c then m₁ else m₂) := by
  split
  · exact h₁
  · exact h₂

/-- A program that leaves a view alone makes the moves that do. -/
theorem of_fixes {γ : Type} {f : σ → γ} (h : Fixes f m) (hR : ∀ s s', f s' = f s → R s s') :
    Inside R m := fun s => .single (hR _ _ (h s))

/-- What the moves keep, the program keeps. -/
theorem keeps {I : σ → Prop} (h : Inside R m) (hI : ∀ s s', R s s' → I s → I s') (hs : I s) :
    I (m s).2 := moves_keep hI (h s) hs

end Inside

/-! ## 5. Judgments under an invariant -/

/-- The moves `R` keep `I`. -/
class Preserves (R : σ → σ → Prop) (I : σ → Prop) : Prop where
  kept : ∀ {s s'}, R s s' → I s → I s'

/-- `Within R I s m Q`: started in `s`, where `I` holds, `m` only moves along `R`, however it ends,
and a normal end satisfies `Q`.  The invariant may be used wherever the program has got to
(`Within.given`) and need not be carried in `Q`. -/
def Within (R : σ → σ → Prop) (I : σ → Prop) (s : σ) (m : Prog σ ε α) (Q : α → σ → Prop) : Prop :=
  I s → Reaches R s m fun a s' => I s' ∧ Q a s'

namespace Within

variable {I : σ → Prop} {m : Prog σ ε α} {k : α → Prog σ ε β} {Q Q' : α → σ → Prop}
  {P : β → σ → Prop}

/-- The invariant is at hand. -/
theorem given (h : I s → Within R I s m Q) : Within R I s m Q := fun hs => h hs hs

protected theorem pure {a : α} (h : Q a s) : Within R I s (pure a : Prog σ ε α) Q :=
  fun hs => Reaches.pure ⟨hs, h⟩

protected theorem raise {e : ε} : Within R I s (Prog.raise e : Prog σ ε α) Q := fun _ => Reaches.raise

protected theorem bind (h : Within R I s m Q) (hk : ∀ a s', Q a s' → Within R I s' (k a) P) :
    Within R I s (m >>= k) P := fun hs =>
  Reaches.bind ((h hs).mono fun a s' ⟨hs', hq⟩ => hk a s' hq hs')

theorem mono (h : Within R I s m Q) (hQ : ∀ a s', Q a s' → Q' a s') : Within R I s m Q' := fun hs =>
  (h hs).mono fun a s' ⟨hs', hq⟩ => ⟨hs', hQ a s' hq⟩

protected theorem ite {c : Prop} [Decidable c] {m₁ m₂ : Prog σ ε α} (h₁ : c → Within R I s m₁ Q)
    (h₂ : ¬c → Within R I s m₂ Q) : Within R I s (if c then m₁ else m₂) Q := by
  by_cases hc : c
  · rw [if_pos hc]; exact h₁ hc
  · rw [if_neg hc]; exact h₂ hc

protected theorem when {c : Prop} [Decidable c] {m : Prog σ ε Unit} {Q : Unit → σ → Prop}
    (h : c → Within R I s m Q) (hskip : ¬c → Q () s) : Within R I s (when c m) Q :=
  Within.ite h fun hc => Within.pure (hskip hc)

/-- A choice that is made behind another program but does not look at it. -/
theorem bind_ite {c : Prop} [Decidable c] {m : Prog σ ε Unit} {p q : Prog σ ε β}
    (hp : c → Within R I s (m >>= fun _ => p) P) (hq : ¬c → Within R I s (m >>= fun _ => q) P) :
    Within R I s (m >>= fun _ => if c then p else q) P := by
  by_cases h : c
  · rw [if_pos h]
    exact hp h
  · rw [if_neg h]
    exact hq h

/-- A loop over a list that keeps something true. -/
protected theorem each {γ : Type} {g : γ → Prog σ ε Unit} {J : σ → Prop}
    (h : ∀ c s, J s → Within R I s (g c) fun _ s' => J s') :
    ∀ (cs : List γ) (s : σ), J s → Within R I s (Prog.each g cs) fun _ s' => J s'
  | [], _, hs => Within.pure hs
  | c :: cs, s, hs => (h c s hs).bind fun _ s' hs' => Within.each h cs s' hs'

/-- The end of a program is where it ends. -/
theorem ending (h : Within R I s m Q) : Within R I s m fun a s' => s' = (m s).2 ∧ Q a s' := fun hs =>
  ⟨(h hs).1, fun a ha => ⟨((h hs).2 a ha).1, rfl, ((h hs).2 a ha).2⟩⟩

/-- Moves that are moves of another kind too. -/
theorem weaken {R' : σ → σ → Prop} (h : Within R I s m Q) (hR : ∀ s s', R s s' → R' s s') :
    Within R' I s m Q := fun hs => (h hs).weaken hR

/-- What else the moves keep holds at the end too. -/
theorem keeping {J : σ → Prop} (hJ : ∀ s s', R s s' → J s → J s') (hs : J s)
    (h : Within R I s m Q) : Within R I s m fun a s' => J s' ∧ Q a s' := fun hi => by
  have hend : J (m s).2 := (h hi).invariant hJ hs
  exact ⟨(h hi).1, fun a ha => ⟨((h hi).2 a ha).1, hend, ((h hi).2 a ha).2⟩⟩

variable [Preserves R I]

/-- The invariant holds at the end, however the program ends. -/
theorem keeps (h : Within R I s m Q) (hs : I s) : I (m s).2 :=
  (h hs).invariant (fun _ _ => Preserves.kept) hs

/-- Skip a prefix that is known to be one move. -/
theorem advance {n : Prog σ ε α} {v : σ} (hrun : m s = n v) (hR : R s v) (h : Within R I v n Q) :
    Within R I s m Q := fun hs =>
  Reaches.advance hrun (.single hR) (h (Preserves.kept hR hs))

/-- Changing the state by one move. -/
theorem modify {g : σ → σ} {Q : Unit → σ → Prop} (hR : R s (g s)) (h : Q () (g s)) :
    Within R I s (Prog.modify g : Prog σ ε Unit) Q := fun hs =>
  Reaches.modify hR ⟨Preserves.kept hR hs, h⟩

theorem modify_bind {g : σ → σ} {f : Unit → Prog σ ε β} (hR : R s (g s))
    (h : Within R I (g s) (f ()) P) : Within R I s ((Prog.modify g : Prog σ ε Unit) >>= f) P := by
  have hrun : ((Prog.modify g : Prog σ ε Unit) >>= f) s = f () (g s) := rfl
  exact advance hrun hR h

/-- A program that makes one move, however it ends. -/
theorem single (hR : R s (m s).2) : Within R I s m fun _ s' => s' = (m s).2 := fun hs =>
  ⟨.single hR, fun _ _ => ⟨Preserves.kept hR hs, rfl⟩⟩

/-- A program that leaves a view alone, where the moves may. -/
theorem of_fixes {γ : Type} {f : σ → γ} (h : Fixes f m) (hR : ∀ s s', f s' = f s → R s s') :
    Within R I s m fun _ s' => f s' = f s :=
  (single (hR _ _ (h s))).mono fun _ _ hend => hend ▸ h s

end Within

end Prog
