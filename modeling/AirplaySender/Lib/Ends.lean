/-
# How a program ends

`Ends E s m Q` is the weakest precondition of a `Prog` with a condition for each exit: started in
`s`, a normal end satisfies `Q`, and an exception leaves a state where `E` holds.  What holds in
between is nobody's concern, so that a program may break `E` as long as it cannot raise there.
-/
import AirplaySender.Lib.Prog

namespace Prog

variable {σ ε α β : Type} {E : σ → Prop} {s : σ}

/-- From `s` the program `m` ends in `Q`, or raises where `E` holds. -/
def Ends (E : σ → Prop) (s : σ) (m : Prog σ ε α) (Q : α → σ → Prop) : Prop :=
  (∀ a, (m s).1 = .ok a → Q a (m s).2) ∧ ∀ e, (m s).1 = .error e → E (m s).2

namespace Ends

variable {m : Prog σ ε α} {Q Q' : α → σ → Prop}

protected theorem pure {a : α} (h : Q a s) : Ends E s (pure a : Prog σ ε α) Q := by
  constructor
  · intro b hb
    cases hb
    exact h
  · intro e he
    cases he

protected theorem get {Q : σ → σ → Prop} (h : Q s s) : Ends E s (get : Prog σ ε σ) Q := by
  constructor
  · intro b hb
    cases hb
    exact h
  · intro e he
    cases he

protected theorem modify {f : σ → σ} {Q : Unit → σ → Prop} (h : Q () (f s)) :
    Ends E s (modify f : Prog σ ε Unit) Q := by
  constructor
  · intro b hb
    cases hb
    exact h
  · intro e he
    cases he

protected theorem raise {e : ε} (h : E s) : Ends E s (raise e : Prog σ ε α) Q := by
  constructor
  · intro b hb
    cases hb
  · intro e' _
    exact h

/-- Sequencing: the second half is walked from every state the first one can end in. -/
protected theorem bind {f : α → Prog σ ε β} {Q : β → σ → Prop}
    (h : Ends E s m fun a s' => Ends E s' (f a) Q) : Ends E s (m >>= f) Q := by
  obtain ⟨hok, herror⟩ := h
  rcases hm : m s with ⟨r, s'⟩
  rw [hm] at hok herror
  cases r with
  | error e =>
    constructor
    · intro b hb
      rw [bind_error hm] at hb
      cases hb
    · intro e' _
      rw [bind_error hm]
      exact herror e rfl
  | ok a =>
    unfold Ends
    rw [bind_ok hm]
    exact hok a rfl

theorem mono (h : Ends E s m Q) (hQ : ∀ a s', Q a s' → Q' a s') : Ends E s m Q' :=
  ⟨fun a ha => hQ a _ (h.1 a ha), h.2⟩

protected theorem ite {c : Prop} [Decidable c] {m₁ m₂ : Prog σ ε α}
    (h₁ : c → Ends E s m₁ Q) (h₂ : ¬ c → Ends E s m₂ Q) : Ends E s (if c then m₁ else m₂) Q := by
  by_cases hc : c
  · rw [if_pos hc]
    exact h₁ hc
  · rw [if_neg hc]
    exact h₂ hc

/-- A condition that every normal end has, and that is enough for the other one, holds at the end. -/
theorem final {I : σ → Prop} (h : Ends E s m fun _ => I) (hI : ∀ s', I s' → E s') : E (m s).2 := by
  rcases hr : (m s).1 with e | a
  · exact h.2 e hr
  · exact hI _ (h.1 a hr)

end Ends

/-! ## 2. Programs that keep a condition -/

/-- From every state with `I` the program ends with `I`, or raises where `E` holds. -/
def Maintains (E I : σ → Prop) (m : Prog σ ε α) : Prop := ∀ s, I s → Ends E s m fun _ => I

namespace Maintains

variable {I : σ → Prop} {m : Prog σ ε α}

protected theorem pure (a : α) : Maintains E I (pure a : Prog σ ε α) := fun _ h => Ends.pure h

protected theorem get : Maintains E I (get : Prog σ ε σ) := fun _ h => Ends.get h

protected theorem raise (hI : ∀ s, I s → E s) (e : ε) : Maintains E I (raise e : Prog σ ε α) :=
  fun s h => Ends.raise (hI s h)

protected theorem modify {f : σ → σ} (h : ∀ s, I s → I (f s)) : Maintains E I (modify f : Prog σ ε Unit) :=
  fun s hs => Ends.modify (h s hs)

protected theorem bind {f : α → Prog σ ε β} (hm : Maintains E I m) (hf : ∀ a, Maintains E I (f a)) :
    Maintains E I (m >>= f) :=
  fun s h => Ends.bind ((hm s h).mono fun a s' hs' => hf a s' hs')

protected theorem ite {c : Prop} [Decidable c] {m₁ m₂ : Prog σ ε α} (h₁ : Maintains E I m₁)
    (h₂ : Maintains E I m₂) : Maintains E I (if c then m₁ else m₂) :=
  fun s h => Ends.ite (fun _ => h₁ s h) fun _ => h₂ s h

protected theorem when {c : Prop} [Decidable c] {m : Prog σ ε Unit} (h : Maintains E I m) :
    Maintains E I (when c m) :=
  Maintains.ite h (Maintains.pure ())

protected theorem each {f : β → Prog σ ε Unit} (hf : ∀ b, Maintains E I (f b)) :
    ∀ bs, Maintains E I (each f bs)
  | [] => Maintains.pure ()
  | b :: bs => Maintains.bind (hf b) fun _ => Maintains.each hf bs

end Maintains

end Prog
