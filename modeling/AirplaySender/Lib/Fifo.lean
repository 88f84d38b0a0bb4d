/-
# A bounded first-in first-out queue

What the users of a bounded queue see of it: which calls succeed, which are refused, and what comes
out.  A `Run` is a sequence of such events; over every run what went in is what came out followed by
what is still there, so what came out is a beginning of what went in.
-/
import Mathlib.Data.List.Basic

namespace Fifo

variable {α : Type}

/-! ## 1. Events and runs -/

/-- What a call on the queue reports. -/
inductive Event (α : Type)
  | pushed (data : List α)
  | refused (size : Nat)
  | popped (data : List α)
  | starved (size : Nat)
  | counted (n : Nat)

/-- A queue of at most `cap` items: a push is refused exactly when its data does not fit, a pop
exactly when there is not enough, and a count never says more than there is. -/
inductive Step (cap : Nat) : List α → Event α → List α → Prop
  | push {q data : List α} (h : q.length + data.length ≤ cap) : Step cap q (.pushed data) (q ++ data)
  | refuse {q : List α} {size : Nat} (h : cap < q.length + size) : Step cap q (.refused size) q
  | pop {q data : List α} : Step cap (data ++ q) (.popped data) q
  | starve {q : List α} {size : Nat} (h : q.length < size) : Step cap q (.starved size) q
  | count {q : List α} {n : Nat} (h : n ≤ q.length) : Step cap q (.counted n) q

/-- A sequence of events, oldest first. -/
inductive Run (cap : Nat) (start : List α) : List (Event α) → List α → Prop
  | nil : Run cap start [] start
  | concat {es : List (Event α)} {e : Event α} {q q' : List α} :
      Run cap start es q → Step cap q e q' → Run cap start (es ++ [e]) q'

/-! ## 2. What went in and what came out -/

def Event.input : Event α → List α
  | .pushed data => data
  | _ => []

def Event.output : Event α → List α
  | .popped data => data
  | _ => []

/-- The concatenation of all data pushed. -/
def inputs (es : List (Event α)) : List α := es.flatMap Event.input

/-- The concatenation of all data popped. -/
def outputs (es : List (Event α)) : List α := es.flatMap Event.output

variable {cap : Nat} {start q q' : List α} {es : List (Event α)} {e : Event α}

@[simp] theorem inputs_nil : inputs ([] : List (Event α)) = [] := rfl

@[simp] theorem outputs_nil : outputs ([] : List (Event α)) = [] := rfl

@[simp] theorem inputs_concat : inputs (es ++ [e]) = inputs es ++ e.input := by
  simp [inputs]

@[simp] theorem outputs_concat : outputs (es ++ [e]) = outputs es ++ e.output := by
  simp [outputs]

theorem Step.conserved (h : Step cap q e q') : q ++ e.input = e.output ++ q' := by
  cases h <;> simp [Event.input, Event.output]

theorem Step.length_le (h : Step cap q e q') (hq : q.length ≤ cap) : q'.length ≤ cap := by
  cases h with
  | push h => simpa using h
  | pop => rw [List.length_append] at hq; omega
  | refuse | starve | count => exact hq

/-- **Nothing is lost, invented or reordered.** -/
theorem Run.conserved (h : Run cap start es q) : start ++ inputs es = outputs es ++ q := by
  induction h with
  | nil => simp
  | concat _ hstep ih =>
    rw [inputs_concat, outputs_concat, ← List.append_assoc, ih, List.append_assoc,
      hstep.conserved, ← List.append_assoc]

theorem Run.length_le (h : Run cap start es q) (hstart : start.length ≤ cap) : q.length ≤ cap := by
  induction h with
  | nil => exact hstart
  | concat _ hstep ih => exact hstep.length_le ih

/-- What came out of a queue that began empty is a beginning of what went in. -/
theorem Run.outputs_prefix (h : Run cap [] es q) : outputs es <+: inputs es := by
  refine ⟨q, ?_⟩
  rw [← h.conserved, List.nil_append]

end Fifo
