/-
# A stream of items that arrives in pieces

The items `es` of a stream are octet strings that follow each other.  Of the first `n` octets the
first `wholes es n` items are there as a whole, and `part es n` of the next one.  A receiver that
keeps the part and is given more octets has the items that have become whole in its hands, one after
the other, and behind them the part of the next one (`part_append`), wherever the cuts are.
-/
import Mathlib.Data.List.Basic
import Mathlib.Data.List.Infix

namespace Cut

variable {α : Type} {e : List α} {es : List (List α)} {m n : ℕ}

/-- How many items lie within the first `n` elements of the stream. -/
def wholes : List (List α) → ℕ → ℕ
  | [], _ => 0
  | e :: es, n => if e.length ≤ n then wholes es (n - e.length) + 1 else 0

/-- The part of the next item that does. -/
def part : List (List α) → ℕ → List α
  | [], _ => []
  | e :: es, n => if e.length ≤ n then part es (n - e.length) else e.take n

theorem wholes_le (es : List (List α)) (n : ℕ) : wholes es n ≤ es.length := by
  induction es generalizing n with
  | nil => rfl
  | cons e es ih =>
    unfold wholes
    split
    · exact Nat.succ_le_succ (ih _)
    · exact Nat.zero_le _

/-- **The first `n` elements are the items that are whole, and the part.** -/
theorem take_flatten (es : List (List α)) (n : ℕ) :
    es.flatten.take n = (es.take (wholes es n)).flatten ++ part es n := by
  induction es generalizing n with
  | nil => simp [part, wholes]
  | cons e es ih =>
    unfold wholes part
    split
    · rename_i hle
      rw [List.flatten_cons, List.take_append, List.take_of_length_le hle, ih, List.take_succ_cons,
        List.flatten_cons, List.append_assoc]
    · rename_i hlt
      rw [List.flatten_cons, List.take_append_of_le_length (not_le.mp hlt).le]
      simp

/-- A part is less than the whole. -/
theorem part_lt (h : es[wholes es n]? = some e) : part es n <+: e ∧ (part es n).length < e.length := by
  induction es generalizing n with
  | nil => cases h
  | cons x es ih =>
    unfold wholes at h
    unfold part
    split at h
    · rename_i hle
      rw [if_pos hle]
      exact ih h
    · rename_i hlt
      rw [if_neg hlt]
      obtain rfl : x = e := Option.some.inj h
      refine ⟨List.take_prefix n x, ?_⟩
      rw [List.length_take]
      omega

/-- Nothing is left where every item is whole. -/
theorem part_nil (h : es[wholes es n]? = none) : part es n = [] := by
  induction es generalizing n with
  | nil => rfl
  | cons x es ih =>
    unfold wholes at h
    unfold part
    split at h
    · rename_i hle
      rw [if_pos hle]
      exact ih h
    · cases h

/-- What is whole stays whole. -/
theorem wholes_mono (h : m ≤ n) : wholes es m ≤ wholes es n := by
  induction es generalizing m n with
  | nil => exact le_rfl
  | cons e es ih =>
    unfold wholes
    split
    · rename_i hle
      rw [if_pos (hle.trans h)]
      exact Nat.succ_le_succ (ih (Nat.sub_le_sub_right h _))
    · exact Nat.zero_le _

/-- **More of the stream**: behind the part it completes items, and leaves a part again. -/
theorem part_append (h : m ≤ n) : part es m ++ (es.flatten.take n).drop m =
    ((es.take (wholes es n)).drop (wholes es m)).flatten ++ part es n := by
  induction es generalizing m n with
  | nil => simp [part, wholes]
  | cons e es ih =>
    unfold wholes part
    by_cases hm : e.length ≤ m
    · have hn := hm.trans h
      have hstream : ((e :: es).flatten.take n).drop m =
          (es.flatten.take (n - e.length)).drop (m - e.length) := by
        rw [List.flatten_cons, List.take_append, List.take_of_length_le hn, List.drop_append,
          List.drop_eq_nil_of_le hm, List.nil_append]
      rw [if_pos hm, if_pos hm, if_pos hn, if_pos hn, hstream, ih (Nat.sub_le_sub_right h _),
        List.take_succ_cons, List.drop_succ_cons]
    · rw [if_neg hm, if_neg hm, List.drop_zero]
      have hjoin : e.take m ++ ((e :: es).flatten.take n).drop m = (e :: es).flatten.take n := by
        have hhead : e.take m = ((e :: es).flatten.take n).take m := by
          rw [List.take_take, Nat.min_eq_left h, List.flatten_cons,
            List.take_append_of_le_length (not_le.mp hm).le]
        rw [hhead, List.take_append_drop]
      have htake := take_flatten (e :: es) n
      unfold wholes part at htake
      exact hjoin.trans htake

/-- The whole stream. -/
theorem wholes_all (h : es.flatten.length ≤ n) : wholes es n = es.length := by
  induction es generalizing n with
  | nil => rfl
  | cons e es ih =>
    rw [List.flatten_cons, List.length_append] at h
    unfold wholes
    rw [if_pos (by omega), ih (by omega), List.length_cons]

/-- **Item `i` is whole when the items up to it fit.** -/
theorem lt_wholes {i : ℕ} :
    i < wholes es n ↔ i < es.length ∧ (es.take (i + 1)).flatten.length ≤ n := by
  induction es generalizing n i with
  | nil => simp [wholes]
  | cons e es ih =>
    unfold wholes
    split
    · rename_i hle
      cases i with
      | zero => simpa using hle
      | succ i =>
        rw [Nat.succ_lt_succ_iff, ih, List.length_cons, Nat.succ_lt_succ_iff, List.take_succ_cons,
          List.flatten_cons, List.length_append, Nat.le_sub_iff_add_le' hle]
    · rename_i hlt
      rw [List.take_succ_cons, List.flatten_cons, List.length_append]
      constructor
      · intro h
        exact absurd h (Nat.not_lt_zero i)
      · rintro ⟨-, h⟩
        omega

/-- The items that are whole fit. -/
theorem length_take_wholes (es : List (List α)) (n : ℕ) :
    (es.take (wholes es n)).flatten.length ≤ n := by
  have h := congrArg List.length (take_flatten es n)
  rw [List.length_take, List.length_append] at h
  omega

/-- Items that fit are whole. -/
theorem le_wholes {i : ℕ} (hi : i ≤ es.length) (h : (es.take i).flatten.length ≤ n) :
    i ≤ wholes es n := by
  cases i with
  | zero => exact Nat.zero_le _
  | succ i => exact lt_wholes.mpr ⟨hi, h⟩

theorem part_zero (h : ∀ e ∈ es, e ≠ []) : wholes es 0 = 0 ∧ part es 0 = [] := by
  cases es with
  | nil => exact ⟨rfl, rfl⟩
  | cons e es =>
    have hlen : ¬ e.length ≤ 0 := by
      have := h e List.mem_cons_self
      rwa [Nat.le_zero, List.length_eq_zero_iff]
    exact ⟨by rw [wholes, if_neg hlen], by rw [part, if_neg hlen, List.take_zero]⟩

/-! ## An infix stays on one side of what it does not have -/

variable {s l r : List α} {x : α}

theorem infix_of_not_mem (hx : x ∉ s) (h : s <:+: l ++ x :: r) : s <:+: l ∨ s <:+: r := by
  induction l with
  | nil =>
    rcases List.infix_cons_iff.mp h with hpre | hinf
    · cases s with
      | nil => exact .inl List.infix_rfl
      | cons y s =>
        obtain rfl := (List.cons_prefix_cons.mp hpre).1
        exact absurd List.mem_cons_self hx
    · exact .inr hinf
  | cons y l ih =>
    rcases List.infix_cons_iff.mp h with hpre | hinf
    · have hpre : s <+: (y :: l) ++ x :: r := hpre
      rcases List.prefix_or_prefix_of_prefix hpre (List.prefix_append (y :: l) (x :: r)) with hs | hl
      · exact .inl hs.isInfix
      · obtain ⟨more, rfl⟩ := hl
        rw [List.prefix_append_right_inj] at hpre
        cases more with
        | nil => exact .inl (by rw [List.append_nil])
        | cons z more =>
          obtain rfl := (List.cons_prefix_cons.mp hpre).1
          exact absurd (List.mem_append_right _ List.mem_cons_self) hx
    · exact (ih hinf).imp_left fun hl => hl.trans (List.suffix_cons y l).isInfix

theorem infix_of_replicate (hx : x ∉ s) {n : ℕ} (hn : n ≠ 0)
    (h : s <:+: l ++ (List.replicate n x ++ r)) : s <:+: l ∨ s <:+: r := by
  have hmore (m : ℕ) (hm : s <:+: List.replicate m x ++ r) : s <:+: r := by
    induction m with
    | zero => exact hm
    | succ m ih =>
      rcases infix_of_not_mem (l := []) hx hm with hnil | hm
      · rw [List.eq_nil_of_infix_nil hnil]
        exact List.nil_infix
      · exact ih hm
  obtain ⟨m, rfl⟩ := Nat.exists_eq_succ_of_ne_zero hn
  exact (infix_of_not_mem hx h).imp_right (hmore m)

end Cut
