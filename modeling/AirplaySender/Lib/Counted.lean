/-
# Lists numbered by a 64-bit counter

A channel counts its messages from 0 in 64 bits, so the `k`-th of them carries `k` modulo 2^64.
Fewer than 2^64 messages carry different numbers (`nodup_counters`), also where some are lost on
the way and their numbers skipped (`placed`); and a receiver who checks each against the number it
expects has, in order and without a gap, what the other side made (`Sequential.begins`).
-/
import Mathlib.Algebra.Ring.Nat
import Mathlib.Data.List.Basic
import Mathlib.Data.List.Nodup
import Mathlib.Data.List.Range
import Mathlib.Data.List.Infix
import Mathlib.Data.List.ReduceOption

namespace Counted

variable {α : Type} {n : ℕ} {x : α} {xs ys : List (UInt64 × α)} {made : List α}

/-- The first `n` values of the counter. -/
def counters (n : ℕ) : List UInt64 := (List.range n).map UInt64.ofNat

@[simp] theorem counters_zero : counters 0 = [] := rfl

@[simp] theorem length_counters (n : ℕ) : (counters n).length = n := by simp [counters]

theorem counters_add (m n : ℕ) :
    counters (m + n) = counters m ++ (counters n).map (UInt64.ofNat m + ·) := by
  simp only [counters, List.range_add, List.map_append, List.map_map]
  congr 1
  refine List.map_congr_left fun i _ => ?_
  exact UInt64.ofNat_add m i

theorem counters_cons (n : ℕ) : counters (n + 1) = 0 :: (counters n).map (1 + ·) := by
  rw [Nat.add_comm, counters_add]
  rfl

theorem getElem?_counters {k : ℕ} (h : k < n) : (counters n)[k]? = some (UInt64.ofNat k) := by
  simp [counters, h]

/-- The counter repeats no value before it wraps. -/
theorem nodup_counters (h : n ≤ 2 ^ 64) : (counters n).Nodup := by
  refine List.Nodup.map_on (fun i hi j hj heq => ?_) List.nodup_range
  have hi := List.mem_range.mp hi
  have hj := List.mem_range.mp hj
  have hval := congrArg UInt64.toNat heq
  rwa [UInt64.toNat_ofNat_of_lt' (hi.trans_le h), UInt64.toNat_ofNat_of_lt' (hj.trans_le h)] at hval

/-! ## Places -/

section Placed

variable {β γ : Type} (f : UInt64 → α → β)

/-- What is made of some elements under a counter.  An element that is lost uses up its number. -/
def placed : UInt64 → List (Option α) → List β
  | _, [] => []
  | ctr, none :: places => placed (ctr + 1) places
  | ctr, some a :: places => f ctr a :: placed (ctr + 1) places

theorem placed_append (places more : List (Option α)) (ctr : UInt64) :
    placed f ctr (places ++ more) =
      placed f ctr places ++ placed f (ctr + UInt64.ofNat places.length) more := by
  induction places generalizing ctr with
  | nil => simp [placed]
  | cons p places ih =>
    have hctr : ctr + 1 + UInt64.ofNat places.length =
        ctr + UInt64.ofNat (places.length + 1) := by
      rw [UInt64.ofNat_add, UInt64.add_assoc, UInt64.add_comm 1]
      rfl
    cases p <;> simp [placed, ih, hctr]

theorem map_placed (g : β → γ) (places : List (Option α)) (ctr : UInt64) :
    (placed f ctr places).map g = placed (fun i a => g (f i a)) ctr places := by
  induction places generalizing ctr with
  | nil => rfl
  | cons p places ih => cases p <;> simp [placed, ih]

/-- Where nothing is lost the numbers follow each other. -/
theorem placed_some (xs : List α) (ctr : UInt64) (g : UInt64 → β) :
    placed (fun i _ => g i) ctr (xs.map some) =
      (counters xs.length).map fun i => g (ctr + i) := by
  induction xs generalizing ctr with
  | nil => rfl
  | cons x xs ih =>
    rw [List.map_cons, placed, ih, List.length_cons, counters_cons, List.map_cons, UInt64.add_zero,
      List.map_map]
    simp [Function.comp_def, UInt64.add_assoc]

/-- **The numbers in use are numbers of the counter**, in their order. -/
theorem placed_sublist (g : UInt64 → β) (places : List (Option α)) (ctr : UInt64) :
    (placed (fun i _ => g i) ctr places).Sublist
      ((counters places.length).map fun i => g (ctr + i)) := by
  induction places generalizing ctr with
  | nil => exact List.Sublist.slnil
  | cons p places ih =>
    have hrest := ih (ctr + 1)
    rw [List.length_cons, counters_cons, List.map_cons, UInt64.add_zero, List.map_map]
    simp only [UInt64.add_assoc] at hrest
    cases p with
    | none => exact hrest.cons _
    | some a => exact hrest.cons_cons _

end Placed

/-! ## Messages in their places -/

/-- What is in place, as far as the counter tells the places apart, is the beginning of what was
made. -/
theorem begins_of_places {taken : List α} (hmade : made.length < 2 ^ 64)
    (h : ∀ k x, k < 2 ^ 64 → taken[k]? = some x → made[k]? = some x) : taken <+: made := by
  have hlen : taken.length ≤ made.length := by
    by_contra hlt
    have hget := h made.length _ hmade (List.getElem?_eq_getElem (not_le.mp hlt))
    rw [List.getElem?_eq_none le_rfl] at hget
    cases hget
  rw [List.prefix_iff_getElem?]
  intro k hk
  exact h k _ (by omega) (List.getElem?_eq_getElem hk)

/-- Where no place is empty, every place shows what fills it. -/
theorem eq_map_reduceOption {places : List (Option α)} (hfull : none ∉ places) :
    places = places.reduceOption.map some := by
  induction places with
  | nil => rfl
  | cons p places ih =>
    cases p with
    | none => simp at hfull
    | some x => rw [List.reduceOption_cons_of_some, List.map_cons, ← ih (by simpa using hfull)]

/-- What fills the places is the beginning of what was made, if no place is empty. -/
theorem begins_of_filled {places : List (Option α)} (hmade : made.length < 2 ^ 64)
    (h : ∀ k x, k < 2 ^ 64 → places[k]? = some (some x) → made[k]? = some x)
    (hfull : none ∉ places) : places.reduceOption <+: made := by
  refine begins_of_places hmade fun k x hk hx => h k x hk ?_
  rw [eq_map_reduceOption hfull, List.getElem?_map, hx]
  rfl

/-- The messages carry the values of the counter, one after the other. -/
def Sequential (xs : List (UInt64 × α)) : Prop := xs.map Prod.fst = counters xs.length

namespace Sequential

theorem nil : Sequential ([] : List (UInt64 × α)) := rfl

/-- The next messages carry the next values. -/
theorem append (h : Sequential xs)
    (hys : ys.map Prod.fst = (counters ys.length).map (UInt64.ofNat xs.length + ·)) :
    Sequential (xs ++ ys) := by
  rw [Sequential, List.map_append, h, hys, List.length_append, counters_add]

theorem getElem? (h : Sequential xs) {k : ℕ} {p : UInt64 × α} (hk : xs[k]? = some p) :
    p.1 = UInt64.ofNat k := by
  obtain ⟨hlt, -⟩ := List.getElem?_eq_some_iff.mp hk
  have hfst : (xs.map Prod.fst)[k]? = some p.1 := by rw [List.getElem?_map, hk]; rfl
  rw [h, getElem?_counters hlt] at hfst
  exact (Option.some.inj hfst).symm

/-- **What is taken in order and was made in this place** is the beginning of what was made. -/
theorem begins (h : Sequential xs) (hmade : made.length < 2 ^ 64)
    (hxs : ∀ p ∈ xs, made[p.1.toNat]? = some p.2) : xs.map Prod.snd <+: made := by
  refine begins_of_places hmade fun k x hk hx => ?_
  rw [List.getElem?_map, Option.map_eq_some_iff] at hx
  obtain ⟨p, hp, rfl⟩ := hx
  have hget := hxs p (List.mem_of_getElem? hp)
  rwa [h.getElem? hp, UInt64.toNat_ofNat_of_lt' hk] at hget

end Sequential

end Counted
