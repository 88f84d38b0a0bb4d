/-
# The last items of a growing list, kept by slot

Item `k` of a list goes by the number `(first + k) % period`, which wraps around.  The last `size`
items are kept in `size` slots, an item in the slot `number % size`, next to its number, and a slot
that keeps nothing is tagged `-1`.  Where `size` divides `period` two of the last `size` items never
share a slot, and a number that is looked up finds the one of them that has it or nothing, however
often the numbers have wrapped (`Keeps.lookup`).
-/
import Mathlib.Data.List.Nodup
import Mathlib.Data.List.Basic
import Mathlib.Data.Nat.ModEq
import Mathlib.Logic.Function.Basic
import Mathlib.Tactic.Ring

namespace Recent

variable {α : Type}

/-- The number of item `k`. -/
def number (period first k : ℕ) : ℕ := (first + k) % period

/-- Item `k` is one of the last `size`. -/
def Last (size : ℕ) (items : List α) (k : ℕ) (x : α) : Prop :=
  items[k]? = some x ∧ items.length ≤ k + size

/-- The slots keep the last `size` items, and nothing else. -/
structure Keeps (size period first : ℕ) (items : List α) (slot : ℕ → α) (tag : ℕ → ℤ) : Prop where
  held : ∀ k x, Last size items k x → slot (number period first k % size) = x ∧
    tag (number period first k % size) = number period first k
  free : ∀ i, (∀ k x, Last size items k x → number period first k % size ≠ i) → tag i = -1

section Keeps

variable {size period first : ℕ} {items : List α} {slot : ℕ → α} {tag : ℕ → ℤ}

/-- Two of the last items with one number are one. -/
theorem number_inj (hsize : size ≤ period) {j k : ℕ} {x y : α} (hj : Last size items j x)
    (hk : Last size items k y) (h : number period first j = number period first k) : j = k := by
  obtain ⟨hjlt, -⟩ := List.getElem?_eq_some_iff.mp hj.1
  obtain ⟨hklt, -⟩ := List.getElem?_eq_some_iff.mp hk.1
  have hmod : j ≡ k [MOD period] := Nat.ModEq.add_left_cancel' first h
  have hj' := hj.2
  have hk' := hk.2
  rcases Nat.le_total j k with hle | hle
  · exact hmod.symm.eq_of_abs_lt (by rw [abs_lt]; omega) |>.symm
  · exact hmod.eq_of_abs_lt (by rw [abs_lt]; omega)

/-- Nothing is kept of an empty list. -/
theorem Keeps.empty (slot : ℕ → α) {tag : ℕ → ℤ} (htag : ∀ i, tag i = -1) :
    Keeps size period first [] slot tag :=
  ⟨fun k x h => absurd h.1 (by simp), fun i _ => htag i⟩

/-- **The next item takes the slot of the one that drops out.** -/
theorem Keeps.push (h : Keeps size period first items slot tag) (hpos : 0 < size)
    (hdvd : size ∣ period) (x : α) :
    Keeps size period first (items ++ [x])
      (Function.update slot (number period first items.length % size) x)
      (Function.update tag (number period first items.length % size)
        (number period first items.length)) := by
  have hslot (k : ℕ) : number period first k % size = (first + k) % size :=
    Nat.mod_mod_of_dvd _ hdvd
  -- an item is the new one, or one of the last of the old ones in another slot
  have hcases {k : ℕ} {y : α} (hk : Last size (items ++ [x]) k y) :
      (k = items.length ∧ y = x) ∨ (Last size items k y ∧
        number period first k % size ≠ number period first items.length % size) := by
    obtain ⟨hget, hlen⟩ := hk
    rw [List.length_append, List.length_singleton] at hlen
    rcases Nat.lt_trichotomy k items.length with hlt | heq | hgt
    · rw [List.getElem?_append_left hlt] at hget
      refine .inr ⟨⟨hget, by omega⟩, fun hsame => ?_⟩
      rw [hslot, hslot] at hsame
      have hmod : k ≡ items.length [MOD size] := Nat.ModEq.add_left_cancel' first hsame
      have heq := hmod.symm.eq_of_abs_lt (by rw [abs_lt]; omega)
      omega
    · subst heq
      rw [List.getElem?_append_right le_rfl, Nat.sub_self] at hget
      exact .inl ⟨rfl, (Option.some.inj hget).symm⟩
    · rw [List.getElem?_eq_none (by simp; omega)] at hget
      cases hget
  constructor
  · intro k y hk
    rcases hcases hk with ⟨rfl, rfl⟩ | ⟨hold, hne⟩
    · simp
    · rw [Function.update_of_ne hne, Function.update_of_ne hne]
      exact h.held k y hold
  · intro i hi
    have hnew : number period first items.length % size ≠ i := by
      refine hi _ x ⟨?_, ?_⟩
      · rw [List.getElem?_append_right le_rfl, Nat.sub_self]
        rfl
      · rw [List.length_append, List.length_singleton]
        omega
    rw [Function.update_of_ne hnew.symm]
    refine h.free i fun k y hk heq => ?_
    obtain ⟨hlt, -⟩ := List.getElem?_eq_some_iff.mp hk.1
    by_cases hlast : (items ++ [x]).length ≤ k + size
    · refine hi k y ⟨?_, hlast⟩ heq
      rw [List.getElem?_append_left hlt]
      exact hk.1
    · -- the item that drops out had the slot of the new one
      rw [List.length_append, List.length_singleton] at hlast
      have hlen := hk.2
      have hk' : items.length = k + size := by omega
      refine hnew ?_
      rw [← heq, hslot, hslot, hk', ← Nat.add_assoc, Nat.add_mod_right]

/-- **A number finds the one of the last items that has it, or nothing.** -/
theorem Keeps.lookup (h : Keeps size period first items slot tag) {n : ℕ} {x : α}
    (hx : slot (n % size) = x) :
    tag (n % size) = n ↔ ∃ k, Last size items k x ∧ number period first k = n := by
  constructor
  · intro htag
    by_contra hno
    have hfree : tag (n % size) = -1 := by
      refine h.free _ fun k y hk heq => hno ⟨k, ?_⟩
      obtain ⟨hslot, hnumber⟩ := h.held k y hk
      rw [heq] at hslot hnumber
      have hn : number period first k = n := by
        rw [htag] at hnumber
        exact_mod_cast hnumber.symm
      rw [hslot] at hx
      exact ⟨hx ▸ hk, hn⟩
    omega
  · rintro ⟨k, hk, rfl⟩
    exact (h.held k x hk).2

/-- The last `size` items. -/
def recent (size : ℕ) (items : List α) : List α := items.drop (items.length - size)

theorem mem_recent {x : α} : x ∈ recent size items ↔ ∃ k, Last size items k x := by
  rw [recent, List.mem_iff_getElem?]
  constructor
  · rintro ⟨j, hj⟩
    rw [List.getElem?_drop] at hj
    exact ⟨items.length - size + j, hj, by omega⟩
  · rintro ⟨k, hk, hlen⟩
    refine ⟨k - (items.length - size), ?_⟩
    rw [List.getElem?_drop, Nat.add_sub_cancel' (by omega)]
    exact hk

theorem length_recent_le : (recent size items).length ≤ size := by
  rw [recent, List.length_drop]
  omega

/-- **The slot of a number is where the one of the last items with that number is found.** -/
theorem Keeps.find (h : Keeps size period first items slot tag) (hsize : size ≤ period)
    {numberOf : α → ℕ} (hnumber : ∀ k x, items[k]? = some x → numberOf x = number period first k)
    (n : ℕ) : (recent size items).find? (fun x => numberOf x = n) =
      if tag (n % size) = n then some (slot (n % size)) else none := by
  have hlook := h.lookup (n := n) rfl
  split
  · rename_i htag
    obtain ⟨k, hk, hkn⟩ := hlook.mp htag
    obtain ⟨y, hy⟩ : ∃ y, (recent size items).find? (fun x => numberOf x = n) = some y := by
      rw [← Option.isSome_iff_exists, List.find?_isSome]
      exact ⟨_, mem_recent.mpr ⟨k, hk⟩, by simpa [hkn] using hnumber k _ hk.1⟩
    obtain ⟨j, hj⟩ := mem_recent.mp (List.mem_of_find?_eq_some hy)
    have hyn : numberOf y = n := by simpa using List.find?_some hy
    have hjk : j = k := number_inj hsize hj hk (by rw [hkn, ← hyn, hnumber j y hj.1])
    subst hjk
    rw [hy]
    exact hj.1.symm.trans hk.1
  · rename_i htag
    rw [List.find?_eq_none]
    intro y hy hyn
    obtain ⟨j, hj⟩ := mem_recent.mp hy
    have hjn : number period first j = n := by
      rw [← hnumber j y hj.1]
      simpa using hyn
    have htag' := (h.held j y hj).2
    rw [hjn] at htag'
    exact htag htag'

/-- The numbers of the last items are distinct. -/
theorem nodup_recent (hsize : size ≤ period) {numberOf : α → ℕ}
    (hnumber : ∀ k x, items[k]? = some x → numberOf x = number period first k) :
    ((recent size items).map numberOf).Nodup := by
  rw [List.nodup_iff_getElem?_ne_getElem?]
  intro i j hij hj heq
  have hlen : j < (recent size items).length := by simpa using hj
  have hlast (i : ℕ) (hi : i < (recent size items).length) :
      Last size items (items.length - size + i) (recent size items)[i] := by
    refine ⟨?_, by omega⟩
    rw [← List.getElem?_drop]
    exact List.getElem?_eq_getElem hi
  have hi := hlast i (hij.trans hlen)
  have hj := hlast j hlen
  simp only [List.getElem?_map, List.getElem?_eq_getElem hlen,
    List.getElem?_eq_getElem (hij.trans hlen), Option.map_some, Option.some.injEq] at heq
  rw [hnumber _ _ hi.1, hnumber _ _ hj.1] at heq
  have := number_inj hsize hi hj heq
  omega

end Keeps

end Recent
