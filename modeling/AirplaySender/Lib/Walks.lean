/-
# Walks in a graph given by successor lists

`walks succ n a` lists the walks of fewer than `n` steps from `a`, each as the nodes it visits.  A
node that is listed twice is walked to twice, so the number of walks is the size of the tree the
graph unfolds to (`length_walks_succ`), which sharing makes as large as an exponential in the number
of nodes.  Without sharing it is at most the number of nodes (`Unshared.length_walks_le`).

With sharing it is bounded level by level: no more walks lead to a node than the product of what the
levels above it share (`count_ends_le`), so there are at most `spread` of them, and as many where each
level lists the nodes of the next one alike (`length_walks_eq_spread`).
-/
import Mathlib

namespace Walks

variable {α : Type} {succ : α → List α} {n : ℕ} {a b c : α} {p q : List α}

/-- The walks of fewer than `n` steps from a node. -/
def walks (succ : α → List α) : ℕ → α → List (List α)
  | 0, _ => []
  | n + 1, a => [a] :: (succ a).flatMap fun b => (walks succ n b).map (a :: ·)

theorem length_walks_succ : (walks succ (n + 1) a).length =
    1 + ((succ a).map fun b => (walks succ n b).length).sum := by
  rw [walks, List.length_cons, List.length_flatMap, Nat.add_comm]
  simp only [List.length_map]

/-- A walk begins where it should, and each of its steps is one of the graph's. -/
theorem isChain_of_mem (h : p ∈ walks succ n a) :
    p.head? = some a ∧ p.IsChain fun b c => c ∈ succ b := by
  induction n generalizing a p with
  | zero => cases h
  | succ n ih =>
    rcases List.mem_cons.mp h with rfl | h
    · simp
    · obtain ⟨b, hb, hp⟩ := List.mem_flatMap.mp h
      obtain ⟨q, hq, rfl⟩ := List.mem_map.mp hp
      obtain ⟨hhead, hchain⟩ := ih hq
      cases q with
      | nil => cases hhead
      | cons c q =>
        cases hhead
        exact ⟨rfl, hchain.cons_cons hb⟩

/-! ## Graphs without sharing -/

/-- No node is listed twice, by one node or by two, and the root is not listed. -/
structure Unshared (succ : α → List α) (a : α) : Prop where
  nodup : ∀ b, (succ b).Nodup
  parent : ∀ b b' c, c ∈ succ b → c ∈ succ b' → b = b'
  root : ∀ b, a ∉ succ b

namespace Unshared

/-- The last step of a chain, and the chain up to it. -/
theorem last_step (h : (p ++ [b] ++ [c]).IsChain fun b c => c ∈ succ b) :
    c ∈ succ b ∧ (p ++ [b]).IsChain fun b c => c ∈ succ b := by
  obtain ⟨hfront, -, hstep⟩ := List.isChain_append.mp h
  exact ⟨hstep b (by simp) c (by simp), hfront⟩

/-- A chain from the root that ends in it is the root alone. -/
theorem eq_nil_of_root (hu : Unshared succ a) (h : (p ++ [a]).IsChain fun b c => c ∈ succ b) :
    p = [] := by
  rcases List.eq_nil_or_concat' p with rfl | ⟨p, b, rfl⟩
  · rfl
  · exact absurd (last_step h).1 (hu.root b)

/-- **A walk is told by where it ends**: its steps can be traced back. -/
theorem eq_of_getLast? (hu : Unshared succ a) (hp : p.IsChain fun b c => c ∈ succ b)
    (hq : q.IsChain fun b c => c ∈ succ b) (hpa : p.head? = some a) (hqa : q.head? = some a)
    (hlast : p.getLast? = q.getLast?) : p = q := by
  induction p using List.reverseRecOn generalizing q with
  | nil => cases hpa
  | append_singleton p c ih =>
    rcases List.eq_nil_or_concat' q with rfl | ⟨q, c', rfl⟩
    · cases hqa
    simp only [List.getLast?_concat, Option.some.injEq] at hlast
    subst hlast
    rcases List.eq_nil_or_concat' p with rfl | ⟨p, b, rfl⟩
    · cases hpa
      rw [hu.eq_nil_of_root hq]
    rcases List.eq_nil_or_concat' q with rfl | ⟨q, b', rfl⟩
    · cases hqa
      exact absurd (hu.eq_nil_of_root hp) (by simp)
    obtain ⟨hstep, hfront⟩ := last_step hp
    obtain ⟨hstep', hfront'⟩ := last_step hq
    obtain rfl := hu.parent _ _ _ hstep hstep'
    have hsame := ih hfront hfront' (by simpa using hpa) (by simpa using hqa) (by simp)
    rw [hsame]

theorem nodup_walks (hu : Unshared succ a) : ∀ (n : ℕ) (b : α), (walks succ n b).Nodup
  | 0, _ => List.nodup_nil
  | n + 1, b => by
    rw [walks, List.nodup_cons]
    constructor
    · intro h
      obtain ⟨c, -, hp⟩ := List.mem_flatMap.mp h
      obtain ⟨q, hq, heq⟩ := List.mem_map.mp hp
      obtain rfl := (List.cons.inj heq).2
      cases (isChain_of_mem hq).1
    · rw [List.nodup_flatMap]
      constructor
      · intro c _
        exact (hu.nodup_walks n c).map fun _ _ heq => (List.cons.inj heq).2
      · refine (hu.nodup b).imp ?_
        intro c c' hne p hp hp'
        obtain ⟨q, hq, rfl⟩ := List.mem_map.mp hp
        obtain ⟨q', hq', heq⟩ := List.mem_map.mp hp'
        obtain rfl := (List.cons.inj heq).2
        have hhead := (isChain_of_mem hq).1.symm.trans (isChain_of_mem hq').1
        exact hne (Option.some.inj hhead)

/-- **Without sharing there are no more walks than nodes.** -/
theorem length_walks_le [DecidableEq α] (hu : Unshared succ a) {s : Finset α}
    (hs : ∀ p ∈ walks succ n a, ∀ b ∈ p, b ∈ s) : (walks succ n a).length ≤ s.card := by
  have hlasts : ((walks succ n a).map List.getLast?).Nodup := by
    refine List.Nodup.map_on ?_ (hu.nodup_walks n a)
    intro p hp q hq hlast
    obtain ⟨hpa, hpchain⟩ := isChain_of_mem hp
    obtain ⟨hqa, hqchain⟩ := isChain_of_mem hq
    exact hu.eq_of_getLast? hpchain hqchain hpa hqa hlast
  have hsub : ((walks succ n a).map List.getLast?).toFinset ⊆ s.image some := by
    intro last hlast
    obtain ⟨p, hp, rfl⟩ := List.mem_map.mp (List.mem_toFinset.mp hlast)
    obtain ⟨c, hc⟩ : ∃ c, p.getLast? = some c := by
      cases p with
      | nil => cases (isChain_of_mem hp).1
      | cons c p => exact ⟨_, List.getLast?_cons⟩
    rw [hc]
    exact Finset.mem_image_of_mem _ (hs p hp c (List.mem_of_getLast? hc))
  calc (walks succ n a).length
      = ((walks succ n a).map List.getLast?).toFinset.card := by
        rw [List.toFinset_card_of_nodup hlasts, List.length_map]
    _ ≤ (s.image some).card := Finset.card_le_card hsub
    _ ≤ s.card := Finset.card_image_le

end Unshared

/-! ## Levels, and what they share -/

section Levels

variable [DecidableEq α]

/-- The nodes that some number of steps from a node lead to. -/
def level (succ : α → List α) (a : α) : ℕ → Finset α
  | 0 => {a}
  | n + 1 => (level succ a n).biUnion fun b => (succ b).toFinset

/-- How often some nodes list a node. -/
def listed (succ : α → List α) (s : Finset α) (c : α) : ℕ := ∑ b ∈ s, (succ b).count c

/-- How often a level lists the node of the next one that it lists most. -/
def sharing (succ : α → List α) (a : α) (n : ℕ) : ℕ :=
  (level succ a (n + 1)).sup (listed succ (level succ a n))

/-- The nodes of the levels, each as often as the levels above it share at most. -/
def spread (succ : α → List α) (a : α) (n : ℕ) : ℕ :=
  ∑ k ∈ Finset.range n, (level succ a k).card * ∏ j ∈ Finset.range k, sharing succ a j

/-- Each of the first levels lists all nodes of the next one alike. -/
def Evenly (succ : α → List α) (a : α) (n : ℕ) : Prop :=
  ∀ k < n, ∀ c ∈ level succ a (k + 1), listed succ (level succ a k) c = sharing succ a k

instance (succ : α → List α) (a : α) (n : ℕ) : Decidable (Evenly succ a n) :=
  inferInstanceAs (Decidable (∀ k < n, ∀ c ∈ level succ a (k + 1),
    listed succ (level succ a k) c = sharing succ a k))

/-- Where the walks of some number of steps end, each time one does. -/
def ends (succ : α → List α) (a : α) : ℕ → List α
  | 0 => [a]
  | n + 1 => (ends succ a n).flatMap succ

omit [DecidableEq α] in
theorem ends_succ (a : α) (n : ℕ) : ends succ a (n + 1) = (succ a).flatMap fun b => ends succ b n := by
  induction n with
  | zero => simp [ends]
  | succ n ih => rw [ends, ih, List.flatMap_assoc]; rfl

omit [DecidableEq α] in
/-- The walks, by the number of their steps. -/
theorem length_walks (a : α) (n : ℕ) :
    (walks succ n a).length = ∑ k ∈ Finset.range n, (ends succ a k).length := by
  induction n generalizing a with
  | zero => rfl
  | succ n ih =>
    have hswap (bs : List α) : (bs.map fun b => ∑ k ∈ Finset.range n, (ends succ b k).length).sum =
        ∑ k ∈ Finset.range n, (bs.flatMap fun b => ends succ b k).length := by
      induction bs with
      | nil => simp
      | cons b bs hbs => simp [hbs, Finset.sum_add_distrib]
    rw [length_walks_succ, Finset.sum_range_succ', Nat.add_comm]
    simp only [ih, hswap, ends_succ]
    rfl

theorem toFinset_ends (a : α) (n : ℕ) : (ends succ a n).toFinset = level succ a n := by
  induction n with
  | zero => rfl
  | succ n ih =>
    ext c
    simp [ends, level, ← ih]

/-- The walks to a node come from the level before it. -/
theorem count_ends_succ (a c : α) (n : ℕ) : (ends succ a (n + 1)).count c =
    ∑ b ∈ level succ a n, (ends succ a n).count b * (succ b).count c := by
  rw [ends, List.count_flatMap, Finset.sum_list_map_count, toFinset_ends]
  rfl

theorem count_ends_of_notMem (h : c ∉ level succ a n) : (ends succ a n).count c = 0 := by
  rw [← toFinset_ends, List.mem_toFinset] at h
  exact List.count_eq_zero.mpr h

theorem length_ends (a : α) (n : ℕ) :
    (ends succ a n).length = ∑ c ∈ level succ a n, (ends succ a n).count c := by
  rw [← toFinset_ends, List.sum_toFinset_count_eq_length]

omit [DecidableEq α] in
/-- A walk leads to each of the ends. -/
theorem exists_walk_of_mem_ends {k : ℕ} (hk : k < n) (hc : c ∈ ends succ a k) :
    ∃ p ∈ walks succ n a, c ∈ p := by
  induction n generalizing a k with
  | zero => omega
  | succ n ih =>
    cases k with
    | zero => exact ⟨[a], List.mem_cons_self, hc⟩
    | succ k =>
      rw [ends_succ] at hc
      obtain ⟨b, hb, hc⟩ := List.mem_flatMap.mp hc
      obtain ⟨p, hp, hcp⟩ := ih (Nat.lt_of_succ_lt_succ hk) hc
      refine ⟨a :: p, List.mem_cons_of_mem _ ?_, List.mem_cons_of_mem a hcp⟩
      exact List.mem_flatMap.mpr ⟨b, hb, List.mem_map_of_mem hp⟩

/-- **No more walks lead to a node than the levels above it share.** -/
theorem count_ends_le (a c : α) (n : ℕ) :
    (ends succ a n).count c ≤ ∏ j ∈ Finset.range n, sharing succ a j := by
  induction n generalizing c with
  | zero => exact List.count_le_length
  | succ n ih =>
    by_cases hc : c ∈ level succ a (n + 1)
    · calc (ends succ a (n + 1)).count c
          = ∑ b ∈ level succ a n, (ends succ a n).count b * (succ b).count c := count_ends_succ a c n
        _ ≤ ∑ b ∈ level succ a n, (∏ j ∈ Finset.range n, sharing succ a j) * (succ b).count c :=
            Finset.sum_le_sum fun b _ => Nat.mul_le_mul_right _ (ih b)
        _ = (∏ j ∈ Finset.range n, sharing succ a j) * listed succ (level succ a n) c :=
            (Finset.mul_sum ..).symm
        _ ≤ (∏ j ∈ Finset.range n, sharing succ a j) * sharing succ a n :=
            Nat.mul_le_mul_left _ (Finset.le_sup (f := listed succ (level succ a n)) hc)
        _ = ∏ j ∈ Finset.range (n + 1), sharing succ a j := (Finset.prod_range_succ ..).symm
    · rw [count_ends_of_notMem hc]
      exact Nat.zero_le _

/-- Where the levels share evenly, as many lead there. -/
theorem count_ends_even {m : ℕ} (h : Evenly succ a m) (hn : n ≤ m) (hc : c ∈ level succ a n) :
    (ends succ a n).count c = ∏ j ∈ Finset.range n, sharing succ a j := by
  induction n generalizing c with
  | zero =>
    rw [Finset.mem_singleton.mp hc]
    exact List.count_singleton_self
  | succ n ih =>
    calc (ends succ a (n + 1)).count c
        = ∑ b ∈ level succ a n, (ends succ a n).count b * (succ b).count c := count_ends_succ a c n
      _ = ∑ b ∈ level succ a n, (∏ j ∈ Finset.range n, sharing succ a j) * (succ b).count c :=
          Finset.sum_congr rfl fun b hb => by rw [ih (Nat.le_of_succ_le hn) hb]
      _ = (∏ j ∈ Finset.range n, sharing succ a j) * listed succ (level succ a n) c :=
          (Finset.mul_sum ..).symm
      _ = ∏ j ∈ Finset.range (n + 1), sharing succ a j := by
          rw [h n hn c hc, Finset.prod_range_succ]

/-- **There are no more walks than the levels spread to.** -/
theorem length_walks_le_spread (a : α) (n : ℕ) : (walks succ n a).length ≤ spread succ a n := by
  rw [length_walks, spread]
  refine Finset.sum_le_sum fun k _ => ?_
  rw [length_ends, ← smul_eq_mul]
  exact Finset.sum_le_card_nsmul _ _ _ fun c _ => count_ends_le a c k

/-- Where no level lists a node twice, the levels spread to no more than their nodes. -/
theorem spread_le_of_sharing_le_one (h : ∀ k < n, sharing succ a k ≤ 1) :
    spread succ a n ≤ ∑ k ∈ Finset.range n, (level succ a k).card := by
  refine Finset.sum_le_sum fun k hk => ?_
  have hone : ∏ j ∈ Finset.range k, sharing succ a j ≤ 1 := by
    refine Finset.prod_le_one' fun j hj => h j ?_
    exact (Finset.mem_range.mp hj).trans (Finset.mem_range.mp hk)
  exact (Nat.mul_le_mul_left _ hone).trans (Nat.mul_one _).le

/-- And just as many where they share evenly. -/
theorem length_walks_eq_spread (h : Evenly succ a n) : (walks succ n a).length = spread succ a n := by
  rw [length_walks, spread]
  refine Finset.sum_congr rfl fun k hk => ?_
  rw [length_ends, ← smul_eq_mul]
  exact Finset.sum_eq_card_nsmul fun c hc => count_ends_even h (Finset.mem_range.mp hk).le hc

end Levels

end Walks
