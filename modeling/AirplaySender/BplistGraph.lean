/-
# The reference graph of a property list

A bplist is a graph written down as a table: an array or a dict names its children by their index,
and nothing keeps two objects from naming the same child.  What the decoder makes of one object
depends on the file alone, except for the failure flag (`headAt`, `object_head`), so its run over a
file is a walk over the file's graph.  Two facts about untrusted files are read off that walk.

The value tree has one node for each path from the root, not for each object (`nodes_object`), so
shared children multiply, and the tree of a file of 90 bytes is beyond the square of its length.
What a file shares between the levels of its graph bounds its tree, and decides where it shares
evenly (`nodes_le_square_of_sharing`).  Where no object is shared at all the tree has no more nodes
than the file has objects (`nodes_le_of_unshared`).

A read that runs off the end clears the flag, but only arrays and dicts ask for it.  The marks the
walk leaves say all there is to acceptance (`object_obey`), so a cut object passes exactly when no
object reached is refused and no container comes after the cut (`cut_refused_iff`); it is then taken
for 0 or for an empty string (`leaf_head`).
-/
import AirplaySender.Bplist
import AirplaySender.Lib.Walks
import Mathlib.Tactic.IntervalCases

namespace AirplaySender.Bplist

open Octets Walks

variable {d : Octets} {dec : Decoder} {left ref pos n i : ℕ} {ok ok' : Bool} {v : Value}

/-! ## 1. One object, without its references -/

/-- What there is to an object before its references are followed. -/
inductive Shape
  | refused
  | leaf (v : Value)
  | arr (pos cnt : ℕ)
  | dict (pos cnt : ℕ)

/-- An object's shape, whether reading it clears the flag, and whether it is a UTF-16 string that
ends before its count. -/
structure Head where
  shape : Shape
  cut : Bool
  short : Bool

/-- The marker of an object and the position behind it. -/
def markerAt (dec : Decoder) (ref : ℕ) : Option (UInt8 × ℕ) :=
  if dec.numObjects ≤ ref then none
  else do
    let start ← dec.offsets[ref]?
    let marker ← dec.d[start]?
    return (marker, start + 1)

/-- The part of `object` in front of its loops, with the flag still set. -/
def headAt (dec : Decoder) (ref : ℕ) : Head :=
  match markerAt dec ref with
  | none => ⟨.refused, false, false⟩
  | some (marker, pos) =>
    let size := dec.d.length
    let lo := marker.toNat % 16
    let whole := readBE dec.d pos (1 <<< lo) true
    let (cnt, pos', counted) := readCount dec.d lo pos true
    match marker.toNat / 16 with
    | 0x0 => ⟨.leaf (.bool (marker == 0x09)), false, false⟩
    | 0x1 => ⟨.leaf (.int (UInt64.ofNat whole.1).toInt64), !whole.2, false⟩
    | 0x2 =>
      let bits := if lo = 3 then whole.1 else if lo = 2 then widenFloat whole.1 else 0
      ⟨.leaf (.real (UInt64.ofNat bits)), !whole.2, false⟩
    | 0x4 =>
      ⟨if size < cnt ∨ size < u64 (pos' + cnt) then .refused
        else .leaf (.data ((dec.d.drop pos').take cnt)), !counted, false⟩
    | 0x5 =>
      ⟨if size < cnt ∨ size < u64 (pos' + cnt) then .refused
        else .leaf (.str ((dec.d.drop pos').take cnt)), !counted, false⟩
    | 0x6 =>
      ⟨if size < cnt then .refused else .leaf (.str (utf16Low dec.d pos' cnt 0)), !counted,
        (utf16Low dec.d pos' cnt 0).length < cnt⟩
    | 0xA =>
      ⟨if dec.numObjects < cnt ∨ size < u64 (pos' + u64 (cnt * dec.refSize)) then .refused
        else .arr pos' cnt, !counted, false⟩
    | 0xD =>
      ⟨if dec.numObjects < cnt ∨ size < u64 (pos' + u64 (2 * cnt * dec.refSize)) then .refused
        else .dict pos' cnt, !counted, false⟩
    | _ => ⟨.refused, false, false⟩

/-- A read hands the flag on, or clears it; what it returns does not depend on it. -/
theorem readBE_flag (d : Octets) (pos n : ℕ) (ok : Bool) :
    readBE d pos n ok = ((readBE d pos n true).1, ok && (readBE d pos n true).2) := by
  unfold readBE
  cases readLoop d pos n 0 with
  | none => simp
  | some v => simp

theorem readCount_flag (d : Octets) (lo pos : ℕ) (ok : Bool) : readCount d lo pos ok =
    ((readCount d lo pos true).1, (readCount d lo pos true).2.1,
      ok && (readCount d lo pos true).2.2) := by
  unfold readCount
  split
  · simp
  · cases d[pos]? with
    | none => simp
    | some im =>
      simp only
      rw [readBE_flag]

theorem refAt_flag (dec : Decoder) (pos i : ℕ) (ok : Bool) : refAt dec pos i ok =
    ((refAt dec pos i true).1, ok && (refAt dec pos i true).2) := readBE_flag ..

/-- What a read that was cut returns. -/
theorem readBE_cut (d : Octets) (pos n : ℕ) (h : (readBE d pos n true).2 = false) :
    (readBE d pos n true).1 = 0 := by
  unfold readBE at h ⊢
  cases hloop : readLoop d pos n 0 with
  | none => rfl
  | some v =>
    rw [hloop] at h
    cases h

theorem readCount_cut (d : Octets) (lo pos : ℕ) (h : (readCount d lo pos true).2.2 = false) :
    (readCount d lo pos true).1 = 0 := by
  unfold readCount at h ⊢
  split at h
  · cases h
  · rw [if_neg ‹_›]
    cases him : d[pos]? with
    | none => rfl
    | some im =>
      rw [him] at h
      exact readBE_cut _ _ _ h

/-- **One level of the decoder**: the object's own head decides, and the flag is looked at by the
containers only. -/
theorem object_head (dec : Decoder) (left ref : ℕ) (ok : Bool) :
    object dec (left + 1) ref ok =
      match (headAt dec ref).shape with
      | .refused => none
      | .leaf v => some (v, ok && !(headAt dec ref).cut)
      | .arr pos cnt =>
        if ok && !(headAt dec ref).cut then
          (objectsAt dec (object dec left) pos cnt 0 true).map fun (a, ok') => (.arr a, ok')
        else none
      | .dict pos cnt =>
        if ok && !(headAt dec ref).cut then
          (entriesAt dec (object dec left) pos cnt cnt 0 true).map fun (es, ok') => (.dict es, ok')
        else none := by
  rw [object]
  unfold headAt markerAt
  by_cases href : dec.numObjects ≤ ref
  · simp only [href, if_true]
  rw [if_neg href, if_neg href]
  cases dec.offsets[ref]? with
  | none => rfl
  | some start =>
    simp only [Option.bind_eq_bind, Option.bind_some]
    cases dec.d[start]? with
    | none => rfl
    | some marker =>
      simp only [Option.bind_some, Option.pure_def]
      have hlt : marker.toNat / 16 < 16 := by
        have := marker.toNat_lt
        omega
      generalize hkind : marker.toNat / 16 = kind at hlt ⊢
      generalize marker.toNat % 16 = lo
      rw [readCount_flag dec.d lo (start + 1) ok, readBE_flag dec.d (start + 1) (1 <<< lo) ok]
      generalize readCount dec.d lo (start + 1) true = count
      generalize readBE dec.d (start + 1) (1 <<< lo) true = whole
      obtain ⟨cnt, pos', counted⟩ := count
      obtain ⟨bits, whole⟩ := whole
      -- one case a kind of marker; what is left is the guard of the kind, under each flag
      interval_cases kind
      all_goals simp only [Bool.not_not, Bool.and_true, Bool.not_false]
      all_goals cases ok <;> cases counted <;> split_ifs <;> simp_all

/-! ## 2. The tree has a node for each path -/

mutual

/-- The nodes of a value tree: a dict's keys are strings of its own, not nodes. -/
def nodes : Value → ℕ
  | .arr a => 1 + nodesAll a
  | .dict es => 1 + nodesEntries es
  | _ => 1

def nodesAll : List Value → ℕ
  | [] => 0
  | v :: vs => nodes v + nodesAll vs

def nodesEntries : List (Octets × Value) → ℕ
  | [] => 0
  | (_, v) :: es => nodes v + nodesEntries es

end

/-- The values an object can have without naming others, and what it is taken for when it is
cut. -/
theorem leaf_head (h : (headAt dec ref).shape = .leaf v) : nodes v = 1 ∧
    ((headAt dec ref).cut = true → v = .int 0 ∨ v = .real 0 ∨ v = .data [] ∨ v = .str []) := by
  unfold headAt at h ⊢
  cases hmarker : markerAt dec ref with
  | none =>
    rw [hmarker] at h
    cases h
  | some m =>
    obtain ⟨marker, pos⟩ := m
    rw [hmarker] at h
    have hlt : marker.toNat / 16 < 16 := by
      have := marker.toNat_lt
      omega
    simp only at h ⊢
    generalize marker.toNat / 16 = kind at hlt h ⊢
    generalize marker.toNat % 16 = lo at h ⊢
    have hread := readBE_cut dec.d pos (1 <<< lo)
    have hcount := readCount_cut dec.d lo pos
    generalize readCount dec.d lo pos true = count at h hcount ⊢
    generalize readBE dec.d pos (1 <<< lo) true = whole at h hread ⊢
    obtain ⟨cnt, pos', counted⟩ := count
    obtain ⟨bits, whole⟩ := whole
    interval_cases kind
    all_goals simp only [Bool.not_eq_true'] at h ⊢
    all_goals try split_ifs at h
    all_goals cases h
    all_goals
      constructor
      · rfl
      · intro hcut
        simp_all [widenFloat, utf16Low]

/-- The `n` references of a table at `pos` from the `i`-th on. -/
def refsAt (dec : Decoder) (pos i n : ℕ) : List ℕ :=
  (List.range' i n).map fun j => (refAt dec pos j true).1

/-- The objects an object names as the children of its value. -/
def children (dec : Decoder) (ref : ℕ) : List ℕ :=
  match (headAt dec ref).shape with
  | .arr pos cnt => refsAt dec pos 0 cnt
  | .dict pos cnt => refsAt dec pos cnt cnt
  | _ => []

theorem children_of_leaf (h : (headAt dec ref).shape = .leaf v) : children dec ref = [] := by
  rw [children, h]

theorem children_of_arr {cnt : ℕ} (h : (headAt dec ref).shape = .arr pos cnt) :
    children dec ref = refsAt dec pos 0 cnt := by
  rw [children, h]

theorem children_of_dict {cnt : ℕ} (h : (headAt dec ref).shape = .dict pos cnt) :
    children dec ref = refsAt dec pos cnt cnt := by
  rw [children, h]

/-- A value that decoding the object at a reference gave. -/
def Made (child : ℕ → Bool → Option (Value × Bool)) (ref : ℕ) (v : Value) : Prop :=
  ∃ ok ok', child ref ok = some (v, ok')

variable {child : ℕ → Bool → Option (Value × Bool)}

theorem objectsAt_made {vs : List Value} (h : objectsAt dec child pos n i ok = some (vs, ok')) :
    List.Forall₂ (Made child) (refsAt dec pos i n) vs := by
  induction n generalizing i ok vs with
  | zero =>
    cases h
    exact .nil
  | succ n ih =>
    rw [objectsAt, refAt_flag] at h
    simp only [Option.bind_eq_bind, Option.bind_eq_some_iff, Prod.exists] at h
    obtain ⟨v, ok₂, hv, rest, ok₃, hrest, heq⟩ := h
    cases heq
    exact .cons ⟨_, _, hv⟩ (ih hrest)

theorem entriesAt_made {cnt : ℕ} {es : List (Octets × Value)}
    (h : entriesAt dec child pos cnt n i ok = some (es, ok')) :
    List.Forall₂ (Made child) (refsAt dec pos (cnt + i) n) (es.map Prod.snd) := by
  induction n generalizing i ok es with
  | zero =>
    cases h
    exact .nil
  | succ n ih =>
    rw [entriesAt, refAt_flag dec pos i] at h
    simp only [refAt_flag dec pos (cnt + i) (ok && _), Option.bind_eq_bind,
      Option.bind_eq_some_iff, Prod.exists] at h
    obtain ⟨k, ok₃, -, v, ok₄, hv, rest, ok₅, hrest, heq⟩ := h
    cases heq
    exact .cons ⟨_, _, hv⟩ (ih hrest)

theorem nodesAll_eq (vs : List Value) : nodesAll vs = (vs.map nodes).sum := by
  induction vs with
  | nil => rfl
  | cons v vs ih => rw [nodesAll, ih, List.map_cons, List.sum_cons]

theorem nodesEntries_eq (es : List (Octets × Value)) :
    nodesEntries es = ((es.map Prod.snd).map nodes).sum := by
  induction es with
  | nil => rfl
  | cons e es ih => rw [nodesEntries, ih, List.map_cons, List.map_cons, List.sum_cons]

/-- **An object that is decoded is one node over the values of its children**, and a reference
that leads nowhere is not decoded. -/
theorem object_made (h : object dec (left + 1) ref ok = some (v, ok')) :
    ref < dec.numObjects ∧ ∃ vs, nodes v = 1 + (vs.map nodes).sum ∧
      List.Forall₂ (Made (object dec left)) (children dec ref) vs := by
  constructor
  · by_contra hout
    rw [object, if_pos (by omega)] at h
    cases h
  rw [object_head] at h
  cases hshape : (headAt dec ref).shape with
  | refused =>
    rw [hshape] at h
    cases h
  | leaf u =>
    rw [hshape] at h
    cases h
    rw [children_of_leaf hshape]
    exact ⟨[], (leaf_head hshape).1, .nil⟩
  | arr pos cnt =>
    simp only [hshape] at h
    split_ifs at h
    obtain ⟨⟨a, okₐ⟩, ha, heq⟩ := Option.map_eq_some_iff.mp h
    cases heq
    rw [children_of_arr hshape]
    exact ⟨a, by rw [nodes, nodesAll_eq], objectsAt_made ha⟩
  | dict pos cnt =>
    simp only [hshape] at h
    split_ifs at h
    obtain ⟨⟨es, okₑ⟩, hes, heq⟩ := Option.map_eq_some_iff.mp h
    cases heq
    rw [children_of_dict hshape]
    exact ⟨es.map Prod.snd, by rw [nodes, nodesEntries_eq], entriesAt_made hes⟩

/-- **A decoded tree has as many nodes as its file has paths** from the object it was decoded
from. -/
theorem nodes_object (h : object dec left ref ok = some (v, ok')) :
    nodes v = (walks (children dec) left ref).length := by
  induction left generalizing ref ok v ok' with
  | zero => cases h
  | succ left ih =>
    obtain ⟨-, vs, hnodes, hmade⟩ := object_made h
    have hsame : vs.map nodes =
        (children dec ref).map fun r => (walks (children dec) left r).length := by
      rw [← List.forall₂_eq_eq_eq, List.forall₂_map_left_iff, List.forall₂_map_right_iff]
      exact hmade.flip.imp fun v r ⟨_, _, hv⟩ => ih hv
    rw [length_walks_succ, hnodes, hsame]

/-- What the decoder goes through lies in the table. -/
theorem lt_of_mem_walks (h : object dec left ref ok = some (v, ok')) {p : List ℕ}
    (hp : p ∈ walks (children dec) left ref) : ∀ r ∈ p, r < dec.numObjects := by
  induction left generalizing ref ok v ok' p with
  | zero => cases h
  | succ left ih =>
    obtain ⟨hlt, vs, -, hmade⟩ := object_made h
    rcases List.mem_cons.mp hp with rfl | hp
    · simpa using hlt
    · obtain ⟨r, hr, hp⟩ := List.mem_flatMap.mp hp
      obtain ⟨q, hq, rfl⟩ := List.mem_map.mp hp
      obtain ⟨i, hi, rfl⟩ := List.getElem_of_mem hr
      obtain ⟨okᵢ, okᵢ', hv⟩ := hmade.get hi (hmade.length_eq ▸ hi)
      intro r' hr'
      rcases List.mem_cons.mp hr' with rfl | hr'
      · exact hlt
      · exact ih hv hq r' hr'

theorem object_of_decode (hdec : parseTrailer d = some dec) (h : decode d = some v) :
    ∃ ok', object dec 33 0 true = some (v, ok') := by
  simp only [decode, hdec, Option.bind_eq_bind, Option.bind_some, Option.bind_eq_some_iff,
    Prod.exists] at h
  obtain ⟨v', ok', hobject, heq⟩ := h
  cases heq
  exact ⟨ok', hobject⟩

theorem validSize_bounds {s : ℕ} (h : validSize s = true) : 0 < s ∧ s ≤ 8 := by
  simp only [validSize, Bool.or_eq_true, beq_iff_eq] at h
  omega

/-- The decoder works on the file, its table is no longer than the file, its references are at most 8
octets wide, and the file has room for header and trailer. -/
theorem parseTrailer_bounds (h : parseTrailer d = some dec) : dec.d = d ∧
    dec.offsets.length = dec.numObjects ∧ dec.numObjects ≤ d.length ∧ dec.refSize ≤ 8 ∧
    40 ≤ d.length := by
  unfold parseTrailer at h
  split_ifs at h with hroom
  simp only at h
  split_ifs at h with _ hvalid _ hobjects
  cases h
  simp only [Bool.or_eq_true, Bool.not_eq_true', not_or, Bool.not_eq_false] at hvalid
  exact ⟨rfl, by simp, Nat.not_lt.mp hobjects, (validSize_bounds hvalid.2).2, Nat.not_lt.mp hroom⟩

/-- **Where no object is shared, a tree has at most a node for each octet of its file.** -/
theorem nodes_le_of_unshared (hdec : parseTrailer d = some dec)
    (hunshared : Unshared (children dec) 0) (h : decode d = some v) : nodes v ≤ d.length := by
  obtain ⟨ok', hobject⟩ := object_of_decode hdec h
  calc nodes v = (walks (children dec) 33 0).length := nodes_object hobject
    _ ≤ (Finset.range dec.numObjects).card := by
        refine hunshared.length_walks_le ?_
        intro p hp r hr
        exact Finset.mem_range.mpr (lt_of_mem_walks hobject hp r hr)
    _ = dec.numObjects := Finset.card_range _
    _ ≤ d.length := (parseTrailer_bounds hdec).2.2.1

/-- The levels of an accepted file's graph lie in its table. -/
theorem card_level_le (h : object dec 33 0 true = some (v, ok')) {k : ℕ} (hk : k < 33) :
    (level (children dec) 0 k).card ≤ dec.numObjects := by
  refine (Finset.card_le_card fun c hc => ?_).trans (Finset.card_range _).le
  rw [← toFinset_ends, List.mem_toFinset] at hc
  obtain ⟨p, hp, hcp⟩ := exists_walk_of_mem_ends hk hc
  exact Finset.mem_range.mpr (lt_of_mem_walks h hp c hcp)

/-- **What a file shares bounds its tree.**  An accepted file's tree is within the square of its
length where the objects on the 33 levels of its graph are, each counted as often as the levels above
it share; that is so unless some level names an object of the next one twice; and where every level
names the objects of the next one alike, the tree is within the square only then. -/
theorem nodes_le_square_of_sharing (hdec : parseTrailer d = some dec) (h : decode d = some v) :
    (spread (children dec) 0 33 ≤ d.length ^ 2 → nodes v ≤ d.length ^ 2) ∧
    (d.length ^ 2 < spread (children dec) 0 33 → ∃ k < 33, 2 ≤ sharing (children dec) 0 k) ∧
    (Evenly (children dec) 0 33 →
      (nodes v ≤ d.length ^ 2 ↔ spread (children dec) 0 33 ≤ d.length ^ 2)) := by
  obtain ⟨ok', hobject⟩ := object_of_decode hdec h
  obtain ⟨-, -, hobjects, -, hlength⟩ := parseTrailer_bounds hdec
  refine ⟨fun hwithin => ?_, fun hbeyond => ?_, fun heven => ?_⟩
  · rw [nodes_object hobject]
    exact (length_walks_le_spread 0 33).trans hwithin
  · by_contra hno
    have hone : ∀ k < 33, sharing (children dec) 0 k ≤ 1 := fun k hk => by
      by_contra hshared
      exact hno ⟨k, hk, by omega⟩
    have hlevels : ∑ k ∈ Finset.range 33, (level (children dec) 0 k).card ≤ 33 * d.length := by
      refine (Finset.sum_le_card_nsmul _ _ d.length fun k hk => ?_).trans (by simp)
      exact (card_level_le hobject (Finset.mem_range.mp hk)).trans hobjects
    have hsquare : 33 * d.length ≤ d.length ^ 2 := by
      rw [sq]
      exact Nat.mul_le_mul_right _ (by omega)
    exact absurd ((spread_le_of_sharing_le_one hone).trans (hlevels.trans hsquare)) (by omega)
  · rw [nodes_object hobject, length_walks_eq_spread heven]

/-- A file around an object table with offsets and references of one octet. -/
def compact (objects : List Octets) : Octets :=
  header ++ objects.flatten ++ (offsetsFrom header.length objects).map UInt8.ofNat ++
    List.replicate 6 0 ++ [1, 1] ++ beBytes 8 objects.length ++ beBytes 8 0 ++
    beBytes 8 (header.length + objects.flatten.length)

/-- Arrays that each name the next object twice, and a leaf at the end. -/
def doubling (levels : ℕ) : List Octets :=
  (List.range levels).map (fun i => [0xA2, UInt8.ofNat (i + 1), UInt8.ofNat (i + 1)]) ++ [[0x08]]

/-- Eleven levels that name the next one twice are still within the square, twelve are not. -/
theorem nodes_le_square_doubled :
    (∃ v, decode (compact (doubling 11)) = some v ∧ nodes v ≤ (compact (doubling 11)).length ^ 2) ∧
    ∃ v, decode (compact (doubling 12)) = some v ∧
      ¬ nodes v ≤ (compact (doubling 12)).length ^ 2 := by
  have hsome : (decode (compact (doubling 11))).isSome ∧ (decode (compact (doubling 12))).isSome := by
    decide +kernel
  obtain ⟨v, hv⟩ := Option.isSome_iff_exists.mp hsome.1
  obtain ⟨v', hv'⟩ := Option.isSome_iff_exists.mp hsome.2
  have hwithin : (parseTrailer (compact (doubling 11))).any fun dec =>
      spread (children dec) 0 33 ≤ (compact (doubling 11)).length ^ 2 := by decide +kernel
  have hbeyond : (parseTrailer (compact (doubling 12))).any fun dec =>
      Evenly (children dec) 0 33 ∧
        (compact (doubling 12)).length ^ 2 < spread (children dec) 0 33 := by decide +kernel
  obtain ⟨dec, hdec, hle⟩ := (Option.any_eq_true _ _).mp hwithin
  obtain ⟨dec', hdec', hlt⟩ := (Option.any_eq_true _ _).mp hbeyond
  obtain ⟨heven, hlt⟩ := of_decide_eq_true hlt
  refine ⟨⟨v, hv, (nodes_le_square_of_sharing hdec hv).1 (of_decide_eq_true hle)⟩, v', hv', ?_⟩
  rw [(nodes_le_square_of_sharing hdec' hv').2.2 heven]
  exact Nat.not_le.mpr hlt

/-- 90 octets, 13 objects, 8191 nodes. -/
theorem nodes_exceed_square :
    ¬ ∀ d v, decode d = some v → nodes v ≤ d.length ^ 2 := by
  intro hall
  have hbomb : (decode (compact (doubling 12))).any
      (fun v => (compact (doubling 12)).length ^ 2 < nodes v) = true := by decide +kernel
  obtain ⟨v, hv, hlt⟩ := (Option.any_eq_true _ _).mp hbomb
  have hle := hall _ v hv
  simp only [decide_eq_true_eq] at hlt
  omega

/-! ## 3. The flag, from the root to the end -/

/-- What the walk over a file meets that matters to acceptance: an object that is refused as it
stands, a read that runs off the end, one that is left out because it would, and a container asking
for the flag. -/
inductive Mark
  | refused
  | cut
  | skipped
  | asks
  deriving DecidableEq

/-- The mark of a reference that is cut off. -/
def refMarks (dec : Decoder) (pos i : ℕ) : List Mark :=
  if (refAt dec pos i true).2 then [] else [.cut]

/-- The marks from an object on, in the order in which the decoder comes to them.  Whether it does
come to them is not asked here. -/
def trail (dec : Decoder) : ℕ → ℕ → List Mark
  | 0, _ => [.refused]
  | left + 1, ref =>
    let head := headAt dec ref
    let below := fun pos i => trail dec left (refAt dec pos i true).1
    (if head.cut then [.cut] else []) ++ (if head.short then [.skipped] else []) ++
      match head.shape with
      | .refused => [.refused]
      | .leaf _ => []
      | .arr pos cnt =>
        .asks :: (List.range' 0 cnt).flatMap fun i => refMarks dec pos i ++ below pos i
      | .dict pos cnt =>
        .asks :: (List.range' 0 cnt).flatMap fun i =>
          refMarks dec pos i ++ refMarks dec pos (cnt + i) ++ below pos i ++ below pos (cnt + i)

/-- The flag behind the marks, if they are gone through to the end. -/
def obey : Bool → List Mark → Option Bool
  | ok, [] => some ok
  | _, .refused :: _ => none
  | _, .cut :: ms => obey false ms
  | ok, .skipped :: ms => obey ok ms
  | ok, .asks :: ms => if ok then obey ok ms else none

theorem obey_append (ok : Bool) (xs ys : List Mark) :
    obey ok (xs ++ ys) = (obey ok xs).bind fun ok' => obey ok' ys := by
  fun_induction obey ok xs with
  | case1 => rfl
  | case2 => rfl
  | case3 _ _ ih => exact ih
  | case4 _ _ ih => exact ih
  | case5 _ ih => exact ih
  | case6 _ _ hok => simp [obey, hok]

theorem obey_refMarks (dec : Decoder) (pos i : ℕ) (ok : Bool) :
    obey ok (refMarks dec pos i) = some (ok && (refAt dec pos i true).2) := by
  unfold refMarks
  split
  · rename_i hwhole
    simp [obey, hwhole]
  · rename_i hcut
    simp [obey, hcut]

theorem objectsAt_obey {marks : ℕ → List Mark}
    (hchild : ∀ r ok, (child r ok).map Prod.snd = obey ok (marks r)) :
    (objectsAt dec child pos n i ok).map Prod.snd = obey ok ((List.range' i n).flatMap fun i =>
      refMarks dec pos i ++ marks (refAt dec pos i true).1) := by
  induction n generalizing i ok with
  | zero => rfl
  | succ n ih =>
    rw [objectsAt, refAt_flag, List.range'_succ, List.flatMap_cons, obey_append, obey_append,
      obey_refMarks, Option.bind_some, ← hchild]
    simp only [Option.bind_eq_bind]
    cases child (refAt dec pos i true).1 (ok && (refAt dec pos i true).2) with
    | none => rfl
    | some r =>
      rw [Option.bind_some, Option.map_some, Option.bind_some, ← ih]
      cases objectsAt dec child pos n (i + 1) r.2 with
      | none => rfl
      | some rest => rfl

theorem entriesAt_obey {cnt : ℕ} {marks : ℕ → List Mark}
    (hchild : ∀ r ok, (child r ok).map Prod.snd = obey ok (marks r)) :
    (entriesAt dec child pos cnt n i ok).map Prod.snd =
      obey ok ((List.range' i n).flatMap fun i =>
        refMarks dec pos i ++ refMarks dec pos (cnt + i) ++ marks (refAt dec pos i true).1 ++
          marks (refAt dec pos (cnt + i) true).1) := by
  induction n generalizing i ok with
  | zero => rfl
  | succ n ih =>
    rw [entriesAt, refAt_flag dec pos i, List.range'_succ, List.flatMap_cons, obey_append,
      obey_append, obey_append, obey_append, obey_refMarks, Option.bind_some, obey_refMarks,
      Option.bind_some, ← hchild]
    simp only [refAt_flag dec pos (cnt + i) (ok && _), Option.bind_eq_bind]
    cases child (refAt dec pos i true).1 _ with
    | none => rfl
    | some k =>
      rw [Option.bind_some, Option.map_some, Option.bind_some, ← hchild]
      cases child (refAt dec pos (cnt + i) true).1 k.2 with
      | none => rfl
      | some v =>
        rw [Option.bind_some, Option.map_some, Option.bind_some, ← ih]
        cases entriesAt dec child pos cnt n (i + 1) v.2 with
        | none => rfl
        | some rest => rfl

/-- **The decoder goes on as the marks say**, and comes to the flag they come to. -/
theorem object_obey (dec : Decoder) (left ref : ℕ) (ok : Bool) :
    (object dec left ref ok).map Prod.snd = obey ok (trail dec left ref) := by
  induction left generalizing ref ok with
  | zero => rfl
  | succ left ih =>
    rw [object_head, trail]
    have hfront : obey ok ((if (headAt dec ref).cut then [.cut] else []) ++
        (if (headAt dec ref).short then [.skipped] else [])) =
          some (ok && !(headAt dec ref).cut) := by
      cases (headAt dec ref).cut <;> cases (headAt dec ref).short <;> simp [obey]
    simp only
    rw [obey_append, hfront, Option.bind_some]
    cases hshape : (headAt dec ref).shape with
    | refused => rfl
    | leaf v => rfl
    | arr pos cnt =>
      simp only [obey]
      split
      · rename_i hok
        rw [hok, ← objectsAt_obey ih, Option.map_map]
        rfl
      · rfl
    | dict pos cnt =>
      simp only [obey]
      split
      · rename_i hok
        rw [hok, ← entriesAt_obey ih, Option.map_map]
        rfl
      · rfl

/-- The marks are gone through to the end unless there is a refusal, or a container asks for a flag
that is cleared already. -/
theorem obey_eq_none (ok : Bool) (ms : List Mark) : obey ok ms = none ↔
    .refused ∈ ms ∨ (ok = false ∧ .asks ∈ ms) ∨ [Mark.cut, .asks].Sublist ms := by
  induction ms generalizing ok with
  | nil => simp [obey]
  | cons m ms ih =>
    cases m with
    | refused => simp [obey]
    | cut =>
      rw [obey, ih, List.cons_sublist_cons, List.singleton_sublist]
      have hlate : [Mark.cut, .asks].Sublist ms → Mark.asks ∈ ms := fun h => h.subset (by simp)
      simp only [List.mem_cons, reduceCtorEq, false_or, true_and]
      tauto
    | skipped =>
      rw [obey, ih]
      simp [List.sublist_cons_iff]
    | asks =>
      cases ok with
      | false => simp [obey]
      | true =>
        rw [obey, if_pos rfl, ih]
        simp [List.sublist_cons_iff]

/-- The walk over a file from its root. -/
def marks (d : Octets) : List Mark :=
  match parseTrailer d with
  | none => []
  | some dec => trail dec 33 0

/-- Some object of a file needs an octet beyond its end. -/
def RunsOff (d : Octets) : Prop := .cut ∈ marks d ∨ .skipped ∈ marks d

theorem decode_eq_none (d : Octets) : decode d = none ↔
    parseTrailer d = none ∨ .refused ∈ marks d ∨ [Mark.cut, .asks].Sublist (marks d) := by
  unfold decode marks
  cases parseTrailer d with
  | none => simp
  | some dec =>
    have hnone := obey_eq_none true (trail dec 33 0)
    rw [← object_obey, Option.map_eq_none_iff] at hnone
    simp only [Option.bind_eq_bind, Option.bind_some, reduceCtorEq, false_or]
    rw [Option.bind_eq_none_iff]
    cases hobject : object dec 33 0 true with
    | none => simpa [hobject] using hnone
    | some r => simpa [hobject] using hnone

/-- **A file that runs off its end is refused exactly when the decoder comes to a refusal anyway, or
to a container behind the cut.**  An object that is cut is not a refusal by itself, and one that
leaves a read out is not even noticed. -/
theorem cut_refused_iff (d : Octets) : (RunsOff d → decode d = none) ↔
    ¬ RunsOff d ∨ .refused ∈ marks d ∨ [Mark.cut, .asks].Sublist (marks d) := by
  rw [decode_eq_none, imp_iff_not_or]
  constructor
  · rintro (hwhole | htrailer | hrefused)
    · exact .inl hwhole
    · left
      simp [RunsOff, marks, htrailer]
    · exact .inr hrefused
  · rintro (hwhole | hrefused)
    · exact .inl hwhole
    · exact .inr (.inr hrefused)

instance : Decidable (RunsOff d) := inferInstanceAs (Decidable (_ ∨ _))

/-- The root is an integer whose marker is the last octet of the file. -/
theorem cut_accepted : ¬ ∀ d, RunsOff d → decode d = none := by
  intro hall
  have hoff : RunsOff (header ++ List.replicate 8 0 ++ [48] ++ List.replicate 6 0 ++ [1, 1] ++
      beBytes 8 1 ++ beBytes 8 0 ++ beBytes 8 16) := by decide +kernel
  have hsome : (decode (header ++ List.replicate 8 0 ++ [48] ++ List.replicate 6 0 ++ [1, 1] ++
      beBytes 8 1 ++ beBytes 8 0 ++ beBytes 8 16)).isSome := by decide +kernel
  rw [hall _ hoff] at hsome
  cases hsome

end AirplaySender.Bplist
