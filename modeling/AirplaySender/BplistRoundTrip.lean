/-
# The bplist codec loses nothing

`decode (encode v) = some v` for every value tree the depth bound of the decoder admits and every
encoding that the 4-byte offsets can address (`decode_encode`).

The argument is about positions.  `add` only ever appends to the object table and fills the slots
it appended (`prefix_add`), so whatever is placed at an index by the walk over a subtree is what
the finished table holds there (`Agrees`).  The file puts object `i` at `offset T i`
(`at_object`), so the decoder started on the index of a subtree reads that subtree's own bytes:
marker and count (`readCount_marker`), references (`refAt_ref`), payload.  The induction is on the
value tree, with one statement for a value, one for an array's children and one for a dict's
entries.
-/
import AirplaySender.Bplist
import Mathlib.Tactic.IntervalCases

namespace AirplaySender.Bplist

open Octets

/-! ## 1. Reading integers and markers back -/

theorem mul_mod_shift (v a b : ℕ) : v * 2 ^ b % 2 ^ (a + b) = (v % 2 ^ a) <<< b := by
  rw [Nat.shiftLeft_eq, pow_add, Nat.mul_mod_mul_right]

theorem u64_add_lt (v : ℕ) {b : ℕ} (hb : b < 2 ^ 8) : u64 (v * 256) + b = u64 (v * 256 + b) := by
  unfold u64
  omega

/-- One round of `readBE` appends one octet to the number. -/
theorem u64_or (v : ℕ) (b : UInt8) : u64 (v * 256) ||| b.toNat = u64 (v * 256 + b.toNat) := by
  have hshift : u64 (v * 256) = (v % 2 ^ 56) <<< 8 := mul_mod_shift v 56 8
  calc u64 (v * 256) ||| b.toNat
      = u64 (v * 256) + b.toNat := by rw [hshift, Nat.shiftLeft_add_eq_or_of_lt b.toNat_lt]
    _ = u64 (v * 256 + b.toNat) := u64_add_lt v b.toNat_lt

theorem u64_of_lt {n : ℕ} (h : n < 2 ^ 64) : u64 n = n := Nat.mod_eq_of_lt h

theorem beVal_mod (acc : ℕ) (bs : Octets) : u64 (beVal (u64 acc) bs) = u64 (beVal acc bs) := by
  induction bs generalizing acc with
  | nil => simp [beVal, u64]
  | cons b bs ih =>
    have hstep : u64 (u64 acc * 256 + b.toNat) = u64 (acc * 256 + b.toNat) := by
      unfold u64
      omega
    simp only [beVal]
    rw [← ih (u64 acc * 256 + b.toNat), ← ih (acc * 256 + b.toNat), hstep]

theorem readLoop_at {d : Octets} :
    ∀ (bs : Octets) (pos v : ℕ), At d pos bs → v < 2 ^ 64 →
      readLoop d pos bs.length v = some (u64 (beVal v bs))
  | [], _, v, _, hv => by simp [readLoop, beVal, u64_of_lt hv]
  | b :: bs, pos, v, h, _ => by
    rw [List.length_cons, readLoop, h.head]
    simp only
    have hlt : u64 (v * 256 + b.toNat) < 2 ^ 64 := Nat.mod_lt _ (by norm_num)
    rw [u64_or, readLoop_at bs (pos + 1) _ h.tail hlt, beVal_mod]
    rfl

/-- **A big-endian integer of at most 8 octets is read back**, and the flag is kept. -/
theorem readBE_at {d : Octets} {pos n x : ℕ} (h : At d pos (beBytes n x)) (hx : x < 256 ^ n)
    (hn : n ≤ 8) (ok : Bool) : readBE d pos n ok = (x, ok) := by
  have hloop := readLoop_at (beBytes n x) pos 0 h (by norm_num)
  have hx64 : x < 2 ^ 64 := by
    have hpow : 256 ^ n ≤ 256 ^ 8 := Nat.pow_le_pow_right (by norm_num) hn
    have h8 : (256 : ℕ) ^ 8 = 2 ^ 64 := by norm_num
    omega
  rw [length_beBytes, beVal_beBytes_of_lt hx, u64_of_lt hx64] at hloop
  simp only [readBE, hloop]

theorem toNat_of_nonneg {v : Int64} (h : 0 ≤ v.toInt) : (v.toUInt64.toNat : ℤ) = v.toInt := by
  have hcond := v.toBitVec.toInt_eq_toNat_cond
  rw [Int64.toInt_toBitVec] at hcond
  have hlt := v.toBitVec.isLt
  have hsame : v.toUInt64.toNat = v.toBitVec.toNat := rfl
  rw [hsame]
  split at hcond <;> omega

/-- The four shapes of an encoded integer: width `2 ^ w`, in which the bit pattern fits. -/
theorem encodeInt_shape (v : Int64) : ∃ w, w < 4 ∧
    encodeInt v = UInt8.ofNat (0x10 + w) :: beBytes (1 <<< w) v.toUInt64.toNat ∧
    v.toUInt64.toNat < 256 ^ (1 <<< w) := by
  unfold encodeInt
  split_ifs with h1 h2 h3
  · have := toNat_of_nonneg h1.1
    exact ⟨0, by norm_num, rfl, by norm_num; omega⟩
  · have := toNat_of_nonneg h2.1
    have hfit : v.toUInt64.toNat < 256 ^ 2 := by norm_num; omega
    exact ⟨1, by norm_num, rfl, hfit⟩
  · have := toNat_of_nonneg h3.1
    have hfit : v.toUInt64.toNat < 256 ^ 4 := by norm_num; omega
    exact ⟨2, by norm_num, rfl, hfit⟩
  · have hlt : v.toUInt64.toNat < 2 ^ 64 := v.toUInt64.toNat_lt
    have hfit : v.toUInt64.toNat < 256 ^ 8 := by norm_num; omega
    exact ⟨3, by norm_num, rfl, hfit⟩

theorem toNat_ofNat_len {n : ℕ} (h : n < 2 ^ 32) : (Int64.ofNat n).toUInt64.toNat = n := by
  have hsame : (Int64.ofNat n).toUInt64 = UInt64.ofNat n := rfl
  rw [hsame, UInt64.toNat_ofNat']
  omega

/-- A marker octet splits into its two nibbles again. -/
theorem toNat_marker {hi lo : ℕ} (hhi : hi < 16) (hlo : lo < 16) :
    (UInt8.ofNat (hi * 16) ||| UInt8.ofNat lo).toNat = hi * 16 + lo := by
  have hall : ∀ hi < 16, ∀ lo < 16,
      (UInt8.ofNat (hi * 16) ||| UInt8.ofNat lo).toNat = hi * 16 + lo := by decide
  exact hall hi hhi lo hlo

theorem toNat_intMarker {w : ℕ} (hw : w < 4) : (UInt8.ofNat (0x10 + w)).toNat = 16 + w := by
  interval_cases w <;> rfl

/-- **A marker with a length is read back**: the kind in the high nibble, and `readCount` on the
low one gives the length and the position behind marker and length. -/
theorem readCount_marker {d : Octets} {start len : ℕ} (marker : UInt8) (hi : ℕ)
    (hmarker : marker = UInt8.ofNat (hi * 16)) (hhi : hi < 16) (hlen : len < 2 ^ 32)
    (h : At d start (encodeMarkerLen marker len)) :
    ∃ m, d[start]? = some m ∧ m.toNat / 16 = hi ∧ ∀ ok, readCount d (m.toNat % 16) (start + 1) ok
      = (len, start + (encodeMarkerLen marker len).length, ok) := by
  subst hmarker
  unfold encodeMarkerLen at h ⊢
  by_cases hshort : len < 15
  · rw [if_pos hshort] at h ⊢
    have hm := toNat_marker hhi (show len < 16 by omega)
    refine ⟨_, h.head, by rw [hm]; omega, fun ok => ?_⟩
    have hlo : (UInt8.ofNat (hi * 16) ||| UInt8.ofNat len).toNat % 16 = len := by rw [hm]; omega
    rw [hlo, readCount, if_pos (by omega)]
    rfl
  · rw [if_neg hshort] at h ⊢
    have hm : (UInt8.ofNat (hi * 16) ||| 0x0F).toNat = hi * 16 + 15 := toNat_marker hhi (by norm_num)
    refine ⟨_, h.head, by rw [hm]; omega, fun ok => ?_⟩
    obtain ⟨w, hw, hshape, hfit⟩ := encodeInt_shape (Int64.ofNat len)
    have hlo : (UInt8.ofNat (hi * 16) ||| 0x0F).toNat % 16 = 15 := by rw [hm]; omega
    have hint : At d (start + 1) (encodeInt (Int64.ofNat len)) := h.tail
    rw [hshape] at hint
    rw [toNat_ofNat_len hlen] at hint hfit
    have hwid : (UInt8.ofNat (0x10 + w)).toNat % 16 = w := by rw [toNat_intMarker hw]; omega
    have hn : 1 <<< w ≤ 8 := by interval_cases w <;> decide
    rw [hlo, readCount, if_neg (by norm_num), hint.head]
    simp only [hwid, readBE_at hint.tail hfit hn, hshape, List.length_cons, length_beBytes]
    congr 2
    omega

/-! ## 2. The encoder only appends -/

theorem put_snd (obj : Octets) (t : List Octets) : (put obj t).2 = t ++ [obj] := by
  simp [put]

/-- Filling the slot reserved behind `t` keeps `t`. -/
theorem prefix_set {t t' : List Octets} (obj : Octets) (h : t ++ [[]] <+: t') :
    t <+: t'.set t.length obj := by
  obtain ⟨rest, rfl⟩ := h
  refine ⟨obj :: rest, ?_⟩
  simp

mutual

/-- The table only grows, and the subtree's index is the old end of it. -/
theorem prefix_add : ∀ (v : Value) (t : List Octets), t <+: (add v t).2
  | .bool _, t => by rw [add, put_snd]; exact List.prefix_append _ _
  | .int _, t => by rw [add, put_snd]; exact List.prefix_append _ _
  | .real _, t => by rw [add, put_snd]; exact List.prefix_append _ _
  | .str _, t => by rw [add, put_snd]; exact List.prefix_append _ _
  | .data _, t => by rw [add, put_snd]; exact List.prefix_append _ _
  | .arr a, t => by rw [add]; exact prefix_set _ (prefix_addAll a _)
  | .dict d, t => by rw [add]; exact prefix_set _ (prefix_addPairs d _)

theorem prefix_addAll : ∀ (cs : List Value) (t : List Octets), t <+: (addAll cs t).2
  | [], t => by unfold addAll; exact List.prefix_rfl
  | c :: cs, t => by rw [addAll]; exact (prefix_add c t).trans (prefix_addAll cs _)

theorem prefix_addPairs : ∀ (es : List (Octets × Value)) (t : List Octets),
    t <+: (addPairs es t).2.2
  | [], t => by unfold addPairs; exact List.prefix_rfl
  | (k, v) :: es, t => by
    rw [addPairs]
    have hput : t <+: (put (encodeString k) t).2 := by rw [put_snd]; exact List.prefix_append _ _
    exact hput.trans ((prefix_add v _).trans (prefix_addPairs es _))

end

theorem put_fst (obj : Octets) (t : List Octets) : (put obj t).1 = t.length := rfl

theorem add_fst (v : Value) (t : List Octets) : (add v t).1 = t.length := by
  cases v <;> simp [add, put]

theorem length_addAll : ∀ (cs : List Value) (t : List Octets),
    (addAll cs t).1.length = cs.length
  | [], _ => by rw [addAll]; rfl
  | c :: cs, t => by rw [addAll]; simp [length_addAll cs]

theorem length_addPairs : ∀ (es : List (Octets × Value)) (t : List Octets),
    (addPairs es t).1.length = es.length ∧ (addPairs es t).2.1.length = es.length
  | [], _ => by rw [addPairs]; exact ⟨rfl, rfl⟩
  | (k, v) :: es, t => by
    rw [addPairs]
    have ih := length_addPairs es (add v (put (encodeString k) t).2).2
    exact ⟨by simp [ih.1], by simp [ih.2]⟩

/-! ## 3. The finished table agrees with every stage of its construction -/

/-- `T` holds, at the indices added between `t` and `t'`, what `t'` holds there. -/
def Agrees (t t' T : List Octets) : Prop :=
  ∀ i, t.length ≤ i → i < t'.length → T[i]? = t'[i]?

/-- Agreement over two stages gives agreement over the first. -/
theorem Agrees.first {t t₁ t₂ T : List Octets} (h : Agrees t t₂ T) (h₂ : t₁ <+: t₂) :
    Agrees t t₁ T := by
  intro i hi hlt
  rw [h i hi (lt_of_lt_of_le hlt h₂.length_le)]
  obtain ⟨rest, rfl⟩ := h₂
  exact List.getElem?_append_left hlt

/-- ... and over the second. -/
theorem Agrees.second {t t₁ t₂ T : List Octets} (h : Agrees t t₂ T) (h₁ : t <+: t₁) :
    Agrees t₁ t₂ T := fun i hi hlt => h i (h₁.length_le.trans hi) hlt

/-- The object a leaf puts into its slot. -/
theorem Agrees.put {obj : Octets} {t T : List Octets} (h : Agrees t (put obj t).2 T) :
    T[t.length]? = some obj := by
  rw [put_snd] at h
  have := h t.length le_rfl (by simp)
  simpa using this

/-- The object a container puts into its reserved slot. -/
theorem Agrees.slot {obj : Octets} {t t' T : List Octets} (h : Agrees t (t'.set t.length obj) T)
    (hpre : t ++ [[]] <+: t') : T[t.length]? = some obj := by
  have hlt : t.length < t'.length := by
    have := hpre.length_le
    simp at this
    omega
  rw [h t.length le_rfl (by simpa using hlt)]
  simp [hlt]

/-- Behind the reserved slot, a container's table is its children's. -/
theorem Agrees.children {obj : Octets} {t t' T : List Octets}
    (h : Agrees t (t'.set t.length obj) T) : Agrees (t ++ [[]]) t' T := by
  intro i hi hlt
  have hne : t.length ≠ i := by
    simp at hi
    omega
  rw [h i (by simp at hi; omega) (by simpa using hlt), List.getElem?_set_ne hne]

/-! ## 4. Where the file puts an object -/

/-- The byte offset of object `i`. -/
def offset (T : List Octets) (i : ℕ) : ℕ := header.length + (T.take i).flatten.length

theorem offsetsFrom_getElem? :
    ∀ (T : List Octets) (start i : ℕ), i < T.length →
      (offsetsFrom start T)[i]? = some (start + (T.take i).flatten.length)
  | [], _, i, h => by simp at h
  | o :: os, start, 0, _ => by simp [offsetsFrom]
  | o :: os, start, i + 1, h => by
    simp only [offsetsFrom, List.getElem?_cons_succ]
    rw [offsetsFrom_getElem? os _ i (by simpa using h)]
    simp
    omega

@[simp] theorem length_offsetsFrom : ∀ (T : List Octets) (start : ℕ),
    (offsetsFrom start T).length = T.length
  | [], _ => rfl
  | o :: os, start => by simp [offsetsFrom, length_offsetsFrom os]

theorem offset_le (T : List Octets) (i : ℕ) :
    offset T i ≤ header.length + T.flatten.length := by
  have hsplit : (T.take i).flatten ++ (T.drop i).flatten = T.flatten := by
    rw [← List.flatten_append, List.take_append_drop]
  rw [← hsplit, List.length_append]
  unfold offset
  omega

/-- Object `i` of the table stands at its offset. -/
theorem at_object {T : List Octets} {i : ℕ} {obj : Octets} (h : T[i]? = some obj) :
    At (assemble T) (offset T i) obj := by
  have hi : i < T.length := (List.getElem?_eq_some_iff.mp h).1
  have hsplit : T = T.take i ++ obj :: T.drop (i + 1) := by
    obtain ⟨hlt, hget⟩ := List.getElem?_eq_some_iff.mp h
    rw [← hget, ← List.drop_eq_getElem_cons hlt, List.take_append_drop]
  have hflat : T.flatten = (T.take i).flatten ++ (obj ++ (T.drop (i + 1)).flatten) := by
    conv_lhs => rw [hsplit]
    simp
  have hbody := At.middle header T.flatten
    ((offsetsFrom header.length T).flatMap (beBytes 4) ++
      trailer T.length (header.length + T.flatten.length))
  rw [← List.append_assoc, ← assemble, hflat] at hbody
  exact hbody.right.left

/-! ## 5. The trailer and the offset table are read back -/

theorem length_flatMap_beBytes (w : ℕ) (l : List ℕ) :
    (l.flatMap (beBytes w)).length = l.length * w := by
  induction l with
  | nil => simp
  | cons a l ih => simp [ih]; ring

@[simp] theorem length_trailer (n s : ℕ) : (trailer n s).length = 32 := by
  simp [trailer]

@[simp] theorem length_header : header.length = 8 := by decide

theorem length_assemble (T : List Octets) :
    (assemble T).length = 8 + T.flatten.length + T.length * 4 + 32 := by
  simp only [assemble, List.length_append, length_header, length_flatMap_beBytes,
    length_offsetsFrom, length_trailer]

/-- The `i`-th of a run of fixed-width integers stands `i * w` behind the first. -/
theorem at_flatMap {d : Octets} {pos w : ℕ} {l : List ℕ} (h : At d pos (l.flatMap (beBytes w)))
    {i x : ℕ} (hi : l[i]? = some x) : At d (pos + i * w) (beBytes w x) := by
  induction l generalizing pos i with
  | nil => simp at hi
  | cons a l ih =>
    rw [List.flatMap_cons] at h
    cases i with
    | zero =>
      have hax : a = x := by simpa using hi
      rw [← hax]
      simpa using h.left
    | succ i =>
      have htail := h.right
      rw [length_beBytes] at htail
      have := ih htail (i := i) (by simpa using hi)
      rw [show pos + (i + 1) * w = pos + w + i * w by ring]
      exact this

/-- The decoder of a file made by `assemble`. -/
def fileDecoder (T : List Octets) : Decoder :=
  { d := assemble T, refSize := 4, numObjects := T.length, offsets := offsetsFrom header.length T }

/-- **The trailer of an assembled file is accepted**, and gives the table's size and offsets. -/
theorem parseTrailer_assemble {T : List Octets} (hlen : (assemble T).length < 2 ^ 32) :
    parseTrailer (assemble T) = some (fileDecoder T) := by
  have hL := length_assemble T
  have hhead : (assemble T).take 8 = header := by
    simp [assemble, List.append_assoc, ← length_header]
  have htable : At (assemble T) (8 + T.flatten.length)
      ((offsetsFrom header.length T).flatMap (beBytes 4)) := by
    have := At.middle (header ++ T.flatten) ((offsetsFrom header.length T).flatMap (beBytes 4))
      (trailer T.length (header.length + T.flatten.length))
    rw [← assemble] at this
    simpa using this
  have htrailer : At (assemble T) ((assemble T).length - 32)
      (trailer T.length (8 + T.flatten.length)) := by
    have := At.middle (header ++ T.flatten ++ (offsetsFrom header.length T).flatMap (beBytes 4))
      (trailer T.length (header.length + T.flatten.length)) []
    rw [List.append_nil, ← assemble] at this
    rwa [show (header ++ T.flatten ++
      (offsetsFrom header.length T).flatMap (beBytes 4)).length = (assemble T).length - 32 by
        simp only [List.length_append, length_header, length_flatMap_beBytes, length_offsetsFrom]
        omega, length_header] at this
  set tr := (assemble T).length - 32 with htr
  unfold trailer at htrailer
  have hsizes := htrailer.left.left.left.right
  have hcount := htrailer.left.left.right
  have hstart := htrailer.right
  simp only [List.length_append, List.length_replicate, List.length_cons, List.length_nil,
    length_beBytes] at hsizes hcount hstart
  have hoffSize : (assemble T)[tr + 6]? = some 4 := hsizes.head
  have hrefSize : (assemble T)[tr + 7]? = some 4 := hsizes.tail.head
  have h64 : (256 : ℕ) ^ 8 = 2 ^ 64 := by norm_num
  have h32 : (256 : ℕ) ^ 4 = 2 ^ 32 := by norm_num
  have hnum : ∀ ok, readBE (assemble T) (tr + 8) 8 ok = (T.length, ok) :=
    readBE_at hcount (by omega) le_rfl
  have htab : ∀ ok, readBE (assemble T) (tr + 24) 8 ok = (8 + T.flatten.length, ok) :=
    readBE_at hstart (by omega) le_rfl
  have hreads : ((List.range T.length).map fun i =>
      readBE (assemble T) (u64 (8 + T.flatten.length + i * 4)) 4 true)
      = (offsetsFrom header.length T).map fun o => (o, true) := by
    apply List.ext_getElem?
    intro i
    by_cases hi : i < T.length
    · have hget := offsetsFrom_getElem? T header.length i hi
      have hat := at_flatMap htable hget
      have hbound : header.length + (T.take i).flatten.length < 256 ^ 4 := by
        have := offset_le T i
        unfold offset at this
        rw [length_header] at this ⊢
        omega
      simp only [List.getElem?_map, List.getElem?_range hi, Option.map_some, hget]
      rw [u64_of_lt (by omega), readBE_at hat hbound (by norm_num)]
    · rw [List.getElem?_eq_none (by simpa using hi), List.getElem?_eq_none (by simpa using hi)]
  unfold parseTrailer
  rw [if_neg (by omega), if_neg (by simpa using hhead)]
  simp only [hoffSize, hrefSize, Option.getD_some, hnum, htab, ← htr]
  have h4 : (4 : UInt8).toNat = 4 := rfl
  simp only [h4, hreads]
  rw [if_neg (by decide), if_neg (by decide), if_neg (by omega), if_neg (by omega),
    if_neg (by omega)]
  have hall' : ((offsetsFrom header.length T).map fun o => (o, true)).all Prod.snd = true := by
    simp
  rw [if_pos hall']
  simp [fileDecoder, Function.comp_def]

/-! ## 6. Every subtree is read back from its index -/

mutual

/-- The number of levels below a value; the keys of a dict stand one level below it, as the
values do. -/
def height : Value → ℕ
  | .arr a => heightAll a
  | .dict d => heightPairs d
  | _ => 0

def heightAll : List Value → ℕ
  | [] => 0
  | c :: cs => max (height c + 1) (heightAll cs)

def heightPairs : List (Octets × Value) → ℕ
  | [] => 0
  | (_, v) :: es => max (height v + 1) (heightPairs es)

end

/-- The header fields of the marker octet that `object` looks at. -/
theorem object_header {T : List Octets} {i : ℕ} {obj : Octets} (h : T[i]? = some obj) :
    ¬ (fileDecoder T).numObjects ≤ i ∧ (fileDecoder T).offsets[i]? = some (offset T i) ∧
      At (fileDecoder T).d (offset T i) obj := by
  have hi : i < T.length := (List.getElem?_eq_some_iff.mp h).1
  exact ⟨not_le.mpr hi, offsetsFrom_getElem? T header.length i hi, at_object h⟩

/-- A non-empty stage of the table that the finished table agrees with is no longer than it. -/
theorem Agrees.length_le {t t' T : List Octets} (h : Agrees t t' T) (hlt : t.length < t'.length) :
    t'.length ≤ T.length := by
  by_contra hgt
  have hlast := h (t'.length - 1) (by omega) (by omega)
  rw [List.getElem?_eq_none (by omega), List.getElem?_eq_getElem (by omega)] at hlast
  simp at hlast

theorem Agrees.index_lt {t t' T : List Octets} (h : Agrees t t' T) (hlt : t.length < t'.length) :
    t.length < T.length := lt_of_lt_of_le hlt (h.length_le hlt)

theorem length_lt_add (v : Value) (t : List Octets) : t.length < (add v t).2.length := by
  have hslot : t.length < (t ++ [([] : Octets)]).length := by simp
  cases v with
  | arr a =>
    rw [add, List.length_set]
    exact lt_of_lt_of_le hslot (prefix_addAll a _).length_le
  | dict d =>
    rw [add, List.length_set]
    exact lt_of_lt_of_le hslot (prefix_addPairs d _).length_le
  | _ => simp [add, put_snd]

theorem length_le_addAll : ∀ (cs : List Value) (t : List Octets),
    t.length + cs.length ≤ (addAll cs t).2.length
  | [], t => by rw [addAll]; simp
  | c :: cs, t => by
    have hc := length_lt_add c t
    have hcs := length_le_addAll cs (add c t).2
    rw [addAll]
    simp only [List.length_cons]
    omega

theorem length_le_addPairs : ∀ (es : List (Octets × Value)) (t : List Octets),
    t.length + es.length ≤ (addPairs es t).2.2.length
  | [], t => by rw [addPairs]; simp
  | (k, v) :: es, t => by
    have hkey : t.length < (put (encodeString k) t).2.length := by simp [put_snd]
    have hv := length_lt_add v (put (encodeString k) t).2
    have hes := length_le_addPairs es (add v (put (encodeString k) t).2).2
    have hlen : t.length + (es.length + 1) ≤
        (add v (put (encodeString k) t).2).2.length + es.length := by omega
    rw [addPairs]
    exact hlen.trans hes

/-- An integer object is read back as the integer. -/
theorem object_int {T : List Octets} {v : Int64} {i left : ℕ} (h : T[i]? = some (encodeInt v)) :
    object (fileDecoder T) (left + 1) i true = some (.int v, true) := by
  obtain ⟨hnum, hoff, hat⟩ := object_header h
  obtain ⟨w, hw, hshape, hfit⟩ := encodeInt_shape v
  rw [hshape] at hat
  have hmarker := toNat_intMarker hw
  have hkind : (UInt8.ofNat (0x10 + w)).toNat / 16 = 1 := by omega
  have hlow : (UInt8.ofNat (0x10 + w)).toNat % 16 = w := by omega
  have hn : 1 <<< w ≤ 8 := by interval_cases w <;> decide
  have hread := readBE_at hat.tail hfit hn true
  rw [object, if_neg hnum, hoff]
  simp only [hat.head, hkind, hlow, hread]
  simp

/-- A real object is read back with the same bits. -/
theorem object_real {T : List Octets} {bits : UInt64} {i left : ℕ}
    (h : T[i]? = some (0x23 :: beBytes 8 bits.toNat)) :
    object (fileDecoder T) (left + 1) i true = some (.real bits, true) := by
  obtain ⟨hnum, hoff, hat⟩ := object_header h
  have h64 : (256 : ℕ) ^ 8 = 2 ^ 64 := by norm_num
  have hfit : bits.toNat < 256 ^ 8 := h64 ▸ bits.toNat_lt
  have hread := readBE_at hat.tail hfit le_rfl true
  rw [object, if_neg hnum, hoff]
  have hkind : (0x23 : UInt8).toNat / 16 = 2 := rfl
  have hlow : (0x23 : UInt8).toNat % 16 = 3 := rfl
  have hn : 1 <<< 3 = 8 := rfl
  simp only [hat.head, hkind, hlow, hn, hread]
  simp

/-- A boolean object is read back as the boolean. -/
theorem object_bool {T : List Octets} {b : Bool} {i left : ℕ}
    (h : T[i]? = some [if b then 0x09 else 0x08]) :
    object (fileDecoder T) (left + 1) i true = some (.bool b, true) := by
  obtain ⟨hnum, hoff, hat⟩ := object_header h
  rw [object, if_neg hnum, hoff]
  simp only [hat.head]
  cases b <;> rfl

theorem length_refs (refs : List ℕ) : (refs.flatMap appendRef).length = refs.length * 4 :=
  length_flatMap_beBytes 4 refs

theorem next_ref {d rest : Octets} {pos i r : ℕ} (h : At d (pos + i * 4 + (appendRef r).length) rest) :
    At d (pos + (i + 1) * 4) rest := by
  rwa [appendRef, length_beBytes, show pos + i * 4 + 4 = pos + (i + 1) * 4 by ring] at h

section File

variable {T : List Octets} (hlen : (assemble T).length < 2 ^ 32)

/-- An object ends inside the file. -/
theorem object_end {i : ℕ} {obj : Octets} (h : T[i]? = some obj) :
    offset T i + obj.length ≤ (fileDecoder T).d.length := by
  have hoff := offset_le T i
  have hL := length_assemble T
  rw [length_header] at hoff
  exact (at_object h).length_le (by omega)

include hlen

theorem length_table : T.length < 2 ^ 32 := by
  have := length_assemble T
  omega

/-- **A reference is read back** from its place in a run of references. -/
theorem refAt_ref {pos i r : ℕ} {rest : Octets} (hr : r < T.length)
    (hat : At (assemble T) (pos + i * 4) (appendRef r ++ rest)) (ok : Bool) :
    refAt (fileDecoder T) pos i ok = (r, ok) := by
  have h32 : (256 : ℕ) ^ 4 = 2 ^ 32 := by norm_num
  have hT := length_table hlen
  have hpos : pos + i * 4 < (assemble T).length := hat.pos_lt (by simp [appendRef])
  have hread := readBE_at hat.left (by omega) (by norm_num) ok
  unfold refAt fileDecoder
  simp only
  rw [u64_of_lt (by omega), hread]

/-- A string object is read back as the string. -/
theorem object_str {s : Octets} {i : ℕ} (left : ℕ) (h : T[i]? = some (encodeString s)) :
    object (fileDecoder T) (left + 1) i true = some (.str s, true) := by
  obtain ⟨hnum, hoff, hat⟩ := object_header h
  have hend := object_end h
  have hfile : (fileDecoder T).d.length < 2 ^ 32 := hlen
  unfold encodeString at hat hend
  rw [List.length_append] at hend
  obtain ⟨m, hm, hkind, hcount⟩ :=
    readCount_marker 0x50 5 rfl (by norm_num) (by omega : s.length < 2 ^ 32) hat.left
  have hbytes := hat.right.take
  rw [object, if_neg hnum, hoff]
  simp only [hm, hkind, hcount]
  rw [u64_of_lt (by omega), if_neg (by omega), hbytes]

/-- A data object is read back as the data. -/
theorem object_data {s : Octets} {i left : ℕ}
    (h : T[i]? = some (encodeMarkerLen 0x40 s.length ++ s)) :
    object (fileDecoder T) (left + 1) i true = some (.data s, true) := by
  obtain ⟨hnum, hoff, hat⟩ := object_header h
  have hend := object_end h
  have hfile : (fileDecoder T).d.length < 2 ^ 32 := hlen
  rw [List.length_append] at hend
  obtain ⟨m, hm, hkind, hcount⟩ :=
    readCount_marker 0x40 4 rfl (by norm_num) (by omega : s.length < 2 ^ 32) hat.left
  have hbytes := hat.right.take
  rw [object, if_neg hnum, hoff]
  simp only [hm, hkind, hcount]
  rw [u64_of_lt (by omega), if_neg (by omega), hbytes]

/-- An array object is read back from its children. -/
theorem object_arr {refs : List ℕ} {a : List Value} {i left : ℕ}
    (h : T[i]? = some (encodeMarkerLen 0xA0 refs.length ++ refs.flatMap appendRef))
    (hle : refs.length ≤ T.length)
    (hall : objectsAt (fileDecoder T) (object (fileDecoder T) left)
      (offset T i + (encodeMarkerLen 0xA0 refs.length).length) refs.length 0 true
        = some (a, true)) :
    object (fileDecoder T) (left + 1) i true = some (.arr a, true) := by
  obtain ⟨hnum, hoff, hat⟩ := object_header h
  have hend := object_end h
  have hfile : (fileDecoder T).d.length < 2 ^ 32 := hlen
  have hsize : (fileDecoder T).refSize = 4 := rfl
  have hobjects : (fileDecoder T).numObjects = T.length := rfl
  rw [List.length_append, length_refs] at hend
  obtain ⟨m, hm, hkind, hread⟩ :=
    readCount_marker 0xA0 10 rfl (by norm_num)
      (by omega : refs.length < 2 ^ 32) hat.left
  rw [object, if_neg hnum, hoff]
  simp only [hm, hkind, hread, hsize]
  rw [u64_of_lt (by omega : refs.length * 4 < 2 ^ 64), u64_of_lt (by omega),
    if_neg (by simp; omega), hall]
  rfl

/-- A dict object is read back from its entries. -/
theorem object_dict {krefs vrefs : List ℕ} {d : List (Octets × Value)} {i left : ℕ}
    (hk : krefs.length = d.length) (hv : vrefs.length = d.length)
    (h : T[i]? = some
      (encodeMarkerLen 0xD0 d.length ++ krefs.flatMap appendRef ++ vrefs.flatMap appendRef))
    (hle : d.length ≤ T.length)
    (hall : entriesAt (fileDecoder T) (object (fileDecoder T) left)
      (offset T i + (encodeMarkerLen 0xD0 d.length).length) d.length d.length 0 true
        = some (d, true)) :
    object (fileDecoder T) (left + 1) i true = some (.dict d, true) := by
  obtain ⟨hnum, hoff, hat⟩ := object_header h
  have hend := object_end h
  have hfile : (fileDecoder T).d.length < 2 ^ 32 := hlen
  have hsize : (fileDecoder T).refSize = 4 := rfl
  have hobjects : (fileDecoder T).numObjects = T.length := rfl
  rw [List.length_append, List.length_append, length_refs, length_refs, hk, hv] at hend
  obtain ⟨m, hm, hkind, hread⟩ :=
    readCount_marker 0xD0 13 rfl (by norm_num)
      (by omega : d.length < 2 ^ 32) hat.left.left
  rw [object, if_neg hnum, hoff]
  simp only [hm, hkind, hread, hsize]
  rw [u64_of_lt (by omega : 2 * d.length * 4 < 2 ^ 64), u64_of_lt (by omega),
    if_neg (by simp; omega), hall]
  rfl

mutual

/-- **The decoder started on the index of a subtree returns the subtree.** -/
theorem object_add : ∀ (v : Value) (t : List Octets) (left : ℕ), Agrees t (add v t).2 T →
    height v ≤ left → object (fileDecoder T) (left + 1) t.length true = some (v, true)
  | .bool _, t, _, h, _ => object_bool (Agrees.put h)
  | .int _, t, _, h, _ => object_int (Agrees.put h)
  | .real _, t, _, h, _ => object_real (Agrees.put h)
  | .str _, t, _, h, _ => object_str hlen _ (Agrees.put h)
  | .data _, t, _, h, _ => object_data hlen (Agrees.put h)
  | .arr a, t, left, h, hleft => by
    have hsize := h.length_le (length_lt_add _ t)
    rw [add, List.length_set] at hsize
    rw [add] at h
    have hobj := h.slot (prefix_addAll a _)
    have hcount := length_addAll a (t ++ [[]])
    have hgrow : (t ++ [[]]).length + a.length ≤ T.length :=
      (length_le_addAll a (t ++ [[]])).trans hsize
    have hrefs := (object_header hobj).2.2.right
    refine object_arr hlen hobj (by omega) ?_
    rw [hcount] at hrefs ⊢
    exact objectsAt_addAll a _ left _ 0 h.children hleft hrefs
  | .dict d, t, left, h, hleft => by
    have hsize := h.length_le (length_lt_add _ t)
    rw [add, List.length_set] at hsize
    rw [add] at h
    have hobj := h.slot (prefix_addPairs d _)
    obtain ⟨hk, hv⟩ := length_addPairs d (t ++ [[]])
    have hgrow : (t ++ [[]]).length + d.length ≤ T.length :=
      (length_le_addPairs d (t ++ [[]])).trans hsize
    have hkrefs := (object_header hobj).2.2.left.right
    have hvrefs := (object_header hobj).2.2.right
    rw [List.length_append, length_refs, hk, ← Nat.add_assoc] at hvrefs
    refine object_dict hlen hk hv hobj (by omega) ?_
    exact entriesAt_addPairs d _ left _ d.length 0 h.children hleft hkrefs hvrefs

/-- The loop over an array's references returns the children. -/
theorem objectsAt_addAll : ∀ (cs : List Value) (t : List Octets) (left pos i : ℕ),
    Agrees t (addAll cs t).2 T → heightAll cs ≤ left →
    At (fileDecoder T).d (pos + i * 4) ((addAll cs t).1.flatMap appendRef) →
    objectsAt (fileDecoder T) (object (fileDecoder T) left) pos cs.length i true = some (cs, true)
  | [], _, _, _, _, _, _, _ => rfl
  | c :: cs, t, left, pos, i, h, hleft, hat => by
    rw [addAll] at h hat
    rw [heightAll] at hleft
    obtain ⟨below, rfl⟩ : ∃ below, left = below + 1 := ⟨left - 1, by omega⟩
    have hfirst := h.first (prefix_addAll cs (add c t).2)
    have hchild := object_add c t below hfirst (by omega)
    simp only [List.flatMap_cons, add_fst] at hat
    have href := refAt_ref hlen (hfirst.index_lt (length_lt_add c t)) hat true
    have hrest := objectsAt_addAll cs (add c t).2 (below + 1) pos (i + 1)
      (h.second (prefix_add c t)) (by omega) (next_ref hat.right)
    rw [List.length_cons, objectsAt, href]
    simp only [hchild, hrest, Option.bind_eq_bind, Option.bind_some, Option.pure_def]

/-- The loop over a dict's references returns the entries. -/
theorem entriesAt_addPairs : ∀ (es : List (Octets × Value)) (t : List Octets)
    (left pos cnt i : ℕ), Agrees t (addPairs es t).2.2 T → heightPairs es ≤ left →
    At (fileDecoder T).d (pos + i * 4) ((addPairs es t).1.flatMap appendRef) →
    At (fileDecoder T).d (pos + (cnt + i) * 4) ((addPairs es t).2.1.flatMap appendRef) →
    entriesAt (fileDecoder T) (object (fileDecoder T) left) pos cnt es.length i true
      = some (es, true)
  | [], _, _, _, _, _, _, _, _, _ => rfl
  | (k, v) :: es, t, left, pos, cnt, i, h, hleft, hkat, hvat => by
    rw [addPairs] at h hkat hvat
    rw [heightPairs] at hleft
    obtain ⟨below, rfl⟩ : ∃ below, left = below + 1 := ⟨left - 1, by omega⟩
    have hkey : t <+: (put (encodeString k) t).2 := put_snd _ t ▸ List.prefix_append _ _
    have hvalue := prefix_add v (put (encodeString k) t).2
    have hfirst := h.first (prefix_addPairs es _)
    have hkput : Agrees t (put (encodeString k) t).2 T := hfirst.first hvalue
    have hkobj := object_str hlen below hkput.put
    have hvput := hfirst.second hkey
    have hvobj := object_add v _ below hvput (by omega)
    simp only [List.flatMap_cons, add_fst, put_fst] at hkat hvat
    have hkref := refAt_ref hlen (hkput.index_lt (by simp [put_snd])) hkat true
    have hvref := refAt_ref hlen (hvput.index_lt (length_lt_add v _)) hvat true
    have hrest := entriesAt_addPairs es _ (below + 1) pos cnt (i + 1)
      (h.second (hkey.trans hvalue)) (by omega) (next_ref hkat.right) (next_ref hvat.right)
    rw [List.length_cons, entriesAt, hkref]
    simp only [hvref, hkobj, hvobj, hrest, Option.bind_eq_bind, Option.bind_some, Option.pure_def,
      Value.asStr]

end

end File

/-! ## 7. How long an encoding is -/

mutual

/-- What a value adds to the file at most: its octets, and four for each entry of the offset
table. -/
def weight : Value → ℕ
  | .bool _ => 5
  | .int _ => 13
  | .real _ => 13
  | .str s => 14 + s.length
  | .data d => 14 + d.length
  | .arr a => 14 + weightAll a
  | .dict d => 14 + weightPairs d

def weightAll : List Value → ℕ
  | [] => 0
  | c :: cs => 4 + weight c + weightAll cs

def weightPairs : List (Octets × Value) → ℕ
  | [] => 0
  | (k, v) :: es => 8 + (14 + k.length) + weight v + weightPairs es

end

/-- The octets of a table and of its offsets. -/
def room (t : List Octets) : ℕ := t.flatten.length + t.length * 4

theorem length_encodeInt_le (v : Int64) : (encodeInt v).length ≤ 9 := by
  unfold encodeInt
  split_ifs <;> simp

theorem length_encodeMarkerLen_le (marker : UInt8) (len : ℕ) :
    (encodeMarkerLen marker len).length ≤ 10 := by
  have hint := length_encodeInt_le (Int64.ofNat len)
  unfold encodeMarkerLen
  split_ifs
  · simp
  · simp
    omega

theorem room_put (obj : Octets) (t : List Octets) : room (put obj t).2 = room t + (obj.length + 4) := by
  rw [put_snd]
  simp [room]
  ring

theorem room_set_le : ∀ (t : List Octets) (i : ℕ) (obj : Octets),
    room (t.set i obj) ≤ room t + obj.length
  | [], _, _ => by simp [room]
  | o :: t, 0, obj => by simp [room]; omega
  | o :: t, i + 1, obj => by
    have ih := room_set_le t i obj
    simp only [room, List.set_cons_succ, List.flatten_cons, List.length_append, List.length_cons]
      at ih ⊢
    omega

theorem room_slot (t : List Octets) : room (t ++ [[]]) = room t + 4 := by
  simp [room]
  ring

mutual

/-- **The table grows by no more than the weight of what is added.** -/
theorem room_add_le : ∀ (v : Value) (t : List Octets), room (add v t).2 ≤ room t + weight v
  | .bool b, t => by rw [add, room_put, weight]; simp
  | .int i, t => by
    have hint := length_encodeInt_le i
    rw [add, room_put, weight]
    omega
  | .real bits, t => by rw [add, room_put, weight]; simp
  | .str s, t => by
    have hmark := length_encodeMarkerLen_le 0x50 s.length
    rw [add, room_put, weight, encodeString, List.length_append]
    omega
  | .data d, t => by
    have hmark := length_encodeMarkerLen_le 0x40 d.length
    rw [add, room_put, weight, List.length_append]
    omega
  | .arr a, t => by
    have hmark := length_encodeMarkerLen_le 0xA0 a.length
    have hset := room_set_le (addAll a (t ++ [[]])).2 t.length
      (encodeMarkerLen 0xA0 a.length ++ (addAll a (t ++ [[]])).1.flatMap appendRef)
    have hall := room_addAll_le a (t ++ [[]])
    rw [List.length_append, length_refs, length_addAll] at hset
    rw [room_slot] at hall
    rw [add, weight]
    dsimp only
    rw [length_addAll]
    omega
  | .dict d, t => by
    have hmark := length_encodeMarkerLen_le 0xD0 d.length
    have hset := room_set_le (addPairs d (t ++ [[]])).2.2 t.length
      (encodeMarkerLen 0xD0 d.length ++ (addPairs d (t ++ [[]])).1.flatMap appendRef ++
        (addPairs d (t ++ [[]])).2.1.flatMap appendRef)
    have hall := room_addPairs_le d (t ++ [[]])
    obtain ⟨hk, hv⟩ := length_addPairs d (t ++ [[]])
    rw [List.length_append, List.length_append, length_refs, length_refs, hk, hv] at hset
    rw [room_slot] at hall
    rw [add, weight]
    refine hset.trans ?_
    omega

theorem room_addAll_le : ∀ (cs : List Value) (t : List Octets),
    room (addAll cs t).2 + cs.length * 4 ≤ room t + weightAll cs
  | [], t => by rw [addAll, weightAll]; simp
  | c :: cs, t => by
    have hc := room_add_le c t
    have hcs := room_addAll_le cs (add c t).2
    rw [addAll, weightAll, List.length_cons]
    dsimp only
    omega

theorem room_addPairs_le : ∀ (es : List (Octets × Value)) (t : List Octets),
    room (addPairs es t).2.2 + es.length * 8 ≤ room t + weightPairs es
  | [], t => by rw [addPairs, weightPairs]; simp
  | (k, v) :: es, t => by
    have hmark := length_encodeMarkerLen_le 0x50 k.length
    have hkey := room_put (encodeString k) t
    have hv := room_add_le v (put (encodeString k) t).2
    have hes := room_addPairs_le es (add v (put (encodeString k) t).2).2
    have hstring : (encodeString k).length = (encodeMarkerLen 0x50 k.length).length + k.length :=
      List.length_append
    rw [addPairs, weightPairs, List.length_cons]
    show room (addPairs es (add v (put (encodeString k) t).2).2).2.2 + _ ≤ _
    omega

end

/-- **An encoding is no longer than its tree weighs**, behind header and trailer. -/
theorem length_encode_le (v : Value) : (encode v).length ≤ 40 + weight v := by
  have hroom := room_add_le v []
  have hempty : room [] = 0 := rfl
  unfold room at hroom hempty
  rw [encode, length_assemble]
  omega

/-! ## 8. The round trip -/

/-- The root of a file is read back. -/
theorem object_root {v : Value} (hheight : height v ≤ 32)
    (hlen : (assemble (add v []).2).length < 2 ^ 32) :
    object (fileDecoder (add v []).2) 33 0 true = some (v, true) :=
  object_add hlen v [] 32 (fun _ _ _ => rfl) hheight

/-- **Decoding an encoding gives back the value**: every value tree of height at most 32 whose
encoding is shorter than `2 ^ 32` octets. -/
theorem decode_encode (v : Value) (hheight : height v ≤ 32) (hlen : (encode v).length < 2 ^ 32) :
    decode (encode v) = some v := by
  unfold decode
  rw [encode, parseTrailer_assemble hlen]
  simp only [Option.bind_eq_bind, Option.bind_some, object_root hheight hlen]
  rfl

/-- The hypotheses are met by a tree with every kind of node in it. -/
theorem decode_encode_sample :
    decode (encode (.dict [(ascii "a", .arr [.int (-1), .bool true]), (ascii "a", .real 7)]))
      = some (.dict [(ascii "a", .arr [.int (-1), .bool true]), (ascii "a", .real 7)]) :=
  decode_encode _ (by decide) (by decide)

end AirplaySender.Bplist
