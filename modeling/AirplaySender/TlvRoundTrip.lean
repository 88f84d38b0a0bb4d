/-
# The TLV8 round trip

The writer cuts a value into chunks of 255 and the reader joins what has the same tag as the item
before it, so a map comes back with its neighbours of equal tag merged (`mergeRuns`), and a map
without such neighbours comes back as it was.  What the reader leaves never has such neighbours,
whatever it was given.

Both directions go through `joinAll`: reading the items of a map is joining them one after the other
onto what was read before (`read_encode`), however many chunks each of them took.
-/
import AirplaySender.Tlv
import Mathlib.Data.List.SplitBy

namespace AirplaySender.Tlv

/-! ## 1. Merging neighbours -/

/-- No two neighbours have the same tag. -/
def Separated (m : Map) : Prop := m.IsChain fun a b => a.1 ≠ b.1

/-- A run of items of one tag as one item. -/
def mergeRun (run : Map) : UInt8 × Octets := ((run.head?.map Prod.fst).getD 0, run.flatMap Prod.snd)

/-- Every maximal run of neighbours of equal tag as one item, with the concatenated value. -/
def mergeRuns (m : Map) : Map := (m.splitBy fun a b => a.1 == b.1).map mergeRun

/-- Join the items of a map onto another, one after the other. -/
def joinAll (out items : Map) : Map := items.foldl (fun out e => join out e.1 e.2) out

variable {out m run : Map} {tag t : UInt8} {v chunk : Octets}

theorem join_concat_same : join (out ++ [(tag, v)]) tag chunk = out ++ [(tag, v ++ chunk)] := by
  simp [join]

theorem join_concat_ne (h : t ≠ tag) :
    join (out ++ [(t, v)]) tag chunk = out ++ [(t, v)] ++ [(tag, chunk)] := by
  simp [join, h]

/-- The last item has another tag. -/
def EndsOff (out : Map) (tag : UInt8) : Prop := ∀ e ∈ out.getLast?, e.1 ≠ tag

theorem join_off (h : EndsOff out tag) : join out tag chunk = out ++ [(tag, chunk)] := by
  rcases List.eq_nil_or_concat out with rfl | ⟨before, ⟨t, v⟩, rfl⟩
  · rfl
  · rw [List.concat_eq_append] at h ⊢
    exact join_concat_ne (h (t, v) (by simp))

/-- What was joined last can be told from its value only. -/
theorem join_last (out : Map) (tag : UInt8) (chunk : Octets) :
    ∃ before v, join out tag chunk = before ++ [(tag, v ++ chunk)] ∧
      ∀ more, join out tag more = before ++ [(tag, v ++ more)] := by
  rcases List.eq_nil_or_concat out with rfl | ⟨before, ⟨t, v⟩, rfl⟩
  · exact ⟨[], [], rfl, fun _ => rfl⟩
  rw [List.concat_eq_append]
  by_cases ht : t = tag
  · subst ht
    exact ⟨before, v, join_concat_same, fun _ => join_concat_same⟩
  · exact ⟨before ++ [(t, v)], [], join_concat_ne ht, fun _ => join_concat_ne ht⟩

/-- **Chunks join**: two of one tag are one. -/
theorem join_join (out : Map) (tag : UInt8) (chunk more : Octets) :
    join (join out tag chunk) tag more = join out tag (chunk ++ more) := by
  obtain ⟨before, v, hjoin, hall⟩ := join_last out tag chunk
  rw [hjoin, hall, join_concat_same, List.append_assoc]

theorem separated_join (h : Separated out) : Separated (join out tag chunk) := by
  rcases List.eq_nil_or_concat out with rfl | ⟨before, ⟨t, v⟩, rfl⟩
  · exact List.isChain_singleton _
  rw [List.concat_eq_append] at h ⊢
  unfold Separated at h ⊢
  by_cases ht : t = tag
  · subst ht
    rw [join_concat_same]
    rw [List.isChain_append] at h ⊢
    obtain ⟨hbefore, -, hlast⟩ := h
    refine ⟨hbefore, List.isChain_singleton _, ?_⟩
    intro e he e' he'
    obtain rfl : e' = (t, v ++ chunk) := by simpa using he'.symm
    exact hlast e he (t, v) rfl
  · rw [join_concat_ne ht, List.isChain_append]
    refine ⟨h, List.isChain_singleton _, ?_⟩
    intro e he e' he'
    obtain rfl : e = (t, v) := by simpa using he.symm
    obtain rfl : e' = (tag, chunk) := by simpa using he'.symm
    exact ht

/-- Items that are separated are joined by appending them. -/
theorem joinAll_separated : ∀ (out m : Map), Separated (out ++ m) → joinAll out m = out ++ m
  | out, [], _ => by simp [joinAll]
  | out, (tag, v) :: m, h => by
    have hoff : EndsOff out tag := by
      intro e he
      exact (List.isChain_append.mp h).2.2 e he (tag, v) rfl
    have hrest : Separated ((out ++ [(tag, v)]) ++ m) := by simpa using h
    have ih := joinAll_separated (out ++ [(tag, v)]) m hrest
    rw [joinAll, List.foldl_cons, join_off hoff, ← joinAll, ih]
    simp

/-- A run behind an item of its tag. -/
theorem joinAll_same (out : Map) (tag : UInt8) :
    ∀ (v : Octets) (run : Map), (∀ e ∈ run, e.1 = tag) →
      joinAll (out ++ [(tag, v)]) run = out ++ [(tag, v ++ run.flatMap Prod.snd)]
  | v, [], _ => by simp [joinAll]
  | v, (t, w) :: run, h => by
    obtain rfl : t = tag := h (t, w) List.mem_cons_self
    have ih := joinAll_same out t (v ++ w) run fun e he => h e (List.mem_cons_of_mem _ he)
    rw [joinAll, List.foldl_cons, join_concat_same, ← joinAll, ih]
    simp

/-- A run of one tag becomes one item. -/
theorem joinAll_run (hne : run ≠ []) (hrun : ∀ e ∈ run, e.1 = tag) (h : EndsOff out tag) :
    joinAll out run = out ++ [mergeRun run] := by
  cases run with
  | nil => exact absurd rfl hne
  | cons e run =>
    obtain ⟨t, v⟩ := e
    obtain rfl : t = tag := hrun (t, v) List.mem_cons_self
    rw [joinAll, List.foldl_cons, join_off h, ← joinAll]
    rw [joinAll_same out t v run fun e he => hrun e (List.mem_cons_of_mem _ he)]
    simp [mergeRun]

/-- A run of `splitBy` has one tag. -/
theorem tag_of_run {e : UInt8 × Octets} (h : run.IsChain fun a b => (a.1 == b.1) = true)
    (he : e ∈ run) : e.1 = (mergeRun run).1 := by
  cases run with
  | nil => cases he
  | cons a run =>
    have hall : ∀ b ∈ run, a.1 = b.1 := by
      have htrans : IsTrans (UInt8 × Octets) fun a b => a.1 = b.1 := ⟨fun _ _ _ => Eq.trans⟩
      have hchain : (a :: run).IsChain fun a b => a.1 = b.1 := h.imp fun _ _ => eq_of_beq
      exact (List.pairwise_cons.mp hchain.pairwise).1
    rcases List.mem_cons.mp he with rfl | he
    · rfl
    · exact (hall e he).symm

/-- Joining run by run. -/
theorem joinAll_runs : ∀ (out : Map) (runs : List Map), [] ∉ runs →
    (∀ run ∈ runs, run.IsChain fun a b => (a.1 == b.1) = true) →
    (runs.IsChain fun a b => ∃ ha hb, ((a.getLast ha).1 == (b.head hb).1) = false) →
    (∀ run ∈ runs.head?, EndsOff out (mergeRun run).1) →
    joinAll out runs.flatten = out ++ runs.map mergeRun
  | out, [], _, _, _, _ => by simp [joinAll]
  | out, run :: runs, hnil, hruns, hchain, hout => by
    have hne : run ≠ [] := fun h => hnil (h ▸ List.mem_cons_self)
    have hone : joinAll out run = out ++ [mergeRun run] :=
      joinAll_run hne (fun e he => tag_of_run (hruns run List.mem_cons_self) he) (hout run rfl)
    have hnext : ∀ r ∈ runs.head?, EndsOff (out ++ [mergeRun run]) (mergeRun r).1 := by
      intro r hr e he
      obtain rfl : e = mergeRun run := by simpa using he.symm
      have hmem : r ∈ runs := List.mem_of_mem_head? hr
      obtain ⟨ha, hb, hdiff⟩ := (List.isChain_cons.mp hchain).1 r hr
      rw [← tag_of_run (hruns run List.mem_cons_self) (List.getLast_mem ha),
        ← tag_of_run (hruns r (List.mem_cons_of_mem _ hmem)) (List.head_mem hb)]
      exact ne_of_beq_false hdiff
    have ih := joinAll_runs (out ++ [mergeRun run]) runs
      (fun h => hnil (List.mem_cons_of_mem _ h)) (fun r hr => hruns r (List.mem_cons_of_mem _ hr))
      hchain.tail hnext
    rw [List.flatten_cons, joinAll, List.foldl_append, ← joinAll, ← joinAll, hone, ih]
    simp

/-- **Joining the items of a map is merging its runs.** -/
theorem joinAll_nil (m : Map) : joinAll [] m = mergeRuns m := by
  have hruns := joinAll_runs [] (m.splitBy fun a b => a.1 == b.1) (List.nil_notMem_splitBy _ m)
    (fun run hrun => List.isChain_of_mem_splitBy hrun)
    (List.isChain_getLast_head_splitBy (fun a b => a.1 == b.1) m) (by simp [EndsOff])
  rw [List.flatten_splitBy] at hruns
  simpa [mergeRuns] using hruns

theorem mergeRuns_separated (h : Separated m) : mergeRuns m = m := by
  rw [← joinAll_nil]
  exact joinAll_separated [] m h

/-! ## 2. Reading -/

/-- The decode loop with all the rounds it can take. -/
def read (out : Map) (data : Octets) : Map := decodeLoop data.length out data

theorem decodeLoop_nil (fuel : ℕ) (out : Map) : decodeLoop fuel out [] = out := by
  cases fuel <;> rfl

/-- Rounds that are left over do nothing. -/
theorem decodeLoop_eq_read : ∀ (fuel : ℕ) (out : Map) (data : Octets), data.length ≤ fuel →
    decodeLoop fuel out data = read out data := by
  have hsteps : ∀ (n fuel₁ fuel₂ : ℕ) (out : Map) (data : Octets), data.length ≤ n →
      data.length ≤ fuel₁ → data.length ≤ fuel₂ →
      decodeLoop fuel₁ out data = decodeLoop fuel₂ out data := by
    intro n
    induction n with
    | zero =>
      intro fuel₁ fuel₂ out data hn _ _
      obtain rfl := List.eq_nil_of_length_eq_zero (Nat.le_zero.mp hn)
      rw [decodeLoop_nil, decodeLoop_nil]
    | succ n ih =>
      intro fuel₁ fuel₂ out data hn h₁ h₂
      match data, fuel₁, fuel₂ with
      | [], _, _ => rw [decodeLoop_nil, decodeLoop_nil]
      | [_], _ + 1, _ + 1 => rfl
      | tag :: len :: rest, fuel₁ + 1, fuel₂ + 1 =>
        simp only [List.length_cons] at hn h₁ h₂
        have hdrop : (rest.drop len.toNat).length ≤ rest.length := by simp
        rw [decodeLoop, decodeLoop, ih fuel₁ fuel₂ _ _ (by omega) (by omega) (by omega)]
  intro fuel out data h
  exact hsteps data.length fuel data.length out data le_rfl h le_rfl

theorem read_cons (tag len : UInt8) (rest : Octets) :
    read out (tag :: len :: rest) =
      if rest.length < len.toNat then out
      else read (join out tag (rest.take len.toNat)) (rest.drop len.toNat) := by
  rw [read, List.length_cons, decodeLoop]
  split
  · rfl
  · refine decodeLoop_eq_read _ _ _ ?_
    simp only [List.length_drop, List.length_cons]
    omega

/-- One chunk. -/
theorem read_chunk (rest : Octets) (h : chunk.length ≤ 255) :
    read out (tag :: UInt8.ofNat chunk.length :: (chunk ++ rest)) = read (join out tag chunk) rest := by
  have hlen : (UInt8.ofNat chunk.length).toNat = chunk.length := by
    rw [UInt8.toNat_ofNat']
    omega
  rw [read_cons, hlen, if_neg (by simp), List.take_left, List.drop_left]

/-- **All chunks of an item**, as many as the value takes. -/
theorem read_encodeItem (tag : UInt8) (rest : Octets) :
    ∀ (fuel : ℕ) (value : Octets) (out : Map), value.length < fuel →
      read out (encodeItem tag fuel value ++ rest) = read (join out tag value) rest
  | 0, _, _, h => absurd h (Nat.not_lt_zero _)
  | fuel + 1, value, out, h => by
    have hchunk : (value.take 255).length ≤ 255 := by simp
    by_cases hrest : value.drop 255 = []
    · have hvalue : value.take 255 = value := List.take_of_length_le (List.drop_eq_nil_iff.mp hrest)
      rw [encodeItem]
      simp only [hrest, if_true, List.append_nil, List.cons_append]
      rw [read_chunk rest hchunk, hvalue]
    · have hlt : (value.drop 255).length < fuel := by
        have hpos : 255 < value.length := by
          by_contra hle
          exact hrest (List.drop_eq_nil_of_le (by omega))
        rw [List.length_drop]
        omega
      have ih := read_encodeItem tag rest fuel (value.drop 255) (join out tag (value.take 255)) hlt
      rw [encodeItem]
      simp only [hrest, if_false, List.cons_append, List.append_assoc]
      rw [read_chunk _ hchunk, ih, join_join, List.take_append_drop]

/-- The items of a map are joined one after the other. -/
theorem read_encode : ∀ (m out : Map), read out (encode m) = joinAll out m
  | [], _ => rfl
  | (tag, value) :: m, out => by
    have hitem := read_encodeItem tag (encode m) (value.length + 1) value out (Nat.lt_succ_self _)
    have hcons : encode ((tag, value) :: m) = encodeItem tag (value.length + 1) value ++ encode m :=
      rfl
    rw [hcons, hitem, read_encode m]
    rfl

/-- Whatever is read, neighbours keep different tags. -/
theorem separated_decodeLoop : ∀ (fuel : ℕ) (out : Map) (data : Octets), Separated out →
    Separated (decodeLoop fuel out data)
  | 0, _, _, h => h
  | _ + 1, _, [], h => h
  | _ + 1, _, [_], h => h
  | fuel + 1, out, tag :: len :: rest, h => by
    rw [decodeLoop]
    split
    · exact h
    · exact separated_decodeLoop fuel _ _ (separated_join h)

theorem separated_decode (b : Octets) : Separated (decode b) :=
  separated_decodeLoop b.length [] b List.isChain_nil

/-- Reading back what was written merges the runs. -/
theorem decode_encoded (m : Map) : decode (encode m) = mergeRuns m := by
  rw [← joinAll_nil]
  exact read_encode m []

/-- **TLV8 round trip**: a map comes back with every run of neighbours of equal tag merged, hence as
it was where there are none; and whatever octets are read, neighbours in the result have different
tags, so that writing and reading it once more changes nothing. -/
theorem round_trip :
    (∀ m : Map, decode (encode m) = mergeRuns m ∧ (Separated m → decode (encode m) = m)) ∧
      ∀ b : Octets, Separated (decode b) ∧ decode (encode (decode b)) = decode b := by
  have hself : ∀ m : Map, Separated m → decode (encode m) = m := by
    intro m h
    rw [decode_encoded, mergeRuns_separated h]
  refine ⟨fun m => ⟨decode_encoded m, hself m⟩, fun b => ?_⟩
  exact ⟨separated_decode b, hself _ (separated_decode b)⟩

/-- Values of 0, 255 and 510 octets. -/
theorem round_trip_sample :
    decode (encode [(1, []), (2, List.replicate 255 7), (3, List.replicate 510 8)]) =
      [(1, []), (2, List.replicate 255 7), (3, List.replicate 510 8)] := by
  have h12 : (1 : UInt8) ≠ 2 := by decide
  have h23 : (2 : UInt8) ≠ 3 := by decide
  exact (round_trip.1 _).2 (.cons_cons h12 (.cons_cons h23 (.singleton _)))

end AirplaySender.Tlv
