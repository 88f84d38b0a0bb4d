/-
# Every access the bplist decoder makes

The decoder reads files a receiver sends, so what matters is not only the value it returns but also
where it reads, what it copies, how much it allocates and whether the sums its guards compare can
wrap.  `Traced.decode` is the decoder once more, statement by statement, with every such access
written down when it is made.  `Follows` says of a piece of it that it returns what the decoder's
own function returns and makes only accesses that are in order; the whole follows `Bplist.decode`
on every file shorter than 2^59 octets (`decode_inside`).

A position is never far from the file: an object starts inside it, and a count moves the position
by at most 2^15.  All sums stay near the length of the file, and the products are bounded by the
object count, which `parseTrailer` has bounded by the length before it multiplies.
-/
import AirplaySender.Lib.Prog
import AirplaySender.BplistGraph
import AirplaySender.BplistRoundTrip

namespace AirplaySender.Bplist.Traced

open Octets

/-! ## 1. The decoder with its accesses -/

/-- What the decoder does that could go wrong: `d[pos]`, a copy of `d[start, stop)`, an entry of a
table of `n`, an allocation, a 64-bit sum or product. -/
inductive Access
  | read (pos : ℕ)
  | slice (start stop : ℕ)
  | entry (i n : ℕ)
  | resize (n : ℕ)
  | add (a b : ℕ)
  | mul (a b : ℕ)
  deriving DecidableEq

/-- In order for an input of `size` octets. -/
def Access.Inside (size : ℕ) : Access → Prop
  | .read pos => pos < size
  | .slice start stop => start ≤ stop ∧ stop ≤ size
  | .entry i n => i < n
  | .resize n => n ≤ size
  | .add a b => a + b < 2 ^ 64
  | .mul a b => a * b < 2 ^ 64

/-- The flag, and the accesses so far, the latest first. -/
structure Run where
  ok : Bool
  acts : List Access

/-- A piece of the decoder; its exception is `return std::nullopt`. -/
abbrev Decoding := Prog Run Unit

def note (a : Access) : Decoding Unit := Prog.modify fun t => { t with acts := a :: t.acts }

def clear : Decoding Unit := Prog.modify fun t => { t with ok := false }

/-- `ok`. -/
def flag : Decoding Bool := do return (← Prog.get).ok

def refuse {α : Type} : Decoding α := Prog.raise ()

def add (a b : ℕ) : Decoding ℕ := do
  note (.add a b)
  return u64 (a + b)

def mul (a b : ℕ) : Decoding ℕ := do
  note (.mul a b)
  return u64 (a * b)

/-- `d[pos]`. -/
def byteAt (d : Octets) (pos : ℕ) : Decoding UInt8 := do
  note (.read pos)
  return (d[pos]?).getD 0

/-- The loop of `Decoder::readBE`, at its round `i`. -/
def readLoop (d : Octets) (pos : ℕ) : ℕ → ℕ → ℕ → Decoding ℕ
  | 0, _, v => pure v
  | n + 1, i, v => do
    let at' ← add pos i
    if d.length ≤ at' then do
      clear
      return 0
    else do
      let b ← byteAt d at'
      readLoop d pos n (i + 1) (u64 (v * 256) ||| b.toNat)

/-- `Decoder::readBE`. -/
def readBE (d : Octets) (pos n : ℕ) : Decoding ℕ := readLoop d pos n 0 0

/-- The loop that fills `offsets`, from entry `i` on. -/
def offsetsLoop (d : Octets) (offsetTableStart offsetSize total : ℕ) : ℕ → ℕ → Decoding (List ℕ)
  | 0, _ => pure []
  | n + 1, i => do
    let step ← mul i offsetSize
    let pos ← add offsetTableStart step
    let offset ← readBE d pos offsetSize
    note (.entry i total)
    let rest ← offsetsLoop d offsetTableStart offsetSize total n (i + 1)
    return offset :: rest

/-- `Decoder::parseTrailer`. -/
def parseTrailer (d : Octets) : Decoding Decoder :=
  if d.length < 8 + 32 then refuse
  else do
    note (.slice 0 8)
    if d.take 8 ≠ header then refuse
    else do
      let tr := d.length - 32
      let offsetSize := (← byteAt d (← add tr 6)).toNat
      let refSize := (← byteAt d (← add tr 7)).toNat
      let numObjects ← readBE d (← add tr 8) 8
      let offsetTableStart ← readBE d (← add tr 24) 8
      if !(← flag) then refuse
      else if !validSize offsetSize || !validSize refSize then refuse
      else if d.length < offsetTableStart then refuse
      else if d.length < numObjects then refuse
      else if (d.length - offsetTableStart) / offsetSize < numObjects then refuse
      else do
        note (.resize numObjects)
        let offsets ← offsetsLoop d offsetTableStart offsetSize numObjects numObjects 0
        if (← flag) then
          return { d := d, refSize := refSize, numObjects := numObjects, offsets := offsets }
        else refuse

/-- `readCount`: the count and the position behind it. -/
def readCount (d : Octets) (lo pos : ℕ) : Decoding (ℕ × ℕ) :=
  if lo ≠ 0x0F then pure (lo, pos)
  else if d.length ≤ pos then do
    clear
    return (0, pos)
  else do
    let im ← byteAt d pos
    let pos ← add pos 1
    let n := 1 <<< (im.toNat % 16)
    let c ← readBE d pos n
    let pos ← add pos n
    return (c, pos)

/-- The guard and the copy of a data object or an ASCII string. -/
def sliceAt (d : Octets) (pos cnt : ℕ) : Decoding Octets :=
  if d.length < cnt then refuse
  else do
    let stop ← add pos cnt
    if d.length < stop then refuse
    else do
      note (.slice pos stop)
      return (d.drop pos).take cnt

/-- The loop over a UTF-16 string's units, from unit `i` on. -/
def utf16Low (d : Octets) (pos : ℕ) : ℕ → ℕ → Decoding Octets
  | 0, _ => pure []
  | n + 1, i => do
    let unit ← add pos (← mul i 2)
    let low ← add unit 1
    if d.length ≤ low then return []
    else do
      let b ← byteAt d low
      let rest ← utf16Low d pos n (i + 1)
      return b :: rest

/-- The `i`-th reference of a table at `pos`. -/
def refAt (dec : Decoder) (pos i : ℕ) : Decoding ℕ := do
  let at' ← add pos (← mul i dec.refSize)
  readBE dec.d at' dec.refSize

/-- The children of an array. -/
def objectsAt (dec : Decoder) (child : ℕ → Decoding Value) (pos : ℕ) :
    ℕ → ℕ → Decoding (List Value)
  | 0, _ => pure []
  | n + 1, i => do
    let r ← refAt dec pos i
    let v ← child r
    let vs ← objectsAt dec child pos n (i + 1)
    return v :: vs

/-- A call whose `nullopt` the caller looks at later. -/
def attempt {α : Type} (m : Decoding α) : Decoding (Option α) := fun t =>
  match m t with
  | (.ok a, t') => (.ok (some a), t')
  | (.error _, t') => (.ok none, t')

/-- The entries of a dict: key and value are both decoded before either is looked at. -/
def entriesAt (dec : Decoder) (child : ℕ → Decoding Value) (pos cnt : ℕ) :
    ℕ → ℕ → Decoding (List (Octets × Value))
  | 0, _ => pure []
  | n + 1, i => do
    let kr ← refAt dec pos i
    let vr ← refAt dec pos (← add cnt i)
    let k ← attempt (child kr)
    let v ← attempt (child vr)
    match k, v with
    | some k, some v => do
      let es ← entriesAt dec child pos cnt n (i + 1)
      return (k.asStr, v) :: es
    | _, _ => refuse

/-- `Decoder::object`. -/
def object (dec : Decoder) : ℕ → ℕ → Decoding Value
  | 0, _ => refuse
  | left + 1, ref =>
    if dec.numObjects ≤ ref then refuse
    else do
      note (.entry ref dec.offsets.length)
      let start := (dec.offsets[ref]?).getD 0
      if dec.d.length ≤ start then refuse
      else do
        let marker ← byteAt dec.d start
        let pos ← add start 1
        let lo := marker.toNat % 16
        match marker.toNat / 16 with
        | 0x0 => return .bool (marker == 0x09)
        | 0x1 => do
          let v ← readBE dec.d pos (1 <<< lo)
          let _ ← add pos (1 <<< lo)
          return .int (UInt64.ofNat v).toInt64
        | 0x2 => do
          let bits ← readBE dec.d pos (1 <<< lo)
          let _ ← add pos (1 <<< lo)
          if lo = 3 then return .real (UInt64.ofNat bits)
          else if lo = 2 then return .real (UInt64.ofNat (widenFloat bits))
          else return .real 0
        | 0x4 => do
          let (cnt, pos) ← readCount dec.d lo pos
          return .data (← sliceAt dec.d pos cnt)
        | 0x5 => do
          let (cnt, pos) ← readCount dec.d lo pos
          return .str (← sliceAt dec.d pos cnt)
        | 0x6 => do
          let (cnt, pos) ← readCount dec.d lo pos
          if dec.d.length < cnt then refuse
          else return .str (← utf16Low dec.d pos cnt 0)
        | 0xA => do
          let (cnt, pos) ← readCount dec.d lo pos
          if !(← flag) then refuse
          else if dec.numObjects < cnt then refuse
          else do
            let stop ← add pos (← mul cnt dec.refSize)
            if dec.d.length < stop then refuse
            else return .arr (← objectsAt dec (object dec left) pos cnt 0)
        | 0xD => do
          let (cnt, pos) ← readCount dec.d lo pos
          if !(← flag) then refuse
          else if dec.numObjects < cnt then refuse
          else do
            let stop ← add pos (← mul (← mul 2 cnt) dec.refSize)
            if dec.d.length < stop then refuse
            else return .dict (← entriesAt dec (object dec left) pos cnt cnt 0)
        | _ => refuse

/-- `bplist::decode`. -/
def decode (data : Octets) : Decoding Value := do
  let dec ← parseTrailer data
  object dec 33 0

/-! ## 2. Following the plain decoder -/

variable {α β : Type} {size : ℕ} {ok : Bool}

/-- What a piece ends with: the value and the flag, unless it refuses. -/
def outcome : Except Unit α × Run → Option (α × Bool)
  | (.ok a, t) => some (a, t.ok)
  | (.error _, _) => none

/-- What was done since `acts` is in order. -/
def InOrder (size : ℕ) (acts : List Access) (t : Run) : Prop :=
  ∃ made, t.acts = made ++ acts ∧ ∀ a ∈ made, a.Inside size

theorem InOrder.trans {acts : List Access} {t t' : Run} (h : InOrder size acts t)
    (h' : InOrder size t.acts t') : InOrder size acts t' := by
  obtain ⟨made, hmade, hin⟩ := h
  obtain ⟨more, hmore, hin'⟩ := h'
  refine ⟨more ++ made, by rw [hmore, hmade, List.append_assoc], ?_⟩
  intro a ha
  rcases List.mem_append.mp ha with ha | ha
  · exact hin' a ha
  · exact hin a ha

/-- Started with the flag at `ok`, `m` ends with `r`, and every access it makes is in order. -/
def Follows (size : ℕ) (ok : Bool) (m : Decoding α) (r : Option (α × Bool)) : Prop :=
  ∀ acts, outcome (m ⟨ok, acts⟩) = r ∧ InOrder size acts (m ⟨ok, acts⟩).2

namespace Follows

protected theorem pure (a : α) : Follows size ok (pure a) (some (a, ok)) :=
  fun _ => ⟨rfl, [], rfl, by simp⟩

protected theorem refuse : Follows size ok (refuse : Decoding α) none :=
  fun _ => ⟨rfl, [], rfl, by simp⟩

protected theorem clear : Follows size ok clear (some ((), false)) :=
  fun _ => ⟨rfl, [], rfl, by simp⟩

protected theorem flag : Follows size ok flag (some (ok, ok)) :=
  fun _ => ⟨rfl, [], rfl, by simp⟩

protected theorem note {a : Access} (h : a.Inside size) :
    Follows size ok (note a) (some ((), ok)) :=
  fun _ => ⟨rfl, [a], rfl, by simpa using h⟩

/-- What comes next starts with the flag the first half left. -/
protected theorem bind {m : Decoding α} {r : Option (α × Bool)} {f : α → Decoding β}
    {g : α × Bool → Option (β × Bool)} (hm : Follows size ok m r)
    (hf : ∀ a ok', r = some (a, ok') → Follows size ok' (f a) (g (a, ok'))) :
    Follows size ok (m >>= f) (r.bind g) := by
  intro acts
  obtain ⟨hr, hin⟩ := hm acts
  rcases hrun : m ⟨ok, acts⟩ with ⟨e | a, t⟩
  · rw [hrun] at hr hin
    rw [Prog.bind_error hrun, ← hr]
    exact ⟨rfl, hin⟩
  · rw [hrun] at hr hin
    obtain ⟨hr', hin'⟩ := hf a t.ok hr.symm t.acts
    rw [Prog.bind_ok hrun, ← hr]
    exact ⟨hr', hin.trans hin'⟩

/-- The first half is known to end with a value. -/
protected theorem andThen {m : Decoding α} {a : α} {ok' : Bool} {f : α → Decoding β}
    {r : Option (β × Bool)} (hm : Follows size ok m (some (a, ok')))
    (hf : Follows size ok' (f a) r) : Follows size ok (m >>= f) r := by
  refine hm.bind (g := fun _ => r) ?_
  intro b ok'' h
  cases h
  exact hf

/-- A refusal is passed on. -/
protected theorem stop {m : Decoding α} {f : α → Decoding β} (hm : Follows size ok m none) :
    Follows size ok (m >>= f) none := by
  refine hm.bind (g := fun _ => none) ?_
  intro a ok' h
  cases h

protected theorem map {m : Decoding α} {r : Option (α × Bool)} (f : α → β)
    (hm : Follows size ok m r) :
    Follows size ok (m >>= fun a => pure (f a)) (r.map fun (a, ok') => (f a, ok')) := by
  rw [Option.map_eq_bind]
  exact hm.bind fun a ok' _ => .pure _

/-- A call whose end is looked at later: behind a refusal the flag may be anything. -/
protected theorem attempt {m : Decoding α} {r : Option (α × Bool)} {f : Option α → Decoding β}
    {g : α × Bool → Option (β × Bool)} (hm : Follows size ok m r)
    (hnone : ∀ ok', Follows size ok' (f none) none)
    (hsome : ∀ a ok', Follows size ok' (f (some a)) (g (a, ok'))) :
    Follows size ok (attempt m >>= f) (r.bind g) := by
  intro acts
  obtain ⟨hr, hin⟩ := hm acts
  rcases hrun : m ⟨ok, acts⟩ with ⟨e | a, t⟩
  · rw [hrun] at hr hin
    have hattempt : attempt m ⟨ok, acts⟩ = (.ok none, t) := by simp only [attempt, hrun]
    obtain ⟨hr', hin'⟩ := hnone t.ok t.acts
    rw [Prog.bind_ok hattempt, ← hr]
    exact ⟨hr', hin.trans hin'⟩
  · rw [hrun] at hr hin
    have hattempt : attempt m ⟨ok, acts⟩ = (.ok (some a), t) := by simp only [attempt, hrun]
    obtain ⟨hr', hin'⟩ := hsome a t.ok t.acts
    rw [Prog.bind_ok hattempt, ← hr]
    exact ⟨hr', hin.trans hin'⟩

/-- A call that is made although the refusal is certain. -/
theorem attempt_refuse {m : Decoding α} {r : Option (α × Bool)} {f : Option α → Decoding β}
    (hm : Follows size ok m r) (hf : ∀ a ok', Follows size ok' (f a) none) :
    Follows size ok (attempt m >>= f) none := by
  rw [← Option.bind_fun_none r]
  exact hm.attempt (fun ok' => hf none ok') (fun a ok' => hf (some a) ok')

protected theorem ite {c : Prop} [Decidable c] {m m' : Decoding α} {r r' : Option (α × Bool)}
    (h : c → Follows size ok m r) (h' : ¬ c → Follows size ok m' r') :
    Follows size ok (if c then m else m') (if c then r else r') := by
  split
  · exact h ‹_›
  · exact h' ‹_›

protected theorem add {a b : ℕ} (h : a + b < 2 ^ 64) :
    Follows size ok (add a b) (some (a + b, ok)) := by
  refine .andThen (.note h) ?_
  rw [u64_of_lt h]
  exact .pure _

protected theorem mul {a b : ℕ} (h : a * b < 2 ^ 64) :
    Follows size ok (mul a b) (some (a * b, ok)) := by
  refine .andThen (.note h) ?_
  rw [u64_of_lt h]
  exact .pure _

protected theorem byteAt {d : Octets} {pos : ℕ} (h : pos < d.length) :
    Follows d.length ok (byteAt d pos) (some (d[pos], ok)) := by
  refine .andThen (.note h) ?_
  rw [List.getElem?_eq_getElem h]
  exact .pure _

theorem readLoop (d : Octets) (pos : ℕ) : ∀ (n i v : ℕ), pos + i + n < 2 ^ 64 →
    Follows d.length ok (readLoop d pos n i v) (match Bplist.readLoop d (pos + i) n v with
      | none => some (0, false)
      | some v' => some (v', ok))
  | 0, _, _, _ => .pure _
  | n + 1, i, v, h => by
    rw [Traced.readLoop, Bplist.readLoop]
    refine .andThen (.add (by omega)) ?_
    by_cases hend : d.length ≤ pos + i
    · rw [if_pos hend, List.getElem?_eq_none hend]
      exact .andThen .clear (.pure _)
    · rw [if_neg hend, List.getElem?_eq_getElem (by omega)]
      refine .andThen (.byteAt (by omega)) ?_
      exact readLoop d pos n (i + 1) _ (by omega)

/-- **`readBE` reads inside the input**, wherever it is told to. -/
theorem readBE {d : Octets} {pos n : ℕ} (h : pos + n < 2 ^ 64) :
    Follows d.length ok (readBE d pos n)
      (some ((Bplist.readBE d pos n ok).1, (Bplist.readBE d pos n ok).2)) := by
  have hloop : Follows d.length ok (Traced.readLoop d pos n 0 0) _ :=
    readLoop d pos n 0 0 (by omega)
  rw [Nat.add_zero] at hloop
  unfold Bplist.readBE
  cases hread : Bplist.readLoop d pos n 0 with
  | none =>
    rw [hread] at hloop
    exact hloop
  | some v =>
    rw [hread] at hloop
    exact hloop

end Follows

/-! ## 3. The kinds of object -/

/-- The width of an integer is at most 2^15. -/
theorem shift_le (k : ℕ) : 1 <<< (k % 16) ≤ 2 ^ 15 := by
  rw [Nat.one_shiftLeft]
  exact Nat.pow_le_pow_right (by norm_num) (by omega)

/-- Counting moves the position by at most the marker and the widest integer. -/
theorem readCount_pos_le (d : Octets) (lo pos : ℕ) (ok : Bool) :
    (Bplist.readCount d lo pos ok).2.1 ≤ pos + 1 + 2 ^ 15 := by
  unfold Bplist.readCount
  split
  · simp only
    omega
  · cases d[pos]? with
    | none =>
      simp only
      omega
    | some im =>
      have := shift_le im.toNat
      simp only
      omega

namespace Follows

variable {d : Octets} {pos cnt : ℕ}

theorem readCount (lo : ℕ) (hpos : pos + 2 ^ 16 < 2 ^ 64) :
    Follows d.length ok (readCount d lo pos)
      (some (((Bplist.readCount d lo pos ok).1, (Bplist.readCount d lo pos ok).2.1),
        (Bplist.readCount d lo pos ok).2.2)) := by
  unfold Traced.readCount Bplist.readCount
  by_cases hlo : lo ≠ 0x0F
  · rw [if_pos hlo, if_pos hlo]
    exact .pure _
  · rw [if_neg hlo, if_neg hlo]
    by_cases hend : d.length ≤ pos
    · rw [if_pos hend, List.getElem?_eq_none hend]
      exact .andThen .clear (.pure _)
    · rw [if_neg hend, List.getElem?_eq_getElem (by omega)]
      have hwidth := shift_le d[pos].toNat
      refine .andThen (.byteAt (by omega)) (.andThen (.add (by omega)) ?_)
      exact .andThen (.readBE (by omega)) (.andThen (.add (by omega)) (.pure _))

theorem sliceAt (hpos : pos + d.length < 2 ^ 64) : Follows d.length ok (sliceAt d pos cnt)
    (if d.length < cnt ∨ d.length < u64 (pos + cnt) then none
      else some ((d.drop pos).take cnt, ok)) := by
  unfold Traced.sliceAt
  by_cases hcnt : d.length < cnt
  · rw [if_pos hcnt, if_pos (.inl hcnt)]
    exact .refuse
  · rw [if_neg hcnt]
    refine .andThen (.add (by omega)) ?_
    rw [u64_of_lt (by omega)]
    by_cases hstop : d.length < pos + cnt
    · rw [if_pos hstop, if_pos (.inr hstop)]
      exact .refuse
    · rw [if_neg hstop, if_neg (by omega)]
      exact .andThen (.note ⟨by omega, by omega⟩) (.pure _)

/-- The value made of a slice. -/
theorem sliced (wrap : Octets → Value) (hpos : pos + d.length < 2 ^ 64) :
    Follows d.length ok (Traced.sliceAt d pos cnt >>= fun s => pure (wrap s))
      (if d.length < cnt ∨ d.length < u64 (pos + cnt) then none
        else some (wrap ((d.drop pos).take cnt), ok)) := by
  have hslice : Follows d.length ok (Traced.sliceAt d pos cnt) _ := sliceAt hpos
  split
  · rw [if_pos ‹_›] at hslice
    exact hslice.stop
  · rw [if_neg ‹_›] at hslice
    exact hslice.andThen (.pure _)

theorem utf16Low : ∀ (n i : ℕ), pos + (i + n) * 2 + 1 < 2 ^ 64 →
    Follows d.length ok (utf16Low d pos n i) (some (Bplist.utf16Low d pos n i, ok))
  | 0, _, _ => .pure _
  | n + 1, i, h => by
    rw [Traced.utf16Low, Bplist.utf16Low]
    refine .andThen (.mul (by omega)) (.andThen (.add (by omega)) (.andThen (.add (by omega)) ?_))
    by_cases hend : d.length ≤ pos + i * 2 + 1
    · rw [if_pos hend, List.getElem?_eq_none hend]
      exact .pure _
    · rw [if_neg hend, List.getElem?_eq_getElem (by omega)]
      exact .andThen (.byteAt (by omega)) (.andThen (utf16Low n (i + 1) (by omega)) (.pure _))

variable {dec : Decoder} {child : ℕ → Decoding Value} {child' : ℕ → Bool → Option (Value × Bool)}

theorem refAt (i : ℕ) (h : pos + (i + 1) * dec.refSize < 2 ^ 64) :
    Follows dec.d.length ok (refAt dec pos i)
      (some ((Bplist.refAt dec pos i ok).1, (Bplist.refAt dec pos i ok).2)) := by
  rw [Nat.add_one_mul] at h
  unfold Bplist.refAt
  rw [u64_of_lt (by omega)]
  exact .andThen (.mul (by omega)) (.andThen (.add (by omega)) (.readBE (by omega)))

theorem objectsAt (hchild : ∀ r ok, Follows dec.d.length ok (child r) (child' r ok)) :
    ∀ (n i : ℕ) (ok : Bool), pos + (i + n) * dec.refSize < 2 ^ 64 →
      Follows dec.d.length ok (objectsAt dec child pos n i) (Bplist.objectsAt dec child' pos n i ok)
  | 0, _, _, _ => .pure _
  | n + 1, i, ok, h => by
    have hnext : pos + (i + 1 + n) * dec.refSize < 2 ^ 64 := by rwa [Nat.add_right_comm i]
    have hthis : pos + (i + 1) * dec.refSize < 2 ^ 64 := by
      rw [Nat.add_mul] at hnext
      omega
    rw [Traced.objectsAt, Bplist.objectsAt]
    simp only [Option.bind_eq_bind]
    refine .andThen (.refAt i hthis) (.bind (hchild _ _) ?_)
    intro v ok₂ _
    refine .bind (objectsAt hchild n (i + 1) ok₂ hnext) ?_
    intro vs ok₃ _
    exact .pure _

theorem entriesAt (hchild : ∀ r ok, Follows dec.d.length ok (child r) (child' r ok)) :
    ∀ (n i : ℕ) (ok : Bool), pos + (cnt + (i + n)) * dec.refSize < 2 ^ 64 → cnt + (i + n) < 2 ^ 64 →
      Follows dec.d.length ok (entriesAt dec child pos cnt n i)
        (Bplist.entriesAt dec child' pos cnt n i ok)
  | 0, _, _, _, _ => .pure _
  | n + 1, i, ok, h, hcnt => by
    have hnext : pos + (cnt + (i + 1 + n)) * dec.refSize < 2 ^ 64 := by
      rwa [Nat.add_right_comm i]
    have hvalue : pos + (cnt + i + 1) * dec.refSize < 2 ^ 64 := by
      have hsum : cnt + (i + 1 + n) = cnt + i + 1 + n := by omega
      rw [hsum, Nat.add_mul] at hnext
      omega
    have hkey : pos + (i + 1) * dec.refSize < 2 ^ 64 := by
      have hsum : cnt + i + 1 = i + 1 + cnt := by omega
      rw [hsum, Nat.add_mul] at hvalue
      omega
    rw [Traced.entriesAt, Bplist.entriesAt]
    simp only [Option.bind_eq_bind]
    refine .andThen (.refAt i hkey) (.andThen (.add (by omega)) (.andThen (.refAt _ hvalue) ?_))
    refine .attempt (hchild _ _) ?_ ?_
    · intro ok'
      refine .attempt_refuse (hchild _ _) ?_
      intro v ok''
      exact .refuse
    · intro k ok₃
      refine .attempt (hchild _ _) (fun _ => .refuse) ?_
      intro v ok₄
      refine .bind (entriesAt hchild n (i + 1) ok₄ hnext (by omega)) ?_
      intro es ok₅ _
      exact .pure _

/-- A guard in front of the rest. -/
theorem guard {c : Prop} [Decidable c] {rest : Decoding α} {r : Option β} {f : β → α × Bool}
    (h : ¬ c → Follows size ok rest (r.map f)) :
    Follows size ok (if c then refuse else rest) ((if c then none else r).map f) := by
  split
  · exact .refuse
  · exact h ‹_›

/-- The guard of a table of references. -/
theorem table {entries stop : ℕ} {rest : Decoding α} {r : Option (α × Bool)}
    (h : cnt ≤ entries → Follows size ok rest (if size < stop then none else r)) :
    Follows size ok (if !ok then refuse else if entries < cnt then refuse else rest)
      (if !ok ∨ entries < cnt ∨ size < stop then none else r) := by
  cases ok with
  | false => exact .refuse
  | true =>
    by_cases hcnt : entries < cnt
    · rw [if_pos (show (!true) = true ∨ entries < cnt ∨ size < stop from .inr (.inl hcnt))]
      simp only [Bool.not_true, Bool.false_eq_true, if_false, if_pos hcnt]
      exact .refuse
    · simp only [Bool.not_true, Bool.false_eq_true, if_false, hcnt, false_or]
      exact h (by omega)

/-- **One object, and all below it.** -/
theorem object (hsize : dec.d.length < 2 ^ 59) (hoffsets : dec.offsets.length = dec.numObjects)
    (hnum : dec.numObjects ≤ dec.d.length) (hrefSize : dec.refSize ≤ 8) (left ref : ℕ) (ok : Bool) :
    Follows dec.d.length ok (object dec left ref) (Bplist.object dec left ref ok) := by
  induction left generalizing ref ok with
  | zero => exact .refuse
  | succ left ih =>
    rw [Traced.object, Bplist.object]
    by_cases href : dec.numObjects ≤ ref
    · rw [if_pos href, if_pos href]
      exact .refuse
    rw [if_neg href, if_neg href]
    have hentry : ref < dec.offsets.length := by omega
    refine .andThen (.note hentry) ?_
    rw [List.getElem?_eq_getElem hentry, Option.getD_some]
    generalize dec.offsets[ref] = start
    simp only
    by_cases hstart : dec.d.length ≤ start
    · rw [if_pos hstart, List.getElem?_eq_none hstart]
      exact .refuse
    rw [if_neg hstart, List.getElem?_eq_getElem (by omega)]
    refine .andThen (.byteAt (by omega)) (.andThen (.add (by omega)) ?_)
    generalize dec.d[start] = marker
    have hlt : marker.toNat / 16 < 16 := by
      have := marker.toNat_lt
      omega
    have hwidth := shift_le marker.toNat
    simp only
    generalize marker.toNat / 16 = kind at hlt ⊢
    generalize marker.toNat % 16 = lo at hwidth ⊢
    have hcount : Follows dec.d.length ok (Traced.readCount dec.d lo (start + 1)) _ :=
      readCount lo (by omega)
    have hpos := readCount_pos_le dec.d lo (start + 1) ok
    obtain ⟨⟨cnt, pos', ok'⟩, hread⟩ : ∃ c, Bplist.readCount dec.d lo (start + 1) ok = c := ⟨_, rfl⟩
    rw [hread] at hcount hpos
    simp only at hcount hpos
    rw [hread]
    interval_cases kind <;> simp only
    · -- bool
      exact .pure _
    · -- int
      exact .andThen (.readBE (by omega)) (.andThen (.add (by omega)) (.pure _))
    · -- real
      refine .andThen (.readBE (by omega)) (.andThen (.add (by omega)) ?_)
      split_ifs
      · exact .pure _
      · exact .pure _
      · exact .pure _
    · exact .refuse
    · -- data
      exact .andThen hcount (.sliced _ (by omega))
    · -- ASCII
      exact .andThen hcount (.sliced _ (by omega))
    · -- UTF-16
      refine .andThen hcount ?_
      refine .ite (fun _ => .refuse) (fun _ => .andThen (.utf16Low _ _ (by omega)) (.pure _))
    · exact .refuse
    · exact .refuse
    · exact .refuse
    · -- array
      refine .andThen hcount (.andThen .flag (.table ?_))
      intro hcnt
      simp only
      have hbytes : cnt * dec.refSize ≤ cnt * 8 := Nat.mul_le_mul_left cnt hrefSize
      rw [u64_of_lt (show cnt * dec.refSize < 2 ^ 64 by omega),
        u64_of_lt (show pos' + cnt * dec.refSize < 2 ^ 64 by omega)]
      refine .andThen (.mul (by omega)) (.andThen (.add (by omega)) (.ite (fun _ => .refuse) ?_))
      intro _
      exact .map _ (.objectsAt ih _ _ _ (by rw [Nat.zero_add]; omega))
    · exact .refuse
    · exact .refuse
    · -- dict
      refine .andThen hcount (.andThen .flag (.table ?_))
      intro hcnt
      simp only
      have hbytes : 2 * cnt * dec.refSize ≤ 2 * cnt * 8 := Nat.mul_le_mul_left _ hrefSize
      rw [u64_of_lt (show 2 * cnt * dec.refSize < 2 ^ 64 by omega),
        u64_of_lt (show pos' + 2 * cnt * dec.refSize < 2 ^ 64 by omega)]
      refine .andThen (.mul (by omega)) (.andThen (.mul (by omega)) (.andThen (.add (by omega))
        (.ite (fun _ => .refuse) ?_)))
      intro _
      exact .map _ (.entriesAt ih _ _ _ (by rw [Nat.zero_add, ← Nat.two_mul]; omega) (by omega))
    · exact .refuse
    · exact .refuse

/-! ## 4. The whole file -/

theorem offsetsLoop {d : Octets} {offsetTableStart offsetSize total : ℕ}
    (hsize : d.length < 2 ^ 59) : ∀ (n i : ℕ) (ok : Bool), i + n ≤ total →
      offsetTableStart + (i + n) * offsetSize ≤ d.length →
      Follows d.length ok (offsetsLoop d offsetTableStart offsetSize total n i)
        (some (((List.range' i n).map fun i =>
            (Bplist.readBE d (u64 (offsetTableStart + i * offsetSize)) offsetSize true).1),
          ok && (List.range' i n).all fun i =>
            (Bplist.readBE d (u64 (offsetTableStart + i * offsetSize)) offsetSize true).2))
  | 0, _, ok, _, _ => by
    rw [Traced.offsetsLoop, List.range'_zero, List.all_nil, Bool.and_true]
    exact .pure _
  | n + 1, i, ok, htotal, hfits => by
    have hnext : offsetTableStart + (i + 1 + n) * offsetSize ≤ d.length := by
      rwa [Nat.add_right_comm i]
    have hthis : offsetTableStart + i * offsetSize + offsetSize ≤ d.length := by
      rw [Nat.add_mul, Nat.add_one_mul] at hnext
      omega
    rw [Traced.offsetsLoop, List.range'_succ, List.map_cons, List.all_cons, ← Bool.and_assoc]
    refine .andThen (.mul (by omega)) (.andThen (.add (by omega)) ?_)
    have hread : Follows d.length ok
        (Traced.readBE d (offsetTableStart + i * offsetSize) offsetSize) _ := readBE (by omega)
    rw [Bplist.readBE_flag] at hread
    rw [u64_of_lt (show offsetTableStart + i * offsetSize < 2 ^ 64 by omega)]
    refine .andThen hread (.andThen (.note (show i < total by omega)) ?_)
    exact .andThen (offsetsLoop hsize n (i + 1) _ (by omega) hnext) (.pure _)

theorem parseTrailer {d : Octets} (hsize : d.length < 2 ^ 59) : Follows d.length true
    (parseTrailer d) ((Bplist.parseTrailer d).map fun dec => (dec, true)) := by
  unfold Traced.parseTrailer Bplist.parseTrailer
  by_cases hshort : d.length < 8 + 32
  · rw [if_pos hshort, if_pos hshort]
    exact .refuse
  rw [if_neg hshort, if_neg hshort]
  refine .andThen (.note ⟨by omega, by omega⟩) ?_
  by_cases hmagic : d.take 8 ≠ header
  · rw [if_pos hmagic, if_pos hmagic]
    exact .refuse
  rw [if_neg hmagic, if_neg hmagic]
  simp only
  refine .andThen (.add (by omega)) (.andThen (.byteAt (by omega)) ?_)
  refine .andThen (.add (by omega)) (.andThen (.byteAt (by omega)) ?_)
  refine .andThen (.add (by omega)) (.andThen (.readBE (by omega)) ?_)
  refine .andThen (.add (by omega)) (.andThen (.readBE (by omega)) (.andThen .flag ?_))
  rw [List.getElem?_eq_getElem (show d.length - 32 + 6 < d.length by omega),
    List.getElem?_eq_getElem (show d.length - 32 + 7 < d.length by omega)]
  simp only [Option.getD_some]
  generalize d[d.length - 32 + 6].toNat = offsetSize
  generalize d[d.length - 32 + 7].toNat = refSize
  generalize Bplist.readBE d (d.length - 32 + 8) 8 true = objects
  generalize Bplist.readBE d (d.length - 32 + 24) 8 objects.2 = table
  obtain ⟨numObjects, ok₁⟩ := objects
  obtain ⟨offsetTableStart, ok₂⟩ := table
  simp only
  refine .guard fun hok => ?_
  obtain rfl : ok₂ = true := by simpa using hok
  refine .guard fun hvalid => .guard fun htable => .guard fun hobjects => .guard fun hroom => ?_
  have hpositive : 0 < offsetSize := by
    have hvalid' : validSize offsetSize = true := by
      by_contra hinvalid
      exact hvalid (by simp [hinvalid])
    exact (validSize_bounds hvalid').1
  have hfits : numObjects * offsetSize ≤ d.length - offsetTableStart :=
    (Nat.le_div_iff_mul_le hpositive).mp (by omega)
  have hloop : Follows d.length true
      (Traced.offsetsLoop d offsetTableStart offsetSize numObjects numObjects 0) _ :=
    offsetsLoop hsize numObjects 0 true (by omega) (by rw [Nat.zero_add]; omega)
  rw [Bool.true_and] at hloop
  refine .andThen (.note (show numObjects ≤ d.length by omega)) (.andThen hloop (.andThen .flag ?_))
  rw [List.range_eq_range', List.all_map, List.map_map]
  simp only [Function.comp_def]
  generalize ((List.range' 0 numObjects).all fun i =>
    (Bplist.readBE d (u64 (offsetTableStart + i * offsetSize)) offsetSize true).2) = whole
  cases whole with
  | false => exact .refuse
  | true => exact .pure _

end Follows

/-- What `Decoder` starts with. -/
def Run.start : Run := ⟨true, []⟩

/-- **Every access of the decoder is in order, whatever the file.**  It reads and copies inside the
input, allocates no more offsets than the input has octets, and none of its sums and products
wraps; and it is `decode` that does so. -/
theorem decode_inside (d : Octets) (hsize : d.length < 2 ^ 59) :
    (∀ a ∈ (decode d .start).2.acts, a.Inside d.length) ∧
      (outcome (decode d .start)).map Prod.fst = Bplist.decode d := by
  have hfollows : Follows d.length true (decode d)
      (((Bplist.parseTrailer d).map fun dec => (dec, true)).bind
        fun (dec, ok) => Bplist.object dec 33 0 ok) := by
    refine (Follows.parseTrailer hsize).bind ?_
    intro dec ok hdec
    obtain ⟨dec', hdec', heq⟩ := Option.map_eq_some_iff.mp hdec
    cases heq
    obtain ⟨rfl, hoffsets, hnum, hrefSize, -⟩ := parseTrailer_bounds hdec'
    exact .object hsize hoffsets hnum hrefSize 33 0 true
  obtain ⟨hr, made, hmade, hin⟩ := hfollows []
  constructor
  · intro a ha
    refine hin a ?_
    have hacts : (decode d .start).2.acts = made := by rw [← List.append_nil made, ← hmade]; rfl
    rwa [hacts] at ha
  · have hstart : outcome (decode d .start) = outcome (decode d ⟨true, []⟩) := rfl
    rw [hstart, hr]
    unfold Bplist.decode
    cases Bplist.parseTrailer d with
    | none => rfl
    | some dec =>
      simp only [Option.map_some, Option.bind_some, Option.bind_eq_bind]
      cases Bplist.object dec 33 0 true with
      | none => rfl
      | some r => rfl

theorem decode_inside_doubled :
    (∀ a ∈ (decode (compact (doubling 2)) .start).2.acts,
      a.Inside (compact (doubling 2)).length) ∧
      (outcome (decode (compact (doubling 2)) .start)).map Prod.fst =
        Bplist.decode (compact (doubling 2)) :=
  decode_inside (compact (doubling 2)) (by decide +kernel)

end AirplaySender.Bplist.Traced
