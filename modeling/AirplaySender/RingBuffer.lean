/-
# The ring buffer between the audio thread and the sender

One producer calls `tryPush`, one consumer `tryPop` and `availableRead`, and the steps of the two are
interleaved in any order: loading a counter, copying one element, and publishing the new counter are
separate steps, so each side works on a snapshot of the other's counter that may be stale by the time
it copies.

Two things are shown.  What the two sides see is a run of a bounded first-in first-out queue
(`refines_fifo`), and no copy touches a slot that the other side may be using (`Inv.disjoint`).
Both rest on one invariant (`Inv`): the counters are the number of elements ever popped and pushed,
counted from where they started modulo 2^64, and the element with number `a` lives in the slot
`place a`, which elements less than a capacity apart do not share.
-/
import Mathlib
import AirplaySender.Lib.Fifo

namespace AirplaySender.RingBuffer

open Fifo (Event)

/-! ## 1. The layout -/

/-- `RingBuffer::nextPow2` on a 64-bit `size_t`. -/
def nextPow2 (v : UInt64) : UInt64 :=
  let v := v - 1
  let v := v ||| v >>> 1
  let v := v ||| v >>> 2
  let v := v ||| v >>> 4
  let v := v ||| v >>> 8
  let v := v ||| v >>> 16
  let v := v ||| v >>> 32
  v + 1

/-- `mask_`, one less than a power of two. -/
structure Layout where
  mask : UInt64
  exponent : Nat
  exponent_lt : exponent < 64
  mask_eq : mask.toNat + 1 = 2 ^ exponent

namespace Layout

variable (L : Layout)

/-- `RingBuffer::capacity`. -/
def capacity : UInt64 := L.mask + 1

/-- The length of `buffer_`. -/
def size : Nat := 2 ^ L.exponent

/-- The index that the two `memcpy`s use for element `k` of a span of `n`, starting at `counter`. -/
def slot (counter n : UInt64) (k : Nat) : Nat :=
  let pos := counter &&& L.mask
  let first := if L.capacity - pos < n then L.capacity - pos else n
  if k < first.toNat then pos.toNat + k else k - first.toNat

end Layout

/-! ## 2. The two threads -/

/-- A `std::span`: its length is a `size_t`. -/
structure Span (T : Type) where
  items : List T
  length_lt : items.length < 2 ^ 64

def Span.size {T : Type} (data : Span T) : UInt64 := UInt64.ofNat data.items.length

@[simp] theorem Span.size_toNat {T : Type} (data : Span T) : data.size.toNat = data.items.length :=
  UInt64.toNat_ofNat_of_lt' data.length_lt

/-- Where the producer is in `tryPush`. -/
inductive Producer (T : Type)
  | idle
  | called (data : Span T)
  | loadedWrite (data : Span T) (wr : UInt64)
  | copying (data : Span T) (wr : UInt64) (copied : Nat)

/-- Where the consumer is in `tryPop` or `availableRead`, whose two loads may come in either order. -/
inductive Consumer (T : Type)
  | idle
  | called (n : UInt64)
  | loadedRead (n rd : UInt64)
  | copying (n rd : UInt64) (copied : List T)
  | asked (readFirst : Bool)
  | askedRead (rd : UInt64)
  | askedWrite (wr : UInt64)

/-- The shared memory, the two threads, and what their calls reported so far. -/
structure State (T : Type) where
  buffer : Nat → T
  read : UInt64
  write : UInt64
  producer : Producer T
  consumer : Consumer T
  log : List (Event T)

/-- What the scheduler lets happen next. -/
inductive Act (T : Type)
  | tryPush (data : Span T)
  | tryPop (n : UInt64)
  | availableRead (readFirst : Bool)
  | producer
  | consumer

variable {T : Type}

def start (c : UInt64) (buffer : Nat → T) : State T :=
  { buffer, read := c, write := c, producer := .idle, consumer := .idle, log := [] }

/-- The next step of the producer.  The comparison is local to the thread, so it belongs to the load
that it waits for. -/
def produce (L : Layout) (s : State T) : Option (State T) :=
  match s.producer with
  | .idle => none
  | .called data => some { s with producer := .loadedWrite data s.write }
  | .loadedWrite data wr =>
    let rd := s.read
    if data.size > L.capacity - (wr - rd) then
      some { s with producer := .idle, log := s.log ++ [.refused data.items.length] }
    else some { s with producer := .copying data wr 0 }
  | .copying data wr copied =>
    match data.items[copied]? with
    | some x =>
      some { s with
        buffer := Function.update s.buffer (L.slot wr data.size copied) x
        producer := .copying data wr (copied + 1) }
    | none =>
      some { s with
        write := wr + data.size, producer := .idle, log := s.log ++ [.pushed data.items] }

/-- The next step of the consumer. -/
def consume (L : Layout) (s : State T) : Option (State T) :=
  match s.consumer with
  | .idle => none
  | .called n => some { s with consumer := .loadedRead n s.read }
  | .loadedRead n rd =>
    let wr := s.write
    if n > wr - rd then some { s with consumer := .idle, log := s.log ++ [.starved n.toNat] }
    else some { s with consumer := .copying n rd [] }
  | .copying n rd copied =>
    if copied.length < n.toNat then
      some { s with
        consumer := .copying n rd (copied ++ [s.buffer (L.slot rd n copied.length)]) }
    else
      some { s with read := rd + n, consumer := .idle, log := s.log ++ [.popped copied] }
  | .asked true => some { s with consumer := .askedRead s.read }
  | .asked false => some { s with consumer := .askedWrite s.write }
  | .askedRead rd =>
    some { s with consumer := .idle, log := s.log ++ [.counted (s.write - rd).toNat] }
  | .askedWrite wr =>
    some { s with consumer := .idle, log := s.log ++ [.counted (wr - s.read).toNat] }

/-- One step of the two threads, where the scheduler asks for one that can happen. -/
def step (L : Layout) (s : State T) : Act T → Option (State T)
  | .tryPush data =>
    match s.producer with
    | .idle => some { s with producer := .called data }
    | _ => none
  | .tryPop n =>
    match s.consumer with
    | .idle => some { s with consumer := .called n }
    | _ => none
  | .availableRead readFirst =>
    match s.consumer with
    | .idle => some { s with consumer := .asked readFirst }
    | _ => none
  | .producer => produce L s
  | .consumer => consume L s

/-- The states of all interleavings, from any value of the two counters and any memory. -/
inductive Reachable (L : Layout) (c : UInt64) : State T → Prop
  | start (buffer : Nat → T) : Reachable L c (start c buffer)
  | step {s s' : State T} {a : Act T} : Reachable L c s → step L s a = some s' → Reachable L c s'

/-! ## 3. Slots -/

namespace Layout

variable (L : Layout)

theorem size_pos : 0 < L.size := Nat.two_pow_pos _

theorem size_le : L.size ≤ 2 ^ 63 := Nat.pow_le_pow_right (by decide) (Nat.le_of_lt_succ L.exponent_lt)

theorem size_dvd : L.size ∣ 2 ^ 64 := Nat.pow_dvd_pow 2 (Nat.le_of_lt L.exponent_lt)

@[simp] theorem capacity_toNat : L.capacity.toNat = L.size := by
  have hmask := L.mask_eq
  have hle := L.size_le
  unfold size at hle ⊢
  rw [capacity, UInt64.toNat_add, UInt64.toNat_one, hmask]
  exact Nat.mod_eq_of_lt (by omega)

theorem masked (x : UInt64) : (x &&& L.mask).toNat = x.toNat % L.size := by
  have hmask : L.mask.toNat = 2 ^ L.exponent - 1 := by
    have := L.mask_eq
    omega
  rw [UInt64.toNat_and, hmask, Nat.and_two_pow_sub_one_eq_mod, size]

/-- The slot of the element with number `a`, from where the counters started. -/
def place (c : UInt64) (a : Nat) : Nat := (c.toNat + a) % L.size

/-- Both `memcpy`s together walk the ring. -/
theorem slot_eq {counter n : UInt64} {k : Nat} (hk : k < n.toNat) (hn : n.toNat ≤ L.size) :
    L.slot counter n k = (counter.toNat + k) % L.size := by
  have hpos : (counter &&& L.mask).toNat = counter.toNat % L.size := L.masked counter
  have hlt : counter.toNat % L.size < L.size := Nat.mod_lt _ L.size_pos
  have hroom : (L.capacity - (counter &&& L.mask)).toNat = L.size - counter.toNat % L.size := by
    rw [UInt64.toNat_sub_of_le, capacity_toNat, hpos]
    rw [UInt64.le_iff_toNat_le, capacity_toNat, hpos]
    exact Nat.le_of_lt hlt
  have hwalk : (counter.toNat + k) % L.size = (counter.toNat % L.size + k) % L.size := by
    rw [Nat.mod_add_mod]
  rw [hwalk]
  simp only [slot, UInt64.lt_iff_toNat_lt, hroom]
  generalize counter.toNat % L.size = pos at *
  have hwrap : L.size ≤ pos + k → (pos + k) % L.size = pos + k - L.size := by
    intro hle
    rw [Nat.mod_eq_sub_mod hle, Nat.mod_eq_of_lt (by omega)]
  by_cases hcut : L.size - pos < n.toNat
  · rw [if_pos hcut, hroom, hpos]
    split
    · rw [Nat.mod_eq_of_lt (by omega)]
    · rw [hwrap (by omega)]
      omega
  · rw [if_neg hcut, if_pos hk, hpos, Nat.mod_eq_of_lt (by omega)]

theorem place_lt (c : UInt64) (a : Nat) : L.place c a < L.size := Nat.mod_lt _ L.size_pos

/-- Elements less than a capacity apart do not share a slot. -/
theorem place_inj {c : UInt64} {a b : Nat} (hle : a ≤ b) (hlt : b < a + L.size)
    (h : L.place c a = L.place c b) : a = b := by
  have hdvd : L.size ∣ c.toNat + b - (c.toNat + a) := (Nat.modEq_iff_dvd' (by omega)).mp h
  obtain ⟨m, hm⟩ := hdvd
  rcases Nat.eq_zero_or_pos m with rfl | hpos
  · omega
  · have hmul : L.size ≤ L.size * m := Nat.le_mul_of_pos_right _ hpos
    omega

/-- A counter that stands for element `a` is taken modulo 2^64, and the capacity divides that. -/
theorem slot_place {c counter n : UInt64} {a k : Nat}
    (hcounter : counter.toNat = (c.toNat + a) % 2 ^ 64) (hk : k < n.toNat) (hn : n.toNat ≤ L.size) :
    L.slot counter n k = L.place c (a + k) := by
  rw [L.slot_eq hk hn, hcounter, place, ← Nat.add_assoc, ← Nat.mod_add_mod (_ % _),
    Nat.mod_mod_of_dvd _ L.size_dvd, Nat.mod_add_mod]

end Layout

/-! ## 4. The capacity of a request -/

/-- After the shifts by `1`, `2`, … up to half of `n` a bit is set when one of the `n` bits from it
upwards was. -/
def Smeared (n : Nat) (v u : UInt64) : Prop :=
  ∀ i, u.toNat.testBit i = true ↔ ∃ k < n, v.toNat.testBit (i + k) = true

theorem Smeared.start (v : UInt64) : Smeared 1 v v := by
  intro i
  constructor
  · intro hbit
    exact ⟨0, by omega, hbit⟩
  · rintro ⟨k, hk, hbit⟩
    obtain rfl : k = 0 := by omega
    exact hbit

theorem Smeared.step {n : Nat} {v u : UInt64} (h : Smeared n v u) (shift : UInt64)
    (hshift : shift.toNat % 64 = n) : Smeared (n + n) v (u ||| u >>> shift) := by
  intro i
  rw [UInt64.toNat_or, UInt64.toNat_shiftRight, hshift, Nat.testBit_or, Bool.or_eq_true,
    Nat.testBit_shiftRight, h, h]
  constructor
  · rintro (⟨k, hk, hbit⟩ | ⟨k, hk, hbit⟩)
    · exact ⟨k, by omega, hbit⟩
    · exact ⟨n + k, by omega, by rwa [show i + (n + k) = n + i + k by omega]⟩
  · rintro ⟨k, hk, hbit⟩
    by_cases hlow : k < n
    · exact .inl ⟨k, hlow, hbit⟩
    · exact .inr ⟨k - n, by omega, by rwa [show n + i + (k - n) = i + k by omega]⟩

/-- With all its bits smeared, a number is one less than a power of two. -/
theorem Smeared.full {v u : UInt64} (h : Smeared 64 v u) : u.toNat = 2 ^ v.toNat.size - 1 := by
  apply Nat.eq_of_testBit_eq
  intro i
  rw [Nat.testBit_two_pow_sub_one, Bool.eq_iff_iff, h i, decide_eq_true_iff, Nat.lt_size]
  constructor
  · rintro ⟨k, -, hbit⟩
    exact (Nat.pow_le_pow_right (by decide) (Nat.le_add_right i k)).trans
      (Nat.ge_two_pow_of_testBit hbit)
  · intro hle
    obtain ⟨k, hk, hbit⟩ := Nat.exists_ge_and_testBit_of_ge_two_pow hle
    refine ⟨k - i, ?_, by rwa [Nat.add_sub_cancel' hk]⟩
    have hlt : 2 ^ k < 2 ^ 64 := (Nat.ge_two_pow_of_testBit hbit).trans_lt v.toNat_lt
    have := (Nat.pow_lt_pow_iff_right (by decide)).mp hlt
    omega

/-- **The capacity**: the least power of two that is not less than the request. -/
theorem nextPow2_toNat {v : UInt64} (hpos : 0 < v.toNat) (hle : v.toNat ≤ 2 ^ 63) :
    (nextPow2 v).toNat = 2 ^ (v.toNat - 1).size := by
  have hsub : (v - 1).toNat = v.toNat - 1 := by
    rw [UInt64.toNat_sub_of_le, UInt64.toNat_one]
    rw [UInt64.le_iff_toNat_le, UInt64.toNat_one]
    exact hpos
  have hfull := ((((((Smeared.start (v - 1)).step 1 rfl).step 2 rfl).step 4 rfl).step 8 rfl).step 16
    rfl).step 32 rfl |>.full
  have hsize : (v.toNat - 1).size ≤ 63 := Nat.size_le.mpr (by omega)
  have hpow : 2 ^ (v.toNat - 1).size ≤ 2 ^ 63 := Nat.pow_le_pow_right (by decide) hsize
  have hone := Nat.one_le_two_pow (n := (v.toNat - 1).size)
  rw [hsub] at hfull
  unfold nextPow2
  rw [UInt64.toNat_add, hfull, UInt64.toNat_one, Nat.sub_add_cancel hone]
  exact Nat.mod_eq_of_lt (by omega)

/-- The constructor. -/
def Layout.make (requested : UInt64) (hpos : 0 < requested.toNat) (hle : requested.toNat ≤ 2 ^ 63) :
    Layout where
  mask := nextPow2 requested - 1
  exponent := (requested.toNat - 1).size
  exponent_lt := Nat.lt_succ_of_le (Nat.size_le.mpr (by omega))
  mask_eq := by
    have hone := Nat.one_le_two_pow (n := (requested.toNat - 1).size)
    have hcap := nextPow2_toNat hpos hle
    rw [UInt64.toNat_sub_of_le, UInt64.toNat_one, hcap, Nat.sub_add_cancel hone]
    rw [UInt64.le_iff_toNat_le, UInt64.toNat_one, hcap]
    exact hone

/-! ## 5. The invariant -/

/-- What the producer's place says about the shared memory, with `p` elements pushed so far and
`room` slots free. -/
def ProducerOk (L : Layout) (c : UInt64) (buffer : Nat → T) (write : UInt64) (p room : Nat) :
    Producer T → Prop
  | .idle | .called _ => True
  | .loadedWrite _ wr => wr = write
  | .copying data wr copied =>
    wr = write ∧ data.items.length ≤ room ∧ copied ≤ data.items.length ∧
      ∀ k (_ : k < copied) x, data.items[k]? = some x → buffer (L.place c (p + k)) = x

/-- What the consumer's place says, with `q` the elements that are there. -/
def ConsumerOk (read : UInt64) (q : List T) : Consumer T → Prop
  | .idle | .called _ | .asked _ => True
  | .loadedRead _ rd => rd = read
  | .copying n rd copied => rd = read ∧ n.toNat ≤ q.length ∧ copied.length ≤ n.toNat ∧ copied <+: q
  | .askedRead rd => rd = read
  | .askedWrite wr => (wr - read).toNat ≤ q.length

theorem ProducerOk.mono {L : Layout} {c write : UInt64} {buffer : Nat → T} {p room room' : Nat}
    {pc : Producer T} (h : ProducerOk L c buffer write p room pc) (hle : room ≤ room') :
    ProducerOk L c buffer write p room' pc := by
  cases pc with
  | idle | called data | loadedWrite data wr => exact h
  | copying data wr copied => exact ⟨h.1, h.2.1.trans hle, h.2.2⟩

theorem ConsumerOk.append {read : UInt64} {q : List T} {pc : Consumer T} (h : ConsumerOk read q pc)
    (more : List T) : ConsumerOk read (q ++ more) pc := by
  have hle : q.length ≤ (q ++ more).length := by simp
  cases pc with
  | idle | called n | loadedRead n rd | asked readFirst | askedRead rd => exact h
  | copying n rd copied =>
    exact ⟨h.1, h.2.1.trans hle, h.2.2.1, h.2.2.2.trans (List.prefix_append q more)⟩
  | askedWrite wr => exact h.trans hle

/-- The queue `q` is what the ring holds. -/
structure Holds (L : Layout) (c : UInt64) (s : State T) (q : List T) : Prop where
  run : Fifo.Run L.size [] s.log q
  read : s.read.toNat = (c.toNat + (Fifo.outputs s.log).length) % 2 ^ 64
  write : s.write.toNat = (c.toNat + (Fifo.inputs s.log).length) % 2 ^ 64
  stored : ∀ k x, q[k]? = some x → s.buffer (L.place c ((Fifo.outputs s.log).length + k)) = x
  producer :
    ProducerOk L c s.buffer s.write (Fifo.inputs s.log).length (L.size - q.length) s.producer
  consumer : ConsumerOk s.read q s.consumer

namespace Holds

variable {L : Layout} {c : UInt64} {s s' : State T} {q : List T}

theorem length_le (h : Holds L c s q) : q.length ≤ L.size := h.run.length_le (Nat.zero_le _)

theorem pushed (h : Holds L c s q) : Fifo.inputs s.log = Fifo.outputs s.log ++ q := by
  simpa using h.run.conserved

theorem pushed_length (h : Holds L c s q) :
    (Fifo.inputs s.log).length = (Fifo.outputs s.log).length + q.length := by
  rw [h.pushed, List.length_append]

/-- `write - read` counts what is there, also when the counters have wrapped. -/
theorem distance (h : Holds L c s q) : (s.write - s.read).toNat = q.length := by
  have hlen := h.pushed_length
  have hsize := h.length_le
  have hmax := L.size_le
  have hread := h.read
  have hwrite := h.write
  rw [UInt64.toNat_sub]
  omega

theorem start (L : Layout) (c : UInt64) (buffer : Nat → T) :
    Holds L c (RingBuffer.start c buffer) [] where
  run := .nil
  read := by simp [RingBuffer.start]
  write := by simp [RingBuffer.start]
  stored := by simp
  producer := trivial
  consumer := trivial

/-! ## 6. The steps -/

/-- A call that changes nothing reports. -/
theorem report (h : Holds L c s q) {e : Event T} {producer : Producer T} {consumer : Consumer T}
    (hreport : Fifo.Step L.size q e q) (hin : e.input = []) (hout : e.output = [])
    (hproducer :
      ProducerOk L c s.buffer s.write (Fifo.inputs s.log).length (L.size - q.length) producer)
    (hconsumer : ConsumerOk s.read q consumer) :
    Holds L c { s with producer, consumer, log := s.log ++ [e] } q where
  run := h.run.concat hreport
  read := by simpa [hout] using h.read
  write := by simpa [hin] using h.write
  stored := by simpa [hout] using h.stored
  producer := by simpa [hin] using hproducer
  consumer := hconsumer

/-- How much room the producer sees at its load of `read_`. -/
theorem room (h : Holds L c s q) : (L.capacity - (s.write - s.read)).toNat = L.size - q.length := by
  have hsize := h.length_le
  rw [UInt64.toNat_sub_of_le, L.capacity_toNat, h.distance]
  rw [UInt64.le_iff_toNat_le, L.capacity_toNat, h.distance]
  exact hsize

/-- The slot of the element that the producer copies next. -/
theorem producer_slot (h : Holds L c s q) {data : Span T} {wr : UInt64} {copied k : Nat}
    (hpc : s.producer = .copying data wr copied) (hk : k < data.items.length) :
    L.slot wr data.size k = L.place c ((Fifo.outputs s.log).length + (q.length + k)) := by
  have hp := h.producer
  rw [hpc] at hp
  obtain ⟨rfl, hroom, -, -⟩ := hp
  have hsize := data.size_toNat
  rw [L.slot_place h.write (by omega) (by omega), h.pushed_length, Nat.add_assoc]

/-- The slot of the element that the consumer copies next. -/
theorem consumer_slot (h : Holds L c s q) {n rd : UInt64} {copied : List T} {k : Nat}
    (hpc : s.consumer = .copying n rd copied) (hk : k < n.toNat) :
    L.slot rd n k = L.place c ((Fifo.outputs s.log).length + k) := by
  have hc := h.consumer
  rw [hpc] at hc
  obtain ⟨rfl, hn, -, -⟩ := hc
  have hsize := h.length_le
  exact L.slot_place h.read hk (by omega)

theorem produce (h : Holds L c s q) (hstep : produce L s = some s') : ∃ q', Holds L c s' q' := by
  have hp := h.producer
  unfold RingBuffer.produce at hstep
  split at hstep
  case h_1 => cases hstep
  case h_2 data hpc =>
    cases hstep
    exact ⟨q, h.run, h.read, h.write, h.stored, rfl, h.consumer⟩
  case h_3 data wr hpc =>
    rw [hpc] at hp
    obtain rfl : wr = s.write := hp
    have hroom := h.room
    have hsize := data.size_toNat
    dsimp only at hstep
    split at hstep
    case isTrue hfull =>
      cases hstep
      rw [gt_iff_lt, UInt64.lt_iff_toNat_lt, hroom, hsize] at hfull
      have hrefuse : Fifo.Step L.size q (.refused data.items.length) q := .refuse (by omega)
      exact ⟨q, h.report hrefuse rfl rfl trivial h.consumer⟩
    case isFalse hfits =>
      cases hstep
      rw [gt_iff_lt, UInt64.lt_iff_toNat_lt, hroom, hsize] at hfits
      exact ⟨q, h.run, h.read, h.write, h.stored,
        ⟨rfl, by omega, Nat.zero_le _, fun k hk => absurd hk (Nat.not_lt_zero k)⟩, h.consumer⟩
  case h_4 data wr copied hpc =>
    have hslot := fun k => h.producer_slot (k := k) hpc
    rw [hpc] at hp
    obtain ⟨rfl, hroom, hcopied, hsame⟩ := hp
    have hlen := h.pushed_length
    split at hstep
    case h_1 x hx =>
      cases hstep
      have hlt : copied < data.items.length := (List.getElem?_eq_some_iff.mp hx).1
      rw [hslot copied hlt]
      refine ⟨q, h.run, h.read, h.write, ?_, ⟨rfl, hroom, hlt, ?_⟩, h.consumer⟩
      · -- what is stored lies less than a capacity before the new element
        intro k y hy
        have hk : k < q.length := (List.getElem?_eq_some_iff.mp hy).1
        dsimp only
        rw [Function.update_of_ne, h.stored k y hy]
        intro heq
        have := L.place_inj (by omega) (by omega) heq
        omega
      · intro k hk y hy
        dsimp only
        rw [hlen, Nat.add_assoc]
        rcases Nat.lt_succ_iff_lt_or_eq.mp hk with hbefore | rfl
        · rw [Function.update_of_ne, ← Nat.add_assoc, ← hlen, hsame k hbefore y hy]
          intro heq
          have := L.place_inj (by omega) (by omega) heq
          omega
        · rw [Function.update_self]
          exact Option.some.inj (hx.symm.trans hy)
    case h_2 hnone =>
      cases hstep
      have hall : copied = data.items.length :=
        Nat.le_antisymm hcopied (List.getElem?_eq_none_iff.mp hnone)
      have hsize := h.length_le
      have hpush : Fifo.Step L.size q (.pushed data.items) (q ++ data.items) := .push (by omega)
      refine ⟨q ++ data.items, h.run.concat hpush, by simpa [Event.output] using h.read, ?_, ?_,
        trivial, ?_⟩
      · have hwrite := h.write
        simp only [UInt64.toNat_add, data.size_toNat, Fifo.inputs_concat, Event.input,
          List.length_append]
        omega
      · intro k x hx
        simp only [Fifo.outputs_concat, Event.output, List.append_nil]
        rcases Nat.lt_or_ge k q.length with hold | hnew
        · rw [List.getElem?_append_left hold] at hx
          exact h.stored k x hx
        · rw [List.getElem?_append_right hnew] at hx
          have hk : k - q.length < data.items.length := (List.getElem?_eq_some_iff.mp hx).1
          have := hsame (k - q.length) (by omega) x hx
          rw [hlen] at this
          rwa [show (Fifo.outputs s.log).length + k =
            (Fifo.outputs s.log).length + q.length + (k - q.length) by omega]
      · exact h.consumer.append data.items

theorem consume (h : Holds L c s q) (hstep : consume L s = some s') : ∃ q', Holds L c s' q' := by
  have hc := h.consumer
  unfold RingBuffer.consume at hstep
  split at hstep
  case h_1 => cases hstep
  case h_2 n hpc =>
    cases hstep
    exact ⟨q, h.run, h.read, h.write, h.stored, h.producer, rfl⟩
  case h_3 n rd hpc =>
    rw [hpc] at hc
    obtain rfl : rd = s.read := hc
    have hdist := h.distance
    dsimp only at hstep
    split at hstep
    case isTrue hfew =>
      cases hstep
      rw [gt_iff_lt, UInt64.lt_iff_toNat_lt, hdist] at hfew
      exact ⟨q, h.report (.starve hfew) rfl rfl h.producer trivial⟩
    case isFalse henough =>
      cases hstep
      rw [gt_iff_lt, UInt64.lt_iff_toNat_lt, hdist] at henough
      exact ⟨q, h.run, h.read, h.write, h.stored, h.producer,
        ⟨rfl, Nat.le_of_not_lt henough, Nat.zero_le _, List.nil_prefix⟩⟩
  case h_4 n rd copied hpc =>
    have hslot := fun k => h.consumer_slot (k := k) hpc
    rw [hpc] at hc
    obtain ⟨rfl, hn, hcopied, hprefix⟩ := hc
    split at hstep
    case isTrue hmore =>
      cases hstep
      rw [hslot copied.length hmore]
      refine ⟨q, h.run, h.read, h.write, h.stored, h.producer, rfl, hn, ?_, ?_⟩
      · rw [List.length_append, List.length_singleton]
        exact hmore
      · have hlt : copied.length < q.length := by omega
        have hnext := h.stored copied.length q[copied.length] (List.getElem?_eq_getElem hlt)
        rw [hnext]
        obtain ⟨rest, rfl⟩ := hprefix
        cases rest with
        | nil => simp at hlt
        | cons y rest => exact ⟨rest, by simp⟩
    case isFalse hdone =>
      cases hstep
      have hall : copied.length = n.toNat := by omega
      obtain ⟨rest, rfl⟩ := hprefix
      refine ⟨rest, h.run.concat .pop, ?_, by simpa [Event.input] using h.write, ?_, ?_, trivial⟩
      · have hread := h.read
        simp only [UInt64.toNat_add, Fifo.outputs_concat, Event.output, List.length_append]
        omega
      · intro k x hx
        have hk : (copied ++ rest)[copied.length + k]? = some x := by
          rw [List.getElem?_append_right (Nat.le_add_right _ _), Nat.add_sub_cancel_left]
          exact hx
        simpa [Event.output, Nat.add_assoc] using h.stored (copied.length + k) x hk
      · have hroom : L.size - (copied ++ rest).length ≤ L.size - rest.length := by
          rw [List.length_append]
          omega
        simpa [Event.input] using h.producer.mono hroom
  case h_5 hpc =>
    cases hstep
    exact ⟨q, h.run, h.read, h.write, h.stored, h.producer, rfl⟩
  case h_6 hpc =>
    cases hstep
    exact ⟨q, h.run, h.read, h.write, h.stored, h.producer, Nat.le_of_eq h.distance⟩
  case h_7 rd hpc =>
    rw [hpc] at hc
    obtain rfl : rd = s.read := hc
    cases hstep
    exact ⟨q, h.report (.count (Nat.le_of_eq h.distance)) rfl rfl h.producer trivial⟩
  case h_8 wr hpc =>
    rw [hpc] at hc
    cases hstep
    exact ⟨q, h.report (.count hc) rfl rfl h.producer trivial⟩

/-- **Every step keeps the ring a queue.** -/
theorem step (h : Holds L c s q) {a : Act T} (hstep : step L s a = some s') :
    ∃ q', Holds L c s' q' := by
  cases a with
  | tryPush data =>
    simp only [RingBuffer.step] at hstep
    split at hstep
    · cases hstep
      exact ⟨q, h.run, h.read, h.write, h.stored, trivial, h.consumer⟩
    · cases hstep
  | tryPop n | availableRead readFirst =>
    simp only [RingBuffer.step] at hstep
    split at hstep
    · cases hstep
      exact ⟨q, h.run, h.read, h.write, h.stored, h.producer, trivial⟩
    · cases hstep
  | producer => exact h.produce hstep
  | consumer => exact h.consume hstep

end Holds

theorem Reachable.holds {L : Layout} {c : UInt64} {s : State T} (h : Reachable L c s) :
    ∃ q, Holds L c s q := by
  induction h with
  | start buffer => exact ⟨[], .start L c buffer⟩
  | step _ hstep ih =>
    obtain ⟨q, hq⟩ := ih
    exact hq.step hstep

/-! ## 7. What the two sides touch -/

/-- What lies in the ring from `read` up to `write`. -/
def contents (L : Layout) (s : State T) : List T :=
  (List.range (s.write - s.read).toNat).map fun k => s.buffer ((s.read.toNat + k) % L.size)

/-- The slots from `read` up to `write`, which the consumer may be using. -/
def unread (L : Layout) (s : State T) : Set Nat :=
  {i | ∃ k < (s.write - s.read).toNat, i = (s.read.toNat + k) % L.size}

/-- The slots that the call the producer is copying for writes. -/
def writing (L : Layout) (s : State T) : Set Nat :=
  {i | ∃ data wr copied k, s.producer = .copying data wr copied ∧ k < data.items.length ∧
    i = L.slot wr data.size k}

/-- The slots that the call the consumer is copying for reads. -/
def reading (L : Layout) (s : State T) : Set Nat :=
  {i | ∃ n rd copied k, s.consumer = .copying n rd copied ∧ k < n.toNat ∧ i = L.slot rd n k}

/-- The side that takes the step has been let in by its comparison. -/
def Admitted (s : State T) : Act T → Prop
  | .producer => ∃ data wr copied, s.producer = .copying data wr copied
  | .consumer => ∃ n rd copied, s.consumer = .copying n rd copied
  | _ => False

/-- What one step may do.  A call that is not let in changes neither the memory nor a counter, and
one that is let in goes on to its success, so a failed call has changed nothing; memory is written
in the slots of the producer's copy only, and what the consumer does depends on the memory in the
slots of its own copy only. -/
structure Careful (L : Layout) (s : State T) (a : Act T) (s' : State T) : Prop where
  refused : ¬ Admitted s a → s'.buffer = s.buffer ∧ s'.read = s.read ∧ s'.write = s.write
  admitted : Admitted s a →
    (Admitted s' a ∧ s'.log = s.log) ∨
      ∃ data, s'.log = s.log ++ [.pushed data] ∨ s'.log = s.log ++ [.popped data]
  writes : ∀ i, i ∉ writing L s → s'.buffer i = s.buffer i
  reads : ∀ buffer : Nat → T, (∀ i ∈ reading L s, buffer i = s.buffer i) → a = .consumer →
    step L { s with buffer } a = some { s' with buffer }

theorem consume_refused {L : Layout} {s s' : State T} (hstep : consume L s = some s')
    (hout : ¬ Admitted s .consumer) : s'.read = s.read ∧ s'.write = s.write := by
  obtain ⟨buffer, read, write, producer, consumer, log⟩ := s
  cases consumer with
  | idle => cases hstep
  | copying n rd copied => exact absurd ⟨n, rd, copied, rfl⟩ hout
  | called n | askedRead rd | askedWrite wr =>
    cases hstep
    exact ⟨rfl, rfl⟩
  | asked readFirst =>
    cases readFirst <;>
    · cases hstep
      exact ⟨rfl, rfl⟩
  | loadedRead n rd =>
    simp only [consume] at hstep
    split at hstep <;>
    · cases hstep
      exact ⟨rfl, rfl⟩

theorem consume_buffer {L : Layout} {s s' : State T} (hstep : consume L s = some s') :
    s'.buffer = s.buffer := by
  obtain ⟨buffer, read, write, producer, consumer, log⟩ := s
  cases consumer with
  | idle => cases hstep
  | called n | askedRead rd | askedWrite wr =>
    cases hstep
    rfl
  | asked readFirst =>
    cases readFirst <;>
    · cases hstep
      rfl
  | loadedRead n rd | copying n rd copied =>
    simp only [consume] at hstep
    split at hstep <;>
    · cases hstep
      rfl

/-- The consumer reads in the slots of its copy only. -/
theorem consume_reads {L : Layout} {s s' : State T} {other : Nat → T}
    (hsame : ∀ i ∈ reading L s, other i = s.buffer i) (hstep : consume L s = some s') :
    consume L { s with buffer := other } = some { s' with buffer := other } := by
  obtain ⟨buffer, read, write, producer, consumer, log⟩ := s
  cases consumer with
  | idle => cases hstep
  | called n | askedRead rd | askedWrite wr =>
    cases hstep
    rfl
  | asked readFirst =>
    cases readFirst <;>
    · cases hstep
      rfl
  | loadedRead n rd =>
    simp only [consume] at hstep ⊢
    split at hstep <;>
    · cases hstep
      simp only [*, if_true, if_false]
  | copying n rd copied =>
    simp only [consume] at hstep ⊢
    split at hstep
    case isTrue hmore =>
      cases hstep
      rw [if_pos hmore, hsame _ ⟨n, rd, copied, copied.length, rfl, hmore, rfl⟩]
    case isFalse hdone =>
      cases hstep
      rw [if_neg hdone]

theorem careful {L : Layout} {s s' : State T} {a : Act T} (hstep : step L s a = some s') :
    Careful L s a s' := by
  cases a with
  | tryPush data | tryPop n | availableRead readFirst =>
    simp only [step] at hstep
    split at hstep
    · cases hstep
      exact ⟨fun _ => ⟨rfl, rfl, rfl⟩, False.elim, fun _ _ => rfl, fun _ _ h => nomatch h⟩
    · cases hstep
  | producer =>
    simp only [step, produce] at hstep
    split at hstep
    case h_1 => cases hstep
    case h_2 data hpc =>
      cases hstep
      refine ⟨fun _ => ⟨rfl, rfl, rfl⟩, ?_, fun _ _ => rfl, fun _ _ h => nomatch h⟩
      rintro ⟨_, _, _, h⟩
      cases hpc.symm.trans h
    case h_3 data wr hpc =>
      have hout : ¬ Admitted s .producer := by
        rintro ⟨_, _, _, h⟩
        cases hpc.symm.trans h
      split at hstep <;>
      · cases hstep
        exact ⟨fun _ => ⟨rfl, rfl, rfl⟩, fun h => absurd h hout, fun _ _ => rfl,
          fun _ _ h => nomatch h⟩
    case h_4 data wr copied hpc =>
      have hin : Admitted s .producer := ⟨data, wr, copied, hpc⟩
      split at hstep
      case h_1 x hx =>
        cases hstep
        refine ⟨fun h => absurd hin h, fun _ => .inl ⟨⟨_, _, _, rfl⟩, rfl⟩, ?_,
          fun _ _ h => nomatch h⟩
        intro i hi
        refine Function.update_of_ne ?_ _ _
        rintro rfl
        exact hi ⟨data, wr, copied, copied, hpc, (List.getElem?_eq_some_iff.mp hx).1, rfl⟩
      case h_2 =>
        cases hstep
        exact ⟨fun h => absurd hin h, fun _ => .inr ⟨_, .inl rfl⟩, fun _ _ => rfl,
          fun _ _ h => nomatch h⟩
  | consumer =>
    have hstep : consume L s = some s' := hstep
    have hbuffer := consume_buffer hstep
    refine ⟨fun hout => ⟨hbuffer, consume_refused hstep hout⟩, ?_, fun i _ => congrFun hbuffer i,
      fun buffer hsame _ => consume_reads hsame hstep⟩
    rintro ⟨n, rd, copied, hpc⟩
    simp only [consume, hpc] at hstep
    split at hstep
    · cases hstep
      exact .inl ⟨⟨_, _, _, rfl⟩, rfl⟩
    · cases hstep
      exact .inr ⟨_, .inr rfl⟩

/-! ## 8. The ring as a queue -/

namespace Holds

variable {L : Layout} {c : UInt64} {s : State T} {q : List T}

/-- Where the elements from `read` on live. -/
theorem unread_place (h : Holds L c s q) (k : Nat) :
    (s.read.toNat + k) % L.size = L.place c ((Fifo.outputs s.log).length + k) := by
  rw [h.read, Layout.place, ← Nat.add_assoc, ← Nat.mod_add_mod (_ % _),
    Nat.mod_mod_of_dvd _ L.size_dvd, Nat.mod_add_mod]

theorem contents_eq (h : Holds L c s q) : contents L s = q := by
  apply List.ext_getElem
  · rw [contents, List.length_map, List.length_range, h.distance]
  · intro k hk hk'
    simp only [contents, List.getElem_map, List.getElem_range, h.unread_place k]
    exact h.stored k q[k] (List.getElem?_eq_getElem hk')

/-- The producer copies to free slots. -/
theorem disjoint (h : Holds L c s q) : Disjoint (writing L s) (unread L s) := by
  rw [Set.disjoint_left]
  rintro i ⟨data, wr, copied, k, hpc, hk, rfl⟩ ⟨k', hk', heq⟩
  have hproducer := h.producer
  rw [hpc] at hproducer
  have hroom := hproducer.2.1
  rw [h.distance] at hk'
  rw [h.producer_slot hpc hk, h.unread_place k'] at heq
  have := L.place_inj (by omega) (by omega) heq.symm
  omega

/-- The consumer copies from slots that are not free. -/
theorem reading_subset (h : Holds L c s q) : reading L s ⊆ unread L s := by
  rintro i ⟨n, rd, copied, k, hpc, hk, rfl⟩
  have hconsumer := h.consumer
  rw [hpc] at hconsumer
  refine ⟨k, ?_, ?_⟩
  · rw [h.distance]
    exact Nat.lt_of_lt_of_le hk hconsumer.2.1
  · rw [h.consumer_slot hpc hk, h.unread_place k]

theorem writing_lt (h : Holds L c s q) : ∀ i ∈ writing L s, i < L.size := by
  rintro i ⟨data, wr, copied, k, hpc, hk, rfl⟩
  rw [h.producer_slot hpc hk]
  exact L.place_lt c _

end Holds

/-- **The ring buffer is a bounded queue.**  In every state of every interleaving, whatever the
counters started from, the calls so far are a run of a queue of `2 ^ exponent` items whose items are
what lies between the counters; so what was popped is a beginning of what was pushed, and no more
than a capacity lies between the counters.  The slots one side copies to and the other may be using
are apart, and every further step is careful: a failed call changes nothing. -/
theorem refines_fifo (L : Layout) (c : UInt64) {s : State T} (h : Reachable L c s) :
    Fifo.Run (2 ^ L.exponent) [] s.log (contents L s) ∧
    Fifo.outputs s.log <+: Fifo.inputs s.log ∧
    (s.write - s.read).toNat ≤ 2 ^ L.exponent ∧
    (∀ i ∈ writing L s ∪ reading L s, i < 2 ^ L.exponent) ∧
    Disjoint (writing L s) (unread L s) ∧ reading L s ⊆ unread L s ∧
    ∀ a s', step L s a = some s' → Careful L s a s' := by
  obtain ⟨q, hq⟩ := h.holds
  have hinside : ∀ i ∈ writing L s ∪ reading L s, i < 2 ^ L.exponent := by
    rintro i (hi | hi)
    · exact hq.writing_lt i hi
    · obtain ⟨k, -, rfl⟩ := hq.reading_subset hi
      exact Nat.mod_lt _ L.size_pos
  refine ⟨?_, hq.run.outputs_prefix, ?_, hinside, hq.disjoint, hq.reading_subset,
    fun a s' => careful⟩
  · rw [hq.contents_eq]
    exact hq.run
  · rw [hq.distance]
    exact hq.length_le

/-- A run the scheduler asks for. -/
def runs (L : Layout) (s : State T) (acts : List (Act T)) : Option (State T) :=
  acts.foldlM (step L) s

theorem Reachable.runs {L : Layout} {c : UInt64} {s s' : State T} {acts : List (Act T)}
    (h : Reachable L c s) (hruns : RingBuffer.runs L s acts = some s') : Reachable L c s' := by
  induction acts generalizing s with
  | nil =>
    cases hruns
    exact h
  | cons a acts ih =>
    obtain ⟨mid, hstep, hrest⟩ := Option.bind_eq_some_iff.mp hruns
    exact ih (h.step hstep) hrest

/-- A ring of four. -/
def four : Layout := Layout.make 3 (by decide) (by decide)

/-- Three items are pushed while two are popped, on a ring whose counters wrap meanwhile. -/
def acrossTheWrap : Option (State Nat) :=
  runs four (start (0 - 2) fun _ => 0)
    ([.tryPush ⟨[1, 2, 3], by decide⟩, .producer, .tryPop 4, .consumer, .consumer, .availableRead true,
      .consumer] ++ List.replicate 4 .producer ++ [.consumer, .tryPop 2, .consumer, .producer] ++
      List.replicate 4 .consumer)

theorem refines_fifo_across_the_wrap :
    ∃ s, acrossTheWrap = some s ∧ (s.read, s.write) = (0, 1) ∧ contents four s = [3] ∧
      Fifo.outputs s.log = [1, 2] ∧ Fifo.outputs s.log <+: Fifo.inputs s.log := by
  obtain ⟨s, hs⟩ : ∃ s, acrossTheWrap = some s := ⟨_, rfl⟩
  have hreach : Reachable four (0 - 2) s := (Reachable.start fun _ => 0).runs hs
  refine ⟨s, hs, ?_, ?_, ?_, (refines_fifo four (0 - 2) hreach).2.1⟩
  all_goals
    cases hs
    decide +kernel

end AirplaySender.RingBuffer
