/-
# What the host tells the sender, and when

The loop keeps no books.  It has the slots, and the sockets it polled with their descriptor and
generation.  Each piece of `pump` is walked once: what the sender does in a callback may move the
books on, but not back, and a polled socket whose descriptor and generation are still those of its
slot is the slot's own, as long as the slot was opened fewer than 2^32 times in between.

So every run is in order in which no round of the loop sees a slot opened 2^32 times
(`run_orderly`), whatever the system answers, descriptors that come back included.  The generation
counter of 32 bits does not say more: a sender that reconnects 2^32 times in one callback is told
the end of an attempt that was never connected (`run_disorderly`).
-/
import AirplaySender.LoopCalls

namespace AirplaySender.Loop

open Octets Prog

variable {α : Type} {w w' : World} {b b' : Books}

/-! ## 1. Calls and callbacks -/

/-- The books of a world between two events, outside of any call of the sender. -/
structure At (w : World) (b : Books) : Prop where
  heard : Books.after w.trace = some b
  outside : b.inside = none
  linked : Linked w b

theorem At.of_quiet (h : At w b) (hq : w'.quiet = w.quiet) : At w' b where
  heard := by
    have htrace : w'.quiet.trace = w.quiet.trace := by rw [hq]
    exact (congrArg Books.after htrace).trans h.heard
  outside := h.outside
  linked := h.linked.of_quiet hq

/-- A run that was in order so far still is. -/
def Keeps (w w' : World) : Prop := w.Orderly → w'.Orderly

theorem Silent.keeps (h : Silent w w') : Keeps w w' := by
  intro horderly
  unfold World.Orderly
  rwa [h.1]

/-- What a silent piece has not changed. -/
theorem Reaches.silent {m : M α} {Q : α → World → Prop} (h : Reaches Silent w m Q) :
    Reaches Keeps w m fun a w' => Q a w' ∧ Silent w w' := by
  have hrun : ∀ w', Relation.ReflTransGen Silent w w' → Silent w w' := by
    intro w' hreach
    induction hreach with
    | refl => exact ⟨rfl, rfl⟩
    | tail _ hstep ih => exact ⟨hstep.1.trans ih.1, hstep.2.trans ih.2⟩
  exact (h.mono_reach fun a w' hreach hq => ⟨hq, hrun w' hreach⟩).weaken fun _ _ => Silent.keeps

/-- An event that is in order. -/
theorem reaches_emit {e : Event} {Q : Unit → World → Prop} (h : Books.after w.trace = some b)
    (he : b.hear e = some b')
    (hQ : Books.after (e :: w.trace) = some b' → Q () { w with trace := e :: w.trace }) :
    Reaches Keeps w (emit e) Q := by
  have hafter : Books.after (e :: w.trace) = some b' := by
    rw [Books.after, h]
    exact he
  refine Reaches.modify ?_ (hQ hafter)
  intro _
  unfold World.Orderly
  rw [hafter]
  rfl

/-- The sender calls back, or the run stops here. -/
theorem reaches_nextCalls {Q : List Call → World → Prop}
    (hQ : ∀ cs rest, w.calls = cs :: rest → Q cs { w with calls := rest }) :
    Reaches Keeps w nextCalls Q := by
  unfold nextCalls
  cases hcalls : w.calls with
  | nil =>
    constructor
    · simp only [hcalls]
      exact .refl
    · intro cs hcs
      simp only [hcalls] at hcs
      cases hcs
  | cons cs rest =>
    constructor
    · simp only [hcalls]
      exact .single id
    · intro cs' hcs
      simp only [hcalls] at hcs ⊢
      cases hcs
      exact hQ cs rest hcalls

variable {B n : Tcp ⊕ Udp → ℕ}

/-- The state `pump` is in between two events: the books, and the attempts still possible. -/
structure Fine (B : Tcp ⊕ Udp → ℕ) (w : World) (b : Books) : Prop extends At w b where
  below : b.Below B (opens w.calls.flatten)

theorem Fine.of_quiet (h : Fine B w b) (hq : w'.quiet = w.quiet) : Fine B w' b where
  toAt := h.toAt.of_quiet hq
  below := by
    have hcalls : w'.quiet.calls = w.quiet.calls := by rw [hq]
    have hsame : w'.calls = w.calls := hcalls
    rw [hsame]
    exact h.below

/-- A quiet piece in front of the rest. -/
theorem Fine.quietly {m : M α} {Q : α → World → Prop} (h : Fine B w b)
    (hm : Fixes World.quiet m) (hQ : ∀ a w', Fine B w' b → w'.quiet = w.quiet → Q a w') :
    Reaches Keeps w m Q :=
  (reaches_of_fixes hm fun a w' hq => hQ a w' (h.of_quiet hq) hq).weaken fun _ _ => Silent.keeps

/-- Two attempts with one generation are the same if they are near enough. -/
theorem eq_of_gen {k k' : ℕ} (h : UInt32.ofNat k' = UInt32.ofNat k) (hle : k ≤ k')
    (hlt : k' < k + 2 ^ 32) : k' = k := by
  have hmod := congrArg UInt32.toNat h
  rw [UInt32.toNat_ofNat', UInt32.toNat_ofNat'] at hmod
  omega

/-- A socket that still has its descriptor and its generation is the one that was bound. -/
theorem still_held {u : Udp} {k : ℕ} (h : Fine B w b) (hle : k ≤ (b.udp u).1)
    (hfd : (w.udp u).fd ≠ badSock) (hgen : (w.udp u).gen = UInt32.ofNat k)
    (hB : B (.inr u) < k + 2 ^ 32) : b.udp u = (k, true) := by
  have hs := h.linked.udp u
  have hbelow : (b.udp u).1 + _ ≤ B (.inr u) := h.below (.inr u)
  have hk : (b.udp u).1 = k := eq_of_gen (hs.gen.symm.trans hgen) hle (by omega)
  cases hheld : (b.udp u).2 with
  | true => rw [← hk, ← hheld]
  | false => exact absurd (hs.free hheld) hfd

/-- A socket that still has its descriptor and its generation is up as it was. -/
theorem still_up {b₁ : Books} {ch : Tcp} {k : ℕ} (h : Fine B w b) (hbefore : b₁.Before b)
    (hup : b₁.tcp ch = (k, .up)) (hfd : (w.tcp ch).fd ≠ badSock)
    (hgen : (w.tcp ch).gen = UInt32.ofNat k) (hB : B (.inl ch) < k + 2 ^ 32) :
    b.tcp ch = (k, .up) := by
  have hs := h.linked.tcp ch
  have hrank := hbefore.tcp ch
  have hbelow : (b.tcp ch).1 + _ ≤ B (.inl ch) := h.below (.inl ch)
  have hrank' := Books.Phase.rank_le (b.tcp ch).2
  have hrankup : Phase.up.rank = 1 := rfl
  have hrankwaiting : Phase.waiting.rank = 0 := rfl
  rw [hup] at hrank
  simp only at hrank
  have hk : (b.tcp ch).1 = k := eq_of_gen (hs.gen.symm.trans hgen) (by omega) (by omega)
  cases hp : (b.tcp ch).2 with
  | waiting =>
    rw [hp] at hrank
    omega
  | up => rw [← hk, ← hp]
  | ended => exact absurd (hs.ended hp).1 hfd

/-- What an entry of the snapshot still stands for: a socket of the past, which can be the present
one only if nothing has opened the slot since. -/
def Entry.Valid (B : Tcp ⊕ Udp → ℕ) (b : Books) : Entry → Prop
  | .tcp ch fd gen k =>
    fd ≠ badSock ∧ gen = UInt32.ofNat k ∧ k ≤ (b.tcp ch).1 ∧ B (.inl ch) < k + 2 ^ 32
  | .udp u fd gen k =>
    fd ≠ badSock ∧ gen = UInt32.ofNat k ∧ k ≤ (b.udp u).1 ∧ B (.inr u) < k + 2 ^ 32

theorem Entry.Valid.later {e : Entry} {b' : Books} (h : e.Valid B b) (hbefore : b.Before b') :
    e.Valid B b' := by
  cases e with
  | tcp ch fd gen k =>
    obtain ⟨hfd, hgen, hle, hB⟩ := h
    exact ⟨hfd, hgen, hle.trans (hbefore.attempt_le ch), hB⟩
  | udp u fd gen k =>
    obtain ⟨hfd, hgen, hle, hB⟩ := h
    exact ⟨hfd, hgen, hle.trans (hbefore.udp u), hB⟩

/-- The entries of a snapshot are the slots as they are. -/
theorem valid_snapshot {e : Entry} (h : Fine B w b)
    (hB : ∀ ch, B (.inl ch) < (b.tcp ch).1 + 2 ^ 32) (hB' : ∀ u, B (.inr u) < (b.udp u).1 + 2 ^ 32)
    (he : e ∈ snapshot w) : e.Valid B b := by
  rcases List.mem_append.mp he with he | he
  · obtain ⟨ch, hch, rfl⟩ := List.mem_map.mp he
    have hs := h.linked.tcp ch
    have hfd : (w.tcp ch).fd ≠ badSock := by simpa using (List.mem_filter.mp hch).2
    exact ⟨hfd, hs.attempt ▸ hs.gen, hs.attempt.le, hs.attempt ▸ hB ch⟩
  · obtain ⟨u, hu, rfl⟩ := List.mem_map.mp he
    have hs := h.linked.udp u
    have hfd : (w.udp u).fd ≠ badSock := by simpa using (List.mem_filter.mp hu).2
    exact ⟨hfd, hs.attempt ▸ hs.gen, hs.attempt.le, hs.attempt ▸ hB' u⟩

section Io

variable [Platform]

/-- **A call of the sender is in order**, and uses up one of the attempts left. -/
theorem reaches_perform (c : Call) (h : At w b) (hB : b.Below B (opens [c] + n)) :
    Reaches Keeps w (perform c) fun _ w' =>
      ∃ b', At w' b' ∧ b.Before b' ∧ b'.Below B n ∧ w'.calls = w.calls := by
  unfold perform
  have hentering : b.hear (.enter c) = some { b.begin c with inside := some c } := by
    simp [Books.hear, h.outside]
  refine Reaches.bind (reaches_emit h.heard hentering ?_)
  intro hentered
  have hlinked : Linked { w with trace := .enter c :: w.trace } b := ⟨h.linked.tcp, h.linked.udp⟩
  refine Reaches.bind ((Reaches.silent (reaches_body c hlinked)).mono ?_)
  rintro port w₁ ⟨hlinked₁, htrace, hcalls⟩
  have hheard : Books.after w₁.trace = some { b.begin c with inside := some c } := by
    rw [htrace]
    exact hentered
  have hleaving : Books.hear { b.begin c with inside := some c } (.leave port) =
      some { (b.begin c).finish port c with inside := none } := by
    cases c <;> rfl
  refine reaches_emit hheard hleaving ?_
  intro hleft
  have hbefore := (Books.before_begin b c).trans (Books.before_finish (b.begin c) port c)
  have hbelow : ((b.begin c).finish port c).Below B n := by
    intro x
    have hx := hB x
    rw [Pi.add_apply, opens_cons] at hx
    rw [Books.count_finish, Books.count_begin]
    omega
  exact ⟨_, ⟨hleft, rfl, ⟨hlinked₁.tcp, hlinked₁.udp⟩⟩, ⟨hbefore.tcp, hbefore.udp⟩, hbelow, hcalls⟩

theorem reaches_calls : ∀ (cs : List Call) {w : World} {b : Books}, At w b →
    b.Below B (opens cs + opens w.calls.flatten) →
      Reaches Keeps w (each perform cs) fun _ w' => ∃ b', Fine B w' b' ∧ b.Before b'
  | [], w, b, h, hB => by
    refine Reaches.pure ⟨b, ⟨h, ?_⟩, Books.Before.refl b⟩
    intro x
    simpa [opens] using hB x
  | c :: cs, w, b, h, hB => by
    have hB' : b.Below B (opens [c] + (opens cs + opens w.calls.flatten)) := by
      intro x
      have hx := hB x
      rw [Pi.add_apply, opens_cons] at hx
      rw [Pi.add_apply, Pi.add_apply, opens_cons]
      simp only [opens, List.map_nil, List.sum_nil]
      simp only [opens] at hx
      omega
    refine Reaches.bind ((reaches_perform c h hB').mono ?_)
    rintro _ w₁ ⟨b₁, h₁, hbefore, hbelow, hcalls⟩
    refine (reaches_calls cs h₁ (by rwa [hcalls])).mono ?_
    rintro _ w₂ ⟨b₂, h₂, hbefore'⟩
    exact ⟨b₂, h₂, hbefore.trans hbefore'⟩

/-- **A notification that is in order, with all the sender does before it returns.** -/
theorem reaches_serve (note : Note) {b₁ : Books} (hheard : Books.after w.trace = some b)
    (hinside : b.inside = none) (haccept : b.accept note = some b₁) (hlinked : Linked w b₁)
    (hB : b.Below B (opens w.calls.flatten)) :
    Reaches Keeps w (serve note) fun _ w' => ∃ b', Fine B w' b' ∧ b₁.Before b' := by
  unfold serve
  have hhear : b.hear (.notify note) = some b₁ := by simp [Books.hear, hinside, haccept]
  refine Reaches.bind (reaches_emit hheard hhear ?_)
  intro hnotified
  have houtside : b₁.inside = none := (Books.inside_accept haccept).trans hinside
  refine Reaches.bind (reaches_nextCalls ?_)
  intro cs rest hcalls
  simp only at hcalls
  refine reaches_calls cs ⟨hnotified, houtside, ⟨hlinked.tcp, hlinked.udp⟩⟩ ?_
  intro x
  have hx := hB x
  rw [hcalls, List.flatten_cons, opens_append] at hx
  rw [Books.count_accept haccept, Pi.add_apply]
  exact hx

/-! ## 2. The loop -/

/-- **Close first, report second**: the end of an attempt is told once. -/
theorem reaches_report {ch : Tcp} {note : Note} (h : Fine B w b)
    (haccept : b.accept note = some (b.setTcp ch (b.tcp ch).1 .ended)) :
    Reaches Keeps w (closeTcp ch >>= fun _ => serve note) fun _ w' =>
      ∃ b', Fine B w' b' ∧ b.Before b' := by
  have hbefore := Books.before_accept haccept
  have hclose : Reaches Silent w (closeTcp ch) fun _ w' =>
      Linked w' (b.setTcp ch (b.tcp ch).1 .ended) :=
    reaches_setTcp h.linked (h.linked.tcp ch).reset fun w' h' _ => h'
  refine Reaches.bind ((Reaches.silent hclose).mono ?_)
  rintro _ w₁ ⟨hlinked, htrace, hcalls⟩
  refine (reaches_serve note (by rw [htrace]; exact h.heard) h.outside haccept hlinked
    (by rw [hcalls]; exact h.below)).mono ?_
  rintro _ w₂ ⟨b₂, h₂, hbefore₂⟩
  exact ⟨b₂, h₂, hbefore.trans hbefore₂⟩

theorem reaches_parked (ch : Tcp) (h : Fine B w b) :
    Reaches Keeps w (parked ch) fun _ w' => ∃ b', Fine B w' b' ∧ b.Before b' := by
  have hs := h.linked.tcp ch
  unfold parked
  refine Reaches.bind (reaches_slot ?_)
  cases hfailed : (w.tcp ch).failedToStart with
  | some why =>
    -- only an attempt that is waiting has failed to start
    have hphase : b.tcp ch = ((w.tcp ch).attempt, .waiting) := by
      rw [hs.attempt]
      cases hp : (b.tcp ch).2 with
      | waiting => rw [← hp]
      | up => simp [(hs.up hp).2.2] at hfailed
      | ended => simp [(hs.ended hp).2.2.1] at hfailed
    refine reaches_report h ?_
    rw [Books.accept, if_pos hphase, hs.attempt]
  | none =>
    cases hsend : (w.tcp ch).sendFailed with
    | none => exact Reaches.pure ⟨b, h, Books.Before.refl b⟩
    | some why =>
      have hphase : b.tcp ch = ((w.tcp ch).attempt, .up) := by
        rw [hs.attempt]
        cases hp : (b.tcp ch).2 with
        | waiting => simp [(hs.waiting hp).2.1] at hsend
        | up => rw [← hp]
        | ended => simp [(hs.ended hp).2.2.2] at hsend
      refine reaches_report h ?_
      rw [Books.accept, if_pos hphase, hs.attempt]

/-- The reads of a socket that is up. -/
theorem reaches_readLoop {ch : Tcp} {fd : ℤ} {k : ℕ} (hfd : fd ≠ badSock)
    (hB : B (.inl ch) < k + 2 ^ 32) : ∀ (n : ℕ) {w : World} {b : Books}, Fine B w b →
      b.tcp ch = (k, .up) → Reaches Keeps w (readLoop ch fd k n) fun _ w' =>
        ∃ b', Fine B w' b' ∧ b.Before b'
  | 0, _, _, _, _ => Reaches.raise
  | n + 1, w, b, h, hup => by
    have hend : ∀ why, b.accept (.onTcpClosed ch k why) =
        some (b.setTcp ch (b.tcp ch).1 .ended) := by
      intro why
      rw [Books.accept, if_pos hup, hup]
    rw [readLoop]
    refine Reaches.bind (h.quietly fixes_ask ?_)
    intro got w₁ h₁ _
    refine Reaches.ite (fun _ => ?_) (fun _ => ?_)
    · refine Reaches.bind (reaches_slot ?_)
      have haccept : b.accept (.onTcpData ch k got.bytes) = some b := by
        rw [Books.accept, if_pos hup]
      refine Reaches.bind ((reaches_serve _ h₁.heard h₁.outside haccept h₁.linked h₁.below).mono ?_)
      rintro _ w₂ ⟨b₂, h₂, hbefore⟩
      refine Reaches.bind (reaches_slot ?_)
      refine Reaches.ite (fun _ => Reaches.pure ⟨b₂, h₂, hbefore⟩) (fun hsame => ?_)
      have hgen₁ : (w₁.tcp ch).gen = UInt32.ofNat k := by rw [(h₁.linked.tcp ch).gen, hup]
      have hup₂ := still_up h₂ hbefore hup (by grind) (by grind) hB
      refine (reaches_readLoop hfd hB n h₂ hup₂).mono ?_
      rintro _ w₃ ⟨b₃, h₃, hbefore₃⟩
      exact ⟨b₃, h₃, hbefore.trans hbefore₃⟩
    · refine Reaches.ite (fun _ => reaches_report h₁ (hend _)) (fun _ => ?_)
      refine Reaches.ite (fun _ => Reaches.pure ⟨b, h₁, Books.Before.refl b⟩) (fun _ => ?_)
      exact reaches_report h₁ (hend _)

theorem reaches_burst {u : Udp} {fd : ℤ} {k : ℕ} (hfd : fd ≠ badSock)
    (hB : B (.inr u) < k + 2 ^ 32) : ∀ (n : ℕ) {w : World} {b : Books}, Fine B w b →
      b.udp u = (k, true) → Reaches Keeps w (burst u fd k n) fun _ w' =>
        ∃ b', Fine B w' b' ∧ b.Before b'
  | 0, w, b, h, _ => Reaches.pure ⟨b, h, Books.Before.refl b⟩
  | n + 1, w, b, h, hheld => by
    rw [burst]
    refine Reaches.bind (h.quietly fixes_ask ?_)
    intro got w₁ h₁ _
    refine Reaches.ite (fun _ => ?_) (fun _ => Reaches.ite (fun _ => ?_) (fun _ => ?_))
    · refine Reaches.bind (reaches_uslot ?_)
      have haccept : b.accept (.onUdpDatagram u k got.bytes got.ends) = some b := by
        rw [Books.accept, if_pos hheld]
      refine Reaches.bind ((reaches_serve _ h₁.heard h₁.outside haccept h₁.linked h₁.below).mono ?_)
      rintro _ w₂ ⟨b₂, h₂, hbefore⟩
      refine Reaches.bind (reaches_uslot ?_)
      refine Reaches.ite (fun _ => Reaches.pure ⟨b₂, h₂, hbefore⟩) (fun hsame => ?_)
      have hgen₁ : (w₁.udp u).gen = UInt32.ofNat k := by rw [(h₁.linked.udp u).gen, hheld]
      have hheld₂ := still_held h₂ (k := k) (by have := hbefore.udp u; rwa [hheld] at this)
        (by grind) (by grind) hB
      refine (reaches_burst hfd hB n h₂ hheld₂).mono ?_
      rintro _ w₃ ⟨b₃, h₃, hbefore₃⟩
      exact ⟨b₃, h₃, hbefore.trans hbefore₃⟩
    · exact reaches_burst hfd hB n h₁ hheld
    · refine Reaches.bind (h₁.quietly (Fixes.when (Fixes.bind fixes_socketError fun _ =>
        Fixes.pure ())) ?_)
      intro _ w₂ h₂ _
      exact Reaches.pure ⟨b, h₂, Books.Before.refl b⟩

/-- A connect that is under way ends one way or the other, or goes on. -/
theorem reaches_whileConnecting {ch : Tcp} {fd : ℤ} {k : ℕ} {re : Revents} (h : Fine B w b)
    (hfd : fd ≠ badSock) (hB : B (.inl ch) < k + 2 ^ 32) (hwaiting : b.tcp ch = (k, .waiting))
    (hopen : (w.tcp ch).fd = fd) : Reaches Keeps w (whileConnecting ch fd k re) fun _ w' =>
      ∃ b', Fine B w' b' ∧ b.Before b' := by
  unfold whileConnecting
  refine Reaches.ite (fun _ => Reaches.pure ⟨b, h, Books.Before.refl b⟩) (fun _ => ?_)
  refine Reaches.bind (h.quietly fixes_socketError ?_)
  intro err w₁ h₁ hq₁
  refine Reaches.ite (fun _ => ?_) (fun _ => ?_)
  · refine reaches_report h₁ ?_
    rw [Books.accept, if_pos hwaiting, hwaiting]
  have hs := h₁.linked.tcp ch
  rw [hwaiting] at hs
  have hopen₁ : (w₁.tcp ch).fd = fd := by
    have hsame : (w₁.quiet.tcp ch).fd = (w.quiet.tcp ch).fd := by rw [hq₁]
    exact hsame.trans hopen
  have hconnected : TcpSlot.Serves { w₁.tcp ch with connecting := false, connected := true } k .up :=
    { attempt := hs.attempt
      gen := hs.gen
      ended := fun h => by cases h
      waiting := fun h => by cases h
      up := fun _ => by
        rcases (hs.waiting rfl).2.2 with hbad | ⟨-, hnone⟩
        · exact absurd (hopen₁.symm.trans hbad) hfd
        · exact ⟨rfl, rfl, hnone⟩ }
  have hopenNow : Reaches Silent w₁ (setTcp ch fun s => { s with
      connecting := false, connected := true }) fun _ w' => Linked w' (b.setTcp ch k .up) :=
    reaches_setTcp h₁.linked hconnected fun _ h' _ => h'
  refine Reaches.bind ((Reaches.silent hopenNow).mono ?_)
  rintro _ w₂ ⟨hlinked₂, htrace₂, hcalls₂⟩
  refine Reaches.bind (reaches_slot ?_)
  have hends : ∀ w, Reaches Silent w endOf fun _ w' => w'.quiet = w.quiet := fun w =>
    reaches_of_fixes fixes_endOf fun _ _ hq => hq
  refine Reaches.bind ((Reaches.silent (hends w₂)).mono ?_)
  rintro localEnd w₃ ⟨hq₃, htrace₃, hcalls₃⟩
  refine Reaches.bind ((Reaches.silent (hends w₃)).mono ?_)
  rintro peer w₄ ⟨hq₄, htrace₄, hcalls₄⟩
  have haccept : b.accept (.onTcpConnected ch k localEnd peer) = some (b.setTcp ch k .up) := by
    rw [Books.accept, if_pos hwaiting]
  have hbefore := Books.before_accept haccept
  refine Reaches.bind ((reaches_serve _ (by rw [htrace₄, htrace₃, htrace₂]; exact h₁.heard)
    h₁.outside haccept ((hlinked₂.of_quiet hq₃).of_quiet hq₄)
    (by rw [hcalls₄, hcalls₃, hcalls₂]; exact h₁.below)).mono ?_)
  rintro _ w₅ ⟨b₅, h₅, hbefore₅⟩
  refine Reaches.bind (reaches_slot ?_)
  refine Reaches.ite (fun _ => Reaches.pure ⟨b₅, h₅, hbefore.trans hbefore₅⟩) (fun hsame => ?_)
  have hgen₂ : (w₂.tcp ch).gen = UInt32.ofNat k := by simpa using (hlinked₂.tcp ch).gen
  have hup₅ := still_up h₅ hbefore₅ (Books.setTcp_tcp b ch k .up) (by grind) (by grind) hB
  refine Reaches.bind (h₅.quietly (fixes_drain ch) ?_)
  intro fatal w₆ h₆ _
  cases fatal with
  | none => exact Reaches.pure ⟨b₅, h₆, hbefore.trans hbefore₅⟩
  | some err =>
    refine (reaches_report h₆ ?_).mono ?_
    · rw [Books.accept, if_pos hup₅, hup₅]
    · rintro _ w₇ ⟨b₇, h₇, hbefore₇⟩
      exact ⟨b₇, h₇, (hbefore.trans hbefore₅).trans hbefore₇⟩

theorem reaches_whileConnected {ch : Tcp} {fd : ℤ} {k : ℕ} {re : Revents} (h : Fine B w b)
    (hfd : fd ≠ badSock) (hB : B (.inl ch) < k + 2 ^ 32) (hup : b.tcp ch = (k, .up)) :
    Reaches Keeps w (whileConnected ch fd k re) fun _ w' => ∃ b', Fine B w' b' ∧ b.Before b' := by
  have hend : ∀ why, b.accept (.onTcpClosed ch k why) = some (b.setTcp ch (b.tcp ch).1 .ended) := by
    intro why
    rw [Books.accept, if_pos hup, hup]
  unfold whileConnected
  refine Reaches.ite (fun _ => ?_) (fun _ => ?_)
  · refine Reaches.bind (h.quietly fixes_socketError ?_)
    intro err w₁ h₁ _
    exact reaches_report h₁ (hend _)
  have hdrain : Fixes World.quiet (if re.pollOut = true then drain ch else pure none) :=
    Fixes.ite (fixes_drain ch) (Fixes.pure none)
  refine Reaches.bind (h.quietly hdrain ?_)
  intro fatal w₁ h₁ _
  cases fatal with
  | some err => exact reaches_report h₁ (hend _)
  | none =>
    refine Reaches.ite (fun _ => ?_) (fun _ => Reaches.pure ⟨b, h₁, Books.Before.refl b⟩)
    refine Reaches.bind (h₁.quietly fixes_rounds ?_)
    intro n w₂ h₂ _
    exact reaches_readLoop hfd hB n h₂ hup

/-- **A stale entry is passed over, and one that is not is the slot's own.** -/
theorem reaches_deliver {e : Entry} {re : Revents} (h : Fine B w b) (he : e.Valid B b) :
    Reaches Keeps w (deliver re e) fun _ w' => ∃ b', Fine B w' b' ∧ b.Before b' := by
  cases e with
  | tcp ch fd gen k =>
    obtain ⟨hfd, hgen, hle, hB⟩ := he
    unfold deliver
    refine Reaches.ite (fun _ => Reaches.pure ⟨b, h, Books.Before.refl b⟩) (fun _ => ?_)
    refine Reaches.bind (reaches_slot ?_)
    refine Reaches.ite (fun _ => Reaches.pure ⟨b, h, Books.Before.refl b⟩) (fun hsame => ?_)
    obtain ⟨hfd', hgen'⟩ : (w.tcp ch).fd = fd ∧ (w.tcp ch).gen = gen := by
      simpa only [not_or, not_not] using hsame
    have hs := h.linked.tcp ch
    have hbelow : (b.tcp ch).1 + _ ≤ B (.inl ch) := h.below (.inl ch)
    have hk : (b.tcp ch).1 = k :=
      eq_of_gen (hs.gen.symm.trans (hgen'.trans hgen)) hle (by omega)
    refine Reaches.ite (fun hconnecting => ?_) (fun hnot => ?_)
    · refine reaches_whileConnecting h hfd hB ?_ hfd'
      cases hp : (b.tcp ch).2 with
      | waiting => rw [← hk, ← hp]
      | up => simp [(hs.up hp).2.1] at hconnecting
      | ended => exact absurd (hfd'.symm.trans (hs.ended hp).1) hfd
    · refine reaches_whileConnected h hfd hB ?_
      cases hp : (b.tcp ch).2 with
      | waiting =>
        rcases (hs.waiting hp).2.2 with hbad | ⟨hconnecting, -⟩
        · exact absurd (hfd'.symm.trans hbad) hfd
        · exact absurd hconnecting hnot
      | up => rw [← hk, ← hp]
      | ended => exact absurd (hfd'.symm.trans (hs.ended hp).1) hfd
  | udp u fd gen k =>
    obtain ⟨hfd, hgen, hle, hB⟩ := he
    unfold deliver
    refine Reaches.ite (fun _ => Reaches.pure ⟨b, h, Books.Before.refl b⟩) (fun _ => ?_)
    refine Reaches.bind (reaches_uslot ?_)
    refine Reaches.ite (fun _ => Reaches.pure ⟨b, h, Books.Before.refl b⟩) (fun hsame => ?_)
    obtain ⟨hfd', hgen'⟩ : (w.udp u).fd = fd ∧ (w.udp u).gen = gen := by
      simpa only [not_or, not_not] using hsame
    refine Reaches.ite (fun _ => Reaches.pure ⟨b, h, Books.Before.refl b⟩) (fun _ => ?_)
    have hheld := still_held h hle (by rwa [hfd']) (hgen'.trans hgen) hB
    exact reaches_burst hfd hB 64 h hheld

/-- **A round of the loop is in order**: parked notifications, deliveries, timers. -/
theorem reaches_pump (h : At w b) (hcalls : ∀ x, opens w.calls.flatten x < 2 ^ 32) :
    Reaches Keeps w pump fun _ w' => ∃ b', At w' b' := by
  let B : Tcp ⊕ Udp → ℕ := fun x => b.count x + opens w.calls.flatten x
  have hfine : Fine B w b := ⟨h, fun _ => le_rfl⟩
  unfold pump
  refine Reaches.bind ((Reaches.each_mem (I := fun w' => ∃ b', Fine B w' b' ∧ b.Before b') _ w
    ?_ ⟨b, hfine, Books.Before.refl b⟩).mono ?_)
  · rintro ch - w' ⟨b', h', hbefore⟩
    refine (reaches_parked ch h').mono ?_
    rintro _ w'' ⟨b'', h'', hbefore'⟩
    exact ⟨b'', h'', hbefore.trans hbefore'⟩
  rintro _ w₁ ⟨b₁, h₁, hbefore₁⟩
  refine Reaches.bind (Reaches.get ?_)
  have hvalid : ∀ e ∈ snapshot w₁, e.Valid B b₁ := by
    intro e he
    refine valid_snapshot h₁ ?_ ?_ he
    · intro ch
      exact Nat.add_lt_add_of_le_of_lt (hbefore₁.attempt_le ch) (hcalls (.inl ch))
    · intro u
      exact Nat.add_lt_add_of_le_of_lt (hbefore₁.udp u) (hcalls (.inr u))
  refine Reaches.bind (Reaches.mono (Q := fun _ w' => ∃ b', Fine B w' b' ∧ b₁.Before b') ?_ ?_)
  · refine Reaches.ite (fun _ => ?_) (fun _ => Reaches.pure ⟨b₁, h₁, Books.Before.refl b₁⟩)
    refine Reaches.bind (h₁.quietly fixes_ask ?_)
    intro polled w₂ h₂ _
    refine Reaches.ite (fun _ => ?_) (fun _ => Reaches.pure ⟨b₁, h₂, Books.Before.refl b₁⟩)
    refine Reaches.each_mem (I := fun w' => ∃ b', Fine B w' b' ∧ b₁.Before b') _ w₂ ?_
      ⟨b₁, h₂, Books.Before.refl b₁⟩
    rintro ⟨e, re⟩ hmem w' ⟨b', h', hbefore⟩
    have he := hvalid e (List.of_mem_zip hmem).1
    refine (reaches_deliver h' (he.later hbefore)).mono ?_
    rintro _ w'' ⟨b'', h'', hbefore'⟩
    exact ⟨b'', h'', hbefore.trans hbefore'⟩
  rintro _ w₃ ⟨b₃, h₃, -⟩
  refine (reaches_serve .tick h₃.heard h₃.outside rfl h₃.linked h₃.below).mono ?_
  rintro _ w₄ ⟨b₄, h₄, -⟩
  exact ⟨b₄, h₄.toAt⟩

/-! ## 3. Runs -/

/-- The sender opens no slot 2^32 times in one round of the loop. -/
def Turn.Bounded : Turn → Prop
  | .call _ _ => True
  | .pump _ calls => ∀ x, opens calls.flatten x < 2 ^ 32

theorem reaches_turn {t : Turn} (h : At w b) (ht : t.Bounded) :
    Reaches Keeps w (turn t) fun _ w' => ∃ b', At w' b' := by
  cases t with
  | call c answers =>
    unfold turn
    refine Reaches.bind (Reaches.modify id ?_)
    have hstart : At { w with answers := answers, calls := [] } b :=
      ⟨h.heard, h.outside, ⟨h.linked.tcp, h.linked.udp⟩⟩
    have hbelow : b.Below (fun x => b.count x + opens [c] x) (opens [c] + 0) := fun _ => le_rfl
    refine (reaches_perform c hstart hbelow).mono ?_
    rintro _ w' ⟨b', h', -⟩
    exact ⟨b', h'⟩
  | pump answers calls =>
    unfold turn
    refine Reaches.bind (Reaches.modify id ?_)
    exact reaches_pump ⟨h.heard, h.outside, ⟨h.linked.tcp, h.linked.udp⟩⟩ ht

theorem reaches_run (turns : List Turn) (hbounded : ∀ t ∈ turns, t.Bounded) :
    Reaches Keeps {} (each turn turns) fun _ w => ∃ b, At w b := by
  have hinit : At {} {} := by
    refine ⟨rfl, rfl, ?_, ?_⟩
    · intro ch
      exact ⟨rfl, rfl, fun _ => ⟨rfl, rfl, rfl, rfl⟩, fun h => (by cases h), fun h => (by cases h)⟩
    · intro u
      exact ⟨rfl, rfl, fun _ => rfl⟩
  refine Reaches.each_mem (I := fun w => ∃ b, At w b) turns {} ?_ ⟨{}, hinit⟩
  rintro t ht w ⟨b, h⟩
  exact reaches_turn h (hbounded t ht)

/-- **Every event of every run is in order**: a notification names the current attempt or bind and
comes when there is something to notify, and none comes from inside a call of the sender. -/
theorem run_orderly (turns : List Turn) (hbounded : ∀ t ∈ turns, t.Bounded) :
    (run turns).Orderly :=
  (reaches_run turns hbounded).invariant (fun _ _ hkeeps => hkeeps) rfl

end Io

/-! ## 4. The counter wraps -/

theorem slot_run (ch : Tcp) (w : World) : slot ch w = (.ok (w.tcp ch), w) := rfl

/-- The sender connects its control channel. -/
def again : Call := .tcpConnect .control [] 7000

/-- A slot whose attempt is given up for the next one, with descriptor 3. -/
def reopened (s : TcpSlot) : TcpSlot :=
  { fd := 3, gen := s.gen + 1, connecting := true, attempt := s.attempt + 1 }

/-- What the system says to a connect that is under way. -/
def underWay : List Answer := [{}, { ret := 3 }, {}]

/-- The control channel is connected. -/
def establish : List Turn :=
  [.call again underWay,
    .pump [{ ret := 1, revents := [{ pollOut := true }] }, {}, {}, {}] [[], []]]

/-- What the system says to a read of a socket whose connect has failed. -/
def refused : Answer := { ret := -1, errno := 111 }

/-- The sender reconnects `n` times when it is given an octet, and the last connect is refused. -/
def reconnecting (n : ℕ) : List Turn := establish ++
  [.pump ({ ret := 1, revents := [{ pollIn := true }] } :: { ret := 1, bytes := [0] } ::
    ((List.replicate n underWay).flatten ++ [refused]))
    [List.replicate n again]]

theorem iterate_reopened (s : TcpSlot) (n : ℕ) : reopened^[n + 1] s =
    { fd := 3, gen := s.gen + UInt32.ofNat (n + 1), connecting := true
      attempt := s.attempt + (n + 1) } := by
  induction n with
  | zero => rfl
  | succ n ih =>
    rw [Function.iterate_succ_apply', ih, reopened, UInt32.ofNat_add (n + 1) 1, ← UInt32.add_assoc]
    rfl

theorem bounded_establish : ∀ t ∈ establish, t.Bounded := by
  intro t ht
  rcases List.mem_cons.mp ht with rfl | ht
  · trivial
  · rw [List.mem_singleton.mp ht]
    intro x
    exact Nat.two_pow_pos 32

theorem opens_again (n : ℕ) (x : Tcp ⊕ Udp) : opens (List.replicate n again) x ≤ n := by
  have hone : again.opens x ≤ 1 := by
    simp only [again, Call.opens]
    split
    · exact le_rfl
    · exact Nat.zero_le 1
  simpa [opens] using Nat.mul_le_mul_left n hone

theorem bounded_reconnecting {n : ℕ} (h : n < 2 ^ 32) : ∀ t ∈ reconnecting n, t.Bounded := by
  intro t ht
  rcases List.mem_append.mp ht with ht | ht
  · exact bounded_establish t ht
  · rw [List.mem_singleton.mp ht]
    intro x
    rw [List.flatten_singleton]
    exact (opens_again n x).trans_lt h

section Io

variable [Platform]

theorem perform_again {w : World} {rest : List Answer} (h : w.answers = underWay ++ rest) :
    perform again w = (.ok (), { w with
      tcp := Function.update w.tcp .control (reopened (w.tcp .control)), answers := rest
      trace := .leave 0 :: .enter again :: w.trace }) := by
  obtain ⟨tcp, udp, answers, calls, trace⟩ := w
  cases h
  simp [perform, emit, body, again, tcpConnect, closeTcp, setTcp, ask, bind_run, TcpSlot.reset,
    reopened, badSock]

theorem each_again : ∀ (n : ℕ) {w : World} {rest : List Answer},
    w.answers = (List.replicate n underWay).flatten ++ rest →
      ∃ trace, each perform (List.replicate n again) w = (.ok (), { w with
        tcp := Function.update w.tcp .control (reopened^[n] (w.tcp .control)), answers := rest
        trace := trace })
  | 0, w, rest, h => by
    obtain ⟨tcp, udp, answers, calls, trace⟩ := w
    cases h
    exact ⟨trace, by simp [each]⟩
  | n + 1, w, rest, h => by
    rw [List.replicate_succ, List.flatten_cons, List.append_assoc] at h
    let w₁ : World := { w with
      tcp := Function.update w.tcp .control (reopened (w.tcp .control))
      answers := (List.replicate n underWay).flatten ++ rest
      trace := .leave 0 :: .enter again :: w.trace }
    obtain ⟨trace, hrest⟩ := each_again n (show w₁.answers = _ ++ rest from rfl)
    refine ⟨trace, ?_⟩
    rw [List.replicate_succ, each, bind_ok (perform_again h), hrest]
    simp [w₁]

theorem each_establish : ∃ w, each turn establish {} = (.ok (), w) ∧
    w.tcp .control = { fd := 3, gen := 1, connected := true, attempt := 1 } ∧ w.tcp .event = {} ∧
    w.udp = (fun _ => {}) := by
  simp [establish, each, turn, bind_run, perform, emit, body, again, underWay, tcpConnect, closeTcp,
    setTcp, ask, TcpSlot.reset, badSock, pump, parked, slot, snapshot, deliver, whileConnecting,
    Prog.when, socketError, endOf, serve, nextCalls, drain, drainLoop, rounds]

/-- A round in which only the control channel has something to read. -/
theorem pump_reads {w : World} {rest : List Answer}
    (hcontrol : w.tcp .control = { fd := 3, gen := 1, connected := true, attempt := 1 })
    (hevent : w.tcp .event = {}) (hudp : w.udp = fun _ => {})
    (hanswers : w.answers = { ret := 1, revents := [{ pollIn := true }] } :: rest) :
    pump w = (readLoop .control 3 1 (rest.length + 1) >>= fun _ => serve .tick)
      { w with answers := rest } := by
  have hparked : each parked [.control, .event] w = (.ok (), w) := by
    simp [each, parked, slot, bind_run, hcontrol, hevent]
  have hsnapshot : snapshot w = [.tcp .control 3 1 1] := by
    simp [snapshot, hcontrol, hevent, hudp, badSock]
  have hask : ask w = (.ok { ret := 1, revents := [{ pollIn := true }] },
      { w with answers := rest }) := by simp only [ask, hanswers]
  unfold pump
  rw [bind_ok hparked, bind_ok (get_run w), hsnapshot]
  simp [Prog.when, bind_run, hask, each, deliver, slot, hcontrol, whileConnected, rounds]
  generalize readLoop .control 3 1 (rest.length + 1) _ = end'
  obtain ⟨r, w'⟩ := end'
  cases r with
  | error e => rfl
  | ok a => rfl

theorem serve_again (note : Note) {n : ℕ} {w : World} {rest : List Answer}
    (hanswers : w.answers = (List.replicate n underWay).flatten ++ rest)
    (hcalls : w.calls = [List.replicate n again]) : ∃ trace, serve note w = (.ok (), { w with
      tcp := Function.update w.tcp .control (reopened^[n] (w.tcp .control))
      answers := rest, calls := [], trace := trace }) := by
  obtain ⟨tcp, udp, answers, calls, trace⟩ := w
  cases hcalls
  let w₁ : World :=
    { tcp := tcp, udp := udp, answers := answers, calls := [], trace := .notify note :: trace }
  obtain ⟨trace', heach⟩ := each_again n (show w₁.answers = _ ++ rest from hanswers)
  exact ⟨trace', heach⟩

/-- The loop has not seen that the socket is another one, and reads on. -/
theorem readLoop_again (hfails : Platform.wouldBlock 111 = false) {n k : ℕ} {w : World}
    (hcontrol : w.tcp .control = { fd := 3, gen := 1, connected := true, attempt := 1 })
    (hwraps : UInt32.ofNat (n + 1) = 0) (hanswers : w.answers =
      { ret := 1, bytes := [0] } :: ((List.replicate (n + 1) underWay).flatten ++ [refused]))
    (hcalls : w.calls = [List.replicate (n + 1) again]) :
    ∃ w', serve (.onTcpData .control 1 [0]) { w with
        answers := (List.replicate (n + 1) underWay).flatten ++ [refused] } = (.ok (), w') ∧
      (w'.tcp .control).attempt = n + 2 ∧ ∃ s, readLoop .control 3 1 (k + 2) w =
        (.error (), s) ∧ s.trace = .notify (.onTcpClosed .control 1 (Platform.errorText 111)) ::
          w'.trace := by
  have hask : ask w = (.ok { ret := 1, bytes := [0] }, { w with
      answers := (List.replicate (n + 1) underWay).flatten ++ [refused] }) := by
    simp only [ask, hanswers]
  obtain ⟨trace, hserve⟩ := serve_again (.onTcpData .control 1 [0]) (w := { w with
    answers := (List.replicate (n + 1) underWay).flatten ++ [refused] }) rfl hcalls
  simp only [hcontrol, iterate_reopened, hwraps] at hserve
  refine ⟨_, hserve, ?_, ?_⟩
  · simp
    omega
  · rw [readLoop, bind_ok hask, if_pos (by norm_num), bind_ok (slot_run ..), bind_ok hserve,
      bind_ok (slot_run ..), if_neg (by simp [hcontrol])]
    -- the next read is of the new socket
    simp [readLoop, ask, refused, hfails, closed, closeTcp, setTcp, bind_run, serve, emit, nextCalls]

/-- **After 2^32 connects the loop takes the new socket for the one it was reading**: it reports the
end of an attempt that was never connected. -/
theorem run_reconnecting (hfails : Platform.wouldBlock 111 = false) {n : ℕ}
    (hwraps : UInt32.ofNat (n + 1) = 0) : ¬ (run (reconnecting (n + 1))).Orderly := by
  obtain ⟨w₁, hrun₁, hcontrol, hevent, hudp⟩ := each_establish
  obtain ⟨b₁, h₁⟩ : ∃ b, At w₁ b := by
    have hreach := (reaches_run establish bounded_establish).2 () (by rw [hrun₁])
    rwa [hrun₁] at hreach
  have hup : b₁.tcp .control = (1, .up) := by
    have hs := h₁.linked.tcp .control
    rw [hcontrol] at hs
    exact Prod.ext hs.attempt.symm (hs.up_of_connected rfl)
  -- the last turn, with its scripts in place
  let w₂ : World := { w₁ with
    answers := { ret := 1, bytes := [0] } :: ((List.replicate (n + 1) underWay).flatten ++ [refused])
    calls := [List.replicate (n + 1) again] }
  obtain ⟨w₃, hserve, hattempt, w₄, hread, htrace⟩ := readLoop_again hfails
    (k := (List.replicate (n + 1) underWay).flatten.length + 1) (w := w₂) hcontrol hwraps rfl rfl
  have hpump := pump_reads (w := { w₂ with answers :=
      { ret := 1, revents := [{ pollIn := true }] } :: w₂.answers }) hcontrol hevent hudp rfl
  have hlength : w₂.answers.length + 1 = (List.replicate (n + 1) underWay).flatten.length + 1 + 2 := by
    simp only [w₂, List.length_cons, List.length_append, List.length_nil]
  rw [hlength, bind_error hread] at hpump
  have hturn : turn (.pump ({ ret := 1, revents := [{ pollIn := true }] } :: w₂.answers) w₂.calls) w₁ =
      (.error (), w₄) := hpump
  have hrun : run (reconnecting (n + 1)) = w₄ := by
    unfold run reconnecting
    rw [each_append, bind_ok hrun₁, each, each]
    exact congrArg Prod.snd (bind_error hturn)
  have haccept : b₁.accept (.onTcpData .control 1 [0]) = some b₁ := by rw [Books.accept, if_pos hup]
  let B : Tcp ⊕ Udp → ℕ := fun x => b₁.count x + opens w₂.calls.flatten x
  obtain ⟨-, hafter⟩ := reaches_serve (B := B) (w := { w₂ with
      answers := (List.replicate (n + 1) underWay).flatten ++ [refused] }) (b := b₁)
    (.onTcpData .control 1 [0]) h₁.heard h₁.outside haccept ⟨h₁.linked.tcp, h₁.linked.udp⟩
    (fun _ => le_rfl)
  obtain ⟨b₃, h₃, -⟩ := hafter () (by rw [hserve])
  rw [hserve] at h₃
  have hs := h₃.linked.tcp .control
  rw [hrun, World.Orderly, htrace, Books.after, h₃.heard]
  have hstale : b₃.tcp .control ≠ (1, .up) := by
    intro heq
    have := hs.attempt
    rw [hattempt, heq] at this
    omega
  simp [Books.hear, h₃.outside, Books.accept, hstale]

end Io

/-- The errors of one platform. -/
abbrev posix : Platform where
  errorText e := if e = 111 then ascii "Connection refused" else []
  wouldBlock e := e = 11
  connectInProgress e := e = 115 ∨ e = 11

theorem run_orderly_reconnecting : (@run posix (reconnecting 2)).Orderly :=
  @run_orderly posix (reconnecting 2) (bounded_reconnecting (by norm_num))

theorem run_disorderly : ¬ ∀ (P : Platform) (turns : List Turn), (@run P turns).Orderly := by
  intro hall
  have hwraps : UInt32.ofNat (4294967295 + 1) = 0 := by decide
  exact @run_reconnecting posix rfl 4294967295 hwraps (hall posix _)

end AirplaySender.Loop
