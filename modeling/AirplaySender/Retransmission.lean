/-
# Retransmission

A control datagram asks for a range of sequence numbers, and the sender answers from 1024 slots.
`retransmission` says what the receiver gets, with no slot in sight: for each number it asked for,
in order, the one of the last 1024 packets of the session that carries this number, as it was first
sent, and nothing where there is none.
-/
import Mathlib.Data.List.Perm.Subperm
import AirplaySender.Timeline

namespace AirplaySender

open Octets Prog Trace

/-! ## 1. What is asked for, and what there is -/

/-- The sequence number in a packet. -/
def numberOf (pkt : Octets) : ℕ := beVal 0 ((pkt.drop 2).take 2)

/-- `lostCount`. -/
def lostCount (dg : Octets) : ℕ := beVal 0 ((dg.drop 6).take 2)

/-- The numbers a control datagram asks for, from `lostSeq` on. -/
def lostNumbers (dg : Octets) : List UInt16 :=
  (List.range (lostCount dg)).map fun i =>
    UInt16.ofNat (beVal 0 ((dg.drop 4).take 2)) + UInt16.ofNat i

/-- The last 1024 audio packets of the session. -/
def lastPackets (log : List Entry) : List Octets := Recent.recent 1024 (audioSent log)

/-- The answer to one number. -/
def replyTo (log : List Entry) (source : Endpoint) (n : UInt16) : Option Entry :=
  ((lastPackets log).find? fun pkt => numberOf pkt = n.toNat).map fun pkt =>
    .udpSend .control source ([0x80, 0xD6] ++ beBytes 2 n.toNat ++ pkt)

/-- The answers to a datagram, in the order of the numbers. -/
def replies (log : List Entry) (source : Endpoint) (dg : Octets) : List Entry :=
  (lostNumbers dg).filterMap (replyTo log source)

/-! ## 2. What the slots answer -/

section Slots

variable [Primitives] {s₀ : UInt16} {id : UInt32} {key : Option Octets} {w : World}

omit [Primitives] in
theorem numberOf_header (s₀ : UInt16) (id : UInt32) (k : ℕ) (payload : Octets) :
    numberOf (audioHeader s₀ id k ++ payload) = Recent.number (2 ^ 16) s₀.toNat k := by
  have hbytes : ((audioHeader s₀ id k ++ payload).drop 2).take 2 =
      beBytes 2 ((s₀.toNat + k) % 2 ^ 16) := by
    simp [audioHeader]
  rw [numberOf, hbytes, beVal_beBytes, Recent.number]
  exact Nat.mod_mod _ _

/-- The slot of a number holds what the session sent under it. -/
theorem Timed.slot (h : Timed s₀ id key (wireOf w)) (hlive : w.s.state ≠ .idle) (n : UInt16) :
    (lastPackets w.out).find? (fun pkt => numberOf pkt = n.toNat) =
      if w.s.backlogSeq (slotOf n) = n.toNat then some (w.s.backlog (slotOf n)) else none := by
  rw [lastPackets, ← audioSent_filter w.out]
  refine (h.backlog hlive).find (by decide) (fun k pkt hk => ?_) n.toNat
  obtain ⟨payload, rfl, -⟩ := h.packets k pkt hk
  exact numberOf_header s₀ id k payload

/-- The answer from the slots. -/
def slotReply (s : Sender) (source : Endpoint) (n : UInt16) : Option Entry :=
  if s.backlogSeq (slotOf n) = n.toNat then some (.udpSend .control source
    ([0x80, 0xD6] ++ beBytes 2 n.toNat ++ s.backlog (slotOf n))) else none

theorem Timed.slotReply (h : Timed s₀ id key (wireOf w)) (hlive : w.s.state ≠ .idle)
    (source : Endpoint) : AirplaySender.slotReply w.s source = replyTo w.out source := by
  funext n
  rw [replyTo, h.slot hlive, AirplaySender.slotReply]
  split <;> rfl

omit [Primitives] in
theorem retransmit_run (source : Endpoint) (n : UInt16) (w : World) :
    retransmit source n w = (.ok (), { w with out := (slotReply w.s source n).toList ++ w.out }) := by
  unfold retransmit slotReply
  rw [sender_bind]
  by_cases hslot : w.s.backlogSeq (slotOf n) = n.toNat
  · rw [if_neg (not_not.mpr hslot), if_pos hslot]
    rfl
  · rw [if_pos hslot, if_neg hslot]
    rfl

omit [Primitives] in
theorem retransmits_run (source : Endpoint) :
    ∀ (ns : List UInt16) (w : World), Prog.each (retransmit source) ns w =
      (.ok (), { w with out := (ns.filterMap (slotReply w.s source)).reverse ++ w.out }) := by
  intro ns
  induction ns with
  | nil => exact fun w => rfl
  | cons n ns ih =>
    intro w
    rw [Prog.each, bind_ok (retransmit_run source n w), ih]
    cases hn : slotReply w.s source n <;> simp [hn]

end Slots

/-! ## 3. The answers -/

section Replies

variable {log : List Entry} {source : Endpoint} {dg : Octets}

theorem lostCount_lt : lostCount dg < 2 ^ 16 := by
  refine (beVal_lt _).trans_le ?_
  rw [show 2 ^ 16 = 256 ^ 2 by rfl]
  exact Nat.pow_le_pow_right (by decide) (List.length_take_le _ _)

/-- A number is asked for once. -/
theorem nodup_lostNumbers : (lostNumbers dg).Nodup := by
  refine List.nodup_range.map_on fun i hi j hj heq => ?_
  have hcount : lostCount dg < 2 ^ 16 := lostCount_lt
  have hi' := List.mem_range.mp hi
  have hj' := List.mem_range.mp hj
  have hmod := congrArg UInt16.toNat (UInt16.add_right_inj _ |>.mp heq)
  rw [UInt16.toNat_ofNat', UInt16.toNat_ofNat', Nat.mod_eq_of_lt (by omega),
    Nat.mod_eq_of_lt (by omega)] at hmod
  exact hmod

/-- There are no more answers than packets that are kept. -/
theorem length_replies_le : (replies log source dg).length ≤ min (lostCount dg) 1024 := by
  refine le_min ?_ ?_
  · refine (List.length_filterMap_le _ _).trans ?_
    rw [lostNumbers, List.length_map, List.length_range]
  · -- the numbers that are answered are numbers of kept packets
    let found := (lostNumbers dg).filter fun n => (replyTo log source n).isSome
    have hsub : found.map UInt16.toNat ⊆ (lastPackets log).map numberOf := by
      intro m hm
      obtain ⟨n, hn, rfl⟩ := List.mem_map.mp hm
      obtain ⟨-, hsome⟩ := List.mem_filter.mp hn
      rw [replyTo, Option.isSome_map, List.find?_isSome] at hsome
      obtain ⟨pkt, hpkt, hnumber⟩ := hsome
      exact List.mem_map.mpr ⟨pkt, hpkt, of_decide_eq_true hnumber⟩
    have hnodup : (found.map UInt16.toNat).Nodup :=
      (nodup_lostNumbers.filter _).map fun _ _ => UInt16.toNat_inj.mp
    calc (replies log source dg).length
        = (found.map UInt16.toNat).length := by
          rw [replies, List.length_filterMap_eq_countP, List.countP_eq_length_filter,
            List.length_map]
      _ ≤ ((lastPackets log).map numberOf).length := (List.subperm_of_subset hnodup hsub).length_le
      _ ≤ 1024 := by
        rw [List.length_map]
        exact Recent.length_recent_le

end Replies

/-- **Retransmission**, in every state of every run in which a session is alive: a control datagram
that asks for numbers is answered in their order, by the one of the last 1024 packets of the session
that has the number, if there is one, exactly as it was sent.  Packets that could be meant never
share a number, so at most 1024 answers go out, and nothing else happens. -/
theorem retransmission [Primitives] {w : World} (h : Reachable w) (depth : ℕ) (dg : Octets)
    (source : Endpoint) (hlen : 8 ≤ dg.length) (htype : dg.getD 1 0 &&& 0x7F = 0x55)
    (hlive : w.s.state ≠ .idle) :
    @perform _ (host depth) (.onUdpDatagram .control dg source) w =
        (.ok (), { w with out := (replies w.out source dg).reverse ++ w.out }) ∧
      (replies w.out source dg).length ≤ min (lostCount dg) 1024 ∧
      ((lastPackets w.out).map numberOf).Nodup := by
  obtain ⟨⟨s₀, id, key, htimed⟩, -⟩ := h.timed
  refine ⟨?_, length_replies_le, ?_⟩
  · have heach (start : UInt16) (count : ℕ) :
        Prog.each (fun i => retransmit source (start + UInt16.ofNat i)) (List.range count) w =
          Prog.each (retransmit source) ((List.range count).map fun i => start + UInt16.ofNat i) w :=
      congrFun (Prog.each_map _ _ _).symm w
    show onUdpDatagram .control dg source w = _
    unfold onUdpDatagram
    rw [sender_bind, if_neg hlive]
    dsimp only
    unfold onControlDatagram
    rw [if_neg (by omega), if_neg (not_not.mpr htype)]
    refine (heach _ _).trans ?_
    rw [retransmits_run, htimed.slotReply hlive]
    rfl
  · rw [lastPackets, ← audioSent_filter w.out]
    refine @Recent.nodup_recent _ _ (2 ^ 16) s₀.toNat _ (by decide) _ fun k pkt hk => ?_
    obtain ⟨payload, rfl, -⟩ := htimed.packets k pkt hk
    exact numberOf_header s₀ id k payload

/-- Packets 0 and 1 are asked for, and 65535 before them. -/
def lostSample : Octets := [0x80, 0xD5, 0, 1, 0xFF, 0xFF, 0, 3]

theorem retransmission_sample :
    (replies tickedStream.out loopback lostSample).length = 2 ∧
      (@perform trusting (@host trusting 0) (.onUdpDatagram .control lostSample loopback)
        tickedStream).2.out =
          (replies tickedStream.out loopback lostSample).reverse ++ tickedStream.out := by
  obtain ⟨hlive, htwo⟩ : tickedStream.s.state ≠ .idle ∧
      (replies tickedStream.out loopback lostSample).length = 2 := by decide +kernel
  have hrun := (@retransmission trusting tickedStream (worldIn_reachable 0 .running _) 0 lostSample
    loopback (by decide) (by decide) hlive).1
  exact ⟨htwo, congrArg (fun r => r.2.out) hrun⟩

end AirplaySender
