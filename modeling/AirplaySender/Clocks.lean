/-
# The clock in the sync packets

A sync packet tells the receiver which frame is due at which time.  The time is the position of the
stream, counted in frames from the wall clock at its beginning, converted by `ts2ntp`; the beginning
was converted by `ntp2ts`.  Both count in 65536ths of a second in between, so that a conversion is a
scaling by 44100 / 65536, or back, that is rounded down, and the finer unit is the time's.

`sync_clock` says that neither overflows within an era of the NTP time, what they lose together, and
what follows for the sync packets of every session.  The invariant (`Clocked`) is that they all count
from the `startTs_` that the session streams with.
-/
import AirplaySender.Timeline
import AirplaySender.Lib.Scale

namespace AirplaySender

open Octets Prog Trace Scale

/-! ## 1. The conversions -/

/-- The frames whose time fits 64 bits: its seconds are 32 bits wide. -/
def ntpEra : ℕ := 2 ^ 32 * 44100

/-- No product of `ntp2ts` is too long. -/
theorem ntp2ts_exact (t : UInt64) :
    ((t >>> 16) * raopRate.toUInt64).toNat = (t >>> 16).toNat * 44100 := by
  have hrate : raopRate.toUInt64.toNat = 44100 := rfl
  have hshort : (t >>> 16).toNat < 2 ^ 48 := by
    rw [UInt64.toNat_shiftRight, Nat.shiftRight_eq_div_pow]
    have ht := t.toNat_lt
    exact Nat.div_lt_of_lt_mul (by simpa using ht)
  rw [UInt64.toNat_mul, hrate, Nat.mod_eq_of_lt (by omega)]

theorem toNat_ntp2ts (t : UInt64) :
    (ntp2ts t raopRate).toNat = scale 44100 (2 ^ 16) (t.toNat / 2 ^ 16) := by
  have hshift : (t >>> 16).toNat = t.toNat / 2 ^ 16 := by
    rw [UInt64.toNat_shiftRight, Nat.shiftRight_eq_div_pow]
    rfl
  rw [ntp2ts, UInt64.toNat_shiftRight, Nat.shiftRight_eq_div_pow, ntp2ts_exact, hshift]
  rfl

/-- A time is within its era. -/
theorem ntp2ts_lt (t : UInt64) : (ntp2ts t raopRate).toNat < ntpEra := by
  have ht := t.toNat_lt
  rw [toNat_ntp2ts, scale, ntpEra]
  omega

theorem toNat_shl {x : UInt64} (h : x.toNat < 2 ^ 48) : (x <<< 16).toNat = x.toNat * 2 ^ 16 := by
  have hbits : (16 : UInt64).toNat % 64 = 16 := rfl
  rw [UInt64.toNat_shiftLeft, hbits, Nat.shiftLeft_eq]
  exact Nat.mod_eq_of_lt (by omega)

/-- Neither shift of `ts2ntp` loses bits. -/
theorem ts2ntp_exact {ts : UInt64} (h : ts.toNat < ntpEra) : (ts <<< 16).toNat = ts.toNat * 2 ^ 16 ∧
    (((ts <<< 16) / raopRate.toUInt64) <<< 16).toNat =
      ((ts <<< 16) / raopRate.toUInt64).toNat * 2 ^ 16 := by
  have hrate : raopRate.toUInt64.toNat = 44100 := rfl
  rw [ntpEra] at h
  have hfirst := toNat_shl (x := ts) (by omega)
  refine ⟨hfirst, toNat_shl ?_⟩
  rw [UInt64.toNat_div, hfirst, hrate]
  omega

theorem toNat_ts2ntp {ts : UInt64} (h : ts.toNat < ntpEra) :
    (ts2ntp ts raopRate).toNat = scale (2 ^ 16) 44100 ts.toNat * 2 ^ 16 := by
  have hrate : raopRate.toUInt64.toNat = 44100 := rfl
  obtain ⟨hfirst, hsecond⟩ := ts2ntp_exact h
  rw [ts2ntp, hsecond, UInt64.toNat_div, hfirst, hrate, scale]

theorem ntp2ts_mono {t t' : UInt64} (h : t ≤ t') : ntp2ts t raopRate ≤ ntp2ts t' raopRate := by
  rw [UInt64.le_iff_toNat_le, toNat_ntp2ts, toNat_ntp2ts]
  exact scale_mono _ _ (Nat.div_le_div_right (UInt64.le_iff_toNat_le.mp h))

theorem ts2ntp_strict {ts ts' : UInt64} (h : ts < ts') (hera : ts'.toNat < ntpEra) :
    ts2ntp ts raopRate < ts2ntp ts' raopRate := by
  have hlt : ts.toNat < ts'.toNat := UInt64.lt_iff_toNat_lt.mp h
  rw [UInt64.lt_iff_toNat_lt, toNat_ts2ntp (hlt.trans hera), toNat_ts2ntp hera]
  have hstrict := scale_strictMono (a := 2 ^ 16) (b := 44100) (by decide) (by decide) hlt
  exact Nat.mul_lt_mul_of_pos_right hstrict (by decide)

/-- A timestamp comes back, or the one before it does. -/
theorem ntp2ts_ts2ntp {ts : UInt64} (h : ts.toNat < ntpEra) :
    ntp2ts (ts2ntp ts raopRate) raopRate = ts ∨
      (ntp2ts (ts2ntp ts raopRate) raopRate).toNat + 1 = ts.toNat := by
  have hback : (ntp2ts (ts2ntp ts raopRate) raopRate).toNat =
      scale 44100 (2 ^ 16) (scale (2 ^ 16) 44100 ts.toNat) := by
    rw [toNat_ntp2ts, toNat_ts2ntp h, Nat.mul_div_cancel _ (by decide)]
  rw [hback]
  refine Or.imp_left (fun heq => ?_) (scale_scale (by decide) (by decide) ts.toNat)
  exact UInt64.toNat_inj.mp (hback.trans heq)

/-- A time that is converted and back is late by less than three 65536ths of a second. -/
theorem ts2ntp_ntp2ts (t : UInt64) :
    ts2ntp (ntp2ts t raopRate) raopRate ≤ t ∧
      t.toNat - (ts2ntp (ntp2ts t raopRate) raopRate).toNat < 3 * 2 ^ 16 := by
  have hback : (ts2ntp (ntp2ts t raopRate) raopRate).toNat =
      scale (2 ^ 16) 44100 (scale 44100 (2 ^ 16) (t.toNat / 2 ^ 16)) * 2 ^ 16 := by
    rw [toNat_ts2ntp (ntp2ts_lt t), toNat_ntp2ts]
  have hle := scale_back_le (a := 2 ^ 16) (b := 44100) (by decide) (t.toNat / 2 ^ 16)
  have hnear := scale_back_near (a := 2 ^ 16) (b := 44100) (by decide) (by decide) (t.toNat / 2 ^ 16)
  rw [UInt64.le_iff_toNat_le, hback]
  generalize scale (2 ^ 16) 44100 (scale 44100 (2 ^ 16) (t.toNat / 2 ^ 16)) = n at hle hnear
  omega

/-! ## 2. The sync packets of a session -/

/-- The position of a stream behind some entries of its session. -/
def position (start : ℕ) (older : List Entry) : ℕ := start + 352 * (shown Entry.audio? older).length

/-- A datagram of the control socket that is a sync packet. -/
def IsSync (pkt : Octets) : Prop := pkt[1]? = some 0xD4

/-- The time in it. -/
def syncTime (pkt : Octets) : ℕ := beVal 0 ((pkt.drop 8).take 8)

/-- A sync packet has the time of the position it is sent at, in a stream that begins at `start`. -/
def Stamped (start : UInt64) : Entry → List Entry → Prop
  | .udpSend .control _ pkt, older => IsSync pkt → syncTime pkt =
      (ts2ntp (start + UInt64.ofNat (352 * (shown Entry.audio? older).length)) raopRate).toNat
  | _, _ => True

/-- An entry that says something about the clock. -/
def Entry.isClocked : Entry → Bool
  | .started .. => true
  | .entered => true
  | .udpSend .control _ _ => true
  | _ => false

theorem Entry.calm_of_not_clocked {e : Entry} (h : e.isClocked = false) :
    e.isStarted = false ∧ e ≠ .entered ∧ ∀ start older, Stamped start e older := by
  cases e with
  | started | entered => cases h
  | udpSend u dest bytes =>
    cases u with
    | control => cases h
    | _ => exact ⟨rfl, nofun, fun _ _ => trivial⟩
  | _ => exact ⟨rfl, nofun, fun _ _ => trivial⟩

theorem Entry.not_clocked_of_isSocket {e : Entry} (h : e.isSocket = true) : e.isClocked = false := by
  cases e with
  | tcpClose | udpClose | udpBind => rfl
  | _ => cases h

theorem syncTime_sync (m : Members) (mark : UInt8) {ntp : ℕ} (h : ntp < 2 ^ 64) :
    syncTime (m.sync mark ntp) = ntp := by
  have hat := At.middle ([mark, 0xD4] ++ beBytes 2 7 ++
    beBytes 4 (m.rtptime - Sender.latency).toNat) (beBytes 8 ntp) (beBytes 4 m.rtptime.toNat)
  have hlen : ([mark, 0xD4] ++ beBytes 2 7 ++
      beBytes 4 (m.rtptime - Sender.latency).toNat).length = 8 := by simp
  have htake := hat.take
  rw [hlen, length_beBytes] at htake
  rw [syncTime, Members.sync, htake, beVal_beBytes_of_lt (by simpa using h)]

/-- The clock of the members is the clock of the session. -/
theorem stamped_clock {m : Members} {older : List Entry} (dest : Endpoint) (mark : UInt8)
    (hframes : m.framesSent = UInt64.ofNat (352 * (shown Entry.audio? older).length)) :
    Stamped m.startTs (.udpSend .control dest (m.sync mark m.clock)) older := by
  intro _
  have hclock : m.clock < 2 ^ 64 := UInt64.toNat_lt _
  rw [syncTime_sync m mark hclock, Members.clock, hframes]

/-- A session streams from the time its stream began, and all its sync packets count from there. -/
structure Clocked (c : Wire) : Prop where
  begun : .entered ∈ sessionOf c.log → ∃ ntp, c.startTs = ntp2ts ntp raopRate
  stamped : Always (Stamped c.startTs) (sessionOf c.log)
  silent : .entered ∉ sessionOf c.log → ∀ start, Always (Stamped start) (sessionOf c.log)

section Clocked

variable [Primitives] {s₀ : UInt16} {id : UInt32} {key : Option Octets} {c c' : Wire}

omit [Primitives] in
theorem Clocked.append (h : Clocked c) (es : List Entry) (hlog : c'.log = es ++ c.log)
    (hstart : c'.startTs = c.startTs)
    (hes : ∀ e ∈ es, e.isStarted = false ∧ e ≠ .entered ∧ ∀ start older, Stamped start e older) :
    Clocked c' := by
  have hsession : sessionOf c'.log = es ++ sessionOf c.log := by
    rw [hlog, sessionOf_append fun e he => (hes e he).1]
  have hentered : .entered ∈ sessionOf c'.log ↔ .entered ∈ sessionOf c.log := by
    rw [hsession, List.mem_append]
    exact or_iff_right fun hmem => (hes _ hmem).2.1 rfl
  have hall {start : UInt64} (hold : Always (Stamped start) (sessionOf c.log)) :
      Always (Stamped start) (sessionOf c'.log) := by
    rw [hsession]
    exact hold.append fun e he => (hes e he).2.2 start
  refine ⟨fun hmem => ?_, ?_, fun hno start => hall (h.silent (fun hmem => hno (hentered.mpr hmem)) start)⟩
  · rw [hstart]
    exact h.begun (hentered.mp hmem)
  · rw [hstart]
    exact hall h.stamped

omit [Primitives] in
/-- Entries that say nothing about the clock. -/
theorem Clocked.beside (h : Clocked c) (es : List Entry) (hlog : c'.log = es ++ c.log)
    (hstart : c'.startTs = c.startTs) (hes : ∀ e ∈ es, e.isClocked = false) : Clocked c' :=
  h.append es hlog hstart fun e he => Entry.calm_of_not_clocked (hes e he)

omit [Primitives] in
theorem Clocked.finished (h : Clocked c) {es : List Entry} {backlog : ℕ → Octets}
    {backlogSeq : ℕ → ℤ} (hes : ∀ e ∈ es, e.isSocket = true) :
    Clocked (c.finished es backlog backlogSeq) := by
  refine h.beside (releaseEntries c.udpBound ++ es) (List.append_assoc _ _ _).symm rfl fun e he => ?_
  rcases List.mem_append.mp he with he | he
  · exact Entry.not_clocked_of_isSocket (isSocket_release e he)
  · exact Entry.not_clocked_of_isSocket (hes e he)

omit [Primitives] in
/-- A session begins without sync packets. -/
theorem clocked_begun (c : Wire) (seq : UInt16) (auth : Auth) (airplay2 strict : Bool) (p : Ports) :
    Clocked (c.begun seq auth airplay2 strict p) := by
  obtain ⟨es, hes, hlog⟩ := c.begun_log seq auth airplay2 strict p
  have hcalm : ∀ e ∈ es, e.isStarted = false ∧ e ≠ .entered ∧ ∀ start older, Stamped start e older :=
    fun e he => Entry.calm_of_not_clocked (Entry.not_clocked_of_isSocket (hes e he))
  have hsession : sessionOf (c.begun seq auth airplay2 strict p).log = es ++ [] := by
    rw [hlog, sessionOf_append fun e he => (hcalm e he).1, sessionOf_started]
  have hall (start : UInt64) :
      Always (Stamped start) (sessionOf (c.begun seq auth airplay2 strict p).log) := by
    rw [hsession]
    exact Always.append always_nil fun e he => (hcalm e he).2.2 start
  refine ⟨fun hmem => ?_, hall _, fun _ => hall⟩
  rw [hsession, List.append_nil] at hmem
  exact absurd rfl (hcalm _ hmem).2.1

/-- **The stream begins with its clock**, and the first sync packet is the first to show it. -/
theorem Clocked.entering (h : Clocked c) (htimed : Timed s₀ id key c) (hbefore : Before .entered c.log)
    (ntp : UInt64) (serverPort controlPort : UInt16) (dbfs : Float) {synced : List Entry}
    (hsynced : (c.entering ntp serverPort controlPort dbfs).Syncs synced) :
    Clocked { c.entering ntp serverPort controlPort dbfs with log := synced ++ .entered :: c.log } := by
  have hno : .entered ∉ sessionOf c.log := hbefore.1 rfl
  have hsent : shown Entry.audio? (sessionOf c.log) = [] := htimed.unsent hno
  have hentered : Always (Stamped (ntp2ts ntp raopRate)) (.entered :: sessionOf c.log) :=
    ⟨trivial, h.silent hno _⟩
  have hstarted : sessionOf (.entered :: c.log) = .entered :: sessionOf c.log := sessionOf_cons rfl _
  have hsession : sessionOf (synced ++ .entered :: c.log) = synced ++ .entered :: sessionOf c.log := by
    rw [sessionOf_append hsynced.not_started, hstarted]
  have hmem : .entered ∈ sessionOf (synced ++ .entered :: c.log) := by
    rw [hsession]
    exact List.mem_append_right _ List.mem_cons_self
  refine ⟨fun _ => ⟨ntp, rfl⟩, ?_, fun hnot => absurd hmem hnot⟩
  have hall : Always (Stamped (ntp2ts ntp raopRate)) (synced ++ .entered :: sessionOf c.log) := by
    rcases hsynced with rfl | ⟨dest, mark, rfl⟩
    · exact hentered
    · have hfirst : shown Entry.audio? (.entered :: sessionOf c.log) = [] :=
        (shown_cons_none rfl).trans hsent
      have hframes : (c.entering ntp serverPort controlPort dbfs).framesSent =
          UInt64.ofNat (352 * (shown Entry.audio? (.entered :: sessionOf c.log)).length) := by
        rw [hfirst]
        rfl
      exact ⟨stamped_clock dest mark hframes, hentered⟩
  rw [← hsession] at hall
  exact hall

variable {Ok : Action → Prop}

theorem Clocked.act (h : Clocked c) (htimed : Timed s₀ id key c) (hbefore : Always Before c'.log)
    (ha : Act Ok c c') : Clocked c' := by
  cases ha with
  | begin seq auth airplay2 strict p => exact clocked_begun c seq auth airplay2 strict p
  | connect | dropEvent | clear | request | dispatch | setUp | pair | packet =>
    exact h.beside [_] rfl rfl (by simp [Entry.isClocked])
  | offer => exact h.beside [_, _] rfl rfl (by simp [Entry.isClocked])
  | refuse controlPort =>
    have hsame : Clocked { c with serverPort := 0, controlPort } := h.beside [] rfl rfl (by simp)
    exact hsame.finished (by simp [Entry.isSocket])
  | fail | stop => exact h.finished (by simp [Entry.isSocket])
  | volume dbfs sent hsent =>
    refine h.beside (sent ++ [_]) (List.append_assoc sent [_] c.log).symm rfl fun e he => ?_
    rcases List.mem_append.mp he with he | he
    · obtain ⟨cseq, text, rfl⟩ := hsent.mem he
      rfl
    · rw [List.mem_singleton.mp he]
      rfl
  | enter ntp _ _ _ hsynced hsent =>
    have hentered : Always Before (.entered :: c.log) := hbefore.of_append.of_append
    refine (h.entering htimed hentered.1 ntp _ _ _ hsynced).beside _ rfl rfl fun e he => ?_
    obtain ⟨cseq, text, rfl⟩ := hsent.mem he
    rfl
  | sync dest mark hst =>
    have hentered := htimed.begun (.inr hst)
    have hsession : sessionOf (.udpSend .control dest (c.toMembers.sync mark c.clock) :: c.log) =
        .udpSend .control dest (c.toMembers.sync mark c.clock) :: sessionOf c.log :=
      sessionOf_cons rfl _
    refine ⟨fun _ => h.begun hentered, ?_, fun hno => absurd ?_ hno⟩
    · have hall : Always (Stamped c.startTs)
          (.udpSend .control dest (c.toMembers.sync mark c.clock) :: sessionOf c.log) :=
        ⟨stamped_clock dest mark htimed.frames, h.stamped⟩
      rw [← hsession] at hall
      exact hall
    · rw [hsession]
      exact List.mem_cons_of_mem _ hentered
  | reply u dest bytes hreply =>
    refine h.append [_] rfl rfl fun e he => ?_
    rw [List.mem_singleton.mp he]
    refine ⟨rfl, by rintro ⟨⟩, fun start older => ?_⟩
    cases u with
    | control =>
      intro hsync
      have hmark : bytes[1]? = some 0xD6 := hreply.2 rfl
      rw [IsSync, hmark] at hsync
      cases hsync
    | _ => trivial
  | _ => exact h.beside [] rfl rfl (by simp)

theorem Clocked.turn (h : Clocked c) (htimed : Timed s₀ id key c) (hbefore : Always Before c'.log)
    (ht : Turn Ok c c') : Clocked c' := by
  cases ht with
  | act ha => exact h.act htimed hbefore ha
  | arrives a _ ha =>
    cases ha with
    | refused bytes rxBuf rtspEncBuf =>
      have hsame : Clocked { c with rxBuf, rtspEncBuf } := h.beside [] rfl rfl (by simp)
      exact hsame.finished (by simp [Entry.isSocket])
    | hungUp => exact h.finished (by simp)
    | nothing => exact h
    | _ => exact h.beside [] rfl rfl (by simp)

end Clocked

/-! ## 3. Sessions -/

/-- The sync packets of a session count from one time. -/
def Kept (session : List Entry) : Prop := ∃ ntp, Always (Stamped (ntp2ts ntp raopRate)) session

theorem Clocked.kept {c : Wire} (h : Clocked c) : Kept (sessionOf c.log) := by
  by_cases hmem : .entered ∈ sessionOf c.log
  · obtain ⟨ntp, hstart⟩ := h.begun hmem
    exact ⟨ntp, hstart ▸ h.stamped⟩
  · exact ⟨0, h.silent hmem _⟩

theorem Kept.of_suffix {older session : List Entry} (h : Kept session) (hs : older <:+ session) :
    Kept older := by
  obtain ⟨ntp, hall⟩ := h
  exact ⟨ntp, hall.of_suffix hs⟩

/-- At every moment of a trace. -/
theorem kept_moments {log : List Entry}
    (hpast : Always (fun e older => e.isStarted = true → Kept (sessionOf older)) log)
    (hnow : Kept (sessionOf log)) : ∀ older, older <:+ log → Kept (sessionOf older) := by
  induction log with
  | nil =>
    intro older hs
    rw [List.suffix_nil.mp hs]
    exact hnow
  | cons e log ih =>
    intro older hs
    rcases List.suffix_cons_iff.mp hs with rfl | hs
    · exact hnow
    · refine ih hpast.2 ?_ older hs
      cases he : e.isStarted with
      | true => exact hpast.1 he
      | false =>
        rw [sessionOf_cons he] at hnow
        exact hnow.of_suffix (List.suffix_cons e _)

/-- The wire has all that the sync packets speak of. -/
theorem stamped_of_filter {start : UInt64} {log : List Entry}
    (h : Always (Stamped start) (sessionOf (log.filter Entry.wired))) :
    Always (Stamped start) (sessionOf log) := by
  rw [sessionOf_filter fun _ => Entry.wired_of_isStarted] at h
  have hshown (older : List Entry) :
      shown Entry.audio? (older.filter Entry.wired) = shown Entry.audio? older := by
    refine shown_filter (fun e he => ?_) _
    cases e with
    | udpSend => cases he
    | _ => rfl
  refine h.of_filter (fun e older _ hstamped => ?_) fun e older he => ?_
  · cases e with
    | udpSend u dest pkt =>
      cases u with
      | control =>
        intro hsync
        rw [← hshown older]
        exact hstamped hsync
      | _ => trivial
    | _ => trivial
  · cases e with
    | udpSend => cases he
    | _ => trivial

theorem Reachable.clocked [Primitives] {w : World} (h : Reachable w) : Clocked (wireOf w) ∧
    Always (fun e older => e.isStarted = true → Kept (sessionOf older)) (wireOf w).log := by
  have hinv : (∃ s₀ id key, Timed s₀ id key (wireOf w)) ∧ Clocked (wireOf w) ∧
      Always (fun e older => e.isStarted = true → Kept (sessionOf older)) (wireOf w).log := by
    refine h.turns_induct (I := fun c => (∃ s₀ id key, Timed s₀ id key c) ∧ Clocked c ∧
      Always (fun e older => e.isStarted = true → Kept (sessionOf older)) c.log) h.before
      (fun env => ⟨⟨0, 0, none, Timed.init env⟩, ⟨nofun, trivial, fun _ _ => trivial⟩, trivial⟩) ?_
    rintro c c' hbefore ht ⟨⟨s₀, id, key, htimed⟩, hclocked, hpast⟩
    exact ⟨htimed.turn hbefore ht, hclocked.turn htimed hbefore ht, ht.past hpast hclocked.kept⟩
  exact hinv.2

/-- The sync packets of a session whose stream begins at `start`: each differs from its position by
less than a frame, and no time goes back from one to the next, nor stands still where audio was sent
in between. -/
structure OnTime (start : ℕ) (session : List Entry) : Prop where
  near : ∀ newer dest pkt older, session = newer ++ .udpSend .control dest pkt :: older → IsSync pkt →
    position start older < ntpEra →
      syncTime pkt * 44100 ≤ position start older * 2 ^ 32 ∧
        position start older * 2 ^ 32 < syncTime pkt * 44100 + 2 ^ 32
  ordered : ∀ newer dest pkt mid dest' pkt' older,
    session = newer ++ .udpSend .control dest pkt :: (mid ++ .udpSend .control dest' pkt' :: older) →
      IsSync pkt → IsSync pkt' →
        position start (mid ++ .udpSend .control dest' pkt' :: older) < ntpEra →
          syncTime pkt' ≤ syncTime pkt ∧
            ((∃ peer audio, .udpSend .audio peer audio ∈ mid) → syncTime pkt' < syncTime pkt)

/-- The time of a stamped packet within the era. -/
theorem Stamped.time {start : UInt64} {dest : Endpoint} {pkt : Octets} {older : List Entry}
    (h : Stamped start (.udpSend .control dest pkt) older) (hsync : IsSync pkt)
    (hera : position start.toNat older < ntpEra) :
    syncTime pkt = scale (2 ^ 16) 44100 (position start.toNat older) * 2 ^ 16 := by
  have hnow : (start + UInt64.ofNat (352 * (shown Entry.audio? older).length)).toNat =
      position start.toNat older := by
    have hstart := start.toNat_lt
    unfold position ntpEra at hera
    unfold position
    rw [UInt64.toNat_add, UInt64.toNat_ofNat']
    omega
  have htime : syncTime pkt = _ := h hsync
  rw [htime, toNat_ts2ntp (by rw [hnow]; exact hera), hnow]

theorem onTime_of_stamped {start : UInt64} {session : List Entry}
    (h : Always (Stamped start) session) : OnTime start.toNat session where
  near newer dest pkt older heq hsync hera := by
    have hstamped := always_iff.mp h _ older (heq ▸ List.suffix_append newer _)
    rw [Stamped.time hstamped hsync hera]
    have hle := scale_le (2 ^ 16) 44100 (position start.toNat older)
    have hlt := lt_scale_succ (b := 44100) (by decide) (2 ^ 16) (position start.toNat older)
    omega
  ordered newer dest pkt mid dest' pkt' older heq hsync hsync' hera := by
    have hsplit : shown Entry.audio? (mid ++ .udpSend .control dest' pkt' :: older) =
        shown Entry.audio? older ++ shown Entry.audio? mid := by
      have hskip : shown Entry.audio? (.udpSend .control dest' pkt' :: older) =
          shown Entry.audio? older := shown_cons_none rfl
      rw [shown_append, hskip]
    have hposition : position start.toNat (mid ++ .udpSend .control dest' pkt' :: older) =
        position start.toNat older + 352 * (shown Entry.audio? mid).length := by
      unfold position
      rw [hsplit, List.length_append]
      ring
    rw [heq] at h
    obtain ⟨hstamped, hrest⟩ := h.of_append
    have hstamped' := hrest.of_append.1
    rw [Stamped.time hstamped hsync hera, Stamped.time hstamped' hsync' (by omega), hposition]
    constructor
    · exact Nat.mul_le_mul_right _ (scale_mono _ _ (Nat.le_add_right _ _))
    · rintro ⟨peer, audio, hmem⟩
      have hsome : 0 < (shown Entry.audio? mid).length := by
        rw [shown, List.length_reverse]
        exact List.length_pos_of_mem (List.mem_filterMap.mpr ⟨_, hmem, rfl⟩)
      have hlater : position start.toNat older <
          position start.toNat older + 352 * (shown Entry.audio? mid).length := by omega
      have hstrict := scale_strictMono (a := 2 ^ 16) (b := 44100) (by decide) (by decide) hlater
      exact Nat.mul_lt_mul_of_pos_right hstrict (by decide)

/-- **The clock of the stream**: at 44100 Hz `ntp2ts` loses no bits of any product and is monotone;
within an era `ts2ntp` loses none either, is strictly monotone, and `ntp2ts` takes it back to where it
came from or one less; the other way round less than three 65536ths of a second are lost; and at
every moment of every run the sync packets of the session are on time, counted from the wall clock
at its beginning, in a stream from `startTs_`. -/
theorem sync_clock [Primitives] {w : World} (h : Reachable w) :
    (∀ t : UInt64, ((t >>> 16) * raopRate.toUInt64).toNat = (t >>> 16).toNat * 44100 ∧
      ∀ t', t ≤ t' → ntp2ts t raopRate ≤ ntp2ts t' raopRate) ∧
    (∀ ts : UInt64, ts.toNat < 2 ^ 32 * 44100 →
      ((ts <<< 16).toNat = ts.toNat * 2 ^ 16 ∧
        (((ts <<< 16) / raopRate.toUInt64) <<< 16).toNat =
          ((ts <<< 16) / raopRate.toUInt64).toNat * 2 ^ 16) ∧
      (∀ ts', ts' < ts → ts2ntp ts' raopRate < ts2ntp ts raopRate) ∧
      (ntp2ts (ts2ntp ts raopRate) raopRate = ts ∨
        (ntp2ts (ts2ntp ts raopRate) raopRate).toNat + 1 = ts.toNat)) ∧
    (∀ t : UInt64, ts2ntp (ntp2ts t raopRate) raopRate ≤ t ∧
      t.toNat - (ts2ntp (ntp2ts t raopRate) raopRate).toNat < 3 * 2 ^ 16) ∧
    (∀ log, log <:+ w.out →
      ∃ ntp : UInt64, OnTime (ntp2ts ntp raopRate).toNat (sessionOf log)) ∧
    OnTime w.s.startTs.toNat (sessionOf w.out) := by
  obtain ⟨hclocked, hpast⟩ := h.clocked
  refine ⟨fun t => ⟨ntp2ts_exact t, fun t' ht => ntp2ts_mono ht⟩, fun ts hera => ?_, ts2ntp_ntp2ts,
    fun log hlog => ?_, ?_⟩
  · exact ⟨ts2ntp_exact hera, fun ts' hlt => ts2ntp_strict hlt hera, ntp2ts_ts2ntp hera⟩
  · obtain ⟨ntp, hall⟩ := kept_moments hpast hclocked.kept _ (hlog.filter Entry.wired)
    exact ⟨ntp, onTime_of_stamped (stamped_of_filter hall)⟩
  · exact onTime_of_stamped (stamped_of_filter hclocked.stamped)

/-- One second after another, and the sync packets of a stream. -/
theorem sync_clock_stream :
    ts2ntp 44100 raopRate < ts2ntp 88200 raopRate ∧ OnTime tickedStream.s.startTs.toNat
      (sessionOf tickedStream.out) := by
  obtain ⟨-, hts, -, -, htime⟩ := @sync_clock trusting _ (worldIn_reachable 0 .running _)
  exact ⟨(hts 88200 (by decide)).2.1 44100 (by decide), htime⟩

end AirplaySender
