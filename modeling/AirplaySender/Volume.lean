/-
# The volume

`setVolume` may be called at any time, also long before there is a stream to tell about it.  The value
is kept in a member, which `start` resets and `startStreaming_` sends.

`volume_conveyed` says what becomes of it in every run: the first request of a stream is the volume
the session was last asked for, and behind the beginning of the stream every call is a request at
once.  A call before `start` is lost: `start` forgets it.  So is a NaN at the beginning of the stream:
it is not above `kNoVolume`, and the stream begins as if nobody had asked.
-/
import AirplaySender.Routing
import AirplaySender.Timeline

namespace AirplaySender

open Octets Trace

/-! ## 1. Volumes in the trace -/

/-- The volume a call asks for. -/
def Entry.volume? : Entry → Option Float
  | .volumeSet _ dbfs => some dbfs
  | _ => none

/-- The volume the session was last asked for. -/
def lastVolume (log : List Entry) : Option Float := (shown Entry.volume? (sessionOf log)).getLast?

/-- An entry that begins a session or its stream, or asks for a volume. -/
def Entry.voices : Entry → Bool
  | .started .. => true
  | .entered => true
  | .volumeSet .. => true
  | _ => false

theorem voices_false {e : Entry} (h : e.voices = false) :
    e.isStarted = false ∧ e.isEntered = false ∧ e.volume? = none := by
  cases e with
  | started | entered | volumeSet => cases h
  | _ => exact ⟨rfl, rfl, rfl⟩

theorem voices_of_isSocket {e : Entry} (h : e.isSocket = true) : e.voices = false := by
  cases e with
  | started | entered | volumeSet => cases h
  | _ => rfl

theorem lastVolume_append {es : List Entry} (hes : ∀ e ∈ es, e.voices = false ∨ e = .entered)
    (log : List Entry) : lastVolume (es ++ log) = lastVolume log := by
  have hno : ∀ e ∈ es, e.isStarted = false ∧ e.volume? = none := by
    intro e he
    rcases hes e he with hvoice | rfl
    · exact ⟨(voices_false hvoice).1, (voices_false hvoice).2.2⟩
    · exact ⟨rfl, rfl⟩
  rw [lastVolume, sessionOf_append fun e he => (hno e he).1, shown_append_none fun e he => (hno e he).2]
  rfl

/-- A session forgets what was asked before it. -/
theorem lastVolume_started (auth : Auth) (airplay2 strict : Bool) (log : List Entry) :
    lastVolume (.started auth airplay2 strict :: log) = none := by
  rw [lastVolume, sessionOf_started]
  rfl

theorem lastVolume_volumeSet (live : Bool) (dbfs : Float) (log : List Entry) :
    lastVolume (.volumeSet live dbfs :: log) = some dbfs := by
  rw [lastVolume, sessionOf_cons rfl, shown_cons_some (f := Entry.volume?) rfl, List.getLast?_append]
  rfl

section Volumes

variable [Primitives] {c c' : Wire} {w : World}

/-- The `SET_PARAMETER` for a volume. -/
def VolumeRequest (dbfs : Float) (text : Octets) : Prop :=
  ∃ s : Sender, text = rtspText s (ascii "SET_PARAMETER") s.rtspUri (ascii "text/parameters")
    (ascii "volume: " ++ fixed6 dbfs) (sessionHeader s)

/-- The first of the requests in some entries is that for a volume. -/
def Tells (dbfs : Float) (newer : List Entry) : Prop :=
  ∃ text, (texts newer).head? = some text ∧ VolumeRequest dbfs text

/-- The stream begins with the volume that was asked for, where that is one, and goes on with every
other. -/
def Conveyed : Entry → List Entry → List Entry → Prop
  | .entered, older, newer =>
    ∀ dbfs, lastVolume older = some dbfs → kNoVolume + 1.0 < dbfs → Tells dbfs newer
  | .volumeSet true dbfs, _, newer => Tells dbfs newer
  | _, _, _ => True

theorem Tells.more {dbfs : Float} {newer : List Entry} (h : Tells dbfs newer) (more : List Entry) :
    Tells dbfs (more ++ newer) := by
  obtain ⟨text, hhead, hvolume⟩ := h
  refine ⟨text, ?_, hvolume⟩
  rw [texts, shown_append, List.head?_append, ← texts, hhead]
  rfl

theorem conveyed_more (e : Entry) (older newer more : List Entry) (h : Conveyed e older newer) :
    Conveyed e older (more ++ newer) := by
  cases e with
  | entered => exact fun dbfs hlast hasked => (h dbfs hlast hasked).more more
  | volumeSet live dbfs =>
    cases live with
    | true => exact Tells.more h more
    | false => trivial
  | _ => trivial

theorem conveyed_of_voices {e : Entry} (h : e.voices = false) (older newer : List Entry) :
    Conveyed e older newer := by
  cases e with
  | entered | volumeSet => cases h
  | _ => trivial

/-- What is sent for a volume tells it. -/
theorem tells_of_conveys {m : Members} {p : Prop} {es : List Entry} (h : m.Conveys p es) (hp : p)
    (synced : List Entry) (hsynced : ∀ e ∈ synced, e.text? = none) :
    Tells m.pendingVolumeDb (es ++ synced) := by
  obtain ⟨cseq, text, ⟨s, rfl, rfl⟩, rfl⟩ := h.1 hp
  have hnone : shown Entry.text? synced = [] := by
    rw [shown, List.filterMap_eq_nil_iff.mpr hsynced, List.reverse_nil]
  refine ⟨_, ?_, s, rfl⟩
  rw [texts, List.singleton_append, shown_cons_some (f := Entry.text?) rfl, hnone]
  rfl

/-! ## 2. The invariant -/

/-- The member holds the volume the session was last asked for, and so far every volume was told. -/
structure Voiced (c : Wire) : Prop where
  pending : ∀ dbfs, lastVolume c.log = some dbfs → kNoVolume + 1.0 < dbfs → c.pendingVolumeDb = dbfs
  conveyed : Followed Conveyed c.log

theorem Voiced.init (env : Env) : Voiced (wireOf (World.init env)) := by
  refine ⟨fun dbfs hlast _ => ?_, .nil⟩
  cases hlast

/-- Entries that have nothing to do with the volume. -/
theorem Voiced.silent (h : Voiced c) (es : List Entry) (hlog : c'.log = es ++ c.log)
    (hes : ∀ e ∈ es, e.voices = false) (hpending : c'.pendingVolumeDb = c.pendingVolumeDb) :
    Voiced c' := by
  refine ⟨?_, ?_⟩
  · rw [hlog, hpending, lastVolume_append fun e he => .inl (hes e he)]
    exact h.pending
  · rw [hlog]
    exact h.conveyed.append conveyed_more fun e he => conveyed_of_voices (hes e he)

/-- The end of a session. -/
theorem Voiced.finished (h : Voiced c) (es : List Entry) (backlog : ℕ → Octets)
    (backlogSeq : ℕ → ℤ) (hes : ∀ e ∈ es, e.isSocket = true) :
    Voiced (c.finished es backlog backlogSeq) := by
  refine h.silent (releaseEntries c.udpBound ++ es) (List.append_assoc _ _ _).symm ?_ rfl
  intro e he
  rcases List.mem_append.mp he with he | he
  · exact voices_of_isSocket (isSocket_release e he)
  · exact voices_of_isSocket (hes e he)

/-- A new session has been asked for nothing. -/
theorem Voiced.begun (h : Voiced c) (seq : UInt16) (auth : Auth) (airplay2 strict : Bool)
    (p : Ports) : Voiced (c.begun seq auth airplay2 strict p) := by
  obtain ⟨es, hes, hlog⟩ := c.begun_log seq auth airplay2 strict p
  have hvoice : ∀ e ∈ es, e.voices = false := fun e he => voices_of_isSocket (hes e he)
  refine ⟨fun dbfs hlast _ => ?_, ?_⟩
  · rw [hlog, lastVolume_append fun e he => .inl (hvoice e he), lastVolume_started] at hlast
    cases hlast
  · rw [hlog]
    exact h.conveyed.behind conveyed_more trivial fun e he => conveyed_of_voices (hvoice e he)

/-- A call is told to a stream that is there. -/
theorem Voiced.volume (h : Voiced c) {dbfs : Float} {sent : List Entry}
    (hsent : ({ c.toMembers with pendingVolumeDb := dbfs } : Members).Conveys (c.state = .streaming)
      sent) : Voiced { c with
        pendingVolumeDb := dbfs
        log := sent ++ .volumeSet (c.state = .streaming) dbfs :: c.log } := by
  have hvoice : ∀ e ∈ sent, e.voices = false := by
    intro e he
    obtain ⟨cseq, text, rfl⟩ := hsent.mem he
    rfl
  refine ⟨fun dbfs' hlast _ => ?_, ?_⟩
  · rw [lastVolume_append fun e he => .inl (hvoice e he), lastVolume_volumeSet] at hlast
    exact Option.some.inj hlast
  · refine h.conveyed.behind conveyed_more ?_ fun e he => conveyed_of_voices (hvoice e he)
    by_cases hst : c.state = .streaming
    · rw [decide_eq_true hst]
      have htells := tells_of_conveys hsent hst [] (by simp)
      rwa [List.append_nil] at htells
    · rw [decide_eq_false hst]
      trivial

/-- The stream begins with the volume that was asked for. -/
theorem Voiced.enter (h : Voiced c) {ntp : UInt64} {serverPort controlPort : UInt16} {dbfs : Float}
    {synced sent : List Entry}
    (hdbfs : kNoVolume + 1.0 < c.pendingVolumeDb → dbfs = c.pendingVolumeDb)
    (hsynced : (c.entering ntp serverPort controlPort dbfs).Syncs synced)
    (hsent : (c.entering ntp serverPort controlPort dbfs).Conveys (kNoVolume + 1.0 < dbfs) sent) :
    Voiced { c.entering ntp serverPort controlPort dbfs with
      log := sent ++ (synced ++ .entered :: c.log) } := by
  have hvoice : ∀ e ∈ sent ++ synced, e.voices = false := by
    intro e he
    rcases List.mem_append.mp he with he | he
    · obtain ⟨cseq, text, rfl⟩ := hsent.mem he
      rfl
    · obtain ⟨dest, mark, rfl⟩ := hsynced.mem he
      rfl
  rw [← List.append_assoc]
  refine ⟨fun dbfs' hlast hasked => ?_, ?_⟩
  · rw [lastVolume_append fun e he => .inl (hvoice e he)] at hlast
    have hentered : lastVolume ([.entered] ++ c.log) = lastVolume c.log := lastVolume_append (by simp) c.log
    have hold : lastVolume c.log = some dbfs' := hentered.symm.trans hlast
    have hpending := h.pending dbfs' hold hasked
    rw [← hpending] at hasked ⊢
    exact hdbfs hasked
  · refine h.conveyed.behind conveyed_more ?_ fun e he => conveyed_of_voices (hvoice e he)
    intro dbfs' hlast hasked
    have hpending := h.pending dbfs' hlast hasked
    obtain rfl : dbfs = dbfs' := (hdbfs (by rw [hpending]; exact hasked)).trans hpending
    refine tells_of_conveys hsent hasked synced fun e he => ?_
    obtain ⟨dest, mark, rfl⟩ := hsynced.mem he
    rfl

theorem Voiced.act {Ok : Action → Prop} (h : Voiced c) (ha : Act Ok c c') : Voiced c' := by
  have hone {c' : Wire} {e : Entry} (hlog : c'.log = e :: c.log) (he : e.voices = false)
      (hpending : c'.pendingVolumeDb = c.pendingVolumeDb) : Voiced c' :=
    h.silent [e] hlog (by simpa using he) hpending
  cases ha with
  | begin seq auth airplay2 strict p => exact h.begun seq auth airplay2 strict p
  | connect | dropEvent | clear | request | dispatch | setUp | pair | packet | sync | reply =>
    exact hone rfl rfl rfl
  | offer => exact h.silent [_, _] rfl (by simp [Entry.voices]) rfl
  | volume dbfs sent hsent => exact h.volume hsent
  | enter ntp _ _ hdbfs hsynced hsent => exact h.enter hdbfs hsynced hsent
  | refuse controlPort =>
    have hsame : Voiced { c with serverPort := 0, controlPort } :=
      h.silent [] rfl (by simp) rfl
    exact hsame.finished _ _ _ (by simp [Entry.isSocket])
  | fail | stop => exact h.finished _ _ _ (by simp [Entry.isSocket])
  | _ => exact h.silent [] rfl (by simp) rfl

theorem Voiced.arrives {a : Action} (h : Voiced c) (ha : Arrives a c c') : Voiced c' := by
  cases ha with
  | refused bytes rxBuf rtspEncBuf =>
    have hsame : Voiced { c with rxBuf, rtspEncBuf } := h.silent [] rfl (by simp) rfl
    exact hsame.finished _ _ _ (by simp [Entry.isSocket])
  | hungUp => exact h.finished _ _ _ (by simp)
  | _ => exact h.silent [] rfl (by simp) rfl

theorem Reachable.voiced (h : Reachable w) : Voiced (wireOf w) := by
  refine h.turns_induct (Q := fun _ _ => True) (always_iff.mpr fun _ _ _ => trivial) Voiced.init ?_
  intro c c' _ ht hc
  cases ht with
  | act ha => exact hc.act ha
  | arrives a _ ha => exact hc.arrives ha

/-! ## 3. What the receiver is told -/

omit [Primitives] in
theorem lastVolume_filter (log : List Entry) :
    lastVolume (log.filter Entry.wired) = lastVolume log := by
  have hstarted (e : Entry) (he : e.isStarted = true) : e.wired = true := by
    cases e with
    | started => rfl
    | _ => cases he
  rw [lastVolume, sessionOf_filter hstarted, shown_filter]
  · rfl
  · intro e he
    cases e with
    | volumeSet => cases he
    | _ => rfl

omit [Primitives] in
theorem texts_filter (log : List Entry) : texts (log.filter Entry.wired) = texts log := by
  refine shown_filter (fun e he => ?_) log
  cases e with
  | requested => cases he
  | _ => rfl

/-- **No volume is lost.**  In every reachable world: where the stream of a session began and what the
application had last asked for since `start` is above `kNoVolume + 1.0`, the first request behind
that is this volume; and where it asked for one while there was a stream, the next request is that
volume. -/
theorem volume_conveyed (h : Reachable w) :
    (∀ newer older dbfs, w.out = newer ++ .entered :: older → lastVolume older = some dbfs →
      kNoVolume + 1.0 < dbfs → Tells dbfs newer) ∧
    ∀ newer older dbfs, w.out = newer ++ .volumeSet true dbfs :: older → Tells dbfs newer := by
  have hconveyed : Followed Conveyed (w.out.filter Entry.wired) := h.voiced.conveyed
  have htells {newer : List Entry} {dbfs : Float} (hnew : Tells dbfs (newer.filter Entry.wired)) :
      Tells dbfs newer := by
    rwa [Tells, texts_filter] at hnew
  constructor
  · intro newer older dbfs hout hlast hasked
    have hsplit : w.out.filter Entry.wired =
        newer.filter Entry.wired ++ .entered :: older.filter Entry.wired := by
      rw [hout, List.filter_append]
      rfl
    exact htells (hconveyed _ _ _ hsplit dbfs (by rw [lastVolume_filter, hlast]) hasked)
  · intro newer older dbfs hout
    have hsplit : w.out.filter Entry.wired =
        newer.filter Entry.wired ++ .volumeSet true dbfs :: older.filter Entry.wired := by
      rw [hout, List.filter_append]
      rfl
    exact htells (hconveyed _ _ _ hsplit)

end Volumes

/-- A session is asked for 50 % before its stream and for 100 % behind it. -/
def voicedActions : List Action :=
  transientDone true ++ [.call (.setVolume 50), sealedReply 0 (okReply []), sealedReply 1 (okReply []),
    sealedReply 2 (okReply []), sealedReply 3 streamReply, .call (.setVolume 100)]

/-- The stream begins with -15 dB. -/
theorem volume_conveyed_voiced : ∃ newer older,
    (worldAfter voicedActions).out = newer ++ .entered :: older ∧ @Tells trusting (-15.0) newer := by
  obtain ⟨hentered, hlast⟩ : (worldAfter voicedActions).out.any Entry.isEntered = true ∧
      lastVolume ((worldAfter voicedActions).out.dropWhile fun e => !e.isEntered).tail =
        some (-15.0) := by decide +kernel
  generalize hout : (worldAfter voicedActions).out = out at hentered hlast
  have hsplit := (List.takeWhile_append_dropWhile (p := fun e => !e.isEntered) (l := out)).symm
  cases hdrop : out.dropWhile fun e => !e.isEntered with
  | nil =>
    obtain ⟨e, hmem, he⟩ := List.any_eq_true.mp hentered
    have hno := List.dropWhile_eq_nil_iff.mp hdrop e hmem
    rw [he] at hno
    cases hno
  | cons e older =>
    have he := List.head?_dropWhile_not (fun e : Entry => !e.isEntered) out
    rw [hdrop] at he hsplit hlast
    cases e with
    | entered =>
      refine ⟨_, older, hsplit, ?_⟩
      exact (@volume_conveyed trusting _ (worldAfter_reachable voicedActions)).1 _ older _
        (hout.trans hsplit) hlast (by decide +kernel)
    | _ => simp [Entry.isEntered] at he

end AirplaySender
