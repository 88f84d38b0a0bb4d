/-
# The order of the setup

Between authentication and the stream a session asks the receiver for one thing after the other:
`GET /info`, SETUP, RECORD, SETUP on AirPlay 2, OPTIONS, ANNOUNCE, SETUP, RECORD on AirPlay 1, where
a 401 may make it repeat one of them.  The code has no place where this order is written down: it is
in a stage on AirPlay 2, in the method of the reply at hand on AirPlay 1, and both go through one
queue.

`protocol_order` reads it off the trace.  The invariant behind it (`SettingUp`) is that what was
asked is what was answered and at most one request more, so that a reply at hand is the reply to the
newest request, and decides the next one.

The order also depends on numbers in the replies, and the code narrows them: a status to an `int`,
an event port to 16 bits.  So the order is stated over a `Reading` of these numbers.  Every run
keeps it as the code reads them, and the runs whose replies are `Unmistaken` keep it as they stand;
`order_misread` is a run that does not.
-/
import AirplaySender.HeaderIntegers
import AirplaySender.Pointers

namespace AirplaySender

open Octets Trace

/-! ## 1. The setup in the trace -/

/-- The entry that begins the stream. -/
def Entry.isEntered : Entry → Bool
  | .entered => true
  | _ => false

/-- The entry that sends a session into the setup of AirPlay 2. -/
def Entry.isSetup2 : Entry → Bool
  | .cleared _ setup2 _ => setup2
  | _ => false

/-- The stream of the session has begun. -/
def Entered (log : List Entry) : Prop := (sessionOf log).any Entry.isEntered = true

/-- The session went into the setup of AirPlay 2. -/
def isSetup2 (log : List Entry) : Bool := (sessionOf log).any Entry.isSetup2

/-- The session is past authentication, and its stream has not begun. -/
def inSetup (log : List Entry) : Bool :=
  (sessionOf log).any Entry.isCleared && !(sessionOf log).any Entry.isEntered

/-- The configured protocol. -/
def airplay2Of : List Entry → Bool
  | [] => false
  | .started _ airplay2 _ :: _ => airplay2
  | .configured _ airplay2 _ :: _ => airplay2
  | _ :: older => airplay2Of older

/-- The entries of the session that were added during its setup, newest first. -/
def setupEntries : List Entry → List Entry
  | [] => []
  | e :: older =>
    if e.isStarted then [] else if inSetup older then e :: setupEntries older else setupEntries older

/-- The method of a request, but for the TEARDOWN of `stop`. -/
def Entry.asks? : Entry → Option Octets
  | .requested _ method _ _ => if method = ascii "TEARDOWN" then none else some method
  | _ => none

/-- The method of the request that a response answers, but for a TEARDOWN. -/
def Entry.answers? : Entry → Option Octets
  | .dispatched _ method .. => if method = ascii "TEARDOWN" then none else some method
  | _ => none

/-- The requests of the setup, oldest first. -/
def asked (log : List Entry) : List Octets := shown Entry.asks? (setupEntries log)

/-- The requests of the setup that were answered. -/
def answered (log : List Entry) : List Octets := shown Entry.answers? (setupEntries log)

/-- The setup of AirPlay 1. -/
def handshake : List Octets := [ascii "OPTIONS", ascii "ANNOUNCE", ascii "SETUP", ascii "RECORD"]

/-- The setup of AirPlay 2. -/
def setup : List Octets := [ascii "GET", ascii "SETUP", ascii "RECORD", ascii "SETUP"]

/-- A part of the setup in its order: on AirPlay 1 one request may come twice in a row. -/
def InSequence : Bool → List Octets → Prop
  | true, methods => methods <+: setup
  | false, methods => methods <+: handshake ∨ ∃ before method after,
      before ++ method :: after <+: handshake ∧ methods = before ++ method :: method :: after

/-- The event port that a reply names, as the number it stands for, 0 where it names none. -/
def namedEventPort (body : Octets) : ℤ :=
  (((Bplist.decode body).bind (Bplist.Value.find (ascii "eventPort"))).map
    fun v => v.asInt.toInt).getD 0

/-- A way to read the numbers of a reply that decide the order. -/
structure Reading where
  /-- The text of a status code stands for a number. -/
  code : Octets → ℤ → Prop
  /-- The reply to the session SETUP asks for an event connection. -/
  event : Octets → Prop

/-- As they stand: the decimal number of a status, the whole event port. -/
def Reading.whole : Reading where
  code := Denotes
  event := fun body => namedEventPort body ≠ 0

/-- As the code reads them. -/
def Reading.narrowed : Reading where
  code := fun status code => toInt status = code
  event := fun body => replyEventPort body ≠ 0

/-- In the setup of this session SETUP was answered, and if the reply asks for an event connection,
one was requested since. -/
def EventRequested (r : Reading) (log : List Entry) : Prop :=
  ∃ since live status headers body older,
    setupEntries log = since ++ .dispatched live (ascii "SETUP") true status headers body :: older ∧
      (r.event body → ∃ host, .tcpConnect .event host (replyEventPort body) ∈ since)

/-- A request of the setup is in order. -/
structure Proceeds (r : Reading) (cseq : ℤ) (method text : Octets) (older : List Entry) : Prop where
  sequence : InSequence (isSetup2 older) (asked older ++ [method])
  answered : answered older = asked older
  again : (asked older).getLast? = some method → ∃ live status headers body,
    older.head? = some (.dispatched live method false status headers body) ∧ r.code status 401
  info : method = ascii "GET" →
    requestHead (ascii "GET") (ascii "/info") "RTSP/1.0" cseq <+: text
  event : isSetup2 older = true → method = ascii "RECORD" → EventRequested r older

/-- The reply that begins the stream: to RECORD on AirPlay 1, on AirPlay 2 to the last request of
the setup. -/
def Opens (r : Reading) (older : List Entry) : Prop :=
  ∃ live method isHttp status code headers body,
    older.head? = some (.dispatched live method isHttp status headers body) ∧
      r.code status code ∧ 200 ≤ code ∧ code < 300 ∧ answered older = asked older ∧
      ((isSetup2 older = false ∧ method = ascii "RECORD") ∨
        (isSetup2 older = true ∧ asked older = setup ∧ streamPort body "dataPort" ≠ 0))

/-- What the order of the setup says of an entry and the entries before it. -/
def InOrder (r : Reading) : Entry → List Entry → Prop
  | .cleared auth setup2 _, older =>
    ¬ Cleared older ∧
      (setup2 = airplay2Of older ∨ (setup2 = false ∧ (auth = .none ∨ auth = .password)))
  | .requested cseq method isHttp text, older =>
    (method = ascii "TEARDOWN" → isHttp = false) ∧
      (inSetup older = true → method ≠ ascii "TEARDOWN" → Proceeds r cseq method text older)
  | .dispatched _ method isHttp _ _ _, _ => method = ascii "TEARDOWN" → isHttp = false
  | .entered, older => inSetup older = true ∧ Opens r older
  | _, _ => True

/-- A status number that is no `int` is not taken for a 401 or a 2xx. -/
def CodeFits (status : Octets) : Prop :=
  ∀ code, Denotes status code →
    toInt status = 401 ∨ (200 ≤ toInt status ∧ toInt status < 300) → FitsInt code

instance (status : Octets) : Decidable (CodeFits status) :=
  decidable_of_iff ((parseInt status).all (fun code => decide
      (toInt status = 401 ∨ (200 ≤ toInt status ∧ toInt status < 300) → FitsInt code)) = true) <| by
    rw [Option.all_eq_true]
    exact forall_congr' fun code =>
      imp_congr (parseInt_eq_some_iff status code) (decide_eq_true_iff (p := _))

/-- A reply of the setup that is not mistaken for another: its status fits, and the event port in
the reply to the session SETUP, the second one, is no multiple of 2^16 but 0. -/
def Unmistaken : Entry → List Entry → Prop
  | .dispatched _ method isHttp status _ body, older => inSetup older = true →
    CodeFits status ∧ (isHttp = true → method = ascii "SETUP" → answered older = [ascii "GET"] →
      2 ^ 16 ∣ namedEventPort body → namedEventPort body = 0)
  | _, _ => True

instance (e : Entry) (older : List Entry) : Decidable (Unmistaken e older) := by
  cases e with
  | dispatched => exact inferInstanceAs (Decidable (_ → _ ∧ _))
  | _ => exact isTrue trivial

/-- Audio and sync packets belong to a stream that has begun. -/
def Streamed : Entry → List Entry → Prop
  | .udpSend u _ bytes, older => isMedia u bytes → Entered older
  | _, _ => True

/-! ## 2. Entries that leave the setup alone -/

/-- The entries the order of the setup speaks about. -/
def Entry.orders : Entry → Bool
  | .started .. => true
  | .cleared .. => true
  | .entered => true
  | .requested .. => true
  | .dispatched .. => true
  | _ => false

theorem Entry.not_started_of_orders {e : Entry} (h : e.orders = false) : e.isStarted = false := by
  cases e with
  | started => cases h
  | _ => rfl

theorem inOrder_of_orders {r : Reading} {e : Entry} (h : e.orders = false) (older : List Entry) :
    InOrder r e older := by
  cases e with
  | started | cleared | entered | requested | dispatched => cases h
  | _ => trivial

theorem cleared_iff {log : List Entry} : Cleared log ↔ (sessionOf log).any Entry.isCleared = true := by
  rw [List.any_eq_true]
  constructor
  · rintro ⟨auth, setup2, paired, hmem⟩
    exact ⟨_, hmem, rfl⟩
  · rintro ⟨e, hmem, he⟩
    cases e with
    | cleared auth setup2 paired => exact ⟨auth, setup2, paired, hmem⟩
    | _ => cases he

theorem inSetup_iff {log : List Entry} : inSetup log = true ↔ Cleared log ∧ ¬ Entered log := by
  rw [inSetup, Bool.and_eq_true, cleared_iff, Bool.not_eq_true', ← Bool.not_eq_true, Entered]

theorem cleared_of_isSetup2 {log : List Entry} (h : isSetup2 log = true) : Cleared log := by
  obtain ⟨e, hmem, he⟩ := List.any_eq_true.mp h
  cases e with
  | cleared auth setup2 paired => exact ⟨auth, setup2, paired, hmem⟩
  | _ => cases he

section Cons

variable {e : Entry} {log : List Entry}

theorem cleared_cons (he : e.isStarted = false) :
    Cleared (e :: log) ↔ e.isCleared = true ∨ Cleared log := by
  rw [cleared_iff, cleared_iff, sessionOf_cons he, List.any_cons, Bool.or_eq_true]

theorem entered_cons (he : e.isStarted = false) :
    Entered (e :: log) ↔ e.isEntered = true ∨ Entered log := by
  rw [Entered, Entered, sessionOf_cons he, List.any_cons, Bool.or_eq_true]

theorem isSetup2_cons (he : e.isStarted = false) :
    isSetup2 (e :: log) = (e.isSetup2 || isSetup2 log) := by
  rw [isSetup2, isSetup2, sessionOf_cons he, List.any_cons]

theorem setupEntries_cons (he : e.isStarted = false) :
    setupEntries (e :: log) =
      if inSetup log then e :: setupEntries log else setupEntries log := by
  rw [setupEntries, if_neg (by simp [he])]

/-- What an entry adds to the requests of the setup. -/
theorem asked_cons (he : e.isStarted = false) :
    asked (e :: log) = if inSetup log then asked log ++ e.asks?.toList else asked log := by
  unfold asked
  rw [setupEntries_cons he]
  split
  · cases h : e.asks? with
    | none => rw [shown_cons_none h, Option.toList_none, List.append_nil]
    | some m => rw [shown_cons_some h, Option.toList_some]
  · rfl

/-- What it adds to the answered ones. -/
theorem answered_cons (he : e.isStarted = false) :
    answered (e :: log) =
      if inSetup log then answered log ++ e.answers?.toList else answered log := by
  unfold answered
  rw [setupEntries_cons he]
  split
  · cases h : e.answers? with
    | none => rw [shown_cons_none h, Option.toList_none, List.append_nil]
    | some m => rw [shown_cons_some h, Option.toList_some]
  · rfl

end Cons

/-- Before authentication nothing was asked. -/
theorem setupEntries_of_not_cleared {log : List Entry} (h : ¬ Cleared log) : setupEntries log = [] := by
  induction log with
  | nil => rfl
  | cons e log ih =>
    by_cases he : e.isStarted = true
    · rw [setupEntries, if_pos he]
    · have he : e.isStarted = false := by simpa using he
      have hlog : ¬ Cleared log := fun hc => h ((cleared_cons he).mpr (.inr hc))
      have hnot : inSetup log ≠ true := fun hin => hlog (inSetup_iff.mp hin).1
      rw [setupEntries_cons he, if_neg hnot, ih hlog]

/-- Two traces with the same setup. -/
structure Alike (log log' : List Entry) : Prop where
  asked : asked log' = asked log
  answered : answered log' = answered log
  cleared : Cleared log' ↔ Cleared log
  entered : Entered log' ↔ Entered log
  setup2 : isSetup2 log' = isSetup2 log

theorem Alike.inSetup {log log' : List Entry} (h : Alike log log') : inSetup log' = inSetup log := by
  rw [Bool.eq_iff_iff, inSetup_iff, inSetup_iff, h.cleared, h.entered]

theorem alike_cons {e : Entry} (he : e.orders = false) (log : List Entry) : Alike log (e :: log) := by
  have hstarted := Entry.not_started_of_orders he
  constructor
  · rw [asked_cons hstarted]
    cases e with
    | requested => cases he
    | _ => simp [Entry.asks?]
  · rw [answered_cons hstarted]
    cases e with
    | dispatched => cases he
    | _ => simp [Entry.answers?]
  · rw [cleared_cons hstarted]
    cases e with
    | cleared => cases he
    | _ => simp [Entry.isCleared]
  · rw [entered_cons hstarted]
    cases e with
    | entered => cases he
    | _ => simp [Entry.isEntered]
  · rw [isSetup2_cons hstarted]
    cases e with
    | cleared => cases he
    | _ => simp [Entry.isSetup2]

theorem Alike.trans {log₁ log₂ log₃ : List Entry} (h : Alike log₁ log₂) (h' : Alike log₂ log₃) :
    Alike log₁ log₃ where
  asked := h'.asked.trans h.asked
  answered := h'.answered.trans h.answered
  cleared := h'.cleared.trans h.cleared
  entered := h'.entered.trans h.entered
  setup2 := h'.setup2.trans h.setup2

theorem alike_append {es : List Entry} (hes : ∀ e ∈ es, e.orders = false) (log : List Entry) :
    Alike log (es ++ log) := by
  induction es with
  | nil => exact ⟨rfl, rfl, .rfl, .rfl, rfl⟩
  | cons e es ih =>
    exact (ih fun x hx => hes x (List.mem_cons_of_mem e hx)).trans
      (alike_cons (hes e List.mem_cons_self) _)

/-! ## 3. The invariant -/

/-- The unanswered requests, but for a TEARDOWN. -/
def Core.pend (c : Core) : List (Octets × Bool) :=
  (c.methods.zip c.kinds).filter fun p => p.1 ≠ ascii "TEARDOWN"

/-- How far the setup of AirPlay 2 has come. -/
def PairStage.setupCount : PairStage → ℕ
  | .ap2Info => 1
  | .ap2Session => 2
  | .ap2Record => 3
  | .ap2Stream => 4
  | _ => 0

/-- The runs of the AirPlay 1 setup: with the request that was repeated, or without one. -/
inductive Handshaking : Bool → List Octets → Prop
  | start : Handshaking false []
  | first : Handshaking false [ascii "OPTIONS"]
  | next {again : Bool} {methods : List Octets} {last method : Octets}
      (h : Handshaking again methods) (hlast : methods.getLast? = some last)
      (hnext : Succeeds last method) : Handshaking again (methods ++ [method])
  | again {methods : List Octets} {last : Octets} (h : Handshaking false methods)
      (hlast : methods.getLast? = some last) : Handshaking true (methods ++ [last])

/-- A part of the setup goes on with the request behind its last one. -/
theorem prefix_next {methods : List Octets} {last method : Octets} (h : methods <+: handshake)
    (hlast : methods.getLast? = some last) (hnext : Succeeds last method) :
    methods ++ [method] <+: handshake := by
  have hlen : methods.length ≤ 4 := h.length_le
  rw [List.prefix_iff_eq_take.mp h] at hlast ⊢
  generalize methods.length = n at hlast hlen ⊢
  have hn : n = 0 ∨ n = 1 ∨ n = 2 ∨ n = 3 ∨ n = 4 := by omega
  revert hlast
  cases hnext <;> rcases hn with rfl | rfl | rfl | rfl | rfl <;> decide

/-- The runs are in sequence. -/
theorem Handshaking.inSequence {again : Bool} {methods : List Octets} (h : Handshaking again methods) :
    InSequence false methods ∧ (again = false → methods <+: handshake) := by
  induction h with
  | start => exact ⟨.inl List.nil_prefix, fun _ => List.nil_prefix⟩
  | first =>
    have hpre : [ascii "OPTIONS"] <+: handshake := by decide
    exact ⟨.inl hpre, fun _ => hpre⟩
  | @next _ _ last method _ hlast hnext ih =>
    obtain ⟨hseq, hpre⟩ := ih
    refine ⟨?_, fun h => prefix_next (hpre h) hlast hnext⟩
    rcases hseq with hseq | ⟨before, repeated, after, hseq, rfl⟩
    · exact .inl (prefix_next hseq hlast hnext)
    · refine .inr ⟨before, repeated, after ++ [method], ?_, by simp⟩
      have hlast' : (before ++ repeated :: after).getLast? = some last := by
        rw [← hlast]
        simp [List.getLast?_append]
      simpa using prefix_next hseq hlast' hnext
  | again _ hlast ih =>
    obtain ⟨before, rfl⟩ := List.getLast?_eq_some_iff.mp hlast
    exact ⟨.inr ⟨before, _, [], ih.2 rfl, by simp⟩, nofun⟩

/-- The newest entry is the response to a request other than a TEARDOWN. -/
def Core.AtReply (c : Core) (method : Octets) (isHttp : Bool) : Prop :=
  method ≠ ascii "TEARDOWN" ∧ ∃ code, c.Answering method isHttp code

/-- The invariant of the setup. -/
structure SettingUp (c : Core) : Prop where
  queue : asked c.log = answered c.log ++ c.pend.map Prod.fst
  single : c.pend.length ≤ 1
  kinds : ∀ p ∈ c.pend, p.2 = isSetup2 c.log
  replied : ∀ method isHttp, c.AtReply method isHttp →
    c.pend = [] ∧ isHttp = isSetup2 c.log ∧ (asked c.log).getLast? = some method
  setup2 : isSetup2 c.log = true → asked c.log = setup.take c.stage.setupCount
  setup1 : isSetup2 c.log = false → ¬ c.stage.postAuth ∧
    ∃ again, Handshaking again (asked c.log) ∧ (again = true → c.retried = true)

/-- The invariant behind the beginning of the stream: no request of a setup is unanswered. -/
structure SetUp (c : Core) : Prop where
  state : c.state = .streaming ∨ c.state = .idle
  pend : ∀ p ∈ c.pend, p.2 = false ∧ ¬ isHandshake p.1
  replied : ∀ method isHttp, c.AtReply method isHttp → isHttp = false ∧ ¬ isHandshake method

/-- The invariant of a session, whether it is before its setup, in it or past it. -/
structure Ordered (c : Core) : Prop where
  order : Always (InOrder .narrowed) c.log
  tear : (ascii "TEARDOWN", true) ∉ c.methods.zip c.kinds
  streaming : c.state = .streaming → Entered c.log
  setup : inSetup c.log = true → SettingUp c
  past : Entered c.log → SetUp c

theorem Ordered.init : Ordered {} := by
  have hno : ¬ Entered [] := nofun
  exact ⟨trivial, by simp, nofun, nofun, fun h => absurd h hno⟩

/-- The stream only begins past authentication. -/
theorem cleared_of_entered {log : List Entry} (h : Always (InOrder .narrowed) log) (hen : Entered log) :
    Cleared log := by
  induction log with
  | nil => cases hen
  | cons e log ih =>
    obtain ⟨he, hlog⟩ := h
    have hstarted : e.isStarted = false := by
      cases e with
      | started => simp [Entered, sessionOf_started] at hen
      | _ => rfl
    rw [cleared_cons hstarted]
    rw [entered_cons hstarted] at hen
    rcases hen with hen | hen
    · cases e with
      | entered => exact .inr (inSetup_iff.mp he.1).1
      | _ => cases hen
    · exact .inr (ih hlog hen)

theorem Ordered.begun {c : Core} (h : Ordered c) (hen : Entered c.log) : Cleared c.log :=
  cleared_of_entered h.order hen

/-- A step that adds nothing the setup speaks about, and leaves the queue alone. -/
structure Beside (c c' : Core) : Prop where
  log : ∃ es, c'.log = es ++ c.log ∧ ∀ e ∈ es, e.orders = false
  methods : c'.methods = c.methods
  kinds : c'.kinds = c.kinds

section Beside

variable {c c' : Core}

theorem Beside.alike (h : Beside c c') : Alike c.log c'.log := by
  obtain ⟨es, hlog, hes⟩ := h.log
  rw [hlog]
  exact alike_append hes c.log

theorem Beside.pend (h : Beside c c') : c'.pend = c.pend := by
  unfold Core.pend
  rw [h.methods, h.kinds]

theorem Beside.order (h : Beside c c') (ho : Always (InOrder .narrowed) c.log) :
    Always (InOrder .narrowed) c'.log := by
  obtain ⟨es, hlog, hes⟩ := h.log
  rw [hlog]
  exact ho.append fun e he => inOrder_of_orders (hes e he)

/-- A reply at hand was at hand before. -/
theorem Beside.atReply (h : Beside c c') {method : Octets} {isHttp : Bool}
    (hr : c'.AtReply method isHttp) : c.AtReply method isHttp := by
  obtain ⟨es, hlog, hes⟩ := h.log
  obtain ⟨htear, code, live, status, headers, body, hhead, hcode⟩ := hr
  refine ⟨htear, code, live, status, headers, body, ?_, hcode⟩
  cases es with
  | nil => rwa [hlog] at hhead
  | cons e es =>
    rw [hlog] at hhead
    obtain rfl : e = _ := Option.some.inj hhead
    exact absurd (hes _ List.mem_cons_self) nofun

theorem SettingUp.beside (h : SettingUp c) (hb : Beside c c') (hstage : c'.stage = c.stage)
    (hretried : c.retried = true → c'.retried = true) : SettingUp c' := by
  have ha := hb.alike
  constructor
  · rw [ha.asked, ha.answered, hb.pend]
    exact h.queue
  · rw [hb.pend]
    exact h.single
  · rw [hb.pend, ha.setup2]
    exact h.kinds
  · intro method isHttp hr
    rw [hb.pend, ha.setup2, ha.asked]
    exact h.replied method isHttp (hb.atReply hr)
  · rw [ha.setup2, ha.asked, hstage]
    exact h.setup2
  · rw [ha.setup2, ha.asked, hstage]
    intro h1
    obtain ⟨hpost, again, hrun, hagain⟩ := h.setup1 h1
    exact ⟨hpost, again, hrun, fun h => hretried (hagain h)⟩

theorem SetUp.beside (h : SetUp c) (hb : Beside c c')
    (hover : c'.state = .streaming ∨ c'.state = .idle) : SetUp c' := by
  refine ⟨hover, ?_, fun method isHttp hr => h.replied method isHttp (hb.atReply hr)⟩
  rw [hb.pend]
  exact h.pend

/-- The setup goes on where it was. -/
theorem Ordered.beside (h : Ordered c) (hb : Beside c c') (hstage : c'.stage = c.stage)
    (hretried : c.retried = true → c'.retried = true)
    (hstate : c'.state = c.state ∨ c'.state = .idle ∨
      (¬ Entered c.log ∧ c'.state ≠ .streaming)) : Ordered c' := by
  have ha := hb.alike
  refine ⟨hb.order h.order, ?_, fun hst => ?_, fun hin => ?_, fun hen => ?_⟩
  · rw [hb.methods, hb.kinds]
    exact h.tear
  · rw [ha.entered]
    rcases hstate with hstate | hstate | ⟨_, hstate⟩
    · exact h.streaming (hstate.symm.trans hst)
    · exact absurd (hstate.symm.trans hst) nofun
    · exact absurd hst hstate
  · exact (h.setup (ha.inSetup.symm.trans hin)).beside hb hstage hretried
  · rw [ha.entered] at hen
    refine (h.past hen).beside hb ?_
    rcases hstate with hstate | hstate | ⟨hno, _⟩
    · rw [hstate]
      exact (h.past hen).state
    · exact .inr hstate
    · exact absurd hen hno

/-- Before authentication there is no setup to speak of. -/
theorem Ordered.uncleared (h : Ordered c) (hb : Beside c c') (hnot : ¬ Cleared c'.log)
    (hstate : c'.state ≠ .streaming) : Ordered c' := by
  have ha := hb.alike
  have hno : ¬ Entered c'.log := by
    intro hen
    rw [ha.entered] at hen
    exact hnot (ha.cleared.mpr (h.begun hen))
  refine ⟨hb.order h.order, ?_, fun hst => absurd hst hstate,
    fun hin => absurd (inSetup_iff.mp hin).1 hnot, fun hen => absurd hen hno⟩
  · rw [hb.methods, hb.kinds]
    exact h.tear

end Beside

/-! ## 4. Requests and replies -/

section Request

variable [Primitives] {c d : Core} {method text : Octets} {isHttp : Bool}

theorem orders_writeEntries : ∀ e ∈ d.writeEntries text, e.orders = false := by
  intro e he
  rcases mem_writeEntries he with ⟨_, rfl⟩ | ⟨_, _, _, _, rfl⟩ <;> rfl

/-- Behind a request there is no reply at hand. -/
theorem not_atReply_request {last : Octets} {kind : Bool} :
    ¬ (d.request method isHttp text).AtReply last kind := by
  rintro ⟨_, _, _, _, _, _, hhead, _⟩
  rw [Core.request_log, List.head?_append_of_ne_nil _ (by simp [Core.requestEntries])] at hhead
  rcases mem_requestEntries (List.mem_of_head? hhead) with ⟨_, he⟩ | ⟨_, _, _, _, he⟩ | he <;> cases he

theorem Core.pend_request (hlock : d.methods.length = d.kinds.length) :
    (d.request method isHttp text).pend =
      d.pend ++ [(method, isHttp)].filter fun p => p.1 ≠ ascii "TEARDOWN" := by
  unfold Core.pend
  rw [← List.filter_append]
  show List.filter _ ((d.methods ++ [method]).zip (d.kinds ++ [isHttp])) = _
  rw [List.zip_append hlock]
  rfl

/-- A request, without the octets that carry it. -/
theorem alike_request :
    Alike (.requested d.cseq method isHttp text :: d.log) (d.request method isHttp text).log :=
  alike_append orders_writeEntries _

/-- What a request of the setup needs, in the core that asks. -/
structure Asks (d : Core) (method : Octets) (isHttp : Bool) (text : Octets) : Prop where
  pend : d.pend = []
  kind : isHttp = isSetup2 d.log
  proceeds : Proceeds .narrowed d.cseq method text d.log
  setup2 : isSetup2 d.log = true → asked d.log ++ [method] = setup.take d.stage.setupCount
  setup1 : isSetup2 d.log = false → ¬ d.stage.postAuth ∧
    ∃ again, Handshaking again (asked d.log ++ [method]) ∧ (again = true → d.retried = true)

theorem Asks.request (h : Asks d method isHttp text) (hlock : d.methods.length = d.kinds.length)
    (hne : method ≠ ascii "TEARDOWN") (hin : inSetup d.log = true) :
    SettingUp (d.request method isHttp text) := by
  have ha : Alike (.requested d.cseq method isHttp text :: d.log)
      (d.request method isHttp text).log := alike_request
  have hasked : asked (d.request method isHttp text).log = asked d.log ++ [method] := by
    rw [ha.asked, asked_cons rfl, if_pos hin]
    simp [Entry.asks?, hne]
  have hanswered : answered (d.request method isHttp text).log = answered d.log := by
    rw [ha.answered, answered_cons rfl, if_pos hin]
    simp [Entry.answers?]
  have hsetup2 : isSetup2 (d.request method isHttp text).log = isSetup2 d.log := by
    rw [ha.setup2, isSetup2_cons rfl]
    rfl
  have hpend : (d.request method isHttp text).pend = [(method, isHttp)] := by
    rw [Core.pend_request hlock, h.pend]
    simp [hne]
  constructor
  · rw [hasked, hanswered, hpend, h.proceeds.answered]
    rfl
  · rw [hpend]
    rfl
  · rw [hpend, hsetup2, ← h.kind]
    simp
  · exact fun _ _ hr => absurd hr not_atReply_request
  · rw [hasked, hsetup2]
    exact h.setup2
  · rw [hasked, hsetup2]
    exact h.setup1

/-- **A request is sent**, in order where it belongs to the setup, and none of a setup behind it. -/
theorem Ordered.request (h : Ordered c) (hb : Beside c d) (hstate : d.state = c.state)
    (hlock : c.methods.length = c.kinds.length) (hne : method ≠ ascii "TEARDOWN")
    (hsetup : inSetup d.log = true → Asks d method isHttp text)
    (hover : Entered c.log → isHttp = false ∧ ¬ isHandshake method) :
    Ordered (d.request method isHttp text) := by
  have hd := hb.alike
  have ha : Alike (.requested d.cseq method isHttp text :: d.log)
      (d.request method isHttp text).log := alike_request
  have hlock : d.methods.length = d.kinds.length := by rw [hb.methods, hb.kinds]; exact hlock
  have hcleared : Cleared (d.request method isHttp text).log ↔ Cleared d.log := by
    rw [ha.cleared, cleared_cons rfl]
    simp [Entry.isCleared]
  have hentered : Entered (d.request method isHttp text).log ↔ Entered d.log := by
    rw [ha.entered, entered_cons rfl]
    simp [Entry.isEntered]
  refine ⟨?_, ?_, fun hst => ?_, fun hin => ?_, fun hen => ?_⟩
  · refine Always.append ?_ fun e he => inOrder_of_orders (orders_writeEntries e he)
    exact ⟨⟨fun ht => absurd ht hne, fun hin _ => (hsetup hin).proceeds⟩, hb.order h.order⟩
  · show _ ∉ (d.methods ++ [method]).zip (d.kinds ++ [isHttp])
    rw [List.zip_append hlock, hb.methods, hb.kinds]
    intro hmem
    rcases List.mem_append.mp hmem with hmem | hmem
    · exact h.tear hmem
    · exact hne (congrArg Prod.fst (List.mem_singleton.mp hmem)).symm
  · rw [hentered, hd.entered]
    exact h.streaming (hstate.symm.trans hst)
  · have hin : inSetup d.log = true := by
      rw [inSetup_iff, hcleared, hentered] at hin
      exact inSetup_iff.mpr hin
    exact (hsetup hin).request hlock hne hin
  · rw [hentered, hd.entered] at hen
    obtain ⟨hst, hpend, _⟩ := h.past hen
    refine ⟨?_, ?_, fun _ _ hr => absurd hr not_atReply_request⟩
    · show d.state = .streaming ∨ d.state = .idle
      rw [hstate]
      exact hst
    · rw [Core.pend_request hlock, hb.pend]
      intro p hp
      rcases List.mem_append.mp hp with hp | hp
      · exact hpend p hp
      · rw [List.mem_singleton.mp (List.mem_of_mem_filter hp)]
        exact hover hen

/-- A TEARDOWN changes nothing for the setup. -/
theorem Ordered.tearDown (h : Ordered c) (hlock : c.methods.length = c.kinds.length) :
    Ordered (c.request (ascii "TEARDOWN") false text) := by
  have ha : Alike (.requested c.cseq (ascii "TEARDOWN") false text :: c.log)
      (c.request (ascii "TEARDOWN") false text).log := alike_request
  have hasked : asked (c.request (ascii "TEARDOWN") false text).log = asked c.log := by
    rw [ha.asked, asked_cons rfl]
    simp [Entry.asks?]
  have hanswered : answered (c.request (ascii "TEARDOWN") false text).log = answered c.log := by
    rw [ha.answered, answered_cons rfl]
    simp [Entry.answers?]
  have hsetup2 : isSetup2 (c.request (ascii "TEARDOWN") false text).log = isSetup2 c.log := by
    rw [ha.setup2, isSetup2_cons rfl]
    rfl
  have hcleared : Cleared (c.request (ascii "TEARDOWN") false text).log ↔ Cleared c.log := by
    rw [ha.cleared, cleared_cons rfl]
    simp [Entry.isCleared]
  have hentered : Entered (c.request (ascii "TEARDOWN") false text).log ↔ Entered c.log := by
    rw [ha.entered, entered_cons rfl]
    simp [Entry.isEntered]
  have hpend : (c.request (ascii "TEARDOWN") false text).pend = c.pend := by
    rw [Core.pend_request hlock]
    simp
  refine ⟨?_, ?_, ?_, fun hin => ?_, fun hen => ?_⟩
  · refine Always.append ?_ fun e he => inOrder_of_orders (orders_writeEntries e he)
    exact ⟨⟨fun _ => rfl, fun _ hne => absurd rfl hne⟩, h.order⟩
  · show _ ∉ (c.methods ++ [_]).zip (c.kinds ++ [_])
    rw [List.zip_append hlock]
    intro hmem
    rcases List.mem_append.mp hmem with hmem | hmem
    · exact h.tear hmem
    · exact absurd (congrArg Prod.snd (List.mem_singleton.mp hmem)) nofun
  · rw [hentered]
    exact h.streaming
  · have hin : inSetup c.log = true := by
      rw [inSetup_iff, hcleared, hentered] at hin
      exact inSetup_iff.mpr hin
    obtain ⟨hqueue, hsingle, hkinds, _, h2, h1⟩ := h.setup hin
    refine ⟨?_, ?_, ?_, fun _ _ hr => absurd hr not_atReply_request, ?_, ?_⟩
    · rw [hasked, hanswered, hpend]
      exact hqueue
    · rw [hpend]
      exact hsingle
    · rw [hpend, hsetup2]
      exact hkinds
    · rw [hasked, hsetup2]
      exact h2
    · rw [hasked, hsetup2]
      exact h1
  · obtain ⟨hst, hold, _⟩ := h.past (hentered.mp hen)
    refine ⟨hst, ?_, fun _ _ hr => absurd hr not_atReply_request⟩
    rw [hpend]
    exact hold

omit [Primitives] in
/-- **A reply is the reply to the newest request of the setup.** -/
theorem Ordered.dispatch (h : Ordered c) {c' : Core} {methods : List Octets} {kinds : List Bool}
    {live : Bool} {status : Octets} {headers : Headers} {body : Octets}
    (hm : c.methods = method :: methods) (hk : c.kinds = isHttp :: kinds)
    (hlog : c'.log = .dispatched live method isHttp status headers body :: c.log)
    (hzip' : c'.methods.zip c'.kinds = methods.zip kinds) (hstate : c'.state = c.state)
    (hstage : c'.stage = c.stage) (hretried : c'.retried = c.retried) :
    Ordered c' := by
  have hzip : c.methods.zip c.kinds = (method, isHttp) :: c'.methods.zip c'.kinds := by
    rw [hm, hk, hzip', List.zip_cons_cons]
  have hpend : c.pend = [(method, isHttp)].filter (fun p => p.1 ≠ ascii "TEARDOWN") ++ c'.pend := by
    rw [Core.pend, Core.pend, hzip, ← List.filter_append]
    rfl
  have htear : method = ascii "TEARDOWN" → isHttp = false := by
    rintro rfl
    by_contra hne
    rw [Bool.not_eq_false] at hne
    exact h.tear (by rw [hzip, hne]; exact List.mem_cons_self)
  -- the reply at hand is this one
  have hreply {last : Octets} {kind : Bool} (hr : c'.AtReply last kind) :
      c.pend = (method, isHttp) :: c'.pend ∧ method = last ∧ isHttp = kind := by
    obtain ⟨hne, _, _, _, _, _, hhead, _⟩ := hr
    rw [hlog] at hhead
    injection Option.some.inj hhead with _ hmethod hkind
    subst hmethod
    exact ⟨by rw [hpend]; simp [hne], rfl, hkind⟩
  have hentered : Entered c'.log ↔ Entered c.log := by
    rw [hlog, entered_cons rfl]
    simp [Entry.isEntered]
  have hcleared : Cleared c'.log ↔ Cleared c.log := by
    rw [hlog, cleared_cons rfl]
    simp [Entry.isCleared]
  have hsetup2 : isSetup2 c'.log = isSetup2 c.log := by
    rw [hlog, isSetup2_cons rfl]
    rfl
  refine ⟨?_, fun hmem => ?_, fun hst => ?_, fun hin => ?_, fun hen => ?_⟩
  · rw [hlog]
    exact ⟨htear, h.order⟩
  · exact h.tear (by rw [hzip]; exact List.mem_cons_of_mem _ hmem)
  · exact hentered.mpr (h.streaming (hstate.symm.trans hst))
  · rw [inSetup_iff, hcleared, hentered, ← inSetup_iff] at hin
    have hasked : asked c'.log = asked c.log := by
      rw [hlog, asked_cons rfl, if_pos hin]
      simp [Entry.asks?]
    have hanswered : answered c'.log = answered c.log ++
        ([(method, isHttp)].filter fun p => p.1 ≠ ascii "TEARDOWN").map Prod.fst := by
      rw [hlog, answered_cons rfl, if_pos hin, Entry.answers?]
      by_cases ht : method = ascii "TEARDOWN" <;> simp [ht]
    obtain ⟨hqueue, hsingle, hkinds, _, h2, h1⟩ := h.setup hin
    refine ⟨?_, ?_, fun p hp => ?_, fun last kind hr => ?_, ?_, ?_⟩
    · rw [hasked, hanswered, hqueue, hpend, List.map_append, List.append_assoc]
    · rw [hpend, List.length_append] at hsingle
      exact (Nat.le_add_left _ _).trans hsingle
    · rw [hsetup2]
      exact hkinds p (by rw [hpend]; exact List.mem_append_right _ hp)
    · obtain ⟨hcons, rfl, rfl⟩ := hreply hr
      rw [hcons] at hqueue hsingle hkinds
      have hnil : c'.pend = [] := by simpa using hsingle
      refine ⟨hnil, ?_, ?_⟩
      · rw [hsetup2]
        exact hkinds (method, isHttp) List.mem_cons_self
      · rw [hasked, hqueue, hnil]
        simp
    · rw [hsetup2, hasked, hstage]
      exact h2
    · rw [hsetup2, hasked, hstage, hretried]
      exact h1
  · obtain ⟨hst, hold, _⟩ := h.past (hentered.mp hen)
    refine ⟨by rw [hstate]; exact hst, fun p hp => ?_, fun last kind hr => ?_⟩
    · exact hold p (by rw [hpend]; exact List.mem_append_right _ hp)
    · obtain ⟨hcons, rfl, rfl⟩ := hreply hr
      exact hold (method, isHttp) (by rw [hcons]; exact List.mem_cons_self)

end Request

/-! ## 5. What is asked next -/

section Next

variable {c d : Core} {method text : Octets}

theorem SettingUp.answered_eq (h : SettingUp c) (hpend : c.pend = []) :
    answered c.log = asked c.log := by
  rw [h.queue, hpend, List.map_nil, List.append_nil]

/-- On AirPlay 1 a request follows from the reply at hand. -/
theorem SettingUp.asks1 (h : SettingUp c) (hno : isSetup2 c.log = false) (hpend : c.pend = [])
    {again : Bool} (hrun : Handshaking again (asked c.log ++ [method]))
    (hretried : again = true → c.retried = true) (hget : method ≠ ascii "GET")
    (hagain : (asked c.log).getLast? = some method → c.Answering method false 401) :
    Asks c method false text := by
  refine ⟨hpend, hno.symm, ⟨?_, h.answered_eq hpend, hagain, fun hg => absurd hg hget, ?_⟩, ?_, ?_⟩
  · rw [hno]
    exact hrun.inSequence.1
  · rw [hno]
    exact nofun
  · rw [hno]
    exact nofun
  · exact fun hno => ⟨(h.setup1 hno).1, again, hrun, hretried⟩

/-- The first request of AirPlay 1. -/
theorem Ordered.asks_options (h : Ordered c) (hin : inSetup c.log = true)
    (hhead : ∃ auth paired, c.log.head? = some (.cleared auth false paired)) :
    Asks c (ascii "OPTIONS") false text := by
  have hs := h.setup hin
  obtain ⟨auth, paired, hhead⟩ := hhead
  obtain ⟨rest, hlog⟩ := List.head?_eq_some_iff.mp hhead
  have hrest : ¬ Cleared rest := by
    have horder := h.order
    rw [hlog] at horder
    exact horder.1.1
  have hno : isSetup2 c.log = false := by
    rw [hlog, isSetup2_cons rfl, Bool.eq_false_iff.mpr fun h => hrest (cleared_of_isSetup2 h)]
    rfl
  have hasked : asked c.log = [] := by
    rw [hlog, asked_cons rfl, asked, setupEntries_of_not_cleared hrest]
    simp [Entry.asks?]
  have hpend : c.pend = [] := by
    have hqueue := hs.queue
    rw [hasked] at hqueue
    exact List.map_eq_nil_iff.mp (List.append_eq_nil_iff.mp hqueue.symm).2
  have hfirst : Handshaking false (asked c.log ++ [ascii "OPTIONS"]) := by
    rw [hasked]
    exact .first
  refine hs.asks1 hno hpend hfirst nofun (by decide) ?_
  rw [hasked]
  exact nofun

/-- The next one, behind a reply. -/
theorem SettingUp.asks_next (h : SettingUp c) {last : Octets} {code : ℤ}
    (hanswer : c.Answering last false code) (hnext : Succeeds last method) :
    Asks c method false text := by
  have hlast : last ≠ ascii "TEARDOWN" := by cases hnext <;> decide
  obtain ⟨hpend, hno, hasked⟩ := h.replied last false ⟨hlast, code, hanswer⟩
  obtain ⟨_, again, hrun, hretried⟩ := h.setup1 hno.symm
  refine h.asks1 hno.symm hpend (hrun.next hasked hnext) hretried ?_ fun heq => ?_
  · cases hnext <;> decide
  · rw [hasked] at heq
    obtain rfl := Option.some.inj heq
    cases hnext

/-- The same one once more, behind a 401. -/
theorem SettingUp.asks_again (h : SettingUp c) (hanswer : c.Answering method false 401)
    (hm : isHandshake method) (hretried : c.retried = false) :
    Asks { c with retried := true } method false text := by
  have hlast : method ≠ ascii "TEARDOWN" := by rcases hm with rfl | rfl | rfl | rfl <;> decide
  obtain ⟨hpend, hno, hasked⟩ := h.replied method false ⟨hlast, 401, hanswer⟩
  obtain ⟨_, again, hrun, hagain⟩ := h.setup1 hno.symm
  obtain rfl : again = false := by
    by_contra hne
    exact absurd (hretried.symm.trans (hagain (by simpa using hne))) nofun
  have hs : SettingUp { c with retried := true } :=
    h.beside ⟨⟨[], rfl, by simp⟩, rfl, rfl⟩ rfl fun _ => rfl
  refine hs.asks1 hno.symm hpend (hrun.again hasked) (fun _ => rfl) ?_ fun _ => hanswer
  rcases hm with rfl | rfl | rfl | rfl <;> decide

/-- On AirPlay 2 nothing is unanswered but setup requests. -/
theorem SettingUp.pend_eq_nil (h : SettingUp c) (hyes : isSetup2 c.log = true)
    (hkinds : true ∉ c.kinds) : c.pend = [] := by
  refine List.eq_nil_iff_forall_not_mem.mpr fun p hp => hkinds ?_
  rw [← hyes, ← h.kinds p hp]
  exact (List.of_mem_zip (List.mem_of_mem_filter hp)).2

/-- On AirPlay 2 a request follows from the stage. -/
theorem SettingUp.asks2 (h : SettingUp c) (hyes : isSetup2 c.log = true) (hkinds : true ∉ c.kinds)
    (hb : Beside c d)
    (hnext : setup.take c.stage.setupCount ++ [method] = setup.take d.stage.setupCount)
    (hagain : (setup.take c.stage.setupCount).getLast? ≠ some method)
    (hinfo : method = ascii "GET" →
      requestHead (ascii "GET") (ascii "/info") "RTSP/1.0" d.cseq <+: text)
    (hevent : method = ascii "RECORD" → EventRequested .narrowed d.log) : Asks d method true text := by
  have ha := hb.alike
  have hpend := h.pend_eq_nil hyes hkinds
  have hasked : asked d.log = setup.take c.stage.setupCount := by rw [ha.asked, h.setup2 hyes]
  have hyes' : isSetup2 d.log = true := by rw [ha.setup2, hyes]
  refine ⟨by rw [hb.pend, hpend], hyes'.symm, ⟨?_, ?_, fun heq => ?_, hinfo, fun _ => hevent⟩, ?_, ?_⟩
  · rw [hyes', hasked, hnext]
    exact List.take_prefix _ _
  · rw [ha.answered, ha.asked]
    exact h.answered_eq hpend
  · rw [hasked] at heq
    exact absurd heq hagain
  · intro _
    rw [hasked, hnext]
  · rw [hyes']
    exact nofun

/-- The reply to the session SETUP is the newest one when RECORD is due. -/
theorem Ordered.eventRequested (h : Ordered c) (hin : inSetup c.log = true)
    (hyes : isSetup2 c.log = true) (hkinds : true ∉ c.kinds) (hstage : c.stage = .ap2Session)
    (hevent : EventTaken c.log) : EventRequested .narrowed c.log := by
  have hs := h.setup hin
  have hanswered : answered c.log = [ascii "GET", ascii "SETUP"] := by
    rw [hs.answered_eq (hs.pend_eq_nil hyes hkinds), hs.setup2 hyes, hstage]
    rfl
  have horder := h.order
  -- the method of a reply that is the last one
  have hmethod {live : Bool} {method status : Octets} {headers : Headers} {body : Octets}
      {rest : List Entry}
      (htear : InOrder .narrowed (.dispatched live method true status headers body) rest)
      (hrest : inSetup (.dispatched live method true status headers body :: rest) = true)
      (hanswered : answered (.dispatched live method true status headers body :: rest) =
        [ascii "GET", ascii "SETUP"]) : method = ascii "SETUP" := by
    have hne : method ≠ ascii "TEARDOWN" := fun ht => absurd (htear ht) nofun
    have hinr : inSetup rest = true := by
      rw [inSetup_iff, cleared_cons rfl, entered_cons rfl] at hrest
      rw [inSetup_iff]
      simpa [Entry.isCleared, Entry.isEntered] using hrest
    rw [answered_cons rfl, if_pos hinr] at hanswered
    have hlast := congrArg List.getLast? hanswered
    simpa [Entry.answers?, hne] using hlast
  -- and the entries of the setup end with it
  have hreply {live : Bool} {status : Octets} {headers : Headers} {body : Octets}
      {rest : List Entry}
      (hin : inSetup (.dispatched live (ascii "SETUP") true status headers body :: rest) = true) :
      setupEntries (.dispatched live (ascii "SETUP") true status headers body :: rest) =
        .dispatched live (ascii "SETUP") true status headers body :: setupEntries rest := by
    have hrest : inSetup rest = true := by
      rw [inSetup_iff, cleared_cons rfl, entered_cons rfl] at hin
      rw [inSetup_iff]
      simpa [Entry.isCleared, Entry.isEntered] using hin
    rw [setupEntries_cons rfl, if_pos hrest]
  obtain ⟨live, method, status, headers, body, rest, ⟨hlog, hnone⟩ | ⟨host, port, hlog, hport⟩⟩ :=
    hevent
  · rw [hlog] at horder hin hanswered
    obtain rfl := hmethod horder.1 hin hanswered
    rw [hlog]
    exact ⟨[], live, status, headers, body, _, hreply hin, fun hne => absurd hnone hne⟩
  · have ha := alike_cons (e := .tcpConnect .event host port) rfl
      (.dispatched live method true status headers body :: rest)
    rw [hlog] at horder hin hanswered
    have hin' := ha.inSetup.symm.trans hin
    obtain rfl := hmethod horder.2.1 hin' (ha.answered.symm.trans hanswered)
    refine ⟨[.tcpConnect .event host port], live, status, headers, body, setupEntries rest, ?_,
      fun hne => ?_⟩
    · rw [hlog, setupEntries_cons rfl, if_pos hin', hreply hin']
      rfl
    · rw [← hport hne]
      exact ⟨host, List.mem_singleton_self _⟩

theorem EventRequested.cons {r : Reading} {log : List Entry} (h : EventRequested r log) {e : Entry}
    (he : e.isStarted = false) (hin : inSetup log = true) : EventRequested r (e :: log) := by
  obtain ⟨since, live, status, headers, body, older, hlog, hport⟩ := h
  refine ⟨e :: since, live, status, headers, body, older, ?_, fun hne => ?_⟩
  · rw [setupEntries_cons he, if_pos hin, hlog]
    rfl
  · obtain ⟨host, hmem⟩ := hport hne
    exact ⟨host, List.mem_cons_of_mem e hmem⟩

end Next

/-! ## 6. Every step keeps the order -/

section Step

variable [Primitives] {k : Level} {c c' : Core}

omit [Primitives] in
/-- **The setup begins** with nothing asked and nothing unanswered. -/
theorem Ordered.clear (h : Ordered c) (hflow : Flow c) (hair : c.airplay2 = airplay2Of c.log)
    {setup2 : Bool}
    (hst : (c.stage = .done ∧ setup2 = c.airplay2) ∨
      (c.stage = .none ∧ (c.auth = .none ∨ c.auth = .password) ∧ setup2 = false))
    (hstate : c.state = .pairing) (hkinds : true ∉ c.kinds) :
    Ordered { c with
      state := .handshake, log := .cleared c.auth setup2 c.keys.isSome :: c.log } := by
  have hnot : ¬ Cleared c.log := hflow.uncleared (.inr hstate)
  have hno : ¬ Entered (.cleared c.auth setup2 c.keys.isSome :: c.log) := by
    rw [entered_cons rfl]
    rintro (hen | hen)
    · cases hen
    · exact hnot (h.begun hen)
  have hin : inSetup c.log ≠ true := fun hin => hnot (inSetup_iff.mp hin).1
  have hsetup2 : isSetup2 (.cleared c.auth setup2 c.keys.isSome :: c.log) = setup2 := by
    have hold : isSetup2 c.log = false :=
      Bool.eq_false_iff.mpr fun hyes => hnot (cleared_of_isSetup2 hyes)
    rw [isSetup2_cons rfl, hold, Bool.or_false]
    rfl
  have hasked : asked (.cleared c.auth setup2 c.keys.isSome :: c.log) = [] := by
    rw [asked_cons rfl, if_neg hin, asked, setupEntries_of_not_cleared hnot]
    rfl
  have hanswered : answered (.cleared c.auth setup2 c.keys.isSome :: c.log) = [] := by
    rw [answered_cons rfl, if_neg hin, answered, setupEntries_of_not_cleared hnot]
    rfl
  have hpend : c.pend = [] := by
    refine List.eq_nil_iff_forall_not_mem.mpr fun p hp => ?_
    have hmem := List.mem_of_mem_filter hp
    have htear : p.1 ≠ ascii "TEARDOWN" := by simpa [Core.pend, hmem] using hp
    cases hk : p.2 with
    | false => exact hnot (hflow.pending p hmem hk htear)
    | true => exact hkinds (hk ▸ (List.of_mem_zip hmem).2)
  have hconfig : setup2 = airplay2Of c.log ∨
      (setup2 = false ∧ (c.auth = .none ∨ c.auth = .password)) := by
    rcases hst with ⟨_, hst⟩ | ⟨_, hauth, hfalse⟩
    · exact .inl (hst.trans hair)
    · exact .inr ⟨hfalse, hauth⟩
  refine ⟨⟨⟨hnot, hconfig⟩, h.order⟩, h.tear, nofun, fun _ => ⟨?_, ?_, ?_, ?_, ?_, ?_⟩,
    fun hen => absurd hen hno⟩
  · show asked (.cleared c.auth setup2 c.keys.isSome :: c.log) =
      answered (.cleared c.auth setup2 c.keys.isSome :: c.log) ++ c.pend.map Prod.fst
    rw [hasked, hanswered, hpend]
    rfl
  · show c.pend.length ≤ 1
    rw [hpend]
    exact Nat.zero_le 1
  · show ∀ p ∈ c.pend, _
    rw [hpend]
    exact nofun
  · rintro method isHttp ⟨_, _, _, _, _, _, hhead, _⟩
    cases hhead
  · show isSetup2 (.cleared c.auth setup2 c.keys.isSome :: c.log) = true → _
    rw [hsetup2]
    rintro rfl
    rcases hst with ⟨hst, _⟩ | ⟨_, _, hfalse⟩
    · show asked (.cleared c.auth true c.keys.isSome :: c.log) =
        AirplaySender.setup.take c.stage.setupCount
      rw [hasked, hst]
      rfl
    · cases hfalse
  · intro _
    refine ⟨fun hpost => hnot (hflow.live (.inr (.inr hpost))), false, ?_, nofun⟩
    show Handshaking false (asked (.cleared c.auth setup2 c.keys.isSome :: c.log))
    rw [hasked]
    exact .start

omit [Primitives] in
/-- **The stream begins** in a setup, behind the reply to its last request. -/
theorem Ordered.enter (h : Ordered c) (hentrance : c.Entrance) (hc : Cleared c.log) :
    Ordered { c with
      state := .streaming, timers := { c.timers with timeout := false }, log := .entered :: c.log } := by
  have hen : Entered (.entered :: c.log) := (entered_cons rfl).mpr (.inl rfl)
  have hrecord : ascii "RECORD" ≠ ascii "TEARDOWN" := by decide
  have hhttp {live : Bool} {method status : Octets} {headers : Headers} {body : Octets}
      (hhead : c.log.head? = some (.dispatched live method true status headers body)) :
      method ≠ ascii "TEARDOWN" := by
    obtain ⟨rest, hlog⟩ := List.head?_eq_some_iff.mp hhead
    have horder := h.order
    rw [hlog] at horder
    exact fun ht => absurd (horder.1 ht) nofun
  have hno : ¬ Entered c.log := by
    intro hold
    rcases hentrance with ⟨code, hanswer, _⟩ | ⟨_, live, method, status, headers, body, hhead, _⟩
    · exact ((h.past hold).replied _ _ ⟨hrecord, code, hanswer⟩).2 (.inr (.inr (.inr rfl)))
    · exact absurd ((h.past hold).replied _ _
        ⟨hhttp hhead, _, live, status, headers, body, hhead, rfl⟩).1 nofun
  have hin : inSetup c.log = true := inSetup_iff.mpr ⟨hc, hno⟩
  have hs := h.setup hin
  have hopens : c.pend = [] ∧ Opens .narrowed c.log := by
    rcases hentrance with ⟨code, hanswer, hcode⟩ | ⟨hstage, live, method, status, headers, body,
      hhead, hlow, hhigh, hport⟩
    · obtain ⟨hpend, hno2, _⟩ := hs.replied _ _ ⟨hrecord, code, hanswer⟩
      obtain ⟨live, status, headers, body, hhead, hstatus⟩ := hanswer
      exact ⟨hpend, live, _, false, status, code, headers, body, hhead, hstatus, hcode.1, hcode.2,
        hs.answered_eq hpend, .inl ⟨hno2.symm, rfl⟩⟩
    · obtain ⟨hpend, hyes, _⟩ := hs.replied _ _
        ⟨hhttp hhead, _, live, status, headers, body, hhead, rfl⟩
      have hasked : asked c.log = AirplaySender.setup := by
        rw [hs.setup2 hyes.symm, hstage]
        rfl
      exact ⟨hpend, live, method, true, status, _, headers, body, hhead, rfl, hlow, hhigh,
        hs.answered_eq hpend, .inr ⟨hyes.symm, hasked, hport⟩⟩
  obtain ⟨hpend, hopens⟩ := hopens
  refine ⟨⟨⟨hin, hopens⟩, h.order⟩, h.tear, fun _ => hen,
    fun hin => absurd hen (inSetup_iff.mp hin).2, fun _ => ⟨.inl rfl, ?_, ?_⟩⟩
  · show ∀ p ∈ c.pend, _
    rw [hpend]
    exact nofun
  · rintro method isHttp ⟨_, _, _, _, _, _, hhead, _⟩
    cases hhead

omit [Primitives] in
theorem airplay2Of_append {es : List Entry} (hes : ∀ e ∈ es, e.isStarted = false)
    (hconf : ∀ auth airplay2 strict, .configured auth airplay2 strict ∉ es) (log : List Entry) :
    airplay2Of (es ++ log) = airplay2Of log := by
  induction es with
  | nil => rfl
  | cons e es ih =>
    have ih := ih (fun x hx => hes x (List.mem_cons_of_mem e hx))
      fun auth airplay2 strict hmem => hconf auth airplay2 strict (List.mem_cons_of_mem e hmem)
    have hstarted := hes e List.mem_cons_self
    cases e with
    | started => cases hstarted
    | configured auth airplay2 strict => exact absurd List.mem_cons_self (hconf auth airplay2 strict)
    | _ => exact ih

/-- The configured protocol is the one the trace names. -/
theorem airplay2Of_step (h : c.airplay2 = airplay2Of c.log) (hs : Step k c c') :
    c'.airplay2 = airplay2Of c'.log := by
  have hsame : c'.airplay2 = c.airplay2 ∨ ∃ auth airplay2, c' = { c with
      auth := auth, airplay2 := airplay2, log := .configured auth airplay2 c.strict :: c.log } := by
    cases hs with
    | configure _ auth airplay2 => exact .inr ⟨auth, airplay2, rfl⟩
    | _ => exact .inl rfl
  rcases hsame with hsame | ⟨_, _, rfl⟩
  swap
  · rfl
  rcases hs.log with ⟨rfl, _⟩ | ⟨es, hlog, hes⟩
  · rfl
  by_cases hconf : ∃ auth airplay2 strict, .configured auth airplay2 strict ∈ es
  · obtain ⟨auth, airplay2, strict, hmem⟩ := hconf
    have hc' : c' = _ := hes _ hmem
    rw [hc']
    rfl
  · rw [hsame, h, hlog, airplay2Of_append fun e he => (hes e he).not_started]
    exact fun auth airplay2 strict hmem => hconf ⟨auth, airplay2, strict, hmem⟩

/-- **Every step keeps the order of the setup.** -/
theorem Ordered.step (hflow : Flow c) (hair : c.airplay2 = airplay2Of c.log) (h : Ordered c)
    (hs : Step k c c') : Ordered c' := by
  have hflow' := hflow.step hs
  have hearly (hlive : c.Early) : ¬ Entered c.log := by
    intro hen
    rcases (h.past hen).state with hst | hst
    · exact hlive.2 hst
    · exact hlive.1 hst
  have hpost (hin : inSetup c.log = true) (hp : c.stage.postAuth) : isSetup2 c.log = true := by
    by_contra hno
    exact ((h.setup hin).setup1 (Bool.eq_false_iff.mpr hno)).1 hp
  have hquiet (hp : c'.stage.pairing = true) : c'.state ≠ .streaming := by
    rcases (hflow'.paired hp).1 with hst | hst <;> rw [hst] <;> simp
  have hself : Beside c c := ⟨⟨[], rfl, by simp⟩, rfl, rfl⟩
  have hes {d : Core} (es : List Entry) (hlog : d.log = es ++ c.log)
      (hes : ∀ e ∈ es, e.orders = false) (hmethods : d.methods = c.methods)
      (hkinds : d.kinds = c.kinds) : Beside c d := ⟨⟨es, hlog, hes⟩, hmethods, hkinds⟩
  have hone {e : Entry} {d : Core} (hlog : d.log = e :: c.log) (he : e.orders = false)
      (hmethods : d.methods = c.methods) (hkinds : d.kinds = c.kinds) : Beside c d :=
    hes [e] hlog (by simpa using he) hmethods hkinds
  have hnone {d : Core} (hlog : d.log = c.log) (hmethods : d.methods = c.methods)
      (hkinds : d.kinds = c.kinds) : Beside c d := hes [] hlog (by simp) hmethods hkinds
  have hlock := hflow.lockstep
  cases hs with
  | restart _ hidle =>
    have hno : ¬ Entered c.fresh.log := by
      simp [Core.fresh, Entered, sessionOf_started]
    have hnot : ¬ Cleared c.fresh.log := by
      rw [cleared_iff, Core.fresh, sessionOf_started]
      intro hno
      cases hno
    refine ⟨⟨trivial, h.order⟩, by simp [Core.fresh], fun hst => ?_,
      fun hin => absurd (inSetup_iff.mp hin).1 hnot, fun hen => absurd hen hno⟩
    exact absurd (hidle.symm.trans hst) (by simp)
  | connecting _ hun hidle hhead =>
    have hno : ¬ Entered c.log := by
      obtain ⟨auth, airplay2, strict, hhead⟩ := hhead
      obtain ⟨rest, hlog⟩ := List.head?_eq_some_iff.mp hhead
      rw [hlog, Entered, sessionOf_started]
      intro hno
      cases hno
    exact h.beside (hone rfl rfl rfl rfl) rfl id (.inr (.inr ⟨hno, by rintro ⟨⟩⟩))
  | leave =>
    exact h.beside (hes [_, _] rfl (by simp [Entry.orders]) rfl rfl) rfl id (.inr (.inl rfl))
  | teardown _ text =>
    have hending : Ordered (c.ending true) := h.beside (hone rfl rfl rfl rfl) rfl id (.inl rfl)
    have hrequest := @Ordered.tearDown _ _ text hending hlock
    refine hrequest.beside ⟨⟨.tcpClose .control true :: Core.rewindEntries _, rfl, fun e he => ?_⟩,
      rfl, rfl⟩ rfl id (.inr (.inl rfl))
    rcases List.mem_cons.mp he with rfl | he
    · rfl
    · rw [mem_rewindEntries he]
      rfl
  | beginPairing _ hst =>
    have hno : ¬ Entered c.log := fun hen => hflow.uncleared (.inl hst) (h.begun hen)
    exact h.beside (hnone rfl rfl rfl) rfl id (.inr (.inr ⟨hno, by rintro ⟨⟩⟩))
  | ended | hangUp | expirePin => exact h.beside (hone rfl rfl rfl rfl) rfl id (.inr (.inl rfl))
  | request _ method isHttp text hcause =>
    cases hcause with
    | post hhead hp =>
      have hnot := (hflow.paired hp).2
      exact h.request hself rfl hlock (by decide) (fun hin => absurd (inSetup_iff.mp hin).1 hnot)
        fun hen => absurd (h.begun hen) hnot
    | options hhead =>
      refine h.request hself rfl hlock (by decide) (fun hin => h.asks_options hin hhead)
        fun hen => ?_
      obtain ⟨auth, paired, hhead⟩ := hhead
      obtain ⟨rest, hlog⟩ := List.head?_eq_some_iff.mp hhead
      have horder := h.order
      rw [hlog] at hen horder
      rcases (entered_cons rfl).mp hen with hen | hen
      · cases hen
      · exact absurd (cleared_of_entered horder.2 hen) horder.1.1
    | @next last _ code hanswer hcode hnext hc =>
      have hlast : last ≠ ascii "TEARDOWN" := by cases hnext <;> decide
      refine h.request hself rfl hlock (by cases hnext <;> decide)
        (fun hin => (h.setup hin).asks_next hanswer hnext) fun hen => ?_
      have hno := ((h.past hen).replied last false ⟨hlast, code, hanswer⟩).2
      refine absurd ?_ hno
      cases hnext
      · exact .inl rfl
      · exact .inr (.inl rfl)
      · exact .inr (.inr (.inl rfl))
    | stream hst hm =>
      have hen := h.streaming hst
      refine h.request hself rfl hlock ?_ (fun hin => absurd hen (inSetup_iff.mp hin).2) fun _ => ?_
      · rcases hm with rfl | rfl | rfl <;> decide
      · refine ⟨rfl, ?_⟩
        unfold isHandshake
        rcases hm with rfl | rfl | rfl <;> decide
  | reask _ method text hanswer hm hretried hc =>
    have hlast : method ≠ ascii "TEARDOWN" := by rcases hm with rfl | rfl | rfl | rfl <;> decide
    refine h.request (d := { c with retried := true }) (hnone rfl rfl rfl) rfl hlock hlast
      (fun hin => (h.setup hin).asks_again hanswer hm hretried) fun hen => ?_
    exact absurd hm ((h.past hen).replied method false ⟨hlast, 401, hanswer⟩).2
  | setup _ stage method text hf hmethod hlive hwait hkinds hc hsummons htext hinfo =>
    have hb : Beside c { c with stage := stage, log := .staged stage :: c.log } :=
      hone rfl rfl rfl rfl
    refine h.request hb rfl hlock ?_ (fun hin => ?_) fun hen => absurd hen (hearly hlive)
    · cases hsummons <;> cases hmethod <;> decide
    have hin : inSetup c.log = true := hb.alike.inSetup.symm.trans hin
    cases hsummons with
    | info hhead =>
      obtain ⟨auth, paired, hhead⟩ := hhead
      obtain ⟨rest, hlog⟩ := List.head?_eq_some_iff.mp hhead
      have hyes : isSetup2 c.log = true := by
        rw [hlog, isSetup2_cons rfl]
        rfl
      obtain rfl := Option.some.inj hmethod
      have hstage : c.stage = .done := by
        generalize c.stage = before at hf ⊢
        cases hf
        rfl
      refine (h.setup hin).asks2 hyes hkinds hb ?_ ?_ (fun _ => hinfo rfl) fun hr => ?_
      rotate_left 2
      · exact absurd hr (by decide)
      · rw [hstage]
        rfl
      · rw [hstage]
        decide
    | session =>
      obtain rfl := Option.some.inj hmethod
      have hstage : c.stage = .ap2Info := by
        generalize c.stage = before at hf ⊢
        cases hf
        rfl
      have hyes := hpost hin (.inl hstage)
      refine (h.setup hin).asks2 hyes hkinds hb ?_ ?_ (fun hg => ?_) fun hr => ?_
      · rw [hstage]
        rfl
      · rw [hstage]
        decide
      · exact absurd hg (by decide)
      · exact absurd hr (by decide)
    | record hevent =>
      obtain rfl := Option.some.inj hmethod
      have hstage : c.stage = .ap2Session := by
        generalize c.stage = before at hf ⊢
        cases hf
        rfl
      have hyes := hpost hin (.inr (.inl hstage))
      refine (h.setup hin).asks2 hyes hkinds hb ?_ ?_ (fun hg => ?_) fun _ => ?_
      · rw [hstage]
        rfl
      · rw [hstage]
        decide
      · exact absurd hg (by decide)
      · exact (h.eventRequested hin hyes hkinds hstage hevent).cons rfl hin
  | stream _ keys text hstage hlive hwait hkinds hkeys htext hoffer hreply =>
    have hb : Beside c { c with
        keys := some { keys with
          audioKey := keys.secret.take 32, audioNonce := 0, encryptAudio := true }
        stage := .ap2Stream, log := .staged .ap2Stream :: c.log } := hone rfl rfl rfl rfl
    refine h.request hb rfl hlock (by decide) (fun hin => ?_) fun hen => absurd hen (hearly hlive)
    have hin : inSetup c.log = true := hb.alike.inSetup.symm.trans hin
    have hyes := hpost hin (.inr (.inr (.inl hstage)))
    refine (h.setup hin).asks2 hyes hkinds hb ?_ ?_ (fun hg => ?_) fun hr => ?_
    · rw [hstage]
      rfl
    · rw [hstage]
      decide
    · exact absurd hg (by decide)
    · exact absurd hr (by decide)
  | dispatch _ method methods status headers body hm =>
    obtain ⟨isHttp, kinds, hk⟩ : ∃ isHttp kinds, c.kinds = isHttp :: kinds := by
      refine List.exists_cons_of_length_pos ?_
      rw [← hlock, hm]
      exact Nat.succ_pos _
    have hlog : Entry.dispatched (c.state ≠ .idle) method (c.kinds.headD false) status headers body ::
        c.log = .dispatched (c.state ≠ .idle) method isHttp status headers body :: c.log := by
      rw [hk]
      rfl
    have hzip : methods.zip c.kinds.tail = methods.zip kinds := by
      rw [hk]
      rfl
    exact h.dispatch hm hk hlog hzip rfl rfl rfl
  | clear _ setup2 hst hstate _ hkinds => exact h.clear hflow hair hst hstate hkinds
  | enter _ hentrance hc => exact h.enter hentrance hc
  | stage _ stage _ hp =>
    exact h.uncleared (hone rfl rfl rfl rfl) (hflow'.paired hp).2 (hquiet hp)
  | srpAgreed | setupM5 | verifyKeys =>
    exact h.uncleared (hes [_, _] rfl (by simp [Entry.orders]) rfl rfl) (hflow'.paired rfl).2
      (hquiet rfl)
  | transientKeys _ _ _ _ _ _ _ _ _ _ hst =>
    have hnot : ¬ Cleared c.log := hflow.uncleared (.inr hst)
    refine h.uncleared (hone rfl rfl rfl rfl) (fun hc => ?_) ?_
    · rcases (cleared_cons rfl).mp hc with hc | hc
      · cases hc
      · exact hnot hc
    · exact fun hstr => absurd (hst.symm.trans hstr) (by simp)
  | authSetupDone _ _ _ _ hst | verified _ _ _ hst | unretry _ _ hst =>
    have hnot : ¬ Cleared c.log := hflow.uncleared (.inr hst)
    refine h.uncleared (hnone rfl rfl rfl) hnot ?_
    exact fun hstr => absurd (hst.symm.trans hstr) (by simp)
  | receiveSealed _ keys bytes =>
    refine h.beside (hes _ rfl (fun e he => ?_) rfl rfl) rfl id (.inl rfl)
    rcases mem_receiveEntries he with ⟨_, _, rfl⟩ | rfl <;> rfl
  | receiveBroken _ keys bytes =>
    refine h.beside (hes (.ending c.state c.waiting false :: c.receiveEntries keys.controlIn bytes)
      rfl (fun e he => ?_) rfl rfl) rfl id (.inr (.inl rfl))
    rcases List.mem_cons.mp he with rfl | he
    · rfl
    rcases mem_receiveEntries he with ⟨_, _, rfl⟩ | rfl <;> rfl
  | receiveEvent =>
    refine h.beside (hes _ rfl (fun e he => ?_) rfl rfl) rfl id (.inl rfl)
    rcases mem_eventReadEntries he with rfl | ⟨_, _, rfl⟩ | rfl <;> rfl
  | retry => exact h.beside (hnone rfl rfl rfl) rfl (fun _ => rfl) (.inl rfl)
  | disconnect | lapse | srpStart | forget | agreed =>
    exact h.beside (hnone rfl rfl rfl) rfl id (.inl rfl)
  | receivePlain | answerEvent | typed =>
    exact h.beside (hes [_, _] rfl (by simp [Entry.orders]) rfl rfl) rfl id (.inl rfl)
  | _ => exact h.beside (hone rfl rfl rfl rfl) rfl id (.inl rfl)

/-- No media before the stream. -/
theorem streamed_step (h : Ordered c) (hold : Always Streamed c.log) (hs : Step k c c') :
    Always Streamed c'.log := by
  rcases hs.log with ⟨rfl, _⟩ | ⟨es, hlog, hes⟩
  · exact ⟨trivial, hold⟩
  rw [hlog]
  refine hold.append_of_suffix fun e older hsuffix => ?_
  cases e with
  | udpSend u dest bytes =>
    intro hmedia
    have hen := h.streaming (hes _ (hsuffix.subset List.mem_cons_self) hmedia)
    rw [Entered, sessionOf_append fun e he =>
      (hes e (hsuffix.subset (List.mem_cons_of_mem _ he))).not_started, List.any_append, hen,
      Bool.or_true]
  | _ => trivial

omit [Primitives] in
/-- What was asked is always in sequence. -/
theorem inSequence_of_always {log : List Entry} (h : Always (InOrder .narrowed) log) :
    InSequence (isSetup2 log) (asked log) := by
  have hnil (setup2 : Bool) : InSequence setup2 [] := by
    cases setup2 with
    | false => exact .inl List.nil_prefix
    | true => exact List.nil_prefix
  induction log with
  | nil => exact hnil _
  | cons e log ih =>
    obtain ⟨he, hlog⟩ := h
    by_cases hstarted : e.isStarted = true
    · rw [asked, setupEntries, if_pos hstarted]
      exact hnil _
    have hstarted : e.isStarted = false := by simpa using hstarted
    rw [asked_cons hstarted, isSetup2_cons hstarted]
    have ih := ih hlog
    cases e with
    | requested cseq method isHttp text =>
      by_cases hin : inSetup log = true
      · rw [if_pos hin]
        by_cases hne : method = ascii "TEARDOWN"
        · simpa [Entry.asks?, hne, Entry.isSetup2] using ih
        · simpa [Entry.asks?, hne, Entry.isSetup2] using (he.2 hin hne).sequence
      · rw [if_neg hin]
        exact ih
    | cleared auth setup2 paired =>
      have hin : inSetup log ≠ true := fun hin => he.1 (inSetup_iff.mp hin).1
      rw [if_neg hin, asked, setupEntries_of_not_cleared he.1]
      exact hnil _
    | _ => simpa [Entry.asks?, Entry.isSetup2] using ih

/-- The invariant holds in every run, and no media is sent before the stream. -/
theorem Reachable.ordered {w : World} (h : Reachable w) :
    Ordered (coreOf w) ∧ Always Streamed (coreOf w).log := by
  have hinv : (coreOf w).airplay2 = airplay2Of (coreOf w).log ∧ Ordered (coreOf w) ∧
      Always Streamed (coreOf w).log := by
    refine h.induct (I := fun c => c.airplay2 = airplay2Of c.log ∧ Ordered c ∧
      Always Streamed c.log) ⟨rfl, Ordered.init, trivial⟩ fun hflow hs hi => ?_
    exact ⟨airplay2Of_step hi.1 hs, hi.2.1.step hflow hi.1 hs, streamed_step hi.2.1 hi.2.2 hs⟩
  exact hinv.2

end Step

/-! ## 7. The numbers as they stand -/

/-- A code that counts is the number that stands there, if that is an `int`. -/
theorem CodeFits.denotes {status : Octets} {code : ℤ} (h : CodeFits status)
    (hread : toInt status = code) (hcode : code = 401 ∨ (200 ≤ code ∧ code < 300)) :
    Denotes status code := by
  cases hparse : parseInt status with
  | none =>
    have hzero : toInt status = 0 := by
      rw [toInt, hparse]
      rfl
    omega
  | some v =>
    have hv : Denotes status v := (parseInt_eq_some_iff status v).mp hparse
    have hfits : FitsInt v := h v hv (by rw [hread]; exact hcode)
    rw [toInt_of_parse hparse, wrap32_of_fits hfits] at hread
    rwa [hread] at hv

/-- Sixteen bits of a plist integer are 0 only where 2^16 divides it. -/
theorem portOf_eq_zero {v : Bplist.Value} (h : portOf v = 0) : 2 ^ 16 ∣ v.asInt.toInt := by
  have hbits : v.asInt.toInt16 = 0 := congrArg UInt16.toInt16 h
  have hzero : v.asInt.toInt.bmod (2 ^ 16) = 0 := by
    rw [← Int64.toInt_toInt16, hbits]
    rfl
  exact Int.dvd_of_bmod_eq_zero hzero

theorem dvd_namedEventPort {body : Octets} (h : replyEventPort body = 0) :
    2 ^ 16 ∣ namedEventPort body := by
  unfold replyEventPort at h
  unfold namedEventPort
  cases hv : (Bplist.decode body).bind (Bplist.Value.find (ascii "eventPort")) with
  | none => exact dvd_zero _
  | some v =>
    rw [hv] at h
    exact portOf_eq_zero h

/-- What is in front of an entry of the setup. -/
theorem setupEntries_split {e : Entry} {since older log : List Entry}
    (h : setupEntries log = since ++ e :: older) :
    ∃ before, e :: before <:+ log ∧ inSetup before = true ∧ setupEntries before = older := by
  induction log generalizing since with
  | nil => simp [setupEntries] at h
  | cons x log ih =>
    by_cases hx : x.isStarted = true
    · simp [setupEntries, hx] at h
    have hx : x.isStarted = false := by simpa using hx
    rw [setupEntries_cons hx] at h
    by_cases hin : inSetup log = true
    · rw [if_pos hin] at h
      cases since with
      | nil =>
        obtain ⟨rfl, hlog⟩ := List.cons.inj h
        exact ⟨log, List.suffix_rfl, hin, hlog⟩
      | cons y since =>
        obtain ⟨before, hsuffix, hrest⟩ := ih (List.cons.inj h).2
        exact ⟨before, hsuffix.trans (List.suffix_cons x log), hrest⟩
    · rw [if_neg hin] at h
      obtain ⟨before, hsuffix, hrest⟩ := ih h
      exact ⟨before, hsuffix.trans (List.suffix_cons x log), hrest⟩

/-- In front of RECORD the setup of AirPlay 2 has come to the reply to the session SETUP. -/
theorem before_record {methods : List Octets}
    (h : InSequence true (methods ++ [ascii "RECORD"])) :
    methods = [ascii "GET", ascii "SETUP"] := by
  have hpre : methods ++ [ascii "RECORD"] <+: setup := h
  have hlen : methods.length < 4 := by
    have hle := hpre.length_le
    rw [List.length_append] at hle
    exact hle
  have htake : methods ++ [ascii "RECORD"] = setup.take (methods.length + 1) := by
    simpa using List.prefix_iff_eq_take.mp hpre
  have hlast := congrArg List.getLast? htake
  rw [List.getLast?_concat] at hlast
  have hn : methods.length = 0 ∨ methods.length = 1 ∨ methods.length = 2 ∨ methods.length = 3 := by
    omega
  rcases hn with hn | hn | hn | hn <;> rw [hn] at hlast htake
  · exact absurd hlast (by decide)
  · exact absurd hlast (by decide)
  · have hsplit : methods ++ [ascii "RECORD"] = [ascii "GET", ascii "SETUP"] ++ [ascii "RECORD"] := htake
    exact List.append_cancel_right hsplit
  · exact absurd hlast (by decide)

section Whole

variable {older : List Entry} (hplain : Always Unmistaken older)

include hplain

/-- The reply at hand is one of the setup, and its status fits. -/
theorem codeFits_head (hin : inSetup older = true) {live : Bool} {method : Octets} {isHttp : Bool}
    {status : Octets} {headers : Headers} {body : Octets}
    (hhead : older.head? = some (.dispatched live method isHttp status headers body)) :
    CodeFits status := by
  obtain ⟨rest, rfl⟩ := List.head?_eq_some_iff.mp hhead
  refine (hplain.1 ?_).1
  rw [inSetup_iff, cleared_cons rfl, entered_cons rfl] at hin
  rw [inSetup_iff]
  simpa [Entry.isCleared, Entry.isEntered] using hin

/-- The connection that the whole port asks for is one that its low half asks for. -/
theorem EventRequested.whole (h : EventRequested .narrowed older)
    (hanswered : answered older = [ascii "GET", ascii "SETUP"]) : EventRequested .whole older := by
  obtain ⟨since, live, status, headers, body, rest, hentries, hport⟩ := h
  refine ⟨since, live, status, headers, body, rest, hentries, fun hnamed => hport fun hzero => ?_⟩
  obtain ⟨before, hsuffix, hin, hbefore⟩ := setupEntries_split hentries
  -- the reply to SETUP is the second one
  have hfirst : answered before = [ascii "GET"] := by
    have hne : ascii "SETUP" ≠ ascii "TEARDOWN" := by decide
    have hall : answered older =
        answered before ++ ascii "SETUP" :: shown Entry.answers? since := by
      have hone : shown Entry.answers? (.dispatched live (ascii "SETUP") true status headers body ::
          rest) = answered before ++ [ascii "SETUP"] := by
        rw [shown_cons_some (b := ascii "SETUP") (by simp [Entry.answers?, hne]), answered, hbefore]
      rw [answered, hentries, shown_append, hone, List.append_assoc]
      rfl
    rw [hanswered] at hall
    cases hb : answered before with
    | nil =>
      rw [hb] at hall
      exact absurd (List.cons.inj hall).1 (by decide)
    | cons m methods =>
      rw [hb, List.cons_append] at hall
      obtain ⟨rfl, hall⟩ := List.cons.inj hall
      cases methods with
      | nil => rfl
      | cons m methods => simp at hall
  exact hnamed (((hplain.of_suffix hsuffix).1 hin).2 rfl rfl hfirst (dvd_namedEventPort hzero))

/-- **The order as the code reads the replies is the order as they stand**, where they are not
mistaken. -/
theorem InOrder.whole {e : Entry} (h : InOrder .narrowed e older) : InOrder .whole e older := by
  cases e with
  | requested cseq method isHttp text =>
    refine ⟨h.1, fun hin hne => ?_⟩
    obtain ⟨hsequence, hanswered, hagain, hinfo, hevent⟩ := h.2 hin hne
    refine ⟨hsequence, hanswered, fun hlast => ?_, hinfo, fun hyes hrecord => ?_⟩
    · obtain ⟨live, status, headers, body, hhead, hcode⟩ := hagain hlast
      exact ⟨live, status, headers, body, hhead,
        (codeFits_head hplain hin hhead).denotes hcode (.inl rfl)⟩
    · refine (hevent hyes hrecord).whole hplain ?_
      rw [hyes, hrecord] at hsequence
      rw [hanswered]
      exact before_record hsequence
  | entered =>
    obtain ⟨hin, live, method, isHttp, status, code, headers, body, hhead, hcode, hlow, hhigh, hrest⟩ := h
    exact ⟨hin, live, method, isHttp, status, code, headers, body, hhead,
      (codeFits_head hplain hin hhead).denotes hcode (.inr ⟨hlow, hhigh⟩), hlow, hhigh, hrest⟩
  | _ => exact h

omit hplain in
theorem always_whole {log : List Entry} (h : Always (InOrder .narrowed) log)
    (hplain : Always Unmistaken log) : Always (InOrder .whole) log := by
  induction log with
  | nil => trivial
  | cons e log ih => exact ⟨h.1.whole hplain.2, ih h.2 hplain.2⟩

end Whole

/-- **The order of the setup**, in every run whose setup replies are not mistaken for others: what a
session asks between authentication and the stream is a part of its setup from the first request on,
on AirPlay 1 with one request repeated at most, and only behind a 401; every request but the first
comes behind the reply to the one before; the event connection is requested before RECORD; the
stream begins once, behind the reply that ends the setup; and no media is sent before. -/
theorem protocol_order [Primitives] {w : World} (h : Reachable w)
    (hplain : Always Unmistaken w.log) :
    (∀ log, log <:+ w.log → InSequence (isSetup2 log) (asked log)) ∧
      Always (InOrder .whole) w.log ∧ Always Streamed w.log := by
  obtain ⟨hordered, hstreamed⟩ := h.ordered
  have horder : Always (InOrder .narrowed) w.log := hordered.order
  exact ⟨fun log hlog => inSequence_of_always (horder.of_suffix hlog), always_whole horder hplain,
    hstreamed⟩

theorem streaming_asked : asked (worldAfter streamingActions).log = setup := by decide +kernel

/-- A session of AirPlay 2 all the way to the stream. -/
theorem protocol_order_stream :
    asked (worldAfter streamingActions).log = setup ∧
      InSequence (isSetup2 (worldAfter streamingActions).log) setup := by
  have hplain : Always Unmistaken (worldAfter streamingActions).log := by decide +kernel
  have horder := (@protocol_order trusting _ (worldAfter_reachable streamingActions) hplain).1 _
    List.suffix_rfl
  rw [streaming_asked] at horder
  exact ⟨streaming_asked, horder⟩

/-! ## 8. Mistaken replies -/

/-- The text of the status of a response. -/
def Entry.status? : Entry → Option Octets
  | .dispatched _ _ _ status _ _ => some status
  | _ => none

/-- A reply of `okReply` under another status. -/
def renumbered (status : String) (reply : Octets) : Octets :=
  ascii "HTTP/1.1 " ++ ascii status ++ reply.drop (ascii "HTTP/1.1 200").length

/-- The stream SETUP is answered with the status 2^32 + 200. -/
def misreadStream : List Action :=
  transientDone true ++ [sealedReply 0 (okReply []), sealedReply 1 (okReply []),
    sealedReply 2 (okReply []), sealedReply 3 (renumbered "4294967496" streamReply)]

/-- The reply to the session SETUP names the event port 2^16. -/
def misreadPort : List Action :=
  transientDone true ++ [sealedReply 0 (okReply []),
    sealedReply 1 (okReply (Bplist.encode (.dict [(ascii "eventPort", .int 65536)])))]

/-- On AirPlay 1 OPTIONS is answered with the status 2^32 + 401. -/
def misreadChallenge : List Action :=
  [.call (.setAuth .password false [] [] (ascii "secret")),
    .call (.start (ascii "receiver") 7000 (ascii "Receiver")),
    .onTcpConnected .control loopback loopback,
    .onTcpData .control (ascii "RTSP/1.0 4294967697 Unauthorized\r\n" ++
      ascii "WWW-Authenticate: Digest realm=\"r\", nonce=\"n\"" ++ headSep)]

/-- What always holds holds of the newest entry of a kind. -/
theorem always_newest {Q : Entry → List Entry → Prop} {log : List Entry} (h : Always Q log)
    {p : Entry → Bool} {e : Entry} {older : List Entry}
    (hcut : log.dropWhile p = e :: older) : Q e older := by
  have hsuffix := h.of_suffix (List.dropWhile_suffix p)
  rw [hcut] at hsuffix
  exact hsuffix.1

/-- The text stands for one number only. -/
theorem not_denotes {s : Octets} {v w : ℤ} (hparse : parseInt s = some v) (hne : v ≠ w) :
    ¬ Denotes s w := by
  intro hw
  rw [← parseInt_eq_some_iff, hparse] at hw
  exact hne (Option.some.inj hw)

/-- The stream begins behind a status that is no 2xx. -/
theorem misreadStream_entered : ¬ Always (InOrder .whole) (worldAfter misreadStream).log := by
  intro h
  let cut := (worldAfter misreadStream).log.dropWhile fun e => !e.isEntered
  obtain ⟨hhead, hstatus⟩ : cut.head?.any Entry.isEntered = true ∧
      cut.tail.head?.bind Entry.status? = some (ascii "4294967496") := by decide +kernel
  obtain ⟨e, he, hentered⟩ := (Option.any_eq_true _ _).mp hhead
  obtain ⟨older, hcut⟩ := List.head?_eq_some_iff.mp he
  rw [hcut] at hstatus
  have horder := always_newest h hcut
  cases e with
  | entered =>
    obtain ⟨-, live, method, isHttp, status, code, headers, body, hreply, hcode, -, hhigh, -⟩ := horder
    rw [List.tail_cons, hreply] at hstatus
    obtain rfl : status = _ := Option.some.inj hstatus
    have hparse : parseInt (ascii "4294967496") = some 4294967496 := by decide +kernel
    exact not_denotes hparse (by omega) hcode
  | _ => cases hentered

/-- An entry that neither asks for an event connection nor is the reply to a SETUP that names no
event port. -/
def Entry.unheard : Entry → Bool
  | .tcpConnect .event _ _ => false
  | .dispatched _ method _ _ _ body => method ≠ ascii "SETUP" ∨ namedEventPort body ≠ 0
  | _ => true

/-- RECORD goes out, and the event connection was not requested. -/
theorem misreadPort_record : ¬ Always (InOrder .whole) (worldAfter misreadPort).log := by
  intro h
  let cut := (worldAfter misreadPort).log.dropWhile fun e => e.asks? ≠ some (ascii "RECORD")
  obtain ⟨hhead, hin, hsetup2, hnone⟩ : cut.head?.any (fun e => e.asks? = some (ascii "RECORD")) = true ∧
      inSetup cut.tail = true ∧ isSetup2 cut.tail = true ∧
      (setupEntries cut.tail).all Entry.unheard = true := by decide +kernel
  obtain ⟨e, he, hasks⟩ := (Option.any_eq_true _ _).mp hhead
  obtain ⟨older, hcut⟩ := List.head?_eq_some_iff.mp he
  rw [hcut, List.tail_cons] at hin hsetup2 hnone
  have horder := always_newest h hcut
  cases e with
  | requested cseq method isHttp text =>
    have hrecord : method ≠ ascii "TEARDOWN" ∧ method = ascii "RECORD" := by
      simpa [Entry.asks?] using hasks
    obtain ⟨since, live, status, headers, body, rest, hentries, hport⟩ :=
      (horder.2 hin hrecord.1).event hsetup2 hrecord.2
    rw [hentries, List.all_append, List.all_cons, Bool.and_eq_true, Bool.and_eq_true,
      List.all_eq_true] at hnone
    have hnamed : namedEventPort body ≠ 0 := by simpa [Entry.unheard] using hnone.2.1
    obtain ⟨host, hmem⟩ := hport hnamed
    exact absurd (hnone.1 _ hmem) (by simp [Entry.unheard])
  | _ => cases hasks

/-- OPTIONS is repeated behind a status that is no 401. -/
theorem misreadChallenge_again : ¬ Always (InOrder .whole) (worldAfter misreadChallenge).log := by
  intro h
  let cut := (worldAfter misreadChallenge).log.dropWhile fun e => e.asks? = none
  obtain ⟨hhead, hin, hlast, hstatus⟩ :
      cut.head?.any (fun e => e.asks? = some (ascii "OPTIONS")) = true ∧
      inSetup cut.tail = true ∧ (asked cut.tail).getLast? = some (ascii "OPTIONS") ∧
      cut.tail.head?.bind Entry.status? = some (ascii "4294967697") := by decide +kernel
  obtain ⟨e, he, hasks⟩ := (Option.any_eq_true _ _).mp hhead
  obtain ⟨older, hcut⟩ := List.head?_eq_some_iff.mp he
  rw [hcut, List.tail_cons] at hin hlast hstatus
  have horder := always_newest h hcut
  cases e with
  | requested cseq method isHttp text =>
    have hoptions : method ≠ ascii "TEARDOWN" ∧ method = ascii "OPTIONS" := by
      simpa [Entry.asks?] using hasks
    obtain ⟨live, status, headers, body, hreply, hcode⟩ :=
      (horder.2 hin hoptions.1).again (by rw [hlast, hoptions.2])
    rw [hreply] at hstatus
    obtain rfl : status = _ := Option.some.inj hstatus
    have hparse : parseInt (ascii "4294967697") = some 4294967697 := by decide +kernel
    exact not_denotes hparse (by decide) hcode
  | _ => cases hasks

/-- **Mistaken replies break the order**: a stream SETUP answered with 4294967496 begins the stream,
behind an event port of 65536 RECORD goes out without the event connection, and a 4294967697 has
OPTIONS repeated. -/
theorem order_misread :
    ¬ Always (InOrder .whole) (worldAfter misreadStream).log ∧
      ¬ Always (InOrder .whole) (worldAfter misreadPort).log ∧
      ¬ Always (InOrder .whole) (worldAfter misreadChallenge).log :=
  ⟨misreadStream_entered, misreadPort_record, misreadChallenge_again⟩

end AirplaySender
