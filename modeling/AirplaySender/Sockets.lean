/-
# No socket is left behind

A session binds three datagram sockets and opens one connection, on AirPlay 2 a second one in the
middle of its setup; it ends in `stop`, in `fail_`, in the receiver hanging up, or before it began,
where a socket could not be bound.  The exits share `releaseSockets_` and differ in the rest.

`no_socket_leak` keeps the books: every socket that was bound is closed once before it is bound
again, and an idle sender has none open.  The books of the connections (`opened`) are kept along a
run, because the host may close one as well, and that is not in the trace.
-/
import AirplaySender.Runs

namespace AirplaySender

open Octets Prog Trace
open Relation (ReflTransGen)

/-! ## 1. The books -/

/-- How often a datagram socket was closed since it was last bound; `none` where it never was. -/
def closedSince (u : Udp) : List Entry → Option ℕ
  | [] => none
  | .udpBind v _ :: older => if v = u then some 0 else closedSince u older
  | .udpClose v :: older =>
    if v = u then (closedSince u older).map (· + 1) else closedSince u older
  | _ :: older => closedSince u older

/-- The socket was never bound, or was closed once since. -/
def Shut (u : Udp) (log : List Entry) : Prop := closedSince u log = none ∨ closedSince u log = some 1

/-- A socket is bound where it is shut, and closed where it is open. -/
def Orderly : Entry → List Entry → Prop
  | .udpBind u _, older => Shut u older
  | .udpClose u, older => closedSince u older = some 0
  | _, _ => True

/-- Which connections are open behind some entries, newest first. -/
def tally (held : Tcp → Bool) : List Entry → Tcp → Bool
  | [] => held
  | .tcpConnect ch _ _ :: es => Function.update (tally held es) ch true
  | .tcpClose ch _ :: es => Function.update (tally held es) ch false
  | _ :: es => tally held es

/-- A connection that the host reports closed is. -/
def notice (held : Tcp → Bool) : Action → Tcp → Bool
  | .onTcpClosed ch _ => Function.update held ch false
  | _ => held

/-- The calls that open and close connections. -/
def Entry.isTcp : Entry → Bool
  | .tcpConnect .. => true
  | .tcpClose .. => true
  | _ => false

def World.tcpCalls (w : World) : List Entry := w.out.filter Entry.isTcp

/-- The connections that are open at the end of a run: what the host closes, and behind that what
the sender opens and closes, one action after the other. -/
def opened [Primitives] [Host] : List Action → World → (Tcp → Bool) → Tcp → Bool
  | [], _, held => held
  | a :: as, w, held =>
    match perform a w with
    | (.error .nullDeref, w') =>
      tally (notice held a) (w'.tcpCalls.take (w'.tcpCalls.length - w.tcpCalls.length))
    | (_, w') => opened as w'
      (tally (notice held a) (w'.tcpCalls.take (w'.tcpCalls.length - w.tcpCalls.length)))

theorem closedSince_cons {e : Entry} (h : e.wired = false) (u : Udp) (log : List Entry) :
    closedSince u (e :: log) = closedSince u log := by
  cases e with
  | udpBind | udpClose => cases h
  | _ => rfl

/-- The books are kept on the wire. -/
theorem closedSince_filter (u : Udp) (log : List Entry) :
    closedSince u (log.filter Entry.wired) = closedSince u log := by
  induction log with
  | nil => rfl
  | cons e log ih =>
    cases hw : e.wired with
    | false => rw [List.filter_cons_of_neg (by simp [hw]), ih, closedSince_cons hw]
    | true =>
      rw [List.filter_cons_of_pos hw]
      cases e with
      | udpBind v => simp only [closedSince, ih]
      | udpClose v => simp only [closedSince, ih]
      | _ => exact ih

theorem tally_append (held : Tcp → Bool) (es es' : List Entry) :
    tally held (es' ++ es) = tally (tally held es) es' := by
  induction es' with
  | nil => rfl
  | cons e es' ih =>
    cases e with
    | tcpConnect ch => simp only [List.cons_append, tally, ih]
    | tcpClose ch => simp only [List.cons_append, tally, ih]
    | _ => exact ih

theorem tally_isTcp (held : Tcp → Bool) (es : List Entry) :
    tally held (es.filter Entry.isTcp) = tally held es := by
  induction es with
  | nil => rfl
  | cons e es ih =>
    cases e with
    | tcpConnect ch => rw [List.filter_cons_of_pos rfl, tally, tally, ih]
    | tcpClose ch => rw [List.filter_cons_of_pos rfl, tally, tally, ih]
    | _ => exact ih

/-- The calls on connections are on the wire. -/
theorem tcpCalls_eq (w : World) : w.tcpCalls = (wireOf w).log.filter Entry.isTcp := by
  unfold World.tcpCalls wireOf
  rw [List.filter_filter]
  refine List.filter_congr fun e _ => ?_
  cases e <;> rfl

/-- An entry that calls no socket. -/
def Entry.isDry : Entry → Bool
  | .udpBind .. => false
  | .udpClose _ => false
  | .tcpConnect .. => false
  | .tcpClose .. => false
  | _ => true

theorem closedSince_dry {es log : List Entry} (h : ∀ e ∈ es, e.isDry = true) (u : Udp) :
    closedSince u (es ++ log) = closedSince u log := by
  induction es with
  | nil => rfl
  | cons e es ih =>
    have hrest := ih fun x hx => h x (List.mem_cons_of_mem e hx)
    have he := h e List.mem_cons_self
    cases e with
    | udpBind | udpClose | tcpConnect | tcpClose => cases he
    | _ => exact hrest

theorem orderly_dry {es log : List Entry} (h : ∀ e ∈ es, e.isDry = true) (hlog : Always Orderly log) :
    Always Orderly (es ++ log) := by
  refine hlog.append fun e he older => ?_
  have he := h e he
  cases e with
  | udpBind | udpClose => cases he
  | _ => trivial

theorem tally_dry {es : List Entry} (h : ∀ e ∈ es, e.isDry = true) (held : Tcp → Bool) :
    tally held es = held := by
  induction es with
  | nil => rfl
  | cons e es ih =>
    have hrest := ih fun x hx => h x (List.mem_cons_of_mem e hx)
    have he := h e List.mem_cons_self
    cases e with
    | tcpConnect | tcpClose => cases he
    | _ => exact hrest

/-! ## 2. What an act does to the books -/

/-- The books of a wire are in order. -/
structure Booked (c : Wire) (held : Tcp → Bool) : Prop where
  idle : c.state = .idle → c.udpBound = false ∧ ∀ ch, held ch = false
  bound : c.udpBound = true → ∀ u, closedSince u c.log = some 0
  shut : c.udpBound = false → ∀ u, Shut u c.log
  orderly : Always Orderly c.log

section Booked

variable {c c' : Wire} {held held' : Tcp → Bool}

/-- Entries that are no calls on sockets. -/
theorem Booked.same (h : Booked c held) (hbound : c'.udpBound = c.udpBound)
    (hsockets : ∀ u, closedSince u c'.log = closedSince u c.log) (horderly : Always Orderly c'.log)
    (hidle : c'.state = .idle → c.state = .idle ∧ ∀ ch, held ch = false → held' ch = false) :
    Booked c' held' := by
  refine ⟨fun hst => ?_, fun hb u => ?_, fun hb u => ?_, horderly⟩
  · obtain ⟨hold, hheld⟩ := hidle hst
    rw [hbound]
    exact ⟨(h.idle hold).1, fun ch => hheld ch ((h.idle hold).2 ch)⟩
  · rw [hsockets]
    exact h.bound (hbound.symm.trans hb) u
  · rw [Shut, hsockets]
    exact h.shut (hbound.symm.trans hb) u

/-- Some entries that call no sockets, on a session that goes on. -/
theorem Booked.dry {es : List Entry} (h : Booked c held) (hlog : c'.log = es ++ c.log)
    (hbound : c'.udpBound = c.udpBound) (hstate : c'.state = .idle → c.state = .idle)
    (hes : ∀ e ∈ es, e.isDry = true) : ∃ es, c'.log = es ++ c.log ∧ Booked c' (tally held es) := by
  refine ⟨es, hlog, h.same hbound (fun u => ?_) ?_ fun hidle => ⟨hstate hidle, fun ch hch => ?_⟩⟩
  · rw [hlog]
    exact closedSince_dry hes u
  · rw [hlog]
    exact orderly_dry hes h.orderly
  · rw [tally_dry hes]
    exact hch

/-- `releaseSockets_` shuts what is open. -/
theorem shut_release {log : List Entry} {bound : Bool}
    (hbound : bound = true → ∀ u, closedSince u log = some 0)
    (hshut : bound = false → ∀ u, Shut u log) (horderly : Always Orderly log) :
    (∀ u, Shut u (releaseEntries bound ++ log)) ∧ Always Orderly (releaseEntries bound ++ log) := by
  cases bound with
  | false => exact ⟨fun u => hshut rfl u, trivial, horderly⟩
  | true =>
    have hopen := hbound rfl
    refine ⟨fun u => .inr ?_, trivial, ?_, ?_, ?_, horderly⟩
    · have hu := hopen u
      cases u <;> simp [releaseEntries, closedSince, hu]
    · simp [Orderly, closedSince, hopen]
    · simp [Orderly, closedSince, hopen]
    · exact hopen .audio

/-- The end of a session: everything is shut. -/
theorem Booked.finished (h : Booked c held) {es : List Entry} {backlog : ℕ → Octets}
    {backlogSeq : ℕ → ℤ} (hes : ∀ e ∈ es, ∃ ch flush, e = .tcpClose ch flush)
    (hheld : ∀ ch, held' ch = false) : Booked (c.finished es backlog backlogSeq) held' := by
  have hsockets (u : Udp) : closedSince u (es ++ c.log) = closedSince u c.log := by
    induction es with
    | nil => rfl
    | cons e es ih =>
      obtain ⟨ch, flush, rfl⟩ := hes e List.mem_cons_self
      exact ih fun x hx => hes x (List.mem_cons_of_mem _ hx)
  have horderly : Always Orderly (es ++ c.log) := by
    refine h.orderly.append fun e he older => ?_
    obtain ⟨ch, flush, rfl⟩ := hes e he
    trivial
  obtain ⟨hshut, horderly'⟩ := @shut_release (es ++ c.log) c.udpBound
    (fun hb u => (hsockets u).trans (h.bound hb u))
    (fun hb u => by rw [Shut, hsockets]; exact h.shut hb u) horderly
  exact ⟨fun _ => ⟨rfl, hheld⟩, nofun, fun _ => hshut, horderly'⟩

/-- A session binds its sockets where all are shut. -/
theorem Booked.bind (h : Booked c held) (hidle : c.state = .idle) (auth : Auth)
    (airplay2 strict : Bool) (p : Ports) :
    (∀ u, closedSince u (bindEntries auth airplay2 strict p ++ c.log) = some 0) ∧
      Always Orderly (bindEntries auth airplay2 strict p ++ c.log) := by
  have hshut := h.shut (h.idle hidle).1
  have hcontrol : Shut .control (.udpBind .timing p.timing :: .started auth airplay2 strict ::
      c.log) := by
    simpa [Shut, closedSince] using hshut .control
  have haudio : Shut .audio (.udpBind .control p.control :: .udpBind .timing p.timing ::
      .started auth airplay2 strict :: c.log) := by
    simpa [Shut, closedSince] using hshut .audio
  refine ⟨fun u => ?_, haudio, hcontrol, hshut .timing, trivial, h.orderly⟩
  cases u <;> simp [bindEntries, closedSince]

variable [Primitives] {Ok : Action → Prop}

/-- **An act keeps the books in order.** -/
theorem Booked.act (h : Booked c held) (ha : Act Ok c c') :
    ∃ es, c'.log = es ++ c.log ∧ Booked c' (tally held es) := by
  have hone {e : Entry} {d : Wire} (hlog : d.log = e :: c.log) (hbound : d.udpBound = c.udpBound)
      (hsockets : ∀ u, closedSince u (e :: c.log) = closedSince u c.log)
      (horderly : Orderly e c.log)
      (hidle : d.state = .idle → c.state = .idle ∧
        ∀ ch, held ch = false → tally held [e] ch = false) :
      ∃ es, d.log = es ++ c.log ∧ Booked d (tally held es) := by
    refine ⟨[e], hlog, h.same hbound (fun u => ?_) ?_ hidle⟩
    · rw [hlog]
      exact hsockets u
    · rw [hlog]
      exact ⟨horderly, h.orderly⟩
  cases ha with
  | begin seq auth airplay2 strict p hidle =>
    obtain ⟨hopen, horderly⟩ := h.bind hidle auth airplay2 strict p
    obtain ⟨-, hheld⟩ := h.idle hidle
    cases hgood : p.good with
    | true =>
      refine ⟨bindEntries auth airplay2 strict p, by rw [Wire.begun, hgood]; rfl, ?_⟩
      rw [Wire.begun, hgood]
      exact ⟨(by simp), fun _ => hopen, (by simp), horderly⟩
    | false =>
      obtain ⟨hshut, horderly'⟩ := @shut_release _ true (fun _ => hopen) (by simp) horderly
      refine ⟨releaseEntries true ++ bindEntries auth airplay2 strict p,
        by rw [Wire.begun, hgood, List.append_assoc]; rfl, ?_⟩
      rw [Wire.begun, hgood]
      refine ⟨fun _ => ⟨rfl, fun ch => ?_⟩, (by simp), fun _ => hshut, horderly'⟩
      cases ch with
      | control => exact hheld .control
      | event => rfl
  | connect ch host port hlive =>
    exact hone rfl rfl (fun _ => rfl) trivial fun hidle => absurd hidle hlive
  | dropEvent =>
    refine hone rfl rfl (fun _ => rfl) trivial fun hidle => ⟨hidle, fun ch hch => ?_⟩
    cases ch with
    | control => exact hch
    | event => rfl
  | progress state hlive hstate =>
    refine ⟨[], rfl, h.same rfl (fun _ => rfl) h.orderly fun hidle => ?_⟩
    rcases hstate with rfl | rfl <;> cases hidle
  | clear auth setup2 paired hlive =>
    exact hone rfl rfl (fun _ => rfl) trivial fun hidle => by cases hidle
  | refuse controlPort =>
    have hsame : Booked { c with serverPort := 0, controlPort } held :=
      h.same rfl (fun _ => rfl) h.orderly fun hidle => ⟨hidle, fun _ hch => hch⟩
    refine ⟨releaseEntries c.udpBound ++ [_], (List.append_assoc _ _ _).symm,
      hsame.finished (fun e he => ⟨_, _, List.mem_singleton.mp he⟩) fun ch => ?_⟩
    cases c.udpBound <;> cases ch <;> rfl
  | fail | stop =>
    refine ⟨releaseEntries c.udpBound ++ [_], (List.append_assoc _ _ _).symm,
      h.finished (fun e he => ⟨_, _, List.mem_singleton.mp he⟩) fun ch => ?_⟩
    cases c.udpBound <;> cases ch <;> rfl
  | request | dispatch | setUp | pair | packet | sync | reply =>
    exact hone rfl rfl (fun _ => rfl) trivial fun hidle => ⟨hidle, fun _ hch => hch⟩
  | offer =>
    exact ⟨[_, _], rfl, h.same rfl (fun _ => rfl) ⟨trivial, trivial, h.orderly⟩
      fun hidle => ⟨hidle, fun _ hch => hch⟩⟩
  | volume dbfs sent hsent =>
    refine h.dry (List.append_assoc sent [_] c.log).symm rfl id fun e he => ?_
    rcases List.mem_append.mp he with he | he
    · obtain ⟨cseq, text, rfl⟩ := hsent.mem he
      rfl
    · rw [List.mem_singleton.mp he]
      rfl
  | @enter ntp _ _ _ synced sent _ _ _ hsynced hsent =>
    have hlog : sent ++ (synced ++ .entered :: c.log) = (sent ++ (synced ++ [.entered])) ++ c.log := by
      rw [List.append_assoc, List.append_assoc, List.singleton_append]
    refine h.dry hlog rfl (fun hidle => by cases hidle) fun e he => ?_
    rcases List.mem_append.mp he with he | he
    · obtain ⟨cseq, text, rfl⟩ := hsent.mem he
      rfl
    rcases List.mem_append.mp he with he | he
    · obtain ⟨dest, mark, rfl⟩ := hsynced.mem he
      rfl
    · rw [List.mem_singleton.mp he]
      rfl
  | _ =>
    exact ⟨[], rfl, h.same rfl (fun _ => rfl) h.orderly fun hidle => ⟨hidle, fun _ hch => hch⟩⟩

/-- What arrives does too, once the host's notice is in them. -/
theorem Booked.arrives {a : Action} (h : Booked c held) (ha : Arrives a c c') :
    ∃ es, c'.log = es ++ c.log ∧ Booked c' (tally (notice held a) es) := by
  have hnotice : Booked c (notice held a) := by
    refine h.same rfl (fun _ => rfl) h.orderly fun hidle => ⟨hidle, fun ch hch => ?_⟩
    cases a with
    | onTcpClosed ch' =>
      simp only [notice, Function.update_apply]
      split
      · rfl
      · exact hch
    | _ => exact hch
  cases ha with
  | refused bytes rxBuf rtspEncBuf =>
    have hsame : Booked { c with rxBuf, rtspEncBuf } held :=
      h.same rfl (fun _ => rfl) h.orderly fun hidle => ⟨hidle, fun _ hch => hch⟩
    refine ⟨releaseEntries c.udpBound ++ [_], (List.append_assoc _ _ _).symm,
      hsame.finished (fun e he => ⟨_, _, List.mem_singleton.mp he⟩) fun ch => ?_⟩
    cases c.udpBound <;> cases ch <;> rfl
  | hungUp =>
    refine ⟨releaseEntries c.udpBound ++ [], (List.append_assoc _ _ _).symm,
      h.finished nofun fun ch => ?_⟩
    cases c.udpBound <;> cases ch <;> rfl
  | _ =>
    exact ⟨[], rfl, hnotice.same rfl (fun _ => rfl) hnotice.orderly
      fun hidle => ⟨hidle, fun _ hch => hch⟩⟩

/-- Acts keep them however many there are. -/
theorem Booked.acts (h : Booked c held) (ha : ReflTransGen (Act Ok) c c') :
    ∃ es, c'.log = es ++ c.log ∧ Booked c' (tally held es) := by
  induction ha with
  | refl => exact ⟨[], rfl, h⟩
  | tail _ hact ih =>
    obtain ⟨es, hlog, hsettled⟩ := ih
    obtain ⟨es', hlog', hsettled'⟩ := hsettled.act hact
    refine ⟨es' ++ es, by rw [hlog', hlog, List.append_assoc], ?_⟩
    rw [tally_append]
    exact hsettled'

end Booked

/-! ## 3. Runs -/

section Runs

variable [Primitives]

/-- An action keeps the books in order. -/
theorem Booked.perform [Host] (hfire : Heeds fun _ => True) (htame : Tame) {w : World}
    {held : Tcp → Bool} (hflow : Flow (coreOf w)) (hwhole : (wireOf w).Reassembled)
    (h : Booked (wireOf w) held) (a : Action) :
    Booked (wireOf (AirplaySender.perform a w).2) (tally (notice held a)
      ((AirplaySender.perform a w).2.tcpCalls.take
        ((AirplaySender.perform a w).2.tcpCalls.length - w.tcpCalls.length))) := by
  obtain ⟨⟨c, harrives, hacts, -⟩, -⟩ :=
    perform_carriesOut hfire htame hflow hwhole (show (fun _ => True) a from trivial)
      fun _ _ _ => trivial
  obtain ⟨es, hlog, hsettled⟩ := h.arrives harrives
  obtain ⟨es', hlog', hsettled'⟩ := hsettled.acts hacts
  rw [← tally_append] at hsettled'
  have hcalls : (AirplaySender.perform a w).2.tcpCalls =
      (es' ++ es).filter Entry.isTcp ++ w.tcpCalls := by
    rw [tcpCalls_eq, tcpCalls_eq, hlog', hlog, ← List.append_assoc, List.filter_append]
  have htake : (AirplaySender.perform a w).2.tcpCalls.take
      ((AirplaySender.perform a w).2.tcpCalls.length - w.tcpCalls.length) =
        (es' ++ es).filter Entry.isTcp := by
    rw [hcalls, List.length_append, Nat.add_sub_cancel, List.take_left]
  rw [htake, tally_isTcp]
  exact hsettled'

theorem booked_run [Host] (hfire : Heeds fun _ => True) (htame : Tame) :
    ∀ (actions : List Action) (w : World) (held : Tcp → Bool), Flow (coreOf w) →
      (wireOf w).Reassembled → Booked (wireOf w) held → Booked (wireOf (run actions w)) (opened actions w held) := by
  intro actions
  induction actions with
  | nil => exact fun w held _ _ h => h
  | cons a actions ih =>
    intro w held hflow hwhole h
    have hsettled := h.perform hfire htame hflow hwhole a
    have hwhole' := perform_reassembled hfire htame hflow hwhole a
    have hflow' : Flow (coreOf (AirplaySender.perform a w).2) := (perform_walks htame a).keeps hflow
    unfold run opened
    rcases hw : AirplaySender.perform a w with ⟨r, w'⟩
    rw [hw] at hsettled hflow' hwhole'
    cases r with
    | ok _ => exact ih w' _ hflow' hwhole' hsettled
    | error e =>
      cases e with
      | nullDeref => exact hsettled
      | runtimeError what => exact ih w' _ hflow' hwhole' hsettled
      | lengthError => exact ih w' _ hflow' hwhole' hsettled

/-- **No socket leak**, in every run, with callbacks of any nesting depth: every datagram socket
is bound where it was never bound or was closed once since, and closed only while it is open; and
whenever the sender is idle, all three are closed, and so is every connection it opened, by the
sender or by the host. -/
theorem no_socket_leak (depth : ℕ) (env : Env) (actions : List Action) :
    let w := @run _ (host depth) actions (World.init env)
    Always Orderly w.out ∧ (w.s.state = .idle → (∀ u, Shut u w.out) ∧
      ∀ ch, @opened _ (host depth) actions (World.init env) (fun _ => false) ch = false) := by
  intro w
  have hsettled : Booked (wireOf w)
      (@opened _ (host depth) actions (World.init env) fun _ => false) :=
    @booked_run _ (host depth) (host_heeds depth) (host_tame depth) actions (World.init env)
      (fun _ => false) Flow.init (reassembled_init env)
      ⟨fun _ => ⟨rfl, fun _ => rfl⟩, nofun, fun _ _ => .inl rfl, trivial⟩
  have hshut (u : Udp) (log : List Entry) (h : Shut u (log.filter Entry.wired)) : Shut u log := by
    rw [Shut, closedSince_filter] at h
    exact h
  refine ⟨hsettled.orderly.of_filter (fun e older _ h => ?_) (fun e older he => ?_), fun hidle => ?_⟩
  · cases e with
    | udpBind u => exact hshut u older h
    | udpClose u =>
      rw [Orderly, closedSince_filter] at h
      exact h
    | _ => trivial
  · cases e with
    | udpBind | udpClose => cases he
    | _ => trivial
  · obtain ⟨hbound, hheld⟩ := hsettled.idle hidle
    exact ⟨fun u => hshut u _ (hsettled.shut hbound u), hheld⟩

end Runs

end AirplaySender
