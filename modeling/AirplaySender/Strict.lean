/-
# Strict receiver authentication

With `strictAuth_` set a HomeKit session sends no traffic to a receiver that has not been
authenticated: `handlePairSetupM4_` and `handlePairVerifyM2_` fail closed.  The two checks are on two
paths, a session can change from one to the other in the middle of pairing, and the reply that ends
a pairing is not read; `strict_authenticated` follows every way to the setup back to the check of
the path it came by.

The path itself can be chosen by the receiver: it leaves PIN pairing for transient pairing, whose
PIN is the same everywhere, by refusing `/pair-pin-start` with a 403.  The fallback changes the
configured method for good, so the next session of the same configuration does not even ask for a
PIN.  `pin_authenticated` says what is left of PIN pairing then, and `pin_downgraded` is such a
session.
-/
import AirplaySender.Order
import AirplaySender.Events

namespace AirplaySender

open Octets Trace

/-! ## 1. Sessions that are strict -/

/-- The HomeKit pairings. -/
def Auth.hap : Auth → Bool
  | .hapTransient | .hapPin => true
  | _ => false

/-- The session was started, and configured since, with strict authentication and a HomeKit
pairing. -/
def strictly : List Entry → Bool
  | [] => false
  | .started auth _ strict :: _ => strict && auth.hap
  | .configured auth _ strict :: older => strict && auth.hap && strictly older
  | .guarded strict :: older => strict && strictly older
  | _ :: older => strictly older

/-- What is for authenticated receivers: every request but a pairing post and the TEARDOWN of
`stop`, every audio and sync packet, and the stream itself. -/
def Traffic : Entry → Prop
  | .requested _ method isHttp _ =>
    method ≠ ascii "TEARDOWN" ∧ ¬ (method = ascii "POST" ∧ isHttp = true)
  | .udpSend u _ bytes => isMedia u bytes
  | .entered => True
  | _ => False

/-- The check of the pairing the session came through succeeded, in its last attempt: where that
ended with pair-verify, `ed25519Verify` on the signature of the receiver under a key that is not
empty; where it ended at M4 as a transient pairing, `verifyServerProof` on the proof of the
receiver. -/
def Authenticated [Primitives] (log : List Entry) : Prop :=
  (.staged .verifyDone ∈ attemptOf log ∧ ∃ ltpk, Signed log ltpk) ∨
    (.staged .verifyDone ∉ attemptOf log ∧ .concluded .hapTransient ∈ attemptOf log ∧
      ServerProven log)

/-- What strict authentication says of an entry and the entries before it. -/
def Vetted [Primitives] (e : Entry) (older : List Entry) : Prop :=
  strictly older = true → Traffic e → Authenticated older

/-- The entries that begin an attempt, change the configuration or end a pair-verify. -/
def Entry.turns : Entry → Bool
  | .started .. => true
  | .configured .. => true
  | .guarded _ => true
  | .pairing _ => true
  | .staged .verifyDone => true
  | _ => false

section Turns

variable {es log : List Entry} {e : Entry}

theorem Entry.not_started_of_turns (h : e.turns = false) : e.isStarted = false := by
  cases e with
  | started => cases h
  | _ => rfl

theorem Entry.not_pairing_of_turns (h : e.turns = false) : e.isPairing = false := by
  cases e with
  | pairing => cases h
  | _ => rfl

theorem attemptOf_append (h : ∀ e ∈ es, e.isPlain = true) (log : List Entry) :
    attemptOf (es ++ log) = es ++ attemptOf log := by
  have hplain : ∀ e ∈ es, e.isStarted = false ∧ e.isPairing = false := by
    intro e he
    simpa [Entry.isPlain] using h e he
  unfold attemptOf
  rw [sessionOf_append fun e he => (hplain e he).1, List.takeWhile_append_of_pos]
  intro e he
  simp [hplain e he]

theorem attemptOf_cons (h : e.isPlain = true) (log : List Entry) :
    attemptOf (e :: log) = e :: attemptOf log := by
  have hall : ∀ x ∈ [e], x.isPlain = true := by simpa using h
  exact attemptOf_append hall log

/-- Nothing has happened in an attempt that has just begun. -/
theorem attemptOf_pairing (auth : Auth) (log : List Entry) : attemptOf (.pairing auth :: log) = [] := by
  rw [attemptOf, sessionOf_cons rfl]
  rfl

theorem Entry.isPlain_of_turns (h : e.turns = false) : e.isPlain = true := by
  simp [Entry.isPlain, Entry.not_started_of_turns h, Entry.not_pairing_of_turns h]

theorem strictly_cons (h : e.turns = false) : strictly (e :: log) = strictly log := by
  cases e with
  | started | configured | guarded => cases h
  | _ => rfl

theorem strictly_append (h : ∀ e ∈ es, e.turns = false) :
    strictly (es ++ log) = strictly log := by
  induction es with
  | nil => rfl
  | cons e es ih =>
    rw [List.cons_append, strictly_cons (h e List.mem_cons_self),
      ih fun x hx => h x (List.mem_cons_of_mem e hx)]

/-- Entries of the same attempt leave a verified signature where it is. -/
theorem Signed.append [Primitives] {ltpk : Octets} (h : Signed log ltpk)
    (hes : ∀ e ∈ es, e.isPlain = true) : Signed (es ++ log) ltpk := by
  obtain ⟨hne, message, sig, hmem, hok⟩ := h
  refine ⟨hne, message, sig, ?_, hok⟩
  rw [attemptOf_append hes]
  exact List.mem_append_right _ hmem

theorem ServerProven.append [Primitives] (h : ServerProven log)
    (hes : ∀ e ∈ es, e.isPlain = true) : ServerProven (es ++ log) := by
  obtain ⟨client, serverM2, hmem, hok⟩ := h
  refine ⟨client, serverM2, ?_, hok⟩
  rw [attemptOf_append hes]
  exact List.mem_append_right _ hmem

/-- Authentication stays, unless the attempt turns into a pair-verify. -/
theorem Authenticated.append [Primitives] (h : Authenticated log)
    (hes : ∀ e ∈ es, e.isPlain = true) (hnone : .staged .verifyDone ∉ es) :
    Authenticated (es ++ log) := by
  rcases h with ⟨hstaged, ltpk, hsigned⟩ | ⟨hstaged, hconcluded, hproof⟩
  · refine .inl ⟨?_, ltpk, hsigned.append hes⟩
    rw [attemptOf_append hes]
    exact List.mem_append_right _ hstaged
  · refine .inr ⟨?_, ?_, hproof.append hes⟩
    · rw [attemptOf_append hes, List.mem_append, not_or]
      exact ⟨hnone, hstaged⟩
    · rw [attemptOf_append hes]
      exact List.mem_append_right _ hconcluded

theorem Authenticated.append_of_turns [Primitives] (h : Authenticated log)
    (hes : ∀ e ∈ es, e.turns = false) : Authenticated (es ++ log) :=
  h.append (fun e he => Entry.isPlain_of_turns (hes e he)) fun hmem =>
    absurd (hes _ hmem) (by simp [Entry.turns])

end Turns

section Step

variable [Primitives] {k : Level} {c c' : Core}

/-! ## 2. What a step does to a session -/

/-- A pairing was concluded, or there was none to make. -/
def Core.Through (c : Core) : Prop := c.stage.agreed ∨ Cleared c.log

omit [Primitives] in
theorem Core.not_through_fresh (c : Core) : ¬ c.fresh.Through := by
  rintro (hst | ⟨auth, setup2, paired, hmem⟩)
  · simp [Core.fresh, PairStage.agreed, PairStage.postAuth] at hst
  · rw [Core.fresh, sessionOf_started] at hmem
    cases hmem

omit [Primitives] in
/-- An attempt begins before any was concluded. -/
theorem Attempt.not_through {auth : Auth} (h : Attempt c auth) (hflow : Flow c)
    (hstate : c.state = .pairing) : ¬ c.Through := by
  rintro (hst | hcl)
  · rcases h with ⟨heq, -⟩ | ⟨heq, -⟩ | ⟨heq, -⟩ <;> rw [heq] at hst <;>
      simp [PairStage.agreed, PairStage.postAuth] at hst
  · exact hflow.uncleared (.inr hstate) hcl

/-- What an entry says of the core it is added to: a signature is checked under the key that is
there, and a PIN was typed but for the fixed one of transient pairing. -/
def Core.Says (c : Core) : Entry → Prop
  | .signature ltpk _ _ => ∃ keys, c.keys = some keys ∧ keys.accessoryLtpk = ltpk
  | .srpAgreed pin _ => c.auth = .hapTransient ∨ ∃ live, .typed live pin ∈ sessionOf c.log
  | _ => True

/-- An entry that neither turns the session nor lets it past authentication. -/
def Core.Passes (c : Core) (e : Entry) : Prop :=
  e.turns = false ∧ e.isCleared = false ∧ c.Says e ∧ (Traffic e → Cleared c.log)

/-- A step that leaves the attempt and the configuration as they are. -/
structure Continues (c c' : Core) : Prop where
  strict : c'.strict = c.strict
  auth : c'.auth = c.auth
  log : ∃ es, c'.log = es ++ c.log ∧ ∀ e ∈ es, e.turns = false ∧ c.Says e ∧ (Traffic e → Cleared c.log)
  agreed : c.stage.agreed → c'.stage.agreed
  through : c.strict = true → c.auth.hap = true → c'.Through → c.Through ∨
    (c.auth = .hapTransient ∧ c.stage = .setupM4 ∧ ServerProven c.log ∧
      .concluded .hapTransient ∈ attemptOf c'.log)

/-- Entries that neither turn the session nor let it past authentication. -/
theorem Continues.of_log {es : List Entry} (hstrict : c'.strict = c.strict) (hauth : c'.auth = c.auth)
    (hlog : c'.log = es ++ c.log)
    (hes : ∀ e ∈ es, c.Passes e) (hagreed : c'.stage.agreed ↔ c.stage.agreed) : Continues c c' where
  strict := hstrict
  auth := hauth
  log := ⟨es, hlog, fun e he => ⟨(hes e he).1, (hes e he).2.2⟩⟩
  agreed := hagreed.mpr
  through := by
    rintro - - (hst | ⟨auth, setup2, paired, hmem⟩)
    · exact .inl (.inl (hagreed.mp hst))
    · refine .inl (.inr ?_)
      rw [hlog, sessionOf_append fun e he => Entry.not_started_of_turns (hes e he).1] at hmem
      rcases List.mem_append.mp hmem with hmem | hmem
      · exact absurd (hes _ hmem).2.1 (by simp [Entry.isCleared])
      · exact ⟨auth, setup2, paired, hmem⟩

/-- What a step does to a session: it begins one, changes the configuration, begins an attempt, ends
a pair-verify, or leaves all of that alone. -/
inductive Turns (c c' : Core) : Prop
  | fresh (h : c' = c.fresh) (hidle : c.state = .idle)
  | configured (auth : Auth) (airplay2 : Bool) (h : c' = { c with
      auth := auth, airplay2 := airplay2, log := .configured auth airplay2 c.strict :: c.log })
  | guarded (strict : Bool) (h : c' = { c with
      strict := strict, log := .guarded strict :: c.log })
  | attempt (auth : Auth) (h : c' = { c with
      auth := auth, keys := some {}, log := .pairing auth :: c.log }) (hat : Attempt c auth)
      (hstate : c.state = .pairing)
  | verified (keys : Keys) (e : Entry) (hstrict : c'.strict = c.strict) (hauth : c'.auth = c.auth)
      (hstage : c'.stage = .verifyDone) (hlog : c'.log = .staged .verifyDone :: e :: c.log)
      (he : e.turns = false ∧ c.Says e ∧ ¬ Traffic e)
      (hproof : c.strict = true → Signed c.log keys.accessoryLtpk)
  | continues (h : Continues c c')

omit [Primitives] in
theorem Follows.agreed {st st' : PairStage} {method : Octets} (h : Follows st st')
    (hm : st'.setupMethod = some method) : st.agreed := by
  cases h with
  | info | session | record => simp [PairStage.agreed, PairStage.postAuth]
  | _ => cases hm

omit [Primitives] in
theorem Follows.not_agreed {st st' : PairStage} (h : Follows st st') (hp : st'.pairing = true) :
    ¬ st.agreed ∧ ¬ st'.agreed := by
  cases h with
  | info | session | record => cases hp
  | _ => simp [PairStage.agreed, PairStage.postAuth]

theorem requestEntries_pass {d : Core} {method text : Octets} {isHttp : Bool}
    (h : method ≠ ascii "TEARDOWN" → ¬ (method = ascii "POST" ∧ isHttp = true) → Cleared c.log) :
    ∀ e ∈ d.requestEntries method isHttp text, c.Passes e := by
  intro e he
  rcases mem_requestEntries he with ⟨_, rfl⟩ | ⟨_, _, _, _, rfl⟩ | rfl
  · exact ⟨rfl, rfl, trivial, False.elim⟩
  · exact ⟨rfl, rfl, trivial, False.elim⟩
  · exact ⟨rfl, rfl, trivial, fun ht => h ht.1 ht.2⟩

theorem receiveEntries_pass {key bytes : Octets} :
    ∀ e ∈ c.receiveEntries key bytes, c.Passes e := by
  intro e he
  rcases mem_receiveEntries he with ⟨_, _, rfl⟩ | rfl <;> exact ⟨rfl, rfl, trivial, False.elim⟩

theorem Step.turns (hflow : Flow c) (hs : Step k c c') : Turns c c' := by
  have hes (es : List Entry) (hstrict : c'.strict = c.strict) (hauth : c'.auth = c.auth)
      (hlog : c'.log = es ++ c.log)
      (hes : ∀ e ∈ es, c.Passes e) (hagreed : c'.stage.agreed ↔ c.stage.agreed) : Turns c c' :=
    .continues (.of_log hstrict hauth hlog hes hagreed)
  have hone {e : Entry} (hstrict : c'.strict = c.strict) (hauth : c'.auth = c.auth)
      (hlog : c'.log = e :: c.log) (he : c.Passes e) (hstage : c'.stage = c.stage) : Turns c c' := by
    refine hes [e] hstrict hauth hlog ?_ (by rw [hstage])
    intro x hx
    rw [List.mem_singleton.mp hx]
    exact he
  have hnone (hstrict : c'.strict = c.strict) (hauth : c'.auth = c.auth) (hlog : c'.log = c.log)
      (hstage : c'.stage = c.stage) : Turns c c' :=
    hes [] hstrict hauth hlog (by simp) (by rw [hstage])
  have hnot {st : PairStage} (heq : c.stage = st) (h : ¬ st.agreed) : ¬ c.stage.agreed := heq ▸ h
  cases hs with
  | restart _ hidle => exact .fresh rfl hidle
  | configure _ auth airplay2 => exact .configured auth airplay2 rfl
  | guard _ strict => exact .guarded strict rfl
  | attempt _ auth hat _ hst => exact .attempt auth rfl hat hst
  | verifyKeys _ keys key nonce pt _ _ _ _ _ _ _ _ _ hproof =>
    exact .verified keys (.sealed .verifyM3 key nonce [] pt) rfl rfl rfl rfl ⟨rfl, trivial, id⟩ hproof
  | signature _ keys message sig _ hkeys =>
    exact hone rfl rfl rfl ⟨rfl, rfl, ⟨keys, hkeys, rfl⟩, False.elim⟩ rfl
  | teardown _ text =>
    refine hes (.tcpClose .control true ::
      (((c.ending true).request (ascii "TEARDOWN") false text).rewindEntries ++
        ((c.ending true).requestEntries (ascii "TEARDOWN") false text ++
          [.ending c.state c.waiting true]))) rfl rfl
      (by simp [Core.closed, Core.rewind, Core.request, Core.requestEntries, Core.ending]) ?_ Iff.rfl
    intro e he
    rcases List.mem_cons.mp he with rfl | he
    · exact ⟨rfl, rfl, trivial, False.elim⟩
    rcases List.mem_append.mp he with he | he
    · rw [mem_rewindEntries he]
      exact ⟨rfl, rfl, trivial, False.elim⟩
    rcases List.mem_append.mp he with he | he
    · exact requestEntries_pass (fun hne => absurd rfl hne) e he
    · rw [List.mem_singleton.mp he]
      exact ⟨rfl, rfl, trivial, False.elim⟩
  | request _ method isHttp text hcause =>
    refine hes _ rfl rfl Core.request_log (requestEntries_pass fun _ hpost => ?_) Iff.rfl
    cases hcause with
    | post => exact absurd ⟨rfl, rfl⟩ hpost
    | options hhead =>
      obtain ⟨auth, paired, hhead⟩ := hhead
      obtain ⟨rest, hlog⟩ := List.head?_eq_some_iff.mp hhead
      exact ⟨auth, false, paired, by rw [hlog]; exact List.mem_cons_self⟩
    | next _ _ _ hc => exact hc
    | stream hst => exact hflow.live (.inr (.inl hst))
  | reask _ method text _ _ _ hc =>
    exact hes _ rfl rfl Core.request_log (requestEntries_pass fun _ _ => hc) Iff.rfl
  | setup _ stage method text hf hmethod _ _ _ hc =>
    refine hes (Core.requestEntries { c with stage := stage, log := .staged stage :: c.log } method
      true text ++ [.staged stage]) rfl rfl (by simp [Core.request_log]) ?_ ?_
    · intro e he
      rcases List.mem_append.mp he with he | he
      · exact requestEntries_pass (fun _ _ => hc) e he
      · rw [List.mem_singleton.mp he]
        refine ⟨?_, rfl, trivial, False.elim⟩
        cases stage with
        | verifyDone => cases hmethod
        | _ => rfl
    · have hpost := PairStage.postAuth_of_setupMethod hmethod
      exact iff_of_true (.inr (.inr hpost)) (hf.agreed hmethod)
  | stream _ keys text hstage =>
    have hc : Cleared c.log := hflow.live (.inr (.inr (.inr (.inr (.inl hstage)))))
    refine hes (Core.requestEntries { c with
        keys := some { keys with
          audioKey := keys.secret.take 32, audioNonce := 0, encryptAudio := true }
        stage := .ap2Stream
        log := .staged .ap2Stream :: c.log } (ascii "SETUP") true text ++ [.staged .ap2Stream])
      rfl rfl (by simp [Core.request_log]) ?_ ?_
    · intro e he
      rcases List.mem_append.mp he with he | he
      · exact requestEntries_pass (fun _ _ => hc) e he
      · rw [List.mem_singleton.mp he]
        exact ⟨rfl, rfl, trivial, False.elim⟩
    · exact iff_of_true (.inr (.inr (.inr (.inr (.inr rfl)))))
        (.inr (.inr (.inr (.inr (.inl hstage)))))
  | enter _ _ hc =>
    refine hes [.entered] rfl rfl rfl ?_ Iff.rfl
    intro e he
    rw [List.mem_singleton.mp he]
    exact ⟨rfl, rfl, trivial, fun _ => hc⟩
  | datagram _ u dest bytes _ hmedia =>
    refine hes [.udpSend u dest bytes] rfl rfl rfl ?_ Iff.rfl
    intro e he
    rw [List.mem_singleton.mp he]
    exact ⟨rfl, rfl, trivial, fun ht => hflow.live (.inr (.inl (hmedia ht)))⟩
  | receiveSealed => exact hes _ rfl rfl rfl receiveEntries_pass Iff.rfl
  | receiveBroken _ keys bytes =>
    refine hes (.ending c.state c.waiting false :: c.receiveEntries keys.controlIn bytes) rfl rfl rfl
      ?_ Iff.rfl
    intro e he
    rcases List.mem_cons.mp he with rfl | he
    · exact ⟨rfl, rfl, trivial, False.elim⟩
    · exact receiveEntries_pass e he
  | receiveEvent =>
    refine hes _ rfl rfl rfl ?_ Iff.rfl
    intro e he
    rcases mem_eventReadEntries he with rfl | ⟨_, _, rfl⟩ | rfl <;> exact ⟨rfl, rfl, trivial, False.elim⟩
  | stage _ stage hf hp =>
    refine hes [.staged stage] rfl rfl rfl ?_ ?_
    · intro e he
      rw [List.mem_singleton.mp he]
      refine ⟨?_, rfl, trivial, False.elim⟩
      generalize c.stage = before at hf
      cases hf <;> rfl
    · obtain ⟨hbefore, hafter⟩ := hf.not_agreed hp
      exact iff_of_false hafter hbefore
  | srpAgreed _ _ pin K hstage _ _ _ hpin =>
    refine hes [.staged .setupM4, .srpAgreed pin K] rfl rfl rfl ?_
      (iff_of_false ?_ (hnot hstage ?_))
    · intro e he
      simp only [List.mem_cons, List.not_mem_nil, or_false] at he
      rcases he with rfl | rfl
      · exact ⟨rfl, rfl, trivial, False.elim⟩
      · exact ⟨rfl, rfl, hpin.imp_left And.left, False.elim⟩
    · simp [PairStage.agreed, PairStage.postAuth]
    · simp [PairStage.agreed, PairStage.postAuth]
  | setupM5 _ _ _ _ _ hstage =>
    refine hes [_, _] rfl rfl rfl (by simp [Core.Passes, Entry.turns, Entry.isCleared, Core.Says, Traffic])
      (iff_of_false ?_ (hnot hstage ?_)) <;> simp [PairStage.agreed, PairStage.postAuth]
  | verified _ hstage =>
    exact hes [] rfl rfl rfl (by simp) (iff_of_true (.inr (.inl rfl)) (.inl hstage))
  | authSetupDone _ hstage hauth =>
    refine .continues ⟨rfl, rfl, ⟨[], rfl, by simp⟩, fun _ => .inr (.inl rfl), ?_⟩
    intro _ hhap
    rw [hauth] at hhap
    cases hhap
  | transientKeys _ _ _ _ _ hstage _ hauth _ _ _ hproof =>
    refine .continues ⟨rfl, rfl, ⟨[_], rfl, ?_⟩, fun _ => .inr (.inl rfl), ?_⟩
    · simp [Entry.turns, Core.Says, Traffic]
    · intro hstrict _ _
      refine .inr ⟨hauth, hstage, hproof hstrict, ?_⟩
      rw [attemptOf_cons rfl, hauth]
      exact List.mem_cons_self
  | clear _ setup2 hstage =>
    refine .continues ⟨rfl, rfl, ⟨[_], rfl, ?_⟩, id, ?_⟩
    · simp [Entry.turns, Core.Says, Traffic]
    · intro _ hhap _
      rcases hstage with ⟨hstage, -⟩ | ⟨-, hauth | hauth, -⟩
      · exact .inl (.inl (.inr (.inl hstage)))
      · rw [hauth] at hhap
        cases hhap
      · rw [hauth] at hhap
        cases hhap
  | disconnect | lapse | retry | beginPairing | srpStart | forget | agreed | unretry =>
    exact hnone rfl rfl rfl rfl
  | receivePlain | answerEvent | leave | typed =>
    exact hes [_, _] rfl rfl rfl (by simp [Core.Passes, Entry.turns, Entry.isCleared, Core.Says, Traffic]) Iff.rfl
  | _ => exact hone rfl rfl rfl ⟨rfl, rfl, trivial, False.elim⟩ rfl

/-! ## 3. Authentication comes first -/

/-- What strict authentication relies on. -/
structure Checked (c : Core) : Prop where
  config : strictly c.log = true → c.strict = true ∧ c.auth.hap = true
  staged : .staged .verifyDone ∈ attemptOf c.log → c.stage.agreed
  through : strictly c.log = true → c.Through → Authenticated c.log
  vetted : Always Vetted c.log

theorem Checked.init : Checked {} where
  config h := by cases h
  staged h := by cases h
  through h := by cases h
  vetted := trivial

/-- An entry that is not for authenticated receivers. -/
theorem Checked.vetted_cons (h : Checked c) {e : Entry} (he : ¬ Traffic e) :
    Always Vetted (e :: c.log) :=
  ⟨fun _ ht => absurd ht he, h.vetted⟩

theorem Checked.fresh (h : Checked c) : Checked c.fresh where
  config hs := by
    simpa only [Core.fresh, strictly, Bool.and_eq_true] using hs
  staged hm := by
    rw [attemptOf, Core.fresh, sessionOf_started] at hm
    cases hm
  through _ ht := absurd ht c.not_through_fresh
  vetted := h.vetted_cons id

/-- **A step that turns nothing** keeps what is there, and adds a proof where it ends a pairing. -/
theorem Checked.continues (h : Checked c) (hs : Continues c c') : Checked c' := by
  obtain ⟨es, hlog, hes⟩ := hs.log
  have hturns : ∀ e ∈ es, e.turns = false := fun e he => (hes e he).1
  have hstrictly : strictly c'.log = strictly c.log := by
    rw [hlog, strictly_append hturns]
  have hattempt : attemptOf c'.log = es ++ attemptOf c.log := by
    rw [hlog, attemptOf_append fun e he => Entry.isPlain_of_turns (hturns e he)]
  have hkeep (ha : Authenticated c.log) : Authenticated c'.log := by
    rw [hlog]
    exact ha.append_of_turns hturns
  constructor
  · intro hst
    rw [hs.strict, hs.auth]
    exact h.config (hstrictly ▸ hst)
  · intro hmem
    rw [hattempt] at hmem
    rcases List.mem_append.mp hmem with hmem | hmem
    · exact absurd (hturns _ hmem) (by simp [Entry.turns])
    · exact hs.agreed (h.staged hmem)
  · intro hst ht
    rw [hstrictly] at hst
    obtain ⟨hstrict, hhap⟩ := h.config hst
    rcases hs.through hstrict hhap ht with ht | ⟨-, hstage, hproof, hconcluded⟩
    · exact hkeep (h.through hst ht)
    · refine .inr ⟨fun hmem => ?_, hconcluded, ?_⟩
      · rw [hattempt] at hmem
        rcases List.mem_append.mp hmem with hmem | hmem
        · exact absurd (hturns _ hmem) (by simp [Entry.turns])
        · have hagreed := h.staged hmem
          rw [hstage] at hagreed
          simp [PairStage.agreed, PairStage.postAuth] at hagreed
      · rw [hlog]
        exact hproof.append fun e he => Entry.isPlain_of_turns (hturns e he)
  · rw [hlog]
    refine h.vetted.append_of_suffix fun e older hsuffix hst ht => ?_
    have holder : ∀ x ∈ older, x.turns = false := fun x hx =>
      hturns x (hsuffix.subset (List.mem_cons_of_mem e hx))
    have hc := (hes e (hsuffix.subset List.mem_cons_self)).2.2 ht
    rw [strictly_append holder] at hst
    exact (h.through hst (.inr hc)).append_of_turns holder

/-- The configuration changes, and the session with it only if it stays strict. -/
theorem Checked.reconfigured (h : Checked c) {e : Entry} (hlog : c'.log = e :: c.log)
    (hplain : e.isPlain = true) (hcl : e.isCleared = false) (he : ¬ Traffic e)
    (hne : e ≠ .staged .verifyDone) (hstage : c'.stage = c.stage)
    (hstrictly : strictly c'.log = true →
      c'.strict = true ∧ c'.auth.hap = true ∧ strictly c.log = true) : Checked c' := by
  have hattempt : attemptOf c'.log = e :: attemptOf c.log := by rw [hlog, attemptOf_cons hplain]
  refine ⟨fun hst => ?_, fun hm => ?_, fun hst ht => ?_, ?_⟩
  · exact ⟨(hstrictly hst).1, (hstrictly hst).2.1⟩
  · rw [hattempt] at hm
    rw [hstage]
    exact h.staged ((List.mem_cons.mp hm).resolve_left hne.symm)
  · have hthrough : c.Through := by
      unfold Core.Through at ht ⊢
      rw [hstage, hlog] at ht
      refine ht.imp_right fun hc => ((cleared_cons ?_).mp hc).resolve_left (by simp [hcl])
      simp only [Entry.isPlain, Bool.and_eq_true, Bool.not_eq_true'] at hplain
      exact hplain.1
    have hsplit : e :: c.log = [e] ++ c.log := rfl
    rw [hlog, hsplit]
    refine (h.through (hstrictly hst).2.2 hthrough).append ?_ ?_
    · simpa using hplain
    · simpa using hne.symm
  · rw [hlog]
    exact h.vetted_cons he

/-- **Authentication comes first.** -/
theorem Checked.step (h : Checked c) (hflow : Flow c) (hs : Step k c c') : Checked c' := by
  cases hs.turns hflow with
  | fresh hc =>
    rw [hc]
    exact h.fresh
  | configured auth airplay2 hc =>
    rw [hc]
    refine h.reconfigured rfl rfl rfl id nofun rfl fun hst => ?_
    simp only [strictly, Bool.and_eq_true] at hst
    exact ⟨hst.1.1, hst.1.2, hst.2⟩
  | guarded strict hc =>
    rw [hc]
    refine h.reconfigured rfl rfl rfl id nofun rfl fun hst => ?_
    simp only [strictly, Bool.and_eq_true] at hst
    exact ⟨hst.1, (h.config hst.2).2, hst.2⟩
  | attempt auth hc hat hstate =>
    have hnot := hat.not_through hflow hstate
    rw [hc]
    refine ⟨fun hst => ?_, fun hm => ?_, fun _ ht => ?_, h.vetted_cons id⟩
    · obtain ⟨hstrict, hhap⟩ := h.config (by simpa [strictly] using hst)
      refine ⟨hstrict, ?_⟩
      rcases hat with ⟨-, rfl, -⟩ | ⟨-, -, rfl⟩ | ⟨-, rfl, -⟩
      · exact hhap
      · rfl
      · rfl
    · rw [attemptOf_pairing] at hm
      cases hm
    · refine absurd (ht.imp_right fun hcl => ?_) hnot
      exact ((cleared_cons rfl).mp hcl).resolve_left (by simp [Entry.isCleared])
  | verified keys e hstrict hauth hstage hlog he hproof =>
    have hattempt : attemptOf c'.log = .staged .verifyDone :: e :: attemptOf c.log := by
      rw [hlog, attemptOf_cons rfl, attemptOf_cons (Entry.isPlain_of_turns he.1)]
    have hstrictly : strictly c'.log = strictly c.log := by
      rw [hlog]
      exact strictly_cons he.1
    constructor
    · intro hst
      rw [hstrict, hauth]
      exact h.config (hstrictly ▸ hst)
    · intro _
      rw [hstage]
      exact .inl rfl
    · intro hst _
      have hsigned := hproof (h.config (hstrictly ▸ hst)).1
      refine .inl ⟨?_, keys.accessoryLtpk, ?_⟩
      · rw [hattempt]
        exact List.mem_cons_self
      · have hsplit : .staged .verifyDone :: e :: c.log = [.staged .verifyDone, e] ++ c.log := rfl
        rw [hlog, hsplit]
        refine hsigned.append fun x hx => ?_
        simp only [List.mem_cons, List.not_mem_nil, or_false] at hx
        rcases hx with rfl | rfl
        · rfl
        · exact Entry.isPlain_of_turns he.1
    · rw [hlog]
      exact ⟨fun _ ht => ht.elim, fun _ ht => absurd ht he.2.2, h.vetted⟩
  | continues hc => exact h.continues hc

/-- **Strict authentication**, in every run: in a session that is strict and pairs, no request but
the pairing posts, no keep-alive, no audio and no sync packet goes out, and no stream begins, before
the check of the pairing that the session came through has succeeded. -/
theorem strict_authenticated {w : World} (h : Reachable w) : Always Vetted w.log := by
  have hchecked : Checked (coreOf w) := h.induct Checked.init fun hflow hs hi => hi.step hflow hs
  exact hchecked.vetted

/-! ## 4. The key behind a signature -/

/-- The key with which pair-setup seals, of an SRP key. -/
def setupKeyOf (K : Octets) : Octets :=
  hkdfSha512 "Pair-Setup-Encrypt-Salt" "Pair-Setup-Encrypt-Info" K

/-- The long-term key of a receiver, in this attempt: stored, or learned in an M6 sealed under the
SRP key of some PIN. -/
def Sourced (log : List Entry) (ltpk : Octets) : Prop :=
  (∃ json, .ltpkStored json ltpk ∈ attemptOf log) ∨
    ∃ pin K, .srpAgreed pin K ∈ attemptOf log ∧ .ltpkLearned (setupKeyOf K) ltpk ∈ attemptOf log

/-- The signature of the receiver was verified under its long-term key: the stored one, or the one
learned in an M6 sealed under the SRP key of a PIN that was typed. -/
def Vouched (log : List Entry) : Prop :=
  ∃ ltpk, Signed log ltpk ∧
    ((∃ json, .ltpkStored json ltpk ∈ attemptOf log) ∨
      ∃ live pin K, .typed live pin ∈ sessionOf log ∧ .srpAgreed pin K ∈ attemptOf log ∧
        .ltpkLearned (setupKeyOf K) ltpk ∈ attemptOf log)

/-- The pairing that `setAuth` asked for last. -/
def chosen : List Entry → Auth
  | [] => .none
  | .configured auth _ _ :: _ => auth
  | _ :: older => chosen older

/-- The session is strict, and PIN pairing is what `setAuth` asked for when it was started and
whenever it was called since. -/
def strictPin : List Entry → Bool
  | [] => false
  | .started _ _ strict :: older => strict && chosen older == .hapPin
  | .configured auth _ strict :: older => strict && auth == .hapPin && strictPin older
  | .guarded strict :: older => strict && strictPin older
  | _ :: older => strictPin older

/-- The entry of a `setAuth`. -/
def Entry.isConfigured : Entry → Bool
  | .configured .. => true
  | _ => false

/-- The entries since `setAuth` was called last. -/
def lately (log : List Entry) : List Entry := log.takeWhile fun e => !e.isConfigured

/-- The entries of the session, and those before it back to the `setAuth` it was configured by. -/
def sinceAuth (log : List Entry) : List Entry :=
  sessionOf log ++ lately (log.drop (sessionOf log).length)

/-- A receiver refused to show a PIN, in this session or since the `setAuth` before it. -/
def Refused (log : List Entry) : Prop := .refused403 ∈ sinceAuth log

/-- What a strict PIN session says of an entry and the entries before it. -/
def PinVetted (e : Entry) (older : List Entry) : Prop :=
  strictPin older = true → Traffic e → Vouched older ∨ (Refused older ∧ Authenticated older)

/-- A step that adds to the attempt. -/
def Onward (c c' : Core) : Prop :=
  ∃ es, c'.log = es ++ c.log ∧ ∀ e ∈ es, e.isPlain = true ∧ c.Says e

omit [Primitives] in
theorem Onward.attempt (h : Onward c c') {e : Entry} (he : e ∈ attemptOf c.log) :
    e ∈ attemptOf c'.log := by
  obtain ⟨es, hlog, hes⟩ := h
  rw [hlog, attemptOf_append fun x hx => (hes x hx).1]
  exact List.mem_append_right _ he

/-- A step begins a session, begins an attempt, or adds to the one there is. -/
theorem Step.grows (hflow : Flow c) (hs : Step k c c') : c' = c.fresh ∨
    (∃ auth, c'.keys = some {} ∧ c'.stage = c.stage ∧ c'.log = .pairing auth :: c.log ∧ Attempt c auth) ∨
    Onward c c' := by
  cases hs.turns hflow with
  | fresh hc => exact .inl hc
  | configured _ _ hc | guarded _ hc =>
    rw [hc]
    exact .inr (.inr ⟨[_], rfl, by simp [Entry.isPlain, Entry.isStarted, Entry.isPairing, Core.Says]⟩)
  | attempt auth hc hat =>
    rw [hc]
    exact .inr (.inl ⟨auth, rfl, rfl, rfl, hat⟩)
  | verified keys e _ _ _ hlog he =>
    refine .inr (.inr ⟨[_, e], hlog, ?_⟩)
    intro x hx
    simp only [List.mem_cons, List.not_mem_nil, or_false] at hx
    rcases hx with rfl | rfl
    · exact ⟨rfl, trivial⟩
    · exact ⟨Entry.isPlain_of_turns he.1, he.2.1⟩
  | continues hc =>
    obtain ⟨es, hlog, hes⟩ := hc.log
    exact .inr (.inr ⟨es, hlog, fun e he => ⟨Entry.isPlain_of_turns (hes e he).1, (hes e he).2.1⟩⟩)

/-- Where the keys of a pairing come from. -/
structure Rooted (c : Core) : Prop where
  srp : ∀ keys K, c.stage = .setupM4 → c.keys = some keys → keys.srpK = some K →
    ∃ pin, .srpAgreed pin K ∈ attemptOf c.log
  setupKey : c.stage = .setupM6 → c.keys ≠ none → c.setupKey.length = 32 →
    ∃ pin K, .srpAgreed pin K ∈ attemptOf c.log ∧ c.setupKey = setupKeyOf K
  ltpk : ∀ keys, c.keys = some keys → keys.accessoryLtpk ≠ [] → Sourced c.log keys.accessoryLtpk
  signed : ∀ ltpk message sig, .signature ltpk message sig ∈ attemptOf c.log → ltpk ≠ [] →
    Sourced c.log ltpk

theorem Rooted.init : Rooted {} where
  srp _ _ h := by cases h
  setupKey h := by cases h
  ltpk _ h := by cases h
  signed _ _ _ h := by cases h

theorem Sourced.grows {ltpk : Octets} (h : Sourced c.log ltpk) (hg : Onward c c') :
    Sourced c'.log ltpk := by
  rcases h with ⟨json, hmem⟩ | ⟨pin, K, hagreed, hlearned⟩
  · exact .inl ⟨json, hg.attempt hmem⟩
  · exact .inr ⟨pin, K, hg.attempt hagreed, hg.attempt hlearned⟩

/-- The SRP key of M4 is the one that was agreed on. -/
theorem Rooted.srp_step (h : Rooted c) (hflow : Flow c) (hs : Step k c c') :
    ∀ keys K, c'.stage = .setupM4 → c'.keys = some keys → keys.srpK = some K →
      ∃ pin, .srpAgreed pin K ∈ attemptOf c'.log := by
  intro keys K hst hkeys hK
  have hkeep (hold : ∃ pin, .srpAgreed pin K ∈ attemptOf c.log) :
      ∃ pin, .srpAgreed pin K ∈ attemptOf c'.log := by
    rcases hs.grows hflow with hfresh | ⟨auth, hnew, -⟩ | hg
    · rw [hfresh] at hkeys
      cases hkeys
    · obtain rfl := Option.some.inj (hnew.symm.trans hkeys)
      cases hK
    · obtain ⟨pin, hmem⟩ := hold
      exact ⟨pin, hg.attempt hmem⟩
  cases hs with
  | restart => cases hst
  | attempt _ _ hat =>
    rcases hat with ⟨heq, _⟩ | ⟨heq, _⟩ | ⟨heq, _⟩ <;> exact absurd (heq.symm.trans hst) (by simp)
  | stage _ st hf =>
    generalize c.stage = before at hf
    cases hf <;> cases hst
  | setup _ st _ _ _ hm =>
    obtain rfl : st = .setupM4 := hst
    cases hm
  | authSetupDone | verified | transientKeys | verifyKeys | stream | setupM5 => cases hst
  | srpStart _ _ heq => exact absurd (heq.symm.trans hst) (by simp)
  | srpAgreed _ _ pin K' =>
    obtain rfl := Option.some.inj hkeys
    obtain rfl := Option.some.inj hK
    refine ⟨pin, ?_⟩
    rw [attemptOf_cons rfl, attemptOf_cons rfl]
    exact List.mem_cons_of_mem _ List.mem_cons_self
  | learn _ _ _ heq => exact absurd (heq.symm.trans hst) (by simp)
  | stored _ _ _ _ heq => exact absurd (heq.symm.trans hst) (by simp)
  | agreed _ _ _ heq => exact absurd (heq.symm.trans hst) (by simp)
  | sealAudio _ old _ _ _ hold =>
    obtain rfl := Option.some.inj hkeys
    exact hkeep (h.srp old K hst hold hK)
  | _ => exact hkeep (h.srp keys K hst hkeys hK)

/-- The key of M5 and M6 is made of it. -/
theorem Rooted.setupKey_step (h : Rooted c) (hflow : Flow c) (hs : Step k c c') :
    c'.stage = .setupM6 → c'.keys ≠ none → c'.setupKey.length = 32 →
      ∃ pin K, .srpAgreed pin K ∈ attemptOf c'.log ∧ c'.setupKey = setupKeyOf K := by
  intro hst hkeys hlen
  have hkeep {key : Octets} (hold : ∃ pin K, .srpAgreed pin K ∈ attemptOf c.log ∧ key = setupKeyOf K)
      (hno : c.stage ≠ .none ∧ c.stage ≠ .setupM2 ∧ c.stage ≠ .pinStart) :
      ∃ pin K, .srpAgreed pin K ∈ attemptOf c'.log ∧ key = setupKeyOf K := by
    rcases hs.grows hflow with hfresh | ⟨auth, -, -, -, hat⟩ | hg
    · exact absurd (congrArg Core.keys hfresh) hkeys
    · rcases hat with ⟨heq, _⟩ | ⟨heq, _⟩ | ⟨heq, _⟩
      · exact absurd heq hno.1
      · exact absurd heq hno.2.1
      · exact absurd heq hno.2.2
    · obtain ⟨pin, K, hmem, hkey⟩ := hold
      exact ⟨pin, K, hg.attempt hmem, hkey⟩
  have hsame (hst : c.stage = .setupM6) (hkeys : c.keys ≠ none) (hlen : c.setupKey.length = 32) :
      ∃ pin K, .srpAgreed pin K ∈ attemptOf c'.log ∧ c.setupKey = setupKeyOf K :=
    hkeep (h.setupKey hst hkeys hlen) (by simp [hst])
  cases hs with
  | restart => cases hst
  | attempt _ _ hat =>
    rcases hat with ⟨heq, _⟩ | ⟨heq, _⟩ | ⟨heq, _⟩ <;> exact absurd (heq.symm.trans hst) (by simp)
  | stage _ st hf =>
    generalize c.stage = before at hf
    cases hf <;> cases hst
  | setup _ st _ _ _ hm =>
    obtain rfl : st = .setupM6 := hst
    cases hm
  | authSetupDone | verified | transientKeys | verifyKeys | stream | srpAgreed => cases hst
  | setupM5 _ keys K _ _ heq _ _ hold hsrp =>
    obtain ⟨pin, hmem⟩ := h.srp keys K heq hold hsrp
    exact hkeep ⟨pin, K, hmem, rfl⟩ (by simp [heq])
  | forget => cases hlen
  | srpStart _ _ heq => exact absurd (heq.symm.trans hst) (by simp)
  | stored _ _ _ _ heq => exact absurd (heq.symm.trans hst) (by simp)
  | agreed _ _ _ heq => exact absurd (heq.symm.trans hst) (by simp)
  | learn _ _ _ _ hold => exact hsame hst (by simp [hold]) hlen
  | sealAudio _ _ _ _ _ hold => exact hsame hst (by simp [hold]) hlen
  | _ => exact hsame hst hkeys hlen

/-- A long-term key is stored or learned. -/
theorem Rooted.ltpk_step (h : Rooted c) (hflow : Flow c) (hs : Step k c c') :
    ∀ keys, c'.keys = some keys → keys.accessoryLtpk ≠ [] → Sourced c'.log keys.accessoryLtpk := by
  intro keys hkeys hne
  have hkeep {old : Keys} (hold : c.keys = some old) (heq : old.accessoryLtpk = keys.accessoryLtpk) :
      Sourced c'.log keys.accessoryLtpk := by
    rcases hs.grows hflow with hfresh | ⟨auth, hnew, -⟩ | hg
    · rw [hfresh] at hkeys
      cases hkeys
    · obtain rfl := Option.some.inj (hnew.symm.trans hkeys)
      exact absurd rfl hne
    · rw [← heq] at hne ⊢
      exact (h.ltpk old hold hne).grows hg
  cases hs with
  | restart => cases hkeys
  | attempt =>
    obtain rfl := Option.some.inj hkeys
    exact absurd rfl hne
  | learn _ old ltpk heq hold hlen =>
    obtain rfl := Option.some.inj hkeys
    obtain ⟨pin, K, hmem, hkey⟩ := h.setupKey heq (by simp [hold]) hlen
    refine .inr ⟨pin, K, ?_, ?_⟩
    · rw [attemptOf_cons rfl]
      exact List.mem_cons_of_mem _ hmem
    · rw [attemptOf_cons rfl, hkey]
      exact List.mem_cons_self
  | stored _ old json creds heq hold =>
    obtain rfl := Option.some.inj hkeys
    refine .inl ⟨json, ?_⟩
    rw [attemptOf_cons rfl]
    exact List.mem_cons_self
  | srpStart _ _ _ _ hold | srpAgreed _ _ _ _ _ _ hold | transientKeys _ _ _ _ _ _ _ _ hold
  | agreed _ _ _ _ hold | verifyKeys _ _ _ _ _ _ _ _ _ _ _ hold | stream _ _ _ _ _ _ _ hold
  | sealAudio _ _ _ _ _ hold =>
    obtain rfl := Option.some.inj hkeys
    exact hkeep hold rfl
  | _ => exact hkeep hkeys rfl

/-- A signature is checked under such a key. -/
theorem Rooted.signed_step (h : Rooted c) (hflow : Flow c) (hs : Step k c c') :
    ∀ ltpk message sig, .signature ltpk message sig ∈ attemptOf c'.log → ltpk ≠ [] →
      Sourced c'.log ltpk := by
  intro ltpk message sig hmem hne
  rcases hs.grows hflow with hfresh | ⟨auth, -, -, hlog, -⟩ | hg
  · rw [hfresh, attemptOf, Core.fresh, sessionOf_started] at hmem
    cases hmem
  · rw [hlog, attemptOf_pairing] at hmem
    cases hmem
  · obtain ⟨es, hlog, hes⟩ := id hg
    rw [hlog, attemptOf_append fun e he => (hes e he).1] at hmem
    rcases List.mem_append.mp hmem with hmem | hmem
    · obtain ⟨keys, hkeys, rfl⟩ := (hes _ hmem).2
      exact (h.ltpk keys hkeys hne).grows hg
    · exact (h.signed ltpk message sig hmem hne).grows hg

theorem Rooted.step (h : Rooted c) (hflow : Flow c) (hs : Step k c c') : Rooted c' where
  srp := h.srp_step hflow hs
  setupKey := h.setupKey_step hflow hs
  ltpk := h.ltpk_step hflow hs
  signed := h.signed_step hflow hs

/-! ## 5. PIN pairing -/

/-- The entries that decide whether a session is a strict PIN session. -/
def Entry.sets : Entry → Bool
  | .started .. => true
  | .configured .. => true
  | .guarded _ => true
  | _ => false

section Chosen

omit [Primitives]

variable {e : Entry} {es log : List Entry}

theorem Entry.sets_of_turns (h : e.turns = false) : e.sets = false := by
  cases e with
  | started | configured | guarded => cases h
  | _ => rfl

theorem chosen_append (h : ∀ e ∈ es, e.sets = false) : chosen (es ++ log) = chosen log := by
  induction es with
  | nil => rfl
  | cons e es ih =>
    have ih := ih fun x hx => h x (List.mem_cons_of_mem e hx)
    have he := h e List.mem_cons_self
    cases e with
    | configured => cases he
    | _ => exact ih

theorem strictPin_append (h : ∀ e ∈ es, e.sets = false) : strictPin (es ++ log) = strictPin log := by
  induction es with
  | nil => rfl
  | cons e es ih =>
    have ih := ih fun x hx => h x (List.mem_cons_of_mem e hx)
    have he := h e List.mem_cons_self
    cases e with
    | started | configured | guarded => cases he
    | _ => exact ih

theorem strictly_append_of_sets (h : ∀ e ∈ es, e.sets = false) :
    strictly (es ++ log) = strictly log := by
  induction es with
  | nil => rfl
  | cons e es ih =>
    have ih := ih fun x hx => h x (List.mem_cons_of_mem e hx)
    have he := h e List.mem_cons_self
    cases e with
    | started | configured | guarded => cases he
    | _ => exact ih

theorem lately_append (h : ∀ e ∈ es, e.sets = false) : lately (es ++ log) = es ++ lately log := by
  refine List.takeWhile_append_of_pos fun e he => ?_
  have he := h e he
  cases e with
  | configured => cases he
  | _ => rfl

/-- A strict PIN session is one that `setAuth` asked to pair with a PIN. -/
theorem chosen_of_strictPin (h : strictPin log = true) : chosen log = .hapPin := by
  induction log with
  | nil => cases h
  | cons e log ih =>
    cases e with
    | started auth airplay2 strict =>
      simp only [strictPin, Bool.and_eq_true, beq_iff_eq] at h
      exact h.2
    | configured auth airplay2 strict =>
      simp only [strictPin, Bool.and_eq_true, beq_iff_eq] at h
      exact h.1.2
    | guarded strict =>
      simp only [strictPin, Bool.and_eq_true] at h
      exact ih h.2
    | _ => exact ih h

/-- Within a session a strict PIN session was one before. -/
theorem strictPin_of_append (hes : ∀ e ∈ es, e.isPlain = true) (h : strictPin (es ++ log) = true) :
    strictPin log = true := by
  induction es with
  | nil => exact h
  | cons e es ih =>
    have hplain := hes e List.mem_cons_self
    have hrest := fun x hx => hes x (List.mem_cons_of_mem e hx)
    cases e with
    | started => cases hplain
    | configured auth airplay2 strict =>
      simp only [List.cons_append, strictPin, Bool.and_eq_true] at h
      exact ih hrest h.2
    | guarded strict =>
      simp only [List.cons_append, strictPin, Bool.and_eq_true] at h
      exact ih hrest h.2
    | _ => exact ih hrest h

theorem Entry.not_started_of_isPlain (h : e.isPlain = true) : e.isStarted = false := by
  simp only [Entry.isPlain, Bool.and_eq_true, Bool.not_eq_true'] at h
  exact h.1

theorem sinceAuth_append (hes : ∀ e ∈ es, e.isStarted = false) :
    sinceAuth (es ++ log) = es ++ sinceAuth log := by
  unfold sinceAuth
  rw [sessionOf_append hes, List.length_append, ← List.drop_drop, List.drop_left, List.append_assoc]

theorem Refused.append (h : Refused log) (hes : ∀ e ∈ es, e.isStarted = false) :
    Refused (es ++ log) := by
  unfold Refused
  rw [sinceAuth_append hes]
  exact List.mem_append_right _ h

theorem Refused.cons (h : Refused log) (he : e.isStarted = false) : Refused (e :: log) := by
  have hall : ∀ x ∈ [e], x.isStarted = false := by simpa using he
  exact h.append hall

/-- What happened since the last `setAuth` happened since the one before the session. -/
theorem mem_sinceAuth_of_lately (h : e ∈ lately log) : e ∈ sinceAuth log := by
  obtain ⟨before, hbefore⟩ : sessionOf log <+: log := List.takeWhile_prefix _
  have hdrop : log.drop (sessionOf log).length = before := by
    have hleft := congrArg (List.drop (sessionOf log).length) hbefore
    rw [List.drop_left] at hleft
    exact hleft.symm
  unfold sinceAuth
  rw [hdrop]
  rw [← hbefore, lately, List.takeWhile_append] at h
  split at h
  · exact h
  · exact List.mem_append_left _ ((List.takeWhile_prefix _).subset h)

end Chosen

omit [Primitives] in
theorem Onward.session (h : Onward c c') {e : Entry} (he : e ∈ sessionOf c.log) :
    e ∈ sessionOf c'.log := by
  obtain ⟨es, hlog, hes⟩ := h
  rw [hlog, sessionOf_append fun x hx => Entry.not_started_of_isPlain (hes x hx).1]
  exact List.mem_append_right _ he

/-- What `setAuth` asked for is what is tried, as long as no receiver refuses to show a PIN. -/
structure Chosen (c : Core) : Prop where
  hap : chosen c.log = .hapPin → c.auth.hap = true
  pin : chosen c.log = .hapPin → .refused403 ∉ lately c.log → c.auth = .hapPin
  strictly : strictPin c.log = true → strictly c.log = true

omit [Primitives] in
theorem Chosen.init : Chosen {} where
  hap h := by cases h
  pin h := by cases h
  strictly h := by cases h

omit [Primitives] in
theorem Chosen.onward (h : Chosen c) {es : List Entry} (hauth : c'.auth = c.auth)
    (hlog : c'.log = es ++ c.log) (hes : ∀ e ∈ es, e.sets = false) : Chosen c' := by
  constructor
  · rw [hlog, chosen_append hes, hauth]
    exact h.hap
  · rw [hlog, chosen_append hes, hauth, lately_append hes]
    exact fun hc hno => h.pin hc fun hmem => hno (List.mem_append_right _ hmem)
  · rw [hlog, strictPin_append hes, strictly_append_of_sets hes]
    exact h.strictly

theorem Chosen.step (h : Chosen c) (hflow : Flow c) (hs : Step k c c') : Chosen c' := by
  cases hs.turns hflow with
  | fresh hc =>
    rw [hc]
    refine ⟨h.hap, fun hchosen hno => ?_, fun hst => ?_⟩
    · exact h.pin hchosen fun hmem => hno (List.mem_cons_of_mem _ hmem)
    · simp only [Core.fresh, strictPin, AirplaySender.strictly, Bool.and_eq_true, beq_iff_eq] at hst ⊢
      exact ⟨hst.1, h.hap hst.2⟩
  | configured auth airplay2 hc =>
    rw [hc]
    refine ⟨fun hchosen => ?_, fun hchosen _ => hchosen, fun hst => ?_⟩
    · obtain rfl : auth = .hapPin := hchosen
      rfl
    · simp only [strictPin, AirplaySender.strictly, Bool.and_eq_true, beq_iff_eq] at hst ⊢
      obtain ⟨⟨hstrict, rfl⟩, hst⟩ := hst
      exact ⟨⟨hstrict, rfl⟩, h.strictly hst⟩
  | guarded strict hc =>
    rw [hc]
    refine ⟨h.hap, fun hchosen hno => ?_, fun hst => ?_⟩
    · exact h.pin hchosen fun hmem => hno (List.mem_cons_of_mem _ hmem)
    · simp only [strictPin, AirplaySender.strictly, Bool.and_eq_true] at hst ⊢
      exact ⟨hst.1, h.strictly hst.2⟩
  | attempt auth hc hat =>
    rw [hc]
    refine ⟨fun hchosen => ?_, fun hchosen hno => ?_, h.strictly⟩
    · rcases hat with ⟨-, rfl, -⟩ | ⟨-, -, rfl⟩ | ⟨-, rfl, -⟩
      · exact h.hap hchosen
      · rfl
      · rfl
    · have hno : .refused403 ∉ lately c.log := fun hmem => hno (List.mem_cons_of_mem _ hmem)
      have hpin := h.pin hchosen hno
      rcases hat with ⟨-, rfl, -⟩ | ⟨-, htransient, -⟩ | ⟨-, -, hhead⟩
      · exact hpin
      · exact absurd (hpin.symm.trans htransient) (by simp)
      · obtain ⟨rest, hlog⟩ := List.head?_eq_some_iff.mp hhead
        rw [hlog] at hno
        exact absurd List.mem_cons_self hno
  | verified keys e _ hauth _ hlog he =>
    refine @Chosen.onward _ _ h [_, e] hauth hlog fun x hx => ?_
    simp only [List.mem_cons, List.not_mem_nil, or_false] at hx
    rcases hx with rfl | rfl
    · rfl
    · exact Entry.sets_of_turns he.1
  | continues hc =>
    obtain ⟨es, hlog, hes⟩ := hc.log
    exact h.onward hc.auth hlog fun e he => Entry.sets_of_turns (hes e he).1

omit [Primitives] in
/-- A strict PIN session pairs with a PIN. -/
theorem Chosen.auth (h : Chosen c) (hst : strictPin c.log = true) (hno : ¬ Refused c.log) :
    c.auth = .hapPin :=
  h.pin (chosen_of_strictPin hst) fun hmem => hno (mem_sinceAuth_of_lately hmem)

/-- What a strict PIN session relies on, as long as no receiver refuses to show a PIN. -/
structure Pinned (c : Core) : Prop where
  typed : strictPin c.log = true → ¬ Refused c.log → ∀ pin K,
    .srpAgreed pin K ∈ attemptOf c.log → ∃ live, .typed live pin ∈ sessionOf c.log
  verified : strictPin c.log = true → ¬ Refused c.log → c.Through →
    .staged .verifyDone ∈ attemptOf c.log
  vetted : Always PinVetted c.log

theorem Pinned.init : Pinned {} where
  typed h := by cases h
  verified h := by cases h
  vetted := trivial

theorem Vouched.append {es log : List Entry} (h : Vouched log) (hes : ∀ e ∈ es, e.turns = false) :
    Vouched (es ++ log) := by
  have hplain : ∀ e ∈ es, e.isPlain = true := fun x hx => Entry.isPlain_of_turns (hes x hx)
  have hattempt : ∀ e, e ∈ attemptOf log → e ∈ attemptOf (es ++ log) := by
    intro e he
    rw [attemptOf_append hplain]
    exact List.mem_append_right _ he
  have hsession : ∀ e, e ∈ sessionOf log → e ∈ sessionOf (es ++ log) := by
    intro e he
    rw [sessionOf_append fun x hx => Entry.not_started_of_turns (hes x hx)]
    exact List.mem_append_right _ he
  obtain ⟨ltpk, hsigned, hknown⟩ := h
  refine ⟨ltpk, hsigned.append hplain, ?_⟩
  rcases hknown with ⟨json, hstored⟩ | ⟨live, pin, K, htyped, hagreed, hlearned⟩
  · exact .inl ⟨json, hattempt _ hstored⟩
  · exact .inr ⟨live, pin, K, hsession _ htyped, hattempt _ hagreed, hattempt _ hlearned⟩

/-- The SRP key of a PIN session is that of a PIN that was typed. -/
theorem Pinned.typed_step (h : Pinned c) (hchosen : Chosen c) (hflow : Flow c) (hs : Step k c c')
    (hst : strictPin c'.log = true) (hno : ¬ Refused c'.log) :
    ∀ pin K, .srpAgreed pin K ∈ attemptOf c'.log → ∃ live, .typed live pin ∈ sessionOf c'.log := by
  intro pin K hmem
  rcases hs.grows hflow with hfresh | ⟨auth, -, -, hlog, -⟩ | hg
  · rw [hfresh, attemptOf, Core.fresh, sessionOf_started] at hmem
    cases hmem
  · rw [hlog, attemptOf_pairing] at hmem
    cases hmem
  · obtain ⟨es, hlog, hes⟩ := id hg
    have hplain : ∀ e ∈ es, e.isPlain = true := fun e he => (hes e he).1
    rw [hlog] at hst hno
    have hst := strictPin_of_append hplain hst
    have hno : ¬ Refused c.log := fun hr =>
      hno (hr.append fun e he => Entry.not_started_of_isPlain (hplain e he))
    rw [hlog, attemptOf_append hplain] at hmem
    rcases List.mem_append.mp hmem with hmem | hmem
    · rcases (hes _ hmem).2 with htransient | ⟨live, htyped⟩
      · exact absurd ((hchosen.auth hst hno).symm.trans htransient) (by simp)
      · exact ⟨live, hg.session htyped⟩
    · obtain ⟨live, htyped⟩ := h.typed hst hno pin K hmem
      exact ⟨live, hg.session htyped⟩

/-- **Behind a strict PIN pairing stands the key of the receiver.** -/
theorem Pinned.vouched (h : Pinned c) (hchosen : Chosen c) (hchecked : Checked c)
    (hrooted : Rooted c) (hst : strictPin c.log = true) (hno : ¬ Refused c.log) (ht : c.Through) :
    Vouched c.log := by
  have hverified := h.verified hst hno ht
  rcases hchecked.through (hchosen.strictly hst) ht with ⟨-, ltpk, hsigned⟩ | ⟨hnot, -⟩
  · refine ⟨ltpk, hsigned, ?_⟩
    obtain ⟨hne, message, sig, hmem, -⟩ := hsigned
    rcases hrooted.signed ltpk message sig hmem hne with hstored | ⟨pin, K, hagreed, hlearned⟩
    · exact .inl hstored
    · obtain ⟨live, htyped⟩ := h.typed hst hno pin K hagreed
      exact .inr ⟨live, pin, K, htyped, hagreed, hlearned⟩
  · exact absurd hverified hnot

/-- The configuration changes, and the pairing that was made stays. -/
theorem Pinned.reconfigured (h : Pinned c) {e : Entry} (hlog : c'.log = e :: c.log)
    (hplain : e.isPlain = true) (hcl : e.isCleared = false) (he : ¬ Traffic e)
    (hstage : c'.stage = c.stage)
    (htyped : strictPin c'.log = true → ¬ Refused c'.log → ∀ pin K,
      .srpAgreed pin K ∈ attemptOf c'.log → ∃ live, .typed live pin ∈ sessionOf c'.log) :
    Pinned c' := by
  have hall : ∀ x ∈ [e], x.isPlain = true := by simpa using hplain
  have hstarted := Entry.not_started_of_isPlain hplain
  refine ⟨htyped, fun hst hno ht => ?_, ?_⟩
  · rw [hlog] at hst hno
    have hst : strictPin c.log = true := strictPin_of_append hall hst
    have hno : ¬ Refused c.log := fun hr => hno (hr.cons hstarted)
    have hthrough : c.Through := by
      unfold Core.Through at ht ⊢
      rw [hstage, hlog] at ht
      exact ht.imp_right fun hc => ((cleared_cons hstarted).mp hc).resolve_left (by simp [hcl])
    rw [hlog, attemptOf_cons hplain]
    exact List.mem_cons_of_mem _ (h.verified hst hno hthrough)
  · rw [hlog]
    exact ⟨fun _ ht => absurd ht he, h.vetted⟩

theorem Pinned.step (h : Pinned c) (hchosen : Chosen c) (hchecked : Checked c) (hrooted : Rooted c)
    (hflow : Flow c) (hs : Step k c c') : Pinned c' := by
  have htyped := fun hst hno => h.typed_step hchosen hflow hs hst hno
  have hcons {e : Entry} (he : ¬ Traffic e) : Always PinVetted (e :: c.log) :=
    ⟨fun _ ht => absurd ht he, h.vetted⟩
  cases hs.turns hflow with
  | fresh hc =>
    rw [hc] at htyped ⊢
    exact ⟨htyped, fun _ _ ht => absurd ht c.not_through_fresh, hcons id⟩
  | configured auth airplay2 hc =>
    rw [hc] at htyped ⊢
    exact h.reconfigured rfl rfl rfl id rfl htyped
  | guarded strict hc =>
    rw [hc] at htyped ⊢
    exact h.reconfigured rfl rfl rfl id rfl htyped
  | attempt auth hc hat hstate =>
    rw [hc] at htyped ⊢
    refine ⟨htyped, fun _ _ ht => ?_, hcons id⟩
    refine absurd (ht.imp_right fun hcl => ?_) (hat.not_through hflow hstate)
    exact ((cleared_cons rfl).mp hcl).resolve_left (by simp [Entry.isCleared])
  | verified keys e hstrict hauth hstage hlog he hproof =>
    refine ⟨htyped, fun _ _ _ => ?_, ?_⟩
    · rw [hlog, attemptOf_cons rfl]
      exact List.mem_cons_self
    · rw [hlog]
      exact ⟨fun _ ht => ht.elim, fun _ ht => absurd ht he.2.2, h.vetted⟩
  | continues hc =>
    obtain ⟨es, hlog, hes⟩ := hc.log
    have hturns : ∀ e ∈ es, e.turns = false := fun e he => (hes e he).1
    have hplain : ∀ e ∈ es, e.isPlain = true := fun e he => Entry.isPlain_of_turns (hturns e he)
    have hsets : ∀ e ∈ es, e.sets = false := fun e he => Entry.sets_of_turns (hturns e he)
    refine ⟨htyped, fun hst hno ht => ?_, ?_⟩
    · rw [hlog] at hst hno
      rw [strictPin_append hsets] at hst
      have hno : ¬ Refused c.log := fun hr =>
        hno (hr.append fun e he => Entry.not_started_of_turns (hturns e he))
      have hpin := hchosen.auth hst hno
      obtain ⟨hstrict, hhap⟩ := hchecked.config (hchosen.strictly hst)
      rcases hc.through hstrict hhap ht with ht | ⟨htransient, -⟩
      · rw [hlog, attemptOf_append hplain]
        exact List.mem_append_right _ (h.verified hst hno ht)
      · exact absurd (hpin.symm.trans htransient) (by simp)
    · rw [hlog]
      refine h.vetted.append_of_suffix fun e older hsuffix hst ht => ?_
      have holder : ∀ x ∈ older, x.turns = false := fun x hx =>
        hturns x (hsuffix.subset (List.mem_cons_of_mem e hx))
      have hcl := (hes e (hsuffix.subset List.mem_cons_self)).2.2 ht
      rw [strictPin_append fun x hx => Entry.sets_of_turns (holder x hx)] at hst
      by_cases hr : Refused c.log
      · refine .inr ⟨hr.append fun x hx => Entry.not_started_of_turns (holder x hx), ?_⟩
        exact (hchecked.through (hchosen.strictly hst) (.inr hcl)).append_of_turns holder
      · exact .inl ((h.vouched hchosen hchecked hrooted hst hr (.inr hcl)).append holder)

/-- **Strict PIN pairing**, in every run: in a strict session that `setAuth` asked to pair with a
PIN, nothing is sent but what pairs, and no stream begins, before the signature of the receiver has
been verified under its stored key or the one it gave under a typed PIN; unless a receiver refused to
show a PIN, in this session or since that `setAuth`, and the check of the pairing that was made
instead has succeeded. -/
theorem pin_authenticated {w : World} (h : Reachable w) : Always PinVetted w.log := by
  have hpinned : Chosen (coreOf w) ∧ Checked (coreOf w) ∧ Rooted (coreOf w) ∧ Pinned (coreOf w) := by
    refine h.induct (I := fun c => Chosen c ∧ Checked c ∧ Rooted c ∧ Pinned c)
      ⟨Chosen.init, Checked.init, Rooted.init, Pinned.init⟩ ?_
    rintro c c' hflow hs ⟨hchosen, hchecked, hrooted, hpinned⟩
    exact ⟨hchosen.step hflow hs, hchecked.step hflow hs, hrooted.step hflow hs,
      hpinned.step hchosen hchecked hrooted hflow hs⟩
  exact hpinned.2.2.2.vetted

end Step

/-! ## 6. Sessions by hand -/

/-- A transient pairing is strict up to the stream. -/
theorem strict_authenticated_stream :
    strictly (worldAfter streamingActions).log = true ∧
      asked (worldAfter streamingActions).log = setup ∧
      Always (@Vetted trusting) (worldAfter streamingActions).log :=
  ⟨by decide +kernel, streaming_asked,
    @strict_authenticated trusting _ (worldAfter_reachable streamingActions)⟩

/-- A pairing with a PIN up to the first request behind it. -/
def clearedActions : List Action :=
  pairedActions ++ [.onTcpData .control verifyReply2, .onTcpData .control (okReply [])]

theorem pin_authenticated_typed :
    strictPin (worldAfter clearedActions).log = true ∧
      asked (worldAfter clearedActions).log = [ascii "GET"] ∧
      Always (@PinVetted trusting) (worldAfter clearedActions).log := by
  obtain ⟨hstrict, hasked⟩ : strictPin (worldAfter clearedActions).log = true ∧
      asked (worldAfter clearedActions).log = [ascii "GET"] := by decide +kernel
  exact ⟨hstrict, hasked, @pin_authenticated trusting _ (worldAfter_reachable clearedActions)⟩

/-- A receiver that refuses to show a PIN, and pairs without one. -/
def downgradedActions : List Action :=
  connected .hapPin true ++ [.onTcpData .control (statusReply "403 Forbidden"),
    .onTcpData .control setupReply2, .onTcpData .control setupReply4]

/-- The entry of a signature that is checked. -/
def Entry.isSignature : Entry → Bool
  | .signature .. => true
  | _ => false

theorem not_vouched [Primitives] {log : List Entry} (h : log.any Entry.isSignature = false) :
    ¬ Vouched log := by
  rintro ⟨ltpk, ⟨-, message, sig, hmem, -⟩, -⟩
  have hmem : .signature ltpk message sig ∈ log :=
    ((List.takeWhile_sublist _).trans (List.takeWhile_sublist _)).subset hmem
  exact List.any_eq_false.mp h _ hmem rfl

/-- **A strict PIN session goes on without any signature**, behind the proof of the PIN that is the
same everywhere. -/
theorem pin_downgraded : @Reachable trusting (worldAfter downgradedActions) ∧
    ¬ Always (fun e older => strictPin older = true → Traffic e → @Vouched trusting older)
      (worldAfter downgradedActions).log := by
  refine ⟨worldAfter_reachable _, fun h => ?_⟩
  obtain ⟨hasks, hstrict, hsigned⟩ :
      ((worldAfter downgradedActions).log.drop 3).head?.bind Entry.asks? = some (ascii "GET") ∧
        strictPin ((worldAfter downgradedActions).log.drop 4) = true ∧
        ((worldAfter downgradedActions).log.drop 4).any Entry.isSignature = false := by
    decide +kernel
  obtain ⟨e, hhead, he⟩ := Option.bind_eq_some_iff.mp hasks
  have hlog : e :: (worldAfter downgradedActions).log.drop 4 =
      (worldAfter downgradedActions).log.drop 3 := by
    obtain ⟨rest, hrest⟩ := List.head?_eq_some_iff.mp hhead
    rw [hrest, show 4 = 3 + 1 from rfl, ← List.drop_drop, hrest]
    rfl
  have hvouched := (always_iff.mp h) e _ (hlog ▸ List.drop_suffix 3 _) hstrict ?_
  · exact @not_vouched trusting _ hsigned hvouched
  · cases e with
    | requested cseq method isHttp text =>
      by_cases hne : method = ascii "TEARDOWN"
      · simp [Entry.asks?, hne] at he
      · simp only [Entry.asks?, hne, if_false, Option.some.injEq] at he
        rw [he]
        exact ⟨by decide, fun hpost => absurd hpost.1 (by decide)⟩
    | _ => cases he

end AirplaySender
