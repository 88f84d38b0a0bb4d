/-
# The pairing state: pointers and keys

`ap2_` is created in three places and dereferenced in ten handlers, and its SRP client is set in
one of them.  Which of them is reached is decided by the stage, so the invariants are about stages:
where a handler dereferences a pointer the pointer is set (`never_null`), and where a key is used it
has the length the cipher asks for (`keys_sized`).

The first has two exceptions, and they are real: authentication by auth-setup makes no pairing
state, but an AirPlay 2 session goes on to the setup that needs one (`setup_unpaired`); and a
callback may drop the pairing state of the session it is called from by starting another.
-/
import AirplaySender.Late

namespace AirplaySender

open Octets Prog

/-! ## 1. The pointers -/

/-- The pairing state is missing where the code goes on with it. -/
def Entry.unpaired : Entry → Bool
  | .cleared _ setup2 paired => setup2 && !paired
  | .resumed _ paired => !paired
  | _ => false

/-- Where a pointer is dereferenced it is set. -/
structure Pointed (c : Core) : Prop where
  cleared : ∀ auth setup2, .cleared auth setup2 true ∈ sessionOf c.log → c.keys ≠ none
  setup : c.stage.postAuth → c.keys ≠ none
  srp : c.stage = .setupM4 ∨ c.stage = .setupM6 → ∃ keys, c.keys = some keys ∧ keys.srpK ≠ none
  sound : .derefNull ∉ c.log

section Pointers

variable [Primitives] {k : Level} {c c' : Core}

omit [Primitives] in
theorem Pointed.init : Pointed {} := by
  constructor <;> simp [PairStage.postAuth]

/-- Only a new session drops the pairing state. -/
theorem Step.keys_none (hs : Step k c c') (h : c'.keys = none) : c' = c.fresh ∨ c.keys = none := by
  cases hs with
  | restart => exact .inl rfl
  | attempt | srpStart | srpAgreed | transientKeys | learn | stored | agreed | verifyKeys | stream
  | sealAudio => cases h
  | _ => exact .inr h

theorem Pointed.cleared_step (h : Pointed c) (hs : Step k c c') :
    ∀ auth setup2, .cleared auth setup2 true ∈ sessionOf c'.log → c'.keys ≠ none := by
  intro auth setup2 hmem hnone
  rcases hs.keys_none hnone with rfl | hkeys
  · simp [Core.fresh, sessionOf, Entry.isStarted] at hmem
  rcases hs.log with ⟨rfl, _⟩ | ⟨es, hlog, hes⟩
  · simp [Core.fresh, sessionOf, Entry.isStarted] at hmem
  rw [hlog, sessionOf_append fun e he => (hes e he).not_started] at hmem
  rcases List.mem_append.mp hmem with hmem | hmem
  · obtain ⟨_, _, _, hsome, _⟩ := hes _ hmem
    rw [hkeys] at hsome
    cases hsome
  · exact h.cleared auth setup2 hmem hkeys

/-- The setup behind authentication has a pairing state, if authentication made one. -/
theorem Pointed.setup_step (h : Pointed c) (hs : Step k c c')
    (hlog : ∀ e ∈ c'.log, e.unpaired = false) : c'.stage.postAuth → c'.keys ≠ none := by
  intro hpost hnone
  rcases hs.keys_none hnone with rfl | hkeys
  · simp [Core.fresh, PairStage.postAuth] at hpost
  have hold : ¬ c.stage.postAuth := fun hp => h.setup hp hkeys
  cases hs with
  | stage _ st _ hp =>
    have hnew : st.postAuth := hpost
    exact absurd hp (by simp [hnew.not_pairing])
  | setup _ st method text hf hm _ _ _ _ hsummons =>
    generalize hst : c.stage = before at hf hold
    cases hsummons with
    | info hinfo =>
      obtain ⟨auth, paired, hhead⟩ := hinfo
      obtain ⟨rest, hrest⟩ := List.head?_eq_some_iff.mp hhead
      have hpaired : (Entry.cleared auth true paired).unpaired = false :=
        hlog _ (by simp [Core.request_log, hrest])
      obtain rfl : paired = true := by simpa [Entry.unpaired] using hpaired
      refine h.cleared auth true ?_ hkeys
      rw [hrest, sessionOf_cons rfl]
      exact List.mem_cons_self
    | session =>
      cases hf
      exact hold (by simp [PairStage.postAuth])
    | record =>
      cases hf
      exact hold (by simp [PairStage.postAuth])
  | restart => simp [Core.fresh, PairStage.postAuth] at hpost
  | authSetupDone | verified => simp [PairStage.postAuth] at hpost
  | srpAgreed | transientKeys | verifyKeys | stream => cases hnone
  | setupM5 => simp [PairStage.postAuth] at hpost
  | _ => exact hold hpost

/-- The SRP client is there while its answers are awaited. -/
theorem Pointed.srp_step (h : Pointed c) (hs : Step k c c') :
    c'.stage = .setupM4 ∨ c'.stage = .setupM6 → ∃ keys, c'.keys = some keys ∧ keys.srpK ≠ none := by
  intro hst
  have hno {st : PairStage} (heq : c.stage = st) (h4 : st ≠ .setupM4) (h6 : st ≠ .setupM6) :
      ¬ (c.stage = .setupM4 ∨ c.stage = .setupM6) := by
    rw [heq]
    simp [h4, h6]
  cases hs with
  | restart => simp [Core.fresh] at hst
  | attempt _ _ hat =>
    rcases hat with ⟨heq, _⟩ | ⟨heq, _⟩ | ⟨heq, _⟩ <;>
      exact absurd hst (hno heq (by simp) (by simp))
  | stage _ st hf =>
    generalize c.stage = before at hf
    cases hf <;> simp at hst
  | setup _ st _ _ _ hm =>
    have hst : st = .setupM4 ∨ st = .setupM6 := hst
    rcases hst with rfl | rfl <;> cases hm
  | authSetupDone | verified | transientKeys | verifyKeys | stream => simp [Core.request] at hst
  | srpStart _ _ heq => exact absurd hst (hno heq (by simp) (by simp))
  | srpAgreed => exact ⟨_, rfl, by simp⟩
  | setupM5 _ keys K _ _ _ _ _ hkeys hsrp => exact ⟨keys, hkeys, by simp [hsrp]⟩
  | learn _ keys ltpk _ hkeys =>
    obtain ⟨keys', hkeys', hsrp⟩ := h.srp hst
    obtain rfl := Option.some.inj (hkeys.symm.trans hkeys')
    exact ⟨_, rfl, hsrp⟩
  | stored _ _ _ _ heq => exact absurd hst (hno heq (by simp) (by simp))
  | agreed _ _ _ heq => exact absurd hst (hno heq (by simp) (by simp))
  | sealAudio _ keys _ _ _ hkeys =>
    obtain ⟨keys', hkeys', hsrp⟩ := h.srp hst
    obtain rfl := Option.some.inj (hkeys.symm.trans hkeys')
    exact ⟨_, rfl, hsrp⟩
  | _ => exact h.srp hst

/-- No null pointer is dereferenced. -/
theorem Pointed.sound_step (hflow : Flow c) (h : Pointed c) (hs : Step k c c')
    (hlog : ∀ e ∈ c'.log, e.unpaired = false) : .derefNull ∉ c'.log := by
  intro hmem
  rcases hs.log with ⟨rfl, _⟩ | ⟨es, hes, hemits⟩
  · exact h.sound ((List.mem_cons.mp hmem).resolve_left nofun)
  rw [hes] at hmem
  rcases List.mem_append.mp hmem with hmem | hmem
  swap
  · exact h.sound hmem
  rcases hemits _ hmem with ⟨hnone, hhap | hpost⟩ | ⟨hst, keys, hkeys, hsrp⟩ | ⟨live, hhead⟩
  · exact hflow.keyed hhap hnone
  · exact h.setup hpost hnone
  · obtain ⟨keys', hkeys', hsome⟩ := h.srp (.inl hst)
    obtain rfl := Option.some.inj (hkeys.symm.trans hkeys')
    exact hsome hsrp
  · obtain ⟨rest, hrest⟩ := List.head?_eq_some_iff.mp hhead
    have hresumed : (Entry.resumed live false).unpaired = false :=
      hlog _ (by rw [hes, hrest]; simp)
    cases hresumed

theorem Pointed.step (hflow : Flow c) (h : Pointed c) (hs : Step k c c')
    (hlog : ∀ e ∈ c'.log, e.unpaired = false) : Pointed c' where
  cleared := h.cleared_step hs
  setup := h.setup_step hs hlog
  srp := h.srp_step hs
  sound := h.sound_step hflow hs hlog

/-- **No handler dereferences a null pointer**: in every reachable world the pairing state is there
in every stage of pairing and of the setup behind it, the SRP client while M4 and M6 are awaited;
in every run in which no session goes on to the AirPlay 2 setup, and no pair-setup goes on behind
its callback, without a pairing state. -/
theorem never_null {w : World} (h : Reachable w) (hlog : ∀ e ∈ w.log, e.unpaired = false) :
    .derefNull ∉ w.log ∧
    (w.s.pairStage.hap = true ∨ w.s.pairStage.postAuth → w.s.ap2 ≠ none) ∧
    (w.s.pairStage = .setupM4 ∨ w.s.pairStage = .setupM6 →
      ∃ a, w.s.ap2 = some a ∧ a.srp ≠ none) := by
  have hpointed : Pointed (coreOf w) := by
    refine h.induct_while (P := fun log => ∀ e ∈ log, e.unpaired = false) (J := Pointed)
      Pointed.init ?_ ?_ hlog
    · exact fun es log hall e he => hall e (List.mem_append_right _ he)
    · exact fun hflow hs hall hi => hi.step hflow hs hall
  refine ⟨hpointed.sound, fun hst hnone => ?_, fun hst => ?_⟩
  · have hkeys : (coreOf w).keys = none := keys_of_ap2 hnone
    rcases hst with hhap | hpost
    · exact h.flow.keyed hhap hkeys
    · exact hpointed.setup hpost hkeys
  · obtain ⟨keys, hkeys, hsrp⟩ := hpointed.srp hst
    obtain ⟨a, ha, rfl⟩ := Option.map_eq_some_iff.mp hkeys
    refine ⟨a, ha, fun hnone => hsrp ?_⟩
    rw [show (keysOf a).srpK = a.srp.map SrpClient.K from rfl, hnone]
    rfl

end Pointers

/-- The PIN of a pairing is typed: M4 is awaited with an SRP client. -/
theorem never_null_typed :
    (worldAfter (pinActions ++ [.call (.submitPin (ascii "1234"))])).s.ap2 ≠ none := by
  obtain ⟨hstage, hlog⟩ :
      (worldAfter (pinActions ++ [.call (.submitPin (ascii "1234"))])).s.pairStage = .setupM4 ∧
        (worldAfter (pinActions ++ [.call (.submitPin (ascii "1234"))])).log.any
          Entry.unpaired = false := by decide +kernel
  refine (@never_null trusting _ (worldAfter_reachable _) fun e he => ?_).2.1 (.inl ?_)
  · simpa using List.any_eq_false.mp hlog e he
  · rw [hstage]
    rfl

/-- An AirPlay 2 session that authenticates by auth-setup, up to its setup. -/
def unpairedActions : List Action :=
  connected .authSetup false ++ [.onTcpData .control (okReply []), .onTcpData .control (okReply [])]

/-- **Auth-setup leads an AirPlay 2 session to a null pointer**: the session SETUP wants the UUID of
a pairing state that was never made. -/
theorem setup_unpaired :
    let w := worldAfter unpairedActions
    @Reachable trusting w ∧ w.s.pairStage = .ap2Info ∧ w.s.ap2.isNone = true ∧
      w.log.head?.any (fun | .derefNull => true | _ => false) = true :=
  ⟨worldAfter_reachable _, by decide +kernel⟩

/-! ## 2. The keys -/

/-- The stages behind the exchange of keys. -/
def PairStage.agreed (stage : PairStage) : Prop :=
  stage = .verifyDone ∨ stage = .done ∨ stage.postAuth

/-- The stream SETUP of the session offered this key. -/
def Offered (log : List Entry) (shk : Octets) : Prop :=
  ∃ cseq text, Entry.requested cseq (ascii "SETUP") true text ∈ sessionOf log ∧ Offers text shk

/-- Where a key is used it has its length. -/
structure Sized (c : Core) : Prop where
  srp : ∀ keys K, c.stage = .setupM4 → c.keys = some keys → keys.srpK = some K → K.length = 64
  secret : ∀ keys, c.stage.agreed → c.keys = some keys → 32 ≤ keys.secret.length
  audio : ∀ keys, c.keys = some keys → keys.encryptAudio = true →
    c.stage = .ap2Stream ∧ keys.audioKey = keys.secret.take 32 ∧ Offered c.log keys.audioKey
  sound : ∀ site, .keyRefused site ∉ c.log

section Keys

variable [Primitives] {k : Level} {c c' : Core}

omit [Primitives] in
theorem Sized.init : Sized {} := by
  constructor <;> simp

omit [Primitives] in
theorem Offered.append {es log : List Entry} {shk : Octets} (h : Offered log shk)
    (hes : ∀ e ∈ es, e.isStarted = false) : Offered (es ++ log) shk := by
  obtain ⟨cseq, text, hmem, hoffers⟩ := h
  refine ⟨cseq, text, ?_, hoffers⟩
  rw [sessionOf_append hes]
  exact List.mem_append_right _ hmem

/-- A key that was offered stays offered. -/
theorem Offered.step {shk : Octets} (h : Offered c.log shk) (hs : Step k c c') :
    c' = c.fresh ∨ Offered c'.log shk := by
  rcases hs.log with ⟨rfl, _⟩ | ⟨es, hlog, hes⟩
  · exact .inl rfl
  · rw [hlog]
    exact .inr (h.append fun e he => (hes e he).not_started)

omit [Primitives] in
/-- The audio key of a stream has 32 octets. -/
theorem Sized.length_audioKey (h : Sized c) {keys : Keys} (hkeys : c.keys = some keys)
    (haudio : keys.encryptAudio = true) : keys.audioKey.length = 32 := by
  obtain ⟨hst, hkey, _⟩ := h.audio keys hkeys haudio
  have hsecret := h.secret keys (.inr (.inr (by simp [hst, PairStage.postAuth]))) hkeys
  rw [hkey, List.length_take, Nat.min_eq_left hsecret]

theorem Sized.srp_step (h : Sized c) (hs : Step k c c') :
    ∀ keys K, c'.stage = .setupM4 → c'.keys = some keys → keys.srpK = some K → K.length = 64 := by
  intro keys K hst hkeys hK
  cases hs with
  | restart => cases hst
  | attempt _ _ hat =>
    rcases hat with ⟨heq, _⟩ | ⟨heq, _⟩ | ⟨heq, _⟩ <;> exact absurd (heq.symm.trans hst) nofun
  | stage _ st hf =>
    generalize c.stage = before at hf
    cases hf <;> cases hst
  | setup _ st _ _ _ hm =>
    obtain rfl : st = .setupM4 := hst
    cases hm
  | authSetupDone | verified | transientKeys | verifyKeys | stream | setupM5 => cases hst
  | srpStart _ _ heq => exact absurd (heq.symm.trans hst) nofun
  | srpAgreed _ _ _ _ _ _ _ hlen =>
    obtain rfl := Option.some.inj hkeys
    obtain rfl := Option.some.inj hK
    exact hlen
  | learn _ _ _ heq => exact absurd (heq.symm.trans hst) nofun
  | stored _ _ _ _ heq => exact absurd (heq.symm.trans hst) nofun
  | agreed _ _ _ heq => exact absurd (heq.symm.trans hst) nofun
  | sealAudio _ old _ _ _ hold =>
    obtain rfl := Option.some.inj hkeys
    exact h.srp old K hst hold hK
  | _ => exact h.srp keys K hst hkeys hK

/-- Whichever pairing made it, the shared secret is long enough for a key. -/
theorem Sized.secret_step (h : Sized c) (hs : Step k c c') :
    ∀ keys, c'.stage.agreed → c'.keys = some keys → 32 ≤ keys.secret.length := by
  intro keys hst hkeys
  have hno {p : Prop} {st : PairStage} (heq : c.stage = st) (hnot : ¬ st.agreed)
      (hst : c.stage.agreed) : p := absurd (heq ▸ hst) hnot
  cases hs with
  | restart => cases hkeys
  | attempt _ _ hat =>
    rcases hat with ⟨heq, _⟩ | ⟨heq, _⟩ | ⟨heq, _⟩ <;>
      exact hno heq (by simp [PairStage.agreed, PairStage.postAuth]) hst
  | stage _ st hf | setup _ st _ _ hf =>
    refine h.secret keys ?_ hkeys
    have hnew : st.agreed := hst
    generalize c.stage = before at hf ⊢
    cases hf <;> simp [PairStage.agreed, PairStage.postAuth] at hnew ⊢
  | authSetupDone _ _ _ _ _ hnone => exact absurd (hnone.symm.trans hkeys) (by simp)
  | verified _ heq => exact h.secret keys (by simp [heq, PairStage.agreed]) hkeys
  | srpStart _ _ heq => exact hno heq (by simp [PairStage.agreed, PairStage.postAuth]) hst
  | srpAgreed => simp [PairStage.agreed, PairStage.postAuth] at hst
  | transientKeys _ old K _ _ heq _ _ hold hsrp =>
    obtain rfl := Option.some.inj hkeys
    show 32 ≤ K.length
    rw [h.srp old K heq hold hsrp]
    decide
  | setupM5 => simp [PairStage.agreed, PairStage.postAuth] at hst
  | learn _ _ _ heq => exact hno heq (by simp [PairStage.agreed, PairStage.postAuth]) hst
  | stored _ _ _ _ heq => exact hno heq (by simp [PairStage.agreed, PairStage.postAuth]) hst
  | agreed _ _ _ heq => exact hno heq (by simp [PairStage.agreed, PairStage.postAuth]) hst
  | verifyKeys _ old _ _ _ _ _ _ _ _ _ _ hlen =>
    obtain rfl := Option.some.inj hkeys
    exact hlen.ge
  | stream _ old _ heq _ _ _ hold =>
    obtain rfl := Option.some.inj hkeys
    exact h.secret old (by simp [heq, PairStage.agreed, PairStage.postAuth]) hold
  | sealAudio _ old _ _ _ hold =>
    obtain rfl := Option.some.inj hkeys
    exact h.secret old hst hold
  | _ => exact h.secret keys hst hkeys

/-- **The audio key is the head of the shared secret, and the one the receiver was offered.** -/
theorem Sized.audio_step (h : Sized c) (hs : Step k c c') :
    ∀ keys, c'.keys = some keys → keys.encryptAudio = true →
      c'.stage = .ap2Stream ∧ keys.audioKey = keys.secret.take 32 ∧
        Offered c'.log keys.audioKey := by
  intro keys hkeys haudio
  have hkeep {old : Keys} (hold : c.keys = some old) (hon : old.encryptAudio = true) :
      c.stage = .ap2Stream ∧ old.audioKey = old.secret.take 32 ∧ Offered c'.log old.audioKey := by
    obtain ⟨hst, hkey, hoffered⟩ := h.audio old hold hon
    refine ⟨hst, hkey, (hoffered.step hs).resolve_left ?_⟩
    rintro rfl
    cases hkeys
  have hno {p : Prop} {st : PairStage} {old : Keys} (hold : c.keys = some old)
      (hon : old.encryptAudio = true) (heq : c.stage = st) (hne : st ≠ .ap2Stream) : p :=
    absurd (heq.symm.trans (hkeep hold hon).1) hne
  cases hs with
  | restart => cases hkeys
  | attempt =>
    obtain rfl := Option.some.inj hkeys
    cases haudio
  | stage _ st hf | setup _ st _ _ hf =>
    have hst := (hkeep hkeys haudio).1
    rw [hst] at hf
    cases hf
  | authSetupDone _ heq => exact hno hkeys haudio heq nofun
  | verified _ heq => exact hno hkeys haudio heq nofun
  | setupM5 _ _ _ _ _ heq => exact hno hkeys haudio heq nofun
  | srpStart _ _ heq _ hold =>
    obtain rfl := Option.some.inj hkeys
    exact hno hold haudio heq nofun
  | srpAgreed _ _ _ _ heq _ hold =>
    obtain rfl := Option.some.inj hkeys
    exact hno hold haudio heq nofun
  | transientKeys _ _ _ _ _ heq _ _ hold =>
    obtain rfl := Option.some.inj hkeys
    exact hno hold haudio heq nofun
  | learn _ _ _ heq hold =>
    obtain rfl := Option.some.inj hkeys
    exact hno hold haudio heq nofun
  | stored _ _ _ _ heq hold =>
    obtain rfl := Option.some.inj hkeys
    exact hno hold haudio heq nofun
  | agreed _ _ _ heq hold =>
    obtain rfl := Option.some.inj hkeys
    exact hno hold haudio heq nofun
  | verifyKeys _ _ _ _ _ _ _ _ _ heq _ hold =>
    obtain rfl := Option.some.inj hkeys
    exact hno hold haudio heq nofun
  | stream _ old text heq _ _ _ hold htext hoffer =>
    obtain rfl := Option.some.inj hkeys
    refine ⟨rfl, rfl, c.cseq, text, ?_, hoffer⟩
    show _ ∈ sessionOf (Core.writeEntries _ text ++
      .requested c.cseq (ascii "SETUP") true text :: .staged .ap2Stream :: c.log)
    rw [sessionOf_append isStarted_writeEntries, sessionOf_cons rfl]
    exact List.mem_append_right _ List.mem_cons_self
  | sealAudio _ old _ _ _ hold hon =>
    obtain rfl := Option.some.inj hkeys
    have hres := hkeep hold hon
    exact hres
  | _ => exact hkeep hkeys haudio

/-- No encryption is refused for the length of its key. -/
theorem Sized.sound_step (h : Sized c) (hs : Step k c c') : ∀ site, .keyRefused site ∉ c'.log := by
  intro site hmem
  rcases hs.log with ⟨rfl, _⟩ | ⟨es, hes, hemits⟩
  · exact h.sound site ((List.mem_cons.mp hmem).resolve_left nofun)
  rw [hes] at hmem
  rcases List.mem_append.mp hmem with hmem | hmem
  · obtain ⟨keys, hkeys, haudio, hlen⟩ := hemits _ hmem
    exact hlen (h.length_audioKey hkeys haudio)
  · exact h.sound site hmem

theorem Sized.step (h : Sized c) (hs : Step k c c') : Sized c' where
  srp := h.srp_step hs
  secret := h.secret_step hs
  audio := h.audio_step hs
  sound := h.sound_step hs

theorem Reachable.sized {w : World} (h : Reachable w) : Sized (coreOf w) :=
  h.induct Sized.init fun _ hs hi => hi.step hs

/-- **Key sizes.**  In every reachable world an encrypted control channel has two keys of 32 octets,
an encrypted stream has for its key the first 32 octets of the shared secret, which are the ones
the stream SETUP offered as `shk`, and no encryption was ever refused for the length of its key. -/
theorem keys_sized {w : World} (h : Reachable w) :
    (w.s.controlEncrypted = true → ∃ a, w.s.ap2 = some a ∧ a.controlOut.length = 32 ∧
      a.controlIn.length = 32) ∧
    (∀ a, w.s.ap2 = some a → a.encryptAudio = true →
      a.audioKey.length = 32 ∧ a.audioKey = a.sharedSecret.take 32 ∧
        ∃ cseq text, .requested cseq (ascii "SETUP") true text ∈ w.session ∧
          Offers text a.audioKey) ∧
    ∀ site, .keyRefused site ∉ w.log := by
  have hsized := h.sized
  refine ⟨fun henc => ?_, fun a ha haudio => ?_, hsized.sound⟩
  · obtain ⟨_, keys, hkeys, hout, hin⟩ := h.flow.encrypted henc
    obtain ⟨a, ha, rfl⟩ := Option.map_eq_some_iff.mp hkeys
    exact ⟨a, ha, hout, hin⟩
  · have hkeys : (coreOf w).keys = some (keysOf a) := keys_of_some ha
    obtain ⟨_, hkey, hoffered⟩ := hsized.audio (keysOf a) hkeys haudio
    exact ⟨hsized.length_audioKey hkeys haudio, hkey, hoffered⟩

end Keys

/-- The keys of a stream: the audio key has its 32 octets, and is what the stream SETUP says. -/
theorem keys_sized_stream : ∃ a, (worldAfter streamingActions).s.ap2 = some a ∧
    a.encryptAudio = true ∧ a.audioKey.length = 32 ∧
    ∃ cseq text, .requested cseq (ascii "SETUP") true text ∈ (worldAfter streamingActions).session ∧
      Offers text a.audioKey := by
  have haudio : (worldAfter streamingActions).s.ap2.any Ap2State.encryptAudio = true := by
    decide +kernel
  cases ha : (worldAfter streamingActions).s.ap2 with
  | none => simp [ha] at haudio
  | some a =>
    have hon : a.encryptAudio = true := by simpa [ha] using haudio
    obtain ⟨hlen, -, hoffers⟩ := (@keys_sized trusting _ (worldAfter_reachable _)).2.1 a ha hon
    exact ⟨a, rfl, hon, hlen, hoffers⟩

end AirplaySender
