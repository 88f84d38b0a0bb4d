/-
# Properties of a growing trace

A trace is a list with the newest entry first.  `Always Q log` says `Q` of every entry together
with the entries before it, so it speaks about every moment of the past and not only about the
last one.  `shown f log` is what an observer who sees `f` of each entry has seen, oldest first.

The rules are for extending a trace: by entries that satisfy `Q` wherever they stand, by one entry,
and by entries the observer does not see.  `upTo p log` is the trace before the first entry that
satisfies `p`, which extending it no longer changes once there is one.  `Followed R log` says `R` of
every entry together with what came before it and what came behind it since.
-/
import Mathlib.Data.List.Basic
import Mathlib.Data.List.DropRight
import Mathlib.Data.List.Infix

namespace Trace

variable {α β : Type} {Q R : α → List α → Prop} {e : α} {es log older : List α}

/-! ## 1. Always -/

/-- Every entry satisfies `Q` together with what came before it. -/
def Always (Q : α → List α → Prop) : List α → Prop
  | [] => True
  | e :: older => Q e older ∧ Always Q older

@[simp] theorem always_nil : Always Q [] := trivial

@[simp] theorem always_cons : Always Q (e :: log) ↔ Q e log ∧ Always Q log := Iff.rfl

instance [∀ e older, Decidable (Q e older)] : ∀ log, Decidable (Always Q log)
  | [] => inferInstanceAs (Decidable True)
  | e :: older =>
    have := instDecidableAlways older
    inferInstanceAs (Decidable (Q e older ∧ Always Q older))

/-- At every moment of the past. -/
theorem always_iff : Always Q log ↔ ∀ e older, e :: older <:+ log → Q e older := by
  induction log with
  | nil => simp
  | cons x log ih =>
    rw [always_cons, ih]
    constructor
    · rintro ⟨hx, hlog⟩ e older h
      rcases List.suffix_cons_iff.mp h with heq | hsuf
      · obtain ⟨rfl, rfl⟩ := List.cons.inj heq
        exact hx
      · exact hlog e older hsuf
    · intro h
      exact ⟨h x log List.suffix_rfl, fun e older hs => h e older (hs.trans (List.suffix_cons x log))⟩

namespace Always

theorem of_suffix (h : Always Q log) (hs : older <:+ log) : Always Q older := by
  rw [always_iff] at h ⊢
  exact fun e before hb => h e before (hb.trans hs)

theorem of_append (h : Always Q (es ++ log)) : Always Q log := h.of_suffix (List.suffix_append es log)

/-- Adding entries that satisfy `Q` after any past. -/
theorem append (h : Always Q log) (hes : ∀ e ∈ es, ∀ older, Q e older) : Always Q (es ++ log) := by
  induction es with
  | nil => exact h
  | cons e es ih =>
    exact ⟨hes e List.mem_cons_self _, ih fun x hx => hes x (List.mem_cons_of_mem e hx)⟩

/-- Adding entries that satisfy `Q` after what they come behind. -/
theorem append_of_suffix (h : Always Q log)
    (hes : ∀ e older, e :: older <:+ es → Q e (older ++ log)) : Always Q (es ++ log) := by
  induction es with
  | nil => exact h
  | cons e es ih =>
    refine ⟨hes e es List.suffix_rfl, ih fun x older hx => ?_⟩
    exact hes x older (hx.trans (List.suffix_cons e es))

/-- What is said of some entries and the part of the past they are in. -/
theorem filter {p : α → Bool} (h : Always R log)
    (hQ : ∀ e older, p e = true → R e older → Q e (older.filter p)) : Always Q (log.filter p) := by
  induction log with
  | nil => trivial
  | cons e log ih =>
    cases hp : p e with
    | true =>
      rw [List.filter_cons_of_pos hp]
      exact ⟨hQ e log hp h.1, ih h.2⟩
    | false =>
      rw [List.filter_cons_of_neg (by simp [hp])]
      exact ih h.2

/-- The other way round, where the other entries say nothing. -/
theorem of_filter {p : α → Bool} (h : Always Q (log.filter p))
    (hR : ∀ e older, p e = true → Q e (older.filter p) → R e older)
    (hskip : ∀ e older, p e = false → R e older) : Always R log := by
  induction log with
  | nil => trivial
  | cons e log ih =>
    cases hp : p e with
    | true =>
      rw [List.filter_cons_of_pos hp] at h
      exact ⟨hR e log hp h.1, ih h.2⟩
    | false =>
      rw [List.filter_cons_of_neg (by simp [hp])] at h
      exact ⟨hskip e log hp, ih h⟩

end Always

/-! ## 2. What an observer sees -/

/-- What a trace shows through `f`, oldest first. -/
def shown (f : α → Option β) (log : List α) : List β := (log.filterMap f).reverse

variable {f : α → Option β} {b : β}

@[simp] theorem shown_nil : shown f [] = [] := rfl

theorem shown_cons_some (h : f e = some b) : shown f (e :: log) = shown f log ++ [b] := by
  simp [shown, h]

theorem shown_cons_none (h : f e = none) : shown f (e :: log) = shown f log := by
  simp [shown, h]

theorem shown_append (es log : List α) : shown f (es ++ log) = shown f log ++ shown f es := by
  simp [shown]

/-- Entries the observer does not see. -/
theorem shown_append_none (h : ∀ e ∈ es, f e = none) : shown f (es ++ log) = shown f log := by
  have hes : shown f es = [] := by
    rw [shown, List.filterMap_eq_nil_iff.mpr h, List.reverse_nil]
  rw [shown_append, hes, List.append_nil]

/-- Entries the observer does not see may be left out. -/
theorem shown_filter {p : α → Bool} (h : ∀ e, p e = false → f e = none) (log : List α) :
    shown f (log.filter p) = shown f log := by
  unfold shown
  rw [List.filterMap_filter]
  congr 2
  funext e
  cases hp : p e with
  | true => simp
  | false => simp [h e hp]

/-! ## 3. Before the first of a kind -/

variable {p : α → Bool}

/-- The entries before the first that satisfies `p`. -/
def upTo (p : α → Bool) (log : List α) : List α := log.rtakeWhile fun e => !p e

theorem upTo_eq (h : ∀ e ∈ log, p e = false) : upTo p log = log :=
  List.rtakeWhile_eq_self_iff.mpr fun e he => by simp [h e he]

/-- Entries behind the first change nothing. -/
theorem upTo_append_of_mem (h : ∃ e ∈ log, p e = true) (es : List α) :
    upTo p (es ++ log) = upTo p log := by
  obtain ⟨e, he, hp⟩ := h
  have hlen : (log.reverse.takeWhile fun e => !p e).length ≠ log.reverse.length := by
    intro heq
    have hall := List.mem_takeWhile_imp (p := fun e => !p e) (x := e) (l := log.reverse) (by
      rw [(List.takeWhile_prefix _).eq_of_length heq]
      exact List.mem_reverse.mpr he)
    simp [hp] at hall
  rw [upTo, upTo, List.rtakeWhile, List.rtakeWhile, List.reverse_append, List.takeWhile_append,
    if_neg hlen]

/-- Where there is none yet, the next entries count up to the first among them. -/
theorem upTo_append (h : ∀ e ∈ log, p e = false) (es : List α) :
    upTo p (es ++ log) = upTo p es ++ log := by
  rw [upTo, upTo, List.rtakeWhile, List.rtakeWhile, List.reverse_append,
    List.takeWhile_append_of_pos, List.reverse_append, List.reverse_reverse]
  intro e he
  simp [h e (List.mem_reverse.mp he)]

theorem upTo_suffix (p : α → Bool) (log : List α) : upTo p log <:+ log :=
  List.rtakeWhile_suffix _ _

/-! ## 4. What comes behind -/

variable {S : α → List α → List α → Prop}

/-- Every entry, what came before it and what came since are as `S` says. -/
def Followed (S : α → List α → List α → Prop) (log : List α) : Prop :=
  ∀ newer e older, log = newer ++ e :: older → S e older newer

namespace Followed

theorem nil : Followed S [] := by
  intro newer e older h
  simp at h

/-- What comes later takes nothing back, and asks for nothing itself. -/
theorem append (h : Followed S log)
    (hmore : ∀ e older newer more, S e older newer → S e older (more ++ newer))
    (hes : ∀ e ∈ es, ∀ older newer, S e older newer) : Followed S (es ++ log) := by
  intro newer e older heq
  rcases List.append_eq_append_iff.mp heq with ⟨mid, rfl, hlog⟩ | ⟨mid, rfl, hlog⟩
  · exact hmore e older mid es (h mid e older hlog)
  · cases mid with
    | nil =>
      have hold := hmore e older [] newer (h [] e older hlog.symm)
      rwa [List.append_nil] at hold
    | cons x mid =>
      obtain ⟨rfl, rfl⟩ := List.cons.inj hlog
      exact hes e (List.mem_append_right newer List.mem_cons_self) _ newer

/-- An entry and what it asks for. -/
theorem behind (h : Followed S log)
    (hmore : ∀ e older newer more, S e older newer → S e older (more ++ newer)) (he : S e log es)
    (hes : ∀ e ∈ es, ∀ older newer, S e older newer) : Followed S (es ++ e :: log) := by
  intro newer x older heq
  rcases List.append_eq_append_iff.mp heq with ⟨mid, rfl, hlog⟩ | ⟨mid, rfl, hlog⟩
  · cases mid with
    | nil =>
      obtain ⟨rfl, rfl⟩ := List.cons.inj hlog
      rwa [List.append_nil]
    | cons y mid =>
      obtain ⟨rfl, rfl⟩ := List.cons.inj hlog
      have hold := hmore x older mid (es ++ [e]) (h mid x older rfl)
      rwa [List.append_assoc, List.singleton_append] at hold
  · cases mid with
    | nil =>
      obtain ⟨rfl, rfl⟩ := List.cons.inj hlog
      rwa [List.append_nil] at he
    | cons y mid =>
      obtain ⟨rfl, rfl⟩ := List.cons.inj hlog
      exact hes x (List.mem_append_right newer List.mem_cons_self) _ newer

end Followed

end Trace
