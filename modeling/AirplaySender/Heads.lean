/-
# Message heads

Both channels cut messages off a buffer by the same steps: the first empty line ends the head, the
head's lines are split at their line feeds, each line at its first colon, and `Content-Length` says
how much of a body follows.  Here is what these steps do to a head that is spelled out: where its
end is found, which headers it has, and that octets behind a message change nothing about it.
-/
import Mathlib.Data.List.DropRight
import AirplaySender.Channel

namespace AirplaySender

open Octets

/-! ## 1. The first occurrence -/

section Find

variable {needle s more : Octets} {i j : ℕ}

theorem find_cons (needle : Octets) (c : UInt8) (cs : Octets) : find needle (c :: cs) =
    if needle <+: c :: cs then some 0 else (find needle cs).map (· + 1) := by
  rw [find]
  simp only [List.isPrefixOf_iff_prefix]

/-- What is found is there. -/
theorem find_prefix (h : find needle s = some i) : needle <+: s.drop i := by
  induction s generalizing i with
  | nil =>
    unfold find at h
    split at h
    · rename_i hnil
      rw [hnil]
      exact List.nil_prefix
    · cases h
  | cons c cs ih =>
    rw [find_cons] at h
    split at h
    · rename_i hpre
      obtain rfl : 0 = i := Option.some.inj h
      exact hpre
    · obtain ⟨j, hj, rfl⟩ := Option.map_eq_some_iff.mp h
      exact ih hj

/-- What is there is found, there or before. -/
theorem find_le (h : needle <+: s.drop i) (hi : i < s.length) : ∃ j ≤ i, find needle s = some j := by
  induction s generalizing i with
  | nil => cases hi
  | cons c cs ih =>
    rw [find_cons]
    split
    · exact ⟨0, Nat.zero_le i, rfl⟩
    · rename_i hno
      cases i with
      | zero => exact absurd h hno
      | succ i =>
        obtain ⟨j, hj, hfind⟩ := ih h (Nat.lt_of_succ_lt_succ hi)
        exact ⟨j + 1, Nat.succ_le_succ hj, by rw [hfind]; rfl⟩

theorem find_length (h : find needle s = some i) : i + needle.length ≤ s.length := by
  induction s generalizing i with
  | nil =>
    unfold find at h
    split at h
    · rename_i hnil
      obtain rfl : 0 = i := Option.some.inj h
      rw [hnil]
      exact le_rfl
    · cases h
  | cons c cs ih =>
    rw [find_cons] at h
    split at h
    · rename_i hpre
      obtain rfl : 0 = i := Option.some.inj h
      rw [Nat.zero_add]
      exact hpre.length_le
    · obtain ⟨j, hj, rfl⟩ := Option.map_eq_some_iff.mp h
      have := ih hj
      simp only [List.length_cons]
      omega

/-- What was found is found in more. -/
theorem find_append (h : find needle s = some i) (more : Octets) :
    find needle (s ++ more) = some i := by
  induction s generalizing i with
  | nil =>
    unfold find at h
    split at h
    · rename_i hnil
      rw [← h, List.nil_append, hnil]
      cases more with
      | nil => rfl
      | cons => rw [find_cons, if_pos List.nil_prefix]
    · cases h
  | cons c cs ih =>
    rw [find_cons] at h
    rw [List.cons_append, find_cons]
    split at h
    · rename_i hpre
      have hmore : needle <+: c :: (cs ++ more) := hpre.trans (List.prefix_append (c :: cs) more)
      rw [← h, if_pos hmore]
    · rename_i hno
      obtain ⟨j, hj, rfl⟩ := Option.map_eq_some_iff.mp h
      rw [if_neg, ih hj]
      · rfl
      · intro hpre
        -- the occurrence at `j + 1` keeps the buffer long enough
        have hlen := find_length hj
        refine hno (List.prefix_of_prefix_length_le hpre (List.prefix_append (c :: cs) more) ?_)
        simp only [List.length_cons]
        omega

/-- What was found is found in less, as far as it fits. -/
theorem find_take {n : ℕ} (h : find needle s = some i) (hne : needle ≠ [])
    (hn : i + needle.length ≤ n) : find needle (s.take n) = some i := by
  have hpos := List.length_pos_of_ne_nil hne
  have hlen := find_length h
  have hpre : needle <+: (s.take n).drop i := by
    rw [List.drop_take]
    refine List.prefix_take_iff.mpr ⟨ find_prefix h, ?_⟩
    omega
  obtain ⟨j, -, hj⟩ := find_le hpre (by rw [List.length_take]; omega)
  have hall := find_append hj (s.drop n)
  rw [List.take_append_drop, h] at hall
  rw [hj, hall]

/-- The end of a text is the first occurrence of what it ends in, if no occurrence overlaps it. -/
theorem find_first {last : UInt8} {init : Octets} (s : Octets)
    (h : ¬ init ++ [last] <:+: s ++ init) :
    find (init ++ [last]) (s ++ (init ++ [last])) = some s.length := by
  have hdropped : (s ++ (init ++ [last])).drop s.length = init ++ [last] := List.drop_left
  have hhere : init ++ [last] <+: (s ++ (init ++ [last])).drop s.length :=
    hdropped.symm ▸ List.prefix_rfl
  obtain ⟨j, hj, hfind⟩ := find_le hhere (by simp)
  rcases Nat.lt_or_ge j s.length with hlt | hge
  · refine absurd ?_ h
    have hpre := find_prefix hfind
    have hdrop : (s ++ (init ++ [last])).drop j = (s ++ init).drop j ++ [last] := by
      rw [← List.append_assoc, List.drop_append_of_le_length (by rw [List.length_append]; omega)]
    rw [hdrop] at hpre
    have hshort : init ++ [last] <+: (s ++ init).drop j := by
      refine List.prefix_of_prefix_length_le hpre (List.prefix_append _ _) ?_
      simp only [List.length_append, List.length_drop, List.length_singleton]
      omega
    exact hshort.isInfix.trans (List.drop_suffix j _).isInfix
  · rw [hfind, Nat.le_antisymm hj hge]

/-- The head of a message ends at its first empty line. -/
theorem find_headSep {head : Octets} (h : ¬ headSep <:+: head ++ [13, 10, 13]) (rest : Octets) :
    find headSep (head ++ headSep ++ rest) = some head.length :=
  find_append (@find_first 10 [13, 10, 13] head h) rest

end Find

/-! ## 2. Octets behind a message -/

/-- A request that is complete stays what it is. -/
theorem nextEventRequest_append {buf : Octets} {cseq : Octets} {total : ℕ}
    (h : nextEventRequest buf = some (cseq, total)) (more : Octets) :
    nextEventRequest (buf ++ more) = some (cseq, total) := by
  unfold nextEventRequest at h ⊢
  cases hfind : find headSep buf with
  | none =>
    rw [hfind] at h
    cases h
  | some headEnd =>
    rw [hfind] at h
    rw [find_append hfind]
    have hlen := find_length hfind
    dsimp only at h ⊢
    rw [List.take_append_of_le_length (by omega)]
    split at h
    · cases h
    · rename_i hlong
      rw [if_neg (by rw [List.length_append]; omega)]
      exact h

theorem nextEventRequest_le {buf : Octets} {cseq : Octets} {total : ℕ}
    (h : nextEventRequest buf = some (cseq, total)) : 4 ≤ total ∧ total ≤ buf.length := by
  unfold nextEventRequest at h
  split at h
  · cases h
  · dsimp only at h
    split at h
    · cases h
    · cases h
      omega

/-- It is complete without what comes behind it. -/
theorem nextEventRequest_take {buf : Octets} {cseq : Octets} {total : ℕ}
    (h : nextEventRequest buf = some (cseq, total)) :
    nextEventRequest (buf.take total) = some (cseq, total) := by
  have hle := nextEventRequest_le h
  unfold nextEventRequest at h ⊢
  cases hfind : find headSep buf with
  | none =>
    rw [hfind] at h
    cases h
  | some headEnd =>
    rw [hfind] at h
    dsimp only at h
    split at h
    · cases h
    · obtain ⟨hcseq, htotal⟩ := Prod.mk.inj (Option.some.inj h)
      have hhead : headEnd + headSep.length ≤ total := by
        rw [← htotal]
        exact Nat.le_add_right _ _
      rw [find_take hfind (List.cons_ne_nil _ _) hhead]
      dsimp only
      rw [List.take_take, Nat.min_eq_left ((Nat.le_add_right _ _).trans hhead), hcseq, htotal,
        List.length_take, Nat.min_eq_left hle.2, if_neg (Nat.lt_irrefl total)]

/-! ## 3. Header lines -/

section Lines

/-- Everything in a text is blank. -/
def Blank (s : Octets) : Prop := ∀ c ∈ s, isBlank c = true

instance (s : Octets) : Decidable (Blank s) := inferInstanceAs (Decidable (∀ c ∈ s, isBlank c = true))

theorem dropWhile_blank {s : Octets} : s.dropWhile isBlank = [] ↔ Blank s :=
  List.dropWhile_eq_nil_iff

/-- Blanks behind a text are stripped. -/
theorem trimAscii_append {s blanks : Octets} (h : Blank blanks) :
    trimAscii (s ++ blanks) = trimAscii s := by
  unfold trimAscii
  rw [List.dropWhile_append]
  split
  · rename_i hempty
    rw [List.isEmpty_iff.mp hempty, dropWhile_blank.mpr h]
  · rw [List.reverse_append, List.dropWhile_append]
    have hblanks : blanks.reverse.dropWhile isBlank = [] :=
      dropWhile_blank.mpr fun c hc => h c (List.mem_reverse.mp hc)
    rw [hblanks]
    rfl

/-- So are blanks before it. -/
theorem trimAscii_dropWhile (s : Octets) : trimAscii (s.dropWhile isBlank) = trimAscii s := by
  unfold trimAscii
  rw [List.dropWhile_idempotent]

/-- A text without its blanks at the end. -/
def trimEnd (s : Octets) : Octets := (s.reverse.dropWhile isBlank).reverse

theorem trimAscii_trimEnd (s : Octets) : trimAscii (trimEnd s) = trimAscii s := by
  have hsplit : s = trimEnd s ++ (s.reverse.takeWhile isBlank).reverse := by
    rw [trimEnd, ← List.reverse_append, List.takeWhile_append_dropWhile, List.reverse_reverse]
  have hblank : Blank (s.reverse.takeWhile isBlank).reverse := fun c hc =>
    List.mem_takeWhile_imp (List.mem_reverse.mp hc)
  conv => rhs; rw [hsplit]
  exact (trimAscii_append hblank).symm

theorem isBlank_of_lt {c : UInt8} (h : 32 < c.toNat) : isBlank c = false := by
  have hspace : c ≠ 32 := fun heq => absurd h (by rw [heq]; decide)
  have hcontrol : ¬ c ≤ 13 := fun hle => by
    have := UInt8.le_iff_toNat_le.mp hle
    simp at this
    omega
  simp [isBlank, hspace, hcontrol]

theorem isBlank_lower (c : UInt8) :
    isBlank (if 65 ≤ c && c ≤ 90 then c + 32 else c) = isBlank c := by
  split
  · rename_i hupper
    simp only [Bool.and_eq_true, decide_eq_true_eq, UInt8.le_iff_toNat_le] at hupper
    have hlow : 65 ≤ c.toNat := hupper.1
    have hhigh : c.toNat ≤ 90 := hupper.2
    have hadd : (c + 32).toNat = c.toNat + 32 := by
      have h32 : (32 : UInt8).toNat = 32 := rfl
      rw [UInt8.toNat_add, h32]
      omega
    rw [isBlank_of_lt (by omega), isBlank_of_lt (by omega)]
  · rfl

theorem trimAscii_lower (s : Octets) :
    trimAscii (lowerAscii (s.dropWhile isBlank)) = trimAscii (lowerAscii s) := by
  have hlower : lowerAscii (s.dropWhile isBlank) = (lowerAscii s).dropWhile isBlank := by
    unfold lowerAscii
    rw [List.dropWhile_map]
    congr 2
    funext c
    exact (isBlank_lower c).symm
  rw [hlower, trimAscii_dropWhile]

/-- **A header line is cut at its first colon**, and both halves lose their blanks. -/
theorem headerLine_field {name value : Octets} (hcolon : 58 ∉ name) (hname : ¬ Blank name) :
    headerLine (name ++ 58 :: value) =
      some (trimAscii (lowerAscii name), trimAscii value) := by
  have hlead : name.dropWhile isBlank ≠ [] := fun h => hname (dropWhile_blank.mp h)
  have hcut : trimAscii (name ++ 58 :: value) = name.dropWhile isBlank ++ 58 :: trimEnd value := by
    unfold trimAscii trimEnd
    have hdrop : (name ++ 58 :: value).dropWhile isBlank = name.dropWhile isBlank ++ 58 :: value := by
      rw [List.dropWhile_append, if_neg (by simpa using hlead)]
    rw [hdrop, List.reverse_append, List.reverse_cons, List.append_assoc, List.dropWhile_append]
    split
    · rename_i hempty
      rw [List.isEmpty_iff.mp hempty]
      simp [isBlank]
    · simp
  have hcolon' : 58 ∉ name.dropWhile isBlank := fun h => hcolon ((List.dropWhile_sublist _).subset h)
  have hfind : find [58] (name.dropWhile isBlank ++ 58 :: trimEnd value) =
      some (name.dropWhile isBlank).length := by
    have hfirst := @find_first 58 [] (name.dropWhile isBlank) fun hin =>
      hcolon' (by simpa using hin.subset List.mem_cons_self)
    have hmore := find_append hfirst (trimEnd value)
    simpa using hmore
  unfold headerLine
  rw [hcut]
  dsimp only
  rw [hfind]
  cases hlen : (name.dropWhile isBlank).length with
  | zero => exact absurd (List.length_eq_zero_iff.mp hlen) hlead
  | succ k =>
    have hvalue : (name.dropWhile isBlank ++ 58 :: trimEnd value).drop (k + 1 + 1) = trimEnd value := by
      rw [← hlen, ← List.drop_drop, List.drop_left]
      rfl
    show some (trimAscii (lowerAscii (List.take (k + 1) _)), _) = _
    rw [hvalue, ← hlen, List.take_left, trimAscii_lower, trimAscii_trimEnd]

/-- Blanks behind a line do not matter. -/
theorem headerLine_append {line blanks : Octets} (h : Blank blanks) :
    headerLine (line ++ blanks) = headerLine line := by
  unfold headerLine
  rw [trimAscii_append h]

theorem parseHeaders_eq (lines : List Octets) :
    parseHeaders lines = (lines.filterMap headerLine).reverse := by
  unfold parseHeaders
  rw [← List.append_nil (lines.filterMap headerLine).reverse]
  -- what is already there stays at the end
  generalize ([] : Headers) = acc
  induction lines generalizing acc with
  | nil => rfl
  | cons line lines ih =>
    rw [List.foldl_cons, ih, List.filterMap_cons]
    cases headerLine line <;> simp

/-- Lines, and what is between them. -/
def joinLines (lines : List Octets) : Octets := crlf.intercalate lines

theorem joinLines_cons (line next : Octets) (lines : List Octets) :
    joinLines (line :: next :: lines) = (line ++ [13]) ++ 10 :: joinLines (next :: lines) := by
  simp [joinLines, crlf, List.intercalate]

/-- **The headers of a head are those of its lines**, the last one first. -/
theorem parseHeaders_joinLines {lines : List Octets} (h : ∀ l ∈ lines, 10 ∉ l) :
    parseHeaders (splitOn (joinLines lines) 10) = (lines.filterMap headerLine).reverse := by
  rw [parseHeaders_eq]
  congr 1
  induction lines with
  | nil => rfl
  | cons line lines ih =>
    have hline := h line List.mem_cons_self
    cases lines with
    | nil =>
      have hone : joinLines [line] = line := by simp [joinLines, List.intercalate]
      rw [hone, splitOn, List.splitOn_eq_singleton hline]
    | cons next lines =>
      have hcr : 10 ∉ line ++ [13] := by simpa using hline
      have htrim : headerLine (line ++ [13]) = headerLine line :=
        headerLine_append fun c hc => by rw [List.mem_singleton.mp hc]; rfl
      rw [joinLines_cons, splitOn, List.splitOn_append_cons_self_of_not_mem hcr, List.filterMap_cons,
        htrim, List.filterMap_cons]
      have hrest := ih fun l hl => h l (List.mem_cons_of_mem line hl)
      rw [splitOn] at hrest
      rw [hrest]

/-- A header that is there once has its value, whichever end one looks from. -/
theorem headerValue_reverse {headers : Headers} {key default : Octets}
    (h : (headers.filter fun e => e.1 == key).length ≤ 1) :
    headerValue headers.reverse key default = headerValue headers key default := by
  unfold headerValue
  rw [← List.head?_filter, ← List.head?_filter, List.filter_reverse]
  generalize headers.filter (fun e => e.1 == key) = found at h
  cases found with
  | nil => rfl
  | cons e more =>
    cases more with
    | nil => rfl
    | cons => simp at h

end Lines

/-! ## 4. Numbers -/

/-- A number in decimal digits, leading zeros included. -/
def Spells (digits : Octets) (n : ℕ) : Prop :=
  digits ≠ [] ∧ (∀ c ∈ digits, 48 ≤ c.toNat ∧ c.toNat ≤ 57) ∧
    digits.foldl (fun v c => v * 10 + (c.toNat - 48)) 0 = n

theorem parseDigits_spells {digits : Octets} (hdigits : ∀ c ∈ digits, 48 ≤ c.toNat ∧ c.toNat ≤ 57) :
    ∀ v : ℕ, digits.foldl (fun v c => v * 10 + (c.toNat - 48)) v < 2 ^ 63 →
      parseDigits v digits = some (digits.foldl (fun v c => v * 10 + (c.toNat - 48)) v) := by
  induction digits with
  | nil => exact fun v _ => rfl
  | cons c cs ih =>
    intro v hlt
    obtain ⟨hlow, hhigh⟩ := hdigits c List.mem_cons_self
    have hgrow : ∀ (cs : Octets) (v : ℕ), v ≤ cs.foldl (fun v c => v * 10 + (c.toNat - 48)) v := by
      intro cs
      induction cs with
      | nil => exact fun v => le_rfl
      | cons c cs ih => exact fun v => (by omega : v ≤ v * 10 + (c.toNat - 48)).trans (ih _)
    have hnext := hgrow cs (v * 10 + (c.toNat - 48))
    rw [List.foldl_cons] at hlt ⊢
    rw [parseDigits, if_neg, if_neg, ih (fun d hd => hdigits d (List.mem_cons_of_mem c hd)) _ hlt]
    · omega
    · simp only [Bool.or_eq_true, decide_eq_true_eq, UInt8.lt_iff_toNat_lt, not_or, not_lt]
      exact ⟨hlow, hhigh⟩

/-- **`toInt` reads what is spelled**, up to the largest `int`. -/
theorem toInt_spells {digits : Octets} {n : ℕ} (h : Spells digits n) (hn : n < 2 ^ 31) :
    toInt digits = n := by
  obtain ⟨hne, hdigits, rfl⟩ := h
  obtain ⟨c, cs, rfl⟩ := List.exists_cons_of_ne_nil hne
  have hparse : parseInt (c :: cs) =
      some ((((c :: cs).foldl (fun v c => v * 10 + (c.toNat - 48)) 0 : ℕ)) : ℤ) := by
    obtain ⟨hlow, -⟩ := hdigits c List.mem_cons_self
    have hsign (s : UInt8) (hs : s.toNat < 48) : ((c :: cs).head? == some s) = false := by
      rw [List.head?_cons, beq_eq_false_iff_ne, ne_eq, Option.some_inj]
      rintro rfl
      exact absurd hlow (not_le.mpr hs)
    unfold parseInt
    rw [hsign 45 (by decide), hsign 43 (by decide)]
    simp only [Bool.or_self, Bool.false_eq_true, if_false, List.cons_ne_nil]
    rw [parseDigits_spells hdigits 0 (hn.trans (by decide))]
    rfl
  rw [toInt, hparse, Option.map_some, Option.getD_some, wrap32]
  generalize (c :: cs).foldl (fun v c => v * 10 + (c.toNat - 48)) 0 = n at hn
  refine Int.bmod_eq_of_le ?_ ?_ <;> omega

end AirplaySender
