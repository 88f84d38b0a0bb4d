/-
# Requests on a stream

A request is a line, header lines of a name and a value, and a body.  On the stream every line ends
with CRLF, an empty one ends the head, and a body is as long as a header says.  `render` writes that.
The reader is strict: a head it cannot take apart, two lengths, a length that is no number and a body
that is cut off are all refused.

`readAll_render`: a run of requests reads back as these requests and nothing else, whatever is in
their bodies, as long as no line feed is in a line and no colon in a name, and the lengths are right.
The name of the header with the length, and how a number is written, are parameters.
-/
import AirplaySender.Lib.Octets

namespace Requests

/-- A request. -/
structure Request where
  line : Octets
  headers : List (Octets × Octets)
  body : Octets

/-! ## 1. Writing -/

/-- CRLF. -/
def lineEnd : Octets := [13, 10]

/-- A name and a value, with `": "` in between. -/
def fieldLine (h : Octets × Octets) : Octets := h.1 ++ 58 :: 32 :: h.2

/-- Header lines. -/
def renderFields (headers : List (Octets × Octets)) : Octets :=
  headers.flatMap fun h => fieldLine h ++ lineEnd

theorem renderFields_append (hs hs' : List (Octets × Octets)) :
    renderFields (hs ++ hs') = renderFields hs ++ renderFields hs' := List.flatMap_append

/-- The header lines and the empty one behind them. -/
def renderHead (headers : List (Octets × Octets)) : Octets := renderFields headers ++ lineEnd

/-- A request on the stream. -/
def render (r : Request) : Octets := r.line ++ lineEnd ++ renderHead r.headers ++ r.body

/-! ## 2. Reading -/

/-- The first line, and what is behind its end. -/
def cutLine : Octets → Option (Octets × Octets)
  | [] => none
  | c :: text =>
    if c = 13 ∧ text.head? = some 10 then some ([], text.tail)
    else (cutLine text).map fun p => (c :: p.1, p.2)

/-- A header line taken apart at its first colon. -/
def cutField : Octets → Option (Octets × Octets)
  | [] => none
  | c :: line =>
    if c = 58 then if line.head? = some 32 then some ([], line.tail) else none
    else (cutField line).map fun p => (c :: p.1, p.2)

/-- The headers up to the empty line, and what is behind it. -/
def cutHead : ℕ → Octets → Option (List (Octets × Octets) × Octets)
  | 0, _ => none
  | fuel + 1, text =>
    (cutLine text).bind fun p =>
      if p.1 = [] then some ([], p.2)
      else (cutField p.1).bind fun h => (cutHead fuel p.2).map fun q => (h :: q.1, q.2)

variable (lengthName : Octets) (number : Octets → Option ℕ)

/-- How long the body is: 0 where no header says so. -/
def bodyLength (headers : List (Octets × Octets)) : Option ℕ :=
  match headers.filter fun h => h.1 = lengthName with
  | [] => some 0
  | [h] => number h.2
  | _ => none

/-- The first request of a stream, and what is behind it. -/
def read (text : Octets) : Option (Request × Octets) :=
  (cutLine text).bind fun p => (cutHead p.2.length p.2).bind fun q =>
    (bodyLength lengthName number q.1).bind fun n =>
      if q.2.length < n then none else some (⟨p.1, q.1, q.2.take n⟩, q.2.drop n)

/-- All requests of a stream. -/
def readAll : ℕ → Octets → Option (List Request)
  | _, [] => some []
  | 0, _ => none
  | fuel + 1, text =>
    (read lengthName number text).bind fun p => (readAll fuel p.2).map fun rs => p.1 :: rs

/-! ## 3. What is written reads back -/

/-- Nothing in a request ends a line of it early, and its body is as long as its head says. -/
structure WellFormed (r : Request) : Prop where
  line : 10 ∉ r.line
  names : ∀ h ∈ r.headers, 10 ∉ h.1 ∧ 58 ∉ h.1
  values : ∀ h ∈ r.headers, 10 ∉ h.2
  length : bodyLength lengthName number r.headers = some r.body.length

theorem cutLine_append {line : Octets} (h : 10 ∉ line) (rest : Octets) :
    cutLine (line ++ (lineEnd ++ rest)) = some (line, rest) := by
  induction line with
  | nil => rfl
  | cons c line ih =>
    obtain ⟨hc, hline⟩ := not_or.mp (fun hmem => h (List.mem_cons.mpr hmem))
    have hhead : (line ++ (lineEnd ++ rest)).head? ≠ some 10 := by
      cases line with
      | nil => simp [lineEnd]
      | cons d line =>
        intro heq
        obtain rfl : d = 10 := Option.some.inj heq
        exact hline List.mem_cons_self
    rw [List.cons_append, cutLine, if_neg fun hboth => hhead hboth.2, ih hline]
    rfl

theorem cutField_fieldLine {name : Octets} (h : 58 ∉ name) (value : Octets) :
    cutField (fieldLine (name, value)) = some (name, value) := by
  induction name with
  | nil => rfl
  | cons c name ih =>
    obtain ⟨hc, hname⟩ := not_or.mp (fun hmem => h (List.mem_cons.mpr hmem))
    have hcons : fieldLine (c :: name, value) = c :: fieldLine (name, value) := rfl
    rw [hcons, cutField, if_neg (Ne.symm hc), ih hname]
    rfl

theorem fieldLine_ne_nil (h : Octets × Octets) : fieldLine h ≠ [] := by
  simp [fieldLine]

theorem cutHead_renderHead : ∀ {fuel : ℕ} {headers : List (Octets × Octets)},
    (∀ h ∈ headers, 10 ∉ h.1 ∧ 58 ∉ h.1) → (∀ h ∈ headers, 10 ∉ h.2) → headers.length < fuel →
      ∀ rest, cutHead fuel (renderHead headers ++ rest) = some (headers, rest)
  | 0, _, _, _, hfuel, _ => absurd hfuel (Nat.not_lt_zero _)
  | fuel + 1, [], _, _, _, rest => by
    rw [cutHead, renderHead, renderFields, List.flatMap_nil, List.nil_append]
    have hnil : (10 : UInt8) ∉ ([] : Octets) := List.not_mem_nil
    have hcut : cutLine (lineEnd ++ rest) = some ([], rest) := cutLine_append hnil rest
    rw [hcut]
    rfl
  | fuel + 1, h :: headers, hnames, hvalues, hfuel, rest => by
    have hline : 10 ∉ fieldLine h := by
      simp only [fieldLine, List.mem_append, List.mem_cons, not_or]
      exact ⟨(hnames h List.mem_cons_self).1, by decide, by decide, hvalues h List.mem_cons_self⟩
    have hsplit : renderHead (h :: headers) ++ rest =
        fieldLine h ++ (lineEnd ++ (renderHead headers ++ rest)) := by
      simp [renderHead, renderFields]
    have hrest := cutHead_renderHead
      (fun x hx => hnames x (List.mem_cons_of_mem h hx))
      (fun x hx => hvalues x (List.mem_cons_of_mem h hx)) (Nat.lt_of_succ_lt_succ hfuel) rest
    have hheader : cutField (fieldLine h) = some h :=
      cutField_fieldLine (hnames h List.mem_cons_self).2 h.2
    rw [hsplit, cutHead, cutLine_append hline, Option.bind_some, if_neg (fieldLine_ne_nil h),
      hheader, Option.bind_some, hrest]
    rfl

theorem length_lt_renderHead (headers : List (Octets × Octets)) :
    headers.length < (renderHead headers).length := by
  induction headers with
  | nil => decide
  | cons h headers ih =>
    have hcons : renderHead (h :: headers) = fieldLine h ++ (lineEnd ++ renderHead headers) := by
      simp [renderHead, renderFields]
    rw [hcons, List.length_cons, List.length_append, List.length_append]
    have hend : lineEnd.length = 2 := rfl
    omega

variable {lengthName : Octets} {number : Octets → Option ℕ}

/-- **A request reads back**, and what comes behind it is left. -/
theorem read_render {r : Request} (h : WellFormed lengthName number r) (rest : Octets) :
    read lengthName number (render r ++ rest) = some (r, rest) := by
  have hsplit : render r ++ rest =
      r.line ++ (lineEnd ++ (renderHead r.headers ++ (r.body ++ rest))) := by
    simp [render]
  have hfuel : r.headers.length < (renderHead r.headers ++ (r.body ++ rest)).length := by
    rw [List.length_append]
    exact Nat.lt_of_lt_of_le (length_lt_renderHead _) (Nat.le_add_right _ _)
  rw [hsplit, read, cutLine_append h.line, Option.bind_some,
    cutHead_renderHead h.names h.values hfuel, Option.bind_some, h.length, Option.bind_some,
    if_neg (by simp), List.take_left, List.drop_left]

theorem render_ne_nil (r : Request) : render r ≠ [] := by
  simp [render, lineEnd]

/-- **A run of requests reads back**: there is one way to take it apart. -/
theorem readAll_render : ∀ {fuel : ℕ} {rs : List Request},
    (∀ r ∈ rs, WellFormed lengthName number r) → rs.length ≤ fuel →
      readAll lengthName number fuel (rs.flatMap render) = some rs
  | fuel, [], _, _ => by
    cases fuel <;> rfl
  | 0, _ :: _, _, hfuel => absurd hfuel (Nat.not_succ_le_zero _)
  | fuel + 1, r :: rs, hwf, hfuel => by
    have hrest := readAll_render (fun x hx => hwf x (List.mem_cons_of_mem r hx))
      (Nat.le_of_succ_le_succ hfuel)
    have hread := read_render (hwf r List.mem_cons_self) (rs.flatMap render)
    have hne : render r ++ rs.flatMap render ≠ [] := by
      simp [render_ne_nil r]
    rw [List.flatMap_cons]
    rw [readAll, hread, Option.bind_some, hrest]
    · rfl
    · exact hne

theorem length_le_flatMap_render (rs : List Request) :
    rs.length ≤ (rs.flatMap render).length := by
  induction rs with
  | nil => rfl
  | cons r rs ih =>
    have hpos := List.length_pos_of_ne_nil (render_ne_nil r)
    rw [List.flatMap_cons, List.length_cons, List.length_append]
    omega

end Requests
