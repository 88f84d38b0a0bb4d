/-
# What the request texts say

The builders put a request together from about ten strings of different origin: identity and address,
session and challenge from the receiver, the MIME type of a cover.  None of them is quoted.  Each
builder's text is the text of a request (`Requests.Request`) all the same, as long as no line feed is
in these strings, and that is so where the sender strips it, where what it takes is cut from a line,
and else where the application and the host never say one (`Tidy`).

`requests_legible`: then what was written to the control channel reads back, with a strict reader, as
the requests of the session, each on the request line of its method and with no header but those the
builders name.  The application can break this with the MIME type of a cover: a line end in
it begins a header of its own.
-/
import AirplaySender.Heads
import AirplaySender.HeaderIntegers
import AirplaySender.Routing
import AirplaySender.Timeline
import AirplaySender.Lib.Requests
import Mathlib.Data.List.Forall2

namespace AirplaySender

open Octets Trace
open Requests (Request WellFormed render readAll bodyLength fieldLine lineEnd renderHead renderFields
  renderFields_append readAll_render length_le_flatMap_render)

/-! ## 1. Numbers in requests -/

/-- A decimal number. -/
def readNumber (s : Octets) : Option ℕ :=
  if s ≠ [] ∧ s.all (fun c => 48 ≤ c && c ≤ 57) then some (decimalValue s) else none

/-- The digits of a number are digits. -/
theorem mem_digitsIn {base : ℕ} (hbase : 0 < base) (digit : ℕ → UInt8) :
    ∀ (fuel n : ℕ) (acc : Octets), ∀ c ∈ digitsIn base digit fuel n acc,
      c ∈ acc ∨ ∃ d < base, c = digit d
  | 0, _, _, c, hc => .inl hc
  | fuel + 1, n, acc, c, hc => by
    unfold digitsIn at hc
    split at hc
    · rename_i hn
      rcases List.mem_cons.mp hc with rfl | hc
      · exact .inr ⟨n, hn, rfl⟩
      · exact .inl hc
    · rcases mem_digitsIn hbase digit fuel (n / base) _ c hc with hc | hc
      · rcases List.mem_cons.mp hc with rfl | hc
        · exact .inr ⟨n % base, Nat.mod_lt n hbase, rfl⟩
        · exact .inl hc
      · exact .inr hc

theorem mem_dec {n : ℕ} {c : UInt8} (h : c ∈ dec n) : 48 ≤ c ∧ c ≤ 57 := by
  rcases mem_digitsIn (by decide) _ _ _ _ c h with hc | ⟨d, hd, rfl⟩
  · cases hc
  · have hall : ∀ d < 10, 48 ≤ UInt8.ofNat (48 + d) ∧ UInt8.ofNat (48 + d) ≤ 57 := by decide
    exact hall d hd

theorem lineFeed_dec (n : ℕ) : 10 ∉ dec n := by
  intro h
  exact absurd (mem_dec h).1 (by decide)

theorem lineFeed_decInt (n : ℤ) : 10 ∉ decInt n := by
  unfold decInt
  split
  · exact List.not_mem_cons_of_ne_of_not_mem (by decide) (lineFeed_dec _)
  · exact lineFeed_dec _

theorem lineFeed_hexUpper (n : ℕ) : 10 ∉ hexUpper n := by
  intro h
  rcases mem_digitsIn (by decide) _ _ _ _ 10 h with hc | ⟨d, hd, heq⟩
  · cases hc
  · have hall : ∀ d < 16, 10 ≠ UInt8.ofNat (if d < 10 then 48 + d else 55 + d) := by decide
    exact hall d hd heq

theorem decimalValue_digitsIn : ∀ (fuel n : ℕ) (acc : Octets), n < fuel →
    decimalValue (digitsIn 10 (fun d => UInt8.ofNat (48 + d)) fuel n acc) =
      n * 10 ^ acc.length + decimalValue acc
  | 0, n, _, h => absurd h (Nat.not_lt_zero n)
  | fuel + 1, n, acc, h => by
    have hdigit : ∀ d < 10, digitValue (UInt8.ofNat (48 + d)) = d := by decide
    unfold digitsIn
    split
    · rename_i hn
      rw [decimalValue_cons, hdigit n hn]
    · have hsplit : n / 10 * 10 + n % 10 = n := Nat.div_add_mod' n 10
      rw [decimalValue_digitsIn fuel (n / 10) _ (by omega), decimalValue_cons,
        hdigit _ (Nat.mod_lt n (by decide)), List.length_cons, pow_succ]
      calc n / 10 * (10 ^ acc.length * 10) + (n % 10 * 10 ^ acc.length + decimalValue acc)
          = (n / 10 * 10 + n % 10) * 10 ^ acc.length + decimalValue acc := by ring
        _ = n * 10 ^ acc.length + decimalValue acc := by rw [hsplit]

theorem digitsIn_ne_nil (base : ℕ) (digit : ℕ → UInt8) :
    ∀ (fuel n : ℕ) (acc : Octets), acc ≠ [] ∨ 0 < fuel → digitsIn base digit fuel n acc ≠ []
  | 0, _, _, h => h.resolve_right (Nat.lt_irrefl 0)
  | fuel + 1, n, acc, _ => by
    unfold digitsIn
    split
    · simp
    · exact digitsIn_ne_nil base digit fuel _ _ (.inl (by simp))

theorem readNumber_dec (n : ℕ) : readNumber (dec n) = some n := by
  have hvalue : decimalValue (dec n) = n := by
    rw [dec, decimalValue_digitsIn (n + 1) n [] (Nat.lt_succ_self n)]
    simp
  have hne : dec n ≠ [] := digitsIn_ne_nil _ _ _ _ _ (.inr (Nat.succ_pos n))
  have hall : (dec n).all (fun c => 48 ≤ c && c ≤ 57) = true := by
    rw [List.all_eq_true]
    intro c hc
    simpa using mem_dec hc
  rw [readNumber, if_pos ⟨hne, hall⟩, hvalue]

/-! ## 2. The requests behind the texts -/

/-- The headers with the sender's identity. -/
def identityHeaders (s : Sender) : List (Octets × Octets) :=
  [(ascii "DACP-ID", s.dacpId), (ascii "Active-Remote", dec s.activeRemote.toNat),
    (ascii "Client-Instance", s.dacpId)]

def nameHeader (s : Sender) : Octets × Octets := (ascii "X-Apple-Client-Name", s.identity.name)

def agentHeader : Octets × Octets := (ascii "User-Agent", ascii "AirPlay/550.10")

def typeHeader (contentType : Octets) : List (Octets × Octets) :=
  if contentType = [] then [] else [(ascii "Content-Type", contentType)]

/-- The name of the header with the length of the body. -/
def lengthName : Octets := ascii "Content-Length"

def lengthHeader (body : Octets) : List (Octets × Octets) :=
  if body = [] then [] else [(lengthName, dec body.length)]

/-- The line of a request. -/
def requestLine (method uri : Octets) (version : String) : Octets :=
  method ++ ascii " " ++ uri ++ ascii " " ++ ascii version

/-- The credentials, where the receiver has asked for them. -/
def authorization [Primitives] (s : Sender) (method uri : Octets) : List (Octets × Octets) :=
  if s.digestNonce ≠ [] ∧ s.digestPassword ≠ [] then
    [(ascii "Authorization",
      digestAuthResponse method uri (ascii "iTunes") s.digestRealm s.digestPassword s.digestNonce)]
  else []

/-- What `sendRequest_` sends. -/
def rtspRequest [Primitives] (s : Sender) (method uri contentType body : Octets)
    (extra : List (Octets × Octets)) : Request where
  line := requestLine method uri "RTSP/1.0"
  headers := [(ascii "CSeq", decInt s.cseq)] ++ [agentHeader] ++ identityHeaders s ++ [nameHeader s] ++
    authorization s method uri ++ extra ++ typeHeader contentType ++ lengthHeader body
  body

/-- What `httpPost_` sends. -/
def httpRequest (s : Sender) (uri contentType body : Octets) : Request where
  line := requestLine (ascii "POST") uri "HTTP/1.1"
  headers := [(ascii "CSeq", decInt s.cseq)] ++ [agentHeader] ++
    [(ascii "Connection", ascii "keep-alive")] ++
    [(ascii "X-Apple-HKP", dec (if s.authMethod = .hapTransient then 4 else 3))] ++
    identityHeaders s ++ [nameHeader s] ++ typeHeader contentType ++
    [(lengthName, dec body.length)]
  body

/-- What `sendAp2Rtsp_` sends. -/
def ap2Request (s : Sender) (method uri contentType body : Octets) : Request where
  line := requestLine method uri "RTSP/1.0"
  headers := [(ascii "CSeq", decInt s.cseq)] ++ [agentHeader] ++ identityHeaders s ++ [nameHeader s] ++
    (if method = ascii "SETUP" then [(ascii "X-Apple-StreamID", dec 1)] else []) ++
    typeHeader contentType ++ lengthHeader body
  body

/-- What `onFeedbackTimer_` sends. -/
def feedbackRequest (s : Sender) : Request where
  line := requestLine (ascii "POST") (ascii "/feedback") "RTSP/1.0"
  headers := [(ascii "CSeq", decInt s.cseq)] ++ [agentHeader] ++ identityHeaders s ++
    [(lengthName, dec 0)]
  body := []

theorem headerText_eq (name : String) (value : Octets) :
    headerText name value = renderFields [(ascii name, value)] := by
  have hsep : ascii ": " = [58, 32] := rfl
  have hend : crlf = lineEnd := rfl
  simp [headerText, renderFields, fieldLine, hsep, hend]

theorem typeText_eq (contentType : Octets) :
    contentTypeText contentType = renderFields (typeHeader contentType) := by
  unfold contentTypeText typeHeader
  split
  · rfl
  · exact headerText_eq _ _

theorem lengthText_eq (body : Octets) : contentLengthText body = renderFields (lengthHeader body) := by
  unfold contentLengthText lengthHeader
  split
  · rfl
  · exact headerText_eq _ _

theorem identityText_eq (s : Sender) : identityText s = renderFields (identityHeaders s) := by
  rw [identityText, headerText_eq, headerText_eq, headerText_eq, ← renderFields_append,
    ← renderFields_append]
  rfl

theorem requestHead_eq (method uri : Octets) (version : String) (cseq : ℤ) :
    requestHead method uri version cseq =
      requestLine method uri version ++ lineEnd ++ renderFields [(ascii "CSeq", decInt cseq)] := by
  rw [requestHead, headerText_eq]
  rfl

theorem render_eq (r : Request) :
    render r = r.line ++ lineEnd ++ renderFields r.headers ++ crlf ++ r.body := by
  have hend : crlf = lineEnd := rfl
  simp [render, renderHead, hend]

theorem rtspText_eq [Primitives] (s : Sender) (method uri contentType body : Octets)
    (extra : List (Octets × Octets)) : rtspText s method uri contentType body extra =
      render (rtspRequest s method uri contentType body extra) := by
  have hauth : (if s.digestNonce ≠ [] ∧ s.digestPassword ≠ [] then
      headerText "Authorization"
        (digestAuthResponse method uri (ascii "iTunes") s.digestRealm s.digestPassword s.digestNonce)
      else []) = renderFields (authorization s method uri) := by
    unfold authorization
    split
    · exact headerText_eq _ _
    · rfl
  have hextra : extra.flatMap (fun h => h.1 ++ ascii ": " ++ h.2 ++ crlf) = renderFields extra := by
    refine List.flatMap_congr fun h _ => ?_
    have hsep : ascii ": " = [58, 32] := rfl
    have hend : crlf = lineEnd := rfl
    simp [fieldLine, hsep, hend]
  rw [rtspText, hauth, hextra, requestHead_eq, headerText_eq, headerText_eq, identityText_eq,
    typeText_eq, lengthText_eq, render_eq]
  simp only [rtspRequest, renderFields_append, List.append_assoc]
  rfl

theorem httpText_eq (s : Sender) (uri contentType body : Octets) :
    httpText s uri contentType body = render (httpRequest s uri contentType body) := by
  rw [httpText, requestHead_eq, headerText_eq, headerText_eq, headerText_eq, headerText_eq,
    headerText_eq, identityText_eq, typeText_eq, render_eq]
  simp only [httpRequest, renderFields_append, List.append_assoc]
  rfl

theorem ap2Text_eq (s : Sender) (method uri contentType body : Octets) :
    ap2Text s method uri contentType body = render (ap2Request s method uri contentType body) := by
  have hstream : (if method = ascii "SETUP" then headerText "X-Apple-StreamID" (dec 1) else []) =
      renderFields
        (if method = ascii "SETUP" then [(ascii "X-Apple-StreamID", dec 1)] else []) := by
    split
    · exact headerText_eq _ _
    · rfl
  rw [ap2Text, hstream, requestHead_eq, headerText_eq, headerText_eq, identityText_eq, typeText_eq,
    lengthText_eq, render_eq]
  simp only [ap2Request, renderFields_append, List.append_assoc]
  rfl

theorem feedbackText_eq (s : Sender) : feedbackText s = render (feedbackRequest s) := by
  rw [feedbackText, requestHead_eq, headerText_eq, headerText_eq, identityText_eq, render_eq]
  simp only [feedbackRequest, renderFields_append, List.append_assoc, List.append_nil]
  rfl

/-! ## 3. Requests that read back -/

/-- The headers the builders name, but for the length. -/
def headerWords : List String :=
  ["CSeq", "User-Agent", "Connection", "X-Apple-HKP", "DACP-ID", "Active-Remote", "Client-Instance",
    "X-Apple-Client-Name", "X-Apple-StreamID", "Authorization", "Session", "RTP-Info", "Range",
    "Transport", "Content-Type"]

def headerNames : List Octets := headerWords.map ascii

/-- One of these headers, on one line. -/
def Plain (h : Octets × Octets) : Prop := h.1 ∈ headerNames ∧ 10 ∉ h.2

theorem plain_of {name : String} {value : Octets} (hname : name ∈ headerWords)
    (hvalue : 10 ∉ value) : Plain (ascii name, value) := ⟨List.mem_map_of_mem hname, hvalue⟩

theorem headerNames_plain : ∀ name ∈ headerNames, (10 ∉ name ∧ 58 ∉ name) ∧ name ≠ lengthName := by
  decide +kernel

theorem lengthName_plain : 10 ∉ lengthName ∧ 58 ∉ lengthName := by decide +kernel

/-- A request that reads back, with no headers but those the builders name. -/
structure Legible (r : Request) : Prop extends WellFormed lengthName readNumber r where
  known : ∀ h ∈ r.headers, h.1 ∈ headerNames ∨ h.1 = lengthName

/-- Plain headers and the length of the body behind them. -/
theorem legible_length {line : Octets} {headers : List (Octets × Octets)} (hline : 10 ∉ line)
    (hplain : ∀ h ∈ headers, Plain h) (body : Octets) :
    Legible ⟨line, headers ++ [(lengthName, dec body.length)], body⟩ := by
  have hcases : ∀ h ∈ headers ++ [(lengthName, dec body.length)],
      Plain h ∨ h = (lengthName, dec body.length) := by
    intro h hh
    rcases List.mem_append.mp hh with hh | hh
    · exact .inl (hplain h hh)
    · exact .inr (List.mem_singleton.mp hh)
  refine ⟨⟨hline, fun h hh => ?_, fun h hh => ?_, ?_⟩, fun h hh => ?_⟩
  · rcases hcases h hh with hh | rfl
    · exact (headerNames_plain h.1 hh.1).1
    · exact lengthName_plain
  · rcases hcases h hh with hh | rfl
    · exact hh.2
    · exact lineFeed_dec _
  · have hnone : headers.filter (fun h => h.1 = lengthName) = [] := by
      rw [List.filter_eq_nil_iff]
      intro h hh
      simpa using (headerNames_plain h.1 (hplain h hh).1).2
    rw [bodyLength, List.filter_append, hnone]
    simp [readNumber_dec]
  · rcases hcases h hh with hh | rfl
    · exact .inl hh.1
    · exact .inr rfl

/-- Plain headers and the length of a body, if there is one. -/
theorem legible_lengthHeader {line : Octets} {headers : List (Octets × Octets)}
    (hline : 10 ∉ line) (hplain : ∀ h ∈ headers, Plain h) (body : Octets) :
    Legible ⟨line, headers ++ lengthHeader body, body⟩ := by
  unfold lengthHeader
  split
  · rename_i hbody
    have hnone : headers.filter (fun h => h.1 = lengthName) = [] := by
      rw [List.filter_eq_nil_iff]
      intro h hh
      simpa using (headerNames_plain h.1 (hplain h hh).1).2
    rw [List.append_nil, hbody]
    refine ⟨⟨hline, fun h hh => (headerNames_plain h.1 (hplain h hh).1).1,
      fun h hh => (hplain h hh).2, ?_⟩, fun h hh => .inl (hplain h hh).1⟩
    rw [bodyLength, hnone]
    rfl
  · exact legible_length hline hplain body

/-- No line feed in what goes into the heads. -/
structure Members.Clean (m : Members) : Prop where
  name : 10 ∉ m.identity.name
  localIp : 10 ∉ m.localIp
  dacpId : 10 ∉ m.dacpId
  rtspSession : 10 ∉ m.rtspSession
  digestRealm : 10 ∉ m.digestRealm
  digestNonce : 10 ∉ m.digestNonce
  npCoverMime : 10 ∉ m.npCoverMime

theorem lineFeed_hexEncode (b : Octets) : 10 ∉ hexEncode b := by
  intro h
  obtain ⟨x, -, hx⟩ := List.mem_flatMap.mp h
  have hall : ∀ d < 16, 10 ≠ hexDigit d := by decide
  have hlt := x.toNat_lt
  rcases List.mem_cons.mp hx with heq | hx
  · exact hall _ (by omega) heq
  · exact hall _ (Nat.mod_lt _ (by decide)) (List.mem_singleton.mp hx)

theorem lineFeed_append {a b : Octets} (ha : 10 ∉ a) (hb : 10 ∉ b) : 10 ∉ a ++ b := by
  rw [List.mem_append, not_or]
  exact ⟨ha, hb⟩

theorem lineFeed_rtspUri {s : Sender} (h : (membersOf s).Clean) : 10 ∉ s.rtspUri :=
  lineFeed_append (lineFeed_append (lineFeed_append (by decide) h.localIp)
    (by decide)) (lineFeed_dec _)

theorem lineFeed_requestLine {method uri : Octets} {version : String} (hmethod : 10 ∉ method)
    (huri : 10 ∉ uri) (hversion : 10 ∉ ascii version) : 10 ∉ requestLine method uri version :=
  lineFeed_append (lineFeed_append (lineFeed_append (lineFeed_append hmethod (by decide)) huri)
    (by decide)) hversion

/-- The headers every request begins with. -/
theorem plain_common {s : Sender} (h : (membersOf s).Clean) :
    ∀ x ∈ [(ascii "CSeq", decInt s.cseq)] ++ [agentHeader] ++ identityHeaders s ++ [nameHeader s],
      Plain x := by
  intro x hx
  simp only [identityHeaders, List.mem_append, List.mem_cons, List.not_mem_nil, or_false] at hx
  rcases hx with ((rfl | rfl) | rfl | rfl | rfl) | rfl
  · exact plain_of (by decide) (lineFeed_decInt _)
  · exact plain_of (by decide) (by decide)
  · exact plain_of (by decide) h.dacpId
  · exact plain_of (by decide) (lineFeed_dec _)
  · exact plain_of (by decide) h.dacpId
  · exact plain_of (by decide) h.name

theorem plain_typeHeader {contentType : Octets} (h : 10 ∉ contentType) :
    ∀ x ∈ typeHeader contentType, Plain x := by
  intro x hx
  unfold typeHeader at hx
  split at hx
  · cases hx
  · rw [List.mem_singleton.mp hx]
    exact plain_of (by decide) h

theorem plain_extra {s : Sender} (h : (membersOf s).Clean) {x : Octets × Octets} (hx : Extra s x) :
    Plain x := by
  cases hx with
  | session => exact plain_of (by decide) h.rtspSession
  | rtpInfo =>
    refine plain_of (by decide) ?_
    exact lineFeed_append (lineFeed_append (lineFeed_append (by decide) (lineFeed_dec _))
      (by decide)) (lineFeed_dec _)
  | range => exact plain_of (by decide) (by decide)
  | transport control timing =>
    refine plain_of (by decide) ?_
    exact lineFeed_append (lineFeed_append (lineFeed_append (by decide) (lineFeed_dec _))
      (by decide)) (lineFeed_dec _)

section Requests

variable [Primitives] {s : Sender}

theorem plain_authorization (h : (membersOf s).Clean) {method uri : Octets} (huri : 10 ∉ uri) :
    ∀ x ∈ authorization s method uri, Plain x := by
  intro x hx
  unfold authorization at hx
  split at hx
  · rw [List.mem_singleton.mp hx]
    refine plain_of (by decide) ?_
    refine lineFeed_append (lineFeed_append (lineFeed_append (lineFeed_append (lineFeed_append
      (lineFeed_append (lineFeed_append (lineFeed_append (lineFeed_append (lineFeed_append ?_ ?_) ?_)
        ?_) ?_) ?_) ?_) ?_) ?_) ?_) ?_
    all_goals first | exact h.digestRealm | exact h.digestNonce | exact huri |
      exact lineFeed_hexEncode _ | decide
  · cases hx

/-- An RTSP request reads back. -/
theorem legible_rtsp (h : (membersOf s).Clean) {method uri contentType body : Octets}
    {extra : List (Octets × Octets)} (hc : Composed s method uri contentType body extra) :
    Legible (rtspRequest s method uri contentType body extra) := by
  have hmethod : 10 ∉ method := by
    have hall : ∀ m ∈ ["OPTIONS", "ANNOUNCE", "SETUP", "RECORD", "SET_PARAMETER", "POST",
      "TEARDOWN"].map ascii, 10 ∉ m := by decide
    exact hall method hc.known
  have huri : 10 ∉ uri := by
    have htarget := hc.target
    simp only [List.mem_cons, List.not_mem_nil, or_false] at htarget
    rcases htarget with rfl | rfl | rfl
    · exact lineFeed_rtspUri h
    · decide
    · decide
  have htype : 10 ∉ contentType := by
    cases hc.content with
    | none => exact List.not_mem_nil
    | sdp | volume | metadata => decide
    | cover =>
      split
      · decide
      · exact h.npCoverMime
  refine legible_lengthHeader (lineFeed_requestLine hmethod huri (by decide))
    (fun x hx => ?_) body
  rcases List.mem_append.mp hx with hx | hx
  · rcases List.mem_append.mp hx with hx | hx
    · rcases List.mem_append.mp hx with hx | hx
      · exact plain_common h x hx
      · exact plain_authorization h huri x hx
    · exact plain_extra h (hc.extras x hx)
  · exact plain_typeHeader htype x hx

omit [Primitives] in
/-- So does a pairing post. -/
theorem legible_http (h : (membersOf s).Clean) {uri contentType : Octets} (huri : 10 ∉ uri)
    (htype : 10 ∉ contentType) (body : Octets) :
    Legible (httpRequest s uri contentType body) := by
  refine legible_length (lineFeed_requestLine (by decide) huri (by decide))
    (fun x hx => ?_) body
  rcases List.mem_append.mp hx with hx | hx
  · have hcommon := plain_common h
    simp only [List.mem_append, List.mem_singleton] at hx hcommon
    rcases hx with ((((hx | hx) | rfl) | rfl) | hx) | hx
    · exact hcommon x (.inl (.inl (.inl hx)))
    · exact hcommon x (.inl (.inl (.inr hx)))
    · exact plain_of (by decide) (by decide)
    · exact plain_of (by decide) (lineFeed_dec _)
    · exact hcommon x (.inl (.inr hx))
    · exact hcommon x (.inr hx)
  · exact plain_typeHeader htype x hx

omit [Primitives] in
/-- And a request of the AirPlay 2 setup. -/
theorem legible_ap2 (h : (membersOf s).Clean) {method uri contentType : Octets}
    (hmethod : 10 ∉ method) (huri : 10 ∉ uri) (htype : 10 ∉ contentType) (body : Octets) :
    Legible (ap2Request s method uri contentType body) := by
  refine legible_lengthHeader (lineFeed_requestLine hmethod huri (by decide))
    (fun x hx => ?_) body
  rcases List.mem_append.mp hx with hx | hx
  · rcases List.mem_append.mp hx with hx | hx
    · exact plain_common h x hx
    · split at hx
      · rw [List.mem_singleton.mp hx]
        exact plain_of (by decide) (lineFeed_dec _)
      · cases hx
  · exact plain_typeHeader htype x hx

omit [Primitives] in
theorem legible_feedback (h : (membersOf s).Clean) :
    Legible (feedbackRequest s) := by
  refine legible_length (lineFeed_requestLine (by decide) (by decide)
    (by decide)) (fun x hx => ?_) []
  exact plain_common h x (List.mem_append_left _ hx)

/-- A text is that of a legible request for a method. -/
def Worded (method text : Octets) : Prop :=
  ∃ r, Legible r ∧ render r = text ∧
    ∃ uri version, r.line = requestLine (wireMethod method) uri version

/-- **What the builders make of clean members is legible.** -/
theorem Built.worded {m : Members} {method text : Octets} {isHttp : Bool}
    (h : Built m method isHttp text) (hm : m.Clean) : Worded method text := by
  cases h with
  | @rtsp s hs method uri contentType body extra hc =>
    subst hs
    have hwire : wireMethod method = method := by
      have hall : ∀ m ∈ ["OPTIONS", "ANNOUNCE", "SETUP", "RECORD", "SET_PARAMETER", "POST",
        "TEARDOWN"].map ascii, wireMethod m = m := by decide
      exact hall method hc.known
    exact ⟨_, legible_rtsp hm hc, (rtspText_eq s _ _ _ _ _).symm, uri, "RTSP/1.0", by rw [hwire]; rfl⟩
  | @post s hs uri body huri =>
    subst hs
    have hclean : ∀ u ∈ ["/auth-setup", "/pair-pin-start", "/pair-setup", "/pair-verify"].map ascii,
        10 ∉ u := by decide
    exact ⟨_, legible_http hm (hclean uri huri) (by decide) body, (httpText_eq s _ _ _).symm,
      uri, "HTTP/1.1", rfl⟩
  | @info s hs =>
    subst hs
    exact ⟨_, legible_ap2 hm (by decide) (by decide) (by simp) [],
      (ap2Text_eq s _ _ _ _).symm, _, "RTSP/1.0", rfl⟩
  | @session s hs uuid =>
    subst hs
    exact ⟨_, legible_ap2 hm (by decide) (lineFeed_rtspUri hm) (by decide) _,
      (ap2Text_eq s _ _ _ _).symm, _, "RTSP/1.0", rfl⟩
  | @record s hs =>
    subst hs
    exact ⟨_, legible_ap2 hm (by decide) (lineFeed_rtspUri hm) (by simp) [],
      (ap2Text_eq s _ _ _ _).symm, _, "RTSP/1.0", rfl⟩
  | @feedback s hs =>
    subst hs
    exact ⟨_, legible_feedback hm, (feedbackText_eq s).symm, _, "RTSP/1.0", rfl⟩

end Requests

/-! ## 4. Every run -/

/-- What the application and the host hand to a header in one piece is on one line. -/
def Tidy : Action → Prop
  | .call (.setNowPlaying _ _ _ _ coverMime) => 10 ∉ coverMime
  | .onTcpConnected .control localEnd _ => 10 ∉ localEnd.ip
  | _ => True

theorem lineFeed_identityField (value : Octets) {default : Octets} (h : 10 ∉ default) :
    10 ∉ identityField value default := by
  unfold identityField
  split
  · exact h
  · simp [stripCrLf]

section Runs

variable [Primitives] {c c' : Wire} {w : World}

/-- No line feed gets into the heads, and what was requested is legible. -/
structure Tidied (c : Wire) : Prop where
  clean : c.Clean
  worded : ∀ cseq method isHttp text, .requested cseq method isHttp text ∈ c.log → Worded method text

/-- An entry that is no request, or a legible one. -/
def Entry.Spoken : Entry → Prop
  | .requested _ method _ text => Worded method text
  | _ => True

omit [Primitives] in
theorem Tidied.next (h : Tidied c) (es : List Entry) (hlog : c'.log = es ++ c.log)
    (hes : ∀ e ∈ es, e.Spoken) (hclean : c'.Clean) : Tidied c' := by
  refine ⟨hclean, fun cseq method isHttp text hmem => ?_⟩
  rw [hlog] at hmem
  rcases List.mem_append.mp hmem with hmem | hmem
  · exact hes _ hmem
  · exact h.worded cseq method isHttp text hmem

omit [Primitives] in
theorem spoken_of_isSocket {e : Entry} (h : e.isSocket = true) : e.Spoken := by
  cases e with
  | requested => cases h
  | _ => trivial

omit [Primitives] in
theorem Tidied.finished (h : Tidied c) (es : List Entry) (backlog : ℕ → Octets)
    (backlogSeq : ℕ → ℤ) (hes : ∀ e ∈ es, e.isSocket = true) :
    Tidied (c.finished es backlog backlogSeq) := by
  have hclean : (c.finished es backlog backlogSeq).Clean := ⟨h.clean.name, h.clean.localIp,
    h.clean.dacpId, h.clean.rtspSession, h.clean.digestRealm, h.clean.digestNonce, h.clean.npCoverMime⟩
  refine h.next (releaseEntries c.udpBound ++ es) (List.append_assoc _ _ _).symm ?_ hclean
  intro e he
  rcases List.mem_append.mp he with he | he
  · exact spoken_of_isSocket (isSocket_release e he)
  · exact spoken_of_isSocket (hes e he)

/-- What is sent for a volume is legible. -/
theorem Members.Conveys.spoken {m : Members} {p : Prop} {es : List Entry} (h : m.Conveys p es)
    (hm : m.Clean) : ∀ e ∈ es, e.Spoken := by
  intro e he
  by_cases hp : p
  · obtain ⟨cseq, text, ⟨s, hs, rfl⟩, rfl⟩ := h.1 hp
    rw [List.mem_singleton.mp he]
    have hc : Composed s (ascii "SET_PARAMETER") s.rtspUri (ascii "text/parameters")
        (ascii "volume: " ++ fixed6 s.pendingVolumeDb) (sessionHeader s) :=
      ⟨by decide, by simp, .volume _, extra_session, fun h => absurd h (by decide)⟩
    exact (Built.rtsp hs hc).worded hm
  · rw [h.2 hp] at he
    cases he

omit [Primitives] in
theorem Members.Syncs.spoken {m : Members} {es : List Entry} (h : m.Syncs es) :
    ∀ e ∈ es, e.Spoken := by
  intro e he
  obtain ⟨dest, mark, rfl⟩ := h.mem he
  trivial

theorem Tidied.act (h : Tidied c) (ha : Act Tidy c c') : Tidied c' := by
  obtain ⟨hname, hip, hdacp, hsession, hrealm, hnonce, hmime⟩ := h.clean
  have hempty : (10 : UInt8) ∉ ([] : Octets) := List.not_mem_nil
  have hsilent {c' : Wire} (hlog : c'.log = c.log) (hclean : c'.Clean) : Tidied c' :=
    h.next [] hlog (by simp) hclean
  have hone {c' : Wire} {e : Entry} (hlog : c'.log = e :: c.log) (he : e.Spoken)
      (hclean : c'.Clean) : Tidied c' := h.next [e] hlog (by simpa using he) hclean
  cases ha with
  | identify identity =>
    exact hsilent rfl ⟨lineFeed_identityField _ (by decide), hip, hdacp, hsession, hrealm, hnonce, hmime⟩
  | nowPlaying title artist album cover coverMime hok =>
    exact hsilent rfl ⟨hname, hip, hdacp, hsession, hrealm, hnonce, hok⟩
  | connected localEnd peer hok =>
    exact hsilent rfl ⟨hname, hok, hdacp, hsession, hrealm, hnonce, hmime⟩
  | blank => exact hsilent rfl ⟨hname, hempty, hdacp, hsession, hrealm, hnonce, hmime⟩
  | dacp n =>
    exact hsilent rfl ⟨hname, hip, lineFeed_hexUpper _, hsession, hrealm, hnonce, hmime⟩
  | begin seq auth airplay2 strict p =>
    have hclean : (c.begun seq auth airplay2 strict p).Clean :=
      ⟨hname, hip, hdacp, hempty, hempty, hempty, hmime⟩
    obtain ⟨es, hes, hlog⟩ := c.begun_log seq auth airplay2 strict p
    refine h.next (es ++ [.started auth airplay2 strict]) ?_ (fun e he => ?_) hclean
    · rw [hlog, List.append_assoc]
      rfl
    · rcases List.mem_append.mp he with he | he
      · exact spoken_of_isSocket (hes e he)
      · rw [List.mem_singleton.mp he]
        trivial
  | request cseq hbuilt =>
    exact hone rfl (hbuilt.worded h.clean) ⟨hname, hip, hdacp, hsession, hrealm, hnonce, hmime⟩
  | setUp live code headers body session _ hreceived =>
    exact hone rfl trivial ⟨hname, hip, hdacp, hreceived.1, hrealm, hnonce, hmime⟩
  | challenge realm nonce hrealm' hnonce' =>
    exact hsilent rfl ⟨hname, hip, hdacp, hsession, hrealm'.1, hnonce'.1, hmime⟩
  | @offer cseq s hs shk _ =>
    have hclean : (membersOf s).Clean := by
      rw [hs]
      exact h.clean
    have hworded : Worded (ascii "SETUP") (ap2Text s (ascii "SETUP") s.rtspUri plistType
        (Bplist.encode (streamPlist s shk))) :=
      ⟨_, legible_ap2 hclean (by decide) (lineFeed_rtspUri hclean) (by decide) _,
        (ap2Text_eq s _ _ _ _).symm, s.rtspUri, "RTSP/1.0", rfl⟩
    refine h.next [_, _] rfl (fun e he => ?_)
      ⟨hname, hip, hdacp, hsession, hrealm, hnonce, hmime⟩
    rcases List.mem_cons.mp he with rfl | he
    · exact hworded
    · rw [List.mem_singleton.mp he]
      trivial
  | volume dbfs sent hsent =>
    refine h.next (sent ++ [.volumeSet (c.state = .streaming) dbfs]) (by simp) (fun e he => ?_)
      ⟨hname, hip, hdacp, hsession, hrealm, hnonce, hmime⟩
    rcases List.mem_append.mp he with he | he
    · exact hsent.spoken ⟨hname, hip, hdacp, hsession, hrealm, hnonce, hmime⟩ e he
    · rw [List.mem_singleton.mp he]
      trivial
  | @enter ntp _ _ _ synced sent _ _ _ hsynced hsent =>
    refine h.next (sent ++ (synced ++ [.entered])) (by simp) (fun e he => ?_)
      ⟨hname, hip, hdacp, hsession, hrealm, hnonce, hmime⟩
    rcases List.mem_append.mp he with he | he
    · exact hsent.spoken ⟨hname, hip, hdacp, hsession, hrealm, hnonce, hmime⟩ e he
    rcases List.mem_append.mp he with he | he
    · exact hsynced.spoken e he
    · rw [List.mem_singleton.mp he]
      trivial
  | refuse controlPort =>
    have hsame : Tidied { c with serverPort := 0, controlPort } :=
      hsilent rfl ⟨hname, hip, hdacp, hsession, hrealm, hnonce, hmime⟩
    exact hsame.finished _ _ _ (by simp [Entry.isSocket])
  | fail | stop => exact h.finished _ _ _ (by simp [Entry.isSocket])
  | connect | dropEvent | clear | dispatch | pair | packet | sync | reply =>
    exact hone rfl trivial ⟨hname, hip, hdacp, hsession, hrealm, hnonce, hmime⟩
  | react | number | progress | note | secure | drain =>
    exact hsilent rfl ⟨hname, hip, hdacp, hsession, hrealm, hnonce, hmime⟩

theorem Tidied.turn (h : Tidied c) (ht : Turn Tidy c c') : Tidied c' := by
  obtain ⟨hname, hip, hdacp, hsession, hrealm, hnonce, hmime⟩ := h.clean
  have hsilent {c' : Wire} (hlog : c'.log = c.log) (hclean : c'.Clean) : Tidied c' :=
    h.next [] hlog (by simp) hclean
  cases ht with
  | act ha => exact h.act ha
  | arrives a _ ha =>
    cases ha with
    | refused bytes rxBuf rtspEncBuf =>
      have hsame : Tidied { c with rxBuf, rtspEncBuf } :=
        hsilent rfl ⟨hname, hip, hdacp, hsession, hrealm, hnonce, hmime⟩
      exact hsame.finished _ _ _ (by simp [Entry.isSocket])
    | hungUp => exact h.finished _ _ _ (by simp)
    | _ => exact hsilent rfl ⟨hname, hip, hdacp, hsession, hrealm, hnonce, hmime⟩

omit [Primitives] in
theorem Tidied.init (env : Env) : Tidied (wireOf (World.init env)) := by
  refine ⟨⟨?_, ?_, ?_, ?_, ?_, ?_, ?_⟩, fun _ _ _ _ hmem => ?_⟩
  · exact (by decide : 10 ∉ ({} : Identity).name)
  all_goals first | exact List.not_mem_nil | cases hmem

/-- What a strict reader makes of the octets on the control channel. -/
def readRequests (stream : Octets) : Option (List Request) :=
  readAll lengthName readNumber stream.length stream

/-- The request of a method. -/
def Speaks (r : Request) (m : Octets × Bool) : Prop :=
  Legible r ∧ ∃ uri version, r.line = requestLine (wireMethod m.1) uri version

omit [Primitives] in
/-- Entries with legible requests show the texts of legible requests. -/
theorem speaks_of_spoken : ∀ {log : List Entry}, (∀ e ∈ log, e.Spoken) →
    ∃ rs, rs.map render = texts log ∧ List.Forall₂ Speaks rs (requests log)
  | [], _ => ⟨[], rfl, .nil⟩
  | e :: log, h => by
    obtain ⟨rs, htexts, hrs⟩ := speaks_of_spoken fun x hx => h x (List.mem_cons_of_mem e hx)
    cases hreq : e.request? with
    | none =>
      have htext : e.text? = none := by
        cases e with
        | requested => cases hreq
        | _ => rfl
      refine ⟨rs, ?_, ?_⟩
      · rw [texts, shown_cons_none htext]
        exact htexts
      · rw [requests, shown_cons_none hreq]
        exact hrs
    | some m =>
      cases e with
      | requested cseq method isHttp text =>
        obtain rfl := Option.some.inj hreq
        obtain ⟨r, hlegible, hrender, hline⟩ := h _ List.mem_cons_self
        refine ⟨rs ++ [r], ?_, ?_⟩
        · rw [texts, shown_cons_some (f := Entry.text?) rfl, List.map_append, htexts, List.map_singleton,
            hrender]
          rfl
        · rw [requests, shown_cons_some (f := Entry.request?) rfl]
          exact List.rel_append hrs (.cons ⟨hlegible, hline⟩ .nil)
      | _ => cases hreq

/-- Every run keeps the heads tidy. -/
theorem run_tidied (depth : ℕ) {env : Env} {actions : List Action} (hactions : ∀ a ∈ actions, Tidy a)
    (hreactions : ∀ n, ∀ a ∈ env.reactions n, Tidy (.call a)) :
    Tidied (wireOf (@run _ (host depth) actions (World.init env))) := by
  obtain ⟨hturns, -⟩ := @run_turns _ Tidy (host depth) (host_heeds depth) (host_tame depth) actions
    (World.init env) Flow.init (reassembled_init env) hreactions hactions
  exact Prog.moves_keep (fun _ _ ht htidied => htidied.turn ht) hturns (Tidied.init env)

/-- **What is requested reads back.**  However a run goes in which the application and the host say no
line feed: the octets of the requests of a session are taken apart in one way, into the requests of
the session in order, each on the request line of its method and with no header but those the
builders name. -/
theorem requests_legible (depth : ℕ) (env : Env) (actions : List Action)
    (hactions : ∀ a ∈ actions, Tidy a)
    (hreactions : ∀ n, ∀ a ∈ env.reactions n, Tidy (.call a)) :
    ∃ rs, readRequests (texts (@run _ (host depth) actions (World.init env)).session).flatten = some rs ∧
      rs.map render = texts (@run _ (host depth) actions (World.init env)).session ∧
      List.Forall₂ Speaks rs (requests (@run _ (host depth) actions (World.init env)).session) := by
  have htidied := run_tidied depth hactions hreactions
  generalize @run _ (host depth) actions (World.init env) = w at htidied
  have hspoken : ∀ e ∈ w.session, e.Spoken := by
    intro e he
    have hout : e ∈ w.out := List.mem_of_mem_filter ((List.takeWhile_sublist _).subset he)
    cases e with
    | requested cseq method isHttp text =>
      exact htidied.worded cseq method isHttp text (List.mem_filter.mpr ⟨hout, rfl⟩)
    | _ => trivial
  obtain ⟨rs, htexts, hrs⟩ := speaks_of_spoken hspoken
  have hlegible : ∀ r ∈ rs, Legible r := ((List.forall₂_and_left rs _).mp hrs).1
  have hstream : (texts w.session).flatten = rs.flatMap render := by
    rw [← htexts, List.flatMap_def]
  refine ⟨rs, ?_, htexts, hrs⟩
  rw [hstream, readRequests]
  exact readAll_render (fun r hr => (hlegible r hr).toWellFormed) (length_le_flatMap_render rs)

end Runs

/-- A session whose sender has a name on two lines, and shows a cover. -/
def namedActions : List Action :=
  .call (.setIdentity { name := ascii "Stereo\r\nCSeq: 0" }) :: streamingActions ++
    [.call (.setNowPlaying (ascii "Title") (ascii "Artist") (ascii "Album") [1, 2, 3]
      (ascii "image/png"))]

theorem requests_legible_named :
    ∃ rs, readRequests (texts (worldAfter namedActions).session).flatten = some rs ∧
      rs.length = 9 := by
  have hcount : (requests (worldAfter namedActions).session).length = 9 := by decide +kernel
  have hip : 10 ∉ loopback.ip := by decide +kernel
  have hmime : 10 ∉ ascii "image/png" := by decide +kernel
  have htidy : ∀ a ∈ namedActions, Tidy a := by
    simp [namedActions, streamingActions, transientDone, transientM3, connected, sealedReply, Tidy,
      hip, hmime]
  have hlegible := @requests_legible trusting 0 .still namedActions htidy (by simp [Env.still])
  unfold worldAfter at hcount ⊢
  obtain ⟨rs, hread, -, hspeaks⟩ := hlegible
  exact ⟨rs, hread, hspeaks.length_eq.trans hcount⟩

end AirplaySender
