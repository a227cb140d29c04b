import SocksDirect.MonitorIpc

namespace SocksDirect.MonitorIpc

/-!
# What is encoded is decoded again

Each encoder writes one line whose only line feed is its last byte, and the
decoder of the other side reads back exactly the record that was written, for
arbitrary byte strings in it.
-/

open ByteText

section Strings

/-- The four digits written for a control byte are read as that byte. -/
private theorem unicode_control {c : UInt8} (control : c < 0x20) : unicodeValue?
      (hexDigit (c.toNat / 4096 % 16)) (hexDigit (c.toNat / 256 % 16))
      (hexDigit (c.toNat / 16 % 16)) (hexDigit (c.toNat % 16)) = some c.toNat := by
  have small : c.toNat < 32 := by simpa [UInt8.lt_iff_toNat_lt] using control
  have readsBack : ∀ n < 32, unicodeValue?
            (hexDigit (n / 4096 % 16)) (hexDigit (n / 256 % 16))
            (hexDigit (n / 16 % 16)) (hexDigit (n % 16)) = some n := by
    decide
  exact readsBack c.toNat small

private theorem backslash_ne_quote : backslash ≠ quote := by
  decide

/-- The closing quote ends the string. -/
theorem parseStringBody_quote (out rest : Text) :
    parseStringBody out (quote :: rest) = some (out, rest) := by
  rw [parseStringBody.eq_def]
  simp

/-- Any other byte stands for itself. -/
theorem parseStringBody_plain
    {c : UInt8}
    (notQuote : c ≠ quote)
    (notBackslash : c ≠ backslash)
    (out rest : Text) :
    parseStringBody out (c :: rest) = parseStringBody (out ++ [c]) rest := by
  rw [parseStringBody.eq_def]
  simp [notQuote, notBackslash]

/-- An escape of one letter. -/
theorem parseStringBody_simple {esc byte : UInt8} (notUnicode : esc ≠ 0x75)
    (value : simpleEscape? esc = some byte) (out rest : Text) :
    parseStringBody out (backslash :: esc :: rest) = parseStringBody (out ++ [byte]) rest := by
  rw [parseStringBody.eq_def]
  simp [backslash_ne_quote, notUnicode, value]

/-- An escape by four digits. -/
theorem parseStringBody_unicode {h₁ h₂ h₃ h₄ : UInt8} {v : Nat}
    (value : unicodeValue? h₁ h₂ h₃ h₄ = some v) (out rest : Text) :
    parseStringBody out
      (backslash :: 0x75 :: h₁ :: h₂ :: h₃ :: h₄ :: rest) =
      parseStringBody (out ++ unicodeBytes v) rest := by
  rw [parseStringBody.eq_def]
  simp [backslash_ne_quote, value]

/-- What `json_escape` writes for a byte, `parse_string` reads as this byte. -/
theorem parseStringBody_escapeByte (c : UInt8) (out rest : Text) :
    parseStringBody out (escapeByte c ++ rest) = parseStringBody (out ++ [c]) rest := by
  fun_cases escapeByte with
  | case6 _ _ _ _ _ control =>
    have small : c.toNat < 0x80 := by
      have bound := UInt8.lt_iff_toNat_lt.mp control
      simp only [UInt8.toNat_ofNat] at bound
      omega
    refine (parseStringBody_unicode (unicode_control control) out rest).trans ?_
    simp [unicodeBytes, small]
  | case7 notBackslash notQuote => exact parseStringBody_plain notQuote notBackslash out rest
  | case1 same | case2 _ same | case3 _ _ same | case4 _ _ _ same | case5 _ _ _ _ same =>
    subst same
    exact parseStringBody_simple (by decide) rfl out rest

/-- An escaped text is read back, up to its closing quote. -/
theorem parseString_jsonEscape (s rest : Text) :
    parseString (jsonEscape s ++ rest) = some (s, rest) := by
  have body (out : Text) :
      parseStringBody out (s.flatMap escapeByte ++ quote :: rest) = some (out ++ s, rest) := by
    induction s generalizing out with
    | nil => simpa using parseStringBody_quote out rest
    | cons c tail inductionHypothesis =>
      rw [List.flatMap_cons, List.append_assoc, parseStringBody_escapeByte, inductionHypothesis]
      simp
  simpa [parseString, jsonEscape] using body []

end Strings

section Arrays

theorem skipWs_cons
    {c : UInt8}
    (notWs : isWs c = false)
    (rest : Text) :
    skipWs (c :: rest) = c :: rest := by
  simp [skipWs, notWs]

theorem skipWs_jsonEscape (s rest : Text) : skipWs (jsonEscape s ++ rest) = jsonEscape s ++ rest :=
  skipWs_cons (by decide) _

private theorem encodeElements_cons_cons (a b : Text) (elements : List Text) :
    encodeElements (a :: b :: elements) = jsonEscape a ++ 0x2c :: encodeElements (b :: elements) :=
  rfl

/-- The element loop reads back encoded elements and the closing bracket. -/
theorem parseElements_encodeElements
    (a : Text)
    (elements : List Text)
    (rest : Text)
    {fuel : Nat}
    (enough : elements.length < fuel)
    (out : List Text) :
    parseElements fuel out (encodeElements (a :: elements) ++ 0x5d :: rest) =
      some (out ++ a :: elements, rest) := by
  induction elements generalizing a fuel out with
  | nil =>
    obtain ⟨fuel, rfl⟩ := Nat.exists_eq_succ_of_ne_zero (Nat.ne_of_gt (Nat.zero_lt_of_lt enough))
    rw [encodeElements, parseElements, skipWs_jsonEscape, parseString_jsonEscape]
    simp [skipWs_cons (show isWs 0x5d = false by decide)]
  | cons b elements inductionHypothesis =>
    obtain ⟨fuel, rfl⟩ := Nat.exists_eq_succ_of_ne_zero (Nat.ne_of_gt (Nat.zero_lt_of_lt enough))
    rw [encodeElements_cons_cons, List.append_assoc, parseElements,
      skipWs_jsonEscape, parseString_jsonEscape]
    simp only [List.cons_append, skipWs_cons (show isWs 0x2c = false by decide)]
    rw [if_pos trivial, inductionHypothesis b (Nat.lt_of_succ_lt_succ enough)]
    simp

/-- The fuel of the array loop is enough. -/
private theorem length_le_encodeElements (elements : List Text) :
    elements.length ≤ (encodeElements elements).length := by
  induction elements with
  | nil => exact Nat.zero_le _
  | cons a elements inductionHypothesis =>
    cases elements with
    | nil => simp [encodeElements, jsonEscape]
    | cons b elements =>
      simp only [encodeElements, List.length_append, List.length_cons] at inductionHypothesis ⊢
      omega

/-- `parse_string_array` reads back an encoded array. -/
theorem parseStringArray_encodeElements (elements : List Text) (rest : Text) :
    parseStringArray (0x5b :: (encodeElements elements ++ 0x5d :: rest)) =
      some (elements, rest) := by
  rw [parseStringArray, skipWs_cons (by decide)]
  cases elements with
  | nil => simp [encodeElements, skipWs_cons (show isWs 0x5d = false by decide)]
  | cons a elements =>
    obtain ⟨tail, startsWithQuote⟩ :
        ∃ tail, encodeElements (a :: elements) ++ 0x5d :: rest = quote :: tail := by
      cases elements <;> simp [encodeElements, jsonEscape]
    have enough :
        elements.length < (encodeElements (a :: elements) ++ 0x5d :: rest).length + 1 := by
      have bytes := length_le_encodeElements (a :: elements)
      simp only [List.length_cons, List.length_append] at bytes ⊢
      omega
    have parsed := parseElements_encodeElements a elements rest enough []
    simp only [startsWithQuote, List.nil_append] at parsed ⊢
    rw [skipWs_cons (by decide)]
    simp only [↓reduceIte]
    exact parsed

end Arrays

section Lines

/-- An object keeps its last brace, with and without the line feed. -/
theorem stripLineEnd_brace
    (s : Text) :
    stripLineEnd (s ++ [0x7d, 0x0a]) = s ++ [0x7d] ∧
      stripLineEnd (s ++ [0x7d]) = s ++ [0x7d] := by
  have lineFeed : popBack 0x0a (s ++ [0x7d, 0x0a]) = s ++ [0x7d] := by simp [popBack]
  have brace (c : UInt8) (other : c ≠ 0x7d) : popBack c (s ++ [0x7d]) = s ++ [0x7d] := by
    simp [popBack, Ne.symm other]
  rw [stripLineEnd, stripLineEnd, lineFeed, brace 0x0a (by decide), brace 0x0d (by decide)]
  exact ⟨rfl, rfl⟩

/-- One round of the member loop on an encoded key. -/
theorem decodeMembers_key
    {Record : Type}
    (member : Text → Record → Text → Option (Record × Text))
    (fuel : Nat)
    (out : Record)
    (key value : Text) :
    decodeMembers member (fuel + 1) out (jsonEscape key ++ 0x3a :: value) =
      match member key out (skipWs value) with
      | none => none
      | some (out, rest) =>
        match skipWs rest with
        | [] => none
        | c :: rest =>
          if c = 0x2c then
            decodeMembers member fuel out rest
          else if c = 0x7d then
            some out
          else
            none := by
  have parsed := parseString_jsonEscape key (0x3a :: value)
  obtain ⟨tail, startsWithQuote⟩ : ∃ tail, jsonEscape key ++ 0x3a :: value = quote :: tail :=
    ⟨_, rfl⟩
  rw [startsWithQuote] at parsed ⊢
  rw [decodeMembers, skipWs_cons (by decide), List.head?_cons, if_neg (by decide), parsed]
  simp only
  rw [skipWs_cons (by decide)]
  rfl

/-- An object with two members, without its closing brace. -/
def objectText (key₁ value₁ key₂ value₂ : Text) : Text :=
  0x7b :: (jsonEscape key₁ ++ 0x3a :: (value₁ ++ 0x2c :: (jsonEscape key₂ ++ 0x3a :: value₂)))

/-- A decoder that understands two members reads an object made of them. -/
private theorem decodeObject_objectText {Record : Type}
    {member : Text → Record → Text → Option (Record × Text)} {empty first second : Record}
    {key₁ value₁ key₂ value₂ : Text}
    (reads₁ : ∀ rest, member key₁ empty (skipWs (value₁ ++ rest)) = some (first, rest))
    (reads₂ : ∀ rest, member key₂ first (skipWs (value₂ ++ rest)) = some (second, rest)) :
    decodeObject member empty
      (objectText key₁ value₁ key₂ value₂ ++ [0x7d, 0x0a]) = some second ∧ decodeObject member empty
      (objectText key₁ value₁ key₂ value₂ ++ [0x7d]) = some second := by
  have members (fuel : Nat) : decodeMembers member (fuel + 2) empty
          (jsonEscape key₁ ++ 0x3a :: (value₁ ++ 0x2c ::
            (jsonEscape key₂ ++ 0x3a :: (value₂ ++ [0x7d])))) = some second := by
    rw [decodeMembers_key, reads₁]
    simp only [skipWs_cons (show isWs 0x2c = false by decide), ↓reduceIte]
    rw [decodeMembers_key, reads₂]
    simp [skipWs_cons (show isWs 0x7d = false by decide)]
  have rounds (behind : Text) :
      ∃ fuel, (jsonEscape key₁ ++ 0x3a :: behind).length + 1 = fuel + 2 := by
    refine ⟨(key₁.flatMap escapeByte).length + behind.length + 2, ?_⟩
    simp only [jsonEscape, List.length_append, List.length_cons, List.length_nil]
    omega
  have object
      {s : Text}
      (stripped : stripLineEnd s = objectText key₁ value₁ key₂ value₂ ++ [0x7d]) :
      decodeObject member empty s = some second := by
    rw [decodeObject, stripped, objectText, List.cons_append, skipWs_cons (by decide)]
    simp only [↓reduceIte, List.append_assoc, List.cons_append]
    obtain ⟨fuel, enough⟩ := rounds
      (value₁ ++ 0x2c :: (jsonEscape key₂ ++ 0x3a :: (value₂ ++ [0x7d])))
    rw [enough]
    exact members fuel
  obtain ⟨withLineFeed, without⟩ := stripLineEnd_brace (objectText key₁ value₁ key₂ value₂)
  exact ⟨object withLineFeed, object without⟩

private theorem printable_escapeByte (c : UInt8) : ∀ byte ∈ escapeByte c, 0x20 ≤ byte := by
  have all : ∀ n < 256, (escapeByte (UInt8.ofNat n)).all (0x20 ≤ ·) = true := by decide +kernel
  simpa using all c.toNat c.toNat_lt

/-- An escaped text has no control bytes. -/
theorem printable_jsonEscape (s : Text) : ∀ byte ∈ jsonEscape s, 0x20 ≤ byte := by
  intro byte member
  simp only [jsonEscape, List.mem_cons, List.mem_append,
    List.mem_flatMap, List.not_mem_nil, or_false] at member
  rcases member with rfl | ⟨c, -, escaped⟩ | rfl
  · decide
  · exact printable_escapeByte c byte escaped
  · decide

theorem printable_encodeElements (elements : List Text) :
    ∀ byte ∈ encodeElements elements, 0x20 ≤ byte := by
  induction elements with
  | nil => simp [encodeElements]
  | cons a elements inductionHypothesis =>
    cases elements with
    | nil => exact printable_jsonEscape a
    | cons b elements =>
      intro byte member
      rw [encodeElements_cons_cons, List.mem_append, List.mem_cons] at member
      rcases member with first | rfl | others
      · exact printable_jsonEscape a byte first
      · decide
      · exact inductionHypothesis byte others

/-- A text without control bytes fits in one line. -/
theorem notMem_of_printable
    {s : Text}
    {c : UInt8}
    (printable : ∀ byte ∈ s, 0x20 ≤ byte)
    (control : c < 0x20) :
    c ∉ s := by
  intro member
  exact absurd control (UInt8.not_lt.mpr (printable c member))

theorem lineFeed_notMem_jsonEscape (s : Text) : (0x0a : UInt8) ∉ jsonEscape s :=
  notMem_of_printable (printable_jsonEscape s) (by decide)

/-- A line that has arrived is cut before its line feed. -/
theorem cutLine_line {s : Text} (noLineFeed : (0x0a : UInt8) ∉ s) : cutLine (s ++ [0x0a]) = s := by
  have kept : ∀ c ∈ s, decide (c ≠ 0x0a) = true := by
    intro c member
    refine decide_eq_true ?_
    rintro rfl
    exact noLineFeed member
  rw [cutLine, List.takeWhile_append_of_pos kept]
  simp

end Lines

section Lengths

private theorem length_escapeByte_le (c : UInt8) : (escapeByte c).length ≤ 6 := by
  unfold escapeByte
  repeat' split
  all_goals simp

/-- Escaping makes a text at most six times as long. -/
private theorem length_jsonEscape_le (s : Text) : (jsonEscape s).length ≤ 6 * s.length + 2 := by
  have body : (s.flatMap escapeByte).length ≤ 6 * s.length := by
    induction s with
    | nil => simp
    | cons c s inductionHypothesis =>
      have head := length_escapeByte_le c
      rw [List.flatMap_cons, List.length_append, List.length_cons]
      omega
  simp only [jsonEscape, List.length_cons, List.length_append, List.length_nil]
  omega

/-- A bound on the length of an encoded list of strings. -/
def encodedLength (elements : List Text) : Nat :=
  (elements.map fun element => 6 * element.length + 3).sum

private theorem length_encodeElements_le (elements : List Text) :
    (encodeElements elements).length ≤ encodedLength elements := by
  induction elements with
  | nil => simp [encodeElements]
  | cons a elements inductionHypothesis =>
    have head := length_jsonEscape_le a
    have bound : encodedLength (a :: elements) = 6 * a.length + 3 + encodedLength elements := by
      simp [encodedLength]
    cases elements with
    | nil =>
      rw [encodeElements]
      omega
    | cons b elements =>
      rw [encodeElements_cons_cons, List.length_append, List.length_cons]
      omega

/-- How long the line of a request can be. -/
theorem length_encodeRequest_le (req : CtlRequest) :
    (encodeRequest req).length ≤ 6 * req.op.length + encodedLength req.args + 20 := by
  have op := length_jsonEscape_le req.op
  have args := length_encodeElements_le req.args
  have frame : (ascii "\x7b\"op\":").length + (ascii ",\"args\":[").length +
        (ascii "]\x7d\n").length = 18 := by
    decide
  simp only [encodeRequest, List.length_append]
  omega

/-- How long the line of a positive response can be. -/
theorem length_encodeResponse_ok_le (lines : List Text) (error : Text) :
    (encodeResponse ⟨true, lines, error⟩).length ≤ encodedLength lines + 23 := by
  have elements := length_encodeElements_le lines
  have frame : (ascii "\x7b\"ok\":true,\"lines\":[").length + (ascii "]\x7d\n").length = 23 := by
    decide
  simp only [encodeResponse, if_true, List.length_append]
  omega

/-- A line within the limit is read as a whole. -/
theorem readLine_of_length_le {stream : Text} (short : stream.length ≤ lineLimit) :
    readLine stream = cutLine stream := by
  have cut : (cutLine stream).length ≤ stream.length :=
    List.Sublist.length_le (List.takeWhile_sublist _)
  exact List.take_of_length_le (by omega)

end Lengths

section RoundTrip

/-- An encoded array as a member value. -/
def arrayText (elements : List Text) : Text := 0x5b :: (encodeElements elements ++ [0x5d])

/-- An array of texts is read back. -/
theorem parseStringArray_arrayText (elements : List Text) (rest : Text) :
    parseStringArray (skipWs (arrayText elements ++ rest)) = some (elements, rest) := by
  rw [arrayText, List.cons_append, skipWs_cons (by decide), List.append_assoc]
  exact parseStringArray_encodeElements elements rest

/-- A request is an object of two members. -/
theorem encodeRequest_eq (req : CtlRequest) : encodeRequest req =
      objectText (ascii "op") (jsonEscape req.op)
      (ascii "args") (arrayText req.args) ++ [0x7d, 0x0a] := by
  have opening : ascii "\x7b\"op\":" = 0x7b :: (jsonEscape (ascii "op") ++ [0x3a]) := by decide
  have middle : ascii ",\"args\":[" = 0x2c :: (jsonEscape (ascii "args") ++ [0x3a, 0x5b]) := by
    decide
  have closing : ascii "]\x7d\n" = [0x5d, 0x7d, 0x0a] := by decide
  simp [encodeRequest, objectText, arrayText, opening, middle, closing]

/-- The value of the first member of a response. -/
def okText : Bool → Text
  | true => ascii "true"
  | false => ascii "false"

/-- An encoded response, without its closing brace. -/
def responseText (resp : CtlResponse) : Text :=
  if resp.ok then
    objectText (ascii "ok") (okText true) (ascii "lines") (arrayText resp.lines)
  else
    objectText (ascii "ok") (okText false) (ascii "error") (jsonEscape resp.error)

/-- The text of an encoded response. -/
theorem encodeResponse_eq (resp : CtlResponse) :
    encodeResponse resp = responseText resp ++ [0x7d, 0x0a] := by
  obtain ⟨ok, lines, error⟩ := resp
  cases ok with
  | true =>
    have opening : ascii "\x7b\"ok\":true,\"lines\":[" =
          0x7b :: (jsonEscape (ascii "ok") ++ 0x3a :: (okText true ++
            0x2c :: (jsonEscape (ascii "lines") ++ [0x3a, 0x5b]))) := by
      decide
    have closing : ascii "]\x7d\n" = [0x5d, 0x7d, 0x0a] := by decide
    simp [encodeResponse, responseText, objectText, arrayText, opening, closing]
  | false =>
    have opening : ascii "\x7b\"ok\":false,\"error\":" =
          0x7b :: (jsonEscape (ascii "ok") ++ 0x3a :: (okText false ++
            0x2c :: (jsonEscape (ascii "error") ++ [0x3a]))) := by
      decide
    have closing : ascii "\x7d\n" = [0x7d, 0x0a] := by decide
    simp [encodeResponse, responseText, objectText, opening, closing]

private theorem cutLine_objectText {key₁ value₁ key₂ value₂ : Text}
    (noLineFeed₁ : (0x0a : UInt8) ∉ value₁) (noLineFeed₂ : (0x0a : UInt8) ∉ value₂) :
    cutLine (objectText key₁ value₁ key₂ value₂ ++ [0x7d, 0x0a]) =
      objectText key₁ value₁ key₂ value₂ ++ [0x7d] := by
  have noLineFeed : (0x0a : UInt8) ∉ objectText key₁ value₁ key₂ value₂ ++ [0x7d] := by
    simp [objectText, lineFeed_notMem_jsonEscape, noLineFeed₁, noLineFeed₂]
  have cut := cutLine_line noLineFeed
  rwa [List.append_assoc] at cut

private theorem lineFeed_notMem_arrayText (elements : List Text) :
    (0x0a : UInt8) ∉ arrayText elements := by
  simp [arrayText,
    notMem_of_printable (printable_encodeElements elements) (show (0x0a : UInt8) < 0x20 by decide)]

/-- A response is one line. -/
theorem cutLine_responseText (resp : CtlResponse) :
    cutLine (responseText resp ++ [0x7d, 0x0a]) = responseText resp ++ [0x7d] := by
  obtain ⟨ok, lines, error⟩ := resp
  cases ok with
  | true => exact cutLine_objectText (by decide) (lineFeed_notMem_arrayText _)
  | false => exact cutLine_objectText (by decide) (lineFeed_notMem_jsonEscape _)

/-- The first member of a request, read into an empty one. -/
theorem requestMember_op (op rest : Text) : requestMember (ascii "op") ⟨⟨[], []⟩, false, false⟩
      (skipWs (jsonEscape op ++ rest)) = some (⟨⟨op, []⟩, true, false⟩, rest) := by
  simp [requestMember, skipWs_jsonEscape, parseString_jsonEscape]

/-- The second member of a request. -/
theorem requestMember_args
    (op : Text)
    (args : List Text)
    (rest : Text) :
    requestMember (ascii "args") ⟨⟨op, []⟩, true, false⟩ (skipWs (arrayText args ++ rest)) =
      some (⟨⟨op, args⟩, true, true⟩, rest) := by
  have other : ascii "args" ≠ ascii "op" := by decide
  simp [requestMember, other, parseStringArray_arrayText]

/-- A request is decoded as it was encoded, with or without the line feed. -/
theorem decodeRequest_encodeRequest (req : CtlRequest) :
    decodeRequest (encodeRequest req) = some req ∧
      decodeRequest (cutLine (encodeRequest req)) = some req := by
  obtain ⟨whole, line⟩ :=
    decodeObject_objectText (requestMember_op req.op) (requestMember_args req.op req.args)
  rw [encodeRequest_eq,
    cutLine_objectText (lineFeed_notMem_jsonEscape _) (lineFeed_notMem_arrayText _)]
  simp [decodeRequest, whole, line]

/-- The first member of a response. -/
theorem responseMember_ok (ok : Bool) (rest : Text) :
    responseMember (ascii "ok") ⟨⟨false, [], []⟩, false⟩
      (skipWs (okText ok ++ rest)) = some (⟨⟨ok, [], []⟩, true⟩, rest) := by
  cases ok with
  | true | false => rfl

/-- The second member of a positive response. -/
theorem responseMember_lines (lines : List Text) (rest : Text) :
    responseMember (ascii "lines") ⟨⟨true, [], []⟩, true⟩
      (skipWs (arrayText lines ++ rest)) = some (⟨⟨true, lines, []⟩, true⟩, rest) := by
  have other : ascii "lines" ≠ ascii "ok" := by decide
  simp [responseMember, other, parseStringArray_arrayText]

/-- The second member of a negative response. -/
theorem responseMember_error (error rest : Text) :
    responseMember (ascii "error") ⟨⟨false, [], []⟩, true⟩
      (skipWs (jsonEscape error ++ rest)) = some (⟨⟨false, [], error⟩, true⟩, rest) := by
  have other : ascii "error" ≠ ascii "ok" ∧ ascii "error" ≠ ascii "lines" := by decide
  simp [responseMember, other, skipWs_jsonEscape, parseString_jsonEscape]

/-- What the client makes of a response: only one of its texts is sent. -/
def CtlResponse.received (resp : CtlResponse) : CtlResponse :=
  ⟨resp.ok, if resp.ok then resp.lines else [], if resp.ok then [] else resp.error⟩

/-- A response is read back, with and without its line feed. -/
theorem decodeResponse_responseText (resp : CtlResponse) :
    decodeResponse (responseText resp ++ [0x7d, 0x0a]) = some resp.received ∧
      decodeResponse (responseText resp ++ [0x7d]) = some resp.received := by
  obtain ⟨ok, lines, error⟩ := resp
  cases ok with
  | true =>
    obtain ⟨whole, line⟩ :=
      decodeObject_objectText (responseMember_ok true) (responseMember_lines lines)
    simp [decodeResponse, responseText, whole, line, CtlResponse.received]
  | false =>
    obtain ⟨whole, line⟩ :=
      decodeObject_objectText (responseMember_ok false) (responseMember_error error)
    simp [decodeResponse, responseText, whole, line, CtlResponse.received]

/-- A response is decoded without the text that its kind does not send. -/
theorem decodeResponse_encodeResponse (resp : CtlResponse) :
    decodeResponse (cutLine (encodeResponse resp)) =
      some ⟨resp.ok, if resp.ok then resp.lines else [], if resp.ok then [] else resp.error⟩ := by
  rw [encodeResponse_eq, cutLine_responseText]
  exact (decodeResponse_responseText resp).2

end RoundTrip

end SocksDirect.MonitorIpc
