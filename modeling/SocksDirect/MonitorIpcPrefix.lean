import SocksDirect.MonitorIpcRoundTrip

namespace SocksDirect.MonitorIpc

/-!
# Messages that are cut off

A reader that gets a part of a line must not take it for a message.  The parsers
never look behind what they read, so whatever they read from a part of a text
they also read from the text.  No part of an encoded request is a request.  A
part of a response that ends right behind the comma is a response to the decoder:
its loop ends with the text, and the first member is all that it asks for.
-/

open ByteText

section Incremental

/-- What a parser reads does not depend on what is behind it. -/
def Incremental {Value : Type} (parse : Text → Option (Value × Text)) : Prop :=
  ∀ s value rest, parse s = some (value, rest) →
    ∀ behind, parse (s ++ behind) = some (value, rest ++ behind)

theorem skipWs_append {s : Text} (nonempty : skipWs s ≠ []) (behind : Text) :
    skipWs (s ++ behind) = skipWs s ++ behind := by
  unfold skipWs at nonempty ⊢
  rw [List.dropWhile_append, if_neg]
  simpa using nonempty

theorem Incremental.skipWs {Value : Type} {parse : Text → Option (Value × Text)}
    (incremental : Incremental parse) (needsByte : parse [] = none) :
    Incremental fun s => parse (MonitorIpc.skipWs s) := by
  intro s value rest parsed behind
  dsimp only at parsed ⊢
  have nonempty : MonitorIpc.skipWs s ≠ [] := by
    intro empty
    rw [empty, needsByte] at parsed
    cases parsed
  rw [skipWs_append nonempty]
  exact incremental _ value rest parsed behind

theorem parseStringBody_incremental (out : Text) : Incremental (parseStringBody out) := by
  intro s value rest parsed behind
  fun_induction parseStringBody out s with
  | case1 | case3 | case4 | case6 | case7 => cases parsed
  | case2 out tail =>
    cases parsed
    exact parseStringBody_quote _ _
  | case5 out h₁ h₂ h₃ h₄ tail v escape _ inductionHypothesis =>
    exact (parseStringBody_unicode escape out _).trans (inductionHypothesis parsed)
  | case8 out esc tail notUnicode byte escape _ inductionHypothesis =>
    exact (parseStringBody_simple notUnicode escape out _).trans (inductionHypothesis parsed)
  | case9 out c tail notQuote notBackslash inductionHypothesis =>
    exact (parseStringBody_plain notQuote notBackslash out _).trans (inductionHypothesis parsed)

theorem parseString_incremental : Incremental parseString := by
  intro s value rest parsed behind
  cases s with
  | nil => cases parsed
  | cons c tail =>
    simp only [parseString, Option.ite_none_right_eq_some, List.cons_append] at parsed ⊢
    exact ⟨parsed.1, parseStringBody_incremental [] tail value rest parsed.2 behind⟩

theorem parseString_skipWs_incremental : Incremental fun s => parseString (skipWs s) :=
  parseString_incremental.skipWs rfl

/-- The element loop ends at its closing bracket, with any more rounds. -/
theorem parseElements_append {fuel : Nat} {out value : List Text} {s rest : Text}
    (parsed : parseElements fuel out s = some (value, rest)) (more : Nat) (behind : Text) :
    parseElements (fuel + more) out (s ++ behind) = some (value, rest ++ behind) := by
  induction fuel generalizing out s with
  | zero => cases parsed
  | succ fuel inductionHypothesis =>
    rw [Nat.succ_add]
    unfold parseElements at parsed ⊢
    cases element : parseString (skipWs s) with
    | none =>
      rw [element] at parsed
      cases parsed
    | some read =>
      obtain ⟨tmp, tail⟩ := read
      have longer := parseString_skipWs_incremental s tmp tail element behind
      dsimp only at longer
      rw [element] at parsed
      rw [longer]
      dsimp only at parsed ⊢
      cases separator : skipWs tail with
      | nil =>
        rw [separator] at parsed
        cases parsed
      | cons c afterwards =>
        have nonempty : skipWs tail ≠ [] := by simp [separator]
        rw [separator] at parsed
        rw [skipWs_append nonempty, separator]
        dsimp only [List.cons_append] at parsed ⊢
        split at parsed
        · rename_i isComma
          rw [if_pos isComma]
          exact inductionHypothesis parsed
        · rename_i notComma
          rw [if_neg notComma]
          split at parsed
          · rename_i isBracket
            cases parsed
            rw [if_pos isBracket]
          · cases parsed

/-- `parse_string_array`. -/
theorem parseStringArray_incremental : Incremental parseStringArray := by
  intro s value rest parsed behind
  unfold parseStringArray at parsed ⊢
  cases opening : skipWs s with
  | nil =>
    rw [opening] at parsed
    cases parsed
  | cons c inside =>
    have nonempty : skipWs s ≠ [] := by simp [opening]
    rw [opening] at parsed
    rw [skipWs_append nonempty, opening]
    simp only [List.cons_append, Option.ite_none_right_eq_some] at parsed ⊢
    refine ⟨parsed.1, ?_⟩
    have found := parsed.2
    cases first : skipWs inside with
    | nil =>
      rw [first] at found
      cases found
    | cons d tail =>
      have nonempty : skipWs inside ≠ [] := by simp [first]
      rw [first] at found
      rw [skipWs_append nonempty, first]
      dsimp only [List.cons_append] at found ⊢
      split at found
      · rename_i isBracket
        cases found
        rw [if_pos isBracket]
      · rename_i notBracket
        rw [if_neg notBracket, List.length_append, Nat.add_right_comm]
        exact parseElements_append found behind.length behind

theorem parseStringArray_skipWs_incremental : Incremental fun s => parseStringArray (skipWs s) :=
  parseStringArray_incremental.skipWs rfl

end Incremental

section Parts

variable {Record : Type} {member : Text → Record → Text → Option (Record × Text)}
variable {out read : Record} {key value part missing tail : Text}

/-- The member loop on a part fails, or reads nothing, or has read the member. -/
theorem decodeMembers_part (incremental : Incremental fun s => member key out (skipWs s))
    (reads : ∀ rest, member key out (skipWs (value ++ rest)) = some (read, rest))
    (cut : part ++ missing = jsonEscape key ++ 0x3a :: (value ++ tail)) (fuel : Nat) :
    decodeMembers member (fuel + 1) out part = none ∨ part = [] ∨ ∃ rest, rest ++ missing = tail ∧
          part = jsonEscape key ++ 0x3a :: (value ++ rest) ∧
          decodeMembers member (fuel + 1) out part =
            match skipWs rest with
            | [] => none
            | c :: rest =>
              if c = 0x2c then
                decodeMembers member fuel read rest
              else if c = 0x7d then
                some read
              else
                none := by
  cases part with
  | nil => exact .inr (.inl rfl)
  | cons c inside =>
    obtain rfl : c = quote := by
      have firsts := congrArg List.head? cut
      exact Option.some.inj firsts
    have noWs : skipWs (quote :: inside) = quote :: inside := skipWs_cons (by decide) _
    rw [decodeMembers, noWs, List.head?_cons, if_neg (by decide)]
    cases parsedKey : parseString (quote :: inside) with
    | none => exact .inl rfl
    | some parsed =>
      obtain ⟨foundKey, afterKey⟩ := parsed
      have longer := parseString_incremental _ _ _ parsedKey missing
      rw [cut, parseString_jsonEscape, Option.some.injEq, Prod.mk.injEq] at longer
      obtain ⟨rfl, afterKeyCut⟩ := longer
      cases afterKey with
      | nil => exact .inl rfl
      | cons colon valuePart =>
        rw [List.cons_append, List.cons.injEq] at afterKeyCut
        obtain ⟨rfl, valueCut⟩ := afterKeyCut
        dsimp only
        rw [skipWs_cons (by decide)]
        dsimp only
        rw [if_pos rfl]
        cases parsedValue : member key out (skipWs valuePart) with
        | none => exact .inl rfl
        | some parsed =>
          obtain ⟨found, rest⟩ := parsed
          have longer := incremental _ _ _ parsedValue missing
          dsimp only at longer
          rw [← valueCut, reads, Option.some.injEq, Prod.mk.injEq] at longer
          obtain ⟨rfl, restCut⟩ := longer
          refine .inr (.inr ⟨rest, restCut.symm, ?_, rfl⟩)
          rw [restCut, ← List.append_assoc value, ← List.cons_append, ← List.append_assoc] at cut
          exact List.append_cancel_right cut

/-- On a part a decoder fails, or has read nothing, or the part ends behind the comma. -/
theorem decodeObject_part {empty first second : Record} {key₁ value₁ key₂ value₂ : Text}
    (incremental₁ : Incremental fun s => member key₁ empty (skipWs s))
    (incremental₂ : Incremental fun s => member key₂ first (skipWs s))
    (reads₁ : ∀ rest, member key₁ empty (skipWs (value₁ ++ rest)) = some (first, rest))
    (reads₂ : ∀ rest, member key₂ first (skipWs (value₂ ++ rest)) = some (second, rest))
    (isPart : part <+: objectText key₁ value₁ key₂ value₂) (stripped : stripLineEnd part = part) :
    decodeObject member empty part = none ∨ decodeObject member empty part = some empty ∨
      (part = 0x7b :: (jsonEscape key₁ ++ 0x3a :: (value₁ ++ [0x2c])) ∧
      decodeObject member empty part = some first) := by
  obtain ⟨missing, cut⟩ := isPart
  unfold decodeObject
  rw [stripped]
  cases part with
  | nil => exact .inl rfl
  | cons c inside =>
    rw [objectText, List.cons_append, List.cons.injEq] at cut
    obtain ⟨rfl, insideCut⟩ := cut
    rw [skipWs_cons (by decide)]
    dsimp only
    rw [if_pos rfl]
    cases inside with
    | nil => exact .inr (.inl rfl)
    | cons c inside =>
      rcases decodeMembers_part incremental₁ reads₁ insideCut
          (c :: inside).length with
        failed | nothing | ⟨rest, restCut, read, continues⟩
      · exact .inl failed
      · cases nothing
      · rw [continues]
        cases rest with
        | nil => exact .inl rfl
        | cons comma rest =>
          rw [List.cons_append, List.cons.injEq] at restCut
          obtain ⟨rfl, secondCut⟩ := restCut
          rw [skipWs_cons (by decide)]
          dsimp only
          rw [if_pos rfl]
          cases rest with
          | nil => exact .inr (.inr ⟨congrArg (0x7b :: ·) read, rfl⟩)
          | cons d rest =>
            rw [← List.append_nil value₂] at secondCut
            rcases decodeMembers_part incremental₂ reads₂
                secondCut inside.length with
              failed | nothing | ⟨behind, behindCut, _, ends⟩
            · exact .inl failed
            · cases nothing
            · obtain ⟨rfl, -⟩ := List.append_eq_nil_iff.mp behindCut
              exact .inl ends

end Parts

section Lines

theorem printable_object {key₁ value₁ key₂ value₂ : Text}
    (printable₁ : ∀ byte ∈ value₁, 0x20 ≤ byte) (printable₂ : ∀ byte ∈ value₂, 0x20 ≤ byte) :
    ∀ byte ∈ objectText key₁ value₁ key₂ value₂, 0x20 ≤ byte := by
  intro byte member
  simp only [objectText, List.mem_cons, List.mem_append] at member
  rcases member with rfl | key | rfl | value | rfl | key | rfl | value
  · decide
  · exact printable_jsonEscape _ byte key
  · decide
  · exact printable₁ byte value
  · decide
  · exact printable_jsonEscape _ byte key
  · decide
  · exact printable₂ byte value

theorem printable_arrayText (elements : List Text) : ∀ byte ∈ arrayText elements, 0x20 ≤ byte := by
  intro byte member
  simp only [arrayText, List.mem_cons, List.mem_append, List.not_mem_nil, or_false] at member
  rcases member with rfl | inside | rfl
  · decide
  · exact printable_encodeElements _ byte inside
  · decide

theorem stripLineEnd_of_printable {s : Text} (printable : ∀ byte ∈ s, 0x20 ≤ byte) :
    stripLineEnd s = s := by
  have keeps {c : UInt8} (control : c < 0x20) : popBack c s = s := by
    rw [popBack, if_neg]
    intro last
    exact notMem_of_printable printable control (List.mem_of_getLast? last)
  rw [stripLineEnd, keeps (by decide), keeps (by decide)]

theorem line_of_printable {s : Text} (printable : ∀ byte ∈ s, 0x20 ≤ byte) :
    (s ++ [0x7d, 0x0a]).getLast? = some 0x0a ∧ (s ++ [0x7d, 0x0a]).count 0x0a = 1 ∧
      (s ++ [0x7d, 0x0a]).dropLast = s ++ [0x7d] := by
  have noLineFeed := notMem_of_printable printable (show (0x0a : UInt8) < 0x20 by decide)
  refine ⟨?_, ?_, ?_⟩
  · simp
  · rw [List.count_append, List.count_eq_zero_of_not_mem noLineFeed]
    rfl
  · rw [show [0x7d, 0x0a] = [0x7d] ++ [(0x0a : UInt8)] from rfl,
      ← List.append_assoc, List.dropLast_concat]

theorem isPrefix_of_length_le {s part : Text} (isPart : part <+: s ++ [0x7d, 0x0a])
    (shorter : part.length + 2 ≤ (s ++ [0x7d, 0x0a]).length) :
    part <+: s := by
  refine List.prefix_of_prefix_length_le isPart (List.prefix_append _ _) ?_
  simp only [List.length_append, List.length_cons, List.length_nil] at shorter
  omega

end Lines

section Requests

theorem printable_objectText (req : CtlRequest) : ∀ byte ∈
      objectText (ascii "op") (jsonEscape req.op) (ascii "args") (arrayText req.args),
      0x20 ≤ byte :=
  printable_object (printable_jsonEscape _) (printable_arrayText _)

theorem requestMember_op_incremental (out : RequestDraft) :
    Incremental fun s => requestMember (ascii "op") out (skipWs s) := by
  intro s draft rest parsed behind
  simp only [requestMember, if_true, Option.map_eq_some_iff] at parsed ⊢
  obtain ⟨⟨op, tail⟩, found, same⟩ := parsed
  cases same
  exact ⟨(op, tail ++ behind), parseString_skipWs_incremental s op tail found behind, rfl⟩

theorem requestMember_args_incremental (out : RequestDraft) :
    Incremental fun s => requestMember (ascii "args") out (skipWs s) := by
  have other : ascii "args" ≠ ascii "op" := by decide
  intro s draft rest parsed behind
  simp only [requestMember, other, if_false, if_true, Option.map_eq_some_iff] at parsed ⊢
  obtain ⟨⟨args, tail⟩, found, same⟩ := parsed
  cases same
  exact ⟨(args, tail ++ behind), parseStringArray_skipWs_incremental s args tail found behind, rfl⟩

/-- A part of a request before its closing brace is no request. -/
theorem decodeRequest_part {req : CtlRequest} {part : Text}
    (isPart :
      part <+: objectText (ascii "op") (jsonEscape req.op) (ascii "args") (arrayText req.args)) :
    decodeRequest part = none := by
  have printable : ∀ byte ∈ part, 0x20 ≤ byte := by
    intro byte member
    exact printable_objectText req byte (isPart.subset member)
  unfold decodeRequest
  rcases decodeObject_part
      (requestMember_op_incremental ⟨⟨[], []⟩, false, false⟩)
      (requestMember_args_incremental ⟨⟨req.op, []⟩, true, false⟩)
      (requestMember_op req.op) (requestMember_args req.op req.args)
      isPart (stripLineEnd_of_printable printable) with
    failed | nothing | ⟨_, first⟩
  · rw [failed]
  · rw [nothing]
    rfl
  · rw [first]
    rfl

/--
Every encoded request is one line: its last byte is its only line feed.  It is
decoded to the request, with and without the line feed, and no part of it that
ends before the closing brace is decoded.
-/
theorem encodeRequest_framed
    (req : CtlRequest) :
    (encodeRequest req).getLast? = some 0x0a ∧
      (encodeRequest req).count 0x0a = 1 ∧
      decodeRequest (encodeRequest req) = some req ∧
      decodeRequest (encodeRequest req).dropLast = some req ∧
      ∀ part,
        part <+: encodeRequest req →
        part.length + 2 ≤ (encodeRequest req).length →
        decodeRequest part = none := by
  obtain ⟨whole, line⟩ := decodeRequest_encodeRequest req
  obtain ⟨last, one, shorter⟩ := line_of_printable (printable_objectText req)
  have noLineFeed :=
    notMem_of_printable (printable_objectText req) (show (0x0a : UInt8) < 0x20 by decide)
  have cut : cutLine (encodeRequest req) = (encodeRequest req).dropLast := by
    rw [encodeRequest_eq, shorter, show [0x7d, 0x0a] = [0x7d] ++ [(0x0a : UInt8)] from rfl,
      ← List.append_assoc, cutLine_line]
    simp [noLineFeed]
  rw [← encodeRequest_eq] at last one
  refine ⟨last, one, whole, cut ▸ line, ?_⟩
  intro part isPart cutBefore
  rw [encodeRequest_eq] at isPart cutBefore
  exact decodeRequest_part (isPrefix_of_length_le isPart cutBefore)

end Requests

section Responses

theorem printable_responseText (resp : CtlResponse) : ∀ byte ∈ responseText resp, 0x20 ≤ byte := by
  unfold responseText
  split
  · exact printable_object (by decide +kernel) (printable_arrayText _)
  · exact printable_object (by decide +kernel) (printable_jsonEscape _)

/--
Every encoded response is one line: its last byte is its only line feed.  It is
decoded with and without the line feed, to the lines of a positive response and
to the error of a negative one.
-/
theorem encodeResponse_round_trip
    (resp : CtlResponse) :
    (encodeResponse resp).getLast? = some 0x0a ∧
      (encodeResponse resp).count 0x0a = 1 ∧
      ∀ line ∈ [encodeResponse resp, (encodeResponse resp).dropLast],
        ∃ decoded,
          decodeResponse line = some decoded ∧
          decoded.ok = resp.ok ∧
          (resp.ok = true → decoded.lines = resp.lines ∧ decoded.error = []) ∧
          (resp.ok = false → decoded.error = resp.error ∧ decoded.lines = []) := by
  obtain ⟨last, one, shorter⟩ := line_of_printable (printable_responseText resp)
  obtain ⟨whole, line⟩ := decodeResponse_responseText resp
  rw [encodeResponse_eq, shorter]
  refine ⟨last, one, ?_⟩
  intro text member
  have decoded : decodeResponse text = some resp.received := by
    simp only [List.mem_cons, List.not_mem_nil, or_false] at member
    rcases member with rfl | rfl
    · exact whole
    · exact line
  refine ⟨resp.received, decoded, rfl, ?_, ?_⟩
  · intro positive
    simp [CtlResponse.received, positive]
  · intro negative
    simp [CtlResponse.received, negative]

theorem stripLiteral?_eq_some {literal s rest : Text} :
    stripLiteral? literal s = some rest ↔ s = literal ++ rest := by
  unfold stripLiteral?
  constructor
  · intro stripped
    split at stripped
    · rename_i starts
      cases stripped
      have parts := List.take_append_drop literal.length s
      rw [starts] at parts
      exact parts.symm
    · cases stripped
  · rintro rfl
    simp

/-- The first member of a response is read incrementally. -/
theorem responseMember_ok_incremental (out : ResponseDraft) :
    Incremental fun s => responseMember (ascii "ok") out (skipWs s) := by
  refine Incremental.skipWs ?_ rfl
  intro s draft rest parsed behind
  simp only [responseMember, if_true] at parsed ⊢
  cases isTrue : stripLiteral? (ascii "true") s with
  | some tail =>
    rw [isTrue] at parsed
    cases parsed
    obtain rfl := stripLiteral?_eq_some.mp isTrue
    rw [List.append_assoc, stripLiteral?_eq_some.mpr rfl]
  | none =>
    rw [isTrue] at parsed
    obtain ⟨tail, isFalse, same⟩ := Option.map_eq_some_iff.mp parsed
    cases same
    obtain rfl := stripLiteral?_eq_some.mp isFalse
    rfl

theorem responseMember_lines_incremental (out : ResponseDraft) :
    Incremental fun s => responseMember (ascii "lines") out (skipWs s) := by
  have other : ascii "lines" ≠ ascii "ok" := by decide
  intro s draft rest parsed behind
  simp only [responseMember, other, if_false, if_true, Option.map_eq_some_iff] at parsed ⊢
  obtain ⟨⟨lines, tail⟩, found, same⟩ := parsed
  cases same
  exact ⟨(lines, tail ++ behind),
    parseStringArray_skipWs_incremental s lines tail found behind, rfl⟩

theorem responseMember_error_incremental (out : ResponseDraft) :
    Incremental fun s => responseMember (ascii "error") out (skipWs s) := by
  have other : ascii "error" ≠ ascii "ok" ∧ ascii "error" ≠ ascii "lines" := by decide
  intro s draft rest parsed behind
  simp only [responseMember, other, if_false, if_true, Option.map_eq_some_iff] at parsed ⊢
  obtain ⟨⟨error, tail⟩, found, same⟩ := parsed
  cases same
  exact ⟨(error, tail ++ behind), parseString_skipWs_incremental s error tail found behind, rfl⟩

/-- The part of a response that ends behind the comma. -/
def commaPart (ok : Bool) : Text :=
  0x7b :: (jsonEscape (ascii "ok") ++ 0x3a :: (okText ok ++ [0x2c]))

/-- A part of a response that ends elsewhere is no response. -/
theorem decodeResponse_part {resp : CtlResponse} {part : Text} (isPart : part <+: responseText resp)
    (elsewhere : ∀ ok, part ≠ commaPart ok) :
    decodeResponse part = none := by
  have stripped : stripLineEnd part = part := by
    refine stripLineEnd_of_printable ?_
    intro byte member
    exact printable_responseText resp byte (isPart.subset member)
  have refused
      (read : decodeObject responseMember ⟨⟨false, [], []⟩, false⟩ part = none ∨
          decodeObject responseMember ⟨⟨false, [], []⟩, false⟩ part =
            some ⟨⟨false, [], []⟩, false⟩) :
      decodeResponse part = none := by
    unfold decodeResponse
    rcases read with failed | nothing
    · rw [failed]
    · rw [nothing]
      rfl
  unfold responseText at isPart
  split at isPart
  · rcases decodeObject_part (responseMember_ok_incremental _)
        (responseMember_lines_incremental _) (responseMember_ok true)
        (responseMember_lines resp.lines) isPart stripped with
      failed | nothing | ⟨comma, _⟩
    · exact refused (.inl failed)
    · exact refused (.inr nothing)
    · exact absurd comma (elsewhere true)
  · rcases decodeObject_part (responseMember_ok_incremental _)
        (responseMember_error_incremental _) (responseMember_ok false)
        (responseMember_error resp.error) isPart stripped with
      failed | nothing | ⟨comma, _⟩
    · exact refused (.inl failed)
    · exact refused (.inr nothing)
    · exact absurd comma (elsewhere false)

/--
A part of an encoded response that ends before the closing brace is refused
exactly if it does not end right behind the comma of the first member.
-/
theorem decodeResponse_cut_off_iff
    (resp : CtlResponse)
    (part : Text)
    (isPart : part <+: encodeResponse resp)
    (shorter : part.length + 2 ≤ (encodeResponse resp).length) :
    decodeResponse part = none ↔ part ≠ ascii "\x7b\"ok\":true," ∧ part ≠ ascii "\x7b\"ok\":false," := by
  have positive : commaPart true = ascii "\x7b\"ok\":true," := by decide
  have negative : commaPart false = ascii "\x7b\"ok\":false," := by decide
  constructor
  · intro refused
    constructor
    · rintro rfl
      revert refused
      decide +kernel
    · rintro rfl
      revert refused
      decide +kernel
  · rintro ⟨notPositive, notNegative⟩
    rw [encodeResponse_eq] at isPart shorter
    refine decodeResponse_part (isPrefix_of_length_le isPart shorter) ?_
    intro ok
    cases ok with
    | true =>
      rw [positive]
      exact notPositive
    | false =>
      rw [negative]
      exact notNegative

/-- A reply that is cut off inside its only line is refused. -/
theorem decodeResponse_inside_line :
    ascii "\x7b\"ok\":true,\"lines\":[\"shm" <+: encodeResponse ⟨true, [ascii "shm_key=7"], []⟩ ∧
      decodeResponse (ascii "\x7b\"ok\":true,\"lines\":[\"shm") = none := by
  have isPart : ascii "\x7b\"ok\":true,\"lines\":[\"shm" <+:
      encodeResponse ⟨true, [ascii "shm_key=7"], []⟩ := by
    decide +kernel
  refine ⟨isPart, ?_⟩
  exact (decodeResponse_cut_off_iff ⟨true, [ascii "shm_key=7"], []⟩ _ isPart
    (by decide +kernel)).mpr (by decide +kernel)

/-- A reply that is cut off behind its comma is taken for a positive one. -/
theorem decodeResponse_of_comma :
    ascii "\x7b\"ok\":true," <+: encodeResponse ⟨true, [ascii "shm_key=7"], []⟩ ∧
      (ascii "\x7b\"ok\":true,").length + 2 ≤
          (encodeResponse ⟨true, [ascii "shm_key=7"], []⟩).length ∧
      decodeResponse (ascii "\x7b\"ok\":true,") = some ⟨true, [], []⟩ := by
  decide +kernel

end Responses

end SocksDirect.MonitorIpc
