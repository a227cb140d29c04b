import SocksDirect.JsonGrammar
import SocksDirect.MonitorIpcPrefix

namespace SocksDirect.MonitorIpc

/-!
# What `decode_request` accepts

The parsers of strings and arrays read exactly what the grammar of flat objects
allows.  The member loop of `decode_request` reads every object that is written
in this grammar, in whatever way it is written.  It also accepts texts that are
no objects: it does not look behind the closing brace, it allows a comma before
it, and it ends with the text behind a comma.
-/

open ByteText JsonGrammar

section Tokens

theorem isWs_iff {c : UInt8} : isWs c = true ↔ IsBlank c := by
  simp [isWs, IsBlank, or_assoc]

theorem blanks_skipWs (s : Text) : Blanks s (skipWs s) := by
  induction s with
  | nil => exact .done []
  | cons c rest inductionHypothesis =>
    cases blank : isWs c with
    | true =>
      rw [skipWs, List.dropWhile_cons_of_pos blank]
      exact .skip (isWs_iff.mp blank) inductionHypothesis
    | false =>
      rw [skipWs_cons blank]
      exact .done _

theorem skipWs_of_blanks {s rest : Text} (blanks : Blanks s rest) : skipWs s = skipWs rest := by
  induction blanks with
  | done rest => rfl
  | skip blank _ inductionHypothesis =>
    rw [← inductionHypothesis, skipWs, List.dropWhile_cons_of_pos (isWs_iff.mpr blank)]
    rfl

theorem skipWs_eq_cons {s rest : Text} {c : UInt8} (blanks : Blanks s (c :: rest))
    (notBlank : isWs c = false) :
    skipWs s = c :: rest :=
  (skipWs_of_blanks blanks).trans (skipWs_cons notBlank rest)

theorem skipWs_skipWs (s : Text) : skipWs (skipWs s) = skipWs s :=
  (skipWs_of_blanks (blanks_skipWs s)).symm

theorem simpleEscape?_eq_some {esc byte : UInt8} :
    simpleEscape? esc = some byte ↔ ShortEscape esc byte := by
  constructor
  · fun_cases simpleEscape? with rintro ⟨⟩ <;> subst esc
    | case1 => exact .quote
    | case2 => exact .backslash
    | case3 => exact .slash
    | case4 => exact .lineFeed
    | case5 => exact .carriageReturn
    | case6 => exact .tab
    | case7 => exact .backspace
    | case8 => exact .formFeed
  · intro escape
    cases escape <;> rfl

theorem hexValue?_eq_some {c : UInt8} {value : Nat} :
    hexValue? c = some value ↔ HexDigit c value := by
  have bound := c.toNat_lt
  unfold HexDigit
  fun_cases hexValue? with
    simp_all only [UInt8.le_iff_toNat_le, UInt8.toNat_ofNat, Option.some.injEq, reduceCtorEq,
      false_iff]
  | _ => omega

theorem unicodeValue?_eq_some {h₁ h₂ h₃ h₄ : UInt8} {value : Nat} :
    unicodeValue? h₁ h₂ h₃ h₄ = some value ↔ ∃ d₁ d₂ d₃ d₄,
      HexDigit h₁ d₁ ∧ HexDigit h₂ d₂ ∧ HexDigit h₃ d₃ ∧ HexDigit h₄ d₄ ∧
      value = ((d₁ * 16 + d₂) * 16 + d₃) * 16 + d₄ := by
  simp only [← hexValue?_eq_some]
  constructor
  · fun_cases unicodeValue? with rintro ⟨⟩
    | case1 d₁ d₂ d₃ d₄ fourth third second first =>
      exact ⟨d₁, d₂, d₃, d₄, first, second, third, fourth, rfl⟩
  · rintro ⟨d₁, d₂, d₃, d₄, first, second, third, fourth, rfl⟩
    simp [unicodeValue?, first, second, third, fourth]

end Tokens

section Strings

/-- Every string that is read is one. -/
theorem stringBody_of_parseStringBody {out s value rest : Text}
    (parsed : parseStringBody out s = some (value, rest)) :
    ∃ read, value = out ++ read ∧ StringBody unicodeBytes s read rest := by
  fun_induction parseStringBody out s with
  | case1 | case3 | case4 | case6 | case7 => cases parsed
  | case2 out tail =>
    cases parsed
    exact ⟨[], (List.append_nil _).symm, .close _⟩
  | case5 out h₁ h₂ h₃ h₄ tail v escape _ inductionHypothesis =>
    obtain ⟨read, rfl, body⟩ := inductionHypothesis parsed
    obtain ⟨d₁, d₂, d₃, d₄, first, second, third, fourth, rfl⟩ := unicodeValue?_eq_some.mp escape
    exact ⟨_, List.append_assoc _ _ _, .unicode first second third fourth body⟩
  | case8 out esc tail notUnicode byte escape _ inductionHypothesis =>
    obtain ⟨read, rfl, body⟩ := inductionHypothesis parsed
    exact ⟨_, List.append_assoc _ _ _, .short (simpleEscape?_eq_some.mp escape) body⟩
  | case9 out c tail notQuote notBackslash inductionHypothesis =>
    obtain ⟨read, rfl, body⟩ := inductionHypothesis parsed
    exact ⟨_, List.append_assoc _ _ _, .plain notQuote notBackslash body⟩

/-- Every string is read. -/
theorem parseStringBody_of_stringBody {s value rest : Text}
    (body : StringBody unicodeBytes s value rest) (out : Text) :
    parseStringBody out s = some (out ++ value, rest) := by
  induction body generalizing out with
  | close rest =>
    rw [List.append_nil]
    exact parseStringBody_quote out rest
  | plain notQuote notBackslash _ inductionHypothesis =>
    rw [parseStringBody_plain notQuote notBackslash,
      inductionHypothesis, List.append_assoc, List.singleton_append]
  | @short esc byte _ _ _ escape _ inductionHypothesis =>
    have notUnicode : esc ≠ 0x75 := by
      rintro rfl
      cases escape
    rw [parseStringBody_simple notUnicode
        (simpleEscape?_eq_some.mpr escape),
      inductionHypothesis, List.append_assoc, List.singleton_append]
  | unicode first second third fourth _ inductionHypothesis =>
    rw [parseStringBody_unicode
        (unicodeValue?_eq_some.mpr ⟨_, _, _, _, first, second, third, fourth, rfl⟩),
      inductionHypothesis, List.append_assoc]

theorem parseString_eq_some {s value rest : Text} : parseString s = some (value, rest) ↔
      StringText unicodeBytes s value rest := by
  constructor
  · intro parsed
    cases s with
    | nil => cases parsed
    | cons c tail =>
      simp only [parseString, Option.ite_none_right_eq_some] at parsed
      obtain ⟨rfl, body⟩ := parsed
      obtain ⟨read, rfl, stringBody⟩ := stringBody_of_parseStringBody body
      exact .quoted stringBody
  · rintro ⟨body⟩
    rw [parseString, if_pos rfl]
    exact parseStringBody_of_stringBody body []

theorem skipWs_of_stringText {s value rest : Text} (text : StringText unicodeBytes s value rest) :
    skipWs s = s := by
  cases text with
  | quoted body => exact skipWs_cons (by decide) _

end Strings

section Arrays

/-- Every list of elements that is read is one. -/
theorem elements_of_parseElements {fuel : Nat} {out value : List Text} {s rest : Text}
    (parsed : parseElements fuel out s = some (value, rest)) :
    ∃ read, value = out ++ read ∧ Elements unicodeBytes s read rest := by
  fun_induction parseElements fuel out s with
  | case1 | case2 | case3 | case6 => cases parsed
  | case4 fuel out s tmp tail element rest separator inductionHypothesis =>
    have blanks := separator ▸ blanks_skipWs tail
    obtain ⟨read, rfl, others⟩ := inductionHypothesis parsed
    refine ⟨tmp :: read, ?_, .more (blanks_skipWs s) (parseString_eq_some.mp element) blanks others⟩
    rw [List.append_assoc, List.singleton_append]
  | case5 fuel out s tmp tail element rest separator =>
    have blanks := separator ▸ blanks_skipWs tail
    cases parsed
    exact ⟨[tmp], rfl, .last (blanks_skipWs s) (parseString_eq_some.mp element) blanks⟩

theorem skipWs_of_stringText_behind {s first value rest : Text} (blanks : Blanks s first)
    (string : StringText unicodeBytes first value rest) :
    skipWs s = first :=
  (skipWs_of_blanks blanks).trans (skipWs_of_stringText string)

/-- Every list of elements is read. -/
theorem parseElements_of_elements {s rest : Text} {read : List Text}
    (elements : Elements unicodeBytes s read rest) {fuel : Nat} (enough : s.length ≤ fuel)
    (out : List Text) :
    parseElements fuel out s = some (out ++ read, rest) := by
  induction elements generalizing fuel out with
  | last before string after =>
    have shorter := Nat.lt_of_lt_of_le string.length_lt before.length_le
    obtain ⟨fuel, rfl⟩ := Nat.exists_eq_succ_of_ne_zero (show fuel ≠ 0 by omega)
    rw [parseElements, skipWs_of_stringText_behind before string, parseString_eq_some.mpr string]
    dsimp only
    rw [skipWs_eq_cons after (by decide)]
    rfl
  | more before string after _ inductionHypothesis =>
    have shorter := Nat.lt_of_lt_of_le string.length_lt before.length_le
    have longer := after.length_le
    rw [List.length_cons] at longer
    obtain ⟨fuel, rfl⟩ := Nat.exists_eq_succ_of_ne_zero (show fuel ≠ 0 by omega)
    rw [parseElements, skipWs_of_stringText_behind before string, parseString_eq_some.mpr string]
    dsimp only
    rw [skipWs_eq_cons after (by decide)]
    dsimp only
    rw [if_pos rfl, inductionHypothesis (by omega), List.append_assoc, List.singleton_append]

theorem elements_skipWs {s rest : Text} {read : List Text}
    (elements : Elements unicodeBytes s read rest) :
    ∃ tail, skipWs s = 0x22 :: tail ∧ Elements unicodeBytes (0x22 :: tail) read rest := by
  cases elements with
  | last before string after =>
    rw [skipWs_of_stringText_behind before string]
    cases string with
    | quoted body => exact ⟨_, rfl, .last (.done _) (.quoted body) after⟩
  | more before string after others =>
    rw [skipWs_of_stringText_behind before string]
    cases string with
    | quoted body => exact ⟨_, rfl, .more (.done _) (.quoted body) after others⟩

/-- `parse_string_array` reads exactly the arrays. -/
theorem parseStringArray_eq_some {s rest : Text} {value : List Text} :
    parseStringArray s = some (value, rest) ↔ ArrayText unicodeBytes (skipWs s) value rest := by
  constructor
  · fun_cases parseStringArray with intro parsed
    | case1 | case2 | case5 => cases parsed
    | case3 inside behind opening first =>
      cases parsed
      rw [opening]
      exact .empty (first ▸ blanks_skipWs inside)
    | case4 inside d behind first notBracket opening =>
      obtain ⟨read, rfl, elements⟩ := elements_of_parseElements parsed
      rw [opening]
      exact .nonempty (elements.behind (first ▸ blanks_skipWs inside))
  · intro array
    unfold parseStringArray
    generalize skipWs s = text at array
    cases array with
    | empty blanks =>
      dsimp only
      rw [if_pos rfl, skipWs_eq_cons blanks (by decide)]
      rfl
    | @nonempty inside _ _ elements =>
      obtain ⟨tail, first, shifted⟩ := elements_skipWs elements
      have longer := (blanks_skipWs inside).length_le
      rw [first] at longer
      dsimp only
      rw [if_pos rfl, first]
      dsimp only
      rw [if_neg (by decide)]
      exact parseElements_of_elements shifted (Nat.le_succ_of_le longer) []

end Arrays

section Members

theorem skipWs_of_valueText {s rest : Text} {value : Value}
    (text : ValueText unicodeBytes s value rest) :
    skipWs s = s := by
  cases text with
  | string string => exact skipWs_of_stringText string
  | array array =>
    cases array with
    | empty _ | nonempty _ => exact skipWs_cons (by decide) _

theorem parseStringArray_of_arrayText {s rest : Text} {value : List Text}
    (text : ArrayText unicodeBytes s value rest) :
    parseStringArray s = some (value, rest) := by
  rw [parseStringArray_eq_some, skipWs_of_valueText (.array text)]
  exact text

/-- The value of an unknown member is a string or an array. -/
theorem skipValue_eq_some {s rest : Text} (noWs : skipWs s = s) :
    skipValue s = some rest ↔ ∃ value, ValueText unicodeBytes s value rest := by
  constructor
  · fun_cases skipValue with intro skipped
    | case1 | case4 => cases skipped
    | case2 tail =>
      obtain ⟨⟨value, behind⟩, parsed, rfl⟩ := Option.map_eq_some_iff.mp skipped
      exact ⟨_, .string (parseString_eq_some.mp parsed)⟩
    | case3 tail =>
      obtain ⟨⟨value, behind⟩, parsed, rfl⟩ := Option.map_eq_some_iff.mp skipped
      rw [parseStringArray_eq_some, noWs] at parsed
      exact ⟨_, .array parsed⟩
  · rintro ⟨value, text⟩
    cases text with
    | string string =>
      have parsed := parseString_eq_some.mpr string
      cases string with
      | quoted body =>
        rw [skipValue, if_pos rfl, parsed]
        rfl
    | array array =>
      have parsed := parseStringArray_of_arrayText array
      have bracket : ∃ tail, s = 0x5b :: tail := by
        cases array with
        | empty _ | nonempty _ => exact ⟨_, rfl⟩
      obtain ⟨tail, rfl⟩ := bracket
      rw [skipValue, if_neg (by decide), if_pos rfl, parsed]
      rfl

/-- What `decode_request` makes of one member. -/
def RequestDraft.read (out : RequestDraft) (member : Member) : Option RequestDraft :=
  if member.key = ascii "op" then
    match member.value with
    | .string op => some { out with request := { out.request with op := op }, gotOp := true }
    | .array _ => none
  else if member.key = ascii "args" then
    match member.value with
    | .string _ => none
    | .array args => some { out with request := { out.request with args := args }, gotArgs := true }
  else
    some out

/-- One member of a request is read as the grammar says. -/
theorem requestMember_eq_some {key s rest : Text} {out next : RequestDraft} (noWs : skipWs s = s) :
    requestMember key out s = some (next, rest) ↔
      ∃ value, ValueText unicodeBytes s value rest ∧ out.read ⟨key, value⟩ = some next := by
  unfold requestMember RequestDraft.read
  dsimp only
  split
  · constructor
    · intro parsed
      obtain ⟨⟨op, tail⟩, found, same⟩ := Option.map_eq_some_iff.mp parsed
      cases same
      exact ⟨_, .string (parseString_eq_some.mp found), rfl⟩
    · rintro ⟨value, text, read⟩
      cases text with
      | string string =>
        cases read
        rw [parseString_eq_some.mpr string]
        rfl
      | array _ => cases read
  · split
    · constructor
      · intro parsed
        obtain ⟨⟨args, tail⟩, found, same⟩ := Option.map_eq_some_iff.mp parsed
        cases same
        rw [parseStringArray_eq_some, noWs] at found
        exact ⟨_, .array found, rfl⟩
      · rintro ⟨value, text, read⟩
        cases text with
        | string _ => cases read
        | array array =>
          cases read
          rw [parseStringArray_of_arrayText array]
          rfl
    · constructor
      · intro parsed
        obtain ⟨tail, found, same⟩ := Option.map_eq_some_iff.mp parsed
        cases same
        obtain ⟨value, text⟩ := (skipValue_eq_some noWs).mp found
        exact ⟨value, text, rfl⟩
      · rintro ⟨value, text, read⟩
        cases read
        rw [(skipValue_eq_some noWs).mpr ⟨value, text⟩]
        rfl

/-- The loop ends where no member begins: with the text or at a brace. -/
inductive NoMember : Text → Prop where
  | endOfText : NoMember []
  | brace {s behind : Text} : Blanks s (0x7d :: behind) → NoMember s

/-- Where the loop may end behind a member. -/
inductive MembersEnd : Text → Prop where
  | brace (behind : Text) : MembersEnd (0x7d :: behind)
  | comma {s : Text} : NoMember s → MembersEnd (0x2c :: s)

theorem memberText_of_parsed {out next : RequestDraft} {s key afterKey afterColon afterValue : Text}
    (parsedKey : parseString s = some (key, afterKey))
    (colon : skipWs afterKey = 0x3a :: afterColon)
    (parsedValue : requestMember key out (skipWs afterColon) = some (next, afterValue)) :
    ∃ value,
      MemberText unicodeBytes s ⟨key, value⟩ afterValue ∧ out.read ⟨key, value⟩ = some next := by
  obtain ⟨value, valueText, read⟩ := (requestMember_eq_some (skipWs_skipWs _)).mp parsedValue
  exact ⟨value, .pair (parseString_eq_some.mp parsedKey) (colon ▸ blanks_skipWs afterKey)
    (blanks_skipWs _) valueText, read⟩

/-- What the member loop reads are members. -/
theorem members_of_decodeMembers {fuel : Nat} {out final : RequestDraft} {s : Text}
    (decoded : decodeMembers requestMember fuel out s = some final) : (NoMember s ∧ final = out) ∨
      ∃ members rest, Members unicodeBytes s members rest ∧ MembersEnd rest ∧
      members.foldlM RequestDraft.read out = some final := by
  fun_induction decodeMembers requestMember fuel out s with
  | case1 => cases decoded
  | case2 =>
    cases decoded
    exact .inl ⟨.endOfText, rfl⟩
  | case3 fuel out c tail closes =>
    rw [if_pos closes] at decoded
    cases decoded
    obtain ⟨behind, atBrace⟩ := List.head?_eq_some_iff.mp closes
    exact .inl ⟨.brace (atBrace ▸ blanks_skipWs _), rfl⟩
  | case4 | case5 | case6 | case7 | case10 | case11 => simp_all
  | case8 fuel out c tail key afterKey afterColon next afterValue parsedValue rest notBrace
      parsedKey colon ends inductionHypothesis =>
      simp only [notBrace, ↓reduceIte, parsedKey, colon, parsedValue, ends] at decoded
      obtain ⟨value, text, read⟩ := memberText_of_parsed parsedKey colon parsedValue
      have blanks := ends ▸ blanks_skipWs afterValue
      rcases inductionHypothesis decoded with
        ⟨noMember, rfl⟩ | ⟨members, behind, others, ending, readOthers⟩
      · exact .inr ⟨[⟨key, value⟩], _, .last (blanks_skipWs _) text blanks, .comma noMember,
          by simp [read]⟩
      · exact .inr ⟨⟨key, value⟩ :: members, behind, .more (blanks_skipWs _) text blanks others,
          ending, by simp [read, readOthers]⟩
  | case9 fuel out c tail key afterKey afterColon next afterValue parsedValue rest notBrace
      parsedKey colon ends notComma =>
      simp only [notBrace, ↓reduceIte, parsedKey, colon, parsedValue, ends, notComma] at decoded
      cases decoded
      obtain ⟨value, text, read⟩ := memberText_of_parsed parsedKey colon parsedValue
      have blanks := ends ▸ blanks_skipWs afterValue
      exact .inr ⟨[⟨key, value⟩], _, .last (blanks_skipWs _) text blanks, .brace rest,
        by simp [read]⟩

variable {member : Member}

theorem memberText_quote {s rest : Text} (text : MemberText unicodeBytes s member rest) :
    ∃ tail, s = 0x22 :: tail := by
  cases text with
  | pair key _ _ _ =>
    cases key with
    | quoted _ => exact ⟨_, rfl⟩

theorem skipWs_of_memberText_behind {s first rest : Text} (blanks : Blanks s first)
    (text : MemberText unicodeBytes first member rest) :
    skipWs s = first := by
  obtain ⟨tail, rfl⟩ := memberText_quote text
  exact skipWs_eq_cons blanks (by decide)

/-- One round of the member loop at a member. -/
theorem decodeMembers_member {fuel : Nat} {out next : RequestDraft} {s first behind : Text}
    (before : Blanks s first) (text : MemberText unicodeBytes first member behind)
    (read : out.read member = some next) :
    decodeMembers requestMember (fuel + 1) out s =
      match skipWs behind with
      | [] => none
      | c :: rest =>
        if c = 0x2c then
          decodeMembers requestMember fuel next rest
        else if c = 0x7d then
          some next
        else
          none := by
  have start := skipWs_of_memberText_behind before text
  obtain ⟨tail, isQuote⟩ := memberText_quote text
  cases text with
  | pair key colon blanks value =>
    have parsedValue := (requestMember_eq_some (skipWs_of_valueText value)).mpr ⟨_, value, read⟩
    have valueStart := (skipWs_of_blanks blanks).trans (skipWs_of_valueText value)
    have nonempty : s ≠ [] := by
      rintro rfl
      rw [isQuote] at start
      cases start
    obtain ⟨c, rest, rfl⟩ := List.exists_cons_of_ne_nil nonempty
    have notBrace : first.head? ≠ some 0x7d := by
      rw [isQuote, List.head?_cons]
      decide
    rw [decodeMembers, start, if_neg notBrace, parseString_eq_some.mpr key]
    dsimp only
    rw [skipWs_eq_cons colon (by decide)]
    cases ends : skipWs behind with
    | nil | cons => simp only [↓reduceIte, valueStart, parsedValue, ends]

theorem decodeMembers_of_noMember {s : Text} (noMember : NoMember s) (fuel : Nat)
    (out : RequestDraft) :
    decodeMembers requestMember (fuel + 1) out s = some out := by
  cases noMember with
  | endOfText => rfl
  | brace blanks =>
    have start := skipWs_eq_cons blanks (by decide)
    cases s with
    | nil => cases start
    | cons c rest =>
      rw [decodeMembers, start]
      rfl

/-- The member loop reads members up to an end. -/
theorem decodeMembers_of_members {s rest : Text} {members : List Member}
    (text : Members unicodeBytes s members rest) (ending : MembersEnd rest) {fuel : Nat}
    (enough : s.length ≤ fuel) {out final : RequestDraft}
    (reads : members.foldlM RequestDraft.read out = some final) :
    decodeMembers requestMember (fuel + 1) out s = some final := by
  induction text generalizing fuel out with
  | last before member after =>
    rw [List.foldlM_cons] at reads
    obtain ⟨next, read, same⟩ := Option.bind_eq_some_iff.mp reads
    cases same
    rw [decodeMembers_member before member read]
    have shorter := Nat.lt_of_lt_of_le member.length_lt before.length_le
    cases ending with
    | brace behind =>
      rw [skipWs_eq_cons after (by decide)]
      rfl
    | comma noMember =>
      obtain ⟨fuel, rfl⟩ := Nat.exists_eq_succ_of_ne_zero (show fuel ≠ 0 by omega)
      rw [skipWs_eq_cons after (by decide)]
      exact decodeMembers_of_noMember noMember fuel final
  | more before member after _ inductionHypothesis =>
    rw [List.foldlM_cons] at reads
    obtain ⟨next, read, readOthers⟩ := Option.bind_eq_some_iff.mp reads
    have shorter := Nat.lt_of_lt_of_le member.length_lt before.length_le
    have longer := after.length_le
    rw [List.length_cons] at longer
    obtain ⟨fuel, rfl⟩ := Nat.exists_eq_succ_of_ne_zero (show fuel ≠ 0 by omega)
    rw [decodeMembers_member before member read, skipWs_eq_cons after (by decide)]
    exact inductionHypothesis ending (by omega) readOthers

end Members

section Requests

/-- The locals of `decode_request` before the first member. -/
def RequestDraft.empty : RequestDraft := ⟨⟨[], []⟩, false, false⟩

/-- `decode_request` accepts members up to an end, and what they denote. -/
theorem decodeRequest_eq_some {s : Text} {req : CtlRequest} : decodeRequest s = some req ↔
      ∃ inside members rest, Blanks (stripLineEnd s) (0x7b :: inside) ∧
      Members unicodeBytes inside members rest ∧ MembersEnd rest ∧
      members.foldlM RequestDraft.read .empty = some ⟨req, true, true⟩ := by
  unfold decodeRequest decodeObject
  constructor
  · intro decoded
    split at decoded
    · cases decoded
    · rename_i draft object
      split at object
      · cases object
      · rename_i c inside opening
        rw [Option.ite_none_right_eq_some] at object decoded
        obtain ⟨rfl, loop⟩ := object
        obtain ⟨complete, same⟩ := decoded
        have blanks := blanks_skipWs (stripLineEnd s)
        rw [opening] at blanks
        rcases members_of_decodeMembers loop with ⟨_, rfl⟩ | ⟨members, rest, text, ending, reads⟩
        · cases complete
        · obtain ⟨request, gotOp, gotArgs⟩ := draft
          rw [Bool.and_eq_true] at complete
          cases same
          obtain ⟨rfl, rfl⟩ := complete
          exact ⟨inside, members, rest, blanks, text, ending, reads⟩
  · rintro ⟨inside, members, rest, blanks, text, ending, reads⟩
    have loop := decodeMembers_of_members text ending (Nat.le_refl _) reads
    unfold RequestDraft.empty at loop
    rw [skipWs_eq_cons blanks (by decide)]
    dsimp only
    rw [if_pos rfl, loop]
    rfl

/-- What a member must be to be understood. -/
def Readable (member : Member) : Prop :=
  (member.key = ascii "op" → ∃ op, member.value = .string op) ∧
    (member.key = ascii "args" → ∃ args, member.value = .array args)

/-- The values of the `op` members. -/
def opValue (member : Member) : Option Text :=
  match member.value with
  | .string op => if member.key = ascii "op" then some op else none
  | .array _ => none

/-- The values of the `args` members. -/
def argsValue (member : Member) : Option (List Text) :=
  match member.value with
  | .string _ => none
  | .array args => if member.key = ascii "args" then some args else none

/-- What one member does to the locals. -/
theorem read_eq_some {out next : RequestDraft} {member : Member} : out.read member = some next ↔
      Readable member ∧ next =
      ⟨⟨(opValue member).getD out.request.op, (argsValue member).getD out.request.args⟩,
      out.gotOp || decide (member.key = ascii "op"),
      out.gotArgs || decide (member.key = ascii "args")⟩ := by
  have other : ascii "args" ≠ ascii "op" := by decide
  obtain ⟨key, value⟩ := member
  obtain ⟨⟨op, args⟩, gotOp, gotArgs⟩ := out
  unfold RequestDraft.read Readable opValue argsValue
  dsimp only
  by_cases isOp : key = ascii "op"
  · subst isOp
    cases value <;> simp [Ne.symm other, eq_comm]
  · by_cases isArgs : key = ascii "args"
    · subst isArgs
      cases value <;> simp [other, eq_comm]
    · cases value <;> simp [isOp, isArgs, eq_comm]

theorem getLast?_filterMap_cons {Item : Type} (value : Member → Option Item) (member : Member)
    (members : List Member) (otherwise_ : Item) :
    ((member :: members).filterMap value).getLast?.getD otherwise_ =
      (members.filterMap value).getLast?.getD ((value member).getD otherwise_) := by
  rw [List.filterMap_cons]
  cases value member with
  | none => rfl
  | some item =>
    rw [List.getLast?_cons]
    rfl

/-- What all members do to the locals. -/
theorem foldlM_read_eq_some {members : List Member} {out final : RequestDraft} :
    members.foldlM RequestDraft.read out = some final ↔ (∀ member ∈ members, Readable member) ∧
      final = ⟨⟨(members.filterMap opValue).getLast?.getD out.request.op,
      (members.filterMap argsValue).getLast?.getD out.request.args⟩,
      out.gotOp || members.any fun member => member.key = ascii "op",
      out.gotArgs || members.any fun member => member.key = ascii "args"⟩ := by
  induction members generalizing out with
  | nil => simp [eq_comm]
  | cons member members inductionHypothesis =>
    rw [List.foldlM_cons, Option.bind_eq_bind, Option.bind_eq_some_iff]
    simp only [read_eq_some, inductionHypothesis,
      getLast?_filterMap_cons, List.forall_mem_cons, List.any_cons]
    constructor
    · rintro ⟨next, ⟨readable, rfl⟩, others, rfl⟩
      exact ⟨⟨readable, others⟩, by simp only [Bool.or_assoc]⟩
    · rintro ⟨⟨readable, others⟩, rfl⟩
      exact ⟨_, ⟨readable, rfl⟩, others, by simp only [Bool.or_assoc]⟩

/--
Members that `decode_request` takes for a request: every `op` is a string, every
`args` is an array, and there is one of each.
-/
structure IsRequest (members : List Member) : Prop where
  readable : ∀ member ∈ members, Readable member
  op : ∃ member ∈ members, member.key = ascii "op"
  args : ∃ member ∈ members, member.key = ascii "args"

/-- A request is read from its members. -/
theorem isRequest_iff {members : List Member} : IsRequest members ↔
      ∃ req, members.foldlM RequestDraft.read .empty = some ⟨req, true, true⟩ := by
  simp only [foldlM_read_eq_some]
  constructor
  · rintro ⟨readable, ⟨first, inMembers, isOp⟩, ⟨second, inside, isArgs⟩⟩
    refine
      ⟨⟨(members.filterMap opValue).getLast?.getD [],
          (members.filterMap argsValue).getLast?.getD []⟩, readable, ?_⟩
    rw [RequestDraft.mk.injEq]
    refine ⟨rfl, Eq.symm ?_, Eq.symm ?_⟩
    · rw [Bool.or_eq_true, List.any_eq_true]
      exact .inr ⟨first, inMembers, decide_eq_true isOp⟩
    · rw [Bool.or_eq_true, List.any_eq_true]
      exact .inr ⟨second, inside, decide_eq_true isArgs⟩
  · rintro ⟨req, readable, same⟩
    rw [RequestDraft.mk.injEq] at same
    obtain ⟨_, gotOp, gotArgs⟩ := same
    simp only [RequestDraft.empty, Bool.false_or] at gotOp gotArgs
    obtain ⟨first, inMembers, isOp⟩ := List.any_eq_true.mp gotOp.symm
    obtain ⟨second, inside, isArgs⟩ := List.any_eq_true.mp gotArgs.symm
    exact ⟨readable, ⟨first, inMembers, of_decide_eq_true isOp⟩,
      ⟨second, inside, of_decide_eq_true isArgs⟩⟩

end Requests

section Unambiguous

theorem valueText_unique {s rest rest' : Text} {value value' : Value}
    (first : ValueText unicodeBytes s value rest) (second : ValueText unicodeBytes s value' rest') :
    rest = rest' := by
  have skipped {rest : Text} {value : Value}
      (text : ValueText unicodeBytes s value rest) :
      skipValue s = some rest :=
    (skipValue_eq_some (skipWs_of_valueText first)).mpr ⟨value, text⟩
  exact Option.some.inj ((skipped first).symm.trans (skipped second))

/-- A text is a member in one way only. -/
theorem memberText_unique {s rest rest' : Text} {member member' : Member}
    (first : MemberText unicodeBytes s member rest)
    (second : MemberText unicodeBytes s member' rest') :
    rest = rest' := by
  cases first with
  | pair key colon blanks value =>
    cases second with
    | pair key' colon' blanks' value' =>
      have keys := (parseString_eq_some.mpr key).symm.trans (parseString_eq_some.mpr key')
      cases keys
      have colons :=
        (skipWs_eq_cons colon (by decide)).symm.trans (skipWs_eq_cons colon' (by decide))
      cases colons
      have values :=
        ((skipWs_of_blanks blanks).trans
          (skipWs_of_valueText value)).symm.trans
          ((skipWs_of_blanks blanks').trans (skipWs_of_valueText value'))
      cases values
      exact valueText_unique value value'

theorem firstMember_unique {s first first' rest rest' : Text} {member member' : Member}
    (before : Blanks s first) (text : MemberText unicodeBytes first member rest)
    (before' : Blanks s first') (text' : MemberText unicodeBytes first' member' rest') :
    rest = rest' := by
  have start := skipWs_of_memberText_behind before text
  have start' := skipWs_of_memberText_behind before' text'
  rw [← start] at text
  rw [← start'] at text'
  exact memberText_unique text text'

theorem skipWs_of_membersEnd {rest : Text} (ending : MembersEnd rest) : skipWs rest = rest := by
  cases ending with
  | brace _ | comma _ => exact skipWs_cons (by decide) _

theorem not_noMember_of_members {s rest : Text} {members : List Member}
    (text : Members unicodeBytes s members rest) :
    ¬ NoMember s := by
  have quoted : ∃ tail, skipWs s = 0x22 :: tail := by
    cases text with
    | last before member | more before member =>
      rw [skipWs_of_memberText_behind before member]
      exact memberText_quote member
  obtain ⟨tail, atQuote⟩ := quoted
  intro noMember
  cases noMember with
  | endOfText => cases atQuote
  | brace blanks =>
    rw [skipWs_eq_cons blanks (by decide)] at atQuote
    cases atQuote

/-- Members up to an end are so in one way only. -/
theorem members_unique {s rest rest' : Text} {members members' : List Member}
    (first : Members unicodeBytes s members rest) (ending : MembersEnd rest)
    (second : Members unicodeBytes s members' rest') (ending' : MembersEnd rest') :
    rest = rest' := by
  induction first generalizing members' with
  | last before member after =>
    cases second with
    | last before' member' after' =>
      obtain rfl := firstMember_unique before member before' member'
      rw [← skipWs_of_membersEnd ending, ← skipWs_of_membersEnd ending',
        ← skipWs_of_blanks after, ← skipWs_of_blanks after']
    | more before' member' after' others' =>
      obtain rfl := firstMember_unique before member before' member'
      have same :=
        ((skipWs_of_blanks after).trans
          (skipWs_of_membersEnd ending)).symm.trans
          (skipWs_eq_cons after' (by decide))
      subst same
      cases ending with
      | comma noMember => exact absurd noMember (not_noMember_of_members others')
  | more before member after others inductionHypothesis =>
    cases second with
    | last before' member' after' =>
      obtain rfl := firstMember_unique before member before' member'
      have same :=
        ((skipWs_of_blanks after').trans
          (skipWs_of_membersEnd ending')).symm.trans
          (skipWs_eq_cons after (by decide))
      subst same
      cases ending' with
      | comma noMember => exact absurd noMember (not_noMember_of_members others)
    | more before' member' after' others' =>
      obtain rfl := firstMember_unique before member before' member'
      have same := (skipWs_eq_cons after (by decide)).symm.trans (skipWs_eq_cons after' (by decide))
      cases same
      exact inductionHypothesis ending others'

end Unambiguous

section Acceptance

/-- The request is one complete object, apart from the end of its line. -/
def Complete (s : Text) : Prop := ∃ members, Object unicodeBytes (stripLineEnd s) members

/-- Ends of the member loop at which there is no complete object. -/
inductive BadEnd : Text → Prop where
  | textBehind {behind : Text} : ¬ Blanks behind [] → BadEnd (0x7d :: behind)
  | commaBeforeBrace {s behind : Text} : Blanks s (0x7d :: behind) → BadEnd (0x2c :: s)
  | commaAtEnd : BadEnd [0x2c]

/--
The members of a request, with something other than white space behind the
closing brace, with a comma before it, or with nothing behind a comma.
-/
inductive Overrun (s : Text) : Prop where
  | mk {inside rest : Text} {members : List Member} : Blanks (stripLineEnd s) (0x7b :: inside) →
      Members unicodeBytes inside members rest → IsRequest members → BadEnd rest → Overrun s

theorem BadEnd.membersEnd {rest : Text} (bad : BadEnd rest) : MembersEnd rest := by
  cases bad with
  | textBehind _ => exact .brace _
  | commaBeforeBrace blanks => exact .comma (.brace blanks)
  | commaAtEnd => exact .comma .endOfText

theorem not_overrun_of_complete {s : Text} (complete : Complete s) : ¬ Overrun s := by
  rintro ⟨blanks, members, _, bad⟩
  obtain ⟨_, object⟩ := complete
  cases object with
  | braces blanks' members' behind =>
    have opening :=
      (skipWs_eq_cons blanks' (by decide)).symm.trans (skipWs_eq_cons blanks (by decide))
    cases opening
    obtain rfl := members_unique members' (.brace _) members bad.membersEnd
    cases bad with
    | textBehind notBlank => exact notBlank behind

/--
For every text: if `decode_request` accepts it, it is one complete object, exactly
if it is not a request with something other than white space behind its closing
brace, with a comma before it, or that ends behind a comma.
-/
theorem accepts_complete_iff
    (s : Text) :
    (∀ req, decodeRequest s = some req → Complete s) ↔ ¬ Overrun s := by
  constructor
  · intro sound overrun
    have overrunCopy := overrun
    obtain ⟨blanks, members, isRequest, bad⟩ := overrun
    obtain ⟨req, reads⟩ := isRequest_iff.mp isRequest
    have accepted := decodeRequest_eq_some.mpr ⟨_, _, _, blanks, members, bad.membersEnd, reads⟩
    exact not_overrun_of_complete (sound req accepted) overrunCopy
  · intro notOverrun req accepted
    obtain ⟨inside, members, rest, blanks, text, ending, reads⟩ := decodeRequest_eq_some.mp accepted
    have isRequest := isRequest_iff.mpr ⟨req, reads⟩
    cases ending with
    | brace behind =>
      by_cases onlyBlanks : Blanks behind []
      · exact ⟨members, .braces blanks text onlyBlanks⟩
      · exact absurd ⟨blanks, text, isRequest, .textBehind onlyBlanks⟩ notOverrun
    | comma noMember =>
      cases noMember with
      | endOfText => exact absurd ⟨blanks, text, isRequest, .commaAtEnd⟩ notOverrun
      | brace closes => exact absurd ⟨blanks, text, isRequest, .commaBeforeBrace closes⟩ notOverrun

/-- A request with a byte behind its closing brace is accepted. -/
theorem accepts_text_behind_object :
    decodeRequest (ascii "\x7b\"op\":\"drain\",\"args\":[]\x7d!") = some ⟨ascii "drain", []⟩ ∧
      ¬ Complete (ascii "\x7b\"op\":\"drain\",\"args\":[]\x7d!") := by
  refine ⟨by decide +kernel, ?_⟩
  rintro ⟨members, object⟩
  have stripped : (stripLineEnd
        (ascii "\x7b\"op\":\"drain\",\"args\":[]\x7d!")).getLast? = some 0x21 := by
    decide +kernel
  obtain ⟨c, last, ends⟩ := object.getLast?_eq
  rw [stripped] at last
  cases last
  revert ends
  unfold IsBlank
  decide

end Acceptance

section Presentation

/-- One `op` member, one `args` member and other members, in any order. -/
structure Denotes (members : List Member) (req : CtlRequest) : Prop where
  op : members.filter (fun member => member.key = ascii "op") = [⟨ascii "op", .string req.op⟩]
  args :
    members.filter (fun member => member.key = ascii "args") = [⟨ascii "args", .array req.args⟩]

theorem filterMap_of_filter {Item : Type} {key : Text} {value : Member → Option Item}
    (only : ∀ member, member.key ≠ key → value member = none) (members : List Member) :
    members.filterMap value = (members.filter fun member => member.key = key).filterMap value := by
  rw [List.filterMap_filter]
  refine List.filterMap_congr fun member _ => ?_
  by_cases isKey : member.key = key
  · rw [if_pos (decide_eq_true isKey)]
  · rw [if_neg (by simpa using isKey), only member isKey]

variable {members : List Member}

theorem Denotes.eq_of_key {key : Text} {only member : Member}
    (one : members.filter (fun member => member.key = key) = [only]) (inMembers : member ∈ members)
    (isKey : member.key = key) :
    member = only := by
  have filtered : member ∈ members.filter (fun member => member.key = key) :=
    List.mem_filter.mpr ⟨inMembers, decide_eq_true isKey⟩
  rw [one] at filtered
  exact List.mem_singleton.mp filtered

/-- The locals of `decode_request` behind the members of a request. -/
theorem Denotes.reads {req : CtlRequest} (denotes : Denotes members req) :
    members.foldlM RequestDraft.read .empty = some ⟨req, true, true⟩ := by
  have opPresent :
      ⟨ascii "op", .string req.op⟩ ∈ members.filter (fun member => member.key = ascii "op") := by
    rw [denotes.op]
    exact List.mem_singleton_self _
  have argsPresent : ⟨ascii "args", .array req.args⟩ ∈
        members.filter (fun member => member.key = ascii "args") := by
    rw [denotes.args]
    exact List.mem_singleton_self _
  have ops : members.filterMap opValue = [req.op] := by
    rw [filterMap_of_filter (fun member notKey => ?_) members, denotes.op]
    · rfl
    · unfold opValue
      split
      · exact if_neg notKey
      · rfl
  have argLists : members.filterMap argsValue = [req.args] := by
    rw [filterMap_of_filter (fun member notKey => ?_) members, denotes.args]
    · rfl
    · unfold argsValue
      split
      · rfl
      · exact if_neg notKey
  rw [foldlM_read_eq_some]
  refine ⟨?_, ?_⟩
  · intro member inMembers
    constructor
    · intro isOp
      rw [Denotes.eq_of_key denotes.op inMembers isOp]
      exact ⟨_, rfl⟩
    · intro isArgs
      rw [Denotes.eq_of_key denotes.args inMembers isArgs]
      exact ⟨_, rfl⟩
  · rw [ops, argLists, RequestDraft.mk.injEq]
    refine ⟨rfl, Eq.symm ?_, Eq.symm ?_⟩
    · rw [Bool.or_eq_true, List.any_eq_true]
      exact .inr ⟨_, (List.mem_filter.mp opPresent).1, rfl⟩
    · rw [Bool.or_eq_true, List.any_eq_true]
      exact .inr ⟨_, (List.mem_filter.mp argsPresent).1, rfl⟩

theorem popBack_behind_brace {c : UInt8} (notBrace : c ≠ 0x7d) (s : Text) {behind : Text}
    (blanks : Blanks behind []) :
    ∃ shorter, popBack c (s ++ 0x7d :: behind) = s ++ 0x7d :: shorter ∧ Blanks shorter [] := by
  unfold popBack
  split
  · rename_i last
    rcases List.eq_nil_or_concat' behind with rfl | ⟨earlier, _, rfl⟩
    · rw [List.getLast?_append_of_ne_nil _ (by simp)] at last
      exact absurd (Option.some.inj last).symm notBrace
    · refine ⟨earlier, ?_, ?_⟩
      · rw [← List.cons_append, ← List.append_assoc, List.dropLast_concat]
      · rw [blanks_nil_iff] at blanks ⊢
        intro byte member
        exact blanks byte (List.mem_append_left _ member)
  · exact ⟨behind, rfl, blanks⟩

theorem object_stripLineEnd {text : Text} (object : Object unicodeBytes text members) :
    Object unicodeBytes (stripLineEnd text) members := by
  cases object with
  | braces blanks inside behind =>
    obtain ⟨part, rfl, frame⟩ :=
      ((takesPart_blanks_byte 0x7b).andThen (takesPart_members members)) _ _ ⟨_, blanks, inside⟩
    obtain ⟨shorter, first, stillBlank⟩ := popBack_behind_brace (c := 0x0a) (by decide) part behind
    obtain ⟨shortest, second, onlyBlank⟩ :=
      popBack_behind_brace (c := 0x0d) (by decide) part stillBlank
    rw [stripLineEnd, first, second]
    obtain ⟨_, blanks, inside⟩ := frame (0x7d :: shortest)
    exact .braces blanks inside onlyBlank

/--
However an object is written, with one `op` member, one `args` member and any
other members in any order, any white space between its tokens and any spelling of
its strings: `decode_request` accepts it and yields the request that it denotes.
-/
theorem decodes_every_presentation
    (text : Text)
    (members : List Member)
    (req : CtlRequest)
    (object : Object unicodeBytes text members)
    (denotes : Denotes members req) :
    decodeRequest text = some req := by
  cases object_stripLineEnd object with
  | braces blanks inside behind =>
    exact decodeRequest_eq_some.mpr ⟨_, members, _, blanks, inside, .brace _, denotes.reads⟩

/-- An object with blanks between its tokens and an escape in a key. -/
theorem decodes_escaped_presentation :
    decodeRequest (ascii " \x7b\"args\":[ ] ,\"\\u006fp\":\"a\"\x7d\n") = some ⟨ascii "a", []⟩ := by
  have text : ascii " \x7b\"args\":[ ] ,\"\\u006fp\":\"a\"\x7d\n" =
        [0x20, 0x7b, 0x22, 0x61, 0x72, 0x67, 0x73, 0x22, 0x3a, 0x5b, 0x20,
          0x5d, 0x20, 0x2c, 0x22, 0x5c, 0x75, 0x30, 0x30, 0x36, 0x66, 0x70,
          0x22, 0x3a, 0x22, 0x61, 0x22, 0x7d, 0x0a] := by
    decide +kernel
  have argsMember : MemberText unicodeBytes
        [0x22, 0x61, 0x72, 0x67, 0x73, 0x22, 0x3a, 0x5b, 0x20, 0x5d, 0x20,
          0x2c, 0x22, 0x5c, 0x75, 0x30, 0x30, 0x36, 0x66, 0x70, 0x22, 0x3a,
          0x22, 0x61, 0x22, 0x7d, 0x0a]
        ⟨ascii "args", .array []⟩
        [0x20, 0x2c, 0x22, 0x5c, 0x75, 0x30, 0x30, 0x36, 0x66, 0x70, 0x22,
          0x3a, 0x22, 0x61, 0x22, 0x7d, 0x0a] :=
    .pair
      (parseString_eq_some.mp
        (show _ = some (_, [0x3a, 0x5b, 0x20, 0x5d, 0x20, 0x2c, 0x22, 0x5c,
            0x75, 0x30, 0x30, 0x36, 0x66, 0x70, 0x22, 0x3a, 0x22, 0x61, 0x22, 0x7d, 0x0a])
          by decide +kernel))
      (.done _) (.done _)
      (.array (.empty (.skip (.inl rfl) (.done _))))
  have opMember : MemberText unicodeBytes
        [0x22, 0x5c, 0x75, 0x30, 0x30, 0x36, 0x66, 0x70, 0x22, 0x3a, 0x22, 0x61, 0x22, 0x7d, 0x0a]
        ⟨ascii "op", .string (ascii "a")⟩ [0x7d, 0x0a] :=
    .pair
      (parseString_eq_some.mp
        (show _ = some (_, [0x3a, 0x22, 0x61, 0x22, 0x7d, 0x0a]) by decide +kernel))
      (.done _) (.done _)
      (.string (parseString_eq_some.mp (by decide +kernel)))
  rw [text]
  refine decodes_every_presentation _
    [⟨ascii "args", .array []⟩, ⟨ascii "op", .string (ascii "a")⟩] _ ?_ ?_
  · exact .braces (.skip (.inl rfl) (.done _))
      (.more (.done _) argsMember (.skip (.inl rfl) (.done _)) (.last (.done _) opMember (.done _)))
      (.skip (.inr (.inr (.inl rfl))) (.done _))
  · exact ⟨by decide +kernel, by decide +kernel⟩

end Presentation

end SocksDirect.MonitorIpc
