import Mathlib.Data.List.Basic

namespace SocksDirect.JsonGrammar

/-!
# A grammar of flat JSON objects

Objects whose values are strings or arrays of strings, as byte strings.  Every
part of the grammar relates a text to what it denotes and to the text behind it,
so that one part is read after the other.  Strings may contain every byte but the
quote and the backslash as it is; what a `\u` escape stands for is a parameter.
-/

/-- Byte strings. -/
abbrev Bytes := List UInt8

/-- Blank, tab, line feed and carriage return. -/
def IsBlank (c : UInt8) : Prop := c = 0x20 ∨ c = 0x09 ∨ c = 0x0a ∨ c = 0x0d

/-- Any amount of white space. -/
inductive Blanks : Bytes → Bytes → Prop where
  | done (rest : Bytes) : Blanks rest rest
  | skip {c : UInt8} {text rest : Bytes} : IsBlank c → Blanks text rest → Blanks (c :: text) rest

/-- The character behind a backslash and the byte that it stands for. -/
inductive ShortEscape : UInt8 → UInt8 → Prop where
  | quote : ShortEscape 0x22 0x22
  | backslash : ShortEscape 0x5c 0x5c
  | slash : ShortEscape 0x2f 0x2f
  | lineFeed : ShortEscape 0x6e 0x0a
  | carriageReturn : ShortEscape 0x72 0x0d
  | tab : ShortEscape 0x74 0x09
  | backspace : ShortEscape 0x62 0x08
  | formFeed : ShortEscape 0x66 0x0c

/-- A hexadecimal digit, of either case, and its value. -/
def HexDigit (c : UInt8) (value : Nat) : Prop :=
  (value < 10 ∧ c.toNat = 0x30 + value) ∨
    (10 ≤ value ∧ value < 16 ∧ c.toNat = 0x61 + (value - 10)) ∨
    (10 ≤ value ∧ value < 16 ∧ c.toNat = 0x41 + (value - 10))

/-- The value of a member. -/
inductive Value where
  | string (value : Bytes)
  | array (elements : List Bytes)
  deriving Repr, DecidableEq

/-- One member of an object. -/
structure Member where
  key : Bytes
  value : Value
  deriving Repr, DecidableEq

section Grammar

variable (unicode : Nat → Bytes)

/-- A string behind its opening quote, with its closing quote. -/
inductive StringBody : Bytes → Bytes → Bytes → Prop where
  | close (rest : Bytes) : StringBody (0x22 :: rest) [] rest
  | plain {c : UInt8} {text value rest : Bytes} : c ≠ 0x22 → c ≠ 0x5c → StringBody text value rest →
      StringBody (c :: text) (c :: value) rest
  | short {esc byte : UInt8} {text value rest : Bytes} : ShortEscape esc byte →
      StringBody text value rest → StringBody (0x5c :: esc :: text) (byte :: value) rest
  | unicode {h₁ h₂ h₃ h₄ : UInt8} {d₁ d₂ d₃ d₄ : Nat} {text value rest : Bytes} : HexDigit h₁ d₁ →
      HexDigit h₂ d₂ → HexDigit h₃ d₃ → HexDigit h₄ d₄ → StringBody text value rest →
      StringBody (0x5c :: 0x75 :: h₁ :: h₂ :: h₃ :: h₄ :: text)
        (unicode (((d₁ * 16 + d₂) * 16 + d₃) * 16 + d₄) ++ value) rest

/-- A string. -/
inductive StringText : Bytes → Bytes → Bytes → Prop where
  | quoted {text value rest : Bytes} : StringBody unicode text value rest →
      StringText (0x22 :: text) value rest

/-- One or more strings separated by commas, and the closing bracket. -/
inductive Elements : Bytes → List Bytes → Bytes → Prop where
  | last {text first behind element rest : Bytes} : Blanks text first →
      StringText unicode first element behind → Blanks behind (0x5d :: rest) →
      Elements text [element] rest
  | more {text first behind element next rest : Bytes} {elements : List Bytes} : Blanks text first →
      StringText unicode first element behind → Blanks behind (0x2c :: next) →
      Elements next elements rest → Elements text (element :: elements) rest

/-- An array of strings. -/
inductive ArrayText : Bytes → List Bytes → Bytes → Prop where
  | empty {text rest : Bytes} : Blanks text (0x5d :: rest) → ArrayText (0x5b :: text) [] rest
  | nonempty {text rest : Bytes} {elements : List Bytes} : Elements unicode text elements rest →
      ArrayText (0x5b :: text) elements rest

/-- A string or an array of strings. -/
inductive ValueText : Bytes → Value → Bytes → Prop where
  | string {text value rest : Bytes} : StringText unicode text value rest →
      ValueText text (.string value) rest
  | array {text rest : Bytes} {elements : List Bytes} : ArrayText unicode text elements rest →
      ValueText text (.array elements) rest

/-- A string key, a colon and a value. -/
inductive MemberText : Bytes → Member → Bytes → Prop where
  | pair {text key behind next valueText rest : Bytes} {value : Value} :
      StringText unicode text key behind → Blanks behind (0x3a :: next) → Blanks next valueText →
      ValueText unicode valueText value rest → MemberText text ⟨key, value⟩ rest

/-- One or more members separated by commas, with the blanks around them. -/
inductive Members : Bytes → List Member → Bytes → Prop where
  | last {text first behind rest : Bytes} {member : Member} : Blanks text first →
      MemberText unicode first member behind → Blanks behind rest → Members text [member] rest
  | more {text first behind next rest : Bytes} {member : Member} {members : List Member} :
      Blanks text first → MemberText unicode first member behind → Blanks behind (0x2c :: next) →
      Members next members rest → Members text (member :: members) rest

/-- An object with at least one member, with the blanks around it. -/
inductive Object : Bytes → List Member → Prop where
  | braces {text inside behind : Bytes} {members : List Member} : Blanks text (0x7b :: inside) →
      Members unicode inside members (0x7d :: behind) → Blanks behind [] → Object text members

end Grammar

section Lengths

theorem Blanks.trans {text middle rest : Bytes} (first : Blanks text middle)
    (second : Blanks middle rest) :
    Blanks text rest := by
  induction first with
  | done _ => exact second
  | skip blank _ inductionHypothesis => exact .skip blank (inductionHypothesis second)

theorem Blanks.length_le {text rest : Bytes} (blanks : Blanks text rest) :
    rest.length ≤ text.length := by
  induction blanks with
  | done _ => exact Nat.le_refl _
  | skip _ _ inductionHypothesis => exact Nat.le_succ_of_le inductionHypothesis

variable {unicode : Nat → Bytes}

theorem StringBody.length_lt {text value rest : Bytes} (body : StringBody unicode text value rest) :
    rest.length < text.length := by
  induction body with
  | close _ => exact Nat.lt_succ_self _
  | plain _ _ _ inductionHypothesis => exact Nat.lt_succ_of_lt inductionHypothesis
  | short _ _ inductionHypothesis => exact Nat.lt_succ_of_lt (Nat.lt_succ_of_lt inductionHypothesis)
  | unicode _ _ _ _ _ inductionHypothesis =>
    simp only [List.length_cons]
    omega

theorem StringText.length_lt {text value rest : Bytes}
    (string : StringText unicode text value rest) :
    rest.length < text.length := by
  cases string with
  | quoted body => exact Nat.lt_succ_of_lt body.length_lt

theorem Elements.behind {text inside rest : Bytes} {elements : List Bytes}
    (blanks : Blanks text inside) (list : Elements unicode inside elements rest) :
    Elements unicode text elements rest := by
  cases list with
  | last before element after => exact .last (blanks.trans before) element after
  | more before element after others => exact .more (blanks.trans before) element after others

theorem Elements.length_lt {text rest : Bytes} {elements : List Bytes}
    (list : Elements unicode text elements rest) :
    rest.length < text.length := by
  induction list with
  | last before element after | more before element after =>
    have first := before.length_le
    have second := element.length_lt
    have third := after.length_le
    rw [List.length_cons] at third
    omega

theorem ValueText.length_lt {text rest : Bytes} {value : Value}
    (written : ValueText unicode text value rest) :
    rest.length < text.length := by
  cases written with
  | string string => exact string.length_lt
  | array array =>
    cases array with
    | empty blanks =>
      have inside := blanks.length_le
      rw [List.length_cons] at inside ⊢
      omega
    | nonempty elements => exact Nat.lt_succ_of_lt elements.length_lt

theorem MemberText.length_lt {text rest : Bytes} {member : Member}
    (written : MemberText unicode text member rest) :
    rest.length < text.length := by
  cases written with
  | pair key colon blanks value =>
    have afterKey := key.length_lt
    have afterColon := colon.length_le
    have afterBlanks := blanks.length_le
    have afterValue := value.length_lt
    rw [List.length_cons] at afterColon
    omega

end Lengths

section Parts

/--
A part of the grammar takes a beginning of the text and does not look at what is
behind it.
-/
def TakesPart (reads : Bytes → Bytes → Prop) : Prop :=
  ∀ text rest, reads text rest → ∃ part, text = part ++ rest ∧ ∀ other, reads (part ++ other) other

theorem blanks_nil_iff {text : Bytes} : Blanks text [] ↔ ∀ c ∈ text, IsBlank c := by
  constructor
  · intro blanks
    generalize nothing : ([] : Bytes) = rest at blanks
    induction blanks with
    | done _ =>
      subst nothing
      simp
    | skip blank _ inductionHypothesis =>
      exact List.forall_mem_cons.mpr ⟨blank, inductionHypothesis nothing⟩
  · intro all
    induction text with
    | nil => exact .done []
    | cons c rest inductionHypothesis =>
      obtain ⟨blank, others⟩ := List.forall_mem_cons.mp all
      exact .skip blank (inductionHypothesis others)

theorem takesPart_blanks : TakesPart Blanks := by
  intro text rest blanks
  induction blanks with
  | done _ => exact ⟨[], rfl, fun other => .done other⟩
  | @skip c _ _ blank _ inductionHypothesis =>
    obtain ⟨part, rfl, frame⟩ := inductionHypothesis
    exact ⟨c :: part, rfl, fun other => .skip blank (frame other)⟩

variable {unicode : Nat → Bytes}

/-- Strings. -/
theorem takesPart_stringText (value : Bytes) :
    TakesPart fun text rest => StringText unicode text value rest := by
  have bodies {text value rest : Bytes}
      (body : StringBody unicode text value rest) :
      ∃ part, text = part ++ rest ∧ ∀ other, StringBody unicode (part ++ other) value other := by
    induction body with
    | close _ => exact ⟨[0x22], rfl, fun other => .close other⟩
    | @plain c _ _ _ notQuote notBackslash _ inductionHypothesis =>
      obtain ⟨part, rfl, frame⟩ := inductionHypothesis
      exact ⟨c :: part, rfl, fun other => .plain notQuote notBackslash (frame other)⟩
    | @short esc _ _ _ _ escape _ inductionHypothesis =>
      obtain ⟨part, rfl, frame⟩ := inductionHypothesis
      exact ⟨0x5c :: esc :: part, rfl, fun other => .short escape (frame other)⟩
    | @unicode h₁ h₂ h₃ h₄ _ _ _ _ _ _ _ first second third fourth _ inductionHypothesis =>
      obtain ⟨part, rfl, frame⟩ := inductionHypothesis
      exact ⟨0x5c :: 0x75 :: h₁ :: h₂ :: h₃ :: h₄ :: part, rfl,
        fun other => .unicode first second third fourth (frame other)⟩
  rintro text rest ⟨body⟩
  obtain ⟨part, rfl, frame⟩ := bodies body
  exact ⟨0x22 :: part, rfl, fun other => .quoted (frame other)⟩

theorem takesPart_blanks_byte (c : UInt8) : TakesPart fun text rest => Blanks text (c :: rest) := by
  intro text rest blanks
  obtain ⟨part, rfl, frame⟩ := takesPart_blanks _ _ blanks
  refine ⟨part ++ [c], ?_, ?_⟩
  · rw [List.append_assoc, List.singleton_append]
  · intro other
    rw [List.append_assoc, List.singleton_append]
    exact frame (c :: other)

theorem TakesPart.andThen {first second : Bytes → Bytes → Prop} (takesFirst : TakesPart first)
    (takesSecond : TakesPart second) :
    TakesPart fun text rest => ∃ middle, first text middle ∧ second middle rest := by
  rintro text rest ⟨middle, readsFirst, readsSecond⟩
  obtain ⟨part, rfl, frame⟩ := takesFirst _ _ readsFirst
  obtain ⟨next, rfl, frameNext⟩ := takesSecond _ _ readsSecond
  refine ⟨part ++ next, (List.append_assoc _ _ _).symm, ?_⟩
  intro other
  refine ⟨next ++ other, ?_, frameNext other⟩
  rw [List.append_assoc]
  exact frame (next ++ other)

/-- The elements of an array. -/
theorem takesPart_elements (elements : List Bytes) :
    TakesPart fun text rest => Elements unicode text elements rest := by
  intro text rest list
  induction list with
  | @last _ _ _ value _ before element after =>
    obtain ⟨part, rfl, frame⟩ :=
      (takesPart_blanks.andThen
        ((takesPart_stringText value).andThen (takesPart_blanks_byte 0x5d)))
        _ _ ⟨_, before, _, element, after⟩
    refine ⟨part, rfl, fun other => ?_⟩
    obtain ⟨_, before, _, element, after⟩ := frame other
    exact .last before element after
  | @more _ _ _ value _ _ _ before element after _ inductionHypothesis =>
    obtain ⟨others, rfl, frameOthers⟩ := inductionHypothesis
    obtain ⟨part, rfl, frame⟩ :=
      (takesPart_blanks.andThen
        ((takesPart_stringText value).andThen (takesPart_blanks_byte 0x2c)))
        _ _ ⟨_, before, _, element, after⟩
    refine ⟨part ++ others, (List.append_assoc _ _ _).symm, fun other => ?_⟩
    obtain ⟨_, before, _, element, after⟩ := frame (others ++ other)
    rw [List.append_assoc]
    exact .more before element after (frameOthers other)

theorem takesPart_valueText (value : Value) :
    TakesPart fun text rest => ValueText unicode text value rest := by
  intro text rest written
  cases written with
  | string string =>
    obtain ⟨part, rfl, frame⟩ := takesPart_stringText _ _ _ string
    exact ⟨part, rfl, fun other => .string (frame other)⟩
  | array array =>
    cases array with
    | empty blanks =>
      obtain ⟨part, rfl, frame⟩ := takesPart_blanks_byte 0x5d _ _ blanks
      exact ⟨0x5b :: part, rfl, fun other => .array (.empty (frame other))⟩
    | nonempty elements =>
      obtain ⟨part, rfl, frame⟩ := takesPart_elements _ _ _ elements
      exact ⟨0x5b :: part, rfl, fun other => .array (.nonempty (frame other))⟩

theorem takesPart_memberText (member : Member) :
    TakesPart fun text rest => MemberText unicode text member rest := by
  obtain ⟨name, content⟩ := member
  rintro text rest ⟨key, colon, blanks, value⟩
  obtain ⟨part, rfl, frame⟩ :=
    ((takesPart_stringText name).andThen
      ((takesPart_blanks_byte 0x3a).andThen
        (takesPart_blanks.andThen (takesPart_valueText content))))
      _ _ ⟨_, key, _, colon, _, blanks, value⟩
  refine ⟨part, rfl, fun other => ?_⟩
  obtain ⟨_, key, _, colon, _, blanks, value⟩ := frame other
  exact .pair key colon blanks value

/-- Lists of members. -/
theorem takesPart_members (members : List Member) :
    TakesPart fun text rest => Members unicode text members rest := by
  intro text rest list
  induction list with
  | @last _ _ _ _ item before member after =>
    obtain ⟨part, rfl, frame⟩ :=
      (takesPart_blanks.andThen
        ((takesPart_memberText item).andThen takesPart_blanks))
        _ _ ⟨_, before, _, member, after⟩
    refine ⟨part, rfl, fun other => ?_⟩
    obtain ⟨_, before, _, member, after⟩ := frame other
    exact .last before member after
  | @more _ _ _ _ _ item _ before member after _ inductionHypothesis =>
    obtain ⟨others, rfl, frameOthers⟩ := inductionHypothesis
    obtain ⟨part, rfl, frame⟩ :=
      (takesPart_blanks.andThen
        ((takesPart_memberText item).andThen (takesPart_blanks_byte 0x2c)))
        _ _ ⟨_, before, _, member, after⟩
    refine ⟨part ++ others, (List.append_assoc _ _ _).symm, fun other => ?_⟩
    obtain ⟨_, before, _, member, after⟩ := frame (others ++ other)
    rw [List.append_assoc]
    exact .more before member after (frameOthers other)

theorem Object.getLast?_eq {text : Bytes} {members : List Member}
    (object : Object unicode text members) :
    ∃ c, text.getLast? = some c ∧ (c = 0x7d ∨ IsBlank c) := by
  cases object with
  | braces blanks inside behind =>
    obtain ⟨part, rfl, _⟩ :=
      ((takesPart_blanks_byte 0x7b).andThen (takesPart_members members)) _ _ ⟨_, blanks, inside⟩
    rw [blanks_nil_iff] at behind
    rw [List.getLast?_append_of_ne_nil _ (List.cons_ne_nil _ _), List.getLast?_cons]
    refine ⟨_, rfl, ?_⟩
    cases last : List.getLast? _ with
    | none => exact .inl rfl
    | some c => exact .inr (behind c (List.mem_of_getLast? last))

end Parts

end SocksDirect.JsonGrammar
