import Mathlib.Data.List.DropRight
import SocksDirect.ByteText
import SocksDirect.LineFraming

namespace SocksDirect.ConfigFile

open Function

/-!
# Configuration files

`Config::load` reads a file line by line with the current section as its only
state, and stores each assignment under the section and the key with a dot
between them.  `get_string` asks the environment first, then that map.  What a
file means is said apart from the reader, by its lines: blank ones, comments,
section headers and assignments, each with whatever padding it has.
-/

open ByteText

/-- The bytes that `strip` removes: blank, tab, carriage return and newline. -/
def isBlank (c : UInt8) : Bool := c = 0x20 || c = 0x09 || c = 0x0d || c = 0x0a

/-- `strip`. -/
def strip (text : Text) : Text := (text.dropWhile isBlank).rdropWhile isBlank

/-- The variables of `load`: the values, the current section, the number of the line, and what
was printed about lines that were ignored. -/
structure Config where
  values : Text → Option Text
  current : Text
  lineno : Nat
  messages : List Text

/-- A `Config` as it is constructed. -/
def Config.empty : Config where
  values := fun _ => none
  current := []
  lineno := 0
  messages := []

/-- The key of `values_`. -/
def joined (sectionName key : Text) : Text := sectionName ++ 0x2e :: key

/-- The loop body of `load` for one line. -/
def loadLine (path : Text) (config : Config) (line : Text) : Config :=
  let config := { config with lineno := config.lineno + 1 }
  let s := strip line
  if s.isEmpty || s.head? = some 0x23 || s.head? = some 0x3b then
    config
  else if s.head? = some 0x5b ∧ s.getLast? = some 0x5d then
    { config with current := strip ((s.drop 1).take (s.length - 2)) }
  else if 0x3d ∈ s then
    let key := strip (s.takeWhile (· ≠ 0x3d))
    let value := strip ((s.dropWhile (· ≠ 0x3d)).drop 1)
    { config with values := update config.values (joined config.current key) (some value) }
  else
    { config with
      messages := config.messages ++ [ascii "socksdirect: " ++ path ++ ascii ":" ++
        decimal config.lineno ++ ascii ": ignored malformed line: " ++ s ++ ascii "\n"] }

/-- The lines that `getline` returns: a last one without a newline counts if it is not empty. -/
def fileLines (file : Text) : List Text :=
  let open_ := LineFraming.openLine 0x0a file
  LineFraming.lines 0x0a file ++ if open_.isEmpty then [] else [open_]

/-- `Config::load`; `none` is a file that cannot be opened. -/
def load (path : Text) (file : Option Text) : Config :=
  match file with
  | none => Config.empty
  | some file => (fileLines file).foldl (loadLine path) Config.empty

/-- `toupper` in the "C" locale. -/
def toUpper (c : UInt8) : UInt8 := if 0x61 ≤ c ∧ c ≤ 0x7a then c - 0x20 else c

/-- `env_var_name`. -/
def envVarName (sectionName key : Text) : Text :=
  (ascii "SOCKSDIRECT_" ++ sectionName.map toUpper ++ ascii "_" ++ key.map toUpper).map
    fun c => if c = 0x2d || c = 0x2e then 0x5f else c

/-- `env_lookup`; the name given to `getenv` ends at its first NUL. -/
def envLookup (getenv : Text → Option Text) (sectionName key : Text) : Option Text :=
  getenv ((envVarName sectionName key).takeWhile (· ≠ 0))

/-- `get_string`. -/
def getString (config : Config) (getenv : Text → Option Text) (sectionName key fallback : Text) :
    Text :=
  match envLookup getenv sectionName key with
  | some value => value
  | none => (config.values (joined sectionName key)).getD fallback

/-- A line of a file, with all its padding. -/
inductive Line where
  | blank (padding : Text)
  | comment (before : Text) (mark : UInt8) (rest : Text)
  | header (before inner name innerAfter after : Text)
  | assignment (before key keyAfter valueBefore value after : Text)

namespace Line

/-- The text of a line. -/
def render : Line → Text
  | blank padding => padding
  | comment before mark rest => before ++ mark :: rest
  | header before inner name innerAfter after =>
    before ++ 0x5b :: (inner ++ name ++ innerAfter ++ 0x5d :: after)
  | assignment before key keyAfter valueBefore value after =>
    before ++ key ++ keyAfter ++ 0x3d :: (valueBefore ++ value ++ after)

end Line

/-- Blanks, tabs and carriage returns. -/
def Padding (text : Text) : Prop := ∀ c ∈ text, c = 0x20 ∨ c = 0x09 ∨ c = 0x0d

/-- No blanks at the ends. -/
def Trimmed (text : Text) : Prop :=
  (∀ c ∈ text.head?, isBlank c = false) ∧ ∀ c ∈ text.getLast?, isBlank c = false

/-- What the parts of a line may be. -/
def Line.Parts : Line → Prop
  | .blank padding => Padding padding
  | .comment before mark _ => Padding before ∧ (mark = 0x23 ∨ mark = 0x3b)
  | .header before inner name innerAfter after =>
    Padding before ∧ Padding inner ∧ Padding innerAfter ∧ Padding after ∧ Trimmed name ∧
      (0x2e : UInt8) ∉ name
  | .assignment before key keyAfter valueBefore value after =>
    Padding before ∧ Padding keyAfter ∧ Padding valueBefore ∧ Padding after ∧ Trimmed key ∧
      Trimmed value ∧ key ≠ [] ∧ (0x3d : UInt8) ∉ key ∧
      ∀ c ∈ key.head?, c ≠ 0x5b ∧ c ≠ 0x23 ∧ c ≠ 0x3b

/-- A line of the file format: its parts are what they may be, and it is one line. -/
structure Line.Valid (line : Line) : Prop where
  parts : line.Parts
  single : (0x0a : UInt8) ∉ line.render

/-- A file that holds the lines, each ended by a newline. -/
def fileText (lines : List Line) : Text := lines.flatMap fun line => line.render ++ [0x0a]

/-- The value of the last assignment to a key inside a section, from a line on that stands in
the section `current`. -/
def lastAssignment (current : Text) : List Line → Text → Text → Option Text
  | [], _, _ => none
  | .header _ _ name _ _ :: rest, sectionName, key => lastAssignment name rest sectionName key
  | .assignment _ assigned _ _ value _ :: rest, sectionName, key =>
    (lastAssignment current rest sectionName key).or
      (if current = sectionName ∧ assigned = key then some value else none)
  | .blank _ :: rest, sectionName, key | .comment .. :: rest, sectionName, key =>
    lastAssignment current rest sectionName key

section Strip

variable {before after text rest : Text} {c : UInt8}

private theorem Padding.isBlank (padding : Padding text) : ∀ c ∈ text, isBlank c = true := by
  intro c member
  rcases padding c member with rfl | rfl | rfl <;> decide

private theorem dropWhile_padding (padding : Padding before) (visible : isBlank c = false) :
    (before ++ c :: rest).dropWhile isBlank = c :: rest := by
  rw [List.dropWhile_append_of_pos padding.isBlank, List.dropWhile_cons_of_neg (by simp [visible])]

private theorem rdropWhile_visible (visible : isBlank c = false) :
    (text ++ c :: rest).rdropWhile isBlank = text ++ c :: rest.rdropWhile isBlank := by
  induction rest using List.reverseRecOn with
  | nil => rw [List.rdropWhile_concat_neg _ _ _ (by simp [visible]), List.rdropWhile_nil]
  | append_singleton rest last inductionHypothesis =>
    have regroup : text ++ c :: (rest ++ [last]) = (text ++ c :: rest) ++ [last] := by simp
    rw [regroup, List.rdropWhile_concat, List.rdropWhile_concat, inductionHypothesis]
    split <;> simp

private theorem rdropWhile_padding (padding : Padding text) : text.rdropWhile isBlank = [] :=
  List.rdropWhile_eq_nil_iff.mpr padding.isBlank

/-- What stands between the paddings is kept from its first to its last visible byte. -/
private theorem strip_visible (padding : Padding before) (visible : isBlank c = false) :
    strip (before ++ c :: rest) = c :: rest.rdropWhile isBlank := by
  rw [strip, dropWhile_padding padding visible]
  exact @rdropWhile_visible [] rest c visible

private theorem rdropWhile_trimmed (trimmed : Trimmed text) (visible : text ≠ [])
    (padding : Padding after) : (before ++ text ++ after).rdropWhile isBlank = before ++ text := by
  obtain ⟨start, last, rfl⟩ := (List.eq_nil_or_concat text).resolve_left visible
  have lastVisible : isBlank last = false := trimmed.2 last (by simp)
  have regroup : before ++ start.concat last ++ after = (before ++ start) ++ last :: after := by simp
  rw [regroup, rdropWhile_visible lastVisible, rdropWhile_padding padding]
  simp

private theorem strip_padded (paddingBefore : Padding before) (trimmed : Trimmed text)
    (paddingAfter : Padding after) : strip (before ++ text ++ after) = text := by
  cases text with
  | nil =>
    have blank : Padding (before ++ [] ++ after) := by
      intro c member
      simp only [List.append_nil, List.mem_append] at member
      exact member.elim (paddingBefore c) (paddingAfter c)
    rw [strip, List.dropWhile_eq_nil_iff.mpr blank.isBlank, List.rdropWhile_nil]
  | cons c rest =>
    have visible : isBlank c = false := trimmed.1 c (by simp)
    rw [List.append_assoc, List.cons_append, strip, dropWhile_padding paddingBefore visible]
    exact @rdropWhile_trimmed [] after (c :: rest) trimmed (by simp) paddingAfter

/-- The trailing padding of a line does not matter for the part that ends it. -/
private theorem strip_rdropWhile (paddingBefore : Padding before) (trimmed : Trimmed text)
    (paddingAfter : Padding after) :
    strip ((before ++ text ++ after).rdropWhile isBlank) = text := by
  by_cases visible : text = []
  · subst visible
    have blank : ∀ c ∈ before ++ [] ++ after, isBlank c = true := by
      intro c member
      simp only [List.append_nil, List.mem_append] at member
      exact member.elim (paddingBefore.isBlank c) (paddingAfter.isBlank c)
    rw [List.rdropWhile_eq_nil_iff.mpr blank]
    rfl
  · have noPadding : Padding [] := by simp [Padding]
    rw [rdropWhile_trimmed trimmed visible paddingAfter]
    simpa using strip_padded paddingBefore trimmed noPadding

end Strip

section Lines

/-- The effect that a line is meant to have on the section and the values. -/
private def effect (config : Config) : Line → Config
  | .header _ _ name _ _ => { config with current := name }
  | .assignment _ key _ _ value _ =>
    { config with values := update config.values (joined config.current key) (some value) }
  | .blank _ | .comment .. => config

variable (path : Text) (config : Config)

/-- Every line of the format has its effect, and nothing is reported about it. -/
theorem loadLine_render {line : Line} (valid : line.Parts) :
    loadLine path config line.render = effect { config with lineno := config.lineno + 1 } line := by
  cases line with
  | blank padding =>
    have nothing : strip padding = [] := by
      rw [strip, List.dropWhile_eq_nil_iff.mpr (Padding.isBlank valid), List.rdropWhile_nil]
    simp [loadLine, Line.render, nothing, effect]
  | comment before mark rest =>
    obtain ⟨padding, isMark⟩ := valid
    have visible : isBlank mark = false := by rcases isMark with rfl | rfl <;> decide
    have skipped : (some mark = some (0x23 : UInt8)) ∨ some mark = some (0x3b : UInt8) := by
      simpa using isMark
    simp only [loadLine, Line.render, strip_visible padding visible, List.head?_cons]
    rcases skipped with same | same <;> simp [same, effect]
  | header before inner name innerAfter after =>
    obtain ⟨padding, paddingInner, paddingInnerAfter, paddingAfter, trimmed, -⟩ := valid
    have stripped : strip (before ++ 0x5b :: (inner ++ name ++ innerAfter ++ 0x5d :: after)) =
        0x5b :: (inner ++ name ++ innerAfter ++ [0x5d]) := by
      rw [strip_visible padding (by decide), rdropWhile_visible (by decide),
        rdropWhile_padding paddingAfter]
    have content : (inner ++ name ++ innerAfter ++ [0x5d]).take
        ((inner ++ name ++ innerAfter ++ [0x5d]).length + 1 - 2) = inner ++ name ++ innerAfter := by
      rw [List.length_append]
      exact List.take_left' (by simp)
    simp only [loadLine, Line.render, stripped]
    rw [if_neg (by simp), if_pos (by simp [List.getLast?_cons]), List.drop_one, List.tail_cons,
      List.length_cons, content, strip_padded paddingInner trimmed paddingInnerAfter]
    rfl
  | assignment before key keyAfter valueBefore value after =>
    obtain ⟨padding, paddingKey, paddingValue, paddingAfter, trimmedKey, trimmedValue, visible,
      noEquals, start⟩ := valid
    obtain ⟨c, keyRest, rfl⟩ := List.exists_cons_of_ne_nil visible
    have cVisible : isBlank c = false := trimmedKey.1 c (by simp)
    obtain ⟨notHeader, notHash, notSemicolon⟩ := start c (by simp)
    have noPadding : Padding [] := by simp [Padding]
    have noneBefore : ∀ d ∈ c :: (keyRest ++ keyAfter), d ≠ 0x3d := by
      intro d member
      rcases List.mem_append.mp (List.cons_append ▸ member : d ∈ (c :: keyRest) ++ keyAfter) with
        inKey | inPadding
      · exact fun same => noEquals (same ▸ inKey)
      · rcases paddingKey d inPadding with rfl | rfl | rfl <;> decide
    have stripped : strip (Line.assignment before (c :: keyRest) keyAfter valueBefore value
        after).render = (c :: (keyRest ++ keyAfter)) ++
          0x3d :: (valueBefore ++ value ++ after).rdropWhile isBlank := by
      rw [Line.render, List.append_assoc, List.append_assoc, List.cons_append,
        strip_visible padding cVisible, ← List.append_assoc, rdropWhile_visible (by decide)]
      rfl
    have keyPart (rest : Text) : ((c :: (keyRest ++ keyAfter)) ++ 0x3d :: rest).takeWhile
        (· ≠ 0x3d) = c :: (keyRest ++ keyAfter) := by
      rw [List.takeWhile_append_of_pos fun d member => decide_eq_true (noneBefore d member)]
      simp
    have valuePart (rest : Text) : ((c :: (keyRest ++ keyAfter)) ++ 0x3d :: rest).dropWhile
        (· ≠ 0x3d) = 0x3d :: rest := by
      rw [List.dropWhile_append_of_pos fun d member => decide_eq_true (noneBefore d member)]
      simp
    have key : strip (c :: (keyRest ++ keyAfter)) = c :: keyRest :=
      strip_padded noPadding trimmedKey paddingKey
    simp only [loadLine, stripped]
    rw [if_neg (by simp [notHash, notSemicolon]), if_neg (by simp [notHeader]),
      if_pos (by simp), keyPart, valuePart, key, List.drop_one, List.tail_cons,
      strip_rdropWhile paddingValue trimmedValue paddingAfter]
    rfl

end Lines

/-- The dot behind a section name without dots separates it from the key. -/
theorem joined_inj {sectionName other key otherKey : Text} (dotFree : (0x2e : UInt8) ∉ sectionName)
    (otherDotFree : (0x2e : UInt8) ∉ other) :
    joined sectionName key = joined other otherKey ↔ sectionName = other ∧ key = otherKey := by
  constructor
  · intro same
    induction sectionName generalizing other with
    | nil | cons => cases other <;> grind [joined]
  · rintro ⟨rfl, rfl⟩
    rfl

/-- Loading lines puts the last assignments in front of what was loaded before. -/
theorem values_foldl_loadLine (path : Text) {lines : List Line}
    (valid : ∀ line ∈ lines, line.Parts) {config : Config}
    (currentDotFree : (0x2e : UInt8) ∉ config.current) {sectionName : Text}
    (dotFree : (0x2e : UInt8) ∉ sectionName) (key : Text) :
    ((lines.map Line.render).foldl (loadLine path) config).values (joined sectionName key) =
      (lastAssignment config.current lines sectionName key).or
      (config.values (joined sectionName key)) := by
  induction lines generalizing config with
  | nil => simp [lastAssignment]
  | cons line rest inductionHypothesis =>
    have later (config : Config) := @inductionHypothesis
      (fun line member => valid line (List.mem_cons_of_mem _ member)) config
    have parts := valid line (by simp)
    rw [List.map_cons, List.foldl_cons, loadLine_render path config parts]
    cases line with
    | blank | comment => exact later _ currentDotFree
    | header before inner name innerAfter after => exact later _ parts.2.2.2.2.2
    | assignment before assigned keyAfter valueBefore value after =>
      rw [later _ (by exact currentDotFree), lastAssignment, Option.or_assoc]
      congr 1
      simp only [effect, update_apply, joined_inj dotFree currentDotFree]
      by_cases same : sectionName = config.current ∧ key = assigned
      · simp [same]
      · have other : ¬ (config.current = sectionName ∧ assigned = key) :=
          fun both => same ⟨both.1.symm, both.2.symm⟩
        simp [same, other]

private theorem fileLines_append {lines : List Line} (single : ∀ line ∈ lines, line.Valid)
    (rest : Text) :
    fileLines (fileText lines ++ rest) = lines.map Line.render ++ fileLines rest := by
  induction lines with
  | nil => rfl
  | cons line others inductionHypothesis =>
    have first := LineFraming.lines_line (single line (by simp)).single (fileText others ++ rest)
    have regroup : fileText (line :: others) ++ rest =
        line.render ++ 0x0a :: (fileText others ++ rest) := by simp [fileText]
    have later := inductionHypothesis fun line member => single line (by simp [member])
    simp only [fileLines, regroup, first, List.map_cons, List.cons_append] at later ⊢
    rw [later]

/-- A last line without a newline is read all the same. -/
private theorem fileLines_of_unterminated {lines : List Line} (single : ∀ line ∈ lines, line.Valid)
    {file : Text} (ended : file ++ [0x0a] = fileText lines) :
    fileLines file = lines.map Line.render ∨ fileLines file ++ [[]] = lines.map Line.render := by
  rcases List.eq_nil_or_concat lines with rfl | ⟨start, last, rfl⟩
  · simp [fileText] at ended
  · have lastSingle := (single last (by simp)).single
    have startSingle : ∀ line ∈ start, line.Valid := fun line member => single line (by simp [member])
    have whole : fileText (start.concat last) = fileText start ++ last.render ++ [0x0a] := by
      simp [fileText]
    rw [whole] at ended
    obtain ⟨rfl, -⟩ := List.append_inj' ended rfl
    rw [fileLines_append startSingle, fileLines]
    obtain ⟨noLine, openLine⟩ := LineFraming.lines_of_notMem lastSingle
    rw [noLine, openLine]
    cases text : last.render with
    | nil => exact .inr (by simp [text])
    | cons c rest => exact .inl (by simp [text])

/-- An empty line changes nothing but the line number. -/
private theorem values_foldl_append_empty (path : Text) (lines : List Text) (config : Config) :
    ((lines ++ [[]]).foldl (loadLine path) config).values =
      (lines.foldl (loadLine path) config).values := by
  rw [List.foldl_append]
  rfl

/-- A byte of a variable's name: letters are capital, and a dash or a dot is an underscore. -/
def variableByte (c : UInt8) : UInt8 :=
  if 0x61 ≤ c ∧ c ≤ 0x7a then c - 0x20 else if c = 0x2d ∨ c = 0x2e then 0x5f else c

/-- The variable `SOCKSDIRECT_<SECTION>_<KEY>`, up to a NUL. -/
def variableName (sectionName key : Text) : Text :=
  (ascii "SOCKSDIRECT_" ++ sectionName.map variableByte ++ ascii "_" ++
    key.map variableByte).takeWhile (· ≠ 0)

/-- `env_lookup` asks for the variable of the section and the key. -/
theorem envLookup_eq (getenv : Text → Option Text) (sectionName key : Text) :
    envLookup getenv sectionName key = getenv (variableName sectionName key) := by
  have byte (c : UInt8) :
      (if toUpper c = 0x2d || toUpper c = 0x2e then 0x5f else toUpper c) = variableByte c := by
    unfold toUpper variableByte
    grind
  have fixed : (ascii "SOCKSDIRECT_").map (fun c => if c = 0x2d || c = 0x2e then 0x5f else c) =
      ascii "SOCKSDIRECT_" := by decide
  have separator : (ascii "_").map (fun c => if c = 0x2d || c = 0x2e then 0x5f else c) =
      ascii "_" := by decide
  rw [envLookup, envVarName, variableName, List.map_append, List.map_append, List.map_append,
    fixed, separator, List.map_map, List.map_map]
  simp only [comp_def, byte]

/-- After loading a file of the format, with or without a newline at its end, a value is what
the environment says, or else the last assignment in the section, or else the fallback. -/
theorem getString_load
    (path : Text)
    {lines : List Line}
    (valid : ∀ line ∈ lines, line.Valid)
    {file : Text}
    (holds : file = fileText lines ∨ file ++ [0x0a] = fileText lines)
    (getenv : Text → Option Text)
    {sectionName : Text}
    (dotFree : (0x2e : UInt8) ∉ sectionName)
    (key fallback : Text) :
    (∀ value,
      getenv (variableName sectionName key) = some value →
      getString (load path (some file)) getenv sectionName key fallback = value) ∧
      (getenv (variableName sectionName key) = none →
        getString (load path (some file)) getenv sectionName key fallback =
          (lastAssignment [] lines sectionName key).getD fallback) := by
  have loaded := @values_foldl_loadLine path lines (fun line member => (valid line member).parts)
    Config.empty (by simp [Config.empty]) sectionName dotFree key
  have sameValues : (load path (some file)).values =
      ((lines.map Line.render).foldl (loadLine path) Config.empty).values := by
    rcases holds with rfl | ended
    · have read := fileLines_append valid []
      rw [List.append_nil, show fileLines [] = [] from rfl, List.append_nil] at read
      rw [load, read]
    · rcases fileLines_of_unterminated valid ended with same | same
      · rw [load, same]
      · rw [load, ← same, values_foldl_append_empty]
  rw [getString, envLookup_eq, sameValues, loaded]
  refine ⟨?_, ?_⟩
  · intro value set
    rw [set]
  · intro unset
    rw [unset]
    simp only [Config.empty, Option.or_none]

/-- Two sections with one key, a value with every delimiter, and a carriage return; the variable
of another key is set. -/
theorem getString_delimiters :
    let config := load [] (some (ascii "k = 0\n[a]\r\n# k = 1\n k = x=#;[y]\r\n[b]\nk-1=2"))
    let getenv := fun name => if name = ascii "SOCKSDIRECT_B_K_1" then some (ascii "3") else none
    getString config getenv (ascii "a") (ascii "k") [] = ascii "x=#;[y]" ∧
      getString config getenv (ascii "b") (ascii "k-1") [] = ascii "3" := by
  intro config getenv
  have value := @getString_load [] [.assignment [] (ascii "k") [0x20] [0x20] (ascii "0") [],
      .header [] [] (ascii "a") [] [0x0d], .comment [] 0x23 (ascii " k = 1"),
      .assignment [0x20] (ascii "k") [0x20] [0x20] (ascii "x=#;[y]") [0x0d],
      .header [] [] (ascii "b") [] [], .assignment [] (ascii "k-1") [] [] (ascii "2") []]
    (by
      simp only [List.forall_mem_cons, List.not_mem_nil, false_imp_iff, implies_true, and_true]
      refine ⟨⟨?_, by decide⟩, ⟨?_, by decide⟩, ⟨?_, by decide⟩, ⟨?_, by decide⟩, ⟨?_, by decide⟩,
        ⟨?_, by decide⟩⟩ <;> simp [Line.Parts, Padding, Trimmed, ascii, isBlank])
    (ascii "k = 0\n[a]\r\n# k = 1\n k = x=#;[y]\r\n[b]\nk-1=2") (.inr (by decide)) getenv
  refine ⟨?_, ?_⟩
  · rw [(@value (ascii "a") (by decide) (ascii "k") []).2 (by decide)]
    decide
  · exact (@value (ascii "b") (by decide) (ascii "k-1") []).1 _ (by decide)

end SocksDirect.ConfigFile
