import Mathlib.Logic.Function.Basic
import SocksDirect.ByteText

namespace SocksDirect.MetricLabels

open Function

/-!
# Label keys of the metrics registry

`MetricsRegistry::counter` finds a counter by the name of its family and by the
text `fmt_labels` makes of its labels.  The values of labels are arbitrary
bytes, so that text has to keep apart values that imitate the separators.
Counters are only ever added, and a counter is named here by its place in the
order of their allocations.  `gauge` and `histogram` use maps of their own and
are left out.
-/

open ByteText

/-- The name and the value of a label. -/
abbrev Label := Text × Text

/-- What `fmt_labels` writes for one byte of a value. -/
def escape (c : UInt8) : Text :=
  if c = 0x5c then
    [0x5c, 0x5c]
  else if c = 0x22 then
    [0x5c, 0x22]
  else if c = 0x0a then [0x5c, 0x6e] else [c]

/-- One label: `name="value"`. -/
def fmtLabel (label : Label) : Text := label.1 ++ ascii "=\"" ++ label.2.flatMap escape ++ [0x22]

/-- The loop of `fmt_labels`, with its flag `first` and its output so far. -/
def fmtLoop : Bool → Text → List Label → Text
  | _, out, [] => out ++ [0x7d]
  | first, out, label :: rest =>
    fmtLoop false ((if first then out else out ++ [0x2c]) ++ fmtLabel label) rest

/-- `fmt_labels`. -/
def fmtLabels (labels : List Label) : Text :=
  if labels.isEmpty then [] else fmtLoop true [0x7b] labels

/-- A byte of a Prometheus label name. -/
def isNameByte (c : UInt8) : Bool :=
  (0x41 ≤ c && c ≤ 0x5a) || (0x61 ≤ c && c ≤ 0x7a) || c = 0x5f || isDigit c

/-- Letters, digits and underscores, the first of them not a digit. -/
def ValidName (name : Text) : Prop :=
  (∀ c ∈ name, isNameByte c = true) ∧ ∃ c ∈ name.head?, isDigit c = false

/-- All names of a list of labels are valid. -/
def ValidNames (labels : List Label) : Prop := ∀ label ∈ labels, ValidName label.1

/-- A family of counters; each is named by the order of its allocation. -/
structure CounterEntry where
  help : Text
  byLabels : Text → Option Nat

/-- `MetricsRegistry`, with its counters only. -/
structure MetricsRegistry where
  counters : Text → Option CounterEntry
  /-- The number of counters allocated so far, which names the next one. -/
  allocated : Nat

/-- The arguments of a call of `counter`. -/
structure CounterCall where
  name : Text
  help : Text
  labels : List Label

namespace MetricsRegistry

/-- The registry before the first call. -/
def initial : MetricsRegistry where
  counters := fun _ => none
  allocated := 0

/-- `counters_[name]`, which makes an empty entry where there is none; its first help text stays. -/
def entry (registry : MetricsRegistry) (name help : Text) : CounterEntry :=
  let found := (registry.counters name).getD ⟨[], fun _ => none⟩
  if found.help.isEmpty then { found with help := help } else found

/-- `counter(name, help, labels)`: the registry after the call, and the counter returned. -/
def counter (registry : MetricsRegistry) (call : CounterCall) : MetricsRegistry × Nat :=
  let entry := registry.entry call.name call.help
  let key := fmtLabels call.labels
  match entry.byLabels key with
  | some id => ({ registry with counters := update registry.counters call.name (some entry) }, id)
  | none =>
    let entry := { entry with byLabels := update entry.byLabels key (some registry.allocated) }
    ({ counters := update registry.counters call.name (some entry)
       allocated := registry.allocated + 1 }, registry.allocated)

/-- The registry after a sequence of calls. -/
def calls (registry : MetricsRegistry) (sequence : List CounterCall) : MetricsRegistry :=
  sequence.foldl (fun registry call => (registry.counter call).1) registry

/-- The counter under a name and a label text. -/
def find? (registry : MetricsRegistry) (name key : Text) : Option Nat :=
  (registry.counters name).bind fun entry => entry.byLabels key

end MetricsRegistry

section Text

private theorem escape_append_inj {c other : UInt8} {rest otherRest : Text}
    (same : escape c ++ rest = escape other ++ otherRest) : c = other ∧ rest = otherRest := by
  simp only [escape] at same
  grind

private theorem escape_append_ne_quote (c : UInt8) (rest otherRest : Text) :
    escape c ++ rest ≠ 0x22 :: otherRest := by
  simp only [escape]
  grind

/-- A quoted value ends at the first quote that is not escaped. -/
theorem quoted_inj {value other rest otherRest : Text}
    (same : value.flatMap escape ++ 0x22 :: rest = other.flatMap escape ++ 0x22 :: otherRest) :
    value = other ∧ rest = otherRest := by
  induction value generalizing other with
  | nil =>
    cases other with
    | nil => simpa using same
    | cons c cs =>
      rw [List.flatMap_cons, List.append_assoc] at same
      exact absurd same.symm (escape_append_ne_quote c _ _)
  | cons c cs inductionHypothesis =>
    rw [List.flatMap_cons, List.append_assoc] at same
    cases other with
    | nil => exact absurd same (escape_append_ne_quote c _ _)
    | cons d ds =>
      rw [List.flatMap_cons, List.append_assoc] at same
      obtain ⟨sameByte, sameTail⟩ := escape_append_inj same
      obtain ⟨sameBytes, sameRest⟩ := inductionHypothesis sameTail
      exact ⟨by rw [sameByte, sameBytes], sameRest⟩

private theorem equals_notMem_of_validName {name : Text} (valid : ValidName name) :
    (0x3d : UInt8) ∉ name := by
  intro member
  exact absurd (valid.1 _ member) (by decide)

private theorem name_inj {name other rest otherRest : Text} (absent : (0x3d : UInt8) ∉ name)
    (otherAbsent : (0x3d : UInt8) ∉ other)
    (same : name ++ 0x3d :: rest = other ++ 0x3d :: otherRest) :
    name = other ∧ rest = otherRest := by
  induction name generalizing other with
  | nil | cons => cases other <;> grind

theorem fmtLabel_append_inj {label other : Label} {rest otherRest : Text}
    (valid : ValidName label.1) (otherValid : ValidName other.1)
    (same : fmtLabel label ++ rest = fmtLabel other ++ otherRest) :
    label = other ∧ rest = otherRest := by
  have quote : ascii "=\"" = [0x3d, 0x22] := rfl
  simp only [fmtLabel, quote, List.append_assoc, List.cons_append, List.nil_append] at same
  obtain ⟨sameName, sameValue⟩ := name_inj (equals_notMem_of_validName valid)
    (equals_notMem_of_validName otherValid) same
  obtain ⟨sameBytes, sameRest⟩ := quoted_inj (List.tail_eq_of_cons_eq sameValue)
  exact ⟨Prod.ext sameName sameBytes, sameRest⟩

/-- What the loop writes after the first label. -/
private def following : List Label → Text
  | [] => [0x7d]
  | label :: rest => 0x2c :: (fmtLabel label ++ following rest)

private theorem fmtLoop_false (out : Text) (labels : List Label) :
    fmtLoop false out labels = out ++ following labels := by
  induction labels generalizing out with
  | nil => rfl
  | cons label rest inductionHypothesis =>
    rw [fmtLoop, inductionHypothesis, following]
    simp

private theorem fmtLabels_cons (label : Label) (rest : List Label) :
    fmtLabels (label :: rest) = 0x7b :: (fmtLabel label ++ following rest) := by
  simp [fmtLabels, fmtLoop, fmtLoop_false]

private theorem following_inj {labels others : List Label} (valid : ValidNames labels)
    (otherValid : ValidNames others) (same : following labels = following others) :
    labels = others := by
  induction labels generalizing others with
  | nil =>
    cases others with
    | nil => rfl
    | cons label rest => exact absurd (List.head_eq_of_cons_eq same) (by decide)
  | cons label rest inductionHypothesis =>
    cases others with
    | nil => exact absurd (List.head_eq_of_cons_eq same) (by decide)
    | cons other others =>
      obtain ⟨sameLabel, sameRest⟩ := fmtLabel_append_inj (valid label (by simp))
        (otherValid other (by simp)) (List.tail_eq_of_cons_eq same)
      rw [sameLabel, inductionHypothesis (fun name member => valid name (by simp [member]))
        (fun name member => otherValid name (List.mem_cons_of_mem other member)) sameRest]

theorem fmtLabels_inj {labels others : List Label} (valid : ValidNames labels)
    (otherValid : ValidNames others) (same : fmtLabels labels = fmtLabels others) :
    labels = others := by
  cases labels with
  | nil =>
    cases others with
    | nil => rfl
    | cons label rest =>
      rw [fmtLabels_cons] at same
      exact absurd same (by simp [fmtLabels])
  | cons label rest =>
    cases others with
    | nil =>
      rw [fmtLabels_cons] at same
      exact absurd same (by simp [fmtLabels])
    | cons other others =>
      -- with a comma in front both are what the loop writes after some first label
      rw [fmtLabels_cons, fmtLabels_cons] at same
      exact following_inj valid otherValid (congrArg (0x2c :: ·) (List.tail_eq_of_cons_eq same))

private theorem newline_notMem_fmtLabel {label : Label} (valid : ValidName label.1) :
    (0x0a : UInt8) ∉ fmtLabel label := by
  have notName : (0x0a : UInt8) ∉ label.1 := fun member => absurd (valid.1 _ member) (by decide)
  have notEscaped (c : UInt8) : (0x0a : UInt8) ∉ escape c := by
    simp only [escape]
    grind
  have quote : ascii "=\"" = [0x3d, 0x22] := rfl
  simp [fmtLabel, quote, notName, notEscaped]

private theorem newline_notMem_following {labels : List Label} (valid : ValidNames labels) :
    (0x0a : UInt8) ∉ following labels := by
  induction labels with
  | nil => decide
  | cons label rest inductionHypothesis =>
    simp only [following, List.mem_cons, List.mem_append, not_or]
    exact ⟨by decide, newline_notMem_fmtLabel (valid label (by simp)),
      inductionHypothesis fun label member => valid label (by simp [member])⟩

theorem newline_notMem_fmtLabels {labels : List Label} (valid : ValidNames labels) :
    (0x0a : UInt8) ∉ fmtLabels labels := by
  cases labels with
  | nil => simp [fmtLabels]
  | cons label rest =>
    rw [fmtLabels_cons]
    simp only [List.mem_cons, List.mem_append, not_or]
    exact ⟨by decide, newline_notMem_fmtLabel (valid label (by simp)),
      newline_notMem_following fun label member => valid label (by simp [member])⟩

end Text

namespace MetricsRegistry

/-- Every counter was allocated, and none stands under two keys. -/
structure Distinct (registry : MetricsRegistry) : Prop where
  allocated : ∀ {name key id}, registry.find? name key = some id → id < registry.allocated
  key : ∀ {name key other otherKey id}, registry.find? name key = some id →
    registry.find? other otherKey = some id → name = other ∧ key = otherKey

private theorem entry_byLabels (registry : MetricsRegistry) (name help : Text) :
    (registry.entry name help).byLabels = registry.find? name := by
  funext key
  simp only [entry]
  cases registered : registry.counters name <;> split <;> simp [find?, registered]

/-- What a call returns and what it leaves under every key. -/
theorem counter_spec (registry : MetricsRegistry) (call : CounterCall) : (registry.counter call).2 =
        (registry.find? call.name (fmtLabels call.labels)).getD registry.allocated ∧
      (registry.counter call).1.allocated = registry.allocated +
        (if (registry.find? call.name (fmtLabels call.labels)).isSome then 0 else 1) ∧
      ∀ name key, (registry.counter call).1.find? name key =
        if name = call.name ∧ key = fmtLabels call.labels then
          some (registry.counter call).2
        else
          registry.find? name key := by
  cases found : registry.find? call.name (fmtLabels call.labels) with
  | none =>
    simp only [counter, entry_byLabels, found]
    refine ⟨rfl, rfl, fun name key => ?_⟩
    by_cases sameName : name = call.name
    · subst sameName
      by_cases sameKey : key = fmtLabels call.labels <;> simp [find?, sameKey]
    · simp [find?, sameName]
  | some id =>
    simp only [counter, entry_byLabels, found]
    refine ⟨rfl, rfl, fun name key => ?_⟩
    by_cases sameName : name = call.name
    · subst sameName
      by_cases sameKey : key = fmtLabels call.labels
      · subst sameKey
        rw [if_pos ⟨rfl, rfl⟩, ← found, ← entry_byLabels registry call.name call.help]
        simp [find?]
      · simp [find?, sameKey, entry_byLabels]
    · simp [find?, sameName]

variable {registry : MetricsRegistry}

theorem find?_counter_self (registry : MetricsRegistry) (call : CounterCall) :
    (registry.counter call).1.find? call.name (fmtLabels call.labels) =
      some (registry.counter call).2 := by
  rw [(counter_spec registry call).2.2, if_pos ⟨rfl, rfl⟩]

theorem find?_counter_of_some {name key : Text} {id : Nat}
    (found : registry.find? name key = some id) (call : CounterCall) :
    (registry.counter call).1.find? name key = some id := by
  rw [(counter_spec registry call).2.2]
  split
  case isTrue same =>
    rw [(counter_spec registry call).1, ← same.1, ← same.2, found]
    rfl
  case isFalse => exact found

/-- No call gives one counter to two names or two lists of labels. -/
theorem Distinct.counter (distinct : registry.Distinct) (call : CounterCall) :
    (registry.counter call).1.Distinct := by
  obtain ⟨returned, allocations, lookup⟩ := counter_spec registry call
  cases found : registry.find? call.name (fmtLabels call.labels) with
  | some id =>
    -- nothing is allocated, and every key keeps its counter
    have kept : (registry.counter call).1.find? = registry.find? := by
      funext name key
      rw [lookup]
      split
      case isTrue same => rw [returned, same.1, same.2, found]; rfl
      case isFalse => rfl
    rw [found] at allocations
    exact { allocated := fun other => by
              rw [kept] at other
              exact lt_of_lt_of_eq (distinct.allocated other) allocations.symm
            key := by rw [kept]; exact distinct.key }
  | none =>
    rw [found] at returned allocations
    simp only [Option.getD_none, Option.isSome_none, Bool.false_eq_true, if_false]
      at returned allocations
    refine ⟨fun {name key id} other => ?_, fun {name key other otherKey id} one two => ?_⟩
    · rw [lookup] at other
      rw [allocations]
      split at other
      case isTrue => simp only [Option.some.injEq] at other; omega
      case isFalse => exact Nat.lt_succ_of_lt (distinct.allocated other)
    · rw [lookup] at one two
      -- the new counter is above all that stand under the other keys
      have fresh {name key : Text} : registry.find? name key ≠ some registry.allocated :=
        fun under => absurd (distinct.allocated under) (lt_irrefl _)
      grind [Distinct]

theorem distinct_calls (distinct : registry.Distinct) (sequence : List CounterCall) :
    (registry.calls sequence).Distinct := by
  induction sequence generalizing registry with
  | nil => exact distinct
  | cons call rest inductionHypothesis => exact inductionHypothesis (distinct.counter call)

theorem find?_calls_of_some {name key : Text} {id : Nat}
    (found : registry.find? name key = some id) (sequence : List CounterCall) :
    (registry.calls sequence).find? name key = some id := by
  induction sequence generalizing registry with
  | nil => exact found
  | cons call rest inductionHypothesis =>
    exact inductionHypothesis (find?_counter_of_some found call)

theorem distinct_initial : initial.Distinct where
  allocated found := by simp [find?, initial] at found
  key found := by simp [find?, initial] at found

/-- Two calls with one name return one counter exactly if their label texts agree. -/
theorem counter_eq_iff_fmtLabels_eq (distinct : registry.Distinct) (first second : CounterCall)
    (between : List CounterCall) (sameName : first.name = second.name) :
    ((((registry.counter first).1.calls between).counter second).2 = (registry.counter first).2) ↔
      fmtLabels first.labels = fmtLabels second.labels := by
  have earlier := find?_calls_of_some (find?_counter_self registry first) between
  have later := find?_counter_of_some earlier second
  have own := find?_counter_self ((registry.counter first).1.calls between) second
  have distinctLater := (distinct_calls (distinct.counter first) between).counter second
  constructor
  case mp =>
    intro same
    rw [same] at own
    exact (distinctLater.key later own).2
  case mpr =>
    intro same
    rw [sameName, same, own] at later
    exact Option.some.inj later

end MetricsRegistry

/-- Label lists with valid names have different label texts, none of them with a raw newline;
so two calls with one name, whatever was called before and between them, return the same
counter exactly if their labels are equal. -/
theorem labelKeys_unambiguous
    {labels others : List Label}
    (valid : ValidNames labels)
    (otherValid : ValidNames others) :
    (fmtLabels labels = fmtLabels others → labels = others) ∧
      (0x0a : UInt8) ∉ fmtLabels labels ∧
      ∀ (before between : List CounterCall) (name help otherHelp : Text),
        let registry := MetricsRegistry.initial.calls before
        let first := registry.counter ⟨name, help, labels⟩
        let second := (first.1.calls between).counter ⟨name, otherHelp, others⟩
        second.2 = first.2 ↔ labels = others := by
  refine ⟨fmtLabels_inj valid otherValid, newline_notMem_fmtLabels valid, ?_⟩
  intro before between name help otherHelp
  have distinct := MetricsRegistry.distinct_calls MetricsRegistry.distinct_initial before
  have sameText := MetricsRegistry.counter_eq_iff_fmtLabels_eq distinct ⟨name, help, labels⟩
    ⟨name, otherHelp, others⟩ between rfl
  constructor
  case mp =>
    intro same
    exact fmtLabels_inj valid otherValid (sameText.mp same)
  case mpr =>
    intro same
    exact sameText.mpr (congrArg fmtLabels same)

theorem imitatedLabel_is_another_counter :
    let imitation : List Label := [(ascii "a", ascii "x\",b=\"y")]
    let labels : List Label := [(ascii "a", ascii "x"), (ascii "b", ascii "y")]
    let first := MetricsRegistry.initial.counter ⟨ascii "n", [], imitation⟩
    ¬ (first.1.counter ⟨ascii "n", [], labels⟩).2 = first.2 := by
  have result := (@labelKeys_unambiguous [(ascii "a", ascii "x\",b=\"y")]
    [(ascii "a", ascii "x"), (ascii "b", ascii "y")]
    (by simp [ValidNames, ValidName, ascii, isNameByte, isDigit])
    (by simp [ValidNames, ValidName, ascii, isNameByte, isDigit])).2.2 [] [] (ascii "n") [] []
  exact fun same => absurd (result.mp same) (by decide)

end SocksDirect.MetricLabels
