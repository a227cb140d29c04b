import SocksDirect.MachineRun

namespace SocksDirect.SendfileCopy

open Machine

/-!
# The emulated `sendfile`

When one of the two descriptors is an accelerated socket, `sendfile` copies
through a buffer of 16384 bytes: it reads into the buffer and writes in an inner
loop until what it read has been written.  The results of `read` and `write`
are the actions of the machine.  Every `write` passes `read_bytes` bytes, also
after a short one, so it can hand over what lies behind the bytes read.
-/

/-- The result of a system call: `EAGAIN`, or a number of bytes. -/
inductive IoResult where
  | again
  | amount (bytes : Nat)
  deriving DecidableEq, Repr

/-- The call the loops make next, with the variables of the inner loop. -/
inductive Phase where
  | reading
  | writing (readBytes : Nat) (writeBytes : Int) (writeBuf : Nat)
  | returned (result : Nat)
  deriving DecidableEq, Repr

/-- The arguments: the content of the file, the offset the copy starts at, and `count`. -/
structure Request where
  file : List UInt8
  offset : Nat
  count : Nat
  deriving DecidableEq, Repr

/-- The variables of a call in progress. -/
structure Sendfile where
  /-- What is in memory from `buf` on; the copy has no control over what lies behind it. -/
  memory : List UInt8
  totalReadBytes : Nat
  /-- Everything that `out_fd` has taken. -/
  written : List UInt8
  phase : Phase
  deriving DecidableEq, Repr

/-- The size of `buf`. -/
def bufsize : Nat := 4096 * 4

namespace Request

variable (request : Request)

/-- The bytes from the offset on. -/
def source : List UInt8 := request.file.drop request.offset

/-- The test of the outer loop. -/
def loopHead (totalReadBytes : Nat) : Phase :=
  if request.count - totalReadBytes > 0 then .reading else .returned totalReadBytes

/-- The call before its first system call. -/
def initial (memory : List UInt8) : Sendfile where
  memory := memory
  totalReadBytes := 0
  written := []
  phase := request.loopHead 0

/-- What a `read` may return: at most what was asked for and is there, and 0 at the end only. -/
def mayRead (totalReadBytes amount : Nat) : Bool :=
  amount ≤ min bufsize (request.count - totalReadBytes) &&
    amount ≤ request.source.length - totalReadBytes &&
    (0 < amount || request.source.length ≤ totalReadBytes)

/-- One system call of the copy. -/
def step? (state : Sendfile) (result : IoResult) : Option Sendfile :=
  match state.phase, result with
  | .returned _, _ => none
  | .reading, .again | .writing .., .again => some state
  | .reading, .amount readBytes =>
    if request.mayRead state.totalReadBytes readBytes then
      if readBytes = 0 then
        some { state with phase := .returned state.totalReadBytes }
      else
        let bytes := (request.source.drop state.totalReadBytes).take readBytes
        some { state with
          memory := bytes ++ state.memory.drop readBytes
          totalReadBytes := state.totalReadBytes + readBytes
          phase := .writing readBytes readBytes 0 }
    else
      none
  | .writing readBytes writeBytes writeBuf, .amount writtenBytes =>
    if writtenBytes ≤ readBytes then
      let left := writeBytes - writtenBytes
      some { state with
        written := state.written ++ (state.memory.drop writeBuf).take writtenBytes
        phase :=
          if left > 0 then
            .writing readBytes left (writeBuf + writtenBytes)
          else
            request.loopHead state.totalReadBytes }
    else
      none

/-- A `write` that is due passes only bytes that were read and not yet written. -/
def PassesUnwritten (state : Sendfile) : Prop :=
  match state.phase with
  | .writing readBytes writeBytes writeBuf =>
    readBytes ≤ writeBytes.toNat ∧ writeBuf + readBytes ≤ readBytes
  | _ => True

/-- The bytes written are the first ones of the file from the offset on, as many as the result
says, and the result is the number of bytes asked for and there. -/
def Exact (state : Sendfile) : Prop :=
  ∀ result, state.phase = .returned result → state.written = request.source.take result ∧
      result = min request.count request.source.length

/-- A `write` takes all that was read, or nothing. -/
def WritesAll (state : Sendfile) (result : IoResult) : Prop :=
  match state.phase, result with
  | .writing readBytes .., .amount writtenBytes => writtenBytes = 0 ∨ writtenBytes = readBytes
  | _, _ => True

instance decidableWritesAll (state : Sendfile) (result : IoResult) :
    Decidable (WritesAll state result) := by
  unfold WritesAll
  split <;> infer_instance

/-- All but the bytes in the buffer has been written, in order. -/
structure Copied (state : Sendfile) : Prop where
  available : state.totalReadBytes ≤ request.source.length
  wanted : state.totalReadBytes ≤ request.count
  copied :
    match state.phase with
    | .reading => state.written = request.source.take state.totalReadBytes
    | .writing readBytes writeBytes writeBuf =>
      0 < readBytes ∧ writeBytes = readBytes ∧ writeBuf = 0 ∧
        state.written ++ state.memory.take readBytes = request.source.take state.totalReadBytes
    | .returned result =>
      state.written = request.source.take result ∧ result = min request.count request.source.length

variable {request}

private theorem copied_loopHead {memory written : List UInt8} {total : Nat}
    (available : total ≤ request.source.length) (wanted : total ≤ request.count)
    (copied : written = request.source.take total) :
    request.Copied ⟨memory, total, written, request.loopHead total⟩ := by
  refine ⟨available, wanted, ?_⟩
  simp only [loopHead]
  by_cases more : request.count - total > 0
  · simpa [more] using copied
  · simp only [more, if_false]
    exact ⟨copied, by omega⟩

theorem copied_initial (memory : List UInt8) : request.Copied (request.initial memory) :=
  copied_loopHead (Nat.zero_le _) (Nat.zero_le _) rfl

theorem Copied.passesUnwritten {state : Sendfile} (copied : request.Copied state) :
    PassesUnwritten state := by
  have inPhase := copied.copied
  simp only [PassesUnwritten]
  split
  case h_1 phase =>
    rw [phase] at inPhase
    omega
  case h_2 => trivial

/-- A step keeps the copy exact if no `write` is short. -/
theorem Copied.step {state next : Sendfile} {result : IoResult} (copied : request.Copied state)
    (accepted : request.step? state result = some next) (all : WritesAll state result) :
    request.Copied next := by
  obtain ⟨memory, total, written, phase⟩ := state
  obtain ⟨available, wanted, inPhase⟩ := copied
  simp only at available wanted inPhase
  cases phase with
  | returned result => simp [step?] at accepted
  | reading =>
    cases result with
    | again =>
      simp only [step?, Option.some.injEq] at accepted
      exact accepted ▸ ⟨available, wanted, inPhase⟩
    | amount readBytes =>
      simp only [step?, Option.ite_none_right_eq_some] at accepted
      obtain ⟨may, accepted⟩ := accepted
      simp only [mayRead, Bool.and_eq_true, Bool.or_eq_true, decide_eq_true_eq] at may
      split at accepted
      case isTrue atEnd =>
        obtain rfl := Option.some.inj accepted
        -- a `read` of nothing says that the file ends here
        exact ⟨available, wanted, inPhase, by omega⟩
      case isFalse some =>
        obtain rfl := Option.some.inj accepted
        refine ⟨by simp; omega, by simp; omega, Nat.pos_of_ne_zero some, rfl, rfl, ?_⟩
        have filled : ((request.source.drop total).take readBytes).length = readBytes := by
          rw [List.length_take, List.length_drop]
          omega
        rw [List.take_left' filled, inPhase, List.take_add]
  | writing readBytes writeBytes writeBuf =>
    obtain ⟨positive, rfl, rfl, unwritten⟩ := inPhase
    cases result with
    | again =>
      simp only [step?, Option.some.injEq] at accepted
      exact accepted ▸ ⟨available, wanted, positive, rfl, rfl, unwritten⟩
    | amount writtenBytes =>
      simp only [step?, Option.ite_none_right_eq_some, Option.some.injEq, List.drop_zero] at accepted
      obtain ⟨-, rfl⟩ := accepted
      obtain rfl | rfl := all
      · -- nothing was taken, so the same `write` comes again
        simpa [positive] using
          (⟨available, wanted, positive, rfl, rfl, unwritten⟩ :
            request.Copied ⟨memory, total, written, .writing readBytes readBytes 0⟩)
      · simpa using copied_loopHead available wanted unwritten

/-- After a short `write` the next one passes bytes that were not read, or not for the first
time. -/
theorem Copied.passesUnwritten_iff {state next : Sendfile} {result : IoResult}
    (copied : request.Copied state) (accepted : request.step? state result = some next) :
    PassesUnwritten next ↔ WritesAll state result := by
  refine ⟨fun passes => ?_, fun all => (copied.step accepted all).passesUnwritten⟩
  obtain ⟨memory, total, written, phase⟩ := state
  have inPhase := copied.copied
  cases phase with
  | reading | returned => trivial
  | writing readBytes writeBytes writeBuf =>
    cases result with
    | again => trivial
    | amount writtenBytes =>
      obtain ⟨-, rfl, rfl, -⟩ := inPhase
      simp only [step?, Option.ite_none_right_eq_some, Option.some.injEq] at accepted
      obtain ⟨fits, rfl⟩ := accepted
      simp only [WritesAll]
      by_contra short
      have left : (readBytes : Int) - writtenBytes > 0 := by omega
      simp only [PassesUnwritten, left, if_true] at passes
      omega

/-- The copy is exact, and every `write` passes only what is unwritten, in exactly those runs in
which every `write` takes all that was read or nothing. -/
theorem sendfile_exact_iff
    (request : Request)
    (memory : List UInt8)
    {results : List IoResult}
    {final : Sendfile}
    (accepted : run? request.step? (request.initial memory) results = some final) :
    ((∀ state,
      ReachedBy request.step? (request.initial memory) results state → PassesUnwritten state) ∧
      request.Exact final) ↔
      Along request.step? WritesAll (request.initial memory) results := by
  have passes := forall_reachedBy_iff_along_of_kept
    (fun copied => Copied.passesUnwritten copied)
    (fun copied stepped => Copied.passesUnwritten_iff copied stepped)
    (fun copied stepped all => Copied.step copied stepped all)
    (copied_initial memory) accepted
  constructor
  case mp => exact fun both => passes.mp both.1
  case mpr =>
    intro along
    refine ⟨passes.mpr along, fun result returned => ?_⟩
    have copied := invariant_along (copied_initial memory)
      (fun before all stepped => Copied.step before stepped all) accepted along
    have atEnd := copied.copied
    rw [returned] at atEnd
    exact atEnd

/-- A file of three bytes, all of them asked for. -/
def threeBytes : Request where
  file := [1, 2, 3]
  offset := 0
  count := 3

/-- With full writes, one of them after an `EAGAIN`, the three bytes are copied. -/
theorem threeBytes_copied :
    ∃ final,
      run? threeBytes.step? (threeBytes.initial []) [.amount 3, .again, .amount 3] = some final ∧
      threeBytes.Exact final ∧
      final.phase = .returned 3 := by
  refine ⟨⟨[1, 2, 3], 3, [1, 2, 3], .returned 3⟩, by decide, ?_, rfl⟩
  exact ((@sendfile_exact_iff threeBytes [] [.amount 3, .again, .amount 3] _
    (by decide)).mpr (by decide)).2

/-- A first `write` takes one byte; the second one passes the two bytes left and one byte more,
takes all three, and the copy ends with a byte too many. -/
theorem sendfile_writes_stray_byte :
    ∃ final,
      run? threeBytes.step? (threeBytes.initial [0, 0, 0, 9]) [.amount 3, .amount 1, .amount 3] =
        some final ∧
      final.phase = .returned 3 ∧
      final.written = [1, 2, 3, 9] ∧
      ¬ threeBytes.Exact final := by
  refine ⟨⟨[1, 2, 3, 9], 3, [1, 2, 3, 9], .returned 3⟩, by decide, rfl, rfl, fun exact => ?_⟩
  exact absurd (exact 3 rfl).1 (by decide)

end Request

end SocksDirect.SendfileCopy
