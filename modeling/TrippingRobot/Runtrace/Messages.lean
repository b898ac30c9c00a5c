import TrippingRobot.Machine.Fallible
import TrippingRobot.Runtrace.Buffers

/-! A whole `tpprintf` call, as one thread makes it, and the message it stores beside the
one of a plain `make_tracept`. -/

namespace TrippingRobot.Runtrace

open TrippingRobot.Data TrippingRobot.Machine

/-- The `RT_MSG_MAX` bytes of a container's buffer. -/
def VspbContainer.bytes (container : VspbContainer) : List UInt8 :=
  (List.range rtMsgMax).map container.buf

/-- `vsnprintf(container->buf, RT_MSG_MAX, ...)`; bytes behind the terminator stay. -/
def VspbContainer.print (container : VspbContainer) (formatted : List UInt8) : VspbContainer :=
  { container with
    buf := fun index => ((vsnprintfOutput formatted)[index]?).getD (container.buf index) }

/-- `while (ATOMIC_TEST_AND_SET(container->in_use))` where no other thread releases a
container meanwhile. -/
def takeContainer (build : Build) : Nat → Block VspbContainer → Nat → Bool →
    Except Fault (Nat × Block VspbContainer × Bool)
  | 0, _, _, _ => .error .diverged
  | fuel + 1, buffer, container, underrun =>
    match buffer.read container with
    | none => .error .outOfBounds
    | some tested =>
      let (busy, word) := atomicTestAndSet build tested.inUse
      let marked := { buffer with
        cell := Function.update buffer.cell container { tested with inUse := word } }
      if busy then takeContainer build fuel marked tested.next (underrun || tested.next == 0)
      else .ok (container, marked, underrun)

/-- What both ways to record do about a facility that was not initialised. -/
def repaired (build : Build) (answers : Answers) (missing : Bool) (facility : Facility) :
    Except Fault Facility :=
  if missing then do
    let _ ← disablingErr build ()
    let (_, initialised) ← runtraceInit build answers 1 facility
    return initialised
  else return facility

/-- `tpprintf`. `formatted` is the whole text that `fmt` and its arguments make, none for a
NULL `fmt`; `container` is read before the facility is repaired. -/
def tpprintf (build : Build) (answers later : Answers) (now : Timeval) (line : CInt)
    (src : Option CString) (formatted : Option (List UInt8)) (facility : Facility) :
    Except Fault (CInt × Facility) := do
  let container := facility.vsprintBuffer
  let ready ← repaired build answers facility.vsprintBuffer.isNone facility
  match formatted with
  | none => do
    let after ← makeTracept build later now line src none ready
    return (0, after)
  | some text =>
    match container with
    | none => throw .nullPointer
    | some buffer => do
      let (taken, marked, underrun) ←
        takeContainer build (buffer.capacity + 1) buffer 0 ready.vspbUnderrunNotice
      let printed := (marked.cell taken).print text
      let msg := CString.ofMemory printed.bytes
      let after ← makeTracept build later now line src (some msg) ready
      -- a repair in make_tracept has freed the container it was to copy from
      if ready.tpPool.isNone then throw .outOfBounds
      else
        let cleared := { printed with inUse := atomicClear build printed.inUse }
        return (BitVec.ofNat 32 text.length,
          { after with
            vsprintBuffer := some { marked with cell := Function.update marked.cell taken cleared }
            vspbUnderrunNotice := underrun })

/-- The record the last tracepoint went to. -/
def Facility.lastRecord (facility : Facility) : Option Tracept :=
  facility.tpPool.map fun pool => pool.cell (slotOf facility.tpCntMask (facility.nextTp - 1))

structure SameMessage (plain printed : Tracept) : Prop where
  plainEnds : 0 ∈ plain.msg.bytes
  printedEnds : 0 ∈ printed.msg.bytes
  same : untilNul plain.msg.bytes = untilNul printed.msg.bytes

theorem VspbContainer.print_bytes (container : VspbContainer) (formatted : List UInt8) :
    (container.print formatted).bytes = vsnprintfOutput formatted ++
      container.bytes.drop (vsnprintfOutput formatted).length := by
  have bounded := vsnprintfOutput_length formatted
  apply List.ext_getElem
  · simp only [VspbContainer.bytes, List.length_map, List.length_range, List.length_append,
      List.length_drop]
    omega
  · intro index inside _
    simp only [VspbContainer.bytes, List.length_map, List.length_range] at inside
    by_cases written : index < (vsnprintfOutput formatted).length
    · simp [VspbContainer.bytes, VspbContainer.print, written]
    · rw [List.getElem_append_right (by omega)]
      have behind : (vsnprintfOutput formatted).length + (index -
          (vsnprintfOutput formatted).length) = index := by omega
      simp [VspbContainer.bytes, VspbContainer.print, Nat.not_lt.mp written, behind]

/-- What `make_tracept` finds in the buffer, whatever was there before. -/
theorem ofMemory_print (container : VspbContainer) (formatted : List UInt8) :
    (CString.ofMemory (container.print formatted).bytes).bytes =
      untilNul (formatted.take (rtMsgMax - 1)) := by
  have terminated : 0 ∈ vsnprintfOutput formatted := by simp [vsnprintfOutput]
  change untilNul (container.print formatted).bytes = _
  rw [VspbContainer.print_bytes, untilNul_append terminated, untilNul_vsnprintfOutput]

/-- The part of `make_tracept` under the read lock. -/
def storeLocked (now : Timeval) (line : CInt) (src msg : Option CString) (ready : Facility) :
    Except Fault Facility :=
  if ready.wrLocked then .error .deadlock
  else match ready.tpPool with
    | none => .error .nullPointer
    | some pool =>
      match pool.write (slotOf ready.tpCntMask ready.nextTp)
          (storeTracept (pool.cell (slotOf ready.tpCntMask ready.nextTp)) now line src msg) with
      | none => .error .outOfBounds
      | some written => .ok { ready with tpPool := some written, nextTp := ready.nextTp + 1 }

private theorem storeLocked_steps (now : Timeval) (line : CInt) (src msg : Option CString)
    (ready : Facility) :
    (do
      if ready.wrLocked then throw Fault.deadlock
      let some pool := ready.tpPool | throw Fault.nullPointer
      let slot := slotOf ready.tpCntMask ready.nextTp
      let some written := pool.write slot (storeTracept (pool.cell slot) now line src msg)
        | throw Fault.outOfBounds
      return { ready with tpPool := some written, nextTp := ready.nextTp + 1 }) =
      storeLocked now line src msg ready := by
  unfold storeLocked
  cases ready.wrLocked with
  | true => cases ready.tpPool <;> rfl
  | false =>
    cases ready.tpPool with
    | none => rfl
    | some pool =>
      simp only
      cases pool.write _ _ <;> rfl

theorem makeTracept_eq (build : Build) (answers : Answers) (now : Timeval) (line : CInt)
    (src msg : Option CString) (facility : Facility) :
    makeTracept build answers now line src msg facility =
      repaired build answers facility.tpPool.isNone facility >>= storeLocked now line src msg := by
  rw [← funext (storeLocked_steps now line src msg)]
  unfold makeTracept repaired
  cases facility.tpPool.isNone with
  | false => rfl
  | true =>
    cases disablingErr build () with
    | error fault => rfl
    | ok _ => cases runtraceInit build answers 1 facility <;> rfl

theorem makeTracept_lastRecord
    (returned : makeTracept build answers now line src msg facility = .ok after) :
    ∃ old, after.lastRecord = some (storeTracept old now line src msg) := by
  rw [makeTracept_eq] at returned
  obtain ⟨ready, _, returned⟩ := bind_eq_ok.mp returned
  simp only [storeLocked] at returned
  split at returned
  · cases returned
  · split at returned
    · cases returned
    · rename_i pool _
      split at returned
      · cases returned
      · rename_i written stored
        have inside : slotOf ready.tpCntMask ready.nextTp < pool.capacity := by
          by_contra outside
          rw [Block.write_outside (Nat.le_of_not_lt outside)] at stored
          cases stored
        rw [Block.write_inside inside] at stored
        cases stored
        cases returned
        exact ⟨pool.cell (slotOf ready.tpCntMask ready.nextTp), by simp [Facility.lastRecord]⟩

/-- A `tpprintf` that returns has stored the record of a `make_tracept` with the text cut to
what its buffer holds. -/
theorem tpprintf_lastRecord
    (returned : tpprintf build answers later now line src (some text) facility =
      .ok (result, after)) :
    ∃ old msg, msg.bytes = untilNul (text.take (rtMsgMax - 1)) ∧
      after.lastRecord = some (storeTracept old now line src (some msg)) := by
  obtain ⟨ready, _, returned⟩ := bind_eq_ok.mp returned
  simp only at returned
  split at returned
  · simp at returned
  · obtain ⟨⟨taken, marked, underrun⟩, _, returned⟩ := bind_eq_ok.mp returned
    obtain ⟨made, stored, returned⟩ := bind_eq_ok.mp returned
    obtain ⟨old, last⟩ := makeTracept_lastRecord stored
    split at returned
    · simp at returned
    · cases pure_eq_ok.mp returned
      exact ⟨old, _, ofMemory_print _ text, last⟩

theorem storeMsg_terminated_iff (old : MsgField) (text : CString) :
    0 ∈ (storeMsg old (some text)).bytes ↔ text.bytes.length < rtMsgMax := by
  have clean : 0 ∉ text.bytes.take rtMsgMax := fun member => text.noNul (List.mem_of_mem_take member)
  simp only [storeMsg, strncpy, List.mem_append, clean, false_or, List.mem_replicate]
  simp
  omega

structure Buffered (build : Build) (facility : Facility) (buffer : Block VspbContainer) : Prop where
  held : facility.vsprintBuffer = some buffer
  room : 0 < buffer.capacity
  free : isFree build (buffer.cell 0).inUse = true

theorem takeContainer_first {buffer : Block VspbContainer} (room : 0 < buffer.capacity)
    (free : isFree build (buffer.cell 0).inUse = true) (fuel : Nat) (underrun : Bool) :
    takeContainer build (fuel + 1) buffer 0 underrun = .ok (0, { buffer with
      cell := Function.update buffer.cell 0 { buffer.cell 0 with
        inUse := (atomicTestAndSet build (buffer.cell 0).inUse).2 } }, underrun) := by
  have notBusy : (atomicTestAndSet build (buffer.cell 0).inUse).1 = false := by
    simpa [isFree] using free
  simp [takeContainer, Block.read_inside room, notBusy]

/-- One `tpprintf` on a ready facility: the text as far as the buffer holds it is recorded,
and only the first container has changed. -/
theorem tpprintf_ready (ready : Ready facility pool copy exponent)
    (inside : facility.nextTp.toNat % 2 ^ exponent < pool.capacity)
    (buffered : Buffered build facility buffer) (text : List UInt8) :
    ∃ msg container, msg.bytes = untilNul (text.take (rtMsgMax - 1)) ∧
      container.inUse =
        atomicClear build (atomicTestAndSet build (buffer.cell 0).inUse).2 ∧
      tpprintf build answers later now line src (some text) facility =
        .ok (BitVec.ofNat 32 text.length, { facility with
          tpPool := some (recorded pool (facility.nextTp.toNat % 2 ^ exponent) now line src (some msg))
          nextTp := facility.nextTp + 1
          vsprintBuffer := some { buffer with cell := Function.update buffer.cell 0 container } }) := by
  have present : facility.tpPool.isNone = false := by simp [ready.poolIs]
  let taken : VspbContainer :=
    { buffer.cell 0 with inUse := (atomicTestAndSet build (buffer.cell 0).inUse).2 }
  refine ⟨CString.ofMemory (taken.print text).bytes,
    { taken.print text with inUse := atomicClear build taken.inUse }, ofMemory_print taken text,
    rfl, ?_⟩
  simp [tpprintf, repaired, taken, VspbContainer.print, buffered.held, takeContainer_first buffered.room buffered.free,
    makeTracept_ready ready inside, present, bind, Except.bind, pure, Except.pure]

theorem both_ways_return (text : CString) (ready : Ready facility pool copy exponent)
    (covered : poolCovered facility.tpPoolSize) (buffered : Buffered build facility buffer) :
    ∃ plain result printed,
      makeTracept build answers now line src (some text) facility = .ok plain ∧
      tpprintf build answers later now line src (some text.bytes) facility =
        .ok (result, printed) := by
  have inside : facility.nextTp.toNat % 2 ^ exponent < pool.capacity :=
    Nat.lt_of_lt_of_le (Nat.mod_lt _ (Nat.two_pow_pos exponent)) (ready.covered covered).1
  obtain ⟨_, _, _, _, printed⟩ := tpprintf_ready ready inside buffered text.bytes
  exact ⟨_, _, _, makeTracept_ready ready inside, printed⟩

/-- Both ways store one message exactly if it leaves room for its terminator; whatever the
slot and the print buffer held before. On a facility that is set up both return. -/
theorem same_message_iff (build : Build) (answers later : Answers) (now : Timeval) (line : CInt)
    (src : Option CString) (text : CString) (facility : Facility) :
    (∀ pool copy exponent buffer, Ready facility pool copy exponent →
      poolCovered facility.tpPoolSize → Buffered build facility buffer →
      ∃ plain result printed,
        makeTracept build answers now line src (some text) facility = .ok plain ∧
        tpprintf build answers later now line src (some text.bytes) facility =
          .ok (result, printed)) ∧
    ∀ plain result printed,
      makeTracept build answers now line src (some text) facility = .ok plain →
      tpprintf build answers later now line src (some text.bytes) facility =
        .ok (result, printed) →
      ∃ record other, plain.lastRecord = some record ∧ printed.lastRecord = some other ∧
        (SameMessage record other ↔ text.bytes.length < rtMsgMax) := by
  constructor
  · intro pool copy exponent buffer ready covered buffered
    exact both_ways_return text ready covered buffered
  · intro plain result printed made formatted
    obtain ⟨old, stored⟩ := makeTracept_lastRecord made
    obtain ⟨before, msg, cut, copied⟩ := tpprintf_lastRecord formatted
    have ends := storeMsg_terminated_iff old.msg text
    refine ⟨_, _, stored, copied, ?_⟩
    constructor
    · intro same
      exact ends.mp same.plainEnds
    · intro short
      have given : msg = text := by
        ext1
        rw [cut, List.take_of_length_le (Nat.le_sub_one_of_lt short), untilNul_clean text.noNul]
      subst given
      exact ⟨ends.mpr short, (storeMsg_terminated_iff before.msg msg).mpr short, rfl⟩

theorem granted_ready :
    Ready (.granted .cxx11 1 4) ⟨recordsIn (poolMemSize 4), fun _ => Tracept.zero⟩
      ⟨recordsIn (poolMemSize 4), fun _ => Tracept.zero⟩ 2 :=
  ⟨by decide, by decide, by decide, by decide, rfl, rfl, rfl, rfl, rfl, rfl⟩

theorem granted_buffered :
    ∃ buffer, Buffered .cxx11 (.granted .cxx11 1 4) buffer :=
  ⟨_, rfl, by decide, by decide⟩

/-- A text of `count` letters. -/
def letters (count : Nat) : CString where
  bytes := List.replicate count 97
  noNul := by simp [List.mem_replicate]

theorem letters_length (count : Nat) : (letters count).bytes.length = count :=
  List.length_replicate

theorem letters_take (fewer : Nat) (inside : fewer ≤ count) :
    (letters count).bytes.take fewer = (letters fewer).bytes := by
  rw [letters, List.take_replicate, Nat.min_eq_left inside]
  rfl

/-- Two letters are stored alike. -/
theorem same_message_two :
    ∃ plain result printed record other,
      makeTracept .cxx11 (.granting 4) ⟨1, 0⟩ 3 none (some (letters 2)) (.granted .cxx11 1 4) =
        .ok plain ∧
      tpprintf .cxx11 (.granting 4) (.granting 4) ⟨1, 0⟩ 3 none (some (letters 2).bytes)
        (.granted .cxx11 1 4) = .ok (result, printed) ∧
      plain.lastRecord = some record ∧ printed.lastRecord = some other ∧
      SameMessage record other := by
  obtain ⟨buffer, buffered⟩ := granted_buffered
  obtain ⟨returns, alike⟩ := same_message_iff .cxx11 (.granting 4) (.granting 4) ⟨1, 0⟩ 3 none
    (letters 2) (.granted .cxx11 1 4)
  obtain ⟨plain, result, printed, made, formatted⟩ :=
    returns _ _ _ buffer granted_ready (by decide) buffered
  obtain ⟨record, other, stored, copied, same⟩ := alike _ _ _ made formatted
  exact ⟨plain, result, printed, record, other, made, formatted, stored, copied,
    same.mpr (by decide)⟩

/-- A text of 200 letters, as long as the comment of `make_tracept` allows, is stored without
a terminator by the plain way and cut to 199 letters by the other. -/
theorem message_unterminated :
    ∃ plain result printed record other,
      makeTracept .cxx11 (.granting 4) ⟨1, 0⟩ 3 none (some (letters 200)) (.granted .cxx11 1 4) =
        .ok plain ∧
      tpprintf .cxx11 (.granting 4) (.granting 4) ⟨1, 0⟩ 3 none (some (letters 200).bytes)
        (.granted .cxx11 1 4) = .ok (result, printed) ∧
      plain.lastRecord = some record ∧ printed.lastRecord = some other ∧
      0 ∉ record.msg.bytes ∧ (untilNul other.msg.bytes).length = 199 ∧
      ¬ SameMessage record other := by
  obtain ⟨buffer, buffered⟩ := granted_buffered
  obtain ⟨plain, result, printed, made, formatted⟩ :=
    both_ways_return (letters 200) granted_ready (by decide) buffered
  obtain ⟨old, stored⟩ := makeTracept_lastRecord made
  obtain ⟨before, msg, cut, copied⟩ := tpprintf_lastRecord formatted
  have unended : 0 ∉ (storeMsg old.msg (some (letters 200))).bytes := by
    rw [storeMsg_terminated_iff, letters_length]
    decide
  refine ⟨plain, result, printed, _, _, made, formatted, stored, copied, unended, ?_, ?_⟩
  · have first : (letters 200).bytes.take (rtMsgMax - 1) = (letters 199).bytes :=
      letters_take 199 (by omega)
    have short : msg.bytes.length = 199 := by
      rw [cut, first, untilNul_clean (letters 199).noNul, letters_length]
    have whole : untilNul (strncpy rtMsgMax msg.bytes) = msg.bytes :=
      untilNul_strncpy msg.noNul (by rw [short]; decide)
    rw [← short, ← whole]
    rfl
  · intro same
    exact unended same.plainEnds

end TrippingRobot.Runtrace
