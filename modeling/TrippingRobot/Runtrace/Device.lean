import TrippingRobot.Runtrace.Pieces

/-! The device file of the kernel build: `cdev_open`, `cdev_read`, and a reader that opens
it and reads until there is nothing left to get. -/

namespace TrippingRobot.Runtrace

open TrippingRobot.Data

structure Device where
  facility : Facility
  /-- The references `try_module_get` has taken. -/
  moduleRefs : Nat
  cdevReaders : CInt
  cdevBlockingRead : CInt

/-- `struct file`: the offset, and whether `O_NONBLOCK` is among the flags. -/
structure File where
  fPos : BitVec 64
  nonblock : Bool

def eacces : CInt := 13
def ebusy : CInt := 16
def eagain : CInt := 11

/-- `RT_PRINT_DEFAULT`. -/
def rtPrintDefault : CInt := rtPrintTime ||| rtPrintLine ||| rtPrintSrc ||| rtPrintTimeMs

/-- `cdev_open`, built as a module or into the kernel; `moduleGet` is what `try_module_get`
answers. `nonseekable_open` returns 0. -/
def cdevOpen (asModule moduleGet : Bool) (device : Device) (file : File) : CInt × Device × File :=
  if asModule ∧ ¬ moduleGet then (-eacces, device, file)
  else
    let referenced :=
      if asModule then { device with moduleRefs := device.moduleRefs + 1 } else device
    if (1 : CInt).slt device.cdevReaders then (-ebusy, referenced, file)
    else
      (0, { referenced with cdevReaders := device.cdevReaders + 1 },
        { file with fPos :=
            (device.facility.nextTp - device.facility.tpPoolSize - 1).setWidth 64 })

/-- `*(unsigned int *) offp`, the low half of the offset. -/
def File.cursor (file : File) : CInt := file.fPos.setWidth 32

def File.setCursor (file : File) (cursor : CInt) : File :=
  { file with fPos := file.fPos &&& ~~~0xffffffff ||| cursor.setWidth 64 }

/-- How a read ends: with what `print_trace_stack` returned, or at the counter. -/
inductive ReadEnd where
  | printed (returned : CInt)
  | again
  | nothing
  | waiting
deriving DecidableEq

/-- The `ssize_t` a read returns; none while it waits in `read_queue`. -/
def ReadEnd.returned : ReadEnd → Option (BitVec 64)
  | .printed returned => some (returned.signExtend 64)
  | .again => some (-eagain.signExtend 64)
  | .nothing => some 0
  | .waiting => none

/-- A read that found the cursor at the counter. -/
def ReadEnd.drained : ReadEnd → Bool
  | .printed _ => false
  | _ => true

structure ReadResult where
  ended : ReadEnd
  facility : Facility
  file : File
  text : List UInt8

/-- `while (*(unsigned int *) offp == ATOMIC_READ(next_tp))`: what the reader gets there. -/
def readAtCounter (blockingRead : CInt) (file : File) : ReadEnd :=
  if file.nonblock then .again
  else if blockingRead = 0 then .nothing
  else .waiting

/-- The loop of `cdev_read` around `print_trace_stack`, which takes `count` as an `int`. -/
def cdevReadLoop (past : Nat → List UInt8) (blockingRead : CInt) (count : BitVec 64) :
    Nat → Facility → File → Except Fault ReadResult
  | 0, _, _ => .error .diverged
  | fuel + 1, facility, file =>
    if file.cursor = facility.nextTp then
      .ok ⟨readAtCounter blockingRead file, facility, file, []⟩
    else do
      let (printout, after) ←
        printInto .kernel rtPrintDefault (count.setWidth 32) file.cursor past facility
      let moved := file.setCursor (printout.priv.getD file.cursor)
      if printout.returned = 0 then cdevReadLoop past blockingRead count fuel after moved
      else return ⟨.printed printout.returned, after, moved, linesText printout.out⟩

/-- A print that adds nothing has arrived at the counter, so the loop never goes on after
its second round. -/
def readFuel : Nat := 2

/-- `cdev_read`. -/
def cdevRead (past : Nat → List UInt8) (count : BitVec 64) (device : Device) (file : File) :
    Except Fault ReadResult :=
  cdevReadLoop past device.cdevBlockingRead count readFuel device.facility file

structure Process where
  device : Device
  file : File
  text : List UInt8
  drained : Bool

def Process.read (past : Nat → List UInt8) (count : BitVec 64) (process : Process) :
    Except Fault Process := do
  let result ← cdevRead past count process.device process.file
  return ⟨{ process.device with facility := result.facility }, result.file,
    process.text ++ result.text, result.ended.drained⟩

/-- The first reads of a sequence, up to one that found nothing more. -/
def readAll (past : Nat → List UInt8) (counts : Nat → BitVec 64) (start : Process) :
    Nat → Except Fault Process
  | 0 => .ok start
  | reads + 1 => do
    let process ← readAll past counts start reads
    if process.drained then return process else process.read past (counts reads)

@[simp] theorem File.cursor_setCursor (file : File) (cursor : CInt) :
    (file.setCursor cursor).cursor = cursor := by
  ext place inside
  simp [File.cursor, File.setCursor]

/-- A freshly opened file stands one place before the oldest of the ring. -/
theorem cdevOpen_cursor {device opened : Device} {file openedFile : File}
    (success : cdevOpen asModule moduleGet device file = (0, opened, openedFile)) :
    opened.facility = device.facility ∧
      openedFile.cursor = device.facility.nextTp - device.facility.tpPoolSize - 1 := by
  simp only [cdevOpen] at success
  split at success
  · cases success
  · split at success
    · cases success
    · cases success
      refine ⟨by split <;> rfl, ?_⟩
      simp [File.cursor]

/-! ## A read is a call with the file's cursor -/

/-- The caller of `print_trace_stack` in a read. -/
def Process.reader (process : Process) : Reader :=
  ⟨process.device.facility, process.file.cursor, process.text, false⟩

/-- A process after a call: the cursor and the text are the caller's. -/
def Process.after (process : Process) (reader : Reader) : Process :=
  ⟨{ process.device with facility := reader.facility }, process.file.setCursor reader.priv,
    if reader.finished then process.text else reader.text, reader.finished⟩

theorem readAtCounter_drained (blockingRead : CInt) (file : File) :
    (readAtCounter blockingRead file).drained = true := by
  simp only [readAtCounter]
  split_ifs
  · rfl
  · rfl
  · rfl

theorem Process.read_arrived (past : Nat → List UInt8) (count : BitVec 64) {process : Process}
    (arrived : process.file.cursor = process.device.facility.nextTp) :
    process.read past count = .ok { process with drained := true } := by
  simp [Process.read, cdevRead, readFuel, cdevReadLoop, arrived, readAtCounter_drained, bind,
    Except.bind, pure, Except.pure]

theorem Process.call_of_read {process after : Process}
    (behind : process.file.cursor ≠ process.device.facility.nextTp)
    (read : process.read past count = .ok after) :
    ∃ reader, process.reader.call .kernel rtPrintDefault past (count.setWidth 32) = .ok reader := by
  simp only [Process.read, cdevRead, readFuel, cdevReadLoop, behind, ↓reduceIte, bind,
    Except.bind] at read
  simp only [Process.reader, Reader.call, bind, Except.bind]
  split at read
  · cases read
  · rename_i result ended
    split at ended
    · cases ended
    · rename_i printed into
      exact ⟨_, rfl⟩

/-- A call that prints nothing ends the read only at the counter. -/
theorem Process.read_of_call {process : Process} {reader : Reader}
    (behind : process.file.cursor ≠ process.device.facility.nextTp)
    (called : process.reader.call .kernel rtPrintDefault past (count.setWidth 32) = .ok reader)
    (ends : reader.finished = true → reader.priv = reader.facility.nextTp) :
    process.read past count = .ok (process.after reader) := by
  simp only [Process.reader, Reader.call, bind, Except.bind] at called
  simp only [Process.read, cdevRead, readFuel, cdevReadLoop, behind, ↓reduceIte, bind, Except.bind]
  split at called
  · cases called
  · rename_i result into
    cases called
    by_cases nothing : result.1.returned = 0
    · have arrived : result.1.priv.getD process.file.cursor = result.2.nextTp :=
        ends (by simpa using nothing)
      simp [nothing, arrived, Process.after, readAtCounter_drained, pure, Except.pure]
    · have some : ¬ result.1.returned = 0#32 := nothing
      simp [some, Process.after, ReadEnd.drained, pure, Except.pure]

/-- A count that is too small as an `int` gets -1, and the reader nothing. -/
theorem Reader.call_refused (reader : Reader) (flags : CInt) (past : Nat → List UInt8)
    (ready : Ready reader.facility pool copy exponent)
    (narrow : size.slt neededBufsize = true) :
    ∃ after, reader.call .kernel flags past size = .ok after ∧
      Kept reader.facility after.facility pool exponent ∧ after.priv = reader.priv ∧
      after.text = reader.text ∧ after.finished = false := by
  obtain ⟨copied, locked, readyAfter, _⟩ := lockedCopy_ready ready
  refine ⟨⟨{ reader.facility with tpPoolCopy := some copied }, reader.priv, reader.text, false⟩, ?_,
    ⟨⟨copied, readyAfter⟩, rfl, rfl, rfl, rfl⟩, rfl, rfl, rfl⟩
  simp [Reader.call, printInto, printTraceStack, WritesWithin, traceStackWrites, copyWrites, locked, printCopy, narrow,
    disablingErr, linesText, bind, Except.bind, pure, Except.pure]

theorem Process.after_refused {process : Process} {reader : Reader}
    (ready : Ready process.device.facility pool copy exponent)
    (narrow : size.slt neededBufsize = true)
    (called : process.reader.call .kernel rtPrintDefault past size = .ok reader) :
    Kept process.device.facility reader.facility pool exponent ∧
      (process.after reader).file.cursor = process.file.cursor ∧
      (process.after reader).text = process.text ∧ reader.finished = false := by
  obtain ⟨_, refused, kept, priv, text, unfinished⟩ :=
    process.reader.call_refused rtPrintDefault past ready narrow
  rw [called] at refused
  cases refused
  refine ⟨kept, ?_, ?_, unfinished⟩
  · rw [Process.after, File.cursor_setCursor, priv]
    rfl
  · simp only [Process.after, unfinished, Bool.false_eq_true, ↓reduceIte, text]
    rfl

end TrippingRobot.Runtrace
