import TrippingRobot.Data.Block
import TrippingRobot.Runtrace.Format
import Mathlib.Logic.Function.Basic

/-! The globals of the trace facility and the functions that set them up and
record tracepoints. What the code reads from outside (the clock, the
environment, the allocator) is passed in; a run of the real program that ends
in `abort()`, in undefined behaviour or blocked for ever ends in a `Fault`. One
write is set aside: with fewer than three containers `runtrace_reconfigure`
writes four bytes behind their block, which changes nothing here. -/

namespace TrippingRobot.Runtrace

open TrippingRobot.Data

/-- The three ways to compile the file: in the kernel, in user space with C++11
atomics, and in user space with the `__sync` builtins. -/
inductive Build where
  | kernel
  | cxx11
  | cxx98
deriving DecidableEq

inductive Fault where
  | aborted
  | outOfBounds
  | nullPointer
  | deadlock
  | diverged
deriving DecidableEq

/-- `sizeof(struct tracept)`: two longs, an int with its padding, a pointer, `msg`. -/
def sizeofTracept : BitVec 64 := 232

/-- `struct vspb_container`. `inUse` is its first eight bytes, of which C++11
uses the first as `std::atomic_flag`; `next` is an index into `vsprint_buffer`. -/
structure VspbContainer where
  inUse : BitVec 64
  next : Nat
  buf : Nat → UInt8

/-- `ATOMIC_TEST_AND_SET`: the truth value of the old content, and the new one. -/
def atomicTestAndSet : Build → BitVec 64 → Bool × BitVec 64
  | .kernel, word => (word.getLsbD 0, word ||| 1)
  | .cxx11, word => (word &&& 0xff != 0, word &&& ~~~0xff ||| 1)
  | .cxx98, word => (word != 0, word ||| 1)

/-- `ATOMIC_CLEAR`. -/
def atomicClear : Build → BitVec 64 → BitVec 64
  | .kernel, word => word &&& ~~~1
  | .cxx11, word => word &&& ~~~0xff
  | .cxx98, word => word &&& ~~~1

structure Facility where
  lockInitialised : Bool
  /-- `print_rwlock` is held for writing. -/
  wrLocked : Bool
  tpPool : Option (Block Tracept)
  tpPoolCopy : Option (Block Tracept)
  nextTp : CInt
  vsprintBuffer : Option (Block VspbContainer)
  nrCpus : CInt
  maxThreads : CInt
  tpPoolSize : CInt
  tpCntMask : CInt
  tpPoolMemSize : CInt
  vspbUnderrunNotice : Bool

/-- The zeroed globals before any call. -/
def Facility.start : Facility where
  lockInitialised := false
  wrLocked := false
  tpPool := none
  tpPoolCopy := none
  nextTp := 0
  vsprintBuffer := none
  nrCpus := 0
  maxThreads := 0
  tpPoolSize := 0
  tpCntMask := 0
  tpPoolMemSize := 0
  vspbUnderrunNotice := false

/-- What the outside answers: `getenv` and `atoi`, the CPU count, the three
allocations with the bytes they come with, the device registration. -/
structure Answers where
  poolSizeEnv : Option CInt
  cpus : CInt
  poolMalloc : Bool
  copyMalloc : Bool
  bufferMalloc : Bool
  copyGarbage : Nat → Tracept
  bufferGarbage : Nat → VspbContainer
  chrdevRegion : Bool
  cdevAdd : Bool

/-- `RT_DISABLING_ERR` followed by a return: in user space it aborts. -/
def disablingErr {α : Type} (build : Build) (returned : α) : Except Fault α :=
  if build = .kernel then .ok returned else .error .aborted

/-- `tp_pool_size * sizeof(struct tracept)` in `size_t`, stored in an `int`. -/
def poolMemSize (poolSize : CInt) : CInt := (poolSize.signExtend 64 * sizeofTracept).setWidth 32

/-- Whole records in a block of `memSize` bytes, once converted to `size_t`. A slot that the end
of the block cuts, as in a pool of 2^27, is behind them, and a write to it a fault even where
the fields it stores still fit, as without a message. -/
def recordsIn (memSize : CInt) : Nat := (memSize.signExtend 64).toNat / sizeofTracept.toNat

/-- The stray `memset(&vsprint_buffer[2], 0xed, 4)` on the container it hits:
the first four bytes, low bytes of `in_use` on a little-endian machine. -/
def strayMemset (word : BitVec 64) : BitVec 64 := word &&& ~~~0xffffffff ||| 0xedededed

/-- One container after the initialising loop and the stray write. With fewer
than three containers that write lands outside the block: this is set aside, no `Fault`. -/
def initContainer (build : Build) (count : Nat) (garbage : Nat → VspbContainer) (index : Nat) :
    VspbContainer :=
  let cleared := atomicClear build (garbage index).inUse
  { inUse := if index = 2 then strayMemset cleared else cleared
    next := if index + 1 = count then 0 else index + 1
    buf := (garbage index).buf }

/-- The sizes `runtrace_reconfigure` stores before it allocates, the lock taken
when there is one. -/
def Facility.resized (facility : Facility) (threads poolSize : CInt) : Facility :=
  { facility with
    wrLocked := facility.lockInitialised || facility.wrLocked
    maxThreads := threads
    tpPoolSize := poolSize
    tpCntMask := poolSize - 1
    tpPoolMemSize := poolMemSize poolSize }

/-- The pool cleared, the containers linked in a ring, the lock released if
there is one. -/
def Facility.allocated (build : Build) (answers : Answers) (facility : Facility) : Facility :=
  { facility with
    wrLocked := facility.wrLocked && !facility.lockInitialised
    tpPool := some ⟨recordsIn facility.tpPoolMemSize, fun _ => Tracept.zero⟩
    tpPoolCopy := some ⟨recordsIn facility.tpPoolMemSize, answers.copyGarbage⟩
    vsprintBuffer := some ⟨facility.maxThreads.toNat,
      initContainer build facility.maxThreads.toNat answers.bufferGarbage⟩ }

/-- All three blocks gone. The lock taken by `resized` is not released here. -/
def Facility.withoutBlocks (facility : Facility) : Facility :=
  { facility with
    tpPool := none
    tpPoolCopy := none
    vsprintBuffer := none }

/-- `runtrace_reconfigure`, with its return value. -/
def runtraceReconfigure (build : Build) (answers : Answers) (nrOfThreads poolSize : CInt)
    (facility : Facility) : Except Fault (CInt × Facility) :=
  if nrOfThreads.slt 1 ∧ build ≠ .kernel then .error .aborted
  else if poolSize.slt 4 then disablingErr build (-1, facility)
  else if poolSize &&& (poolSize - 1) ≠ 0 then disablingErr build (-1, facility)
  else if facility.lockInitialised ∧ facility.wrLocked then .error .deadlock
  else
    let sized := facility.resized (if nrOfThreads.slt 1 then 1 else nrOfThreads) poolSize
    if answers.poolMalloc ∧ answers.copyMalloc ∧ answers.bufferMalloc then
      .ok (0, sized.allocated build answers)
    else disablingErr build (-1, sized.withoutBlocks)

/-- `RT_POOL_SIZE_DFLT`. -/
def rtPoolSizeDflt : CInt := 256

/-- `environment_check`: the pool size the environment asks for, if any. -/
def environmentCheck (build : Build) (answers : Answers) (poolSize : CInt) : CInt :=
  match build, answers.poolSizeEnv with
  | .kernel, _ => poolSize
  | _, none => poolSize
  | _, some asked => if (0 : CInt).slt asked then asked else poolSize

/-- `runtrace_init`, with its return value. -/
def runtraceInit (build : Build) (answers : Answers) (nrOfThreads : CInt) (facility : Facility) :
    Except Fault (CInt × Facility) := do
  let poolSize := environmentCheck build answers rtPoolSizeDflt
  let (returned, configured) ← runtraceReconfigure build answers nrOfThreads poolSize
    { facility with nextTp := 0, nrCpus := answers.cpus }
  if returned.slt 0 then return (-1, configured)
  let ready := { configured with
    lockInitialised := true
    wrLocked := if build = .kernel then configured.wrLocked else false }
  if build ≠ .kernel then return (0, ready)
  if answers.chrdevRegion = false then return (-1, ready)
  if answers.cdevAdd = false then return (-1, ready)
  return (0, ready)

/-- The slot of a record number: `tp_cnt_mask & number`. -/
def slotOf (mask number : CInt) : Nat := (mask &&& number).toNat

/-- The record `make_tracept` leaves in a slot that held `old`. -/
def storeTracept (old : Tracept) (now : Timeval) (line : CInt) (src : Option CString)
    (msg : Option CString) : Tracept :=
  { time := now, line := line, src := src, msg := storeMsg old.msg msg }

/-- `make_tracept`. Without a pool it first tries to initialise the facility,
which in user space the error report before it prevents. -/
def makeTracept (build : Build) (answers : Answers) (now : Timeval) (line : CInt)
    (src : Option CString) (msg : Option CString) (facility : Facility) :
    Except Fault Facility := do
  let ready ← if facility.tpPool.isNone then do
      let _ ← disablingErr build ()
      let (_, initialised) ← runtraceInit build answers 1 facility
      pure initialised
    else pure facility
  if ready.wrLocked then throw .deadlock
  let some pool := ready.tpPool | throw .nullPointer
  let slot := slotOf ready.tpCntMask ready.nextTp
  let some written := pool.write slot (storeTracept (pool.cell slot) now line src msg)
    | throw .outOfBounds
  return { ready with tpPool := some written, nextTp := ready.nextTp + 1 }

/-- The byte count of the pool survives its conversion to `int`: what is
allocated has room for every slot the mask can name. -/
def poolCovered (poolSize : CInt) : Prop := poolSize.toNat ≤ recordsIn (poolMemSize poolSize)

instance (poolSize : CInt) : Decidable (poolCovered poolSize) :=
  inferInstanceAs (Decidable (_ ≤ _))

end TrippingRobot.Runtrace
