import TrippingRobot.Runtrace.Facility
import Mathlib.Tactic.Ring
import Mathlib.Data.Nat.Basic

/-! What a successful setup leaves behind, and what recording a tracepoint does
to a facility that has been set up. -/

namespace TrippingRobot.Runtrace

open TrippingRobot.Data

/-- A facility ready for use: a power of two of slots, masked to match, two
equally large blocks, the lock free. -/
structure Ready (facility : Facility) (pool copy : Block Tracept) (exponent : Nat) : Prop where
  low : 2 ≤ exponent
  high : exponent < 31
  poolSize : facility.tpPoolSize.toNat = 2 ^ exponent
  mask : facility.tpCntMask = facility.tpPoolSize - 1
  memSize : facility.tpPoolMemSize = poolMemSize facility.tpPoolSize
  poolIs : facility.tpPool = some pool
  copyIs : facility.tpPoolCopy = some copy
  poolRecords : pool.capacity = recordsIn facility.tpPoolMemSize
  copyRecords : copy.capacity = recordsIn facility.tpPoolMemSize
  unlocked : facility.wrLocked = false

/-- A turn of the ring divides a turn of the counter. -/
theorem Ready.fits (ready : Ready facility pool copy exponent) : exponent ≤ 32 :=
  ready.high.le.trans (by decide)

theorem power_of_accepted {size : CInt} (large : size.slt 4 = false)
    (power : size &&& (size - 1) = 0) :
    ∃ exponent, 2 ≤ exponent ∧ exponent < 31 ∧ size.toNat = 2 ^ exponent := by
  have bounds : 4 ≤ size.toNat ∧ size.toNat < 2 ^ 31 := by
    simp [BitVec.slt, BitVec.toInt_eq_toNat_cond] at large
    split at large <;> omega
  have nat : size.toNat &&& (size.toNat - 1) = 0 := by
    have same := congrArg BitVec.toNat power
    have less : (size - 1).toNat = size.toNat - 1 := by
      rw [BitVec.toNat_sub]
      simp
      omega
    rwa [BitVec.toNat_and, less] at same
  obtain ⟨exponent, same⟩ :=
    (Nat.and_sub_one_eq_zero_iff_isPowerOfTwo (by omega)).mp nat
  refine ⟨exponent, ?_, ?_, same⟩
  · by_contra small
    have : exponent = 0 ∨ exponent = 1 := by omega
    rcases this with rfl | rfl <;> omega
  · exact (Nat.pow_lt_pow_iff_right (by omega : 1 < 2)).mp (by omega)

private theorem disablingErr_not_ok {facility other : Facility} :
    disablingErr build ((-1 : CInt), facility) ≠ .ok (0, other) := by
  unfold disablingErr
  split <;> simp

theorem runtraceReconfigure_ok
    (returned : runtraceReconfigure build answers threads size facility = .ok (0, configured)) :
    size.slt 4 = false ∧ size &&& (size - 1) = 0 ∧
      ∃ count : CInt, (threads.slt 1 = false → count = threads) ∧
        configured = (facility.resized count size).allocated build answers := by
  simp only [runtraceReconfigure] at returned
  split at returned
  · cases returned
  · split at returned
    · exact absurd returned disablingErr_not_ok
    · rename_i large
      split at returned
      · exact absurd returned disablingErr_not_ok
      · rename_i power
        split at returned
        · cases returned
        · split at returned
          · cases returned
            exact ⟨by simpa using large, by simpa using power, _, by simp +contextual, rfl⟩
          · exact absurd returned disablingErr_not_ok

/-- A successful reconfiguration leaves a ready facility whose pool is blank. -/
theorem Ready.of_reconfigure
    (returned : runtraceReconfigure build answers threads size facility = .ok (0, configured))
    (unlocked : facility.wrLocked = false) :
    configured.tpPoolSize = size ∧ configured.nextTp = facility.nextTp ∧ ∃ exponent,
      Ready configured ⟨recordsIn (poolMemSize size), fun _ => Tracept.zero⟩
        ⟨recordsIn (poolMemSize size), answers.copyGarbage⟩ exponent := by
  obtain ⟨large, power, count, _, rfl⟩ := runtraceReconfigure_ok returned
  obtain ⟨exponent, low, high, same⟩ := power_of_accepted large power
  refine ⟨rfl, rfl, exponent, low, high, same, rfl, rfl, rfl, rfl, rfl, rfl, ?_⟩
  simp [Facility.allocated, Facility.resized, unlocked]

private theorem runtraceReconfigure_code
    (returned : runtraceReconfigure build answers threads size facility = .ok (code, configured)) :
    code = 0 ∨ code = -1 := by
  simp only [runtraceReconfigure, disablingErr] at returned
  split_ifs at returned <;> cases returned <;> simp

theorem runtraceInit_ok
    (returned : runtraceInit build answers threads facility = .ok (0, ready)) :
    ∃ configured, runtraceReconfigure build answers threads
        (environmentCheck build answers rtPoolSizeDflt)
        { facility with nextTp := 0, nrCpus := answers.cpus } = .ok (0, configured) ∧
      ready = { configured with
        lockInitialised := true
        wrLocked := if build = .kernel then configured.wrLocked else false } := by
  simp only [runtraceInit, bind, Except.bind, pure, Except.pure] at returned
  split at returned
  · cases returned
  · rename_i result done
    obtain ⟨code, configured⟩ := result
    rcases runtraceReconfigure_code done with rfl | rfl
    · refine ⟨configured, done, ?_⟩
      simp at returned
      split_ifs at returned <;> simp_all
    · simp [BitVec.slt] at returned

theorem Ready.of_init
    (returned : runtraceInit build answers threads facility = .ok (0, ready))
    (unlocked : facility.wrLocked = false) :
    ready.nextTp = 0 ∧ ∃ exponent,
      Ready ready ⟨recordsIn (poolMemSize ready.tpPoolSize), fun _ => Tracept.zero⟩
        ⟨recordsIn (poolMemSize ready.tpPoolSize), answers.copyGarbage⟩ exponent := by
  obtain ⟨configured, done, rfl⟩ := runtraceInit_ok returned
  obtain ⟨size, next, exponent, valid⟩ := Ready.of_reconfigure done unlocked
  refine ⟨next, exponent, valid.low, valid.high, valid.poolSize, valid.mask, valid.memSize,
    ?_, ?_, ?_, ?_, ?_⟩
  · simpa [size] using valid.poolIs
  · simpa [size] using valid.copyIs
  · simpa [size] using valid.poolRecords
  · simpa [size] using valid.copyRecords
  · simp [valid.unlocked]

/-- An outside that grants every request and asks for a pool of `poolSize`. -/
def Answers.granting (poolSize : CInt) : Answers where
  poolSizeEnv := some poolSize
  cpus := 1
  poolMalloc := true
  copyMalloc := true
  bufferMalloc := true
  copyGarbage := fun _ => Tracept.zero
  bufferGarbage := fun _ => ⟨0, 0, fun _ => 0⟩
  chrdevRegion := true
  cdevAdd := true

/-- What `runtrace_init` makes of a fresh user-space facility when all is granted. -/
def Facility.granted (build : Build) (threads poolSize : CInt) : Facility :=
  { ({ Facility.start with nrCpus := 1 }.resized threads poolSize).allocated build
      (.granting poolSize) with lockInitialised := true, wrLocked := false }

theorem runtraceReconfigure_granted (positive : threads.slt 1 = false)
    (large : size.slt 4 = false) (power : size &&& (size - 1) = 0)
    (unlocked : facility.wrLocked = false)
    (blocks : answers.poolMalloc ∧ answers.copyMalloc ∧ answers.bufferMalloc) :
    runtraceReconfigure build answers threads size facility =
      .ok (0, (facility.resized threads size).allocated build answers) := by
  unfold runtraceReconfigure
  rw [if_neg (by simp only [positive, Bool.false_eq_true, false_and, not_false_eq_true]),
    if_neg (by simp only [large, Bool.false_eq_true, not_false_eq_true]), if_neg (not_not.mpr power),
    if_neg (by simp [unlocked])]
  simp only [positive, Bool.false_eq_true, ↓reduceIte, blocks, and_self]

theorem runtraceInit_granted (user : build ≠ .kernel) (positive : threads.slt 1 = false)
    (large : size.slt 4 = false) (power : size &&& (size - 1) = 0) :
    runtraceInit build (.granting size) threads Facility.start =
      .ok (0, Facility.granted build threads size) := by
  have asked : (0 : CInt).slt size = true := by
    have four : (4 : CInt).toInt = 4 := rfl
    have zero : (0 : CInt).toInt = 0 := rfl
    rw [BitVec.slt_iff_toInt_lt, zero]
    rw [Bool.eq_false_iff, ne_eq, BitVec.slt_iff_toInt_lt, four] at large
    omega
  have pool : environmentCheck build (.granting size) rtPoolSizeDflt = size := by
    cases build with
    | kernel => exact absurd rfl user
    | cxx11 | cxx98 => exact if_pos asked
  have configured : runtraceReconfigure build (.granting size) threads size
      { Facility.start with nextTp := 0, nrCpus := 1 } = _ :=
    runtraceReconfigure_granted positive large power rfl ⟨rfl, rfl, rfl⟩
  have cpus : (Answers.granting size).cpus = 1 := rfl
  simp only [runtraceInit, pool, cpus, configured, bind, Except.bind, pure, Except.pure]
  have zero : (0 : CInt).slt 0 = false := rfl
  simp only [zero, Bool.false_eq_true, ↓reduceIte, user, ne_eq, not_false_eq_true]
  rfl

theorem Ready.mask_toNat (ready : Ready facility pool copy exponent) :
    facility.tpCntMask.toNat + 1 = 2 ^ exponent := by
  have positive : 1 ≤ 2 ^ exponent := Nat.one_le_two_pow
  have bound := facility.tpPoolSize.isLt
  have size := ready.poolSize
  rw [ready.mask, BitVec.toNat_sub]
  simp
  omega

theorem slotOf_masked {mask : CInt} (masked : mask.toNat + 1 = 2 ^ exponent) (number : CInt) :
    slotOf mask number = number.toNat % 2 ^ exponent := by
  have ones : mask.toNat = 2 ^ exponent - 1 := by omega
  rw [slotOf, BitVec.toNat_and, ones, Nat.and_comm, Nat.and_two_pow_sub_one_eq_mod]

theorem Ready.slotOf_eq (ready : Ready facility pool copy exponent) (number : CInt) :
    slotOf facility.tpCntMask number = number.toNat % 2 ^ exponent :=
  slotOf_masked ready.mask_toNat number

theorem Ready.covered (ready : Ready facility pool copy exponent)
    (covered : poolCovered facility.tpPoolSize) :
    2 ^ exponent ≤ pool.capacity ∧ 2 ^ exponent ≤ copy.capacity := by
  unfold poolCovered at covered
  rw [ready.poolRecords, ready.copyRecords, ready.memSize, ← ready.poolSize]
  exact ⟨covered, covered⟩

/-- The pool after one more tracepoint. -/
def recorded (pool : Block Tracept) (slot : Nat) (now : Timeval) (line : CInt)
    (src msg : Option CString) : Block Tracept :=
  { pool with cell :=
      Function.update pool.cell slot (storeTracept (pool.cell slot) now line src msg) }

theorem makeTracept_ready (ready : Ready facility pool copy exponent)
    (inside : facility.nextTp.toNat % 2 ^ exponent < pool.capacity) :
    makeTracept build answers now line src msg facility =
      .ok { facility with
        tpPool := some (recorded pool (facility.nextTp.toNat % 2 ^ exponent) now line src msg)
        nextTp := facility.nextTp + 1 } := by
  simp [makeTracept, ready.poolIs, ready.unlocked, ready.slotOf_eq, inside, recorded, bind,
    Except.bind, pure, Except.pure]

theorem Ready.recorded (ready : Ready facility pool copy exponent) (slot : Nat) :
    Ready { facility with
        tpPool := some (recorded pool slot now line src msg)
        nextTp := next }
      (recorded pool slot now line src msg) copy exponent :=
  { ready with poolIs := rfl }

/-- Past the end of the block the write is undefined. -/
theorem makeTracept_outside (ready : Ready facility pool copy exponent)
    (outside : pool.capacity ≤ facility.nextTp.toNat % 2 ^ exponent) :
    makeTracept build answers now line src msg facility = .error .outOfBounds := by
  simp [makeTracept, ready.poolIs, ready.unlocked, ready.slotOf_eq, Block.write_outside outside,
    bind, Except.bind, pure, Except.pure, throw, throwThe, MonadExceptOf.throw]

end TrippingRobot.Runtrace
