import TrippingRobot.Runtrace.Overrun

/-! How much memory the accepted pool sizes get, once their byte count has gone through an
`int`, and whether every slot that is recorded or printed lies in it. -/

namespace TrippingRobot.Runtrace

open TrippingRobot.Data

/-- `tp` after some rounds of the loop of `print_trace_stack`. -/
def walkedSlot (mask tpNum : CInt) : Nat → Nat
  | 0 => slotOf mask tpNum
  | rounds + 1 => nextSlot mask (walkedSlot mask tpNum rounds)

/-- The same blocks at another time: other records in them, the counter anywhere. -/
def Facility.later (facility : Facility) (nextTp : CInt) (records copies : Nat → Tracept) :
    Facility :=
  { facility with
    nextTp := nextTp
    tpPool := facility.tpPool.map fun pool => { pool with cell := records }
    tpPoolCopy := facility.tpPoolCopy.map fun copy => { copy with cell := copies } }

/-- What a pool of `poolSize` slots is to be: a power of two from 4 on, in two blocks with
room for all of them, so that no slot lies outside and no call leaves its block. -/
structure LargeEnough (facility : Facility) (poolSize : CInt) : Prop where
  power : ∃ exponent, poolSize.toNat = 2 ^ exponent
  least : 4 ≤ poolSize.toNat
  recorded : ∃ pool, facility.tpPool = some pool ∧ poolSize.toNat ≤ pool.capacity ∧
    ∀ nextTp, slotOf facility.tpCntMask nextTp < pool.capacity
  visited : ∃ copy, facility.tpPoolCopy = some copy ∧ poolSize.toNat ≤ copy.capacity ∧
    ∀ tpNum rounds, walkedSlot facility.tpCntMask tpNum rounds < copy.capacity
  makes : ∀ build answers now line src msg nextTp records copies,
    makeTracept build answers now line src msg (facility.later nextTp records copies) ≠
      .error .outOfBounds
  prints : ∀ build flags dst size priv past nextTp records copies,
    printTraceStack build flags dst size priv past (facility.later nextTp records copies) ≠
      .error .outOfBounds

/-- A byte count of 32 bits or more is cut to a negative `int`, which asks for nearly the
whole address space, or to a nonnegative one, which is too small. -/
theorem poolCovered_iff {size : CInt} (low : 2 ≤ exponent) (high : exponent < 31)
    (power : size.toNat = 2 ^ exponent) :
    poolCovered size ↔ size ≠ 2 ^ 27 ∧ size ≠ 2 ^ 29 ∧ size ≠ 2 ^ 30 := by
  have each : ∀ exponent < 31, 2 ≤ exponent →
      (poolCovered (BitVec.ofNat 32 (2 ^ exponent)) ↔
        BitVec.ofNat 32 (2 ^ exponent) ≠ 2 ^ 27 ∧ BitVec.ofNat 32 (2 ^ exponent) ≠ 2 ^ 29 ∧
          BitVec.ofNat 32 (2 ^ exponent) ≠ 2 ^ 30) := by
    decide
  have same : size = BitVec.ofNat 32 (2 ^ exponent) := by
    rw [← power, BitVec.ofNat_toNat, BitVec.setWidth_eq]
  rw [same]
  exact each exponent high low

theorem walkedSlot_eq {mask : CInt} (masked : mask.toNat + 1 = 2 ^ exponent)
    (fits : exponent ≤ 32) (tpNum : CInt) (rounds : Nat) :
    walkedSlot mask tpNum rounds = (tpNum + BitVec.ofNat 32 rounds).toNat % 2 ^ exponent := by
  induction rounds with
  | zero =>
    rw [walkedSlot, slotOf_masked masked]
    simp
  | succ rounds ih =>
    have moved : tpNum + BitVec.ofNat 32 (rounds + 1) = tpNum + BitVec.ofNat 32 rounds + 1 := by
      rw [BitVec.ofNat_add, BitVec.add_assoc]
      rfl
    rw [walkedSlot, ih, nextSlot_eq _ masked fits, moved]

theorem Ready.later (ready : Ready facility pool copy exponent) (nextTp : CInt)
    (records copies : Nat → Tracept) :
    Ready (facility.later nextTp records copies) { pool with cell := records }
      { copy with cell := copies } exponent :=
  { ready with
    poolIs := by simp [Facility.later, ready.poolIs]
    copyIs := by simp [Facility.later, ready.copyIs] }

private theorem makeTracept_locked (locked : facility.wrLocked = true)
    (pool : facility.tpPool.isNone = false) :
    makeTracept build answers now line src msg facility = .error .deadlock := by
  simp [makeTracept, pool, locked, bind, Except.bind, pure, Except.pure, throw, throwThe,
    MonadExceptOf.throw]

private theorem printTraceStack_locked (locked : facility.wrLocked = true) :
    printTraceStack build flags dst size priv past facility = .error .deadlock := by
  simp [printTraceStack, lockedCopy, locked, bind, Except.bind]

theorem printTraceStack_narrow (ready : Ready facility pool copy exponent)
    (narrow : size.slt neededBufsize = true) :
    printTraceStack build flags dst size priv past facility ≠ .error .outOfBounds := by
  obtain ⟨copied, locked, _⟩ := lockedCopy_ready ready
  simp only [printTraceStack, locked, printCopy, narrow, disablingErr, ↓reduceIte, bind,
    Except.bind, pure, Except.pure]
  by_cases kernel : build = .kernel
  · simp [kernel]
  · simp [kernel]

structure Laid (facility : Facility) (pool copy : Block Tracept) (size : CInt)
    (exponent : Nat) : Prop where
  low : 2 ≤ exponent
  high : exponent < 31
  power : size.toNat = 2 ^ exponent
  poolIs : facility.tpPool = some pool
  copyIs : facility.tpPoolCopy = some copy
  poolSize : facility.tpPoolSize = size
  mask : facility.tpCntMask = size - 1
  memSize : facility.tpPoolMemSize = poolMemSize size
  poolRecords : pool.capacity = recordsIn (poolMemSize size)
  copyRecords : copy.capacity = recordsIn (poolMemSize size)

theorem Laid.of_reconfigure
    (returned : runtraceReconfigure build answers threads size facility = .ok (0, configured)) :
    ∃ pool copy exponent, Laid configured pool copy size exponent := by
  obtain ⟨large, power, count, _, rfl⟩ := runtraceReconfigure_ok returned
  obtain ⟨exponent, low, high, same⟩ := power_of_accepted large power
  exact ⟨_, _, exponent, low, high, same, rfl, rfl, rfl, rfl, rfl, rfl, rfl⟩

theorem Laid.ready (laid : Laid facility pool copy size exponent)
    (unlocked : facility.wrLocked = false) : Ready facility pool copy exponent where
  low := laid.low
  high := laid.high
  poolSize := laid.poolSize ▸ laid.power
  mask := laid.poolSize ▸ laid.mask
  memSize := laid.poolSize ▸ laid.memSize
  poolIs := laid.poolIs
  copyIs := laid.copyIs
  poolRecords := laid.memSize ▸ laid.poolRecords
  copyRecords := laid.memSize ▸ laid.copyRecords
  unlocked := unlocked

theorem Laid.initialised (laid : Laid facility pool copy size exponent)
    (lockInitialised wrLocked : Bool) :
    Laid { facility with lockInitialised := lockInitialised, wrLocked := wrLocked } pool copy size
      exponent :=
  { laid with }

theorem Laid.mask_toNat (laid : Laid facility pool copy size exponent) :
    facility.tpCntMask.toNat + 1 = 2 ^ exponent := by
  have positive : 1 ≤ 2 ^ exponent := Nat.one_le_two_pow
  have bound := size.isLt
  have power := laid.power
  rw [laid.mask, BitVec.toNat_sub]
  simp
  omega

theorem Laid.makes_inside (laid : Laid facility pool copy size exponent)
    (covered : poolCovered size) (nextTp : CInt) (records copies : Nat → Tracept) :
    makeTracept build answers now line src msg (facility.later nextTp records copies) ≠
      .error .outOfBounds := by
  cases locked : facility.wrLocked with
  | true =>
    have present : (facility.later nextTp records copies).tpPool.isNone = false := by
      simp [Facility.later, laid.poolIs]
    have held : (facility.later nextTp records copies).wrLocked = true := locked
    rw [makeTracept_locked held present]
    simp
  | false =>
    have ready := (laid.ready locked).later nextTp records copies
    have room := (ready.covered (laid.poolSize ▸ covered)).1
    have inside : nextTp.toNat % 2 ^ exponent < pool.capacity :=
      Nat.lt_of_lt_of_le (Nat.mod_lt _ (Nat.two_pow_pos exponent)) room
    rw [makeTracept_ready ready inside]
    simp

theorem Laid.prints_inside (laid : Laid facility pool copy size exponent)
    (covered : poolCovered size) (nextTp : CInt) (records copies : Nat → Tracept) :
    printTraceStack build flags dst bytes priv past (facility.later nextTp records copies) ≠
      .error .outOfBounds := by
  cases locked : facility.wrLocked with
  | true =>
    have held : (facility.later nextTp records copies).wrLocked = true := locked
    rw [printTraceStack_locked held]
    simp
  | false =>
    have ready := (laid.ready locked).later nextTp records copies
    cases narrow : bytes.slt neededBufsize with
    | true => exact printTraceStack_narrow ready narrow
    | false =>
      obtain ⟨result, returns⟩ := printTraceStack_returns build flags bytes dst past priv ready
        (laid.poolSize ▸ covered) narrow
      rw [returns]
      simp

theorem Laid.largeEnough_iff (laid : Laid facility pool copy size exponent) :
    LargeEnough facility size ↔ poolCovered size := by
  have least : 2 ^ 2 ≤ 2 ^ exponent := Nat.pow_le_pow_right (by omega) laid.low
  have masked := laid.mask_toNat
  have fits : exponent ≤ 32 := laid.high.le.trans (by decide)
  constructor
  · intro large
    obtain ⟨block, held, room, _⟩ := large.recorded
    rw [laid.poolIs] at held
    cases held
    rwa [poolCovered, ← laid.poolRecords]
  · intro covered
    have poolRoom : size.toNat ≤ pool.capacity := by rwa [laid.poolRecords]
    have copyRoom : size.toNat ≤ copy.capacity := by rwa [laid.copyRecords]
    refine ⟨⟨exponent, laid.power⟩, laid.power ▸ least, ⟨pool, laid.poolIs, poolRoom, ?_⟩,
      ⟨copy, laid.copyIs, copyRoom, ?_⟩, ?_, ?_⟩
    · intro nextTp
      rw [slotOf_masked masked]
      exact Nat.lt_of_lt_of_le (Nat.mod_lt _ (Nat.two_pow_pos exponent)) (laid.power ▸ poolRoom)
    · intro tpNum rounds
      rw [walkedSlot_eq masked fits]
      exact Nat.lt_of_lt_of_le (Nat.mod_lt _ (Nat.two_pow_pos exponent)) (laid.power ▸ copyRoom)
    · intro build answers now line src msg nextTp records copies
      exact laid.makes_inside covered nextTp records copies
    · intro build flags dst bytes priv past nextTp records copies
      exact laid.prints_inside covered nextTp records copies

/-- A pool is large enough exactly if its size is not one of three: asked for in a call,
or taken by `runtrace_init` from `RT_POOL_SIZE`. -/
theorem pool_large_iff (build : Build) (answers : Answers) (threads : CInt) (facility : Facility) :
    (∀ size configured,
      runtraceReconfigure build answers threads size facility = .ok (0, configured) →
        (LargeEnough configured size ↔ size ≠ 2 ^ 27 ∧ size ≠ 2 ^ 29 ∧ size ≠ 2 ^ 30)) ∧
      ∀ ready, runtraceInit build answers threads facility = .ok (0, ready) →
        let size := environmentCheck build answers rtPoolSizeDflt
        (LargeEnough ready size ↔ size ≠ 2 ^ 27 ∧ size ≠ 2 ^ 29 ∧ size ≠ 2 ^ 30) := by
  constructor
  · intro size configured returned
    obtain ⟨pool, copy, exponent, laid⟩ := Laid.of_reconfigure returned
    exact laid.largeEnough_iff.trans (poolCovered_iff laid.low laid.high laid.power)
  · intro ready returned
    obtain ⟨configured, asked, rfl⟩ := runtraceInit_ok returned
    obtain ⟨pool, copy, exponent, laid⟩ := Laid.of_reconfigure asked
    exact (laid.initialised _ _).largeEnough_iff.trans
      (poolCovered_iff laid.low laid.high laid.power)

/-- The default size is large enough, whether asked for or taken. -/
theorem pool_large_256 :
    ∃ configured ready,
      runtraceReconfigure .cxx11 (.granting 256) 1 256 Facility.start = .ok (0, configured) ∧
      runtraceInit .cxx11 (.granting 256) 1 Facility.start = .ok (0, ready) ∧
      LargeEnough configured 256 ∧ LargeEnough ready 256 := by
  have asked : runtraceReconfigure .cxx11 (.granting 256) 1 256 Facility.start = .ok (0, _) :=
    runtraceReconfigure_granted (by decide) (by decide) (by decide) rfl ⟨rfl, rfl, rfl⟩
  have granted : runtraceInit .cxx11 (.granting 256) 1 Facility.start = .ok (0, _) :=
    runtraceInit_granted (by decide) (by decide) (by decide) (by decide)
  have exact_sizes := pool_large_iff .cxx11 (.granting 256) 1 Facility.start
  exact ⟨_, _, asked, granted, (exact_sizes.1 256 _ asked).mpr (by decide),
    (exact_sizes.2 _ granted).mpr (by decide)⟩

/-- `RT_POOL_SIZE=134217728` is accepted and gets a block of 2^30 bytes for 2^27 slots. -/
theorem pool_too_small :
    ∃ ready, runtraceInit .cxx11 (.granting (2 ^ 27)) 1 Facility.start = .ok (0, ready) ∧
      environmentCheck .cxx11 (.granting (2 ^ 27)) rtPoolSizeDflt = 2 ^ 27 ∧
      (∃ pool, ready.tpPool = some pool ∧ pool.capacity = 2 ^ 30 / 232) ∧
      ¬ LargeEnough ready (2 ^ 27) := by
  have granted : runtraceInit .cxx11 (.granting (2 ^ 27)) 1 Facility.start = .ok (0, _) :=
    runtraceInit_granted (by decide) (by decide) (by decide) (by decide)
  refine ⟨_, granted, by decide, ⟨_, rfl, by decide⟩, ?_⟩
  intro large
  obtain ⟨pool, held, room, _⟩ := large.recorded
  cases held
  exact absurd room (by decide)

end TrippingRobot.Runtrace
