import TrippingRobot.Runtrace.Setup

/-! The outcomes of `runtrace_reconfigure` in the kernel build, for every prior state and
every answer of the allocator. -/

namespace TrippingRobot.Runtrace

open TrippingRobot.Data

/-- The sanity checks of `pool_size`. -/
def SizeAccepted (size : CInt) : Prop := size.slt 4 = false ∧ size &&& (size - 1) = 0

def Answers.BlocksGranted (answers : Answers) : Prop :=
  answers.poolMalloc = true ∧ answers.copyMalloc = true ∧ answers.bufferMalloc = true

/-- `WRLOCK` has to wait for another holder. -/
def Facility.Waits (facility : Facility) : Prop :=
  facility.lockInitialised = true ∧ facility.wrLocked = true

instance (size : CInt) : Decidable (SizeAccepted size) := inferInstanceAs (Decidable (_ ∧ _))

instance (answers : Answers) : Decidable answers.BlocksGranted :=
  inferInstanceAs (Decidable (_ ∧ _ ∧ _))

instance (facility : Facility) : Decidable facility.Waits := inferInstanceAs (Decidable (_ ∧ _))

/-- The thread count the kernel build goes on with. -/
def threadsAssumed (threads : CInt) : CInt := if threads.slt 1 then 1 else threads

variable {answers : Answers} {threads size : CInt} {facility : Facility}

theorem reconfigure_refused (refused : ¬ SizeAccepted size) :
    runtraceReconfigure .kernel answers threads size facility = .ok (-1, facility) := by
  unfold runtraceReconfigure
  rw [if_neg (by simp)]
  by_cases small : size.slt 4 = true
  · rw [if_pos small]
    rfl
  · have power : size &&& (size - 1) ≠ 0 := by
      intro power
      exact refused ⟨by simpa using small, power⟩
    rw [if_neg small, if_pos power]
    rfl

private theorem reconfigure_accepted (accepted : SizeAccepted size) :
    runtraceReconfigure .kernel answers threads size facility =
      if facility.Waits then .error .deadlock
      else if answers.BlocksGranted then
        .ok (0, (facility.resized (threadsAssumed threads) size).allocated .kernel answers)
      else .ok (-1, (facility.resized (threadsAssumed threads) size).withoutBlocks) := by
  obtain ⟨large, power⟩ := accepted
  unfold runtraceReconfigure
  rw [if_neg (by simp), if_neg (Bool.not_eq_true _ ▸ large), if_neg (not_not.mpr power)]
  rfl

theorem reconfigure_waiting (accepted : SizeAccepted size) (waits : facility.Waits) :
    runtraceReconfigure .kernel answers threads size facility = .error .deadlock := by
  rw [reconfigure_accepted accepted, if_pos waits]

theorem reconfigure_granted (accepted : SizeAccepted size) (free : ¬ facility.Waits)
    (granted : answers.BlocksGranted) :
    runtraceReconfigure .kernel answers threads size facility =
      .ok (0, (facility.resized (threadsAssumed threads) size).allocated .kernel answers) := by
  rw [reconfigure_accepted accepted, if_neg free, if_pos granted]

theorem reconfigure_denied (accepted : SizeAccepted size) (free : ¬ facility.Waits)
    (denied : ¬ answers.BlocksGranted) :
    runtraceReconfigure .kernel answers threads size facility =
      .ok (-1, (facility.resized (threadsAssumed threads) size).withoutBlocks) := by
  rw [reconfigure_accepted accepted, if_neg free, if_neg denied]

theorem allocated_wrLocked (free : ¬ facility.Waits) :
    ((facility.resized threads size).allocated .kernel answers).wrLocked = facility.wrLocked := by
  unfold Facility.Waits at free
  cases initialised : facility.lockInitialised <;> cases held : facility.wrLocked <;>
    simp_all [Facility.allocated, Facility.resized]

structure Repooled (before after : Facility) (size : CInt) : Prop where
  lock : after.wrLocked = before.wrLocked
  poolSize : after.tpPoolSize = size
  mask : after.tpCntMask = size - 1
  pool : after.tpPool = some ⟨recordsIn (poolMemSize size), fun _ => Tracept.zero⟩

/-- A facility out of use: no block is left, so none that was freed can be used again.
What becomes of the lock is not said. -/
structure Disabled (before after : Facility) (threads size : CInt) : Prop where
  pool : after.tpPool = none
  copy : after.tpPoolCopy = none
  buffer : after.vsprintBuffer = none
  rest : { after with wrLocked := before.wrLocked } =
    { before with
      tpPool := none
      tpPoolCopy := none
      vsprintBuffer := none
      maxThreads := threadsAssumed threads
      tpPoolSize := size
      tpCntMask := size - 1
      tpPoolMemSize := poolMemSize size }

/-- Every outcome of a call: refused sizes change nothing, a held lock is waited for,
success leaves the lock as it was, and without its blocks the facility is disabled. -/
theorem reconfigure_outcomes (answers : Answers) (threads size : CInt) (before : Facility) :
    (¬ SizeAccepted size →
      runtraceReconfigure .kernel answers threads size before = .ok (-1, before)) ∧
    (SizeAccepted size → before.Waits →
      runtraceReconfigure .kernel answers threads size before = .error .deadlock) ∧
    (SizeAccepted size → ¬ before.Waits → ∃ returned after,
      runtraceReconfigure .kernel answers threads size before = .ok (returned, after) ∧
        (returned = 0 ↔ answers.BlocksGranted) ∧
        (answers.BlocksGranted → Repooled before after size) ∧
        (¬ answers.BlocksGranted → returned = -1 ∧ Disabled before after threads size)) := by
  refine ⟨reconfigure_refused, reconfigure_waiting, ?_⟩
  intro accepted free
  by_cases granted : answers.BlocksGranted
  · refine ⟨0, _, reconfigure_granted accepted free granted, by simp [granted], ?_, ?_⟩
    · intro _
      exact ⟨allocated_wrLocked free, rfl, rfl, rfl⟩
    · intro denied
      exact absurd granted denied
  · refine ⟨-1, _, reconfigure_denied accepted free granted, by simp [granted], ?_, ?_⟩
    · intro given
      exact absurd given granted
    · intro _
      exact ⟨rfl, rfl, rfl, rfl, rfl⟩

/-- A call that returns with the lock as it was, tells success by its result, and on
failure leaves the pool, its size and its mask alone. -/
def ReconfigureKeeps (answers : Answers) (threads size : CInt) (before : Facility) : Prop :=
  ∃ returned after,
    runtraceReconfigure .kernel answers threads size before = .ok (returned, after) ∧
      after.wrLocked = before.wrLocked ∧
      (returned = 0 ↔ SizeAccepted size ∧ answers.BlocksGranted) ∧
      (returned = -1 → after.tpPool = before.tpPool ∧ after.tpPoolSize = before.tpPoolSize ∧
        after.tpCntMask = before.tpCntMask)

/-- An outside that refuses the first allocation only. -/
def Answers.denying : Answers := { Answers.granting 256 with poolMalloc := false }

/-- After a successful `runtrace_init`, a reconfiguration to 4 slots whose first
allocation fails keeps neither the lock free nor the pool and its size. -/
theorem reconfigure_not_kept :
    ∃ before after, runtraceInit .kernel (.granting 256) 1 Facility.start = .ok (0, before) ∧
      runtraceReconfigure .kernel .denying 1 4 before = .ok (-1, after) ∧
      before.wrLocked = false ∧ after.wrLocked = true ∧
      before.tpPool.isSome = true ∧ after.tpPool = none ∧
      before.tpPoolSize = 256 ∧ after.tpPoolSize = 4 ∧
      ¬ ReconfigureKeeps .denying 1 4 before := by
  have denied : runtraceReconfigure .kernel .denying 1 4 (.granted .kernel 1 256) =
      .ok (-1, ((Facility.granted .kernel 1 256).resized (threadsAssumed 1) 4).withoutBlocks) :=
    reconfigure_denied (by decide) (by decide) (by decide)
  refine ⟨.granted .kernel 1 256, _, rfl, denied, rfl, rfl, rfl, rfl, rfl, rfl, ?_⟩
  intro kept
  obtain ⟨returned, after, run, lock, _⟩ := kept
  rw [denied] at run
  cases run
  cases lock

end TrippingRobot.Runtrace
