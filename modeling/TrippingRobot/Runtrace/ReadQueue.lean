import TrippingRobot.Machine.Run
import TrippingRobot.Runtrace.Commands
import TrippingRobot.Runtrace.Once
import TrippingRobot.Runtrace.ShortLines

/-! `read_queue`: processes that sleep in `cdev_read` until a tracepoint wakes
them, in any interleaving with those that make tracepoints. -/

namespace TrippingRobot.Runtrace

open TrippingRobot.Data TrippingRobot.Machine

/-! ## A call of `cdev_read`, step by step -/

def erestartsys : CInt := 512

/-- Where a process is in `cdev_read`. From `looking` to `sleeping` it is in
`wait_event_interruptible`, which looks at its condition, queues the process, looks once more
and only then lets it sleep. At `printing` it calls `print_trace_stack`, at `copied` it has
released `print_rwlock`, and at `walking` it is in the loop over `tp_pool_copy`. -/
inductive ReadStage where
  | outside
  | testing
  | arrived
  | looking
  | preparing
  | queued
  | sleeping
  | printing
  | copied
  | walking
  | returned (value : BitVec 64)
deriving DecidableEq

/-- `lastTp` and `loop` are the variables of `print_trace_stack`. -/
structure ReadCall where
  file : File
  count : BitVec 64
  stage : ReadStage
  /-- `wake_up_interruptible` has made the process runnable since it was queued. -/
  woken : Bool
  text : List UInt8
  lastTp : CInt
  loop : PrintState

def ReadCall.enter (call : ReadCall) (stage : ReadStage) : ReadCall := { call with stage := stage }

/-- Asleep, and nobody has woken it yet. -/
def ReadCall.Asleep (call : ReadCall) : Prop := call.stage = .sleeping ∧ call.woken = false

instance (call : ReadCall) : Decidable call.Asleep := inferInstanceAs (Decidable (_ ∧ _))

/-- Past the lock of `print_trace_stack`, which works on the shared copy from there on. -/
def ReadCall.InPrint (call : ReadCall) : Prop := call.stage = .copied ∨ call.stage = .walking

instance (call : ReadCall) : Decidable call.InPrint := inferInstanceAs (Decidable (_ ∨ _))

theorem ReadCall.not_inPrint {call : ReadCall}
    (apart : call.stage ≠ .copied ∧ call.stage ≠ .walking) : ¬ call.InPrint :=
  fun printing => printing.elim apart.1 apart.2

/-- What `wake_up_interruptible` does to a process. -/
def ReadCall.wake (call : ReadCall) : ReadCall :=
  if call.stage = .queued ∨ call.stage = .sleeping then { call with woken := true } else call

/-- `print_trace_stack(RT_PRINT_DEFAULT, buf, count, (unsigned int *) offp)`. -/
def ReadCall.printArgs (call : ReadCall) (mask : CInt) (past : Nat → List UInt8) : PrintArgs :=
  ⟨rtPrintDefault, true, call.count.setWidth 32, mask, past⟩

/-- The device, the processes by number, and those that have made a tracepoint and have not
called `wake_up_interruptible` yet. `requests` are the tracepoints since the pool was last
cleared. -/
structure ReadQueue where
  device : Device
  requests : List Request
  waking : Nat → Bool
  calls : Nat → ReadCall
  fault : Option Fault

namespace ReadQueue

def nextTp (queue : ReadQueue) : CInt := queue.device.facility.nextTp

def withFacility (queue : ReadQueue) (facility : Facility) : ReadQueue :=
  { queue with device := { queue.device with facility := facility } }

def setCall (queue : ReadQueue) (reader : Nat) (call : ReadCall) : ReadQueue :=
  { queue with calls := Function.update queue.calls reader call }

/-- `print_trace_stack` from the end of its locked part to its loop. -/
def openWalk (queue : ReadQueue) (reader : Nat) (call : ReadCall) (args : PrintArgs) : ReadQueue :=
  if args.size.slt neededBufsize then
    queue.setCall reader (call.enter (.returned ((-1 : CInt).signExtend 64)))
  else if call.file.cursor = call.lastTp then queue.setCall reader (call.enter .testing)
  else
    let (tpNum, overrun) :=
      startTpNum queue.device.facility call.lastTp (some call.file.cursor)
    match queue.device.facility.tpPoolCopy with
    | none => { queue with fault := some .nullPointer }
    | some copy =>
      match openPrint args copy tpNum overrun with
      | .error fault => { queue with fault := some fault }
      | .ok first => queue.setCall reader { call with stage := .walking, loop := first }

/-- One iteration of its loop, which reads the copy as it is by then; or its end, which moves
the cursor. -/
def walk (queue : ReadQueue) (reader : Nat) (call : ReadCall) (args : PrintArgs) : ReadQueue :=
  if call.loop.tpNum = call.lastTp ∨ call.loop.stopped then
    queue.setCall reader { call with
      file := call.file.setCursor call.loop.tpNum
      stage := if call.loop.printed = 0 then .testing
        else .returned (call.loop.printed.signExtend 64)
      text := call.text ++ linesText call.loop.out }
  else match queue.device.facility.tpPoolCopy with
    | none => { queue with fault := some .nullPointer }
    | some copy =>
      match copy.read call.loop.tp with
      | none => { queue with fault := some .outOfBounds }
      | some tp =>
        if ∀ write ∈ iterationWrites args call.loop tp, write.Within args.size then
          queue.setCall reader { call with loop := printIteration args call.loop tp }
        else { queue with fault := some .outOfBounds }

/-- The next step of a process in `cdev_read`; `signal` tells whether it has a signal pending. -/
def step (queue : ReadQueue) (reader : Nat) (signal : Bool) (past : Nat → List UInt8) :
    ReadQueue :=
  let call := queue.calls reader
  match call.stage with
  | .outside | .returned _ => queue
  | .testing =>
    if call.file.cursor = queue.nextTp then queue.setCall reader (call.enter .arrived)
    else queue.setCall reader (call.enter .printing)
  | .arrived =>
    match (readAtCounter queue.device.cdevBlockingRead call.file).returned with
    | some value => queue.setCall reader (call.enter (.returned value))
    | none => queue.setCall reader (call.enter .looking)
  | .looking =>
    if call.file.cursor = queue.nextTp then queue.setCall reader (call.enter .preparing)
    else queue.setCall reader (call.enter .testing)
  | .preparing => queue.setCall reader { call with stage := .queued, woken := false }
  | .queued =>
    if call.file.cursor ≠ queue.nextTp then queue.setCall reader (call.enter .testing)
    else if signal then
      queue.setCall reader (call.enter (.returned (-erestartsys.signExtend 64)))
    else queue.setCall reader (call.enter .sleeping)
  | .sleeping => queue.setCall reader (call.enter .preparing)
  | .printing =>
    match lockedCopy queue.device.facility with
    | .error fault => { queue with fault := some fault }
    | .ok (lastTp, _, copied) =>
      (queue.withFacility copied).setCall reader { call with stage := .copied, lastTp := lastTp }
  | .copied => queue.openWalk reader call (call.printArgs queue.device.facility.tpCntMask past)
  | .walking => queue.walk reader call (call.printArgs queue.device.facility.tpCntMask past)

end ReadQueue

inductive ReadQueueAction where
  /-- `make_tracept` up to the end of its locked section. -/
  | record (maker : Nat) (answers : Answers) (request : Request)
  /-- Its last call, `wake_up_interruptible`. -/
  | wakeUp (maker : Nat)
  | read (reader : Nat) (count : BitVec 64)
  | step (reader : Nat) (signal : Bool) (past : Nat → List UInt8)
  | write (stale : LocalBuf) (past buf : List UInt8)
  | reconfigure (answers : Answers) (threads size : CInt)

def ReadQueue.next (queue : ReadQueue) : ReadQueueAction → ReadQueue
  | .record maker answers request =>
    match makeTracept .kernel answers request.now request.line (some request.src) request.msg
        queue.device.facility with
    | .error fault => { queue with fault := some fault }
    | .ok after =>
      { queue.withFacility after with
        requests := queue.requests ++ [request]
        waking := Function.update queue.waking maker true }
  | .wakeUp maker =>
    { queue with
      waking := Function.update queue.waking maker false
      calls := fun reader => (queue.calls reader).wake }
  | .read reader count =>
    queue.setCall reader { queue.calls reader with count := count, stage := .testing }
  | .step reader signal past => queue.step reader signal past
  | .write stale past buf => { queue with device := (cdevWrite stale past buf queue.device).device }
  | .reconfigure answers threads size =>
    match runtraceReconfigure .kernel answers threads size queue.device.facility with
    | .error fault => { queue with fault := some fault }
    | .ok (_, after) => { queue.withFacility after with requests := [] }

/-- A process is in one call at a time, and a sleeping one goes on when it is woken or has a
signal. Messages are short, lines no longer than the code expects, and a reconfiguration succeeds
and does not free the copy of a process that works on it. -/
def readQueueSystem : System ReadQueue ReadQueueAction where
  enabled queue
    | .record maker _ request => queue.waking maker = false ∧ request.Short ∧ request.Fits
    | .wakeUp maker => queue.waking maker = true
    | .read reader _ =>
      (queue.calls reader).stage = .outside ∨ ∃ value, (queue.calls reader).stage = .returned value
    | .step reader signal _ => ¬ (queue.calls reader).Asleep ∨ signal = true
    | .write _ _ _ => True
    | .reconfigure answers threads size =>
      (∀ reader, ¬ (queue.calls reader).InPrint) ∧ FitsInt size ∧
        ∃ ready, runtraceReconfigure .kernel answers threads size
          queue.device.facility = .ok (0, ready)
  next queue action := if queue.fault.isSome then queue else queue.next action

/-! ## What the steps leave -/

namespace ReadQueue

variable {queue : ReadQueue}

theorem setCall_calls (queue : ReadQueue) (reader : Nat) (call : ReadCall) (other : Nat) :
    (queue.setCall reader call).calls other = if other = reader then call else queue.calls other :=
  Function.update_apply ..

/-- A process past the lock: the copy shows what was recorded, and the loop has kept inside it
and inside the buffer. -/
structure Prints (facility : Facility) (requests : List Request) (call : ReadCall) : Prop where
  shows : ∀ copy, facility.tpPoolCopy = some copy →
    ∀ slot, slot ≤ facility.tpCntMask.toNat → ShownIn requests (copy.cell slot)
  slot : call.stage = .walking → call.loop.tp ≤ facility.tpCntMask.toNat
  inside : call.stage = .walking → call.loop.stopped = false →
    ∀ past, PrintState.Inside (call.printArgs facility.tpCntMask past) call.loop

/-- The ring holds what was recorded, a print works on what was recorded, and a process sleeps
only at the counter, unless a call that will wake it is on its way. -/
structure Sound (queue : ReadQueue) : Prop where
  running : queue.fault = none
  remembers : ∃ pool copy exponent stored,
    Remembers queue.device.facility queue.requests pool copy exponent stored
  fits : ∀ request ∈ queue.requests, request.Fits
  awake : ∀ reader, (queue.calls reader).Asleep →
    (queue.calls reader).file.cursor = queue.nextTp ∨ ∃ maker, queue.waking maker = true
  prints : ∀ reader, (queue.calls reader).InPrint →
    Prints queue.device.facility queue.requests (queue.calls reader)

theorem Sound.setCall (sound : queue.Sound) {reader : Nat} {call : ReadCall}
    (calm : call.Asleep → call.file.cursor = queue.nextTp)
    (prints : call.InPrint → Prints queue.device.facility queue.requests call) :
    (queue.setCall reader call).Sound where
  running := sound.running
  remembers := sound.remembers
  fits := sound.fits
  awake other asleep := by
    rw [setCall_calls] at asleep ⊢
    split at asleep
    · rename_i same
      rw [if_pos same]
      exact .inl (calm asleep)
    · rename_i apart
      rw [if_neg apart]
      exact sound.awake other asleep
  prints other printing := by
    rw [setCall_calls] at printing ⊢
    split at printing
    · rename_i same
      rw [if_pos same]
      exact prints printing
    · rename_i apart
      rw [if_neg apart]
      exact sound.prints other printing

/-- What a step of a process does to the queue. It sleeps only where it has just found nothing
to read. -/
inductive StepOf (queue : ReadQueue) (number : Nat) (past : Nat → List UInt8) : ReadQueue → Prop
  | stays : StepOf queue number past queue
  | goes {stage : ReadStage} (woken : Bool) (apart : stage ≠ .copied ∧ stage ≠ .walking)
      (calm : stage = .sleeping → (queue.calls number).file.cursor = queue.nextTp) :
      StepOf queue number past
        (queue.setCall number { queue.calls number with stage := stage, woken := woken })
  | copies {copied : Block Tracept} (printing : (queue.calls number).stage = .printing)
      (locked : lockedCopy queue.device.facility = .ok (queue.nextTp, copied,
        { queue.device.facility with tpPoolCopy := some copied })) :
      StepOf queue number past
        ((queue.withFacility { queue.device.facility with tpPoolCopy := some copied }).setCall
          number { queue.calls number with stage := .copied, lastTp := queue.nextTp })
  | opens {tpNum : CInt} {overrun : Bool} {cells : Nat → Tracept} {first : PrintState}
      (copied : (queue.calls number).stage = .copied)
      (start : startTpNum queue.device.facility (queue.calls number).lastTp
        (some (queue.calls number).file.cursor) = (tpNum, overrun))
      (opened : Opened ((queue.calls number).printArgs queue.device.facility.tpCntMask past) cells
        tpNum overrun first) :
      StepOf queue number past
        (queue.setCall number { queue.calls number with stage := .walking, loop := first })
  | reads {copy : Block Tracept} (walking : (queue.calls number).stage = .walking)
      (apart : (queue.calls number).loop.tpNum ≠ (queue.calls number).lastTp)
      (running : (queue.calls number).loop.stopped = false)
      (copyIs : queue.device.facility.tpPoolCopy = some copy) :
      StepOf queue number past (queue.setCall number { queue.calls number with
        loop := printIteration
          ((queue.calls number).printArgs queue.device.facility.tpCntMask past)
          (queue.calls number).loop (copy.cell (queue.calls number).loop.tp) })
  | ends {stage : ReadStage} (walking : (queue.calls number).stage = .walking)
      (apart : stage ≠ .copied ∧ stage ≠ .walking) (awake : stage ≠ .sleeping) :
      StepOf queue number past (queue.setCall number { queue.calls number with
        file := (queue.calls number).file.setCursor (queue.calls number).loop.tpNum
        stage := stage
        text := (queue.calls number).text ++ linesText (queue.calls number).loop.out })

theorem Sound.openWalk (sound : queue.Sound) {number : Nat}
    (copied : (queue.calls number).stage = .copied) (past : Nat → List UInt8) :
    StepOf queue number past (queue.openWalk number (queue.calls number)
      ((queue.calls number).printArgs queue.device.facility.tpCntMask past)) := by
  obtain ⟨pool, copy, exponent, stored, holds⟩ := sound.remembers
  simp only [ReadQueue.openWalk, ReadCall.enter]
  split
  · exact .goes _ ⟨nofun, nofun⟩ nofun
  · rename_i wide
    split
    · exact .goes _ ⟨nofun, nofun⟩ nofun
    · generalize start : startTpNum queue.device.facility (queue.calls number).lastTp
        (some (queue.calls number).file.cursor) = begins
      obtain ⟨tpNum, overrun⟩ := begins
      have inside : slotOf ((queue.calls number).printArgs queue.device.facility.tpCntMask
          past).mask tpNum < copy.capacity := by
        change slotOf queue.device.facility.tpCntMask tpNum < copy.capacity
        rw [holds.ready.slotOf_eq]
        exact (Nat.mod_lt _ (Nat.two_pow_pos exponent)).trans_le
          (holds.ready.covered holds.covered).2
      obtain ⟨first, opens, opened⟩ :=
        openPrint_opened overrun inside rfl (Bool.eq_false_iff.mpr wide)
      simp only [holds.ready.copyIs, opens]
      exact .opens copied start opened

theorem Sound.walk (sound : queue.Sound) {number : Nat}
    (walking : (queue.calls number).stage = .walking) (past : Nat → List UInt8) :
    StepOf queue number past (queue.walk number (queue.calls number)
      ((queue.calls number).printArgs queue.device.facility.tpCntMask past)) := by
  obtain ⟨pool, copy, exponent, stored, holds⟩ := sound.remembers
  have prints := sound.prints number (.inr walking)
  rw [ReadQueue.walk]
  split
  · split
    · exact .ends walking ⟨nofun, nofun⟩ nofun
    · exact .ends walking ⟨nofun, nofun⟩ nofun
  · rename_i going
    obtain ⟨apart, running⟩ := not_or.mp going
    have running : (queue.calls number).loop.stopped = false := by simpa using running
    have slot := prints.slot walking
    have inside : (queue.calls number).loop.tp < copy.capacity := by
      have mask := holds.ready.mask_toNat
      have covered := (holds.ready.covered holds.covered).2
      omega
    have within := ((prints.inside walking running past).shown
      (prints.shows copy holds.ready.copyIs _ slot) sound.fits rfl).1
    simp only [holds.ready.copyIs, Block.read_inside inside]
    rw [if_pos within]
    exact .reads walking apart running holds.ready.copyIs

theorem Sound.stepOf (sound : queue.Sound) (number : Nat) (signal : Bool)
    (past : Nat → List UInt8) : StepOf queue number past (queue.step number signal past) := by
  cases at_stage : (queue.calls number).stage with
  | outside =>
    simp only [ReadQueue.step, at_stage]
    exact .stays
  | returned value =>
    simp only [ReadQueue.step, at_stage]
    exact .stays
  | testing =>
    simp only [ReadQueue.step, at_stage, ReadCall.enter]
    split
    · exact .goes _ ⟨nofun, nofun⟩ nofun
    · exact .goes _ ⟨nofun, nofun⟩ nofun
  | arrived =>
    simp only [ReadQueue.step, at_stage, ReadCall.enter]
    split
    · exact .goes _ ⟨nofun, nofun⟩ nofun
    · exact .goes _ ⟨nofun, nofun⟩ nofun
  | looking =>
    simp only [ReadQueue.step, at_stage, ReadCall.enter]
    split
    · exact .goes _ ⟨nofun, nofun⟩ nofun
    · exact .goes _ ⟨nofun, nofun⟩ nofun
  | preparing =>
    simp only [ReadQueue.step, at_stage]
    exact .goes _ ⟨nofun, nofun⟩ nofun
  | sleeping =>
    simp only [ReadQueue.step, at_stage, ReadCall.enter]
    exact .goes _ ⟨nofun, nofun⟩ nofun
  | queued =>
    simp only [ReadQueue.step, at_stage, ReadCall.enter]
    split
    · exact .goes _ ⟨nofun, nofun⟩ nofun
    · rename_i arrived
      split
      · exact .goes _ ⟨nofun, nofun⟩ nofun
      · exact .goes _ ⟨nofun, nofun⟩ fun _ => not_not.mp arrived
  | printing =>
    obtain ⟨pool, copy, exponent, stored, holds⟩ := sound.remembers
    obtain ⟨copied, locked, _⟩ := holds.locked
    simp only [ReadQueue.step, at_stage, locked]
    exact .copies at_stage locked
  | copied =>
    simp only [ReadQueue.step, at_stage]
    exact sound.openWalk at_stage past
  | walking =>
    simp only [ReadQueue.step, at_stage]
    exact sound.walk at_stage past

/-! ## What a step keeps -/

/-- A new copy of the ring serves every print in progress. -/
theorem Sound.copied (sound : queue.Sound) {copied : Block Tracept}
    (locked : lockedCopy queue.device.facility = .ok (queue.nextTp, copied,
      { queue.device.facility with tpPoolCopy := some copied })) :
    (queue.withFacility { queue.device.facility with tpPoolCopy := some copied }).Sound ∧
      ∀ slot, slot ≤ queue.device.facility.tpCntMask.toNat →
        ShownIn queue.requests (copied.cell slot) := by
  obtain ⟨pool, copy, exponent, stored, holds⟩ := sound.remembers
  obtain ⟨copy', locks, remembers, agree⟩ := holds.locked
  cases locks.symm.trans locked
  have mask := holds.ready.mask_toNat
  have shows (slot : Nat) (inside : slot ≤ queue.device.facility.tpCntMask.toNat) :
      ShownIn queue.requests (copied.cell slot) := by
    have below : slot < 2 ^ exponent := by omega
    rw [agree slot below, ← Nat.mod_eq_of_lt below]
    exact holds.shownIn slot
  refine ⟨⟨sound.running, ⟨pool, copied, exponent, stored, remembers⟩, sound.fits, sound.awake,
    fun reader printing => ?_⟩, shows⟩
  have prints := sound.prints reader printing
  refine ⟨?_, prints.slot, prints.inside⟩
  rintro _ ⟨⟩
  exact shows

theorem Prints.kept {facility after : Facility} {requests others : List Request} {call : ReadCall}
    (prints : Prints facility requests call) (copyIs : after.tpPoolCopy = facility.tpPoolCopy)
    (mask : after.tpCntMask = facility.tpCntMask) (grown : requests ⊆ others) :
    Prints after others call := by
  refine ⟨fun copy found slot inside => ?_, mask.symm ▸ prints.slot, mask.symm ▸ prints.inside⟩
  rw [copyIs] at found
  rw [mask] at inside
  exact (prints.shows copy found slot inside).imp_right fun ⟨request, known, stores⟩ =>
    ⟨request, grown known, stores⟩

theorem Prints.iteration {facility : Facility} {requests : List Request} {call : ReadCall}
    {copy : Block Tracept} (prints : Prints facility requests call)
    (fits : ∀ request ∈ requests, request.Fits) (walking : call.stage = .walking)
    (running : call.loop.stopped = false) (copyIs : facility.tpPoolCopy = some copy)
    (past : Nat → List UInt8) :
    Prints facility requests { call with
      loop := printIteration (call.printArgs facility.tpCntMask past) call.loop
        (copy.cell call.loop.tp) } := by
  have slot := prints.slot walking
  have inside := prints.inside walking running
  have shown := prints.shows copy copyIs _ slot
  refine ⟨prints.shows, fun _ => ?_, fun _ running later => ?_⟩
  · rcases printIteration_cases (call.printArgs facility.tpCntMask past) call.loop
      (copy.cell call.loop.tp) running with stop | ⟨_, _, next⟩
    · rw [stop]
      exact slot
    · rw [next]
      exact nextSlot_le _ _
  · have kept := ((inside past).shown shown fits rfl).2 running
    exact ⟨rfl, kept.wide, running, kept.counted, kept.room⟩

theorem Sound.step (sound : queue.Sound) (number : Nat) (signal : Bool)
    (past : Nat → List UInt8) : (queue.step number signal past).Sound := by
  have stepOf := sound.stepOf number signal past
  generalize queue.step number signal past = after at stepOf
  cases stepOf with
  | stays => exact sound
  | goes woken apart calm =>
    exact sound.setCall (fun asleep => calm asleep.1) fun printing =>
      absurd printing (ReadCall.not_inPrint apart)
  | copies printing locked =>
    obtain ⟨copied, shows⟩ := sound.copied locked
    refine copied.setCall nofun fun _ => ⟨?_, nofun, nofun⟩
    rintro _ ⟨⟩
    exact shows
  | @opens tpNum _ _ _ copied start opened =>
    obtain ⟨pool, copy, exponent, stored, holds⟩ := sound.remembers
    refine sound.setCall nofun fun _ =>
      ⟨(sound.prints number (.inl copied)).shows, fun _ => ?_, fun _ _ _ => ?_⟩
    · have mask := holds.ready.mask_toNat
      have below := Nat.mod_lt tpNum.toNat (Nat.two_pow_pos exponent)
      rw [opened.slot]
      change slotOf queue.device.facility.tpCntMask _ ≤ _
      rw [holds.ready.slotOf_eq]
      omega
    · have inside := opened.inside
      exact ⟨rfl, inside.wide, inside.running, inside.counted, inside.room⟩
  | reads walking apart running copyIs =>
    refine sound.setCall (fun asleep => ?_) fun _ => ?_
    · cases walking.symm.trans asleep.1
    · exact (sound.prints number (.inr walking)).iteration sound.fits walking running copyIs past
  | ends walking apart awake =>
    exact sound.setCall (fun asleep => absurd asleep.1 awake) fun printing =>
      absurd printing (ReadCall.not_inPrint apart)

end ReadQueue

/-! ## Whole runs -/

theorem ReadCall.wake_awake (call : ReadCall) : ¬ call.wake.Asleep := by
  rintro ⟨sleeping, unwoken⟩
  by_cases queued : call.stage = .queued ∨ call.stage = .sleeping
  · rw [ReadCall.wake, if_pos queued] at unwoken
    cases unwoken
  · rw [ReadCall.wake, if_neg queued] at sleeping
    exact queued (.inr sleeping)

theorem ReadCall.wake_of_inPrint {call : ReadCall} (printing : call.InPrint) : call.wake = call := by
  rw [ReadCall.wake, if_neg]
  rcases printing with copied | walking
  · simp [copied]
  · simp [walking]

theorem ReadCall.wake_inPrint (call : ReadCall) : call.wake.InPrint ↔ call.InPrint := by
  rw [ReadCall.wake]
  split
  · rfl
  · rfl

theorem cdevWrite_facility (stale : LocalBuf) (past buf : List UInt8) (device : Device) :
    (cdevWrite stale past buf device).device.facility = device.facility := by
  simp only [cdevWrite]
  split_ifs
  · rfl
  · rfl
  · rfl

theorem Remembers.recorded (holds : Remembers facility requests pool copy exponent stored)
    (answers : Answers) (request : Request) (short : request.Short) :
    ∃ pool stored, makeTracept .kernel answers request.now request.line (some request.src)
        request.msg facility =
          .ok { facility with tpPool := some pool, nextTp := facility.nextTp + 1 } ∧
      Remembers { facility with tpPool := some pool, nextTp := facility.nextTp + 1 }
        (requests ++ [request]) pool copy exponent stored := by
  have inside : facility.nextTp.toNat % 2 ^ exponent < pool.capacity :=
    Nat.lt_of_lt_of_le (Nat.mod_lt _ (Nat.two_pow_pos exponent))
      (holds.ready.covered holds.covered).1
  have returned : makeTracept .kernel answers request.now request.line (some request.src)
      request.msg facility = _ := makeTracept_ready holds.ready inside
  obtain ⟨kept, stored, after⟩ := holds.make request returned short
  cases after.ready.poolIs
  exact ⟨_, stored, returned, after⟩

namespace ReadQueue

variable {queue : ReadQueue}

theorem Sound.next_eq (sound : queue.Sound) (action : ReadQueueAction) :
    readQueueSystem.next queue action = queue.next action := by
  simp [readQueueSystem, sound.running]

theorem Sound.next (sound : queue.Sound) {action : ReadQueueAction}
    (enabled : readQueueSystem.enabled queue action) :
    (readQueueSystem.next queue action).Sound := by
  rw [sound.next_eq]
  obtain ⟨pool, copy, exponent, stored, holds⟩ := sound.remembers
  cases action with
  | record maker answers request =>
    obtain ⟨pool, stored, recorded, remembers⟩ := holds.recorded answers request enabled.2.1
    simp only [ReadQueue.next, recorded]
    refine ⟨sound.running, ⟨pool, copy, exponent, stored, remembers⟩, ?_, fun _ _ =>
      .inr ⟨maker, Function.update_self ..⟩, fun reader printing => ?_⟩
    · intro other member
      rcases List.mem_append.mp member with known | new
      · exact sound.fits other known
      · rw [List.mem_singleton.mp new]
        exact enabled.2.2
    · exact (sound.prints reader printing).kept rfl rfl (List.subset_append_left _ _)
  | wakeUp maker =>
    refine ⟨sound.running, sound.remembers, sound.fits, fun reader asleep =>
      absurd asleep (ReadCall.wake_awake _), fun reader printing => ?_⟩
    simp only [ReadQueue.next, ReadCall.wake_inPrint] at printing ⊢
    rw [ReadCall.wake_of_inPrint printing]
    exact sound.prints reader printing
  | read reader count =>
    exact sound.setCall nofun fun printing =>
      absurd printing (ReadCall.not_inPrint (by simp))
  | step reader signal past => exact sound.step reader signal past
  | write stale past buf =>
    have same := cdevWrite_facility stale past buf queue.device
    exact
      { running := sound.running
        remembers := ⟨pool, copy, exponent, stored, same.symm ▸ holds⟩
        fits := sound.fits
        awake := fun number asleep =>
          (sound.awake number asleep).imp_left fun arrived =>
            arrived.trans (congrArg Facility.nextTp same.symm)
        prints := fun reader printing =>
          (sound.prints reader printing).kept (congrArg Facility.tpPoolCopy same)
            (congrArg Facility.tpCntMask same) (List.Subset.refl _) }
  | reconfigure answers threads size =>
    obtain ⟨unused, fits, ready, returned⟩ := enabled
    obtain ⟨poolSize, counter, exponent, repooled⟩ :=
      Ready.of_reconfigure returned holds.ready.unlocked
    simp only [ReadQueue.next, returned]
    exact
      { running := sound.running
        remembers := ⟨_, _, exponent, [], .blank repooled (poolSize ▸ fits.covered)⟩
        fits := nofun
        awake := fun reader asleep =>
          (sound.awake reader asleep).imp_left fun arrived => arrived.trans counter.symm
        prints := fun reader printing => absurd printing (unused reader) }

structure Idle (queue : ReadQueue) : Prop where
  running : queue.fault = none
  traced : Traced .kernel queue.device.facility queue.requests
  setUp : queue.device.facility.tpPool.isSome
  fits : ∀ request ∈ queue.requests, request.Fits
  outside : ∀ reader, (queue.calls reader).stage = .outside

theorem Idle.sound (idle : queue.Idle) : queue.Sound where
  running := idle.running
  remembers := idle.traced.remembers.2 idle.setUp
  fits := idle.fits
  awake reader asleep := by
    cases (idle.outside reader).symm.trans asleep.1
  prints reader printing := by
    refine absurd printing (ReadCall.not_inPrint ?_)
    rw [idle.outside reader]
    exact ⟨nofun, nofun⟩

theorem Sound.exec (sound : queue.Sound) (legal : readQueueSystem.Legal queue actions) :
    (readQueueSystem.exec queue actions).Sound :=
  (System.Always.of_invariant sound (fun _ _ sound enabled => sound.next enabled) legal).last

end ReadQueue

/-! ## The way from a wakeup to a print -/

/-- The stages of a woken process that finds something to read, by its own steps. -/
def wayBack : Nat → ReadStage
  | 0 => .sleeping
  | 1 => .preparing
  | 2 => .queued
  | 3 => .testing
  | _ => .printing

/-- So many steps after it was woken. -/
def ReadCall.OnWay (call : ReadCall) (steps : Nat) : Prop :=
  call.stage = wayBack steps ∧ ¬ call.Asleep

def ReadQueueAction.isStepOf (reader : Nat) : ReadQueueAction → Bool
  | .step other _ _ => other = reader
  | _ => false

/-- The steps a process takes itself in a run. -/
def ownSteps (reader : Nat) (actions : List ReadQueueAction) : Nat :=
  actions.countP (·.isStepOf reader)

theorem ownSteps_own (own : action.isStepOf reader = true) (rest : List ReadQueueAction) :
    ownSteps reader (action :: rest) = ownSteps reader rest + 1 :=
  List.countP_cons_of_pos own

theorem ownSteps_other (other : action.isStepOf reader = false) (rest : List ReadQueueAction) :
    ownSteps reader (action :: rest) = ownSteps reader rest :=
  List.countP_cons_of_neg (by simp [other])

theorem ReadCall.wake_onWay {call : ReadCall} (asleep : call.Asleep) : call.wake.OnWay 0 :=
  ⟨by rw [ReadCall.wake, if_pos (.inr asleep.1)]; exact asleep.1, call.wake_awake⟩

theorem ReadCall.OnWay.wake {call : ReadCall} (onWay : call.OnWay steps) :
    call.wake.OnWay steps := by
  refine ⟨?_, call.wake_awake⟩
  rw [ReadCall.wake]
  split
  · exact onWay.1
  · exact onWay.1

namespace ReadQueue

variable {queue : ReadQueue} {number : Nat}

theorem Sound.step_other (sound : queue.Sound) {other : Nat} (apart : number ≠ other)
    (signal : Bool) (past : Nat → List UInt8) :
    (queue.step other signal past).calls number = queue.calls number := by
  have stepOf := sound.stepOf other signal past
  generalize queue.step other signal past = after at stepOf
  cases stepOf with
  | stays => rfl
  | copies =>
    rw [setCall_calls, if_neg apart]
    rfl
  | goes | opens | reads | ends => rw [setCall_calls, if_neg apart]

/-- With something to read, each step of its own takes a woken process one stage on. -/
theorem step_onWay (behind : (queue.calls number).file.cursor ≠ queue.nextTp)
    (onWay : (queue.calls number).OnWay steps) (more : steps < 4) (signal : Bool)
    (past : Nat → List UInt8) :
    ((queue.step number signal past).calls number).OnWay (steps + 1) := by
  obtain ⟨at_stage, _⟩ := onWay
  have moved {stage : ReadStage} (awake : stage ≠ .sleeping) (woken : Bool) :
      ((queue.setCall number { queue.calls number with stage := stage, woken := woken }).calls
        number).stage = stage ∧
      ¬ ((queue.setCall number { queue.calls number with stage := stage, woken := woken }).calls
        number).Asleep := by
    rw [setCall_calls, if_pos rfl]
    exact ⟨rfl, fun asleep => awake asleep.1⟩
  match steps, more with
  | 0, _ =>
    simp only [wayBack] at at_stage
    simp only [ReadQueue.step, at_stage]
    exact moved (by simp) _
  | 1, _ =>
    simp only [wayBack] at at_stage
    simp only [ReadQueue.step, at_stage]
    exact moved (by simp) _
  | 2, _ =>
    simp only [wayBack] at at_stage
    simp only [ReadQueue.step, at_stage, if_pos behind]
    exact moved (by simp) _
  | 3, _ =>
    simp only [wayBack] at at_stage
    simp only [ReadQueue.step, at_stage, if_neg behind]
    exact moved (by simp) _

/-- What the others do neither holds up a woken process nor sets it back. -/
theorem Sound.next_onWay (sound : queue.Sound) {action : ReadQueueAction}
    (enabled : readQueueSystem.enabled queue action) (other : action.isStepOf number = false)
    (onWay : (queue.calls number).OnWay steps) :
    ((readQueueSystem.next queue action).calls number).OnWay steps := by
  rw [sound.next_eq]
  cases action with
  | record maker answers request =>
    simp only [ReadQueue.next]
    split
    · exact onWay
    · exact onWay
  | wakeUp maker => exact onWay.wake
  | read reader count =>
    simp only [ReadQueue.next, setCall_calls]
    split
    · rename_i same
      exfalso
      rw [← same] at enabled
      match steps, onWay.1 with
      | 0, stage => simp [readQueueSystem, stage, wayBack] at enabled
      | 1, stage => simp [readQueueSystem, stage, wayBack] at enabled
      | 2, stage => simp [readQueueSystem, stage, wayBack] at enabled
      | 3, stage => simp [readQueueSystem, stage, wayBack] at enabled
      | _ + 4, stage => simp [readQueueSystem, stage, wayBack] at enabled
    · exact onWay
  | step reader signal past =>
    have apart : number ≠ reader := by
      intro same
      simp [ReadQueueAction.isStepOf, same] at other
    rw [ReadQueue.next, sound.step_other apart]
    exact onWay
  | write stale past buf => exact onWay
  | reconfigure answers threads size =>
    simp only [ReadQueue.next]
    split
    · exact onWay
    · exact onWay

theorem Sound.exec_onWay (sound : queue.Sound) (legal : readQueueSystem.Legal queue actions)
    (behind : readQueueSystem.Always
      (fun queue => (queue.calls number).file.cursor ≠ queue.nextTp) queue actions)
    (onWay : (queue.calls number).OnWay steps) (few : steps + ownSteps number actions ≤ 4) :
    ((readQueueSystem.exec queue actions).calls number).OnWay
      (steps + ownSteps number actions) := by
  induction actions generalizing queue steps with
  | nil => exact onWay
  | cons action rest ih =>
    have later := sound.next legal.1
    cases own : action.isStepOf number with
    | false =>
      rw [ownSteps_other own] at few ⊢
      exact ih later legal.2 behind.2 (sound.next_onWay legal.1 own onWay) few
    | true =>
      rw [ownSteps_own own, ← Nat.add_assoc, Nat.add_right_comm] at few ⊢
      refine ih later legal.2 behind.2 ?_ few
      rw [sound.next_eq]
      cases action with
      | step reader signal past =>
        simp only [ReadQueueAction.isStepOf, decide_eq_true_eq] at own
        rw [own, ReadQueue.next]
        exact step_onWay behind.1 onWay (by omega) signal past
      | record | wakeUp | read | write | reconfigure => cases own

/-- No wakeup is lost: while a process sleeps in a read with something to read, a call of
`wake_up_interruptible` is on its way, and from there four steps of its own, none of which has
to wait, bring the process to a print, whatever the others do in between. -/
theorem sleepers_served (idle : queue.Idle) (legal : readQueueSystem.Legal queue actions) :
    (readQueueSystem.exec queue actions).fault = none ∧
      let last := readQueueSystem.exec queue actions
      (last.calls number).Asleep → (last.calls number).file.cursor ≠ last.nextTp →
      ∃ maker, last.waking maker = true ∧ ∀ more,
        readQueueSystem.Legal last (.wakeUp maker :: more) →
        readQueueSystem.Always (fun queue => (queue.calls number).file.cursor ≠ queue.nextTp) last
          (.wakeUp maker :: more) →
        ownSteps number more ≤ 4 →
        ((readQueueSystem.exec last (.wakeUp maker :: more)).calls number).OnWay
          (ownSteps number more) := by
  have sound := idle.sound.exec legal
  refine ⟨sound.running, fun asleep behind => ?_⟩
  rcases sound.awake number asleep with arrived | ⟨maker, waking⟩
  · exact absurd arrived behind
  · refine ⟨maker, waking, fun more goesOn stays few => ?_⟩
    have awake : ((readQueueSystem.next (readQueueSystem.exec queue actions)
        (.wakeUp maker)).calls number).OnWay 0 := by
      rw [sound.next_eq]
      exact ReadCall.wake_onWay asleep
    have onWay := (sound.next goesOn.1).exec_onWay goesOn.2 stays.2 awake (by omega)
    rwa [Nat.zero_add] at onWay

end ReadQueue

/-- Processes outside of a device with a pool of four, their files at the counter. -/
def quietQueue : ReadQueue :=
  ⟨⟨fourFacility 0, 1, 1, 1⟩, [], fun _ => false, fun _ =>
    ⟨⟨0, false⟩, 4096, .outside, false, [], 0, ⟨0, 0, 0, 0, [], [], false⟩⟩, none⟩

theorem quietQueue_idle : quietQueue.Idle :=
  ⟨rfl, fourFacility_traced 0, rfl, nofun, fun _ => rfl⟩

theorem plainRequest_fits : plainRequest.Short ∧ plainRequest.Fits :=
  ⟨nofun, by unfold Request.Fits; decide +kernel⟩

def ownStep : ReadQueueAction := .step 0 false fun _ => []

/-- A process falls asleep, and another makes a tracepoint. -/
def sleeperActions : List ReadQueueAction :=
  .read 0 4096 :: (List.replicate 5 ownStep ++ [.record 7 (.granting 4) plainRequest])

theorem sleeperActions_legal : readQueueSystem.Legal quietQueue sleeperActions := by
  refine ⟨.inl rfl, ?_⟩
  iterate 5 refine ⟨.inl (by decide +kernel), ?_⟩
  exact ⟨⟨rfl, plainRequest_fits⟩, trivial⟩

theorem sleepers_served_one :
    ((readQueueSystem.exec quietQueue sleeperActions).calls 0).Asleep ∧
      ((readQueueSystem.exec (readQueueSystem.exec quietQueue sleeperActions)
        (.wakeUp 7 :: List.replicate 4 ownStep)).calls 0).stage = .printing := by
  have asleep : ((readQueueSystem.exec quietQueue sleeperActions).calls 0).Asleep := by
    decide +kernel
  obtain ⟨maker, waking, goesOn⟩ := (ReadQueue.sleepers_served quietQueue_idle
    sleeperActions_legal).2 asleep (by decide +kernel)
  obtain rfl : maker = 7 := by
    by_contra other
    have idle : (readQueueSystem.exec quietQueue sleeperActions).waking maker = false :=
      Function.update_of_ne other _ _
    cases idle.symm.trans waking
  refine ⟨asleep, (goesOn (List.replicate 4 ownStep) ⟨waking, ?_⟩ ?_ (by decide)).1⟩
  · iterate 4 refine ⟨.inl (by decide +kernel), ?_⟩
    trivial
  · decide +kernel

end TrippingRobot.Runtrace
