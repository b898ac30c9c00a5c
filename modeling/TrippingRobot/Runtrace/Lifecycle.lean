import TrippingRobot.Machine.Run
import TrippingRobot.Runtrace.Messages
import TrippingRobot.Runtrace.Reconfigure
import TrippingRobot.Runtrace.Underrun

/-! The calls of the kernel build in any order, from globals that nothing has initialised. -/

namespace TrippingRobot.Runtrace

open TrippingRobot.Data TrippingRobot.Machine

/-- `runtrace_exit`. In the kernel build `LOCK_DESTROY` does nothing. -/
def runtraceExit (build : Build) (facility : Facility) : Facility :=
  { facility.withoutBlocks with
    lockInitialised := false
    wrLocked := if build = .kernel then facility.wrLocked else false }

inductive ApiCall where
  | init (answers : Answers) (nrOfThreads : CInt)
  | reconfigure (answers : Answers) (nrOfThreads poolSize : CInt)
  | exit
  | make (answers : Answers) (now : Timeval) (line : CInt) (src msg : Option CString)
  | printf (answers later : Answers) (now : Timeval) (line : CInt) (src : Option CString)
      (formatted : Option (List UInt8))

/-- A call in the kernel build, its result left aside. -/
def ApiCall.run (facility : Facility) : ApiCall → Except Fault Facility
  | .init answers nrOfThreads => do
    let (_, after) ← runtraceInit .kernel answers nrOfThreads facility
    return after
  | .reconfigure answers nrOfThreads poolSize => do
    let (_, after) ← runtraceReconfigure .kernel answers nrOfThreads poolSize facility
    return after
  | .exit => return runtraceExit .kernel facility
  | .make answers now line src msg => makeTracept .kernel answers now line src msg facility
  | .printf answers later now line src formatted => do
    let (_, after) ← tpprintf .kernel answers later now line src formatted facility
    return after

/-- Every allocation and every registration succeeds. -/
def Answers.Granted (answers : Answers) : Prop :=
  answers.BlocksGranted ∧ answers.chrdevRegion = true ∧ answers.cdevAdd = true

def ApiCall.Granted : ApiCall → Prop
  | .init answers _ | .reconfigure answers _ _ | .make answers .. => answers.Granted
  | .exit => True
  | .printf answers later .. => answers.Granted ∧ later.Granted

/-- The pool and the counter a tracepoint goes to: those in place, or new ones of the default
size where there are none. -/
def Facility.target (facility : Facility) : Block Tracept × CInt :=
  match facility.tpPool with
  | some pool => (pool, facility.nextTp)
  | none => (⟨recordsIn (poolMemSize rtPoolSizeDflt), fun _ => Tracept.zero⟩, 0)

structure StoresOne (before after : Facility) (now : Timeval) (line : CInt)
    (src msg : Option CString) : Prop where
  inside : slotOf after.tpCntMask before.target.2 < before.target.1.capacity
  pool : after.tpPool =
    some (recorded before.target.1 (slotOf after.tpCntMask before.target.2) now line src msg)
  counter : after.nextTp = before.target.2 + 1

/-- What a call is to store; `tpprintf` cuts its text to what the buffer holds. -/
def ApiCall.Stores (before after : Facility) : ApiCall → Prop
  | .init .. | .reconfigure .. | .exit => True
  | .make _ now line src msg => StoresOne before after now line src msg
  | .printf _ _ now line src formatted =>
    StoresOne before after now line src
      (formatted.map fun text => CString.ofMemory (text.take (rtMsgMax - 1)))

structure Lifetime where
  before : Facility
  last : Option ApiCall
  outcome : Except Fault Facility

def Lifetime.start : Lifetime where
  before := Facility.start
  last := none
  outcome := .ok Facility.start

/-- The next call; a fault ends the run. -/
def Lifetime.next (life : Lifetime) (call : ApiCall) : Lifetime :=
  match life.outcome with
  | .ok facility => ⟨facility, some call, call.run facility⟩
  | .error _ => life

def lifetimeSystem : System Lifetime ApiCall where
  enabled _ call := call.Granted
  next := Lifetime.next

/-- No NULL pointer was used and the last call stored what it was to store. -/
structure TracingWorks (life : Lifetime) : Prop where
  noNull : life.outcome ≠ .error .nullPointer
  stores : ∀ call, life.last = some call →
    ∃ after, life.outcome = .ok after ∧ call.Stores life.before after

/-- The slot of the next tracepoint lies in the block, if there is one. -/
def Facility.SlotInside (facility : Facility) : Prop :=
  ∀ pool, facility.tpPool = some pool →
    slotOf facility.tpCntMask facility.nextTp < pool.capacity

/-- A `tpprintf` with a format finds the print buffers in place. -/
def ApiCall.Prepared (facility : Facility) : ApiCall → Prop
  | .init .. | .reconfigure .. | .exit => True
  | .make .. | .printf _ _ _ _ _ none => facility.SlotInside
  | .printf _ _ _ _ _ (some _) => facility.vsprintBuffer.isSome = true ∧ facility.SlotInside

def Lifetime.Prepared (life : Lifetime) (call : ApiCall) : Prop :=
  ∀ facility, life.outcome = .ok facility → call.Prepared facility

/-- No blocks at all, or a ready pool and print buffers; the lock is free. -/
inductive Settled (facility : Facility) : Prop where
  | empty (noPool : facility.tpPool = none) (noBuffer : facility.vsprintBuffer = none)
      (unlocked : facility.wrLocked = false)
  | live (pool copy : Block Tracept) (exponent : Nat) (buffer : Block VspbContainer)
      (ready : Ready facility pool copy exponent) (buffered : Buffered .kernel facility buffer)

theorem Settled.unlocked (settled : Settled facility) : facility.wrLocked = false := by
  cases settled with
  | empty _ _ unlocked => exact unlocked
  | live _ _ _ _ ready _ => exact ready.unlocked

theorem Settled.free (settled : Settled facility) : ¬ facility.Waits := by
  intro waits
  rw [Facility.Waits, settled.unlocked] at waits
  cases waits.2

theorem Buffered.of_allocated (answers : Answers) (threads size : CInt) (facility : Facility) :
    ∃ buffer, Buffered .kernel
      ((facility.resized (threadsAssumed threads) size).allocated .kernel answers) buffer := by
  have positive : 0 < (threadsAssumed threads).toNat := by
    unfold threadsAssumed
    split
    · decide
    · rename_i large
      have one : (1 : CInt).toInt = 1 := rfl
      rw [BitVec.slt_iff_toInt_lt, one] at large
      have nat := BitVec.toInt_eq_toNat_cond threads
      split at nat <;> omega
  refine ⟨_, rfl, positive, ?_⟩
  exact (isFree_initContainer .kernel _ 0 _).mpr ⟨by omega, by simp⟩

/-- A reconfiguration either changes nothing or leaves a facility that works. -/
theorem Settled.reconfigure (settled : Settled facility) (granted : answers.Granted)
    (threads size : CInt) :
    ∃ code after, runtraceReconfigure .kernel answers threads size facility = .ok (code, after) ∧
      Settled after := by
  by_cases accepted : SizeAccepted size
  · have returned : runtraceReconfigure .kernel answers threads size facility = .ok (0, _) :=
      reconfigure_granted accepted settled.free granted.1
    obtain ⟨_, _, exponent, ready⟩ := Ready.of_reconfigure returned settled.unlocked
    obtain ⟨buffer, buffered⟩ := Buffered.of_allocated answers threads size facility
    exact ⟨0, _, returned, .live _ _ exponent buffer ready buffered⟩
  · exact ⟨-1, facility, reconfigure_refused accepted, settled⟩

theorem Settled.init (settled : Settled facility) (granted : answers.Granted) (threads : CInt) :
    ∃ after exponent buffer, runtraceInit .kernel answers threads facility = .ok (0, after) ∧
      after.nextTp = 0 ∧
      Ready after ⟨recordsIn (poolMemSize rtPoolSizeDflt), fun _ => Tracept.zero⟩
        ⟨recordsIn (poolMemSize rtPoolSizeDflt), answers.copyGarbage⟩ exponent ∧
      poolCovered after.tpPoolSize ∧ Buffered .kernel after buffer := by
  obtain ⟨blocks, region, added⟩ := granted
  let cleared : Facility := { facility with nextTp := 0, nrCpus := answers.cpus }
  have configured : runtraceReconfigure .kernel answers threads rtPoolSizeDflt cleared =
      .ok (0, (cleared.resized (threadsAssumed threads) rtPoolSizeDflt).allocated .kernel answers) :=
    reconfigure_granted (by decide) settled.free blocks
  have returned : runtraceInit .kernel answers threads facility = .ok (0,
      { (cleared.resized (threadsAssumed threads) rtPoolSizeDflt).allocated .kernel answers with
        lockInitialised := true }) := by
    have positive : (0 : CInt).slt 0 = false := rfl
    simp only [runtraceInit, environmentCheck, bind, Except.bind, pure, Except.pure]
    rw [configured]
    simp [region, added]
  obtain ⟨next, exponent, ready⟩ := Ready.of_init returned settled.unlocked
  obtain ⟨buffer, held, room, free⟩ :=
    Buffered.of_allocated answers threads rtPoolSizeDflt cleared
  have covered : poolCovered rtPoolSizeDflt := by decide
  exact ⟨_, exponent, buffer, returned, next, ready, covered, held, room, free⟩

theorem Settled.exit (settled : Settled facility) : Settled (runtraceExit .kernel facility) :=
  .empty rfl rfl settled.unlocked

structure Usable (facility : Facility) (pool copy : Block Tracept) (exponent : Nat)
    (buffer : Block VspbContainer) : Prop where
  ready : Ready facility pool copy exponent
  buffered : Buffered .kernel facility buffer
  inside : facility.nextTp.toNat % 2 ^ exponent < pool.capacity

theorem Usable.settled (usable : Usable facility pool copy exponent buffer) : Settled facility :=
  .live pool copy exponent buffer usable.ready usable.buffered

theorem Usable.of_slotInside (ready : Ready facility pool copy exponent)
    (buffered : Buffered .kernel facility buffer) (inside : facility.SlotInside) :
    Usable facility pool copy exponent buffer :=
  ⟨ready, buffered, ready.slotOf_eq facility.nextTp ▸ inside pool ready.poolIs⟩

theorem Usable.storesOne (usable : Usable facility pool copy exponent buffer) (base : Facility)
    (pools : base.target.1 = pool) (counters : base.target.2 = facility.nextTp)
    (buffers : Option (Block VspbContainer)) (now : Timeval) (line : CInt)
    (src msg : Option CString) :
    StoresOne base { facility with
      tpPool := some (recorded pool (facility.nextTp.toNat % 2 ^ exponent) now line src msg)
      nextTp := facility.nextTp + 1
      vsprintBuffer := buffers } now line src msg where
  inside := by
    rw [pools, counters]
    exact usable.ready.slotOf_eq facility.nextTp ▸ usable.inside
  pool := by
    rw [pools, counters]
    exact congrArg (fun slot => some (recorded pool slot now line src msg))
      (usable.ready.slotOf_eq facility.nextTp).symm
  counter := by rw [counters]

theorem Usable.make (usable : Usable facility pool copy exponent buffer) (base : Facility)
    (pools : base.target.1 = pool) (counters : base.target.2 = facility.nextTp) :
    ∃ after, makeTracept .kernel answers now line src msg facility = .ok after ∧ Settled after ∧
      StoresOne base after now line src msg := by
  refine ⟨_, makeTracept_ready usable.ready usable.inside, ?_,
    usable.storesOne base pools counters facility.vsprintBuffer now line src msg⟩
  exact .live _ copy exponent buffer (usable.ready.recorded _)
    ⟨usable.buffered.held, usable.buffered.room, usable.buffered.free⟩

theorem Usable.printf (usable : Usable facility pool copy exponent buffer) (text : List UInt8) :
    ∃ result after, tpprintf .kernel answers later now line src (some text) facility =
        .ok (result, after) ∧ Settled after ∧
      StoresOne facility after now line src
        (some (CString.ofMemory (text.take (rtMsgMax - 1)))) := by
  obtain ⟨msg, container, cut, released, printed⟩ :=
    tpprintf_ready usable.ready usable.inside usable.buffered text
  have given : msg = CString.ofMemory (text.take (rtMsgMax - 1)) := by
    ext1
    exact cut
  subst given
  refine ⟨_, _, printed, ?_, usable.storesOne facility ?_ ?_ _ now line src _⟩
  · have again : isFree .kernel container.inUse = true := by
      rw [released]
      exact (isFree_clear_iff .kernel _).mpr (by simp)
    exact .live _ copy exponent _ { usable.ready with poolIs := rfl }
      ⟨rfl, usable.buffered.room, by simpa using again⟩
  · simp [Facility.target, usable.ready.poolIs]
  · simp [Facility.target, usable.ready.poolIs]

/-- Past the end of the block neither way to record is defined. -/
theorem printf_outside (ready : Ready facility pool copy exponent)
    (buffered : Buffered .kernel facility buffer)
    (outside : pool.capacity ≤ facility.nextTp.toNat % 2 ^ exponent) (text : List UInt8) :
    tpprintf .kernel answers later now line src (some text) facility = .error .outOfBounds := by
  simp [tpprintf, repaired, buffered.held, takeContainer_first buffered.room buffered.free,
    makeTracept_outside ready outside, bind, Except.bind, pure, Except.pure]

theorem Settled.repair (settled : Settled facility) (granted : answers.Granted) :
    ∃ initialised copy exponent buffer,
      repaired .kernel answers true facility = .ok initialised ∧
      initialised.nextTp = 0 ∧
      Usable initialised ⟨recordsIn (poolMemSize rtPoolSizeDflt), fun _ => Tracept.zero⟩ copy
        exponent buffer := by
  obtain ⟨initialised, exponent, buffer, returned, counter, ready, covered, buffered⟩ :=
    settled.init granted 1
  refine ⟨initialised, _, exponent, buffer, ?_, counter, ready, buffered,
    Nat.lt_of_lt_of_le (Nat.mod_lt _ (Nat.two_pow_pos exponent)) (ready.covered covered).1⟩
  simp only [repaired, disablingErr, if_true, returned, bind, Except.bind, pure,
    Except.pure]

/-- Before the first initialisation and after an exit `make_tracept` records in a pool it has
set up itself. -/
theorem make_empty (noPool : facility.tpPool = none) (settled : Settled facility)
    (granted : answers.Granted) :
    ∃ after, makeTracept .kernel answers now line src msg facility = .ok after ∧ Settled after ∧
      StoresOne facility after now line src msg := by
  obtain ⟨initialised, copy, exponent, buffer, repair, counter, usable⟩ := settled.repair granted
  have same : makeTracept .kernel answers now line src msg facility =
      makeTracept .kernel answers now line src msg initialised := by
    have present : initialised.tpPool.isNone = false := by simp [usable.ready.poolIs]
    rw [makeTracept_eq, makeTracept_eq, noPool, present, Option.isNone_none, repair]
    rfl
  rw [same]
  exact usable.make facility (by simp [Facility.target, noPool])
    (by simp [Facility.target, noPool, counter])

/-- A NULL format finds the pool that the call itself has set up. -/
theorem printf_null_empty (noBuffer : facility.vsprintBuffer = none)
    (noPool : facility.tpPool = none) (settled : Settled facility) (granted : answers.Granted) :
    ∃ result after, tpprintf .kernel answers later now line src none facility =
        .ok (result, after) ∧ Settled after ∧ StoresOne facility after now line src none := by
  obtain ⟨initialised, copy, exponent, buffer, repair, counter, usable⟩ := settled.repair granted
  obtain ⟨after, made, kept, stored⟩ :
      ∃ after, makeTracept .kernel later now line src none initialised = .ok after ∧ _ :=
    usable.make facility (by simp [Facility.target, noPool])
      (by simp [Facility.target, noPool, counter])
  refine ⟨0, after, ?_, kept, stored⟩
  simp only [tpprintf, noBuffer, Option.isNone_none, repair, made, bind, Except.bind, pure,
    Except.pure]

/-- A `tpprintf` with a format still holds the NULL it read before the repair. -/
theorem printf_empty (noBuffer : facility.vsprintBuffer = none) (settled : Settled facility)
    (granted : answers.Granted) (text : List UInt8) :
    tpprintf .kernel answers later now line src (some text) facility = .error .nullPointer := by
  obtain ⟨initialised, _, _, _, repair, _⟩ := settled.repair granted
  simp only [tpprintf, noBuffer, Option.isNone_none, repair, bind, Except.bind, throw, throwThe,
    MonadExceptOf.throw]

/-- The two ends of a call: it does its work and leaves a facility in order, or it was not
prepared and faults. -/
def ApiCall.Ends (facility : Facility) (call : ApiCall) : Prop :=
  (call.Prepared facility ∧ ∃ after, call.run facility = .ok after ∧ Settled after ∧
      call.Stores facility after) ∨
    (¬ call.Prepared facility ∧ ∃ fault, call.run facility = .error fault)

theorem slotInside_of_noPool {facility : Facility} (noPool : facility.tpPool = none) : facility.SlotInside := by
  intro pool held
  rw [noPool] at held
  cases held

theorem Ready.outside (ready : Ready facility pool copy exponent)
    (outside : ¬ facility.SlotInside) :
    pool.capacity ≤ facility.nextTp.toNat % 2 ^ exponent := by
  by_contra inside
  apply outside
  intro other held
  rw [ready.poolIs] at held
  cases held
  rw [ready.slotOf_eq]
  omega

theorem Settled.ends_make (settled : Settled facility) (granted : answers.Granted) :
    (ApiCall.make answers now line src msg).Ends facility := by
  cases settled with
  | empty noPool noBuffer unlocked =>
    exact .inl ⟨slotInside_of_noPool noPool,
      make_empty noPool (.empty noPool noBuffer unlocked) granted⟩
  | live pool copy exponent buffer ready buffered =>
    by_cases inside : facility.SlotInside
    · exact .inl ⟨inside, (Usable.of_slotInside ready buffered inside).make facility
        (by simp [Facility.target, ready.poolIs]) (by simp [Facility.target, ready.poolIs])⟩
    · exact .inr ⟨inside, .outOfBounds, makeTracept_outside ready (ready.outside inside)⟩

theorem Settled.ends_printf_null (settled : Settled facility) (granted : answers.Granted)
    (laterGranted : later.Granted) :
    (ApiCall.printf answers later now line src none).Ends facility := by
  cases settled with
  | empty noPool noBuffer unlocked =>
    obtain ⟨result, after, printed, kept, stored⟩ :=
      printf_null_empty noBuffer noPool (.empty noPool noBuffer unlocked) granted
    exact .inl ⟨slotInside_of_noPool noPool, after, bind_eq_ok.mpr ⟨_, printed, rfl⟩, kept, stored⟩
  | live pool copy exponent buffer ready buffered =>
    have plain : (ApiCall.printf answers later now line src none).run facility =
        (ApiCall.make later now line src none).run facility := by
      simp only [ApiCall.run, tpprintf, repaired, buffered.held, Option.isNone_some,
        Bool.false_eq_true, if_false, bind, Except.bind, pure, Except.pure]
      cases makeTracept .kernel later now line src none facility <;> rfl
    rcases (Settled.live pool copy exponent buffer ready buffered).ends_make laterGranted with
      ⟨inside, after, made, kept, stored⟩ | ⟨outside, fault, failed⟩
    · exact .inl ⟨inside, after, plain.trans made, kept, stored⟩
    · exact .inr ⟨outside, fault, plain.trans failed⟩

theorem Settled.ends_printf (settled : Settled facility) (granted : answers.Granted)
    (text : List UInt8) :
    (ApiCall.printf answers later now line src (some text)).Ends facility := by
  cases settled with
  | empty noPool noBuffer unlocked =>
    refine .inr ⟨?_, .nullPointer, ?_⟩
    · intro prepared
      have present := prepared.1
      rw [noBuffer] at present
      cases present
    · simp only [ApiCall.run, printf_empty noBuffer (.empty noPool noBuffer unlocked) granted text]
      rfl
  | live pool copy exponent buffer ready buffered =>
    by_cases inside : facility.SlotInside
    · obtain ⟨result, after, printed, kept, stored⟩ :=
        (Usable.of_slotInside ready buffered inside).printf text
      exact .inl ⟨⟨by simp [buffered.held], inside⟩, after, bind_eq_ok.mpr ⟨_, printed, rfl⟩, kept,
        stored⟩
    · refine .inr ⟨fun prepared => inside prepared.2, .outOfBounds, ?_⟩
      simp only [ApiCall.run, printf_outside ready buffered (ready.outside inside) text]
      rfl

theorem Settled.ends (settled : Settled facility) (call : ApiCall) (granted : call.Granted) :
    call.Ends facility := by
  cases call with
  | init answers threads =>
    obtain ⟨after, exponent, buffer, returned, _, ready, _, buffered⟩ :=
      settled.init granted threads
    exact .inl ⟨trivial, after, bind_eq_ok.mpr ⟨_, returned, rfl⟩,
      .live _ _ exponent buffer ready buffered, trivial⟩
  | reconfigure answers threads size =>
    obtain ⟨code, after, returned, kept⟩ := settled.reconfigure granted threads size
    exact .inl ⟨trivial, after, bind_eq_ok.mpr ⟨_, returned, rfl⟩, kept, trivial⟩
  | exit => exact .inl ⟨trivial, _, rfl, settled.exit, trivial⟩
  | make answers now line src msg => exact settled.ends_make granted
  | printf answers later now line src formatted =>
    cases formatted with
    | none => exact settled.ends_printf_null granted.1 granted.2
    | some text => exact settled.ends_printf granted.1 text

structure LifetimeInvariant (life : Lifetime) : Prop where
  settled : ∀ facility, life.outcome = .ok facility → Settled facility
  faulted : ∀ fault, life.outcome = .error fault → life.last.isSome = true

theorem LifetimeInvariant.start : LifetimeInvariant Lifetime.start where
  settled facility same := by
    cases same
    exact .empty rfl rfl rfl
  faulted fault same := by cases same

theorem LifetimeInvariant.step (holds : LifetimeInvariant life) (granted : call.Granted) :
    LifetimeInvariant (life.next call) := by
  cases outcome : life.outcome with
  | error fault => simpa only [Lifetime.next, outcome] using holds
  | ok facility =>
    simp only [Lifetime.next, outcome]
    rcases (holds.settled facility outcome).ends call granted with
      ⟨_, after, returned, kept, _⟩ | ⟨_, fault, failed⟩
    · refine ⟨?_, fun _ _ => rfl⟩
      intro other same
      cases returned.symm.trans same
      exact kept
    · refine ⟨?_, fun _ _ => rfl⟩
      intro other same
      cases failed.symm.trans same

/-- A step works exactly if its call was prepared. -/
theorem TracingWorks.step_iff (holds : LifetimeInvariant life) (works : TracingWorks life)
    (granted : call.Granted) : TracingWorks (life.next call) ↔ life.Prepared call := by
  cases outcome : life.outcome with
  | error fault =>
    obtain ⟨last, called⟩ := Option.isSome_iff_exists.mp (holds.faulted fault outcome)
    obtain ⟨after, returned, _⟩ := works.stores last called
    cases outcome.symm.trans returned
  | ok facility =>
    have prepared : life.Prepared call ↔ call.Prepared facility := by
      constructor
      · exact fun all => all facility outcome
      · intro one other same
        cases outcome.symm.trans same
        exact one
    simp only [Lifetime.next, outcome, prepared]
    rcases (holds.settled facility outcome).ends call granted with
      ⟨ready, after, returned, _, stored⟩ | ⟨unready, fault, failed⟩
    · refine iff_of_true ⟨by simp [returned], ?_⟩ ready
      intro last same
      cases same
      exact ⟨after, returned, stored⟩
    · refine iff_of_false ?_ unready
      intro works
      obtain ⟨after, returned, _⟩ := works.stores call rfl
      cases failed.symm.trans returned

/-- In every order of calls, tracing works after every call exactly if each `tpprintf` with a
format finds the print buffers in place and each tracepoint's slot lies in its block. -/
theorem tracing_works_iff {calls : List ApiCall}
    (granted : lifetimeSystem.Legal Lifetime.start calls) :
    lifetimeSystem.Always TracingWorks Lifetime.start calls ↔
      lifetimeSystem.Guarded Lifetime.Prepared Lifetime.start calls := by
  have fresh : TracingWorks Lifetime.start := by
    refine ⟨by simp [Lifetime.start], ?_⟩
    intro call same
    cases same
  exact System.always_iff_guarded LifetimeInvariant.start fresh
    (fun _ _ holds enabled => holds.step enabled)
    (fun _ _ holds works enabled => TracingWorks.step_iff holds works enabled) granted

theorem Answers.granting_granted (poolSize : CInt) : (Answers.granting poolSize).Granted :=
  ⟨⟨rfl, rfl, rfl⟩, rfl, rfl⟩

/-- A `tpprintf` of the letter A at line 3. -/
def printfA : ApiCall := .printf (.granting 256) (.granting 256) ⟨1, 0⟩ 3 none (some [65])

/-- A plain tracepoint before `runtrace_init`, and a formatted one after it. -/
theorem tracing_works_two :
    lifetimeSystem.Always TracingWorks Lifetime.start
      [.make (.granting 256) ⟨1, 0⟩ 2 none none, .init (.granting 256) 1, printfA] := by
  have all := Answers.granting_granted 256
  have legal : lifetimeSystem.Legal Lifetime.start
      [.make (.granting 256) ⟨1, 0⟩ 2 none none, .init (.granting 256) 1, printfA] :=
    ⟨all, all, ⟨all, all⟩, trivial⟩
  refine (tracing_works_iff legal).mpr ⟨?_, ?_, ?_, trivial⟩
  · rintro facility ⟨⟩
    exact slotInside_of_noPool rfl
  · rintro facility ⟨⟩
    trivial
  · rintro facility ⟨⟩
    refine ⟨rfl, ?_⟩
    rintro pool ⟨⟩
    decide

/-- As the first call of all, or after an exit, a `tpprintf` ends in a NULL pointer. -/
theorem printf_uninitialised :
    lifetimeSystem.Legal Lifetime.start [printfA] ∧
      (lifetimeSystem.exec Lifetime.start [printfA]).outcome = .error .nullPointer ∧
      ¬ lifetimeSystem.Always TracingWorks Lifetime.start [printfA] ∧
      (lifetimeSystem.exec Lifetime.start [.init (.granting 256) 1, .exit, printfA]).outcome =
        .error .nullPointer := by
  have all := Answers.granting_granted 256
  refine ⟨⟨⟨all, all⟩, trivial⟩, rfl, ?_, rfl⟩
  intro always
  exact always.last.noNull rfl

end TrippingRobot.Runtrace
