import TrippingRobot.Machine.RwLock
import TrippingRobot.Runtrace.Printers
import TrippingRobot.Runtrace.Writers

/-! `make_tracept` and `print_trace_stack` calls in parallel, one step for each
access to shared data, with `print_rwlock` taken and released as the code does:
for reading around the fetch and the field writes, for writing around the read
of the counter and the `memcpy`. The loop of a print runs outside the lock. -/

namespace TrippingRobot.Runtrace

open TrippingRobot.Data TrippingRobot.Machine

/-- Where a call stands. The first four belong to `make_tracept`, the others to
`print_trace_stack`. -/
inductive Section where
  | idle
  | fetching (arguments : WriterCall)
  | writing (arguments : WriterCall) (slot : Nat) (field : Field)
  | leaving
  | made
  | counting (args : PrintArgs)
  | copying (args : PrintArgs) (lastTp : CInt) (slot : Nat) (field : Field)
  | printing (printer : Printer)

/-- How a call holds the lock. -/
def Section.mode : Section → Option Mode
  | .fetching _ | .writing _ _ _ | .leaving => some .read
  | .counting _ | .copying _ _ _ _ => some .write
  | .idle | .made | .printing _ => none

def Field.following : Field → Option Field
  | .time => some .line
  | .line => some .src
  | .src => some .msg
  | .msg => none

/-- One field of a record taken over from another record. -/
def Field.copy (source target : Tracept) : Field → Tracept
  | .time => { target with time := source.time }
  | .line => { target with line := source.line }
  | .src => { target with src := source.src }
  | .msg => { target with msg := source.msg }

/-- `made` lists what the calls store, in the order in which they fetched their
slots, and `taken` how many there were when a print took the lock. -/
structure Sections where
  facility : Facility
  readers : Nat
  stage : Nat → Section
  made : List Tracept
  taken : Nat → Nat
  fault : Option Fault

def Sections.start (facility : Facility) : Sections where
  facility := facility
  readers := 0
  stage := fun _ => .idle
  made := []
  taken := fun _ => 0
  fault := none

def Sections.lock (state : Sections) : RwLock := ⟨state.readers, state.facility.wrLocked⟩

def Sections.mode (state : Sections) (call : Nat) : Option Mode := (state.stage call).mode

def Sections.setStage (state : Sections) (call : Nat) (stage : Section) : Sections :=
  { state with stage := Function.update state.stage call stage }

/-- `make` is the `RDLOCK` of a new call, `print` the `WRLOCK` of one, `step` the
next step of a call that has begun. -/
inductive SectionAction where
  | make (call : Nat) (arguments : WriterCall)
  | print (call : Nat) (flags : CInt) (dst : Bool) (size : CInt) (past : Nat → List UInt8)
  | step (call : Nat)

/-- A print when it leaves the lock. -/
def Facility.openPrinter (facility : Facility) (args : PrintArgs) (lastTp : CInt) : Printer where
  args := args
  lastTp := lastTp
  loop := .first args (startTpNum facility lastTp none).1
  seen := ringSeen facility

/-- The next step of a call. A copy past the last record is the `WRUNLOCK`. -/
def Sections.advance (state : Sections) (call : Nat) : Section → Sections
  | .idle | .made => state
  | .fetching arguments =>
    match state.facility.tpPool with
    | none => { state with fault := some .nullPointer }
    | some pool =>
      let slot := slotOf state.facility.tpCntMask state.facility.nextTp
      { state.setStage call (.writing arguments slot .time) with
        facility := { state.facility with nextTp := state.facility.nextTp + 1 }
        made := state.made ++ [storeTracept (pool.cell slot) arguments.now arguments.line
          arguments.src arguments.msg] }
  | .writing arguments slot field =>
    match state.facility.tpPool with
    | none => { state with fault := some .nullPointer }
    | some pool =>
      match pool.write slot (field.store arguments (pool.cell slot)) with
      | none => { state with fault := some .outOfBounds }
      | some written =>
        { state.setStage call (field.following.elim .leaving (.writing arguments slot)) with
          facility := { state.facility with tpPool := some written } }
  | .leaving => { state.setStage call .made with readers := state.readers - 1 }
  | .counting args => state.setStage call (.copying args state.facility.nextTp 0 .time)
  | .copying args lastTp slot field =>
    if slot < recordsIn state.facility.tpPoolMemSize then
      match state.facility.tpPool, state.facility.tpPoolCopy with
      | some pool, some copy =>
        match pool.read slot with
        | none => { state with fault := some .outOfBounds }
        | some tp =>
          match copy.write slot (field.copy tp (copy.cell slot)) with
          | none => { state with fault := some .outOfBounds }
          | some copied =>
            { state.setStage call (field.following.elim (.copying args lastTp (slot + 1) .time)
                (.copying args lastTp slot)) with
              facility := { state.facility with tpPoolCopy := some copied } }
      | _, _ => { state with fault := some .nullPointer }
    else
      { state.setStage call (.printing (state.facility.openPrinter args lastTp)) with
        facility := { state.facility with wrLocked := false } }
  | .printing printer =>
    if printer.loop.tpNum = printer.lastTp ∨ printer.loop.stopped then state
    else match state.facility.tpPoolCopy with
      | none => { state with fault := some .nullPointer }
      | some copy =>
        match copy.read printer.loop.tp with
        | none => { state with fault := some .outOfBounds }
        | some tp => state.setStage call
            (.printing { printer with loop := printIteration printer.args printer.loop tp })

def Sections.next (state : Sections) : SectionAction → Sections
  | .make call arguments =>
    { state.setStage call (.fetching arguments) with readers := state.readers + 1 }
  | .print call flags dst size past =>
    { state.setStage call (.counting ⟨flags, dst, size, state.facility.tpCntMask, past⟩) with
      facility := { state.facility with wrLocked := true }
      taken := Function.update state.taken call state.made.length }
  | .step call => state.advance call (state.stage call)

/-- Every call has its own name, and a print a buffer of at least 260 bytes.
Beside that only the lock holds calls back. -/
def sectionSystem : System Sections SectionAction where
  enabled state
    | .make call _ => state.stage call = .idle ∧ state.lock.CanRead
    | .print call _ _ size _ =>
      state.stage call = .idle ∧ state.lock.CanWrite ∧ size.slt neededBufsize = false
    | .step _ => True
  next state action := if state.fault.isSome then state else state.next action

/-- Prints exclude everybody else from the lock, and what a print has copied
when it releases the lock is the pool and the counter as they are. -/
structure SnapshotLaw (state : Sections) : Prop where
  running : state.fault = none
  exclusive : ∀ call other, state.mode call = some .write → (state.mode other).isSome → other = call
  snapshot : ∀ call args lastTp slot field, state.stage call = .copying args lastTp slot field →
    recordsIn state.facility.tpPoolMemSize ≤ slot → lastTp = state.facility.nextTp ∧
      ∀ pool copy, state.facility.tpPool = some pool → state.facility.tpPoolCopy = some copy →
        ∀ index, index < recordsIn state.facility.tpPoolMemSize → copy.cell index = pool.cell index

/-- What a call in progress relies on: its slot is in the pool, its part of the
copy is up to date. -/
def Section.Sound (nextTp : CInt) (pool copy : Block Tracept) (exponent : Nat) : Section → Prop
  | .writing _ slot _ => slot < 2 ^ exponent
  | .copying args lastTp slot field => lastTp = nextTp ∧ args.mask.toNat + 1 = 2 ^ exponent ∧
      (∀ index, index < slot → copy.cell index = pool.cell index) ∧
      ∀ earlier : Field, earlier.rank < field.rank →
        earlier.copy (pool.cell slot) (copy.cell slot) = copy.cell slot
  | .printing printer => printer.loop.stopped = false →
      printer.loop.tp = printer.loop.tpNum.toNat % 2 ^ exponent ∧
        printer.args.mask.toNat + 1 = 2 ^ exponent
  | .counting args => args.mask.toNat + 1 = 2 ^ exponent
  | _ => True

structure SectionsInvariant (state : Sections) (pool copy : Block Tracept) (exponent : Nat) :
    Prop where
  running : state.fault = none
  ready : Ready { state.facility with wrLocked := false } pool copy exponent
  covered : poolCovered state.facility.tpPoolSize
  tracks : state.lock.Tracks state.mode
  sound : ∀ call, (state.stage call).Sound state.facility.nextTp pool copy exponent

theorem Field.copy_self (field : Field) (tp : Tracept) : field.copy tp tp = tp := by
  cases field <;> rfl

theorem Field.copy_copy (field : Field) (source target : Tracept) :
    field.copy source (field.copy source target) = field.copy source target := by
  cases field <;> rfl

theorem Field.copy_other {field other : Field} (different : other ≠ field)
    (source target : Tracept) (same : other.copy source target = target) :
    other.copy source (field.copy source target) = field.copy source target := by
  cases field <;> cases other <;> simp_all [Field.copy, Tracept.ext_iff]

theorem Field.copy_all {source target : Tracept}
    (fields : ∀ field : Field, field.copy source target = target) : target = source := by
  have time := congrArg Tracept.time (fields .time)
  have line := congrArg Tracept.line (fields .line)
  have src := congrArg Tracept.src (fields .src)
  have msg := congrArg Tracept.msg (fields .msg)
  exact Tracept.ext time.symm line.symm src.symm msg.symm

theorem Field.rank_following {field next : Field} (follows : field.following = some next)
    (earlier : Field) : earlier.rank < next.rank ↔ earlier = field ∨ earlier.rank < field.rank := by
  cases field <;> cases follows <;> cases earlier <;> simp [Field.rank]

theorem Field.rank_last {field : Field} (last : field.following = none) (earlier : Field) :
    earlier = field ∨ earlier.rank < field.rank := by
  cases field <;> cases last
  cases earlier <;> simp [Field.rank]

theorem Field.copy_last {field : Field} {source target : Tracept} (last : field.following = none)
    (fields : ∀ earlier : Field, earlier.rank < field.rank → earlier.copy source target = target) :
    field.copy source target = source := by
  apply Field.copy_all
  intro earlier
  by_cases same : earlier = field
  · rw [same, Field.copy_copy]
  · exact Field.copy_other same _ _
      (fields earlier ((Field.rank_last last earlier).resolve_left same))

theorem SectionsInvariant.not_copying (holds : SectionsInvariant state pool copy exponent)
    (reading : state.mode call = some .read) (other : Nat) :
    state.stage other ≠ .copying args lastTp slot field := by
  intro copying
  have written : state.lock.writer = true :=
    holds.tracks.writer.mpr ⟨other, by simp [Sections.mode, copying, Section.mode]⟩
  rw [holds.tracks.no_writer reading] at written
  cases written

/-- A call that copies or counts is alone in the lock. -/
theorem SectionsInvariant.alone (holds : SectionsInvariant state pool copy exponent)
    (writing : state.mode call = some .write) (different : other ≠ call) :
    state.mode other = none := by
  by_contra held
  exact different (holds.tracks.alone call other writing (Option.isSome_iff_ne_none.mpr held))

theorem mode_update (stage : Nat → Section) (call : Nat) (next : Section) (other : Nat) :
    (Function.update stage call next other).mode =
      Function.update (fun other => (stage other).mode) call next.mode other := by
  by_cases same : other = call
  · simp [same]
  · simp [same]

theorem mode_kept {state : Sections} {next : Section} (same : state.mode call = next.mode)
    (other : Nat) : (Function.update state.stage call next other).mode = state.mode other := by
  rw [mode_update, ← same]
  exact congrFun (Function.update_eq_self call state.mode) other

/-- What every call relies on outlives a change that only one call sees. -/
private theorem sound_update {stage : Nat → Section} {next : Section}
    (here : next.Sound nextTp pool copy exponent)
    (others : ∀ other, other ≠ call → (stage other).Sound nextTp pool copy exponent) :
    ∀ other, (Function.update stage call next other).Sound nextTp pool copy exponent :=
  (Function.forall_update_iff stage fun _ place => place.Sound nextTp pool copy exponent).mpr
    ⟨here, others⟩

/-- Without a copy in progress the pool may change as long as the ring stays. -/
private theorem Section.Sound.reading {stage : Section} {changed : Block Tracept} {next : CInt}
    (sound : stage.Sound nextTp pool copy exponent)
    (still : ∀ args lastTp slot field, stage ≠ .copying args lastTp slot field) :
    stage.Sound next changed copy exponent := by
  cases stage with
  | copying args lastTp slot field => exact absurd rfl (still args lastTp slot field)
  | _ => exact sound

/-- Outside the lock nothing depends on the copy that another call writes. -/
private theorem Section.Sound.outside {stage : Section} {changed : Block Tracept}
    (sound : stage.Sound nextTp pool copy exponent) (outside : stage.mode = none) :
    stage.Sound nextTp pool changed exponent := by
  cases stage with
  | copying => cases outside
  | _ => exact sound

theorem SectionsInvariant.of_make (holds : SectionsInvariant state pool copy exponent)
    (idle : state.stage call = .idle) (can : state.lock.CanRead) :
    SectionsInvariant (state.next (.make call arguments)) pool copy exponent where
  running := holds.running
  ready := holds.ready
  covered := holds.covered
  tracks := by
    have outside : state.mode call = none := by simp [Sections.mode, idle, Section.mode]
    exact (holds.tracks.take_read can outside).congr (mode_update _ _ _)
  sound := sound_update trivial fun other _ => holds.sound other

theorem SectionsInvariant.of_print (holds : SectionsInvariant state pool copy exponent)
    (can : state.lock.CanWrite) :
    SectionsInvariant (state.next (.print call flags dst size past)) pool copy exponent where
  running := holds.running
  ready := holds.ready
  covered := holds.covered
  tracks := (holds.tracks.take_write can).congr (mode_update _ _ _)
  sound := sound_update holds.ready.mask_toNat fun other _ => holds.sound other

theorem SectionsInvariant.slot_lt (holds : SectionsInvariant state pool copy exponent) :
    slotOf state.facility.tpCntMask state.facility.nextTp < 2 ^ exponent := by
  have masked : slotOf state.facility.tpCntMask state.facility.nextTp = _ :=
    holds.ready.slotOf_eq state.facility.nextTp
  rw [masked]
  exact Nat.mod_lt _ (Nat.two_pow_pos exponent)

theorem SectionsInvariant.fetch_next (holds : SectionsInvariant state pool copy exponent)
    (fetching : state.stage call = .fetching arguments) :
    state.next (.step call) =
      { state.setStage call (.writing arguments
          (slotOf state.facility.tpCntMask state.facility.nextTp) .time) with
        facility := { state.facility with nextTp := state.facility.nextTp + 1 }
        made := state.made ++
          [storeTracept (pool.cell (slotOf state.facility.tpCntMask state.facility.nextTp))
            arguments.now arguments.line arguments.src arguments.msg] } := by
  have pooled : state.facility.tpPool = some pool := holds.ready.poolIs
  simp [Sections.next, fetching, Sections.advance, pooled]

/-- The pool after one field of a slot has been written. -/
def written (pool : Block Tracept) (slot : Nat) (tp : Tracept) : Block Tracept :=
  { pool with cell := Function.update pool.cell slot tp }

theorem SectionsInvariant.write_next (holds : SectionsInvariant state pool copy exponent)
    (writing : state.stage call = .writing arguments slot field) :
    state.next (.step call) =
      { state.setStage call (field.following.elim .leaving (.writing arguments slot)) with
        facility := { state.facility with
          tpPool := some (written pool slot (field.store arguments (pool.cell slot))) } } := by
  have pooled : state.facility.tpPool = some pool := holds.ready.poolIs
  have slot_lt : slot < 2 ^ exponent := by simpa [writing, Section.Sound] using holds.sound call
  have inside : slot < pool.capacity :=
    Nat.lt_of_lt_of_le slot_lt (holds.ready.covered holds.covered).1
  simp [Sections.next, writing, Sections.advance, pooled, inside, written]

theorem SectionsInvariant.copy_next (holds : SectionsInvariant state pool copy exponent)
    (copying : state.stage call = .copying args lastTp slot field)
    (more : slot < recordsIn state.facility.tpPoolMemSize) :
    state.next (.step call) =
      { state.setStage call (field.following.elim (.copying args lastTp (slot + 1) .time)
          (.copying args lastTp slot)) with
        facility := { state.facility with
          tpPoolCopy := some (written copy slot
            (field.copy (pool.cell slot) (copy.cell slot))) } } := by
  have pooled : state.facility.tpPool = some pool := holds.ready.poolIs
  have copied : state.facility.tpPoolCopy = some copy := holds.ready.copyIs
  have inPool : slot < pool.capacity := holds.ready.poolRecords ▸ more
  have inCopy : slot < copy.capacity := holds.ready.copyRecords ▸ more
  simp [Sections.next, copying, Sections.advance, more, pooled, copied, inPool, inCopy, written]

theorem Sections.release_next {state : Sections}
    (copying : state.stage call = .copying args lastTp slot field)
    (last : recordsIn state.facility.tpPoolMemSize ≤ slot) :
    state.next (.step call) =
      { state.setStage call (.printing (state.facility.openPrinter args lastTp)) with
        facility := { state.facility with wrLocked := false } } := by
  simp [Sections.next, copying, Sections.advance, Nat.not_lt.mpr last]

theorem SectionsInvariant.read_next (holds : SectionsInvariant state pool copy exponent)
    (printing : state.stage call = .printing printer) (running : printer.loop.stopped = false)
    (apart : printer.loop.tpNum ≠ printer.lastTp) :
    state.next (.step call) = state.setStage call (.printing { printer with
      loop := printIteration printer.args printer.loop (copy.cell printer.loop.tp) }) := by
  have copied : state.facility.tpPoolCopy = some copy := holds.ready.copyIs
  have sound := holds.sound call
  simp only [printing, Section.Sound] at sound
  have inside : printer.loop.tp < copy.capacity := by
    rw [(sound running).1]
    exact Nat.lt_of_lt_of_le (Nat.mod_lt _ (Nat.two_pow_pos exponent))
      (holds.ready.covered holds.covered).2
  simp [Sections.next, printing, Sections.advance, running, apart, copied, inside]

theorem Sections.printed_next {state : Sections} (printing : state.stage call = .printing printer)
    (ended : printer.loop.tpNum = printer.lastTp ∨ printer.loop.stopped = true) :
    state.next (.step call) = state := by
  simp [Sections.next, printing, Sections.advance, ended]

theorem SectionsInvariant.of_fetch (holds : SectionsInvariant state pool copy exponent)
    (fetching : state.stage call = .fetching arguments) :
    SectionsInvariant (state.next (.step call)) pool copy exponent := by
  have reading : state.mode call = some .read := by simp [Sections.mode, fetching, Section.mode]
  rw [holds.fetch_next fetching]
  refine ⟨holds.running, { holds.ready with }, holds.covered, ?_, ?_⟩
  · exact holds.tracks.congr (mode_kept reading)
  · exact sound_update holds.slot_lt fun other _ =>
      (holds.sound other).reading fun _ _ _ _ => holds.not_copying reading other

theorem SectionsInvariant.of_write (holds : SectionsInvariant state pool copy exponent)
    (writing : state.stage call = .writing arguments slot field) :
    SectionsInvariant (state.next (.step call))
      (written pool slot (field.store arguments (pool.cell slot))) copy exponent := by
  have reading : state.mode call = some .read := by simp [Sections.mode, writing, Section.mode]
  have place := holds.sound call
  simp only [writing, Section.Sound] at place
  rw [holds.write_next writing]
  refine ⟨holds.running, { holds.ready with poolIs := rfl }, holds.covered, ?_, ?_⟩
  · refine holds.tracks.congr (mode_kept (reading.trans ?_))
    cases field <;> rfl
  · refine sound_update ?_ fun other _ =>
      (holds.sound other).reading fun _ _ _ _ => holds.not_copying reading other
    cases field <;> first | exact place | trivial

theorem SectionsInvariant.of_leave (holds : SectionsInvariant state pool copy exponent)
    (leaving : state.stage call = .leaving) :
    SectionsInvariant (state.next (.step call)) pool copy exponent := by
  have reading : state.mode call = some .read := by simp [Sections.mode, leaving, Section.mode]
  have next : state.next (.step call) =
      { state.setStage call .made with readers := state.readers - 1 } := by
    simp [Sections.next, leaving, Sections.advance]
  rw [next]
  refine ⟨holds.running, holds.ready, holds.covered, ?_, ?_⟩
  · exact (holds.tracks.leave_read reading).congr (mode_update _ _ _)
  · exact sound_update trivial fun other _ => holds.sound other

theorem SectionsInvariant.of_count (holds : SectionsInvariant state pool copy exponent)
    (counting : state.stage call = .counting args) :
    SectionsInvariant (state.next (.step call)) pool copy exponent := by
  have writing : state.mode call = some .write := by simp [Sections.mode, counting, Section.mode]
  have mask := holds.sound call
  simp only [counting, Section.Sound] at mask
  have next : state.next (.step call) =
      state.setStage call (.copying args state.facility.nextTp 0 .time) := by
    simp [Sections.next, counting, Sections.advance]
  rw [next]
  refine ⟨holds.running, holds.ready, holds.covered, ?_, ?_⟩
  · exact holds.tracks.congr (mode_kept writing)
  · exact sound_update ⟨rfl, mask, by simp, fun earlier before => by cases before⟩
      fun other _ => holds.sound other

theorem SectionsInvariant.of_copy (holds : SectionsInvariant state pool copy exponent)
    (copying : state.stage call = .copying args lastTp slot field)
    (more : slot < recordsIn state.facility.tpPoolMemSize) :
    SectionsInvariant (state.next (.step call)) pool
      (written copy slot (field.copy (pool.cell slot) (copy.cell slot))) exponent := by
  have writing : state.mode call = some .write := by simp [Sections.mode, copying, Section.mode]
  have place := holds.sound call
  simp only [copying, Section.Sound] at place
  obtain ⟨last, mask, before, fields⟩ := place
  rw [holds.copy_next copying more]
  refine ⟨holds.running, { holds.ready with copyIs := rfl }, holds.covered, ?_, ?_⟩
  · refine holds.tracks.congr (mode_kept (writing.trans ?_))
    cases field <;> rfl
  · refine sound_update ?_ fun other different =>
      (holds.sound other).outside (holds.alone writing different)
    have earlier_slots (index : Nat) (below : index < slot) :
        (written copy slot (field.copy (pool.cell slot) (copy.cell slot))).cell index =
          pool.cell index := by
      simp only [written, Function.update_of_ne (Nat.ne_of_lt below)]
      exact before index below
    cases follows : field.following with
    | none =>
      refine ⟨last, mask, ?_, fun earlier below => by cases below⟩
      intro index below
      rcases Nat.lt_succ_iff_lt_or_eq.mp below with inside | rfl
      · exact earlier_slots index inside
      · simp only [written, Function.update_self]
        exact Field.copy_last follows fields
    | some next =>
      refine ⟨last, mask, earlier_slots, ?_⟩
      intro earlier below
      simp only [written, Function.update_self]
      by_cases same : earlier = field
      · rw [same, Field.copy_copy]
      · have ranked := ((Field.rank_following follows earlier).mp below).resolve_left same
        exact Field.copy_other same _ _ (fields earlier ranked)

theorem SectionsInvariant.of_release (holds : SectionsInvariant state pool copy exponent)
    (copying : state.stage call = .copying args lastTp slot field)
    (last : recordsIn state.facility.tpPoolMemSize ≤ slot) :
    SectionsInvariant (state.next (.step call)) pool copy exponent := by
  have writing : state.mode call = some .write := by simp [Sections.mode, copying, Section.mode]
  have place := holds.sound call
  simp only [copying, Section.Sound] at place
  obtain ⟨_, mask, _⟩ := place
  rw [Sections.release_next copying last]
  refine ⟨holds.running, holds.ready, holds.covered, ?_, ?_⟩
  · exact (holds.tracks.leave_write writing).congr (mode_update _ _ _)
  · refine sound_update ?_ fun other _ => holds.sound other
    intro _
    exact ⟨slotOf_masked mask _, mask⟩

theorem SectionsInvariant.of_read (holds : SectionsInvariant state pool copy exponent)
    (printing : state.stage call = .printing printer) (running : printer.loop.stopped = false)
    (apart : printer.loop.tpNum ≠ printer.lastTp) :
    SectionsInvariant (state.next (.step call)) pool copy exponent := by
  have outside : state.mode call = none := by simp [Sections.mode, printing, Section.mode]
  have place := holds.sound call
  simp only [printing, Section.Sound] at place
  obtain ⟨slot, mask⟩ := place running
  rw [holds.read_next printing running apart]
  refine ⟨holds.running, holds.ready, holds.covered, ?_, ?_⟩
  · exact holds.tracks.congr (mode_kept outside)
  · refine sound_update ?_ fun other _ => holds.sound other
    intro going
    refine ⟨?_, mask⟩
    rcases printIteration_cases printer.args printer.loop (copy.cell printer.loop.tp) running with
      stop | ⟨_, number, next⟩
    · rw [stop] at going
      cases going
    · simp only [number, next]
      rw [slot, nextSlot_eq _ mask holds.ready.fits]

/-- The invariant with the blocks left open. -/
def Sections.Sound (exponent : Nat) (state : Sections) : Prop :=
  ∃ pool copy, SectionsInvariant state pool copy exponent

theorem SectionsInvariant.step (holds : SectionsInvariant state pool copy exponent)
    (call : Nat) : Sections.Sound exponent (state.next (.step call)) := by
  cases stage : state.stage call with
  | idle | made => exact ⟨pool, copy, by simpa [Sections.next, stage, Sections.advance] using holds⟩
  | fetching arguments => exact ⟨_, _, holds.of_fetch stage⟩
  | writing arguments slot field => exact ⟨_, _, holds.of_write stage⟩
  | leaving => exact ⟨_, _, holds.of_leave stage⟩
  | counting args => exact ⟨_, _, holds.of_count stage⟩
  | copying args lastTp slot field =>
    by_cases more : slot < recordsIn state.facility.tpPoolMemSize
    · exact ⟨_, _, holds.of_copy stage more⟩
    · exact ⟨_, _, holds.of_release stage (Nat.not_lt.mp more)⟩
  | printing printer =>
    by_cases ended : printer.loop.tpNum = printer.lastTp ∨ printer.loop.stopped = true
    · exact ⟨pool, copy, by rwa [Sections.printed_next stage ended]⟩
    · obtain ⟨apart, running⟩ := not_or.mp ended
      exact ⟨_, _, holds.of_read stage (by simpa using running) apart⟩

theorem Sections.Sound.next (sound : Sections.Sound exponent state)
    (enabled : sectionSystem.enabled state action) :
    Sections.Sound exponent (sectionSystem.next state action) := by
  obtain ⟨pool, copy, holds⟩ := sound
  have running : state.fault.isSome = false := by simp [holds.running]
  simp only [sectionSystem, running, Bool.false_eq_true, ↓reduceIte]
  cases action with
  | make call arguments => exact ⟨pool, copy, holds.of_make enabled.1 enabled.2⟩
  | print call flags dst size past => exact ⟨pool, copy, holds.of_print enabled.2.1⟩
  | step call => exact holds.step call

theorem SectionsInvariant.start (ready : Ready facility pool copy exponent)
    (covered : poolCovered facility.tpPoolSize) :
    SectionsInvariant (Sections.start facility) pool copy exponent where
  running := rfl
  ready := { ready with unlocked := rfl }
  covered := covered
  tracks := by
    have free : (Sections.start facility).lock = ⟨0, false⟩ := by
      simp [Sections.lock, Sections.start, ready.unlocked]
    rw [free]
    exact RwLock.Tracks.free
  sound _ := trivial

theorem SectionsInvariant.law (holds : SectionsInvariant state pool copy exponent) :
    SnapshotLaw state where
  running := holds.running
  exclusive := holds.tracks.alone
  snapshot call args lastTp slot field copying last := by
    have place := holds.sound call
    simp only [copying, Section.Sound] at place
    obtain ⟨counted, _, before, _⟩ := place
    refine ⟨counted, ?_⟩
    intro found other isPool isCopy index inside
    obtain rfl : pool = found := Option.some.inj (holds.ready.poolIs.symm.trans isPool)
    obtain rfl : copy = other := Option.some.inj (holds.ready.copyIs.symm.trans isCopy)
    exact before index (Nat.lt_of_lt_of_le inside last)

/-- Whatever the interleaving, a print is alone in the lock and leaves it with
the pool and the counter of one moment. -/
theorem sections_snapshot
    (returned : runtraceInit build answers threads Facility.start = .ok (0, facility))
    (covered : poolCovered facility.tpPoolSize)
    (legal : sectionSystem.Legal (Sections.start facility) actions) :
    sectionSystem.Always SnapshotLaw (Sections.start facility) actions := by
  obtain ⟨_, exponent, ready⟩ := Ready.of_init returned rfl
  have initial : Sections.Sound exponent (Sections.start facility) :=
    ⟨_, _, .start ready covered⟩
  have always := System.Always.of_invariant initial
    (fun _ _ sound enabled => sound.next enabled) legal
  exact always.mono fun _ ⟨_, _, holds⟩ => holds.law

/-- A tracepoint, a print that copies it, and a second tracepoint behind the print. -/
theorem sections_snapshot_three :
    sectionSystem.Always SnapshotLaw (Sections.start (.granted .cxx11 1 4))
      ([.make 0 ⟨⟨1, 2⟩, 3, some ⟨[98], by decide⟩, none⟩] ++ List.replicate 6 (.step 0) ++
        [.print 1 0 false 260 fun _ => []] ++ List.replicate 18 (.step 1) ++
        [.make 2 ⟨⟨1, 5⟩, 4, some ⟨[98], by decide⟩, none⟩, .step 2, .step 1]) := by
  refine sections_snapshot (runtraceInit_granted (by decide) (by decide) (by decide) (by decide))
    (by decide) ⟨⟨rfl, rfl⟩, ?_⟩
  iterate 6 refine ⟨trivial, ?_⟩
  refine ⟨⟨rfl, ⟨rfl, rfl⟩, rfl⟩, ?_⟩
  iterate 18 refine ⟨trivial, ?_⟩
  exact ⟨⟨rfl, rfl⟩, trivial, trivial, trivial⟩

/-- The steps that a call may still take in the lock. -/
def Section.left (records : Nat) : Section → Nat
  | .fetching _ => 6
  | .writing _ _ field => 5 - field.rank
  | .leaving => 1
  | .counting _ => 4 * records + 2
  | .copying _ _ slot field => 4 * (records - slot) - field.rank + 1
  | .idle | .made | .printing _ => 0

/-- The most steps a call takes in the lock. -/
def lockSteps (records : Nat) : Mode → Nat
  | .read => 6
  | .write => 4 * records + 2

theorem Section.left_le (stage : Section) (records : Nat) (held : stage.mode = some hold) :
    stage.left records ≤ lockSteps records hold := by
  cases stage <;> cases held <;> simp only [Section.left, lockSteps] <;> omega

theorem Section.mode_of_left {stage : Section} (none_left : stage.left records = 0) :
    stage.mode = none := by
  cases stage with
  | writing _ _ field => cases field <;> cases none_left
  | idle | made | printing => rfl
  | _ => cases none_left

theorem Sections.stage_other (state : Sections) (different : other ≠ call) :
    (state.next (.step call)).stage other = state.stage other := by
  simp only [Sections.next]
  cases state.stage call <;> simp only [Sections.advance] <;> repeat' split
  all_goals simp [Sections.setStage, different]

theorem Sections.begun_next (state : Sections) (begun : state.stage call ≠ .idle) :
    (state.next (.step call)).stage call ≠ .idle := by
  simp only [Sections.next]
  cases stage : state.stage call with
  | idle => exact absurd stage begun
  | writing arguments slot field | copying args lastTp slot field =>
    simp only [Sections.advance]
    repeat' split
    all_goals cases field.following <;> simp [Sections.setStage, stage]
  | _ =>
    simp only [Sections.advance]
    repeat' split
    all_goals simp [Sections.setStage, stage]

theorem Sections.memSize_next (state : Sections) (call : Nat) :
    (state.next (.step call)).facility.tpPoolMemSize = state.facility.tpPoolMemSize := by
  simp only [Sections.next]
  cases state.stage call <;> simp only [Sections.advance] <;> repeat' split
  all_goals rfl

theorem SectionsInvariant.left_next (holds : SectionsInvariant state pool copy exponent)
    (call : Nat) :
    ((state.next (.step call)).stage call).left (recordsIn state.facility.tpPoolMemSize) =
      (state.stage call).left (recordsIn state.facility.tpPoolMemSize) - 1 := by
  cases stage : state.stage call with
  | idle | made => simp [Sections.next, stage, Sections.advance, Section.left]
  | fetching arguments =>
    simp [holds.fetch_next stage, Sections.setStage, Section.left, Field.rank]
  | writing arguments slot field =>
    rw [holds.write_next stage]
    cases field <;> simp [Sections.setStage, Section.left, Field.rank, Field.following]
  | leaving => simp [Sections.next, stage, Sections.advance, Sections.setStage, Section.left]
  | counting args =>
    simp [Sections.next, stage, Sections.advance, Sections.setStage, Section.left, Field.rank]
  | copying args lastTp slot field =>
    by_cases more : slot < recordsIn state.facility.tpPoolMemSize
    · rw [holds.copy_next stage more]
      cases field <;> simp [Sections.setStage, Section.left, Field.rank, Field.following] <;> omega
    · have last := Nat.not_lt.mp more
      simp [Sections.release_next stage last, Sections.setStage, Section.left,
        Nat.sub_eq_zero_of_le last]
  | printing printer =>
    by_cases ended : printer.loop.tpNum = printer.lastTp ∨ printer.loop.stopped = true
    · simp [Sections.printed_next stage ended, stage, Section.left]
    · obtain ⟨apart, running⟩ := not_or.mp ended
      simp [holds.read_next stage (by simpa using running) apart, Sections.setStage, Section.left]

def SectionAction.isStep (call : Nat) : SectionAction → Bool
  | .step other => other == call
  | _ => false

/-- The locks that others take, and their steps, do not concern a call that has begun. -/
theorem Sections.Sound.left_step (sound : Sections.Sound exponent state)
    (enabled : sectionSystem.enabled state action) (begun : state.stage call ≠ .idle) :
    let after := sectionSystem.next state action
    after.stage call ≠ .idle ∧ after.facility.tpPoolMemSize = state.facility.tpPoolMemSize ∧
      (after.stage call).left (recordsIn state.facility.tpPoolMemSize) =
        (state.stage call).left (recordsIn state.facility.tpPoolMemSize) -
          (if action.isStep call then 1 else 0) := by
  obtain ⟨pool, copy, holds⟩ := sound
  have running : state.fault.isSome = false := by simp [holds.running]
  simp only [sectionSystem, running, Bool.false_eq_true, ↓reduceIte]
  cases action with
  | make other arguments =>
    have different : call ≠ other := by
      rintro rfl
      exact begun enabled.1
    simp [Sections.next, Sections.setStage, different, SectionAction.isStep, begun]
  | print other flags dst size past =>
    have different : call ≠ other := by
      rintro rfl
      exact begun enabled.1
    simp [Sections.next, Sections.setStage, different, SectionAction.isStep, begun]
  | step other =>
    by_cases same : other = call
    · subst same
      refine ⟨?_, state.memSize_next other, by simp [SectionAction.isStep, holds.left_next other]⟩
      exact state.begun_next begun
    · have different : call ≠ other := fun equal => same equal.symm
      rw [state.stage_other different]
      exact ⟨begun, state.memSize_next other, by simp [SectionAction.isStep, same]⟩

theorem Sections.Sound.left_run (sound : Sections.Sound exponent state)
    (legal : sectionSystem.Legal state actions) (begun : state.stage call ≠ .idle) :
    ((sectionSystem.exec state actions).stage call).left
        (recordsIn state.facility.tpPoolMemSize) =
      (state.stage call).left (recordsIn state.facility.tpPoolMemSize) -
        actions.countP (SectionAction.isStep call) := by
  induction actions generalizing state with
  | nil => rfl
  | cons action rest ih =>
    obtain ⟨later, size, nearer⟩ := sound.left_step legal.1 begun
    have run := ih (sound.next legal.1) legal.2 later
    rw [size, nearer] at run
    rw [System.exec_cons, run, List.countP_cons]
    omega

theorem Sections.Sound.out (sound : Sections.Sound exponent state)
    (legal : sectionSystem.Legal state actions)
    (enough : ∀ hold, state.mode call = some hold →
      lockSteps (recordsIn state.facility.tpPoolMemSize) hold ≤
        actions.countP (SectionAction.isStep call))
    (begun : state.stage call ≠ .idle) : (sectionSystem.exec state actions).mode call = none := by
  apply Section.mode_of_left
  rw [sound.left_run legal begun]
  cases held : state.mode call with
  | none =>
    have zero : (state.stage call).left (recordsIn state.facility.tpPoolMemSize) = 0 := by
      cases stage : state.stage call <;> simp_all [Sections.mode, Section.mode, Section.left]
    rw [zero, Nat.zero_sub]
  | some hold =>
    have bound := (state.stage call).left_le (recordsIn state.facility.tpPoolMemSize) held
    have taken := enough hold held
    omega

theorem legal_steps (calls : List Nat) (state : Sections) :
    sectionSystem.Legal state (calls.map .step) := by
  induction calls generalizing state with
  | nil => trivial
  | cons call rest ih => exact ⟨trivial, ih _⟩

/-- Steps of calls that have begun let nobody new into the lock. -/
theorem Sections.Sound.idle_steps (sound : Sections.Sound exponent state) (calls : List Nat)
    (idle : state.stage call = .idle) :
    (sectionSystem.exec state (calls.map .step)).stage call = .idle := by
  induction calls generalizing state with
  | nil => exact idle
  | cons other rest ih =>
    have enabled : sectionSystem.enabled state (.step other) := trivial
    obtain ⟨pool, copy, holds⟩ := sound
    refine ih (Sections.Sound.next ⟨pool, copy, holds⟩ enabled) ?_
    simp only [sectionSystem, holds.running, Option.isSome_none, Bool.false_eq_true, ↓reduceIte]
    by_cases same : call = other
    · simp [Sections.next, ← same, idle, Sections.advance]
    · rw [state.stage_other same, idle]

/-- No call keeps the lock: after six steps of its own a `make_tracept` is out
of it, and after four for each record and two more a print, whatever the other
calls do meanwhile. And there is no deadlock: from every state on the calls in
the lock can leave it free. -/
theorem sections_progress
    (returned : runtraceInit build answers threads Facility.start = .ok (0, facility))
    (covered : poolCovered facility.tpPoolSize)
    (legal : sectionSystem.Legal (Sections.start facility) actions) :
    let state := sectionSystem.exec (Sections.start facility) actions
    let records := recordsIn state.facility.tpPoolMemSize
    (∀ call hold later, state.mode call = some hold → sectionSystem.Legal state later →
      lockSteps records hold ≤ later.countP (SectionAction.isStep call) →
      (sectionSystem.exec state later).mode call = none) ∧
    ∃ calls : List Nat, sectionSystem.Legal state (calls.map .step) ∧
      (sectionSystem.exec state (calls.map .step)).lock.CanWrite := by
  obtain ⟨_, exponent, ready⟩ := Ready.of_init returned rfl
  have initial : Sections.Sound exponent (Sections.start facility) :=
    ⟨_, _, .start ready covered⟩
  have sound := (System.Always.of_invariant initial
    (fun _ _ sound enabled => sound.next enabled) legal).last
  generalize sectionSystem.exec (Sections.start facility) actions = state at sound ⊢
  constructor
  · intro call hold later held run enough
    refine sound.out run ?_ ?_
    · intro other same
      obtain rfl : hold = other := Option.some.inj (held.symm.trans same)
      exact enough
    · intro idle
      simp [Sections.mode, idle, Section.mode] at held
  · obtain ⟨pool, copy, holds⟩ := sound
    obtain ⟨inside, every⟩ := holds.tracks.finite
    let turns := 4 * recordsIn state.facility.tpPoolMemSize + 6
    let calls := (inside.toList.map (List.replicate turns)).flatten
    have run := legal_steps calls state
    have sound : Sections.Sound exponent state := ⟨pool, copy, holds⟩
    refine ⟨calls, run, ?_⟩
    obtain ⟨_, _, after⟩ := (System.Always.of_invariant sound
      (fun _ _ sound enabled => sound.next enabled) run).last
    refine after.tracks.canWrite fun call => ?_
    by_cases idle : state.stage call = .idle
    · simp [Sections.mode, sound.idle_steps calls idle, Section.mode]
    · refine sound.out run ?_ idle
      intro hold held
      have member := Finset.mem_toList.mpr (every call (by simp [held]))
      have part : (List.replicate turns call).Sublist calls :=
        List.sublist_flatten_of_mem (List.mem_map_of_mem member)
      have counted : _ ≤ (calls.map SectionAction.step).countP (SectionAction.isStep call) :=
        (part.map SectionAction.step).countP_le
      have own : (List.map SectionAction.step (List.replicate turns call)).countP
          (SectionAction.isStep call) = turns := by
        rw [List.map_replicate, List.countP_replicate]
        simp [SectionAction.isStep]
      have most : lockSteps (recordsIn state.facility.tpPoolMemSize) hold ≤ turns := by
        cases hold <;> simp only [lockSteps, turns] <;> omega
      omega

/-- A tracepoint that has fetched its slot, five steps before the end of its section. -/
theorem sections_progress_one :
    (let state := sectionSystem.exec (Sections.start (.granted .cxx11 1 4))
      [.make 0 ⟨⟨1, 2⟩, 3, some ⟨[98], by decide⟩, none⟩, .step 0]
    let records := recordsIn state.facility.tpPoolMemSize
    (∀ call hold later, state.mode call = some hold → sectionSystem.Legal state later →
      lockSteps records hold ≤ later.countP (SectionAction.isStep call) →
      (sectionSystem.exec state later).mode call = none) ∧
    ∃ calls : List Nat, sectionSystem.Legal state (calls.map .step) ∧
      (sectionSystem.exec state (calls.map .step)).lock.CanWrite) :=
  sections_progress (runtraceInit_granted (by decide) (by decide) (by decide) (by decide))
    (by decide) ⟨⟨rfl, rfl⟩, trivial, trivial⟩

end TrippingRobot.Runtrace
