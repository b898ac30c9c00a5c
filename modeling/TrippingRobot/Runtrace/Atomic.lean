import TrippingRobot.Machine.Simulation
import TrippingRobot.Runtrace.Sections

/-! The calls under the lock are atomic: every run of `Sections` in which no
call is lapped is followed by a run of `Printers`, where a tracepoint is stored
at once and a pool is copied at once. -/

namespace TrippingRobot.Runtrace

open TrippingRobot.Data TrippingRobot.Machine

/-- Nobody fetches a slot that another call has still to fill, and no print
takes the lock while its copy would change a slot that another has still to read. -/
def Orderly (state : Sections) : SectionAction → Prop
  | .make _ _ => True
  | .print _ _ _ _ _ => ∀ pool copy, state.facility.tpPool = some pool →
      state.facility.tpPoolCopy = some copy →
      ∀ other printer, state.stage other = .printing printer → printer.loop.stopped = false →
        ∀ step, step < (printer.lastTp - printer.loop.tpNum).toNat →
          let slot := slotOf state.facility.tpCntMask (printer.loop.tpNum + BitVec.ofNat 32 step)
          pool.cell slot = copy.cell slot
  | .step call => ∀ arguments, state.stage call = .fetching arguments →
      ∀ other others field, state.stage other ≠
        .writing others (slotOf state.facility.tpCntMask state.facility.nextTp) field

/-- The print that a call is, seen from outside: from the `WRLOCK` on. -/
def Section.printer? (facility : Facility) : Section → Option Printer
  | .counting args => some (facility.openPrinter args facility.nextTp)
  | .copying args lastTp _ _ => some (facility.openPrinter args lastTp)
  | .printing printer => some printer
  | .idle | .fetching _ | .writing _ _ _ | .leaving | .made => none

/-- What can be seen of the calls is the same above: the prints that left the
lock, and the facility whenever nobody is in the lock. -/
structure Sections.Shows (state : Sections) (above : Printers) : Prop where
  fault : above.fault = state.fault
  printer : ∀ call printer, state.stage call = .printing printer → above.printer call = some printer
  facility : (∀ call, state.mode call = none) → above.facility = state.facility

/-- What a call has still to do before its part of the state is the part above:
`whole` holds what the slots will hold, `shadow` what the copy will. -/
def Section.Settled (mask : CInt) (pool copy : Block Tracept) (whole shadow : Nat → Tracept) :
    Section → Prop
  | .writing arguments slot field =>
    whole slot = storeTracept (pool.cell slot) arguments.now arguments.line arguments.src
        arguments.msg ∧
      ∀ earlier : Field, earlier.rank < field.rank → earlier.Holds arguments (pool.cell slot)
  | .printing printer => printer.loop.stopped = false →
      ∀ step, step < (printer.lastTp - printer.loop.tpNum).toNat →
        let slot := slotOf mask (printer.loop.tpNum + BitVec.ofNat 32 step)
        shadow slot = copy.cell slot
  | _ => True

structure Follows (state : Sections) (above : Printers) (pool copy shadow : Block Tracept)
    (whole : Nat → Tracept) (exponent : Nat) : Prop where
  base : SectionsInvariant state pool copy exponent
  safe : Printers.Safe exponent above
  facility : above.facility = { state.facility with
    wrLocked := false
    tpPool := some { pool with cell := whole }
    tpPoolCopy := some shadow }
  printer : ∀ call, above.printer call = (state.stage call).printer? state.facility
  quiet : ∀ slot, (∀ call arguments field, state.stage call ≠ .writing arguments slot field) →
    whole slot = pool.cell slot
  single : ∀ call other arguments others slot field later,
    state.stage call = .writing arguments slot field →
    state.stage other = .writing others slot later → other = call
  settled : ∀ call, (state.stage call).Settled state.facility.tpCntMask pool copy whole shadow.cell
  free : state.facility.wrLocked = false → shadow = copy
  taken : state.facility.wrLocked = true → shadow.capacity = copy.capacity ∧
    (∀ index, index < recordsIn state.facility.tpPoolMemSize →
      shadow.cell index = pool.cell index) ∧
    ∀ index, recordsIn state.facility.tpPoolMemSize ≤ index → shadow.cell index = copy.cell index
  ring : RingHolds whole (2 ^ exponent) state.facility.nextTp.toNat Tracept.zero state.made
  seen : ∀ call printer, (state.stage call).printer? state.facility = some printer →
    state.taken call ≤ state.made.length ∧
      printer.seen = (List.replicate (2 ^ exponent) Tracept.zero ++
        state.made.take (state.taken call)).drop (state.taken call)

/-- Apart from the prints that hold the lock no call looks at the facility. -/
theorem Section.printer?_outside {stage : Section} (outside : stage.mode ≠ some .write)
    (facility other : Facility) : stage.printer? facility = stage.printer? other := by
  cases stage with
  | counting | copying => exact absurd rfl outside
  | _ => rfl

private theorem writing_update {stage : Nat → Section} {next : Section}
    (before : ∀ arguments slot field, stage call ≠ .writing arguments slot field)
    (after : ∀ arguments slot field, next ≠ .writing arguments slot field) (other : Nat)
    (arguments : WriterCall) (slot : Nat) (field : Field) :
    Function.update stage call next other = .writing arguments slot field ↔
      stage other = .writing arguments slot field := by
  by_cases same : other = call
  · subst same
    simp [before, after]
  · simp [same]

private theorem Follows.quiet_update {next : Section}
    (follows : Follows state above pool copy shadow whole exponent)
    (before : ∀ arguments slot field, state.stage call ≠ .writing arguments slot field)
    (after : ∀ arguments slot field, next ≠ .writing arguments slot field) (slot : Nat)
    (nobody : ∀ other arguments field,
      Function.update state.stage call next other ≠ .writing arguments slot field) :
    whole slot = pool.cell slot :=
  follows.quiet slot fun other arguments field writing =>
    nobody other arguments field ((writing_update before after _ _ _ _).mpr writing)

private theorem Follows.single_update {next : Section}
    (follows : Follows state above pool copy shadow whole exponent)
    (before : ∀ arguments slot field, state.stage call ≠ .writing arguments slot field)
    (after : ∀ arguments slot field, next ≠ .writing arguments slot field) (first second : Nat)
    (arguments others : WriterCall) (slot : Nat) (field later : Field)
    (writing : Function.update state.stage call next first = .writing arguments slot field)
    (also : Function.update state.stage call next second = .writing others slot later) :
    second = first :=
  follows.single first second arguments others slot field later
    ((writing_update before after _ _ _ _).mp writing) ((writing_update before after _ _ _ _).mp also)

private theorem settled_update {stage : Nat → Section} {next : Section} {mask : CInt}
    (here : next.Settled mask pool copy whole shadow)
    (others : ∀ other, other ≠ call → (stage other).Settled mask pool copy whole shadow) :
    ∀ other, (Function.update stage call next other).Settled mask pool copy whole shadow :=
  (Function.forall_update_iff stage fun _ place => place.Settled mask pool copy whole shadow).mpr
    ⟨here, others⟩

private theorem printer_update {state : Sections} {next : Section} {changed : Facility}
    (here : next.printer? changed = (state.stage call).printer? state.facility)
    (others : ∀ other, other ≠ call →
      (state.stage other).printer? changed = (state.stage other).printer? state.facility)
    (other : Nat) : (Function.update state.stage call next other).printer? changed =
      (state.stage other).printer? state.facility := by
  by_cases same : other = call
  · rw [same, Function.update_self, here]
  · rw [Function.update_of_ne same, others other same]

private theorem Follows.unseen {after : Sections} {next : Section}
    (follows : Follows state above pool copy shadow whole exponent)
    (base : SectionsInvariant after pool copy exponent)
    (stage : after.stage = Function.update state.stage call next)
    (same : after.facility = state.facility ∧ after.made = state.made ∧ after.taken = state.taken)
    (before : ∀ arguments slot field, state.stage call ≠ .writing arguments slot field)
    (here : next.printer? state.facility = (state.stage call).printer? state.facility)
    (nowhere : ∀ arguments slot field, next ≠ .writing arguments slot field)
    (settled : next.Settled state.facility.tpCntMask pool copy whole shadow.cell) :
    Follows after above pool copy shadow whole exponent := by
  obtain ⟨facility, made, taken⟩ := same
  have unseen := printer_update here fun _ _ => rfl
  exact
    { base := base
      safe := follows.safe
      facility := facility ▸ follows.facility
      printer := fun other => by rw [stage, facility, unseen, follows.printer]
      quiet := stage ▸ follows.quiet_update before nowhere
      single := stage ▸ follows.single_update before nowhere
      settled := by
        rw [stage, facility]
        exact settled_update settled fun other _ => follows.settled other
      free := facility ▸ follows.free
      taken := facility ▸ follows.taken
      ring := by
        rw [facility, made]
        exact follows.ring
      seen := by
        rw [stage, facility, made, taken]
        intro other printer found
        exact follows.seen other printer ((unseen other).symm.trans found) }

private theorem Follows.of_make (follows : Follows state above pool copy shadow whole exponent)
    (idle : state.stage call = .idle) (can : state.lock.CanRead) :
    Follows (state.next (.make call arguments)) above pool copy shadow whole exponent :=
  follows.unseen (follows.base.of_make idle can) rfl ⟨rfl, rfl, rfl⟩ (by simp [idle])
    (by rw [idle]; rfl) (by simp) trivial

private theorem Follows.of_leave (follows : Follows state above pool copy shadow whole exponent)
    (leaving : state.stage call = .leaving) :
    Follows (state.next (.step call)) above pool copy shadow whole exponent := by
  have base := follows.base.of_leave leaving
  simp only [Sections.next, leaving, Sections.advance] at base ⊢
  exact follows.unseen base rfl ⟨rfl, rfl, rfl⟩ (by simp [leaving]) (by rw [leaving]; rfl) (by simp)
    trivial

private theorem Follows.of_count (follows : Follows state above pool copy shadow whole exponent)
    (counting : state.stage call = .counting args) :
    Follows (state.next (.step call)) above pool copy shadow whole exponent := by
  have base := follows.base.of_count counting
  simp only [Sections.next, counting, Sections.advance] at base ⊢
  exact follows.unseen base rfl ⟨rfl, rfl, rfl⟩ (by simp [counting]) (by rw [counting]; rfl)
    (by simp) trivial

private theorem Follows.ready (follows : Follows state above pool copy shadow whole exponent) :
    Ready above.facility { pool with cell := whole } shadow exponent := by
  have capacity : shadow.capacity = copy.capacity := by
    cases locked : state.facility.wrLocked with
    | false => rw [follows.free locked]
    | true => exact (follows.taken locked).1
  have base := follows.base.ready
  rw [follows.facility]
  exact { base with
    poolIs := rfl
    copyIs := rfl
    copyRecords := capacity.trans base.copyRecords }

private theorem Follows.slotOf_eq (follows : Follows state above pool copy shadow whole exponent)
    (number : CInt) : slotOf state.facility.tpCntMask number = number.toNat % 2 ^ exponent :=
  follows.base.ready.slotOf_eq number

private theorem Follows.next_above (follows : Follows state above pool copy shadow whole exponent)
    (action : PrinterAction) :
    (printerSystem build answers).next above action = above.next build answers action := by
  obtain ⟨_, _, holds⟩ := follows.safe
  simp [printerSystem, holds.running]

private theorem Follows.printer?_reading
    (follows : Follows state above pool copy shadow whole exponent)
    (reading : state.mode call = some .read) (facility : Facility) (other : Nat) :
    (state.stage other).printer? facility = (state.stage other).printer? state.facility := by
  refine Section.printer?_outside ?_ _ _
  intro writing
  have same := follows.base.tracks.alone other call writing (by simp [reading])
  rw [← same] at writing
  exact absurd (reading.symm.trans writing) (by simp)

/-- The fetch is the moment at which a tracepoint is made. -/
private theorem Follows.of_fetch (follows : Follows state above pool copy shadow whole exponent)
    (fetching : state.stage call = .fetching arguments)
    (orderly : Orderly state (.step call)) :
    ∃ after, Follows (state.next (.step call)) ((printerSystem build answers).next above
      (.make arguments.now arguments.line arguments.src arguments.msg)) pool copy shadow after
      exponent := by
  let slot := slotOf state.facility.tpCntMask state.facility.nextTp
  let stored := storeTracept (pool.cell slot) arguments.now arguments.line arguments.src
    arguments.msg
  have reading : state.mode call = some .read := by simp [Sections.mode, fetching, Section.mode]
  have unlapped : ∀ other others field, state.stage other ≠ .writing others slot field :=
    orderly arguments fetching
  have quiet : whole slot = pool.cell slot := follows.quiet slot unlapped
  have inside : above.facility.nextTp.toNat % 2 ^ exponent <
      (⟨pool.capacity, whole⟩ : Block Tracept).capacity :=
    Nat.lt_of_lt_of_le (Nat.mod_lt _ (Nat.two_pow_pos exponent))
      (follows.base.ready.covered follows.base.covered).1
  have nextTp : above.facility.nextTp = state.facility.nextTp := by rw [follows.facility]
  have place : above.facility.nextTp.toNat % 2 ^ exponent = slot := by
    rw [nextTp, ← follows.slotOf_eq]
  have moved : (printerSystem build answers).next above
      (.make arguments.now arguments.line arguments.src arguments.msg) =
      { above with facility := { above.facility with
          tpPool := some { pool with cell := Function.update whole slot stored }
          nextTp := above.facility.nextTp + 1 } } := by
    rw [follows.next_above]
    simp only [Printers.next, makeTracept_ready follows.ready inside, recorded, place, quiet, stored]
  have safe : Printers.Safe exponent ((printerSystem build answers).next above
      (.make arguments.now arguments.line arguments.src arguments.msg)) :=
    follows.safe.step trivial
  have base := follows.base.of_fetch fetching
  rw [follows.base.fetch_next fetching] at base ⊢
  rw [moved] at safe ⊢
  have unseen (other : Nat) :
      (Function.update state.stage call (.writing arguments slot .time) other).printer?
          { state.facility with nextTp := state.facility.nextTp + 1 } =
        (state.stage other).printer? state.facility :=
    printer_update (by rw [fetching]; rfl)
      (fun other _ => follows.printer?_reading reading _ other) other
  have here (others : WriterCall) (place : Nat) (field : Field)
      (writing : Function.update state.stage call (.writing arguments slot .time) call =
        .writing others place field) : place = slot := by
    rw [Function.update_self] at writing
    cases writing
    rfl
  have elsewhere (other : Nat) (others : WriterCall) (place : Nat) (field : Field)
      (different : other ≠ call)
      (writing : Function.update state.stage call (.writing arguments slot .time) other =
        .writing others place field) :
      state.stage other = .writing others place field ∧ place ≠ slot := by
    rw [Function.update_of_ne different] at writing
    refine ⟨writing, ?_⟩
    rintro rfl
    exact unlapped other others field writing
  refine ⟨Function.update whole slot stored, base, safe, ?_, ?_, ?_, ?_, ?_, follows.free,
    follows.taken, ?_, ?_⟩
  · rw [follows.facility]
  · exact fun other => (follows.printer other).trans (unseen other).symm
  · intro place nobody
    have different : place ≠ slot := by
      rintro rfl
      exact nobody call arguments .time (Function.update_self ..)
    rw [Function.update_of_ne different]
    refine follows.quiet place fun other others field writing => ?_
    have distinct : other ≠ call := by
      rintro rfl
      rw [fetching] at writing
      cases writing
    exact nobody other others field ((Function.update_of_ne distinct ..).trans writing)
  · intro first second others further place field later writing also
    by_cases mine : first = call <;> by_cases same : second = call
    · rw [same, mine]
    · exact absurd (here others place field (mine ▸ writing)) (elsewhere second _ _ _ same also).2
    · exact absurd (here further place later (same ▸ also)) (elsewhere first _ _ _ mine writing).2
    · exact follows.single first second others further place field later
        (elsewhere first _ _ _ mine writing).1 (elsewhere second _ _ _ same also).1
  · refine settled_update ⟨Function.update_self .., fun _ below => by cases below⟩ ?_
    intro other different
    have settled := follows.settled other
    cases stage : state.stage other with
    | writing others place field =>
      have distinct : place ≠ slot := by
        rintro rfl
        exact unlapped other others field stage
      simp only [stage, Section.Settled] at settled ⊢
      rwa [Function.update_of_ne distinct]
    | printing printer => simpa only [stage, Section.Settled] using settled
    | _ => trivial
  · have next := follows.ring.write (Nat.two_pow_pos exponent) stored
    rw [← nextTp, place] at next
    refine next.congr ?_
    rw [nextTp, toNat_succ_mod _ follows.base.ready.fits]
  · intro other printer found
    obtain ⟨within, seen⟩ := follows.seen other printer ((unseen other).symm.trans found)
    change state.taken other ≤ (state.made ++ [stored]).length ∧ printer.seen =
      (_ ++ (state.made ++ [stored]).take (state.taken other)).drop (state.taken other)
    rw [List.take_append_of_le_length within, List.length_append]
    exact ⟨within.trans (Nat.le_add_right ..), seen⟩

private theorem storeTracept_store (field : Field) (call : WriterCall) (tp : Tracept) :
    storeTracept (field.store call tp) call.now call.line call.src call.msg =
      storeTracept tp call.now call.line call.src call.msg := by
  cases field <;> simp [storeTracept, Field.store, storeMsg_twice]

private theorem store_last {field : Field} {call : WriterCall} {tp : Tracept}
    (last : field.following = none)
    (fields : ∀ earlier : Field, earlier.rank < field.rank → earlier.Holds call tp) :
    field.store call tp = storeTracept tp call.now call.line call.src call.msg := by
  rw [← storeTracept_store field]
  apply storeTracept_fields
  intro earlier
  by_cases same : earlier = field
  · rw [same]
    exact field.holds_store call tp
  · exact Field.holds_store_other same _ _ _
      (fields earlier ((Field.rank_last last earlier).resolve_left same))

private theorem Follows.of_write (follows : Follows state above pool copy shadow whole exponent)
    (writing : state.stage call = .writing arguments slot field) :
    Follows (state.next (.step call)) above
      (written pool slot (field.store arguments (pool.cell slot))) copy shadow whole exponent := by
  have reading : state.mode call = some .read := by simp [Sections.mode, writing, Section.mode]
  have unlocked : state.facility.wrLocked = false := follows.base.tracks.no_writer reading
  obtain ⟨pending, stored⟩ : whole slot = _ ∧ _ := by
    simpa only [writing, Section.Settled] using follows.settled call
  have base := follows.base.of_write writing
  rw [follows.base.write_next writing] at base ⊢
  let next : Section := field.following.elim .leaving (.writing arguments slot)
  have hidden (facility : Facility) : next.printer? facility = none := by
    cases field <;> rfl
  have unseen (other : Nat) : (Function.update state.stage call next other).printer?
        { state.facility with
          tpPool := some (written pool slot (field.store arguments (pool.cell slot))) } =
      (state.stage other).printer? state.facility :=
    printer_update (by rw [hidden, writing]; rfl)
      (fun other _ => follows.printer?_reading reading _ other) other
  have distinct (other : Nat) (others : WriterCall) (place : Nat) (later : Field)
      (different : other ≠ call) (also : state.stage other = .writing others place later) :
      place ≠ slot := by
    rintro rfl
    exact different (follows.single call other _ _ _ _ _ writing also)
  have goes_on (others : WriterCall) (place : Nat) (later : Field)
      (also : next = .writing others place later) :
      field.following = some later ∧ others = arguments ∧ place = slot := by
    simp only [next] at also
    cases follow : field.following with
    | none =>
      rw [follow] at also
      cases also
    | some following =>
      rw [follow] at also
      cases also
      exact ⟨rfl, rfl, rfl⟩
  have already (other : Nat) (others : WriterCall) (place : Nat) (later : Field)
      (also : Function.update state.stage call next other = .writing others place later) :
      ∃ field, state.stage other = .writing others place field := by
    by_cases same : other = call
    · rw [same, Function.update_self] at also
      obtain ⟨_, rfl, rfl⟩ := goes_on others place later also
      exact ⟨field, same ▸ writing⟩
    · rw [Function.update_of_ne same] at also
      exact ⟨later, also⟩
  exact
    { base := base
      safe := follows.safe
      facility := follows.facility
      printer := fun other => (follows.printer other).trans (unseen other).symm
      quiet := by
        intro place nobody
        have others_quiet (other : Nat) (different : other ≠ call) (others : WriterCall)
            (later : Field) : state.stage other ≠ .writing others place later := fun also =>
          nobody other others later ((Function.update_of_ne different ..).trans also)
        by_cases here : place = slot
        · subst here
          have last : field.following = none := by
            by_contra more
            obtain ⟨later, follow⟩ := Option.ne_none_iff_exists'.mp more
            refine nobody call arguments later ((Function.update_self ..).trans ?_)
            rw [follow]
            rfl
          simp only [written, Function.update_self]
          rw [pending, store_last last stored]
        · simp only [written, Function.update_of_ne here]
          refine follows.quiet place fun other others later also => ?_
          by_cases same : other = call
          · rw [same, writing] at also
            cases also
            exact here rfl
          · exact others_quiet other same others later also
      single := by
        intro first second others further place later last also again
        obtain ⟨_, first_writing⟩ := already first others place later also
        obtain ⟨_, second_writing⟩ := already second further place last again
        exact follows.single first second _ _ _ _ _ first_writing second_writing
      settled := by
        refine settled_update ?_ ?_
        · change next.Settled _ _ _ _ _
          cases stage : next with
          | writing others place later =>
            obtain ⟨follow, rfl, rfl⟩ := goes_on others place later stage
            simp only [Section.Settled, written, Function.update_self, storeTracept_store]
            refine ⟨pending, ?_⟩
            intro earlier below
            by_cases same : earlier = field
            · rw [same]
              exact field.holds_store _ _
            · exact Field.holds_store_other same _ _ _
                (stored earlier (((Field.rank_following follow earlier).mp below).resolve_left same))
          | printing printer =>
            have nothing := hidden state.facility
            rw [stage] at nothing
            cases nothing
          | _ => trivial
        · intro other different
          have settled := follows.settled other
          cases stage : state.stage other with
          | writing others place later =>
            have apart := distinct other others place later different stage
            simp only [stage, Section.Settled] at settled ⊢
            simpa only [written, Function.update_of_ne apart] using settled
          | printing printer => simpa only [stage, Section.Settled] using settled
          | _ => trivial
      free := follows.free
      taken := fun locked => by
        rw [show state.facility.wrLocked = true from locked] at unlocked
        cases unlocked
      ring := follows.ring
      seen := fun other printer found =>
        follows.seen other printer ((unseen other).symm.trans found) }

/-- The copy of the whole pool at once. -/
private def copied (pool copy : Block Tracept) (records : Nat) : Block Tracept :=
  { copy with cell := fun index =>
      if index < records then pool.cell index else copy.cell index }

private theorem lockedCopy_copied (ready : Ready facility pool copy exponent) :
    lockedCopy facility = .ok (facility.nextTp, copied pool copy (recordsIn facility.tpPoolMemSize),
      { facility with
        tpPoolCopy := some (copied pool copy (recordsIn facility.tpPoolMemSize)) }) := by
  simp [lockedCopy, ready.unlocked, ready.poolIs, ready.copyIs, Block.copyFrom, ready.poolRecords,
    ready.copyRecords, copied]

/-- The ring as a print sees it holds what has been made last. -/
theorem ringSeen_made (ready : Ready facility pool copy exponent)
    (ring : RingHolds pool.cell (2 ^ exponent) facility.nextTp.toNat Tracept.zero made) :
    ringSeen facility =
      (List.replicate (2 ^ exponent) Tracept.zero ++ made).drop made.length := by
  have back := toNat_add_mod (facility.nextTp - facility.tpPoolSize) facility.tpPoolSize ready.fits
  rw [BitVec.sub_add_cancel, ready.poolSize, Nat.add_mod_right] at back
  have seen : RingHolds pool.cell (2 ^ exponent) (facility.nextTp - facility.tpPoolSize).toNat
      Tracept.zero made := ring.congr back
  simp only [ringSeen, ready.poolIs, ready.poolSize]
  exact seen

/-- A lock that can be taken for writing finds all slots filled and the copy at rest. -/
private theorem Follows.settle (follows : Follows state above pool copy shadow whole exponent)
    (can : state.lock.CanWrite) : whole = pool.cell ∧ shadow = copy := by
  refine ⟨?_, follows.free can.1⟩
  funext slot
  refine follows.quiet slot fun call arguments field writing => ?_
  have outside := follows.base.tracks.nobody can call
  simp [Sections.mode, writing, Section.mode] at outside

private theorem Follows.of_print (follows : Follows state above pool copy shadow whole exponent)
    (idle : state.stage call = .idle) (can : state.lock.CanWrite)
    (large : size.slt neededBufsize = false)
    (orderly : Orderly state (.print call flags dst size past)) :
    let action : PrinterAction := .copy call flags dst size past
    ((printerSystem build answers).enabled above action ∧ Undisturbed above action) ∧
      ∃ taken, Follows (state.next (.print call flags dst size past))
        ((printerSystem build answers).next above action) pool copy taken whole exponent := by
  intro action
  have nobody := follows.base.tracks.nobody can
  obtain ⟨rfl, rfl⟩ := follows.settle can
  have ready := follows.ready
  have nothing : above.printer call = none := by rw [follows.printer, idle]; rfl
  have printing (other : Nat) (printer : Printer) (found : above.printer other = some printer) :
      state.stage other = .printing printer := by
    rw [follows.printer] at found
    have outside := nobody other
    cases stage : state.stage other <;> simp_all [Section.printer?, Sections.mode, Section.mode]
  have unread (other : Nat) (printer : Printer) (stage : state.stage other = .printing printer)
      (running : printer.loop.stopped = false) (step : Nat)
      (inside : step < (printer.lastTp - printer.loop.tpNum).toNat) :
      pool.cell (slotOf state.facility.tpCntMask (printer.loop.tpNum + BitVec.ofNat 32 step)) =
        shadow.cell (slotOf state.facility.tpCntMask
          (printer.loop.tpNum + BitVec.ofNat 32 step)) :=
    orderly pool shadow follows.base.ready.poolIs follows.base.ready.copyIs other printer stage
      running step inside
  have undisturbed : Undisturbed above action := by
    intro found other isPool isCopy call printer _ member running step inside
    obtain rfl := Option.some.inj (ready.poolIs.symm.trans isPool)
    obtain rfl := Option.some.inj (ready.copyIs.symm.trans isCopy)
    have same := unread call printer (printing call printer member) running step inside
    have mask : above.facility.tpCntMask = state.facility.tpCntMask := by rw [follows.facility]
    simpa only [mask] using same
  let taken := copied pool shadow (recordsIn state.facility.tpPoolMemSize)
  let printer := state.facility.openPrinter
    ⟨flags, dst, size, state.facility.tpCntMask, past⟩ state.facility.nextTp
  have moved : (printerSystem build answers).next above action =
      { above with
        facility := { above.facility with tpPoolCopy := some taken }
        printer := Function.update above.printer call (some printer) } := by
    rw [follows.next_above]
    simp only [Printers.next, action, lockedCopy_copied ready]
    rw [follows.facility]
    have pooled : state.facility.tpPool = some pool := follows.base.ready.poolIs
    simp [printer, taken, Facility.openPrinter, ringSeen, pooled, startTpNum]
  have safe : Printers.Safe exponent ((printerSystem build answers).next above action) :=
    follows.safe.step undisturbed
  rw [moved] at safe ⊢
  have base : SectionsInvariant (state.next (.print call flags dst size past)) pool shadow
      exponent := follows.base.of_print can
  have filled := ringSeen_made follows.base.ready follows.ring
  refine ⟨⟨⟨nothing, large⟩, undisturbed⟩, taken, base, safe, ?_, ?_, ?_, ?_, ?_, ?_, ?_, ?_, ?_⟩
  · rw [follows.facility]
    rfl
  · intro other
    change Function.update above.printer call (some printer) other =
      (Function.update state.stage call (.counting _) other).printer? _
    by_cases same : other = call
    · rw [same, Function.update_self, Function.update_self]
      rfl
    · rw [Function.update_of_ne same, Function.update_of_ne same, follows.printer]
      rfl
  · exact follows.quiet_update (by simp [idle]) (by simp)
  · exact follows.single_update (by simp [idle]) (by simp)
  · refine settled_update trivial ?_
    intro other _
    cases stage : state.stage other with
    | writing arguments slot field =>
      have outside := nobody other
      simp [Sections.mode, stage, Section.mode] at outside
    | printing printer =>
      intro running step inside
      have same := unread other printer stage running step inside
      simp only [taken, copied]
      split
      · exact same
      · rfl
    | _ => trivial
  · intro locked
    cases locked
  · intro _
    refine ⟨rfl, ?_, ?_⟩
    · intro index inside
      exact if_pos inside
    · intro index outside
      exact if_neg (Nat.not_lt.mpr outside)
  · exact follows.ring
  · intro other printer found
    change Section.printer? _ (Function.update state.stage call (.counting _) other) = _ at found
    change Function.update state.taken call state.made.length other ≤ state.made.length ∧
      printer.seen = (_ ++ state.made.take (Function.update state.taken call _ other)).drop
        (Function.update state.taken call state.made.length other)
    by_cases same : other = call
    · rw [same, Function.update_self] at found ⊢
      cases found
      refine ⟨Nat.le_refl _, ?_⟩
      rw [List.take_length]
      exact filled
    · rw [Function.update_of_ne same] at found ⊢
      exact follows.seen other printer found

private theorem Follows.of_copy (follows : Follows state above pool copy shadow whole exponent)
    (copying : state.stage call = .copying args lastTp slot field)
    (more : slot < recordsIn state.facility.tpPoolMemSize) :
    Follows (state.next (.step call)) above pool
      (written copy slot (field.copy (pool.cell slot) (copy.cell slot))) shadow whole exponent := by
  have locked : state.facility.wrLocked = true :=
    follows.base.tracks.writer.mpr ⟨call, by simp [Sections.mode, copying, Section.mode]⟩
  obtain ⟨capacity, inside, outside⟩ := follows.taken locked
  have base := follows.base.of_copy copying more
  rw [follows.base.copy_next copying more] at base ⊢
  let next : Section := field.following.elim (.copying args lastTp (slot + 1) .time)
    (.copying args lastTp slot)
  have nowhere (arguments : WriterCall) (place : Nat) (later : Field) :
      next ≠ .writing arguments place later := by
    simp only [next]
    cases field.following <;> simp
  have unseen (other : Nat) : (Function.update state.stage call next other).printer?
        { state.facility with
          tpPoolCopy := some (written copy slot (field.copy (pool.cell slot) (copy.cell slot))) } =
      (state.stage other).printer? state.facility := by
    refine printer_update ?_ (fun other _ => rfl) other
    rw [copying]
    simp only [next]
    cases field.following <;> rfl
  exact
    { base := base
      safe := follows.safe
      facility := follows.facility
      printer := fun other => (follows.printer other).trans (unseen other).symm
      quiet := follows.quiet_update (by simp [copying]) nowhere
      single := follows.single_update (by simp [copying]) nowhere
      settled := by
        refine settled_update ?_ ?_
        · change next.Settled _ _ _ _ _
          simp only [next]
          cases field.following <;> trivial
        · intro other _
          have settled := follows.settled other
          cases stage : state.stage other with
          | writing arguments place later => simpa only [stage, Section.Settled] using settled
          | printing printer =>
            simp only [stage, Section.Settled] at settled ⊢
            intro running step remains
            have same := settled running step remains
            by_cases here : slotOf state.facility.tpCntMask
                (printer.loop.tpNum + BitVec.ofNat 32 step) = slot
            · rw [here] at same ⊢
              simp only [written, Function.update_self]
              rw [← same, inside slot more, Field.copy_self]
            · simp only [written, Function.update_of_ne here]
              exact same
          | _ => trivial
      free := fun unlocked => by
        rw [show state.facility.wrLocked = false from unlocked] at locked
        cases locked
      taken := fun _ => by
        refine ⟨capacity, inside, ?_⟩
        intro index beyond
        have apart : index ≠ slot := (Nat.lt_of_lt_of_le more beyond).ne'
        simp only [written, Function.update_of_ne apart]
        exact outside index beyond
      ring := follows.ring
      seen := fun other printer found =>
        follows.seen other printer ((unseen other).symm.trans found) }

private theorem Follows.of_release (follows : Follows state above pool copy shadow whole exponent)
    (copying : state.stage call = .copying args lastTp slot field)
    (last : recordsIn state.facility.tpPoolMemSize ≤ slot) :
    Follows (state.next (.step call)) above pool copy shadow whole exponent := by
  have locked : state.facility.wrLocked = true :=
    follows.base.tracks.writer.mpr ⟨call, by simp [Sections.mode, copying, Section.mode]⟩
  obtain ⟨capacity, inside, outside⟩ := follows.taken locked
  have place := follows.base.sound call
  simp only [copying, Section.Sound] at place
  obtain ⟨_, _, before, _⟩ := place
  have whole_copy : shadow = copy := by
    have cells : shadow.cell = copy.cell := by
      funext index
      by_cases within : index < recordsIn state.facility.tpPoolMemSize
      · rw [inside index within, before index (Nat.lt_of_lt_of_le within last)]
      · exact outside index (Nat.not_lt.mp within)
    obtain ⟨size, cell⟩ := shadow
    obtain ⟨others, cells'⟩ := copy
    obtain rfl : size = others := capacity
    obtain rfl : cell = cells' := cells
    rfl
  subst whole_copy
  have base := follows.base.of_release copying last
  rw [Sections.release_next copying last] at base ⊢
  have unseen (other : Nat) : (Function.update state.stage call
        (.printing (state.facility.openPrinter args lastTp)) other).printer?
        { state.facility with wrLocked := false } =
      (state.stage other).printer? state.facility :=
    printer_update (by rw [copying]; rfl) (fun _ _ => rfl) other
  exact
    { base := base
      safe := follows.safe
      facility := follows.facility
      printer := fun other => (follows.printer other).trans (unseen other).symm
      quiet := follows.quiet_update (by simp [copying]) (by simp)
      single := follows.single_update (by simp [copying]) (by simp)
      settled := settled_update (fun _ _ _ => rfl) fun other _ => follows.settled other
      free := fun _ => rfl
      taken := fun still => by cases still
      ring := follows.ring
      seen := fun other printer found =>
        follows.seen other printer ((unseen other).symm.trans found) }

private theorem Follows.of_read {printer : Printer}
    (follows : Follows state above pool copy shadow whole exponent)
    (printing : state.stage call = .printing printer) (running : printer.loop.stopped = false)
    (apart : printer.loop.tpNum ≠ printer.lastTp) :
    Follows (state.next (.step call)) ((printerSystem build answers).next above (.read call))
      pool copy shadow whole exponent := by
  have place := follows.base.sound call
  simp only [printing, Section.Sound] at place
  obtain ⟨slot, _⟩ := place running
  have settled := follows.settled call
  simp only [printing, Section.Settled] at settled
  have left := toNat_sub_succ apart
  have same : shadow.cell printer.loop.tp = copy.cell printer.loop.tp := by
    have first := settled running 0 (by omega)
    simpa only [BitVec.ofNat_eq_ofNat, BitVec.add_zero, follows.slotOf_eq, ← slot] using first
  have inside : printer.loop.tp < shadow.capacity := by
    rw [slot]
    exact Nat.lt_of_lt_of_le (Nat.mod_lt _ (Nat.two_pow_pos exponent))
      (follows.ready.covered (by rw [follows.facility]; exact follows.base.covered)).2
  let after : Printer :=
    { printer with loop := printIteration printer.args printer.loop (copy.cell printer.loop.tp) }
  have member : above.printer call = some printer := by rw [follows.printer, printing]; rfl
  have moved : (printerSystem build answers).next above (.read call) =
      { above with printer := Function.update above.printer call (some after) } := by
    rw [follows.next_above]
    simp [Printers.next, member, follows.ready.copyIs, apart, running, inside, same, after]
  have safe : Printers.Safe exponent ((printerSystem build answers).next above (.read call)) :=
    follows.safe.step trivial
  have base := follows.base.of_read printing running apart
  rw [follows.base.read_next printing running apart] at base ⊢
  rw [moved] at safe ⊢
  exact
    { base := base
      safe := safe
      facility := follows.facility
      printer := by
        intro other
        change Function.update above.printer call (some after) other =
          (Function.update state.stage call (.printing after) other).printer? state.facility
        by_cases here : other = call
        · rw [here, Function.update_self, Function.update_self]
          rfl
        · rw [Function.update_of_ne here, Function.update_of_ne here, follows.printer]
      quiet := follows.quiet_update (by simp [printing]) (by simp)
      single := follows.single_update (by simp [printing]) (by simp)
      settled := by
        refine settled_update ?_ fun other _ => follows.settled other
        intro going step remains
        rcases printIteration_cases printer.args printer.loop (copy.cell printer.loop.tp) running with
          stop | ⟨_, number, _⟩
        · rw [stop] at going
          cases going
        · simp only [number] at remains ⊢
          have later := settled running (step + 1) (by omega)
          rwa [BitVec.ofNat_add, BitVec.add_comm (BitVec.ofNat 32 step), ← BitVec.add_assoc]
            at later
      free := follows.free
      taken := follows.taken
      ring := follows.ring
      seen := by
        intro other found isFound
        change (Function.update state.stage call (.printing after) other).printer? _ = _ at isFound
        by_cases here : other = call
        · rw [here, Function.update_self] at isFound
          cases isFound
          rw [here]
          exact follows.seen call printer (by rw [printing]; rfl)
        · rw [Function.update_of_ne here] at isFound
          exact follows.seen other found isFound }

/-- The relation with the blocks left open. -/
def Sections.Followed (exponent : Nat) (state : Sections) (above : Printers) : Prop :=
  ∃ pool copy shadow whole, Follows state above pool copy shadow whole exponent

/-- Each step below is one permitted step above or none. -/
theorem Sections.Followed.step (followed : Sections.Followed exponent state above)
    (enabled : sectionSystem.enabled state action) (orderly : Orderly state action) :
    Sections.Followed exponent (sectionSystem.next state action) above ∨
      ∃ command, ((printerSystem build answers).enabled above command ∧
          Undisturbed above command) ∧
        Sections.Followed exponent (sectionSystem.next state action)
          ((printerSystem build answers).next above command) := by
  obtain ⟨pool, copy, shadow, whole, follows⟩ := followed
  have running : state.fault.isSome = false := by simp [follows.base.running]
  simp only [sectionSystem, running, Bool.false_eq_true, ↓reduceIte]
  cases action with
  | make call arguments => exact .inl ⟨_, _, _, _, follows.of_make enabled.1 enabled.2⟩
  | print call flags dst size past =>
    obtain ⟨permitted, _, moved⟩ := follows.of_print enabled.1 enabled.2.1 enabled.2.2 orderly
    exact .inr ⟨_, permitted, _, _, _, _, moved⟩
  | step call =>
    cases stage : state.stage call with
    | idle | made =>
      exact .inl ⟨_, _, _, _, by simpa [Sections.next, stage, Sections.advance] using follows⟩
    | fetching arguments =>
      obtain ⟨_, moved⟩ := follows.of_fetch stage orderly
      exact .inr ⟨.make _ _ _ _, ⟨trivial, trivial⟩, _, _, _, _, moved⟩
    | writing arguments slot field => exact .inl ⟨_, _, _, _, follows.of_write stage⟩
    | leaving => exact .inl ⟨_, _, _, _, follows.of_leave stage⟩
    | counting args => exact .inl ⟨_, _, _, _, follows.of_count stage⟩
    | copying args lastTp slot field =>
      by_cases more : slot < recordsIn state.facility.tpPoolMemSize
      · exact .inl ⟨_, _, _, _, follows.of_copy stage more⟩
      · exact .inl ⟨_, _, _, _, follows.of_release stage (Nat.not_lt.mp more)⟩
    | printing printer =>
      by_cases ended : printer.loop.tpNum = printer.lastTp ∨ printer.loop.stopped = true
      · exact .inl ⟨_, _, _, _, by rwa [Sections.printed_next stage ended]⟩
      · obtain ⟨apart, running⟩ := not_or.mp ended
        exact .inr ⟨.read call, ⟨trivial, trivial⟩, _, _, _, _,
          follows.of_read stage (by simpa using running) apart⟩

theorem Follows.start {facility : Facility} (ready : Ready facility pool copy exponent)
    (covered : poolCovered facility.tpPoolSize) (blank : pool.cell = fun _ => Tracept.zero) :
    Follows (Sections.start facility) (Printers.start facility) pool copy copy pool.cell
      exponent where
  base := .start ready covered
  safe := ⟨pool, copy, rfl, ready, covered, by simp [Printers.start]⟩
  facility := by
    simp [Sections.start, Printers.start, ← ready.unlocked, ← ready.poolIs, ← ready.copyIs]
  printer _ := rfl
  quiet _ _ := rfl
  single call other arguments others slot field later writing := by cases writing
  settled _ := trivial
  free _ := rfl
  taken locked := absurd (ready.unlocked.symm.trans locked) (by simp)
  ring := by
    rw [blank]
    exact RingHolds.blank _ _ _
  seen call printer found := by cases found

/-- What is seen of the calls is what the atomic calls show. -/
theorem Follows.shows (follows : Follows state above pool copy shadow whole exponent) :
    state.Shows above where
  fault := by
    obtain ⟨_, _, holds⟩ := follows.safe
    rw [holds.running, follows.base.running]
  printer call printer printing := by rw [follows.printer, printing]; rfl
  facility nobody := by
    have can := follows.base.tracks.canWrite nobody
    obtain ⟨rfl, rfl⟩ := follows.settle can
    have pooled : state.facility.tpPool = some pool := follows.base.ready.poolIs
    have copied : state.facility.tpPoolCopy = some shadow := follows.base.ready.copyIs
    have unlocked : state.facility.wrLocked = false := can.1
    rw [follows.facility, ← unlocked, ← pooled, ← copied]

/-- The states that undisturbed atomic calls reach. -/
def ByAtomicCalls (build : Build) (answers : Answers) (facility : Facility) (above : Printers) :
    Prop :=
  (printerSystem build answers).Leads
    (fun state action => (printerSystem build answers).enabled state action ∧
      Undisturbed state action) (Printers.start facility) above

private theorem sections_followed (build : Build) (answers : Answers)
    (ready : Ready facility pool copy exponent)
    (covered : poolCovered facility.tpPoolSize) (blank : pool.cell = fun _ => Tracept.zero)
    (legal : sectionSystem.Legal (Sections.start facility) actions)
    (orderly : sectionSystem.Guarded Orderly (Sections.start facility) actions) :
    sectionSystem.Always (fun state => ∃ above, Sections.Followed exponent state above ∧
      ByAtomicCalls build answers facility above) (Sections.start facility) actions := by
  have initial : Sections.Followed exponent (Sections.start facility) (Printers.start facility) :=
    ⟨_, _, _, _, .start ready covered blank⟩
  exact System.always_of_simulation initial
    (fun _ _ _ followed condition => followed.step condition.1 condition.2) (legal.and orderly)

/-- Calls under the lock are atomic: what any interleaving of them shows, in
which no call is lapped, is what some sequence of whole `make_tracept` calls and
whole copies shows. -/
theorem sections_atomic
    (returned : runtraceInit build answers threads Facility.start = .ok (0, facility))
    (covered : poolCovered facility.tpPoolSize)
    (legal : sectionSystem.Legal (Sections.start facility) actions)
    (orderly : sectionSystem.Guarded Orderly (Sections.start facility) actions) :
    sectionSystem.Always
      (fun state => ∃ above, state.Shows above ∧ ByAtomicCalls build answers facility above)
      (Sections.start facility) actions := by
  obtain ⟨_, _, ready⟩ := Ready.of_init returned rfl
  refine (sections_followed build answers ready covered rfl legal orderly).mono ?_
  rintro state ⟨above, ⟨_, _, _, _, follows⟩, calls⟩
  exact ⟨above, follows.shows, calls⟩

/-- Two calls on different slots at once, and a print that waits for them. -/
theorem sections_atomic_three :
    sectionSystem.Always
      (fun state => ∃ above, state.Shows above ∧
        ByAtomicCalls .cxx11 (.granting 4) (.granted .cxx11 1 4) above)
      (Sections.start (.granted .cxx11 1 4))
      ([.make 0 ⟨⟨1, 2⟩, 3, some ⟨[98], by decide⟩, none⟩,
          .make 1 ⟨⟨1, 5⟩, 4, some ⟨[98], by decide⟩, none⟩, .step 0, .step 1] ++
        List.replicate 5 (.step 1) ++ List.replicate 5 (.step 0) ++
        [.print 2 0 false 260 fun _ => [], .step 2]) := by
  refine sections_atomic
    (runtraceInit_granted (by decide) (by decide) (by decide) (by decide)) (by decide) ?_ ?_
  · refine ⟨⟨rfl, rfl⟩, ⟨rfl, rfl⟩, ?_⟩
    iterate 12 refine ⟨trivial, ?_⟩
    exact ⟨⟨rfl, ⟨rfl, rfl⟩, rfl⟩, trivial, trivial⟩
  · refine ⟨trivial, trivial, ?_, ?_, ?_⟩
    · rintro arguments - (_ | _ | other) others field ⟨⟩
    · rintro arguments - (_ | _ | other) others field writing
      · exact absurd (Section.writing.inj writing).2.1 (by decide)
      · cases writing
      · cases writing
    · iterate 10 refine ⟨by rintro arguments ⟨⟩, ?_⟩
      refine ⟨?_, by rintro arguments ⟨⟩, trivial⟩
      rintro pool copy - - (_ | _ | other) printer ⟨⟩

/-- A print that ran to its end, its buffer never full, printed the records of
the last calls that fetched a slot before it took the lock: whole, each once, in
the order of their fetches. -/
structure SectionsLaw (state : Sections) : Prop where
  running : state.fault = none
  printed : ∀ call printer, state.stage call = .printing printer →
    printer.loop.stopped = false → printer.loop.tpNum = printer.lastTp →
    state.taken call ≤ state.made.length ∧
      (printer.loop.out.filterMap Line.record?).map Prod.snd =
        (recent state.facility.tpPoolSize.toNat (state.made.take (state.taken call))).filter
          fun tp => tp.src.isSome

private theorem filter_seen (size : Nat) (history : List Tracept) :
    ((List.replicate size Tracept.zero ++ history).drop history.length).filter
        (fun tp => tp.src.isSome) =
      (recent size history).filter fun tp => tp.src.isSome := by
  have blank (count : Nat) :
      (List.replicate count Tracept.zero).filter (fun tp => tp.src.isSome) = [] := by
    simp [Tracept.zero]
  rw [List.drop_append, List.drop_replicate, List.filter_append, blank, List.length_replicate]
  rfl

theorem Follows.law (follows : Follows state above pool copy shadow whole exponent) :
    SectionsLaw state where
  running := follows.base.running
  printed call printer printing running arrived := by
    obtain ⟨_, _, safe⟩ := follows.safe
    have member : above.printer call = some printer := by rw [follows.printer, printing]; rfl
    obtain ⟨_, sound⟩ := safe.sound call printer member
    obtain ⟨within, seen⟩ := follows.seen call printer (by rw [printing]; rfl)
    have size : state.facility.tpPoolSize.toNat = 2 ^ exponent := follows.base.ready.poolSize
    have taken : (state.made.take (state.taken call)).length = state.taken call := by
      rw [List.length_take, Nat.min_eq_left within]
    refine ⟨within, ?_⟩
    have blanks := filter_seen (2 ^ exponent) (state.made.take (state.taken call))
    rw [taken] at blanks
    rw [sound.printed safe.ready running arrived, seen, size, blanks]

end TrippingRobot.Runtrace
