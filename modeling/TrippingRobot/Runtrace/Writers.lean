import TrippingRobot.Machine.Run
import TrippingRobot.Runtrace.Setup

/-! `make_tracept` calls in parallel, one step for each access to shared data.
All of them hold the same read lock, so nothing orders their field writes. -/

namespace TrippingRobot.Runtrace

open TrippingRobot.Data TrippingRobot.Machine

/-- The fields of a tracepoint, in the order they are written. -/
inductive Field where
  | time
  | line
  | src
  | msg
deriving DecidableEq

def Field.rank : Field → Nat
  | .time => 0
  | .line => 1
  | .src => 2
  | .msg => 3

structure WriterCall where
  now : Timeval
  line : CInt
  src : Option CString
  msg : Option CString

/-- Inside the lock a call first fetches its slot and then writes field by field. -/
inductive WriterStage where
  | idle
  | locked
  | writing (slot : Nat) (field : Field)
  | unlocking
  | done
deriving DecidableEq

/-- Whether a call is inside the read-locked section. -/
def WriterStage.inside : WriterStage → Bool
  | .idle | .done => false
  | _ => true

/-- Whether a call has written a field of its slot. -/
def WriterStage.wrote (field : Field) : WriterStage → Bool
  | .idle | .locked => false
  | .writing _ next => field.rank < next.rank
  | .unlocking | .done => true

def Field.store (call : WriterCall) (tp : Tracept) : Field → Tracept
  | .time => { tp with time := call.now }
  | .line => { tp with line := call.line }
  | .src => { tp with src := call.src }
  | .msg => { tp with msg := storeMsg tp.msg call.msg }

def Field.after (slot : Nat) : Field → WriterStage
  | .time => .writing slot .line
  | .line => .writing slot .src
  | .src => .writing slot .msg
  | .msg => .unlocking

/-- `latest` names, for each slot, the call that fetched the newest counter value for it. -/
structure Writers where
  facility : Facility
  stage : Nat → WriterStage
  call : Nat → WriterCall
  latest : Nat → Option Nat
  fault : Option Fault

def Writers.start (facility : Facility) : Writers where
  facility := facility
  stage := fun _ => .idle
  call := fun _ => ⟨⟨0, 0⟩, 0, none, none⟩
  latest := fun _ => none
  fault := none

inductive WriterAction where
  | lock (writer : Nat) (call : WriterCall)
  | fetch (writer : Nat)
  | write (writer : Nat)
  | unlock (writer : Nat)

def Writers.setStage (state : Writers) (writer : Nat) (stage : WriterStage) : Writers :=
  { state with stage := Function.update state.stage writer stage }

/-- One step of one call; an action that is not the call's next one does nothing. -/
def Writers.next (state : Writers) : WriterAction → Writers
  | .lock writer call =>
    { state.setStage writer .locked with call := Function.update state.call writer call }
  | .fetch writer =>
    match state.stage writer with
    | .locked =>
      let slot := slotOf state.facility.tpCntMask state.facility.nextTp
      { state.setStage writer (.writing slot .time) with
        facility := { state.facility with nextTp := state.facility.nextTp + 1 }
        latest := Function.update state.latest slot (some writer) }
    | _ => state
  | .write writer =>
    match state.stage writer, state.facility.tpPool with
    | .writing slot field, some pool =>
      match pool.write slot (field.store (state.call writer) (pool.cell slot)) with
      | none => { state with fault := some .outOfBounds }
      | some written =>
        { state.setStage writer (field.after slot) with
          facility := { state.facility with tpPool := some written } }
    | _, _ => state
  | .unlock writer =>
    match state.stage writer with
    | .unlocking => state.setStage writer .done
    | _ => state

/-- A writer makes one call; no printer holds the lock. -/
def writerSystem : System Writers WriterAction where
  enabled state
    | .lock writer _ => state.stage writer = .idle ∧ state.facility.wrLocked = false
    | _ => True
  next state action := if state.fault.isSome then state else state.next action

instance : ∀ state action, Decidable (writerSystem.enabled state action)
  | state, .lock writer _ =>
    inferInstanceAs (Decidable (state.stage writer = .idle ∧ state.facility.wrLocked = false))
  | _, .fetch _ | _, .write _ | _, .unlock _ => isTrue trivial

/-- Whenever nobody is inside the lock, a slot holds what its latest call stores. -/
structure WritersLaw (state : Writers) : Prop where
  running : state.fault = none
  whole : (∀ writer, (state.stage writer).inside = false) →
    ∀ pool, state.facility.tpPool = some pool →
    ∀ slot writer, state.latest slot = some writer →
      let call := state.call writer
      pool.cell slot = storeTracept (pool.cell slot) call.now call.line call.src call.msg

/-- A call that is no longer the latest of its slot writes no field which the
latest one has written already. -/
def Overtaken (state : Writers) : WriterAction → Prop
  | .write writer => ∀ slot field latest, state.stage writer = .writing slot field →
      state.latest slot = some latest → latest ≠ writer →
      (state.stage latest).wrote field = false
  | _ => True

instance (state : Writers) : ∀ action, Decidable (Overtaken state action)
  | .lock _ _ | .fetch _ | .unlock _ => isTrue trivial
  | .write writer =>
    match at_stage : state.stage writer with
    | .writing slot field =>
      match newest : state.latest slot with
      | some latest =>
        decidable_of_iff (latest ≠ writer → (state.stage latest).wrote field = false)
          ⟨by
            rintro behind _ _ _ same found
            cases at_stage.symm.trans same
            cases newest.symm.trans found
            exact behind, fun overtaken => overtaken slot field latest at_stage newest⟩
      | none => isTrue fun _ _ _ same found => by
          cases at_stage.symm.trans same
          cases newest.symm.trans found
    | .idle | .locked | .unlocking | .done => isTrue fun _ _ _ same => by
        cases at_stage.symm.trans same

/-- A field of a record is what a call stores there. -/
def Field.Holds (call : WriterCall) (tp : Tracept) (field : Field) : Prop := field.store call tp = tp

structure WritersInvariant (state : Writers) (pool copy : Block Tracept) (exponent : Nat) :
    Prop where
  running : state.fault = none
  ready : Ready state.facility pool copy exponent
  covered : poolCovered state.facility.tpPoolSize
  slots : ∀ writer slot field, state.stage writer = .writing slot field → slot < 2 ^ exponent
  owns : ∀ writer slot field, state.latest slot = some writer →
    ∀ other, state.stage writer = .writing other field → other = slot
  began : ∀ writer slot, state.latest slot = some writer →
    state.stage writer ≠ .idle ∧ state.stage writer ≠ .locked
  kept : ∀ writer slot field, state.latest slot = some writer →
    (state.stage writer).wrote field = true → field.Holds (state.call writer) (pool.cell slot)

theorem storeMsg_twice (old : MsgField) (msg : Option CString) :
    storeMsg (storeMsg old msg) msg = storeMsg old msg := by
  cases msg with
  | none => simp [storeMsg]
  | some text => rfl

theorem Field.holds_store (field : Field) (call : WriterCall) (tp : Tracept) :
    field.Holds call (field.store call tp) := by
  cases field <;> simp [Field.Holds, Field.store, storeMsg_twice]

theorem Field.holds_store_other {field other : Field} (different : other ≠ field)
    (call stored : WriterCall) (tp : Tracept) (holds : other.Holds call tp) :
    other.Holds call (field.store stored tp) := by
  cases field <;> cases other <;>
    simp_all [Field.Holds, Field.store, Tracept.ext_iff]

theorem storeTracept_fields (call : WriterCall) (tp : Tracept)
    (fields : ∀ field, Field.Holds call tp field) :
    tp = storeTracept tp call.now call.line call.src call.msg := by
  have time := congrArg Tracept.time (fields .time)
  have line := congrArg Tracept.line (fields .line)
  have src := congrArg Tracept.src (fields .src)
  have msg := congrArg Tracept.msg (fields .msg)
  exact Tracept.ext time.symm line.symm src.symm msg.symm

theorem writer_alone {state : Writers} (running : state.fault = none)
    (ready : Ready state.facility pool copy exponent)
    (inside : state.facility.nextTp.toNat % 2 ^ exponent < pool.capacity) (writer : Nat)
    (call : WriterCall) :
    makeTracept build answers call.now call.line call.src call.msg state.facility =
      .ok (writerSystem.exec state [.lock writer call, .fetch writer, .write writer, .write writer,
        .write writer, .write writer, .unlock writer]).facility := by
  rw [makeTracept_ready ready inside]
  have step : ∀ action (before : Writers), before.fault = none →
      writerSystem.next before action = before.next action := by
    intro action before unhurt
    simp [writerSystem, unhurt]
  simp [System.exec, step, running, Writers.next, Writers.setStage, ready.poolIs, ready.slotOf_eq,
    inside, Field.after, Field.store, recorded, storeTracept]

private theorem wrote_after {field other : Field} (slot : Nat) :
    (field.after slot).wrote other = true ↔
      other = field ∨ (WriterStage.writing slot field).wrote other = true := by
  cases field <;> cases other <;> simp [Field.after, WriterStage.wrote, Field.rank]

private theorem WritersInvariant.of_lock (holds : WritersInvariant state pool copy exponent)
    (idle : state.stage writer = .idle) :
    WritersInvariant (state.next (.lock writer call)) pool copy exponent := by
  have fresh (other slot : Nat) (newest : state.latest slot = some other) : other ≠ writer := by
    rintro rfl
    exact (holds.began other slot newest).1 idle
  refine ⟨holds.running, holds.ready, holds.covered, ?_, ?_, ?_, ?_⟩
  · intro other slot field writing
    by_cases same : other = writer
    · simp [Writers.next, Writers.setStage, same] at writing
    · exact holds.slots other slot field (by simpa [Writers.next, Writers.setStage, same] using writing)
  · intro other slot field newest place writing
    exact holds.owns other slot field newest place
      (by simpa [Writers.next, Writers.setStage, fresh other slot newest] using writing)
  · intro other slot newest
    simpa [Writers.next, Writers.setStage, fresh other slot newest] using holds.began other slot newest
  · intro other slot field newest wrote
    simp only [Writers.next, Writers.setStage, Function.update_of_ne (fresh other slot newest)]
      at wrote ⊢
    exact holds.kept other slot field newest wrote

private theorem WritersInvariant.of_fetch (holds : WritersInvariant state pool copy exponent) :
    WritersInvariant (state.next (.fetch writer)) pool copy exponent := by
  simp only [Writers.next]
  split
  · rename_i locked
    have fresh (other slot : Nat) (newest : state.latest slot = some other) : other ≠ writer := by
      rintro rfl
      exact (holds.began other slot newest).2 locked
    have slot_lt : slotOf state.facility.tpCntMask state.facility.nextTp < 2 ^ exponent := by
      rw [holds.ready.slotOf_eq]
      exact Nat.mod_lt _ (Nat.two_pow_pos exponent)
    refine ⟨holds.running, { holds.ready with }, holds.covered, ?_, ?_, ?_, ?_⟩
    · intro other slot field writing
      by_cases same : other = writer
      · simp only [Writers.setStage, same, Function.update_self, WriterStage.writing.injEq] at writing
        exact writing.1 ▸ slot_lt
      · simp only [Writers.setStage, Function.update_of_ne same] at writing
        exact holds.slots other slot field writing
    · intro other slot field newest place writing
      by_cases here : slot = slotOf state.facility.tpCntMask state.facility.nextTp
      · simp only [here, Function.update_self, Option.some.injEq] at newest
        simp only [Writers.setStage, ← newest, Function.update_self, WriterStage.writing.injEq]
          at writing
        exact writing.1.symm.trans here.symm
      · simp only [Function.update_of_ne here] at newest
        simp only [Writers.setStage, Function.update_of_ne (fresh other slot newest)] at writing
        exact holds.owns other slot field newest place writing
    · intro other slot newest
      by_cases here : slot = slotOf state.facility.tpCntMask state.facility.nextTp
      · simp only [here, Function.update_self, Option.some.injEq] at newest
        simp [Writers.setStage, ← newest]
      · simp only [Function.update_of_ne here] at newest
        simpa [Writers.setStage, fresh other slot newest] using holds.began other slot newest
    · intro other slot field newest wrote
      by_cases here : slot = slotOf state.facility.tpCntMask state.facility.nextTp
      · simp only [here, Function.update_self, Option.some.injEq] at newest
        simp [Writers.setStage, ← newest, WriterStage.wrote, Field.rank] at wrote
      · simp only [Function.update_of_ne here] at newest
        simp only [Writers.setStage, Function.update_of_ne (fresh other slot newest)] at wrote
        exact holds.kept other slot field newest wrote
  · exact holds

private theorem WritersInvariant.of_write (holds : WritersInvariant state pool copy exponent)
    (overtaken : Overtaken state (.write writer)) :
    ∃ pool, WritersInvariant (state.next (.write writer)) pool copy exponent := by
  cases writing : state.stage writer with
  | writing slot field =>
    have slot_lt := holds.slots writer slot field writing
    have inside : slot < pool.capacity :=
      Nat.lt_of_lt_of_le slot_lt (holds.ready.covered holds.covered).1
    let call := state.call writer
    let written : Block Tracept :=
      { pool with cell := Function.update pool.cell slot (field.store call (pool.cell slot)) }
    have next : state.next (.write writer) = { state.setStage writer (field.after slot) with
        facility := { state.facility with tpPool := some written } } := by
      simp [Writers.next, writing, holds.ready.poolIs, inside, written, call]
    rw [next]
    refine ⟨written, holds.running, { holds.ready with poolIs := rfl }, holds.covered, ?_, ?_, ?_, ?_⟩
    · intro other place later stage
      by_cases same : other = writer
      · simp only [Writers.setStage, same, Function.update_self] at stage
        cases field <;> cases stage <;> exact slot_lt
      · simp only [Writers.setStage, Function.update_of_ne same] at stage
        exact holds.slots other place later stage
    · intro other newestSlot later newest place stage
      by_cases same : other = writer
      · have owner := holds.owns writer newestSlot field (same ▸ newest) slot writing
        simp only [Writers.setStage, same, Function.update_self] at stage
        cases field <;> cases stage <;> exact owner
      · simp only [Writers.setStage, Function.update_of_ne same] at stage
        exact holds.owns other newestSlot later newest place stage
    · intro other newestSlot newest
      by_cases same : other = writer
      · simp only [Writers.setStage, same, Function.update_self]
        cases field <;> simp [Field.after]
      · simpa [Writers.setStage, same] using holds.began other newestSlot newest
    · intro other newestSlot kept newest wrote
      by_cases same : other = writer
      · have owner := holds.owns writer newestSlot field (same ▸ newest) slot writing
        simp only [Writers.setStage, same, Function.update_self, wrote_after] at wrote
        rw [same, ← owner]
        simp only [written, Function.update_self]
        by_cases now : kept = field
        · rw [now]
          exact field.holds_store call (pool.cell slot)
        · have before := wrote.resolve_left now
          rw [← writing] at before
          exact Field.holds_store_other now _ _ _
            (holds.kept writer slot kept (owner ▸ same ▸ newest) before)
      · simp only [Writers.setStage, Function.update_of_ne same] at wrote
        have stored := holds.kept other newestSlot kept newest wrote
        by_cases here : newestSlot = slot
        · have unwritten := overtaken slot field other writing (here ▸ newest) same
          have different : kept ≠ field := by
            rintro rfl
            rw [wrote] at unwritten
            cases unwritten
          rw [here] at stored ⊢
          simp only [written, Function.update_self]
          exact Field.holds_store_other different _ _ _ stored
        · simp only [written, Function.update_of_ne here]
          exact stored
  | idle | locked | unlocking | done =>
    exact ⟨pool, by simpa [Writers.next, writing] using holds⟩

private theorem WritersInvariant.of_unlock (holds : WritersInvariant state pool copy exponent) :
    WritersInvariant (state.next (.unlock writer)) pool copy exponent := by
  simp only [Writers.next]
  split
  · rename_i unlocking
    refine ⟨holds.running, holds.ready, holds.covered, ?_, ?_, ?_, ?_⟩
    · intro other slot field writing
      by_cases same : other = writer
      · simp [Writers.setStage, same] at writing
      · exact holds.slots other slot field (by simpa [Writers.setStage, same] using writing)
    · intro other slot field newest place writing
      by_cases same : other = writer
      · simp [Writers.setStage, same] at writing
      · exact holds.owns other slot field newest place
          (by simpa [Writers.setStage, same] using writing)
    · intro other slot newest
      by_cases same : other = writer
      · simp [Writers.setStage, same]
      · simpa [Writers.setStage, same] using holds.began other slot newest
    · intro other slot field newest wrote
      by_cases same : other = writer
      · rw [same] at newest ⊢
        exact holds.kept writer slot field newest (by rw [unlocking]; rfl)
      · simp only [Writers.setStage, Function.update_of_ne same] at wrote
        exact holds.kept other slot field newest wrote
  · exact holds

/-- The invariant of every run in which no overtaken call does damage. -/
def Writers.Safe (exponent : Nat) (state : Writers) : Prop :=
  ∃ pool copy, WritersInvariant state pool copy exponent

theorem Writers.Safe.step (safe : Writers.Safe exponent state)
    (enabled : writerSystem.enabled state action) (overtaken : Overtaken state action) :
    Writers.Safe exponent (writerSystem.next state action) := by
  obtain ⟨pool, copy, holds⟩ := safe
  have running : state.fault.isSome = false := by simp [holds.running]
  simp only [writerSystem, running, Bool.false_eq_true, ↓reduceIte]
  cases action with
  | lock => exact ⟨pool, copy, holds.of_lock enabled.1⟩
  | fetch => exact ⟨pool, copy, holds.of_fetch⟩
  | write =>
    obtain ⟨written, kept⟩ := holds.of_write overtaken
    exact ⟨written, copy, kept⟩
  | unlock => exact ⟨pool, copy, holds.of_unlock⟩

/-- Outside the lock a call that has fetched a slot has written all of it. -/
theorem WritersInvariant.law (holds : WritersInvariant state pool copy exponent) :
    WritersLaw state where
  running := holds.running
  whole quiet found isPool slot writer newest := by
    obtain rfl : pool = found := Option.some.inj (holds.ready.poolIs.symm.trans isPool)
    have began := holds.began writer slot newest
    have outside := quiet writer
    have done : state.stage writer = .done := by
      cases stage : state.stage writer <;> simp_all [WriterStage.inside]
    exact storeTracept_fields _ _ fun field =>
      holds.kept writer slot field newest (by rw [done]; rfl)

/-- Records stay whole in every run in which a call that has been lapped writes
no field that the latest call of its slot has written already. -/
theorem writers_whole
    (returned : runtraceInit build answers threads Facility.start = .ok (0, facility))
    (covered : poolCovered facility.tpPoolSize)
    (legal : writerSystem.Legal (Writers.start facility) actions)
    (overtaken : writerSystem.Guarded Overtaken (Writers.start facility) actions) :
    writerSystem.Always WritersLaw (Writers.start facility) actions := by
  obtain ⟨_, exponent, ready⟩ := Ready.of_init returned rfl
  have initial : Writers.Safe exponent (Writers.start facility) :=
    ⟨_, _, rfl, ready, covered, by simp [Writers.start], by simp [Writers.start],
      by simp [Writers.start], by simp [Writers.start]⟩
  have always := System.Always.of_invariant initial
    (fun _ _ safe condition => safe.step condition.1 condition.2) (legal.and overtaken)
  exact always.mono fun _ ⟨_, _, holds⟩ => holds.law

def shortCall (line : CInt) : WriterCall := ⟨⟨1, 2⟩, line, some ⟨[119], by decide⟩, none⟩

def wholeCall (writer : Nat) (line : CInt) : List WriterAction :=
  [.lock writer (shortCall line), .fetch writer, .write writer, .write writer, .write writer,
    .write writer, .unlock writer]

def alternatingCalls : List WriterAction :=
  [.lock 0 (shortCall 10), .fetch 0, .lock 1 (shortCall 11), .fetch 1, .write 0, .write 1, .write 0,
    .write 1, .write 0, .write 1, .write 0, .write 1, .unlock 0, .unlock 1]

/-- Two calls alternate and end. Of three more that follow, the last one reuses the first slot. -/
theorem writers_whole_five :
    let actions := alternatingCalls ++ wholeCall 2 12 ++ wholeCall 3 13 ++ wholeCall 4 14
    let last := writerSystem.exec (Writers.start (.granted .cxx11 1 4)) actions
    writerSystem.Always WritersLaw (Writers.start (.granted .cxx11 1 4)) actions ∧
      last.latest 0 = some 4 ∧ last.latest 1 = some 1 ∧
      ∀ writer, (last.stage writer).inside = false := by
  refine ⟨writers_whole (runtraceInit_granted (by decide) (by decide) (by decide) (by decide))
    (by decide) (by decide) (by decide +kernel), rfl, rfl, ?_⟩
  rintro (_ | _ | _ | _ | _ | writer) <;> rfl
set_option maxRecDepth 2000 in
/-- A call that is paused after its fetch while four others go round a pool of
four overwrites the newest record of its slot. -/
theorem writers_overtaken :
    let facility := Facility.granted .cxx11 1 4
    let actions := [.lock 0 (shortCall 10), .fetch 0] ++ wholeCall 1 11 ++ wholeCall 2 12 ++
      wholeCall 3 13 ++ wholeCall 4 14 ++ [.write 0, .write 0, .write 0, .write 0, .unlock 0]
    runtraceInit .cxx11 (.granting 4) 1 Facility.start = .ok (0, facility) ∧
      writerSystem.Legal (Writers.start facility) actions ∧
      ¬writerSystem.Always WritersLaw (Writers.start facility) actions := by
  refine ⟨runtraceInit_granted (by decide) (by decide) (by decide) (by decide), by decide, ?_⟩
  intro always
  have whole := always.last.whole (by rintro (_ | _ | _ | _ | _ | writer) <;> rfl) _ rfl 0 4 rfl
  exact absurd (congrArg Tracept.line whole) (by decide)

end TrippingRobot.Runtrace
