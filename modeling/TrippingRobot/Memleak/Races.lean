import TrippingRobot.Memleak.Serial

/-! What the threads see of each other's calls: no count is lost, one that is read without the lock
is no count between two stores, and a thread that exits in the lock stops all of them. -/

namespace TrippingRobot.Memleak

open TrippingRobot.Data TrippingRobot.Machine

variable {w : Nat} {start base : RecordHeap w} {state : Threads w} {entries : List (Entry w)}

/-! ## Counts -/

/-- What a call adds to the count of a record: a block of at least one byte that was given out,
or any block that is freed. Requests of 0 bytes are not counted. -/
def LockedCall.change (node : Nat) (served : LockedCall w) : CInt :=
  match served.task with
  | .push _ size _ => if served.outcome = .record node ∧ 0 < size then 1 else 0
  | .release other _ => if other = node then -1 else 0
  | .report _ | .exit => 0

/-- The blocks of at least one byte given out for a record, less all that were freed, as an
`int`. -/
def blocksAt (node : Nat) (calls : List (LockedCall w)) : CInt :=
  (calls.map (LockedCall.change node)).sum

structure RecordHeap.Counts (heap : RecordHeap w) (calls : List (LockedCall w)) : Prop where
  known : ∀ node ∈ heap.created, heap.cntOf node = some (blocksAt node calls)
  unknown : ∀ node, node ∉ heap.created → blocksAt node calls = 0

theorem blocksAt_append (node : Nat) (calls : List (LockedCall w)) (served : LockedCall w) :
    blocksAt node (calls ++ [served]) = blocksAt node calls + served.change node := by
  simp [blocksAt]

theorem Tally.count_cnt (tally : Tally w) (size : BitVec w) (overalloc : Bool) :
    (tally.count size overalloc).cnt = tally.cnt + if 0 < size then 1 else 0 := by
  by_cases large : 0 < size
  · rw [Tally.count, if_pos large, if_pos large]
    cases overalloc with
    | true => rfl
    | false => rfl
  · rw [Tally.count, if_neg large, if_neg large]
    exact (add_zero _).symm

theorem Tally.fresh_cnt (size : BitVec w) (overalloc : Bool) :
    (Tally.fresh size overalloc).cnt = if 0 < size then 1 else 0 := by
  cases overalloc with
  | true => rfl
  | false => rfl

theorem RecordHeap.setRecord_cntOf (heap : RecordHeap w) (node : Nat) (record : AllocRecord w)
    (other : Nat) : (heap.setRecord node record).cntOf other =
      if other = node then some record.cnt else heap.cntOf other := by
  by_cases same : other = node
  · simp [RecordHeap.cntOf, RecordHeap.setRecord, same]
  · simp [RecordHeap.cntOf, RecordHeap.setRecord, same]

theorem RecordHeap.Counts.add {later : RecordHeap w} {served : LockedCall w}
    (counts : base.Counts calls) (target : Nat)
    (others : ∀ node, node ≠ target → served.change node = 0)
    (created : ∀ node, node ∈ later.created ↔ node ∈ base.created ∨ node = target)
    (kept : ∀ node, node ≠ target → later.cntOf node = base.cntOf node)
    (added : later.cntOf target = some (blocksAt target calls + served.change target)) :
    later.Counts (calls ++ [served]) where
  known node member := by
    rw [blocksAt_append]
    by_cases mine : node = target
    · rw [mine]
      exact added
    · have old := ((created node).mp member).resolve_right mine
      rw [others node mine, kept node mine, counts.known node old, add_zero]
  unknown node absent := by
    obtain ⟨old, mine⟩ := not_or.mp (mt (created node).mpr absent)
    rw [blocksAt_append, others node mine, counts.unknown node old, add_zero]

theorem RecordHeap.Counts.keep {later : RecordHeap w} {served : LockedCall w}
    (counts : base.Counts calls) (none : ∀ node, served.change node = 0)
    (created : later.created = base.created) (kept : ∀ node ∈ base.created,
      later.cntOf node = base.cntOf node) : later.Counts (calls ++ [served]) where
  known node member := by
    have old : node ∈ base.created := created ▸ member
    rw [blocksAt_append, none, kept node old, counts.known node old, add_zero]
  unknown node absent := by
    rw [blocksAt_append, none, counts.unknown node (created ▸ absent), add_zero]

theorem LockedCall.Ends.counts {served : LockedCall w} {thread : Nat} {later : RecordHeap w}
    (ends : served.Ends thread base later) (holds : base.Holds entries)
    (counts : base.Counts calls) : later.Counts (calls ++ [served]) := by
  cases ends.did with
  | push site size overalloc node task outcome ran =>
    obtain ⟨found, searched, stops⟩ := holds.search_stops site
    cases stops with
    | record before after target record split below same =>
      have stored : base.record target = some record := holds.stored (target, record) (by simp [split])
      have known : target ∈ base.created :=
        holds.created.mem_iff.mp (List.mem_map.mpr ⟨(target, record), by simp [split], rfl⟩)
      simp only [RecordHeap.listPushRecord, searched, stored, Except.ok.injEq, Prod.mk.injEq] at ran
      obtain ⟨rfl, rfl⟩ := ran
      have old := counts.known target known
      rw [RecordHeap.cntOf, stored] at old
      refine counts.add target (fun node other => ?_) (fun node => ?_) (fun node other => ?_) ?_
      · simp [LockedCall.change, task, outcome, Ne.symm other]
      · exact ⟨.inl, fun either => either.elim id fun same => same ▸ known⟩
      · rw [RecordHeap.setRecord_cntOf, if_neg other]
      · rw [RecordHeap.setRecord_cntOf, if_pos rfl, ← Option.some.inj old]
        simp [LockedCall.change, task, outcome, Tally.count_cnt]
    | place before after split below above =>
      have fresh : base.Fresh served.answer := by
        refine ends.fresh.resolve_left fun nothing => ?_
        simp [nothing, RecordHeap.listPushRecord, searched] at ran
      simp only [RecordHeap.listPushRecord, searched, fresh.1, if_false, Except.ok.injEq,
        Prod.mk.injEq] at ran
      obtain ⟨rfl, rfl⟩ := ran
      have cnt (node : Nat) := base.setRecord_cntOf served.answer ⟨site, .fresh size overalloc⟩ node
      refine counts.add served.answer (fun node other => ?_) (fun node => ?_) (fun node other => ?_) ?_
      · simp [LockedCall.change, task, outcome, Ne.symm other]
      · simp [RecordHeap.listAddTail, RecordHeap.setRecord]
      · exact (cnt node).trans (if_neg other)
      · refine (cnt served.answer).trans ((if_pos rfl).trans ?_)
        rw [counts.unknown _ fresh.2.2]
        simp [LockedCall.change, task, outcome, Tally.fresh_cnt]
  | release target size task outcome ran =>
    have known := ends.known target size task
    obtain ⟨site, place⟩ := holds.place_of_created known
    obtain ⟨record, stored, _⟩ := holds.exists_lookup place
    simp only [RecordHeap.releaseRecord, stored, Except.ok.injEq] at ran
    subst ran
    have old := counts.known target known
    rw [RecordHeap.cntOf, stored] at old
    refine counts.add target (fun node other => ?_) (fun node => ?_) (fun node other => ?_) ?_
    · simp [LockedCall.change, task, Ne.symm other]
    · exact ⟨.inl, fun either => either.elim id fun same => same ▸ known⟩
    · rw [RecordHeap.setRecord_cntOf, if_neg other]
    · rw [RecordHeap.setRecord_cntOf, if_pos rfl, ← Option.some.inj old]
      simp [LockedCall.change, task, Tally.release, sub_eq_add_neg]
  | report flags lines task outcome ran =>
    obtain ⟨_, laterEntries, returned, holdsLater, rows, places, created⟩ :=
      holds.memleakReport flags
    obtain ⟨rfl, rfl⟩ := Prod.mk.inj (Except.ok.inj (returned.symm.trans ran))
    refine counts.keep (fun node => by simp [LockedCall.change, task]) created fun node known => ?_
    obtain ⟨site, place⟩ := holds.place_of_created known
    obtain ⟨record, stored, row⟩ := holds.exists_lookup place
    obtain ⟨other, storedLater, rowLater⟩ := holdsLater.exists_lookup (places.symm ▸ place)
    have table : holdsLater.toTable = holds.toTable.mapValues (Tally.reported flags) :=
      SortedTable.ext rows
    rw [table, SortedTable.lookup_mapValues, row] at rowLater
    have tally : record.toTally.reported flags = other.toTally := Option.some.inj rowLater
    have same : (record.toTally.reported flags).cnt = record.cnt := by
      rw [Tally.reported]
      split
      · rfl
      · rfl
    rw [RecordHeap.cntOf, RecordHeap.cntOf, stored, storedLater, Option.map_some, Option.map_some,
      ← same, tally]
  | exit calls task outcome same =>
    subst same
    exact counts.keep (fun node => by simp [LockedCall.change, task]) rfl fun _ _ => rfl

theorem Threads.Serial.counts (serial : state.Serial start base entries)
    (counts : base.Counts state.served) (legal : (threadSystem w).Legal state actions) :
    ∃ later laterEntries, ((threadSystem w).exec state actions).Serial start later laterEntries ∧
      later.Counts ((threadSystem w).exec state actions).served := by
  induction actions generalizing state base entries with
  | nil => exact ⟨base, entries, serial, counts⟩
  | cons action rest ih =>
    obtain ⟨⟨later, laterEntries, next, turn⟩, _⟩ := serial.next legal.1
    refine ih next ?_ legal.2
    rcases turn with ⟨rfl, served⟩ | ⟨thread, served, ends, turns⟩
    · exact served.symm ▸ counts
    · exact turns.symm ▸ ends.counts serial.follows.holds counts

/-- No update is lost: whatever the interleaving, while nobody has the lock each record counts
exactly the blocks of at least one byte given out for it, less all that were freed. -/
theorem counts_exact (allocList : Nat)
    (legal : (threadSystem w).Legal (.initial w allocList) actions)
    (free : ((threadSystem w).exec (.initial w allocList) actions).holder = none) :
    let state := (threadSystem w).exec (.initial w allocList) actions
    ∀ node, state.Given node → state.heap.cntOf node = some (blocksAt node state.served) := by
  intro state node given
  obtain ⟨base, entries, serial, counts⟩ :=
    (Threads.Serial.initial allocList).counts ⟨nofun, fun _ _ => rfl⟩ legal
  rw [serial.follows.free free]
  exact counts.known node (serial.follows.given node given)

/-- The second thread is through as well. -/
def racedCalls : List (ThreadAction 64) := racingCalls ++ List.replicate 4 (.step 1 0)

theorem racedCalls_legal : (threadSystem 64).Legal (.initial 64 8) racedCalls := by
  refine (System.guarded_append _ _).mpr ⟨racingCalls_legal, ?_⟩
  iterate 4 refine ⟨⟨by decide +kernel, by decide +kernel, .inl rfl⟩, ?_⟩
  trivial

theorem counts_exact_two :
    let state := (threadSystem 64).exec (.initial 64 8) racedCalls
    state.heap.cntOf 100 = some 2 := by
  intro state
  have free : state.holder = none := by decide +kernel
  have given : state.Given 100 :=
    ⟨⟨0, racingTask, 100, .record 100⟩, by decide +kernel, rfl⟩
  have blocks : blocksAt 100 state.served = 2 := by decide +kernel
  exact blocks ▸ counts_exact 8 racedCalls_legal free 100 given

/-! ## Counts read without the lock -/

/-- The count is the one between the calls, or the one behind the call that holds the lock. -/
def Threads.CountsAs (state : Threads w) (base : RecordHeap w) (node : Nat) (cnt : CInt) : Prop :=
  base.cntOf node = some cnt ∨ ∃ (thread : Nat) (served : LockedCall w) (later : RecordHeap w),
    state.holder = some thread ∧ (state.place thread).task = some served.task ∧
      served.Ends thread base later ∧ later.cntOf node = some cnt

theorem Threads.Follows.cntOf (follows : state.Follows base entries)
    (created : node ∈ base.created) :
    ∃ cnt, state.heap.cntOf node = some cnt ∧ state.CountsAs base node cnt := by
  have counted {heap : RecordHeap w} {entries : List (Entry w)} (holds : heap.Holds entries)
      (created : node ∈ heap.created) : ∃ cnt, heap.cntOf node = some cnt := by
    obtain ⟨site, place⟩ := holds.place_of_created created
    obtain ⟨record, stored, _⟩ := holds.exists_lookup place
    exact ⟨record.cnt, by rw [RecordHeap.cntOf, stored]; rfl⟩
  obtain ⟨cnt, before⟩ := counted follows.holds created
  have still (same : state.heap.cntOf node = base.cntOf node) :
      ∃ cnt, state.heap.cntOf node = some cnt ∧ state.CountsAs base node cnt :=
    ⟨cnt, same.trans before, .inl before⟩
  cases held : state.holder with
  | none => exact still (by rw [follows.free held])
  | some thread =>
    have behind {served : LockedCall w} {later : RecordHeap w}
        (task : (state.place thread).task = some served.task) (ends : served.Ends thread base later)
        (same : state.heap.cntOf node = later.cntOf node) :
        ∃ cnt, state.heap.cntOf node = some cnt ∧ state.CountsAs base node cnt := by
      obtain ⟨_, holds, kept, _⟩ := ends.holds follows.holds
      obtain ⟨cnt, after⟩ := counted holds (kept node created)
      exact ⟨cnt, same.trans after, .inr ⟨thread, served, later, held, task, ends, after⟩⟩
    have continues := follows.held thread held
    cases here : state.place thread with
    | outside | waiting => simp [here, Place.Continues] at continues
    | exiting | searching | allocating | listing =>
      rw [here] at continues
      exact still (by rw [continues.1])
    | linking served record listIt left =>
      rw [here] at continues
      exact behind (by rw [here]; rfl) continues rfl
    | storing served target left =>
      rw [here] at continues
      obtain ⟨record, stored, ends, _, same | keeps⟩ := continues
      · exact still (by rw [same])
      · refine behind (by rw [here]; rfl) ends ?_
        by_cases mine : node = target
        · simp [RecordHeap.cntOf, RecordHeap.setRecord, mine, stored, cnt_foldl keeps]
        · simp [RecordHeap.cntOf, RecordHeap.setRecord, mine]
    | reporting flags listIt lines =>
      rw [here] at continues
      exact still (continues.1 node)
    | unlocking served =>
      rw [here] at continues
      exact behind (by rw [here]; rfl) continues rfl

/-- `memleak_allocs_at` reads its count without the lock, and still gets no count that is not there
between two calls: that of before the call in the lock or that of behind it, the calls having run one
after the other. -/
theorem allocs_at_between (allocList : Nat)
    (legal : (threadSystem w).Legal (.initial w allocList) actions) :
    let state := (threadSystem w).exec (.initial w allocList) actions
    ∀ node, state.Given node → ∃ base cnt, InTurn (.initial w allocList) state.served base ∧
      state.heap.cntOf node = some cnt ∧ state.CountsAs base node cnt := by
  intro state node given
  obtain ⟨base, entries, serial⟩ := threads_serial allocList legal
  obtain ⟨cnt, read, counts⟩ := serial.follows.cntOf (serial.follows.given node given)
  exact ⟨base, cnt, serial.inTurn, read, counts⟩

/-- The second thread has counted its block up and still holds the lock. -/
theorem allocs_at_between_one :
    let state := (threadSystem 64).exec (.initial 64 8) racingCalls
    ∃ base cnt, InTurn (.initial 64 8) state.served base ∧ state.heap.cntOf 100 = some cnt ∧
      state.CountsAs base 100 cnt :=
  allocs_at_between 8 racingCalls_legal 100
    ⟨⟨0, racingTask, 100, .record 100⟩, by decide +kernel, rfl⟩

/-! ## Out of memory -/

structure Threads.Stuck (state : Threads w) (thread : Nat) (task : Task w) : Prop where
  holder : state.holder = some thread
  exiting : state.place thread = .exiting task
  others : ∀ other, other ≠ thread →
    state.place other = .outside ∨ ∃ task, state.place other = .waiting task

theorem Threads.Stuck.blocked {thread : Nat} {task : Task w} (stuck : state.Stuck thread task)
    (caller answer : Nat) : ¬ (threadSystem w).enabled state (.step caller answer) := by
  rintro ⟨outside, free, _⟩
  have waits : (state.place caller).waits = true := by
    by_cases same : caller = thread
    · rw [same, stuck.exiting]
      rfl
    · rcases stuck.others caller same with nothing | ⟨task, waiting⟩
      · exact absurd nothing outside
      · rw [waiting]
        rfl
  cases (free waits).symm.trans stuck.holder

theorem Threads.Stuck.next {thread : Nat} {task : Task w} (stuck : state.Stuck thread task)
    {action : ThreadAction w} (enabled : (threadSystem w).enabled state action) :
    ((threadSystem w).next state action).Stuck thread task ∧
      ((threadSystem w).next state action).heap = state.heap ∧
      ((threadSystem w).next state action).served = state.served := by
  cases action with
  | call caller begun =>
    have apart : thread ≠ caller := by
      intro same
      have outside := enabled.1
      rw [← same, stuck.exiting] at outside
      cases outside
    refine ⟨⟨stuck.holder, ?_, fun other different => ?_⟩, rfl, rfl⟩
    · exact (Threads.enter_place ..).trans ((if_neg apart).trans stuck.exiting)
    · have place : ((threadSystem w).next state (.call caller begun)).place other =
        if other = caller then .waiting begun else state.place other := Threads.enter_place ..
      rw [place]
      split
      · exact .inr ⟨begun, rfl⟩
      · exact stuck.others other different
  | step caller answer => exact absurd enabled (stuck.blocked caller answer)

/-- Out of memory for a record, `list_push_record` calls `exit` with the lock in its hands, and
`~RecordExitChecker` waits for it: the thread never gets on, no other call gets its turn any more,
and the report at exit has no row. -/
theorem exit_deadlocks (allocList : Nat)
    (legal : (threadSystem w).Legal (.initial w allocList) actions) {task : Task w}
    (exiting : ((threadSystem w).exec (.initial w allocList) actions).place thread = .exiting task)
    (goesOn : (threadSystem w).Legal ((threadSystem w).exec (.initial w allocList) actions) more) :
    let state := (threadSystem w).exec (.initial w allocList) actions
    let last := (threadSystem w).exec state more
    last.holder = some thread ∧ last.place thread = .exiting task ∧ last.heap = state.heap ∧
      last.served = state.served ∧
      ∀ caller answer, ¬ (threadSystem w).enabled last (.step caller answer) := by
  intro state last
  obtain ⟨base, entries, serial⟩ := threads_serial allocList legal
  have holder : state.holder = some thread := by
    by_contra apart
    rcases serial.follows.others thread apart with outside | ⟨_, waiting⟩
    · cases exiting.symm.trans outside
    · cases exiting.symm.trans waiting
  have stuck : state.Stuck thread task := ⟨holder, exiting, fun other apart =>
    serial.follows.others other fun same => apart (Option.some.inj (same.symm.trans holder))⟩
  have all : (threadSystem w).Always (fun last => last.Stuck thread task ∧
      last.heap = state.heap ∧ last.served = state.served) state more :=
    System.Always.of_invariant ⟨stuck, rfl, rfl⟩
      (fun _ _ ⟨stuck, heap, served⟩ enabled =>
        ⟨(stuck.next enabled).1, (stuck.next enabled).2.1.trans heap,
          (stuck.next enabled).2.2.trans served⟩) goesOn
  obtain ⟨last, heap, served⟩ := all.last
  exact ⟨last.holder, last.exiting, heap, served, last.blocked⟩

/-- `malloc` has nothing for the first record; then another thread wants a report. -/
def refusedCalls : List (ThreadAction 64) :=
  [.call 3 (.push ⟨⟨[114], by decide⟩, 7⟩ 20 false), .step 3 0, .step 3 0, .step 3 0]

theorem exit_deadlocks_one :
    let last := (threadSystem 64).exec ((threadSystem 64).exec (.initial 64 8) refusedCalls)
      [.call 4 (.report memlDefault)]
    last.holder = some 3 ∧ last.served = [] ∧
      ∀ caller answer, ¬ (threadSystem 64).enabled last (.step caller answer) := by
  have legal : (threadSystem 64).Legal (.initial 64 8) refusedCalls := by
    refine ⟨⟨rfl, nofun⟩, ?_⟩
    iterate 3 refine ⟨⟨by decide, by decide, .inl rfl⟩, ?_⟩
    trivial
  have exiting : ((threadSystem 64).exec (.initial 64 8) refusedCalls).place 3 =
    .exiting (.push ⟨⟨[114], by decide⟩, 7⟩ 20 false) := by decide
  have goesOn : (threadSystem 64).Legal ((threadSystem 64).exec (.initial 64 8) refusedCalls)
    [.call 4 (.report memlDefault)] := ⟨⟨rfl, nofun⟩, trivial⟩
  obtain ⟨holder, _, _, served, blocked⟩ := exit_deadlocks 8 legal exiting goesOn
  exact ⟨holder, served, blocked⟩

end TrippingRobot.Memleak
