import TrippingRobot.Memleak.Leaks
import TrippingRobot.Memleak.Threads

/-! The calls of the threads are atomic: what they leave and return is what the same calls give
when each runs alone, in the order in which they release the lock. -/

namespace TrippingRobot.Memleak

open TrippingRobot.Data TrippingRobot.Machine

variable {w : Nat}

/-- Calls that run one after the other, from one list to another. -/
inductive InTurn (start : RecordHeap w) : List (LockedCall w) → RecordHeap w → Prop
  | none : InTurn start [] start
  | served (before : InTurn start calls heap)
      (ran : served.task.run served.answer heap = .ok (later, served.outcome)) :
      InTurn start (calls ++ [served]) later

structure LockedCall.Ends (served : LockedCall w) (thread : Nat) (base later : RecordHeap w) : Prop where
  mine : served.thread = thread
  ran : served.task.run served.answer base = .ok (later, served.outcome)
  fresh : served.answer = 0 ∨ base.Fresh served.answer
  known : ∀ node size, served.task = .release node size → node ∈ base.created

def TallyStore.keepsCnt : TallyStore w → Bool
  | .increment | .decrement => false
  | _ => true

def RecordHeap.found (heap : RecordHeap w) (site : Site) : Except Stop Found :=
  heap.search site (heap.created.length + 1) (heap.links.next heap.allocList)

/-- What has still to be done from a place on gives what the call gives alone. -/
def Place.Continues (thread : Nat) (base heap : RecordHeap w) : Place w → Prop
  | .outside | .waiting _ => False
  | .exiting task => heap = base ∧ task.run 0 base = .error .exit
  | .searching site _ _ listIt => heap = base ∧ ∃ fuel, base.search site fuel listIt = base.found site
  | .allocating site _ _ listIt => heap = base ∧ base.found site = .ok (.place listIt)
  | .linking served record listIt left => served.Ends thread base
      { heap with links := left.foldl (LinkStore.apply record listIt) heap.links }
  | .storing served node left => ∃ record, heap.record node = some record ∧
      served.Ends thread base
        (heap.setRecord node { record with toTally := left.foldl TallyStore.apply record.toTally }) ∧
      (∀ store ∈ left.tail, store.keepsCnt = true) ∧
      (heap = base ∨ ∀ store ∈ left, store.keepsCnt = true)
  | .reporting flags listIt lines => (∀ node, heap.cntOf node = base.cntOf node) ∧
      ∃ fuel later rest, RecordHeap.reportLoop flags fuel listIt heap = .ok (later, rest) ∧
        base.memleakReport flags = .ok (later, lines ++ rest)
  | .listing listIt calls => heap = base ∧ ∃ fuel rest,
      base.exitLoop fuel listIt = .ok rest ∧ base.recordExitChecker = .ok (calls ++ rest)
  | .unlocking served => served.Ends thread base heap

/-- The list between the calls, and what the holder of the lock has made of it. -/
structure Threads.Follows (state : Threads w) (base : RecordHeap w) (entries : List (Entry w)) :
    Prop where
  running : state.fault = false
  holds : base.Holds entries
  given : ∀ node, state.Given node → node ∈ base.created
  asked : ∀ thread node size, state.place thread = .waiting (.release node size) →
    node ∈ base.created
  others : ∀ thread, state.holder ≠ some thread →
    state.place thread = .outside ∨ ∃ task, state.place thread = .waiting task
  free : state.holder = none → state.heap = base
  held : ∀ thread, state.holder = some thread →
    (state.place thread).Continues thread base state.heap

theorem Threads.Follows.initial (allocList : Nat) :
    (Threads.initial w allocList).Follows (.initial w allocList) [] where
  running := rfl
  holds := .initial allocList
  given := by simp [Threads.Given, Threads.initial]
  asked := by simp [Threads.initial]
  others := fun _ _ => .inl rfl
  free := fun _ => rfl
  held := nofun

/-! ## The stores add up to the call -/

theorem listAddTail_eq (heap : RecordHeap w) (record head : Nat) :
    heap.listAddTail record head =
      { heap with links := linkStores.foldl (LinkStore.apply record head) heap.links } := rfl

theorem count_eq (tally : Tally w) (size : BitVec w) (overalloc : Bool) :
    tally.count size overalloc = (countStores size overalloc).foldl TallyStore.apply tally := by
  by_cases large : 0 < size
  · rw [Tally.count, countStores, if_pos large, if_pos large]
    cases overalloc with
    | true => rfl
    | false => rfl
  · rw [Tally.count, countStores, if_neg large, if_neg large]
    rfl

theorem release_eq (tally : Tally w) (size : BitVec w) :
    tally.release size = (releaseStores size).foldl TallyStore.apply tally := rfl

theorem cnt_foldl {left : List (TallyStore w)} (keeps : ∀ store ∈ left, store.keepsCnt = true)
    (tally : Tally w) : (left.foldl TallyStore.apply tally).cnt = tally.cnt := by
  induction left generalizing tally with
  | nil => rfl
  | cons store rest ih =>
    rw [List.foldl_cons, ih fun store member => keeps store (List.mem_cons_of_mem _ member)]
    have here := keeps store List.mem_cons_self
    cases store with
    | increment => cases here
    | decrement => cases here
    | add | subtract | overallocated | touch => rfl

theorem countStores_tail (size : BitVec w) (overalloc : Bool) :
    ∀ store ∈ (countStores size overalloc).tail, store.keepsCnt = true := by
  by_cases large : 0 < size
  · rw [countStores, if_pos large]
    cases overalloc with
    | true => simp [TallyStore.keepsCnt]
    | false => simp [TallyStore.keepsCnt]
  · rw [countStores, if_neg large]
    nofun

theorem releaseStores_tail (size : BitVec w) :
    ∀ store ∈ (releaseStores size).tail, store.keepsCnt = true := by
  simp [releaseStores, TallyStore.keepsCnt]

/-! ## Whole calls -/

namespace RecordHeap

variable {heap later : RecordHeap w} {entries laterEntries : List (Entry w)}

theorem Holds.place_of_created (holds : heap.Holds entries) (created : node ∈ heap.created) :
    ∃ site, (node, site) ∈ placesOf entries := by
  obtain ⟨entry, member, rfl⟩ := List.mem_map.mp (holds.created.mem_iff.mpr created)
  exact ⟨entry.2.toSite, List.mem_map_of_mem member⟩

theorem Holds.created_of_place (holds : heap.Holds entries) (place : (node, site) ∈ placesOf entries) :
    node ∈ heap.created := by
  obtain ⟨entry, member, same⟩ := List.mem_map.mp place
  have address : entry.1 = node := congrArg Prod.fst same
  exact address ▸ holds.created.mem_iff.mp (List.mem_map_of_mem member)

theorem Holds.created_kept (holds : heap.Holds entries) (laterHolds : later.Holds laterEntries)
    (kept : (placesOf entries).Sublist (placesOf laterEntries)) (created : node ∈ heap.created) :
    node ∈ later.created := by
  obtain ⟨site, place⟩ := holds.place_of_created created
  exact laterHolds.created_of_place (kept.subset place)

end RecordHeap

/-- What a call has done that ran alone. -/
inductive LockedCall.Did (served : LockedCall w) (base later : RecordHeap w) : Prop
  | push (site : Site) (size : BitVec w) (overalloc : Bool) (node : Nat)
      (task : served.task = .push site size overalloc) (outcome : served.outcome = .record node)
      (ran : base.listPushRecord site size overalloc served.answer = .ok (later, node))
  | release (node : Nat) (size : BitVec w) (task : served.task = .release node size)
      (outcome : served.outcome = .released) (ran : base.releaseRecord node size = .ok later)
  | report (flags : CInt) (lines : List (ReportLine w)) (task : served.task = .report flags)
      (outcome : served.outcome = .reported lines)
      (ran : base.memleakReport flags = .ok (later, lines))
  | exit (calls : List (LogCall w)) (task : served.task = .exit)
      (outcome : served.outcome = .exited calls) (same : later = base)

theorem LockedCall.Ends.did {served : LockedCall w} {thread : Nat} {base later : RecordHeap w}
    (ends : served.Ends thread base later) : served.Did base later := by
  have ran := ends.ran
  cases task : served.task with
  | push site size overalloc =>
    cases pushed : base.listPushRecord site size overalloc served.answer with
    | error stop => simp [task, Task.run, pushed, bind, Except.bind] at ran
    | ok result =>
      simp only [task, Task.run, pushed, bind, Except.bind, pure, Except.pure, Except.ok.injEq,
        Prod.mk.injEq] at ran
      exact .push site size overalloc result.2 task ran.2.symm (by rw [pushed, ← ran.1])
  | release node size =>
    cases released : base.releaseRecord node size with
    | error stop => simp [task, Task.run, released, bind, Except.bind] at ran
    | ok heap =>
      simp only [task, Task.run, released, bind, Except.bind, pure, Except.pure, Except.ok.injEq,
        Prod.mk.injEq] at ran
      exact .release node size task ran.2.symm (by rw [released, ← ran.1])
  | report flags =>
    cases reported : base.memleakReport flags with
    | error stop => simp [task, Task.run, reported, bind, Except.bind] at ran
    | ok result =>
      simp only [task, Task.run, reported, bind, Except.bind, pure, Except.pure, Except.ok.injEq,
        Prod.mk.injEq] at ran
      exact .report flags result.2 task ran.2.symm (by rw [reported, ← ran.1])
  | exit =>
    cases checked : base.recordExitChecker with
    | error stop => simp [task, Task.run, checked, bind, Except.bind] at ran
    | ok calls =>
      simp only [task, Task.run, checked, bind, Except.bind, pure, Except.pure, Except.ok.injEq,
        Prod.mk.injEq] at ran
      exact .exit calls task ran.2.symm ran.1.symm

theorem RecordHeap.Holds.room {base later : RecordHeap w} {entries : List (Entry w)}
    (holds : base.Holds entries) (answered : answer = 0 ∨ base.Fresh answer)
    (ran : base.listPushRecord site size overalloc answer = .ok (later, node)) :
    (∃ entry ∈ entries, entry.2.toSite = site) ∨ base.Fresh answer := by
  by_contra none
  obtain ⟨unknown, taken⟩ := not_or.mp none
  obtain rfl := answered.resolve_right taken
  have exits := holds.listPushRecord_exit (fun entry member same => unknown ⟨entry, member, same⟩)
    size overalloc
  cases ran.symm.trans exits

/-- A call that runs alone leaves a list with the records of before. -/
theorem LockedCall.Ends.holds {served : LockedCall w} {thread : Nat} {base later : RecordHeap w}
    {entries : List (Entry w)} (ends : served.Ends thread base later) (holds : base.Holds entries) :
    ∃ laterEntries, later.Holds laterEntries ∧ (∀ node ∈ base.created, node ∈ later.created) ∧
      ∀ node, served.outcome = .record node → node ∈ later.created := by
  cases ends.did with
  | push site size overalloc node task outcome ran =>
    obtain ⟨_, _, laterEntries, returned, holdsLater, _, mine, kept, _⟩ :=
      holds.listPushRecord_of (holds.room ends.fresh ran) size overalloc
    obtain ⟨rfl, rfl⟩ := Prod.mk.inj (Except.ok.inj (returned.symm.trans ran))
    refine ⟨laterEntries, holdsLater, fun node => holds.created_kept holdsLater kept, ?_⟩
    intro other same
    rw [outcome, Outcome.record.injEq] at same
    exact same ▸ holdsLater.created_of_place mine
  | release node size task outcome ran =>
    obtain ⟨site, place⟩ := holds.place_of_created (ends.known node size task)
    obtain ⟨_, laterEntries, returned, adds, _⟩ := holds.release place size
    obtain rfl := Except.ok.inj (returned.symm.trans ran)
    refine ⟨laterEntries, adds.holds, fun node => holds.created_kept adds.holds adds.kept, ?_⟩
    simp [outcome]
  | report flags lines task outcome ran =>
    obtain ⟨_, laterEntries, returned, holdsLater, _, _, created⟩ := holds.memleakReport flags
    obtain ⟨rfl, rfl⟩ := Prod.mk.inj (Except.ok.inj (returned.symm.trans ran))
    exact ⟨laterEntries, holdsLater, fun node member => created ▸ member, by simp [outcome]⟩
  | exit calls task outcome same =>
    subst same
    exact ⟨entries, holds, fun node member => member, by simp [outcome]⟩

/-! ## One step -/

namespace Threads

variable {state : Threads w} {base heap : RecordHeap w} {entries : List (Entry w)} {thread : Nat}
  {place : Place w}

theorem enter_place (state : Threads w) (thread : Nat) (place : Place w) (other : Nat) :
    (state.enter thread place).place other = if other = thread then place else state.place other :=
  Function.update_apply ..

theorem Follows.goOn (follows : state.Follows base entries) (held : state.holder = some thread)
    (continues : place.Continues thread base heap) :
    ((state.store heap).enter thread place).Follows base entries where
  running := follows.running
  holds := follows.holds
  given := follows.given
  asked other node size asked := by
    rw [enter_place] at asked
    split at asked
    · rw [asked] at continues
      exact continues.elim
    · exact follows.asked other node size asked
  others other apart := by
    have different : other ≠ thread := fun same => apart (same ▸ held)
    rw [enter_place, if_neg different]
    exact follows.others other apart
  free none := by
    cases held.symm.trans none
  held other holds := by
    obtain rfl : other = thread := Option.some.inj (holds.symm.trans held)
    rw [enter_place, if_pos rfl]
    exact continues

theorem Follows.lock (follows : state.Follows base entries) (free : state.holder = none)
    (continues : place.Continues thread base base) :
    ({ state with holder := some thread }.enter thread place).Follows base entries where
  running := follows.running
  holds := follows.holds
  given := follows.given
  asked other node size asked := by
    rw [enter_place] at asked
    split at asked
    · rw [asked] at continues
      exact continues.elim
    · exact follows.asked other node size asked
  others other apart := by
    have different : other ≠ thread := fun same => apart (same ▸ rfl)
    rw [enter_place, if_neg different]
    exact follows.others other (by simp [free])
  free := nofun
  held other holds := by
    obtain rfl : thread = other := Option.some.inj holds
    rw [enter_place, if_pos rfl]
    have same : state.heap = base := follows.free free
    exact same.symm ▸ continues

theorem Follows.unlock (follows : state.Follows base entries) (held : state.holder = some thread)
    {served : LockedCall w} (ends : served.Ends thread base state.heap) :
    ∃ later, ({ state with holder := none, served := state.served ++ [served] }.enter thread
      .outside).Follows state.heap later := by
  obtain ⟨later, holds, kept, mine⟩ := ends.holds follows.holds
  refine ⟨later, follows.running, holds, ?_, ?_, ?_, fun _ => rfl, nofun⟩
  · rintro node ⟨other, member, outcome⟩
    rcases List.mem_append.mp member with old | new
    · exact kept node (follows.given node ⟨other, old, outcome⟩)
    · rw [List.mem_singleton.mp new] at outcome
      exact mine node outcome
  · intro other node size asked
    rw [enter_place] at asked
    split at asked
    · cases asked
    · exact kept node (follows.asked other node size asked)
  · intro other _
    rw [enter_place]
    split
    · exact .inl rfl
    · rename_i different
      refine follows.others other fun same => different ?_
      exact Option.some.inj (same.symm.trans held)

theorem Follows.first (follows : state.Follows base entries) {task : Task w}
    (waiting : state.place thread = .waiting task) :
    (task.first thread base).Continues thread base base := by
  have holds := follows.holds
  cases task with
  | push site size overalloc => exact ⟨rfl, _, rfl⟩
  | release node size =>
    have created := follows.asked thread node size waiting
    obtain ⟨site, place⟩ := holds.place_of_created created
    obtain ⟨record, stored, _⟩ := holds.exists_lookup place
    refine ⟨record, stored, ⟨rfl, ?_, .inl rfl, ?_⟩, releaseStores_tail size, .inl rfl⟩
    · simp only [Task.run, RecordHeap.releaseRecord, stored, release_eq, bind, Except.bind, pure,
        Except.pure]
    · rintro _ _ ⟨⟩
      exact created
  | report flags =>
    obtain ⟨later, _, returned, _⟩ := holds.memleakReport flags
    exact ⟨fun _ => rfl, _, later, _, returned, returned⟩
  | exit =>
    obtain ⟨calls, loop⟩ : ∃ calls, base.exitLoop (base.created.length + 1)
        (base.links.next base.allocList) = .ok calls := by
      have checked := holds.recordExitChecker
      cases loop : base.exitLoop (base.created.length + 1) (base.links.next base.allocList) with
      | error stop => simp [RecordHeap.recordExitChecker, loop, bind, Except.bind] at checked
      | ok calls => exact ⟨calls, rfl⟩
    refine ⟨rfl, _, calls, loop, ?_⟩
    simp only [RecordHeap.recordExitChecker, loop, bind, Except.bind, pure, Except.pure]
    rfl

theorem step_searching {found : Found}
    (searching : state.place thread = .searching site size overalloc listIt)
    (searched : state.heap.search site fuel listIt = .ok found) (answer : Nat) :
    ∃ fewer, fuel = fewer + 1 ∧
      ((found = .place listIt ∧
          state.step thread answer = state.enter thread (.allocating site size overalloc listIt)) ∨
        (∃ record, found = .record listIt ∧ state.heap.record listIt = some record ∧
          state.step thread answer = state.enter thread (.storing
            ⟨thread, .push site size overalloc, 0, .record listIt⟩ listIt
            (countStores size overalloc))) ∨
        (state.heap.search site fewer (state.heap.links.next listIt) = .ok found ∧
          state.step thread answer = state.enter thread (.searching site size overalloc
            (state.heap.links.next listIt)))) := by
  cases fuel with
  | zero => cases searched
  | succ fewer =>
    refine ⟨fewer, rfl, ?_⟩
    rw [RecordHeap.search] at searched
    simp only [Threads.step, searching]
    split
    · rename_i back
      rw [if_pos back] at searched
      exact .inl ⟨(Except.ok.inj searched).symm, rfl⟩
    · rename_i inside
      rw [if_neg inside] at searched
      split
      · rename_i none
        rw [none] at searched
        cases searched
      · rename_i record stored
        rw [stored] at searched
        simp only at searched ⊢
        split
        · rename_i above
          rw [if_pos above] at searched
          exact .inl ⟨(Except.ok.inj searched).symm, rfl⟩
        · rename_i notAbove
          rw [if_neg notAbove] at searched
          split
          · rename_i later
            rw [if_pos later] at searched
            exact .inl ⟨(Except.ok.inj searched).symm, rfl⟩
          · rename_i notLater
            rw [if_neg notLater] at searched
            split
            · rename_i mine
              rw [if_pos mine] at searched
              exact .inr (.inl ⟨record, (Except.ok.inj searched).symm, stored, rfl⟩)
            · rename_i other
              rw [if_neg other] at searched
              exact .inr (.inr ⟨searched, rfl⟩)

theorem step_reporting {later : RecordHeap w} {rest : List (ReportLine w)}
    (reporting : state.place thread = .reporting flags listIt lines)
    (loop : RecordHeap.reportLoop flags fuel listIt state.heap = .ok (later, rest)) (answer : Nat) :
    ∃ fewer, fuel = fewer + 1 ∧
      ((later = state.heap ∧ rest = [] ∧ state.step thread answer = state.enter thread
          (.unlocking ⟨thread, .report flags, 0, .reported lines⟩)) ∨
        (RecordHeap.reportLoop flags fewer (state.heap.links.next listIt) state.heap =
            .ok (later, rest) ∧
          state.step thread answer = state.enter thread
            (.reporting flags (state.heap.links.next listIt) lines)) ∨
        (∃ record others, state.heap.record listIt = some record ∧
          rest = record.reportLine flags :: others ∧
          RecordHeap.reportLoop flags fewer (state.heap.links.next listIt)
            (state.heap.setRecord listIt { record with dirty := false }) = .ok (later, others) ∧
          state.step thread answer =
            (state.store (state.heap.setRecord listIt { record with dirty := false })).enter thread
              (.reporting flags (state.heap.links.next listIt)
                (lines ++ [record.reportLine flags])))) := by
  cases fuel with
  | zero => cases loop
  | succ fewer =>
    refine ⟨fewer, rfl, ?_⟩
    rw [RecordHeap.reportLoop] at loop
    simp only [Threads.step, reporting]
    split
    · rename_i back
      rw [if_pos back] at loop
      cases loop
      exact .inl ⟨rfl, rfl, rfl⟩
    · rename_i inside
      rw [if_neg inside] at loop
      split
      · rename_i none
        rw [none] at loop
        cases loop
      · rename_i record stored
        rw [stored] at loop
        simp only at loop ⊢
        split
        · rename_i skipped
          rw [if_pos skipped] at loop
          exact .inr (.inl ⟨loop, rfl⟩)
        · rename_i printed
          rw [if_neg printed] at loop
          simp only [bind, Except.bind] at loop
          split at loop
          · cases loop
          · rename_i result inner
            cases loop
            exact .inr (.inr ⟨record, _, stored, rfl, inner, rfl⟩)

theorem step_listing {rest : List (LogCall w)} (listing : state.place thread = .listing listIt calls)
    (loop : state.heap.exitLoop fuel listIt = .ok rest) (answer : Nat) :
    ∃ fewer, fuel = fewer + 1 ∧
      ((rest = [] ∧ state.step thread answer = state.enter thread
          (.unlocking ⟨thread, .exit, 0, .exited calls⟩)) ∨
        (∃ (record : AllocRecord w) (others : List (LogCall w)),
          rest = .unclean record.cnt record.toSite record.overallocations :: others ∧
          state.heap.exitLoop fewer (state.heap.links.next listIt) = .ok others ∧
          state.step thread answer = state.enter thread (.listing (state.heap.links.next listIt)
            (calls ++ [.unclean record.cnt record.toSite record.overallocations])))) := by
  cases fuel with
  | zero => cases loop
  | succ fewer =>
    refine ⟨fewer, rfl, ?_⟩
    rw [RecordHeap.exitLoop] at loop
    simp only [Threads.step, listing]
    split
    · rename_i back
      rw [if_pos back] at loop
      exact .inl ⟨(Except.ok.inj loop).symm, rfl⟩
    · rename_i inside
      rw [if_neg inside] at loop
      split
      · rename_i none
        rw [none] at loop
        cases loop
      · rename_i record stored
        rw [stored] at loop
        simp only [bind, Except.bind] at loop
        split at loop
        · cases loop
        · rename_i others inner
          cases loop
          exact .inr ⟨record, others, rfl, inner, rfl⟩

theorem Follows.search (follows : state.Follows base entries) (held : state.holder = some thread)
    (searching : state.place thread = .searching site size overalloc listIt) (answer : Nat) :
    (state.step thread answer).Follows base entries := by
  have continues := follows.held thread held
  rw [searching] at continues
  obtain ⟨same, fuel, found⟩ := continues
  obtain ⟨stop, searched, _⟩ := follows.holds.search_stops site
  have here : base.found site = .ok stop := searched
  rw [here, ← same] at found
  obtain ⟨fewer, rfl, ⟨rfl, stepped⟩ | ⟨record, rfl, stored, stepped⟩ | ⟨goesOn, stepped⟩⟩ :=
    step_searching searching found answer
  · rw [stepped]
    exact follows.goOn held ⟨same, here⟩
  · rw [stepped]
    rw [same] at stored
    refine follows.goOn held ⟨record, same.symm ▸ stored, ⟨rfl, ?_, .inl rfl, by rintro _ _ ⟨⟩⟩,
      countStores_tail size overalloc, .inl same⟩
    simp only [Task.run, RecordHeap.listPushRecord, searched, stored, count_eq, same, bind,
      Except.bind, pure, Except.pure]
  · rw [stepped]
    refine follows.goOn held ⟨same, fewer, ?_⟩
    rw [here, ← same]
    exact goesOn

theorem Follows.allocate (follows : state.Follows base entries) (held : state.holder = some thread)
    (allocating : state.place thread = .allocating site size overalloc listIt)
    (answered : answer = 0 ∨ state.heap.Fresh answer) :
    (state.step thread answer).Follows base entries := by
  have continues := follows.held thread held
  rw [allocating] at continues
  obtain ⟨same, found⟩ := continues
  have here : base.search site (base.created.length + 1) (base.links.next base.allocList) =
    .ok (.place listIt) := found
  simp only [Threads.step, allocating]
  split
  · rename_i refused
    refine follows.goOn held ⟨same, ?_⟩
    simp [Task.run, RecordHeap.listPushRecord, here, bind, Except.bind]
  · rename_i granted
    have fresh := answered.resolve_left granted
    rw [same] at fresh ⊢
    refine follows.goOn held ⟨rfl, ?_, .inr fresh, by rintro _ _ ⟨⟩⟩
    simp only [Task.run, RecordHeap.listPushRecord, here, granted, if_false, listAddTail_eq, bind,
      Except.bind, pure, Except.pure]

theorem Follows.link {served : LockedCall w} (follows : state.Follows base entries)
    (held : state.holder = some thread)
    (linking : state.place thread = .linking served record listIt left) (answer : Nat) :
    (state.step thread answer).Follows base entries := by
  have continues := follows.held thread held
  rw [linking] at continues
  cases left with
  | nil =>
    simp only [Threads.step, linking]
    exact follows.goOn held continues
  | cons store left =>
    simp only [Threads.step, linking]
    exact follows.goOn held continues

theorem Follows.storeTally {served : LockedCall w} (follows : state.Follows base entries)
    (held : state.holder = some thread)
    (storing : state.place thread = .storing served node left) (answer : Nat) :
    (state.step thread answer).Follows base entries := by
  have continues := follows.held thread held
  rw [storing] at continues
  obtain ⟨record, stored, ends, tail, count⟩ := continues
  cases left with
  | nil =>
    simp only [Threads.step, storing]
    refine follows.goOn held ?_
    have same : state.heap.setRecord node { record with toTally := record.toTally } = state.heap := by
      have kept : Function.update state.heap.record node (some record) = state.heap.record := by
        rw [← stored]
        exact Function.update_eq_self ..
      simp only [RecordHeap.setRecord, kept]
    exact same ▸ ends
  | cons store left =>
    simp only [Threads.step, storing, stored]
    refine follows.goOn held ⟨_, Function.update_self .., ?_, ?_, .inr tail⟩
    · simpa only [RecordHeap.setRecord, Function.update_idem, List.foldl_cons] using ends
    · exact fun other member => tail other (List.mem_of_mem_tail member)

theorem Follows.report (follows : state.Follows base entries) (held : state.holder = some thread)
    (reporting : state.place thread = .reporting flags listIt lines) (answer : Nat) :
    (state.step thread answer).Follows base entries := by
  have continues := follows.held thread held
  rw [reporting] at continues
  obtain ⟨counts, fuel, later, rest, loop, whole⟩ := continues
  obtain ⟨fewer, rfl, ⟨rfl, rfl, stepped⟩ | ⟨goesOn, stepped⟩ |
    ⟨record, others, stored, rfl, goesOn, stepped⟩⟩ := step_reporting reporting loop answer
  · rw [stepped]
    refine follows.goOn held ⟨rfl, ?_, .inl rfl, by rintro _ _ ⟨⟩⟩
    simp only [Task.run, whole, List.append_nil, bind, Except.bind, pure, Except.pure]
  · rw [stepped]
    exact follows.goOn held ⟨counts, fewer, later, rest, goesOn, whole⟩
  · rw [stepped]
    refine follows.goOn held ⟨fun node => ?_, fewer, later, others, goesOn, ?_⟩
    · rw [← counts node]
      by_cases here : node = listIt
      · simp [RecordHeap.cntOf, RecordHeap.setRecord, here, stored]
      · simp [RecordHeap.cntOf, RecordHeap.setRecord, here]
    · rw [whole, List.append_assoc]
      rfl

theorem Follows.list (follows : state.Follows base entries) (held : state.holder = some thread)
    (listing : state.place thread = .listing listIt calls) (answer : Nat) :
    (state.step thread answer).Follows base entries := by
  have continues := follows.held thread held
  rw [listing] at continues
  obtain ⟨same, fuel, rest, loop, whole⟩ := continues
  rw [← same] at loop
  obtain ⟨fewer, rfl, ⟨rfl, stepped⟩ | ⟨record, others, rfl, goesOn, stepped⟩⟩ :=
    step_listing listing loop answer
  · rw [stepped]
    refine follows.goOn held ⟨rfl, ?_, .inl rfl, by rintro _ _ ⟨⟩⟩
    simp only [Task.run, whole, same, List.append_nil, bind, Except.bind, pure, Except.pure]
  · rw [stepped]
    refine follows.goOn held ⟨same, fewer, others, same ▸ goesOn, ?_⟩
    rw [whole, List.append_assoc]
    rfl

structure Within (state after : Threads w) (thread : Nat) : Prop where
  served : after.served = state.served
  task : (after.place thread).task = (state.place thread).task
  others : ∀ other, other ≠ thread → after.place other = state.place other

theorem Within.enter {after : Threads w} (served : after.served = state.served)
    (places : after.place = state.place) (task : place.task = (state.place thread).task) :
    Within state (after.enter thread place) thread where
  served := served
  task := by rw [enter_place, if_pos rfl, task]
  others other apart := by rw [enter_place, if_neg apart, places]

theorem Within.fault (state : Threads w) (thread : Nat) :
    Within state { state with fault := true } thread :=
  ⟨rfl, rfl, fun _ _ => rfl⟩

theorem step_within (state : Threads w) (thread answer : Nat)
    (stays : ∀ task, state.place thread ≠ .exiting task)
    (locked : ∀ served, state.place thread ≠ .unlocking served) :
    Within state (state.step thread answer) thread := by
  cases here : state.place thread with
  | outside =>
    simp only [Threads.step, here]
    exact ⟨rfl, rfl, fun _ _ => rfl⟩
  | waiting task =>
    simp only [Threads.step, here]
    exact .enter rfl rfl (by rw [here]; cases task <;> rfl)
  | exiting task => exact absurd here (stays task)
  | searching site size overalloc listIt =>
    simp only [Threads.step, here]
    split
    · exact .enter rfl rfl (by rw [here]; rfl)
    · split
      · exact .fault state thread
      · split
        · exact .enter rfl rfl (by rw [here]; rfl)
        · split
          · exact .enter rfl rfl (by rw [here]; rfl)
          · split
            · exact .enter rfl rfl (by rw [here]; rfl)
            · exact .enter rfl rfl (by rw [here]; rfl)
  | allocating site size overalloc listIt =>
    simp only [Threads.step, here]
    split
    · exact .enter rfl rfl (by rw [here]; rfl)
    · exact .enter rfl rfl (by rw [here]; rfl)
  | linking served record listIt left =>
    cases left <;> simp only [Threads.step, here] <;> exact .enter rfl rfl (by rw [here]; rfl)
  | storing served node left =>
    cases left with
    | nil =>
      simp only [Threads.step, here]
      exact .enter rfl rfl (by rw [here]; rfl)
    | cons store left =>
      simp only [Threads.step, here]
      split
      · exact .fault state thread
      · exact .enter rfl rfl (by rw [here]; rfl)
  | reporting flags listIt lines =>
    simp only [Threads.step, here]
    split
    · exact .enter rfl rfl (by rw [here]; rfl)
    · split
      · exact .fault state thread
      · split
        · exact .enter rfl rfl (by rw [here]; rfl)
        · exact .enter rfl rfl (by rw [here]; rfl)
  | listing listIt calls =>
    simp only [Threads.step, here]
    split
    · exact .enter rfl rfl (by rw [here]; rfl)
    · split
      · exact .fault state thread
      · exact .enter rfl rfl (by rw [here]; rfl)
  | unlocking served => exact absurd here (locked served)

/-- A step leaves the list between the calls as it is, or gives one more call its turn. -/
theorem Follows.step (follows : state.Follows base entries)
    (enabled : (threadSystem w).enabled state (.step thread answer)) :
    ((state.step thread answer).Follows base entries ∧
        Within state (state.step thread answer) thread) ∨
      ∃ served laterEntries, served.Ends thread base state.heap ∧
        state.place thread = .unlocking served ∧
        state.step thread answer = { state with
          holder := none
          served := state.served ++ [served] }.enter thread .outside ∧
        (state.step thread answer).Follows state.heap laterEntries := by
  obtain ⟨outside, free, answered⟩ := enabled
  have within := step_within state thread answer
  by_cases held : state.holder = some thread
  · have continues := follows.held thread held
    cases here : state.place thread with
    | outside => exact absurd here outside
    | waiting task => simp [here, Place.waits, held] at free
    | exiting task => simp [here, Place.waits, held] at free
    | searching => exact .inl ⟨follows.search held here answer, within (by simp [here]) (by simp [here])⟩
    | allocating =>
      exact .inl ⟨follows.allocate held here answered, within (by simp [here]) (by simp [here])⟩
    | linking => exact .inl ⟨follows.link held here answer, within (by simp [here]) (by simp [here])⟩
    | storing =>
      exact .inl ⟨follows.storeTally held here answer, within (by simp [here]) (by simp [here])⟩
    | reporting => exact .inl ⟨follows.report held here answer, within (by simp [here]) (by simp [here])⟩
    | listing => exact .inl ⟨follows.list held here answer, within (by simp [here]) (by simp [here])⟩
    | unlocking served =>
      rw [here] at continues
      obtain ⟨later, after⟩ := follows.unlock held continues
      have stepped : state.step thread answer = { state with
          holder := none
          served := state.served ++ [served] }.enter thread .outside := by
        simp only [Threads.step, here]
      exact .inr ⟨served, later, continues, rfl, stepped, stepped ▸ after⟩
  · rcases follows.others thread held with nothing | ⟨task, waiting⟩
    · exact absurd nothing outside
    · have unlocked : state.holder = none := free (by rw [waiting]; rfl)
      have first : (task.first thread state.heap).Continues thread base base :=
        (follows.free unlocked).symm ▸ follows.first waiting
      refine .inl ⟨?_, within (by simp [waiting]) (by simp [waiting])⟩
      simp only [Threads.step, waiting]
      exact follows.lock unlocked first

theorem Follows.call (follows : state.Follows base entries)
    (enabled : (threadSystem w).enabled state (.call thread task)) :
    (state.enter thread (.waiting task)).Follows base entries where
  running := follows.running
  holds := follows.holds
  given := follows.given
  asked other node size asked := by
    rw [enter_place] at asked
    split at asked
    · exact follows.given node (enabled.2 node size (Place.waiting.inj asked))
    · exact follows.asked other node size asked
  others other apart := by
    rw [enter_place]
    split
    · exact .inr ⟨task, rfl⟩
    · exact follows.others other apart
  free := follows.free
  held other holds := by
    have continues := follows.held other holds
    rw [enter_place]
    split
    · rename_i same
      rw [same, enabled.1] at continues
      exact continues.elim
    · exact continues

end Threads

/-! ## Whole runs -/

/-- The call that a thread begins with an action. -/
def ThreadAction.callOf (thread : Nat) : ThreadAction w → Option (Task w)
  | .call other task => if other = thread then some task else none
  | .step _ _ => none

/-- The calls of a thread that have had their turn, and the one it is in. -/
def Threads.callsOf (state : Threads w) (thread : Nat) : List (Task w) :=
  (state.served.filter (·.thread = thread)).map LockedCall.task ++ (state.place thread).task.toList

/-- The calls so far ran one after the other, the last ones leaving the list `base`. -/
structure Threads.Serial (start : RecordHeap w) (state : Threads w) (base : RecordHeap w)
    (entries : List (Entry w)) : Prop where
  inTurn : InTurn start state.served base
  follows : state.Follows base entries

theorem Threads.Serial.initial (allocList : Nat) : (Threads.initial w allocList).Serial
    (.initial w allocList) (.initial w allocList) [] :=
  ⟨.none, .initial allocList⟩

/-- From one list between the calls to the next one: it is the same, or one call had its turn. -/
def Threads.Turn (state after : Threads w) (base later : RecordHeap w) : Prop :=
  (later = base ∧ after.served = state.served) ∨ ∃ (thread : Nat) (served : LockedCall w),
    served.Ends thread base later ∧ after.served = state.served ++ [served]

variable {start base : RecordHeap w} {state : Threads w} {entries : List (Entry w)}

theorem Threads.Serial.next (serial : state.Serial start base entries) {action : ThreadAction w}
    (enabled : (threadSystem w).enabled state action) :
    (∃ later laterEntries, ((threadSystem w).next state action).Serial start later laterEntries ∧
      state.Turn ((threadSystem w).next state action) base later) ∧
      ∀ thread, ((threadSystem w).next state action).callsOf thread =
        state.callsOf thread ++ (action.callOf thread).toList := by
  cases action with
  | call caller task =>
    refine ⟨⟨base, entries, ⟨serial.inTurn, serial.follows.call enabled⟩, .inl ⟨rfl, rfl⟩⟩,
      fun thread => ?_⟩
    have served : ((threadSystem w).next state (.call caller task)).served = state.served := rfl
    have place : ((threadSystem w).next state (.call caller task)).place thread =
      if thread = caller then .waiting task else state.place thread := Threads.enter_place ..
    rw [callsOf, callsOf, served, place, ThreadAction.callOf]
    by_cases same : thread = caller
    · subst same
      rw [if_pos rfl, if_pos rfl, enabled.1]
      simp [Place.task]
    · rw [if_neg same, if_neg (Ne.symm same)]
      simp
  | step caller answer =>
    rcases serial.follows.step enabled with
      ⟨follows, within⟩ | ⟨served, later, ends, unlocking, stepped, follows⟩
    · refine ⟨⟨base, entries, ⟨within.served ▸ serial.inTurn, follows⟩, .inl ⟨rfl, within.served⟩⟩,
        fun thread => ?_⟩
      have served : ((threadSystem w).next state (.step caller answer)).served = state.served :=
        within.served
      have task : (((threadSystem w).next state (.step caller answer)).place thread).task =
          (state.place thread).task := by
        by_cases same : thread = caller
        · rw [same]
          exact within.task
        · exact congrArg Place.task (within.others thread same)
      rw [callsOf, callsOf, served, task, ThreadAction.callOf]
      simp
    · have calls : ((threadSystem w).next state (.step caller answer)).served =
          state.served ++ [served] := congrArg Threads.served stepped
      refine ⟨⟨state.heap, later, ⟨?_, follows⟩, .inr ⟨caller, served, ends, calls⟩⟩,
        fun thread => ?_⟩
      · exact calls.symm ▸ InTurn.served serial.inTurn ends.ran
      · have next : (threadSystem w).next state (.step caller answer) = _ := stepped
        rw [next, callsOf, callsOf, Threads.enter_place, ThreadAction.callOf]
        by_cases same : thread = caller
        · subst same
          simp [Threads.enter, unlocking, Place.task, ends.mine]
        · have apart : served.thread ≠ thread := fun mine => same (mine.symm.trans ends.mine)
          simp [Threads.enter, same, apart]

theorem Threads.Serial.exec (serial : state.Serial start base entries)
    (legal : (threadSystem w).Legal state actions) :
    (∃ later laterEntries, ((threadSystem w).exec state actions).Serial start later laterEntries) ∧
      ∀ thread, ((threadSystem w).exec state actions).callsOf thread =
        state.callsOf thread ++ actions.filterMap (·.callOf thread) := by
  induction actions generalizing state base entries with
  | nil => exact ⟨⟨base, entries, serial⟩, fun thread => by simp⟩
  | cons action rest ih =>
    obtain ⟨⟨later, laterEntries, next, _⟩, calls⟩ := serial.next legal.1
    obtain ⟨last, all⟩ := ih next legal.2
    refine ⟨last, fun thread => ?_⟩
    rw [System.exec_cons, all thread, calls thread, List.append_assoc]
    cases begun : action.callOf thread with
    | none => simp [begun]
    | some task => simp [begun]

theorem threads_serial (allocList : Nat)
    (legal : (threadSystem w).Legal (.initial w allocList) actions) :
    ∃ base entries, ((threadSystem w).exec (.initial w allocList) actions).Serial
      (.initial w allocList) base entries := by
  exact ((Threads.Serial.initial allocList).exec legal).1

/-- The calls of any number of threads are atomic. In every interleaving of their steps each thread's
calls have their turns in the order in which it makes them, and what the calls return and leave is
what they return and leave one after the other, each run alone; between them the list is sorted,
whole, and joined in both directions. -/
theorem calls_serial (allocList : Nat)
    (legal : (threadSystem w).Legal (.initial w allocList) actions) :
    let state := (threadSystem w).exec (.initial w allocList) actions
    state.fault = false ∧
      (∀ thread, state.callsOf thread = actions.filterMap (·.callOf thread)) ∧
      ∃ base nodes, InTurn (.initial w allocList) state.served base ∧ base.WellFormed nodes ∧
        (state.holder = none → state.heap = base) := by
  intro state
  obtain ⟨⟨base, entries, serial⟩, calls⟩ := (Threads.Serial.initial allocList).exec legal
  exact ⟨serial.follows.running, calls, base, _, serial.inTurn, serial.follows.holds.wellFormed,
    serial.follows.free⟩

def racingTask : Task 64 := .push ⟨⟨[113], by decide⟩, 7⟩ 20 false

/-- Two threads that ask from one place in the code, the second while the first has the lock. -/
def racingCalls : List (ThreadAction 64) :=
  [.call 0 racingTask, .step 0 0, .call 1 racingTask, .step 0 0, .step 0 100] ++
    List.replicate 6 (.step 0 0) ++ List.replicate 3 (.step 1 0)

theorem racingCalls_legal : (threadSystem 64).Legal (.initial 64 8) racingCalls := by
  refine ⟨⟨rfl, nofun⟩, ⟨by decide, by decide, .inl rfl⟩, ⟨rfl, nofun⟩,
    ⟨by decide, by decide, .inl rfl⟩, ⟨by decide, by decide, .inr (by decide)⟩, ?_⟩
  iterate 9 refine ⟨⟨by decide +kernel, by decide +kernel, .inl rfl⟩, ?_⟩
  trivial

theorem calls_serial_two :
    let state := (threadSystem 64).exec (.initial 64 8) racingCalls
    state.fault = false ∧
      (∀ thread, state.callsOf thread = racingCalls.filterMap (·.callOf thread)) ∧
      ∃ base nodes, InTurn (.initial 64 8) state.served base ∧ base.WellFormed nodes ∧
        (state.holder = none → state.heap = base) :=
  calls_serial 8 racingCalls_legal

end TrippingRobot.Memleak
