import TrippingRobot.Machine.Run
import TrippingRobot.Memleak.Log

/-! Threads in the bookkeeper, store by store: a build with `SS_MEMTRACE_THREADSAFE`, where
`rec_lock` guards the list, and with `SS_ENABLE_MEMTRACE_EXIT`, which reports at `exit`. -/

namespace TrippingRobot.Memleak

open TrippingRobot.Data TrippingRobot.Machine

variable {w : Nat}

/-! ## What a call does while it holds the lock -/

/-- The calls that take `rec_lock`; `release` is the locked part of `free_memory`, with what stands
in the header of the block, and `exit` is `~RecordExitChecker`. -/
inductive Task (w : Nat) where
  | push (site : Site) (size : BitVec w) (overalloc : Bool)
  | release (node : Nat) (size : BitVec w)
  | report (flags : CInt)
  | exit
deriving DecidableEq

inductive Outcome (w : Nat) where
  | record (node : Nat)
  | released
  | reported (lines : List (ReportLine w))
  | exited (calls : List (LogCall w))
deriving DecidableEq

/-- The call as a whole; `answer` is what `malloc` gives to it. -/
def Task.run (answer : Nat) (heap : RecordHeap w) :
    Task w → Except Stop (RecordHeap w × Outcome w)
  | .push site size overalloc => do
    let (heap, node) ← heap.listPushRecord site size overalloc answer
    return (heap, .record node)
  | .release node size => do
    let heap ← heap.releaseRecord node size
    return (heap, .released)
  | .report flags => do
    let (heap, lines) ← heap.memleakReport flags
    return (heap, .reported lines)
  | .exit => do
    let calls ← heap.recordExitChecker
    return (heap, .exited calls)

/-- A call that has had its turn; `answer` is 0 if it did not ask for memory. -/
structure LockedCall (w : Nat) where
  thread : Nat
  task : Task w
  answer : Nat
  outcome : Outcome w
deriving DecidableEq

/-- The stores of `list_add_tail`. -/
inductive LinkStore where
  | prevNext
  | next
  | prev
  | headPrev
deriving DecidableEq

def LinkStore.apply (record head : Nat) (links : Links Nat) : LinkStore → Links Nat
  | .prevNext => links.setNext (links.prev head) record
  | .next => links.setNext record head
  | .prev => links.setPrev record (links.prev head)
  | .headPrev => links.setPrev head record

def linkStores : List LinkStore := [.prevNext, .next, .prev, .headPrev]

/-- The stores to a record that is in the list already. -/
inductive TallyStore (w : Nat) where
  | increment
  | decrement
  | add (size : BitVec w)
  | subtract (size : BitVec w)
  | overallocated
  | touch
deriving DecidableEq

def TallyStore.apply (tally : Tally w) : TallyStore w → Tally w
  | .increment => { tally with cnt := tally.cnt + 1 }
  | .decrement => { tally with cnt := tally.cnt - 1 }
  | .add size => { tally with memTotal := tally.memTotal + size }
  | .subtract size => { tally with memTotal := tally.memTotal - size }
  | .overallocated => { tally with overallocations := true }
  | .touch => { tally with dirty := true }

def countStores (size : BitVec w) (overalloc : Bool) : List (TallyStore w) :=
  (if 0 < size then
    [.increment, .add size] ++ (if overalloc then [.overallocated] else []) else []) ++ [.touch]

def releaseStores (size : BitVec w) : List (TallyStore w) := [.decrement, .touch, .subtract size]

/-- Where a thread is: `waiting` for the lock, or in its call, with the stores `left` that it has
still to make. In `exiting` it has called `exit` from within `task` and waits for the lock in
`~RecordExitChecker`. -/
inductive Place (w : Nat) where
  | outside
  | waiting (task : Task w)
  | exiting (task : Task w)
  | searching (site : Site) (size : BitVec w) (overalloc : Bool) (listIt : Nat)
  | allocating (site : Site) (size : BitVec w) (overalloc : Bool) (listIt : Nat)
  | linking (served : LockedCall w) (record listIt : Nat) (left : List LinkStore)
  | storing (served : LockedCall w) (node : Nat) (left : List (TallyStore w))
  | reporting (flags : CInt) (listIt : Nat) (lines : List (ReportLine w))
  | listing (listIt : Nat) (calls : List (LogCall w))
  | unlocking (served : LockedCall w)
deriving DecidableEq

/-- The places where a thread waits for the lock. -/
def Place.waits : Place w → Bool
  | .waiting _ | .exiting _ => true
  | _ => false

/-- The call a thread is in. -/
def Place.task : Place w → Option (Task w)
  | .outside => none
  | .waiting task | .exiting task => some task
  | .searching site size overalloc _ | .allocating site size overalloc _ =>
    some (.push site size overalloc)
  | .linking served _ _ _ | .storing served _ _ | .unlocking served => some served.task
  | .reporting flags _ _ => some (.report flags)
  | .listing _ _ => some .exit

structure Threads (w : Nat) where
  heap : RecordHeap w
  holder : Option Nat
  place : Nat → Place w
  served : List (LockedCall w)
  fault : Bool

def Threads.initial (w : Nat) (allocList : Nat) : Threads w where
  heap := .initial w allocList
  holder := none
  place := fun _ => .outside
  served := []
  fault := false

/-- The first place of a call behind `pthread_mutex_lock`. -/
def Task.first (thread : Nat) (heap : RecordHeap w) : Task w → Place w
  | .push site size overalloc =>
    .searching site size overalloc (heap.links.next heap.allocList)
  | .release node size =>
    .storing ⟨thread, .release node size, 0, .released⟩ node (releaseStores size)
  | .report flags => .reporting flags (heap.links.next heap.allocList) []
  | .exit => .listing (heap.links.next heap.allocList) [.exited]

namespace Threads

def enter (state : Threads w) (thread : Nat) (place : Place w) : Threads w :=
  { state with place := Function.update state.place thread place }

def store (state : Threads w) (heap : RecordHeap w) : Threads w := { state with heap := heap }

/-- The next step of a thread; `answer` is what `malloc` gives if it is asked. The fields of a new
record are stored at once: nobody else has its address. Without memory for it the thread calls
`exit`, the lock in its hands. -/
def step (state : Threads w) (thread answer : Nat) : Threads w :=
  let heap := state.heap
  match state.place thread with
  | .outside => state
  | .waiting task => { state with holder := some thread }.enter thread (task.first thread heap)
  | .exiting _ => { state with holder := some thread }.enter thread (Task.exit.first thread heap)
  | .searching site size overalloc listIt =>
    if listIt = heap.allocList then state.enter thread (.allocating site size overalloc listIt)
    else
      match heap.record listIt with
      | none => { state with fault := true }
      | some record =>
        let cmpResult := strcmp record.file.bytes site.file.bytes
        if cmpResult > 0 then state.enter thread (.allocating site size overalloc listIt)
        else if cmpResult = 0 ∧ site.line.slt record.line then
          state.enter thread (.allocating site size overalloc listIt)
        else if cmpResult = 0 ∧ site.line = record.line then
          state.enter thread (.storing ⟨thread, .push site size overalloc, 0, .record listIt⟩ listIt
            (countStores size overalloc))
        else state.enter thread (.searching site size overalloc (heap.links.next listIt))
  | .allocating site size overalloc listIt =>
    if answer = 0 then state.enter thread (.exiting (.push site size overalloc))
    else
      let heap := heap.setRecord answer ⟨site, .fresh size overalloc⟩
      let heap := { heap with created := heap.created ++ [answer] }
      (state.store heap).enter thread (.linking
        ⟨thread, .push site size overalloc, answer, .record answer⟩ answer listIt linkStores)
  | .linking served _ _ [] => state.enter thread (.unlocking served)
  | .linking served record listIt (store :: left) =>
    (state.store { heap with links := store.apply record listIt heap.links }).enter thread
      (.linking served record listIt left)
  | .storing served _ [] => state.enter thread (.unlocking served)
  | .storing served node (store :: left) =>
    match heap.record node with
    | none => { state with fault := true }
    | some record =>
      (state.store (heap.setRecord node
        { record with toTally := store.apply record.toTally })).enter thread
          (.storing served node left)
  | .reporting flags listIt lines =>
    if listIt = heap.allocList then
      state.enter thread (.unlocking ⟨thread, .report flags, 0, .reported lines⟩)
    else
      match heap.record listIt with
      | none => { state with fault := true }
      | some record =>
        if record.skipped flags then
          state.enter thread (.reporting flags (heap.links.next listIt) lines)
        else
          (state.store (heap.setRecord listIt { record with dirty := false })).enter thread
            (.reporting flags (heap.links.next listIt) (lines ++ [record.reportLine flags]))
  | .listing listIt calls =>
    if listIt = heap.allocList then
      state.enter thread (.unlocking ⟨thread, .exit, 0, .exited calls⟩)
    else
      match heap.record listIt with
      | none => { state with fault := true }
      | some record =>
        state.enter thread (.listing (heap.links.next listIt)
          (calls ++ [.unclean record.cnt record.toSite record.overallocations]))
  | .unlocking served =>
    { state with holder := none, served := state.served ++ [served] }.enter thread .outside

/-- A record that some call has got, as the header of its block has it. -/
def Given (state : Threads w) (node : Nat) : Prop :=
  ∃ served ∈ state.served, served.outcome = .record node

end Threads

/-- What `memleak_allocs_at` reads of a record, without the lock. -/
def RecordHeap.cntOf (heap : RecordHeap w) (node : Nat) : Option CInt :=
  (heap.record node).map fun record => record.cnt

inductive ThreadAction (w : Nat) where
  | call (thread : Nat) (task : Task w)
  | step (thread answer : Nat)

/-- A thread makes one call at a time, and releases only blocks that the bookkeeper has given out.
It waits for the lock, which no thread gets twice, and `malloc` answers NULL or memory that is in
no use. -/
def threadSystem (w : Nat) : System (Threads w) (ThreadAction w) where
  enabled state
    | .call thread task => state.place thread = .outside ∧
      ∀ node size, task = .release node size → state.Given node
    | .step thread answer => state.place thread ≠ .outside ∧
      ((state.place thread).waits = true → state.holder = none) ∧
      (answer = 0 ∨ state.heap.Fresh answer)
  next state
    | .call thread task => state.enter thread (.waiting task)
    | .step thread answer => state.step thread answer

end TrippingRobot.Memleak
