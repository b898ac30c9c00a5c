import TrippingRobot.Memleak.Serial

/-! How long a call holds `rec_lock`: for a number of its own steps that the length of the list
bounds, and only one that ends the program in the lock never gives it back. -/

namespace TrippingRobot.Memleak

open TrippingRobot.Data TrippingRobot.Machine

variable {w : Nat} {start base heap : RecordHeap w} {state : Threads w} {entries : List (Entry w)}
  {place : Place w} {thread : Nat}

/-! ## Steps that are left -/

/-- The place of a thread that has called `exit` in the lock. -/
def Place.exits : Place w → Bool
  | .exiting _ => true
  | _ => false

/-- The holder of the lock has at most so many steps left in it. -/
def Place.Left (heap : RecordHeap w) (left : Nat) : Place w → Prop
  | .outside | .waiting _ => False
  | .exiting _ => 1 ≤ left
  | .searching site _ _ listIt => ∃ fuel found, fuel + 7 ≤ left ∧
      heap.search site fuel listIt = .ok found
  | .allocating _ _ _ _ => 7 ≤ left
  | .linking _ _ _ stores => stores.length + 2 ≤ left
  | .storing _ _ stores => stores.length + 2 ≤ left
  | .reporting flags listIt _ => ∃ fuel result, fuel + 1 ≤ left ∧
      RecordHeap.reportLoop flags fuel listIt heap = .ok result
  | .listing listIt _ => ∃ fuel calls, fuel + 1 ≤ left ∧ heap.exitLoop fuel listIt = .ok calls
  | .unlocking _ => 1 ≤ left

/-- The most steps that a call makes in the lock, by the number of the records. -/
def lockSteps (heap : RecordHeap w) : Nat := heap.created.length + 8

theorem Place.Left.mono {left more : Nat} (holds : place.Left heap left) (most : left ≤ more) :
    place.Left heap more := by
  cases place with
  | outside | waiting => exact holds
  | searching =>
    obtain ⟨fuel, found, few, searched⟩ := holds
    exact ⟨fuel, found, few.trans most, searched⟩
  | exiting | allocating | linking | storing | unlocking => exact Nat.le_trans holds most
  | reporting =>
    obtain ⟨fuel, result, few, loop⟩ := holds
    exact ⟨fuel, result, few.trans most, loop⟩
  | listing =>
    obtain ⟨fuel, calls, few, loop⟩ := holds
    exact ⟨fuel, calls, few.trans most, loop⟩

theorem Place.Left.pos {left : Nat} (holds : place.Left heap left) : 1 ≤ left := by
  cases place with
  | outside | waiting => exact holds.elim
  | exiting | unlocking => exact holds
  | searching =>
    obtain ⟨fuel, found, few, _⟩ := holds
    omega
  | allocating | linking | storing =>
    simp only [Place.Left] at holds
    omega
  | reporting =>
    obtain ⟨fuel, result, few, _⟩ := holds
    omega
  | listing =>
    obtain ⟨fuel, calls, few, _⟩ := holds
    omega

theorem countStores_length (size : BitVec w) (overalloc : Bool) :
    (countStores size overalloc).length ≤ 4 := by
  rw [countStores]
  split
  · cases overalloc with
    | true => simp
    | false => simp
  · simp

theorem RecordHeap.Holds.left_first (holds : base.Holds entries) (thread : Nat) (task : Task w) :
    (task.first thread base).Left base (lockSteps base) := by
  have length : (lockSteps base) = base.created.length + 8 := rfl
  cases task with
  | push site size overalloc =>
    obtain ⟨found, searched, _⟩ := holds.search_stops site
    exact ⟨_, found, by omega, searched⟩
  | release node size =>
    have three : (releaseStores size).length = 3 := rfl
    simp only [Task.first, Place.Left, three]
    omega
  | report flags =>
    obtain ⟨later, _, returned, _⟩ := holds.memleakReport flags
    exact ⟨_, _, by omega, returned⟩
  | exit =>
    have checked := holds.recordExitChecker
    cases loop : base.exitLoop (base.created.length + 1) (base.links.next base.allocList) with
    | error stop => simp [RecordHeap.recordExitChecker, loop, bind, Except.bind] at checked
    | ok calls => exact ⟨_, calls, by omega, loop⟩

namespace Threads

/-- The holder has made a step, and has that many left; it exits only for want of memory. -/
structure GetsOn (state after : Threads w) (thread answer left : Nat) : Prop where
  holder : after.holder = state.holder
  left : (after.place thread).Left after.heap left
  stays : answer ≠ 0 → (after.place thread).exits = false

theorem GetsOn.enter {heap : RecordHeap w} {answer left : Nat} (holds : place.Left heap left)
    (stays : answer ≠ 0 → place.exits = false) :
    GetsOn state ((state.store heap).enter thread place) thread answer left where
  holder := rfl
  left := by
    rw [enter_place, if_pos rfl]
    exact holds
  stays granted := by
    rw [enter_place, if_pos rfl]
    exact stays granted

theorem step_search {left : Nat} (searching : state.place thread = .searching site size overalloc listIt)
    (holds : (state.place thread).Left state.heap (left + 1)) (answer : Nat) :
    state.GetsOn (state.step thread answer) thread answer left := by
  rw [searching] at holds
  obtain ⟨fuel, found, few, searched⟩ := holds
  obtain ⟨fewer, rfl, ⟨_, stepped⟩ | ⟨_, _, _, stepped⟩ | ⟨goesOn, stepped⟩⟩ :=
    step_searching searching searched answer
  · rw [stepped]
    exact .enter (by simp only [Place.Left]; omega) fun _ => rfl
  · have most := countStores_length size overalloc
    rw [stepped]
    exact .enter (by simp only [Place.Left]; omega) fun _ => rfl
  · rw [stepped]
    exact .enter ⟨fewer, found, by omega, goesOn⟩ fun _ => rfl

theorem step_report {left : Nat} (reporting : state.place thread = .reporting flags listIt lines)
    (holds : (state.place thread).Left state.heap (left + 1)) (answer : Nat) :
    state.GetsOn (state.step thread answer) thread answer left := by
  rw [reporting] at holds
  obtain ⟨fuel, ⟨later, rest⟩, few, loop⟩ := holds
  obtain ⟨fewer, rfl, ⟨_, _, stepped⟩ | ⟨goesOn, stepped⟩ | ⟨_, others, _, _, goesOn, stepped⟩⟩ :=
    step_reporting reporting loop answer
  · rw [stepped]
    exact .enter (by simp only [Place.Left]; omega) fun _ => rfl
  · rw [stepped]
    exact .enter ⟨fewer, (later, rest), by omega, goesOn⟩ fun _ => rfl
  · rw [stepped]
    exact .enter ⟨fewer, (later, others), by omega, goesOn⟩ fun _ => rfl

theorem step_list {left : Nat} (listing : state.place thread = .listing listIt calls)
    (holds : (state.place thread).Left state.heap (left + 1)) (answer : Nat) :
    state.GetsOn (state.step thread answer) thread answer left := by
  rw [listing] at holds
  obtain ⟨fuel, rest, few, loop⟩ := holds
  obtain ⟨fewer, rfl, ⟨_, stepped⟩ | ⟨_, others, _, goesOn, stepped⟩⟩ :=
    step_listing listing loop answer
  · rw [stepped]
    exact .enter (by simp only [Place.Left]; omega) fun _ => rfl
  · rw [stepped]
    exact .enter ⟨fewer, others, by omega, goesOn⟩ fun _ => rfl

/-- Each step of the holder is one less, unless it is the one that gives the lock back. -/
theorem step_left {left : Nat} (holds : (state.place thread).Left state.heap (left + 1))
    (stays : ∀ task, state.place thread ≠ .exiting task) (running : ∀ served node stores,
      state.place thread = .storing served node stores → state.heap.record node ≠ none)
    (answer : Nat) :
    state.GetsOn (state.step thread answer) thread answer left ∨
      ∃ served, state.place thread = .unlocking served := by
  cases here : state.place thread with
  | outside | waiting => simp [here, Place.Left] at holds
  | exiting task => exact absurd here (stays task)
  | searching => exact .inl (step_search here holds answer)
  | allocating site size overalloc listIt =>
    rw [here] at holds
    refine .inl ?_
    simp only [Threads.step, here]
    split
    · rename_i refused
      have most : 7 ≤ left + 1 := holds
      exact .enter (by simp only [Place.Left]; omega) fun granted => absurd refused granted
    · have most : 7 ≤ left + 1 := holds
      refine .enter ?_ fun _ => rfl
      simp only [Place.Left, linkStores, List.length_cons, List.length_nil]
      omega
  | linking served record listIt stores =>
    rw [here] at holds
    have most : stores.length + 2 ≤ left + 1 := holds
    refine .inl ?_
    cases stores with
    | nil =>
      simp only [Threads.step, here]
      exact .enter (by simp only [Place.Left]; simp at most; omega) fun _ => rfl
    | cons store stores =>
      simp only [Threads.step, here]
      exact .enter (by simp only [Place.Left]; simp at most; omega) fun _ => rfl
  | storing served node stores =>
    rw [here] at holds
    have most : stores.length + 2 ≤ left + 1 := holds
    refine .inl ?_
    cases stores with
    | nil =>
      simp only [Threads.step, here]
      exact .enter (by simp only [Place.Left]; simp at most; omega) fun _ => rfl
    | cons store stores =>
      simp only [Threads.step, here]
      split
      · rename_i none
        exact absurd none (running served node _ here)
      · exact .enter (by simp only [Place.Left]; simp at most; omega) fun _ => rfl
  | reporting => exact .inl (step_report here holds answer)
  | listing => exact .inl (step_list here holds answer)
  | unlocking served => exact .inr ⟨served, rfl⟩

end Threads

/-! ## Runs -/

/-- A step of this thread. -/
def ThreadAction.isStep (thread : Nat) : ThreadAction w → Bool
  | .call _ _ => false
  | .step caller _ => caller = thread

/-- The call in the lock has its turn next. -/
def Threads.Serves (state after : Threads w) (thread : Nat) : Prop :=
  ∃ served rest, after.served = state.served ++ served :: rest ∧ served.thread = thread ∧
    (state.place thread).task = some served.task

theorem Threads.Serial.served_grows (serial : state.Serial start base entries)
    (legal : (threadSystem w).Legal state actions) :
    ∃ rest, ((threadSystem w).exec state actions).served = state.served ++ rest := by
  induction actions generalizing state base entries with
  | nil => exact ⟨[], (List.append_nil _).symm⟩
  | cons action rest ih =>
    obtain ⟨⟨later, laterEntries, next, turn⟩, _⟩ := serial.next legal.1
    obtain ⟨more, grown⟩ := ih next legal.2
    rcases turn with ⟨_, served⟩ | ⟨_, served, _, turns⟩
    · exact ⟨more, grown.trans (congrArg (· ++ more) served)⟩
    · refine ⟨served :: more, grown.trans ?_⟩
      rw [turns, List.append_assoc, List.singleton_append]

/-- The step of the holder: it is within its call, or gives the lock back. -/
theorem Threads.Serial.own_step {left : Nat} (serial : state.Serial start base entries)
    (held : state.holder = some thread) (holds : (state.place thread).Left state.heap (left + 1))
    (enabled : (threadSystem w).enabled state (.step thread answer)) :
    (state.GetsOn (state.step thread answer) thread answer left ∧
        Within state (state.step thread answer) thread) ∨
      ∃ served, served.thread = thread ∧ (state.place thread).task = some served.task ∧
        (state.step thread answer).served = state.served ++ [served] ∧
        (state.step thread answer).holder = none := by
  have stays (task : Task w) : state.place thread ≠ .exiting task := by
    intro exiting
    have free := enabled.2.1 (by rw [exiting]; rfl)
    cases free.symm.trans held
  have stored (served : LockedCall w) (node : Nat) (stores : List (TallyStore w))
      (storing : state.place thread = .storing served node stores) :
      state.heap.record node ≠ none := by
    have continues := serial.follows.held thread held
    rw [storing] at continues
    obtain ⟨record, stored, _⟩ := continues
    simp [stored]
  rcases Threads.step_left holds stays stored answer with getsOn | ⟨served, unlocking⟩
  · by_cases last : ∃ served, state.place thread = .unlocking served
    · obtain ⟨served, unlocking⟩ := last
      have released : (state.step thread answer).holder = none := by
        simp only [Threads.step, unlocking]
        rfl
      cases released.symm.trans (getsOn.holder.trans held)
    · exact .inl ⟨getsOn, Threads.step_within state thread answer stays
        fun served same => last ⟨served, same⟩⟩
  · have continues := serial.follows.held thread held
    rw [unlocking] at continues
    refine .inr ⟨served, continues.mine, by rw [unlocking]; rfl, ?_, ?_⟩
    · simp only [Threads.step, unlocking]
      rfl
    · simp only [Threads.step, unlocking]
      rfl

/-- Whatever the others do, the holder keeps its place. -/
theorem Threads.Serial.other_action (serial : state.Serial start base entries)
    (held : state.holder = some thread) (inside : state.place thread ≠ .outside)
    {action : ThreadAction w} (enabled : (threadSystem w).enabled state action)
    (other : action.isStep thread = false) :
    let after := (threadSystem w).next state action
    after.holder = state.holder ∧ after.heap = state.heap ∧ after.served = state.served ∧
      after.place thread = state.place thread := by
  cases action with
  | call caller task =>
    have apart : thread ≠ caller := by
      rintro rfl
      exact inside enabled.1
    exact ⟨rfl, rfl, rfl, (Threads.enter_place ..).trans (if_neg apart)⟩
  | step caller answer =>
    have apart : caller ≠ thread := by simpa [ThreadAction.isStep] using other
    have notHolder : state.holder ≠ some caller := by
      rw [held]
      exact fun same => apart (Option.some.inj same).symm
    rcases serial.follows.others caller notHolder with outside | ⟨task, waiting⟩
    · exact absurd outside enabled.1
    · have free := enabled.2.1 (by rw [waiting]; rfl)
      cases free.symm.trans held

theorem Threads.Serial.serves {left : Nat} (serial : state.Serial start base entries)
    (held : state.holder = some thread) (holds : (state.place thread).Left state.heap left)
    (legal : (threadSystem w).Legal state actions)
    (enough : left ≤ actions.countP (ThreadAction.isStep thread)) :
    state.Serves ((threadSystem w).exec state actions) thread := by
  induction actions generalizing state base entries left with
  | nil =>
    have pos := holds.pos
    simp at enough
    omega
  | cons action rest ih =>
    obtain ⟨⟨later, laterEntries, next, _⟩, _⟩ := serial.next legal.1
    obtain ⟨left, rfl⟩ : ∃ less, left = less + 1 := ⟨left - 1, by have := holds.pos; omega⟩
    -- what is left to do, from the next state on, is the same call's
    have goOn {fewer : Nat} (holder : ((threadSystem w).next state action).holder = some thread)
        (task : (((threadSystem w).next state action).place thread).task = (state.place thread).task)
        (served : ((threadSystem w).next state action).served = state.served)
        (holds : (((threadSystem w).next state action).place thread).Left
          ((threadSystem w).next state action).heap fewer)
        (enough : fewer ≤ rest.countP (ThreadAction.isStep thread)) :
        state.Serves ((threadSystem w).exec state (action :: rest)) thread := by
      obtain ⟨last, more, grown, mine, same⟩ := ih next holder holds legal.2 enough
      exact ⟨last, more, grown.trans (congrArg (· ++ last :: more) served), mine,
        task.symm.trans same⟩
    by_cases own : action.isStep thread = true
    · cases action with
      | call caller task => cases own
      | step caller answer =>
        obtain rfl : caller = thread := by simpa [ThreadAction.isStep] using own
        rw [List.countP_cons_of_pos own] at enough
        rcases serial.own_step held holds legal.1 with
          ⟨getsOn, within⟩ | ⟨served, mine, task, grows, _⟩
        · exact goOn (getsOn.holder.trans held) within.task within.served getsOn.left (by omega)
        · obtain ⟨more, grown⟩ := next.served_grows legal.2
          refine ⟨served, more, grown.trans ?_, mine, task⟩
          have served : ((threadSystem w).next state (.step caller answer)).served = _ := grows
          rw [served, List.append_assoc, List.singleton_append]
    · have other : action.isStep thread = false := by simpa using own
      rw [List.countP_cons_of_neg own] at enough
      have inside : state.place thread ≠ .outside := by
        intro outside
        rw [outside] at holds
        exact holds
      obtain ⟨holder, heap, served, place⟩ := serial.other_action held inside legal.1 other
      exact goOn (holder.trans held) (by rw [place]) served (by rw [place, heap]; exact holds) enough

theorem Threads.step_created (state : Threads w) (thread answer : Nat) :
    state.heap.created.length ≤ (state.step thread answer).heap.created.length := by
  cases here : state.place thread with
  | allocating site size overalloc listIt =>
    simp only [Threads.step, here]
    split
    · exact le_rfl
    · simp [Threads.store, Threads.enter, RecordHeap.setRecord]
  | outside | waiting | exiting | unlocking => simp [Threads.step, here, Threads.enter]
  | linking served record listIt left =>
    cases left with
    | nil => simp [Threads.step, here, Threads.enter]
    | cons store left => simp [Threads.step, here, Threads.enter, Threads.store]
  | storing served node left =>
    cases left with
    | nil => simp [Threads.step, here, Threads.enter]
    | cons store left =>
      simp only [Threads.step, here]
      split
      · exact le_rfl
      · exact le_rfl
  | searching | reporting | listing =>
    simp only [Threads.step, here]
    repeat' split
    all_goals exact le_rfl

/-- Whoever holds the lock has no more steps left in it than a call makes on this list. -/
def Threads.Bounded (state : Threads w) : Prop :=
  ∀ thread, state.holder = some thread →
    (state.place thread).Left state.heap (lockSteps state.heap)

theorem Threads.Serial.bounded_next (serial : state.Serial start base entries)
    (bounded : state.Bounded) {action : ThreadAction w}
    (enabled : (threadSystem w).enabled state action) :
    ((threadSystem w).next state action).Bounded := by
  intro thread after
  cases held : state.holder with
  | some holder =>
    have holds := bounded holder held
    by_cases own : action.isStep holder = true
    · cases action with
      | call caller task => cases own
      | step caller answer =>
        obtain rfl : caller = holder := by simpa [ThreadAction.isStep] using own
        have fits : lockSteps state.heap = state.heap.created.length + 7 + 1 := rfl
        rw [fits] at holds
        rcases serial.own_step held holds enabled with ⟨getsOn, _⟩ | ⟨_, _, _, _, released⟩
        · obtain rfl : caller = thread :=
            Option.some.inj (held.symm.trans (getsOn.holder.symm.trans after))
          have grows : _ ≤ ((threadSystem w).next state (.step caller answer)).heap.created.length :=
            state.step_created caller answer
          exact getsOn.left.mono (by simp only [lockSteps]; omega)
        · cases released.symm.trans after
    · have inside : state.place holder ≠ .outside := by
        intro outside
        rw [outside] at holds
        exact holds
      obtain ⟨same, heap, _, place⟩ :=
        serial.other_action held inside enabled (by simpa using own)
      obtain rfl : holder = thread := Option.some.inj (held.symm.trans (same.symm.trans after))
      rw [place, heap]
      exact holds
  | none =>
    cases action with
    | call caller task =>
      cases held.symm.trans after
    | step caller answer =>
      have notHolder : state.holder ≠ some caller := by simp [held]
      rcases serial.follows.others caller notHolder with outside | ⟨task, waiting⟩
      · exact absurd outside enabled.1
      · have stepped : (threadSystem w).next state (.step caller answer) =
            { state with holder := some caller }.enter caller (task.first caller state.heap) := by
          simp only [threadSystem, Threads.step, waiting]
        rw [stepped] at after ⊢
        obtain rfl : caller = thread := Option.some.inj after
        rw [Threads.enter_place, if_pos rfl]
        have whole : state.heap = base := serial.follows.free held
        have first := serial.follows.holds.left_first caller task
        exact whole.symm ▸ first

theorem threads_bounded (allocList : Nat)
    (legal : (threadSystem w).Legal (.initial w allocList) actions) :
    ∃ base entries, ((threadSystem w).exec (.initial w allocList) actions).Serial
      (.initial w allocList) base entries ∧
        ((threadSystem w).exec (.initial w allocList) actions).Bounded := by
  have all : (threadSystem w).Always (fun state => ∃ base entries,
      state.Serial (.initial w allocList) base entries ∧ state.Bounded) (.initial w allocList) actions := by
    refine System.Always.of_invariant ⟨_, _, .initial allocList, nofun⟩ ?_ legal
    rintro state action ⟨base, entries, serial, bounded⟩ enabled
    obtain ⟨⟨later, laterEntries, next, _⟩, _⟩ := serial.next enabled
    exact ⟨later, laterEntries, next, serial.bounded_next bounded enabled⟩
  exact all.last

theorem RecordHeap.exists_fresh (heap : RecordHeap w) : ∃ answer, heap.Fresh answer := by
  obtain ⟨answer, absent⟩ := Infinite.exists_notMem_finset
    (insert 0 (insert heap.allocList heap.created.toFinset))
  simp only [Finset.mem_insert, List.mem_toFinset, not_or] at absent
  exact ⟨answer, absent⟩

/-- As long as `malloc` has memory the holder can go on until it gives the lock back. -/
theorem Threads.Serial.can_finish {left : Nat} (serial : state.Serial start base entries)
    (held : state.holder = some thread) (holds : (state.place thread).Left state.heap left)
    (stays : (state.place thread).exits = false) :
    ∃ answers : List Nat, (threadSystem w).Legal state (answers.map (.step thread)) ∧
      ((threadSystem w).exec state (answers.map (.step thread))).holder = none := by
  induction left generalizing state base entries with
  | zero => exact absurd holds.pos (by omega)
  | succ left ih =>
    obtain ⟨answer, fresh⟩ := state.heap.exists_fresh
    have enabled : (threadSystem w).enabled state (.step thread answer) := by
      cases here : state.place thread with
      | outside | waiting => simp [here, Place.Left] at holds
      | exiting => simp [here, Place.exits] at stays
      | searching | allocating | linking | storing | reporting | listing | unlocking =>
        exact ⟨by simp [here], by simp [here, Place.waits], .inr fresh⟩
    rcases serial.own_step held holds enabled with ⟨getsOn, _⟩ | ⟨_, _, _, _, released⟩
    · obtain ⟨⟨later, laterEntries, next, _⟩, _⟩ := serial.next enabled
      obtain ⟨answers, legal, free⟩ :=
        ih next (getsOn.holder.trans held) getsOn.left (getsOn.stays fresh.1)
      exact ⟨answer :: answers, ⟨enabled, legal⟩, free⟩
    · exact ⟨[answer], ⟨enabled, trivial⟩, released⟩

/-- No call keeps `rec_lock`: after a step for each record and eight more of its own it has had its
turn, whatever the other threads do meanwhile. And a thread in the lock can always go on until it
gives the lock back, unless it has called `exit` there. -/
theorem lock_given_back (allocList : Nat)
    (legal : (threadSystem w).Legal (.initial w allocList) actions)
    (held : ((threadSystem w).exec (.initial w allocList) actions).holder = some thread) :
    let state := (threadSystem w).exec (.initial w allocList) actions
    (∀ later, (threadSystem w).Legal state later →
      lockSteps state.heap ≤ later.countP (ThreadAction.isStep thread) →
      state.Serves ((threadSystem w).exec state later) thread) ∧
    ((∃ task, state.place thread = .exiting task) ∨
      ∃ answers : List Nat, (threadSystem w).Legal state (answers.map (.step thread)) ∧
        ((threadSystem w).exec state (answers.map (.step thread))).holder = none) := by
  intro state
  obtain ⟨base, entries, serial, bounded⟩ := threads_bounded allocList legal
  have holds := bounded thread held
  refine ⟨fun later run enough => serial.serves held holds run enough, ?_⟩
  cases exits : (state.place thread).exits with
  | true =>
    cases here : state.place thread with
    | exiting task => exact .inl ⟨task, rfl⟩
    | _ => simp [here, Place.exits] at exits
  | false => exact .inr (serial.can_finish held holds exits)

/-- The second thread holds the lock. -/
theorem lock_given_back_one :
    let state := (threadSystem 64).exec (.initial 64 8) racingCalls
    (∀ later, (threadSystem 64).Legal state later →
      lockSteps state.heap ≤ later.countP (ThreadAction.isStep 1) →
      state.Serves ((threadSystem 64).exec state later) 1) ∧
    ((∃ task, state.place 1 = .exiting task) ∨
      ∃ answers : List Nat, (threadSystem 64).Legal state (answers.map (.step 1)) ∧
        ((threadSystem 64).exec state (answers.map (.step 1))).holder = none) :=
  lock_given_back 8 racingCalls_legal (by decide +kernel)

end TrippingRobot.Memleak
