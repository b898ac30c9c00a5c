import TrippingRobot.Runtrace.Buffers
import Mathlib.Data.Finset.Insert
import Mathlib.Data.Set.Finite.Basic

/-! Whether the configured number of print buffers is enough: a count of the
calls at or beyond each container, and the runs that exhaust the ring. -/

namespace TrippingRobot.Runtrace

open TrippingRobot.Data TrippingRobot.Machine

/-- How far round the ring a call has got; a failed test counts as a step. -/
def Stage.position : Stage → Nat
  | .idle => 0
  | .trying container => container
  | .moving container => container + 1
  | .writing container _ | .copying container _ | .clearing container _ => container

/-- The calls at or beyond a container. -/
def Buffers.beyond (state : Buffers) (container : Nat) : Finset Nat :=
  state.active.filter fun call => container ≤ (state.stage call).position

structure Queued (build : Build) (count : Nat) (state : Buffers) : Prop where
  inProgress : ∀ call, call ∈ state.active ↔ state.stage call ≠ .idle
  linked : ∀ container, container < count →
    (state.cell container).next = if container + 1 = count then 0 else container + 1
  releasable : build = .cxx98 → ∀ container, container < count →
    (state.cell container).inUse &&& ~~~1 = 0
  busy : ∀ container, container < count → isFree build (state.cell container).inUse = false →
    ∃ call, (state.stage call).held = some container
  crowd : ∀ container, container ≤ count → (state.beyond container).card ≤ count - container
  quiet : state.underrun = false

theorem Stage.position_of_held {stage : Stage} (holds : stage.held = some container) :
    stage.position = container := by
  cases stage <;> simp_all [Stage.held, Stage.position]

theorem Stage.ne_idle_of_held {stage : Stage} (holds : stage.held = some container) :
    stage ≠ .idle := by
  rintro rfl
  cases holds

theorem mem_beyond {state : Buffers} :
    call ∈ state.beyond container ↔
      call ∈ state.active ∧ container ≤ (state.stage call).position := by
  simp [Buffers.beyond]

private theorem beyond_card_le (state : Buffers) {after : Buffers}
    (fewer : ∀ call ∈ after.active, call ∈ state.active)
    (behind : ∀ call ∈ after.active, container ≤ (after.stage call).position →
      container ≤ (state.stage call).position) :
    (after.beyond container).card ≤ (state.beyond container).card := by
  apply Finset.card_le_card
  intro call member
  obtain ⟨active, reached⟩ := mem_beyond.mp member
  exact mem_beyond.mpr ⟨fewer call active, behind call active reached⟩

theorem Queued.position_lt (queued : Queued build count state) (active : call ∈ state.active) :
    (state.stage call).position < count := by
  by_contra past
  have member : call ∈ state.beyond count := mem_beyond.mpr ⟨active, by omega⟩
  have none_left := queued.crowd count (Nat.le_refl _)
  rw [Nat.sub_self, Nat.le_zero, Finset.card_eq_zero] at none_left
  simp [none_left] at member

/-- A call that finds its container busy shares it with the holder, so two calls
fewer are beyond it. -/
theorem Queued.crowd_behind (queued : Queued build count state)
    (trying : state.stage call = .trying container)
    (busy : isFree build (state.cell container).inUse = false) :
    (state.beyond (container + 1)).card + 2 ≤ count - container := by
  have active : call ∈ state.active := (queued.inProgress call).mpr (by simp [trying])
  have inside : container < count := by
    have position := queued.position_lt active
    rwa [trying] at position
  obtain ⟨holder, held⟩ := queued.busy container inside busy
  have position := Stage.position_of_held held
  have different : call ≠ holder := by
    rintro rfl
    simp [trying, Stage.held] at held
  have callBehind : call ∉ insert holder (state.beyond (container + 1)) := by
    simp [different, mem_beyond, trying, Stage.position]
  have holderBehind : holder ∉ state.beyond (container + 1) := by
    simp [mem_beyond, position]
  have both : insert call (insert holder (state.beyond (container + 1))) ⊆
      state.beyond container := by
    intro other member
    rcases Finset.mem_insert.mp member with rfl | member
    · exact mem_beyond.mpr ⟨active, by simp [trying, Stage.position]⟩
    · rcases Finset.mem_insert.mp member with rfl | member
      · exact mem_beyond.mpr ⟨(queued.inProgress _).mpr (Stage.ne_idle_of_held held), position.ge⟩
      · obtain ⟨progress, reached⟩ := mem_beyond.mp member
        exact mem_beyond.mpr ⟨progress, by omega⟩
  have total := (Finset.card_le_card both).trans (queued.crowd container inside.le)
  rwa [Finset.card_insert_of_notMem callBehind, Finset.card_insert_of_notMem holderBehind] at total

private theorem Queued.same_place {after : Buffers} (queued : Queued build count state) (call : Nat)
    (stage : Stage) (stages : after.stage = Function.update state.stage call stage)
    (place : stage.position = (state.stage call).position)
    (holding : stage.held = (state.stage call).held)
    (going : stage ≠ .idle) (wasGoing : state.stage call ≠ .idle)
    (active : after.active = state.active) (underrun : after.underrun = false)
    (next : ∀ container, (after.cell container).next = (state.cell container).next)
    (inUse : ∀ container, (after.cell container).inUse = (state.cell container).inUse) :
    Queued build count after where
  inProgress other := by
    rw [active, stages, queued.inProgress other]
    by_cases same : other = call
    · simp [same, going, wasGoing]
    · simp [same]
  linked container inside := by rw [next, queued.linked container inside]
  releasable flagged container inside := by rw [inUse, queued.releasable flagged container inside]
  busy container inside taken := by
    rw [inUse] at taken
    obtain ⟨holder, held⟩ := queued.busy container inside taken
    refine ⟨holder, ?_⟩
    rw [stages]
    by_cases same : holder = call
    · rw [same, Function.update_self, holding, ← same, held]
    · rw [Function.update_of_ne same, held]
  crowd container inside := by
    refine (beyond_card_le state ?_ ?_).trans (queued.crowd container inside)
    · simp [active]
    · intro other _ reached
      rw [stages] at reached
      by_cases same : other = call
      · rw [same, Function.update_self, place] at reached
        rwa [same]
      · rwa [Function.update_of_ne same] at reached
  quiet := underrun

theorem Queued.of_start (queued : Queued build count state) (fresh : state.stage call = .idle)
    (room : (state.next build (.start call formatted)).active.card ≤ count) :
    Queued build count (state.next build (.start call formatted)) where
  inProgress other := by
    by_cases same : other = call
    · simp [Buffers.next, same]
    · simp [Buffers.next, same, queued.inProgress other]
  linked := queued.linked
  releasable := queued.releasable
  busy container inside taken := by
    obtain ⟨holder, held⟩ := queued.busy container inside taken
    have different : holder ≠ call := by
      rintro rfl
      exact Stage.ne_idle_of_held held fresh
    exact ⟨holder, by simpa [Buffers.next, different] using held⟩
  crowd container inside := by
    by_cases first : container = 0
    · have all := Finset.card_filter_le (state.next build (.start call formatted)).active
        fun other => container ≤ ((state.next build (.start call formatted)).stage other).position
      rw [first, Nat.sub_zero]
      exact (first ▸ all).trans room
    · refine (Finset.card_le_card ?_).trans (queued.crowd container inside)
      intro other member
      obtain ⟨active, reached⟩ := mem_beyond.mp member
      have different : other ≠ call := by
        rintro rfl
        simp [Buffers.next, Stage.position] at reached
        omega
      simp only [Buffers.next, Finset.mem_insert, different, false_or] at active
      simp only [Buffers.next, setStage_stage, Function.update_of_ne different] at reached
      exact mem_beyond.mpr ⟨active, reached⟩
  quiet := queued.quiet

private theorem or_and_not (word mask : BitVec 64) : (word ||| mask) &&& ~~~mask = word &&& ~~~mask := by
  simp [BitVec.and_or_distrib_right]

private theorem releasable_testAndSet {word : BitVec 64} (clean : word &&& ~~~1 = 0) :
    (atomicTestAndSet .cxx98 word).2 &&& ~~~1 = 0 :=
  (or_and_not word 1).trans clean

private theorem releasable_clear {word : BitVec 64} (clean : word &&& ~~~1 = 0) :
    atomicClear .cxx98 word &&& ~~~1 = 0 := by
  change word &&& ~~~1 &&& ~~~1 = 0
  rw [clean]
  rfl

private theorem Queued.crowd_moving (queued : Queued build count state) {after : Buffers}
    (trying : state.stage call = .trying container)
    (busy : isFree build (state.cell container).inUse = false)
    (stages : after.stage = Function.update state.stage call (.moving container))
    (active : after.active = state.active) (inside : index ≤ count) :
    (after.beyond index).card ≤ count - index := by
  by_cases passing : index = container + 1
  · have grown : after.beyond index ⊆ insert call (state.beyond index) := by
      intro other member
      obtain ⟨progress, reached⟩ := mem_beyond.mp member
      rw [active] at progress
      rw [stages] at reached
      by_cases same : other = call
      · exact Finset.mem_insert.mpr (.inl same)
      · rw [Function.update_of_ne same] at reached
        exact Finset.mem_insert_of_mem (mem_beyond.mpr ⟨progress, reached⟩)
    have bound := (Finset.card_le_card grown).trans (Finset.card_insert_le _ _)
    have behind := queued.crowd_behind trying busy
    rw [passing] at bound ⊢
    omega
  · refine (beyond_card_le state ?_ ?_).trans (queued.crowd index inside)
    · simp [active]
    · intro other _ reached
      rw [stages] at reached
      by_cases same : other = call
      · rw [same, Function.update_self] at reached
        simp only [Stage.position] at reached
        simp only [same, trying, Stage.position]
        omega
      · rwa [Function.update_of_ne same] at reached

theorem Queued.of_testAndSet (queued : Queued build count state) :
    Queued build count (state.next build (.testAndSet call)) := by
  cases trying : state.stage call with
  | trying container =>
    simp only [Buffers.next, trying]
    have active : call ∈ state.active := (queued.inProgress call).mpr (by simp [trying])
    refine ⟨?_, ?_, ?_, ?_, ?_, queued.quiet⟩
    · intro other
      by_cases same : other = call
      · simp only [setStage_stage, same, Function.update_self]
        refine ⟨fun _ => ?_, fun _ => active⟩
        split <;> simp
      · simp only [setStage_stage, Function.update_of_ne same]
        exact queued.inProgress other
    · intro index inside
      simpa using queued.linked index inside
    · rintro rfl index inside
      simp only [setStage_cell, setInUse_inUse]
      split
      · rename_i same
        exact releasable_testAndSet (queued.releasable rfl container (same ▸ inside))
      · exact queued.releasable rfl index inside
    · intro index inside taken
      simp only [setStage_cell, setInUse_inUse] at taken
      by_cases won : index = container ∧ isFree build (state.cell container).inUse = true
      · have free : (atomicTestAndSet build (state.cell container).inUse).1 = false := by
          simpa [isFree] using won.2
        exact ⟨call, by simp [free, Stage.held, won.1]⟩
      · have before : isFree build (state.cell index).inUse = false := by
          by_cases same : index = container
          · simpa [same] using won
          · simpa [same] using taken
        obtain ⟨holder, held⟩ := queued.busy index inside before
        have different : holder ≠ call := by
          rintro rfl
          simp [trying, Stage.held] at held
        exact ⟨holder, by simpa [different] using held⟩
    · intro index inside
      cases found : (atomicTestAndSet build (state.cell container).inUse).1 with
      | true =>
        exact queued.crowd_moving trying (by simp [isFree, found]) (by simp) rfl inside
      | false =>
        refine (beyond_card_le state ?_ ?_).trans (queued.crowd index inside)
        · exact fun _ member => member
        · intro other _ reached
          by_cases same : other = call
          · simpa [same, trying, Stage.position] using reached
          · simpa [same] using reached
  | idle | moving | writing | copying | clearing => simpa [Buffers.next, trying] using queued

theorem Queued.of_move (queued : Queued build count state) :
    Queued build count (state.next build (.move call)) := by
  cases moving : state.stage call with
  | moving container =>
    have active : call ∈ state.active := (queued.inProgress call).mpr (by simp [moving])
    have inside : container + 1 < count := by
      have position := queued.position_lt active
      rwa [moving] at position
    have next : (state.cell container).next = container + 1 := by
      rw [queued.linked container (by omega), if_neg (by omega)]
    refine queued.same_place call (.trying (container + 1)) ?_ ?_ ?_ ?_ ?_ ?_ ?_ ?_ ?_
    all_goals simp [Buffers.next, moving, next, Stage.position, Stage.held, queued.quiet]
  | idle | trying | writing | copying | clearing => simpa [Buffers.next, moving] using queued

theorem Queued.of_write (queued : Queued build count state) :
    Queued build count (state.next build (.write call)) := by
  cases writing : state.stage call with
  | writing container done =>
    simp only [Buffers.next, writing]
    split
    · refine queued.same_place call (.copying container []) ?_ ?_ ?_ ?_ ?_ ?_ queued.quiet ?_ ?_
      all_goals simp [writing, Stage.position, Stage.held]
    · refine queued.same_place call (.writing container (done + 1)) ?_ ?_ ?_ ?_ ?_ ?_ queued.quiet
        ?_ ?_
      all_goals simp [writing, Stage.position, Stage.held]
  | idle | trying | moving | copying | clearing => simpa [Buffers.next, writing] using queued

theorem copyStage_place (container : Nat) (taken : List UInt8) (byte : UInt8) :
    (copyStage container taken byte).position = container ∧
      (copyStage container taken byte).held = some container := by
  unfold copyStage
  split
  · exact ⟨rfl, rfl⟩
  · split <;> exact ⟨rfl, rfl⟩

theorem Queued.of_copy (queued : Queued build count state) :
    Queued build count (state.next build (.copy call)) := by
  cases copying : state.stage call with
  | copying container taken =>
    simp only [Buffers.next, copying]
    obtain ⟨position, held⟩ := copyStage_place container taken
      ((state.cell container).buf taken.length)
    refine queued.same_place call _ (setStage_stage _ _ _) ?_ ?_ (Stage.ne_idle_of_held held) ?_ rfl
      queued.quiet (fun _ => rfl) (fun _ => rfl)
    · rw [copying, position, Stage.position]
    · rw [copying, held, Stage.held]
    · simp [copying]
  | idle | trying | moving | writing | clearing => simpa [Buffers.next, copying] using queued

theorem Queued.of_clear (queued : Queued build count state) :
    Queued build count (state.next build (.clear call)) := by
  cases clearing : state.stage call with
  | clearing container handed =>
    simp only [Buffers.next, clearing]
    have active : call ∈ state.active := (queued.inProgress call).mpr (by simp [clearing])
    have position : container < count := by
      have position := queued.position_lt active
      rwa [clearing] at position
    refine ⟨?_, ?_, ?_, ?_, ?_, queued.quiet⟩
    · intro other
      by_cases same : other = call
      · simp [same]
      · simp [same, queued.inProgress other]
    · intro index inside
      simpa using queued.linked index inside
    · rintro rfl index inside
      simp only [setStage_cell, setInUse_inUse]
      split
      · exact releasable_clear (queued.releasable rfl container position)
      · exact queued.releasable rfl index inside
    · intro index inside taken
      simp only [setStage_cell, setInUse_inUse] at taken
      split at taken
      · have released := (isFree_clear_iff build (state.cell container).inUse).mpr
          fun flagged => queued.releasable flagged container position
        simp [released] at taken
      · rename_i elsewhere
        obtain ⟨holder, held⟩ := queued.busy index inside taken
        have different : holder ≠ call := by
          rintro rfl
          simp only [clearing, Stage.held, Option.some.injEq] at held
          exact elsewhere held.symm
        exact ⟨holder, by simpa [different] using held⟩
    · intro index inside
      refine (beyond_card_le state (fun _ member => Finset.mem_of_mem_erase member) ?_).trans
        (queued.crowd index inside)
      intro other member reached
      simpa [Finset.ne_of_mem_erase member] using reached
  | idle | trying | moving | writing | copying => simpa [Buffers.next, clearing] using queued

theorem Queued.step (queued : Queued build count state) (action : BufferAction)
    (enabled : (bufferSystem build).enabled state action)
    (room : (state.next build action).active.card ≤ count) :
    Queued build count (state.next build action) := by
  cases action with
  | start => exact queued.of_start enabled room
  | testAndSet => exact queued.of_testAndSet
  | move => exact queued.of_move
  | write => exact queued.of_write
  | copy => exact queued.of_copy
  | clear => exact queued.of_clear

/-- The containers a test-and-set would find free. -/
def Buffers.freeOnes (build : Build) (count : Nat) (state : Buffers) : Finset Nat :=
  (Finset.range count).filter fun container => isFree build (state.cell container).inUse

structure Crowding (build : Build) (count : Nat) (state : Buffers) : Prop where
  outside : ∀ call, call ∉ state.active → state.stage call = .idle
  linked : ∀ container, container < count →
    (state.cell container).next = if container + 1 = count then 0 else container + 1
  short : state.active.card + (state.freeOnes build count).card < count

/-- At most `count` calls in progress. -/
def Within (count : Nat) (state : Buffers) : Prop := state.active.card ≤ count

theorem freeOnes_testAndSet (build : Build) (count : Nat) (state : Buffers) (container : Nat) :
    (state.setInUse container
      (atomicTestAndSet build (state.cell container).inUse).2).freeOnes build count =
      (state.freeOnes build count).erase container := by
  ext other
  by_cases same : other = container
  · simp [Buffers.freeOnes, same, setInUse_inUse, not_isFree_testAndSet]
  · simp [Buffers.freeOnes, same, setInUse_inUse]

private theorem pass_busy {state : Buffers} (trying : state.stage call = .trying container)
    (found : (atomicTestAndSet build (state.cell container).inUse).1 = true)
    (within : Within count state) :
    ∃ after, (bufferSystem build).Reaches (Within count) state after ∧
      after.active = state.active ∧
      after.stage = Function.update state.stage call (.trying (state.cell container).next) ∧
      (∀ index, (after.cell index).next = (state.cell index).next) ∧
      after.freeOnes build count = state.freeOnes build count ∧
      after.underrun = (state.underrun || (state.cell container).next == 0) := by
  have tested := freeOnes_testAndSet build count state container
  have busy : container ∉ state.freeOnes build count := by
    simp [Buffers.freeOnes, isFree, found]
  rw [Finset.erase_eq_of_notMem busy] at tested
  let failed := state.next build (.testAndSet call)
  have moving : failed = (state.setInUse container
      (atomicTestAndSet build (state.cell container).inUse).2).setStage call (.moving container) := by
    simp [failed, Buffers.next, trying, found]
  have moved : failed.next build (.move call) = { failed.setStage call
      (.trying (state.cell container).next) with
      underrun := state.underrun || (state.cell container).next == 0 } := by
    simp [Buffers.next, moving, Buffers.setInUse, Buffers.setStage]
  refine ⟨failed.next build (.move call), ?_, ?_, ?_, ?_, ?_, ?_⟩
  · refine .step (.testAndSet call) within trivial (.step (.move call) ?_ trivial (.refl ?_))
    · change Within count failed
      rwa [moving]
    · change Within count (failed.next build (.move call))
      rwa [moved, moving]
  · rw [moved, moving]
    rfl
  · rw [moved, moving]
    simp
  · rw [moved, moving]
    simp
  · rw [moved, moving]
    exact tested
  · rw [moved]

private theorem take_free {state : Buffers} (trying : state.stage call = .trying container)
    (found : (atomicTestAndSet build (state.cell container).inUse).1 = false)
    (inside : container < count) (within : Within count state) :
    ∃ after, (bufferSystem build).Reaches (Within count) state after ∧
      after.active = state.active ∧
      (∀ other, other ≠ call → after.stage other = state.stage other) ∧
      (∀ index, (after.cell index).next = (state.cell index).next) ∧
      container ∈ state.freeOnes build count ∧
      after.freeOnes build count = (state.freeOnes build count).erase container := by
  have taken : state.next build (.testAndSet call) = (state.setInUse container
      (atomicTestAndSet build (state.cell container).inUse).2).setStage call
        (.writing container 0) := by
    simp [Buffers.next, trying, found]
  refine ⟨state.next build (.testAndSet call), ?_, ?_, ?_, ?_, ?_, ?_⟩
  · refine .step (.testAndSet call) within trivial (.refl ?_)
    change Within count (state.next build (.testAndSet call))
    rwa [taken]
  · rw [taken]
    rfl
  · intro other different
    simp [taken, different]
  · simp [taken]
  · simp [Buffers.freeOnes, isFree, found, inside]
  · rw [taken]
    exact freeOnes_testAndSet build count state container

/-- A call that goes round the ring takes a free container or misses them all. -/
private theorem walk_round (state : Buffers) (build : Build) (left : Nat)
    (linked : ∀ container, container < count →
      (state.cell container).next = if container + 1 = count then 0 else container + 1)
    (trying : state.stage call = .trying container) (ahead : container + left + 1 = count)
    (within : Within count state) :
    ∃ after, (bufferSystem build).Reaches (Within count) state after ∧
      after.active = state.active ∧
      (∀ other, other ≠ call → after.stage other = state.stage other) ∧
      (∀ index, (after.cell index).next = (state.cell index).next) ∧
      (after.underrun = true ∨ ∃ taken ∈ state.freeOnes build count,
        after.freeOnes build count = (state.freeOnes build count).erase taken) := by
  induction left generalizing state container with
  | zero =>
    cases found : (atomicTestAndSet build (state.cell container).inUse).1 with
    | false =>
      obtain ⟨after, reached, active, others, next, free, erased⟩ :=
        take_free trying found (by omega) within
      exact ⟨after, reached, active, others, next, .inr ⟨container, free, erased⟩⟩
    | true =>
      obtain ⟨after, reached, active, stages, next, _, underrun⟩ := pass_busy trying found within
      refine ⟨after, reached, active, ?_, next, .inl ?_⟩
      · intro other different
        rw [stages, Function.update_of_ne different]
      · rw [underrun, linked container (by omega), if_pos (by omega)]
        simp
  | succ left ih =>
    cases found : (atomicTestAndSet build (state.cell container).inUse).1 with
    | false =>
      obtain ⟨after, reached, active, others, next, free, erased⟩ :=
        take_free trying found (by omega) within
      exact ⟨after, reached, active, others, next, .inr ⟨container, free, erased⟩⟩
    | true =>
      obtain ⟨middle, reached, active, stages, next, same, _⟩ := pass_busy trying found within
      have ahead_of : middle.stage call = .trying (container + 1) := by
        rw [stages, Function.update_self, linked container (by omega), if_neg (by omega)]
      obtain ⟨after, further, kept, others, links, outcome⟩ := ih middle
        (fun index inside => by rw [next, linked index inside]) ahead_of (by omega)
        (by rwa [Within, active])
      refine ⟨after, reached.trans further, kept.trans active, ?_, fun index => by rw [links, next], ?_⟩
      · intro other different
        rw [others other different, stages, Function.update_of_ne different]
      · rwa [same] at outcome

/-- One more call on a crowded ring: it misses every container, or it takes one
of the few free ones and the ring stays crowded. -/
private theorem Crowding.call (crowding : Crowding build count state) :
    ∃ after, (bufferSystem build).Reaches (Within count) state after ∧
      (after.underrun = true ∨ Crowding build count after ∧
        (after.freeOnes build count).card + 1 = (state.freeOnes build count).card) := by
  obtain ⟨call, fresh⟩ := Infinite.exists_notMem_finset state.active
  have short := crowding.short
  let started := state.next build (.start call [])
  have active : started.active = insert call state.active := rfl
  have crowd : started.active.card = state.active.card + 1 := Finset.card_insert_of_notMem fresh
  have within : Within count started := by
    rw [Within, crowd]
    omega
  have trying : started.stage call = .trying 0 := by simp [started, Buffers.next]
  obtain ⟨after, reached, kept, others, next, outcome⟩ := walk_round started build (count - 1)
    crowding.linked trying (by omega) within
  have entered : (bufferSystem build).Reaches (Within count) state after :=
    .step (.start call []) (by rw [Within]; omega) (crowding.outside call fresh) reached
  refine ⟨after, entered, outcome.imp id ?_⟩
  rintro ⟨taken, free, erased⟩
  have fewer : (after.freeOnes build count).card + 1 = (state.freeOnes build count).card := by
    rw [erased]
    exact Finset.card_erase_add_one free
  refine ⟨⟨?_, ?_, ?_⟩, fewer⟩
  · intro other outside
    rw [kept, active, Finset.mem_insert, not_or] at outside
    rw [others other outside.1]
    simpa [started, Buffers.next, outside.1] using crowding.outside other outside.2
  · intro index inside
    rw [next]
    exact crowding.linked index inside
  · rw [kept, crowd]
    omega

/-- Where fewer containers are free than calls may start, some call misses them all. -/
theorem Crowding.underrun (crowding : Crowding build count state) :
    ∃ after, (bufferSystem build).Reaches (Within count) state after ∧ after.underrun = true := by
  induction free : (state.freeOnes build count).card generalizing state with
  | zero =>
    obtain ⟨after, reached, missed | ⟨_, fewer⟩⟩ := crowding.call
    · exact ⟨after, reached, missed⟩
    · omega
  | succ left ih =>
    obtain ⟨middle, reached, missed | ⟨crowded, fewer⟩⟩ := crowding.call
    · exact ⟨middle, reached, missed⟩
    · obtain ⟨after, further, missed⟩ := ih crowded (by omega)
      exact ⟨after, reached.trans further, missed⟩

/-- A container is free after the initialisation unless the stray write hits it
or the C++98 flag keeps what the allocator left in it. -/
theorem isFree_initContainer (build : Build) (count index : Nat) (garbage : Nat → VspbContainer) :
    isFree build (initContainer build count garbage index).inUse = true ↔
      index ≠ 2 ∧ (build = .cxx98 → (garbage index).inUse &&& ~~~1 = 0) := by
  by_cases hit : index = 2
  · have bit : (strayMemset (atomicClear build (garbage index).inUse)).getLsbD 0 = true := by
      simp [strayMemset]
    simp [initContainer, hit, not_isFree_of_bit build (hit ▸ bit)]
  · simp [initContainer, hit, isFree_clear_iff]

private theorem start_cell
    (returned : runtraceReconfigure build answers threads size facility = .ok (0, configured))
    (positive : threads.slt 1 = false) :
    (Buffers.start configured).cell =
      initContainer build threads.toNat answers.bufferGarbage := by
  obtain ⟨_, _, count, same, rfl⟩ := runtraceReconfigure_ok returned
  rw [same positive]
  rfl

private theorem allFree_iff (build : Build) (count : Nat) (garbage : Nat → VspbContainer) :
    (∀ index, index < count → isFree build (initContainer build count garbage index).inUse = true) ↔
      count ≤ 2 ∧ (build = .cxx98 → ∀ index, index < count → (garbage index).inUse &&& ~~~1 = 0) := by
  simp only [isFree_initContainer]
  constructor
  · intro free
    refine ⟨?_, fun flagged index inside => (free index inside).2 flagged⟩
    by_contra more
    exact (free 2 (by omega)).1 rfl
  · rintro ⟨few, clean⟩ index inside
    exact ⟨by omega, fun flagged => clean flagged index inside⟩

private theorem isFree_releasable {word : BitVec 64} (free : isFree .cxx98 word = true) :
    word &&& ~~~1 = 0 := by
  have zero : word = 0 := by simpa [isFree, atomicTestAndSet] using free
  rw [zero]
  rfl

private theorem Queued.start (linked : ∀ index, index < count →
      ((Buffers.start facility).cell index).next = if index + 1 = count then 0 else index + 1)
    (free : ∀ index, index < count →
      isFree build ((Buffers.start facility).cell index).inUse = true) :
    Queued build count (Buffers.start facility) where
  inProgress call := by simp [Buffers.start]
  linked := linked
  releasable flagged index inside := isFree_releasable (flagged ▸ free index inside)
  busy index inside taken := by simp [free index inside] at taken
  crowd index _ := by
    have empty : (Buffers.start facility).beyond index = ∅ := rfl
    simp [empty]
  quiet := rfl

private theorem Crowding.start (linked : ∀ index, index < count →
      ((Buffers.start facility).cell index).next = if index + 1 = count then 0 else index + 1)
    (inside : index < count)
    (taken : isFree build ((Buffers.start facility).cell index).inUse ≠ true) :
    Crowding build count (Buffers.start facility) where
  outside call _ := rfl
  linked := linked
  short := by
    have missing : (Buffers.start facility).freeOnes build count ⊂ Finset.range count := by
      refine Finset.filter_ssubset.mpr ⟨index, Finset.mem_range.mpr inside, taken⟩
    have fewer := Finset.card_lt_card missing
    rw [Finset.card_range] at fewer
    simpa [Buffers.start] using fewer

/-- As many buffers as calls are enough precisely when every container is free
to begin with: with at most two containers, and in the C++98 build no rubbish
above bit 0 of their flags. -/
theorem buffers_suffice_iff
    (returned : runtraceReconfigure build answers threads size facility = .ok (0, configured))
    (positive : threads.slt 1 = false) :
    (∀ actions, (bufferSystem build).Legal (Buffers.start configured) actions →
      (bufferSystem build).Always (fun state => state.active.card ≤ threads.toNat)
        (Buffers.start configured) actions →
      (bufferSystem build).Always (fun state => state.underrun = false)
        (Buffers.start configured) actions) ↔
    threads.toNat ≤ 2 ∧ (build = .cxx98 → ∀ index, index < threads.toNat →
      (answers.bufferGarbage index).inUse &&& ~~~1 = 0) := by
  have cells := start_cell returned positive
  have linked : ∀ index, index < threads.toNat → ((Buffers.start configured).cell index).next =
      if index + 1 = threads.toNat then 0 else index + 1 := fun index _ => by rw [cells]; rfl
  rw [← allFree_iff, ← cells]
  constructor
  · intro quiet index inside
    by_contra taken
    obtain ⟨_, ⟨actions, legal, within, rfl⟩, missed⟩ :=
      (Crowding.start linked inside taken).underrun
    exact absurd missed (by simp [(quiet actions legal within).last])
  · intro free actions legal within
    have always := System.Always.of_invariant_within (Queued.start linked free)
      (fun _ action queued enabled room => queued.step action enabled room) legal within
    exact always.mono fun _ queued => queued.quiet

theorem buffers_suffice_two :
    ∃ configured, runtraceReconfigure .cxx11 (.granting 4) 2 4 Facility.start = .ok (0, configured) ∧
      ∀ actions, (bufferSystem .cxx11).Legal (Buffers.start configured) actions →
        (bufferSystem .cxx11).Always (fun state => state.active.card ≤ 2)
          (Buffers.start configured) actions →
        (bufferSystem .cxx11).Always (fun state => state.underrun = false)
          (Buffers.start configured) actions := by
  have returned : runtraceReconfigure .cxx11 (.granting 4) 2 4 Facility.start = _ :=
    runtraceReconfigure_granted (by decide) (by decide) (by decide) rfl ⟨rfl, rfl, rfl⟩
  exact ⟨_, returned, (buffers_suffice_iff returned (by decide)).mpr ⟨by decide, by simp⟩⟩

/-- Three buffers for three calls: the third call finds the third buffer, which
nobody has taken, marked as in use. -/
theorem buffers_underrun_three :
    ∃ configured, runtraceReconfigure .cxx11 (.granting 4) 3 4 Facility.start = .ok (0, configured) ∧
      ∃ actions, (bufferSystem .cxx11).Legal (Buffers.start configured) actions ∧
        (bufferSystem .cxx11).Always (fun state => state.active.card ≤ 3)
          (Buffers.start configured) actions ∧
        ¬(bufferSystem .cxx11).Always (fun state => state.underrun = false)
          (Buffers.start configured) actions := by
  refine ⟨_, runtraceReconfigure_granted (by decide) (by decide) (by decide) rfl ⟨rfl, rfl, rfl⟩,
    [.start 0 [65], .testAndSet 0, .start 1 [66], .testAndSet 1, .move 1, .testAndSet 1,
      .start 2 [67], .testAndSet 2, .move 2, .testAndSet 2, .move 2, .testAndSet 2, .move 2],
    ?_, ?_, ?_⟩
  · decide
  · decide
  · decide

end TrippingRobot.Runtrace
