import TrippingRobot.Machine.Run
import TrippingRobot.Runtrace.Setup
import Mathlib.Data.Finset.Card

/-! The atomic steps of `tpprintf` calls that share the ring of print buffers,
and what keeps two calls apart. -/

namespace TrippingRobot.Runtrace

open TrippingRobot.Data TrippingRobot.Machine

/-- Where a call is: about to test a container, about to move on from one that
was busy, writing byte `done` of its text, reading the text back for the trace
ring, or about to release its container. -/
inductive Stage where
  | idle
  | trying (container : Nat)
  | moving (container : Nat)
  | writing (container done : Nat)
  | copying (container : Nat) (taken : List UInt8)
  | clearing (container : Nat) (handed : List UInt8)
deriving DecidableEq

/-- The container a call has taken. -/
def Stage.held : Stage → Option Nat
  | .writing container _ | .copying container _ | .clearing container _ => some container
  | _ => none

/-- What `vsnprintf` puts into a buffer of `RT_MSG_MAX` bytes. -/
def vsnprintfOutput (formatted : List UInt8) : List UInt8 := formatted.take (rtMsgMax - 1) ++ [0]

structure Buffers where
  cell : Nat → VspbContainer
  stage : Nat → Stage
  formatted : Nat → List UInt8
  active : Finset Nat
  underrun : Bool

def Buffers.start (facility : Facility) : Buffers where
  cell := match facility.vsprintBuffer with
    | some buffer => buffer.cell
    | none => fun _ => ⟨0, 0, fun _ => 0⟩
  stage := fun _ => .idle
  formatted := fun _ => []
  active := ∅
  underrun := false

inductive BufferAction where
  | start (call : Nat) (formatted : List UInt8)
  | testAndSet (call : Nat)
  | move (call : Nat)
  | write (call : Nat)
  | copy (call : Nat)
  | clear (call : Nat)

def Buffers.setStage (state : Buffers) (call : Nat) (stage : Stage) : Buffers :=
  { state with stage := Function.update state.stage call stage }

def Buffers.setInUse (state : Buffers) (container : Nat) (word : BitVec 64) : Buffers :=
  { state with
    cell := Function.update state.cell container { state.cell container with inUse := word } }

def Buffers.setByte (state : Buffers) (container index : Nat) (byte : UInt8) : Buffers :=
  { state with
    cell := Function.update state.cell container
      { state.cell container with
        buf := Function.update (state.cell container).buf index byte } }

@[simp] theorem setStage_cell (state : Buffers) (call : Nat) (stage : Stage) :
    (state.setStage call stage).cell = state.cell := rfl

@[simp] theorem setStage_stage (state : Buffers) (call : Nat) (stage : Stage) :
    (state.setStage call stage).stage = Function.update state.stage call stage := rfl

@[simp] theorem setStage_formatted (state : Buffers) (call : Nat) (stage : Stage) :
    (state.setStage call stage).formatted = state.formatted := rfl

@[simp] theorem setStage_active (state : Buffers) (call : Nat) (stage : Stage) :
    (state.setStage call stage).active = state.active := rfl

@[simp] theorem setByte_active (state : Buffers) (container index : Nat) (byte : UInt8) :
    (state.setByte container index byte).active = state.active := rfl

@[simp] theorem setInUse_stage (state : Buffers) (container : Nat) (word : BitVec 64) :
    (state.setInUse container word).stage = state.stage := rfl

@[simp] theorem setByte_stage (state : Buffers) (container index : Nat) (byte : UInt8) :
    (state.setByte container index byte).stage = state.stage := rfl

theorem setInUse_inUse (state : Buffers) (container other : Nat) (word : BitVec 64) :
    ((state.setInUse container word).cell other).inUse =
      if other = container then word else (state.cell other).inUse := by
  by_cases same : other = container
  · simp [Buffers.setInUse, same]
  · simp [Buffers.setInUse, same]

@[simp] theorem setInUse_buf (state : Buffers) (container other : Nat) (word : BitVec 64) :
    ((state.setInUse container word).cell other).buf = (state.cell other).buf := by
  by_cases same : other = container
  · simp [Buffers.setInUse, same]
  · simp [Buffers.setInUse, same]

@[simp] theorem setInUse_next (state : Buffers) (container other : Nat) (word : BitVec 64) :
    ((state.setInUse container word).cell other).next = (state.cell other).next := by
  by_cases same : other = container
  · simp [Buffers.setInUse, same]
  · simp [Buffers.setInUse, same]

@[simp] theorem setByte_inUse (state : Buffers) (container other index : Nat) (byte : UInt8) :
    ((state.setByte container index byte).cell other).inUse = (state.cell other).inUse := by
  by_cases same : other = container
  · simp [Buffers.setByte, same]
  · simp [Buffers.setByte, same]

@[simp] theorem setByte_next (state : Buffers) (container other index : Nat) (byte : UInt8) :
    ((state.setByte container index byte).cell other).next = (state.cell other).next := by
  by_cases same : other = container
  · simp [Buffers.setByte, same]
  · simp [Buffers.setByte, same]

theorem setByte_cell (state : Buffers) (index : Nat) (byte : UInt8) (different : other ≠ container) :
    (state.setByte container index byte).cell other = state.cell other :=
  Function.update_of_ne different _ _

/-- `strncpy` at one byte of the source: it ends at a NUL or at a full field. -/
def copyStage (container : Nat) (taken : List UInt8) (byte : UInt8) : Stage :=
  if byte = 0 then .clearing container taken
  else if taken.length + 1 = rtMsgMax then .clearing container (taken ++ [byte])
  else .copying container (taken ++ [byte])

/-- One step of one call; an action that is not the call's next one does nothing. -/
def Buffers.next (build : Build) (state : Buffers) : BufferAction → Buffers
  | .start call formatted =>
    { state.setStage call (.trying 0) with
      formatted := Function.update state.formatted call formatted
      active := insert call state.active }
  | .testAndSet call =>
    match state.stage call with
    | .trying container =>
      let (busy, word) := atomicTestAndSet build (state.cell container).inUse
      (state.setInUse container word).setStage call
        (if busy then .moving container else .writing container 0)
    | _ => state
  | .move call =>
    match state.stage call with
    | .moving container =>
      let next := (state.cell container).next
      { state.setStage call (.trying next) with underrun := state.underrun || next == 0 }
    | _ => state
  | .write call =>
    match state.stage call with
    | .writing container done =>
      let output := vsnprintfOutput (state.formatted call)
      (state.setByte container done (output.getD done 0)).setStage call
        (if done + 1 = output.length then .copying container [] else .writing container (done + 1))
    | _ => state
  | .copy call =>
    match state.stage call with
    | .copying container taken =>
      state.setStage call (copyStage container taken ((state.cell container).buf taken.length))
    | _ => state
  | .clear call =>
    match state.stage call with
    | .clearing container _ =>
      { (state.setInUse container
          (atomicClear build (state.cell container).inUse)).setStage call .idle with
        active := state.active.erase call }
    | _ => state

/-- Calls start when their caller is not in one; nothing else is assumed. -/
def bufferSystem (build : Build) : System Buffers BufferAction where
  enabled state
    | .start call _ => state.stage call = .idle
    | _ => True
  next := Buffers.next build

instance (build : Build) :
    ∀ state action, Decidable ((bufferSystem build).enabled state action)
  | state, .start call _ => inferInstanceAs (Decidable (state.stage call = .idle))
  | _, .testAndSet _ | _, .move _ | _, .write _ | _, .copy _ | _, .clear _ => isTrue trivial

/-- Whether a test-and-set finds the container free. -/
def isFree (build : Build) (word : BitVec 64) : Bool := !(atomicTestAndSet build word).1

private theorem bit_ne_zero {word : BitVec 64} (bit : word.getLsbD 0 = true) : word ≠ 0 := by
  rintro rfl
  simp at bit

@[simp] theorem testAndSet_bit (build : Build) (word : BitVec 64) :
    (atomicTestAndSet build word).2.getLsbD 0 = true := by
  cases build <;> simp [atomicTestAndSet]

/-- Bit 0 alone keeps a container from being taken, however the flag is tested. -/
theorem not_isFree_of_bit (build : Build) {word : BitVec 64} (bit : word.getLsbD 0 = true) :
    isFree build word = false := by
  cases build with
  | kernel => simp [isFree, atomicTestAndSet, bit]
  | cxx11 =>
    have low : (word &&& 0xff).getLsbD 0 = true := by simp [bit]
    simpa [isFree, atomicTestAndSet] using bit_ne_zero low
  | cxx98 => simpa [isFree, atomicTestAndSet] using bit_ne_zero bit

theorem not_isFree_testAndSet (build : Build) (word : BitVec 64) :
    isFree build (atomicTestAndSet build word).2 = false :=
  not_isFree_of_bit build (testAndSet_bit build word)

/-- Releasing a container makes it free, unless the C++98 flag holds other bits. -/
theorem isFree_clear_iff (build : Build) (word : BitVec 64) :
    isFree build (atomicClear build word) = true ↔ (build = .cxx98 → word &&& ~~~1 = 0) := by
  cases build with
  | kernel => simp [isFree, atomicTestAndSet, atomicClear]
  | cxx11 => simp [isFree, atomicTestAndSet, atomicClear, BitVec.and_assoc]
  | cxx98 => simp [isFree, atomicTestAndSet, atomicClear]

theorem vsnprintfOutput_length (formatted : List UInt8) :
    (vsnprintfOutput formatted).length ≤ rtMsgMax := by
  simp [vsnprintfOutput, rtMsgMax]

theorem vsnprintfOutput_last {formatted : List UInt8} {index : Nat}
    (inside : index < (vsnprintfOutput formatted).length)
    (nonzero : (vsnprintfOutput formatted).getD index 0 ≠ 0) :
    index + 1 < (vsnprintfOutput formatted).length := by
  by_contra last
  have length : (vsnprintfOutput formatted).length = (formatted.take (rtMsgMax - 1)).length + 1 := by
    simp [vsnprintfOutput]
  have position : index = (formatted.take (rtMsgMax - 1)).length := by omega
  apply nonzero
  rw [position, List.getD_eq_getElem?_getD, vsnprintfOutput, List.getElem?_append_right (by omega)]
  simp

/-- What a call knows about the container it holds. -/
def CallSound (cell : Nat → VspbContainer) (output : List UInt8) : Stage → Prop
  | .writing container done =>
    (cell container).inUse.getLsbD 0 = true ∧ done < output.length ∧
      ∀ index, index < done → (cell container).buf index = output.getD index 0
  | .copying container taken =>
    (cell container).inUse.getLsbD 0 = true ∧ taken.length < output.length ∧
      (∀ index, index < output.length → (cell container).buf index = output.getD index 0) ∧
      taken = output.take taken.length ∧ 0 ∉ taken
  | .clearing container handed =>
    (cell container).inUse.getLsbD 0 = true ∧ handed = untilNul output
  | _ => True

/-- No two calls hold one container, and every holder finds its own text there. -/
structure BuffersInvariant (state : Buffers) : Prop where
  apart : ∀ call other container, (state.stage call).held = some container →
    (state.stage other).held = some container → call = other
  sound : ∀ call, CallSound state.cell (vsnprintfOutput (state.formatted call)) (state.stage call)

/-- A call does not notice what happens outside the container it holds. -/
theorem CallSound.frame {cell other : Nat → VspbContainer}
    (sound : CallSound cell output stage)
    (kept : ∀ container, stage.held = some container →
      (other container).buf = (cell container).buf ∧
        ((cell container).inUse.getLsbD 0 = true → (other container).inUse.getLsbD 0 = true)) :
    CallSound other output stage := by
  cases stage with
  | idle | trying | moving => trivial
  | writing container done =>
    obtain ⟨buf, bit⟩ := kept container rfl
    obtain ⟨flagged, inside, written⟩ := sound
    exact ⟨bit flagged, inside, by rwa [buf]⟩
  | copying container taken =>
    obtain ⟨buf, bit⟩ := kept container rfl
    obtain ⟨flagged, inside, written, progress⟩ := sound
    exact ⟨bit flagged, inside, by rwa [buf], progress⟩
  | clearing container handed =>
    exact ⟨(kept container rfl).2 sound.1, sound.2⟩

theorem CallSound.flagged {cell : Nat → VspbContainer} (sound : CallSound cell output stage)
    (holds : stage.held = some container) : (cell container).inUse.getLsbD 0 = true := by
  cases stage with
  | idle | trying | moving => cases holds
  | writing | copying | clearing =>
    cases holds
    exact sound.1

theorem CallSound.copy {cell : Nat → VspbContainer}
    (sound : CallSound cell (vsnprintfOutput formatted) (.copying container taken)) :
    CallSound cell (vsnprintfOutput formatted)
      (copyStage container taken ((cell container).buf taken.length)) := by
  obtain ⟨flagged, inside, written, prefixed, clean⟩ := sound
  have byte := written taken.length inside
  have bounded := vsnprintfOutput_length formatted
  have split : (vsnprintfOutput formatted).take (taken.length + 1) =
      taken ++ [(cell container).buf taken.length] := by
    rw [List.take_add_one, ← prefixed, byte, List.getD_eq_getElem?_getD,
      List.getElem?_eq_getElem inside]
    rfl
  unfold copyStage
  by_cases ends : (cell container).buf taken.length = 0
  · rw [if_pos ends]
    refine ⟨flagged, ?_⟩
    rw [← List.take_append_drop (taken.length + 1) (vsnprintfOutput formatted), split, ends,
      List.append_assoc]
    exact (untilNul_append_nul clean _).symm
  · rw [if_neg ends]
    have more := vsnprintfOutput_last inside (byte ▸ ends)
    rw [if_neg (by omega)]
    refine ⟨flagged, by simpa using more, written, ?_, ?_⟩
    · simp [split]
    · intro member
      rcases List.mem_append.mp member with old | new
      · exact clean old
      · exact ends (List.mem_singleton.mp new).symm

/-- A step of one call keeps the invariant if its own part is sound, it holds no
container of another call, and it leaves what the others hold alone. -/
theorem BuffersInvariant.update {after : Buffers} (holds : BuffersInvariant state) (call : Nat)
    (others : ∀ other, other ≠ call → after.stage other = state.stage other ∧
      after.formatted other = state.formatted other)
    (own : CallSound after.cell (vsnprintfOutput (after.formatted call)) (after.stage call))
    (alone : ∀ container, (after.stage call).held = some container →
      ∀ other, other ≠ call → (state.stage other).held ≠ some container)
    (kept : ∀ other, other ≠ call → ∀ container, (state.stage other).held = some container →
      (after.cell container).buf = (state.cell container).buf ∧
        ((state.cell container).inUse.getLsbD 0 = true →
          (after.cell container).inUse.getLsbD 0 = true)) :
    BuffersInvariant after where
  apart first second container firstHolds secondHolds := by
    by_cases one : first = call
    · by_cases two : second = call
      · rw [one, two]
      · rw [(others second two).1] at secondHolds
        exact absurd secondHolds (alone container (one ▸ firstHolds) second two)
    · rw [(others first one).1] at firstHolds
      by_cases two : second = call
      · exact absurd firstHolds (alone container (two ▸ secondHolds) first one)
      · rw [(others second two).1] at secondHolds
        exact holds.apart first second container firstHolds secondHolds
  sound other := by
    by_cases same : other = call
    · rw [same]
      exact own
    · rw [(others other same).1, (others other same).2]
      exact (holds.sound other).frame (kept other same)

theorem BuffersInvariant.of_start (holds : BuffersInvariant state) :
    BuffersInvariant (state.next build (.start call formatted)) := by
  refine holds.update call ?_ ?_ ?_ ?_
  · intro other different
    exact ⟨Function.update_of_ne different _ _, Function.update_of_ne different _ _⟩
  · simp [Buffers.next, Buffers.setStage, CallSound]
  · intro container taken
    simp [Buffers.next, Buffers.setStage, Stage.held] at taken
  · exact fun _ _ _ _ => ⟨rfl, id⟩

theorem BuffersInvariant.of_testAndSet (holds : BuffersInvariant state) :
    BuffersInvariant (state.next build (.testAndSet call)) := by
  simp only [Buffers.next]
  split
  · rename_i container trying
    have taking : (atomicTestAndSet build (state.cell container).inUse).1 = false →
        ∀ other, (state.stage other).held ≠ some container := by
      intro free other taken
      have busy := not_isFree_of_bit build ((holds.sound other).flagged taken)
      simp [isFree, free] at busy
    refine holds.update call ?_ ?_ ?_ ?_
    · exact fun other different => ⟨Function.update_of_ne different _ _, rfl⟩
    · cases busy : (atomicTestAndSet build (state.cell container).inUse).1 with
      | true => simp [CallSound]
      | false => simp [CallSound, setInUse_inUse, vsnprintfOutput]
    · intro wanted held other _
      cases busy : (atomicTestAndSet build (state.cell container).inUse).1 with
      | true => simp [busy, Stage.held] at held
      | false =>
        obtain rfl : container = wanted := by simpa [busy, Stage.held] using held
        exact taking busy other
    · intro other _ held _
      simp only [setStage_cell, setInUse_buf, setInUse_inUse, true_and]
      split <;> simp
  · exact holds

theorem BuffersInvariant.of_move (holds : BuffersInvariant state) :
    BuffersInvariant (state.next build (.move call)) := by
  simp only [Buffers.next]
  split
  · refine holds.update call ?_ ?_ ?_ ?_
    · exact fun other different => ⟨Function.update_of_ne different _ _, rfl⟩
    · simp [CallSound]
    · simp [Stage.held]
    · exact fun _ _ _ _ => ⟨rfl, id⟩
  · exact holds

theorem BuffersInvariant.of_write (holds : BuffersInvariant state) :
    BuffersInvariant (state.next build (.write call)) := by
  simp only [Buffers.next]
  split
  · rename_i container done writing
    have alone : ∀ other, other ≠ call → (state.stage other).held ≠ some container := by
      intro other different taken
      exact different (holds.apart other call container taken (by simp [writing, Stage.held]))
    obtain ⟨flagged, inside, written⟩ : CallSound _ _ (.writing container done) :=
      writing ▸ holds.sound call
    have wrote : ∀ index, index < done + 1 → ((state.setByte container done
        ((vsnprintfOutput (state.formatted call)).getD done 0)).cell container).buf index =
          (vsnprintfOutput (state.formatted call)).getD index 0 := by
      intro index below
      by_cases last : index = done
      · simp [Buffers.setByte, last]
      · simpa [Buffers.setByte, last] using written index (by omega)
    refine holds.update call ?_ ?_ ?_ ?_
    · exact fun other different => ⟨Function.update_of_ne different _ _, rfl⟩
    · by_cases last : done + 1 = (vsnprintfOutput (state.formatted call)).length
      · simp only [setStage_stage, setStage_cell, Function.update_self, if_pos last, CallSound]
        exact ⟨by simpa using flagged, Nat.lt_of_lt_of_eq (Nat.succ_pos done) last,
          fun index below => wrote index (last ▸ below), by simp, by simp⟩
      · simp only [setStage_stage, setStage_cell, Function.update_self, if_neg last, CallSound]
        exact ⟨by simpa using flagged, Nat.lt_of_le_of_ne inside last, wrote⟩
    · intro wanted held
      obtain rfl : container = wanted := by
        simp only [setStage_stage, Function.update_self] at held
        split at held <;> simpa [Stage.held] using held
      exact alone
    · intro other different held taken
      have elsewhere : held ≠ container := fun same => alone other different (same ▸ taken)
      simp [setByte_cell _ _ _ elsewhere]
  · exact holds

theorem BuffersInvariant.of_copy (holds : BuffersInvariant state) :
    BuffersInvariant (state.next build (.copy call)) := by
  simp only [Buffers.next]
  split
  · rename_i container taken copying
    have own : CallSound _ _ (.copying container taken) := copying ▸ holds.sound call
    refine holds.update call ?_ ?_ ?_ ?_
    · exact fun other different => ⟨Function.update_of_ne different _ _, rfl⟩
    · simpa using own.copy
    · intro wanted held other different inside
      obtain rfl : container = wanted := by
        simp only [setStage_stage, Function.update_self, copyStage] at held
        split at held
        · simpa [Stage.held] using held
        · split at held <;> simpa [Stage.held] using held
      exact different (holds.apart other call container inside (by simp [copying, Stage.held]))
    · exact fun _ _ _ _ => ⟨rfl, id⟩
  · exact holds

theorem BuffersInvariant.of_clear (holds : BuffersInvariant state) :
    BuffersInvariant (state.next build (.clear call)) := by
  simp only [Buffers.next]
  split
  · rename_i container handed clearing
    refine holds.update call ?_ ?_ ?_ ?_
    · exact fun other different => ⟨Function.update_of_ne different _ _, rfl⟩
    · simp [CallSound]
    · simp [Stage.held]
    · intro other different held taken
      have elsewhere : held ≠ container := by
        rintro rfl
        exact different (holds.apart other call held taken (by simp [clearing, Stage.held]))
      simp [setInUse_inUse, elsewhere]
  · exact holds

theorem BuffersInvariant.step (holds : BuffersInvariant state) (action : BufferAction) :
    BuffersInvariant (state.next build action) := by
  cases action with
  | start => exact holds.of_start
  | testAndSet => exact holds.of_testAndSet
  | move => exact holds.of_move
  | write => exact holds.of_write
  | copy => exact holds.of_copy
  | clear => exact holds.of_clear

theorem BuffersInvariant.start (facility : Facility) : BuffersInvariant (Buffers.start facility) where
  apart := by simp [Buffers.start, Stage.held]
  sound := by simp [Buffers.start, CallSound]

theorem untilNul_vsnprintfOutput (formatted : List UInt8) :
    untilNul (vsnprintfOutput formatted) = untilNul (formatted.take (rtMsgMax - 1)) := by
  unfold vsnprintfOutput untilNul
  induction formatted.take (rtMsgMax - 1) with
  | nil => simp
  | cons byte rest ih =>
    rw [List.cons_append, List.takeWhile_cons, List.takeWhile_cons, ih]

structure BuffersLaw (state : Buffers) : Prop where
  exclusive : ∀ call other container, (state.stage call).held = some container →
    (state.stage other).held = some container → call = other
  flagged : ∀ call container, (state.stage call).held = some container →
    (state.cell container).inUse.getLsbD 0 = true
  handed : ∀ call container text, state.stage call = .clearing container text →
    text = untilNul ((state.formatted call).take (rtMsgMax - 1))

/-- However many calls interleave, buffers are held exclusively and every call
hands over the text it formatted itself. -/
theorem buffers_exclusive (build : Build) (facility : Facility) (actions : List BufferAction)
    (legal : (bufferSystem build).Legal (Buffers.start facility) actions) :
    (bufferSystem build).Always BuffersLaw (Buffers.start facility) actions := by
  have always := System.Always.of_invariant (BuffersInvariant.start facility)
    (fun _ action holds _ => holds.step action) legal
  refine always.mono fun state holds => ⟨holds.apart, ?_, ?_⟩
  · exact fun call container taken => (holds.sound call).flagged taken
  · intro call container text clearing
    have own : CallSound _ _ (.clearing container text) := clearing ▸ holds.sound call
    exact own.2.trans (untilNul_vsnprintfOutput _)

/-- Two calls take the two containers of a ring, and the first hands its text over. -/
def handingOver : List BufferAction :=
  [.start 0 [65], .start 1 [66], .start 2 [67], .testAndSet 0, .testAndSet 1, .move 1,
    .testAndSet 1, .testAndSet 2, .write 0, .write 1, .write 0, .copy 0, .copy 0]

/-- It clears its container, and the third call goes round the ring and takes it. -/
def takingAgain : List BufferAction :=
  [.clear 0, .move 2, .testAndSet 2, .move 2, .testAndSet 2, .write 2]

theorem buffers_exclusive_three :
    let system := bufferSystem .cxx11
    let start := Buffers.start (.granted .cxx11 2 4)
    system.Always BuffersLaw start (handingOver ++ takingAgain) ∧
      (system.exec start handingOver).stage 0 = .clearing 0 [65] ∧
      ((system.exec start (handingOver ++ takingAgain)).stage 2).held = some 0 :=
  ⟨buffers_exclusive _ _ _ (by decide), by decide +kernel, by decide +kernel⟩

end TrippingRobot.Runtrace
