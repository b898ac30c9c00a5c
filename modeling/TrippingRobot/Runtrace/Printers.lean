import TrippingRobot.Machine.Run
import TrippingRobot.Runtrace.Printing

/-! Several `print_trace_stack` calls without a cursor at once. They share the
one copy of the pool, which only the lock-protected part of a call writes. -/

namespace TrippingRobot.Runtrace

open TrippingRobot.Data TrippingRobot.Machine

/-- A call after its locked copy. `seen` is the ring at that copy, oldest slot first. -/
structure Printer where
  args : PrintArgs
  lastTp : CInt
  loop : PrintState
  seen : List Tracept

structure Printers where
  facility : Facility
  printer : Nat → Option Printer
  fault : Option Fault

def Printers.start (facility : Facility) : Printers where
  facility := facility
  printer := fun _ => none
  fault := none

inductive PrinterAction where
  | make (now : Timeval) (line : CInt) (src msg : Option CString)
  | copy (call : Nat) (flags : CInt) (dst : Bool) (size : CInt) (past : Nat → List UInt8)
  | read (call : Nat)

/-- The records of the ring, oldest slot first, as `tp_pool` holds them. -/
def ringSeen (facility : Facility) : List Tracept :=
  match facility.tpPool with
  | some pool => ringRead pool.cell facility.tpPoolSize.toNat
      (facility.nextTp - facility.tpPoolSize).toNat facility.tpPoolSize.toNat
  | none => []

def Printers.next (build : Build) (answers : Answers) (state : Printers) : PrinterAction → Printers
  | .make now line src msg =>
    match makeTracept build answers now line src msg state.facility with
    | .error fault => { state with fault := some fault }
    | .ok after => { state with facility := after }
  | .copy call flags dst size past =>
    match lockedCopy state.facility with
    | .error fault => { state with fault := some fault }
    | .ok (lastTp, _, copied) =>
      let args : PrintArgs := ⟨flags, dst, size, copied.tpCntMask, past⟩
      { state with
        facility := copied
        printer := Function.update state.printer call (some
          { args := args
            lastTp := lastTp
            loop := .first args (startTpNum copied lastTp none).1
            seen := ringSeen state.facility }) }
  | .read call =>
    match state.printer call, state.facility.tpPoolCopy with
    | some printer, some copy =>
      if printer.loop.tpNum = printer.lastTp ∨ printer.loop.stopped then state
      else match copy.read printer.loop.tp with
        | none => { state with fault := some .outOfBounds }
        | some tp =>
          { state with
            printer := Function.update state.printer call (some
              { printer with loop := printIteration printer.args printer.loop tp }) }
    | _, _ => state

/-- Every call has its own name and a buffer of at least 260 bytes. -/
def printerSystem (build : Build) (answers : Answers) : System Printers PrinterAction where
  enabled state
    | .make _ _ _ _ => True
    | .copy call _ _ size _ => state.printer call = none ∧ size.slt neededBufsize = false
    | .read _ => True
  next state action := if state.fault.isSome then state else state.next build answers action

/-- A call that ran to its end, its buffer never full, printed the records that
were in the ring when it took its copy. -/
structure PrintersLaw (state : Printers) : Prop where
  running : state.fault = none
  isolated : ∀ call printer, state.printer call = some printer →
    printer.loop.stopped = false → printer.loop.tpNum = printer.lastTp →
    (printer.loop.out.filterMap Line.record?).map Prod.snd =
      printer.seen.filter fun tp => tp.src.isSome

/-- A copy changes no slot of `tp_pool_copy` that another call has still to read. -/
def Undisturbed (state : Printers) : PrinterAction → Prop
  | .copy call _ _ _ _ => ∀ pool copy, state.facility.tpPool = some pool →
      state.facility.tpPoolCopy = some copy →
      ∀ other printer, other ≠ call → state.printer other = some printer →
        printer.loop.stopped = false →
        ∀ step, step < (printer.lastTp - printer.loop.tpNum).toNat →
          let slot := slotOf state.facility.tpCntMask (printer.loop.tpNum + BitVec.ofNat 32 step)
          pool.cell slot = copy.cell slot
  | _ => True

structure Printer.Sound (printer : Printer) (facility : Facility) (copy : Block Tracept)
    (exponent done : Nat) : Prop where
  within : done ≤ 2 ^ exponent
  length : printer.seen.length = 2 ^ exponent
  mask : printer.args.mask = facility.tpCntMask
  loop : printer.loop = printCells printer.args (printer.seen.take done)
    (.first printer.args (printer.lastTp - facility.tpPoolSize))
  number : printer.loop.stopped = false →
    printer.loop.tpNum = printer.lastTp - facility.tpPoolSize + BitVec.ofNat 32 done
  slot : printer.loop.stopped = false →
    printer.loop.tp = printer.loop.tpNum.toNat % 2 ^ exponent
  rest : printer.loop.stopped = false →
    ringRead copy.cell (2 ^ exponent) printer.loop.tpNum.toNat (2 ^ exponent - done) =
      printer.seen.drop done

structure PrintersInvariant (state : Printers) (pool copy : Block Tracept) (exponent : Nat) :
    Prop where
  running : state.fault = none
  ready : Ready state.facility pool copy exponent
  covered : poolCovered state.facility.tpPoolSize
  sound : ∀ call printer, state.printer call = some printer →
    ∃ done, printer.Sound state.facility copy exponent done

/-- The invariant of every undisturbed run. -/
def Printers.Safe (exponent : Nat) (state : Printers) : Prop :=
  ∃ pool copy, PrintersInvariant state pool copy exponent

theorem Printer.Sound.left {printer : Printer} (sound : printer.Sound facility copy exponent done)
    (size : facility.tpPoolSize.toNat = 2 ^ exponent) (running : printer.loop.stopped = false) :
    (printer.lastTp - printer.loop.tpNum).toNat = 2 ^ exponent - done := by
  have within := sound.within
  have bound := facility.tpPoolSize.isLt
  have back : printer.lastTp - printer.loop.tpNum = facility.tpPoolSize - BitVec.ofNat 32 done := by
    rw [sound.number running]
    ring
  have small : (BitVec.ofNat 32 done).toNat = done := by
    rw [BitVec.toNat_ofNat]
    omega
  rw [back, BitVec.toNat_sub_of_le (by rw [BitVec.le_def]; omega), small, size]

theorem Printer.Sound.read {printer : Printer} (sound : printer.Sound facility copy exponent done)
    (ready : Ready facility pool copy exponent) (running : printer.loop.stopped = false)
    (apart : printer.loop.tpNum ≠ printer.lastTp) :
    Printer.Sound { printer with
        loop := printIteration printer.args printer.loop (copy.cell printer.loop.tp) }
      facility copy exponent (done + 1) := by
  have high := ready.high
  have left := sound.left ready.poolSize running
  have more : done < 2 ^ exponent := by
    have nonzero : (printer.lastTp - printer.loop.tpNum).toNat ≠ 0 := by
      intro zero
      have same : printer.lastTp - printer.loop.tpNum = 0 := BitVec.eq_of_toNat_eq (by simpa using zero)
      exact apart (sub_eq_zero.mp same).symm
    omega
  obtain ⟨rest, count⟩ : ∃ rest, 2 ^ exponent - done = rest + 1 := ⟨2 ^ exponent - done - 1, by omega⟩
  have cells := sound.rest running
  rw [count, ringRead_succ, ← sound.slot running,
    List.drop_eq_getElem_cons (by rw [sound.length]; exact more)] at cells
  obtain ⟨head, tail⟩ := List.cons.inj cells
  have walked : printer.seen.take (done + 1) =
      printer.seen.take done ++ [copy.cell printer.loop.tp] := by
    rw [List.take_add_one, head, List.getElem?_eq_getElem (by rw [sound.length]; exact more)]
    rfl
  have masked : printer.args.mask.toNat + 1 = 2 ^ exponent := sound.mask ▸ ready.mask_toNat
  have moved := printIteration_cases printer.args printer.loop (copy.cell printer.loop.tp) running
  have going (goes : (printIteration printer.args printer.loop
      (copy.cell printer.loop.tp)).stopped = false) :
      (printIteration printer.args printer.loop (copy.cell printer.loop.tp)).tpNum =
          printer.loop.tpNum + 1 ∧
        (printIteration printer.args printer.loop (copy.cell printer.loop.tp)).tp =
          nextSlot printer.args.mask printer.loop.tp := by
    rcases moved with stop | ⟨_, number, next⟩
    · rw [stop] at goes
      cases goes
    · exact ⟨number, next⟩
  refine ⟨more, sound.length, sound.mask, ?_, ?_, ?_, ?_⟩
  · rw [walked, printCells_append, ← sound.loop]
    simp [printCells, running]
  · intro goes
    simp only [(going goes).1]
    rw [sound.number running, BitVec.ofNat_add, ← add_assoc]
    rfl
  · intro goes
    simp only [(going goes).1, (going goes).2]
    rw [sound.slot running, nextSlot_eq _ masked (by omega)]
  · intro goes
    simp only [(going goes).1]
    have less : 2 ^ exponent - (done + 1) = rest := by omega
    rw [less, ringRead_congr _ _ rest (toNat_succ_mod printer.loop.tpNum (by omega)), tail]

/-- A call keeps its part of the copy through an undisturbing copy of another. -/
theorem Printer.Sound.recopied {printer : Printer} {copied : Block Tracept}
    (sound : printer.Sound facility copy exponent done)
    (ready : Ready facility pool copy exponent) (covered : poolCovered facility.tpPoolSize)
    (agree : ∀ slot, slot < pool.capacity → copied.cell slot = pool.cell slot)
    (undisturbed : printer.loop.stopped = false →
      ∀ step, step < (printer.lastTp - printer.loop.tpNum).toNat →
        let slot := slotOf facility.tpCntMask (printer.loop.tpNum + BitVec.ofNat 32 step)
        pool.cell slot = copy.cell slot) :
    printer.Sound { facility with tpPoolCopy := some copied } copied exponent done :=
  { sound with
    rest := by
      intro running
      have high := ready.high
      have left := sound.left ready.poolSize running
      have bound : 2 ^ exponent ≤ 2 ^ 30 := Nat.pow_le_pow_right (by omega) (by omega)
      rw [← sound.rest running]
      apply ringRead_agree
      intro step inside
      have same := undisturbed running step (by omega)
      have small : (BitVec.ofNat 32 step).toNat = step := by
        rw [BitVec.toNat_ofNat]
        omega
      simp only [ready.slotOf_eq, toNat_add_mod _ _ (by omega : exponent ≤ 32), small] at same
      have positive : 0 < 2 ^ exponent := Nat.two_pow_pos exponent
      rw [agree _ (Nat.lt_of_lt_of_le (Nat.mod_lt _ positive) (ready.covered covered).1), same] }

theorem Printer.Sound.first {copied : Block Tracept} (args : PrintArgs)
    (ready : Ready facility pool copy exponent) (covered : poolCovered facility.tpPoolSize)
    (mask : args.mask = facility.tpCntMask)
    (agree : ∀ slot, slot < pool.capacity → copied.cell slot = pool.cell slot) :
    Printer.Sound
      { args := args
        lastTp := facility.nextTp
        loop := .first args (facility.nextTp - facility.tpPoolSize)
        seen := ringSeen facility }
      { facility with tpPoolCopy := some copied } copied exponent 0 where
  within := Nat.zero_le _
  length := by simp [ringSeen, ready.poolIs, ready.poolSize]
  mask := mask
  loop := rfl
  number _ := by simp [PrintState.first]
  slot _ := by
    have masked := ready.slotOf_eq (facility.nextTp - facility.tpPoolSize)
    simpa [PrintState.first, mask] using masked
  rest _ := by
    simp only [PrintState.first, ringSeen, ready.poolIs, ready.poolSize, Nat.sub_zero, List.drop_zero]
    apply ringRead_agree
    intro step _
    have positive : 0 < 2 ^ exponent := Nat.two_pow_pos exponent
    exact agree _ (Nat.lt_of_lt_of_le (Nat.mod_lt _ positive) (ready.covered covered).1)

private theorem PrintersInvariant.of_make (holds : PrintersInvariant state pool copy exponent) :
    ∃ pool, PrintersInvariant (state.next build answers (.make now line src msg)) pool copy
      exponent := by
  have inside : state.facility.nextTp.toNat % 2 ^ exponent < pool.capacity :=
    Nat.lt_of_lt_of_le (Nat.mod_lt _ (Nat.two_pow_pos exponent))
      (holds.ready.covered holds.covered).1
  simp only [Printers.next, makeTracept_ready holds.ready inside]
  refine ⟨_, holds.running, holds.ready.recorded _, holds.covered, ?_⟩
  intro call printer found
  obtain ⟨done, sound⟩ := holds.sound call printer found
  exact ⟨done, sound.within, sound.length, sound.mask, sound.loop, sound.number, sound.slot,
    sound.rest⟩

private theorem PrintersInvariant.of_copy (holds : PrintersInvariant state pool copy exponent)
    (undisturbed : Undisturbed state (.copy call flags dst size past)) :
    ∃ copied, PrintersInvariant (state.next build answers (.copy call flags dst size past)) pool
      copied exponent := by
  obtain ⟨copied, locked, ready, agree⟩ := lockedCopy_ready holds.ready
  simp only [Printers.next, locked]
  refine ⟨copied, holds.running, ready, holds.covered, ?_⟩
  intro other printer found
  by_cases same : other = call
  · simp only [same, Function.update_self, Option.some.injEq] at found
    rw [← found]
    exact ⟨0, .first _ holds.ready holds.covered rfl agree⟩
  · simp only [Function.update_of_ne same] at found
    obtain ⟨done, sound⟩ := holds.sound other printer found
    exact ⟨done, sound.recopied holds.ready holds.covered agree
      (undisturbed pool copy holds.ready.poolIs holds.ready.copyIs other printer same found)⟩

private theorem PrintersInvariant.of_read (holds : PrintersInvariant state pool copy exponent) :
    PrintersInvariant (state.next build answers (.read call)) pool copy exponent := by
  cases found : state.printer call with
  | none => simpa [Printers.next, found] using holds
  | some printer =>
    simp only [Printers.next, found, holds.ready.copyIs]
    split
    · exact holds
    · rename_i going
      obtain ⟨apart, running⟩ := not_or.mp going
      have running : printer.loop.stopped = false := by simpa using running
      obtain ⟨done, sound⟩ := holds.sound call printer found
      have inside : printer.loop.tp < copy.capacity := by
        rw [sound.slot running]
        exact Nat.lt_of_lt_of_le (Nat.mod_lt _ (Nat.two_pow_pos exponent))
          (holds.ready.covered holds.covered).2
      simp only [Block.read_inside inside]
      refine ⟨holds.running, holds.ready, holds.covered, ?_⟩
      intro other waiting member
      by_cases same : other = call
      · simp only [same, Function.update_self, Option.some.injEq] at member
        rw [← member]
        exact ⟨done + 1, sound.read holds.ready running apart⟩
      · simp only [Function.update_of_ne same] at member
        exact holds.sound other waiting member

theorem Printers.Safe.step (safe : Printers.Safe exponent state)
    (undisturbed : Undisturbed state action) :
    Printers.Safe exponent ((printerSystem build answers).next state action) := by
  obtain ⟨pool, copy, holds⟩ := safe
  have running : state.fault.isSome = false := by simp [holds.running]
  simp only [printerSystem, running, Bool.false_eq_true, ↓reduceIte]
  cases action with
  | make =>
    obtain ⟨pool, kept⟩ := holds.of_make
    exact ⟨pool, copy, kept⟩
  | copy =>
    obtain ⟨copied, kept⟩ := holds.of_copy undisturbed
    exact ⟨pool, copied, kept⟩
  | read => exact ⟨pool, copy, holds.of_read⟩

theorem Printer.Sound.printed {printer : Printer} (sound : printer.Sound facility copy exponent done)
    (ready : Ready facility pool copy exponent) (running : printer.loop.stopped = false)
    (arrived : printer.loop.tpNum = printer.lastTp) :
    (printer.loop.out.filterMap Line.record?).map Prod.snd =
      printer.seen.filter fun tp => tp.src.isSome := by
  have left := sound.left ready.poolSize running
  rw [arrived, BitVec.sub_self] at left
  have within := sound.within
  have all : printer.seen.take done = printer.seen := by
    apply List.take_of_length_le
    rw [sound.length]
    simp at left
    omega
  have loop := sound.loop
  rw [all] at loop
  obtain ⟨walked, walk⟩ := printCells_walked printer.args printer.seen
    (.first printer.args (printer.lastTp - facility.tpPoolSize)) rfl
  rw [← loop] at walk
  have whole : printer.seen.take walked = printer.seen := by
    have unstopped := mt walk.stopped.mpr (by simp [running])
    exact List.take_of_length_le (by omega)
  rw [walk.out, whole]
  simp [PrintState.first, pointLines_record, numbered_snd]

/-- Prints are isolated from each other in every run in which no call takes its
copy while another has still to read a slot that this changes. -/
theorem printers_isolated
    (returned : runtraceInit build answers threads Facility.start = .ok (0, facility))
    (covered : poolCovered facility.tpPoolSize)
    (legal : (printerSystem build answers).Legal (Printers.start facility) actions)
    (undisturbed : (printerSystem build answers).Guarded Undisturbed (Printers.start facility)
      actions) :
    (printerSystem build answers).Always PrintersLaw (Printers.start facility) actions := by
  obtain ⟨_, exponent, ready⟩ := Ready.of_init returned rfl
  have initial : Printers.Safe exponent (Printers.start facility) :=
    ⟨_, _, rfl, ready, covered, by simp [Printers.start]⟩
  have always := System.Always.of_invariant initial
    (fun _ _ safe condition => safe.step condition.2) (legal.and undisturbed)
  refine always.mono ?_
  rintro state ⟨pool, copy, holds⟩
  refine ⟨holds.running, ?_⟩
  intro call printer found running arrived
  obtain ⟨done, sound⟩ := holds.sound call printer found
  exact sound.printed holds.ready running arrived

/-- A print on a pool of four. When it has passed the slot of the next tracepoint, that is made
and a second print takes its copy. -/
def overlappingPrints : List PrinterAction :=
  [.make ⟨1, 2⟩ 3 (some ⟨[117], by decide⟩) none, .copy 0 0 false 260 fun _ => [], .read 0,
    .make ⟨1, 5⟩ 4 (some ⟨[117], by decide⟩) none, .copy 1 0 false 260 fun _ => [], .read 0, .read 1,
    .read 0, .read 0, .read 1, .read 1, .read 1]

theorem printers_isolated_two :
    let last := (printerSystem .cxx11 (.granting 4)).exec (Printers.start (.granted .cxx11 1 4))
      overlappingPrints
    (printerSystem .cxx11 (.granting 4)).Always PrintersLaw
        (Printers.start (.granted .cxx11 1 4)) overlappingPrints ∧
      (last.printer 0).map (fun printer => printer.loop.out.length) = some 1 ∧
      (last.printer 1).map (fun printer => printer.loop.out.length) = some 2 := by
  refine ⟨printers_isolated (runtraceInit_granted (by decide) (by decide) (by decide) (by decide))
    (by decide) ⟨trivial, ⟨rfl, rfl⟩, trivial, trivial, ⟨rfl, rfl⟩, trivial, trivial, trivial,
      trivial, trivial, trivial, trivial, trivial⟩
    ⟨trivial, ?_, trivial, trivial, ?_, trivial, trivial, trivial, trivial, trivial, trivial, trivial,
      trivial⟩, by decide +kernel, by decide +kernel⟩
  · rintro pool copy - - other printer - ⟨⟩
  · rintro pool copy ⟨⟩ ⟨⟩ other printer different found - step inside
    obtain rfl : other = 0 := by
      by_contra apart
      cases found.symm.trans
        ((Function.update_of_ne apart _ _).trans (Function.update_of_ne apart _ _))
    cases found
    have few : step < 3 := inside
    match step, few with
    | 0, _ => rfl
    | 1, _ => rfl
    | 2, _ => rfl
/-- The second call's copy replaces the slots the first one has still to read:
the first prints a tracepoint made after its own copy. -/
theorem printers_disturbed :
    let facility := Facility.granted .cxx11 1 4
    let system := printerSystem .cxx11 (.granting 4)
    let actions : List PrinterAction :=
      [.make ⟨1, 2⟩ 3 (some ⟨[97], by decide⟩) none, .copy 0 0 false 260 fun _ => [],
        .make ⟨1, 5⟩ 4 (some ⟨[97], by decide⟩) none, .copy 1 0 false 260 fun _ => [],
        .read 0, .read 0, .read 0, .read 0]
    runtraceInit .cxx11 (.granting 4) 1 Facility.start = .ok (0, facility) ∧
      system.Legal (Printers.start facility) actions ∧
      ¬system.Always PrintersLaw (Printers.start facility) actions := by
  refine ⟨runtraceInit_granted (by decide) (by decide) (by decide) (by decide),
    ⟨trivial, ⟨rfl, rfl⟩, trivial, ⟨rfl, rfl⟩, trivial, trivial, trivial, trivial, trivial⟩, ?_⟩
  intro always
  have printed := always.last.isolated 0 _ rfl rfl rfl
  exact absurd (congrArg List.length printed) (by decide)

end TrippingRobot.Runtrace
