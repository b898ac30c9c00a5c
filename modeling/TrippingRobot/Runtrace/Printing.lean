import TrippingRobot.Data.Ring
import TrippingRobot.Runtrace.Setup

/-! `print_trace_stack`: the copy under the lock, the start of the walk, and the
loop over the copied slots. The loop is then the walk over a list of records. -/

namespace TrippingRobot.Runtrace

open TrippingRobot.Data

/-- One thing a call prints: the ellipsis, or a tracepoint under its number. -/
inductive Line where
  | ellipsis
  | point (tpNum : CInt) (tp : Tracept) (text : List UInt8)

def ellipsisText : List UInt8 := ascii ['.', '.', '.', '\n']

def Line.text : Line → List UInt8
  | .ellipsis => ellipsisText
  | .point _ _ text => text

/-- The bytes of some lines together. -/
def textLength (lines : List Line) : Nat := (lines.map fun line => line.text.length).sum

/-- The tracepoint of a line, with the number it was printed under. -/
def Line.record? : Line → Option (CInt × Tracept)
  | .ellipsis => none
  | .point tpNum tp _ => some (tpNum, tp)

structure PrintArgs where
  flags : CInt
  /-- Whether `dst` is non-NULL. -/
  dst : Bool
  size : CInt
  mask : CInt
  past : Nat → List UInt8

structure PrintState where
  tpNum : CInt
  tp : Nat
  printed : CInt
  prevTime : BitVec 64
  out : List Line
  visited : List Nat
  stopped : Bool

structure Printout where
  returned : CInt
  priv : Option CInt
  out : List Line
  visited : List Nat
  stopped : Bool

/-- `needed_bufsize`. -/
def neededBufsize : CInt := 30 + 30 + 200

/-- `if (++tp > tp_end) tp = tp_pool_copy`. -/
def nextSlot (mask : CInt) (tp : Nat) : Nat := if mask.toNat < tp + 1 then 0 else tp + 1

/-- The loop variables before the first iteration. -/
def PrintState.first (args : PrintArgs) (tpNum : CInt) : PrintState where
  tpNum := tpNum
  tp := slotOf args.mask tpNum
  printed := 0
  prevTime := 0
  out := []
  visited := []
  stopped := false

def PrintState.advance (args : PrintArgs) (state : PrintState) : PrintState :=
  { state with
    tpNum := state.tpNum + 1
    tp := nextSlot args.mask state.tp
    visited := state.visited ++ [state.tp] }

/-- `printed += __print_trace_point(...)`, which counts only what goes to a buffer. -/
def PrintState.emit (args : PrintArgs) (state : PrintState) (tp : Tracept) : PrintState :=
  let line := printTracePoint args.flags tp (args.past state.tp) state.prevTime
  { state with
    printed := if args.dst then state.printed + BitVec.ofNat 32 line.1.length else state.printed
    prevTime := line.2
    out := state.out ++ [.point state.tpNum tp line.1] }

/-- One iteration of the loop at a slot holding `tp`. -/
def printIteration (args : PrintArgs) (state : PrintState) (tp : Tracept) : PrintState :=
  if tp.src.isNone then state.advance args
  else if args.dst ∧ (args.size - neededBufsize).slt state.printed then
    { state with stopped := true }
  else (state.emit args tp).advance args

/-- `for (; tp_num != last_tp; ++tp_num)`, which a full buffer also ends. -/
def printLoop (args : PrintArgs) (copy : Block Tracept) (lastTp : CInt) :
    Nat → PrintState → Except Fault PrintState
  | 0, _ => .error .diverged
  | fuel + 1, state =>
    if state.tpNum = lastTp ∨ state.stopped then .ok state
    else match copy.read state.tp with
      | none => .error .outOfBounds
      | some tp => printLoop args copy lastTp fuel (printIteration args state tp)

/-- A bound on the iterations: the counter takes no more values than this. -/
def loopFuel : Nat := 2 ^ 32 + 1

/-- Where a call with a cursor starts, and whether it notices an overrun. -/
def adjustTpNum (facility : Facility) (lastTp priv : CInt) : CInt × Bool :=
  let oldest := lastTp - facility.tpPoolSize
  if (lastTp - facility.tpCntMask).slt 0 then
    if lastTp.slt priv ∧ priv.slt oldest then (oldest, true) else (priv, false)
  else if priv.slt oldest ∨ lastTp.slt priv then (oldest, true) else (priv, false)

/-- `tp_num` and `overrun` before the loop. -/
def startTpNum (facility : Facility) (lastTp : CInt) : Option CInt → CInt × Bool
  | some priv => adjustTpNum facility lastTp priv
  | none => (lastTp - facility.tpPoolSize, false)

/-- The loop variables at its start, the ellipsis printed if records were lost. -/
def openPrint (args : PrintArgs) (copy : Block Tracept) (tpNum : CInt) (overrun : Bool) :
    Except Fault PrintState :=
  let first := PrintState.first args tpNum
  if overrun then
    match copy.read first.tp with
    | none => .error .outOfBounds
    | some tp =>
      if tp.src.isSome ∧ args.dst then
        .ok { first with
          printed := BitVec.ofNat 32 ellipsisText.length
          out := [.ellipsis] }
      else .ok first
  else .ok first

/-- The part of `print_trace_stack` under the write lock. -/
def lockedCopy (facility : Facility) : Except Fault (CInt × Block Tracept × Facility) :=
  if facility.wrLocked then .error .deadlock
  else match facility.tpPool, facility.tpPoolCopy with
    | some pool, some copy =>
      match copy.copyFrom pool (recordsIn facility.tpPoolMemSize) with
      | none => .error .outOfBounds
      | some copied =>
        .ok (facility.nextTp, copied, { facility with tpPoolCopy := some copied })
    | _, _ => .error .nullPointer

/-- The part of `print_trace_stack` after the lock. -/
def printCopy (build : Build) (args : PrintArgs) (facility : Facility) (lastTp : CInt)
    (copy : Block Tracept) (priv : Option CInt) : Except Fault Printout := do
  if args.size.slt neededBufsize then
    disablingErr build ⟨-1, priv, [], [], false⟩
  else if priv = some lastTp then
    return ⟨0, priv, [], [], false⟩
  else
    let (tpNum, overrun) := startTpNum facility lastTp priv
    let first ← openPrint args copy tpNum overrun
    let final ← printLoop args copy lastTp loopFuel first
    return ⟨final.printed, priv.map fun _ => final.tpNum, final.out, final.visited, final.stopped⟩

/-- `print_trace_stack`. -/
def printTraceStack (build : Build) (flags : CInt) (dst : Bool) (size : CInt)
    (priv : Option CInt) (past : Nat → List UInt8) (facility : Facility) :
    Except Fault (Printout × Facility) := do
  let (lastTp, copy, copied) ← lockedCopy facility
  let printout ← printCopy build ⟨flags, dst, size, facility.tpCntMask, past⟩ copied lastTp copy priv
  return (printout, copied)

/-- The loop as a walk over the records it meets. -/
def printCells (args : PrintArgs) : List Tracept → PrintState → PrintState
  | [], state => state
  | tp :: rest, state =>
    if state.stopped then state else printCells args rest (printIteration args state tp)

/-- The lines of a walk that never runs out of space. -/
def pointLines (args : PrintArgs) (tpNum : CInt) (slot : Nat) (prevTime : BitVec 64) :
    List Tracept → List Line
  | [] => []
  | tp :: rest =>
    let line := printTracePoint args.flags tp (args.past slot) prevTime
    if tp.src.isNone then
      pointLines args (tpNum + 1) (nextSlot args.mask slot) prevTime rest
    else
      .point tpNum tp line.1 :: pointLines args (tpNum + 1) (nextSlot args.mask slot) line.2 rest

/-- The slots with a source, under consecutive numbers. -/
def numbered (tpNum : CInt) : List Tracept → List (CInt × Tracept)
  | [] => []
  | tp :: rest =>
    if tp.src.isNone then numbered (tpNum + 1) rest
    else (tpNum, tp) :: numbered (tpNum + 1) rest

theorem pointLines_record (args : PrintArgs) (tpNum : CInt) (slot : Nat) (prevTime : BitVec 64)
    (cells : List Tracept) :
    (pointLines args tpNum slot prevTime cells).filterMap Line.record? = numbered tpNum cells := by
  induction cells generalizing tpNum slot prevTime with
  | nil => rfl
  | cons tp rest ih =>
    by_cases blank : tp.src.isNone
    · simp [pointLines, numbered, blank, ih]
    · simp [pointLines, numbered, blank, ih, Line.record?]

theorem ellipsis_not_mem_pointLines (args : PrintArgs) (tpNum : CInt) (slot : Nat)
    (prevTime : BitVec 64) (cells : List Tracept) :
    Line.ellipsis ∉ pointLines args tpNum slot prevTime cells := by
  induction cells generalizing tpNum slot prevTime with
  | nil => simp [pointLines]
  | cons tp rest ih =>
    by_cases blank : tp.src.isNone
    · simp [pointLines, blank, ih]
    · simp [pointLines, blank, ih]

theorem numbered_snd (tpNum : CInt) (cells : List Tracept) :
    (numbered tpNum cells).map Prod.snd = cells.filter (fun tp => tp.src.isSome) := by
  induction cells generalizing tpNum with
  | nil => rfl
  | cons tp rest ih =>
    cases source : tp.src <;> simp [numbered, source, ih]

theorem numbered_range {tpNum : CInt} {cells : List Tracept}
    (sourced : ∀ tp ∈ cells, tp.src.isSome) (small : tpNum.toNat + cells.length < 2 ^ 32) :
    (numbered tpNum cells).map (fun record => record.1.toNat) =
      List.range' tpNum.toNat cells.length := by
  induction cells generalizing tpNum with
  | nil => rfl
  | cons tp rest ih =>
    obtain ⟨source, later⟩ := List.forall_mem_cons.mp sourced
    simp only [List.length_cons] at small
    have next : (tpNum + 1).toNat = tpNum.toNat + 1 := by
      rw [BitVec.toNat_add]
      simp
      omega
    have rested := ih later (by omega : (tpNum + 1).toNat + rest.length < 2 ^ 32)
    have present : tp.src.isNone = false := by simpa using source
    rw [next] at rested
    simp only [numbered, present, Bool.false_eq_true, ↓reduceIte, List.map_cons, rested,
      List.length_cons, List.range'_succ]

theorem numbered_record {tpNum : CInt} {cells : List Tracept}
    (small : tpNum.toNat + cells.length < 2 ^ 32) (member : record ∈ numbered tpNum cells) :
    tpNum.toNat ≤ record.1.toNat ∧ cells[record.1.toNat - tpNum.toNat]? = some record.2 := by
  induction cells generalizing tpNum with
  | nil => simp [numbered] at member
  | cons tp rest ih =>
    simp only [List.length_cons] at small
    have next : (tpNum + 1).toNat = tpNum.toNat + 1 := by
      rw [BitVec.toNat_add]
      simp
      omega
    have later (inside : record ∈ numbered (tpNum + 1) rest) :
        tpNum.toNat ≤ record.1.toNat ∧
          (tp :: rest)[record.1.toNat - tpNum.toNat]? = some record.2 := by
      obtain ⟨above, found⟩ := ih (by omega) inside
      have step : record.1.toNat - tpNum.toNat = record.1.toNat - (tpNum + 1).toNat + 1 := by omega
      exact ⟨by omega, by rw [step, List.getElem?_cons_succ, found]⟩
    simp only [numbered] at member
    split at member
    · exact later member
    · rcases List.mem_cons.mp member with rfl | inside
      · simp
      · exact later inside

theorem startTpNum_copied {facility : Facility} (copied : Block Tracept) (lastTp : CInt)
    (priv : Option CInt) :
    startTpNum { facility with tpPoolCopy := some copied } lastTp priv =
      startTpNum facility lastTp priv := by
  cases priv with
  | none => rfl
  | some priv => rfl

/-- A counter that wraps at 2^32 wraps at a slot boundary. -/
theorem toNat_add_mod (number step : CInt) (fits : exponent ≤ 32) :
    (number + step).toNat % 2 ^ exponent = (number.toNat + step.toNat) % 2 ^ exponent := by
  rw [BitVec.toNat_add, Nat.mod_mod_of_dvd _ (Nat.pow_dvd_pow 2 fits)]

theorem toNat_succ_mod (number : CInt) (fits : exponent ≤ 32) :
    (number + 1).toNat % 2 ^ exponent = (number.toNat + 1) % 2 ^ exponent :=
  toNat_add_mod number 1 fits

theorem toNat_sub_succ {lastTp tpNum : CInt} (apart : tpNum ≠ lastTp) :
    (lastTp - tpNum).toNat = (lastTp - (tpNum + 1)).toNat + 1 := by
  have positive : lastTp - tpNum ≠ 0 := by
    intro zero
    exact apart (sub_eq_zero.mp zero).symm
  have nonzero : (lastTp - tpNum).toNat ≠ 0 := by
    intro zero
    exact positive (BitVec.eq_of_toNat_eq (by simpa using zero))
  have bound := (lastTp - tpNum).isLt
  have one : (1 : CInt).toNat = 1 := rfl
  rw [← BitVec.sub_sub, BitVec.toNat_sub (lastTp - tpNum) 1, one]
  omega

theorem nextSlot_eq {mask : CInt} (number : CInt)
    (masked : mask.toNat + 1 = 2 ^ exponent) (fits : exponent ≤ 32) :
    nextSlot mask (number.toNat % 2 ^ exponent) = (number + 1).toNat % 2 ^ exponent := by
  rw [toNat_succ_mod number fits, nextSlot]
  have positive : 0 < 2 ^ exponent := Nat.two_pow_pos exponent
  have bounded := Nat.mod_lt number.toNat positive
  by_cases last : number.toNat % 2 ^ exponent + 1 = 2 ^ exponent
  · rw [if_pos (by omega), Nat.add_mod]
    by_cases one : 2 ^ exponent = 1
    · simp [one, Nat.mod_one]
    · rw [Nat.mod_eq_of_lt (by omega : 1 < 2 ^ exponent), last, Nat.mod_self]
  · have one : 1 < 2 ^ exponent := by omega
    have inside : number.toNat % 2 ^ exponent + 1 < 2 ^ exponent := by omega
    rw [if_neg (by omega), Nat.add_mod, Nat.mod_eq_of_lt one, Nat.mod_eq_of_lt inside]

theorem nextSlot_le (mask : CInt) (tp : Nat) : nextSlot mask tp ≤ mask.toNat := by
  rw [nextSlot]
  split
  · exact Nat.zero_le _
  · omega

theorem printIteration_cases (args : PrintArgs) (state : PrintState) (tp : Tracept)
    (running : state.stopped = false) :
    printIteration args state tp = { state with stopped := true } ∨
      ((printIteration args state tp).stopped = false ∧
        (printIteration args state tp).tpNum = state.tpNum + 1 ∧
        (printIteration args state tp).tp = nextSlot args.mask state.tp) := by
  unfold printIteration
  split
  · exact .inr ⟨running, rfl, rfl⟩
  · split
    · exact .inl rfl
    · exact .inr ⟨running, rfl, rfl⟩

theorem printCells_stopped (args : PrintArgs) (cells : List Tracept)
    (stopped : state.stopped = true) : printCells args cells state = state := by
  cases cells <;> simp [printCells, stopped]

theorem printCells_append (args : PrintArgs) (cells others : List Tracept) (state : PrintState) :
    printCells args (cells ++ others) state = printCells args others (printCells args cells state) := by
  induction cells generalizing state with
  | nil => rfl
  | cons tp rest ih =>
    cases stopped : state.stopped with
    | true => simp [printCells_stopped _ _ stopped]
    | false => simp [printCells, stopped, ih]

/-- With a slot for every mask value the loop is the walk over the slots from
the cursor to the counter; the inequality is always met in time. -/
theorem printLoop_cells {args : PrintArgs} {copy : Block Tracept}
    (masked : args.mask.toNat + 1 = 2 ^ exponent) (fits : exponent ≤ 32)
    (covered : 2 ^ exponent ≤ copy.capacity)
    (running : state.stopped = false) (slot : state.tp = state.tpNum.toNat % 2 ^ exponent)
    (distance : (lastTp - state.tpNum).toNat = count) (enough : count + 1 < fuel) :
    printLoop args copy lastTp fuel state =
      .ok (printCells args (ringRead copy.cell (2 ^ exponent) state.tpNum.toNat count) state) := by
  induction count generalizing state fuel with
  | zero =>
    obtain ⟨fuel, rfl⟩ : ∃ rest, fuel = rest + 1 := ⟨fuel - 1, by omega⟩
    have arrived : state.tpNum = lastTp := by
      have zero : lastTp - state.tpNum = 0 := BitVec.eq_of_toNat_eq (by simpa using distance)
      exact (sub_eq_zero.mp zero).symm
    simp [printLoop, arrived, printCells]
  | succ count ih =>
    obtain ⟨fuel, rfl⟩ : ∃ rest, fuel = rest + 1 := ⟨fuel - 1, by omega⟩
    have apart : state.tpNum ≠ lastTp := by
      intro same
      simp [same] at distance
    have inside : state.tp < copy.capacity := by
      have bounded := Nat.mod_lt state.tpNum.toNat (Nat.two_pow_pos exponent)
      omega
    simp only [printLoop, apart, running, Bool.false_eq_true, or_self, ↓reduceIte,
      Block.read_inside inside, ringRead_succ, printCells]
    rw [← slot]
    rcases printIteration_cases args state (copy.cell state.tp) running with
      stop | ⟨going, number, next⟩
    · obtain ⟨fuel, rfl⟩ : ∃ rest, fuel = rest + 1 := ⟨fuel - 1, by omega⟩
      rw [stop, printCells_stopped _ _ rfl]
      simp [printLoop]
    · have closer : (lastTp - (printIteration args state (copy.cell state.tp)).tpNum).toNat = count := by
        have split := toNat_sub_succ apart
        rw [number]
        omega
      have kept : (printIteration args state (copy.cell state.tp)).tp =
          (printIteration args state (copy.cell state.tp)).tpNum.toNat % 2 ^ exponent := by
        rw [next, number, slot, nextSlot_eq _ masked fits]
      have moved : printLoop args copy lastTp fuel _ = .ok _ := ih going kept closer (by omega)
      rw [moved, number]
      congr 2
      exact ringRead_congr _ _ _ (toNat_succ_mod _ fits)

/-- What a walk leaves behind: it handled some first records, printing those
with a source, and it stopped exactly when it did not handle them all. -/
structure Walked (args : PrintArgs) (cells : List Tracept) (before after : PrintState)
    (done : Nat) : Prop where
  within : done ≤ cells.length
  tpNum : after.tpNum = before.tpNum + BitVec.ofNat 32 done
  out : after.out = before.out ++
    pointLines args before.tpNum before.tp before.prevTime (cells.take done)
  visited : after.visited.length = before.visited.length + done
  printed : after.printed = before.printed + BitVec.ofNat 32 (if args.dst then
    textLength (pointLines args before.tpNum before.tp before.prevTime (cells.take done)) else 0)
  stopped : after.stopped = true ↔ done < cells.length
  full : after.stopped = true → args.dst ∧ (args.size - neededBufsize).slt after.printed

private theorem Walked.cons {middle : PrintState} (walk : Walked args rest middle after done)
    (number : middle.tpNum = before.tpNum + 1)
    (passed : middle.visited.length = before.visited.length + 1)
    (lines : middle.out ++ pointLines args middle.tpNum middle.tp middle.prevTime (rest.take done) =
      before.out ++ pointLines args before.tpNum before.tp before.prevTime (tp :: rest.take done))
    (counted : middle.printed + BitVec.ofNat 32 (if args.dst then textLength
        (pointLines args middle.tpNum middle.tp middle.prevTime (rest.take done)) else 0) =
      before.printed + BitVec.ofNat 32 (if args.dst then textLength
        (pointLines args before.tpNum before.tp before.prevTime (tp :: rest.take done)) else 0)) :
    Walked args (tp :: rest) before after (done + 1) where
  within := by simpa using walk.within
  tpNum := by
    rw [walk.tpNum, number, Nat.add_comm done 1, BitVec.ofNat_add, BitVec.add_assoc]
    rfl
  out := by rw [walk.out, List.take_succ_cons, lines]
  visited := by rw [walk.visited, passed]; omega
  printed := by rw [walk.printed, List.take_succ_cons, counted]
  stopped := by rw [walk.stopped]; simp
  full := walk.full

private theorem emit_counted (args : PrintArgs) (state : PrintState) (tp : Tracept)
    (rest : List Tracept) (source : tp.src.isNone = false) :
    let middle := (state.emit args tp).advance args
    middle.printed + BitVec.ofNat 32 (if args.dst then textLength
        (pointLines args middle.tpNum middle.tp middle.prevTime rest) else 0) =
      state.printed + BitVec.ofNat 32 (if args.dst then textLength
        (pointLines args state.tpNum state.tp state.prevTime (tp :: rest)) else 0) := by
  cases buffered : args.dst <;>
    simp [PrintState.advance, PrintState.emit, pointLines, source, buffered, textLength,
      Line.text, BitVec.ofNat_add, BitVec.add_assoc]

theorem printCells_walked (args : PrintArgs) (cells : List Tracept) (state : PrintState)
    (running : state.stopped = false) :
    ∃ done, Walked args cells state (printCells args cells state) done := by
  induction cells generalizing state with
  | nil => exact ⟨0, by simp, by simp [printCells], by simp [printCells, pointLines],
      by simp [printCells], by simp [printCells, pointLines, textLength],
      by simp [printCells, running], by simp [printCells, running]⟩
  | cons tp rest ih =>
    simp only [printCells, running, Bool.false_eq_true, ↓reduceIte, printIteration]
    by_cases blank : tp.src.isNone
    · rw [if_pos blank]
      obtain ⟨done, walk⟩ := ih (state.advance args) running
      exact ⟨done + 1, walk.cons rfl (by simp [PrintState.advance])
        (by simp [PrintState.advance, pointLines, blank])
        (by simp [PrintState.advance, pointLines, blank])⟩
    · rw [if_neg blank]
      by_cases full : args.dst ∧ (args.size - neededBufsize).slt state.printed
      · rw [if_pos full, printCells_stopped _ _ rfl]
        exact ⟨0, by simp, by simp, by simp [pointLines], by simp,
          by simp [pointLines, textLength], by simp, fun _ => full⟩
      · rw [if_neg full]
        obtain ⟨done, walk⟩ := ih ((state.emit args tp).advance args) running
        exact ⟨done + 1, walk.cons rfl (by simp [PrintState.advance, PrintState.emit])
          (by simp [PrintState.advance, PrintState.emit, pointLines, blank])
          (emit_counted args state tp (rest.take done) (Bool.eq_false_iff.mpr blank))⟩

theorem lockedCopy_ready (ready : Ready facility pool copy exponent) :
    ∃ copied : Block Tracept, lockedCopy facility =
        .ok (facility.nextTp, copied, { facility with tpPoolCopy := some copied }) ∧
      Ready { facility with tpPoolCopy := some copied } pool copied exponent ∧
      ∀ slot, slot < pool.capacity → copied.cell slot = pool.cell slot := by
  have same : copy.capacity = pool.capacity := ready.copyRecords.trans ready.poolRecords.symm
  obtain ⟨copied, done, capacity, agree⟩ := Block.copyFrom_whole same
  refine ⟨copied, ?_, ?_, agree⟩
  · simp [lockedCopy, ready.unlocked, ready.poolIs, ready.copyIs, ← ready.poolRecords, done]
  · exact { ready with copyIs := rfl, copyRecords := capacity.trans ready.poolRecords }

structure Printed (args : PrintArgs) (cells : List Tracept) (tpNum : CInt) (overrun : Bool)
    (priv : Option CInt) (printout : Printout) (done : Nat) : Prop where
  within : done ≤ cells.length
  out : printout.out =
    (if overrun ∧ (cells.head?.any fun tp => tp.src.isSome) ∧ args.dst then [.ellipsis] else []) ++
      pointLines args tpNum (slotOf args.mask tpNum) 0 (cells.take done)
  priv : printout.priv = priv.map fun _ => tpNum + BitVec.ofNat 32 done
  visited : printout.visited.length = done
  returned : printout.returned = BitVec.ofNat 32 (if args.dst then textLength printout.out else 0)
  stopped : printout.stopped = true ↔ done < cells.length
  full : printout.stopped = true → args.dst ∧ (args.size - neededBufsize).slt printout.returned

private theorem openPrint_inside {copy : Block Tracept} (overrun : Bool)
    (inside : slotOf args.mask tpNum < copy.capacity) :
    ∃ first, openPrint args copy tpNum overrun = .ok first ∧ first.tpNum = tpNum ∧
      first.tp = slotOf args.mask tpNum ∧ first.prevTime = 0 ∧ first.visited = [] ∧
      first.stopped = false ∧
      first.printed = BitVec.ofNat 32 (if args.dst then textLength first.out else 0) ∧
      first.out = if overrun ∧ (copy.cell (slotOf args.mask tpNum)).src.isSome ∧ args.dst
        then [.ellipsis] else [] := by
  have tp : (PrintState.first args tpNum).tp = slotOf args.mask tpNum := rfl
  unfold openPrint
  cases overrun with
  | false =>
    exact ⟨_, rfl, rfl, rfl, rfl, rfl, rfl, by simp [PrintState.first, textLength],
      by simp [PrintState.first]⟩
  | true =>
    simp only [↓reduceIte, tp, Block.read_inside inside, true_and]
    split
    · rename_i buffered
      exact ⟨_, rfl, rfl, rfl, rfl, rfl, rfl, by simp [textLength, Line.text, buffered], rfl⟩
    · exact ⟨_, rfl, rfl, rfl, rfl, rfl, rfl, by simp [PrintState.first, textLength], rfl⟩

/-- The unlocked part of a print: it never leaves the copy and always returns. -/
theorem printCopy_printed (build : Build) (args : PrintArgs) (facility : Facility)
    (priv : Option CInt) {copy : Block Tracept}
    (masked : args.mask.toNat + 1 = 2 ^ exponent) (fits : exponent ≤ 32)
    (covered : 2 ^ exponent ≤ copy.capacity) (wide : args.size.slt neededBufsize = false)
    (behind : priv ≠ some lastTp)
    (start : startTpNum facility lastTp priv = (tpNum, overrun))
    (apart : overrun = true → tpNum ≠ lastTp) :
    ∃ printout done, printCopy build args facility lastTp copy priv = .ok printout ∧
      Printed args (ringRead copy.cell (2 ^ exponent) tpNum.toNat (lastTp - tpNum).toNat)
        tpNum overrun priv printout done := by
  have slot := slotOf_masked masked tpNum
  have inside : slotOf args.mask tpNum < copy.capacity := by
    have bounded := Nat.mod_lt tpNum.toNat (Nat.two_pow_pos exponent)
    omega
  obtain ⟨first, opened, number, tp, prevTime, visited, running, printed, out⟩ :=
    openPrint_inside overrun inside
  have enough : (lastTp - first.tpNum).toNat + 1 < loopFuel := by
    have bound := (lastTp - first.tpNum).isLt
    unfold loopFuel
    omega
  have loop := printLoop_cells masked fits covered running
    (by rw [tp, number, slot]) rfl enough
  obtain ⟨done, walk⟩ := printCells_walked args
    (ringRead copy.cell (2 ^ exponent) first.tpNum.toNat (lastTp - first.tpNum).toNat) first running
  rw [number] at loop walk
  have head : overrun = true →
      (ringRead copy.cell (2 ^ exponent) tpNum.toNat (lastTp - tpNum).toNat).head? =
        some (copy.cell (slotOf args.mask tpNum)) := by
    intro lapped
    rw [toNat_sub_succ (apart lapped), ringRead_succ, slot]
    rfl
  let final := printCells args
    (ringRead copy.cell (2 ^ exponent) tpNum.toNat (lastTp - tpNum).toNat) first
  refine ⟨⟨final.printed, priv.map fun _ => final.tpNum, final.out, final.visited, final.stopped⟩,
    done, ?_, walk.within, ?_, ?_, ?_, ?_, walk.stopped, walk.full⟩
  · simp only [printCopy, wide, Bool.false_eq_true, ↓reduceIte, behind, start, opened, loop,
      bind, Except.bind, pure, Except.pure]
    rfl
  · change final.out = _
    rw [walk.out, out, tp, prevTime, number]
    cases overrun with
    | false => simp
    | true => rw [head rfl]; simp
  · have moved : final.tpNum = tpNum + BitVec.ofNat 32 done := number ▸ walk.tpNum
    simp only [moved]
  · have passed := walk.visited
    rwa [visited, List.length_nil, Nat.zero_add] at passed
  · have counted := walk.printed
    have lines := walk.out
    change final.printed = BitVec.ofNat 32 (if args.dst then textLength final.out else 0)
    rw [counted, printed, lines, ← BitVec.ofNat_add]
    cases args.dst <;> simp [textLength]

end TrippingRobot.Runtrace
