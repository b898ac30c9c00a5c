import TrippingRobot.Runtrace.Digits
import TrippingRobot.Runtrace.Overrun

/-! What `print_trace_stack` writes through `dst`, `sprintf` by `sprintf`, and how wide
its columns get. -/

namespace TrippingRobot.Runtrace

open TrippingRobot.Data

/-- One `sprintf`: the index its text starts at. The terminator goes right behind. -/
structure Sprintf where
  index : Int
  text : List UInt8

/-- Every byte written, the terminator included, has an index below `size`. -/
def Sprintf.Within (write : Sprintf) (size : CInt) : Prop :=
  0 ≤ write.index ∧ write.index + write.text.length < size.toInt

instance (write : Sprintf) (size : CInt) : Decidable (write.Within size) :=
  inferInstanceAs (Decidable (_ ∧ _))

def timeColumn (flags : CInt) (time : BitVec 64) : List UInt8 :=
  let unit : BitVec 64 := if isSet flags rtPrintTimeMs then 1000 else 1000000
  let width := if isSet flags rtPrintTimeMs then 3 else 6
  formatUnsigned 6 ' ' ((time / unit).setWidth 32) ++ ascii ['.'] ++
    formatUnsigned width '0' ((time % unit).setWidth 32) ++ ascii [' ']

def diffColumn (flags : CInt) (time prevTime : BitVec 64) : List UInt8 :=
  let timeDiff : CInt := if prevTime = 0 then 0 else (time - prevTime).setWidth 32
  let width := if isSet flags rtPrintTimeMs then 3 else 6
  formatSigned width ['+'] timeDiff ++ ascii [' ']

/-- The file or function name and the line number, as far as the flags ask for them. -/
def sourceColumns (flags : CInt) (src : List UInt8) (line : CInt) : List (List UInt8) :=
  (if isSet flags rtPrintSrc then [src ++ ascii [' ']] else []) ++
    (if isSet flags rtPrintLine then [formatSigned 5 [] line ++ ascii [' ']] else [])

/-- The texts of the `PRINT`s of `__print_trace_point`, in their order. -/
def pointColumns (flags : CInt) (time prevTime : BitVec 64) (src : List UInt8) (line : CInt)
    (msg : List UInt8) : List (List UInt8) :=
  (if isSet flags rtPrintTime then [timeColumn flags time] else []) ++
    (if isSet flags rtPrintDiff then [diffColumn flags time prevTime] else []) ++
    sourceColumns flags src line ++ [msg ++ ascii ['\n']]

theorem pointColumns_flatten (flags : CInt) (time prevTime : BitVec 64) (src : List UInt8)
    (line : CInt) (msg : List UInt8) :
    (pointColumns flags time prevTime src line msg).flatten =
      pointText flags time prevTime src line msg := by
  unfold pointColumns pointText sourceColumns timeColumn diffColumn
  cases isSet flags rtPrintTime <;> cases isSet flags rtPrintDiff <;>
    cases isSet flags rtPrintSrc <;> cases isSet flags rtPrintLine <;> simp

/-! ## Widths -/

theorem formatUnsigned_length_le {width : Nat} (narrow : width ≤ 10) (fill : Char) (value : CInt) :
    (formatUnsigned width fill value).length ≤ 10 := by
  have small := value.isLt
  have digits : (Nat.toDigits 10 value.toNat).length ≤ 10 :=
    toDigits_length_le (by omega) (by omega)
  rw [formatUnsigned, ascii_length, padLeft_length]
  omega

theorem formatUnsigned_length {width : Nat} (positive : 0 < width) (fill : Char) {value : CInt}
    (small : value.toNat < 10 ^ width) : (formatUnsigned width fill value).length = width := by
  have digits := toDigits_length_le positive small
  rw [formatUnsigned, ascii_length, padLeft_length]
  omega

theorem formatSigned_length_le {width : Nat} (narrow : width ≤ 11) (plus : List Char)
    (short : plus.length ≤ 1) (value : CInt) : (formatSigned width plus value).length ≤ 11 := by
  have lower := value.le_toInt
  have upper := value.toInt_lt
  have digits : (Nat.toDigits 10 value.toInt.natAbs).length ≤ 10 :=
    toDigits_length_le (by omega) (by omega)
  simp only [formatSigned, ascii_length, padLeft_length, List.length_append]
  split
  · simp only [List.length_singleton]
    omega
  · omega

theorem timeColumn_length_le (flags : CInt) (time : BitVec 64) :
    (timeColumn flags time).length ≤ 18 := by
  have seconds := fun value => formatUnsigned_length_le (by omega : 6 ≤ 10) ' ' value
  have remainder (unit : BitVec 64) (bound : Nat) (positive : 0 < unit.toNat)
      (large : unit.toNat ≤ bound) : ((time % unit).setWidth 32 : CInt).toNat < bound := by
    have less := Nat.mod_lt time.toNat positive
    rw [BitVec.toNat_setWidth, BitVec.toNat_umod]
    exact Nat.lt_of_le_of_lt (Nat.mod_le _ _) (by omega)
  unfold timeColumn
  cases isSet flags rtPrintTimeMs with
  | true =>
    have fraction := formatUnsigned_length (by omega) '0'
      (remainder 1000 (10 ^ 3) (by decide) (by decide))
    have whole := seconds ((time / 1000).setWidth 32)
    simp only [if_true, List.length_append, ascii_length, fraction, List.length_singleton]
    omega
  | false =>
    have fraction := formatUnsigned_length (by omega) '0'
      (remainder 1000000 (10 ^ 6) (by decide) (by decide))
    have whole := seconds ((time / 1000000).setWidth 32)
    simp only [Bool.false_eq_true, if_false, List.length_append, ascii_length, fraction,
      List.length_singleton]
    omega

theorem diffColumn_length_le (flags : CInt) (time prevTime : BitVec 64) :
    (diffColumn flags time prevTime).length ≤ 12 := by
  have narrow : (if isSet flags rtPrintTimeMs then 3 else 6) ≤ 11 := by
    split <;> omega
  have difference := formatSigned_length_le narrow ['+'] (by simp)
    (if prevTime = 0 then 0 else (time - prevTime).setWidth 32)
  simp only [diffColumn, List.length_append, ascii_length, List.length_singleton]
  omega

theorem msgText_length_le {msg : MsgField} (terminated : 0 ∈ msg.bytes) (past : List UInt8) :
    (msgText msg past).length ≤ 199 := by
  have size := msg.size
  have shorter := (List.takeWhile_prefix (l := msg.bytes) (· ≠ 0)).length_le
  have proper : (untilNul msg.bytes).length ≠ msg.bytes.length := by
    intro same
    have whole := (List.takeWhile_prefix (l := msg.bytes) (· ≠ 0)).eq_of_length same
    rw [← whole] at terminated
    simpa using List.mem_takeWhile_imp terminated
  simp only [msgText, if_pos terminated]
  unfold untilNul at *
  unfold rtMsgMax at size
  omega

/-- The widest text of a tracepoint whose message is terminated and whose source columns
stay within 30 characters. -/
theorem pointText_length_le (flags : CInt) (time prevTime : BitVec 64) {src msg : List UInt8}
    {line : CInt} (columns : (sourceColumns flags src line).flatten.length ≤ 30)
    (short : msg.length ≤ 199) : (pointText flags time prevTime src line msg).length ≤ 260 := by
  have optional {bound : Nat} {column : List UInt8} (wanted : Bool) (narrow : column.length ≤ bound) :
      (if wanted then [column] else []).flatten.length ≤ bound := by
    cases wanted with
    | true => simpa using narrow
    | false => simp
  have first := optional (isSet flags rtPrintTime) (timeColumn_length_le flags time)
  have second := optional (isSet flags rtPrintDiff) (diffColumn_length_le flags time prevTime)
  rw [← pointColumns_flatten, pointColumns]
  simp only [List.flatten_append, List.length_append, List.flatten_singleton, ascii_length,
    List.length_singleton]
  omega

/-! ## The writes of a call -/

/-- The `sprintf`s of one tracepoint, each behind the text of the one before. -/
def sprintfsFrom (index : Int) : List (List UInt8) → List Sprintf
  | [] => []
  | text :: rest => ⟨index, text⟩ :: sprintfsFrom (index + text.length) rest

/-- The columns of the tracepoint at the slot the loop has reached. -/
def stateColumns (args : PrintArgs) (state : PrintState) (tp : Tracept) : List (List UInt8) :=
  pointColumns args.flags (pointTime args.flags tp.time) state.prevTime
    ((tp.src.map CString.bytes).getD []) tp.line (msgText tp.msg (args.past state.tp))

/-- What one iteration of the loop writes. -/
def iterationWrites (args : PrintArgs) (state : PrintState) (tp : Tracept) : List Sprintf :=
  if tp.src.isNone then []
  else if args.dst ∧ (args.size - neededBufsize).slt state.printed then []
  else if args.dst then sprintfsFrom state.printed.toInt (stateColumns args state tp)
  else []

/-- What the loop writes, iteration by iteration. -/
def loopWrites (args : PrintArgs) (copy : Block Tracept) (lastTp : CInt) :
    Nat → PrintState → List Sprintf
  | 0, _ => []
  | fuel + 1, state =>
    if state.tpNum = lastTp ∨ state.stopped then []
    else match copy.read state.tp with
      | none => []
      | some tp =>
        iterationWrites args state tp ++
          loopWrites args copy lastTp fuel (printIteration args state tp)

/-- What is written after the lock is released: the ellipsis, if there is one, and the loop. -/
def copyWrites (args : PrintArgs) (facility : Facility) (lastTp : CInt) (copy : Block Tracept)
    (priv : Option CInt) : List Sprintf :=
  if args.size.slt neededBufsize then []
  else if priv = some lastTp then []
  else
    let (tpNum, overrun) := startTpNum facility lastTp priv
    match openPrint args copy tpNum overrun with
    | .error _ => []
    | .ok first =>
      first.out.map (fun line => ⟨0, line.text⟩) ++ loopWrites args copy lastTp loopFuel first

/-- Everything a call of `print_trace_stack` writes through `dst`. -/
def traceStackWrites (flags : CInt) (dst : Bool) (size : CInt) (priv : Option CInt)
    (past : Nat → List UInt8) (facility : Facility) : List Sprintf :=
  match lockedCopy facility with
  | .error _ => []
  | .ok (lastTp, copy, copied) =>
    copyWrites ⟨flags, dst, size, facility.tpCntMask, past⟩ copied lastTp copy priv

/-- The writes of a walk over the records it meets. -/
def cellWrites (args : PrintArgs) : List Tracept → PrintState → List Sprintf
  | [], _ => []
  | tp :: rest, state =>
    if state.stopped then []
    else iterationWrites args state tp ++ cellWrites args rest (printIteration args state tp)

private theorem cellWrites_stopped (args : PrintArgs) (cells : List Tracept)
    (stopped : state.stopped = true) : cellWrites args cells state = [] := by
  cases cells <;> simp [cellWrites, stopped]

private theorem loopWrites_stopped (args : PrintArgs) (copy : Block Tracept) (lastTp : CInt)
    (fuel : Nat) (stopped : state.stopped = true) : loopWrites args copy lastTp fuel state = [] := by
  cases fuel <;> simp [loopWrites, stopped]

/-- A loop that returns has walked the slots on its way, all of them inside the copy, and
has written what the walk writes. -/
theorem printLoop_walk {args : PrintArgs} {copy : Block Tracept} {cells : Nat → Tracept}
    (masked : args.mask.toNat + 1 = 2 ^ exponent) (fits : exponent ≤ 32)
    (agree : ∀ slot, slot < copy.capacity → copy.cell slot = cells slot)
    (running : state.stopped = false) (slot : state.tp = state.tpNum.toNat % 2 ^ exponent)
    (returned : printLoop args copy lastTp fuel state = .ok final) :
    let met := ringRead cells (2 ^ exponent) state.tpNum.toNat (lastTp - state.tpNum).toNat
    final = printCells args met state ∧
      loopWrites args copy lastTp fuel state = cellWrites args met state ∧
      ∀ step, step < (final.tpNum - state.tpNum).toNat →
        (state.tpNum.toNat + step) % 2 ^ exponent < copy.capacity := by
  induction fuel generalizing state with
  | zero => cases returned
  | succ fuel ih =>
    rw [printLoop] at returned
    split at returned
    · rename_i done
      have arrived := done.resolve_right (by simp [running])
      cases returned
      simp [arrived, printCells, cellWrites, loopWrites]
    · rename_i going
      have apart : state.tpNum ≠ lastTp := fun arrived => going (.inl arrived)
      split at returned
      · cases returned
      · rename_i tp read
        have here : state.tp < copy.capacity := by
          by_contra outside
          simp [Block.read, outside] at read
        rw [Block.read_inside here] at read
        cases read
        simp only [toNat_sub_succ apart, ringRead_succ, printCells, cellWrites, loopWrites, apart,
          running, Bool.false_eq_true, or_self, ↓reduceIte, Block.read_inside here, ← slot,
          ← agree state.tp here]
        rcases printIteration_cases args state (copy.cell state.tp) running with
          stop | ⟨later, number, next⟩
        · rw [stop] at returned ⊢
          rw [printCells_stopped _ _ rfl, cellWrites_stopped _ _ rfl, loopWrites_stopped _ _ _ _ rfl]
          cases fuel with
          | zero => cases returned
          | succ fuel =>
            rw [printLoop, if_pos (.inr rfl)] at returned
            cases returned
            simp
        · have moved : (printIteration args state (copy.cell state.tp)).tp =
              (printIteration args state (copy.cell state.tp)).tpNum.toNat % 2 ^ exponent := by
            rw [next, number, slot, nextSlot_eq _ masked fits]
          obtain ⟨walked, written, inside⟩ := ih later moved returned
          rw [number, ringRead_congr _ _ _ (toNat_succ_mod _ fits)] at walked written
          refine ⟨walked, by rw [written], ?_⟩
          intro step within
          cases step with
          | zero => rwa [Nat.add_zero, ← slot]
          | succ step =>
            have ahead : state.tpNum ≠ final.tpNum := by
              intro same
              rw [same, sub_self] at within
              exact absurd within (Nat.not_lt_zero _)
            have distance := toNat_sub_succ ahead
            have found := inside step (by rw [number]; omega)
            rw [number, Nat.add_mod, toNat_succ_mod _ fits, ← Nat.add_mod] at found
            rwa [Nat.add_comm step 1, ← Nat.add_assoc]

/-- What the loop writes is what a walk writes over the slots it reads, whether it returns or
comes to one outside the copy. -/
theorem loopWrites_reach {args : PrintArgs} {copy : Block Tracept}
    (masked : args.mask.toNat + 1 = 2 ^ exponent) (fits : exponent ≤ 32)
    (running : state.stopped = false) (slot : state.tp = state.tpNum.toNat % 2 ^ exponent)
    (enough : (lastTp - state.tpNum).toNat < fuel) :
    loopWrites args copy lastTp fuel state =
      cellWrites args (ringRead copy.cell (2 ^ exponent) state.tpNum.toNat
        (ringReach copy.capacity (2 ^ exponent) state.tpNum.toNat
          (lastTp - state.tpNum).toNat)) state := by
  induction fuel generalizing state with
  | zero => cases enough
  | succ fuel ih =>
    by_cases arrived : state.tpNum = lastTp
    · simp [loopWrites, arrived, ringReach, cellWrites]
    · rw [toNat_sub_succ arrived] at enough ⊢
      by_cases inside : state.tp < copy.capacity
      · rw [slot] at inside
        rw [ringReach, if_pos inside, ringRead_succ, ← slot]
        rw [← slot] at inside
        simp only [loopWrites, cellWrites, arrived, running, Bool.false_eq_true, or_self, ↓reduceIte,
          Block.read_inside inside]
        congr 1
        rcases printIteration_cases args state (copy.cell state.tp) running with
          stop | ⟨going, number, next⟩
        · rw [stop, cellWrites_stopped _ _ rfl, loopWrites_stopped _ _ _ _ rfl]
        · have kept : (printIteration args state (copy.cell state.tp)).tp =
              (printIteration args state (copy.cell state.tp)).tpNum.toNat % 2 ^ exponent := by
            rw [next, number, slot, nextSlot_eq _ masked fits]
          have shifted := toNat_succ_mod state.tpNum fits
          rw [ih going kept (by rw [number]; omega), number, ringReach_congr _ _ _ shifted,
            ringRead_congr _ _ _ shifted]
      · have outside : copy.read state.tp = none := by simp [Block.read, inside]
        rw [slot] at inside
        rw [ringReach, if_neg inside]
        simp [loopWrites, arrived, running, outside, cellWrites]

theorem loopWrites_cells {args : PrintArgs} {copy : Block Tracept}
    (masked : args.mask.toNat + 1 = 2 ^ exponent) (fits : exponent ≤ 32)
    (covered : 2 ^ exponent ≤ copy.capacity)
    (running : state.stopped = false) (slot : state.tp = state.tpNum.toNat % 2 ^ exponent)
    (enough : (lastTp - state.tpNum).toNat < fuel) :
    loopWrites args copy lastTp fuel state =
      cellWrites args (ringRead copy.cell (2 ^ exponent) state.tpNum.toNat
        (lastTp - state.tpNum).toNat) state := by
  rw [loopWrites_reach masked fits running slot enough,
    ringReach_covered (Nat.two_pow_pos exponent) covered]

/-! ## What fits and what does not -/

/-- The last terminator of some `sprintf`s is behind all their text. -/
private theorem sprintfsFrom_within {size : CInt} {index : Int} (start : 0 ≤ index)
    {texts : List (List UInt8)} (some : texts ≠ []) :
    (∀ write ∈ sprintfsFrom index texts, write.Within size) ↔
      index + texts.flatten.length < size.toInt := by
  induction texts generalizing index with
  | nil => exact absurd rfl some
  | cons text rest ih =>
    simp only [sprintfsFrom, List.forall_mem_cons, List.flatten_cons, List.length_append]
    cases rest with
    | nil =>
      simp only [sprintfsFrom, List.not_mem_nil, false_implies, implies_true, and_true,
        Sprintf.Within, List.flatten_nil, List.length_nil]
      omega
    | cons next later =>
      rw [ih (by omega) (by simp), Sprintf.Within]
      push_cast
      omega

theorem textLength_append (lines others : List Line) :
    textLength (lines ++ others) = textLength lines + textLength others := by
  simp [textLength]

@[simp] theorem textLength_cons (line : Line) (lines : List Line) :
    textLength (line :: lines) = line.text.length + textLength lines := by
  simp [textLength]

@[simp] theorem textLength_nil : textLength [] = 0 := rfl

theorem printCells_textLength_le (args : PrintArgs) (cells : List Tracept) (state : PrintState) :
    textLength state.out ≤ textLength (printCells args cells state).out := by
  cases running : state.stopped with
  | true => rw [printCells_stopped _ _ running]
  | false =>
    obtain ⟨done, walk⟩ := printCells_walked args cells state running
    rw [walk.out, textLength_append]
    omega

structure PrintState.Inside (args : PrintArgs) (state : PrintState) : Prop where
  buffered : args.dst = true
  wide : args.size.slt neededBufsize = false
  running : state.stopped = false
  counted : state.printed.toInt = textLength state.out
  room : (textLength state.out : Int) < args.size.toInt

theorem toInt_wide {size : CInt} (wide : size.slt neededBufsize = false) :
    260 ≤ size.toInt ∧ (size - neededBufsize).toInt = size.toInt - 260 := by
  have needed : neededBufsize.toInt = 260 := rfl
  have large : 260 ≤ size.toInt := by
    rw [Bool.eq_false_iff, ne_eq, BitVec.slt_iff_toInt_lt, needed] at wide
    omega
  refine ⟨large, ?_⟩
  rw [CInt.toInt_sub_wrap (by omega), needed, if_neg (by omega)]

theorem PrintState.Inside.full_iff (inside : PrintState.Inside args state) :
    (args.dst ∧ (args.size - neededBufsize).slt state.printed) ↔
      args.size.toInt - 260 < textLength state.out := by
  obtain ⟨_, room⟩ := toInt_wide inside.wide
  rw [BitVec.slt_iff_toInt_lt, room, inside.counted]
  simp [inside.buffered]

/-- The text an iteration prints. -/
def PrintState.lineOf (args : PrintArgs) (state : PrintState) (tp : Tracept) : List UInt8 :=
  (printTracePoint args.flags tp (args.past state.tp) state.prevTime).1

theorem stateColumns_flatten (args : PrintArgs) (state : PrintState) (tp : Tracept) :
    (stateColumns args state tp).flatten = state.lineOf args tp :=
  pointColumns_flatten _ _ _ _ _ _

theorem emit_textLength (args : PrintArgs) (state : PrintState) (tp : Tracept) :
    textLength ((state.emit args tp).advance args).out =
      textLength state.out + (state.lineOf args tp).length := by
  simp only [PrintState.advance, PrintState.emit, textLength_append, textLength_cons,
    textLength_nil, Line.text, PrintState.lineOf, Nat.add_zero]

theorem PrintState.Inside.emit (inside : PrintState.Inside args state) {tp : Tracept}
    (room : (textLength state.out : Int) + (state.lineOf args tp).length < args.size.toInt) :
    PrintState.Inside args ((state.emit args tp).advance args) := by
  have upper := args.size.toInt_lt
  have text := emit_textLength args state tp
  refine ⟨inside.buffered, inside.wide, inside.running, ?_, by omega⟩
  have added : (BitVec.ofNat 32 (state.lineOf args tp).length).toInt =
      (state.lineOf args tp).length := CInt.toInt_ofNat (by omega)
  have printed : ((state.emit args tp).advance args).printed =
      state.printed + BitVec.ofNat 32 (state.lineOf args tp).length := by
    simp only [PrintState.advance, PrintState.emit, inside.buffered, if_true, PrintState.lineOf]
  have counted := inside.counted
  rw [printed, CInt.toInt_add (by omega) (by omega), counted, added, text]
  push_cast
  rfl

theorem PrintState.Inside.advance (inside : PrintState.Inside args state) :
    PrintState.Inside args (state.advance args) :=
  ⟨inside.buffered, inside.wide, inside.running, inside.counted, inside.room⟩

/-- The three ways through an iteration of a call that has kept inside its buffer. -/
theorem PrintState.Inside.iteration (inside : PrintState.Inside args state) (tp : Tracept) :
    (tp.src.isNone = true ∧ printIteration args state tp = state.advance args ∧
        iterationWrites args state tp = []) ∨
      (tp.src.isNone = false ∧ args.size.toInt - 260 < textLength state.out ∧
        printIteration args state tp = { state with stopped := true } ∧
        iterationWrites args state tp = []) ∨
      (tp.src.isNone = false ∧ (textLength state.out : Int) ≤ args.size.toInt - 260 ∧
        printIteration args state tp = (state.emit args tp).advance args ∧
        iterationWrites args state tp =
          sprintfsFrom state.printed.toInt (stateColumns args state tp)) := by
  have full := inside.full_iff
  cases source : tp.src.isNone with
  | true =>
    left
    refine ⟨rfl, if_pos source, if_pos source⟩
  | false =>
    right
    have present : ¬ tp.src.isNone = true := by simp [source]
    by_cases filled : args.size.toInt - 260 < textLength state.out
    · left
      refine ⟨rfl, filled, ?_, ?_⟩
      · rw [printIteration, if_neg present, if_pos (full.mpr filled)]
      · rw [iterationWrites, if_neg present, if_pos (full.mpr filled)]
    · right
      have room : ¬ (args.dst ∧ (args.size - neededBufsize).slt state.printed) :=
        fun taken => filled (full.mp taken)
      refine ⟨rfl, by omega, ?_, ?_⟩
      · rw [printIteration, if_neg present, if_neg room]
      · rw [iterationWrites, if_neg present, if_neg room, if_pos inside.buffered]

/-- The `sprintf`s of a tracepoint stay inside the buffer exactly if its text and one terminator
fit. -/
theorem PrintState.Inside.columns_within (inside : PrintState.Inside args state) (tp : Tracept) :
    (∀ write ∈ sprintfsFrom state.printed.toInt (stateColumns args state tp),
        write.Within args.size) ↔
      (textLength state.out : Int) + (state.lineOf args tp).length < args.size.toInt := by
  have columns : stateColumns args state tp ≠ [] := by simp [stateColumns, pointColumns]
  rw [sprintfsFrom_within (by rw [inside.counted]; omega) columns, stateColumns_flatten,
    inside.counted]

theorem cellWrites_within (inside : PrintState.Inside args state) (cells : List Tracept) :
    (∀ write ∈ cellWrites args cells state, write.Within args.size) ↔
      (textLength (printCells args cells state).out : Int) < args.size.toInt := by
  induction cells generalizing state with
  | nil => simp [cellWrites, printCells, inside.room]
  | cons tp rest ih =>
    have going : ¬ state.stopped = true := by simp [inside.running]
    rw [cellWrites, printCells, if_neg going, if_neg going]
    rcases inside.iteration tp with ⟨_, next, writes⟩ | ⟨_, _, next, writes⟩ | ⟨_, _, next, writes⟩
    · rw [next, writes]
      exact ih inside.advance
    · rw [next, writes, cellWrites_stopped _ _ rfl, printCells_stopped _ _ rfl]
      simp [inside.room]
    · rw [next, writes, List.forall_mem_append, inside.columns_within]
      by_cases room : (textLength state.out : Int) + (state.lineOf args tp).length < args.size.toInt
      · simp only [room, true_and]
        exact ih (inside.emit room)
      · have kept := printCells_textLength_le args rest ((state.emit args tp).advance args)
        rw [emit_textLength] at kept
        simp only [room, false_and, false_iff]
        omega

/-- Of these lines, put behind `used` bytes, one of 260 characters starts exactly 260 bytes
before the end of a buffer of `size` bytes. -/
def FlushLine (size used : Nat) (lines : List Line) : Prop :=
  ∃ before line after, lines = before ++ line :: after ∧
    used + textLength before + 260 = size ∧ line.text.length = 260

private theorem not_flushLine_nil (size used : Nat) : ¬ FlushLine size used [] := by
  intro flush
  obtain ⟨before, line, after, split, _⟩ := flush
  cases before <;> cases split

theorem flushLine_cons (size used : Nat) (line : Line) (lines : List Line) :
    FlushLine size used (line :: lines) ↔
      (used + 260 = size ∧ line.text.length = 260) ∨
        FlushLine size (used + line.text.length) lines := by
  constructor
  · intro flush
    obtain ⟨before, last, after, split, start, wide⟩ := flush
    cases before with
    | nil =>
      cases split
      exact .inl ⟨start, wide⟩
    | cons first before =>
      rw [List.cons_append, List.cons.injEq] at split
      obtain ⟨rfl, split⟩ := split
      rw [textLength_cons] at start
      exact .inr ⟨before, last, after, split, by omega, wide⟩
  · intro cases
    rcases cases with ⟨start, wide⟩ | ⟨before, last, after, split, start, wide⟩
    · exact ⟨[], line, lines, rfl, start, wide⟩
    · refine ⟨line :: before, last, after, by rw [split]; rfl, ?_, wide⟩
      rw [textLength_cons]
      omega

/-- A record as the space check assumes it: its message is terminated and its source
columns stay within the 30 characters kept for them. -/
def Tracept.Narrow (flags : CInt) (tp : Tracept) : Prop :=
  tp.src.isSome → 0 ∈ tp.msg.bytes ∧
    (sourceColumns flags ((tp.src.map CString.bytes).getD []) tp.line).flatten.length ≤ 30

instance (flags : CInt) (tp : Tracept) : Decidable (tp.Narrow flags) :=
  inferInstanceAs (Decidable (_ → _))

theorem Tracept.Narrow.lineOf_length_le {tp : Tracept} (narrow : tp.Narrow args.flags)
    (source : tp.src.isNone = false) (state : PrintState) :
    (state.lineOf args tp).length ≤ 260 := by
  obtain ⟨terminated, columns⟩ := narrow (by simpa using source)
  exact pointText_length_le _ _ _ columns (msgText_length_le terminated _)

/-- With such records the check leaves one byte too few for one kind of line only. -/
theorem printCells_fits_iff (inside : PrintState.Inside args state) {cells : List Tracept}
    (narrow : ∀ tp ∈ cells, tp.Narrow args.flags) :
    (textLength (printCells args cells state).out : Int) < args.size.toInt ↔
      ¬ FlushLine args.size.toInt.toNat (textLength state.out)
        (pointLines args state.tpNum state.tp state.prevTime cells) := by
  obtain ⟨large, _⟩ := toInt_wide inside.wide
  induction cells generalizing state with
  | nil =>
    simp [printCells, pointLines, not_flushLine_nil, inside.room]
  | cons tp rest ih =>
    have going : ¬ state.stopped = true := by simp [inside.running]
    obtain ⟨first, later⟩ := List.forall_mem_cons.mp narrow
    rw [printCells, if_neg going, pointLines]
    rcases inside.iteration tp with ⟨blank, next, _⟩ | ⟨source, filled, next, _⟩ |
      ⟨source, room, next, _⟩
    · rw [next, if_pos blank]
      exact ih inside.advance later
    · have never : ¬ FlushLine args.size.toInt.toNat (textLength state.out)
          (pointLines args state.tpNum state.tp state.prevTime (tp :: rest)) := by
        intro flush
        obtain ⟨_, _, _, _, start, _⟩ := flush
        omega
      rw [pointLines] at never
      rw [next, printCells_stopped _ _ rfl]
      simp only [never, not_false_eq_true, iff_true]
      exact inside.room
    · have short := first.lineOf_length_le source state
      have present : ¬ tp.src.isNone = true := by simp [source]
      have text := emit_textLength args state tp
      rw [next, if_neg present, flushLine_cons]
      by_cases fits : (textLength state.out : Int) + (state.lineOf args tp).length < args.size.toInt
      · have same := ih (inside.emit fits) later
        rw [text] at same
        rw [same]
        have apart : ¬ (textLength state.out + 260 = args.size.toInt.toNat ∧
            (state.lineOf args tp).length = 260) := by omega
        constructor
        · intro none flush
          exact flush.elim apart none
        · intro none flush
          exact none (.inr flush)
      · have kept := printCells_textLength_le args rest ((state.emit args tp).advance args)
        have flush : textLength state.out + 260 = args.size.toInt.toNat ∧
            (state.lineOf args tp).length = 260 := by omega
        have overrun : ¬ (textLength (printCells args rest
            ((state.emit args tp).advance args)).out : Int) < args.size.toInt := by omega
        simp only [overrun, false_iff, not_not]
        exact .inl flush

/-- The lines a call prints when its buffer has no end. Where the blocks end before the ring
does, it gets to the first slot that is outside. -/
def unboundedLines (args : PrintArgs) (facility : Facility) (lastTp : CInt)
    (pool : Block Tracept) (priv : Option CInt) : List Line :=
  if priv = some lastTp then []
  else
    let (tpNum, overrun) := startTpNum facility lastTp priv
    let slot := slotOf args.mask tpNum
    let size := facility.tpPoolSize.toNat
    let reach := ringReach pool.capacity size tpNum.toNat (lastTp - tpNum).toNat
    (if overrun ∧ slot < pool.capacity ∧ (pool.cell slot).src.isSome then [.ellipsis] else []) ++
      pointLines args tpNum slot 0 (ringRead pool.cell size tpNum.toNat reach)

structure Opened (args : PrintArgs) (cells : Nat → Tracept) (tpNum : CInt) (overrun : Bool)
    (first : PrintState) : Prop where
  inside : PrintState.Inside args first
  number : first.tpNum = tpNum
  slot : first.tp = slotOf args.mask tpNum
  fresh : first.prevTime = 0
  out : first.out = if overrun ∧ (cells (slotOf args.mask tpNum)).src.isSome
    then [.ellipsis] else []

private theorem openPrint_shape {copy : Block Tracept} {cells : Nat → Tracept} {overrun : Bool}
    (agree : ∀ slot, slot < copy.capacity → copy.cell slot = cells slot)
    (buffered : args.dst = true) (wide : args.size.slt neededBufsize = false)
    (opened : openPrint args copy tpNum overrun = .ok first) :
    Opened args cells tpNum overrun first := by
  obtain ⟨large, _⟩ := toInt_wide wide
  have four : ellipsisText.length = 4 := rfl
  have tp : (PrintState.first args tpNum).tp = slotOf args.mask tpNum := rfl
  have plain : PrintState.Inside args (PrintState.first args tpNum) :=
    ⟨buffered, wide, rfl, rfl, by change (0 : Int) < _; omega⟩
  simp only [openPrint] at opened
  cases overrun with
  | false =>
    cases opened
    exact ⟨plain, rfl, rfl, rfl, by simp [PrintState.first]⟩
  | true =>
    by_cases inside : slotOf args.mask tpNum < copy.capacity
    · simp only [↓reduceIte, tp, Block.read_inside inside, buffered, and_true,
        agree _ inside] at opened
      split at opened
      · rename_i shown
        cases opened
        refine ⟨⟨buffered, wide, rfl, rfl, ?_⟩, rfl, rfl, rfl, by simp [shown]⟩
        change (4 : Int) < _
        omega
      · rename_i blank
        cases opened
        exact ⟨plain, rfl, rfl, rfl, by simp [PrintState.first, blank]⟩
    · simp [tp, Block.read, inside] at opened

theorem openPrint_opened {copy : Block Tracept} (overrun : Bool)
    (inside : slotOf args.mask tpNum < copy.capacity) (buffered : args.dst = true)
    (wide : args.size.slt neededBufsize = false) :
    ∃ first, openPrint args copy tpNum overrun = .ok first ∧
      Opened args copy.cell tpNum overrun first := by
  cases opened : openPrint args copy tpNum overrun with
  | ok first => exact ⟨first, rfl, openPrint_shape (fun _ _ => rfl) buffered wide opened⟩
  | error fault =>
    have tp : (PrintState.first args tpNum).tp = slotOf args.mask tpNum := rfl
    simp only [openPrint, tp, Block.read_inside inside] at opened
    split at opened
    · split at opened
      · cases opened
      · cases opened
    · cases opened

private theorem openPrint_cases (copy : Block Tracept) (tpNum : CInt) (overrun : Bool)
    (buffered : args.dst = true) (wide : args.size.slt neededBufsize = false) :
    (∃ first, openPrint args copy tpNum overrun = .ok first ∧
      Opened args copy.cell tpNum overrun first ∧
        (overrun = true → slotOf args.mask tpNum < copy.capacity)) ∨
      (∃ fault, openPrint args copy tpNum overrun = .error fault ∧
        ¬ slotOf args.mask tpNum < copy.capacity) := by
  cases overrun with
  | false =>
    have opened : openPrint args copy tpNum false = .ok (PrintState.first args tpNum) := rfl
    refine .inl ⟨_, opened, openPrint_shape (fun _ _ => rfl) buffered wide opened, ?_⟩
    intro lapped
    cases lapped
  | true =>
    by_cases inside : slotOf args.mask tpNum < copy.capacity
    · obtain ⟨first, opened, shape⟩ := openPrint_opened true inside buffered wide
      exact .inl ⟨first, opened, shape, fun _ => inside⟩
    · have tp : (PrintState.first args tpNum).tp = slotOf args.mask tpNum := rfl
      exact .inr ⟨.outOfBounds, by simp [openPrint, tp, Block.read, inside], inside⟩

private theorem flushLine_opening {opened : Prop} [Decidable opened] (size : Nat)
    (lines : List Line) :
    FlushLine size 0 ((if opened then [Line.ellipsis] else []) ++ lines) ↔
      FlushLine size (textLength (if opened then [Line.ellipsis] else [])) lines := by
  have narrow : Line.ellipsis.text.length ≠ 260 := by decide
  split
  · rw [List.singleton_append, flushLine_cons]
    simp [narrow]
  · simp

theorem opening_within {opened : Prop} [Decidable opened] {size : CInt}
    (wide : size.slt neededBufsize = false) :
    ∀ write ∈ (if opened then [Line.ellipsis] else []).map fun line => Sprintf.mk 0 line.text,
      write.Within size := by
  obtain ⟨large, _⟩ := toInt_wide wide
  have four : ellipsisText.length = 4 := rfl
  split
  · intro write member
    rw [List.map_singleton, List.mem_singleton] at member
    subst member
    refine ⟨by simp, ?_⟩
    simp only [Line.text, four]
    omega
  · simp

/-- A call that is not at the counter yet: the state it opens its walk with, what it
returns, and what it writes. -/
theorem printCopy_cells (build : Build) {copy : Block Tracept} {tpNum : CInt}
    {overrun : Bool} (masked : args.mask.toNat + 1 = 2 ^ exponent) (fits : exponent ≤ 32)
    (covered : 2 ^ exponent ≤ copy.capacity) (buffered : args.dst = true)
    (wide : args.size.slt neededBufsize = false) (behind : priv ≠ some lastTp)
    (start : startTpNum facility lastTp priv = (tpNum, overrun)) :
    ∃ first, Opened args copy.cell tpNum overrun first ∧
      let cells := ringRead copy.cell (2 ^ exponent) tpNum.toNat (lastTp - tpNum).toNat
      let final := printCells args cells first
      printCopy build args facility lastTp copy priv = .ok ⟨final.printed,
        priv.map fun _ => final.tpNum, final.out, final.visited, final.stopped⟩ ∧
      copyWrites args facility lastTp copy priv =
        first.out.map (fun line => ⟨0, line.text⟩) ++ cellWrites args cells first := by
  have slot := slotOf_masked masked tpNum
  have inside : slotOf args.mask tpNum < copy.capacity := by
    have bounded := Nat.mod_lt tpNum.toNat (Nat.two_pow_pos exponent)
    omega
  obtain ⟨first, opened, shape⟩ := openPrint_opened overrun inside buffered wide
  have enough : (lastTp - first.tpNum).toNat + 1 < loopFuel := by
    have bound := (lastTp - first.tpNum).isLt
    unfold loopFuel
    omega
  have placed : first.tp = first.tpNum.toNat % 2 ^ exponent := by rw [shape.slot, shape.number, slot]
  have loop := printLoop_cells masked fits covered shape.inside.running placed rfl enough
  have writes := loopWrites_cells masked fits covered shape.inside.running placed
    (Nat.lt_of_succ_lt enough)
  rw [shape.number] at loop writes
  refine ⟨first, shape, ?_, ?_⟩
  · simp only [printCopy, wide, Bool.false_eq_true, ↓reduceIte, behind, start, opened, loop,
      bind, Except.bind, pure, Except.pure]
  · simp only [copyWrites, wide, Bool.false_eq_true, ↓reduceIte, behind, start, opened, writes]

private theorem copyWrites_within_iff {copy : Block Tracept}
    (masked : args.mask.toNat + 1 = 2 ^ exponent) (fits : exponent ≤ 32)
    (sized : facility.tpPoolSize.toNat = 2 ^ exponent)
    (buffered : args.dst = true) (wide : args.size.slt neededBufsize = false)
    (narrow : ∀ slot, slot < 2 ^ exponent → slot < copy.capacity →
      (copy.cell slot).Narrow args.flags) :
    (∀ write ∈ copyWrites args facility lastTp copy priv, write.Within args.size) ↔
      ¬ FlushLine args.size.toInt.toNat 0
        (unboundedLines args facility lastTp copy priv) := by
  have positive : 0 < 2 ^ exponent := Nat.two_pow_pos exponent
  by_cases arrived : priv = some lastTp
  · simp [copyWrites, unboundedLines, arrived, not_flushLine_nil]
  cases start : startTpNum facility lastTp priv with | mk tpNum overrun =>
  have slot := slotOf_masked masked tpNum
  rcases openPrint_cases copy tpNum overrun buffered wide with
    ⟨first, opened, shape, inside⟩ | ⟨fault, opened, outside⟩
  · have enough : (lastTp - first.tpNum).toNat < loopFuel := by
      have bound := (lastTp - first.tpNum).isLt
      unfold loopFuel
      omega
    have placed : first.tp = first.tpNum.toNat % 2 ^ exponent := by
      rw [shape.slot, shape.number, slot]
    have writes : loopWrites args copy lastTp loopFuel first = _ :=
      loopWrites_reach masked fits shape.inside.running placed enough
    have narrowMet : ∀ tp ∈ ringRead copy.cell (2 ^ exponent) tpNum.toNat
        (ringReach copy.capacity (2 ^ exponent) tpNum.toNat (lastTp - tpNum).toNat),
        tp.Narrow args.flags := by
      intro tp member
      obtain ⟨step, reached, rfl⟩ := mem_ringRead member
      exact narrow _ (Nat.mod_lt _ positive) (ringReach_inside reached)
    have shown : (overrun = true ∧ slotOf args.mask tpNum < copy.capacity ∧
        (copy.cell (slotOf args.mask tpNum)).src.isSome = true) ↔
          (overrun = true ∧ (copy.cell (slotOf args.mask tpNum)).src.isSome = true) := by
      constructor
      · exact fun ⟨lapped, _, source⟩ => ⟨lapped, source⟩
      · exact fun ⟨lapped, source⟩ => ⟨lapped, inside lapped, source⟩
    rw [shape.number] at writes
    simp only [copyWrites, wide, Bool.false_eq_true, unboundedLines, arrived, if_false, start, opened, writes, shown,
      sized, List.forall_mem_append]
    rw [cellWrites_within shape.inside, printCells_fits_iff shape.inside narrowMet, shape.out,
      flushLine_opening, shape.number, shape.slot, shape.fresh]
    exact and_iff_right (opening_within wide)
  · have nothing : ringReach copy.capacity (2 ^ exponent) tpNum.toNat (lastTp - tpNum).toNat = 0 := by
      rw [slot] at outside
      cases (lastTp - tpNum).toNat with
      | zero => rfl
      | succ count => rw [ringReach, if_neg outside]
    simp only [copyWrites, wide, Bool.false_eq_true, unboundedLines, arrived, if_false, start, opened, sized, nothing,
      outside, false_and, and_false, ringRead_zero, pointLines, List.append_nil]
    simp [not_flushLine_nil]

/-- A call with a buffer on a ready facility walks the pool from its start on, and its
writes stay inside the buffer exactly if its text and one terminator fit. -/
theorem printTraceStack_walk (build : Build) (flags size : CInt) (past : Nat → List UInt8)
    (priv : Option CInt) (ready : Ready facility pool copy exponent)
    (covered : poolCovered facility.tpPoolSize) (wide : size.slt neededBufsize = false)
    (behind : priv ≠ some facility.nextTp)
    (start : startTpNum facility facility.nextTp priv = (tpNum, overrun)) :
    let args : PrintArgs := ⟨flags, true, size, facility.tpCntMask, past⟩
    ∃ copied first, Ready { facility with tpPoolCopy := some copied } pool copied exponent ∧
      Opened args pool.cell tpNum overrun first ∧
      let final := printCells args
        (ringRead pool.cell (2 ^ exponent) tpNum.toNat (facility.nextTp - tpNum).toNat) first
      printTraceStack build flags true size priv past facility = .ok (⟨final.printed,
        priv.map fun _ => final.tpNum, final.out, final.visited, final.stopped⟩,
        { facility with tpPoolCopy := some copied }) ∧
      ((∀ write ∈ traceStackWrites flags true size priv past facility, write.Within size) ↔
        (textLength final.out : Int) < size.toInt) := by
  intro args
  obtain ⟨copied, locked, readyAfter, agree⟩ := lockedCopy_ready ready
  have fits := ready.fits
  have positive : 0 < 2 ^ exponent := Nat.two_pow_pos exponent
  have room := (ready.covered covered).1
  have same := (startTpNum_copied copied facility.nextTp priv).trans start
  obtain ⟨first, opened, printed, writes⟩ : ∃ first, Opened args copied.cell tpNum overrun first ∧ _ :=
    printCopy_cells build ready.mask_toNat fits (readyAfter.covered covered).2 rfl wide behind same
  have met := ringRead_agree copied.cell pool.cell (2 ^ exponent) tpNum.toNat
    (facility.nextTp - tpNum).toNat fun step _ => agree _ (Nat.lt_of_lt_of_le (Nat.mod_lt _ positive) room)
  have head : copied.cell (slotOf args.mask tpNum) = pool.cell (slotOf args.mask tpNum) := by
    have slot : slotOf args.mask tpNum = tpNum.toNat % 2 ^ exponent := ready.slotOf_eq tpNum
    rw [slot]
    exact agree _ (Nat.lt_of_lt_of_le (Nat.mod_lt _ positive) room)
  rw [met] at printed writes
  refine ⟨copied, first, readyAfter, { opened with out := head ▸ opened.out }, ?_, ?_⟩
  · simp only [printTraceStack, locked, bind, Except.bind, pure, Except.pure]
    rw [printed]
  · simp only [traceStackWrites, locked]
    rw [writes, List.forall_mem_append, opened.out, cellWrites_within opened.inside]
    exact and_iff_right (opening_within wide)

/-- What is known of a call with a buffer that returned: the walk it made, that it stayed
inside the copy, and whether its writes stayed inside the buffer. -/
theorem printTraceStack_walked {printout : Printout} {after : Facility}
    (ready : Ready facility pool copy exponent) (wide : size.slt neededBufsize = false)
    (behind : priv ≠ some facility.nextTp)
    (start : startTpNum facility facility.nextTp priv = (tpNum, overrun))
    (returned : printTraceStack build flags true size priv past facility = .ok (printout, after)) :
    let args : PrintArgs := ⟨flags, true, size, facility.tpCntMask, past⟩
    ∃ copied first, after = { facility with tpPoolCopy := some copied } ∧
      Ready after pool copied exponent ∧ Opened args pool.cell tpNum overrun first ∧
      let final := printCells args
        (ringRead pool.cell (2 ^ exponent) tpNum.toNat (facility.nextTp - tpNum).toNat) first
      printout = ⟨final.printed, priv.map fun _ => final.tpNum, final.out, final.visited,
        final.stopped⟩ ∧
      ((∀ write ∈ traceStackWrites flags true size priv past facility, write.Within size) ↔
        (textLength final.out : Int) < size.toInt) ∧
      ∀ step, step < (final.tpNum - tpNum).toNat →
        (tpNum.toNat + step) % 2 ^ exponent < recordsIn facility.tpPoolMemSize := by
  dsimp only
  obtain ⟨copied, locked, readyAfter, agree⟩ := lockedCopy_ready ready
  have fits := ready.fits
  have same := (startTpNum_copied copied facility.nextTp priv).trans start
  have capacity : copied.capacity = pool.capacity :=
    readyAfter.copyRecords.trans readyAfter.poolRecords.symm
  have slot := slotOf_masked ready.mask_toNat tpNum
  simp only [printTraceStack, locked, printCopy, wide, behind, same, Bool.false_eq_true, ↓reduceIte,
    bind, Except.bind, pure, Except.pure] at returned
  cases opened : openPrint ⟨flags, true, size, facility.tpCntMask, past⟩ copied tpNum overrun with
  | error fault =>
    rw [opened] at returned
    cases returned
  | ok first =>
    have met : ∀ slot, slot < copied.capacity → copied.cell slot = pool.cell slot :=
      fun slot inside => agree slot (capacity ▸ inside)
    have shape := openPrint_shape met rfl wide opened
    rw [opened] at returned
    simp only [] at returned
    cases loop : printLoop ⟨flags, true, size, facility.tpCntMask, past⟩ copied facility.nextTp
        loopFuel first with
    | error fault =>
      rw [loop] at returned
      cases returned
    | ok final =>
      rw [loop] at returned
      cases returned
      obtain ⟨walked, written, inside⟩ := printLoop_walk ready.mask_toNat fits met
        shape.inside.running (by rw [shape.slot, shape.number, slot]) loop
      rw [shape.number] at walked written inside
      refine ⟨copied, first, rfl, readyAfter, shape, by rw [← walked], ?_, ?_⟩
      · simp only [traceStackWrites, locked, copyWrites, wide, behind, same, opened, written,
          Bool.false_eq_true, ↓reduceIte, List.forall_mem_append]
        rw [shape.out, cellWrites_within shape.inside]
        exact and_iff_right (opening_within wide)
      · rw [← walked]
        rwa [readyAfter.copyRecords] at inside

theorem unboundedLines_agree (args : PrintArgs) (facility : Facility) (lastTp : CInt)
    {pool other : Block Tracept} (priv : Option CInt) (same : pool.capacity = other.capacity)
    (agree : ∀ slot, slot < other.capacity → pool.cell slot = other.cell slot) :
    unboundedLines args facility lastTp pool priv =
      unboundedLines args facility lastTp other priv := by
  unfold unboundedLines
  generalize startTpNum facility lastTp priv = start
  obtain ⟨tpNum, overrun⟩ := start
  have met := ringRead_agree pool.cell other.cell facility.tpPoolSize.toNat tpNum.toNat
    (ringReach other.capacity facility.tpPoolSize.toNat tpNum.toNat (lastTp - tpNum).toNat)
    fun step reached => agree _ (ringReach_inside reached)
  have head : (slotOf args.mask tpNum < other.capacity ∧
      (pool.cell (slotOf args.mask tpNum)).src.isSome = true) ↔
        (slotOf args.mask tpNum < other.capacity ∧
          (other.cell (slotOf args.mask tpNum)).src.isSome = true) :=
    and_congr_right fun inside => by rw [agree _ inside]
  simp only [same, met, head]

/-- All writes of a call fit exactly if no line of 260 characters starts 260 bytes before
the end of the buffer. -/
theorem traceStackWrites_within_iff (flags size : CInt) (priv : Option CInt) (past : Nat → List UInt8)
    (ready : Ready facility pool copy exponent) (wide : size.slt neededBufsize = false)
    (narrow : ∀ slot, slot < facility.tpPoolSize.toNat → slot < pool.capacity →
      (pool.cell slot).Narrow flags) :
    (∀ write ∈ traceStackWrites flags true size priv past facility, write.Within size) ↔
      ¬ FlushLine size.toInt.toNat 0
        (unboundedLines ⟨flags, true, size, facility.tpCntMask, past⟩ facility facility.nextTp
          pool priv) := by
  obtain ⟨copied, locked, readyAfter, agree⟩ := lockedCopy_ready ready
  have capacity : copied.capacity = pool.capacity :=
    readyAfter.copyRecords.trans readyAfter.poolRecords.symm
  rw [ready.poolSize] at narrow
  rw [← unboundedLines_agree _ facility facility.nextTp priv capacity agree]
  simp only [traceStackWrites, locked]
  exact copyWrites_within_iff readyAfter.mask_toNat ready.fits readyAfter.poolSize rfl wide
    fun slot inside held => by
      rw [agree slot (capacity ▸ held)]
      exact narrow slot inside (capacity ▸ held)

/-- Two tracepoints 1001 seconds apart, the second as wide as the space check allows. -/
def widePool : Block Tracept where
  capacity := recordsIn (poolMemSize 4)
  cell
    | 0 => ⟨⟨1999998999, 0⟩, 1, some ⟨[97], by decide⟩, Tracept.zero.msg⟩
    | 1 => ⟨⟨2000000000, 0⟩, 2, some ⟨List.replicate 23 98, by decide⟩,
        ⟨List.replicate (rtMsgMax - 1) 99 ++ [0], by simp; decide⟩⟩
    | _ => Tracept.zero

def wideFacility : Facility :=
  { Facility.granted .cxx11 1 4 with tpPool := some widePool, nextTp := 2 }

def wideArgs (size : CInt) : PrintArgs := ⟨0x0f, true, size, 3, fun _ => []⟩

theorem wideFacility_ready :
    Ready wideFacility widePool ⟨recordsIn (poolMemSize 4), fun _ => Tracept.zero⟩ 2 :=
  ⟨by decide, by decide, by decide, by decide, rfl, rfl, rfl, rfl, rfl, rfl⟩

theorem widePool_narrow : ∀ slot, slot < 4 → (widePool.cell slot).Narrow 0x0f := by
  decide +kernel

private theorem wideLines {size : CInt} (either : size = 294 ∨ size = 295) :
    ∃ first second, unboundedLines (wideArgs size) wideFacility 2 widePool none =
        [first, second] ∧ first.text.length = 34 ∧ second.text.length = 260 := by
  rcases either with rfl | rfl
  · exact ⟨_, _, rfl, by decide +kernel, by decide +kernel⟩
  · exact ⟨_, _, rfl, by decide +kernel, by decide +kernel⟩

/-- A call prints without writing past its buffer, the terminators included, exactly if no
line of 260 characters starts 260 bytes before the end of it. -/
theorem print_within_iff (build : Build) (flags size : CInt) (priv : Option CInt)
    (past : Nat → List UInt8) (ready : Ready facility pool copy exponent)
    (wide : size.slt neededBufsize = false)
    (narrow : ∀ slot, slot < facility.tpPoolSize.toNat → slot < pool.capacity →
      (pool.cell slot).Narrow flags) :
    ((∀ write ∈ traceStackWrites flags true size priv past facility, write.Within size) ↔
      ¬ FlushLine size.toInt.toNat 0
        (unboundedLines ⟨flags, true, size, facility.tpCntMask, past⟩ facility facility.nextTp
          pool priv)) ∧
      (poolCovered facility.tpPoolSize →
        ∃ result, printTraceStack build flags true size priv past facility = .ok result) :=
  ⟨traceStackWrites_within_iff flags size priv past ready wide narrow,
    fun covered => printTraceStack_returns build flags size true past priv ready covered wide⟩

/-- With one byte more than its text needs, the wide record fits. -/
theorem print_within_295 :
    (∃ result, printTraceStack .cxx11 0x0f true 295 none (fun _ => []) wideFacility = .ok result) ∧
      ∀ write ∈ traceStackWrites 0x0f true 295 none (fun _ => []) wideFacility,
        write.Within 295 := by
  obtain ⟨first, second, lines, short, long⟩ := wideLines (.inr rfl)
  obtain ⟨within, returns⟩ := print_within_iff .cxx11 0x0f 295 none (fun _ => []) wideFacility_ready
    (by decide) (fun slot inside _ => widePool_narrow slot inside)
  refine ⟨returns (by decide), within.mpr ?_⟩
  intro flush
  have apart : ¬ FlushLine 295 0 [first, second] := by
    intro flush
    rcases (flushLine_cons _ _ _ _).mp flush with ⟨start, _⟩ | later
    · omega
    · rcases (flushLine_cons _ _ _ _).mp later with ⟨start, _⟩ | none
      · omega
      · exact not_flushLine_nil _ _ none
  exact apart (lines ▸ flush)

/-- In a buffer of 294 bytes the terminator of the wide record is written behind the end. -/
theorem write_past_buffer :
    (∀ slot, slot < 4 → (widePool.cell slot).Narrow 0x0f) ∧
      ∃ write ∈ traceStackWrites 0x0f true 294 none (fun _ => []) wideFacility,
        ¬ write.Within 294 := by
  refine ⟨widePool_narrow, ?_⟩
  obtain ⟨first, second, lines, short, long⟩ := wideLines (.inl rfl)
  have flush : FlushLine 294 0 [first, second] :=
    ⟨[first], second, [], rfl, by simp [short], long⟩
  have within := traceStackWrites_within_iff 0x0f 294 none (fun _ => []) wideFacility_ready
    (by decide) (fun slot inside _ => widePool_narrow slot inside)
  have past : ¬ ∀ write ∈ traceStackWrites 0x0f true 294 none (fun _ => []) wideFacility,
      write.Within 294 := fun all => within.mp all (lines ▸ flush)
  simpa using past

end TrippingRobot.Runtrace
