import TrippingRobot.Runtrace.Bounds

/-! Reading the trace in pieces with one cursor, and when the pieces together are the text
a single call prints. -/

namespace TrippingRobot.Runtrace

open TrippingRobot.Data

/-! ## The text of the slots a walk meets -/

/-- The text of each slot a walk meets; a slot without a source has none. -/
def slotTexts (flags mask : CInt) (past : Nat → List UInt8) (slot : Nat) (prevTime : BitVec 64) :
    List Tracept → List (Option (List UInt8))
  | [] => []
  | tp :: rest =>
    if tp.src.isNone then none :: slotTexts flags mask past (nextSlot mask slot) prevTime rest
    else
      let line := printTracePoint flags tp (past slot) prevTime
      some line.1 :: slotTexts flags mask past (nextSlot mask slot) line.2 rest

/-- The texts one after another. -/
def joined (texts : List (Option (List UInt8))) : List UInt8 := texts.flatMap fun text => text.getD []

/-- How many slots a call gets past that has put `used` bytes into a buffer of `size`. -/
def slotsTaken (size used : Nat) : List (Option (List UInt8)) → Nat
  | [] => 0
  | none :: rest => slotsTaken size used rest + 1
  | some text :: rest =>
    if size < used + 260 then 0 else slotsTaken size (used + text.length) rest + 1

/-- The time `*prev_time` holds after a walk over `cells`. -/
def timeAfter (flags : CInt) (prevTime : BitVec 64) : List Tracept → BitVec 64
  | [] => prevTime
  | tp :: rest =>
    if tp.src.isNone then timeAfter flags prevTime rest
    else timeAfter flags (pointTime flags tp.time) rest

@[simp] theorem joined_nil : joined [] = [] := rfl

@[simp] theorem joined_cons (text : Option (List UInt8)) (texts : List (Option (List UInt8))) :
    joined (text :: texts) = text.getD [] ++ joined texts := rfl

theorem joined_append (texts others : List (Option (List UInt8))) :
    joined (texts ++ others) = joined texts ++ joined others :=
  List.flatMap_append

theorem slotTexts_length (flags mask : CInt) (past : Nat → List UInt8) (slot : Nat)
    (prevTime : BitVec 64) (cells : List Tracept) :
    (slotTexts flags mask past slot prevTime cells).length = cells.length := by
  induction cells generalizing slot prevTime with
  | nil => rfl
  | cons tp rest ih =>
    rw [slotTexts]
    split
    · simp [ih]
    · simp [ih]

theorem slotsTaken_le (size used : Nat) (texts : List (Option (List UInt8))) :
    slotsTaken size used texts ≤ texts.length := by
  induction texts generalizing used with
  | nil => exact Nat.le_refl 0
  | cons text rest ih =>
    cases text with
    | none => exact Nat.succ_le_succ (ih used)
    | some text =>
      rw [slotsTaken]
      split
      · exact Nat.zero_le _
      · exact Nat.succ_le_succ (ih _)

theorem slotsTaken_positive {size : Nat} (large : 260 ≤ size) {texts : List (Option (List UInt8))}
    (some : texts ≠ []) : 0 < slotsTaken size 0 texts := by
  cases texts with
  | nil => exact absurd rfl some
  | cons text rest =>
    cases text with
    | none => exact Nat.succ_pos _
    | some text =>
      rw [slotsTaken, if_neg (by omega)]
      exact Nat.succ_pos _

/-- The text of some lines. -/
def linesText (lines : List Line) : List UInt8 := lines.flatMap Line.text

theorem linesText_length (lines : List Line) : (linesText lines).length = textLength lines := by
  simp [linesText, textLength, List.length_flatMap]

theorem linesText_pointLines (args : PrintArgs) (tpNum : CInt) (slot : Nat) (prevTime : BitVec 64)
    (cells : List Tracept) :
    linesText (pointLines args tpNum slot prevTime cells) =
      joined (slotTexts args.flags args.mask args.past slot prevTime cells) := by
  induction cells generalizing tpNum slot prevTime with
  | nil => rfl
  | cons tp rest ih =>
    rw [pointLines, slotTexts]
    split
    · rw [joined_cons, Option.getD_none, List.nil_append]
      exact ih _ _ _
    · rw [joined_cons, linesText, List.flatMap_cons]
      congr 1
      exact ih _ _ _

theorem printCells_taken (inside : PrintState.Inside args state) (cells : List Tracept)
    (fits : (textLength (printCells args cells state).out : Int) < args.size.toInt) :
    let texts := slotTexts args.flags args.mask args.past state.tp state.prevTime cells
    let taken := slotsTaken args.size.toInt.toNat (textLength state.out) texts
    (printCells args cells state).tpNum = state.tpNum + BitVec.ofNat 32 taken ∧
      linesText (printCells args cells state).out =
        linesText state.out ++ joined (texts.take taken) := by
  induction cells generalizing state with
  | nil => simp [printCells, slotTexts, slotsTaken]
  | cons tp rest ih =>
    have going : ¬ state.stopped = true := by simp [inside.running]
    have step (number : CInt) (count : Nat) :
        number + 1 + BitVec.ofNat 32 count = number + BitVec.ofNat 32 (count + 1) := by
      rw [Nat.add_comm count 1, BitVec.ofNat_add, BitVec.add_assoc]
      rfl
    rw [printCells, if_neg going] at fits ⊢
    rcases inside.iteration tp with ⟨blank, next, _⟩ | ⟨source, full, next, _⟩ |
      ⟨source, room, next, _⟩
    · rw [next] at fits ⊢
      obtain ⟨number, text⟩ := ih inside.advance fits
      simp only [slotTexts, if_pos blank, slotsTaken, List.take_succ_cons, joined_cons,
        Option.getD_none, List.nil_append]
      exact ⟨number.trans (step _ _), text⟩
    · have present : ¬ tp.src.isNone = true := by simp [source]
      rw [next, printCells_stopped _ _ rfl]
      simp only [slotTexts, if_neg present, slotsTaken]
      rw [if_pos (by omega)]
      simp
    · have present : ¬ tp.src.isNone = true := by simp [source]
      have counted := emit_textLength args state tp
      rw [next] at fits ⊢
      have kept := printCells_textLength_le args rest ((state.emit args tp).advance args)
      obtain ⟨number, text⟩ := ih (inside.emit (by omega)) fits
      simp only [slotTexts, if_neg present, slotsTaken]
      rw [if_neg (by omega)]
      rw [counted] at number text
      refine ⟨number.trans (step _ _), ?_⟩
      rw [text, List.take_succ_cons, joined_cons, ← List.append_assoc]
      congr 1
      simp [PrintState.emit, PrintState.advance, linesText, Line.text]

/-- Whether a walk stays inside its buffer is decided by the slots it gets past. -/
theorem printCells_fits_taken_iff (inside : PrintState.Inside args state) (cells : List Tracept) :
    let texts := slotTexts args.flags args.mask args.past state.tp state.prevTime cells
    let taken := slotsTaken args.size.toInt.toNat (textLength state.out) texts
    (textLength (printCells args cells state).out : Int) < args.size.toInt ↔
      (textLength state.out : Int) + (joined (texts.take taken)).length < args.size.toInt := by
  induction cells generalizing state with
  | nil => simp [printCells, slotTexts, slotsTaken]
  | cons tp rest ih =>
    have going : ¬ state.stopped = true := by simp [inside.running]
    rw [printCells, if_neg going]
    rcases inside.iteration tp with ⟨blank, next, _⟩ | ⟨source, full, next, _⟩ |
      ⟨source, room, next, _⟩
    · rw [next]
      simp only [slotTexts, if_pos blank, slotsTaken, List.take_succ_cons, joined_cons,
        Option.getD_none, List.nil_append]
      exact ih inside.advance
    · have present : ¬ tp.src.isNone = true := by simp [source]
      rw [next, printCells_stopped _ _ rfl]
      simp only [slotTexts, if_neg present, slotsTaken]
      rw [if_pos (by omega)]
      simp
    · have present : ¬ tp.src.isNone = true := by simp [source]
      have counted := emit_textLength args state tp
      rw [next]
      simp only [slotTexts, if_neg present, slotsTaken]
      rw [if_neg (by omega), List.take_succ_cons, joined_cons, List.length_append]
      have line : (printTracePoint args.flags tp (args.past state.tp) state.prevTime).1 =
        state.lineOf args tp := rfl
      rw [line, Option.getD_some]
      by_cases room : (textLength state.out : Int) + (state.lineOf args tp).length < args.size.toInt
      · have later := ih (inside.emit room)
        rw [counted] at later
        push_cast at later ⊢
        rw [← Int.add_assoc]
        exact later
      · have kept := printCells_textLength_le args rest ((state.emit args tp).advance args)
        constructor
        · intro fits
          omega
        · intro fits
          omega

/-- The byte count of a walk inside its buffer is right at its end, too. -/
theorem printCells_counted (inside : PrintState.Inside args state) (cells : List Tracept)
    (fits : (textLength (printCells args cells state).out : Int) < args.size.toInt) :
    (printCells args cells state).printed.toInt = textLength (printCells args cells state).out := by
  obtain ⟨done, walk⟩ := printCells_walked args cells state inside.running
  have upper := args.size.toInt_lt
  have text := congrArg textLength walk.out
  have printed := walk.printed
  rw [if_pos inside.buffered] at printed
  rw [textLength_append] at text
  generalize textLength (pointLines args state.tpNum state.tp state.prevTime (cells.take done)) =
    added at text printed
  have small : (BitVec.ofNat 32 added).toInt = added := CInt.toInt_ofNat (by omega)
  have counted := inside.counted
  rw [printed, CInt.toInt_add (by omega) (by omega), counted, small, text]
  push_cast
  rfl

/-! ## Windows of the ring -/

/-- The slots from a record number up to the counter. -/
def windowFrom (pool : Block Tracept) (exponent : Nat) (lastTp number : CInt) : List Tracept :=
  ringRead pool.cell (2 ^ exponent) number.toNat (lastTp - number).toNat

@[simp] theorem windowFrom_length (pool : Block Tracept) (exponent : Nat) (lastTp number : CInt) :
    (windowFrom pool exponent lastTp number).length = (lastTp - number).toNat :=
  ringRead_length _ _ _ _

theorem toNat_sub_add {lastTp number : CInt} {position : Nat}
    (within : position ≤ (lastTp - number).toNat) :
    (lastTp - (number + BitVec.ofNat 32 position)).toNat = (lastTp - number).toNat - position := by
  have bound := (lastTp - number).isLt
  have small : (BitVec.ofNat 32 position).toNat = position := by
    rw [BitVec.toNat_ofNat]
    exact Nat.mod_eq_of_lt (by omega)
  rw [← BitVec.sub_sub, BitVec.toNat_sub_of_le, small]
  rw [BitVec.le_def, small]
  exact within

theorem windowFrom_add {pool : Block Tracept} {lastTp number : CInt} {position : Nat}
    (fits : exponent ≤ 32) (within : position ≤ (lastTp - number).toNat) :
    windowFrom pool exponent lastTp (number + BitVec.ofNat 32 position) =
      (windowFrom pool exponent lastTp number).drop position := by
  have bound := (lastTp - number).isLt
  have small : (BitVec.ofNat 32 position).toNat = position := by
    rw [BitVec.toNat_ofNat]
    exact Nat.mod_eq_of_lt (by omega)
  have rest : (lastTp - number).toNat = position + ((lastTp - number).toNat - position) := by omega
  have start := toNat_add_mod number (BitVec.ofNat 32 position) fits
  rw [small] at start
  rw [windowFrom, windowFrom, toNat_sub_add within, ringRead_congr _ _ _ start, rest, ringRead_drop,
    Nat.add_sub_cancel_left]

theorem slotTexts_drop {mask : CInt} (flags : CInt) (past : Nat → List UInt8)
    (masked : mask.toNat + 1 = 2 ^ exponent) (fits : exponent ≤ 32) (number : CInt)
    (prevTime : BitVec 64) (cells : List Tracept) (position : Nat) :
    (slotTexts flags mask past (slotOf mask number) prevTime cells).drop position =
      slotTexts flags mask past (slotOf mask (number + BitVec.ofNat 32 position))
        (timeAfter flags prevTime (cells.take position)) (cells.drop position) := by
  have next (number : CInt) : nextSlot mask (slotOf mask number) = slotOf mask (number + 1) := by
    rw [slotOf_masked masked, slotOf_masked masked, nextSlot_eq number masked fits]
  have step (number : CInt) (count : Nat) :
      number + BitVec.ofNat 32 (count + 1) = number + 1 + BitVec.ofNat 32 count := by
    rw [Nat.add_comm count 1, BitVec.ofNat_add, BitVec.add_assoc]
    rfl
  induction cells generalizing number prevTime position with
  | nil => simp [slotTexts]
  | cons tp rest ih =>
    cases position with
    | zero => simp [timeAfter]
    | succ position =>
      rw [step, slotTexts]
      split
      · rename_i blank
        simp only [List.drop_succ_cons, List.take_succ_cons, timeAfter, if_pos blank, next]
        exact ih _ _ _
      · rename_i source
        simp only [List.drop_succ_cons, List.take_succ_cons, timeAfter, if_neg source, next]
        exact ih _ _ _

/-! ## Calls with one cursor -/

structure Reader where
  facility : Facility
  priv : CInt
  text : List UInt8
  /-- The last call returned 0. -/
  finished : Bool

/-- No write of a call goes past the buffer. -/
def WritesWithin (flags size : CInt) (priv : Option CInt) (past : Nat → List UInt8)
    (facility : Facility) : Prop :=
  ∀ write ∈ traceStackWrites flags true size priv past facility, write.Within size

instance (flags size : CInt) (priv : Option CInt) (past : Nat → List UInt8) (facility : Facility) :
    Decidable (WritesWithin flags size priv past facility) :=
  inferInstanceAs (Decidable (∀ _ ∈ _, _))

/-- `print_trace_stack` with a buffer and a cursor. After a write past the buffer there is
no result. -/
def printInto (build : Build) (flags size cursor : CInt) (past : Nat → List UInt8)
    (facility : Facility) : Except Fault (Printout × Facility) := do
  let result ← printTraceStack build flags true size (some cursor) past facility
  if WritesWithin flags size (some cursor) past facility then return result
  else throw .outOfBounds

def Reader.call (build : Build) (flags : CInt) (past : Nat → List UInt8) (size : CInt)
    (reader : Reader) : Except Fault Reader := do
  let (printout, after) ← printInto build flags size reader.priv past reader.facility
  return ⟨after, printout.priv.getD reader.priv, reader.text ++ linesText printout.out,
    printout.returned = 0⟩

/-- The first calls of a sequence, up to one that returned 0. -/
def readPieces (build : Build) (flags : CInt) (past : Nat → List UInt8) (sizes : Nat → CInt)
    (start : Reader) : Nat → Except Fault Reader
  | 0 => .ok start
  | count + 1 => do
    let reader ← readPieces build flags past sizes start count
    if reader.finished then return reader else reader.call build flags past (sizes count)

private theorem decide_zero_eq_isEmpty {printed : CInt} {text : List UInt8}
    (counted : printed.toInt = text.length) : decide (printed = 0) = text.isEmpty := by
  have zero : printed = 0 ↔ text = [] := by
    rw [← BitVec.toInt_inj, counted, ← List.length_eq_zero_iff]
    simp
  cases text with
  | nil => simpa using zero
  | cons byte rest => simpa using zero

theorem printInto_ok
    (printed : printInto build flags size cursor past facility = .ok result) :
    printTraceStack build flags true size (some cursor) past facility = .ok result ∧
      WritesWithin flags size (some cursor) past facility := by
  simp only [printInto, bind, Except.bind] at printed
  split at printed
  · cases printed
  · rename_i returned
    split at printed
    · rename_i within
      cases printed
      exact ⟨returned, within⟩
    · cases printed

structure Kept (facility after : Facility) (pool : Block Tracept) (exponent : Nat) : Prop where
  ready : ∃ copy, Ready after pool copy exponent
  nextTp : after.nextTp = facility.nextTp
  poolSize : after.tpPoolSize = facility.tpPoolSize
  mask : after.tpCntMask = facility.tpCntMask
  memSize : after.tpPoolMemSize = facility.tpPoolMemSize

theorem Kept.refl (ready : Ready facility pool copy exponent) :
    Kept facility facility pool exponent :=
  ⟨⟨copy, ready⟩, rfl, rfl, rfl, rfl⟩

theorem Kept.trans (kept : Kept facility middle pool exponent)
    (later : Kept middle after pool exponent) : Kept facility after pool exponent :=
  ⟨later.ready, later.nextTp.trans kept.nextTp, later.poolSize.trans kept.poolSize,
    later.mask.trans kept.mask, later.memSize.trans kept.memSize⟩

/-- The texts of the slots from a record number to the counter, printed by one call. -/
def textsFrom (flags : CInt) (past : Nat → List UInt8) (facility : Facility)
    (pool : Block Tracept) (exponent : Nat) (number : CInt) : List (Option (List UInt8)) :=
  slotTexts flags facility.tpCntMask past (slotOf facility.tpCntMask number) 0
    (windowFrom pool exponent facility.nextTp number)

@[simp] theorem textsFrom_length (flags : CInt) (past : Nat → List UInt8) (facility : Facility)
    (pool : Block Tracept) (exponent : Nat) (number : CInt) :
    (textsFrom flags past facility pool exponent number).length =
      (facility.nextTp - number).toNat := by
  rw [textsFrom, slotTexts_length, windowFrom_length]

theorem Kept.textsFrom {after : Facility} (kept : Kept facility after pool exponent)
    (flags : CInt) (past : Nat → List UInt8) (number : CInt) :
    textsFrom flags past after pool exponent number =
      textsFrom flags past facility pool exponent number := by
  rw [Runtrace.textsFrom, Runtrace.textsFrom, kept.mask, kept.nextTp]

/-- What a call prints that opens with `opening`: the texts its buffer has room for. -/
def pieceText (size : CInt) (opening : List UInt8) (texts : List (Option (List UInt8))) :
    List UInt8 :=
  opening ++ joined (texts.take (slotsTaken size.toInt.toNat opening.length texts))

/-- A call that started at `tpNum`: it got past the slots its buffer has room for, all of
them inside the copy, and its text left room for the terminator. -/
structure Reader.Took (reader after : Reader) (pool : Block Tracept) (exponent : Nat)
    (size tpNum : CInt) (opening : List UInt8) (texts : List (Option (List UInt8))) : Prop where
  kept : Kept reader.facility after.facility pool exponent
  priv : after.priv = tpNum + BitVec.ofNat 32 (slotsTaken size.toInt.toNat opening.length texts)
  text : after.text = reader.text ++ pieceText size opening texts
  finished : after.finished = (pieceText size opening texts).isEmpty
  fits : ((pieceText size opening texts).length : Int) < size.toInt
  inside : ∀ step, step < slotsTaken size.toInt.toNat opening.length texts →
    (tpNum.toNat + step) % 2 ^ exponent < recordsIn reader.facility.tpPoolMemSize

/-- The ellipsis, where records were lost and the start holds a record. -/
def openingText (facility : Facility) (pool : Block Tracept) (tpNum : CInt) (overrun : Bool) :
    List UInt8 :=
  if overrun ∧ (pool.cell (slotOf facility.tpCntMask tpNum)).src.isSome then ellipsisText else []

@[simp] theorem openingText_false (facility : Facility) (pool : Block Tracept) (tpNum : CInt) :
    openingText facility pool tpNum false = [] := by simp [openingText]

theorem Opened.linesText_out {pool : Block Tracept} {facility : Facility} {tpNum : CInt}
    {overrun : Bool} {first : PrintState}
    (opened : Opened ⟨flags, dst, size, facility.tpCntMask, past⟩ pool.cell tpNum overrun first) :
    linesText first.out = openingText facility pool tpNum overrun := by
  rw [opened.out, openingText]
  split
  · simp [linesText, Line.text]
  · simp [linesText]

theorem Kept.openingText {after : Facility} (kept : Kept facility after pool exponent)
    (tpNum : CInt) (overrun : Bool) :
    openingText after pool tpNum overrun = openingText facility pool tpNum overrun := by
  rw [Runtrace.openingText, Runtrace.openingText, kept.mask]

theorem Reader.call_walk {reader after : Reader} {tpNum : CInt} {overrun : Bool}
    (ready : Ready reader.facility pool copy exponent)
    (wide : size.slt neededBufsize = false) (behind : reader.priv ≠ reader.facility.nextTp)
    (start : startTpNum reader.facility reader.facility.nextTp (some reader.priv) = (tpNum, overrun))
    (called : reader.call build flags past size = .ok after) :
    Reader.Took reader after pool exponent size tpNum
      (openingText reader.facility pool tpNum overrun)
      (textsFrom flags past reader.facility pool exponent tpNum) := by
  simp only [Reader.call, bind, Except.bind, pure, Except.pure] at called
  split at called
  · cases called
  · rename_i result into
    obtain ⟨printed, inside⟩ := printInto_ok into
    obtain ⟨copied, first, copyIs, readyAfter, opened, printout, within, covered⟩ :=
      printTraceStack_walked ready wide (by simpa using behind) start printed
    have fits := within.mp inside
    have used : linesText first.out = openingText reader.facility pool tpNum overrun :=
      opened.linesText_out
    have length : textLength first.out =
        (openingText reader.facility pool tpNum overrun).length := by
      rw [← used, linesText_length]
    obtain ⟨number, text⟩ := printCells_taken opened.inside _ fits
    have counted := printCells_counted opened.inside _ fits
    rw [← linesText_length, text] at counted fits
    rw [opened.number, opened.slot, opened.fresh, length] at number
    rw [opened.slot, opened.fresh, length, used] at text counted fits
    have returned := decide_zero_eq_isEmpty counted
    cases called
    refine ⟨⟨⟨copied, readyAfter⟩, ?_, ?_, ?_, ?_⟩, ?_, ?_, ?_, fits, ?_⟩
    · rw [copyIs]
    · rw [copyIs]
    · rw [copyIs]
    · rw [copyIs]
    · rw [printout]
      exact number
    · rw [printout]
      exact congrArg (reader.text ++ ·) text
    · rw [printout]
      exact returned
    · intro step earlier
      apply covered step
      have most := slotsTaken_le size.toInt.toNat
        (openingText reader.facility pool tpNum overrun).length
        (textsFrom flags past reader.facility pool exponent tpNum)
      have bound := (reader.facility.nextTp - tpNum).isLt
      rw [textsFrom_length] at most
      rw [number, add_sub_cancel_left, BitVec.toNat_ofNat]
      exact lt_of_lt_of_eq earlier (Nat.mod_eq_of_lt (lt_of_le_of_lt most bound)).symm

/-- Where the pool has room for its slots, a call whose text fits its buffer returns. -/
theorem Reader.call_returns {reader : Reader} {tpNum : CInt} {overrun : Bool}
    (ready : Ready reader.facility pool copy exponent)
    (covered : poolCovered reader.facility.tpPoolSize)
    (wide : size.slt neededBufsize = false) (behind : reader.priv ≠ reader.facility.nextTp)
    (start : startTpNum reader.facility reader.facility.nextTp (some reader.priv) = (tpNum, overrun))
    (fits : ((pieceText size (openingText reader.facility pool tpNum overrun)
      (textsFrom flags past reader.facility pool exponent tpNum)).length : Int) < size.toInt) :
    ∃ after, reader.call build flags past size = .ok after := by
  obtain ⟨copied, first, _, opened, printed, within⟩ :=
    printTraceStack_walk build flags size past (some reader.priv) ready covered wide
      (by simpa using behind) start
  have used : linesText first.out = openingText reader.facility pool tpNum overrun :=
    opened.linesText_out
  have length : textLength first.out = (openingText reader.facility pool tpNum overrun).length := by
    rw [← used, linesText_length]
  have inside : WritesWithin flags size (some reader.priv) past reader.facility := by
    apply within.mpr
    apply (printCells_fits_taken_iff opened.inside _).mpr
    rw [opened.slot, opened.fresh, length]
    rw [pieceText, List.length_append] at fits
    push_cast at fits
    exact fits
  simp only [Reader.call, printInto, printed, bind, Except.bind, if_pos inside]
  exact ⟨_, rfl⟩

theorem Reader.call_arrived {reader after : Reader} (ready : Ready reader.facility pool copy exponent)
    (wide : size.slt neededBufsize = false) (arrived : reader.priv = reader.facility.nextTp)
    (called : reader.call build flags past size = .ok after) :
    Kept reader.facility after.facility pool exponent ∧ after.priv = reader.priv ∧
      after.text = reader.text ∧ after.finished = true := by
  obtain ⟨copied, returned, readyAfter⟩ :=
    printTraceStack_arrived build flags size true past ready wide
  simp only [Reader.call, bind, Except.bind, pure, Except.pure] at called
  split at called
  · cases called
  · rename_i result into
    obtain ⟨printed, _⟩ := printInto_ok into
    rw [arrived, returned] at printed
    cases printed
    cases called
    exact ⟨⟨⟨copied, readyAfter⟩, rfl, rfl, rfl, rfl⟩, arrived.symm, by simp [linesText], rfl⟩

end TrippingRobot.Runtrace
