import TrippingRobot.Machine.Run
import TrippingRobot.Runtrace.Bounds

/-! A reader that keeps its place in a cursor while tracepoints are being made:
what it gets over a whole run, and for which pools and prints. -/

namespace TrippingRobot.Runtrace

open TrippingRobot.Data TrippingRobot.Machine

def Line.Terminated : Line → Prop
  | .ellipsis => True
  | .point _ tp _ => 0 ∈ tp.msg.bytes

instance (line : Line) : Decidable line.Terminated := by
  cases line
  · exact .isTrue trivial
  · exact inferInstanceAs (Decidable (_ ∈ _))

/-- A call has written into its buffer only and read every message inside its field. -/
def Contained (args : PrintArgs) (facility : Facility) (lastTp : CInt) (copy : Block Tracept)
    (priv : Option CInt) (out : List Line) : Prop :=
  (∀ write ∈ copyWrites args facility lastTp copy priv, write.Within args.size) ∧
    ∀ line ∈ out, line.Terminated

instance (args : PrintArgs) (facility : Facility) (lastTp : CInt) (copy : Block Tracept)
    (priv : Option CInt) (out : List Line) :
    Decidable (Contained args facility lastTp copy priv out) :=
  inferInstanceAs (Decidable (_ ∧ _))

/-- Of these lines, put behind `used` bytes of a buffer, those that the space check lets
through leave room for their terminators, and their messages are terminated. -/
def LinesFit (size used : Nat) : List Line → Prop
  | [] => True
  | line :: rest => used + 260 ≤ size →
      line.Terminated ∧ used + line.text.length < size ∧
        LinesFit size (used + line.text.length) rest

instance decidableLinesFit (size : Nat) : ∀ used lines, Decidable (LinesFit size used lines)
  | _, [] => .isTrue trivial
  | used, line :: rest =>
    have := decidableLinesFit size (used + line.text.length) rest
    inferInstanceAs (Decidable (_ → _))

structure Call where
  lastTp : CInt
  copy : Block Tracept
  before : CInt
  after : CInt
  out : List Line
  stopped : Bool

/-- The creation numbers a call printed. -/
def Call.numbers (call : Call) : List Nat :=
  (call.out.filterMap Line.record?).map fun record => record.1.toNat

/-- The facility, the reader's `*priv`, and the counter of a call that has taken
its copy and not yet printed. `made` lists every record ever stored, in order. -/
structure Session where
  facility : Facility
  priv : CInt
  pending : Option CInt
  made : List Tracept
  calls : List Call
  fault : Option Fault

/-- Right after `runtrace_init`, with the cursor at 0. -/
def Session.start (facility : Facility) : Session where
  facility := facility
  priv := 0
  pending := none
  made := []
  calls := []
  fault := none

/-- A print takes two steps: the copy under the lock, and all that follows. -/
inductive CursorAction where
  | make (now : Timeval) (line : CInt) (src : CString) (msg : Option CString)
  | copy
  | finish (flags size : CInt) (past : Nat → List UInt8)

/-- The record a `make_tracept` left in the slot it took. -/
def storedRecord (before after : Facility) : Tracept :=
  match after.tpPool with
  | some pool => pool.cell (slotOf before.tpCntMask before.nextTp)
  | none => Tracept.zero

def Session.next (build : Build) (answers : Answers) (session : Session) : CursorAction → Session
  | .make now line src msg =>
    match makeTracept build answers now line (some src) msg session.facility with
    | .error fault => { session with fault := some fault }
    | .ok after =>
      { session with
        facility := after
        made := session.made ++ [storedRecord session.facility after] }
  | .copy =>
    match lockedCopy session.facility with
    | .error fault => { session with fault := some fault }
    | .ok (lastTp, _, copied) => { session with facility := copied, pending := some lastTp }
  | .finish flags size past =>
    match session.pending, session.facility.tpPoolCopy with
    | some lastTp, some copy =>
      let args : PrintArgs := ⟨flags, true, size, session.facility.tpCntMask, past⟩
      match printCopy build args session.facility lastTp copy (some session.priv) with
      | .error fault => { session with fault := some fault }
      | .ok printout =>
        if Contained args session.facility lastTp copy (some session.priv) printout.out then
          let after := printout.priv.getD session.priv
          { session with
            priv := after
            pending := none
            calls := session.calls ++
              [⟨lastTp, copy, session.priv, after, printout.out, printout.stopped⟩] }
        else { session with fault := some .outOfBounds }
    | _, _ => session

/-- Fewer than 2^31 tracepoints, one print at a time for the one cursor, buffers
of at least 260 bytes. After a fault nothing more happens. -/
def cursorSystem (build : Build) (answers : Answers) : System Session CursorAction where
  enabled session
    | .make _ _ _ _ => session.made.length + 1 < 2 ^ 31
    | .copy => session.pending = none
    | .finish _ size _ => session.pending.isSome ∧ size.slt neededBufsize = false
  next session action := if session.fault.isSome then session else session.next build answers action

/-- At the locked copy of the call the slot of this record held a newer one. -/
def Call.Overwrote (call : Call) (made : List Tracept) (mask : CInt) (number : Nat) : Prop :=
  ∃ newer, number < newer ∧ newer < call.lastTp.toNat ∧
    made[newer]? = some (call.copy.cell (slotOf mask (BitVec.ofNat 32 number)))

/-- What a print needs of its buffer and of the records it comes to. -/
def PrintFits (session : Session) : CursorAction → Prop
  | .finish flags size past => ∀ lastTp copy, session.pending = some lastTp →
      session.facility.tpPoolCopy = some copy →
      LinesFit size.toInt.toNat 0
        (unboundedLines ⟨flags, true, size, session.facility.tpCntMask, past⟩ session.facility
          lastTp copy (some session.priv))
  | _ => True

def Session.numbers (session : Session) : List Nat := session.calls.flatMap Call.numbers

structure CursorLaw (session : Session) : Prop where
  running : session.fault = none
  increasing : session.numbers.Pairwise (· < ·)
  recorded : ∀ call ∈ session.calls, ∀ record ∈ call.out.filterMap Line.record?,
    session.made[record.1.toNat]? = some record.2
  kept : ∀ number, number < session.priv.toNat → number ∈ session.numbers ∨
    ∃ call ∈ session.calls, call.before.toNat ≤ number ∧ number < call.after.toNat ∧
      call.Overwrote session.made session.facility.tpCntMask number
  ellipsis : ∀ call ∈ session.calls, call.out.head? = some .ellipsis ↔
    ∃ number, call.before.toNat ≤ number ∧ number < call.after.toNat ∧ number ∉ call.numbers
  cursor : ∀ call ∈ session.calls, call.after.toNat ≤ call.lastTp.toNat ∧
    (call.stopped = false → call.after = call.lastTp)

/-- What one call does, seen from the records: it skips those before `first`,
all overwritten, and prints the rest up to its new cursor. -/
structure Call.Reads (call : Call) (made : List Tracept) (mask : CInt) (first : Nat) : Prop where
  skips : call.before.toNat ≤ first
  prints : first ≤ call.after.toNat
  reached : call.after.toNat ≤ call.lastTp.toNat
  whole : call.stopped = false → call.after = call.lastTp
  numbers : call.numbers = List.range' first (call.after.toNat - first)
  recorded : ∀ record ∈ call.out.filterMap Line.record?, made[record.1.toNat]? = some record.2
  ellipsis : call.out.head? = some .ellipsis ↔ call.before.toNat < first
  overwrote : ∀ number, number < first → call.before.toNat ≤ number →
    call.Overwrote made mask number

structure Session.Sound (session : Session) (pool copy : Block Tracept) (exponent : Nat) : Prop where
  ready : Ready session.facility pool copy exponent
  covered : poolCovered session.facility.tpPoolSize
  counter : session.facility.nextTp.toNat = session.made.length
  few : session.made.length < 2 ^ 31
  ring : RingHolds pool.cell (2 ^ exponent) session.made.length Tracept.zero session.made
  sourced : ∀ tp ∈ session.made, tp.src.isSome
  behind : session.priv.toNat ≤ session.made.length
  passed : ∀ number ∈ session.numbers, number < session.priv.toNat
  pending : ∀ lastTp, session.pending = some lastTp →
    session.priv.toNat ≤ lastTp.toNat ∧ lastTp.toNat ≤ session.made.length ∧
      RingHolds copy.cell (2 ^ exponent) lastTp.toNat Tracept.zero (session.made.take lastTp.toNat)

/-! ## What a print writes and reads -/

private theorem printCells_linesFit (inside : PrintState.Inside args state) (cells : List Tracept) :
    ((textLength (printCells args cells state).out : Int) < args.size.toInt ∧
        ∀ line ∈ (printCells args cells state).out, line.Terminated) ↔
      (∀ line ∈ state.out, line.Terminated) ∧
        LinesFit args.size.toInt.toNat (textLength state.out)
          (pointLines args state.tpNum state.tp state.prevTime cells) := by
  obtain ⟨large, _⟩ := toInt_wide inside.wide
  induction cells generalizing state with
  | nil => simp [printCells, pointLines, LinesFit, inside.room]
  | cons tp rest ih =>
    have going : ¬ state.stopped = true := by simp [inside.running]
    rw [printCells, if_neg going, pointLines]
    rcases inside.iteration tp with ⟨blank, next, _⟩ | ⟨source, filled, next, _⟩ |
      ⟨source, room, next, _⟩
    · rw [next, if_pos blank]
      exact ih inside.advance
    · -- the check ends the call in front of this line
      have present : ¬ tp.src.isNone = true := by simp [source]
      have full : ¬ textLength state.out + 260 ≤ args.size.toInt.toNat := by omega
      rw [next, printCells_stopped _ _ rfl, if_neg present, LinesFit]
      simp only [full, false_implies, and_true]
      exact and_iff_right inside.room
    · have present : ¬ tp.src.isNone = true := by simp [source]
      have text := emit_textLength args state tp
      have checked : textLength state.out + 260 ≤ args.size.toInt.toNat := by omega
      rw [next, if_neg present, LinesFit]
      simp only [checked, forall_const]
      by_cases fits : (textLength state.out : Int) + (state.lineOf args tp).length < args.size.toInt
      · have same := ih (inside.emit fits)
        have lines : (∀ line ∈ ((state.emit args tp).advance args).out, line.Terminated) ↔
            (∀ line ∈ state.out, line.Terminated) ∧ 0 ∈ tp.msg.bytes := by
          simp [PrintState.advance, PrintState.emit, Line.Terminated, or_imp, forall_and]
        rw [text, lines] at same
        have room : textLength state.out + (state.lineOf args tp).length <
            args.size.toInt.toNat := by omega
        rw [same, and_assoc]
        exact and_congr_right fun _ => and_congr_right fun _ => (and_iff_right room).symm
      · have kept := printCells_textLength_le args rest ((state.emit args tp).advance args)
        have short : ¬ textLength state.out + (state.lineOf args tp).length <
            args.size.toInt.toNat := by omega
        refine iff_of_false (fun whole => ?_) fun whole => short whole.2.2.1
        have within := whole.1
        omega

private theorem Opened.linesFit {first : PrintState} {overrun : Bool}
    (opened : Opened args cells tpNum overrun first) (lines : List Line) :
    LinesFit args.size.toInt.toNat 0 (first.out ++ lines) ↔
      LinesFit args.size.toInt.toNat (textLength first.out) lines := by
  obtain ⟨large, _⟩ := toInt_wide opened.inside.wide
  have four : ellipsisText.length = 4 := rfl
  rw [opened.out]
  split
  · have checked : 0 + 260 ≤ args.size.toInt.toNat := by omega
    have room : 0 + 4 < args.size.toInt.toNat := by omega
    simp only [List.singleton_append, LinesFit, checked, forall_const, Line.Terminated, Line.text,
      four, room, true_and, textLength_cons, textLength_nil, Nat.zero_add, Nat.add_zero]
  · simp

/-- A print stays inside its buffer and inside the messages exactly if its lines fit. -/
theorem contained_iff (ready : Ready facility pool copy exponent)
    (covered : poolCovered facility.tpPoolSize) (wide : size.slt neededBufsize = false)
    (past : Nat → List UInt8)
    (printed : printCopy build ⟨flags, true, size, facility.tpCntMask, past⟩ facility lastTp copy
      (some priv) = .ok printout) :
    Contained ⟨flags, true, size, facility.tpCntMask, past⟩ facility lastTp copy (some priv)
        printout.out ↔
      LinesFit size.toInt.toNat 0 (unboundedLines ⟨flags, true, size, facility.tpCntMask, past⟩
        facility lastTp copy (some priv)) := by
  by_cases arrived : some priv = some lastTp
  · simp only [printCopy, wide, Bool.false_eq_true, ↓reduceIte, arrived, pure, Except.pure,
      Except.ok.injEq] at printed
    simp [← printed, Contained, copyWrites, unboundedLines, arrived, LinesFit]
  · cases start : startTpNum facility lastTp (some priv) with | mk tpNum overrun =>
    have room := (ready.covered covered).2
    have inside : slotOf facility.tpCntMask tpNum < copy.capacity := by
      rw [ready.slotOf_eq]
      exact Nat.lt_of_lt_of_le (Nat.mod_lt _ (Nat.two_pow_pos exponent)) room
    have masked : (PrintArgs.mk flags true size facility.tpCntMask past).mask.toNat + 1 =
        2 ^ exponent := ready.mask_toNat
    obtain ⟨first, opened, returned, writes⟩ :=
      printCopy_cells build masked ready.fits room rfl wide arrived start
    cases printed.symm.trans returned
    have lines : unboundedLines ⟨flags, true, size, facility.tpCntMask, past⟩ facility lastTp copy
        (some priv) = first.out ++ pointLines ⟨flags, true, size, facility.tpCntMask, past⟩
          first.tpNum first.tp first.prevTime
          (ringRead copy.cell (2 ^ exponent) tpNum.toNat (lastTp - tpNum).toNat) := by
      simp only [unboundedLines, arrived, if_false, start, inside, true_and, opened.out,
        opened.number, opened.slot, opened.fresh, ready.poolSize,
        ringReach_covered (Nat.two_pow_pos exponent) room]
    have opening : ∀ line ∈ first.out, line.Terminated := by
      rw [opened.out]
      split
      · simp [Line.Terminated]
      · simp
    rw [lines, opened.linesFit, Contained, writes, List.forall_mem_append,
      cellWrites_within opened.inside, opened.out, and_iff_right (opening_within wide),
      ← opened.out, printCells_linesFit opened.inside, and_iff_right opening]

private theorem toInt_small {number : CInt} (small : number.toNat < 2 ^ 31) :
    number.toInt = number.toNat :=
  BitVec.toInt_eq_toNat_of_lt (by omega)

private theorem toInt_sub_small {number other : CInt} (small : number.toNat < 2 ^ 31)
    (otherSmall : other.toNat < 2 ^ 31) :
    (number - other).toInt = number.toNat - other.toNat := by
  have left := toInt_small small
  have right := toInt_small otherSmall
  rw [CInt.toInt_sub (by omega) (by omega), left, right]

/-- While the counter is below 2^31 the window test is exact: the reader is
moved if and only if its next record has left the ring. -/
theorem startTpNum_cursor (ready : Ready facility pool copy exponent)
    (behind : priv.toNat ≤ lastTp.toNat) (few : lastTp.toNat < 2 ^ 31) :
    startTpNum facility lastTp (some priv) =
      if priv.toNat + 2 ^ exponent < lastTp.toNat then (lastTp - facility.tpPoolSize, true)
      else (priv, false) := by
  have size := ready.poolSize
  have mask := ready.mask_toNat
  have bound : 2 ^ exponent ≤ 2 ^ 30 := Nat.pow_le_pow_right (by omega) (by have := ready.high; omega)
  have room := toInt_sub_small few (by omega : facility.tpCntMask.toNat < 2 ^ 31)
  have oldest := toInt_sub_small few (by omega : facility.tpPoolSize.toNat < 2 ^ 31)
  have last := toInt_small few
  have cursor := toInt_small (by omega : priv.toNat < 2 ^ 31)
  have zero : (0 : CInt).toInt = 0 := rfl
  simp only [startTpNum, adjustTpNum, BitVec.slt_iff_toInt_lt, room, oldest, last, cursor, zero]
  split
  · rw [if_neg (by omega), if_neg (by omega)]
  · by_cases lost : priv.toNat + 2 ^ exponent < lastTp.toNat
    · rw [if_pos (by omega), if_pos lost]
    · rw [if_neg (by omega), if_neg lost]

private theorem head_ellipsis {opened : Prop} [Decidable opened] (without : Line.ellipsis ∉ lines) :
    ((if opened then [Line.ellipsis] else []) ++ lines).head? = some .ellipsis ↔ opened := by
  by_cases shown : opened
  · simp [shown]
  · simp only [shown, ↓reduceIte, List.nil_append, iff_false]
    intro head
    exact without (List.mem_of_mem_head? head)

private theorem overwrote_of_holds {call : Call}
    (ready : Ready facility pool copy exponent)
    (holds : RingHolds call.copy.cell (2 ^ exponent) history.length Tracept.zero history)
    (read : history.length = call.lastTp.toNat) (lost : number + 2 ^ exponent < history.length) :
    call.Overwrote history facility.tpCntMask number := by
  obtain ⟨newer, later, inside, _, found⟩ := holds.overwritten (Nat.two_pow_pos exponent) lost
  refine ⟨newer, later, by omega, ?_⟩
  have small : number < 2 ^ 32 := by
    have := call.lastTp.isLt
    omega
  rw [found, ready.slotOf_eq, BitVec.toNat_ofNat, Nat.mod_eq_of_lt small]

private theorem Printed.reads {copy : Block Tracept} {priv lastTp tpNum : CInt}
    (shape : Printed args (history.drop tpNum.toNat) tpNum overrun (some priv) printout done)
    (buffered : args.dst = true) (read : history.length = lastTp.toNat)
    (sourced : ∀ tp ∈ history, tp.src.isSome)
    (behind : tpNum.toNat < lastTp.toNat) (skips : priv.toNat ≤ tpNum.toNat)
    (moved : overrun = true ↔ priv.toNat < tpNum.toNat)
    (overwrote : ∀ number, number < tpNum.toNat → priv.toNat ≤ number →
      Call.Overwrote ⟨lastTp, copy, priv, tpNum + BitVec.ofNat 32 done, printout.out,
        printout.stopped⟩ history mask number) :
    Call.Reads ⟨lastTp, copy, priv, tpNum + BitVec.ofNat 32 done, printout.out, printout.stopped⟩
      history mask tpNum.toNat := by
  have within := shape.within
  have bound := lastTp.isLt
  rw [List.length_drop] at within
  have later : ∀ tp ∈ (history.drop tpNum.toNat).take done, tp.src.isSome :=
    fun tp member => sourced tp (List.mem_of_mem_drop (List.mem_of_mem_take member))
  have length : ((history.drop tpNum.toNat).take done).length = done := by
    rw [List.length_take, List.length_drop]
    omega
  have small : tpNum.toNat + ((history.drop tpNum.toNat).take done).length < 2 ^ 32 := by omega
  have after : (tpNum + BitVec.ofNat 32 done).toNat = tpNum.toNat + done := by
    rw [BitVec.toNat_add, BitVec.toNat_ofNat]
    omega
  have records : printout.out.filterMap Line.record? =
      numbered tpNum ((history.drop tpNum.toNat).take done) := by
    rw [shape.out, List.filterMap_append, pointLines_record]
    split <;> simp [Line.record?]
  refine ⟨skips, by simp only [after]; omega, by simp only [after]; omega, ?_, ?_, ?_, ?_, overwrote⟩
  · intro running
    have unstopped := mt shape.stopped.mpr (by simpa using running)
    rw [List.length_drop] at unstopped
    exact BitVec.eq_of_toNat_eq (by simp only [after]; omega)
  · simp only [Call.numbers, records]
    rw [numbered_range later small, length, after]
    congr 1
    omega
  · intro record member
    rw [records] at member
    obtain ⟨above, found⟩ := numbered_record small member
    rw [List.getElem?_take] at found
    split at found
    · rw [List.getElem?_drop] at found
      rwa [Nat.add_sub_cancel' above] at found
    · cases found
  · have first : ((history.drop tpNum.toNat).head?.any fun tp => tp.src.isSome) = true := by
      rw [List.head?_drop, List.getElem?_eq_getElem (by omega)]
      simpa using sourced _ (List.getElem_mem _)
    simp only [shape.out]
    rw [head_ellipsis (ellipsis_not_mem_pointLines _ _ _ _ _), ← moved]
    simp only [first, buffered, and_true]

/-- One call, given a copy that shows the history up to the counter it read. -/
theorem printCopy_reads (build : Build) (flags : CInt) (past : Nat → List UInt8)
    (ready : Ready facility pool copy exponent) (covered : poolCovered facility.tpPoolSize)
    (holds : RingHolds copy.cell (2 ^ exponent) lastTp.toNat Tracept.zero history)
    (read : history.length = lastTp.toNat) (sourced : ∀ tp ∈ history, tp.src.isSome)
    (few : lastTp.toNat < 2 ^ 31) (behind : priv.toNat ≤ lastTp.toNat)
    (wide : size.slt neededBufsize = false) :
    ∃ printout after first,
      printCopy build ⟨flags, true, size, facility.tpCntMask, past⟩ facility lastTp copy
        (some priv) = .ok printout ∧ printout.priv = some after ∧
      Call.Reads ⟨lastTp, copy, priv, after, printout.out, printout.stopped⟩ history
        facility.tpCntMask first := by
  rw [← read] at holds
  by_cases arrived : priv = lastTp
  · subst arrived
    refine ⟨⟨0, some priv, [], [], false⟩, priv, priv.toNat, ?_, rfl, ?_⟩
    · simp [printCopy, wide, pure, Except.pure]
    · exact ⟨Nat.le_refl _, Nat.le_refl _, Nat.le_refl _, fun _ => rfl, by simp [Call.numbers],
        by simp, by simp, fun number below above => by simp at above; omega⟩
  have strictly : priv.toNat < lastTp.toNat := by
    have different : priv.toNat ≠ lastTp.toNat := fun same => arrived (BitVec.eq_of_toNat_eq same)
    omega
  have high := ready.high
  have start := startTpNum_cursor ready behind few
  by_cases lost : priv.toNat + 2 ^ exponent < lastTp.toNat
  · rw [if_pos lost] at start
    have oldest : (lastTp - facility.tpPoolSize).toNat = lastTp.toNat - 2 ^ exponent := by
      have size := ready.poolSize
      rw [BitVec.toNat_sub_of_le (by rw [BitVec.le_def]; omega), size]
    have positive := Nat.two_pow_pos exponent
    obtain ⟨printout, done, printed, shape⟩ := printCopy_printed build
      ⟨flags, true, size, facility.tpCntMask, past⟩ facility (some priv) ready.mask_toNat
      (by omega) (ready.covered covered).2 wide (by simpa using arrived) start
      (fun _ same => by rw [same] at oldest; omega)
    have distance : (lastTp - (lastTp - facility.tpPoolSize)).toNat =
        history.length - (lastTp - facility.tpPoolSize).toNat := by
      rw [sub_sub_cancel, ready.poolSize]
      omega
    rw [distance, holds.since _ (by omega) (by omega)] at shape
    refine ⟨printout, lastTp - facility.tpPoolSize + BitVec.ofNat 32 done,
      (lastTp - facility.tpPoolSize).toNat, printed, shape.priv, ?_⟩
    exact shape.reads rfl read sourced (by omega) (by omega) ⟨fun _ => by omega, fun _ => rfl⟩
      fun number below _ => overwrote_of_holds ready holds read (by omega)
  · rw [if_neg lost] at start
    obtain ⟨printout, done, printed, shape⟩ := printCopy_printed build
      ⟨flags, true, size, facility.tpCntMask, past⟩ facility (some priv) ready.mask_toNat
      (by omega) (ready.covered covered).2 wide (by simpa using arrived) start (by simp)
    have distance : (lastTp - priv).toNat = history.length - priv.toNat := by
      rw [BitVec.toNat_sub_of_le (by rw [BitVec.le_def]; omega)]
      omega
    rw [distance, holds.since _ (by omega) (by omega)] at shape
    refine ⟨printout, priv + BitVec.ofNat 32 done, priv.toNat, printed, shape.priv, ?_⟩
    exact shape.reads rfl read sourced (by omega) (by omega) (by simp)
      fun number below above => by omega

private theorem getElem?_extend {history : List Tracept} {number : Nat} (rest : List Tracept)
    (found : history[number]? = some tp) : (history ++ rest)[number]? = some tp := by
  obtain ⟨inside, _⟩ := List.getElem?_eq_some_iff.mp found
  rw [List.getElem?_append_left inside, found]

private theorem Call.Overwrote.extend {call : Call} (rest : List Tracept)
    (overwrote : call.Overwrote made mask number) : call.Overwrote (made ++ rest) mask number := by
  obtain ⟨newer, later, inside, found⟩ := overwrote
  exact ⟨newer, later, inside, getElem?_extend rest found⟩

private theorem Call.Reads.extend {call : Call} (rest : List Tracept)
    (reads : call.Reads made mask first) : call.Reads (made ++ rest) mask first :=
  { reads with
    recorded := fun record member => getElem?_extend rest (reads.recorded record member)
    overwrote := fun number below above => (reads.overwrote number below above).extend rest }

/-- The law and what keeps it. -/
def CursorInvariant (session : Session) : Prop :=
  CursorLaw session ∧ ∃ pool copy exponent, session.Sound pool copy exponent

private theorem next_make {session : Session} (build : Build) (answers : Answers)
    (ready : Ready session.facility pool copy exponent)
    (inside : session.facility.nextTp.toNat % 2 ^ exponent < pool.capacity) :
    session.next build answers (.make now line src msg) = { session with
      facility := { session.facility with
        tpPool := some (recorded pool (session.facility.nextTp.toNat % 2 ^ exponent) now line
          (some src) msg)
        nextTp := session.facility.nextTp + 1 }
      made := session.made ++ [storeTracept
        (pool.cell (session.facility.nextTp.toNat % 2 ^ exponent)) now line (some src) msg] } := by
  simp only [Session.next, makeTracept_ready ready inside]
  simp [storedRecord, ready.slotOf_eq, recorded]

private theorem nextTp_succ {facility : Facility} (few : facility.nextTp.toNat + 1 < 2 ^ 31) :
    (facility.nextTp + 1).toNat = facility.nextTp.toNat + 1 := by
  rw [BitVec.toNat_add]
  exact Nat.mod_eq_of_lt (Nat.lt_trans few (by decide))

theorem CursorInvariant.of_make (lawful : CursorLaw session) (sound : session.Sound pool copy exponent)
    (few : session.made.length + 1 < 2 ^ 31) :
    CursorInvariant (session.next build answers (.make now line src msg)) := by
  have positive : 0 < 2 ^ exponent := Nat.two_pow_pos exponent
  have inside : session.facility.nextTp.toNat % 2 ^ exponent < pool.capacity :=
    Nat.lt_of_lt_of_le (Nat.mod_lt _ positive) (sound.ready.covered sound.covered).1
  rw [next_make build answers sound.ready inside, sound.counter]
  refine ⟨⟨lawful.running, lawful.increasing, ?_, ?_, lawful.ellipsis, lawful.cursor⟩,
    _, copy, exponent, sound.ready.recorded _, sound.covered, ?_, ?_, ?_, ?_, ?_, sound.passed, ?_⟩
  · exact fun call member record found => getElem?_extend _ (lawful.recorded call member record found)
  · intro number below
    rcases lawful.kept number below with printed | ⟨call, member, before, after, overwrote⟩
    · exact .inl printed
    · exact .inr ⟨call, member, before, after, overwrote.extend _⟩
  · have counter := sound.counter
    simp only [List.length_append, List.length_singleton]
    rw [nextTp_succ (by omega), counter]
  · simpa using few
  · simpa [recorded] using sound.ring.write positive (storeTracept
      (pool.cell (session.made.length % 2 ^ exponent)) now line (some src) msg)
  · intro tp member
    rcases List.mem_append.mp member with old | new
    · exact sound.sourced tp old
    · rw [List.mem_singleton.mp new]
      rfl
  · have behind := sound.behind
    simp only [List.length_append]
    omega
  · intro lastTp waiting
    obtain ⟨after, read, view⟩ := sound.pending lastTp waiting
    refine ⟨after, by simp only [List.length_append]; omega, ?_⟩
    rwa [List.take_append_of_le_length read]

theorem CursorInvariant.of_copy (lawful : CursorLaw session) (sound : session.Sound pool copy exponent) :
    CursorInvariant (session.next build answers .copy) := by
  obtain ⟨copied, locked, ready, agree⟩ := lockedCopy_ready sound.ready
  have next : session.next build answers .copy = { session with
      facility := { session.facility with tpPoolCopy := some copied }
      pending := some session.facility.nextTp } := by
    simp only [Session.next, locked]
  rw [next]
  refine ⟨⟨lawful.running, lawful.increasing, lawful.recorded, lawful.kept, lawful.ellipsis,
    lawful.cursor⟩, pool, copied, exponent, ready, sound.covered, sound.counter, sound.few,
    sound.ring, sound.sourced, sound.behind, sound.passed, ?_⟩
  rintro lastTp ⟨⟩
  rw [sound.counter, List.take_length]
  refine ⟨sound.behind, Nat.le_refl _, ?_⟩
  have inside := (sound.ready.covered sound.covered).1
  have same := ringRead_agree copied.cell pool.cell (2 ^ exponent) session.made.length (2 ^ exponent)
    fun step _ => agree _ (Nat.lt_of_lt_of_le (Nat.mod_lt _ (Nat.two_pow_pos exponent)) inside)
  exact same.trans sound.ring

private theorem Call.Reads.ellipsis_iff {call : Call} (reads : call.Reads made mask first) :
    call.out.head? = some .ellipsis ↔
      ∃ number, call.before.toNat ≤ number ∧ number < call.after.toNat ∧ number ∉ call.numbers := by
  have prints := reads.prints
  rw [reads.ellipsis]
  simp only [reads.numbers, List.mem_range'_1]
  constructor
  · intro skipped
    exact ⟨call.before.toNat, Nat.le_refl _, by omega, by omega⟩
  · rintro ⟨number, above, below, unprinted⟩
    omega

private theorem CursorLaw.call {call : Call} (lawful : CursorLaw session)
    (passed : ∀ number ∈ session.numbers, number < session.priv.toNat)
    (before : call.before = session.priv)
    (reads : call.Reads session.made session.facility.tpCntMask first) :
    CursorLaw { session with
        priv := call.after
        pending := none
        calls := session.calls ++ [call] } ∧
      ∀ number ∈ (session.calls ++ [call]).flatMap Call.numbers, number < call.after.toNat := by
  have skips := reads.skips
  have prints := reads.prints
  rw [before] at skips
  refine ⟨⟨lawful.running, ?_, ?_, ?_, ?_, ?_⟩, ?_⟩
  · simp only [Session.numbers, List.flatMap_append, List.flatMap_singleton]
    rw [List.pairwise_append, reads.numbers]
    refine ⟨lawful.increasing, List.pairwise_lt_range', ?_⟩
    intro old printed new member
    have below := passed old printed
    rw [List.mem_range'_1] at member
    omega
  · intro earlier member
    rcases List.mem_append.mp member with old | new
    · exact lawful.recorded earlier old
    · rw [List.mem_singleton.mp new]
      exact reads.recorded
  · intro number below
    simp only [Session.numbers, List.flatMap_append, List.flatMap_singleton, List.mem_append,
      reads.numbers, List.mem_range'_1]
    by_cases old : number < session.priv.toNat
    · rcases lawful.kept number old with printed | ⟨earlier, member, lost⟩
      · exact .inl (.inl printed)
      · exact .inr ⟨earlier, .inl member, lost⟩
    · change number < call.after.toNat at below
      by_cases lost : number < first
      · have above : call.before.toNat ≤ number := by
          rw [before]
          omega
        exact .inr ⟨call, .inr (List.mem_singleton.mpr rfl), above, below,
          reads.overwrote number lost above⟩
      · exact .inl (.inr ⟨by omega, by omega⟩)
  · intro earlier member
    rcases List.mem_append.mp member with old | new
    · exact lawful.ellipsis earlier old
    · rw [List.mem_singleton.mp new]
      exact reads.ellipsis_iff
  · intro earlier member
    rcases List.mem_append.mp member with old | new
    · exact lawful.cursor earlier old
    · rw [List.mem_singleton.mp new]
      exact ⟨reads.reached, reads.whole⟩
  · intro number member
    rw [List.flatMap_append, List.flatMap_singleton, List.mem_append, reads.numbers,
      List.mem_range'_1] at member
    rcases member with old | new
    · have below := passed number old
      omega
    · omega

/-- The call of a `finish` step, and whether it stays inside its buffer. -/
private theorem Session.Sound.printed (sound : session.Sound pool copy exponent)
    (build : Build) (pending : session.pending = some lastTp)
    (wide : size.slt neededBufsize = false) (flags : CInt) (past : Nat → List UInt8) :
    let args : PrintArgs := ⟨flags, true, size, session.facility.tpCntMask, past⟩
    ∃ printout after first,
      printCopy build args session.facility lastTp copy (some session.priv) = .ok printout ∧
      printout.priv = some after ∧
      Call.Reads ⟨lastTp, copy, session.priv, after, printout.out, printout.stopped⟩ session.made
        session.facility.tpCntMask first ∧
      (Contained args session.facility lastTp copy (some session.priv) printout.out ↔
        PrintFits session (.finish flags size past)) := by
  intro args
  obtain ⟨behind, read, view⟩ := sound.pending lastTp pending
  have few := sound.few
  have length : (session.made.take lastTp.toNat).length = lastTp.toNat := by
    rw [List.length_take]
    omega
  obtain ⟨printout, after, first, printed, cursor, reads⟩ :=
    printCopy_reads build flags past sound.ready sound.covered view length
      (fun tp member => sound.sourced tp (List.mem_of_mem_take member)) (by omega) behind wide
  have whole := reads.extend (session.made.drop lastTp.toNat)
  rw [List.take_append_drop] at whole
  refine ⟨printout, after, first, printed, cursor, whole, ?_⟩
  rw [contained_iff sound.ready sound.covered wide past printed]
  simp [PrintFits, pending, sound.ready.copyIs]

theorem CursorInvariant.of_finish (lawful : CursorLaw session)
    (sound : session.Sound pool copy exponent) (waiting : session.pending.isSome)
    (wide : size.slt neededBufsize = false) (fits : PrintFits session (.finish flags size past)) :
    CursorInvariant (session.next build answers (.finish flags size past)) := by
  obtain ⟨lastTp, pending⟩ := Option.isSome_iff_exists.mp waiting
  obtain ⟨printout, after, first, printed, cursor, reads, contained⟩ :=
    sound.printed build pending wide flags past
  let call : Call := ⟨lastTp, copy, session.priv, after, printout.out, printout.stopped⟩
  have next : session.next build answers (.finish flags size past) = { session with
      priv := call.after
      pending := none
      calls := session.calls ++ [call] } := by
    simp [Session.next, pending, sound.ready.copyIs, printed, contained.mpr fits, cursor, call]
  obtain ⟨lawful, passed⟩ := lawful.call sound.passed rfl reads
  rw [next]
  refine ⟨lawful, pool, copy, exponent, sound.ready, sound.covered, sound.counter, sound.few,
    sound.ring, sound.sourced, ?_, passed, by simp⟩
  exact Nat.le_trans reads.reached (sound.pending lastTp pending).2.1

/-- A print whose lines do not fit ends in a fault. -/
private theorem Session.Sound.overflows (sound : session.Sound pool copy exponent)
    (waiting : session.pending.isSome) (wide : size.slt neededBufsize = false)
    (wider : ¬ PrintFits session (.finish flags size past)) :
    (session.next build answers (.finish flags size past)).fault = some .outOfBounds := by
  obtain ⟨lastTp, pending⟩ := Option.isSome_iff_exists.mp waiting
  obtain ⟨printout, after, first, printed, cursor, reads, contained⟩ :=
    sound.printed build pending wide flags past
  simp [Session.next, pending, sound.ready.copyIs, printed, mt contained.mp wider]

theorem CursorInvariant.step (holds : CursorInvariant session)
    (enabled : (cursorSystem build answers).enabled session action) :
    (PrintFits session action →
        CursorInvariant ((cursorSystem build answers).next session action)) ∧
      (¬ PrintFits session action →
        ((cursorSystem build answers).next session action).fault = some .outOfBounds) := by
  obtain ⟨lawful, pool, copy, exponent, sound⟩ := holds
  have running : session.fault.isSome = false := by simp [lawful.running]
  simp only [cursorSystem, running, Bool.false_eq_true, ↓reduceIte]
  cases action with
  | make now line src msg =>
    exact ⟨fun _ => .of_make lawful sound enabled, fun wider => absurd trivial wider⟩
  | copy => exact ⟨fun _ => .of_copy lawful sound, fun wider => absurd trivial wider⟩
  | finish flags size past =>
    exact ⟨.of_finish lawful sound enabled.1 enabled.2, sound.overflows enabled.1 enabled.2⟩

/-- From a state that keeps the invariant the law goes on exactly as long as the prints fit. -/
theorem CursorInvariant.lawful_iff (holds : CursorInvariant session)
    (legal : (cursorSystem build answers).Legal session actions) :
    (cursorSystem build answers).Always CursorLaw session actions ↔
      (cursorSystem build answers).Guarded PrintFits session actions := by
  induction actions generalizing session with
  | nil => exact iff_of_true holds.1 trivial
  | cons action rest ih =>
    obtain ⟨keeps, breaks⟩ := holds.step legal.1
    constructor
    · intro always
      have fits : PrintFits session action := by
        by_contra wider
        cases (breaks wider).symm.trans always.2.first.running
      exact ⟨fits, (ih (keeps fits) legal.2).mp always.2⟩
    · intro fits
      exact ⟨holds.1, (ih (keeps fits.1) legal.2).mpr fits.2⟩

theorem CursorInvariant.start
    (returned : runtraceInit build answers threads Facility.start = .ok (0, facility))
    (covered : poolCovered facility.tpPoolSize) : CursorInvariant (Session.start facility) := by
  obtain ⟨counter, exponent, ready⟩ := Ready.of_init returned rfl
  refine ⟨⟨rfl, ?_, ?_, ?_, ?_, ?_⟩, _, _, exponent, ready, covered, ?_, ?_, ?_, ?_, ?_, ?_, ?_⟩
  case refine_6 => simp [counter, Session.start]
  case refine_8 => exact RingHolds.blank _ _ _
  all_goals simp [Session.start, Session.numbers]

/-- Without room for all slots, tracepoints alone run out of the pool. -/
private theorem makes_fault (session : Session) (build : Build) (answers : Answers)
    (now : Timeval) (line : CInt) (src : CString) (msg : Option CString)
    (ready : Ready session.facility pool copy exponent) (running : session.fault = none)
    (counter : session.made.length = session.facility.nextTp.toNat)
    (rest : pool.capacity = session.facility.nextTp.toNat + left)
    (short : pool.capacity < 2 ^ exponent) :
    let makes := List.replicate (left + 1) (.make now line src msg)
    (cursorSystem build answers).Legal session makes ∧
      (cursorSystem build answers).Guarded PrintFits session makes ∧
      ((cursorSystem build answers).exec session makes).fault = some .outOfBounds := by
  have bound : 2 ^ exponent ≤ 2 ^ 30 := Nat.pow_le_pow_right (by omega) (by have := ready.high; omega)
  have few : session.made.length + 1 < 2 ^ 31 := by omega
  have slot : session.facility.nextTp.toNat % 2 ^ exponent = session.facility.nextTp.toNat :=
    Nat.mod_eq_of_lt (by omega)
  induction left generalizing session pool with
  | zero =>
    have outside : pool.capacity ≤ session.facility.nextTp.toNat % 2 ^ exponent := by omega
    refine ⟨⟨few, trivial⟩, ⟨trivial, trivial⟩, ?_⟩
    simp [cursorSystem, running, Session.next, makeTracept_outside ready outside]
  | succ left ih =>
    have inside : session.facility.nextTp.toNat % 2 ^ exponent < pool.capacity := by omega
    have stepped := nextTp_succ (by omega : session.facility.nextTp.toNat + 1 < 2 ^ 31)
    let after := (cursorSystem build answers).next session (.make now line src msg)
    have next : after = session.next build answers (.make now line src msg) := by
      simp [after, cursorSystem, running]
    rw [next_make build answers ready inside] at next
    let slot := session.facility.nextTp.toNat % 2 ^ exponent
    have going := @ih (recorded pool slot now line (some src) msg) after
      (by rw [next]; exact ready.recorded slot) (by rw [next]; exact running)
      (by simp only [next, List.length_append, List.length_singleton]; omega)
      (by simp only [next, recorded, stepped]; omega) short
      (by simp only [next, List.length_append, List.length_singleton]; omega)
      (by simp only [next, stepped]; exact Nat.mod_eq_of_lt (by omega))
    exact ⟨⟨few, going.1⟩, ⟨trivial, going.2.1⟩, going.2.2⟩

/-- A cursor reads the trace without loss or repetition in every run whose prints fit, and in no
other, precisely when the byte count of the pool survives its conversion to `int`. -/
theorem cursor_lawful_iff
    (returned : runtraceInit build answers threads Facility.start = .ok (0, facility)) :
    (∀ actions, (cursorSystem build answers).Legal (Session.start facility) actions →
      ((cursorSystem build answers).Always CursorLaw (Session.start facility) actions ↔
        (cursorSystem build answers).Guarded PrintFits (Session.start facility) actions)) ↔
      poolCovered facility.tpPoolSize := by
  constructor
  · intro lawful
    by_contra uncovered
    obtain ⟨counter, exponent, ready⟩ := Ready.of_init returned rfl
    have short : recordsIn (poolMemSize facility.tpPoolSize) < 2 ^ exponent := by
      rw [← ready.poolSize]
      exact Nat.lt_of_not_le uncovered
    have zero : facility.nextTp.toNat = 0 := by simp [counter]
    have room : recordsIn (poolMemSize facility.tpPoolSize) =
        facility.nextTp.toNat + recordsIn (poolMemSize facility.tpPoolSize) := by
      rw [zero, Nat.zero_add]
    obtain ⟨legal, fits, fault⟩ := makes_fault (Session.start facility) build answers ⟨0, 0⟩ 0
      ⟨[], by simp⟩ none ready rfl zero.symm room short
    cases fault.symm.trans ((lawful _ legal).mpr fits).last.running
  · intro covered actions legal
    exact (CursorInvariant.start returned covered).lawful_iff legal

/-- Two prints of a pool of four, a tracepoint before each. -/
def printedTwice : List CursorAction :=
  [.make ⟨1, 2⟩ 3 ⟨[104], by decide⟩ none, .copy, .finish 0x0f 260 fun _ => [],
    .make ⟨1, 5⟩ 4 ⟨[104], by decide⟩ none, .copy, .finish 0x0f 300 fun _ => []]

theorem cursor_lawful_four :
    let start := Session.start (.granted .cxx11 1 4)
    let system := cursorSystem .cxx11 (.granting 4)
    system.Legal start printedTwice ∧ system.Always CursorLaw start printedTwice ∧
      (system.exec start printedTwice).numbers = [0, 1] := by
  have returned : runtraceInit .cxx11 (.granting 4) 1 Facility.start = _ :=
    runtraceInit_granted (by decide) (by decide) (by decide) (by decide)
  have few : 1 < 2 ^ 31 ∧ 2 < 2 ^ 31 := by decide
  have legal : (cursorSystem .cxx11 (.granting 4)).Legal
      (Session.start (.granted .cxx11 1 4)) printedTwice :=
    ⟨few.1, rfl, ⟨rfl, rfl⟩, few.2, rfl, ⟨rfl, rfl⟩, trivial⟩
  refine ⟨legal, ((cursor_lawful_iff returned).mpr (by decide) _ legal).mpr ?_, ?_⟩
  · refine ⟨trivial, trivial, ?_, trivial, trivial, ?_, trivial⟩
    · rintro _ _ ⟨⟩ ⟨⟩
      decide +kernel
    · rintro _ _ ⟨⟩ ⟨⟩
      decide +kernel
  · decide +kernel

/-- The accepted pool of 2^29 slots gets no memory at all: the first tracepoint
is written past its end, and no reader ever sees it. -/
theorem cursor_outOfBounds :
    let facility := Facility.granted .cxx11 1 0x20000000
    let system := cursorSystem .cxx11 (.granting 0x20000000)
    let actions : List CursorAction := [.make ⟨1, 2⟩ 3 ⟨[109], by decide⟩ none]
    runtraceInit .cxx11 (.granting 0x20000000) 1 Facility.start = .ok (0, facility) ∧
      system.Legal (Session.start facility) actions ∧
      ¬system.Always CursorLaw (Session.start facility) actions := by
  have returned : runtraceInit .cxx11 (.granting 0x20000000) 1 Facility.start = _ :=
    runtraceInit_granted (by decide) (by decide) (by decide) (by decide)
  obtain ⟨counter, exponent, ready⟩ := Ready.of_init returned rfl
  have empty : recordsIn (poolMemSize 0x20000000) = (0 : CInt).toNat + 0 := by decide
  obtain ⟨legal, _, fault⟩ := makes_fault (Session.start (.granted .cxx11 1 0x20000000)) .cxx11
    (.granting 0x20000000) ⟨1, 2⟩ 3 ⟨[109], by decide⟩ none ready rfl rfl empty
    (lt_of_eq_of_lt empty (Nat.two_pow_pos exponent))
  refine ⟨returned, legal, fun always => ?_⟩
  cases fault.symm.trans always.last.running

end TrippingRobot.Runtrace
