import TrippingRobot.Runtrace.Bounds

/-! Printing without a buffer beside printing into one: `print_trace_stack` is one loop for
both, with the size check, the ellipsis and the space check each bound to `dst` in its own way. -/

namespace TrippingRobot.Runtrace

open TrippingRobot.Data

def Line.isPoint : Line → Bool
  | .ellipsis => false
  | .point .. => true

/-- The lines of tracepoints. -/
def recordLines (lines : List Line) : List Line := lines.filter Line.isPoint

structure LargeBuffer (build : Build) (flags big : CInt) (priv : Option CInt)
    (past : Nat → List UInt8) (facility : Facility) : Prop where
  wide : big.slt neededBufsize = false
  whole : ∀ printout after,
    printTraceStack build flags true big priv past facility = .ok (printout, after) →
      printout.stopped = false

theorem printCells_roomy (inside : PrintState.Inside args state) (cells : List Tracept)
    (room : (textLength state.out : Int) +
      textLength (pointLines args state.tpNum state.tp state.prevTime cells) + 260 ≤
        args.size.toInt) :
    (printCells args cells state).stopped = false := by
  induction cells generalizing state with
  | nil => exact inside.running
  | cons tp rest ih =>
    simp only [printCells, inside.running, Bool.false_eq_true, if_false]
    rcases inside.iteration tp with
      ⟨blank, moved, _⟩ | ⟨_, full, _, _⟩ | ⟨source, _, moved, _⟩
    · rw [moved]
      simp only [pointLines, blank, if_true] at room
      exact ih inside.advance room
    · omega
    · rw [moved]
      have text := emit_textLength args state tp
      simp only [pointLines, source, Bool.false_eq_true, if_false, textLength_cons] at room
      have line : (Line.point state.tpNum tp (printTracePoint args.flags tp (args.past state.tp)
          state.prevTime).1).text = state.lineOf args tp := rfl
      rw [line, Nat.cast_add] at room
      refine ih (inside.emit (by omega)) ?_
      have later : pointLines args ((state.emit args tp).advance args).tpNum
          ((state.emit args tp).advance args).tp ((state.emit args tp).advance args).prevTime rest =
        pointLines args (state.tpNum + 1) (nextSlot args.mask state.tp)
          (printTracePoint args.flags tp (args.past state.tp) state.prevTime).2 rest := rfl
      rw [text, later, Nat.cast_add]
      omega

theorem LargeBuffer.of_room (build : Build) (ready : Ready facility pool copy exponent)
    (covered : poolCovered facility.tpPoolSize)
    (room : (textLength (unboundedLines ⟨flags, true, big, facility.tpCntMask, past⟩ facility
      facility.nextTp pool priv) : Int) + 260 ≤ big.toInt) :
    LargeBuffer build flags big priv past facility := by
  have wide : big.slt neededBufsize = false := by
    have needed : neededBufsize.toInt = 260 := rfl
    rw [Bool.eq_false_iff, ne_eq, BitVec.slt_iff_toInt_lt, needed]
    omega
  refine ⟨wide, ?_⟩
  intro printout after returned
  by_cases arrived : priv = some facility.nextTp
  · subst arrived
    obtain ⟨copied, done, _⟩ := printTraceStack_arrived build flags big true past ready wide
    rw [done] at returned
    cases returned
    rfl
  · cases start : startTpNum facility facility.nextTp priv with | mk tpNum overrun =>
    have whole := ready.covered covered
    have walked := ringReach_covered (Nat.two_pow_pos exponent) whole.1 tpNum.toNat
      (facility.nextTp - tpNum).toNat
    have slot := ready.slotOf_eq tpNum
    have inside : slotOf facility.tpCntMask tpNum < pool.capacity := by
      rw [slot]
      exact Nat.lt_of_lt_of_le (Nat.mod_lt _ (Nat.two_pow_pos exponent)) whole.1
    simp only [unboundedLines, arrived, if_false, start, ready.poolSize, walked, inside, true_and,
      textLength_append] at room
    obtain ⟨copied, first, _, opened, printed, _⟩ :=
      printTraceStack_walk build flags big past priv ready covered wide arrived start
    rw [printed] at returned
    cases returned
    refine printCells_roomy opened.inside _ ?_
    rw [opened.number, opened.slot, opened.fresh, opened.out]
    push_cast at room
    exact room

/-- What a call without a buffer is to do where the call with one returned: return 0, print
the same records and leave the same cursor. An access outside the pool ends both. -/
def SinksAgree (build : Build) (flags size big : CInt) (priv : Option CInt)
    (past : Nat → List UInt8) (facility : Facility) : Prop :=
  match printTraceStack build flags true big priv past facility with
  | .error fault => printTraceStack build flags false size priv past facility = .error fault
  | .ok (written, after) =>
    ∃ logged, printTraceStack build flags false size priv past facility = .ok (logged, after) ∧
      logged.returned = 0 ∧ recordLines logged.out = recordLines written.out ∧
      logged.priv = written.priv

/-- The states of the two loops: what has been printed differs by the ellipsis, and only
text in the buffer is counted. -/
structure SameWalk (buffered logged : PrintState) : Prop where
  tpNum : buffered.tpNum = logged.tpNum
  tp : buffered.tp = logged.tp
  prevTime : buffered.prevTime = logged.prevTime
  out : recordLines buffered.out = recordLines logged.out
  uncounted : logged.printed = 0
  going : buffered.stopped = false
  running : logged.stopped = false

theorem recordLines_append (lines others : List Line) :
    recordLines (lines ++ others) = recordLines lines ++ recordLines others :=
  List.filter_append ..

theorem SameWalk.iteration (same : SameWalk buffered logged) (flags size big mask : CInt)
    (past : Nat → List UInt8) (tp : Tracept) :
    (printIteration ⟨flags, true, big, mask, past⟩ buffered tp).stopped = true ∨
      SameWalk (printIteration ⟨flags, true, big, mask, past⟩ buffered tp)
        (printIteration ⟨flags, false, size, mask, past⟩ logged tp) := by
  obtain ⟨tpNum, slot, prevTime, out, uncounted, going, running⟩ := same
  unfold printIteration
  by_cases blank : tp.src.isNone
  · simp only [blank, if_true]
    exact .inr ⟨by simp [PrintState.advance, tpNum], by simp [PrintState.advance, slot], prevTime,
      out, uncounted, going, running⟩
  · by_cases full : (big - neededBufsize).slt buffered.printed = true
    · simp [blank, full]
    · simp only [blank, full, if_false, Bool.false_eq_true, and_false, false_and]
      refine .inr ⟨?_, ?_, ?_, ?_, ?_, going, running⟩
      · simp [PrintState.advance, PrintState.emit, tpNum]
      · simp [PrintState.advance, PrintState.emit, slot]
      · simp [PrintState.advance, PrintState.emit, printTracePoint]
      · simp [PrintState.advance, PrintState.emit, recordLines_append, out, slot, tpNum, prevTime]
      · simp [PrintState.advance, PrintState.emit, uncounted]

theorem SameWalk.loop (same : SameWalk buffered logged) (flags size big mask : CInt)
    (past : Nat → List UInt8) (copy : Block Tracept) (lastTp : CInt) (fuel : Nat) :
    (∃ final, printLoop ⟨flags, true, big, mask, past⟩ copy lastTp fuel buffered = .ok final ∧
        final.stopped = true) ∨
      (∃ fault, printLoop ⟨flags, true, big, mask, past⟩ copy lastTp fuel buffered = .error fault ∧
        printLoop ⟨flags, false, size, mask, past⟩ copy lastTp fuel logged = .error fault) ∨
      ∃ final other, printLoop ⟨flags, true, big, mask, past⟩ copy lastTp fuel buffered = .ok final ∧
        printLoop ⟨flags, false, size, mask, past⟩ copy lastTp fuel logged = .ok other ∧
        SameWalk final other := by
  induction fuel generalizing buffered logged with
  | zero => exact .inr (.inl ⟨.diverged, rfl, rfl⟩)
  | succ fuel ih =>
    by_cases arrived : logged.tpNum = lastTp
    · have there : buffered.tpNum = lastTp := same.tpNum.trans arrived
      exact .inr (.inr ⟨buffered, logged, by simp [printLoop, there], by simp [printLoop, arrived],
        same⟩)
    · have away : buffered.tpNum ≠ lastTp := same.tpNum ▸ arrived
      simp only [printLoop, away, arrived, same.going, same.running, same.tp, Bool.false_eq_true,
        or_self, if_false]
      cases copy.read logged.tp with
      | none => exact .inr (.inl ⟨.outOfBounds, rfl, rfl⟩)
      | some tp =>
        rcases same.iteration flags size big mask past tp with full | next
        · cases fuel with
          | zero => exact .inr (.inl ⟨.diverged, rfl, rfl⟩)
          | succ fuel => exact .inl ⟨_, by simp [printLoop, full], full⟩
        · exact ih next

/-- Only a call with a buffer opens with an ellipsis. -/
theorem openPrint_same (flags size big mask : CInt) (past : Nat → List UInt8)
    (copy : Block Tracept) (tpNum : CInt) (overrun : Bool) :
    (∃ fault, openPrint ⟨flags, true, big, mask, past⟩ copy tpNum overrun = .error fault ∧
        openPrint ⟨flags, false, size, mask, past⟩ copy tpNum overrun = .error fault) ∨
      ∃ buffered logged, openPrint ⟨flags, true, big, mask, past⟩ copy tpNum overrun = .ok buffered ∧
        openPrint ⟨flags, false, size, mask, past⟩ copy tpNum overrun = .ok logged ∧
        SameWalk buffered logged := by
  have first : (PrintState.first ⟨flags, true, big, mask, past⟩ tpNum).tp =
      (PrintState.first ⟨flags, false, size, mask, past⟩ tpNum).tp := rfl
  cases overrun with
  | false => exact .inr ⟨_, _, rfl, rfl, ⟨rfl, rfl, rfl, rfl, rfl, rfl, rfl⟩⟩
  | true =>
    simp only [openPrint, if_true, first, Bool.false_eq_true, and_false, if_false]
    cases copy.read (PrintState.first ⟨flags, false, size, mask, past⟩ tpNum).tp with
    | none => exact .inl ⟨.outOfBounds, rfl, rfl⟩
    | some tp =>
      by_cases source : tp.src.isSome = true
      · simp only [source, and_true, if_true]
        exact .inr ⟨_, _, rfl, rfl, ⟨rfl, rfl, rfl, rfl, rfl, rfl, rfl⟩⟩
      · simp only [source, false_and, if_false, Bool.false_eq_true]
        exact .inr ⟨_, _, rfl, rfl, ⟨rfl, rfl, rfl, rfl, rfl, rfl, rfl⟩⟩

theorem printCopy_same (build : Build) (flags size big mask : CInt) (past : Nat → List UInt8)
    (facility : Facility) (lastTp : CInt) (copy : Block Tracept) (priv : Option CInt)
    (wide : big.slt neededBufsize = false) (enough : size.slt neededBufsize = false) :
    (∃ written, printCopy build ⟨flags, true, big, mask, past⟩ facility lastTp copy priv =
        .ok written ∧ written.stopped = true) ∨
      (∃ fault, printCopy build ⟨flags, true, big, mask, past⟩ facility lastTp copy priv =
          .error fault ∧
        printCopy build ⟨flags, false, size, mask, past⟩ facility lastTp copy priv =
          .error fault) ∨
      ∃ written logged,
        printCopy build ⟨flags, true, big, mask, past⟩ facility lastTp copy priv = .ok written ∧
        printCopy build ⟨flags, false, size, mask, past⟩ facility lastTp copy priv = .ok logged ∧
        logged.returned = 0 ∧ recordLines logged.out = recordLines written.out ∧
        logged.priv = written.priv := by
  simp only [printCopy, wide, enough, Bool.false_eq_true, if_false]
  by_cases arrived : priv = some lastTp
  · simp only [arrived, if_true]
    exact .inr (.inr ⟨_, _, rfl, rfl, rfl, rfl, rfl⟩)
  · simp only [arrived, if_false]
    obtain ⟨tpNum, overrun⟩ := startTpNum facility lastTp priv
    rcases openPrint_same flags size big mask past copy tpNum overrun with
      ⟨fault, first, second⟩ | ⟨buffered, logged, first, second, same⟩
    · simp only [first, second, bind, Except.bind]
      exact .inr (.inl ⟨fault, rfl, rfl⟩)
    · simp only [first, second, bind, Except.bind]
      rcases same.loop flags size big mask past copy lastTp loopFuel with
        ⟨final, ended, full⟩ | ⟨fault, ended, failed⟩ | ⟨final, other, ended, finished, alike⟩
      · simp only [ended]
        exact .inl ⟨_, rfl, full⟩
      · simp only [ended, failed]
        exact .inr (.inl ⟨fault, rfl, rfl⟩)
      · simp only [ended, finished]
        exact .inr (.inr ⟨_, _, rfl, rfl, alike.uncounted, alike.out.symm, by simp [alike.tpNum]⟩)

theorem printLoop_not_aborted (args : PrintArgs) (copy : Block Tracept) (lastTp : CInt)
    (fuel : Nat) (state : PrintState) :
    printLoop args copy lastTp fuel state ≠ .error .aborted := by
  induction fuel generalizing state with
  | zero => simp [printLoop]
  | succ fuel ih =>
    simp only [printLoop]
    split
    · simp
    · split
      · simp
      · exact ih _

/-- Only the size check aborts. -/
theorem printCopy_not_aborted (wide : args.size.slt neededBufsize = false) :
    printCopy build args facility lastTp copy priv ≠ .error .aborted := by
  simp only [printCopy, wide, Bool.false_eq_true, if_false, bind, Except.bind, pure, Except.pure]
  split
  · simp
  · split
    · rename_i fault opened
      intro aborted
      cases aborted
      simp only [openPrint] at opened
      split_ifs at opened
      split at opened
      · cases opened
      · split_ifs at opened
    · split
      · rename_i fault ended
        intro aborted
        cases aborted
        exact printLoop_not_aborted _ _ _ _ _ ended
      · simp

/-- A size that does not pass the check ends the call without a buffer: nothing is logged, and
what is returned is not 0. -/
theorem SinksAgree.wide (agree : SinksAgree build flags size big priv past facility)
    (ready : Ready facility pool copy exponent) (wide : big.slt neededBufsize = false) :
    size.slt neededBufsize = false := by
  obtain ⟨copied, locked, _⟩ := lockedCopy_ready ready
  simp only [SinksAgree, printTraceStack, locked, bind, Except.bind, pure, Except.pure] at agree
  by_contra small
  have narrow : size.slt neededBufsize = true := by simpa using small
  have logged : printCopy build ⟨flags, false, size, facility.tpCntMask, past⟩
      { facility with tpPoolCopy := some copied } facility.nextTp copied priv =
        disablingErr build ⟨-1, priv, [], [], false⟩ := by
    simp only [printCopy, narrow, if_true]
  rw [logged] at agree
  by_cases kernel : build = .kernel
  · simp only [disablingErr, kernel, if_true] at agree
    split at agree
    · cases agree
    · obtain ⟨_, returned, zero, _⟩ := agree
      cases returned
      have minusOne : (-1 : CInt) = 0 := zero
      cases minusOne
  · simp only [disablingErr, kernel, if_false] at agree
    split at agree
    · rename_i fault failed
      cases agree
      split at failed
      · rename_i aborted
        cases failed
        exact printCopy_not_aborted wide aborted
      · cases failed
    · obtain ⟨_, returned, _⟩ := agree
      cases returned

/-- Where both sizes pass the check the calls agree, the buffer being large enough. -/
theorem SinksAgree.of_wide (ready : Ready facility pool copy exponent)
    (large : LargeBuffer build flags big priv past facility)
    (enough : size.slt neededBufsize = false) :
    SinksAgree build flags size big priv past facility := by
  obtain ⟨copied, locked, _⟩ := lockedCopy_ready ready
  obtain ⟨wide, whole⟩ := large
  simp only [printTraceStack, locked, bind, Except.bind, pure, Except.pure] at whole
  simp only [SinksAgree, printTraceStack, locked, bind, Except.bind, pure, Except.pure]
  rcases printCopy_same build flags size big facility.tpCntMask past
    { facility with tpPoolCopy := some copied } facility.nextTp copied priv wide enough with
    ⟨written, printed, full⟩ | ⟨fault, printed, failed⟩ | ⟨written, logged, printed, plain, same⟩
  · have cut := whole written _ (by rw [printed])
    rw [cut] at full
    cases full
  · simp only [printed, failed]
  · simp only [printed, plain]
    exact ⟨logged, rfl, same⟩

/-- On a facility that is set up, printing without a buffer agrees with printing into one
exactly if its `size`, which it has no use for, passes the check of the buffer's size. -/
theorem sinks_agree_iff (ready : Ready facility pool copy exponent)
    (large : LargeBuffer build flags big priv past facility) (size : CInt) :
    (SinksAgree build flags size big priv past facility ↔ size.slt neededBufsize = false) ∧
      (poolCovered facility.tpPoolSize → size.slt neededBufsize = false →
        ∃ result, printTraceStack build flags false size priv past facility = .ok result) := by
  refine ⟨⟨fun agree => agree.wide ready large.wide, .of_wide ready large⟩, ?_⟩
  intro covered enough
  exact printTraceStack_returns build flags size false past priv ready covered enough

/-- A kernel facility of four slots with one tracepoint. -/
def onePool : Block Tracept where
  capacity := recordsIn (poolMemSize 4)
  cell
    | 0 => ⟨⟨1, 0⟩, 7, some ⟨[102], by decide⟩, Tracept.zero.msg⟩
    | _ => Tracept.zero

def oneFacility : Facility :=
  { Facility.granted .kernel 1 4 with tpPool := some onePool, nextTp := 1 }

theorem oneFacility_ready :
    Ready oneFacility onePool ⟨recordsIn (poolMemSize 4), fun _ => Tracept.zero⟩ 2 :=
  ⟨by decide, by decide, by decide, by decide, rfl, rfl, rfl, rfl, rfl, rfl⟩

/-- With a size of 260 the log gets what a buffer of 4096 bytes gets. -/
theorem sinks_agree_260 :
    SinksAgree .kernel rtPrintLine 260 4096 none (fun _ => []) oneFacility ∧
      ∃ result, printTraceStack .kernel rtPrintLine false 260 none (fun _ => []) oneFacility =
        .ok result := by
  have large : LargeBuffer .kernel rtPrintLine 4096 none (fun _ => []) oneFacility :=
    .of_room .kernel oneFacility_ready (by decide) (by decide +kernel)
  obtain ⟨agree, returns⟩ := sinks_agree_iff oneFacility_ready large 260
  exact ⟨agree.mpr (by decide), returns (by decide) (by decide)⟩

/-- `printk_trace_stack`: with the size 0 the log gets nothing and the call returns -1, where
the buffer gets a record. -/
theorem log_refused :
    LargeBuffer .kernel rtPrintLine 4096 none (fun _ => []) oneFacility ∧
      (∃ after, printTraceStack .kernel rtPrintLine false 0 none (fun _ => []) oneFacility =
        .ok (⟨-1, none, [], [], false⟩, after)) ∧
      (∃ written after, printTraceStack .kernel rtPrintLine true 4096 none (fun _ => []) oneFacility =
        .ok (written, after) ∧ (recordLines written.out).length = 1) ∧
      ¬ SinksAgree .kernel rtPrintLine 0 4096 none (fun _ => []) oneFacility := by
  refine ⟨.of_room .kernel oneFacility_ready (by decide) (by decide +kernel), ⟨_, rfl⟩,
    ⟨_, _, rfl, by decide +kernel⟩, ?_⟩
  intro agree
  obtain ⟨_, returned, zero, _⟩ := agree
  cases returned
  exact absurd zero (by decide)

end TrippingRobot.Runtrace
