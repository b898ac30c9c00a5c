import TrippingRobot.Runtrace.Device
import TrippingRobot.Runtrace.History

/-! Tracepoints whose line is no longer than the guess of the code, 260 bytes: what one
iteration of a print does at a slot that shows one, and which slots of the ring do. -/

namespace TrippingRobot.Runtrace

open TrippingRobot.Data

/-- The line of a request in the device file, which does not depend on the line before. -/
def Request.deviceLine (request : Request) : List UInt8 :=
  pointText rtPrintDefault (pointTime rtPrintDefault request.now) 0 request.src.bytes request.line
    request.text

/-- A line no longer than the code expects. -/
def Request.Fits (request : Request) : Prop := request.deviceLine.length < neededBufsize.toNat

/-- A slot shows one of the requests, or nothing. -/
def ShownIn (requests : List Request) (tp : Tracept) : Prop :=
  tp = Tracept.zero ∨ ∃ request ∈ requests, Stores tp request

theorem Stores.deviceLine {tp : Tracept} {request : Request} (stores : Stores tp request)
    (past : List UInt8) (prevTime : BitVec 64) :
    (printTracePoint rtPrintDefault tp past prevTime).1 = request.deviceLine := by
  have plain : isSet rtPrintDefault rtPrintDiff = false := rfl
  simp only [printTracePoint, Request.deviceLine, pointText, plain, stores.src, stores.line,
    stores.time, stores.msg, Option.map_some, Option.getD_some, Bool.false_eq_true, if_false]

/-! ## One iteration -/

/-- At a slot that shows a request the loop stops, or puts the line of the request behind its
text. -/
theorem Stores.iteration {tp : Tracept} {request : Request} (stores : Stores tp request)
    (flags : args.flags = rtPrintDefault) (state : PrintState) :
    printIteration args state tp = { state with stopped := true } ∨
      ((printIteration args state tp).tpNum = state.tpNum + 1 ∧
        (printIteration args state tp).tp = nextSlot args.mask state.tp ∧
        linesText (printIteration args state tp).out =
          linesText state.out ++ request.deviceLine) := by
  have source : ¬ tp.src.isNone = true := by simp [stores.src]
  rw [printIteration, if_neg source]
  split
  · exact .inl rfl
  · refine .inr ⟨rfl, rfl, ?_⟩
    simp only [PrintState.advance, PrintState.emit, flags, stores.deviceLine, linesText,
      List.flatMap_append, List.flatMap_singleton, Line.text]

theorem ShownIn.lineOf_length {tp : Tracept} (shown : ShownIn requests tp)
    (fits : ∀ request ∈ requests, request.Fits) (source : tp.src.isNone = false)
    (flags : args.flags = rtPrintDefault) (state : PrintState) :
    (state.lineOf args tp).length < 260 := by
  rcases shown with rfl | ⟨request, known, stores⟩
  · cases source
  · rw [PrintState.lineOf, flags, stores.deviceLine]
    exact fits request known

theorem PrintState.Inside.shown {tp : Tracept} (inside : PrintState.Inside args state)
    (shown : ShownIn requests tp) (fits : ∀ request ∈ requests, request.Fits)
    (flags : args.flags = rtPrintDefault) :
    (∀ write ∈ iterationWrites args state tp, write.Within args.size) ∧
      ((printIteration args state tp).stopped = false →
        PrintState.Inside args (printIteration args state tp)) := by
  rcases inside.iteration tp with
    ⟨_, next, writes⟩ | ⟨_, _, next, writes⟩ | ⟨source, space, next, writes⟩
  · rw [next, writes]
    exact ⟨nofun, fun _ => inside.advance⟩
  · rw [next, writes]
    exact ⟨nofun, nofun⟩
  · have short := shown.lineOf_length fits source flags state
    have room : (textLength state.out : Int) + (state.lineOf args tp).length < args.size.toInt := by
      omega
    rw [next, writes]
    exact ⟨(inside.columns_within tp).mpr room, fun _ => inside.emit room⟩

/-! ## The slots of the ring -/

theorem Remembers.shownIn (holds : Remembers facility requests pool copy exponent stored)
    (number : Nat) : ShownIn requests (pool.cell (number % 2 ^ exponent)) := by
  rcases holds.ring.cell_cases (Nat.two_pow_pos exponent) number with blank | known
  · exact .inl blank
  · obtain ⟨position, inside, found⟩ := List.mem_iff_getElem.mp known
    have length := holds.same.length_eq
    refine .inr ⟨requests[position], List.getElem_mem _, ?_⟩
    rw [← found]
    exact List.Forall₂.get holds.same inside (length ▸ inside)

theorem Remembers.locked (holds : Remembers facility requests pool copy exponent stored) :
    ∃ copied : Block Tracept, lockedCopy facility =
        .ok (facility.nextTp, copied, { facility with tpPoolCopy := some copied }) ∧
      Remembers { facility with tpPoolCopy := some copied } requests pool copied exponent stored ∧
      ∀ slot, slot < 2 ^ exponent → copied.cell slot = pool.cell slot := by
  obtain ⟨copied, locked, ready, agree⟩ := lockedCopy_ready holds.ready
  have covered := (holds.ready.covered holds.covered).1
  exact ⟨copied, locked, ⟨ready, holds.covered, holds.ring, holds.same⟩,
    fun slot inside => agree slot (inside.trans_le covered)⟩

/-- The slots from a number inside the pool on hold the newest requests. -/
theorem Remembers.newest (holds : Remembers facility requests pool copy exponent stored)
    {number : CInt} (near : (facility.nextTp - number).toNat ≤ facility.tpPoolSize.toNat)
    (within : (facility.nextTp - number).toNat ≤ requests.length) :
    List.Forall₂ Stores
      (ringRead pool.cell (2 ^ exponent) number.toNat (facility.nextTp - number).toNat)
      (recent (facility.nextTp - number).toNat requests) := by
  have fits := holds.ready.fits
  have length := holds.same.length_eq
  rw [holds.ready.poolSize] at near
  generalize behind : (facility.nextTp - number).toNat = count at near within
  have around : number.toNat % 2 ^ exponent =
      (facility.nextTp.toNat + (2 ^ exponent - count)) % 2 ^ exponent := by
    have forward := toNat_add_mod number (facility.nextTp - number) fits
    rw [add_sub_cancel, behind] at forward
    rw [← Nat.mod_add_mod, forward, Nat.mod_add_mod, Nat.add_assoc, Nat.add_sub_cancel' near,
      Nat.add_mod_right]
  have cells : ringRead pool.cell (2 ^ exponent) number.toNat count = recent count stored := by
    rw [ringRead_congr _ _ _ around, holds.ring.tail (2 ^ exponent - count) count (by omega),
      Nat.sub_eq_zero_of_le (by omega), List.replicate_zero, List.nil_append]
  rw [cells, recent, recent, length]
  exact List.forall₂_drop _ holds.same

theorem Remembers.newest_copied (holds : Remembers facility requests pool copy exponent stored)
    {copied : Block Tracept} (agree : ∀ slot, slot < 2 ^ exponent → copied.cell slot = pool.cell slot)
    {number : CInt} (near : (facility.nextTp - number).toNat ≤ facility.tpPoolSize.toNat)
    (within : (facility.nextTp - number).toNat ≤ requests.length)
    (fewer : count ≤ (facility.nextTp - number).toNat) :
    List.Forall₂ Stores (ringRead copied.cell facility.tpPoolSize.toNat number.toNat count)
      ((recent (facility.nextTp - number).toNat requests).take count) := by
  have same : ringRead copied.cell (2 ^ exponent) number.toNat count =
      ringRead pool.cell (2 ^ exponent) number.toNat count :=
    ringRead_agree _ _ _ _ _ fun _ _ => agree _ (Nat.mod_lt _ (Nat.two_pow_pos exponent))
  rw [holds.ready.poolSize, same, ← ringRead_take _ _ _ fewer]
  exact List.forall₂_take count (holds.newest near within)

end TrippingRobot.Runtrace
