import TrippingRobot.Runtrace.Printing

/-! The overrun test of `print_trace_stack` over the whole range of the counter. -/

namespace TrippingRobot.Runtrace

open TrippingRobot.Data

/-- The start the cursor calls for: its own place while that is at most `pool_size`
records behind the counter, else the oldest place of the ring. -/
def expectedStart (poolSize lastTp priv : CInt) : CInt × Bool :=
  if (lastTp - priv).toNat ≤ poolSize.toNat then (priv, false) else (lastTp - poolSize, true)

/-- Where the signed comparisons of the code find the expected start: for a cursor in the
ring unless `INT_MIN` lies among its newest records, for one outside unless the counter is
below `pool_size - 1` and the whole ring above `INT_MIN`. -/
def TestExact (poolSize lastTp priv : CInt) : Prop :=
  if (lastTp - priv).toNat ≤ poolSize.toNat then -2 ^ 31 + poolSize.toInt - 1 ≤ lastTp.toInt
  else poolSize.toInt - 1 ≤ lastTp.toInt ∨ lastTp.toInt ≤ -2 ^ 31 + poolSize.toInt - 1

instance (poolSize lastTp priv : CInt) : Decidable (TestExact poolSize lastTp priv) := by
  unfold TestExact
  infer_instance

structure Sized (facility : Facility) (exponent : Nat) : Prop where
  low : 2 ≤ exponent
  high : exponent < 31
  poolSize : facility.tpPoolSize.toNat = 2 ^ exponent
  mask : facility.tpCntMask = facility.tpPoolSize - 1

theorem Ready.sized (ready : Ready facility pool copy exponent) : Sized facility exponent :=
  ⟨ready.low, ready.high, ready.poolSize, ready.mask⟩

theorem Sized.bounds (sized : Sized facility exponent) :
    4 ≤ facility.tpPoolSize.toNat ∧ facility.tpPoolSize.toNat ≤ 2 ^ 30 := by
  rw [sized.poolSize]
  have low := sized.low
  have high := sized.high
  have least : 2 ^ 2 ≤ 2 ^ exponent := Nat.pow_le_pow_right (by omega) low
  exact ⟨least, Nat.pow_le_pow_right (by omega) (by omega)⟩

theorem Sized.toInt_poolSize (sized : Sized facility exponent) :
    facility.tpPoolSize.toInt = facility.tpPoolSize.toNat := by
  have bounds := sized.bounds
  exact BitVec.toInt_eq_toNat_of_lt (by omega)

theorem Sized.toInt_mask (sized : Sized facility exponent) :
    facility.tpCntMask.toInt = facility.tpPoolSize.toInt - 1 := by
  have bounds := sized.bounds
  have size := sized.toInt_poolSize
  have one : (1 : CInt).toInt = 1 := rfl
  rw [sized.mask, CInt.toInt_sub_wrap (by omega), one, if_neg (by omega)]

/-- The two signed tests, on the numbers themselves. -/
def Lapped (size lastTp priv : Int) : Prop :=
  let oldest := if lastTp - size < -2 ^ 31 then lastTp - size + 2 ^ 32 else lastTp - size
  if -2 ^ 31 + size - 1 ≤ lastTp ∧ lastTp < size - 1 then lastTp < priv ∧ priv < oldest
  else priv < oldest ∨ lastTp < priv

instance (size lastTp priv : Int) : Decidable (Lapped size lastTp priv) := by
  unfold Lapped
  infer_instance

private theorem adjustTpNum_lapped (sized : Sized facility exponent) (lastTp priv : CInt) :
    adjustTpNum facility lastTp priv =
      if Lapped facility.tpPoolSize.toInt lastTp.toInt priv.toInt then
        (lastTp - facility.tpPoolSize, true) else (priv, false) := by
  have bounds := sized.bounds
  have mask := sized.toInt_mask
  have poolSize := sized.toInt_poolSize
  have zero : (0 : CInt).toInt = 0 := rfl
  have upper := lastTp.toInt_lt
  have lower := lastTp.le_toInt
  have back : (lastTp - facility.tpPoolSize).toInt = _ := CInt.toInt_sub_wrap (by omega)
  have room : (lastTp - facility.tpCntMask).toInt = _ := CInt.toInt_sub_wrap (by omega)
  have branch : (lastTp - facility.tpCntMask).toInt < 0 ↔
      -2 ^ 31 + facility.tpPoolSize.toInt - 1 ≤ lastTp.toInt ∧
        lastTp.toInt < facility.tpPoolSize.toInt - 1 := by
    rw [room, mask]
    split <;> omega
  simp only [adjustTpNum, BitVec.slt_iff_toInt_lt, zero, back, branch, Lapped]
  split <;> rfl

/-- The signed tests against the true distance. -/
private theorem lapped_iff_far {size lastTp priv distance : Int} (large : 4 ≤ size)
    (small : size ≤ 2 ^ 30) (privLower : -2 ^ 31 ≤ priv) (privUpper : priv < 2 ^ 31)
    (measured : distance = if priv ≤ lastTp then lastTp - priv else lastTp - priv + 2 ^ 32) :
    (Lapped size lastTp priv ↔ size < distance) ↔
      if distance ≤ size then -2 ^ 31 + size - 1 ≤ lastTp
      else size - 1 ≤ lastTp ∨ lastTp ≤ -2 ^ 31 + size - 1 := by
  unfold Lapped
  simp only []
  split_ifs at measured ⊢ <;> omega

private theorem ite_eq_swap_iff {α : Type} {test other : Prop} [Decidable test] [Decidable other]
    {a b : α} (different : a ≠ b) :
    (if test then a else b) = (if other then b else a) ↔ (test ↔ ¬ other) := by
  by_cases first : test
  · by_cases second : other
    · simp [first, second, different]
    · simp [first, second]
  · by_cases second : other
    · simp [first, second]
    · simp [first, second, different.symm]

/-- The code starts where the cursor calls for exactly where its tests are exact. -/
theorem adjustTpNum_eq_expected_iff (sized : Sized facility exponent) (lastTp priv : CInt) :
    adjustTpNum facility lastTp priv = expectedStart facility.tpPoolSize lastTp priv ↔
      TestExact facility.tpPoolSize lastTp priv := by
  have bounds := sized.bounds
  have poolSize := sized.toInt_poolSize
  have distance := CInt.toNat_sub_wrap lastTp priv
  have tests : (Lapped facility.tpPoolSize.toInt lastTp.toInt priv.toInt ↔ _) ↔ _ :=
    lapped_iff_far (by omega) (by omega) priv.le_toInt priv.toInt_lt distance
  have near : (lastTp - priv).toNat ≤ facility.tpPoolSize.toNat ↔
      ((lastTp - priv).toNat : Int) ≤ facility.tpPoolSize.toInt := by omega
  rw [adjustTpNum_lapped sized, expectedStart, TestExact, ite_eq_swap_iff (by simp)]
  simp only [near]
  rw [← tests, Int.not_le]

/-! ## The slots a call visits -/

/-- The numbers of the slots met from a record number on. -/
def slotsFrom (size number : Nat) (count : Nat) : List Nat :=
  (List.range count).map fun step => (number + step) % size

theorem slotsFrom_length (size number count : Nat) : (slotsFrom size number count).length = count := by
  simp [slotsFrom]

theorem slotsFrom_succ (size number count : Nat) :
    slotsFrom size number (count + 1) = number % size :: slotsFrom size (number + 1) count := by
  simp only [slotsFrom, List.range_succ_eq_map, List.map_cons, List.map_map, Nat.add_zero]
  congr 1
  apply List.map_congr_left
  intro step _
  simp only [Function.comp_apply, Nat.succ_eq_add_one]
  congr 1
  omega

theorem slotsFrom_congr {size number other : Nat} (count : Nat)
    (same : number % size = other % size) : slotsFrom size number count = slotsFrom size other count := by
  apply List.map_congr_left
  intro step _
  rw [Nat.add_mod, same, ← Nat.add_mod]

theorem slotsFrom_nodup {size number count : Nat} (turn : count ≤ size) :
    (slotsFrom size number count).Nodup := by
  apply List.Nodup.map_on _ List.nodup_range
  intro first firstIn second secondIn same
  rw [List.mem_range] at firstIn secondIn
  have cancelled : first % size = second % size := Nat.ModEq.add_left_cancel' number same
  rwa [Nat.mod_eq_of_lt (by omega), Nat.mod_eq_of_lt (by omega)] at cancelled

private theorem printIteration_visited (args : PrintArgs) (state : PrintState) (tp : Tracept)
    (going : (printIteration args state tp).stopped = false) :
    (printIteration args state tp).visited = state.visited ++ [state.tp] := by
  unfold printIteration at going ⊢
  split at going
  · rename_i blank
    rw [if_pos blank]
    rfl
  · rename_i source
    rw [if_neg source]
    split at going
    · cases going
    · rename_i room
      rw [if_neg room]
      rfl

/-- The loop passes consecutive slots, and no more than lie between its start and the
counter. -/
theorem printLoop_visited {args : PrintArgs} {copy : Block Tracept}
    (masked : args.mask.toNat + 1 = 2 ^ exponent) (fits : exponent ≤ 32)
    (running : state.stopped = false) (slot : state.tp = state.tpNum.toNat % 2 ^ exponent)
    (returned : printLoop args copy lastTp fuel state = .ok final) :
    ∃ count, count ≤ (lastTp - state.tpNum).toNat ∧
      final.visited = state.visited ++ slotsFrom (2 ^ exponent) state.tpNum.toNat count := by
  induction fuel generalizing state with
  | zero => cases returned
  | succ fuel ih =>
    rw [printLoop] at returned
    split at returned
    · cases returned
      exact ⟨0, Nat.zero_le _, by simp [slotsFrom]⟩
    · rename_i going
      have apart : state.tpNum ≠ lastTp := fun arrived => going (.inl arrived)
      have distance := toNat_sub_succ apart
      split at returned
      · cases returned
      · rename_i tp read
        rcases printIteration_cases args state tp running with stop | ⟨later, number, next⟩
        · rw [stop] at returned
          cases fuel with
          | zero => cases returned
          | succ fuel =>
            rw [printLoop, if_pos (.inr rfl)] at returned
            cases returned
            exact ⟨0, Nat.zero_le _, by simp [slotsFrom]⟩
        · have moved : (printIteration args state tp).tp =
              (printIteration args state tp).tpNum.toNat % 2 ^ exponent := by
            rw [next, number, slot, nextSlot_eq _ masked fits]
          obtain ⟨count, within, visited⟩ := ih later moved returned
          rw [number] at within visited
          refine ⟨count + 1, by omega, ?_⟩
          rw [visited, printIteration_visited args state tp later, slotsFrom_succ, slot,
            slotsFrom_congr count (toNat_succ_mod state.tpNum fits), List.append_assoc]
          rfl

private theorem openPrint_start {args : PrintArgs} {copy : Block Tracept}
    (opened : openPrint args copy tpNum overrun = .ok first) :
    first.tpNum = tpNum ∧ first.tp = slotOf args.mask tpNum ∧ first.visited = [] ∧
      first.stopped = false := by
  simp only [openPrint] at opened
  split at opened
  · split at opened
    · cases opened
    · split at opened <;> cases opened <;> exact ⟨rfl, rfl, rfl, rfl⟩
  · cases opened
    exact ⟨rfl, rfl, rfl, rfl⟩

/-- A call that returns has visited a run of consecutive slots from its start on. -/
theorem printCopy_visited {build : Build} {args : PrintArgs} {facility : Facility}
    {copy : Block Tracept} {priv : Option CInt} {printout : Printout}
    (masked : args.mask.toNat + 1 = 2 ^ exponent) (fits : exponent ≤ 32)
    (returned : printCopy build args facility lastTp copy priv = .ok printout) :
    ∃ count, count ≤ (lastTp - (startTpNum facility lastTp priv).1).toNat ∧
      printout.visited =
        slotsFrom (2 ^ exponent) (startTpNum facility lastTp priv).1.toNat count := by
  have blank : ∃ count, count ≤ (lastTp - (startTpNum facility lastTp priv).1).toNat ∧
      [] = slotsFrom (2 ^ exponent) (startTpNum facility lastTp priv).1.toNat count :=
    ⟨0, Nat.zero_le _, rfl⟩
  unfold printCopy at returned
  split at returned
  · unfold disablingErr at returned
    split at returned
    · cases returned
      exact blank
    · cases returned
  · split at returned
    · cases returned
      exact blank
    · simp only [bind, Except.bind, pure, Except.pure] at returned
      split at returned
      · cases returned
      · rename_i first opened
        split at returned
        · cases returned
        · rename_i final loop
          cases returned
          obtain ⟨number, tp, visited, running⟩ := openPrint_start opened
          obtain ⟨count, within, passed⟩ := printLoop_visited masked fits running
            (by rw [tp, number, slotOf_masked masked]) loop
          rw [number] at within passed
          exact ⟨count, within, by simpa [visited] using passed⟩

theorem Sized.oldest_apart (sized : Sized facility exponent) (lastTp : CInt) :
    lastTp - facility.tpPoolSize ≠ lastTp := by
  have bounds := sized.bounds
  intro same
  have size : facility.tpPoolSize = 0 := by
    have back := sub_sub_cancel lastTp facility.tpPoolSize
    rw [same, sub_self] at back
    exact back.symm
  rw [size] at bounds
  exact absurd bounds.1 (by decide)

theorem startTpNum_apart (sized : Sized facility exponent) (lastTp : CInt) (priv : Option CInt)
    (overrun : (startTpNum facility lastTp priv).2 = true) :
    (startTpNum facility lastTp priv).1 ≠ lastTp := by
  cases priv with
  | none => cases overrun
  | some priv =>
    rw [startTpNum, adjustTpNum_lapped sized] at overrun ⊢
    split at overrun
    · rename_i lapped
      rw [if_pos lapped]
      exact sized.oldest_apart lastTp
    · cases overrun

/-- A call on a ready facility returns; it changes nothing but the copy, and prints the
slots of the pool from its start on. -/
theorem printTraceStack_printed (build : Build) (flags size : CInt) (dst : Bool)
    (past : Nat → List UInt8) (priv : Option CInt) (ready : Ready facility pool copy exponent)
    (covered : poolCovered facility.tpPoolSize) (wide : size.slt neededBufsize = false)
    (behind : priv ≠ some facility.nextTp)
    (start : startTpNum facility facility.nextTp priv = (tpNum, overrun)) :
    ∃ printout copied done,
      printTraceStack build flags dst size priv past facility =
        .ok (printout, { facility with tpPoolCopy := some copied }) ∧
      Ready { facility with tpPoolCopy := some copied } pool copied exponent ∧
      Printed ⟨flags, dst, size, facility.tpCntMask, past⟩
        (ringRead pool.cell (2 ^ exponent) tpNum.toNat (facility.nextTp - tpNum).toNat)
        tpNum overrun priv printout done := by
  obtain ⟨copied, locked, readyAfter, agree⟩ := lockedCopy_ready ready
  have fits := ready.fits
  have same := (startTpNum_copied copied facility.nextTp priv).trans start
  have apart := startTpNum_apart ready.sized facility.nextTp priv
  rw [start] at apart
  obtain ⟨printout, done, printed, shape⟩ := printCopy_printed build
    ⟨flags, dst, size, facility.tpCntMask, past⟩ { facility with tpPoolCopy := some copied } priv
    ready.mask_toNat fits (readyAfter.covered covered).2 wide behind same apart
  have room := (ready.covered covered).1
  have met := ringRead_agree copied.cell pool.cell (2 ^ exponent) tpNum.toNat
    (facility.nextTp - tpNum).toNat
    fun step _ => agree _ (Nat.lt_of_lt_of_le (Nat.mod_lt _ (Nat.two_pow_pos exponent)) room)
  rw [met] at shape
  refine ⟨printout, copied, done, ?_, readyAfter, shape⟩
  simp only [printTraceStack, locked, printed, bind, Except.bind, pure, Except.pure]

theorem printTraceStack_arrived (build : Build) (flags size : CInt) (dst : Bool)
    (past : Nat → List UInt8) (ready : Ready facility pool copy exponent)
    (wide : size.slt neededBufsize = false) :
    ∃ copied, printTraceStack build flags dst size (some facility.nextTp) past facility =
        .ok (⟨0, some facility.nextTp, [], [], false⟩, { facility with tpPoolCopy := some copied }) ∧
      Ready { facility with tpPoolCopy := some copied } pool copied exponent := by
  obtain ⟨copied, locked, readyAfter, _⟩ := lockedCopy_ready ready
  refine ⟨copied, ?_, readyAfter⟩
  simp [printTraceStack, locked, printCopy, wide, bind, Except.bind, pure, Except.pure]

theorem printTraceStack_returns (build : Build) (flags size : CInt) (dst : Bool)
    (past : Nat → List UInt8) (priv : Option CInt) (ready : Ready facility pool copy exponent)
    (covered : poolCovered facility.tpPoolSize) (wide : size.slt neededBufsize = false) :
    ∃ result, printTraceStack build flags dst size priv past facility = .ok result := by
  by_cases arrived : priv = some facility.nextTp
  · subst arrived
    obtain ⟨copied, returned, _⟩ := printTraceStack_arrived build flags size dst past ready wide
    exact ⟨_, returned⟩
  · obtain ⟨printout, copied, _, returned, _⟩ :=
      printTraceStack_printed build flags size dst past priv ready covered wide arrived rfl
    exact ⟨_, returned⟩

/-- What a call with a cursor is to do: find the right start, visit at most `pool_size`
slots and none twice, and return where the copy has room for every slot. -/
structure OverrunExact (build : Build) (flags size : CInt) (dst : Bool) (past : Nat → List UInt8)
    (facility : Facility) (priv : CInt) : Prop where
  start : startTpNum facility facility.nextTp (some priv) =
    expectedStart facility.tpPoolSize facility.nextTp priv
  visits : ∀ printout after,
    printTraceStack build flags dst size (some priv) past facility = .ok (printout, after) →
      printout.visited.length ≤ facility.tpPoolSize.toNat ∧ printout.visited.Nodup
  returns : size.slt neededBufsize = false → poolCovered facility.tpPoolSize →
    ∃ result, printTraceStack build flags dst size (some priv) past facility = .ok result

theorem expectedStart_distance (poolSize lastTp priv : CInt) :
    (lastTp - (expectedStart poolSize lastTp priv).1).toNat ≤ poolSize.toNat := by
  unfold expectedStart
  split
  · assumption
  · rw [sub_sub_cancel]

/-- The call finds the right start, and visits no slot twice, exactly where the signed
tests agree with the wrapping distance. -/
theorem overrun_exact_iff (build : Build) (flags size : CInt) (dst : Bool)
    (past : Nat → List UInt8) (priv : CInt) (ready : Ready facility pool copy exponent)
    (_apart : priv ≠ facility.nextTp) :
    OverrunExact build flags size dst past facility priv ↔
      TestExact facility.tpPoolSize facility.nextTp priv := by
  have fits := ready.fits
  obtain ⟨copied, locked, readyAfter, _⟩ := lockedCopy_ready ready
  constructor
  · intro exact
    exact (adjustTpNum_eq_expected_iff ready.sized _ _).mp exact.start
  · intro test
    have start : startTpNum facility facility.nextTp (some priv) = _ :=
      (adjustTpNum_eq_expected_iff ready.sized facility.nextTp priv).mpr test
    have near := expectedStart_distance facility.tpPoolSize facility.nextTp priv
    refine ⟨start, ?_, ?_⟩
    · intro printout after returned
      simp only [printTraceStack, locked, bind, Except.bind, pure, Except.pure] at returned
      split at returned
      · cases returned
      · rename_i printed
        cases returned
        have visits := printCopy_visited readyAfter.mask_toNat fits printed
        have same : startTpNum { facility with tpPoolCopy := some copied } facility.nextTp
            (some priv) = expectedStart facility.tpPoolSize facility.nextTp priv := start
        rw [same] at visits
        obtain ⟨count, within, visited⟩ := visits
        rw [ready.poolSize] at near
        rw [visited, slotsFrom_length, ready.poolSize]
        exact ⟨by omega, slotsFrom_nodup (by omega)⟩
    · intro wide covered
      exact printTraceStack_returns build flags size dst past (some priv) ready covered wide

/-- A reader that opened the device after two tracepoints on a pool of four: three records
behind 0, its five slots include one slot twice. -/
theorem overrun_missed :
    let facility := { Facility.granted .kernel 1 4 with nextTp := 2 }
    startTpNum facility 2 (some (-3)) = (-3, false) ∧
      expectedStart 4 2 (-3) = (-2, true) ∧
      ¬ OverrunExact .kernel 0 260 true (fun _ => []) facility (-3) := by
  refine ⟨by decide, by decide, ?_⟩
  intro exact
  have start := exact.start
  revert start
  decide

/-- At `INT_MAX` the tests are exact for the same distance. -/
theorem overrun_exact_top :
    let facility := { Facility.granted .kernel 1 4 with nextTp := 0x7fffffff }
    OverrunExact .kernel 0 260 true (fun _ => []) facility 0x7ffffffa := by
  intro facility
  have ready : Ready facility ⟨recordsIn (poolMemSize 4), fun _ => Tracept.zero⟩
      ⟨recordsIn (poolMemSize 4), fun _ => Tracept.zero⟩ 2 :=
    ⟨by decide, by decide, by decide, by decide, rfl, rfl, rfl, rfl, rfl, rfl⟩
  exact (overrun_exact_iff .kernel 0 260 true (fun _ => []) 0x7ffffffa ready (by decide)).mpr
    (by decide)

end TrippingRobot.Runtrace
