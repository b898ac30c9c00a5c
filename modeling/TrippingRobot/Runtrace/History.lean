import TrippingRobot.Runtrace.Printing
import Mathlib.Data.List.Forall2

/-! What the ring remembers of the tracepoints that were asked for, through any
number of counter wraps and reconfigurations, and how a full print shows it. -/

namespace TrippingRobot.Runtrace

open TrippingRobot.Data

structure Request where
  now : Timeval
  line : CInt
  src : CString
  msg : Option CString

/-- The message as a reader of the trace sees it; NULL shows as nothing. -/
def Request.text (request : Request) : List UInt8 := (request.msg.map CString.bytes).getD []

/-- A message that leaves room for its terminator. -/
def Request.Short (request : Request) : Prop :=
  ∀ msg, request.msg = some msg → msg.bytes.length < rtMsgMax

/-- `pool_size * sizeof(struct tracept)` fits an `int`. -/
def FitsInt (poolSize : CInt) : Prop := poolSize.toNat * sizeofTracept.toNat < 2 ^ 31

/-- The facilities a run can reach, with the requests made since the pool was
last cleared. Every call returned, and every setup call returned 0. -/
inductive Traced (build : Build) : Facility → List Request → Prop
  | start : Traced build Facility.start []
  | init (run : Traced build facility requests) (fresh : facility.lockInitialised = false)
      (returned : runtraceInit build answers threads facility = .ok (0, ready))
      (fits : FitsInt ready.tpPoolSize) : Traced build ready []
  | reconfigure (run : Traced build facility requests)
      (returned : runtraceReconfigure build answers threads size facility = .ok (0, ready))
      (fits : FitsInt size) : Traced build ready []
  | make (run : Traced build facility requests) (setUp : facility.tpPool.isSome) (request : Request)
      (returned : makeTracept build answers request.now request.line (some request.src) request.msg
        facility = .ok after)
      (short : request.Short) : Traced build after (requests ++ [request])
  | print (run : Traced build facility requests)
      (returned : printTraceStack build flags dst size priv past facility = .ok (printout, after)) :
      Traced build after requests

structure Stores (tp : Tracept) (request : Request) : Prop where
  time : tp.time = request.now
  line : tp.line = request.line
  src : tp.src = some request.src
  msg : ∀ past, msgText tp.msg past = request.text

/-- A ready facility whose ring holds a record for each of the newest requests. -/
structure Remembers (facility : Facility) (requests : List Request) (pool copy : Block Tracept)
    (exponent : Nat) (stored : List Tracept) : Prop where
  ready : Ready facility pool copy exponent
  covered : poolCovered facility.tpPoolSize
  ring : RingHolds pool.cell (2 ^ exponent) facility.nextTp.toNat Tracept.zero stored
  same : List.Forall₂ Stores stored requests

theorem FitsInt.covered {poolSize : CInt} (fits : FitsInt poolSize) : poolCovered poolSize := by
  have record : sizeofTracept.toNat = 232 := rfl
  rw [FitsInt, record] at fits
  have wide : (poolSize.signExtend 64).toNat = poolSize.toNat := by
    rw [BitVec.signExtend_eq_setWidth_of_msb_false, BitVec.toNat_setWidth]
    · omega
    · simp [BitVec.msb_eq_decide]
      omega
  have bytes : (poolMemSize poolSize).toNat = poolSize.toNat * 232 := by
    rw [poolMemSize, BitVec.toNat_setWidth, BitVec.toNat_mul, wide, record]
    omega
  have kept : ((poolMemSize poolSize).signExtend 64).toNat = poolSize.toNat * 232 := by
    rw [BitVec.signExtend_eq_setWidth_of_msb_false, BitVec.toNat_setWidth, bytes]
    · omega
    · simp [BitVec.msb_eq_decide, bytes]
      omega
  rw [poolCovered, recordsIn, kept, record, Nat.mul_div_cancel _ (by omega)]

theorem Stores.of_storeTracept (request : Request) (old : Tracept) (short : request.Short) :
    Stores (storeTracept old request.now request.line (some request.src) request.msg) request where
  time := rfl
  line := rfl
  src := rfl
  msg past := by
    cases given : request.msg with
    | none => simpa [storeTracept, Request.text, given] using msgText_storeMsg_none old.msg past
    | some msg =>
      simpa [storeTracept, Request.text, given] using
        msgText_storeMsg old.msg msg (short msg given) past

theorem Remembers.blank (ready : Ready facility ⟨count, fun _ => Tracept.zero⟩ copy exponent)
    (covered : poolCovered facility.tpPoolSize) :
    Remembers facility [] ⟨count, fun _ => Tracept.zero⟩ copy exponent [] :=
  ⟨ready, covered, RingHolds.blank _ _ _, .nil⟩

/-- One more tracepoint pushes the oldest record out, also where the counter wraps. -/
theorem Remembers.make (holds : Remembers facility requests pool copy exponent stored)
    (request : Request)
    (returned : makeTracept build answers request.now request.line (some request.src) request.msg
      facility = .ok after)
    (short : request.Short) :
    ∃ pool stored, Remembers after (requests ++ [request]) pool copy exponent stored := by
  have positive : 0 < 2 ^ exponent := Nat.two_pow_pos exponent
  have inside : facility.nextTp.toNat % 2 ^ exponent < pool.capacity :=
    Nat.lt_of_lt_of_le (Nat.mod_lt _ positive) (holds.ready.covered holds.covered).1
  rw [makeTracept_ready holds.ready inside] at returned
  cases returned
  let slot := facility.nextTp.toNat % 2 ^ exponent
  let record := storeTracept (pool.cell slot) request.now request.line (some request.src) request.msg
  refine ⟨recorded pool slot request.now request.line (some request.src) request.msg,
    stored ++ [record], holds.ready.recorded slot, holds.covered, ?_, ?_⟩
  · have moved := holds.ring.write positive record
    exact moved.congr (toNat_succ_mod _ (by have := holds.ready.high; omega)).symm
  · exact List.rel_append holds.same (.cons (Stores.of_storeTracept request _ short) .nil)

theorem Remembers.print (holds : Remembers facility requests pool copy exponent stored)
    (returned : printTraceStack build flags dst size priv past facility = .ok (printout, after)) :
    ∃ copied, Remembers after requests pool copied exponent stored := by
  obtain ⟨copied, locked, ready, _⟩ := lockedCopy_ready holds.ready
  simp only [printTraceStack, locked, bind, Except.bind, pure, Except.pure] at returned
  split at returned
  · cases returned
  · cases returned
    exact ⟨copied, ready, holds.covered, holds.ring, holds.same⟩

private theorem lockedCopy_without_pool (empty : facility.tpPool = none) :
    lockedCopy facility ≠ .ok result := by
  unfold lockedCopy
  split
  · simp
  · simp [empty]

/-- The invariant of every run: the lock is free, and a pool that exists remembers. -/
theorem Traced.remembers (run : Traced build facility requests) :
    facility.wrLocked = false ∧ (facility.tpPool.isSome →
      ∃ pool copy exponent stored, Remembers facility requests pool copy exponent stored) := by
  induction run with
  | start => exact ⟨rfl, by simp [Facility.start]⟩
  | init _ _ returned fits ih =>
    obtain ⟨_, exponent, ready⟩ := Ready.of_init returned ih.1
    exact ⟨ready.unlocked, fun _ => ⟨_, _, exponent, [], .blank ready fits.covered⟩⟩
  | reconfigure _ returned fits ih =>
    obtain ⟨size, _, exponent, ready⟩ := Ready.of_reconfigure returned ih.1
    exact ⟨ready.unlocked, fun _ => ⟨_, _, exponent, [], .blank ready (size ▸ fits.covered)⟩⟩
  | make _ setUp request returned short ih =>
    obtain ⟨pool, copy, exponent, stored, holds⟩ := ih.2 setUp
    obtain ⟨pool, stored, kept⟩ := holds.make request returned short
    exact ⟨kept.ready.unlocked, fun _ => ⟨pool, copy, exponent, stored, kept⟩⟩
  | @print facility _ _ _ _ _ _ _ _ _ returned ih =>
    cases empty : facility.tpPool with
    | none =>
      simp only [printTraceStack, bind, Except.bind] at returned
      split at returned
      · cases returned
      · rename_i locked
        exact absurd locked (lockedCopy_without_pool empty)
    | some _ =>
      obtain ⟨pool, copy, exponent, stored, holds⟩ := ih.2 (by simp [empty])
      obtain ⟨copied, kept⟩ := holds.print returned
      exact ⟨kept.ready.unlocked, fun _ => ⟨pool, copied, exponent, stored, kept⟩⟩

theorem Traced.recordable (run : Traced build facility requests) (setUp : facility.tpPool.isSome)
    (answers : Answers) (request : Request) (short : request.Short) :
    ∃ after, makeTracept build answers request.now request.line (some request.src) request.msg
        facility = .ok after ∧
      Traced build after (requests ++ [request]) ∧ after.tpPool.isSome ∧
      after.tpPoolSize = facility.tpPoolSize := by
  obtain ⟨pool, copy, exponent, stored, holds⟩ := run.remembers.2 setUp
  have inside : facility.nextTp.toNat % 2 ^ exponent < pool.capacity :=
    Nat.lt_of_lt_of_le (Nat.mod_lt _ (Nat.two_pow_pos exponent))
      (holds.ready.covered holds.covered).1
  have returned : makeTracept build answers request.now request.line (some request.src) request.msg
      facility = _ := makeTracept_ready holds.ready inside
  exact ⟨_, returned, .make run setUp request returned short, rfl, rfl⟩

/-- The texts a full print owes its reader: each request's columns, with the
time difference to the request before it. -/
def historyText (flags : CInt) (prevTime : BitVec 64) : List Request → List (List UInt8)
  | [] => []
  | request :: rest =>
    let time := pointTime flags request.now
    pointText flags time prevTime request.src.bytes request.line request.text ::
      historyText flags time rest

/-- A printed line is the tracepoint of a request. -/
def Line.Shows (line : Line) (request : Request) : Prop :=
  ∃ tpNum tp text, line = .point tpNum tp text ∧ Stores tp request

private theorem pointLines_blank (args : PrintArgs) (tpNum : CInt) (slot : Nat)
    (prevTime : BitVec 64) (count : Nat) (cells : List Tracept) :
    ∃ tpNum' slot', pointLines args tpNum slot prevTime (List.replicate count Tracept.zero ++ cells) =
      pointLines args tpNum' slot' prevTime cells := by
  induction count generalizing tpNum slot with
  | zero => exact ⟨tpNum, slot, rfl⟩
  | succ count ih =>
    obtain ⟨tpNum', slot', same⟩ := ih (tpNum + 1) (nextSlot args.mask slot)
    refine ⟨tpNum', slot', ?_⟩
    rw [List.replicate_succ, List.cons_append, ← same]
    rfl

private theorem pointLines_history (args : PrintArgs) (tpNum : CInt) (slot : Nat)
    (prevTime : BitVec 64) (same : List.Forall₂ Stores cells requests) :
    List.Forall₂ Line.Shows (pointLines args tpNum slot prevTime cells) requests ∧
      (pointLines args tpNum slot prevTime cells).map Line.text =
        historyText args.flags prevTime requests := by
  induction same generalizing tpNum slot prevTime with
  | nil => exact ⟨.nil, rfl⟩
  | @cons tp request cells requests stores rest ih =>
    have source : tp.src.isNone = false := by simp [stores.src]
    have later := ih (tpNum + 1) (nextSlot args.mask slot) (pointTime args.flags tp.time)
    simp only [pointLines, source, Bool.false_eq_true, ↓reduceIte, printTracePoint]
    refine ⟨.cons ⟨tpNum, tp, _, rfl, stores⟩ later.1, ?_⟩
    rw [List.map_cons, later.2, historyText, stores.src, stores.line, stores.msg, stores.time]
    rfl

theorem pointLines_newest (args : PrintArgs) (tpNum : CInt) (slot : Nat)
    (prevTime : BitVec 64) (count : Nat) (same : List.Forall₂ Stores cells requests) :
    let lines := pointLines args tpNum slot prevTime (List.replicate count Tracept.zero ++ cells)
    List.Forall₂ Line.Shows lines requests ∧
      lines.map Line.text = historyText args.flags prevTime requests := by
  obtain ⟨tpNum', slot', shifted⟩ := pointLines_blank args tpNum slot prevTime count cells
  simp only [shifted]
  exact pointLines_history args tpNum' slot' prevTime same

private theorem textLength_take (args : PrintArgs) (tpNum : CInt) (slot : Nat)
    (prevTime : BitVec 64) (done : Nat) (cells : List Tracept) :
    textLength (pointLines args tpNum slot prevTime (cells.take done)) ≤
      textLength (pointLines args tpNum slot prevTime cells) := by
  induction cells generalizing tpNum slot prevTime done with
  | nil => simp
  | cons tp rest ih =>
    cases done with
    | zero => simp [pointLines, textLength]
    | succ done =>
      simp only [List.take_succ_cons, pointLines]
      split
      · exact ih _ _ _ _
      · have later := ih (tpNum + 1) (nextSlot args.mask slot)
          (printTracePoint args.flags tp (args.past slot) prevTime).2 done
        simp only [textLength, List.map_cons, List.sum_cons] at later ⊢
        omega

/-- The slots a full print walks are the blanks and then the newest records. -/
theorem Remembers.cells (holds : Remembers facility requests pool copy exponent stored)
    {copied : Block Tracept}
    (agree : ∀ slot, slot < pool.capacity → copied.cell slot = pool.cell slot) :
    ringRead copied.cell (2 ^ exponent) (facility.nextTp - facility.tpPoolSize).toNat (2 ^ exponent) =
      List.replicate (2 ^ exponent - stored.length) Tracept.zero ++ recent (2 ^ exponent) stored := by
  have positive : 0 < 2 ^ exponent := Nat.two_pow_pos exponent
  have inside := (holds.ready.covered holds.covered).1
  have copied_cells := ringRead_agree copied.cell pool.cell (2 ^ exponent)
    (facility.nextTp - facility.tpPoolSize).toNat (2 ^ exponent)
    (fun step _ => agree _ (Nat.lt_of_lt_of_le (Nat.mod_lt _ positive) inside))
  have back : (facility.nextTp - facility.tpPoolSize).toNat % 2 ^ exponent =
      facility.nextTp.toNat % 2 ^ exponent := by
    have forward := toNat_add_mod (facility.nextTp - facility.tpPoolSize) facility.tpPoolSize
      (by have := holds.ready.high; omega : exponent ≤ 32)
    rw [BitVec.sub_add_cancel, holds.ready.poolSize, Nat.add_mod_right] at forward
    exact forward.symm
  rw [copied_cells, ringRead_congr _ _ _ back]
  exact holds.ring.tail 0 (2 ^ exponent) (by omega)

private theorem Printed.unstopped (bound : Nat) {priv : Option CInt}
    (shape : Printed args cells tpNum overrun priv printout done)
    (total : textLength printout.out ≤ bound)
    (room : args.dst = false ∨ (bound : Int) + neededBufsize.toInt ≤ args.size.toInt) :
    printout.stopped = false := by
  by_contra running
  obtain ⟨buffered, full⟩ := shape.full (by simpa using running)
  have roomy : (bound : Int) + neededBufsize.toInt ≤ args.size.toInt := by
    rcases room with nowhere | roomy
    · simp [buffered] at nowhere
    · exact roomy
  have needed : neededBufsize.toInt = 260 := rfl
  have top : args.size.toInt < 2 ^ 31 := args.size.toInt_lt
  have left : (args.size - neededBufsize).toInt = args.size.toInt - 260 := by
    rw [CInt.toInt_sub (by omega) (by omega), needed]
  have counted : (BitVec.ofNat 32 (textLength printout.out)).toInt = textLength printout.out :=
    CInt.toInt_ofNat (by omega)
  rw [shape.returned, if_pos buffered, BitVec.slt_iff_toInt_lt, left, counted] at full
  omega

/-- A print without a cursor walks `pool_size` slots and shows the newest
requests, each once and oldest first; text that fits is never cut short. -/
theorem fullPrint_history (run : Traced build facility requests)
    (setUp : facility.tpPool.isSome) (wide : size.slt neededBufsize = false) :
    ∃ printout after,
      printTraceStack build flags dst size none past facility = .ok (printout, after) ∧
      (printout.stopped = false →
        printout.visited.length = facility.tpPoolSize.toNat ∧
        printout.out.length = min facility.tpPoolSize.toNat requests.length ∧
        List.Forall₂ Line.Shows printout.out (recent facility.tpPoolSize.toNat requests) ∧
        printout.out.map Line.text =
          historyText flags 0 (recent facility.tpPoolSize.toNat requests)) ∧
      (dst = false ∨ (((historyText flags 0 (recent facility.tpPoolSize.toNat requests)).map
          List.length).sum : Int) + neededBufsize.toInt ≤ size.toInt →
        printout.stopped = false) := by
  obtain ⟨pool, copy, exponent, stored, holds⟩ := run.remembers.2 setUp
  obtain ⟨copied, locked, ready, agree⟩ := lockedCopy_ready holds.ready
  have high := holds.ready.high
  have poolSize := holds.ready.poolSize
  have distance : (facility.nextTp - (facility.nextTp - facility.tpPoolSize)).toNat = 2 ^ exponent := by
    rw [sub_sub_cancel, poolSize]
  obtain ⟨printout, done, printed, shape⟩ := printCopy_printed build
    ⟨flags, dst, size, facility.tpCntMask, past⟩ { facility with tpPoolCopy := some copied } none
    ready.mask_toNat (by omega) (ready.covered holds.covered).2 wide (by simp) rfl (by simp)
  rw [distance] at shape
  have walked := holds.cells agree
  have newest : List.Forall₂ Stores (recent (2 ^ exponent) stored) (recent (2 ^ exponent) requests) := by
    rw [recent, recent, holds.same.length_eq]
    exact List.forall₂_drop _ holds.same
  have shown := pointLines_newest ⟨flags, dst, size, facility.tpCntMask, past⟩
    (facility.nextTp - facility.tpPoolSize)
    (slotOf facility.tpCntMask (facility.nextTp - facility.tpPoolSize)) 0
    (2 ^ exponent - stored.length) newest
  rw [← walked] at shown
  have out := shape.out
  simp only [Bool.false_eq_true, false_and, ↓reduceIte, List.nil_append] at out
  rw [poolSize]
  refine ⟨printout, { facility with tpPoolCopy := some copied }, ?_, ?_, ?_⟩
  · simp [printTraceStack, locked, printed, bind, Except.bind, pure, Except.pure]
  · intro running
    have whole : done = 2 ^ exponent := by
      have within := shape.within
      have unstopped := mt shape.stopped.mpr (by simp [running])
      rw [ringRead_length] at within unstopped
      omega
    rw [List.take_of_length_le (by simp [whole])] at out
    refine ⟨shape.visited.trans whole, ?_, out ▸ shown.1, out ▸ shown.2⟩
    rw [out, shown.1.length_eq, recent_length]
  · intro room
    refine shape.unstopped ((historyText flags 0
      (recent (2 ^ exponent) requests)).map List.length).sum ?_ room
    rw [← shown.2, out]
    refine (textLength_take _ _ _ _ _ _).trans_eq ?_
    simp [textLength, Function.comp_def]

/-- Two tracepoints on a pool of four, printed to stderr. -/
theorem fullPrint_history_two :
    let first : Request := ⟨⟨5, 0⟩, 10, ⟨[97], by decide⟩, some ⟨[120, 121], by decide⟩⟩
    let second : Request := ⟨⟨5, 7⟩, 11, ⟨[97], by decide⟩, none⟩
    ∃ facility printout after,
      printTraceStack .cxx11 0x1e false 260 none (fun _ => []) facility = .ok (printout, after) ∧
      printout.visited.length = 4 ∧
      List.Forall₂ Line.Shows printout.out [first, second] := by
  intro first second
  have returned : runtraceInit .cxx11 (.granting 4) 1 Facility.start = _ :=
    runtraceInit_granted (by decide) (by decide) (by decide) (by decide)
  have fresh : Traced .cxx11 (Facility.granted .cxx11 1 4) [] :=
    .init .start rfl returned (by unfold FitsInt; decide)
  obtain ⟨one, _, run, setUp, size⟩ := fresh.recordable rfl (.granting 4) first
    (by rintro msg ⟨⟩; decide)
  obtain ⟨two, _, run, setUp, same⟩ := run.recordable setUp (.granting 4) second
    (by rintro msg ⟨⟩)
  have four : two.tpPoolSize = 4 := same.trans size
  obtain ⟨printout, after, printed, whole, roomy⟩ := fullPrint_history run setUp
    (by decide : (260 : CInt).slt neededBufsize = false)
  obtain ⟨steps, _, shown, _⟩ := whole (roomy (.inl rfl))
  rw [four] at steps shown
  exact ⟨two, printout, after, printed, steps, shown⟩

end TrippingRobot.Runtrace
