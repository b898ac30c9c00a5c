import TrippingRobot.Machine.Fallible
import TrippingRobot.Runtrace.Bounds
import Mathlib.Tactic.NormNum
import Mathlib.Tactic.FieldSimp
import Mathlib.Data.Rat.Cast.Order

/-! The time columns of the printed records, read back as numbers. -/

namespace TrippingRobot.Runtrace

open TrippingRobot.Data
open TrippingRobot.Machine

/-- A time that can be traced on a platform with 64-bit long: after the epoch, before the
seconds outgrow 32 bits, the microseconds below a second. -/
structure Timeval.Current (time : Timeval) : Prop where
  started : 0 < time.tvSec.toInt
  seconds : time.tvSec.toInt < 2 ^ 32
  positive : 0 ≤ time.tvUsec.toInt
  micros : time.tvUsec.toInt < 10 ^ 6

/-- Milliseconds or microseconds. -/
def unitsPerSecond (flags : CInt) : Nat := if isSet flags rtPrintTimeMs then 1000 else 1000000

/-- A time in the unit of the flags; milliseconds are cut off. -/
def Timeval.units (flags : CInt) (time : Timeval) : Int :=
  time.tvSec.toInt * unitsPerSecond flags + time.tvUsec.toInt / (1000000 / unitsPerSecond flags)

/-- A time in seconds, as exact as the unit of the flags. -/
def Timeval.stamp (flags : CInt) (time : Timeval) : ℚ := time.units flags / unitsPerSecond flags

/-- Where the difference column starts. -/
def diffText (flags : CInt) (text : List UInt8) : List UInt8 :=
  if isSet flags rtPrintTime then afterWord text else text

structure TrueLine (flags : CInt) (before : Option Timeval) (tp : Tracept) (text : List UInt8) :
    Prop where
  time : isSet flags rtPrintTime = true → readDecimal text = some (tp.time.stamp flags)
  diff : isSet flags rtPrintDiff = true → ∀ previous, before = some previous →
    readDecimal (diffText flags text) =
      some ((tp.time.units flags - previous.units flags : Int) : ℚ)

/-- The lines of one call, each with the time of the record printed before it. -/
def TrueTimes (flags : CInt) : Option Timeval → List Line → Prop
  | _, [] => True
  | before, .ellipsis :: rest => TrueTimes flags before rest
  | before, .point _ tp text :: rest =>
    TrueLine flags before tp text ∧ TrueTimes flags (some tp.time) rest

/-- Consecutive records are less than 2^31 units apart. -/
def NearTimes (flags : CInt) : Option Timeval → List Line → Prop
  | _, [] => True
  | before, .ellipsis :: rest => NearTimes flags before rest
  | before, .point _ tp _ :: rest =>
    (∀ previous, before = some previous →
      -2 ^ 31 ≤ tp.time.units flags - previous.units flags ∧
        tp.time.units flags - previous.units flags < 2 ^ 31) ∧
      NearTimes flags (some tp.time) rest

/-! ## Columns -/

/-- A number of seconds with the fraction that stands behind its point. -/
def fixedPoint (width : Nat) (whole fraction : CInt) : List UInt8 :=
  formatUnsigned 6 ' ' whole ++ ascii ['.'] ++ formatUnsigned width '0' fraction

theorem fixedPoint_shape (width : Nat) (whole fraction : CInt) (rest : List UInt8) :
    ∃ count, fixedPoint width whole fraction ++ (32 :: rest) =
      List.replicate count 32 ++ (ascii (Nat.toDigits 10 whole.toNat) ++
        46 :: (formatUnsigned width '0' fraction ++ 32 :: rest)) := by
  refine ⟨6 - (Nat.toDigits 10 whole.toNat).length, ?_⟩
  have point : ascii ['.'] = [46] := rfl
  simp only [fixedPoint, formatUnsigned, padLeft_blank, point, List.append_assoc,
    List.cons_append, List.nil_append]

theorem formatUnsigned_isDigitByte (width : Nat) (value : CInt) :
    ∀ byte ∈ formatUnsigned width '0' value, isDigitByte byte = true :=
  ascii_isDigitByte (zeros_isDigit _ _)

theorem readDecimal_fixedPoint {width : Nat} (positive : 0 < width) (whole : CInt) {fraction : CInt}
    (small : fraction.toNat < 10 ^ width) (rest : List UInt8) :
    readDecimal (fixedPoint width whole fraction ++ (32 :: rest)) =
      some ((whole.toNat : ℚ) + fraction.toNat / 10 ^ width) := by
  have digits := ascii_isDigitByte (toDigits_isDigit whole.toNat)
  have nonempty := ascii_toDigits_ne_nil whole.toNat
  have number : numeral (formatUnsigned width '0' fraction) = fraction.toNat :=
    numeral_zeros _ _
  obtain ⟨count, shape⟩ := fixedPoint_shape width whole fraction rest
  rw [shape, readDecimal_blanks, readDecimal_unsigned digits nonempty,
    readUnsigned_fraction digits nonempty (formatUnsigned_isDigitByte width fraction),
    numeral_toDigits, number, formatUnsigned_length positive '0' small]

theorem afterWord_fixedPoint (width : Nat) (whole fraction : CInt) (rest : List UInt8) :
    afterWord (fixedPoint width whole fraction ++ (32 :: rest)) = 32 :: rest := by
  obtain ⟨count, shape⟩ := fixedPoint_shape width whole fraction rest
  let word := ascii (Nat.toDigits 10 whole.toNat) ++ 46 :: formatUnsigned width '0' fraction
  have visible : ∀ byte ∈ word, byte ≠ 32 := by
    intro byte member
    rcases List.mem_append.mp member with digit | others
    · exact isDigitByte_ne_blank (ascii_isDigitByte (toDigits_isDigit _) byte digit)
    · rcases List.mem_cons.mp others with rfl | digit
      · decide
      · exact isDigitByte_ne_blank (formatUnsigned_isDigitByte width fraction byte digit)
  have padded := afterWord_padded count visible (by simp [word]) rest
  rw [shape]
  simpa [word] using padded

theorem readDecimal_signed (width : Nat) (value : CInt) (rest : List UInt8) :
    readDecimal (formatSigned width ['+'] value ++ (32 :: rest)) = some (value.toInt : ℚ) := by
  have digits := ascii_isDigitByte (toDigits_isDigit value.toInt.natAbs)
  have nonempty := ascii_toDigits_ne_nil value.toInt.natAbs
  have whole := readUnsigned_whole digits nonempty rest
  rw [numeral_toDigits] at whole
  have minus (text : List Char) : ascii (['-'] ++ text) = 45 :: ascii text := rfl
  have plus (text : List Char) : ascii (['+'] ++ text) = 43 :: ascii text := rfl
  rw [formatSigned, padLeft_blank, List.append_assoc, readDecimal_blanks]
  by_cases negative : value.toInt < 0
  · rw [if_pos negative, minus, List.cons_append, readDecimal_minus, whole, Option.map_some,
      Nat.cast_natAbs, abs_of_neg negative]
    simp
  · rw [if_neg negative, plus, List.cons_append, readDecimal_plus, whole, Nat.cast_natAbs,
      abs_of_nonneg (not_lt.mp negative)]

/-! ## The arithmetic of the columns -/

theorem Timeval.Current.sec_toNat {time : Timeval} (current : time.Current) :
    (time.tvSec.toNat : Int) = time.tvSec.toInt ∧ time.tvSec.toNat < 2 ^ 32 := by
  obtain ⟨started, seconds, _, _⟩ := current
  have sign := BitVec.toInt_eq_toNat_cond time.tvSec
  split at sign <;> omega

theorem Timeval.Current.usec_toNat {time : Timeval} (current : time.Current) :
    (time.tvUsec.toNat : Int) = time.tvUsec.toInt ∧ time.tvUsec.toNat < 10 ^ 6 := by
  obtain ⟨_, _, positive, micros⟩ := current
  have sign := BitVec.toInt_eq_toNat_cond time.tvUsec
  split at sign <;> omega

/-- Milliseconds are cut off, which the signed division of the code does too. -/
theorem Timeval.Current.millis {time : Timeval} (current : time.Current) :
    (time.tvUsec.sdiv 1000).toNat = time.tvUsec.toNat / 1000 := by
  obtain ⟨_, _⟩ := current.usec_toNat
  have first : time.tvUsec.msb = false := by
    simp [BitVec.msb_eq_decide]
    omega
  have second : (1000 : BitVec 64).msb = false := rfl
  have thousand : (1000 : BitVec 64).toNat = 1000 := rfl
  rw [BitVec.sdiv_eq, first, second]
  simp only [BitVec.udiv_eq, BitVec.toNat_udiv, thousand]

private theorem toNat_scaled {sec rest unit : BitVec 64} (small : unit.toNat ≤ 1000000)
    (seconds : sec.toNat < 2 ^ 32) (below : rest.toNat < 10 ^ 6) :
    (sec * unit + rest).toNat = sec.toNat * unit.toNat + rest.toNat := by
  have scaled : sec.toNat * unit.toNat ≤ 2 ^ 32 * 1000000 :=
    Nat.mul_le_mul seconds.le small
  rw [BitVec.toNat_add, BitVec.toNat_mul, Nat.mod_eq_of_lt (a := sec.toNat * unit.toNat) (by omega),
    Nat.mod_eq_of_lt (by omega)]

private theorem scaled_parts {time : Timeval} (current : time.Current) {unit rest : BitVec 64}
    {step : Nat} (whole : unit.toNat * step = 10 ^ 6)
    (cut : rest.toNat = time.tvUsec.toNat / step) :
    rest.toNat < unit.toNat ∧
      (time.tvSec * unit + rest).toNat = time.tvSec.toNat * unit.toNat + rest.toNat ∧
      time.tvSec.toInt * unit.toNat + time.tvUsec.toInt / step =
        (time.tvSec * unit + rest).toNat := by
  obtain ⟨sec, secBound⟩ := current.sec_toNat
  obtain ⟨usec, usecBound⟩ := current.usec_toNat
  have positive : 0 < step := by
    by_contra zero
    rw [Nat.eq_zero_of_not_pos zero] at whole
    omega
  have small : unit.toNat ≤ 1000000 := Nat.le_of_dvd (by decide) ⟨step, whole.symm⟩
  have below : rest.toNat < unit.toNat := by
    rw [cut, Nat.div_lt_iff_lt_mul positive, whole]
    exact usecBound
  have total : (time.tvSec * unit + rest).toNat =
      time.tvSec.toNat * unit.toNat + rest.toNat :=
    toNat_scaled small secBound (by omega)
  refine ⟨below, total, ?_⟩
  rw [total, cut, ← sec, ← usec]
  push_cast
  rfl

/-- The 64-bit time of a line is the record's time in its unit: whole seconds and the part of
a second that is left. -/
theorem pointTime_parts {time : Timeval} (current : time.Current) (flags : CInt) :
    ∃ part, part < unitsPerSecond flags ∧
      (pointTime flags time).toNat = time.tvSec.toNat * unitsPerSecond flags + part ∧
      time.units flags = (pointTime flags time).toNat := by
  unfold pointTime Timeval.units unitsPerSecond
  cases isSet flags rtPrintTimeMs with
  | true =>
    have thousand : (1000 : BitVec 64).toNat * 1000 = 10 ^ 6 := rfl
    obtain ⟨below, total, units⟩ := scaled_parts current thousand current.millis
    exact ⟨_, below, total, units⟩
  | false =>
    have million : (1000000 : BitVec 64).toNat * 1 = 10 ^ 6 := rfl
    obtain ⟨below, total, units⟩ := scaled_parts current million (Nat.div_one _).symm
    exact ⟨_, below, total, units⟩

private theorem toNat_split {time : BitVec 64} (unit : BitVec 64) {sec rest : Nat}
    (sum : time.toNat = sec * unit.toNat + rest) (below : rest < unit.toNat)
    (seconds : sec < 2 ^ 32) (narrow : unit.toNat ≤ 1000000) :
    ((time / unit).setWidth 32 : CInt).toNat = sec ∧
      ((time % unit).setWidth 32 : CInt).toNat = rest := by
  have quotient : time.toNat / unit.toNat = sec := by
    rw [sum, Nat.mul_comm, Nat.mul_add_div (by omega), Nat.div_eq_of_lt below, Nat.add_zero]
  have remainder : time.toNat % unit.toNat = rest := by
    rw [sum, Nat.mul_comm, Nat.mul_add_mod, Nat.mod_eq_of_lt below]
  constructor
  · rw [BitVec.toNat_setWidth, BitVec.toNat_udiv, quotient, Nat.mod_eq_of_lt seconds]
  · rw [BitVec.toNat_setWidth, BitVec.toNat_umod, remainder, Nat.mod_eq_of_lt (by omega)]

theorem timeColumn_shape {time : Timeval} (current : time.Current) (flags : CInt) :
    ∃ width whole fraction, timeColumn flags (pointTime flags time) =
        fixedPoint width whole fraction ++ [32] ∧ 0 < width ∧
      10 ^ width = unitsPerSecond flags ∧ fraction.toNat < 10 ^ width ∧
      time.units flags = whole.toNat * unitsPerSecond flags + fraction.toNat := by
  obtain ⟨_, seconds⟩ := current.sec_toNat
  obtain ⟨part, below, sum, units⟩ := pointTime_parts current flags
  rw [units, sum]
  unfold timeColumn
  unfold unitsPerSecond at *
  cases millis : isSet flags rtPrintTimeMs with
  | true =>
    simp only [millis, if_true] at below sum ⊢
    obtain ⟨whole, fraction⟩ := toNat_split 1000 sum below seconds (by decide)
    refine ⟨3, _, _, rfl, by omega, by omega, by omega, ?_⟩
    rw [whole, fraction]
    push_cast
    rfl
  | false =>
    simp only [millis, Bool.false_eq_true, if_false] at below sum ⊢
    obtain ⟨whole, fraction⟩ := toNat_split 1000000 sum below seconds (by decide)
    refine ⟨6, _, _, rfl, by omega, by omega, by omega, ?_⟩
    rw [whole, fraction]
    push_cast
    rfl

theorem timeColumn_read {time : Timeval} (current : time.Current) (flags : CInt)
    (rest : List UInt8) :
    readDecimal (timeColumn flags (pointTime flags time) ++ rest) = some (time.stamp flags) ∧
      afterWord (timeColumn flags (pointTime flags time) ++ rest) = 32 :: rest := by
  obtain ⟨width, whole, fraction, shape, positive, power, small, units⟩ :=
    timeColumn_shape current flags
  rw [shape, List.append_assoc]
  refine ⟨?_, afterWord_fixedPoint width whole fraction rest⟩
  have nonzero : ((10 ^ width : Nat) : ℚ) ≠ 0 := by positivity
  have value : ((whole.toNat : ℚ) + fraction.toNat / 10 ^ width) = time.stamp flags := by
    rw [Timeval.stamp, units, ← power]
    push_cast at nonzero ⊢
    field_simp
  rw [← value]
  exact readDecimal_fixedPoint positive whole small rest

theorem diffColumn_read (flags : CInt) (time prevTime : BitVec 64) (rest : List UInt8) :
    readDecimal (diffColumn flags time prevTime ++ rest) =
      some (((if prevTime = 0 then 0 else (time - prevTime).setWidth 32 : CInt).toInt : Int) : ℚ) := by
  have blank : ascii [' '] = [32] := rfl
  rw [diffColumn, blank, List.append_assoc]
  exact readDecimal_signed _ _ rest

/-- The difference of two times in 32 bits is the true one exactly if an `int` has room. -/
theorem diff_exact_iff {time previous : Timeval} (current : time.Current)
    (earlier : previous.Current) (flags : CInt) :
    ((if pointTime flags previous = 0 then 0
        else (pointTime flags time - pointTime flags previous).setWidth 32 : CInt).toInt : Int) =
        time.units flags - previous.units flags ↔
      -2 ^ 31 ≤ time.units flags - previous.units flags ∧
        time.units flags - previous.units flags < 2 ^ 31 := by
  obtain ⟨_, _, _, units⟩ := pointTime_parts current flags
  obtain ⟨part, _, sum, other⟩ := pointTime_parts earlier flags
  have sec := earlier.sec_toNat.1
  have started := earlier.started
  have positive : 0 < unitsPerSecond flags := by
    unfold unitsPerSecond
    split <;> omega
  have nonzero : pointTime flags previous ≠ 0 := by
    intro zero
    rw [zero] at sum
    have seconds : 0 < previous.tvSec.toNat * unitsPerSecond flags :=
      Nat.mul_pos (by omega) positive
    have zeroNat : (0 : BitVec 64).toNat = 0 := rfl
    omega
  have congruent : ((2 ^ 32 : Nat) : Int) ∣ ((pointTime flags time).toNat : Int) -
      (pointTime flags previous).toNat -
        ((pointTime flags time - pointTime flags previous).toNat : Nat) := by
    have bound := (pointTime flags previous).isLt
    rw [BitVec.toNat_sub]
    omega
  rw [if_neg nonzero, units, other, BitVec.toInt_setWidth, Int.bmod_eq_iff (by decide)]
  have half : ((2 ^ 32 : Nat) : Int) / 2 = 2 ^ 31 := rfl
  have halfUp : (((2 ^ 32 : Nat) : Int) + 1) / 2 = 2 ^ 31 := rfl
  rw [half, halfUp]
  constructor
  · rintro ⟨lower, upper, _⟩
    exact ⟨lower, upper⟩
  · rintro ⟨lower, upper⟩
    exact ⟨lower, upper, congruent⟩

/-! ## The lines of a call -/

/-- `*prev_time` after a record, and before the first. -/
def lastTime (flags : CInt) : Option Timeval → BitVec 64
  | none => 0
  | some time => pointTime flags time

theorem printTracePoint_columns (flags : CInt) (tp : Tracept) (past : List UInt8)
    (prevTime : BitVec 64) :
    ∃ rest, (printTracePoint flags tp past prevTime).1 =
      (if isSet flags rtPrintTime then timeColumn flags (pointTime flags tp.time) else []) ++
        ((if isSet flags rtPrintDiff then diffColumn flags (pointTime flags tp.time) prevTime
          else []) ++ rest) := by
  refine ⟨(sourceColumns flags ((tp.src.map CString.bytes).getD []) tp.line).flatten ++
    (msgText tp.msg past ++ ascii ['\n']), ?_⟩
  simp only [printTracePoint, ← pointColumns_flatten, pointColumns]
  cases isSet flags rtPrintTime <;> cases isSet flags rtPrintDiff <;> simp

/-- The 32 bits that the difference column shows. -/
def diffValue (flags : CInt) (tp previous : Timeval) : CInt :=
  if pointTime flags previous = 0 then 0
  else (pointTime flags tp - pointTime flags previous).setWidth 32

variable {flags : CInt} {tp : Tracept} {before : Option Timeval}

theorem printTracePoint_time (current : tp.time.Current) (past : List UInt8) (prevTime : BitVec 64)
    (timed : isSet flags rtPrintTime = true) :
    readDecimal (printTracePoint flags tp past prevTime).1 = some (tp.time.stamp flags) := by
  obtain ⟨rest, columns⟩ := printTracePoint_columns flags tp past prevTime
  rw [columns, if_pos timed]
  exact (timeColumn_read current flags _).1

theorem printTracePoint_diff (current : tp.time.Current) (past : List UInt8) (previous : Timeval)
    (wanted : isSet flags rtPrintDiff = true) :
    readDecimal (diffText flags (printTracePoint flags tp past (pointTime flags previous)).1) =
      some ((diffValue flags tp.time previous).toInt : ℚ) := by
  obtain ⟨rest, columns⟩ := printTracePoint_columns flags tp past (pointTime flags previous)
  rw [columns, if_pos wanted, diffText]
  cases timed : isSet flags rtPrintTime with
  | true =>
    rw [if_pos rfl, if_pos rfl, (timeColumn_read current flags _).2, readDecimal_blank,
      diffColumn_read]
    rfl
  | false =>
    rw [if_neg Bool.false_ne_true, if_neg Bool.false_ne_true, List.nil_append, diffColumn_read]
    rfl

/-- The columns of one line are true exactly if its difference fits an `int`. -/
theorem trueLine_iff (current : tp.time.Current)
    (earlier : ∀ previous, before = some previous → previous.Current) (past : List UInt8) :
    TrueLine flags before tp (printTracePoint flags tp past (lastTime flags before)).1 ↔
      (isSet flags rtPrintDiff = true → ∀ previous, before = some previous →
        -2 ^ 31 ≤ tp.time.units flags - previous.units flags ∧
          tp.time.units flags - previous.units flags < 2 ^ 31) := by
  have shown (wanted : isSet flags rtPrintDiff = true) (previous : Timeval)
      (same : before = some previous) :
      readDecimal (diffText flags (printTracePoint flags tp past (lastTime flags before)).1) =
        some ((tp.time.units flags - previous.units flags : Int) : ℚ) ↔
      -2 ^ 31 ≤ tp.time.units flags - previous.units flags ∧
        tp.time.units flags - previous.units flags < 2 ^ 31 := by
    rw [same, lastTime, printTracePoint_diff current past previous wanted,
      ← diff_exact_iff current (earlier previous same) flags, Option.some_inj, Int.cast_inj,
      diffValue]
  constructor
  · intro line wanted previous same
    exact (shown wanted previous same).mp (line.diff wanted previous same)
  · intro near
    refine ⟨fun timed => printTracePoint_time current past _ timed, ?_⟩
    intro wanted previous same
    exact (shown wanted previous same).mpr (near wanted previous same)

/-- Every line is that of its record after the record before. -/
def Chained (flags : CInt) : Option Timeval → List Line → Prop
  | _, [] => True
  | before, .ellipsis :: rest => Chained flags before rest
  | before, .point _ tp text :: rest =>
    (∃ past, text = (printTracePoint flags tp past (lastTime flags before)).1) ∧
      Chained flags (some tp.time) rest

/-- The time of the last record of some lines. -/
def lastPoint : Option Timeval → List Line → Option Timeval
  | before, [] => before
  | before, .ellipsis :: rest => lastPoint before rest
  | _, .point _ tp _ :: rest => lastPoint (some tp.time) rest

theorem lastPoint_append (before : Option Timeval) (lines others : List Line) :
    lastPoint before (lines ++ others) = lastPoint (lastPoint before lines) others := by
  induction lines generalizing before with
  | nil => rfl
  | cons line rest ih =>
    cases line with
    | ellipsis => exact ih before
    | point tpNum tp text => exact ih (some tp.time)

theorem Chained.append {before : Option Timeval} {lines others : List Line}
    (first : Chained flags before lines) (second : Chained flags (lastPoint before lines) others) :
    Chained flags before (lines ++ others) := by
  induction lines generalizing before with
  | nil => exact second
  | cons line rest ih =>
    cases line with
    | ellipsis => exact ih first second
    | point tpNum tp text => exact ⟨first.1, ih first.2 second⟩

structure PrintState.Timed (flags : CInt) (state : PrintState) : Prop where
  chained : Chained flags none state.out
  prevTime : state.prevTime = lastTime flags (lastPoint none state.out)

theorem PrintState.Timed.iteration (timed : PrintState.Timed args.flags state) (tp : Tracept) :
    PrintState.Timed args.flags (printIteration args state tp) := by
  obtain ⟨chained, prevTime⟩ := timed
  unfold printIteration
  split
  · exact ⟨chained, prevTime⟩
  · split
    · exact ⟨chained, prevTime⟩
    · refine ⟨chained.append ⟨⟨args.past state.tp, ?_⟩, trivial⟩, ?_⟩
      · rw [prevTime]
      · simp only [PrintState.advance, PrintState.emit, lastPoint_append, lastPoint, lastTime,
          printTracePoint]

theorem openPrint_timed (opened : openPrint args copy tpNum overrun = .ok first) :
    PrintState.Timed args.flags first := by
  have plain : PrintState.Timed args.flags (PrintState.first args tpNum) := ⟨trivial, rfl⟩
  simp only [openPrint] at opened
  split at opened
  · split at opened
    · cases opened
    · split at opened
      · cases opened
        exact ⟨trivial, rfl⟩
      · cases opened
        exact plain
  · cases opened
    exact plain

theorem printLoop_timed (timed : PrintState.Timed args.flags state)
    (returned : printLoop args copy lastTp fuel state = .ok final) :
    PrintState.Timed args.flags final := by
  induction fuel generalizing state with
  | zero => cases returned
  | succ fuel ih =>
    simp only [printLoop] at returned
    split at returned
    · cases returned
      exact timed
    · split at returned
      · cases returned
      · exact ih (timed.iteration _) returned

theorem printTraceStack_chained
    (returned : printTraceStack build flags dst size priv past facility = .ok (printout, after)) :
    Chained flags none printout.out := by
  obtain ⟨⟨lastTp, copied, locked⟩, _, called⟩ := bind_eq_ok.mp returned
  obtain ⟨shown, printed, same⟩ := bind_eq_ok.mp called
  cases same
  unfold printCopy at printed
  split at printed
  · unfold disablingErr at printed
    split at printed <;> cases printed
    trivial
  · split at printed
    · cases printed
      trivial
    · obtain ⟨first, opened, rest⟩ := bind_eq_ok.mp printed
      obtain ⟨final, looped, same⟩ := bind_eq_ok.mp rest
      cases same
      exact (printLoop_timed (openPrint_timed opened) looped).chained

/-- Chained lines are true exactly if their differences fit an `int`. -/
theorem Chained.true_iff {lines : List Line} (chained : Chained flags before lines)
    (earlier : ∀ previous, before = some previous → previous.Current)
    (current : ∀ tpNum tp text, Line.point tpNum tp text ∈ lines → tp.time.Current) :
    TrueTimes flags before lines ↔
      (isSet flags rtPrintDiff = true → NearTimes flags before lines) := by
  induction lines generalizing before with
  | nil => exact ⟨fun _ _ => trivial, fun _ => trivial⟩
  | cons line rest ih =>
    have later (tpNum : CInt) (tp : Tracept) (text : List UInt8)
        (member : Line.point tpNum tp text ∈ rest) : tp.time.Current :=
      current tpNum tp text (List.mem_cons_of_mem _ member)
    cases line with
    | ellipsis => exact ih chained earlier later
    | point tpNum tp text =>
      obtain ⟨⟨past, rfl⟩, others⟩ := chained
      have now := current tpNum tp _ List.mem_cons_self
      have first : TrueLine flags before tp _ ↔ _ := trueLine_iff now earlier past
      have second := ih others (by rintro previous ⟨⟩; exact now) later
      simp only [TrueTimes, NearTimes, first, second]
      exact forall_and.symm

/-- Every time that a call prints is the record's own, and every difference the true one exactly
if consecutive records are less than 2^31 units apart. -/
theorem times_true_iff
    (returned : printTraceStack build flags dst size priv past facility = .ok (printout, after))
    (current : ∀ tpNum tp text, Line.point tpNum tp text ∈ printout.out → tp.time.Current) :
    TrueTimes flags none printout.out ↔
      (isSet flags rtPrintDiff = true → NearTimes flags none printout.out) :=
  (printTraceStack_chained returned).true_iff (by rintro previous ⟨⟩) current

/-- Two records, the second at the given second. -/
def gapPool (second : BitVec 64) : Block Tracept where
  capacity := recordsIn (poolMemSize 4)
  cell
    | 0 => ⟨⟨1, 999999⟩, 7, some ⟨[116], by decide⟩, Tracept.zero.msg⟩
    | 1 => ⟨⟨second, 0⟩, 8, some ⟨[116], by decide⟩, Tracept.zero.msg⟩
    | _ => Tracept.zero

def gapFacility (second : BitVec 64) : Facility :=
  { Facility.granted .cxx11 1 4 with tpPool := some (gapPool second), nextTp := 2 }

private theorem gapPrint {second : BitVec 64} (either : second = 2100 ∨ second = 3000) :
    ∃ printout after early late,
      printTraceStack .cxx11 0x03 true 4096 none (fun _ => []) (gapFacility second) =
        .ok (printout, after) ∧
      printout.out = [.point 0 ((gapPool second).cell 0) early,
        .point 1 ((gapPool second).cell 1) late] ∧
      ∀ tpNum tp text, Line.point tpNum tp text ∈ printout.out → tp.time.Current := by
  have shown : ∃ printout after early late,
      printTraceStack .cxx11 0x03 true 4096 none (fun _ => []) (gapFacility second) =
        .ok (printout, after) ∧
      printout.out = [.point 0 ((gapPool second).cell 0) early,
        .point 1 ((gapPool second).cell 1) late] := by
    rcases either with rfl | rfl <;> exact ⟨_, _, _, _, rfl, rfl⟩
  obtain ⟨printout, after, early, late, returned, out⟩ := shown
  refine ⟨printout, after, early, late, returned, out, ?_⟩
  intro tpNum tp text member
  simp only [out, List.mem_cons, Line.point.injEq, List.not_mem_nil, or_false] at member
  have first : Timeval.Current ⟨1, 999999⟩ := ⟨by decide, by decide, by decide, by decide⟩
  have last : Timeval.Current ⟨second, 0⟩ := by
    rcases either with rfl | rfl <;> exact ⟨by decide, by decide, by decide, by decide⟩
  rcases member with ⟨_, rfl, _⟩ | ⟨_, rfl, _⟩
  · exact first
  · exact last

/-- A gap of almost 35 minutes is printed as it was. -/
theorem times_true_2100 : ∃ printout after,
    printTraceStack .cxx11 0x03 true 4096 none (fun _ => []) (gapFacility 2100) =
      .ok (printout, after) ∧ printout.out.length = 2 ∧ TrueTimes 0x03 none printout.out := by
  obtain ⟨printout, after, early, late, returned, out, current⟩ := gapPrint (.inl rfl)
  have near : NearTimes 0x03 none printout.out := by
    rw [out]
    refine ⟨by rintro previous ⟨⟩, ?_, trivial⟩
    rintro previous ⟨⟩
    decide
  exact ⟨printout, after, returned, by simp [out],
    (times_true_iff returned current).mpr fun _ => near⟩

/-- A gap of almost 50 minutes is printed as a step backwards. -/
theorem gap_untrue : ∃ printout after,
    printTraceStack .cxx11 0x03 true 4096 none (fun _ => []) (gapFacility 3000) =
      .ok (printout, after) ∧
    (∀ tpNum tp text, Line.point tpNum tp text ∈ printout.out → tp.time.Current) ∧
    ¬ TrueTimes 0x03 none printout.out := by
  obtain ⟨printout, after, early, late, returned, out, current⟩ := gapPrint (.inr rfl)
  refine ⟨printout, after, returned, current, ?_⟩
  intro times
  have chained := printTraceStack_chained returned
  have near := (chained.true_iff (by rintro previous ⟨⟩) current).mp times (by decide)
  rw [out] at near
  exact absurd (near.2.1 _ rfl).2 (by decide)

end TrippingRobot.Runtrace
