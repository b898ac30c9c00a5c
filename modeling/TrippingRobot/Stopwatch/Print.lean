import Mathlib.Tactic.Linarith
import TrippingRobot.Runtrace.Digits
import TrippingRobot.Stopwatch.Elapsed

/-! The text that prints an elapsed time, read back as a number. -/

namespace TrippingRobot.Stopwatch

open Data
open Runtrace (ascii ascii_length ascii_isDigitByte ascii_toDigits_ne_nil numeral_toDigits
  numeral_zeros toDigits_isDigit toDigits_length_le zeros_isDigit)

variable {width : Nat}

/-- `%ld`, or `%0<minimum>ld`. The zeros stand behind the sign and fill what it leaves. -/
def formatLong (minimum : Nat) (value : BitVec width) : List UInt8 :=
  let sign := if value.toInt < 0 then ['-'] else []
  let digits := Nat.toDigits 10 value.toInt.natAbs
  ascii (sign ++ (List.replicate (minimum - (sign.length + digits.length)) '0' ++ digits))

/-- The letters, the digits and the underscore. -/
def isNameByte (byte : UInt8) : Bool :=
  isDigitByte byte || (65 ≤ byte && byte ≤ 90) || byte = 95 || (97 ≤ byte && byte ≤ 122)

structure Name where
  bytes : List UInt8
  word : ∀ byte ∈ bytes, isNameByte byte = true

/-- `"Stopwatch " #x ": "` -/
def label (name : Name) : List UInt8 :=
  ascii ['S', 't', 'o', 'p', 'w', 'a', 't', 'c', 'h', ' '] ++ name.bytes ++ ascii [':', ' ']

/-- The text of `STOPWATCH_PRINT`, with the parameters of `DTIMER_PRINT_PARAMS` in the format
`%ld.%06ld sec`. -/
def stopwatchPrint (name : Name) (x : StopwatchPriv width) : List UInt8 :=
  label name ++ formatLong 0 (dtimerPrintParams x).1 ++ ascii ['.'] ++
    formatLong 6 (dtimerPrintParams x).2 ++ ascii [' ', 's', 'e', 'c', '\n']

/-- The number of seconds behind the label. -/
def printedSeconds (text : List UInt8) : Option ℚ :=
  readDecimal (text.dropWhile (· ≠ 58)).tail

/-- The printed number is the elapsed time, which the floating-point form gives too. -/
structure PrintsElapsed (name : Name) (x : StopwatchPriv width) : Prop where
  difference : printedSeconds (stopwatchPrint name x) = some ((x.elapsed : ℚ) / 10 ^ 6)
  floating : printedSeconds (stopwatchPrint name x) = some (stopwatchElapsedF x)

/-! ## The printed number -/

/-- The number a reader sees: the sign of the seconds is that of the microseconds too. -/
def readAs (sec usec : Int) : ℚ :=
  if sec < 0 then (sec : ℚ) - usec / 10 ^ 6 else (sec : ℚ) + usec / 10 ^ 6

theorem formatLong_part {usec : BitVec width} (nonneg : 0 ≤ usec.toInt)
    (below : usec.toInt < 10 ^ 6) :
    (∀ byte ∈ formatLong 6 usec, isDigitByte byte = true) ∧ (formatLong 6 usec).length = 6 ∧
      (numeral (formatLong 6 usec) : Int) = usec.toInt := by
  have short : (Nat.toDigits 10 usec.toInt.natAbs).length ≤ 6 :=
    toDigits_length_le (by decide) (by omega)
  have shape : formatLong 6 usec = ascii (List.replicate
      (6 - (Nat.toDigits 10 usec.toInt.natAbs).length) '0' ++
        Nat.toDigits 10 usec.toInt.natAbs) := by
    simp [formatLong, Int.not_lt.mpr nonneg]
  rw [shape]
  refine ⟨ascii_isDigitByte (zeros_isDigit _ _), ?_, ?_⟩
  · rw [ascii_length, List.length_append, List.length_replicate]
    omega
  · rw [numeral_zeros]
    omega

theorem readDecimal_formatLong (sec : BitVec width) {usec : BitVec width}
    (nonneg : 0 ≤ usec.toInt) (below : usec.toInt < 10 ^ 6) (rest : List UInt8) :
    readDecimal (formatLong 0 sec ++ (46 :: (formatLong 6 usec ++ 32 :: rest))) =
      some (readAs sec.toInt usec.toInt) := by
  have digits := ascii_isDigitByte (toDigits_isDigit sec.toInt.natAbs)
  have nonempty := ascii_toDigits_ne_nil sec.toInt.natAbs
  obtain ⟨decimals, length, number⟩ := formatLong_part nonneg below
  have unsigned := readUnsigned_fraction digits nonempty decimals rest
  have fraction : (numeral (formatLong 6 usec) : ℚ) = usec.toInt := by exact_mod_cast number
  rw [numeral_toDigits, length, fraction] at unsigned
  by_cases negative : sec.toInt < 0
  · have minus : '-'.toUInt8 = 45 := rfl
    have signed : formatLong 0 sec = 45 :: ascii (Nat.toDigits 10 sec.toInt.natAbs) := by
      simp [formatLong, negative, ascii, minus]
    rw [signed, List.cons_append, readDecimal_minus, unsigned, Option.map_some, Nat.cast_natAbs,
      abs_of_neg negative, readAs, if_pos negative]
    push_cast
    congr 1
    ring
  · have plain : formatLong 0 sec = ascii (Nat.toDigits 10 sec.toInt.natAbs) := by
      simp [formatLong, negative]
    rw [plain, readDecimal_unsigned digits nonempty, unsigned, Nat.cast_natAbs,
      abs_of_nonneg (not_lt.mp negative), readAs, if_neg negative]

/-- The microseconds count the same way as the seconds only behind seconds that are not
negative. -/
theorem readAs_eq_iff (sec usec : Int) :
    readAs sec usec = ((sec * 10 ^ 6 + usec : Int) : ℚ) / 10 ^ 6 ↔ 0 ≤ sec ∨ usec = 0 := by
  have total : ((sec * 10 ^ 6 + usec : Int) : ℚ) / 10 ^ 6 = (sec : ℚ) + usec / 10 ^ 6 := by
    push_cast
    ring
  rw [total, readAs]
  split
  · rename_i negative
    constructor
    · intro same
      have doubled : (usec : ℚ) = 0 := by linarith
      exact .inr (by exact_mod_cast doubled)
    · rintro (nonneg | rfl)
      · omega
      · simp
  · rename_i nonneg
    exact iff_of_true rfl (.inl (by omega))

theorem label_shape (name : Name) :
    ∃ words : List UInt8, label name = words ++ [58, 32] ∧
      ∀ byte ∈ words, decide (byte ≠ 58) = true := by
  refine ⟨ascii ['S', 't', 'o', 'p', 'w', 'a', 't', 'c', 'h', ' '] ++ name.bytes, rfl, ?_⟩
  intro byte member
  rw [decide_eq_true_eq]
  rintro rfl
  rcases List.mem_append.mp member with fixed | given
  · exact absurd fixed (by decide)
  · cases name.word 58 given

theorem printedSeconds_stopwatchPrint (wide : 32 ≤ width) (name : Name) {x : StopwatchPriv width}
    (measured : x.Measured) :
    printedSeconds (stopwatchPrint name x) =
      some (readAs (stopwatchElapsedS x).toInt (x.elapsed % 10 ^ 6)) := by
  have us := stopwatchElapsedUs_toInt wide measured
  have params : dtimerPrintParams x = (stopwatchElapsedS x, stopwatchElapsedUs x) := rfl
  have point : ascii ['.'] = [46] := rfl
  have unit : ascii [' ', 's', 'e', 'c', '\n'] = 32 :: ascii ['s', 'e', 'c', '\n'] := rfl
  obtain ⟨words, shape, noColon⟩ := label_shape name
  have text : stopwatchPrint name x =
      words ++ 58 :: 32 :: (formatLong 0 (stopwatchElapsedS x) ++
        (46 :: (formatLong 6 (stopwatchElapsedUs x) ++ 32 :: ascii ['s', 'e', 'c', '\n']))) := by
    simp only [stopwatchPrint, params, shape, point, unit, List.append_assoc, List.cons_append,
      List.nil_append]
  rw [printedSeconds, text, dropWhile_stop noColon 58 _ (by decide), List.tail_cons,
    readDecimal_blank, readDecimal_formatLong _ (by omega) (by omega), us]

theorem StopwatchPriv.Measured.rest_eq_zero_iff {x : StopwatchPriv width} (measured : x.Measured) :
    x.elapsed % 10 ^ 6 = 0 ↔ x.start.tvUsec = x.stop.tvUsec := by
  have split := measured.split
  obtain ⟨⟨startNonneg, startBelow⟩, ⟨stopNonneg, stopBelow⟩, _⟩ := measured
  rw [← BitVec.toInt_inj]
  split at split <;> omega

/-- The printed number is right for a stop that is not before the start, and for a stop that
is a number of whole seconds before it. -/
theorem printsElapsed_iff (wide : 32 ≤ width) (name : Name) (x : StopwatchPriv width)
    (measured : x.Measured) :
    PrintsElapsed name x ↔
      x.start.micros ≤ x.stop.micros ∨ x.start.tvUsec = x.stop.tvUsec := by
  have printed := printedSeconds_stopwatchPrint wide name measured
  have value : PrintsElapsed name x ↔
      readAs (stopwatchElapsedS x).toInt (x.elapsed % 10 ^ 6) = (x.elapsed : ℚ) / 10 ^ 6 := by
    constructor
    · intro prints
      exact Option.some.inj (printed.symm.trans prints.difference)
    · intro same
      rw [same] at printed
      exact ⟨printed, by rw [stopwatchElapsedF_eq, printed]⟩
  have forward : x.start.micros ≤ x.stop.micros ↔ 0 ≤ x.elapsed := by
    rw [StopwatchPriv.elapsed]
    omega
  rw [value, forward, ← measured.rest_eq_zero_iff]
  by_cases back : x.TooFarBack
  · -- the seconds wrap to the largest ones, so the printed number is not even negative
    have inexact := mt (measured.exact_iff wide).mp (not_not.mpr back)
    obtain ⟨largest, below⟩ := stopwatchElapsedS_tooFarBack wide measured back
    have room := intRange_le wide
    rw [(readAs_eq_iff _ _).mpr (.inl (show 0 ≤ (stopwatchElapsedS x).toInt by omega)),
      div_left_inj' (by norm_num), Int.cast_inj, ← stopwatchElapsedUs_toInt wide measured]
    refine iff_of_false inexact ?_
    rintro (nonneg | level)
    · omega
    · rw [stopwatchElapsedUs_toInt wide measured, measured.rest_eq_zero_iff] at level
      exact absurd back.1 (by rw [level]; exact lt_irrefl _)
  · have exact := (measured.exact_iff wide).mpr back
    have parts := readAs_eq_iff (stopwatchElapsedS x).toInt (x.elapsed % 10 ^ 6)
    rw [stopwatchElapsedUs_toInt wide measured] at exact
    rw [exact, stopwatchElapsedS_toInt wide measured back] at parts
    rw [stopwatchElapsedS_toInt wide measured back, parts]
    omega

def watch : Name where
  bytes := [120]
  word := by
    intro byte member
    rw [List.mem_singleton.mp member]
    rfl

theorem printsElapsed_forthBorrowing : PrintsElapsed watch forthBorrowing :=
  (printsElapsed_iff (by decide) watch forthBorrowing
    ⟨⟨by decide, by decide⟩, ⟨by decide, by decide⟩, by decide⟩).mpr (.inl (by decide))

/-- The clock is set back from 1.5 s to 1.2 s while the watch runs. -/
def setBack : StopwatchPriv 64 := ⟨⟨1, 500000⟩, ⟨1, 200000⟩⟩

/-- It prints -1.700000 for a difference of -0.3 seconds. -/
theorem not_printsElapsed_setBack :
    setBack.Measured ∧
      printedSeconds (stopwatchPrint watch setBack) = some (-17 / 10) ∧
      stopwatchElapsedF setBack = -3 / 10 ∧ ¬ PrintsElapsed watch setBack := by
  have measured : setBack.Measured :=
    ⟨⟨by decide, by decide⟩, ⟨by decide, by decide⟩, by decide⟩
  have parts : (stopwatchElapsedS setBack).toInt = -1 ∧ setBack.elapsed % 10 ^ 6 = 700000 := by
    decide
  have printed : printedSeconds (stopwatchPrint watch setBack) = some (-17 / 10) := by
    rw [printedSeconds_stopwatchPrint (by decide) watch measured, parts.1, parts.2]
    norm_num [readAs]
  have elapsed : setBack.elapsed = -300000 := by decide
  have exact : stopwatchElapsedF setBack = -3 / 10 := by
    rw [stopwatchElapsedF_eq, elapsed]
    norm_num
  refine ⟨measured, printed, exact, ?_⟩
  intro prints
  have same := Option.some.inj (printed.symm.trans prints.floating)
  rw [exact] at same
  norm_num at same

end TrippingRobot.Stopwatch
