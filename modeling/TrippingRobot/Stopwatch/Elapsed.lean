import Mathlib.Data.Rat.Floor
import Mathlib.Tactic.Positivity
import Mathlib.Tactic.Ring
import TrippingRobot.Data.Long

/-! A stopwatch holds two readings of the clock. Its macros give their difference in several
forms, each with a borrow of its own. -/

namespace TrippingRobot.Stopwatch

open Data

variable {width : Nat}

structure Timeval (width : Nat) where
  tvSec : BitVec width
  tvUsec : BitVec width
deriving DecidableEq

structure StopwatchPriv (width : Nat) where
  start : Timeval width
  stop : Timeval width

/-- `DTIMER_PRINT_PARAMS`, the two arguments behind a format. -/
def dtimerPrintParams (x : StopwatchPriv width) : BitVec width × BitVec width :=
  (if x.start.tvUsec.toInt > x.stop.tvUsec.toInt then x.stop.tvSec - x.start.tvSec - 1
    else x.stop.tvSec - x.start.tvSec,
  if x.start.tvUsec.toInt > x.stop.tvUsec.toInt then x.stop.tvUsec + 1000000 - x.start.tvUsec
    else x.stop.tvUsec - x.start.tvUsec)

/-- What `STOPWATCH_TO_TIMEVAL` assigns to its `tval`. -/
def stopwatchToTimeval (x : StopwatchPriv width) : Timeval width :=
  if x.start.tvUsec.toInt > x.stop.tvUsec.toInt then
    { tvSec := x.stop.tvSec - x.start.tvSec - 1
      tvUsec := x.stop.tvUsec + 1000000 - x.start.tvUsec }
  else
    { tvSec := x.stop.tvSec - x.start.tvSec
      tvUsec := x.stop.tvUsec - x.start.tvUsec }

/-- `STOPWATCH_ELAPSED_S` -/
def stopwatchElapsedS (x : StopwatchPriv width) : BitVec width :=
  if x.start.tvUsec.toInt > x.stop.tvUsec.toInt then x.stop.tvSec - x.start.tvSec - 1
  else x.stop.tvSec - x.start.tvSec

/-- `STOPWATCH_ELAPSED_US` -/
def stopwatchElapsedUs (x : StopwatchPriv width) : BitVec width :=
  if x.start.tvUsec.toInt > x.stop.tvUsec.toInt then
    x.stop.tvUsec + 1000000 - x.start.tvUsec
  else x.stop.tvUsec - x.start.tvUsec

/-- `STOPWATCH_ELAPSED_F`, without the rounding of `double`. -/
def stopwatchElapsedF (x : StopwatchPriv width) : ℚ :=
  (x.stop.tvSec.toInt : ℚ) - x.start.tvSec.toInt +
    ((x.stop.tvUsec.toInt : ℚ) - x.start.tvUsec.toInt) / 1000000

/-- The conversion of a floating-point value to `int`. -/
def truncated (value : ℚ) : Int := value.num.tdiv value.den

/-! ## Readings -/

structure Timeval.Normal (time : Timeval width) : Prop where
  nonneg : 0 ≤ time.tvUsec.toInt
  below : time.tvUsec.toInt < 10 ^ 6

def Timeval.micros (time : Timeval width) : Int := time.tvSec.toInt * 10 ^ 6 + time.tvUsec.toInt

/-- From start to stop, in microseconds. -/
def StopwatchPriv.elapsed (x : StopwatchPriv width) : Int := x.stop.micros - x.start.micros

/-- Two readings of the clock, in either order, whose seconds have a difference in `long`. -/
structure StopwatchPriv.Measured (x : StopwatchPriv width) : Prop where
  start : x.start.Normal
  stop : x.stop.Normal
  seconds : Fits width (x.stop.tvSec.toInt - x.start.tvSec.toInt)

/-- The difference is the least `long`, and a second is to be borrowed from it. -/
def StopwatchPriv.TooFarBack (x : StopwatchPriv width) : Prop :=
  x.start.tvUsec.toInt > x.stop.tvUsec.toInt ∧
    x.stop.tvSec.toInt - x.start.tvSec.toInt = -2 ^ (width - 1)

/-- With a borrow or without, the difference is split into whole seconds, rounded down, and
the microseconds that are left. -/
theorem StopwatchPriv.Measured.split {x : StopwatchPriv width} (measured : x.Measured) :
    if x.start.tvUsec.toInt > x.stop.tvUsec.toInt then
      x.elapsed / 10 ^ 6 = x.stop.tvSec.toInt - x.start.tvSec.toInt - 1 ∧
        x.elapsed % 10 ^ 6 = x.stop.tvUsec.toInt + 10 ^ 6 - x.start.tvUsec.toInt
    else
      x.elapsed / 10 ^ 6 = x.stop.tvSec.toInt - x.start.tvSec.toInt ∧
        x.elapsed % 10 ^ 6 = x.stop.tvUsec.toInt - x.start.tvUsec.toInt := by
  obtain ⟨⟨startNonneg, startBelow⟩, ⟨stopNonneg, stopBelow⟩, _⟩ := measured
  rw [StopwatchPriv.elapsed, Timeval.micros, Timeval.micros]
  split <;> omega

/-! ## The two parts -/

theorem intRange_le (wide : 32 ≤ width) : (2 ^ 31 : Int) ≤ 2 ^ (width - 1) :=
  pow_le_pow_right₀ (by norm_num) (by omega)

theorem stopwatchElapsedUs_toInt (wide : 32 ≤ width) {x : StopwatchPriv width}
    (measured : x.Measured) : (stopwatchElapsedUs x).toInt = x.elapsed % 10 ^ 6 := by
  have room := intRange_le wide
  have split := measured.split
  obtain ⟨⟨startNonneg, startBelow⟩, ⟨stopNonneg, stopBelow⟩, _⟩ := measured
  rw [stopwatchElapsedUs]
  split at split
  · rename_i borrow
    have million : (1000000 : BitVec width).toInt = 1000000 :=
      toInt_ofNat_of_fits (by omega) (by constructor <;> push_cast <;> omega)
    have lent : (x.stop.tvUsec + 1000000).toInt = x.stop.tvUsec.toInt + 1000000 := by
      rw [toInt_add_of_fits (by omega) (by rw [million]; constructor <;> omega), million]
    rw [if_pos borrow, toInt_sub_of_fits (by omega) (by rw [lent]; constructor <;> omega), lent,
      split.2]
    rfl
  · rename_i level
    rw [if_neg level, toInt_sub_of_fits (by omega) (by constructor <;> omega), split.2]

/-- The seconds are right unless the borrow leaves the range of `long`. -/
theorem stopwatchElapsedS_toInt (wide : 32 ≤ width) {x : StopwatchPriv width}
    (measured : x.Measured) (near : ¬ x.TooFarBack) :
    (stopwatchElapsedS x).toInt = x.elapsed / 10 ^ 6 := by
  have room := intRange_le wide
  have split := measured.split
  obtain ⟨_, _, seconds⟩ := measured
  have plain := toInt_sub_of_fits (by omega) seconds
  obtain ⟨lower, upper⟩ := seconds
  rw [stopwatchElapsedS]
  split at split
  · rename_i borrow
    have one : (1 : BitVec width).toInt = 1 :=
      toInt_ofNat_of_fits (by omega) (by constructor <;> push_cast <;> omega)
    have inside : x.stop.tvSec.toInt - x.start.tvSec.toInt ≠ -2 ^ (width - 1) :=
      fun least => near ⟨borrow, least⟩
    rw [if_pos borrow, toInt_sub_of_fits (by omega) (by rw [plain, one]; constructor <;> omega),
      plain, one, split.1]
  · rename_i level
    rw [if_neg level, plain, split.1]

/-- Beyond the range the seconds turn into the largest ones. -/
theorem stopwatchElapsedS_tooFarBack (wide : 32 ≤ width) {x : StopwatchPriv width}
    (measured : x.Measured) (back : x.TooFarBack) :
    (stopwatchElapsedS x).toInt = 2 ^ (width - 1) - 1 ∧
      x.elapsed / 10 ^ 6 = -2 ^ (width - 1) - 1 := by
  have split := measured.split
  obtain ⟨borrow, least⟩ := back
  rw [if_pos borrow, least] at split
  have plain := toInt_sub_of_fits (by omega) measured.seconds
  rw [stopwatchElapsedS, if_pos borrow]
  exact ⟨toInt_sub_one_of_least (by omega) (plain.trans least), split.1⟩

theorem StopwatchPriv.Measured.exact_iff (wide : 32 ≤ width) {x : StopwatchPriv width}
    (measured : x.Measured) :
    (stopwatchElapsedS x).toInt * 10 ^ 6 + (stopwatchElapsedUs x).toInt = x.elapsed ↔
      ¬ x.TooFarBack := by
  have whole := Int.ediv_mul_add_emod x.elapsed (10 ^ 6)
  rw [stopwatchElapsedUs_toInt wide measured]
  constructor
  · intro exact back
    obtain ⟨largest, below⟩ := stopwatchElapsedS_tooFarBack wide measured back
    have room := intRange_le wide
    omega
  · intro near
    rw [stopwatchElapsedS_toInt wide measured near, whole]

/-! ## The exact rational form -/

theorem stopwatchElapsedF_eq (x : StopwatchPriv width) :
    stopwatchElapsedF x = (x.elapsed : ℚ) / 10 ^ 6 := by
  rw [stopwatchElapsedF, StopwatchPriv.elapsed, Timeval.micros, Timeval.micros]
  push_cast
  ring

theorem truncated_div {value : Int} (nonneg : 0 ≤ value) (unit : Nat) :
    truncated ((value : ℚ) / unit) = value / unit := by
  have quotient : (0 : ℚ) ≤ (value : ℚ) / unit := by positivity
  rw [truncated, Int.tdiv_eq_ediv_of_nonneg (Rat.num_nonneg.mpr quotient), ← Rat.floor_def',
    Rat.floor_intCast_div_natCast]

/-- All forms split the elapsed time alike, and the split is exact unless its seconds leave the
range of `long`. A stop that is not before the start never does that. -/
theorem elapsed_forms (wide : 32 ≤ width) (x : StopwatchPriv width) (measured : x.Measured) :
    stopwatchToTimeval x = ⟨stopwatchElapsedS x, stopwatchElapsedUs x⟩ ∧
      dtimerPrintParams x = (stopwatchElapsedS x, stopwatchElapsedUs x) ∧
      0 ≤ (stopwatchElapsedUs x).toInt ∧ (stopwatchElapsedUs x).toInt < 10 ^ 6 ∧
      ((stopwatchElapsedS x).toInt * 10 ^ 6 + (stopwatchElapsedUs x).toInt = x.elapsed ↔
        ¬ x.TooFarBack) ∧
      (0 ≤ x.elapsed →
        (stopwatchElapsedS x).toInt = truncated (stopwatchElapsedF x) ∧
          (stopwatchElapsedUs x).toInt =
            (truncated (stopwatchElapsedF x * 1000000 + 1 / 2)).tmod 1000000) := by
  have us := stopwatchElapsedUs_toInt wide measured
  refine ⟨?_, ?_, ?_, ?_, measured.exact_iff wide, ?_⟩
  · rw [stopwatchToTimeval, stopwatchElapsedS, stopwatchElapsedUs]
    split <;> rfl
  · rfl
  · rw [us]
    omega
  · rw [us]
    omega
  · intro forward
    have near : ¬ x.TooFarBack := by
      intro back
      have room := intRange_le wide
      have below := (stopwatchElapsedS_tooFarBack wide measured back).2
      omega
    have seconds := truncated_div forward (10 ^ 6)
    have halves := truncated_div (show 0 ≤ 2 * x.elapsed + 1 by omega) 2
    have rounded : stopwatchElapsedF x * 1000000 + 1 / 2 =
        ((2 * x.elapsed + 1 : Int) : ℚ) / (2 : Nat) := by
      rw [stopwatchElapsedF_eq]
      push_cast
      ring
    constructor
    · rw [stopwatchElapsedS_toInt wide measured near, stopwatchElapsedF_eq]
      exact_mod_cast seconds.symm
    · rw [us, rounded, halves, Int.tmod_eq_emod_of_nonneg (by omega)]
      omega

/-- From 1.9 s to 3.2 s: a second is borrowed. -/
def forthBorrowing : StopwatchPriv 64 := ⟨⟨1, 900000⟩, ⟨3, 200000⟩⟩

theorem elapsed_forms_forth :
    (stopwatchElapsedS forthBorrowing).toInt * 10 ^ 6 +
        (stopwatchElapsedUs forthBorrowing).toInt = 1300000 ∧
      (stopwatchElapsedS forthBorrowing).toInt = truncated (stopwatchElapsedF forthBorrowing) := by
  have measured : forthBorrowing.Measured :=
    ⟨⟨by decide, by decide⟩, ⟨by decide, by decide⟩, by decide⟩
  have elapsed : forthBorrowing.elapsed = 1300000 := by decide
  have near : ¬ forthBorrowing.TooFarBack := fun back => absurd back.2 (by decide)
  obtain ⟨_, _, _, _, exact, forward⟩ := elapsed_forms (by decide) forthBorrowing measured
  exact ⟨(exact.mpr near).trans elapsed, (forward (by rw [elapsed]; decide)).1⟩

/-- Back by one microsecond more than the least `long` of seconds. -/
def farBack : StopwatchPriv 64 := ⟨⟨0x4000000000000000, 1⟩, ⟨0xC000000000000000, 0⟩⟩

/-- No `long` can hold the seconds of that difference, whatever an overflow does. -/
theorem not_exact_farBack :
    farBack.Measured ∧
      (stopwatchElapsedS farBack).toInt * 10 ^ 6 + (stopwatchElapsedUs farBack).toInt ≠
        farBack.elapsed ∧
      ∀ sec usec : BitVec 64, usec.toInt < 10 ^ 6 → 0 ≤ usec.toInt →
        sec.toInt * 10 ^ 6 + usec.toInt ≠ farBack.elapsed := by
  have elapsed : farBack.elapsed = -2 ^ 63 * 10 ^ 6 - 1 := by decide
  refine ⟨⟨⟨by decide, by decide⟩, ⟨by decide, by decide⟩, by decide⟩, by decide, ?_⟩
  intro sec usec below nonneg
  have least := sec.le_toInt
  omega

end TrippingRobot.Stopwatch
