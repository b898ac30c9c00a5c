import TrippingRobot.Timecmp.Compare

/-! The template `RollingTime` of `timecmp.hpp`, with the conversions C++ makes for its
operators. -/

namespace TrippingRobot.Timecmp

open Data

/-- The width of `TimeParam<bits>::type`. -/
def timeParam (bits : Nat) : Nat :=
  if bits ≤ 8 then 8
  else if 8 < bits ∧ bits ≤ 16 then 16
  else if 16 < bits ∧ bits ≤ 32 then 32
  else 64

/-- The width in which operands of an unsigned type are computed with: types narrower
than `int` are promoted to it. -/
def promotedWidth (width : Nat) : Nat := if width < 32 then 32 else width

/-- An operand promoted. The value of an unsigned type does not change. -/
def promoted {width : Nat} (value : BitVec width) : BitVec (promotedWidth width) :=
  value.setWidth (promotedWidth width)

/-- A result converted back to its type. -/
def converted {width : Nat} (value : BitVec (promotedWidth width)) : BitVec width :=
  value.setWidth width

/-- `x > y` after promotion: signed for what became an `int`. -/
def promotedGreater (width : Nat) (x y : BitVec (promotedWidth width)) : Bool :=
  if width < 32 then y.slt x else y.ult x

structure RollingTime (timebits : Nat) where
  time : BitVec (timeParam timebits)
  deriving DecidableEq

namespace RollingTime

variable {timebits : Nat}

def msb (timebits : Nat) : BitVec (timeParam timebits) :=
  converted (promoted (1 : BitVec (timeParam timebits)) <<< (timebits - 1))

def max (timebits : Nat) : BitVec (timeParam timebits) :=
  converted (((promoted (msb timebits) - 1) <<< 1) + 1)

/-- `operator >` -/
def greater (self rhs : RollingTime timebits) : Bool :=
  promotedGreater (timeParam timebits)
    ((promoted rhs.time - promoted self.time) &&& promoted (max timebits))
    (promoted (msb timebits))

/-- `operator <` -/
def less (self rhs : RollingTime timebits) : Bool :=
  promotedGreater (timeParam timebits)
    ((promoted self.time - promoted rhs.time) &&& promoted (max timebits))
    (promoted (msb timebits))

/-- `operator >=` -/
def greaterEq (self rhs : RollingTime timebits) : Bool :=
  !((promoted self.time - promoted rhs.time) &&& promoted (msb timebits) ==
    promoted (msb timebits))

/-- `operator <=` -/
def lessEq (self rhs : RollingTime timebits) : Bool :=
  !((promoted rhs.time - promoted self.time) &&& promoted (msb timebits) ==
    promoted (msb timebits))

end RollingTime

/-! ## The type chosen for a timer -/

private theorem timeParam_cases (bits : Nat) :
    (timeParam bits = 8 ∧ bits ≤ 8) ∨ (timeParam bits = 16 ∧ bits ≤ 16) ∨
      (timeParam bits = 32 ∧ bits ≤ 32) ∨ timeParam bits = 64 := by
  by_cases eight : bits ≤ 8
  · left
    exact ⟨if_pos eight, eight⟩
  · by_cases sixteen : bits ≤ 16
    · right; left
      exact ⟨by rw [timeParam, if_neg eight, if_pos ⟨by omega, sixteen⟩], sixteen⟩
    · by_cases thirtyTwo : bits ≤ 32
      · right; right; left
        refine ⟨?_, thirtyTwo⟩
        rw [timeParam, if_neg eight, if_neg (by omega), if_pos ⟨by omega, thirtyTwo⟩]
      · right; right; right
        rw [timeParam, if_neg eight, if_neg (by omega), if_neg (by omega)]

theorem le_timeParam {bits : Nat} (fits : bits ≤ 64) : bits ≤ timeParam bits := by
  have cases := timeParam_cases bits
  omega

theorem timeParam_le (bits : Nat) : timeParam bits ≤ 64 := by
  have cases := timeParam_cases bits
  omega

/-- Only timers of at most 16 bits have a type narrower than `int`. -/
theorem le_of_timeParam_lt {bits : Nat} (narrow : timeParam bits < 32) : bits ≤ 16 := by
  have cases := timeParam_cases bits
  omega

theorem le_promotedWidth (width : Nat) : width ≤ promotedWidth width := by
  unfold promotedWidth
  split <;> omega

@[simp] theorem toNat_promoted {width : Nat} (value : BitVec width) :
    (promoted value).toNat = value.toNat :=
  BitVec.toNat_setWidth_of_le (le_promotedWidth width)

/-- Where `int` is used both sides are small enough for the sign not to matter. -/
theorem promotedGreater_eq {width : Nat} {x y : BitVec (promotedWidth width)}
    (small : width < 32 → x.toNat < 2 ^ 31 ∧ y.toNat < 2 ^ 31) :
    promotedGreater width x y = decide (y < x) := by
  unfold promotedGreater
  split
  · rename_i narrow
    obtain ⟨xSmall, ySmall⟩ := small narrow
    have range : 2 ^ promotedWidth width = 2 ^ 32 := by
      rw [promotedWidth, if_pos narrow]
    have xSigned : x.toInt = x.toNat := BitVec.toInt_eq_toNat_of_lt (by omega)
    have ySigned : y.toInt = y.toNat := BitVec.toInt_eq_toNat_of_lt (by omega)
    rw [BitVec.slt, xSigned, ySigned]
    norm_cast
  · rfl

/-! ## The constants of the template -/

namespace RollingTime

variable {timebits : Nat}

theorem toNat_msb (positive : 1 ≤ timebits) (fits : timebits ≤ 64) :
    (msb timebits).toNat = 2 ^ (timebits - 1) := by
  have room := le_timeParam fits
  have wide := le_promotedWidth (timeParam timebits)
  have narrow : 2 ^ (timebits - 1) < 2 ^ timeParam timebits :=
    Nat.pow_lt_pow_right (by omega) (by omega)
  have inside : 2 ^ (timebits - 1) < 2 ^ promotedWidth (timeParam timebits) :=
    Nat.pow_lt_pow_right (by omega) (by omega)
  have one : (1 : BitVec (timeParam timebits)).toNat = 1 := BitVec.toNat_one (by omega)
  rw [msb, converted, BitVec.toNat_setWidth, BitVec.toNat_shiftLeft, toNat_promoted, one,
    Nat.one_shiftLeft, Nat.mod_eq_of_lt inside, Nat.mod_eq_of_lt narrow]

theorem toNat_max (positive : 1 ≤ timebits) (fits : timebits ≤ 64) :
    (max timebits).toNat = 2 ^ timebits - 1 := by
  have room := le_timeParam fits
  have wide := le_promotedWidth (timeParam timebits)
  have period : 2 ^ timebits = 2 ^ (timebits - 1) * 2 := by
    rw [← pow_succ]
    congr 1
    omega
  have above := Nat.two_pow_pos (timebits - 1)
  have narrow : 2 ^ timebits ≤ 2 ^ timeParam timebits := Nat.pow_le_pow_right (by omega) room
  have inside : 2 ^ timeParam timebits ≤ 2 ^ promotedWidth (timeParam timebits) :=
    Nat.pow_le_pow_right (by omega) wide
  have one : (1 : BitVec (promotedWidth (timeParam timebits))).toNat = 1 :=
    BitVec.toNat_one (by omega)
  have lower : (promoted (msb timebits) - 1).toNat = 2 ^ (timebits - 1) - 1 := by
    rw [BitVec.toNat_sub_of_le, toNat_promoted, toNat_msb positive fits, one]
    rw [BitVec.le_def, toNat_promoted, toNat_msb positive fits, one]
    omega
  have doubled : ((promoted (msb timebits) - 1) <<< 1).toNat = 2 ^ timebits - 2 := by
    rw [BitVec.toNat_shiftLeft, lower, Nat.shiftLeft_eq, Nat.mod_eq_of_lt (by omega)]
    omega
  rw [max, converted, BitVec.toNat_setWidth, BitVec.toNat_add, doubled, one,
    Nat.mod_eq_of_lt (by omega : _ < 2 ^ promotedWidth (timeParam timebits)),
    Nat.mod_eq_of_lt (by omega)]
  omega

theorem promoted_msb (positive : 1 ≤ timebits) (fits : timebits ≤ 64) :
    promoted (msb timebits) = BitVec.twoPow (promotedWidth (timeParam timebits)) (timebits - 1) := by
  have room := le_timeParam fits
  have wide := le_promotedWidth (timeParam timebits)
  have inside : 2 ^ (timebits - 1) < 2 ^ promotedWidth (timeParam timebits) :=
    Nat.pow_lt_pow_right (by omega) (by omega)
  apply BitVec.eq_of_toNat_eq
  rw [toNat_promoted, toNat_msb positive fits, BitVec.toNat_twoPow, Nat.mod_eq_of_lt inside]

theorem promoted_max (positive : 1 ≤ timebits) (fits : timebits ≤ 64) :
    promoted (max timebits) = lowMask (promotedWidth (timeParam timebits)) timebits := by
  have wide := (le_timeParam fits).trans (le_promotedWidth _)
  apply BitVec.eq_of_toNat_eq
  rw [toNat_promoted, toNat_max positive fits, toNat_lowMask wide]

/-! ## The operators -/

theorem greater_eq (positive : 1 ≤ timebits) (fits : timebits ≤ 64) (x y : RollingTime timebits) :
    x.greater y = decide (Ahead timebits x.time.toNat y.time.toNat) := by
  have wide := (le_timeParam fits).trans (le_promotedWidth _)
  have trick := twoPow_lt_sub_iff positive wide (promoted x.time) (promoted y.time)
  rw [toNat_promoted, toNat_promoted] at trick
  rw [greater, promoted_max positive fits, promoted_msb positive fits, promotedGreater_eq]
  · exact decide_eq_decide.mpr trick
  · intro narrow
    have few := le_of_timeParam_lt narrow
    have bound : 2 ^ timebits ≤ 2 ^ 16 := Nat.pow_le_pow_right (by omega) few
    have half : 2 ^ (timebits - 1) ≤ 2 ^ 16 := Nat.pow_le_pow_right (by omega) (by omega)
    have inside : 2 ^ (timebits - 1) < 2 ^ promotedWidth (timeParam timebits) :=
      Nat.pow_lt_pow_right (by omega) (by omega)
    rw [toNat_and_lowMask wide, BitVec.toNat_twoPow, Nat.mod_eq_of_lt inside]
    have remainder := Nat.mod_lt (promoted y.time - promoted x.time).toNat (Nat.two_pow_pos timebits)
    constructor <;> omega

theorem greaterEq_eq (positive : 1 ≤ timebits) (fits : timebits ≤ 64)
    (x y : RollingTime timebits) :
    x.greaterEq y = decide (AheadOrLevel timebits x.time.toNat y.time.toNat) := by
  have wide := (le_timeParam fits).trans (le_promotedWidth _)
  have trick := not_sub_and_twoPow_beq positive wide (promoted x.time) (promoted y.time)
  simp only [toNat_promoted] at trick
  rw [greaterEq, promoted_msb positive fits, trick]

end RollingTime

/-! ## The three implementations -/

/-- A value zero-extended to 64 bits. -/
def widened {width : Nat} (value : BitVec width) : BitVec 64 := value.setWidth 64

@[simp] theorem toNat_widened {width : Nat} (narrow : width ≤ 64) (value : BitVec width) :
    (widened value).toNat = value.toNat :=
  BitVec.toNat_setWidth_of_le narrow

structure OperatorsAgree (timebits : Nat) : Prop where
  greater : ∀ x y : RollingTime timebits,
    timeIsAfter64 (widened x.time) (widened y.time) (lowMask 64 timebits) = some (x.greater y)
  less : ∀ x y : RollingTime timebits,
    timeIsBefore64 (widened x.time) (widened y.time) (lowMask 64 timebits) = some (x.less y)
  greaterEq : ∀ x y : RollingTime timebits,
    timeIsAfterEq64 (widened x.time) (widened y.time) (lowMask 64 timebits) = some (x.greaterEq y)
  lessEq : ∀ x y : RollingTime timebits,
    timeIsBeforeEq64 (widened x.time) (widened y.time) (lowMask 64 timebits) = some (x.lessEq y)

structure WordsAgree (timebits : Nat) : Prop where
  after : ∀ a b : BitVec 32, timeIsAfter a b (lowMask 32 timebits) =
    timeIsAfter64 (widened a) (widened b) (lowMask 64 timebits)
  before : ∀ a b : BitVec 32, timeIsBefore a b (lowMask 32 timebits) =
    timeIsBefore64 (widened a) (widened b) (lowMask 64 timebits)
  afterEq : ∀ a b : BitVec 32, timeIsAfterEq a b (lowMask 32 timebits) =
    timeIsAfterEq64 (widened a) (widened b) (lowMask 64 timebits)
  beforeEq : ∀ a b : BitVec 32, timeIsBeforeEq a b (lowMask 32 timebits) =
    timeIsBeforeEq64 (widened a) (widened b) (lowMask 64 timebits)

variable {timebits : Nat}

theorem OperatorsAgree.of_bits (positive : 1 ≤ timebits) (fits : timebits ≤ 64) :
    OperatorsAgree timebits := by
  have narrow := timeParam_le timebits
  have strict : ∀ x y : RollingTime timebits,
      wordIsAfter (widened x.time) (widened y.time) (lowMask 64 timebits) = some (x.greater y) := by
    intro x y
    rw [wordIsAfter_lowMask positive fits, RollingTime.greater_eq positive fits]
    simp only [toNat_widened narrow]
  have level : ∀ x y : RollingTime timebits,
      wordIsAfterEq (widened x.time) (widened y.time) (lowMask 64 timebits) =
        some (x.greaterEq y) := by
    intro x y
    rw [wordIsAfterEq_lowMask positive fits, RollingTime.greaterEq_eq positive fits]
    simp only [toNat_widened narrow]
  exact ⟨strict, fun x y => strict y x, level, fun x y => level y x⟩

theorem WordsAgree.of_bits (positive : 1 ≤ timebits) (fits : timebits ≤ 32) :
    WordsAgree timebits := by
  have strict : ∀ a b : BitVec 32, wordIsAfter a b (lowMask 32 timebits) =
      wordIsAfter (widened a) (widened b) (lowMask 64 timebits) := by
    intro a b
    rw [wordIsAfter_lowMask positive fits, wordIsAfter_lowMask positive (by omega)]
    simp only [toNat_widened (by omega : 32 ≤ 64)]
  have level : ∀ a b : BitVec 32, wordIsAfterEq a b (lowMask 32 timebits) =
      wordIsAfterEq (widened a) (widened b) (lowMask 64 timebits) := by
    intro a b
    rw [wordIsAfterEq_lowMask positive fits, wordIsAfterEq_lowMask positive (by omega)]
    simp only [toNat_widened (by omega : 32 ≤ 64)]
  exact ⟨strict, fun a b => strict b a, level, fun a b => level b a⟩

/-- All three implementations of the comparison agree, and so do their constants. -/
theorem rollingTime_agrees (timebits : Nat) (positive : 1 ≤ timebits) (fits : timebits ≤ 64) :
    OperatorsAgree timebits ∧
      (RollingTime.max timebits).toNat = 2 ^ timebits - 1 ∧
      maskMsb64 (widened (RollingTime.max timebits)) = some (widened (RollingTime.msb timebits)) ∧
      (timebits ≤ 32 → WordsAgree timebits) := by
  have narrow := timeParam_le timebits
  refine ⟨.of_bits positive fits, RollingTime.toNat_max positive fits, ?_, .of_bits positive⟩
  have mask : widened (RollingTime.max timebits) = lowMask 64 timebits := by
    apply BitVec.eq_of_toNat_eq
    rw [toNat_widened narrow, RollingTime.toNat_max positive fits, toNat_lowMask fits]
  have half : widened (RollingTime.msb timebits) = BitVec.twoPow 64 (timebits - 1) := by
    have inside : 2 ^ (timebits - 1) < 2 ^ 64 := Nat.pow_lt_pow_right (by omega) (by omega)
    apply BitVec.eq_of_toNat_eq
    rw [toNat_widened narrow, RollingTime.toNat_msb positive fits, BitVec.toNat_twoPow,
      Nat.mod_eq_of_lt inside]
  rw [mask, half]
  exact wordMaskMsb_lowMask positive fits

theorem rollingTime_agrees_eight :
    OperatorsAgree 8 ∧ (RollingTime.max 8).toNat = 2 ^ 8 - 1 ∧
      maskMsb64 (widened (RollingTime.max 8)) = some (widened (RollingTime.msb 8)) ∧
      (8 ≤ 32 → WordsAgree 8) :=
  rollingTime_agrees 8 (by decide) (by decide)

end TrippingRobot.Timecmp
