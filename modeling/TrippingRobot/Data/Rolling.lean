import Mathlib.Data.Int.ModEq
import TrippingRobot.Data.Long

/-! Times known modulo a power of two, and the words whose low bits hold them. -/

namespace TrippingRobot.Data

/-- How far `s` is in front of `t` on a dial of `2 ^ bits` ticks. -/
def lead (bits : Nat) (s t : Int) : Int := (s - t) % 2 ^ bits

/-- `s` is in front of `t` by less than half a turn. -/
def Ahead (bits : Nat) (s t : Int) : Prop := 0 < lead bits s t ∧ lead bits s t < 2 ^ (bits - 1)

def AheadOrLevel (bits : Nat) (s t : Int) : Prop := lead bits s t < 2 ^ (bits - 1)

instance (bits : Nat) (s t : Int) : Decidable (Ahead bits s t) := by
  unfold Ahead
  infer_instance

instance (bits : Nat) (s t : Int) : Decidable (AheadOrLevel bits s t) := by
  unfold AheadOrLevel
  infer_instance

theorem period_positive (bits : Nat) : (0 : Int) < 2 ^ bits := Int.pow_pos (by omega)

theorem lead_nonneg (bits : Nat) (s t : Int) : 0 ≤ lead bits s t :=
  Int.emod_nonneg _ (period_positive bits).ne'

theorem lead_lt (bits : Nat) (s t : Int) : lead bits s t < 2 ^ bits :=
  Int.emod_lt_of_pos _ (period_positive bits)

theorem lead_congr {bits : Nat} {s s' t t' : Int} (left : s ≡ s' [ZMOD 2 ^ bits])
    (right : t ≡ t' [ZMOD 2 ^ bits]) : lead bits s t = lead bits s' t' :=
  left.sub right

/-- Seen from the other side the lead is what is missing to a full turn. -/
theorem lead_swap {bits : Nat} {s t : Int} (apart : lead bits s t ≠ 0) :
    lead bits t s = 2 ^ bits - lead bits s t := by
  have negated : lead bits t s = (-(s - t)) % 2 ^ bits := by
    unfold lead
    congr 1
    ring
  have bounded := lead_lt bits s t
  have nonneg := lead_nonneg bits s t
  rw [negated, Int.neg_emod, if_neg]
  · rw [lead, Int.natAbs_pow, Nat.cast_pow]
    rfl
  · intro divides
    exact apart (Int.emod_eq_zero_of_dvd divides)

theorem lead_eq_zero_swap {bits : Nat} {s t : Int} (level : lead bits s t = 0) :
    lead bits t s = 0 := by
  have divides : (2 : Int) ^ bits ∣ s - t := Int.dvd_of_emod_eq_zero level
  have negated : (2 : Int) ^ bits ∣ t - s := by
    have opposite := (Int.dvd_neg).mpr divides
    rwa [neg_sub] at opposite
  exact Int.emod_eq_zero_of_dvd negated

/-- Neither of two times is more than half a turn behind the other only if they are level. -/
theorem aheadOrLevel_both_iff {bits : Nat} (positive : 1 ≤ bits) (s t : Int) :
    AheadOrLevel bits s t ∧ AheadOrLevel bits t s ↔ lead bits s t = 0 := by
  have period := two_pow_half positive
  have above := period_positive (bits - 1)
  constructor
  · rintro ⟨first, second⟩
    by_contra apart
    have other := lead_swap apart
    simp only [AheadOrLevel] at first second
    omega
  · intro level
    have other := lead_eq_zero_swap level
    simp only [AheadOrLevel, level, other]
    exact ⟨above, above⟩

/-- Times less than half a turn apart are told apart by their lead. -/
theorem lead_of_near {bits : Nat} (positive : 1 ≤ bits) {s t : Int}
    (near : |s - t| < 2 ^ (bits - 1)) :
    lead bits s t = if t ≤ s then s - t else s - t + 2 ^ bits := by
  have period := two_pow_half positive
  have bounds := abs_lt.mp near
  split
  · rename_i behind
    exact Int.emod_eq_of_lt (by omega) (by omega)
  · rename_i behind
    have turned : (s - t) % 2 ^ bits = (s - t + 2 ^ bits) % 2 ^ bits := by simp
    unfold lead
    rw [turned]
    exact Int.emod_eq_of_lt (by omega) (by omega)

theorem ahead_iff_lt {bits : Nat} (positive : 1 ≤ bits) {s t : Int}
    (near : |s - t| < 2 ^ (bits - 1)) : Ahead bits s t ↔ t < s := by
  have period := two_pow_half positive
  have bounds := abs_lt.mp near
  rw [Ahead, lead_of_near positive near]
  split <;> omega

theorem aheadOrLevel_iff_le {bits : Nat} (positive : 1 ≤ bits) {s t : Int}
    (near : |s - t| < 2 ^ (bits - 1)) : AheadOrLevel bits s t ↔ t ≤ s := by
  have period := two_pow_half positive
  have bounds := abs_lt.mp near
  rw [AheadOrLevel, lead_of_near positive near]
  split <;> omega

theorem lead_half_swap {bits : Nat} (positive : 1 ≤ bits) {s t : Int}
    (half : lead bits s t = 2 ^ (bits - 1)) : lead bits t s = 2 ^ (bits - 1) := by
  have period := two_pow_half positive
  have above := period_positive (bits - 1)
  rw [lead_swap (by omega), half]
  omega

/-- `s` is ahead of `t` exactly if `t` is more than half a turn in front of `s`. -/
theorem ahead_iff_swap {bits : Nat} (positive : 1 ≤ bits) (s t : Int) :
    Ahead bits s t ↔ 2 ^ (bits - 1) < lead bits t s := by
  have period := two_pow_half positive
  have above := period_positive (bits - 1)
  have nonneg := lead_nonneg bits s t
  have below := lead_lt bits s t
  by_cases level : lead bits s t = 0
  · have other := lead_eq_zero_swap level
    simp only [Ahead, level, other]
    omega
  · rw [Ahead, lead_swap level]
    omega

/-! ## Masks of low bits -/

variable {width : Nat}

/-- The word whose low `bits` bits are set. -/
def lowMask (width bits : Nat) : BitVec width := BitVec.ofNat width (2 ^ bits - 1)

theorem toNat_lowMask {bits : Nat} (fits : bits ≤ width) :
    (lowMask width bits).toNat = 2 ^ bits - 1 := by
  have larger := Nat.pow_le_pow_right (show 0 < 2 by omega) fits
  have above := Nat.two_pow_pos bits
  rw [lowMask, BitVec.toNat_ofNat, Nat.mod_eq_of_lt (by omega)]

theorem toNat_and_lowMask {bits : Nat} (fits : bits ≤ width) (word : BitVec width) :
    (word &&& lowMask width bits).toNat = word.toNat % 2 ^ bits := by
  rw [BitVec.toNat_and, toNat_lowMask fits, Nat.and_two_pow_sub_one_eq_mod]

/-- The bit above the low ones does not meet them. -/
theorem lowMask_add_one_and (bits : Nat) :
    (lowMask width bits + BitVec.ofNat width 1) &&& lowMask width bits = BitVec.ofNat width 0 := by
  rw [lowMask, BitVec.ofNat_add_ofNat, ← BitVec.ofNat_and, Nat.sub_add_cancel Nat.one_le_two_pow,
    Nat.and_two_pow_sub_one_eq_mod, Nat.mod_self]

/-- Only a mask of low bits loses every bit when one is added, if only to the carry out of
the word. -/
theorem add_one_and_eq_zero_iff (word : BitVec width) :
    (word + BitVec.ofNat width 1) &&& word = BitVec.ofNat width 0 ↔
      ∃ bits ≤ width, word = lowMask width bits := by
  constructor
  · intro cleared
    have below := word.isLt
    by_cases full : word.toNat + 1 = 2 ^ width
    · refine ⟨width, le_rfl, ?_⟩
      apply BitVec.eq_of_toNat_eq
      rw [toNat_lowMask le_rfl]
      omega
    · have sum : (word + BitVec.ofNat width 1).toNat = word.toNat + 1 := by
        rw [BitVec.toNat_add, BitVec.toNat_ofNat, Nat.add_mod_mod, Nat.mod_eq_of_lt (by omega)]
      have meet : (word.toNat + 1) &&& word.toNat = 0 := by
        have value := congrArg BitVec.toNat cleared
        rwa [BitVec.toNat_and, sum, BitVec.toNat_ofNat, Nat.zero_mod] at value
      obtain ⟨bits, power⟩ :=
        (Nat.and_sub_one_eq_zero_iff_isPowerOfTwo (Nat.succ_ne_zero word.toNat)).mp meet
      have fits : bits ≤ width := by
        apply (Nat.pow_le_pow_iff_right (show 1 < 2 by decide)).mp
        omega
      refine ⟨bits, fits, ?_⟩
      apply BitVec.eq_of_toNat_eq
      rw [toNat_lowMask fits]
      omega
  · rintro ⟨bits, _, rfl⟩
    exact lowMask_add_one_and bits

theorem getLsbD_lowMask {bits : Nat} (fits : bits ≤ width) (bit : Nat) :
    (lowMask width bits).getLsbD bit = decide (bit < bits) := by
  rw [BitVec.getLsbD, toNat_lowMask fits, Nat.testBit_two_pow_sub_one]

/-- The wrapped difference of two words, read in its low bits, is the lead. -/
theorem toNat_sub_and_lowMask {bits : Nat} (fits : bits ≤ width) (a b : BitVec width) :
    (((a - b) &&& lowMask width bits).toNat : Int) = lead bits a.toNat b.toNat := by
  have divides : (2 : Int) ^ bits ∣ 2 ^ width := pow_dvd_pow 2 fits
  have below := b.isLt
  rw [toNat_and_lowMask fits, BitVec.toNat_sub, lead]
  push_cast [Nat.cast_sub below.le]
  rw [Int.emod_emod_of_dvd _ divides]
  apply Int.ModEq.trans (b := 0 + ((a.toNat : Int) - b.toNat))
  · have regroup : (2 : Int) ^ width - b.toNat + a.toNat = 2 ^ width + (a.toNat - b.toNat) := by ring
    rw [regroup]
    exact (Int.modEq_zero_iff_dvd.mpr divides).add_right _
  · simp

theorem toNat_add_and_lowMask {bits : Nat} (fits : bits ≤ width) (a b : BitVec width) :
    (((a + b) &&& lowMask width bits).toNat : Int) = (a.toNat + b.toNat) % 2 ^ bits := by
  have divides : 2 ^ bits ∣ 2 ^ width := pow_dvd_pow 2 fits
  rw [toNat_and_lowMask fits, BitVec.toNat_add, Nat.mod_mod_of_dvd _ divides]
  push_cast
  rfl

/-- Whether one bit is set is whether the remainder reaches half its range. -/
theorem and_twoPow_eq_iff {bits : Nat} (positive : 1 ≤ bits) (fits : bits ≤ width)
    (word : BitVec width) :
    word &&& BitVec.twoPow width (bits - 1) = BitVec.twoPow width (bits - 1) ↔
      2 ^ (bits - 1) ≤ word.toNat % 2 ^ bits := by
  have period : 2 ^ bits = 2 ^ (bits - 1) * 2 := by
    rw [← pow_succ]
    congr 1
    omega
  have test : word.getLsbD (bits - 1) = true ↔ word.toNat / 2 ^ (bits - 1) % 2 = 1 := by
    rw [BitVec.getLsbD, Nat.testBit_eq_decide_div_mod_eq, decide_eq_true_iff]
  have split : word.toNat % 2 ^ bits =
      word.toNat % 2 ^ (bits - 1) + 2 ^ (bits - 1) * (word.toNat / 2 ^ (bits - 1) % 2) := by
    rw [period, Nat.mod_mul]
  have remainder := Nat.mod_lt word.toNat (Nat.two_pow_pos (bits - 1))
  have inside : 2 ^ (bits - 1) < 2 ^ width := Nat.pow_lt_pow_right (by omega) (by omega)
  rw [BitVec.and_twoPow]
  cases bit : word.getLsbD (bits - 1) with
  | true =>
    have quotient := test.mp bit
    simp only [if_true, true_iff]
    rw [split, quotient]
    omega
  | false =>
    have quotient : word.toNat / 2 ^ (bits - 1) % 2 = 0 := by
      have other : ¬ word.toNat / 2 ^ (bits - 1) % 2 = 1 := by
        intro set
        simp [test.mpr set] at bit
      omega
    constructor
    · intro equal
      have zero := congrArg BitVec.toNat equal
      rw [if_neg (by decide), BitVec.toNat_twoPow, Nat.mod_eq_of_lt inside] at zero
      have above := Nat.two_pow_pos (bits - 1)
      simp at zero
      omega
    · intro reaches
      rw [split, quotient] at reaches
      omega

/-- The strict bit trick: the opposite difference exceeds half the period. -/
theorem twoPow_lt_sub_iff {bits : Nat} (positive : 1 ≤ bits) (fits : bits ≤ width)
    (a b : BitVec width) :
    BitVec.twoPow width (bits - 1) < (b - a) &&& lowMask width bits ↔
      Ahead bits a.toNat b.toNat := by
  have inside : 2 ^ (bits - 1) < 2 ^ width := Nat.pow_lt_pow_right (by omega) (by omega)
  rw [ahead_iff_swap positive, ← toNat_sub_and_lowMask fits b a, BitVec.lt_def,
    BitVec.toNat_twoPow, Nat.mod_eq_of_lt inside]
  norm_cast

/-- The other bit trick: the difference has its highest bit set. -/
theorem sub_and_twoPow_iff {bits : Nat} (positive : 1 ≤ bits) (fits : bits ≤ width)
    (a b : BitVec width) :
    (a - b) &&& BitVec.twoPow width (bits - 1) = BitVec.twoPow width (bits - 1) ↔
      ¬ AheadOrLevel bits a.toNat b.toNat := by
  rw [and_twoPow_eq_iff positive fits, AheadOrLevel, ← toNat_sub_and_lowMask fits a b,
    toNat_and_lowMask fits, Int.not_lt]
  norm_cast

/-- The second test as the comparisons compute it. -/
theorem not_sub_and_twoPow_beq {bits : Nat} (positive : 1 ≤ bits) (fits : bits ≤ width)
    (a b : BitVec width) :
    (!((a - b) &&& BitVec.twoPow width (bits - 1) == BitVec.twoPow width (bits - 1))) =
      decide (AheadOrLevel bits a.toNat b.toNat) := by
  have same := sub_and_twoPow_iff positive fits a b
  by_cases level : AheadOrLevel bits a.toNat b.toNat
  · have clear : ¬ (a - b) &&& BitVec.twoPow width (bits - 1) = BitVec.twoPow width (bits - 1) :=
      fun set => same.mp set level
    simp [level, clear]
  · have set := same.mpr level
    simp [level, set]

end TrippingRobot.Data
