import Mathlib.Data.BitVec
import Mathlib.Tactic.NormNum
import Mathlib.Tactic.Ring

/-! Signed words of any width, such as the C type `long`. -/

namespace TrippingRobot.Data

variable {width : Nat}

theorem two_pow_half {bits : Nat} (positive : 1 ≤ bits) : (2 : Int) ^ bits = 2 * 2 ^ (bits - 1) := by
  obtain ⟨rest, rfl⟩ : ∃ rest, bits = rest + 1 := ⟨bits - 1, by omega⟩
  rw [pow_succ, Nat.add_sub_cancel]
  ring

/-- The numbers that a signed word has room for. -/
def Fits (width : Nat) (value : Int) : Prop :=
  -2 ^ (width - 1) ≤ value ∧ value < 2 ^ (width - 1)

instance (width : Nat) (value : Int) : Decidable (Fits width value) := by
  unfold Fits
  infer_instance

theorem Fits.bmod_eq (positive : 0 < width) {value : Int} (fits : Fits width value) :
    value.bmod (2 ^ width) = value := by
  obtain ⟨lower, upper⟩ := fits
  have period := two_pow_half positive
  apply Int.bmod_eq_of_le_mul_two
  · push_cast
    omega
  · push_cast
    omega

theorem toInt_add_of_fits (positive : 0 < width) {a b : BitVec width}
    (fits : Fits width (a.toInt + b.toInt)) : (a + b).toInt = a.toInt + b.toInt := by
  rw [BitVec.toInt_add, fits.bmod_eq positive]

theorem toInt_sub_of_fits (positive : 0 < width) {a b : BitVec width}
    (fits : Fits width (a.toInt - b.toInt)) : (a - b).toInt = a.toInt - b.toInt := by
  rw [BitVec.toInt_sub, fits.bmod_eq positive]

theorem toInt_ofNat_of_fits (positive : 0 < width) {value : Nat} (fits : Fits width value) :
    (BitVec.ofNat width value).toInt = value := by
  rw [BitVec.toInt_ofNat', fits.bmod_eq positive]

theorem toInt_sub_one_of_least (large : 2 ≤ width) {word : BitVec width}
    (least : word.toInt = -2 ^ (width - 1)) :
    (word - BitVec.ofNat width 1).toInt = 2 ^ (width - 1) - 1 := by
  have period := two_pow_half (show 1 ≤ width by omega)
  have half : (2 : Int) ≤ 2 ^ (width - 1) := by
    calc (2 : Int) = 2 ^ 1 := by norm_num
      _ ≤ 2 ^ (width - 1) := pow_le_pow_right₀ (by norm_num) (by omega)
  have one : (BitVec.ofNat width 1).toInt = 1 :=
    toInt_ofNat_of_fits (by omega) (by constructor <;> push_cast <;> omega)
  have turned : (-2 ^ (width - 1) - 1 : Int).bmod (2 ^ width) =
      (2 ^ (width - 1) - 1 : Int).bmod (2 ^ width) := by
    rw [← Int.add_bmod_right (-2 ^ (width - 1) - 1)]
    congr 1
    push_cast
    omega
  have greatest : Fits width (2 ^ (width - 1) - 1) := by
    constructor <;> omega
  rw [BitVec.toInt_sub, least, one, turned, greatest.bmod_eq (by omega)]

end TrippingRobot.Data
