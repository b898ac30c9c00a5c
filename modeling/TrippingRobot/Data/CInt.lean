import TrippingRobot.Data.Long

/-! The C type `int`, which counts up to `2 ^ 31 - 1`. -/

namespace TrippingRobot.Data

/-- `int`, and the bits of `unsigned int`. -/
abbrev CInt := BitVec 32

theorem CInt.toInt_ofNat {value : Nat} (small : value < 2 ^ 31) :
    (BitVec.ofNat 32 value).toInt = value :=
  toInt_ofNat_of_fits (by decide) ⟨by omega, by omega⟩

theorem CInt.toInt_add {a b : CInt} (lower : -2 ^ 31 ≤ a.toInt + b.toInt)
    (upper : a.toInt + b.toInt < 2 ^ 31) : (a + b).toInt = a.toInt + b.toInt :=
  toInt_add_of_fits (by decide) ⟨lower, upper⟩

theorem CInt.toInt_sub {a b : CInt} (lower : -2 ^ 31 ≤ a.toInt - b.toInt)
    (upper : a.toInt - b.toInt < 2 ^ 31) : (a - b).toInt = a.toInt - b.toInt :=
  toInt_sub_of_fits (by decide) ⟨lower, upper⟩

theorem CInt.toInt_add_one {count : CInt} {total : Nat} (counts : count.toInt = total)
    (below : total < 2 ^ 31 - 1) : (count + 1).toInt = total + 1 := by
  have one : (1 : CInt).toInt = 1 := rfl
  rw [CInt.toInt_add (by omega) (by omega), counts, one]

theorem CInt.toInt_sub_one {count : CInt} {total : Nat} (counts : count.toInt = total + 1) :
    (count - 1).toInt = total := by
  have upper := count.toInt_lt
  have one : (1 : CInt).toInt = 1 := rfl
  rw [CInt.toInt_sub (by omega) (by omega), counts, one]
  omega

theorem CInt.total_le {count : CInt} {total : Nat} (counts : count.toInt = total) :
    total ≤ 2 ^ 31 - 1 := by
  have upper := count.toInt_lt
  omega

/-- Taking away a nonnegative number wraps at the lower end only. -/
theorem CInt.toInt_sub_wrap {a b : CInt} (nonneg : 0 ≤ b.toInt) :
    (a - b).toInt =
      if a.toInt - b.toInt < -2 ^ 31 then a.toInt - b.toInt + 2 ^ 32 else a.toInt - b.toInt := by
  have lower := a.le_toInt
  have upper := a.toInt_lt
  have bound := b.toInt_lt
  rw [BitVec.toInt_sub, Int.bmod_def]
  split <;> split <;> omega

/-- The unsigned distance from one signed number up to another. -/
theorem CInt.toNat_sub_wrap (a b : CInt) :
    ((a - b).toNat : Int) =
      if b.toInt ≤ a.toInt then a.toInt - b.toInt else a.toInt - b.toInt + 2 ^ 32 := by
  have left := BitVec.toInt_eq_toNat_cond a
  have right := BitVec.toInt_eq_toNat_cond b
  have leftBound := a.isLt
  have rightBound := b.isLt
  rw [BitVec.toNat_sub]
  split at left <;> split at right <;> split <;> omega

end TrippingRobot.Data
