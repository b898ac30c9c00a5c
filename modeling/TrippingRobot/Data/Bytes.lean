import Mathlib.Algebra.Order.Ring.Nat
import Mathlib.Order.Interval.Finset.Nat
import Mathlib.Data.UInt
import Mathlib.Logic.Function.Basic

/-! Byte memory, and numbers laid out in it with the least significant byte first. -/

namespace TrippingRobot.Data

abbrev Memory := Nat → UInt8

namespace Memory

def storeLE (memory : Memory) (address : Nat) : (count value : Nat) → Memory
  | 0, _ => memory
  | count + 1, value =>
    storeLE (Function.update memory address (.ofNat value)) (address + 1) count (value / 256)

def loadLE (memory : Memory) (address : Nat) : (count : Nat) → Nat
  | 0 => 0
  | count + 1 => (memory address).toNat + 256 * memory.loadLE (address + 1) count

theorem storeLE_outside (memory : Memory) {address count value other : Nat}
    (outside : other < address ∨ address + count ≤ other) :
    memory.storeLE address count value other = memory other := by
  induction count generalizing memory address value with
  | zero => rfl
  | succ count ih =>
    rw [storeLE, ih _ (by omega), Function.update_of_ne (by omega)]

theorem loadLE_congr {memory later : Memory} {address count : Nat}
    (same : ∀ other, address ≤ other → other < address + count → later other = memory other) :
    later.loadLE address count = memory.loadLE address count := by
  induction count generalizing address with
  | zero => rfl
  | succ count ih =>
    rw [loadLE, loadLE, same address le_rfl (by omega),
      ih fun other lower upper => same other (by omega) (by omega)]

theorem loadLE_lt (memory : Memory) (address count : Nat) :
    memory.loadLE address count < 256 ^ count := by
  induction count generalizing address with
  | zero => simp [loadLE]
  | succ count ih =>
    have rest := ih (address + 1)
    have byte := (memory address).toNat_lt
    rw [loadLE, pow_succ]
    omega

/-- The first bytes of a stored number are its lowest. -/
theorem loadLE_storeLE (memory : Memory) (address value : Nat) {part count : Nat}
    (inside : part ≤ count) :
    (memory.storeLE address count value).loadLE address part = value % 256 ^ part := by
  induction part generalizing memory address value count with
  | zero => simp [loadLE, Nat.mod_one]
  | succ part ih =>
    obtain ⟨count, rfl⟩ : ∃ fewer, count = fewer + 1 := ⟨count - 1, by omega⟩
    have byte : (UInt8.ofNat value).toNat = value % 256 := UInt8.toNat_ofNat'
    rw [storeLE, loadLE, ih _ _ _ (by omega), storeLE_outside _ (.inl (by omega)),
      Function.update_self, byte, pow_succ', Nat.mod_mul]

theorem loadLE_add (memory : Memory) (address low high : Nat) :
    memory.loadLE address (low + high) =
      memory.loadLE address low + 256 ^ low * memory.loadLE (address + low) high := by
  induction low generalizing address with
  | zero => simp [loadLE]
  | succ low ih =>
    rw [Nat.succ_add, loadLE, loadLE, ih (address + 1), pow_succ', Nat.add_right_comm address 1 low,
      Nat.mul_add, Nat.add_assoc address low 1, Nat.mul_assoc, ← Nat.add_assoc]

end Memory

private theorem exists_cover {α : Type*} (start length : α → Nat) (ranges : List α)
    (apart : ranges.Pairwise fun range other =>
      start range + length range ≤ start other ∨ start other + length other ≤ start range) :
    ∃ cover : Finset Nat, cover.card = (ranges.map length).sum ∧
      ∀ address ∈ cover, ∃ range ∈ ranges,
        start range ≤ address ∧ address < start range + length range := by
  induction ranges with
  | nil => exact ⟨∅, rfl, by simp⟩
  | cons range rest ih =>
    have ⟨separate, restApart⟩ := List.pairwise_cons.mp apart
    obtain ⟨cover, card, covered⟩ := ih restApart
    refine ⟨Finset.Ico (start range) (start range + length range) ∪ cover, ?_, ?_⟩
    · rw [Finset.card_union_of_disjoint, card]
      · simp
      · rw [Finset.disjoint_left]
        intro address here there
        obtain ⟨other, member, lower, upper⟩ := covered address there
        have gap := separate other member
        simp only [Finset.mem_Ico] at here
        omega
    · intro address member
      rcases Finset.mem_union.mp member with here | there
      · exact ⟨range, List.mem_cons_self, by simpa using here⟩
      · obtain ⟨other, found, within⟩ := covered address there
        exact ⟨other, List.mem_cons_of_mem _ found, within⟩

/-- Ranges without common bytes fit together below their bound. -/
theorem sum_length_le {α : Type*} {bound : Nat} (start length : α → Nat) (ranges : List α)
    (inside : ∀ range ∈ ranges, start range + length range ≤ bound)
    (apart : ranges.Pairwise fun range other =>
      start range + length range ≤ start other ∨ start other + length other ≤ start range) :
    (ranges.map length).sum ≤ bound := by
  obtain ⟨cover, card, covered⟩ := exists_cover start length ranges apart
  rw [← card, ← Finset.card_range bound]
  apply Finset.card_le_card
  intro address member
  obtain ⟨range, found, _, upper⟩ := covered address member
  have top := inside range found
  exact Finset.mem_range.mpr (by omega)

end TrippingRobot.Data
