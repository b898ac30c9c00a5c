import Mathlib.Logic.Function.Basic

/-! Blocks of allocated memory that hold whole elements of one type. An access
past the capacity has no result, also to an element of which the memory holds a part. -/

namespace TrippingRobot.Data

universe u
variable {α : Type u}

structure Block (α : Type u) where
  capacity : Nat
  cell : Nat → α

namespace Block

def read (block : Block α) (index : Nat) : Option α :=
  if index < block.capacity then some (block.cell index) else none

def write (block : Block α) (index : Nat) (value : α) : Option (Block α) :=
  if index < block.capacity then
    some { block with cell := Function.update block.cell index value }
  else none

/-- Every element replaced by one value, as `memset` of the whole block does. -/
def fill (block : Block α) (value : α) : Block α :=
  { block with cell := fun _ => value }

/-- `memcpy` of the first `count` elements. -/
def copyFrom (block source : Block α) (count : Nat) : Option (Block α) :=
  if count ≤ block.capacity ∧ count ≤ source.capacity then
    some { block with cell := fun index => if index < count then source.cell index else block.cell index }
  else none

@[simp] theorem read_inside {block : Block α} (inside : index < block.capacity) :
    block.read index = some (block.cell index) := by simp [read, inside]

@[simp] theorem write_inside {block : Block α} (inside : index < block.capacity) (value : α) :
    block.write index value =
      some { block with cell := Function.update block.cell index value } := by
  simp [write, inside]

theorem write_outside {block : Block α} (outside : block.capacity ≤ index) (value : α) :
    block.write index value = none := by
  simp [write, Nat.not_lt.mpr outside]

theorem copyFrom_whole {block source : Block α} (same : block.capacity = source.capacity) :
    ∃ copy, block.copyFrom source source.capacity = some copy ∧
      copy.capacity = source.capacity ∧
      ∀ index, index < source.capacity → copy.cell index = source.cell index := by
  refine ⟨_, if_pos ⟨by omega, by omega⟩, same, ?_⟩
  intro index inside
  simp [inside]

end Block

end TrippingRobot.Data
