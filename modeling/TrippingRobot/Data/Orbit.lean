import Mathlib.Data.Finset.Card
import Mathlib.Logic.Function.Iterate

/-! Runs of a map that stays inside a finite set. A run that goes on for longer than the set
has values comes back to one of them. -/

namespace TrippingRobot.Data

variable {α : Type*} {step : α → α}

theorem iterate_mem {items : Finset α} (closed : ∀ item ∈ items, step item ∈ items) {start : α}
    (inside : start ∈ items) (count : Nat) : step^[count] start ∈ items := by
  induction count with
  | zero => exact inside
  | succ count reached =>
    rw [Function.iterate_succ_apply']
    exact closed _ reached

variable [DecidableEq α]

/-- Items that go where others go add nothing to what one step reaches. -/
theorem card_image_le_of_spare {items spare : Finset α} (included : spare ⊆ items)
    (doubled : ∀ item ∈ spare, ∃ other ∈ items \ spare, step other = step item) :
    (items.image step).card ≤ items.card - spare.card := by
  have covered : items.image step ⊆ (items \ spare).image step := by
    intro value reached
    obtain ⟨item, member, rfl⟩ := Finset.mem_image.mp reached
    by_cases extra : item ∈ spare
    · obtain ⟨other, kept, same⟩ := doubled item extra
      exact Finset.mem_image.mpr ⟨other, kept, same⟩
    · exact Finset.mem_image_of_mem step (Finset.mem_sdiff.mpr ⟨member, extra⟩)
  calc (items.image step).card
      ≤ ((items \ spare).image step).card := Finset.card_le_card covered
    _ ≤ (items \ spare).card := Finset.card_image_le
    _ = items.card - spare.card := Finset.card_sdiff_of_subset included

/-- More steps than one step has values: two of them reach the same value. -/
theorem exists_iterate_eq {items spare : Finset α} (closed : ∀ item ∈ items, step item ∈ items)
    (included : spare ⊆ items)
    (doubled : ∀ item ∈ spare, ∃ other ∈ items \ spare, step other = step item)
    {start : α} (inside : start ∈ items) {count : Nat} (many : items.card - spare.card < count) :
    ∃ first < count, ∃ second < count, first ≠ second ∧
      step^[first + 1] start = step^[second + 1] start := by
  have fewer : (items.image step).card < (Finset.range count).card := by
    rw [Finset.card_range]
    exact (card_image_le_of_spare included doubled).trans_lt many
  have lands : ∀ steps ∈ Finset.range count, step^[steps + 1] start ∈ items.image step := by
    intro steps _
    rw [Function.iterate_succ_apply']
    exact Finset.mem_image_of_mem step (iterate_mem closed inside steps)
  obtain ⟨first, firstBelow, second, secondBelow, different, same⟩ :=
    Finset.exists_ne_map_eq_of_card_lt_of_maps_to fewer lands
  exact ⟨first, Finset.mem_range.mp firstBelow, second, Finset.mem_range.mp secondBelow,
    different, same⟩

end TrippingRobot.Data
