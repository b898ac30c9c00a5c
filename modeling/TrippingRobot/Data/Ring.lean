import Mathlib.Data.List.Basic
import Mathlib.Logic.Function.Basic

/-! A ring of slots written at an ever growing position. Read from the write
position it shows the last `size` values ever written, oldest first. -/

namespace TrippingRobot.Data

universe u
variable {α : Type u}

/-- What a reader starting at `start` meets in `count` slots of the ring. -/
def ringRead (cells : Nat → α) (size start : Nat) : Nat → List α
  | 0 => []
  | count + 1 => cells (start % size) :: ringRead cells size (start + 1) count

/-- The last `count` values of a history. -/
def recent (count : Nat) (history : List α) : List α :=
  history.drop (history.length - count)

@[simp] theorem ringRead_zero (cells : Nat → α) (size start : Nat) :
    ringRead cells size start 0 = [] := rfl

@[simp] theorem ringRead_succ (cells : Nat → α) (size start count : Nat) :
    ringRead cells size start (count + 1) =
      cells (start % size) :: ringRead cells size (start + 1) count := rfl

@[simp] theorem ringRead_length (cells : Nat → α) (size start count : Nat) :
    (ringRead cells size start count).length = count := by
  induction count generalizing start with
  | zero => rfl
  | succ count ih => simp [ih]

theorem ringRead_getElem? (cells : Nat → α) (size start count step : Nat) (inside : step < count) :
    (ringRead cells size start count)[step]? = some (cells ((start + step) % size)) := by
  induction count generalizing start step with
  | zero => omega
  | succ count ih =>
    cases step with
    | zero => simp
    | succ step =>
      have shifted : start + 1 + step = start + (step + 1) := by omega
      simpa [shifted] using ih (start + 1) step (by omega)

theorem ringRead_getElem (cells : Nat → α) (size start count step : Nat)
    (inside : step < (ringRead cells size start count).length) :
    (ringRead cells size start count)[step] = cells ((start + step) % size) := by
  have read := ringRead_getElem? cells size start count step (by simpa using inside)
  rw [List.getElem?_eq_getElem inside] at read
  exact Option.some.inj read

theorem mem_ringRead {cells : Nat → α} {size start count : Nat} {value : α}
    (member : value ∈ ringRead cells size start count) :
    ∃ step, step < count ∧ value = cells ((start + step) % size) := by
  obtain ⟨step, inside, found⟩ := List.mem_iff_getElem.mp member
  have bound := inside
  rw [ringRead_length] at bound
  exact ⟨step, bound, found.symm.trans (ringRead_getElem _ _ _ _ _ inside)⟩

theorem ringRead_append (cells : Nat → α) (size start first second : Nat) :
    ringRead cells size start (first + second) =
      ringRead cells size start first ++ ringRead cells size (start + first) second := by
  induction first generalizing start with
  | zero => simp
  | succ first ih =>
    have shifted : start + 1 + first = start + (first + 1) := by omega
    rw [Nat.add_right_comm, ringRead_succ, ih (start + 1), shifted]
    rfl

theorem ringRead_drop (cells : Nat → α) (size start skip count : Nat) :
    (ringRead cells size start (skip + count)).drop skip =
      ringRead cells size (start + skip) count := by
  rw [ringRead_append]
  simp

theorem ringRead_take (cells : Nat → α) (size start : Nat) (fewer : count ≤ total) :
    (ringRead cells size start total).take count = ringRead cells size start count := by
  obtain ⟨rest, rfl⟩ := Nat.exists_eq_add_of_le fewer
  rw [ringRead_append, List.take_left' (ringRead_length ..)]

theorem ringRead_congr (cells : Nat → α) (size : Nat) {start other : Nat} (count : Nat)
    (same : start % size = other % size) :
    ringRead cells size start count = ringRead cells size other count := by
  induction count generalizing start other with
  | zero => rfl
  | succ count ih =>
    have next : (start + 1) % size = (other + 1) % size := by
      rw [Nat.add_mod, same, ← Nat.add_mod]
    simp [same, ih next]

/-- Slots that a reader does not meet may change under it. -/
theorem ringRead_agree (cells others : Nat → α) (size start count : Nat)
    (agree : ∀ step, step < count → cells ((start + step) % size) = others ((start + step) % size)) :
    ringRead cells size start count = ringRead others size start count := by
  induction count generalizing start with
  | zero => rfl
  | succ count ih =>
    have head : cells (start % size) = others (start % size) := by
      simpa using agree 0 (by omega)
    have rest := ih (start + 1) (fun step inside => by
      have shifted : start + 1 + step = start + (step + 1) := by omega
      simpa [shifted] using agree (step + 1) (by omega))
    simp [head, rest]

/-- The slots that a reader meets before the first that memory ends in front of. -/
def ringReach (capacity size start : Nat) : Nat → Nat
  | 0 => 0
  | count + 1 => if start % size < capacity then ringReach capacity size (start + 1) count + 1 else 0

theorem ringReach_congr (capacity size : Nat) {start other : Nat} (count : Nat)
    (same : start % size = other % size) :
    ringReach capacity size start count = ringReach capacity size other count := by
  induction count generalizing start other with
  | zero => rfl
  | succ count ih =>
    have next : (start + 1) % size = (other + 1) % size := by
      rw [Nat.add_mod, same, ← Nat.add_mod]
    rw [ringReach, ringReach, same, ih next]

theorem ringReach_inside {capacity size start count step : Nat}
    (reached : step < ringReach capacity size start count) : (start + step) % size < capacity := by
  induction count generalizing start step with
  | zero => cases reached
  | succ count ih =>
    rw [ringReach] at reached
    split at reached
    · rename_i inside
      cases step with
      | zero => exact inside
      | succ step =>
        have shifted : start + 1 + step = start + (step + 1) := by omega
        exact shifted ▸ ih (Nat.lt_of_succ_lt_succ reached)
    · cases reached

/-- Where there is memory for the whole ring a reader gets through. -/
theorem ringReach_covered {capacity size : Nat} (positive : 0 < size) (covered : size ≤ capacity)
    (start count : Nat) : ringReach capacity size start count = count := by
  induction count generalizing start with
  | zero => rfl
  | succ count ih =>
    have inside : start % size < capacity := Nat.lt_of_lt_of_le (Nat.mod_lt _ positive) covered
    rw [ringReach, if_pos inside, ih]

private theorem slot_ne {size position step : Nat} (inside : step < size) (later : 0 < step) :
    (position + step) % size ≠ position % size := by
  intro same
  have bounded : position % size < size := Nat.mod_lt _ (by omega)
  rw [Nat.add_mod, Nat.mod_eq_of_lt inside] at same
  by_cases wraps : position % size + step < size
  · rw [Nat.mod_eq_of_lt wraps] at same
    omega
  · rw [Nat.mod_eq_sub_mod (by omega), Nat.mod_eq_of_lt (by omega)] at same
    omega

/-- One write at the position drops the oldest value and appends the new one. -/
theorem ringRead_write (cells : Nat → α) (size position : Nat) (value : α) (positive : 0 < size) :
    ringRead (Function.update cells (position % size) value) size (position + 1) size =
      (ringRead cells size position size).tail ++ [value] := by
  obtain ⟨last, rfl⟩ : ∃ last, size = last + 1 := ⟨size - 1, by omega⟩
  have kept : ringRead (Function.update cells (position % (last + 1)) value) (last + 1)
      (position + 1) last = ringRead cells (last + 1) (position + 1) last := by
    apply ringRead_agree
    intro step inside
    have shifted : position + 1 + step = position + (step + 1) := by omega
    rw [shifted, Function.update_of_ne (slot_ne (by omega) (by omega))]
  have wrapped : (position + 1 + last) % (last + 1) = position % (last + 1) := by
    have shifted : position + 1 + last = position + (last + 1) := by omega
    rw [shifted, Nat.add_mod_right]
  rw [ringRead_append _ _ (position + 1) last 1, kept]
  simp [wrapped]

/-- A ring that has held `history` on top of `size` blank values. -/
def RingHolds (cells : Nat → α) (size position : Nat) (blank : α) (history : List α) : Prop :=
  ringRead cells size position size =
    (List.replicate size blank ++ history).drop history.length

theorem RingHolds.blank (size position : Nat) (blank : α) :
    RingHolds (fun _ => blank) size position blank [] := by
  have all (start count : Nat) :
      ringRead (fun _ => blank) size start count = List.replicate count blank := by
    induction count generalizing start with
    | zero => rfl
    | succ count ih => simp [ih, List.replicate_succ]
  simp [RingHolds, all]

theorem RingHolds.write {cells : Nat → α} {blank : α} {history : List α}
    (holds : RingHolds cells size position blank history) (positive : 0 < size) (value : α) :
    RingHolds (Function.update cells (position % size) value) size (position + 1) blank
      (history ++ [value]) := by
  unfold RingHolds at *
  have inside : history.length + 1 ≤ (List.replicate size blank ++ history).length := by
    simp
    omega
  rw [ringRead_write _ _ _ _ positive, holds, List.tail_drop, ← List.append_assoc,
    List.length_append, List.length_singleton, List.drop_append_of_le_length inside]

theorem RingHolds.congr {cells : Nat → α} {blank : α} {history : List α}
    (holds : RingHolds cells size position blank history) (same : position % size = other % size) :
    RingHolds cells size other blank history := by
  unfold RingHolds at *
  rw [← holds]
  exact (ringRead_congr cells size size same).symm

/-- The last `count ≤ size` slots before the position: blanks, then the newest values. -/
theorem RingHolds.tail {cells : Nat → α} {blank : α} {history : List α}
    (holds : RingHolds cells size position blank history) (skip count : Nat)
    (total : skip + count = size) :
    ringRead cells size (position + skip) count =
      List.replicate (count - history.length) blank ++ recent count history := by
  have dropped : ringRead cells size (position + skip) count =
      (ringRead cells size position size).drop skip := by
    rw [← ringRead_drop, total]
  rw [dropped, holds, List.drop_drop, List.drop_append, List.drop_replicate, recent]
  simp only [List.length_replicate]
  congr 2 <;> omega

/-- Read from a number inside the window, the ring shows the history from there on. -/
theorem RingHolds.since {cells : Nat → α} {blank : α} {history : List α}
    (holds : RingHolds cells size history.length blank history) (first : Nat)
    (inside : first ≤ history.length) (window : history.length ≤ first + size) :
    ringRead cells size first (history.length - first) = history.drop first := by
  have tail := holds.tail (size - (history.length - first)) (history.length - first) (by omega)
  have around : history.length + (size - (history.length - first)) = first + size := by omega
  have back : (first + size) % size = first % size := Nat.add_mod_right first size
  have start : history.length - (history.length - first) = first := by omega
  have none_blank : history.length - first - history.length = 0 := by omega
  rw [around, ringRead_congr _ _ _ back] at tail
  rw [tail, recent, start, none_blank]
  rfl

theorem RingHolds.getElem? {cells : Nat → α} {blank : α} {history : List α}
    (holds : RingHolds cells size position blank history) (inside : step < size) :
    (List.replicate size blank ++ history)[history.length + step]? =
      some (cells ((position + step) % size)) := by
  rw [← ringRead_getElem? cells size position size step inside, holds, List.getElem?_drop]

theorem exists_step (position number : Nat) (positive : 0 < size) :
    ∃ step, step < size ∧ (position + step) % size = number % size := by
  refine ⟨(number + position * (size - 1)) % size, Nat.mod_lt _ positive, ?_⟩
  have whole : position + (number + position * (size - 1)) = number + position * size := by
    obtain ⟨rest, rfl⟩ : ∃ rest, size = rest + 1 := ⟨size - 1, by omega⟩
    simp only [Nat.add_sub_cancel, Nat.mul_add, Nat.mul_one]
    omega
  rw [Nat.add_mod_mod, whole, Nat.add_mul_mod_self_right]

/-- Where a value older than the window was, a newer one of the same slot is now. -/
theorem RingHolds.overwritten {cells : Nat → α} {blank : α} {history : List α}
    (holds : RingHolds cells size history.length blank history) (positive : 0 < size)
    (lost : number + size < history.length) :
    ∃ newer, number < newer ∧ newer < history.length ∧ newer % size = number % size ∧
      history[newer]? = some (cells (number % size)) := by
  obtain ⟨step, inside, same⟩ := exists_step history.length number positive
  have found := holds.getElem? inside
  rw [List.getElem?_append_right (by simp; omega), List.length_replicate, same] at found
  refine ⟨history.length + step - size, by omega, by omega, ?_, found⟩
  have back : history.length + step = history.length + step - size + size := by omega
  rw [← same, back, Nat.add_mod_right]
  simp

/-- A slot is blank or holds a value of the history. -/
theorem RingHolds.cell_cases {cells : Nat → α} {blank : α} {history : List α}
    (holds : RingHolds cells size position blank history) (positive : 0 < size) (number : Nat) :
    cells (number % size) = blank ∨ cells (number % size) ∈ history := by
  obtain ⟨step, inside, same⟩ := exists_step position number positive
  have found := List.mem_of_getElem? (holds.getElem? inside)
  rw [same] at found
  rcases List.mem_append.mp found with old | new
  · exact .inl (List.eq_of_mem_replicate old)
  · exact .inr new

@[simp] theorem recent_length (count : Nat) (history : List α) :
    (recent count history).length = min count history.length := by
  simp [recent]
  omega

end TrippingRobot.Data
