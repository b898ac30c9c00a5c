import TrippingRobot.Timecmp.RollingTime

/-! Assignment and arithmetic on a `RollingTime`, and how a time compares with a copy of what
it was before any sequence of them. -/

namespace TrippingRobot.Timecmp

open Data

namespace RollingTime

variable {timebits : Nat}

def get (self : RollingTime timebits) : BitVec (timeParam timebits) := self.time

/-- `... & max`, stored in `time_`. -/
def masked (value : BitVec (promotedWidth (timeParam timebits))) : RollingTime timebits :=
  ⟨converted (value &&& promoted (max timebits))⟩

/-- `operator =` -/
def assign (time : BitVec (timeParam timebits)) : RollingTime timebits := masked (promoted time)

/-- `operator +=` -/
def plus (self : RollingTime timebits) (time : BitVec (timeParam timebits)) :
    RollingTime timebits :=
  masked (promoted self.time + promoted time)

/-- `operator +=` of another timer. -/
def plusTime (self rhs : RollingTime timebits) : RollingTime timebits :=
  masked (promoted self.time + promoted rhs.time)

/-- `operator -=` -/
def minus (self : RollingTime timebits) (time : BitVec (timeParam timebits)) :
    RollingTime timebits :=
  masked (promoted self.time - promoted time)

/-- `operator -=` of another timer. -/
def minusTime (self rhs : RollingTime timebits) : RollingTime timebits :=
  masked (promoted self.time - promoted rhs.time)

end RollingTime

inductive TimeStep (timebits : Nat) where
  | plus (time : BitVec (timeParam timebits))
  | plusTime (rhs : RollingTime timebits)
  | minus (time : BitVec (timeParam timebits))
  | minusTime (rhs : RollingTime timebits)

variable {timebits : Nat}

/-- What a step adds, as an integer. -/
def TimeStep.amount : TimeStep timebits → Int
  | .plus time => time.toNat
  | .plusTime rhs => rhs.time.toNat
  | .minus time => -time.toNat
  | .minusTime rhs => -rhs.time.toNat

def amounts (steps : List (TimeStep timebits)) : Int := (steps.map TimeStep.amount).sum

namespace RollingTime

def step (self : RollingTime timebits) : TimeStep timebits → RollingTime timebits
  | .plus time => self.plus time
  | .plusTime rhs => self.plusTime rhs
  | .minus time => self.minus time
  | .minusTime rhs => self.minusTime rhs

def steps (self : RollingTime timebits) (taken : List (TimeStep timebits)) :
    RollingTime timebits :=
  taken.foldl step self

theorem toNat_masked (positive : 1 ≤ timebits) (fits : timebits ≤ 64)
    (value : BitVec (promotedWidth (timeParam timebits))) :
    (masked value).time.toNat = (value &&& lowMask _ timebits).toNat := by
  have room := le_timeParam fits
  have narrow : 2 ^ timebits ≤ 2 ^ timeParam timebits := Nat.pow_le_pow_right (by omega) room
  have remainder := Nat.mod_lt value.toNat (Nat.two_pow_pos timebits)
  rw [masked, converted, BitVec.toNat_setWidth, promoted_max positive fits,
    toNat_and_lowMask (room.trans (le_promotedWidth _)), Nat.mod_eq_of_lt (by omega)]

/-- One step adds its amount on the dial, whatever was stored before. -/
theorem toNat_step (positive : 1 ≤ timebits) (fits : timebits ≤ 64)
    (self : RollingTime timebits) (taken : TimeStep timebits) :
    ((self.step taken).time.toNat : Int) =
      (self.time.toNat + taken.amount) % 2 ^ timebits := by
  have wide := (le_timeParam fits).trans (le_promotedWidth _)
  have sum (time : BitVec (timeParam timebits)) :
      ((masked (promoted self.time + promoted time)).time.toNat : Int) =
        (self.time.toNat + time.toNat) % 2 ^ timebits := by
    rw [toNat_masked positive fits, toNat_add_and_lowMask wide, toNat_promoted, toNat_promoted]
  have difference (time : BitVec (timeParam timebits)) :
      ((masked (promoted self.time - promoted time)).time.toNat : Int) =
        (self.time.toNat + -time.toNat) % 2 ^ timebits := by
    rw [toNat_masked positive fits, toNat_sub_and_lowMask wide, toNat_promoted, toNat_promoted,
      lead, Int.sub_eq_add_neg]
  cases taken with
  | plus time => exact sum time
  | plusTime rhs => exact sum rhs.time
  | minus time => exact difference time
  | minusTime rhs => exact difference rhs.time

theorem toNat_steps (positive : 1 ≤ timebits) (fits : timebits ≤ 64)
    (self : RollingTime timebits) {taken : List (TimeStep timebits)} (nonempty : taken ≠ []) :
    ((self.steps taken).time.toNat : Int) =
      (self.time.toNat + amounts taken) % 2 ^ timebits := by
  induction taken generalizing self with
  | nil => exact absurd rfl nonempty
  | cons first rest ih =>
    have start := toNat_step positive fits self first
    by_cases last : rest = []
    · subst last
      simpa [steps, amounts] using start
    · have later := ih (self.step first) last
      rw [start, Int.emod_add_emod, Int.add_assoc] at later
      simpa [steps, amounts] using later

theorem lead_steps (positive : 1 ≤ timebits) (fits : timebits ≤ 64)
    (self : RollingTime timebits) (taken : List (TimeStep timebits)) :
    lead timebits (self.steps taken).time.toNat self.time.toNat = lead timebits (amounts taken) 0 ∧
      lead timebits self.time.toNat (self.steps taken).time.toNat =
        lead timebits 0 (amounts taken) := by
  have told : ((self.steps taken).time.toNat : Int) ≡ self.time.toNat + amounts taken
      [ZMOD 2 ^ timebits] := by
    cases taken with
    | nil => simp [steps, amounts]
    | cons first rest =>
      rw [toNat_steps positive fits self (List.cons_ne_nil first rest)]
      exact Int.mod_modEq _ _
  rw [lead_congr told (Int.ModEq.refl _), lead_congr (Int.ModEq.refl _) told]
  constructor
  · rw [lead, lead, add_sub_cancel_left, sub_zero]
  · rw [lead, lead, sub_add_cancel_left, zero_sub]

structure Answers (x y : RollingTime timebits) (greater less greaterEq lessEq : Prop) : Prop where
  greater : x.greater y = true ↔ greater
  less : x.less y = true ↔ less
  greaterEq : x.greaterEq y = true ↔ greaterEq
  lessEq : x.lessEq y = true ↔ lessEq

/-- A timer and a copy of its start are told apart by the sum of the steps between them. -/
theorem answers_steps (positive : 1 ≤ timebits) (fits : timebits ≤ 64)
    (self : RollingTime timebits) (taken : List (TimeStep timebits)) :
    Answers (self.steps taken) self
      (Ahead timebits (amounts taken) 0) (Ahead timebits 0 (amounts taken))
      (AheadOrLevel timebits (amounts taken) 0) (AheadOrLevel timebits 0 (amounts taken)) := by
  obtain ⟨forth, back⟩ := lead_steps positive fits self taken
  have swapped : (self.steps taken).less self = self.greater (self.steps taken) := rfl
  have swappedEq : (self.steps taken).lessEq self = self.greaterEq (self.steps taken) := rfl
  constructor
  · simp only [greater_eq positive fits, Ahead, forth, decide_eq_true_iff]
  · simp only [swapped, greater_eq positive fits, Ahead, back, decide_eq_true_iff]
  · simp only [greaterEq_eq positive fits, AheadOrLevel, forth, decide_eq_true_iff]
  · simp only [swappedEq, greaterEq_eq positive fits, AheadOrLevel, back, decide_eq_true_iff]

theorem Answers.congr {x y : RollingTime timebits}
    (answers : Answers x y isGreater isLess isGreaterEq isLessEq) (greater : isGreater ↔ greater')
    (less : isLess ↔ less') (greaterEq : isGreaterEq ↔ greaterEq') (lessEq : isLessEq ↔ lessEq') :
    Answers x y greater' less' greaterEq' lessEq' :=
  ⟨answers.greater.trans greater, answers.less.trans less, answers.greaterEq.trans greaterEq,
    answers.lessEq.trans lessEq⟩

end RollingTime

/-- Any sequence of additions and subtractions moves a timer by their sum, and it compares with
a copy of its start as the sum says; below half a turn that is the sum's sign. -/
theorem steps_exact (positive : 1 ≤ timebits) (fits : timebits ≤ 64)
    (start : RollingTime timebits) (taken : List (TimeStep timebits)) :
    let total := amounts taken
    let result := start.steps taken
    (taken ≠ [] → (result.get.toNat : Int) = (start.get.toNat + total) % 2 ^ timebits) ∧
      result.Answers start
        (0 < total % 2 ^ timebits ∧ total % 2 ^ timebits < 2 ^ (timebits - 1))
        (0 < -total % 2 ^ timebits ∧ -total % 2 ^ timebits < 2 ^ (timebits - 1))
        (total % 2 ^ timebits < 2 ^ (timebits - 1))
        (-total % 2 ^ timebits < 2 ^ (timebits - 1)) ∧
      (|total| < 2 ^ (timebits - 1) →
        result.Answers start (0 < total) (total < 0) (0 ≤ total) (total ≤ 0)) := by
  intro total result
  have answers := start.answers_steps positive fits taken
  refine ⟨fun nonempty => start.toNat_steps positive fits nonempty, ?_, ?_⟩
  · have forth : lead timebits total 0 = total % 2 ^ timebits := by rw [lead, sub_zero]
    have back : lead timebits 0 total = -total % 2 ^ timebits := by rw [lead, zero_sub]
    simp only [Ahead, AheadOrLevel] at answers
    rwa [forth, back] at answers
  · intro near
    have forth : |total - 0| < 2 ^ (timebits - 1) := by rwa [sub_zero]
    have back : |0 - total| < 2 ^ (timebits - 1) := near_swap forth
    exact answers.congr (ahead_iff_lt positive forth) (ahead_iff_lt positive back)
      (aheadOrLevel_iff_le positive forth) (aheadOrLevel_iff_le positive back)

/-- A 10-bit timer with a value beyond its range goes 3 back and 5 on. -/
theorem steps_exact_ten :
    let start : RollingTime 10 := ⟨0xFFFF⟩
    let taken : List (TimeStep 10) := [.minus 3, .plusTime ⟨5⟩]
    ((start.steps taken).get.toNat : Int) = (0xFFFF + 2) % 2 ^ 10 ∧
      (start.steps taken).greater start = true := by
  intro start taken
  obtain ⟨moved, _, near⟩ := steps_exact (by decide) (by decide) start taken
  exact ⟨moved (by decide), (near (by decide)).greater.mpr (by decide)⟩

end TrippingRobot.Timecmp
