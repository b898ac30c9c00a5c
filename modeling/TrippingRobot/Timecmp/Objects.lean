import TrippingRobot.Machine.Run
import TrippingRobot.Timecmp.Arithmetic

/-! The timers of a program: how they come to be and change, and whether what they hold stays
in the range of the timer. -/

namespace TrippingRobot.Timecmp

open Data TrippingRobot.Machine

variable {timebits : Nat}

namespace RollingTime

/-- The default constructor. -/
def zero : RollingTime timebits := ⟨0⟩

/-- The constructor from a `Type`, which stores it as it is. -/
def construct (time : BitVec (timeParam timebits)) : RollingTime timebits := ⟨time⟩

/-- `operator Type`, by which `==` compares. -/
def toType (self : RollingTime timebits) : BitVec (timeParam timebits) := self.time

end RollingTime

/-- The timers by where they are. -/
abbrev Timers (timebits : Nat) := Nat → Option (RollingTime timebits)

inductive TimerCall (timebits : Nat) where
  | default (target : Nat)
  | construct (target : Nat) (time : BitVec (timeParam timebits))
  /-- The copy constructor, or an assignment from another timer. -/
  | copy (target source : Nat)
  | assign (target : Nat) (time : BitVec (timeParam timebits))
  | plus (target : Nat) (time : BitVec (timeParam timebits))
  | plusTime (target rhs : Nat)
  | minus (target : Nat) (time : BitVec (timeParam timebits))
  | minusTime (target rhs : Nat)

/-- The value a call leaves in its target; none where a timer it reads does not exist. -/
def TimerCall.result (timers : Timers timebits) : TimerCall timebits → Option (RollingTime timebits)
  | .default _ => some .zero
  | .construct _ time => some (.construct time)
  | .copy _ source => timers source
  | .assign target time => (timers target).map fun _ => .assign time
  | .plus target time => (timers target).map fun self => self.plus time
  | .plusTime target rhs => do
    let self ← timers target
    let other ← timers rhs
    return self.plusTime other
  | .minus target time => (timers target).map fun self => self.minus time
  | .minusTime target rhs => do
    let self ← timers target
    let other ← timers rhs
    return self.minusTime other

def TimerCall.target : TimerCall timebits → Nat
  | .default target => target
  | .construct target _ => target
  | .copy target _ => target
  | .assign target _ => target
  | .plus target _ => target
  | .plusTime target _ => target
  | .minus target _ => target
  | .minusTime target _ => target

/-- Calls on timers that exist. -/
def timerSystem (timebits : Nat) : System (Timers timebits) (TimerCall timebits) where
  enabled timers call := (call.result timers).isSome
  next timers call := Function.update timers call.target (call.result timers)

/-- Every timer is in its range, and so two are level exactly if `==` says they are equal. -/
structure InRange (timers : Timers timebits) : Prop where
  range : ∀ name timer, timers name = some timer → timer.get ≤ RollingTime.max timebits
  level : ∀ first second a b, timers first = some a → timers second = some b →
    ((a.greaterEq b = true ∧ a.lessEq b = true) ↔ a.toType = b.toType)

/-- A constructor is given a value of the timer's range. -/
def TimerCall.Fits : TimerCall timebits → Prop
  | .construct _ time => time ≤ RollingTime.max timebits
  | _ => True

theorem RollingTime.masked_le (positive : 1 ≤ timebits) (fits : timebits ≤ 64)
    (value : BitVec (promotedWidth (timeParam timebits))) :
    (masked value).time ≤ max timebits := by
  have wide := (le_timeParam fits).trans (le_promotedWidth _)
  have remainder := Nat.mod_lt value.toNat (Nat.two_pow_pos timebits)
  rw [BitVec.le_def, toNat_masked positive fits, toNat_max positive fits, toNat_and_lowMask wide]
  omega

theorem RollingTime.level_iff (positive : 1 ≤ timebits) (fits : timebits ≤ 64)
    {a b : RollingTime timebits} (first : a.time ≤ max timebits) (second : b.time ≤ max timebits) :
    (a.greaterEq b = true ∧ a.lessEq b = true) ↔ a.toType = b.toType := by
  have swapped : a.lessEq b = b.greaterEq a := rfl
  rw [BitVec.le_def, toNat_max positive fits] at first second
  have above := Nat.two_pow_pos timebits
  rw [swapped, greaterEq_eq positive fits, greaterEq_eq positive fits, decide_eq_true_iff,
    decide_eq_true_iff, aheadOrLevel_both_iff positive, toType, toType]
  constructor
  · intro level
    have divides : (2 : Int) ^ timebits ∣ a.time.toNat - b.time.toNat :=
      Int.dvd_of_emod_eq_zero level
    have same : (b.time.toNat : Int) ≡ a.time.toNat [ZMOD ((2 ^ timebits : Nat) : Int)] := by
      push_cast
      exact Int.modEq_iff_dvd.mpr divides
    have equal := (Int.natCast_modEq_iff.mp same).eq_of_lt_of_lt (by omega) (by omega)
    exact (BitVec.eq_of_toNat_eq equal).symm
  · intro same
    rw [same, lead, sub_self, Int.zero_emod]

theorem InRange.of_range (positive : 1 ≤ timebits) (fits : timebits ≤ 64) {timers : Timers timebits}
    (range : ∀ name timer, timers name = some timer → timer.get ≤ RollingTime.max timebits) :
    InRange timers :=
  ⟨range, fun _ _ _ _ first second =>
    RollingTime.level_iff positive fits (range _ _ first) (range _ _ second)⟩

private theorem le_of_target (positive : 1 ≤ timebits) (fits : timebits ≤ 64)
    {target : Option (RollingTime timebits)}
    {value : RollingTime timebits → BitVec (promotedWidth (timeParam timebits))}
    (stored : (target.map fun self => RollingTime.masked (value self)) = some timer) :
    timer.get ≤ RollingTime.max timebits := by
  obtain ⟨self, _, rfl⟩ := Option.map_eq_some_iff.mp stored
  exact RollingTime.masked_le positive fits _

private theorem le_of_both (positive : 1 ≤ timebits) (fits : timebits ≤ 64)
    {target rhs : Option (RollingTime timebits)}
    {value : RollingTime timebits → RollingTime timebits →
      BitVec (promotedWidth (timeParam timebits))}
    (stored : (target.bind fun self => rhs.bind fun other =>
      some (RollingTime.masked (value self other))) = some timer) :
    timer.get ≤ RollingTime.max timebits := by
  obtain ⟨self, _, rest⟩ := Option.bind_eq_some_iff.mp stored
  obtain ⟨other, _, rfl⟩ := Option.map_eq_some_iff.mp (Option.map_eq_bind.trans rest)
  exact RollingTime.masked_le positive fits _

/-- What a call stores is in range, a value taken over by a constructor apart. -/
theorem TimerCall.result_le (positive : 1 ≤ timebits) (fits : timebits ≤ 64)
    {timers : Timers timebits} (holds : InRange timers) {call : TimerCall timebits}
    (masks : call.Fits) (stored : call.result timers = some timer) :
    timer.get ≤ RollingTime.max timebits := by
  cases call with
  | default target =>
    cases stored
    rw [BitVec.le_def]
    simp [RollingTime.get, RollingTime.zero]
  | construct target time =>
    cases stored
    exact masks
  | copy target source => exact holds.range source timer stored
  | assign target time => exact le_of_target positive fits stored
  | plus target time => exact le_of_target positive fits stored
  | plusTime target rhs => exact le_of_both positive fits stored
  | minus target time => exact le_of_target positive fits stored
  | minusTime target rhs => exact le_of_both positive fits stored

/-- A call keeps the range exactly if it does not construct a timer out of range. -/
theorem InRange.step_iff (positive : 1 ≤ timebits) (fits : timebits ≤ 64)
    {timers : Timers timebits} (holds : InRange timers) (call : TimerCall timebits) :
    InRange ((timerSystem timebits).next timers call) ↔ call.Fits := by
  constructor
  · intro kept
    cases call with
    | construct target time => exact kept.range target _ (Function.update_self target _ _)
    | _ => trivial
  · intro masks
    refine .of_range positive fits ?_
    intro name timer stored
    have next : (timerSystem timebits).next timers call =
        Function.update timers call.target (call.result timers) := rfl
    rw [next] at stored
    by_cases here : name = call.target
    · subst here
      rw [Function.update_self] at stored
      exact call.result_le positive fits holds masks stored
    · rw [Function.update_of_ne here] at stored
      exact holds.range name timer stored

/-- Every timer of a run stays in its range exactly if every timer constructed from a value is
given one in range. -/
theorem timers_in_range_iff (positive : 1 ≤ timebits) (fits : timebits ≤ 64)
    {calls : List (TimerCall timebits)}
    (legal : (timerSystem timebits).Legal (fun _ => none) calls) :
    (timerSystem timebits).Always InRange (fun _ => none) calls ↔ ∀ call ∈ calls, call.Fits := by
  have initial : InRange (fun _ => none : Timers timebits) :=
    .of_range positive fits (by rintro name timer ⟨⟩)
  rw [← System.guarded_iff_forall]
  exact System.always_iff_guarded_of_step initial
    (fun _ call holds _ => holds.step_iff positive fits call) legal

/-- A 7-bit timer made from its largest value, a copy of it, and one added to the first. -/
def sevenBits : List (TimerCall 7) := [.construct 0 0x7F, .copy 1 0, .plus 0 1]

theorem sevenBits_in_range :
    (timerSystem 7).Always InRange (fun _ => none) sevenBits ∧
      (timerSystem 7).exec (fun _ => none) sevenBits 0 = some ⟨0⟩ := by
  have legal : (timerSystem 7).Legal (fun _ => none) sevenBits := ⟨rfl, rfl, rfl, trivial⟩
  refine ⟨(timers_in_range_iff (by decide) (by decide) legal).mpr ?_, rfl⟩
  intro call member
  simp only [sevenBits, List.mem_cons, List.not_mem_nil, or_false] at member
  rcases member with rfl | rfl | rfl
  · exact (by decide : (0x7F : BitVec 8) ≤ RollingTime.max 7)
  · trivial
  · trivial

/-- Two 7-bit timers made from 0xFF and 0x7F: the first is out of range, and the two are level
without being equal. -/
def eightBits : List (TimerCall 7) := [.construct 0 0xFF, .construct 1 0x7F]

theorem constructed_out_of_range :
    (timerSystem 7).Legal (fun _ => none) eightBits ∧
      ¬ (timerSystem 7).Always InRange (fun _ => none) eightBits ∧
      ∃ a b : RollingTime 7, (timerSystem 7).exec (fun _ => none) eightBits 0 = some a ∧
        (timerSystem 7).exec (fun _ => none) eightBits 1 = some b ∧
        a.greaterEq b = true ∧ a.lessEq b = true ∧ a.toType ≠ b.toType := by
  refine ⟨⟨rfl, rfl, trivial⟩, ?_, ⟨0xFF⟩, ⟨0x7F⟩, rfl, rfl, rfl, rfl, by decide⟩
  intro always
  have first := always.2.1.range 0 ⟨0xFF⟩ rfl
  exact absurd first (by decide)

end TrippingRobot.Timecmp
