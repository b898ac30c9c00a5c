import TrippingRobot.Data.Rolling

/-! The timestamp comparisons of `timecmp.h`, for 32-bit and for 64-bit words. -/

namespace TrippingRobot.Timecmp

open Data

variable {width : Nat}

/-- The body shared by `maskMsb` and `maskMsb64`. After `abort` there is no result. -/
def wordMaskMsb (mask : BitVec width) : Option (BitVec width) :=
  if (mask + 1) &&& mask ≠ 0 then none else some ((mask >>> 1) + 1)

def maskMsb (mask : BitVec 32) : Option (BitVec 32) := wordMaskMsb mask

def maskMsb64 (mask : BitVec 64) : Option (BitVec 64) := wordMaskMsb mask

def wordIsAfter (a b timeMax : BitVec width) : Option Bool := do
  let msb ← wordMaskMsb timeMax
  return decide ((b - a) &&& timeMax > msb)

def wordIsAfterEq (a b timeMax : BitVec width) : Option Bool := do
  let msb ← wordMaskMsb timeMax
  return !((a - b) &&& msb == msb)

def timeIsAfter (a b timeMax : BitVec 32) : Option Bool := wordIsAfter a b timeMax

def timeIsBefore (a b timeMax : BitVec 32) : Option Bool := timeIsAfter b a timeMax

def timeIsAfterEq (a b timeMax : BitVec 32) : Option Bool := wordIsAfterEq a b timeMax

def timeIsBeforeEq (a b timeMax : BitVec 32) : Option Bool := timeIsAfterEq b a timeMax

def timeIsAfter64 (a b timeMax : BitVec 64) : Option Bool := wordIsAfter a b timeMax

def timeIsBefore64 (a b timeMax : BitVec 64) : Option Bool := timeIsAfter64 b a timeMax

def timeIsAfterEq64 (a b timeMax : BitVec 64) : Option Bool := wordIsAfterEq a b timeMax

def timeIsBeforeEq64 (a b timeMax : BitVec 64) : Option Bool := timeIsAfterEq64 b a timeMax

/-- A low mask passes the check, and its highest bit is half the period. -/
theorem wordMaskMsb_lowMask {bits : Nat} (positive : 1 ≤ bits) (fits : bits ≤ width) :
    wordMaskMsb (lowMask width bits) = some (BitVec.twoPow width (bits - 1)) := by
  have passes : ¬ ((lowMask width bits + 1) &&& lowMask width bits ≠ 0) := by
    intro refused
    exact refused (lowMask_add_one_and bits)
  have half : (lowMask width bits >>> 1) + 1 = BitVec.twoPow width (bits - 1) := by
    have period : 2 ^ bits = 2 * 2 ^ (bits - 1) := by
      rw [← pow_succ']
      congr 1
      omega
    have above := Nat.two_pow_pos (bits - 1)
    have inside : 2 ^ (bits - 1) < 2 ^ width := Nat.pow_lt_pow_right (by omega) (by omega)
    have one : (1 : BitVec width).toNat = 1 := BitVec.toNat_one (by omega)
    apply BitVec.eq_of_toNat_eq
    rw [BitVec.toNat_add, BitVec.toNat_ushiftRight, toNat_lowMask fits, one, BitVec.toNat_twoPow,
      Nat.shiftRight_eq_div_pow, period]
    congr 1
    omega
  rw [wordMaskMsb, if_neg passes, half]

theorem eq_lowMask_iff {bits : Nat} (fits : bits ≤ width) (mask : BitVec width) :
    mask = lowMask width bits ↔ mask.toNat = 2 ^ bits - 1 := by
  rw [← toNat_lowMask fits, BitVec.toNat_inj]

structure MaskCheck (check : BitVec width → Option (BitVec width)) : Prop where
  admits : ∀ mask, check mask ≠ none ↔ ∃ bits ≤ width, mask.toNat = 2 ^ bits - 1
  msb : ∀ mask bits, 1 ≤ bits → bits ≤ width → mask.toNat = 2 ^ bits - 1 →
    ∃ msb, check mask = some msb ∧ msb.toNat = 2 ^ (bits - 1) ∧
      ∀ bit, bits - 1 ≤ bit → mask.getLsbD bit = decide (bit = bits - 1)

private theorem wordMaskMsb_maskCheck :
    MaskCheck (wordMaskMsb : BitVec width → Option (BitVec width)) := by
  refine ⟨?_, ?_⟩
  · intro mask
    have runs : wordMaskMsb mask ≠ none ↔ (mask + 1) &&& mask = 0 := by
      rw [wordMaskMsb]
      split
      · rename_i refused
        exact iff_of_false (fun runs => runs rfl) refused
      · rename_i passes
        exact iff_of_true (Option.some_ne_none _) (not_not.mp passes)
    refine (runs.trans (add_one_and_eq_zero_iff mask)).trans (exists_congr fun bits => ?_)
    exact and_congr_right fun fits => eq_lowMask_iff fits mask
  · intro mask bits positive fits ones
    obtain rfl := (eq_lowMask_iff fits mask).mpr ones
    have inside : 2 ^ (bits - 1) < 2 ^ width := Nat.pow_lt_pow_right (by omega) (by omega)
    refine ⟨_, wordMaskMsb_lowMask positive fits, ?_, ?_⟩
    · rw [BitVec.toNat_twoPow, Nat.mod_eq_of_lt inside]
    · intro bit above
      rw [getLsbD_lowMask fits, decide_eq_decide]
      omega

/-- The masks of both widths that pass are those of some low bits, the empty and the full one
included. -/
theorem maskMsb_maskCheck : MaskCheck maskMsb ∧ MaskCheck maskMsb64 :=
  ⟨wordMaskMsb_maskCheck, wordMaskMsb_maskCheck⟩

/-- The example of the source. -/
example : maskMsb 0x7FFF = some 0x4000 := by decide

theorem wordIsAfter_lowMask {bits : Nat} (positive : 1 ≤ bits) (fits : bits ≤ width)
    (a b : BitVec width) :
    wordIsAfter a b (lowMask width bits) = some (decide (Ahead bits a.toNat b.toNat)) := by
  simp only [wordIsAfter, wordMaskMsb_lowMask positive fits, Option.bind_eq_bind, Option.bind_some,
    gt_iff_lt, twoPow_lt_sub_iff positive fits]
  rfl

theorem wordIsAfterEq_lowMask {bits : Nat} (positive : 1 ≤ bits) (fits : bits ≤ width)
    (a b : BitVec width) :
    wordIsAfterEq a b (lowMask width bits) =
      some (decide (AheadOrLevel bits a.toNat b.toNat)) := by
  simp only [wordIsAfterEq, wordMaskMsb_lowMask positive fits, Option.bind_eq_bind,
    Option.bind_some, not_sub_and_twoPow_beq positive fits]
  rfl

/-! ## What the comparisons say about true times -/

/-- A word whose low bits tell a true time. -/
structure Stamp (width bits : Nat) where
  time : Int
  word : BitVec width
  tells : (word.toNat : Int) ≡ time [ZMOD 2 ^ bits]

structure Comparison (width : Nat) where
  isAfter : BitVec width → BitVec width → BitVec width → Option Bool
  isBefore : BitVec width → BitVec width → BitVec width → Option Bool
  isAfterEq : BitVec width → BitVec width → BitVec width → Option Bool
  isBeforeEq : BitVec width → BitVec width → BitVec width → Option Bool

def comparison32 : Comparison 32 := ⟨timeIsAfter, timeIsBefore, timeIsAfterEq, timeIsBeforeEq⟩

def comparison64 : Comparison 64 :=
  ⟨timeIsAfter64, timeIsBefore64, timeIsAfterEq64, timeIsBeforeEq64⟩

structure Comparison.Answers (comparison : Comparison width) {bits : Nat}
    (s t : Stamp width bits) (after before afterEq beforeEq : Prop)
    [Decidable after] [Decidable before] [Decidable afterEq] [Decidable beforeEq] : Prop where
  isAfter : comparison.isAfter s.word t.word (lowMask width bits) = some (decide after)
  isBefore : comparison.isBefore s.word t.word (lowMask width bits) = some (decide before)
  isAfterEq : comparison.isAfterEq s.word t.word (lowMask width bits) = some (decide afterEq)
  isBeforeEq : comparison.isBeforeEq s.word t.word (lowMask width bits) = some (decide beforeEq)

/-- On these stamps the four functions are one total order and its strict part. -/
structure Comparison.Orders (comparison : Comparison width) {bits : Nat}
    (stamps : Set (Stamp width bits)) : Prop where
  total : ∀ s ∈ stamps, ∀ t ∈ stamps,
    comparison.isAfterEq s.word t.word (lowMask width bits) = some true ∨
      comparison.isAfterEq t.word s.word (lowMask width bits) = some true
  trans : ∀ s ∈ stamps, ∀ t ∈ stamps, ∀ u ∈ stamps,
    comparison.isAfterEq s.word t.word (lowMask width bits) = some true →
      comparison.isAfterEq t.word u.word (lowMask width bits) = some true →
      comparison.isAfterEq s.word u.word (lowMask width bits) = some true
  antisymm : ∀ s ∈ stamps, ∀ t ∈ stamps,
    comparison.isAfterEq s.word t.word (lowMask width bits) = some true →
      comparison.isAfterEq t.word s.word (lowMask width bits) = some true → s.time = t.time
  strict : ∀ s ∈ stamps, ∀ t ∈ stamps,
    (comparison.isAfter s.word t.word (lowMask width bits) = some true ↔
      comparison.isAfterEq t.word s.word (lowMask width bits) = some false)
  swapped : ∀ s ∈ stamps, ∀ t ∈ stamps,
    comparison.isBefore s.word t.word (lowMask width bits) =
        comparison.isAfter t.word s.word (lowMask width bits) ∧
      comparison.isBeforeEq s.word t.word (lowMask width bits) =
        comparison.isAfterEq t.word s.word (lowMask width bits)

structure Comparison.Agrees (comparison : Comparison width) (bits : Nat) : Prop where
  exact : ∀ s t : Stamp width bits, comparison.Answers s t
    (Ahead bits s.time t.time) (Ahead bits t.time s.time)
    (AheadOrLevel bits s.time t.time) (AheadOrLevel bits t.time s.time)
  near : ∀ s t : Stamp width bits, |s.time - t.time| < 2 ^ (bits - 1) → comparison.Answers s t
    (s.time > t.time) (s.time < t.time) (s.time ≥ t.time) (s.time ≤ t.time)
  window : ∀ stamps : Set (Stamp width bits),
    (∀ s ∈ stamps, ∀ t ∈ stamps, |s.time - t.time| < 2 ^ (bits - 1)) → comparison.Orders stamps
  half : ∀ s t : Stamp width bits, (s.time - t.time) % 2 ^ bits = 2 ^ (bits - 1) →
    comparison.Answers s t False False False False

theorem Comparison.Answers.congr {comparison : Comparison width} {bits : Nat}
    {s t : Stamp width bits} {after before afterEq beforeEq after' before' afterEq' beforeEq' : Prop}
    [Decidable after] [Decidable before] [Decidable afterEq] [Decidable beforeEq]
    [Decidable after'] [Decidable before'] [Decidable afterEq'] [Decidable beforeEq']
    (answers : comparison.Answers s t after before afterEq beforeEq)
    (isAfter : after ↔ after') (isBefore : before ↔ before')
    (isAfterEq : afterEq ↔ afterEq') (isBeforeEq : beforeEq ↔ beforeEq') :
    comparison.Answers s t after' before' afterEq' beforeEq' where
  isAfter := answers.isAfter.trans (congrArg some (decide_eq_decide.mpr isAfter))
  isBefore := answers.isBefore.trans (congrArg some (decide_eq_decide.mpr isBefore))
  isAfterEq := answers.isAfterEq.trans (congrArg some (decide_eq_decide.mpr isAfterEq))
  isBeforeEq := answers.isBeforeEq.trans (congrArg some (decide_eq_decide.mpr isBeforeEq))

theorem near_swap {s t : Int} {bound : Int} (near : |s - t| < bound) : |t - s| < bound := by
  rwa [abs_sub_comm]

/-- The total order of a window is that of the true times. -/
private theorem Comparison.orders_of_near {comparison : Comparison width} {bits : Nat}
    {stamps : Set (Stamp width bits)}
    (near : ∀ s ∈ stamps, ∀ t ∈ stamps, comparison.Answers s t
      (s.time > t.time) (s.time < t.time) (s.time ≥ t.time) (s.time ≤ t.time)) :
    comparison.Orders stamps := by
  have decides : ∀ s ∈ stamps, ∀ t ∈ stamps,
      (comparison.isAfterEq s.word t.word (lowMask width bits) = some true ↔ t.time ≤ s.time) := by
    intro s inS t inT
    rw [(near s inS t inT).isAfterEq]
    simp
  refine ⟨?_, ?_, ?_, ?_, ?_⟩
  · intro s inS t inT
    rw [decides s inS t inT, decides t inT s inS]
    exact le_total t.time s.time
  · intro s inS t inT u inU
    rw [decides s inS t inT, decides t inT u inU, decides s inS u inU]
    exact fun first second => second.trans first
  · intro s inS t inT
    rw [decides s inS t inT, decides t inT s inS]
    exact fun first second => le_antisymm second first
  · intro s inS t inT
    rw [(near s inS t inT).isAfter, (near t inT s inS).isAfterEq]
    simp
  · intro s inS t inT
    rw [(near s inS t inT).isBefore, (near s inS t inT).isBeforeEq, (near t inT s inS).isAfter,
      (near t inT s inS).isAfterEq]
    exact ⟨rfl, rfl⟩

/-- The exact answers decide the order of near times, and nothing half a period apart. -/
theorem Comparison.Agrees.of_exact {comparison : Comparison width} {bits : Nat}
    (positive : 1 ≤ bits)
    (exact : ∀ s t : Stamp width bits, comparison.Answers s t
      (Ahead bits s.time t.time) (Ahead bits t.time s.time)
      (AheadOrLevel bits s.time t.time) (AheadOrLevel bits t.time s.time)) :
    comparison.Agrees bits := by
  have decided : ∀ s t : Stamp width bits, |s.time - t.time| < 2 ^ (bits - 1) →
      comparison.Answers s t
        (s.time > t.time) (s.time < t.time) (s.time ≥ t.time) (s.time ≤ t.time) := by
    intro s t near
    have swapped := near_swap near
    exact (exact s t).congr (ahead_iff_lt positive near) (ahead_iff_lt positive swapped)
      (aheadOrLevel_iff_le positive near) (aheadOrLevel_iff_le positive swapped)
  refine ⟨exact, decided, ?_, ?_⟩
  · intro stamps near
    exact Comparison.orders_of_near fun s inS t inT => decided s t (near s inS t inT)
  · intro s t half
    have forth : lead bits s.time t.time = 2 ^ (bits - 1) := half
    have back := lead_half_swap positive forth
    apply (exact s t).congr <;> simp [Ahead, AheadOrLevel, forth, back]

theorem Stamp.lead_eq {bits : Nat} (s t : Stamp width bits) :
    lead bits s.word.toNat t.word.toNat = lead bits s.time t.time :=
  lead_congr s.tells t.tells

theorem wordIsAfter_stamp {bits : Nat} (positive : 1 ≤ bits) (fits : bits ≤ width)
    (s t : Stamp width bits) :
    wordIsAfter s.word t.word (lowMask width bits) =
      some (decide (Ahead bits s.time t.time)) := by
  simp only [wordIsAfter_lowMask positive fits, Ahead, s.lead_eq t]

theorem wordIsAfterEq_stamp {bits : Nat} (positive : 1 ≤ bits) (fits : bits ≤ width)
    (s t : Stamp width bits) :
    wordIsAfterEq s.word t.word (lowMask width bits) =
      some (decide (AheadOrLevel bits s.time t.time)) := by
  simp only [wordIsAfterEq_lowMask positive fits, AheadOrLevel, s.lead_eq t]

/-- Words of any width that hold the timer will do. -/
private theorem wordCompare_agrees {bits : Nat} (positive : 1 ≤ bits) (fits : bits ≤ width) :
    Comparison.Agrees (⟨wordIsAfter, fun a b timeMax => wordIsAfter b a timeMax, wordIsAfterEq,
      fun a b timeMax => wordIsAfterEq b a timeMax⟩ : Comparison width) bits := by
  refine .of_exact positive fun s t => ⟨?_, ?_, ?_, ?_⟩
  · exact wordIsAfter_stamp positive fits s t
  · exact wordIsAfter_stamp positive fits t s
  · exact wordIsAfterEq_stamp positive fits s t
  · exact wordIsAfterEq_stamp positive fits t s

/-- Comparing stamps of any timer width agrees with comparing the true times. -/
theorem timeCompare_agrees (bits : Nat) (positive : 1 ≤ bits) :
    (bits ≤ 32 → comparison32.Agrees bits) ∧ (bits ≤ 64 → comparison64.Agrees bits) := by
  constructor
  · exact fun fits => wordCompare_agrees positive fits
  · exact fun fits => wordCompare_agrees positive fits

/-- Just after the rollover of a 10-bit timer, time 1025 is still after time 1023. -/
theorem timeCompare_agrees_ten :
    comparison32.Answers (⟨1025, 1, by decide⟩ : Stamp 32 10) ⟨1023, 0x3FF, by decide⟩
      ((1025 : Int) > 1023) ((1025 : Int) < 1023) ((1025 : Int) ≥ 1023) ((1025 : Int) ≤ 1023) :=
  ((timeCompare_agrees 10 (by decide)).1 (by decide)).near _ _ (by decide)

end TrippingRobot.Timecmp
