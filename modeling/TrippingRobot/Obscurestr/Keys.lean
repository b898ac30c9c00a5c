import Mathlib.Data.Fin.VecNotation
import Mathlib.Order.Interval.Finset.Nat
import TrippingRobot.Data.Orbit
import TrippingRobot.Data.Rolling
import TrippingRobot.Obscurestr.Obscure

/-! The keys `MetaRandomGenerator` draws from the compile time. -/

namespace TrippingRobot.Obscurestr

open Data

/-- When a translation unit is compiled. The last minute of a day may have a leap second. -/
structure CompileTime where
  hour : Nat
  minute : Nat
  second : Nat
  hourInside : hour < 24
  minuteInside : minute < 60
  secondInside : second ≤ 60

def digitChar (digit : Nat) : CharBits := BitVec.ofNat 8 (48 + digit)

/-- `__TIME__`, which reads `hh:mm:ss`. -/
def CompileTime.text (time : CompileTime) : Fin 8 → CharBits :=
  ![digitChar (time.hour / 10), digitChar (time.hour % 10), 58,
    digitChar (time.minute / 10), digitChar (time.minute % 10), 58,
    digitChar (time.second / 10), digitChar (time.second % 10)]

/-- `__TIME__[index] - '0'` -/
def timeDigit (kind : CharKind) (ch : CharBits) : CInt := kind.widen ch - 48

/-- `MetaRandomGenerator<-1>::value` -/
def seed (kind : CharKind) (text : Fin 8 → CharBits) : CInt :=
  timeDigit kind (text 7) + timeDigit kind (text 6) * 10 + timeDigit kind (text 4) * 60 +
    timeDigit kind (text 3) * 600 + timeDigit kind (text 1) * 3600 +
    timeDigit kind (text 0) * 36000

/-- 7^5 -/
def MetaRandomGenerator.a : CInt := 16807

/-- 2^31 - 1 -/
def MetaRandomGenerator.m : CInt := (1 <<< 31) - 1

open MetaRandomGenerator

/-- What `MetaRandomGenerator<N>` makes of the value `s` before it. The source computes `hi2`
like this and never uses it: `lo3` adds the whole of `hi`. -/
def nextValue (s : CInt) : CInt :=
  let lo := a * (s &&& 0xFFFF)
  let hi := a * (s >>> 16)
  let lo2 := lo + ((hi &&& 0x7FFF) <<< 16)
  let _hi2 := hi >>> 15
  let lo3 := lo2 + hi
  if lo3 > m then lo3 - m else lo3

/-- `MetaRandomGenerator<N>::value` -/
def metaRandomGenerator (seed : CInt) : Nat → CInt
  | 0 => nextValue seed
  | counter + 1 => nextValue (metaRandomGenerator seed counter)

/-- The key of an `obscureStr` that sees `counter` as `__COUNTER__`. The source has
`__COUNTER__` in the body of a function template, so all strings of a unit see the value it
had where the header was read. -/
def CompileTime.key (time : CompileTime) (kind : CharKind) (counter : Nat) : CInt :=
  metaRandomGenerator (seed kind time.text) counter

structure OwnKeys (kind : CharKind) (time : CompileTime) : Prop where
  nonzero : ∀ counter, time.key kind counter ≠ 0
  obscured : ∀ counter (str : List CharBits), 4 ≤ str.length →
    obscureStr kind (time.key kind counter) str ≠ str
  unique : ∀ first < 2 ^ 31 - 2, ∀ second < 2 ^ 31 - 2, first ≠ second →
    time.key kind first ≠ time.key kind second

/-! ## The seed -/

theorem timeDigit_digitChar (kind : CharKind) {digit : Nat} (decimal : digit < 10) :
    timeDigit kind (digitChar digit) = BitVec.ofNat 32 digit := by
  have each : ∀ item : Fin 10, timeDigit kind (digitChar item) = BitVec.ofNat 32 item := by
    cases kind <;> decide
  exact each ⟨digit, decimal⟩

theorem seed_text (kind : CharKind) (time : CompileTime) :
    (seed kind time.text).toNat = time.hour * 3600 + time.minute * 60 + time.second := by
  obtain ⟨hour, minute, second, hourInside, minuteInside, secondInside⟩ := time
  simp only [seed, CompileTime.text, Matrix.cons_val]
  rw [timeDigit_digitChar kind (show second % 10 < 10 by omega),
    timeDigit_digitChar kind (show second / 10 < 10 by omega),
    timeDigit_digitChar kind (show minute % 10 < 10 by omega),
    timeDigit_digitChar kind (show minute / 10 < 10 by omega),
    timeDigit_digitChar kind (show hour % 10 < 10 by omega),
    timeDigit_digitChar kind (show hour / 10 < 10 by omega)]
  simp only [BitVec.ofNat_eq_ofNat, BitVec.toNat_add, BitVec.toNat_mul, BitVec.toNat_ofNat]
  omega

/-! ## The recurrence -/

/-- The sum `lo3` of `nextValue`, which stays inside the 32 bits. -/
def combined (value : Nat) : Nat :=
  16807 * (value % 65536) + 16807 * (value / 65536) % 32768 * 65536 + 16807 * (value / 65536)

theorem toNat_nextValue {s : CInt} (small : s.toNat ≤ 2 ^ 31 - 1) :
    (nextValue s).toNat =
      if 2 ^ 31 - 1 < combined s.toNat then combined s.toNat - (2 ^ 31 - 1)
      else combined s.toNat := by
  have low : (s &&& (0xFFFF : CInt)).toNat = s.toNat % 65536 :=
    toNat_and_lowMask (show 16 ≤ 32 by decide) s
  have high : (s >>> 16).toNat = s.toNat / 65536 := by
    rw [BitVec.toNat_ushiftRight, Nat.shiftRight_eq_div_pow]
  have lo : (a * (s &&& (0xFFFF : CInt))).toNat = 16807 * (s.toNat % 65536) := by
    rw [BitVec.toNat_mul, low, show a.toNat = 16807 from rfl]
    omega
  have hi : (a * (s >>> 16)).toNat = 16807 * (s.toNat / 65536) := by
    rw [BitVec.toNat_mul, high, show a.toNat = 16807 from rfl]
    omega
  have middle : ((a * (s >>> 16) &&& (0x7FFF : CInt)) <<< 16).toNat =
      16807 * (s.toNat / 65536) % 32768 * 65536 := by
    have kept : (a * (s >>> 16) &&& (0x7FFF : CInt)).toNat = (a * (s >>> 16)).toNat % 32768 :=
      toNat_and_lowMask (show 15 ≤ 32 by decide) _
    rw [BitVec.toNat_shiftLeft, kept, hi, Nat.shiftLeft_eq]
    omega
  have lo3 : (a * (s &&& (0xFFFF : CInt)) + ((a * (s >>> 16) &&& (0x7FFF : CInt)) <<< 16) +
      a * (s >>> 16)).toNat = combined s.toNat := by
    rw [BitVec.toNat_add, BitVec.toNat_add, lo, middle, hi, combined]
    omega
  have bound : m.toNat = 2 ^ 31 - 1 := rfl
  rw [nextValue]
  simp only [gt_iff_lt, BitVec.lt_def, lo3, bound]
  split
  · rename_i above
    rw [BitVec.toNat_sub_of_le (by rw [BitVec.le_def, lo3, bound]; exact above.le), lo3, bound]
  · exact lo3

/-- Where every value but zero lives. -/
def generatorValues : Finset CInt := (Finset.Icc 1 (2 ^ 31 - 1)).image (BitVec.ofNat 32)

theorem mem_generatorValues (s : CInt) :
    s ∈ generatorValues ↔ 0 < s.toNat ∧ s.toNat ≤ 2 ^ 31 - 1 := by
  rw [generatorValues, Finset.mem_image]
  constructor
  · rintro ⟨value, member, rfl⟩
    have bounds := Finset.mem_Icc.mp member
    rw [BitVec.toNat_ofNat]
    omega
  · intro bounds
    refine ⟨s.toNat, Finset.mem_Icc.mpr bounds, ?_⟩
    rw [BitVec.ofNat_toNat, BitVec.setWidth_eq]

theorem card_generatorValues : generatorValues.card ≤ 2 ^ 31 - 1 := by
  have sources : (Finset.Icc 1 (2 ^ 31 - 1)).card = 2 ^ 31 - 1 := Nat.card_Icc 1 (2 ^ 31 - 1)
  rw [← sources]
  exact Finset.card_image_le

theorem nextValue_mem {s : CInt} (inside : s ∈ generatorValues) :
    nextValue s ∈ generatorValues := by
  obtain ⟨positive, small⟩ := (mem_generatorValues s).mp inside
  rw [mem_generatorValues, toNat_nextValue small, combined]
  split <;> omega

theorem metaRandomGenerator_eq (seed : CInt) (counter : Nat) :
    metaRandomGenerator seed counter = nextValue^[counter + 1] seed := by
  induction counter with
  | zero => rfl
  | succ counter same => rw [metaRandomGenerator, same, Function.iterate_succ_apply' nextValue (counter + 1)]

theorem metaRandomGenerator_zero (counter : Nat) : metaRandomGenerator 0 counter = 0 := by
  have fixed : nextValue 0 = 0 := by decide
  induction counter with
  | zero => exact fixed
  | succ counter stays => rw [metaRandomGenerator, stays, fixed]

theorem metaRandomGenerator_mem {seed : CInt} (inside : seed ∈ generatorValues) (counter : Nat) :
    metaRandomGenerator seed counter ∈ generatorValues := by
  rw [metaRandomGenerator_eq]
  exact iterate_mem (fun _ => nextValue_mem) inside (counter + 1)

/-- Two values that go where another one goes. -/
def spareValues : Finset CInt := {131072, 262144}

theorem spareValues_doubled :
    ∀ s ∈ spareValues, ∃ t ∈ generatorValues \ spareValues, nextValue t = nextValue s := by
  intro s spare
  simp only [spareValues, Finset.mem_insert, Finset.mem_singleton] at spare
  obtain rfl | rfl := spare
  · refine ⟨869103134, ?_, by decide⟩
    rw [Finset.mem_sdiff, mem_generatorValues]
    decide
  · refine ⟨869234206, ?_, by decide⟩
    rw [Finset.mem_sdiff, mem_generatorValues]
    decide

theorem spareValues_subset : spareValues ⊆ generatorValues := by
  intro s spare
  simp only [spareValues, Finset.mem_insert, Finset.mem_singleton] at spare
  rw [mem_generatorValues]
  obtain rfl | rfl := spare
  · decide
  · decide

/-- Whatever the seed, the keys run out before the counters do. -/
theorem exists_same_value {seed : CInt} (inside : seed ∈ generatorValues) :
    ∃ first < 2 ^ 31 - 2, ∃ second < 2 ^ 31 - 2, first ≠ second ∧
      metaRandomGenerator seed first = metaRandomGenerator seed second := by
  have spare : spareValues.card = 2 := by decide
  have values := card_generatorValues
  simp only [metaRandomGenerator_eq]
  exact exists_iterate_eq (fun _ => nextValue_mem) spareValues_subset spareValues_doubled inside
    (by omega)

/-! ## The stored text -/

/-- A key that leaves four characters as they are has no bit set. -/
theorem obscureStr_ne (kind : CharKind) {key : CInt} (nonzero : key ≠ 0) {str : List CharBits}
    (long : 4 ≤ str.length) : obscureStr kind key str ≠ str := by
  intro clear
  have bytes : ∀ index < 4, byteShifter key index = 0 := by
    intro index below
    have stored := congrArg (fun text => text[index]?) clear
    simp only [obscureStr_eq, List.getElem?_mapIdx, List.getElem?_eq_getElem (below.trans_le long),
      Option.map_some, Option.some.injEq] at stored
    exact (BitVec.xor_right_inj str[index]).mp (stored.trans BitVec.xor_zero.symm)
  apply nonzero
  apply BitVec.eq_of_getLsbD_eq
  intro bit inside
  have byte := bytes (bit / 8) (by omega)
  have position : bit / 8 % 4 * 8 + bit % 8 = bit := by omega
  have clearBit := getLsbD_byteShifter key (bit / 8) (show bit % 8 < 8 by omega)
  rw [byte, position] at clearBit
  simpa using clearBit.symm

theorem obscureStr_zero (kind : CharKind) (str : List CharBits) : obscureStr kind 0 str = str := by
  have bytes (index : Nat) : byteShifter 0 index = 0 := by simp [byteShifter]
  apply List.ext_getElem
  · rw [obscureStr_eq, List.length_mapIdx]
  · intro index stored given
    simp only [obscureStr_eq, List.getElem_mapIdx, bytes]
    exact BitVec.xor_zero

/-! ## The keys of a compile time -/

/-- The seconds since midnight are the seed, so this is the time of the seed zero. -/
def CompileTime.Midnight (time : CompileTime) : Prop :=
  time.hour = 0 ∧ time.minute = 0 ∧ time.second = 0

theorem seed_eq_zero {time : CompileTime} (midnight : time.Midnight) (kind : CharKind) :
    seed kind time.text = 0 := by
  obtain ⟨hour, minute, second⟩ := midnight
  apply BitVec.eq_of_toNat_eq
  rw [seed_text, hour, minute, second]
  rfl

theorem seed_mem {time : CompileTime} (other : ¬ time.Midnight) (kind : CharKind) :
    seed kind time.text ∈ generatorValues := by
  have hourInside := time.hourInside
  have minuteInside := time.minuteInside
  have secondInside := time.secondInside
  rw [mem_generatorValues, seed_text]
  rw [CompileTime.Midnight] at other
  omega

theorem key_ne_zero_iff (kind : CharKind) (time : CompileTime) (counter : Nat) :
    time.key kind counter ≠ 0 ↔ ¬ time.Midnight := by
  constructor
  · intro nonzero midnight
    apply nonzero
    rw [CompileTime.key, seed_eq_zero midnight, metaRandomGenerator_zero]
  · intro other zero
    have inside := metaRandomGenerator_mem (seed_mem other kind) counter
    have positive := ((mem_generatorValues _).mp inside).1
    rw [CompileTime.key] at zero
    rw [zero] at positive
    exact absurd positive (by decide)

theorem obscureStr_ne_iff (kind : CharKind) (time : CompileTime) (counter : Nat)
    {str : List CharBits} (long : 4 ≤ str.length) :
    obscureStr kind (time.key kind counter) str ≠ str ↔ ¬ time.Midnight := by
  rw [← key_ne_zero_iff kind time counter]
  constructor
  · intro hidden zero
    apply hidden
    rw [zero, obscureStr_zero]
  · intro nonzero
    exact obscureStr_ne kind nonzero long

theorem exists_same_key (kind : CharKind) (time : CompileTime) :
    ∃ first < 2 ^ 31 - 2, ∃ second < 2 ^ 31 - 2, first ≠ second ∧
      time.key kind first = time.key kind second := by
  by_cases midnight : time.Midnight
  · refine ⟨0, by decide, 1, by decide, by decide, ?_⟩
    simp only [CompileTime.key, seed_eq_zero midnight, metaRandomGenerator_zero]
  · exact exists_same_value (seed_mem midnight kind)

/-- At midnight the strings are stored in clear, at any other time they are obscured, but at no
time has every counter a key of its own. -/
theorem not_ownKeys (kind : CharKind) (time : CompileTime) :
    ¬ OwnKeys kind time ∧
      (∀ counter, time.key kind counter ≠ 0 ↔ ¬ time.Midnight) ∧
      (∀ counter (str : List CharBits), 4 ≤ str.length →
        (obscureStr kind (time.key kind counter) str ≠ str ↔ ¬ time.Midnight)) ∧
      ∃ first < 2 ^ 31 - 2, ∃ second < 2 ^ 31 - 2, first ≠ second ∧
        time.key kind first = time.key kind second := by
  refine ⟨?_, key_ne_zero_iff kind time, fun counter _ => obscureStr_ne_iff kind time counter,
    exists_same_key kind time⟩
  intro own
  obtain ⟨first, firstBelow, second, secondBelow, different, same⟩ := exists_same_key kind time
  exact own.unique first firstBelow second secondBelow different same

def midnight : CompileTime := ⟨0, 0, 0, by decide, by decide, by decide⟩

def lateMorning : CompileTime := ⟨11, 5, 10, by decide, by decide, by decide⟩

/-- A unit compiled at midnight stores its text as it is; at 11:05:10 two of the first thousand
counters share a key. -/
theorem not_ownKeys_midnight :
    (obscureStr .signed (midnight.key .signed 0) [107, 101, 121, 0] = [107, 101, 121, 0] ∧
      ¬ OwnKeys .signed midnight) ∧
      lateMorning.key .signed 194 = lateMorning.key .signed 839 ∧
        ¬ OwnKeys .signed lateMorning := by
  have clear : obscureStr .signed (midnight.key .signed 0) [107, 101, 121, 0] =
      [107, 101, 121, 0] := by decide
  have shared : lateMorning.key .signed 194 = lateMorning.key .signed 839 := by decide +kernel
  refine ⟨⟨clear, ?_⟩, shared, ?_⟩
  · intro own
    exact own.obscured 0 [107, 101, 121, 0] (by decide) clear
  · intro own
    exact own.unique 194 (by decide) 839 (by decide) (by decide) shared

end TrippingRobot.Obscurestr
