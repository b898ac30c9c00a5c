import Mathlib.Data.List.TakeWhile
import Mathlib.Order.Defs.LinearOrder
import Mathlib.Data.UInt

/-! NUL-terminated byte strings: the comparison and the copies of the C
library, and what a reader of a byte array sees up to the terminator. -/

namespace TrippingRobot.Data

/-- The bytes of a string up to, and without, its terminator. -/
@[ext]
structure CString where
  bytes : List UInt8
  noNul : 0 ∉ bytes
deriving DecidableEq

/-- The string a reader finds in memory: everything before the first NUL. -/
def untilNul (memory : List UInt8) : List UInt8 := memory.takeWhile (· ≠ 0)

theorem untilNul_append_nul {before : List UInt8} (clean : 0 ∉ before) (after : List UInt8) :
    untilNul (before ++ 0 :: after) = before := by
  unfold untilNul
  rw [List.takeWhile_append_of_pos]
  · simp
  · intro byte member
    have different : byte ≠ 0 := fun zero => clean (zero ▸ member)
    simpa using different

theorem not_mem_untilNul (memory : List UInt8) : 0 ∉ untilNul memory := by
  intro member
  have nonzero := List.mem_takeWhile_imp member
  simp at nonzero

/-- The string at the start of a piece of memory that holds a terminator. -/
def CString.ofMemory (memory : List UInt8) : CString := ⟨untilNul memory, not_mem_untilNul memory⟩

theorem untilNul_clean {text : List UInt8} (clean : 0 ∉ text) : untilNul text = text := by
  apply List.takeWhile_eq_self_iff.mpr
  intro byte member
  have different : byte ≠ 0 := fun zero => clean (zero ▸ member)
  simpa using different

theorem untilNul_append {memory : List UInt8} (terminated : 0 ∈ memory) (after : List UInt8) :
    untilNul (memory ++ after) = untilNul memory := by
  obtain ⟨before, rest, rfl, clean⟩ := List.eq_append_cons_of_mem terminated
  rw [List.append_assoc, List.cons_append, untilNul_append_nul clean, untilNul_append_nul clean]

/-- `strncpy` into a field of `size` bytes: at most `size` bytes of the string,
the rest of the field filled with NULs. -/
def strncpy (size : Nat) (source : List UInt8) : List UInt8 :=
  source.take size ++ List.replicate (size - source.length) 0

@[simp] theorem strncpy_length (size : Nat) (source : List UInt8) :
    (strncpy size source).length = size := by
  simp [strncpy]
  omega

theorem untilNul_strncpy {source : List UInt8} (clean : 0 ∉ source) (short : source.length < size) :
    untilNul (strncpy size source) = source := by
  obtain ⟨rest, padding⟩ : ∃ rest, size - source.length = rest + 1 :=
    ⟨size - source.length - 1, by omega⟩
  rw [strncpy, List.take_of_length_le (by omega), padding, List.replicate_succ]
  exact untilNul_append_nul clean _

/-- `strcmp`, reduced to the sign of its result. -/
def strcmp : List UInt8 → List UInt8 → Int
  | [], [] => 0
  | [], _ :: _ => -1
  | _ :: _, [] => 1
  | first :: rest, other :: others =>
    if first < other then -1 else if other < first then 1 else strcmp rest others

theorem strcmp_self (text : List UInt8) : strcmp text text = 0 := by
  induction text with
  | nil => rfl
  | cons byte rest ih => simp [strcmp, ih]

theorem strcmp_eq_zero {text other : List UInt8} : strcmp text other = 0 ↔ text = other := by
  constructor
  · intro same
    induction text generalizing other with
    | nil => cases other <;> simp_all [strcmp]
    | cons byte rest ih =>
      cases other with
      | nil => simp [strcmp] at same
      | cons otherByte others =>
        simp only [strcmp] at same
        split at same
        · omega
        · rename_i notBelow
          split at same
          · omega
          · rename_i notAbove
            have bytes : byte = otherByte :=
              UInt8.le_antisymm (UInt8.not_lt.mp notAbove) (UInt8.not_lt.mp notBelow)
            rw [bytes, ih same]
  · rintro rfl
    exact strcmp_self text

/-- `strncmp`, reduced to the sign of its result. -/
def strncmp (count : Nat) (text other : List UInt8) : Int :=
  strcmp (text.take count) (other.take count)

/-- A comparison over the whole length of a string asks whether the memory starts with it. -/
theorem strncmp_eq_zero {text : List UInt8} (clean : 0 ∉ text) (memory : List UInt8) :
    strncmp text.length (untilNul memory) text = 0 ↔ text <+: memory := by
  rw [strncmp, strcmp_eq_zero, List.take_length, eq_comm, ← List.prefix_iff_eq_take]
  constructor
  · intro starts
    exact starts.trans (List.takeWhile_prefix _)
  · rintro ⟨rest, rfl⟩
    have visible : ∀ byte ∈ text, decide (byte ≠ 0) = true := by
      intro byte member
      have different : byte ≠ 0 := fun zero => clean (zero ▸ member)
      simpa using different
    rw [untilNul, List.takeWhile_append_of_pos visible]
    exact List.prefix_append _ _

theorem strcmp_swap (text other : List UInt8) : strcmp other text = -strcmp text other := by
  induction text generalizing other with
  | nil => cases other <;> rfl
  | cons byte rest ih =>
    cases other with
    | nil => rfl
    | cons otherByte others =>
      simp only [strcmp]
      by_cases below : byte < otherByte
      · simp [below, UInt8.lt_asymm below]
      · by_cases above : otherByte < byte
        · simp [below, above]
        · simpa [below, above] using ih others

theorem strcmp_neg_trans {text middle other : List UInt8} (first : strcmp text middle < 0)
    (second : strcmp middle other < 0) : strcmp text other < 0 := by
  induction text generalizing middle other with
  | nil =>
    cases other with
    | nil => cases middle <;> simp [strcmp] at first second
    | cons _ _ => simp [strcmp]
  | cons byte rest ih =>
    cases middle with
    | nil => simp [strcmp] at first
    | cons middleByte middles =>
      cases other with
      | nil => simp [strcmp] at second
      | cons otherByte others =>
        simp only [strcmp, UInt8.lt_iff_toNat_lt] at *
        split at first
        · split at second
          · rw [if_pos (by omega)]
            omega
          · split at second
            · omega
            · rw [if_pos (by omega)]
              omega
        · split at first
          · omega
          · split at second
            · rw [if_pos (by omega)]
              omega
            · split at second
              · omega
              · rw [if_neg (by omega), if_neg (by omega)]
                exact ih first second

/-- The order `strcmp` puts on strings. -/
instance : LinearOrder CString where
  le text other := strcmp text.bytes other.bytes ≤ 0
  lt text other := strcmp text.bytes other.bytes < 0
  le_refl text := (strcmp_self text.bytes).le
  le_trans text middle other first second := by
    rcases lt_or_eq_of_le first with first | first
    · rcases lt_or_eq_of_le second with second | second
      · exact (strcmp_neg_trans first second).le
      · rw [← strcmp_eq_zero.mp second]
        exact first.le
    · rw [strcmp_eq_zero.mp first]
      exact second
  le_antisymm text other first second := by
    rw [strcmp_swap] at second
    exact CString.ext (strcmp_eq_zero.mp (by omega))
  le_total text other := by
    rw [strcmp_swap text.bytes other.bytes]
    omega
  lt_iff_le_not_ge text other := by
    rw [strcmp_swap text.bytes other.bytes]
    omega
  toDecidableLE text other := inferInstanceAs (Decidable (strcmp text.bytes other.bytes ≤ 0))

theorem CString.lt_iff {text other : CString} : text < other ↔ strcmp text.bytes other.bytes < 0 :=
  Iff.rfl

end TrippingRobot.Data
