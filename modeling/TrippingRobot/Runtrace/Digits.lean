import TrippingRobot.Data.Column
import TrippingRobot.Runtrace.Format

/-! The digits that the conversions print, and the numbers they are read back as. -/

namespace TrippingRobot.Runtrace

open TrippingRobot.Data

theorem ascii_length (text : List Char) : (ascii text).length = text.length := by simp [ascii]

theorem padLeft_length (width : Nat) (fill : Char) (text : List Char) :
    (padLeft width fill text).length = max width text.length := by
  rw [padLeft, List.length_append, List.length_replicate]
  omega

theorem toDigits_length_le {value digits : Nat} (positive : 0 < digits)
    (small : value < 10 ^ digits) : (Nat.toDigits 10 value).length ≤ digits :=
  (Nat.length_toDigits_le_iff (by omega) positive).mpr small

theorem toUInt8_toNat {char : Char} (digit : char.isDigit = true) :
    char.toUInt8.toNat = char.toNat ∧ 48 ≤ char.toNat ∧ char.toNat ≤ 57 := by
  have bounds : 48 ≤ char.toNat ∧ char.toNat ≤ 57 := by
    simpa [Char.isDigit, UInt32.le_iff_toNat_le] using digit
  have byte : char.toUInt8.toNat = char.toNat % 256 := UInt32.toNat_toUInt8 _
  omega

theorem ascii_isDigitByte {chars : List Char} (digits : ∀ char ∈ chars, char.isDigit = true) :
    ∀ byte ∈ ascii chars, isDigitByte byte = true := by
  intro byte member
  obtain ⟨char, inside, rfl⟩ := List.mem_map.mp member
  obtain ⟨same, low, high⟩ := toUInt8_toNat (digits char inside)
  simp only [isDigitByte, Bool.and_eq_true, decide_eq_true_eq, UInt8.le_iff_toNat_le, same]
  exact ⟨low, high⟩

theorem numeral_ascii {chars : List Char} (digits : ∀ char ∈ chars, char.isDigit = true) :
    numeral (ascii chars) = Nat.ofDigitChars 10 chars 0 := by
  have each (total : Nat) : (ascii chars).foldl (fun total digit => 10 * total + (digit.toNat - 48))
      total = Nat.ofDigitChars 10 chars total := by
    induction chars generalizing total with
    | nil => simp [ascii]
    | cons first rest ih =>
      have byte := (toUInt8_toNat (digits first List.mem_cons_self)).1
      have later := ih fun char member => digits char (List.mem_cons_of_mem _ member)
      rw [Nat.ofDigitChars_cons, ← later]
      simp [ascii, byte]
  exact each 0

theorem toDigits_isDigit (value : Nat) : ∀ char ∈ Nat.toDigits 10 value, char.isDigit = true :=
  fun _ member => Nat.isDigit_of_mem_toDigits (by omega) (by omega) member

theorem ascii_toDigits_ne_nil (value : Nat) : ascii (Nat.toDigits 10 value) ≠ [] := by
  simp [ascii, Nat.toDigits_ne_nil]

theorem numeral_toDigits (value : Nat) : numeral (ascii (Nat.toDigits 10 value)) = value := by
  rw [numeral_ascii (toDigits_isDigit value), Nat.ofDigitChars_ten_toDigits]

theorem zeros_isDigit (count value : Nat) :
    ∀ char ∈ List.replicate count '0' ++ Nat.toDigits 10 value, char.isDigit = true := by
  intro char member
  rcases List.mem_append.mp member with zero | digit
  · rw [List.eq_of_mem_replicate zero]
    rfl
  · exact toDigits_isDigit value char digit

theorem numeral_zeros (count value : Nat) :
    numeral (ascii (List.replicate count '0' ++ Nat.toDigits 10 value)) = value := by
  rw [numeral_ascii (zeros_isDigit count value), Nat.ofDigitChars_append,
    Nat.ofDigitChars_replicate_zero, Nat.mul_zero, Nat.ofDigitChars_ten_toDigits]

theorem padLeft_blank (width : Nat) (text : List Char) :
    ascii (padLeft width ' ' text) =
      List.replicate (width - text.length) 32 ++ ascii text := by
  simp [padLeft, ascii, Char.toUInt8]

theorem numeral_blanks (width value : Nat) :
    Column.Numeral (ascii (padLeft width ' ' (Nat.toDigits 10 value))) value where
  shape := ⟨_, _, padLeft_blank width _, ascii_toDigits_ne_nil value,
    ascii_isDigitByte (toDigits_isDigit value), numeral_toDigits value⟩

/-- `%<width>d` or `%+<width>d`. -/
theorem numeral_signed (width : Nat) {plus : List Char} (sign : plus = [] ∨ plus = ['+'])
    (value : Int) :
    Column.SignedNumeral (ascii (padLeft width ' '
      ((if value < 0 then ['-'] else plus) ++ Nat.toDigits 10 value.natAbs))) value where
  shape := by
    let signs := if value < 0 then ['-'] else plus
    refine ⟨width - (signs ++ Nat.toDigits 10 value.natAbs).length, ascii signs,
      ascii (Nat.toDigits 10 value.natAbs), ?_, ascii_toDigits_ne_nil _,
      ascii_isDigitByte (toDigits_isDigit _), numeral_toDigits _, ?_⟩
    · rw [padLeft_blank]
      simp [ascii, signs]
    · by_cases negative : value < 0
      · have minus : signs = ['-'] := if_pos negative
        exact .inl ⟨negative, by rw [minus]; rfl⟩
      · have same : signs = plus := if_neg negative
        refine .inr ⟨Int.not_lt.mp negative, ?_⟩
        rw [same]
        rcases sign with rfl | rfl
        · exact .inl rfl
        · exact .inr rfl

end TrippingRobot.Runtrace
