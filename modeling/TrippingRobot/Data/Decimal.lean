import Mathlib.Data.UInt
import Mathlib.Data.Rat.Defs
import Mathlib.Tactic.Push

/-! Reading a decimal number at the start of a text, as a person or `strtod` does: blanks, a
sign, digits, and a fraction after a point. What follows does not matter. -/

namespace TrippingRobot.Data

def isDigitByte (byte : UInt8) : Bool := 48 ≤ byte && byte ≤ 57

/-- The number that some digits denote. -/
def numeral (digits : List UInt8) : Nat :=
  digits.foldl (fun total digit => 10 * total + (digit.toNat - 48)) 0

def readUnsigned (text : List UInt8) : Option ℚ :=
  let whole := text.takeWhile isDigitByte
  let rest := text.dropWhile isDigitByte
  if whole = [] then none
  else if rest.head? = some 46 then
    let fraction := rest.tail.takeWhile isDigitByte
    some ((numeral whole : ℚ) + numeral fraction / 10 ^ fraction.length)
  else some (numeral whole : ℚ)

def readDecimal (text : List UInt8) : Option ℚ :=
  match text.dropWhile (· = 32) with
  | [] => none
  | first :: rest =>
    if first = 45 then (readUnsigned rest).map fun value => -value
    else if first = 43 then readUnsigned rest
    else readUnsigned (first :: rest)

/-- The text behind its first word. -/
def afterWord (text : List UInt8) : List UInt8 :=
  (text.dropWhile (· = 32)).dropWhile (· ≠ 32)

variable {whole fraction after : List UInt8}

theorem takeWhile_stop {α : Type*} {holds : α → Bool} {first : List α}
    (all : ∀ item ∈ first, holds item = true) (stop : α) (rest : List α)
    (stops : holds stop = false) : (first ++ stop :: rest).takeWhile holds = first := by
  rw [List.takeWhile_append_of_pos all, List.takeWhile_cons_of_neg (by simp [stops]),
    List.append_nil]

theorem dropWhile_stop {α : Type*} {holds : α → Bool} {first : List α}
    (all : ∀ item ∈ first, holds item = true) (stop : α) (rest : List α)
    (stops : holds stop = false) : (first ++ stop :: rest).dropWhile holds = stop :: rest := by
  rw [List.dropWhile_append_of_pos all, List.dropWhile_cons_of_neg (by simp [stops])]

theorem readUnsigned_whole (digits : ∀ byte ∈ whole, isDigitByte byte = true)
    (nonempty : whole ≠ []) (rest : List UInt8) :
    readUnsigned (whole ++ 32 :: rest) = some (numeral whole : ℚ) := by
  have stops : isDigitByte 32 = false := rfl
  have noPoint : (32 : UInt8) ≠ 46 := by decide
  simp [readUnsigned, takeWhile_stop digits 32 rest stops, dropWhile_stop digits 32 rest stops,
    nonempty]

theorem readUnsigned_fraction (digits : ∀ byte ∈ whole, isDigitByte byte = true)
    (nonempty : whole ≠ []) (decimals : ∀ byte ∈ fraction, isDigitByte byte = true)
    (rest : List UInt8) :
    readUnsigned (whole ++ 46 :: (fraction ++ 32 :: rest)) =
      some ((numeral whole : ℚ) + numeral fraction / 10 ^ fraction.length) := by
  have point : isDigitByte 46 = false := rfl
  have blank : isDigitByte 32 = false := rfl
  simp [readUnsigned, takeWhile_stop digits 46 _ point, dropWhile_stop digits 46 _ point,
    takeWhile_stop decimals 32 rest blank, nonempty]

theorem replicate_blank (count : Nat) :
    ∀ byte ∈ List.replicate count (32 : UInt8), decide (byte = 32) = true := by
  intro byte member
  simp [List.eq_of_mem_replicate member]

theorem readDecimal_blanks (count : Nat) (text : List UInt8) :
    readDecimal (List.replicate count 32 ++ text) = readDecimal text := by
  rw [readDecimal, List.dropWhile_append_of_pos (replicate_blank count)]
  rfl

theorem readDecimal_blank (text : List UInt8) : readDecimal (32 :: text) = readDecimal text :=
  readDecimal_blanks 1 text

theorem readDecimal_unsigned (digits : ∀ byte ∈ whole, isDigitByte byte = true)
    (nonempty : whole ≠ []) (rest : List UInt8) :
    readDecimal (whole ++ rest) = readUnsigned (whole ++ rest) := by
  cases whole with
  | nil => exact absurd rfl nonempty
  | cons first others =>
    have digit := digits first List.mem_cons_self
    have different (other : UInt8) (stops : isDigitByte other = false) : first ≠ other := by
      rintro rfl
      rw [digit] at stops
      cases stops
    have blank := different 32 rfl
    have minus := different 45 rfl
    have plus := different 43 rfl
    simp [readDecimal, blank, minus, plus]

theorem readDecimal_minus (text : List UInt8) :
    readDecimal (45 :: text) = (readUnsigned text).map fun value => -value := by
  simp [readDecimal]

theorem readDecimal_plus (text : List UInt8) : readDecimal (43 :: text) = readUnsigned text := by
  simp [readDecimal]

theorem afterWord_padded (count : Nat) {word : List UInt8} (visible : ∀ byte ∈ word, byte ≠ 32)
    (nonempty : word ≠ []) (rest : List UInt8) :
    afterWord (List.replicate count 32 ++ (word ++ 32 :: rest)) = 32 :: rest := by
  cases word with
  | nil => exact absurd rfl nonempty
  | cons first others =>
    have shown := visible first List.mem_cons_self
    rw [afterWord, List.dropWhile_append_of_pos (replicate_blank count), List.cons_append,
      List.dropWhile_cons_of_neg (by simpa using shown), ← List.cons_append]
    exact dropWhile_stop (by simpa using visible) 32 rest (by simp)

theorem isDigitByte_ne_blank {byte : UInt8} (digit : isDigitByte byte = true) : byte ≠ 32 := by
  rintro rfl
  cases digit

end TrippingRobot.Data
