import TrippingRobot.Data.Decimal

/-! Texts made of columns. A column knows how it is printed and how it is read
back from the start of a text, and that the one undoes the other. -/

namespace TrippingRobot.Data

universe u v
variable {α : Type u} {β : Type v}

/-- `Fits` tells the values that are read back as they were printed, whatever
text follows them. -/
structure Column (α : Type u) where
  print : α → List UInt8
  scan : List UInt8 → Option (α × List UInt8)
  Fits : α → Prop
  back : ∀ value, Fits value → ∀ rest, scan (print value ++ rest) = some (value, rest)

namespace Column

/-- The bytes up to a stop, which is read too. -/
def scanWord (stop : UInt8) (text : List UInt8) : Option (List UInt8 × List UInt8) :=
  match text.dropWhile (· ≠ stop) with
  | [] => none
  | _ :: rest => some (text.takeWhile (· ≠ stop), rest)

theorem scanWord_stop {stop : UInt8} {word : List UInt8} (without : stop ∉ word)
    (rest : List UInt8) : scanWord stop (word ++ stop :: rest) = some (word, rest) := by
  have all : ∀ byte ∈ word, decide (byte ≠ stop) = true := by
    intro byte member
    have different : byte ≠ stop := fun same => without (same ▸ member)
    simpa using different
  rw [scanWord, dropWhile_stop all stop rest (by simp), takeWhile_stop all stop rest (by simp)]

/-- Some bytes without the one that ends them. -/
def word (stop : UInt8) : Column (List UInt8) where
  print bytes := bytes ++ [stop]
  scan := scanWord stop
  Fits bytes := stop ∉ bytes
  back bytes without rest := by
    rw [List.append_assoc]
    exact scanWord_stop without rest

/-- A column behind a text that is always the same. -/
def after (column : Column α) (text : List UInt8) : Column α where
  print value := text ++ column.print value
  scan input := if text <+: input then column.scan (input.drop text.length) else none
  Fits := column.Fits
  back value fits rest := by simp [column.back value fits]

structure Numeral (printed : List UInt8) (value : Nat) : Prop where
  shape : ∃ blanks digits, printed = List.replicate blanks 32 ++ digits ∧ digits ≠ [] ∧
    (∀ byte ∈ digits, isDigitByte byte = true) ∧ numeral digits = value

/-- The number at the start of a text, up to its stop. -/
def scanNumeral (stop : UInt8) (text : List UInt8) : Option (Nat × List UInt8) :=
  let digits := (text.dropWhile (· = 32)).takeWhile isDigitByte
  let rest := (text.dropWhile (· = 32)).dropWhile isDigitByte
  if digits = [] then none
  else if rest.head? = some stop then some (numeral digits, rest.tail)
  else none

theorem scanNumeral_digits {stop : UInt8} (stops : isDigitByte stop = false) {digits : List UInt8}
    (nonempty : digits ≠ []) (all : ∀ byte ∈ digits, isDigitByte byte = true) (rest : List UInt8) :
    scanNumeral stop (digits ++ stop :: rest) = some (numeral digits, rest) := by
  have visible : (digits ++ stop :: rest).dropWhile (· = 32) = digits ++ stop :: rest := by
    cases digits with
    | nil => exact absurd rfl nonempty
    | cons first others =>
      have shown := isDigitByte_ne_blank (all first List.mem_cons_self)
      simp [shown]
  simp [scanNumeral, visible, takeWhile_stop all stop rest stops, dropWhile_stop all stop rest stops,
    nonempty]

theorem scanNumeral_blanks (stop : UInt8) (blanks : Nat) (text : List UInt8) :
    scanNumeral stop (List.replicate blanks 32 ++ text) = scanNumeral stop text := by
  simp only [scanNumeral, List.dropWhile_append_of_pos (replicate_blank blanks)]

/-- A number that is printed without a sign. -/
def unsigned (printed : Nat → List UInt8) (shape : ∀ value, Numeral (printed value) value)
    (stop : UInt8) (stops : isDigitByte stop = false) : Column Nat where
  print value := printed value ++ [stop]
  scan := scanNumeral stop
  Fits _ := True
  back value _ rest := by
    obtain ⟨blanks, digits, same, nonempty, all, denotes⟩ := (shape value).shape
    rw [same, List.append_assoc, List.append_assoc, scanNumeral_blanks, List.cons_append,
      List.nil_append, scanNumeral_digits stops nonempty all, denotes]

structure SignedNumeral (printed : List UInt8) (value : Int) : Prop where
  shape : ∃ blanks sign digits, printed = List.replicate blanks 32 ++ (sign ++ digits) ∧
    digits ≠ [] ∧ (∀ byte ∈ digits, isDigitByte byte = true) ∧
    numeral digits = value.natAbs ∧
    (value < 0 ∧ sign = [45] ∨ 0 ≤ value ∧ (sign = [] ∨ sign = [43]))

theorem SignedNumeral.head {printed : List UInt8} {value : Int}
    (numeral : SignedNumeral printed value) (rest : List UInt8) :
    ∃ byte, (printed ++ rest).head? = some byte ∧
      (byte = 32 ∨ byte = 43 ∨ byte = 45 ∨ isDigitByte byte = true) := by
  obtain ⟨blanks, sign, digits, rfl, nonempty, all, -, signs⟩ := numeral.shape
  obtain ⟨first, others, rfl⟩ := List.exists_cons_of_ne_nil nonempty
  have digit := all first List.mem_cons_self
  cases blanks with
  | succ blanks => exact ⟨32, rfl, .inl rfl⟩
  | zero =>
    rcases signs with ⟨-, rfl⟩ | ⟨-, rfl | rfl⟩
    · exact ⟨45, rfl, .inr (.inr (.inl rfl))⟩
    · exact ⟨first, rfl, .inr (.inr (.inr digit))⟩
    · exact ⟨43, rfl, .inr (.inl rfl)⟩

def scanSigned (stop : UInt8) (text : List UInt8) : Option (Int × List UInt8) :=
  match text.dropWhile (· = 32) with
  | [] => none
  | first :: rest =>
    if first = 45 then (scanNumeral stop rest).map fun read => (-(read.1 : Int), read.2)
    else if first = 43 then (scanNumeral stop rest).map fun read => ((read.1 : Int), read.2)
    else (scanNumeral stop (first :: rest)).map fun read => ((read.1 : Int), read.2)

theorem scanSigned_blanks (stop : UInt8) (blanks : Nat) (text : List UInt8) :
    scanSigned stop (List.replicate blanks 32 ++ text) = scanSigned stop text := by
  simp only [scanSigned, List.dropWhile_append_of_pos (replicate_blank blanks)]

theorem scanSigned_plain {stop : UInt8} {digits : List UInt8} (nonempty : digits ≠ [])
    (all : ∀ byte ∈ digits, isDigitByte byte = true) (rest : List UInt8) :
    scanSigned stop (digits ++ rest) =
      (scanNumeral stop (digits ++ rest)).map fun read => ((read.1 : Int), read.2) := by
  cases digits with
  | nil => exact absurd rfl nonempty
  | cons first others =>
    have digit := all first List.mem_cons_self
    have different (other : UInt8) (stops : isDigitByte other = false) : first ≠ other := by
      rintro rfl
      rw [digit] at stops
      cases stops
    have blank := different 32 rfl
    have minus := different 45 rfl
    have plus := different 43 rfl
    simp [scanSigned, blank, minus, plus]

/-- A number that is printed with its sign. -/
def signed (printed : Int → List UInt8) (shape : ∀ value, SignedNumeral (printed value) value)
    (stop : UInt8) (stops : isDigitByte stop = false) : Column Int where
  print value := printed value ++ [stop]
  scan := scanSigned stop
  Fits _ := True
  back value _ rest := by
    obtain ⟨blanks, sign, digits, same, nonempty, all, denotes, signs⟩ := (shape value).shape
    have number := scanNumeral_digits stops nonempty all rest
    rw [denotes] at number
    rw [same, List.append_assoc, List.append_assoc, scanSigned_blanks, List.append_assoc,
      List.cons_append, List.nil_append]
    rcases signs with ⟨negative, rfl⟩ | ⟨positive, rfl | rfl⟩
    · have magnitude : -(value.natAbs : Int) = value := by omega
      have scanned : scanSigned stop ([45] ++ (digits ++ stop :: rest)) =
          some (-(value.natAbs : Int), rest) := by
        simp [scanSigned, number]
      rw [scanned, magnitude]
    · have magnitude : (value.natAbs : Int) = value := by omega
      rw [List.nil_append, scanSigned_plain nonempty all, number, Option.map_some, magnitude]
    · have magnitude : (value.natAbs : Int) = value := by omega
      have scanned : scanSigned stop ([43] ++ (digits ++ stop :: rest)) =
          some ((value.natAbs : Int), rest) := by
        simp [scanSigned, number]
      rw [scanned, magnitude]

/-- Two columns, one behind the other. -/
def pair (first : Column α) (second : Column β) : Column (α × β) where
  print value := first.print value.1 ++ second.print value.2
  scan text := (first.scan text).bind fun read =>
    (second.scan read.2).map fun later => ((read.1, later.1), later.2)
  Fits value := first.Fits value.1 ∧ second.Fits value.2
  back value fits rest := by
    rw [List.append_assoc, first.back value.1 fits.1]
    simp [second.back value.2 fits.2]

/-- A column that is there or not; where it is not there is no value. -/
def optional (column : Column α) (present : Bool) : Column (Option α) where
  print value := match present, value with
    | true, some value => column.print value
    | _, _ => []
  scan text :=
    if present then (column.scan text).map fun read => (some read.1, read.2)
    else some (none, text)
  Fits value := match present, value with
    | true, some value => column.Fits value
    | true, none => False
    | false, value => value = none
  back value fits rest := by
    cases present with
    | true =>
      cases value with
      | none => exact absurd fits id
      | some value => simp [column.back value fits]
    | false => simp [show value = none from fits]

/-- The same columns for those values of another type that are made of theirs. -/
def via (column : Column α) (make : α → β) (parts : β → α) : Column β where
  print value := column.print (parts value)
  scan text := (column.scan text).map fun read => (make read.1, read.2)
  Fits value := make (parts value) = value ∧ column.Fits (parts value)
  back value fits rest := by simp [column.back _ fits.2, fits.1]

/-- Two forms of a column; what is printed in the second must not read as the first. -/
def orElse (first : Column α) (isFirst : α → Bool) (second : Column α) : Column α where
  print value := if isFirst value then first.print value else second.print value
  scan text := (first.scan text).or (second.scan text)
  Fits value :=
    if isFirst value then first.Fits value
    else second.Fits value ∧ ∀ rest, first.scan (second.print value ++ rest) = none
  back value fits rest := by
    cases form : isFirst value with
    | true =>
      rw [form, if_pos rfl] at fits
      simp [first.back value fits]
    | false =>
      rw [form, if_neg Bool.false_ne_true] at fits
      simp [fits.2, second.back value fits.1]

theorem orElse_first {first second : Column α} {isFirst : α → Bool} {value : α}
    (form : isFirst value = true) (fits : first.Fits value) :
    (first.orElse isFirst second).Fits value :=
  (if_pos form).mpr fits

theorem orElse_second {first second : Column α} {isFirst : α → Bool} {value : α}
    (form : isFirst value = false) (fits : second.Fits value)
    (apart : ∀ rest, first.scan (second.print value ++ rest) = none) :
    (first.orElse isFirst second).Fits value :=
  (if_neg (by simp [form])).mpr ⟨fits, apart⟩

/-- What starts with another byte does not read as a column behind a text. -/
theorem after_scan_none {byte : UInt8} {text input : List UInt8} {column : Column α}
    (different : input.head? ≠ some byte) : (column.after (byte :: text)).scan input = none := by
  refine if_neg ?_
  rintro ⟨rest, rfl⟩
  exact different rfl

/-- Row after row, until only the foot is left. -/
def scanRows (column : Column α) (foot : List UInt8) : (fuel : Nat) → List UInt8 → Option (List α)
  | 0, text => if text = foot then some [] else none
  | fuel + 1, text =>
    if text = foot then some []
    else (column.scan text).bind fun read =>
      (column.scanRows foot fuel read.2).map fun later => read.1 :: later

/-- Rows between a head and a foot. -/
def scanTable (column : Column α) (head foot text : List UInt8) : Option (List α) :=
  if head <+: text then column.scanRows foot text.length (text.drop head.length) else none

theorem scanRows_flatMap (column : Column α) (nonempty : ∀ value, column.print value ≠ [])
    {values : List α} (fits : ∀ value ∈ values, column.Fits value) (foot : List UInt8) {fuel : Nat}
    (enough : (values.flatMap column.print).length ≤ fuel) :
    column.scanRows foot fuel (values.flatMap column.print ++ foot) = some values := by
  induction values generalizing fuel with
  | nil => cases fuel <;> simp [scanRows]
  | cons value rest ih =>
    have positive := List.length_pos_of_ne_nil (nonempty value)
    have here := column.back value (fits value List.mem_cons_self)
      (rest.flatMap column.print ++ foot)
    simp only [List.flatMap_cons, List.length_append, List.append_assoc] at enough ⊢
    obtain ⟨fuel, rfl⟩ : ∃ less, fuel = less + 1 := ⟨fuel - 1, by omega⟩
    have more : column.print value ++ (rest.flatMap column.print ++ foot) ≠ foot := by
      intro same
      have length := congrArg List.length same
      simp only [List.length_append] at length
      omega
    have later := ih (fun value member => fits value (List.mem_cons_of_mem _ member))
      (by omega : (rest.flatMap column.print).length ≤ fuel)
    simp [scanRows, more, here, later]

/-- What is printed row by row is read back row by row. -/
theorem scanTable_flatMap (column : Column α) (nonempty : ∀ value, column.print value ≠ [])
    {values : List α} (fits : ∀ value ∈ values, column.Fits value) (head foot : List UInt8) :
    column.scanTable head foot (head ++ (values.flatMap column.print ++ foot)) = some values := by
  have enough : (values.flatMap column.print).length ≤
      (head ++ (values.flatMap column.print ++ foot)).length := by
    simp only [List.length_append]
    omega
  rw [scanTable, if_pos (List.prefix_append _ _), List.drop_left]
  exact column.scanRows_flatMap nonempty fits foot enough

end Column

end TrippingRobot.Data
