import TrippingRobot.Runtrace.Pieces

/-! `*prev_time` is 0 at the start of every call. When a call that starts in the middle of
the trace prints what one coming from the record before would, and what it prints first. -/

namespace TrippingRobot.Runtrace

open TrippingRobot.Data

/-! ## The difference column -/

/-- The difference `RT_PRINT_DIFF` shows for a record. -/
def shownDiff (flags : CInt) (prevTime : BitVec 64) (tp : Tracept) : CInt :=
  if prevTime = 0 then 0 else (pointTime flags tp.time - prevTime).setWidth 32

/-- The difference the first record of some slots shows. -/
def firstDiff (flags : CInt) (prevTime : BitVec 64) (cells : List Tracept) : CInt :=
  ((cells.find? fun tp => tp.src.isSome).map (shownDiff flags prevTime)).getD 0

/-- A call that starts at these slots prints what one coming from `prevTime` would. -/
def RestartUnseen (flags : CInt) (prevTime : BitVec 64) (cells : List Tracept) : Prop :=
  isSet flags rtPrintDiff = true → firstDiff flags prevTime cells = 0

instance (flags : CInt) (prevTime : BitVec 64) (cells : List Tracept) :
    Decidable (RestartUnseen flags prevTime cells) :=
  inferInstanceAs (Decidable (_ → _))

theorem printTracePoint_unseen {flags : CInt} {prevTime : BitVec 64} {tp : Tracept}
    (unseen : isSet flags rtPrintDiff = true → shownDiff flags prevTime tp = 0)
    (past : List UInt8) :
    printTracePoint flags tp past prevTime = printTracePoint flags tp past 0 := by
  unfold printTracePoint pointText
  cases wanted : isSet flags rtPrintDiff with
  | false => rfl
  | true =>
    have none := unseen wanted
    unfold shownDiff at none
    simp only [none, ↓reduceIte]

theorem slotTexts_unseen {flags mask : CInt} {past : Nat → List UInt8} {prevTime : BitVec 64}
    {cells : List Tracept} (unseen : RestartUnseen flags prevTime cells) (slot : Nat) :
    slotTexts flags mask past slot prevTime cells = slotTexts flags mask past slot 0 cells := by
  induction cells generalizing slot with
  | nil => rfl
  | cons tp rest ih =>
    by_cases blank : tp.src.isNone
    · have absent : tp.src.isSome = false := by simpa using blank
      have later : RestartUnseen flags prevTime rest := by
        intro wanted
        simpa [firstDiff, absent] using unseen wanted
      simp only [slotTexts, if_pos blank, ih later]
    · have present : tp.src.isSome = true := by simpa [Option.isSome_iff_ne_none] using blank
      have first (wanted : isSet flags rtPrintDiff = true) : shownDiff flags prevTime tp = 0 := by
        simpa [firstDiff, present] using unseen wanted
      have same := printTracePoint_unseen first (past slot)
      simp only [slotTexts, if_neg blank, same]

private theorem signed_ne_zero {value : CInt} (nonzero : value ≠ 0) :
    ascii ((if value.toInt < 0 then ['-'] else ['+']) ++ Nat.toDigits 10 value.toInt.natAbs) ≠
      ascii ['+', '0'] := by
  intro same
  have size := congrArg List.length same
  have different : value.toInt ≠ 0 := fun zero => nonzero (BitVec.toInt_inj.mp (by simpa using zero))
  split at same
  · simp only [ascii, List.cons_append, List.map_cons, List.cons.injEq] at same
    exact absurd same.1 (by decide)
  · rename_i positive
    rw [if_neg positive] at size
    simp only [ascii, List.length_map, List.length_append, List.length_cons, List.length_nil] at size
    have single : value.toInt.natAbs < 10 ^ 1 :=
      (Nat.length_toDigits_le_iff (by omega) (by omega)).mp (by omega)
    rw [Nat.toDigits_of_lt_base (by omega)] at same
    have digits : ∀ digit, digit < 10 → 0 < digit → (Nat.digitChar digit).toUInt8 ≠ '0'.toUInt8 := by
      decide
    apply digits value.toInt.natAbs (by omega) (by omega)
    simpa [ascii] using same

theorem ascii_append (text other : List Char) : ascii (text ++ other) = ascii text ++ ascii other :=
  List.map_append

private theorem formatSigned_shown (width : Nat) (value : CInt) (after : List UInt8) :
    ((formatSigned width ['+'] value ++ (ascii [' '] ++ after)).dropWhile (· = 32)).takeWhile (· ≠ 32) =
      ascii ((if value.toInt < 0 then ['-'] else ['+']) ++ Nat.toDigits 10 value.toInt.natAbs) := by
  have digit (char : Char) (member : char ∈ Nat.toDigits 10 value.toInt.natAbs) :
      char.toUInt8 ≠ 32 := by
    have isDigit := Nat.isDigit_of_mem_toDigits (by omega) (by omega) member
    intro blank
    have number := congrArg UInt8.toNat blank
    rw [Char.toUInt8, UInt32.toNat_toUInt8] at number
    have low : 48 ≤ char.val.toNat ∧ char.val.toNat ≤ 57 := by
      simpa [Char.isDigit, UInt32.le_iff_toNat_le] using isDigit
    have code : (32 : UInt8).toNat = 32 := rfl
    omega
  have visible : ∀ byte ∈ ascii ((if value.toInt < 0 then ['-'] else ['+']) ++
      Nat.toDigits 10 value.toInt.natAbs), byte ≠ 32 := by
    intro byte member
    obtain ⟨char, inside, rfl⟩ := List.mem_map.mp member
    rcases List.mem_append.mp inside with sign | member
    · split at sign
      · rw [List.mem_singleton.mp sign]
        decide
      · rw [List.mem_singleton.mp sign]
        decide
    · exact digit char member
  have padding (count : Nat) : ∀ byte ∈ ascii (List.replicate count ' '), decide (byte = 32) = true := by
    intro byte member
    obtain ⟨char, inside, rfl⟩ := List.mem_map.mp member
    rw [List.eq_of_mem_replicate inside]
    rfl
  rw [formatSigned, padLeft, ascii_append, List.append_assoc,
    List.dropWhile_append_of_pos (padding _)]
  generalize shown : ascii ((if value.toInt < 0 then ['-'] else ['+']) ++
    Nat.toDigits 10 value.toInt.natAbs) = column at visible
  cases column with
  | nil => exact absurd (congrArg List.length shown) (by rw [ascii_length]; split <;> simp)
  | cons sign digits =>
    have first : sign ≠ 32 := visible sign List.mem_cons_self
    rw [List.cons_append, List.dropWhile_cons_of_neg (by simpa using first), ← List.cons_append,
      List.takeWhile_append_of_pos (by simpa using visible)]
    have blank : ascii [' '] = [32] := rfl
    rw [blank]
    simp

/-- Two lines of one record agree up to a difference of 0 only if both show it. -/
theorem printTracePoint_diverge {flags : CInt} {tp : Tracept} {past : List UInt8}
    {prevTime : BitVec 64} {after others : List UInt8} (wanted : isSet flags rtPrintDiff = true)
    (same : (printTracePoint flags tp past 0).1 ++ after =
      (printTracePoint flags tp past prevTime).1 ++ others) : shownDiff flags prevTime tp = 0 := by
  by_contra shown
  simp only [printTracePoint, pointText, if_pos wanted, List.append_assoc,
    List.append_cancel_left_eq, ↓reduceIte] at same
  have columns := congrArg (fun text => (text.dropWhile (· = 32)).takeWhile (· ≠ 32)) same
  simp only [formatSigned_shown] at columns
  exact signed_ne_zero shown columns.symm

/-! ## What a call prints first -/

/-- The text of the first slot that has one. -/
def firstText (texts : List (Option (List UInt8))) : List UInt8 := (texts.findSome? id).getD []

theorem joined_taken_first {size : Nat} (large : 260 ≤ size) (texts : List (Option (List UInt8))) :
    ∃ more, joined (texts.take (slotsTaken size 0 texts)) = firstText texts ++ more := by
  induction texts with
  | nil => exact ⟨[], rfl⟩
  | cons text rest ih =>
    cases text with
    | none =>
      obtain ⟨more, taken⟩ := ih
      exact ⟨more, by rw [slotsTaken, List.take_succ_cons, joined_cons, Option.getD_none,
        List.nil_append, taken]; rfl⟩
    | some text =>
      rw [slotsTaken, if_neg (by omega), List.take_succ_cons, joined_cons]
      exact ⟨_, rfl⟩

theorem joined_first (texts : List (Option (List UInt8))) :
    ∃ more, joined texts = firstText texts ++ more := by
  induction texts with
  | nil => exact ⟨[], rfl⟩
  | cons text rest ih =>
    cases text with
    | none => exact ih
    | some text => exact ⟨_, rfl⟩

theorem joined_taken_nil {size : Nat} (large : 260 ≤ size) {texts : List (Option (List UInt8))}
    (nothing : joined (texts.take (slotsTaken size 0 texts)) = []) : joined texts = [] := by
  induction texts with
  | nil => rfl
  | cons text rest ih =>
    cases text with
    | none =>
      rw [slotsTaken, List.take_succ_cons] at nothing
      exact ih nothing
    | some text =>
      rw [slotsTaken, if_neg (by omega), List.take_succ_cons, joined_cons] at nothing
      obtain ⟨blank, later⟩ := List.append_eq_nil_iff.mp nothing
      rw [Option.getD_some] at blank
      subst blank
      rw [joined_cons, ih later]
      rfl

theorem printTracePoint_ne_nil (flags : CInt) (tp : Tracept) (past : List UInt8)
    (prevTime : BitVec 64) : (printTracePoint flags tp past prevTime).1 ≠ [] := by
  simp [printTracePoint, pointText, ascii]

theorem slotTexts_first (flags mask : CInt) (past : Nat → List UInt8) (slot : Nat)
    {cells : List Tracept} (found : cells.find? (fun tp => tp.src.isSome) = some tp) :
    ∃ place, ∀ prevTime, firstText (slotTexts flags mask past slot prevTime cells) =
      (printTracePoint flags tp (past place) prevTime).1 := by
  induction cells generalizing slot with
  | nil => cases found
  | cons first rest ih =>
    by_cases blank : first.src.isNone
    · have absent : first.src.isSome = false := by simpa using blank
      rw [List.find?_cons_of_neg (by simp [absent])] at found
      obtain ⟨place, text⟩ := ih (nextSlot mask slot) found
      refine ⟨place, fun prevTime => ?_⟩
      rw [slotTexts, if_pos blank]
      exact text prevTime
    · have present : first.src.isSome = true := by simpa [Option.isSome_iff_ne_none] using blank
      simp only [List.find?_cons, present] at found
      cases found
      refine ⟨slot, fun prevTime => ?_⟩
      rw [slotTexts, if_neg blank]
      rfl

/-- A restart that is seen spoils the text, whatever follows. -/
theorem restart_seen {flags mask : CInt} {past : Nat → List UInt8} {slot size : Nat}
    {prevTime : BitVec 64} {cells : List Tracept} {after : List UInt8} (large : 260 ≤ size)
    (same :
      let texts := slotTexts flags mask past slot 0 cells
      joined (texts.take (slotsTaken size 0 texts)) ++ after =
        joined (slotTexts flags mask past slot prevTime cells)) :
    RestartUnseen flags prevTime cells := by
  intro wanted
  cases found : cells.find? fun tp => tp.src.isSome with
  | none => simp [firstDiff, found]
  | some tp =>
    obtain ⟨place, text⟩ := slotTexts_first flags mask past slot found
    obtain ⟨more, taken⟩ := joined_taken_first large (slotTexts flags mask past slot 0 cells)
    obtain ⟨others, whole⟩ := joined_first (slotTexts flags mask past slot prevTime cells)
    simp only [taken, whole, text, List.append_assoc] at same
    have shown := printTracePoint_diverge wanted same
    simpa [firstDiff, found] using shown

end TrippingRobot.Runtrace
