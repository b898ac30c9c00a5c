import TrippingRobot.Memleak.LogReading

/-! A log with time stamps: every line of it has one, and without them it is the log that is
written where they are not compiled in. -/

namespace TrippingRobot.Memleak

open TrippingRobot.Data
open Runtrace (ascii formatSigned formatUnsigned padLeft numeral_blanks numeral_signed)

variable {w : Nat}

/-! ## Lines -/

/-- A whole line. -/
def IsLine (text : List UInt8) : Prop := ∃ body, text = body ++ [10] ∧ 10 ∉ body

/-- What a conversion prints is no newline, for any file whose name has none. -/
def LogCall.Clean (call : LogCall w) : Prop := 10 ∉ call.site.file.bytes

theorem numeral_clean {printed : List UInt8} {value : Nat} (numeral : Column.Numeral printed value) :
    10 ∉ printed := by
  obtain ⟨blanks, digits, rfl, _, all, _⟩ := numeral.shape
  intro member
  rcases List.mem_append.mp member with blank | digit
  · cases List.eq_of_mem_replicate blank
  · cases all 10 digit

theorem signedNumeral_clean {printed : List UInt8} {value : Int}
    (numeral : Column.SignedNumeral printed value) : 10 ∉ printed := by
  obtain ⟨blanks, sign, digits, rfl, _, all, _, signs⟩ := numeral.shape
  intro member
  rcases List.mem_append.mp member with blank | member
  · cases List.eq_of_mem_replicate blank
  rcases List.mem_append.mp member with mark | digit
  · rcases signs with ⟨_, rfl⟩ | ⟨_, rfl | rfl⟩
    · cases List.mem_singleton.mp mark
    · cases mark
    · cases List.mem_singleton.mp mark
  · cases all 10 digit

theorem formatSigned_clean (width : Nat) (value : CInt) : 10 ∉ formatSigned width [] value :=
  signedNumeral_clean (numeral_signed width (.inl rfl) value.toInt)

theorem formatUnsigned_clean (width : Nat) (value : CInt) : 10 ∉ formatUnsigned width ' ' value :=
  numeral_clean (numeral_blanks width value.toNat)

theorem formatSize_clean (width : Nat) (value : BitVec w) : 10 ∉ formatSize width value :=
  numeral_clean (numeral_blanks width value.toNat)

theorem overallocationMark_clean (overallocations : Bool) :
    10 ∉ overallocationMark overallocations := by
  cases overallocations <;> decide

theorem LogCall.line {call : LogCall w} (front : List Piece) (last : List UInt8)
    (same : call.pieces = front ++ [.format (last ++ [10])])
    (clean : ∀ piece ∈ front, 10 ∉ piece.text) (rest : 10 ∉ last) :
    10 ∈ call.format ∧ IsLine call.text := by
  refine ⟨?_, front.flatMap Piece.text ++ last, ?_, fun member => ?_⟩
  · simp [LogCall.format, same]
  · simp [LogCall.text, same, Piece.text]
  · rcases List.mem_append.mp member with inside | inside
    · obtain ⟨piece, listed, here⟩ := List.mem_flatMap.mp inside
      exact clean piece listed here
    · exact rest inside

theorem Site.pieces_clean {site : Site} (clean : 10 ∉ site.file.bytes) :
    ∀ piece ∈ site.pieces, 10 ∉ piece.text :=
  List.forall_mem_cons.mpr ⟨clean, List.forall_mem_cons.mpr ⟨by decide,
    List.forall_mem_cons.mpr ⟨formatSigned_clean _ _, nofun⟩⟩⟩

/-- A call prints a whole line, or a part of one without its end, and the format tells which. -/
theorem LogCall.text_cases (call : LogCall w) (clean : call.Clean) :
    (10 ∈ call.format ∧ IsLine call.text) ∨ (10 ∉ call.format ∧ 10 ∉ call.text) := by
  cases call with
  | exceeded size site =>
    refine .inl (LogCall.line ([.format (ssTrace ++ ascii "Allocation size (".toList),
      .value (formatUnsigned 0 ' ' size), .format (ascii ") exceeded tolerance level at ".toList)] ++
        site.pieces) [] rfl ?_ nofun)
    rw [List.forall_mem_append]
    refine ⟨?_, Site.pieces_clean clean⟩
    exact List.forall_mem_cons.mpr ⟨by decide, List.forall_mem_cons.mpr
      ⟨formatUnsigned_clean 0 size, List.forall_mem_singleton.mpr (by decide)⟩⟩
  | refused site =>
    refine .inl (LogCall.line ([.format (ssTrace ++ ascii "Could not allocate memory at ".toList)] ++
      site.pieces) [] rfl ?_ nofun)
    rw [List.forall_mem_append]
    exact ⟨List.forall_mem_singleton.mpr (by decide), Site.pieces_clean clean⟩
  | noListMemory =>
    exact .inl (LogCall.line [] (ssTrace ++ ascii "Failed to allocate memory for list".toList) rfl
      nofun (by decide))
  | report =>
    refine .inl (LogCall.line [.format ssTrace, .value (ascii "memleak_report".toList)] [] rfl ?_
      nofun)
    exact List.forall_mem_cons.mpr ⟨by decide, List.forall_mem_singleton.mpr (by decide)⟩
  | record cnt memTotal site overallocations =>
    refine .inl (LogCall.line ([.format ssTrace, .value (formatSigned 4 [] cnt),
      .format (ascii " records, ".toList), .value (formatSize 7 memTotal),
      .format (ascii " bytes from line ".toList)] ++ site.pieces ++ [.format (ascii "  ".toList),
      .value (overallocationMark overallocations)]) [] ?_ ?_ nofun)
    · simp only [LogCall.pieces, List.append_assoc]
      rfl
    · simp only [List.forall_mem_append, List.forall_mem_cons]
      exact ⟨⟨⟨by decide, formatSigned_clean 4 cnt, by decide, formatSize_clean 7 memTotal, by decide,
        nofun⟩, Site.pieces_clean clean⟩, by decide, overallocationMark_clean overallocations, nofun⟩
  | unclean cnt site overallocations =>
    refine .inl (LogCall.line ([.format ssTrace, .value (formatSigned 0 [] cnt),
      .format (ascii " unclean records from ".toList)] ++ site.pieces ++
      [.format (ascii "  ".toList), .value (overallocationMark overallocations)]) [] ?_ ?_ nofun)
    · simp only [LogCall.pieces, List.append_assoc]
      rfl
    · simp only [List.forall_mem_append, List.forall_mem_cons]
      exact ⟨⟨⟨by decide, formatSigned_clean 0 cnt, by decide, nofun⟩, Site.pieces_clean clean⟩,
        by decide, overallocationMark_clean overallocations, nofun⟩
  | tightEnd => exact .inl (LogCall.line [] [] rfl nofun nofun)
  | exited =>
    exact .inl (LogCall.line [] (ssTrace ++ ascii "Application exited".toList) rfl nofun (by decide))
  | tightReport => exact .inr ⟨(by decide : 10 ∉ ssTrace), (by decide : 10 ∉ ssTrace)⟩
  | count cnt =>
    refine .inr ⟨(by decide : 10 ∉ ascii " ".toList), fun member => ?_⟩
    rcases List.mem_append.mp member with number | blank
    · exact formatSigned_clean 0 cnt number
    · exact absurd blank (by decide)

/-! ## Stamped lines -/

/-- A line behind the time at which it was begun. -/
def stamped (line : Tm × List UInt8) : List UInt8 := mlLogTimestamp line.1 ++ line.2

/-- The log of some calls, each made at a time. -/
def stampedLog (calls : List (Tm × LogCall w)) : LogStream :=
  calls.foldl (fun stream call => stream.mlLog call.1 call.2) ⟨[], true⟩

/-- The log in whole lines and one that is begun, with the same lines as the plain log. -/
structure InLines (calls : List (Tm × LogCall w)) (stream : LogStream)
    (lines : List (Tm × List UInt8)) (part : Option (Tm × List UInt8)) : Prop where
  whole : ∀ line ∈ lines, IsLine line.2
  begun : ∀ line ∈ part, 10 ∉ line.2
  lineEnd : stream.lineEnd = part.isNone
  text : stream.text = (lines ++ part.toList).flatMap stamped
  plain : logText (calls.map Prod.snd) = (lines ++ part.toList).flatMap Prod.snd
  clocks : ∀ line ∈ lines ++ part.toList, line.1 ∈ calls.map Prod.fst

/-- Another call goes on with the line that is begun, or begins one with a stamp. -/
theorem InLines.mlLog {calls : List (Tm × LogCall w)} {stream : LogStream}
    {lines : List (Tm × List UInt8)} {part : Option (Tm × List UInt8)}
    (holds : InLines calls stream lines part) (tm : Tm) (call : LogCall w) (clean : call.Clean) :
    ∃ lines part, InLines (calls ++ [(tm, call)]) (stream.mlLog tm call) lines part := by
  let current := part.getD (tm, [])
  have text : (stream.mlLog tm call).text =
      lines.flatMap stamped ++ stamped (current.1, current.2 ++ call.text) := by
    cases part with
    | none => simp [LogStream.mlLog, holds.text, holds.lineEnd, current, stamped]
    | some line => simp [LogStream.mlLog, holds.text, holds.lineEnd, current, stamped]
  have plain : logText ((calls ++ [(tm, call)]).map Prod.snd) =
      lines.flatMap Prod.snd ++ (current.2 ++ call.text) := by
    have before := holds.plain
    rw [logText] at before
    cases part with
    | none => simp [logText, before, current]
    | some line => simp [logText, before, current]
  have before : 10 ∉ current.2 := by
    cases part with
    | none => nofun
    | some line => exact holds.begun line rfl
  have clocks : ∀ line ∈ lines ++ [(current.1, current.2 ++ call.text)],
      line.1 ∈ (calls ++ [(tm, call)]).map Prod.fst := by
    have old := holds.clocks
    intro line member
    rw [List.map_append, List.mem_append]
    rcases List.mem_append.mp member with earlier | last
    · exact .inl (old line (List.mem_append_left _ earlier))
    · rw [List.mem_singleton.mp last]
      cases part with
      | none => exact .inr (by simp [current])
      | some begun => exact .inl (old begun (List.mem_append_right _ (by simp)))
  rcases call.text_cases clean with ⟨ends, body, same, rest⟩ | ⟨goesOn, rest⟩
  · refine ⟨lines ++ [(current.1, current.2 ++ call.text)], none, ?_, nofun, ?_, ?_, ?_, ?_⟩
    · intro line member
      rcases List.mem_append.mp member with old | new
      · exact holds.whole line old
      · rw [List.mem_singleton.mp new]
        exact ⟨current.2 ++ body, by rw [same, List.append_assoc], by simp [before, rest]⟩
    · simp [LogStream.mlLog, ends]
    · simp [text]
    · rw [plain]
      simp
    · rwa [Option.toList_none, List.append_nil]
  · refine ⟨lines, some (current.1, current.2 ++ call.text), holds.whole, ?_, ?_, text ▸ ?_, ?_,
      clocks⟩
    · rintro _ ⟨⟩
      simp [before, rest]
    · simp [LogStream.mlLog, goesOn]
    · simp
    · rw [plain]
      simp

/-- The log without its stamps: up to the first blank of each line. -/
def unstamp : Bool → List UInt8 → List UInt8
  | _, [] => []
  | true, byte :: rest => unstamp (byte ≠ 32) rest
  | false, byte :: rest => byte :: unstamp (byte = 10) rest

theorem ascii_digits_apart (value : Nat) {byte : UInt8} (other : isDigitByte byte = false) :
    byte ∉ ascii (Nat.toDigits 10 value) := by
  intro member
  have digit := Runtrace.ascii_isDigitByte (Runtrace.toDigits_isDigit value) byte member
  rw [other] at digit
  cases digit

theorem formatTwo_apart (value : CInt) : 32 ∉ formatTwo value := by
  have digits := ascii_digits_apart value.toInt.natAbs blank_stops
  unfold formatTwo
  intro member
  simp only [ascii, List.mem_map] at member digits
  obtain ⟨char, inside, same⟩ := member
  split at inside
  · rcases List.mem_cons.mp inside with rfl | digit
    · exact absurd same (by decide)
    · exact digits ⟨char, digit, same⟩
  · rcases List.mem_append.mp inside with zero | digit
    · rw [List.eq_of_mem_replicate zero] at same
      exact absurd same (by decide)
    · exact digits ⟨char, digit, same⟩

/-- A stamp has a blank at its end and nowhere else. -/
theorem mlLogTimestamp_shape (tm : Tm) : ∃ front, mlLogTimestamp tm = front ++ [32] ∧ 32 ∉ front := by
  refine ⟨ascii ['['] ++ formatTwo (tm.tmYear - 100) ++ formatTwo (tm.tmMon + 1) ++
    formatTwo tm.tmMday ++ ascii [':'] ++ formatTwo tm.tmHour ++ formatTwo tm.tmMin ++
    formatTwo tm.tmSec ++ ascii [']'], ?_, ?_⟩
  · rw [List.append_assoc]
    rfl
  · have bracket : (32 : UInt8) ∉ ascii ['['] := by decide
    have colon : (32 : UInt8) ∉ ascii [':'] := by decide
    have close : (32 : UInt8) ∉ ascii [']'] := by decide
    simp only [List.mem_append, formatTwo_apart, bracket, colon, close, or_self, not_false_eq_true]

theorem unstamp_stamp (tm : Tm) (rest : List UInt8) :
    unstamp true (mlLogTimestamp tm ++ rest) = unstamp false rest := by
  obtain ⟨front, same, apart⟩ := mlLogTimestamp_shape tm
  rw [same, List.append_assoc]
  clear same
  induction front with
  | nil => rfl
  | cons byte others ih =>
    have different : byte ≠ 32 := fun blank => apart (by simp [blank])
    rw [List.cons_append, unstamp, decide_eq_true different]
    exact ih fun member => apart (List.mem_cons_of_mem _ member)

theorem unstamp_body {body : List UInt8} (clean : 10 ∉ body) (rest : List UInt8) :
    unstamp false (body ++ rest) = body ++ unstamp false rest := by
  induction body with
  | nil => rfl
  | cons byte others ih =>
    have different : byte ≠ 10 := fun newline => clean (by simp [newline])
    rw [List.cons_append, unstamp, decide_eq_false different,
      ih fun member => clean (List.mem_cons_of_mem _ member), List.cons_append]

theorem unstamp_lines {lines : List (Tm × List UInt8)} (whole : ∀ line ∈ lines, IsLine line.2)
    (rest : List UInt8) :
    unstamp true (lines.flatMap stamped ++ rest) = lines.flatMap Prod.snd ++ unstamp true rest := by
  induction lines with
  | nil => rfl
  | cons line others ih =>
    obtain ⟨body, same, clean⟩ := whole line List.mem_cons_self
    have later := ih fun line member => whole line (List.mem_cons_of_mem _ member)
    rw [List.flatMap_cons, List.flatMap_cons, stamped, List.append_assoc, List.append_assoc,
      unstamp_stamp, same, List.append_assoc, unstamp_body clean, List.append_assoc,
      List.append_assoc, ← later]
    rfl

theorem InLines.unstamp {calls : List (Tm × LogCall w)} {stream : LogStream}
    {lines : List (Tm × List UInt8)} {part : Option (Tm × List UInt8)}
    (holds : InLines calls stream lines part) :
    unstamp true stream.text = logText (calls.map Prod.snd) := by
  rw [holds.text, holds.plain, List.flatMap_append, List.flatMap_append, unstamp_lines holds.whole]
  cases part with
  | none => rfl
  | some line =>
    have open_line := unstamp_body (holds.begun line rfl) []
    rw [List.append_nil] at open_line
    simp [stamped, unstamp_stamp, open_line, Memleak.unstamp]

/-- The time stamps stand in front of every line of the log and nowhere else, also where several
calls print one line: the log is the lines that are written without them, each behind a time at which
`ml_log` was called, and skipping each line up to its first blank gives these lines back. -/
theorem stamps_each_line (calls : List (Tm × LogCall w)) (clean : ∀ call ∈ calls, call.2.Clean) :
    (∃ lines part, InLines calls (stampedLog calls) lines part) ∧
      unstamp true (stampedLog calls).text = logText (calls.map Prod.snd) := by
  have inLines : ∃ lines part, InLines calls (stampedLog calls) lines part := by
    induction calls using List.reverseRecOn with
    | nil => exact ⟨[], none, nofun, nofun, rfl, rfl, rfl, nofun⟩
    | append_singleton calls call ih =>
      obtain ⟨lines, part, holds⟩ := ih fun call member => clean call (List.mem_append_left _ member)
      rw [stampedLog, List.foldl_append]
      exact holds.mlLog call.1 call.2 (clean call (by simp))
  obtain ⟨lines, part, holds⟩ := inLines
  exact ⟨⟨lines, part, holds⟩, holds.unstamp⟩

/-- A tight report of two counters, then a line of its own. -/
def stampedCalls : List (Tm × LogCall 64) :=
  let tm (second : CInt) : Tm := ⟨112, 0, 31, 23, 59, second⟩
  [(tm 1, .tightReport), (tm 1, .count 3), (tm 2, .count 0), (tm 2, .tightEnd),
    (tm 3, .refused ⟨⟨[112], by decide⟩, 5⟩)]

theorem stamps_each_line_two :
    (∃ lines part, InLines stampedCalls (stampedLog stampedCalls) lines part) ∧
      unstamp true (stampedLog stampedCalls).text = logText (stampedCalls.map Prod.snd) :=
  stamps_each_line stampedCalls (by unfold LogCall.Clean; decide)

end TrippingRobot.Memleak
