import TrippingRobot.Memleak.Log
import TrippingRobot.Memleak.Observer
import TrippingRobot.Runtrace.Digits

/-! The log read back: somebody who has nothing but its text knows the table. -/

namespace TrippingRobot.Memleak

open TrippingRobot.Data TrippingRobot.Machine
open Runtrace (ascii formatSigned formatUnsigned padLeft numeral_blanks numeral_signed)

variable {w : Nat}

/-! ## Columns -/

theorem newline_stops : isDigitByte 10 = false := rfl

theorem blank_stops : isDigitByte 32 = false := rfl

theorem bracket_stops : isDigitByte 41 = false := rfl

def signedColumn (width : Nat) (stop : UInt8) (stops : isDigitByte stop = false) : Column CInt :=
  (Column.signed _ (numeral_signed width (.inl rfl)) stop stops).via (BitVec.ofInt 32) BitVec.toInt

def unsignedColumn (w width : Nat) (stop : UInt8) (stops : isDigitByte stop = false) :
    Column (BitVec w) :=
  (Column.unsigned _ (numeral_blanks width) stop stops).via (BitVec.ofNat w) BitVec.toNat

/-- `%s: %d`; the file ends at the colon. -/
def siteColumn (stop : UInt8) (stops : isDigitByte stop = false) : Column Site :=
  ((Column.word 58).pair ((signedColumn 0 stop stops).after [32])).via
    (fun ⟨file, line⟩ => ⟨.ofMemory file, line⟩)
    fun site => ⟨site.file.bytes, site.line⟩

def markColumn : Column Bool :=
  (Column.word 10).via (fun text => text ≠ []) overallocationMark

/-- The place in the code that a call tells, if it tells one. -/
def LogCall.site : LogCall w → Site
  | .exceeded _ site | .refused site | .record _ _ site _ | .unclean _ site _ => site
  | _ => ⟨.ofMemory [], 0⟩

def LogCall.size : LogCall w → CInt
  | .exceeded size _ => size
  | _ => 0

def LogCall.shown : LogCall w → Shown w
  | .record cnt memTotal _ overallocations => ⟨cnt, memTotal, overallocations⟩
  | _ => ⟨0, 0, false⟩

def LogCall.isExceeded : LogCall w → Bool
  | .exceeded .. => true
  | _ => false

def LogCall.isRefused : LogCall w → Bool
  | .refused _ => true
  | _ => false

def LogCall.isReport : LogCall w → Bool
  | .report => true
  | _ => false

def exceededColumn (w : Nat) : Column (LogCall w) :=
  (((unsignedColumn 32 0 41 bracket_stops).pair
    ((siteColumn 10 newline_stops).after (ascii " exceeded tolerance level at ".toList))).via
      (fun ⟨size, site⟩ => .exceeded size site) fun call => ⟨call.size, call.site⟩).after
    (ascii "Allocation size (".toList)

def refusedColumn (w : Nat) : Column (LogCall w) :=
  ((siteColumn 10 newline_stops).via .refused LogCall.site).after
    (ascii "Could not allocate memory at ".toList)

def reportColumn (w : Nat) : Column (LogCall w) :=
  ((Column.word 10).via (fun _ => .report) fun _ => []).after (ascii "memleak_report".toList)

def recordColumn (w : Nat) : Column (LogCall w) :=
  let memTotal := (unsignedColumn w 7 32 blank_stops).after (ascii "records, ".toList)
  let site := (siteColumn 32 blank_stops).after (ascii "bytes from line ".toList)
  ((signedColumn 4 32 blank_stops).pair (memTotal.pair (site.pair (markColumn.after [32])))).via
    (fun ⟨cnt, memTotal, site, overallocations⟩ => .record cnt memTotal site overallocations)
    fun call => ⟨call.shown.cnt, call.shown.memTotal, call.site, call.shown.overallocations⟩

/-- The four kinds of lines, behind `SS_TRACE`. -/
def lineColumn (w : Nat) : Column (LogCall w) :=
  (exceededColumn w).orElse LogCall.isExceeded ((refusedColumn w).orElse LogCall.isRefused
    ((reportColumn w).orElse LogCall.isReport (recordColumn w)))

/-- The lines of a log without tight reports. -/
def logColumn (w : Nat) : Column (LogCall w) := (lineColumn w).after ssTrace

/-- The calls that print one of these lines, from a file whose name has no colon. -/
def LogCall.Readable : LogCall w → Prop
  | .exceeded _ site | .refused site | .record _ _ site _ => 58 ∉ site.file.bytes
  | .report => True
  | _ => False

/-! ## Each column prints the wording of its call -/

theorem siteColumn_print (site : Site) (stop : UInt8) (stops : isDigitByte stop = false) :
    (siteColumn stop stops).print site = site.pieces.flatMap Piece.text ++ [stop] := by
  have colon : ascii ": ".toList = [58, 32] := rfl
  have columns : (siteColumn stop stops).print site =
      (site.file.bytes ++ [58]) ++ ([32] ++ (formatSigned 0 [] site.line ++ [stop])) := rfl
  rw [columns, Site.pieces, List.flatMap_cons, List.flatMap_cons, List.flatMap_singleton]
  simp only [Piece.text, colon, List.append_assoc, List.cons_append, List.nil_append]

theorem logColumn_print {call : LogCall w} (readable : call.Readable) :
    (logColumn w).print call = call.text := by
  have newline : ascii "\n".toList = [10] := rfl
  cases call with
  | exceeded size site =>
    have columns : (logColumn w).print (.exceeded size site) = ssTrace ++
        (ascii "Allocation size (".toList ++ ((formatUnsigned 0 ' ' size ++ [41]) ++
          (ascii " exceeded tolerance level at ".toList ++ (siteColumn 10 newline_stops).print site))) := rfl
    have close : ascii ") exceeded tolerance level at ".toList =
        41 :: ascii " exceeded tolerance level at ".toList := rfl
    rw [columns, siteColumn_print, LogCall.text, LogCall.pieces, close, newline]
    simp only [List.flatMap_append, List.flatMap_cons, List.flatMap_nil, Piece.text,
      List.append_assoc, List.cons_append, List.nil_append]
  | refused site =>
    have columns : (logColumn w).print (.refused site) = ssTrace ++
        (ascii "Could not allocate memory at ".toList ++ (siteColumn 10 newline_stops).print site) := rfl
    rw [columns, siteColumn_print, LogCall.text, LogCall.pieces, newline]
    simp only [List.flatMap_append, List.flatMap_cons, List.flatMap_nil, Piece.text,
      List.append_assoc, List.append_nil]
  | report =>
    have columns : (logColumn w).print .report =
        ssTrace ++ (ascii "memleak_report".toList ++ ([] ++ [10])) := rfl
    rw [columns, LogCall.text, LogCall.pieces, newline]
    simp only [List.flatMap_cons, List.flatMap_nil, Piece.text, List.append_nil, List.nil_append]
  | record cnt memTotal site overallocations =>
    have columns : (logColumn w).print (.record cnt memTotal site overallocations) = ssTrace ++
        ((formatSigned 4 [] cnt ++ [32]) ++
          ((ascii "records, ".toList ++ (formatSize 7 memTotal ++ [32])) ++
            ((ascii "bytes from line ".toList ++ (siteColumn 32 blank_stops).print site) ++
              ([32] ++ (overallocationMark overallocations ++ [10]))))) := rfl
    have records : ascii " records, ".toList = 32 :: ascii "records, ".toList := rfl
    have bytes : ascii " bytes from line ".toList = 32 :: ascii "bytes from line ".toList := rfl
    have blanks : ascii "  ".toList = [32, 32] := rfl
    rw [columns, siteColumn_print, LogCall.text, LogCall.pieces, records, bytes, blanks, newline]
    simp only [List.flatMap_append, List.flatMap_cons, List.flatMap_nil, Piece.text,
      List.append_assoc, List.cons_append, List.nil_append, List.append_nil]
  | noListMemory => exact readable.elim
  | tightReport => exact readable.elim
  | count => exact readable.elim
  | tightEnd => exact readable.elim
  | exited => exact readable.elim
  | unclean => exact readable.elim

theorem logColumn_print_ne_nil (call : LogCall w) : (logColumn w).print call ≠ [] :=
  List.append_ne_nil_of_left_ne_nil (by decide : ssTrace ≠ []) _

/-! ## Each call is read back -/

theorem signedColumn_fits (width : Nat) (value : CInt) (stop : UInt8)
    (stops : isDigitByte stop = false) : (signedColumn width stop stops).Fits value :=
  ⟨BitVec.ofInt_toInt, trivial⟩

theorem unsignedColumn_fits (width : Nat) (value : BitVec w) (stop : UInt8)
    (stops : isDigitByte stop = false) : (unsignedColumn w width stop stops).Fits value :=
  ⟨by simp, trivial⟩

theorem siteColumn_fits {site : Site} (plain : 58 ∉ site.file.bytes) (stop : UInt8)
    (stops : isDigitByte stop = false) : (siteColumn stop stops).Fits site :=
  ⟨Site.ext (CString.ext (untilNul_clean site.file.noNul)) rfl, plain, signedColumn_fits 0 _ _ _⟩

theorem markColumn_fits (overallocations : Bool) : markColumn.Fits overallocations := by
  cases overallocations with
  | true => exact ⟨by decide, (by decide : 10 ∉ overallocationMark true)⟩
  | false => exact ⟨by decide, (by decide : 10 ∉ overallocationMark false)⟩

theorem exceededColumn_scan_none {input : List UInt8} (different : input.head? ≠ some 65) :
    (exceededColumn w).scan input = none :=
  Column.after_scan_none different

theorem refusedColumn_scan_none {input : List UInt8} (different : input.head? ≠ some 67) :
    (refusedColumn w).scan input = none :=
  Column.after_scan_none different

theorem reportColumn_scan_none {input : List UInt8} (different : input.head? ≠ some 109) :
    (reportColumn w).scan input = none :=
  Column.after_scan_none different

theorem letter_ne {input : List UInt8} (first : UInt8) (starts : input.head? = some first)
    {letter : UInt8} (different : first ≠ letter) : input.head? ≠ some letter := by
  rw [starts]
  exact fun same => different (Option.some.inj same)

theorem recordColumn_head (call : LogCall w) (rest : List UInt8) {letter : UInt8}
    (above : 57 < letter) : ((recordColumn w).print call ++ rest).head? ≠ some letter := by
  have columns : ∃ later, (recordColumn w).print call = formatSigned 4 [] call.shown.cnt ++ later :=
    ⟨_, List.append_assoc _ _ _⟩
  obtain ⟨later, columns⟩ := columns
  rw [columns, List.append_assoc]
  obtain ⟨byte, starts, kind⟩ := (numeral_signed 4 (.inl rfl) call.shown.cnt.toInt).head (later ++ rest)
  refine letter_ne byte starts ?_
  rintro rfl
  rcases kind with rfl | rfl | rfl | digit
  · exact absurd above (by decide)
  · exact absurd above (by decide)
  · exact absurd above (by decide)
  · simp only [isDigitByte, Bool.and_eq_true, decide_eq_true_eq] at digit
    exact absurd digit.2 (by simpa using above)

theorem lineColumn_fits {call : LogCall w} (readable : call.Readable) :
    (lineColumn w).Fits call := by
  unfold lineColumn
  cases call with
  | exceeded size site =>
    exact Column.orElse_first rfl
      ⟨rfl, unsignedColumn_fits 0 _ _ _, siteColumn_fits readable 10 newline_stops⟩
  | refused site =>
    refine Column.orElse_second rfl (Column.orElse_first rfl ?_) fun rest => ?_
    · exact ⟨rfl, siteColumn_fits readable 10 newline_stops⟩
    · exact exceededColumn_scan_none (letter_ne 67 rfl (by decide))
  | report =>
    refine Column.orElse_second rfl (Column.orElse_second rfl (Column.orElse_first rfl ?_)
      fun rest => ?_) fun rest => ?_
    · exact ⟨rfl, (by decide : 10 ∉ ([] : List UInt8))⟩
    · exact refusedColumn_scan_none (letter_ne 109 rfl (by decide))
    · exact exceededColumn_scan_none (letter_ne 109 rfl (by decide))
  | record cnt memTotal site overallocations =>
    refine Column.orElse_second rfl (Column.orElse_second rfl (Column.orElse_second rfl ?_
      fun rest => ?_) fun rest => ?_) fun rest => ?_
    · exact ⟨rfl, signedColumn_fits 4 _ _ _, unsignedColumn_fits 7 _ _ _,
        siteColumn_fits readable 32 blank_stops, markColumn_fits overallocations⟩
    · exact reportColumn_scan_none (recordColumn_head _ _ (by decide))
    · exact refusedColumn_scan_none (recordColumn_head _ _ (by decide))
    · exact exceededColumn_scan_none (recordColumn_head _ _ (by decide))
  | noListMemory => exact readable.elim
  | tightReport => exact readable.elim
  | count => exact readable.elim
  | tightEnd => exact readable.elim
  | exited => exact readable.elim
  | unclean => exact readable.elim

theorem logText_reads_back {calls : List (LogCall w)} (readable : ∀ call ∈ calls, call.Readable) :
    (logColumn w).scanTable [] [] (logText calls) = some calls := by
  have printed : logText calls = calls.flatMap (logColumn w).print :=
    List.flatMap_congr fun call member => (logColumn_print (readable call member)).symm
  have read := Column.scanTable_flatMap (logColumn w) logColumn_print_ne_nil
    (fun call member => lineColumn_fits (readable call member)) [] []
  rwa [List.append_nil, List.nil_append, ← printed] at read

/-! ## The log of a run -/

variable {platform : Platform} {maxTolerate : CInt}

def Observed.logs (maxTolerate : CInt) (state : Observed platform) :
    ObservedAction platform → List (LogCall platform.width)
  | .call (.alloc site size ptr _) => getMemoryLog maxTolerate site size ptr
  | .call _ => []
  | .report flags =>
    match state.blocks.books.heap.memleakReport flags with
    | .error _ => []
    | .ok (_, lines) => reportLog flags lines

def Observed.runLog (maxTolerate : CInt) :
    Observed platform → List (ObservedAction platform) → List (LogCall platform.width)
  | _, [] => []
  | state, action :: rest =>
    state.logs maxTolerate action ++ (state.next maxTolerate action).runLog maxTolerate rest

/-- The last line of each site, as a reader of the log keeps it. -/
def watchCall (seen : Site → Option (Shown w)) : LogCall w → Site → Option (Shown w)
  | .record cnt memTotal site overallocations =>
    Function.update seen site (some ⟨cnt, memTotal, overallocations⟩)
  | _ => seen

def watch (seen : Site → Option (Shown w)) (calls : List (LogCall w)) :
    Site → Option (Shown w) :=
  calls.foldl watchCall seen

theorem watch_reportLog (flags : CInt) (seen : Site → Option (Shown w))
    (lines : List (ReportLine w)) : watch seen (reportLog flags lines) = observe seen lines := by
  have each (seen : Site → Option (Shown w)) :
      watch seen (lines.map ReportLine.call) = observe seen lines := by
    rw [watch, observe, List.foldl_map]
    congr 1
    funext seen line
    cases line <;> rfl
  unfold reportLog
  split
  · exact each seen
  · rw [watch, List.foldl_append]
    exact each seen

theorem watch_runLog (state : Observed platform) (actions : List (ObservedAction platform)) :
    watch state.seen (state.runLog maxTolerate actions) =
      ((observedSystem platform maxTolerate).exec state actions).seen := by
  induction actions generalizing state with
  | nil => rfl
  | cons action rest ih =>
    rw [System.exec_cons, ← ih, Observed.runLog, watch, List.foldl_append]
    have one : watch state.seen (state.logs maxTolerate action) =
        (state.next maxTolerate action).seen := by
      cases action with
      | call action =>
        cases action with
        | alloc site size ptr record =>
          simp only [Observed.logs, getMemoryLog]
          split <;> split <;> rfl
        | register | free | write => rfl
      | report flags =>
        simp only [Observed.logs, Observed.next]
        cases state.blocks.books.heap.memleakReport flags with
        | error => rfl
        | ok reported => exact watch_reportLog flags _ _
    exact congrArg (fun seen => watch seen _) one

/-- A call from a file whose name has no colon. -/
def ObservedAction.Plain : ObservedAction platform → Prop
  | .call (.alloc site _ _ _) | .call (.register site _) => 58 ∉ site.file.bytes
  | _ => True

/-- No record is of a file with a colon in its name. -/
def Observed.Plain (state : Observed platform) : Prop :=
  ∃ entries, ∃ sound : state.blocks.Sound entries,
    ∀ site tally, sound.holds.toTable.lookup site = some tally → 58 ∉ site.file.bytes

theorem Observed.Plain.initial (platform : Platform) (allocList : Nat) (memory : Memory) :
    (Observed.initial platform allocList memory).Plain :=
  ⟨[], .initial platform allocList memory, fun _ _ => nofun⟩

theorem RecordHeap.Adds.plain {heap later : RecordHeap w} {entries laterEntries : List (Entry w)}
    (adds : heap.Adds entries site delta later laterEntries) (holds : heap.Holds entries)
    (mine : 58 ∉ site.file.bytes)
    (others : ∀ other tally, holds.toTable.lookup other = some tally → 58 ∉ other.file.bytes) :
    ∀ other tally, adds.holds.toTable.lookup other = some tally → 58 ∉ other.file.bytes := by
  intro other tally row
  have table : adds.holds.toTable = holds.toTable.upsert site delta.put := SortedTable.ext adds.rows
  rw [table, SortedTable.lookup_upsert] at row
  split at row
  · rename_i same
    exact same ▸ mine
  · exact others other tally row

theorem Observed.Plain.next {state : Observed platform} {action : ObservedAction platform}
    (plain : state.Plain) (enabled : (observedSystem platform maxTolerate).enabled state action)
    (named : action.Plain) : (state.next maxTolerate action).Plain := by
  obtain ⟨entries, sound, names⟩ := plain
  cases action with
  | call action =>
    obtain ⟨later, soundNext, effect⟩ := sound.next enabled.1 enabled.2
    refine ⟨later, soundNext, ?_⟩
    cases effect with
    | refused site size record same table =>
      subst table
      exact names
    | alloc site size ptr record granted pointer live adds => exact adds.plain sound.holds named names
    | register site record live adds => exact adds.plain sound.holds named names
    | free block live adds =>
      have member : block ∈ state.blocks.live := live.mem_iff.mpr List.mem_cons_self
      obtain ⟨record, _, row⟩ := sound.holds.exists_lookup (sound.headed block member).record
      exact adds.plain sound.holds (names _ _ row) names
    | write pointer offset value live heap table =>
      subst table
      exact names
  | report flags =>
    obtain ⟨heap, later, returned, holds, rows, places, created⟩ := sound.holds.memleakReport flags
    have table : holds.toTable = sound.holds.toTable.mapValues (Tally.reported flags) :=
      SortedTable.ext rows
    simp only [Observed.next, returned]
    refine ⟨later, ⟨holds, sound.running, created ▸ sound.addresses, places ▸ sound.headed,
      sound.apart⟩, fun site tally row => ?_⟩
    rw [table, SortedTable.lookup_mapValues] at row
    obtain ⟨old, present, _⟩ := Option.map_eq_some_iff.mp row
    exact names site old present

theorem Observed.Plain.readable_logs {state : Observed platform} {action : ObservedAction platform}
    (plain : state.Plain) (enabled : (observedSystem platform maxTolerate).enabled state action)
    (named : action.Plain) : ∀ call ∈ state.logs maxTolerate action, call.Readable := by
  obtain ⟨entries, sound, names⟩ := plain
  cases action with
  | call action =>
    cases action with
    | alloc site size ptr record =>
      intro call member
      simp only [Observed.logs, getMemoryLog, List.mem_append] at member
      rcases member with exceeded | refused
      · split at exceeded
        · rw [List.mem_singleton.mp exceeded]
          exact named
        · cases exceeded
      · split at refused
        · rw [List.mem_singleton.mp refused]
          exact named
        · cases refused
    | register | free | write => exact fun _ => nofun
  | report flags =>
    obtain ⟨heap, later, returned, _⟩ := sound.holds.memleakReport flags
    have full : flags &&& memlTight = 0 := enabled
    simp only [Observed.logs, returned, reportLog, full, if_true]
    rintro _ (_ | ⟨_, member⟩)
    · trivial
    · obtain ⟨_, line, rfl⟩ := List.mem_map.mp member
      obtain ⟨row, listed, rfl⟩ := List.mem_map.mp line
      have present := (sound.holds.toTable.mem_iff_lookup row).mp (List.mem_of_mem_filter listed)
      simp only [AllocRecord.reportLine, full, if_true]
      exact names _ _ present

theorem Observed.Plain.readable_runLog {state : Observed platform}
    {actions : List (ObservedAction platform)} (plain : state.Plain)
    (legal : (observedSystem platform maxTolerate).Legal state actions)
    (named : ∀ action ∈ actions, action.Plain) :
    ∀ call ∈ state.runLog maxTolerate actions, call.Readable := by
  induction actions generalizing state with
  | nil => exact fun _ => nofun
  | cons action rest ih =>
    have mine := named action List.mem_cons_self
    intro call member
    rcases List.mem_append.mp member with here | later
    · exact plain.readable_logs legal.1 mine call here
    · exact ih (plain.next legal.1 mine) legal.2
        (fun action member => named action (List.mem_cons_of_mem _ member)) call later

theorem Tally.reported_clear {flags : CInt} (zeros : flags &&& memlSuppressZeros = 0)
    (tally : Tally w) : (tally.reported flags).dirty = false := by
  unfold Tally.reported
  split
  · rename_i skipped
    simp [Tally.skipped, zeros] at skipped
    exact skipped.2
  · rfl

/-- Behind a report that suppresses no zeros, everything has been seen as it is. -/
theorem Observed.IsFollowed.shows (maxTolerate : CInt) {state : Observed platform} {flags : CInt}
    (followed : state.IsFollowed) (full : flags &&& memlTight = 0)
    (zeros : flags &&& memlSuppressZeros = 0) :
    Shows (state.next maxTolerate (.report flags)).seen
      (state.next maxTolerate (.report flags)).blocks.books.heap := by
  have kept : ((observedSystem platform maxTolerate).next state (.report flags)).IsFollowed :=
    followed.next full
  obtain ⟨entries, after⟩ := kept
  obtain ⟨_, follows⟩ := followed
  obtain ⟨heap, _, returned, holds, rows, _⟩ := follows.sound.holds.memleakReport flags
  have table : holds.toTable = follows.sound.holds.toTable.mapValues (Tally.reported flags) :=
    SortedTable.ext rows
  have told := after.upToDate
  refine ⟨fun record member => told.clear record member ?_, told.listed⟩
  simp only [Observed.next, returned] at member
  have row := (holds.mem_table_iff record).mp member
  rw [table, SortedTable.lookup_mapValues] at row
  obtain ⟨old, _, same⟩ := Option.map_eq_some_iff.mp row
  exact same ▸ Tally.reported_clear zeros old

/-- Whoever reads the log of a run, its text and nothing else, finds the calls of `ml_log` in it,
and behind a report of what has changed the last line of each site is its record in the list. -/
theorem log_tells_table (maxTolerate : CInt) (allocList : Nat) (memory : Memory)
    (actions : List (ObservedAction platform)) (flags : CInt)
    (zeros : flags &&& memlSuppressZeros = 0)
    (legal : (observedSystem platform maxTolerate).Legal (.initial platform allocList memory)
      (actions ++ [.report flags]))
    (named : ∀ action ∈ actions, action.Plain) :
    let start := Observed.initial platform allocList memory
    let run := actions ++ [.report flags]
    ∃ calls, (logColumn platform.width).scanTable [] [] (logText (start.runLog maxTolerate run)) =
        some calls ∧
      calls = start.runLog maxTolerate run ∧
      Shows (watch (fun _ => none) calls)
        ((observedSystem platform maxTolerate).exec start run).blocks.books.heap := by
  intro start run
  have plain : ∀ action ∈ run, action.Plain := by
    intro action member
    rcases List.mem_append.mp member with early | last
    · exact named action early
    · rw [List.mem_singleton.mp last]
      trivial
  have readable := (Observed.Plain.initial platform allocList memory).readable_runLog legal plain
  refine ⟨_, logText_reads_back readable, rfl, ?_⟩
  have seen : watch (fun _ => none) (start.runLog maxTolerate run) =
      ((observedSystem platform maxTolerate).exec start run).seen := watch_runLog start run
  rw [seen, System.exec_append]
  obtain ⟨before, last, _⟩ := (System.guarded_append _ _).mp legal
  have followed : (observedSystem platform maxTolerate).Always Observed.IsFollowed start actions :=
    System.Always.of_invariant ⟨[], .initial platform allocList memory⟩
      (fun state action followed enabled => followed.next enabled) before
  exact followed.last.shows maxTolerate last zeros

/-- A large block, a full report, and a request that `malloc` refuses. -/
def loggedCalls : List (ObservedAction .x86_64) :=
  [.call (.alloc ⟨⟨[110], by decide⟩, 7⟩ 20 16 100), .report memlDefault,
    .call (.alloc ⟨⟨[110], by decide⟩, 3⟩ 5 0 200)]

theorem log_tells_table_three :
    let start := Observed.initial .x86_64 8 fun _ => 0
    let run := loggedCalls ++ [.report memlOnlyChanged]
    ∃ calls, (logColumn Platform.x86_64.width).scanTable [] [] (logText (start.runLog 10 run)) =
        some calls ∧
      calls = start.runLog 10 run ∧
      Shows (watch (fun _ => none) calls)
        ((observedSystem .x86_64 10).exec start run).blocks.books.heap :=
  log_tells_table 10 8 (fun _ => 0) loggedCalls memlOnlyChanged (by decide) (by decide +kernel)
    (by simp [loggedCalls, ObservedAction.Plain])

end TrippingRobot.Memleak
