import TrippingRobot.Memleak.Report
import TrippingRobot.Runtrace.Format

/-! What the bookkeeper logs: the calls of `ml_log` with their wording, and the
time stamps in front of its lines. -/

namespace TrippingRobot.Memleak

open TrippingRobot.Data
open Runtrace (ascii formatSigned formatUnsigned padLeft)

variable {w : Nat}

/-- A call of `ml_log` with what its conversions are given. -/
inductive LogCall (w : Nat) where
  | exceeded (size : CInt) (site : Site)
  | refused (site : Site)
  | noListMemory
  | report
  | tightReport
  | record (cnt : CInt) (memTotal : BitVec w) (site : Site) (overallocations : Bool)
  | count (cnt : CInt)
  | tightEnd
  | exited
  | unclean (cnt : CInt) (site : Site) (overallocations : Bool)
deriving DecidableEq

/-- A part of a format, or what a conversion prints in its place. -/
inductive Piece where
  | format (text : List UInt8)
  | value (text : List UInt8)
deriving DecidableEq

def Piece.text : Piece → List UInt8
  | .format text | .value text => text

/-- `%<width>lu` of a `size_t`. -/
def formatSize (width : Nat) (value : BitVec w) : List UInt8 :=
  ascii (padLeft width ' ' (Nat.toDigits 10 value.toNat))

/-- `SS_TRACE ": "` -/
def ssTrace : List UInt8 := ascii "Memtrace: ".toList

def overallocationMark (overallocations : Bool) : List UInt8 :=
  if overallocations then ascii "(OA)".toList else []

/-- `%s: %d`, the place in the code. -/
def Site.pieces (site : Site) : List Piece :=
  [.value site.file.bytes, .format (ascii ": ".toList), .value (formatSigned 0 [] site.line)]

def LogCall.pieces : LogCall w → List Piece
  | .exceeded size site =>
    [.format (ssTrace ++ ascii "Allocation size (".toList), .value (formatUnsigned 0 ' ' size),
      .format (ascii ") exceeded tolerance level at ".toList)] ++ site.pieces ++
      [.format (ascii "\n".toList)]
  | .refused site =>
    [.format (ssTrace ++ ascii "Could not allocate memory at ".toList)] ++ site.pieces ++
      [.format (ascii "\n".toList)]
  | .noListMemory => [.format (ssTrace ++ ascii "Failed to allocate memory for list\n".toList)]
  | .report =>
    [.format ssTrace, .value (ascii "memleak_report".toList), .format (ascii "\n".toList)]
  | .tightReport => [.format ssTrace]
  | .record cnt memTotal site overallocations =>
    [.format ssTrace, .value (formatSigned 4 [] cnt), .format (ascii " records, ".toList),
      .value (formatSize 7 memTotal), .format (ascii " bytes from line ".toList)] ++ site.pieces ++
      [.format (ascii "  ".toList), .value (overallocationMark overallocations),
        .format (ascii "\n".toList)]
  | .count cnt => [.value (formatSigned 0 [] cnt), .format (ascii " ".toList)]
  | .tightEnd => [.format (ascii "\n".toList)]
  | .exited => [.format (ssTrace ++ ascii "Application exited\n".toList)]
  | .unclean cnt site overallocations =>
    [.format ssTrace, .value (formatSigned 0 [] cnt),
      .format (ascii " unclean records from ".toList)] ++ site.pieces ++
      [.format (ascii "  ".toList), .value (overallocationMark overallocations),
        .format (ascii "\n".toList)]

/-- What `vfprintf` prints. -/
def LogCall.text (call : LogCall w) : List UInt8 := call.pieces.flatMap Piece.text

def logText (calls : List (LogCall w)) : List UInt8 := calls.flatMap LogCall.text

/-! ## Time stamps -/

structure Tm where
  tmYear : CInt
  tmMon : CInt
  tmMday : CInt
  tmHour : CInt
  tmMin : CInt
  tmSec : CInt

/-- `%02d` -/
def formatTwo (value : CInt) : List UInt8 :=
  let digits := Nat.toDigits 10 value.toInt.natAbs
  ascii (if value.toInt < 0 then '-' :: digits else padLeft 2 '0' digits)

/-- `ml_log_timestamp` -/
def mlLogTimestamp (tm : Tm) : List UInt8 :=
  ascii ['['] ++ formatTwo (tm.tmYear - 100) ++ formatTwo (tm.tmMon + 1) ++ formatTwo tm.tmMday ++
    ascii [':'] ++ formatTwo tm.tmHour ++ formatTwo tm.tmMin ++ formatTwo tm.tmSec ++
    ascii [']', ' ']

structure LogStream where
  text : List UInt8
  lineEnd : Bool

/-- The format of a call, without its conversions. -/
def LogCall.format (call : LogCall w) : List UInt8 :=
  call.pieces.flatMap fun
    | .format text => text
    | .value _ => []

/-- `ml_log`; `strchr` looks for the newline in the format. -/
def LogStream.mlLog (stream : LogStream) (tm : Tm) (call : LogCall w) : LogStream where
  text := stream.text ++ (if stream.lineEnd then mlLogTimestamp tm else []) ++ call.text
  lineEnd := decide (10 ∈ call.format)

/-! ## Who logs what -/

/-- The calls of `get_memory`; `%u` takes 32 bits of the size. -/
def getMemoryLog (maxTolerate : CInt) (site : Site) (size ptr : BitVec w) : List (LogCall w) :=
  (if isOveralloc maxTolerate size then [.exceeded (size.setWidth 32) site] else []) ++
    if ptr = 0 then [.refused site] else []

def ReportLine.call : ReportLine w → LogCall w
  | .tight cnt => .count cnt
  | .full cnt memTotal site overallocations => .record cnt memTotal site overallocations

/-- The calls of `memleak_report` around the lines of the records. -/
def reportLog (flags : CInt) (lines : List (ReportLine w)) : List (LogCall w) :=
  if flags &&& memlTight = 0 then .report :: lines.map ReportLine.call
  else .tightReport :: lines.map ReportLine.call ++ [.tightEnd]

namespace RecordHeap

/-- The loop of `~RecordExitChecker` from the node `listIt` on. -/
def exitLoop (heap : RecordHeap w) : (fuel listIt : Nat) → Except Stop (List (LogCall w))
  | 0, _ => .error .fault
  | fuel + 1, listIt =>
    if listIt = heap.allocList then .ok []
    else
      match heap.record listIt with
      | none => .error .fault
      | some record => do
        let calls ← heap.exitLoop fuel (heap.links.next listIt)
        return .unclean record.cnt record.toSite record.overallocations :: calls

/-- `~RecordExitChecker` -/
def recordExitChecker (heap : RecordHeap w) : Except Stop (List (LogCall w)) := do
  let calls ← heap.exitLoop (heap.created.length + 1) (heap.links.next heap.allocList)
  return .exited :: calls

end RecordHeap

end TrippingRobot.Memleak
