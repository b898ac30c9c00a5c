import TrippingRobot.Data.CInt
import TrippingRobot.Data.CString

/-! One tracepoint and the text `__print_trace_point` makes of it. Machine
integers keep the widths of the C types, so conversions truncate as they do there. -/

namespace TrippingRobot.Runtrace

open TrippingRobot.Data

/-- `RT_MSG_MAX`. -/
def rtMsgMax : Nat := 200

structure Timeval where
  tvSec : BitVec 64
  tvUsec : BitVec 64
deriving DecidableEq

/-- The `msg` array of a tracepoint, which need not hold a terminator. -/
structure MsgField where
  bytes : List UInt8
  size : bytes.length = rtMsgMax
deriving DecidableEq

/-- `struct tracept`; `src` is none for a NULL pointer. -/
@[ext]
structure Tracept where
  time : Timeval
  line : CInt
  src : Option CString
  msg : MsgField
deriving DecidableEq

/-- What `memset(tp_pool, 0, ...)` leaves in every slot. -/
def Tracept.zero : Tracept where
  time := ⟨0, 0⟩
  line := 0
  src := none
  msg := ⟨List.replicate rtMsgMax 0, by simp⟩

def rtPrintTime : CInt := 0x01
def rtPrintDiff : CInt := 0x02
def rtPrintLine : CInt := 0x04
def rtPrintSrc : CInt := 0x08
def rtPrintTimeMs : CInt := 0x10

def isSet (flags flag : CInt) : Bool := flags &&& flag != 0

def ascii (text : List Char) : List UInt8 := text.map Char.toUInt8

def padLeft (width : Nat) (fill : Char) (text : List Char) : List Char :=
  List.replicate (width - text.length) fill ++ text

/-- `%<width>u`, or `%0<width>u` when `fill` is the digit zero. -/
def formatUnsigned (width : Nat) (fill : Char) (value : CInt) : List UInt8 :=
  ascii (padLeft width fill (Nat.toDigits 10 value.toNat))

/-- `%<width>d`, or `%+<width>d` when `plus` is the sign of a nonnegative value. -/
def formatSigned (width : Nat) (plus : List Char) (value : CInt) : List UInt8 :=
  let sign := if value.toInt < 0 then ['-'] else plus
  ascii (padLeft width ' ' (sign ++ Nat.toDigits 10 value.toInt.natAbs))

/-- The bytes `%s` reads from a `msg` field: up to the terminator, and on into
the memory that follows, `past`, when the field holds none. -/
def msgText (msg : MsgField) (past : List UInt8) : List UInt8 :=
  if 0 ∈ msg.bytes then untilNul msg.bytes else msg.bytes ++ past

/-- The timestamp in the unit the flags choose, as the unsigned 64-bit `time`. -/
def pointTime (flags : CInt) (time : Timeval) : BitVec 64 :=
  if isSet flags rtPrintTimeMs then time.tvSec * 1000 + time.tvUsec.sdiv 1000
  else time.tvSec * 1000000 + time.tvUsec

/-- The columns of one line, in the order they are printed. -/
def pointText (flags : CInt) (time prevTime : BitVec 64) (src : List UInt8) (line : CInt)
    (msg : List UInt8) : List UInt8 :=
  let timeDiff : CInt := if prevTime = 0 then 0 else (time - prevTime).setWidth 32
  let unit : BitVec 64 := if isSet flags rtPrintTimeMs then 1000 else 1000000
  let width := if isSet flags rtPrintTimeMs then 3 else 6
  (if isSet flags rtPrintTime then
    formatUnsigned 6 ' ' ((time / unit).setWidth 32) ++ ascii ['.'] ++
      formatUnsigned width '0' ((time % unit).setWidth 32) ++ ascii [' '] else []) ++
  (if isSet flags rtPrintDiff then formatSigned width ['+'] timeDiff ++ ascii [' '] else []) ++
  (if isSet flags rtPrintSrc then src ++ ascii [' '] else []) ++
  (if isSet flags rtPrintLine then formatSigned 5 [] line ++ ascii [' '] else []) ++
  msg ++ ascii ['\n']

/-- `__print_trace_point`: the text of one tracepoint and the new `*prev_time`.
Its caller only passes tracepoints with a `src`. -/
def printTracePoint (flags : CInt) (tp : Tracept) (past : List UInt8) (prevTime : BitVec 64) :
    List UInt8 × BitVec 64 :=
  let time := pointTime flags tp.time
  let src := (tp.src.map CString.bytes).getD []
  (pointText flags time prevTime src tp.line (msgText tp.msg past), time)

/-- `*tp->msg = '\0'` or the `strncpy` of a message into the field. The first
leaves the other bytes of the slot as they were. -/
def storeMsg (old : MsgField) : Option CString → MsgField
  | none => ⟨old.bytes.set 0 0, by simpa using old.size⟩
  | some text => ⟨strncpy rtMsgMax text.bytes, strncpy_length _ _⟩

/-- A message shorter than the field is printed as it was given. -/
theorem msgText_storeMsg (old : MsgField) (text : CString) (short : text.bytes.length < rtMsgMax)
    (past : List UInt8) : msgText (storeMsg old (some text)) past = text.bytes := by
  have terminated : 0 ∈ strncpy rtMsgMax text.bytes := by
    simp [strncpy]
    omega
  simp [msgText, storeMsg, terminated, untilNul_strncpy text.noNul short]

theorem msgText_storeMsg_none (old : MsgField) (past : List UInt8) :
    msgText (storeMsg old none) past = [] := by
  obtain ⟨bytes, size⟩ := old
  cases bytes with
  | nil => simp [rtMsgMax] at size
  | cons first rest => simp [msgText, storeMsg, untilNul]

end TrippingRobot.Runtrace
