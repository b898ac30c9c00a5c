import TrippingRobot.Data.Column
import TrippingRobot.Runtrace.History
import TrippingRobot.Runtrace.Pieces
import TrippingRobot.Runtrace.Times
import Mathlib.Data.List.Chain

/-! The text of a print read back: every column of every line is the value that
was recorded. -/

namespace TrippingRobot.Runtrace

open TrippingRobot.Data

/-- A value where the flags ask for its column. -/
def shown {α : Type} (present : Bool) (value : α) : Option α := if present then some value else none

structure Readable (flags : CInt) (requests : List Request) : Prop where
  times : isSet flags rtPrintTime = true ∨ isSet flags rtPrintDiff = true →
    ∀ request ∈ requests, request.now.Current
  near : isSet flags rtPrintDiff = true → requests.IsChain fun earlier later =>
    -2 ^ 31 ≤ later.now.units flags - earlier.now.units flags ∧
      later.now.units flags - earlier.now.units flags < 2 ^ 31
  sources : isSet flags rtPrintSrc = true → ∀ request ∈ requests, 32 ∉ request.src.bytes
  messages : ∀ request ∈ requests, 10 ∉ request.text

structure ReadableFrom (flags : CInt) (before : Option Timeval) (requests : List Request) : Prop where
  readable : Readable flags requests
  times : isSet flags rtPrintTime = true ∨ isSet flags rtPrintDiff = true →
    ∀ previous, before = some previous → previous.Current
  near : isSet flags rtPrintDiff = true → ∀ previous, before = some previous →
    ∀ request ∈ requests.head?,
      -2 ^ 31 ≤ request.now.units flags - previous.units flags ∧
        request.now.units flags - previous.units flags < 2 ^ 31

theorem ReadableFrom.tail {before : Option Timeval} {request : Request} {rest : List Request}
    (readable : ReadableFrom flags before (request :: rest)) :
    ReadableFrom flags (some request.now) rest := by
  have whole := readable.readable
  refine ⟨⟨?_, ?_, ?_, ?_⟩, ?_, ?_⟩
  · exact fun set later member => whole.times set later (List.mem_cons_of_mem _ member)
  · exact fun set => (List.isChain_cons.mp (whole.near set)).2
  · exact fun set later member => whole.sources set later (List.mem_cons_of_mem _ member)
  · exact fun later member => whole.messages later (List.mem_cons_of_mem _ member)
  · rintro set _ ⟨⟩
    exact whole.times set request List.mem_cons_self
  · rintro set _ ⟨⟩ later first
    exact (List.isChain_cons.mp (whole.near set)).1 later first

theorem Readable.take {requests : List Request} (readable : Readable flags requests) (kept : Nat) :
    Readable flags (requests.take kept) where
  times set request member := readable.times set request (List.mem_of_mem_take member)
  near set := (readable.near set).take kept
  sources set request member := readable.sources set request (List.mem_of_mem_take member)
  messages request member := readable.messages request (List.mem_of_mem_take member)

end TrippingRobot.Runtrace
