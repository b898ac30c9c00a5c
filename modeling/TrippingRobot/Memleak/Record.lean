import Mathlib.Data.Prod.Lex
import TrippingRobot.Data.CInt
import TrippingRobot.Data.CString
import TrippingRobot.Data.LinkedRing

/-! The allocation list: one record for each place in the code that allocates,
in a sorted ring of pointers around `alloc_list`. -/

namespace TrippingRobot.Memleak

open TrippingRobot.Data

/-- A place in the code that allocates. -/
@[ext]
structure Site where
  file : CString
  line : CInt
deriving DecidableEq

/-- What a record counts for its site; `size_t` has `w` bits. -/
@[ext]
structure Tally (w : Nat) where
  cnt : CInt
  memTotal : BitVec w
  dirty : Bool
  overallocations : Bool
deriving DecidableEq

/-- `struct alloc_record` without its two pointers. -/
@[ext]
structure AllocRecord (w : Nat) extends Site, Tally w
deriving DecidableEq

/-- The records by address, their pointers, and the addresses in the order
`malloc` gave them. The list head has pointers and is no record. -/
structure RecordHeap (w : Nat) where
  allocList : Nat
  links : Links Nat
  record : Nat → Option (AllocRecord w)
  created : List Nat

/-- `alloc_list` at program start. -/
def RecordHeap.initial (w : Nat) (allocList : Nat) : RecordHeap w where
  allocList := allocList
  links := ⟨fun _ => allocList, fun _ => allocList⟩
  record := fun _ => none
  created := []

/-- A call that does not return: a field read off something that is no record,
or `exit(1)`. -/
inductive Stop where
  | fault
  | exit
deriving DecidableEq

/-- Where the search stops: at the record of the site, or at the node in front
of which the site belongs. -/
inductive Found where
  | record (node : Nat)
  | place (node : Nat)
deriving DecidableEq

namespace RecordHeap

variable {w : Nat}

/-- The loop of `list_push_record` from the node `listIt` on. -/
def search (heap : RecordHeap w) (site : Site) : (fuel listIt : Nat) → Except Stop Found
  | 0, _ => .error .fault
  | fuel + 1, listIt =>
    if listIt = heap.allocList then .ok (.place listIt)
    else
      match heap.record listIt with
      | none => .error .fault
      | some record =>
        let cmpResult := strcmp record.file.bytes site.file.bytes
        if cmpResult > 0 then .ok (.place listIt)
        else if cmpResult = 0 ∧ site.line.slt record.line then .ok (.place listIt)
        else if cmpResult = 0 ∧ site.line = record.line then .ok (.record listIt)
        else heap.search site fuel (heap.links.next listIt)

/-- `list_add_tail`, its four stores in their order. -/
def listAddTail (heap : RecordHeap w) (record head : Nat) : RecordHeap w :=
  let links := heap.links.setNext (heap.links.prev head) record
  let links := links.setNext record head
  let links := links.setPrev record (links.prev head)
  let links := links.setPrev head record
  { heap with links := links }

def setRecord (heap : RecordHeap w) (node : Nat) (record : AllocRecord w) : RecordHeap w :=
  { heap with record := Function.update heap.record node (some record) }

end RecordHeap

/-- A known site counts a request; a size of zero only marks it. -/
def Tally.count (tally : Tally w) (size : BitVec w) (overalloc : Bool) : Tally w :=
  let tally :=
    if 0 < size then
      let tally := { tally with cnt := tally.cnt + 1, memTotal := tally.memTotal + size }
      if overalloc then { tally with overallocations := true } else tally
    else tally
  { tally with dirty := true }

/-- The tally of a new record. -/
def Tally.fresh (size : BitVec w) (overalloc : Bool) : Tally w :=
  let tally : Tally w :=
    { cnt := if 0 < size then 1 else 0
      memTotal := size
      dirty := true
      overallocations := false }
  if overalloc then { tally with overallocations := true } else tally

/-- The record's part of `free_memory`. -/
def Tally.release (tally : Tally w) (size : BitVec w) : Tally w :=
  { tally with cnt := tally.cnt - 1, dirty := true, memTotal := tally.memTotal - size }

/-- Whether `get_memory` finds a request too large; a tolerance of 0 allows every size. -/
def isOveralloc (maxTolerate : CInt) (size : BitVec w) : Bool :=
  decide (0 < maxTolerate) && decide (maxTolerate.setWidth w < size)

namespace RecordHeap

variable {w : Nat}

/-- `list_push_record`; `answer` is the record that `malloc` gives if asked, 0 for NULL. -/
def listPushRecord (heap : RecordHeap w) (site : Site) (size : BitVec w) (overalloc : Bool)
    (answer : Nat) : Except Stop (RecordHeap w × Nat) :=
  match heap.search site (heap.created.length + 1) (heap.links.next heap.allocList) with
  | .error stop => .error stop
  | .ok (.record node) =>
    match heap.record node with
    | none => .error .fault
    | some record =>
      .ok (heap.setRecord node { record with toTally := record.toTally.count size overalloc }, node)
  | .ok (.place listIt) =>
    if answer = 0 then .error .exit
    else
      let heap := heap.setRecord answer ⟨site, .fresh size overalloc⟩
      let heap := { heap with created := heap.created ++ [answer] }
      .ok (heap.listAddTail answer listIt, answer)

/-- The record's part of `free_memory`, through the pointer found in the block. -/
def releaseRecord (heap : RecordHeap w) (node : Nat) (size : BitVec w) :
    Except Stop (RecordHeap w) :=
  match heap.record node with
  | none => .error .fault
  | some record => .ok (heap.setRecord node { record with toTally := record.toTally.release size })

/-- The nodes that `list_for_each` visits from `node` on, at most `fuel` of them. -/
def visit (heap : RecordHeap w) : (fuel node : Nat) → List Nat
  | 0, _ => []
  | fuel + 1, node =>
    if node = heap.allocList then [] else node :: heap.visit fuel (heap.links.next node)

/-- The records in list order. -/
def table (heap : RecordHeap w) : List (AllocRecord w) :=
  (heap.visit heap.created.length (heap.links.next heap.allocList)).filterMap heap.record

end RecordHeap

end TrippingRobot.Memleak
