import TrippingRobot.Memleak.Counters
import TrippingRobot.Memleak.LogReading

/-! The last report, which the program prints when it exits: its text tells for
every place in the code that allocated how many blocks were never freed. -/

namespace TrippingRobot.Memleak

open TrippingRobot.Data TrippingRobot.Machine
open Runtrace (ascii formatSigned)

variable {w : Nat}

/-! ## The report and its columns -/

structure Unclean where
  site : Site
  cnt : CInt
  overallocations : Bool
deriving DecidableEq

def AllocRecord.unclean (record : AllocRecord w) : Unclean :=
  ⟨record.toSite, record.cnt, record.overallocations⟩

def Unclean.call (row : Unclean) : LogCall w :=
  .unclean row.cnt row.site row.overallocations

def exitedText : List UInt8 := ssTrace ++ ascii "Application exited\n".toList

def uncleanColumn : Column Unclean :=
  let site := (siteColumn 32 blank_stops).after (ascii "unclean records from ".toList)
  (((signedColumn 0 32 blank_stops).pair (site.pair (markColumn.after [32]))).via
    (fun ⟨cnt, site, overallocations⟩ => ⟨site, cnt, overallocations⟩)
    fun row => ⟨row.cnt, row.site, row.overallocations⟩).after ssTrace

theorem uncleanColumn_print (row : Unclean) :
    uncleanColumn.print row = (row.call : LogCall w).text := by
  have newline : ascii "\n".toList = [10] := rfl
  have columns : uncleanColumn.print row = ssTrace ++ ((formatSigned 0 [] row.cnt ++ [32]) ++
      ((ascii "unclean records from ".toList ++ (siteColumn 32 blank_stops).print row.site) ++
        ([32] ++ (overallocationMark row.overallocations ++ [10])))) := rfl
  have records : ascii " unclean records from ".toList =
      32 :: ascii "unclean records from ".toList := rfl
  have blanks : ascii "  ".toList = [32, 32] := rfl
  rw [columns, siteColumn_print, Unclean.call, LogCall.text, LogCall.pieces, records, blanks, newline]
  simp only [List.flatMap_append, List.flatMap_cons, List.flatMap_nil, Piece.text,
    List.append_assoc, List.cons_append, List.nil_append, List.append_nil]

theorem uncleanColumn_print_ne_nil (row : Unclean) : uncleanColumn.print row ≠ [] :=
  List.append_ne_nil_of_left_ne_nil (by decide : ssTrace ≠ []) _

theorem uncleanColumn_fits {row : Unclean} (plain : 58 ∉ row.site.file.bytes) :
    uncleanColumn.Fits row :=
  ⟨rfl, signedColumn_fits 0 _ _ _, siteColumn_fits plain 32 blank_stops,
    markColumn_fits row.overallocations⟩

theorem exitedText_reads_back {rows : List Unclean} (plain : ∀ row ∈ rows, 58 ∉ row.site.file.bytes) :
    uncleanColumn.scanTable exitedText []
      (logText ((.exited : LogCall w) :: rows.map Unclean.call)) = some rows := by
  have printed : logText ((.exited : LogCall w) :: rows.map Unclean.call) =
      exitedText ++ (rows.flatMap uncleanColumn.print ++ []) := by
    have head : (.exited : LogCall w).text = exitedText := List.append_nil _
    rw [logText, List.flatMap_cons, List.flatMap_map, List.append_nil, head]
    exact congrArg _ (List.flatMap_congr fun row _ => (uncleanColumn_print row).symm)
  rw [printed]
  exact Column.scanTable_flatMap _ uncleanColumn_print_ne_nil
    (fun row member => uncleanColumn_fits (plain row member)) _ _

namespace RecordHeap

variable {heap : RecordHeap w} {entries : List (Entry w)}

private theorem Holds.exitLoop_from (holds : heap.Holds entries) (rest before : List (Entry w))
    (split : entries = before ++ rest) (fuel : Nat) (enough : rest.length < fuel) :
    heap.exitLoop fuel ((rest.map Prod.fst).headD heap.allocList) =
      .ok (rest.map fun entry => entry.2.unclean.call) := by
  induction rest generalizing before fuel with
  | nil =>
    obtain ⟨fuel, rfl⟩ : ∃ less, fuel = less + 1 := ⟨fuel - 1, by simp at enough; omega⟩
    simp [exitLoop]
  | cons entry rest ih =>
    obtain ⟨node, record⟩ := entry
    obtain ⟨fuel, rfl⟩ : ∃ less, fuel = less + 1 := ⟨fuel - 1, by simp at enough; omega⟩
    have member : (node, record) ∈ entries := by simp [split]
    have notHead : node ≠ heap.allocList := holds.node_ne_allocList member
    have stored : heap.record node = some record := holds.stored _ member
    have next : heap.links.next node = (rest.map Prod.fst).headD heap.allocList := by
      have ring := holds.ring
      rw [split, List.map_append, List.map_cons] at ring
      exact ring.next_node
    have later := ih (before ++ [(node, record)]) (by simp [split]) fuel (by simpa using enough)
    simp only [List.map_cons, List.headD_cons, exitLoop, notHead, if_false, stored, next, later,
      bind, Except.bind, pure, Except.pure]
    rfl

theorem Holds.recordExitChecker (holds : heap.Holds entries) :
    heap.recordExitChecker =
      .ok (.exited :: (heap.table.map AllocRecord.unclean).map Unclean.call) := by
  have length := holds.created.length_eq
  simp only [List.length_map] at length
  have loop := holds.exitLoop_from entries [] rfl (heap.created.length + 1) (by omega)
  simp only [RecordHeap.recordExitChecker, holds.ring.next_head, loop, bind, Except.bind, pure,
    Except.pure, holds.table_eq, toTable, rowsOf, List.map_map]
  rfl

theorem Holds.mem_sites (holds : heap.Holds entries) (site : Site) :
    site ∈ (heap.table.map AllocRecord.unclean).map Unclean.site ↔
      (holds.toTable.lookup site).isSome := by
  rw [List.map_map, List.mem_map, Option.isSome_iff_exists]
  constructor
  · rintro ⟨record, member, rfl⟩
    exact ⟨record.toTally, (holds.mem_table_iff record).mp member⟩
  · rintro ⟨tally, row⟩
    exact ⟨⟨site, tally⟩, (holds.mem_table_iff _).mpr row, rfl⟩

theorem Holds.table_sorted (holds : heap.Holds entries) :
    ((heap.table.map AllocRecord.unclean).map Unclean.site).Pairwise Site.Before := by
  have sorted := holds.toTable.sorted
  rw [holds.table_eq, List.map_map, List.map_map, List.pairwise_map]
  exact sorted.imp fun below => Site.lt_iff.mp below

end RecordHeap

/-! ## The sites of a run -/

variable {platform : Platform} {maxTolerate : CInt}

/-- The site that a call puts into the list if it is not there yet. -/
def BlockAction.asks : BlockAction platform → Option Site
  | .alloc site _ ptr _ => if ptr = 0 then none else some site
  | .register site _ => some site
  | _ => none

/-- The site of a granted request above the tolerance. -/
def BlockAction.exceeds (maxTolerate : CInt) : BlockAction platform → Option Site
  | .alloc site size ptr _ => if ptr ≠ 0 ∧ isOveralloc maxTolerate size then some site else none
  | _ => none

/-- The list has a record for the sites that were asked from and for no others, and marks those
where the tolerance was exceeded. -/
def Blocks.Lists (state : Blocks platform) (asked exceeded : Site → Prop) : Prop :=
  ∃ entries, ∃ sound : state.Sound entries, ∀ site,
    ((sound.holds.toTable.lookup site).isSome ↔ asked site) ∧
      ((sound.holds.tally site).overallocations = true ↔ exceeded site)

theorem RecordHeap.Adds.lists {heap later : RecordHeap w} {entries laterEntries : List (Entry w)}
    (adds : heap.Adds entries site delta later laterEntries) (holds : heap.Holds entries)
    (other : Site) :
    ((adds.holds.toTable.lookup other).isSome ↔
        (holds.toTable.lookup other).isSome ∨ site = other) ∧
      ((adds.holds.tally other).overallocations = true ↔
        (holds.tally other).overallocations = true ∨
          delta.overallocations = true ∧ site = other) := by
  have table : adds.holds.toTable = holds.toTable.upsert site delta.put := SortedTable.ext adds.rows
  rw [table, SortedTable.lookup_upsert, adds.tally holds]
  by_cases same : other = site
  · simp [same, Delta.put]
  · simp [same, Ne.symm same]

theorem Blocks.Lists.next {state : Blocks platform} {action : BlockAction platform}
    {asked exceeded : Site → Prop} (lists : state.Lists asked exceeded)
    (enabled : (blockSystem platform maxTolerate).enabled state action)
    (inside : InsideBlock state action) :
    ((blockSystem platform maxTolerate).next state action).Lists
      (fun site => asked site ∨ action.asks = some site)
      (fun site => exceeded site ∨ action.exceeds maxTolerate = some site) := by
  obtain ⟨entries, sound, listed⟩ := lists
  obtain ⟨later, soundNext, effect⟩ := sound.next enabled inside
  refine ⟨later, soundNext, fun other => ?_⟩
  obtain ⟨known, marked⟩ := listed other
  cases effect with
  | refused site size record same table =>
    subst table
    simp only [BlockAction.asks, BlockAction.exceeds, if_true, ne_eq, not_true_eq_false, false_and,
      if_false, reduceCtorEq, or_false]
    exact ⟨known, marked⟩
  | alloc site size ptr record granted pointer live adds =>
    obtain ⟨rows, marks⟩ := adds.lists sound.holds other
    simp only [BlockAction.asks, BlockAction.exceeds, granted, if_false, ne_eq, not_false_eq_true,
      true_and, Option.some.injEq, Option.ite_none_right_eq_some]
    exact ⟨rows.trans (or_congr_left known), marks.trans (or_congr_left marked)⟩
  | register site record live adds =>
    obtain ⟨rows, marks⟩ := adds.lists sound.holds other
    simp only [BlockAction.asks, BlockAction.exceeds, Option.some.injEq, reduceCtorEq, or_false]
    refine ⟨rows.trans (or_congr_left known), marks.trans ?_⟩
    simp [Delta.request, marked]
  | free block live adds =>
    obtain ⟨rows, marks⟩ := adds.lists sound.holds other
    have member : block ∈ state.live := live.mem_iff.mpr List.mem_cons_self
    obtain ⟨record, _, present⟩ := sound.holds.exists_lookup (sound.headed block member).record
    have mine : asked block.site := (listed block.site).1.mp (by simp [present])
    simp only [BlockAction.asks, BlockAction.exceeds, reduceCtorEq, or_false]
    refine ⟨rows.trans ?_, marks.trans ?_⟩
    · rw [known, or_iff_left_iff_imp]
      rintro rfl
      exact mine
    · simp [Delta.release, marked]
  | write pointer offset value live heap table =>
    subst table
    simp only [BlockAction.asks, BlockAction.exceeds, reduceCtorEq, or_false]
    exact ⟨known, marked⟩

theorem Blocks.Lists.exec {state : Blocks platform} {actions : List (BlockAction platform)}
    {asked exceeded : Site → Prop} (lists : state.Lists asked exceeded)
    (legal : (blockSystem platform maxTolerate).Legal state actions)
    (inside : (blockSystem platform maxTolerate).Guarded InsideBlock state actions) :
    ((blockSystem platform maxTolerate).exec state actions).Lists
      (fun site => asked site ∨ ∃ action ∈ actions, action.asks = some site)
      (fun site => exceeded site ∨ ∃ action ∈ actions, action.exceeds maxTolerate = some site) := by
  induction actions generalizing state asked exceeded with
  | nil => simpa using lists
  | cons action rest ih =>
    have whole := ih (lists.next legal.1 inside.1) legal.2 inside.2
    rw [System.exec_cons]
    simpa only [List.mem_cons, exists_eq_or_imp, or_assoc] using whole

theorem countersLaw_exec (allocList : Nat) (memory : Memory) {actions : List (BlockAction platform)}
    (legal : (blockSystem platform maxTolerate).Legal (.initial platform allocList memory) actions)
    (inside : (blockSystem platform maxTolerate).Guarded InsideBlock
      (.initial platform allocList memory) actions)
    (counts : (blockSystem platform maxTolerate).Guarded CountsUp
      (.initial platform allocList memory) actions) :
    CountersLaw ((blockSystem platform maxTolerate).exec (.initial platform allocList memory)
      actions) := by
  have start := Blocks.Sound.initial platform allocList memory
  have nothing : CountersLaw (Blocks.initial platform allocList memory) :=
    start.countersLaw_iff.mpr fun _ => rfl
  have always : (blockSystem platform maxTolerate).Always
      (fun state => state.IsSound ∧ CountersLaw state) (.initial platform allocList memory) actions := by
    refine System.Always.of_invariant ⟨⟨[], start⟩, nothing⟩ ?_ ((legal.and inside).and counts)
    rintro state action ⟨sound, law⟩ ⟨step, up⟩
    refine ⟨sound.next step, ?_⟩
    obtain ⟨entries, sound⟩ := sound
    exact (sound.countersLaw_next law step.1 step.2).mpr up
  exact always.last.2

/-- A program that frees what it likes and then exits. While its requests are not empty, the text of the
last report is read back as one row for each place that asked for memory or registered itself, in the
order of the list, with the number of blocks from there that were never freed and a mark where a
request exceeded the tolerance. All its counters are 0 exactly if nothing leaked. -/
theorem exit_tells_leaks (maxTolerate : CInt) (allocList : Nat) (memory : Memory)
    (actions : List (BlockAction platform))
    (legal : (blockSystem platform maxTolerate).Legal (.initial platform allocList memory) actions)
    (inside : (blockSystem platform maxTolerate).Guarded InsideBlock
      (.initial platform allocList memory) actions)
    (counts : (blockSystem platform maxTolerate).Guarded CountsUp
      (.initial platform allocList memory) actions)
    (plain : ∀ action ∈ actions, ∀ site, action.asks = some site → 58 ∉ site.file.bytes) :
    let state := (blockSystem platform maxTolerate).exec (.initial platform allocList memory) actions
    ∃ calls rows, state.books.heap.recordExitChecker = .ok calls ∧
      uncleanColumn.scanTable exitedText [] (logText calls) = some rows ∧
      (rows.map Unclean.site).Pairwise Site.Before ∧
      (∀ site, site ∈ rows.map Unclean.site ↔ ∃ action ∈ actions, action.asks = some site) ∧
      (∀ row ∈ rows, row.cnt.toInt = (state.liveAt row.site).length ∧
        (row.overallocations = true ↔
          ∃ action ∈ actions, action.exceeds maxTolerate = some row.site)) ∧
      ((∀ row ∈ rows, row.cnt = 0) ↔ state.live = []) := by
  intro state
  have start : (Blocks.initial platform allocList memory).Lists (fun _ => False) fun _ => False :=
    ⟨[], .initial platform allocList memory, fun site => ⟨by simp; rfl, by simp; rfl⟩⟩
  obtain ⟨entries, sound, listed⟩ := start.exec legal inside
  simp only [false_or] at listed
  have law : CountersLaw state := countersLaw_exec allocList memory legal inside counts
  have asked (site : Site) : (sound.holds.toTable.lookup site).isSome ↔
      ∃ action ∈ actions, action.asks = some site := (listed site).1
  let rows := state.books.heap.table.map AllocRecord.unclean
  have sites := sound.holds.mem_sites
  refine ⟨_, rows, sound.holds.recordExitChecker, exitedText_reads_back ?_,
    sound.holds.table_sorted, fun site => (sites site).trans (asked site), ?_, ?_⟩
  · intro row member
    obtain ⟨action, made, same⟩ :=
      (asked row.site).mp ((sites row.site).mp (List.mem_map_of_mem member))
    exact plain action made row.site same
  · intro row member
    obtain ⟨record, inside, rfl⟩ := List.mem_map.mp member
    refine ⟨law.exact record inside, ?_⟩
    have tally : sound.holds.tally record.toSite = record.toTally := by
      rw [RecordHeap.Holds.tally, (sound.holds.mem_table_iff record).mp inside, Option.getD_some]
    have marked := (listed record.toSite).2
    rw [tally] at marked
    exact marked
  · constructor
    · intro clean
      by_contra leaked
      obtain ⟨block, others, live⟩ := List.exists_cons_of_ne_nil leaked
      have member : block ∈ state.live := by simp [live]
      obtain ⟨record, _, present⟩ := sound.holds.exists_lookup (sound.headed block member).record
      have listedRecord : ⟨block.site, record.toTally⟩ ∈ state.books.heap.table :=
        (sound.holds.mem_table_iff _).mpr present
      have counted := law.exact _ listedRecord
      have zero := clean _ (List.mem_map_of_mem listedRecord)
      have here : block ∈ state.liveAt block.site := by simp [Blocks.liveAt, member]
      have positive := List.length_pos_of_mem here
      simp only [AllocRecord.unclean] at counted zero
      simp only [zero] at counted
      have nothing : (0 : CInt).toInt = 0 := rfl
      omega
    · intro empty row member
      obtain ⟨record, inside, rfl⟩ := List.mem_map.mp member
      have counted := law.exact record inside
      rw [Blocks.liveAt, empty, List.filter_nil, List.length_nil] at counted
      exact BitVec.eq_of_toInt_eq counted

/-- One block of two is freed. -/
def leakingCalls : List (BlockAction .x86_64) :=
  [.alloc ⟨⟨[111], by decide⟩, 7⟩ 20 16 100, .alloc ⟨⟨[111], by decide⟩, 7⟩ 4 48 200, .free 28]

theorem exit_tells_leaks_one :
    let state := (blockSystem .x86_64 10).exec (.initial .x86_64 8 fun _ => 0) leakingCalls
    ∃ calls rows, state.books.heap.recordExitChecker = .ok calls ∧
      uncleanColumn.scanTable exitedText [] (logText calls) = some rows ∧
      (rows.map Unclean.site).Pairwise Site.Before ∧
      (∀ site, site ∈ rows.map Unclean.site ↔ ∃ action ∈ leakingCalls, action.asks = some site) ∧
      (∀ row ∈ rows, row.cnt.toInt = (state.liveAt row.site).length ∧
        (row.overallocations = true ↔
          ∃ action ∈ leakingCalls, action.exceeds 10 = some row.site)) ∧
      ((∀ row ∈ rows, row.cnt = 0) ↔ state.live = []) := by
  have plain : ∀ action ∈ leakingCalls, ∀ site, action.asks = some site → 58 ∉ site.file.bytes := by
    intro action member site asks
    simp only [leakingCalls, List.mem_cons, List.not_mem_nil, or_false] at member
    rcases member with rfl | rfl | rfl
    · cases asks
      decide
    · cases asks
      decide
    · cases asks
  exact exit_tells_leaks 10 8 (fun _ => 0) leakingCalls (by decide) (by decide) (by decide) plain

end TrippingRobot.Memleak
