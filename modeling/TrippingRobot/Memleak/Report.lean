import TrippingRobot.Memleak.Blocks

/-! Reports that leave out the records nothing has happened to. Somebody who keeps the last
line of each record knows the whole list after every such report. -/

namespace TrippingRobot.Memleak

open TrippingRobot.Data TrippingRobot.Machine

/-! ## The report -/

def memlDefault : CInt := 0
def memlTight : CInt := 0x1
def memlSuppressZeros : CInt := 0x2
def memlOnlyChanged : CInt := 0x4

/-- The arguments of `ml_log` for one record, tight or not. -/
inductive ReportLine (w : Nat) where
  | tight (cnt : CInt)
  | full (cnt : CInt) (memTotal : BitVec w) (site : Site) (overallocations : Bool)
deriving DecidableEq

variable {w : Nat} {flags : CInt}

/-- Whether `memleak_report` continues without a line. -/
def Tally.skipped (flags : CInt) (tally : Tally w) : Bool :=
  (flags &&& memlOnlyChanged != 0 && !tally.dirty) ||
    (flags &&& memlSuppressZeros != 0 && tally.cnt == 0)

def AllocRecord.reportLine (flags : CInt) (record : AllocRecord w) : ReportLine w :=
  if flags &&& memlTight = 0 then
    .full record.cnt record.memTotal record.toSite record.overallocations
  else .tight record.cnt

namespace RecordHeap

/-- The loop of `memleak_report` from the node `listIt` on. -/
def reportLoop (flags : CInt) :
    (fuel listIt : Nat) → RecordHeap w → Except Stop (RecordHeap w × List (ReportLine w))
  | 0, _, _ => .error .fault
  | fuel + 1, listIt, heap =>
    if listIt = heap.allocList then .ok (heap, [])
    else
      match heap.record listIt with
      | none => .error .fault
      | some record =>
        if record.skipped flags then reportLoop flags fuel (heap.links.next listIt) heap
        else do
          let heap := heap.setRecord listIt { record with dirty := false }
          let (heap, lines) ← reportLoop flags fuel (heap.links.next listIt) heap
          return (heap, record.reportLine flags :: lines)

/-- `memleak_report`, with the lines it prints. -/
def memleakReport (heap : RecordHeap w) (flags : CInt) :
    Except Stop (RecordHeap w × List (ReportLine w)) :=
  reportLoop flags (heap.created.length + 1) (heap.links.next heap.allocList) heap

end RecordHeap

theorem Tally.skipped_of_changed (changed : flags &&& memlOnlyChanged ≠ 0)
    (zeros : flags &&& memlSuppressZeros = 0) (tally : Tally w) :
    tally.skipped flags = !tally.dirty := by
  rw [Tally.skipped, bne_iff_ne.mpr changed, bne_eq_false_iff_eq.mpr zeros]
  simp

/-- A record behind a report. -/
def Tally.reported (flags : CInt) (tally : Tally w) : Tally w :=
  if tally.skipped flags then tally else { tally with dirty := false }

/-- The lines for the rows of a table. -/
def reportLines (flags : CInt) (rows : List (Site × Tally w)) : List (ReportLine w) :=
  (rows.filter fun row => !row.2.skipped flags).map
    fun row => (⟨row.1, row.2⟩ : AllocRecord w).reportLine flags

private def Entry.reported (flags : CInt) (entry : Entry w) : Entry w :=
  (entry.1, { entry.2 with toTally := entry.2.toTally.reported flags })

namespace RecordHeap

variable {heap : RecordHeap w} {entries : List (Entry w)}

private theorem Holds.reportLoop_from (rest before : List (Entry w))
    (holds : heap.Holds (before ++ rest)) (fuel : Nat) (enough : rest.length < fuel) :
    ∃ later, reportLoop flags fuel ((rest.map Prod.fst).headD heap.allocList) heap =
        .ok (later, reportLines flags (rowsOf rest)) ∧
      later.Holds (before ++ rest.map (Entry.reported flags)) ∧ later.created = heap.created := by
  induction rest generalizing heap before fuel with
  | nil =>
    obtain ⟨fuel, rfl⟩ : ∃ less, fuel = less + 1 := ⟨fuel - 1, by simp at enough; omega⟩
    exact ⟨heap, by simp [reportLoop, reportLines, rowsOf], holds, rfl⟩
  | cons entry rest ih =>
    obtain ⟨node, record⟩ := entry
    obtain ⟨fuel, rfl⟩ : ∃ less, fuel = less + 1 := ⟨fuel - 1, by simp at enough; omega⟩
    have member : (node, record) ∈ before ++ (node, record) :: rest := by simp
    have notHead : node ≠ heap.allocList := holds.node_ne_allocList member
    have stored : heap.record node = some record := holds.stored _ member
    have next : heap.links.next node = (rest.map Prod.fst).headD heap.allocList := by
      have ring := holds.ring
      rw [List.map_append, List.map_cons] at ring
      exact ring.next_node
    have fewer : rest.length < fuel := by simpa using enough
    simp only [List.map_cons, List.headD_cons, reportLoop, notHead, if_false, stored]
    cases skipped : record.skipped flags with
    | true =>
      have same : Entry.reported flags (node, record) = (node, record) := by
        simp [Entry.reported, Tally.reported, skipped]
      obtain ⟨later, returned, laterHolds, created⟩ :=
        ih (before ++ [(node, record)]) (by simpa using holds) fuel fewer
      refine ⟨later, ?_, by simpa [same] using laterHolds, created⟩
      simp only [if_true, next, returned]
      simp [reportLines, rowsOf, skipped]
    | false =>
      let printed : AllocRecord w := { record with dirty := false }
      have same : Entry.reported flags (node, record) = (node, printed) := by
        simp [Entry.reported, Tally.reported, skipped, printed]
      have replaced : (heap.setRecord node printed).Holds (before ++ (node, printed) :: rest) :=
        holds.replace rfl
      obtain ⟨later, returned, laterHolds, created⟩ :=
        ih (before ++ [(node, printed)]) (by simpa using replaced) fuel fewer
      refine ⟨later, ?_, by simpa [same] using laterHolds, created⟩
      have links : (heap.setRecord node printed).links = heap.links := rfl
      have allocList : (heap.setRecord node printed).allocList = heap.allocList := rfl
      rw [allocList] at returned
      simp only [Bool.false_eq_true, if_false, links, next, printed, returned, bind, Except.bind,
        pure, Except.pure]
      simp [reportLines, rowsOf, skipped]

/-- A report returns, and takes the mark from the records it prints. -/
theorem Holds.memleakReport (holds : heap.Holds entries) (flags : CInt) :
    ∃ later laterEntries,
      heap.memleakReport flags = .ok (later, reportLines flags holds.toTable.rows) ∧
        later.Holds laterEntries ∧
        rowsOf laterEntries = (holds.toTable.mapValues (Tally.reported flags)).rows ∧
        placesOf laterEntries = placesOf entries ∧ later.created = heap.created := by
  have length := holds.created.length_eq
  simp only [List.length_map] at length
  have enough : entries.length < heap.created.length + 1 := by omega
  obtain ⟨later, returned, laterHolds, created⟩ := Holds.reportLoop_from entries [] holds _ enough
  refine ⟨later, entries.map (Entry.reported flags), ?_, laterHolds, ?_, ?_, created⟩
  · rw [RecordHeap.memleakReport, holds.ring.next_head]
    exact returned
  · simp [SortedTable.mapValues, toTable, rowsOf, Entry.reported]
  · simp [placesOf, Entry.reported]

end RecordHeap

/-! ## The observer -/

structure Shown (w : Nat) where
  cnt : CInt
  memTotal : BitVec w
  overallocations : Bool
deriving DecidableEq

def Tally.shown (tally : Tally w) : Shown w := ⟨tally.cnt, tally.memTotal, tally.overallocations⟩

/-- The last line of each site, after one more. -/
def observeLine (seen : Site → Option (Shown w)) : ReportLine w → Site → Option (Shown w)
  | .tight _ => seen
  | .full cnt memTotal site overallocations =>
    Function.update seen site (some ⟨cnt, memTotal, overallocations⟩)

def observe (seen : Site → Option (Shown w)) (lines : List (ReportLine w)) :
    Site → Option (Shown w) :=
  lines.foldl observeLine seen

def ReportLine.isOf (site : Site) : ReportLine w → Bool
  | .tight _ => false
  | .full _ _ other _ => other = site

theorem observe_reportLines (full : flags &&& memlTight = 0) (table : SortedTable Site (Tally w))
    (seen : Site → Option (Shown w)) (site : Site) :
    observe seen (reportLines flags table.rows) site =
      (((table.lookup site).filter fun tally => !tally.skipped flags).map Tally.shown).or
        (seen site) := by
  obtain ⟨rows, sorted⟩ := table
  induction rows generalizing seen with
  | nil => rfl
  | cons row rest ih =>
    have lines : observe seen (reportLines flags (row :: rest)) site =
        observe (if row.2.skipped flags then seen
          else Function.update seen row.1 (some row.2.shown)) (reportLines flags rest) site := by
      cases skipped : row.2.skipped flags with
      | true => simp [reportLines, skipped]
      | false =>
        simp [reportLines, skipped, observe, AllocRecord.reportLine, full, observeLine, Tally.shown]
    rw [lines, ih _ sorted.of_cons]
    by_cases here : row.1 = site
    · subst here
      have absent : SortedTable.lookup ⟨rest, sorted.of_cons⟩ row.1 = none :=
        SortedTable.lookup_of_below (List.pairwise_cons.mp sorted).1
      rw [absent, SortedTable.lookup_cons_self]
      cases skipped : row.2.skipped flags with
      | true => simp [Option.filter, skipped]
      | false => simp [Option.filter, skipped]
    · rw [SortedTable.lookup_cons_of_ne sorted here]
      cases skipped : row.2.skipped flags with
      | true => rfl
      | false => simp [Ne.symm here]

theorem any_reportLines (full : flags &&& memlTight = 0) (table : SortedTable Site (Tally w))
    (site : Site) : ((reportLines flags table.rows).any fun line => line.isOf site) =
      (table.lookup site).any fun tally => !tally.skipped flags := by
  have isOf (row : Site × Tally w) :
      (AllocRecord.reportLine flags ⟨row.1, row.2⟩).isOf site = decide (row.1 = site) := by
    simp [AllocRecord.reportLine, full, ReportLine.isOf]
  rw [Bool.eq_iff_iff, List.any_eq_true, Option.any_eq_true]
  simp only [reportLines, List.mem_map, List.mem_filter]
  constructor
  · rintro ⟨_, ⟨row, ⟨member, printed⟩, rfl⟩, same⟩
    rw [isOf, decide_eq_true_eq] at same
    exact ⟨row.2, same ▸ (table.mem_iff_lookup row).mp member, printed⟩
  · rintro ⟨tally, row, printed⟩
    refine ⟨_, ⟨(site, tally), ⟨(table.mem_iff_lookup (site, tally)).mpr row, printed⟩, rfl⟩, ?_⟩
    exact (isOf (site, tally)).trans (decide_eq_true rfl)

structure Shows (seen : Site → Option (Shown w)) (heap : RecordHeap w) : Prop where
  each : ∀ record ∈ heap.table, seen record.toSite = some record.shown
  only : ∀ site, seen site ≠ none → ∃ record ∈ heap.table, record.toSite = site

theorem RecordHeap.Holds.shows {heap : RecordHeap w} {entries : List (Entry w)}
    (holds : heap.Holds entries) {seen : Site → Option (Shown w)}
    (agree : ∀ site, seen site = (holds.toTable.lookup site).map Tally.shown) : Shows seen heap where
  each record member := by
    rw [agree, (holds.mem_table_iff record).mp member]
    rfl
  only site known := by
    rw [agree, Option.ne_none_iff_exists] at known
    obtain ⟨_, shown⟩ := known
    obtain ⟨tally, row, _⟩ := Option.map_eq_some_iff.mp shown.symm
    exact ⟨⟨site, tally⟩, (holds.mem_table_iff _).mpr row, rfl⟩

end TrippingRobot.Memleak
