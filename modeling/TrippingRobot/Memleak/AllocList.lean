import TrippingRobot.Data.SortedTable
import TrippingRobot.Machine.Run
import TrippingRobot.Memleak.Record

/-! The ring of records is a table sorted by site, and `list_push_record`
refines the insertion into it. -/

namespace TrippingRobot.Memleak

open TrippingRobot.Data TrippingRobot.Machine

private def Site.sortKey (site : Site) : Lex (CString × Int) := toLex (site.file, site.line.toInt)

/-- Files in the order of `strcmp`, then lines. -/
instance : LinearOrder Site :=
  LinearOrder.lift' Site.sortKey fun site other same => by
    have keys := Prod.ext_iff.mp (toLex.injective same)
    exact Site.ext keys.1 (BitVec.eq_of_toInt_eq keys.2)

theorem Site.lt_iff {site other : Site} :
    site < other ↔ strcmp site.file.bytes other.file.bytes < 0 ∨
      strcmp site.file.bytes other.file.bytes = 0 ∧ site.line.slt other.line = true := by
  have keys : site < other ↔ site.sortKey < other.sortKey := Iff.rfl
  rw [keys, Site.sortKey, Site.sortKey, Prod.Lex.toLex_lt_toLex, strcmp_eq_zero,
    BitVec.slt_iff_toInt_lt, CString.lt_iff, CString.ext_iff]

variable {w : Nat}

/-- A record with its address. -/
abbrev Entry (w : Nat) := Nat × AllocRecord w

/-- The rows of the table, which do not know where their records are. -/
def rowsOf (entries : List (Entry w)) : List (Site × Tally w) :=
  entries.map fun entry => (entry.2.toSite, entry.2.toTally)

/-- The ring holds these records in this order, sorted by site, and no record
that was created is missing. -/
structure RecordHeap.Holds (heap : RecordHeap w) (entries : List (Entry w)) : Prop where
  ring : heap.links.Ring heap.allocList (entries.map Prod.fst)
  stored : ∀ entry ∈ entries, heap.record entry.1 = some entry.2
  created : (entries.map Prod.fst).Perm heap.created
  sorted : (rowsOf entries).Pairwise fun first second => first.1 < second.1

def RecordHeap.siteAt (heap : RecordHeap w) (node : Nat) : Option Site :=
  (heap.record node).map AllocRecord.toSite

/-- What `malloc` may answer: memory that is in no use. -/
def RecordHeap.Fresh (heap : RecordHeap w) (answer : Nat) : Prop :=
  answer ≠ 0 ∧ answer ≠ heap.allocList ∧ answer ∉ heap.created

instance (heap : RecordHeap w) (answer : Nat) : Decidable (heap.Fresh answer) :=
  inferInstanceAs (Decidable (_ ∧ _))

/-- Where the records are, and of which site. -/
def placesOf (entries : List (Entry w)) : List (Nat × Site) :=
  entries.map fun entry => (entry.1, entry.2.toSite)

/-- The tally of a site after a push, given what it was before. -/
def Tally.pushed (size : BitVec w) (overalloc : Bool) : Option (Tally w) → Tally w
  | none => .fresh size overalloc
  | some tally => tally.count size overalloc

namespace RecordHeap

variable {heap : RecordHeap w} {entries before after : List (Entry w)} {site : Site}

theorem Holds.initial (allocList : Nat) : (RecordHeap.initial w allocList).Holds [] where
  ring := .empty rfl rfl
  stored := by simp
  created := .refl _
  sorted := .nil

/-- The table a heap holds. -/
def Holds.toTable (holds : heap.Holds entries) : SortedTable Site (Tally w) :=
  ⟨rowsOf entries, holds.sorted⟩

theorem Holds.node_ne_allocList (holds : heap.Holds entries) (member : entry ∈ entries) :
    entry.1 ≠ heap.allocList := by
  have distinct := (List.nodup_cons.mp holds.ring.distinct).1
  intro same
  exact distinct (same ▸ List.mem_map_of_mem member)

private theorem Holds.visit_from (holds : heap.Holds entries) (rest before : List (Entry w))
    (split : entries = before ++ rest) :
    heap.visit rest.length ((rest.map Prod.fst).headD heap.allocList) = rest.map Prod.fst := by
  induction rest generalizing before with
  | nil => rfl
  | cons entry rest ih =>
    have notHead : entry.1 ≠ heap.allocList := holds.node_ne_allocList (by simp [split])
    have next : heap.links.next entry.1 = (rest.map Prod.fst).headD heap.allocList := by
      have ring := holds.ring
      rw [split, List.map_append, List.map_cons] at ring
      exact ring.next_node
    simp only [List.length_cons, List.map_cons, List.headD_cons, visit, notHead, if_false, next]
    rw [ih (before ++ [entry]) (by simp [split])]

/-- A walk along `next` finds the rows in order. -/
theorem Holds.table_eq (holds : heap.Holds entries) :
    heap.table = holds.toTable.rows.map fun row => (⟨row.1, row.2⟩ : AllocRecord w) := by
  have length : heap.created.length = entries.length := by
    simpa using holds.created.length_eq.symm
  rw [table, holds.ring.next_head, length, holds.visit_from entries [] rfl]
  simp only [toTable, rowsOf, List.map_map, List.filterMap_map, Function.comp_def]
  rw [← List.filterMap_eq_map]
  exact List.filterMap_congr fun entry member => holds.stored entry member

/-- The two ways out of the search, with the records in front of the way out. -/
inductive Stops (heap : RecordHeap w) (site : Site) (entries : List (Entry w)) : Found → Prop
  | record (before after : List (Entry w)) (node : Nat) (record : AllocRecord w)
      (split : entries = before ++ (node, record) :: after)
      (below : ∀ entry ∈ before, entry.2.toSite < site) (same : record.toSite = site) :
      Stops heap site entries (.record node)
  | place (before after : List (Entry w)) (split : entries = before ++ after)
      (below : ∀ entry ∈ before, entry.2.toSite < site)
      (above : ∀ entry ∈ after.head?, site < entry.2.toSite) :
      Stops heap site entries (.place ((after.map Prod.fst).headD heap.allocList))

private theorem Holds.search_from (holds : heap.Holds entries) (rest : List (Entry w))
    (before : List (Entry w)) (split : entries = before ++ rest)
    (below : ∀ entry ∈ before, entry.2.toSite < site) (fuel : Nat) (enough : rest.length < fuel) :
    ∃ found, heap.search site fuel ((rest.map Prod.fst).headD heap.allocList) = .ok found ∧
      heap.Stops site entries found := by
  induction rest generalizing before fuel with
  | nil =>
    obtain ⟨fuel, rfl⟩ : ∃ less, fuel = less + 1 := ⟨fuel - 1, by simp at enough; omega⟩
    exact ⟨_, by simp [search], .place before [] split below (by simp)⟩
  | cons entry rest ih =>
    obtain ⟨node, record⟩ := entry
    obtain ⟨fuel, rfl⟩ : ∃ less, fuel = less + 1 := ⟨fuel - 1, by simp at enough; omega⟩
    have member : (node, record) ∈ entries := by simp [split]
    have notHead : node ≠ heap.allocList := holds.node_ne_allocList member
    have stored : heap.record node = some record := holds.stored _ member
    have next : heap.links.next node = (rest.map Prod.fst).headD heap.allocList := by
      have ring := holds.ring
      rw [split, List.map_append, List.map_cons] at ring
      exact ring.next_node
    have swap := strcmp_swap record.file.bytes site.file.bytes
    simp only [List.map_cons, List.headD_cons, search, notHead, if_false, stored]
    split
    · rename_i above
      refine ⟨_, rfl, .place before ((node, record) :: rest) split below ?_⟩
      intro entry first
      obtain rfl : (node, record) = entry := by simpa using first
      exact Site.lt_iff.mpr (.inl (by simp only; omega))
    · split
      · rename_i above
        refine ⟨_, rfl, .place before ((node, record) :: rest) split below ?_⟩
        intro entry first
        obtain rfl : (node, record) = entry := by simpa using first
        exact Site.lt_iff.mpr (.inr ⟨by simp only; omega, above.2⟩)
      · split
        · rename_i same
          refine ⟨_, rfl, .record before rest node record split below ?_⟩
          exact Site.ext (CString.ext (strcmp_eq_zero.mp same.1)) same.2.symm
        · rename_i notAbove notLater different
          have smaller : record.toSite < site := by
            rw [Site.lt_iff]
            by_cases equal : strcmp record.file.bytes site.file.bytes = 0
            · refine .inr ⟨equal, ?_⟩
              have lines : record.line.toInt ≠ site.line.toInt :=
                fun same => different ⟨equal, (BitVec.eq_of_toInt_eq same).symm⟩
              simp only [equal, true_and, BitVec.slt_iff_toInt_lt] at notLater ⊢
              omega
            · exact .inl (by omega)
          rw [next]
          apply ih (before ++ [(node, record)]) (by simp [split]) _ fuel (by simp at enough; omega)
          intro entry found
          rcases List.mem_append.mp found with found | found
          · exact below entry found
          · obtain rfl : entry = (node, record) := by simpa using found
            exact smaller

/-- The loop ends, at the record of the site or at the place where it belongs. -/
theorem Holds.search_stops (holds : heap.Holds entries) (site : Site) :
    ∃ found, heap.search site (heap.created.length + 1) (heap.links.next heap.allocList) =
      .ok found ∧ heap.Stops site entries found := by
  rw [holds.ring.next_head]
  apply holds.search_from entries [] rfl (by simp)
  have length := holds.created.length_eq
  simp only [List.length_map] at length
  omega

private theorem upsertRows_rowsOf_sorted {entries : List (Entry w)}
    (sorted : (rowsOf entries).Pairwise fun first second => first.1 < second.1)
    {put : Option (Tally w) → Tally w} {later : List (Entry w)}
    (rows : rowsOf later = upsertRows site put (rowsOf entries)) :
    (rowsOf later).Pairwise fun first second => first.1 < second.1 := by
  rw [rows]
  exact (SortedTable.upsert ⟨rowsOf entries, sorted⟩ site put).sorted

theorem rowsOf_replace (holds : heap.Holds (before ++ (node, old) :: after))
    (same : new.toSite = old.toSite) (put : Option (Tally w) → Tally w)
    (changed : new.toTally = put (some old.toTally)) :
    rowsOf (before ++ (node, new) :: after) =
      upsertRows old.toSite put (rowsOf (before ++ (node, old) :: after)) := by
  have below : ∀ row ∈ rowsOf before, row.1 < old.toSite := by
    intro row member
    have sorted := holds.sorted
    simp only [rowsOf, List.map_append, List.map_cons, List.pairwise_append] at sorted
    exact sorted.2.2 row member _ List.mem_cons_self
  simp only [rowsOf, List.map_append, List.map_cons, same, changed] at below ⊢
  rw [upsertRows_replace below]

theorem Holds.replace (holds : heap.Holds (before ++ (node, old) :: after))
    (same : new.toSite = old.toSite) :
    (heap.setRecord node new).Holds (before ++ (node, new) :: after) where
  ring := by simpa [setRecord] using holds.ring
  stored := by
    intro entry member
    have distinct := (List.nodup_cons.mp holds.ring.distinct).2
    rw [List.map_append, List.map_cons, List.nodup_middle, List.nodup_cons] at distinct
    have kept := holds.stored entry
    simp only [setRecord, List.mem_append, List.mem_cons] at member kept ⊢
    by_cases here : entry = (node, new)
    · simp [here]
    · have elsewhere : entry ∈ before ∨ entry ∈ after := by tauto
      have different : entry.1 ≠ node := by
        intro equal
        apply distinct.1
        rw [← List.map_append, ← equal]
        exact List.mem_map.mpr ⟨entry, List.mem_append.mpr elsewhere, rfl⟩
      rw [Function.update_of_ne different]
      exact kept (by tauto)
  created := by simpa [setRecord] using holds.created
  sorted := by
    apply upsertRows_rowsOf_sorted holds.sorted
    exact rowsOf_replace holds same (fun _ => new.toTally) rfl

private theorem rowsOf_insert (below : ∀ entry ∈ before, entry.2.toSite < site)
    (above : ∀ entry ∈ after.head?, site < entry.2.toSite) (put : Option (Tally w) → Tally w) :
    rowsOf (before ++ (node, ⟨site, put none⟩) :: after) =
      upsertRows site put (rowsOf (before ++ after)) := by
  simp only [rowsOf, List.map_append, List.map_cons]
  rw [upsertRows_insert]
  · intro row member
    obtain ⟨entry, found, rfl⟩ := List.mem_map.mp member
    exact below entry found
  · cases after with
    | nil => simp
    | cons first rest => simpa using above

theorem listAddTail_links (heap : RecordHeap w) (record head : Nat) :
    (heap.listAddTail record head).links = heap.links.insertBefore record head := rfl

theorem Holds.insert (holds : heap.Holds (before ++ after)) (fresh : heap.Fresh answer)
    (below : ∀ entry ∈ before, entry.2.toSite < site)
    (above : ∀ entry ∈ after.head?, site < entry.2.toSite) (tally : Tally w) :
    (listAddTail { heap.setRecord answer ⟨site, tally⟩ with created := heap.created ++ [answer] }
      answer ((after.map Prod.fst).headD heap.allocList)).Holds
      (before ++ (answer, ⟨site, tally⟩) :: after) := by
  obtain ⟨_, notHead, notCreated⟩ := fresh
  have absent : answer ∉ (before ++ after).map Prod.fst :=
    fun member => notCreated (holds.created.mem_iff.mp member)
  constructor
  · have ring := holds.ring
    rw [List.map_append] at ring absent
    rw [List.map_append, List.map_cons, listAddTail_links]
    exact ring.insert (by simpa [notHead] using absent)
  · intro entry member
    simp only [listAddTail, setRecord, List.mem_append, List.mem_cons] at member ⊢
    by_cases here : entry = (answer, ⟨site, tally⟩)
    · simp [here]
    · have elsewhere : entry ∈ before ++ after := by
        rw [List.mem_append]
        tauto
      have different : entry.1 ≠ answer := by
        intro equal
        apply absent
        rw [← equal]
        exact List.mem_map_of_mem elsewhere
      rw [Function.update_of_ne different]
      exact holds.stored entry elsewhere
  · rw [List.map_append, List.map_cons]
    have created := (holds.created.cons answer).trans (List.perm_append_singleton _ _).symm
    rw [List.map_append] at created
    exact List.perm_middle.trans created
  · apply upsertRows_rowsOf_sorted holds.sorted
    exact rowsOf_insert below above fun _ => tally

structure Pushed (heap : RecordHeap w) (entries : List (Entry w)) (site : Site) (size : BitVec w)
    (overalloc : Bool) (later : RecordHeap w) (node : Nat) (laterEntries : List (Entry w)) :
    Prop where
  holds : later.Holds laterEntries
  rows : rowsOf laterEntries = upsertRows site (Tally.pushed size overalloc) (rowsOf entries)
  mine : (node, site) ∈ placesOf laterEntries
  kept : (placesOf entries).Sublist (placesOf laterEntries)
  allocList : later.allocList = heap.allocList

theorem Holds.absent (holds : heap.Holds (before ++ after))
    (below : ∀ entry ∈ before, entry.2.toSite < site)
    (above : ∀ entry ∈ after.head?, site < entry.2.toSite) :
    ∀ entry ∈ before ++ after, entry.2.toSite ≠ site := by
  intro entry member
  rcases List.mem_append.mp member with early | late
  · exact (below entry early).ne
  · cases after with
    | nil => cases late
    | cons first rest =>
      have start := above first rfl
      rcases List.mem_cons.mp late with rfl | later
      · exact start.ne'
      · have sorted := holds.sorted
        simp only [rowsOf, List.pairwise_map, List.pairwise_append, List.pairwise_cons] at sorted
        exact (start.trans (sorted.2.1.1 entry later)).ne'

/-- `list_push_record` returns where it finds the record or gets memory for one, and refines
the insertion into the table. -/
theorem Holds.listPushRecord_of (holds : heap.Holds entries)
    (room : (∃ entry ∈ entries, entry.2.toSite = site) ∨ heap.Fresh answer)
    (size : BitVec w) (overalloc : Bool) :
    ∃ later node laterEntries,
      heap.listPushRecord site size overalloc answer = .ok (later, node) ∧
        heap.Pushed entries site size overalloc later node laterEntries := by
  obtain ⟨found, searched, stops⟩ := holds.search_stops site
  cases stops with
  | record before after node record split below same =>
    subst split same
    have stored : heap.record node = some record := holds.stored (node, record) (by simp)
    refine ⟨_, node, before ++ (node, { record with toTally := record.count size overalloc }) :: after,
      ?_, holds.replace rfl, ?_, ?_, ?_, rfl⟩
    · simp only [RecordHeap.listPushRecord, searched, stored]
    · apply rowsOf_replace holds
      · rfl
      · rfl
    · simp [placesOf]
    · simp [placesOf]
  | place before after split below above =>
    subst split
    have fresh : heap.Fresh answer := by
      refine room.resolve_left ?_
      rintro ⟨entry, member, same⟩
      exact holds.absent below above entry member same
    refine ⟨_, answer, before ++ (answer, ⟨site, .fresh size overalloc⟩) :: after,
      ?_, holds.insert fresh below above _, ?_, ?_, ?_, rfl⟩
    · simp only [RecordHeap.listPushRecord, searched, fresh.1, if_false]
      rfl
    · exact rowsOf_insert below above (Tally.pushed size overalloc)
    · simp [placesOf]
    · simp [placesOf]

theorem Holds.listPushRecord (holds : heap.Holds entries) (fresh : heap.Fresh answer)
    (site : Site) (size : BitVec w) (overalloc : Bool) :
    ∃ later node laterEntries,
      heap.listPushRecord site size overalloc answer = .ok (later, node) ∧
        heap.Pushed entries site size overalloc later node laterEntries :=
  holds.listPushRecord_of (.inr fresh) size overalloc

theorem Holds.listPushRecord_exit (holds : heap.Holds entries)
    (unknown : ∀ entry ∈ entries, entry.2.toSite ≠ site) (size : BitVec w) (overalloc : Bool) :
    heap.listPushRecord site size overalloc 0 = .error .exit := by
  obtain ⟨found, searched, stops⟩ := holds.search_stops site
  cases stops with
  | record before after node record split below same =>
    exact absurd same (unknown (node, record) (by simp [split]))
  | place before after split below above =>
    simp only [RecordHeap.listPushRecord, searched, if_true]

theorem Holds.siteAt_of_place (holds : heap.Holds entries)
    (member : (node, site) ∈ placesOf entries) : heap.siteAt node = some site := by
  obtain ⟨entry, found, places⟩ := List.mem_map.mp member
  obtain ⟨rfl, rfl⟩ := Prod.ext_iff.mp places
  rw [siteAt, holds.stored entry found]
  rfl

end RecordHeap

structure PushCall (w : Nat) where
  site : Site
  size : BitVec w
  overalloc : Bool
  answer : Nat

def PushCall.run (call : PushCall w) (heap : RecordHeap w) : Except Stop (RecordHeap w × Nat) :=
  heap.listPushRecord call.site call.size call.overalloc call.answer

/-- Calls one after the other, as the lock orders them. -/
def pushSystem (w : Nat) : System (RecordHeap w) (PushCall w) where
  enabled heap call := heap.Fresh call.answer
  next heap call :=
    match call.run heap with
    | .ok (later, _) => later
    | .error _ => heap

def Site.Before (site other : Site) : Prop :=
  strcmp site.file.bytes other.file.bytes < 0 ∨
    strcmp site.file.bytes other.file.bytes = 0 ∧ site.line.slt other.line = true

/-- The pointers run through exactly the created records, in strict order. -/
structure RecordHeap.WellFormed (heap : RecordHeap w) (nodes : List Nat) : Prop where
  once : (heap.allocList :: nodes).Nodup
  all : nodes.Perm heap.created
  forward : (heap.allocList :: nodes ++ [heap.allocList]).IsChain
    fun first second => heap.links.next first = second
  backward : (heap.allocList :: nodes.reverse ++ [heap.allocList]).IsChain
    fun first second => heap.links.prev first = second
  records : ∀ node ∈ nodes, (heap.record node).isSome
  ordered : nodes.Pairwise fun first second =>
    ∃ site other, heap.siteAt first = some site ∧ heap.siteAt second = some other ∧
      site.Before other

theorem RecordHeap.Holds.wellFormed {heap : RecordHeap w} {entries : List (Entry w)}
    (holds : heap.Holds entries) : heap.WellFormed (entries.map Prod.fst) where
  once := holds.ring.distinct
  all := holds.created
  forward := holds.ring.forward
  backward := holds.ring.backward
  records := by
    intro node member
    obtain ⟨entry, found, rfl⟩ := List.mem_map.mp member
    simp [holds.stored entry found]
  ordered := by
    have sorted := holds.sorted
    simp only [rowsOf, List.pairwise_map] at sorted ⊢
    refine sorted.imp_of_mem ?_
    intro first second firstMember secondMember smaller
    refine ⟨first.2.toSite, second.2.toSite, ?_, ?_, Site.lt_iff.mp smaller⟩
    · simp [siteAt, holds.stored first firstMember]
    · simp [siteAt, holds.stored second secondMember]

private theorem nodes_sublist {entries later : List (Entry w)}
    (kept : (placesOf entries).Sublist (placesOf later)) :
    (entries.map Prod.fst).Sublist (later.map Prod.fst) := by
  simpa [placesOf, Function.comp_def] using kept.map Prod.fst

theorem RecordHeap.Holds.exec {heap : RecordHeap w} {entries : List (Entry w)}
    (holds : heap.Holds entries) (legal : (pushSystem w).Legal heap calls) :
    ∃ later, ((pushSystem w).exec heap calls).Holds later ∧
      (placesOf entries).Sublist (placesOf later) := by
  induction calls generalizing heap entries with
  | nil => exact ⟨entries, holds, .refl _⟩
  | cons call rest ih =>
    obtain ⟨later, node, middle, returned, pushed⟩ :=
      holds.listPushRecord legal.1 call.site call.size call.overalloc
    have next : (pushSystem w).next heap call = later := by
      simp [pushSystem, PushCall.run, returned]
    obtain ⟨last, lastHolds, kept⟩ := ih pushed.holds (next ▸ legal.2)
    refine ⟨last, ?_, pushed.kept.trans kept⟩
    rw [System.exec_cons, next]
    exact lastHolds

/-- However many calls are made, the list is a sorted set of all the records,
each call returns the record of its site, and records stay where they are. -/
theorem allocList_wellFormed (allocList : Nat) (first second : List (PushCall w))
    (legal : (pushSystem w).Legal (.initial w allocList) (first ++ second)) :
    let early := (pushSystem w).exec (.initial w allocList) first
    let late := (pushSystem w).exec (.initial w allocList) (first ++ second)
    ∃ earlyNodes lateNodes : List Nat, early.WellFormed earlyNodes ∧ late.WellFormed lateNodes ∧
      earlyNodes.Sublist lateNodes ∧
      (∀ node ∈ earlyNodes, late.siteAt node = early.siteAt node) ∧
      ∀ call : PushCall w, early.Fresh call.answer → ∃ (after : RecordHeap w) (node : Nat) (afterNodes : List Nat),
        call.run early = .ok (after, node) ∧ after.WellFormed afterNodes ∧
          node ∈ afterNodes ∧ after.siteAt node = some call.site := by
  intro early late
  rw [System.Legal, System.guarded_append] at legal
  obtain ⟨entries, holds, -⟩ := (RecordHeap.Holds.initial allocList).exec legal.1
  obtain ⟨lateEntries, lateHolds, kept⟩ := holds.exec legal.2
  rw [← System.exec_append] at lateHolds
  refine ⟨_, _, holds.wellFormed, lateHolds.wellFormed, nodes_sublist kept, ?_, ?_⟩
  · intro node member
    obtain ⟨entry, found, rfl⟩ := List.mem_map.mp member
    have place : (entry.1, entry.2.toSite) ∈ placesOf entries := List.mem_map_of_mem found
    exact (lateHolds.siteAt_of_place (kept.subset place)).trans (holds.siteAt_of_place place).symm
  · intro call fresh
    obtain ⟨after, node, afterEntries, returned, pushed⟩ :=
      holds.listPushRecord fresh call.site call.size call.overalloc
    refine ⟨after, node, _, returned, pushed.holds.wellFormed, ?_, pushed.holds.siteAt_of_place pushed.mine⟩
    obtain ⟨entry, found, place⟩ := List.mem_map.mp pushed.mine
    exact List.mem_map.mpr ⟨entry, found, congrArg Prod.fst place⟩

instance (heap : RecordHeap w) (call : PushCall w) : Decidable ((pushSystem w).enabled heap call) :=
  inferInstanceAs (Decidable (heap.Fresh call.answer))

/-- Three calls at two lines, the later line first. -/
theorem allocList_wellFormed_three :
    let file : CString := ⟨[97], by decide⟩
    let first : List (PushCall 64) := [⟨⟨file, 7⟩, 16, false, 100⟩, ⟨⟨file, 3⟩, 0, false, 200⟩]
    let second : List (PushCall 64) := [⟨⟨file, 7⟩, 8, true, 300⟩]
    ∃ nodes, ((pushSystem 64).exec (.initial 64 1) (first ++ second)).WellFormed nodes := by
  intro file first second
  obtain ⟨_, nodes, _, wellFormed, _⟩ := allocList_wellFormed 1 first second (by decide)
  exact ⟨nodes, wellFormed⟩

end TrippingRobot.Memleak
