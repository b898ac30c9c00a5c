import Mathlib.Data.BitVec
import TrippingRobot.Memleak.AllocList

/-! Requests, registrations and frees as sums: each adds an amount to its site. -/

namespace TrippingRobot.Memleak

open TrippingRobot.Data

variable {w : Nat}

structure Delta (w : Nat) where
  cnt : CInt
  memTotal : BitVec w
  overallocations : Bool

def Tally.zero : Tally w := ⟨0, 0, false, false⟩

def Delta.put (delta : Delta w) (old : Option (Tally w)) : Tally w :=
  let old := old.getD .zero
  { cnt := old.cnt + delta.cnt
    memTotal := old.memTotal + delta.memTotal
    dirty := true
    overallocations := old.overallocations || delta.overallocations }

theorem Delta.put_comm (one two : Delta w) (old : Option (Tally w)) :
    two.put (some (one.put old)) = one.put (some (two.put old)) := by
  apply Tally.ext
  · exact add_right_comm _ _ _
  · exact add_right_comm _ _ _
  · rfl
  · exact Bool.or_right_comm _ _ _

def Delta.request (size : BitVec w) (overalloc : Bool) : Delta w :=
  ⟨if 0 < size then 1 else 0, size, overalloc⟩

def Delta.release (size : BitVec w) : Delta w := ⟨-1, -size, false⟩

theorem Tally.pushed_eq_put {size : BitVec w} {overalloc : Bool}
    (large : overalloc = true → 0 < size)
    (old : Option (Tally w)) :
    Tally.pushed size overalloc old = (Delta.request size overalloc).put old := by
  cases old with
  | none => cases overalloc <;> simp [Tally.pushed, Tally.fresh, Delta.request, Delta.put, Tally.zero]
  | some tally =>
    by_cases positive : 0 < size
    · simp only [Tally.pushed, Tally.count, Delta.request, Delta.put, if_pos positive]
      cases overalloc <;> simp
    · have small : overalloc = false := by
        cases overalloc
        · rfl
        · exact absurd (large rfl) positive
      have zero : size = 0 := by
        rw [BitVec.lt_def] at positive
        exact BitVec.eq_of_toNat_eq (by simpa using positive)
      simp [Tally.pushed, Tally.count, Delta.request, Delta.put, small, zero]

theorem Tally.release_eq_put (tally : Tally w) (size : BitVec w) :
    tally.release size = (Delta.release size).put (some tally) := by
  simp [Tally.release, Delta.release, Delta.put, sub_eq_add_neg]

theorem pos_of_isOveralloc {size : BitVec w} (large : isOveralloc maxTolerate size = true) :
    0 < size := by
  simp only [isOveralloc, Bool.and_eq_true, decide_eq_true_eq, BitVec.lt_def] at large ⊢
  simp only [BitVec.ofNat_eq_ofNat, BitVec.toNat_ofNat, Nat.zero_mod]
  omega

/-- One call's effect on a heap: its amount is added at its site, and every
earlier record stays where it was. -/
structure RecordHeap.Adds (heap : RecordHeap w) (entries : List (Entry w)) (site : Site)
    (delta : Delta w) (later : RecordHeap w) (laterEntries : List (Entry w)) : Prop where
  holds : later.Holds laterEntries
  rows : rowsOf laterEntries = upsertRows site delta.put (rowsOf entries)
  kept : (placesOf entries).Sublist (placesOf laterEntries)

namespace RecordHeap.Holds

variable {heap : RecordHeap w} {entries : List (Entry w)}

private theorem push (holds : heap.Holds entries) (fresh : heap.Fresh answer)
    (site : Site) (size : BitVec w) {overalloc : Bool} (large : overalloc = true → 0 < size) :
    ∃ later node laterEntries,
      heap.listPushRecord site size overalloc answer = .ok (later, node) ∧
        heap.Adds entries site (.request size overalloc) later laterEntries ∧
        (node, site) ∈ placesOf laterEntries := by
  obtain ⟨later, node, laterEntries, returned, pushed⟩ :=
    holds.listPushRecord fresh site size overalloc
  have amount : Tally.pushed size overalloc = (Delta.request size overalloc).put :=
    funext (Tally.pushed_eq_put large)
  refine ⟨later, node, laterEntries, returned, ⟨pushed.holds, ?_, pushed.kept⟩, pushed.mine⟩
  rw [pushed.rows, amount]

theorem request (holds : heap.Holds entries) (fresh : heap.Fresh answer) (site : Site)
    (size : BitVec w) (maxTolerate : CInt) :
    ∃ later node laterEntries,
      heap.listPushRecord site size (isOveralloc maxTolerate size) answer = .ok (later, node) ∧
        heap.Adds entries site (.request size (isOveralloc maxTolerate size)) later laterEntries ∧
        (node, site) ∈ placesOf laterEntries :=
  holds.push fresh site size pos_of_isOveralloc

theorem register (holds : heap.Holds entries) (fresh : heap.Fresh answer) (site : Site) :
    ∃ later node laterEntries,
      heap.listPushRecord site 0 false answer = .ok (later, node) ∧
        heap.Adds entries site (.request 0 false) later laterEntries ∧
        (node, site) ∈ placesOf laterEntries :=
  holds.push fresh site 0 (by simp)

theorem release (holds : heap.Holds entries) (place : (node, site) ∈ placesOf entries)
    (size : BitVec w) :
    ∃ later laterEntries, heap.releaseRecord node size = .ok later ∧
      heap.Adds entries site (.release size) later laterEntries ∧
      placesOf laterEntries = placesOf entries := by
  obtain ⟨⟨address, record⟩, member, same⟩ := List.mem_map.mp place
  obtain ⟨rfl, rfl⟩ : address = node ∧ record.toSite = site := Prod.ext_iff.mp same
  obtain ⟨before, after, rfl⟩ := List.append_of_mem member
  let changed : AllocRecord w := { record with toTally := record.toTally.release size }
  have places : placesOf (before ++ (address, changed) :: after) =
      placesOf (before ++ (address, record) :: after) := by
    simp [placesOf, changed]
  refine ⟨heap.setRecord address changed, before ++ (address, changed) :: after, ?_,
    ⟨holds.replace rfl, ?_, ?_⟩, places⟩
  · simp only [releaseRecord, holds.stored _ member, changed]
  · apply rowsOf_replace holds
    · rfl
    · exact record.toTally.release_eq_put size
  · rw [places]

/-- What is counted at a site, which is nothing as long as it has no record. -/
def tally (holds : heap.Holds entries) (site : Site) : Tally w :=
  (holds.toTable.lookup site).getD .zero

/-- A record of the list carries the tally of its site. -/
theorem mem_table_iff (holds : heap.Holds entries) (record : AllocRecord w) :
    record ∈ heap.table ↔ holds.toTable.lookup record.toSite = some record.toTally := by
  rw [holds.table_eq, ← holds.toTable.mem_iff_lookup (record.toSite, record.toTally), List.mem_map]
  constructor
  · rintro ⟨row, member, rfl⟩
    exact member
  · intro member
    exact ⟨_, member, rfl⟩

theorem exists_lookup (holds : heap.Holds entries) (place : (node, site) ∈ placesOf entries) :
    ∃ record, heap.record node = some record ∧
      holds.toTable.lookup site = some record.toTally := by
  obtain ⟨⟨address, record⟩, member, same⟩ := List.mem_map.mp place
  obtain ⟨rfl, rfl⟩ : address = node ∧ record.toSite = site := Prod.ext_iff.mp same
  refine ⟨record, holds.stored _ member, ?_⟩
  have row : (record.toSite, record.toTally) ∈ holds.toTable.rows := List.mem_map_of_mem member
  exact (holds.toTable.mem_iff_lookup _).mp row

end RecordHeap.Holds

theorem RecordHeap.Adds.tally {heap later : RecordHeap w} {entries laterEntries : List (Entry w)}
    (adds : heap.Adds entries site delta later laterEntries) (holds : heap.Holds entries)
    (other : Site) :
    adds.holds.tally other =
      if other = site then delta.put (some (holds.tally site)) else holds.tally other := by
  have table : adds.holds.toTable = holds.toTable.upsert site delta.put := SortedTable.ext adds.rows
  simp only [RecordHeap.Holds.tally, table, SortedTable.lookup_upsert]
  split
  · cases holds.toTable.lookup site <;> rfl
  · rfl

theorem RecordHeap.Adds.forall_tally_iff {heap later : RecordHeap w}
    {entries laterEntries : List (Entry w)}
    (adds : heap.Adds entries site delta later laterEntries) (holds : heap.Holds entries)
    (property : Site → Tally w → Prop)
    (elsewhere : ∀ other, other ≠ site → property other (holds.tally other)) :
    (∀ other, property other (adds.holds.tally other)) ↔
      property site (delta.put (some (holds.tally site))) := by
  constructor
  · intro all
    simpa [adds.tally holds] using all site
  · intro here other
    rw [adds.tally holds]
    split
    · rename_i same
      exact same ▸ here
    · rename_i different
      exact elsewhere other different

end TrippingRobot.Memleak
