import TrippingRobot.Memleak.Blocks

/-! A single request: what `get_memory` makes of the answers of `malloc`, up to the largest
`size_t`. -/

namespace TrippingRobot.Memleak

open TrippingRobot.Data

variable {platform : Platform}

/-- What `malloc` promises of a block of `extent` bytes at `ptr`. -/
structure Granted (requested ptr : BitVec platform.width) (extent : Nat) : Prop where
  aligned : ptr.toNat % platform.allocAlign = 0
  enough : requested.toNat ≤ extent
  top : ptr.toNat + extent ≤ 2 ^ platform.width

/-- The application's bytes lie in the block of the system. -/
def Inside (size pointer ptr : BitVec platform.width) (extent : Nat) : Prop :=
  ptr.toNat ≤ pointer.toNat ∧ pointer.toNat + size.toNat ≤ ptr.toNat + extent

/-- Two lists of records differ, but only in the record of one site, which is counted or comes in. -/
structure OneChanged {w : Nat} (site : Site) (size : BitVec w) (overalloc : Bool)
    (before after : List (AllocRecord w)) : Prop where
  split : ∃ first old last,
    before = first ++ (Option.toList old).map (fun tally => ⟨site, tally⟩) ++ last ∧
    after = first ++ ⟨site, Tally.pushed size overalloc old⟩ :: last ∧
    ∀ record ∈ first ++ last, record.toSite ≠ site
  changed : before ≠ after

/-- The site has a record, and that is dirty. -/
def Marked {w : Nat} (table : List (AllocRecord w)) (site : Site) : Prop :=
  ∃ record ∈ table, record.toSite = site ∧ record.dirty = true

/-- A request is refused without a trace, or as large as it was asked for and counted once.
It returns unless there is no memory for a new record. -/
structure Served (books : Bookkeeping platform) (maxTolerate : CInt) (site : Site)
    (size ptr : BitVec platform.width) (extent record : Nat) : Prop where
  refused : ∀ after, books.getMemory maxTolerate site size ptr record = .ok (after, 0) →
    after = books
  granted : ∀ after pointer,
    books.getMemory maxTolerate site size ptr record = .ok (after, pointer) → pointer ≠ 0 →
      Inside size pointer ptr extent ∧
        OneChanged site size (isOveralloc maxTolerate size) books.heap.table after.heap.table
  returns : record ≠ 0 →
    ∃ result, books.getMemory maxTolerate site size ptr record = .ok result

theorem Tally.count_ne {w : Nat} (tally : Tally w) {size : BitVec w} (nonzero : size ≠ 0)
    (overalloc : Bool) : tally.count size overalloc ≠ tally := by
  intro same
  have positive : 0 < size := by
    rw [BitVec.lt_def]
    have value : size.toNat ≠ 0 := fun zero => nonzero (BitVec.eq_of_toNat_eq (by simpa using zero))
    simpa using Nat.pos_of_ne_zero value
  have total := congrArg Tally.memTotal same
  simp only [Tally.count, if_pos positive] at total
  cases overalloc <;> simp_all

/-- A count leaves a tally as it is only where there is nothing to count and nothing to mark. -/
theorem Tally.count_eq_iff {w : Nat} (tally : Tally w) (size : BitVec w) (overalloc : Bool) :
    tally.count size overalloc = tally ↔ size = 0 ∧ tally.dirty = true := by
  constructor
  · intro same
    have zero : size = 0 := by
      by_contra nonzero
      exact tally.count_ne nonzero overalloc same
    subst zero
    exact ⟨rfl, (congrArg Tally.dirty same).symm.trans (by simp [Tally.count])⟩
  · rintro ⟨rfl, dirty⟩
    simp [Tally.count, ← dirty]

/-- A push touches the record of its site and no other, and leaves the list as it was only for a
size of zero at a record that is dirty already. -/
theorem RecordHeap.Pushed.oneChanged_iff {w : Nat} {heap later : RecordHeap w}
    {entries laterEntries : List (Entry w)} {size : BitVec w}
    (pushed : heap.Pushed entries site size overalloc later node laterEntries)
    (holds : heap.Holds entries) :
    OneChanged site size overalloc heap.table later.table ↔
      size ≠ 0 ∨ ¬ Marked heap.table site := by
  obtain ⟨first, old, last, rows, changed⟩ :=
    upsertRows_split site (Tally.pushed size overalloc) (rowsOf entries)
  let recordOf (row : Site × Tally w) : AllocRecord w := ⟨row.1, row.2⟩
  have before : heap.table = first.map recordOf ++
      (Option.toList old).map (fun tally => ⟨site, tally⟩) ++ last.map recordOf := by
    have table : heap.table = (rowsOf entries).map recordOf := holds.table_eq
    rw [table, rows]
    simp [recordOf, Function.comp_def]
  have after : later.table = first.map recordOf ++
      ⟨site, Tally.pushed size overalloc old⟩ :: last.map recordOf := by
    have table : later.table = (rowsOf laterEntries).map recordOf := pushed.holds.table_eq
    rw [table, pushed.rows, changed]
    simp [recordOf]
  have sorted := pushed.holds.sorted
  rw [pushed.rows, changed, List.pairwise_append, List.pairwise_cons] at sorted
  obtain ⟨_, ⟨above, _⟩, below⟩ := sorted
  have others : ∀ record ∈ first.map recordOf ++ last.map recordOf, record.toSite ≠ site := by
    intro record member
    rcases List.mem_append.mp member with early | late
    · obtain ⟨row, inside, rfl⟩ := List.mem_map.mp early
      exact (below row inside _ List.mem_cons_self).ne
    · obtain ⟨row, inside, rfl⟩ := List.mem_map.mp late
      exact (above row inside).ne'
  have marked : Marked heap.table site ↔ ∃ tally, old = some tally ∧ tally.dirty = true := by
    rw [Marked, before]
    constructor
    · rintro ⟨record, member, same, dirty⟩
      rw [List.append_assoc, List.mem_append, List.mem_append] at member
      rcases member with early | here | late
      · exact absurd same (others record (List.mem_append_left _ early))
      · obtain ⟨tally, known, rfl⟩ := List.mem_map.mp here
        exact ⟨tally, Option.mem_toList.mp known, dirty⟩
      · exact absurd same (others record (List.mem_append_right _ late))
    · rintro ⟨tally, rfl, dirty⟩
      exact ⟨⟨site, tally⟩, by simp, rfl, dirty⟩
  have differs : heap.table ≠ later.table ↔ size ≠ 0 ∨ ¬ Marked heap.table site := by
    rw [marked, before, after, List.append_assoc, Ne, List.append_cancel_left_eq]
    cases old with
    | none =>
      refine iff_of_true (fun same => ?_) (.inr (by simp))
      have lengths := congrArg List.length same
      simp at lengths
    | some tally =>
      have pushes : Tally.pushed size overalloc (some tally) = tally.count size overalloc := rfl
      have unchanged := tally.count_eq_iff size overalloc
      simp only [Option.toList_some, List.map_singleton, List.singleton_append, List.cons.injEq,
        and_true, AllocRecord.mk.injEq, true_and, pushes, Option.some.injEq, exists_eq_left']
      rw [eq_comm, unchanged, not_and_or]
  exact ⟨fun one => differs.mp one.changed,
    fun condition => ⟨⟨_, old, _, before, after, others⟩, differs.mpr condition⟩⟩

/-- The bytes behind the piggyback are in the block exactly if the sum did not wrap. -/
theorem inside_iff {size ptr : BitVec platform.width} {extent : Nat}
    (nonnull : ptr ≠ 0) (given : Granted (mallocSize size) ptr extent) :
    Inside size (ptr + .ofNat _ piggybackSize) ptr extent ↔
      piggybackSize + size.toNat < 2 ^ platform.width := by
  obtain ⟨aligned, enough, top⟩ := given
  have small : piggybackSize < 2 ^ platform.width := by cases platform <;> decide
  have bound := ptr.isLt
  have positive : ptr.toNat ≠ 0 :=
    fun zero => nonnull (BitVec.eq_of_toNat_eq (by simpa using zero))
  have sum : (ptr + .ofNat _ piggybackSize).toNat =
      (ptr.toNat + piggybackSize) % 2 ^ platform.width := by
    rw [BitVec.toNat_add, BitVec.toNat_ofNat, Nat.mod_eq_of_lt small]
  by_cases below : ptr.toNat + piggybackSize < 2 ^ platform.width
  · rw [Nat.mod_eq_of_lt below] at sum
    simp only [Inside, sum]
    constructor
    · rintro ⟨_, within⟩
      by_contra wraps
      omega
    · intro fits
      rw [mallocSize_of_fits fits] at enough
      omega
  · -- the pointer itself wraps, to an address in front of the block
    have wrapped : (ptr.toNat + piggybackSize) % 2 ^ platform.width =
        ptr.toNat + piggybackSize - 2 ^ platform.width := by
      rw [Nat.mod_eq_sub_mod (by omega), Nat.mod_eq_of_lt (by omega)]
    have nonzero : (ptr + .ofNat _ piggybackSize).toNat ≠ 0 :=
      fun zero => pointer_ne_zero aligned (BitVec.eq_of_toNat_eq (by simpa using zero))
    rw [sum, wrapped] at nonzero
    simp only [Inside, sum, wrapped]
    constructor
    · rintro ⟨above, _⟩
      omega
    · intro fits
      rw [mallocSize_of_fits fits] at enough
      omega

theorem getMemory_granted {books : Bookkeeping platform} {entries : List (Entry platform.width)}
    {size ptr : BitVec platform.width} (holds : books.heap.Holds entries) (nonnull : ptr ≠ 0)
    (room : (∃ entry ∈ entries, entry.2.toSite = site) ∨ books.heap.Fresh record)
    (maxTolerate : CInt) :
    ∃ after, books.getMemory maxTolerate site size ptr record =
        .ok (after, ptr + .ofNat _ piggybackSize) ∧
      (OneChanged site size (isOveralloc maxTolerate size) books.heap.table after.heap.table ↔
        size ≠ 0 ∨ ¬ Marked books.heap.table site) := by
  obtain ⟨later, node, laterEntries, returned, pushed⟩ :=
    holds.listPushRecord_of room size (isOveralloc maxTolerate size)
  let headed := (books.memory.storeLE ptr.toNat platform.wordBytes node).storeLE
    (ptr.toNat + platform.wordBytes) platform.wordBytes size.toNat
  refine ⟨⟨later, headed⟩, ?_, pushed.oneChanged_iff holds⟩
  simp only [Bookkeeping.getMemory, if_neg nonnull, returned, headed]

theorem served_of_refused (books : Bookkeeping platform) (maxTolerate : CInt) (site : Site)
    (size : BitVec platform.width) (extent record : Nat) :
    Served books maxTolerate site size 0 extent record := by
  have refused : books.getMemory maxTolerate site size 0 record = .ok (books, 0) := if_pos rfl
  refine ⟨?_, ?_, fun _ => ⟨_, refused⟩⟩
  · intro after returned
    rw [refused] at returned
    cases returned
    rfl
  · intro after pointer returned nonzero
    rw [refused] at returned
    cases returned
    exact absurd rfl nonzero

theorem served_of_exit {books : Bookkeeping platform} {entries : List (Entry platform.width)}
    {size ptr : BitVec platform.width} (holds : books.heap.Holds entries) (nonnull : ptr ≠ 0)
    (unknown : ∀ entry ∈ entries, entry.2.toSite ≠ site) (maxTolerate : CInt) (extent : Nat) :
    Served books maxTolerate site size ptr extent 0 := by
  have stops : books.getMemory maxTolerate site size ptr 0 = .error .exit := by
    simp only [Bookkeeping.getMemory, if_neg nonnull, holds.listPushRecord_exit unknown]
  refine ⟨?_, ?_, fun memory => absurd rfl memory⟩
  · intro after returned
    rw [stops] at returned
    cases returned
  · intro after pointer returned
    rw [stops] at returned
    cases returned

/-- A granted request is served exactly if its size and the piggyback's do not wrap and it leaves
a mark. -/
theorem served_of_granted_iff {books : Bookkeeping platform}
    {entries : List (Entry platform.width)} {size ptr : BitVec platform.width} {extent : Nat}
    (holds : books.heap.Holds entries) (nonnull : ptr ≠ 0)
    (given : Granted (mallocSize size) ptr extent)
    (room : (∃ entry ∈ entries, entry.2.toSite = site) ∨ books.heap.Fresh record)
    (maxTolerate : CInt) :
    Served books maxTolerate site size ptr extent record ↔
      piggybackSize + size.toNat < 2 ^ platform.width ∧
        (size ≠ 0 ∨ ¬ Marked books.heap.table site) := by
  obtain ⟨after, returned, changed⟩ := getMemory_granted holds nonnull room maxTolerate
  have pointer := pointer_ne_zero given.aligned
  have inside := inside_iff nonnull given
  constructor
  · intro served
    obtain ⟨within, one⟩ := served.granted _ _ returned pointer
    exact ⟨inside.mp within, changed.mp one⟩
  · rintro ⟨fits, shown⟩
    refine ⟨?_, ?_, fun _ => ⟨_, returned⟩⟩
    · intro other same
      rw [returned] at same
      exact absurd (Prod.ext_iff.mp (Except.ok.inj same)).2 pointer
    · intro other given same _
      rw [returned] at same
      cases same
      exact ⟨inside.mpr fits, changed.mpr shown⟩

/-- A request is served as it should be exactly if `malloc` refuses it, or `PIGGYBACK_SIZE + size`
does not wrap around and the list shows it, or the program ends for want of a new record. -/
theorem served_iff {books : Bookkeeping platform} {entries : List (Entry platform.width)}
    {size ptr : BitVec platform.width} {extent : Nat} (holds : books.heap.Holds entries)
    (block : ptr = 0 ∨ Granted (mallocSize size) ptr extent)
    (memory : record = 0 ∨ books.heap.Fresh record) (maxTolerate : CInt) (site : Site) :
    Served books maxTolerate site size ptr extent record ↔
      ptr = 0 ∨
        piggybackSize + size.toNat < 2 ^ platform.width ∧
          (size ≠ 0 ∨ ¬ Marked books.heap.table site) ∨
        record = 0 ∧ ∀ entry ∈ entries, entry.2.toSite ≠ site := by
  by_cases null : ptr = 0
  · subst null
    exact iff_of_true (served_of_refused books maxTolerate site size extent record) (.inl rfl)
  · have given := block.resolve_left null
    by_cases ends : record = 0 ∧ ∀ entry ∈ entries, entry.2.toSite ≠ site
    · obtain ⟨rfl, unknown⟩ := ends
      exact iff_of_true (served_of_exit holds null unknown maxTolerate extent)
        (.inr (.inr ⟨rfl, unknown⟩))
    · have room : (∃ entry ∈ entries, entry.2.toSite = site) ∨ books.heap.Fresh record := by
        rcases memory with rfl | fresh
        · left
          by_contra none
          exact ends ⟨rfl, fun entry member same => none ⟨entry, member, same⟩⟩
        · exact .inr fresh
      rw [served_of_granted_iff holds null given room maxTolerate]
      simp only [null, ends, false_or, or_false]

/-- No records yet. -/
def unusedBooks : Bookkeeping .x86_64 := ⟨.initial _ 1, fun _ => 0⟩

def firstSite : Site := ⟨⟨[115], by decide⟩, 7⟩

private theorem unusedBooks_granted (size : BitVec Platform.x86_64.width) :
    ∃ after, unusedBooks.getMemory 0 firstSite size 1024 4096 = .ok (after, 1036) := by
  have fresh : unusedBooks.heap.Fresh 4096 := by decide
  have nonnull : (1024 : BitVec Platform.x86_64.width) ≠ 0 := by decide
  obtain ⟨after, returned, _⟩ := getMemory_granted (.initial 1) nonnull (.inr fresh) 0
  exact ⟨after, returned⟩

/-- A request for 16 bytes, in a block of 32. -/
theorem served_sixteen :
    Served unusedBooks 0 firstSite 16 1024 32 4096 ∧
      ∃ after, unusedBooks.getMemory 0 firstSite 16 1024 4096 = .ok (after, 1036) := by
  have given : Granted (mallocSize (16 : BitVec Platform.x86_64.width)) 1024 32 :=
    ⟨by decide, by decide, by decide⟩
  have fresh : unusedBooks.heap.Fresh 4096 := by decide
  refine ⟨(served_iff (.initial 1) (.inr given) (.inr fresh) 0 firstSite).mpr ?_,
    unusedBooks_granted 16⟩
  exact .inr (.inl ⟨by decide, .inl (by decide)⟩)

/-- The largest `size_t`. -/
def sizeMax : BitVec Platform.x86_64.width := .allOnes _

/-- A request for as many bytes asks `malloc` for 11, and is granted with them. -/
theorem sizeMax_granted :
    Granted (mallocSize sizeMax) 1024 16 ∧
      (∃ after, unusedBooks.getMemory 0 firstSite sizeMax 1024 4096 = .ok (after, 1036)) ∧
      ¬ Served unusedBooks 0 firstSite sizeMax 1024 16 4096 := by
  obtain ⟨after, returned⟩ := unusedBooks_granted sizeMax
  refine ⟨⟨by decide, by decide, by decide⟩, ⟨after, returned⟩, ?_⟩
  intro served
  have inside := (served.granted after 1036 returned (by decide)).1
  exact absurd inside.2 (by decide)

end TrippingRobot.Memleak
