import TrippingRobot.Memleak.Delta

/-! Threads that allocate, register and free, each operation under the lock.
The table sums what the operations add to their sites, in whatever order. -/

namespace TrippingRobot.Memleak

open TrippingRobot.Data TrippingRobot.Machine

variable {w : Nat}

/-- An operation of some thread; blocks are named. -/
inductive Operation (w : Nat) where
  | alloc (block : Nat) (site : Site) (size : BitVec w)
  | register (site : Site)
  | free (block : Nat)
deriving DecidableEq

/-- The block an operation allocates. -/
def Operation.allocates : Operation w → Option Nat
  | .alloc block _ _ => some block
  | .register _ => none
  | .free _ => none

structure Turn (w : Nat) where
  operation : Operation w
  answer : Nat

structure Schedule (w : Nat) where
  heap : RecordHeap w
  block : Nat → Option (Nat × BitVec w)
  stopped : Option Stop

def Schedule.initial (w : Nat) (allocList : Nat) : Schedule w where
  heap := .initial w allocList
  block := fun _ => none
  stopped := none

def Schedule.next (maxTolerate : CInt) (state : Schedule w) (turn : Turn w) : Schedule w :=
  match turn.operation with
  | .alloc block site size =>
    match state.heap.listPushRecord site size (isOveralloc maxTolerate size) turn.answer with
    | .error stop => { state with stopped := some stop }
    | .ok (heap, node) =>
      { state with heap := heap, block := Function.update state.block block (some (node, size)) }
  | .register site =>
    match state.heap.listPushRecord site 0 false turn.answer with
    | .error stop => { state with stopped := some stop }
    | .ok (heap, _) => { state with heap := heap }
  | .free block =>
    match state.block block with
    | none => { state with stopped := some .fault }
    | some (node, size) =>
      match state.heap.releaseRecord node size with
      | .error stop => { state with stopped := some stop }
      | .ok heap => { state with heap := heap, block := Function.update state.block block none }

/-- A block is freed after its allocation. -/
def scheduleSystem (w : Nat) (maxTolerate : CInt) : System (Schedule w) (Turn w) where
  enabled state turn :=
    state.heap.Fresh turn.answer ∧
      match turn.operation with
      | .free block => (state.block block).isSome
      | _ => True
  next state turn := state.next maxTolerate turn

instance (maxTolerate : CInt) (state : Schedule w) (turn : Turn w) :
    Decidable ((scheduleSystem w maxTolerate).enabled state turn) :=
  match turn with
  | ⟨.free block, answer⟩ =>
    inferInstanceAs (Decidable (state.heap.Fresh answer ∧ (state.block block).isSome))
  | ⟨.alloc _ _ _, answer⟩ | ⟨.register _, answer⟩ =>
    inferInstanceAs (Decidable (state.heap.Fresh answer ∧ True))

/-- The site an operation is about, and what it adds there, when `owner` tells
for which site and with which size each block was requested. -/
def Operation.change (maxTolerate : CInt) (owner : Nat → Site × BitVec w) :
    Operation w → Site × Delta w
  | .alloc _ site size => (site, .request size (isOveralloc maxTolerate size))
  | .register site => (site, .request 0 false)
  | .free block => ((owner block).1, .release (owner block).2)

/-- The owners that the allocations among some operations name. -/
def Owns (owner : Nat → Site × BitVec w) (operations : List (Operation w)) : Prop :=
  ∀ block site size, .alloc block site size ∈ operations → owner block = (site, size)

theorem exists_owns (operations : List (Operation w))
    (distinct : (operations.filterMap Operation.allocates).Nodup) :
    ∃ owner, Owns owner operations := by
  induction operations with
  | nil => exact ⟨fun _ => (⟨⟨[], by simp⟩, 0⟩, 0), by simp [Owns]⟩
  | cons operation rest ih =>
    cases operation with
    | alloc block site size =>
      have ⟨absent, distinct⟩ : block ∉ rest.filterMap Operation.allocates ∧ _ :=
        List.nodup_cons.mp distinct
      obtain ⟨owner, owns⟩ := ih distinct
      refine ⟨Function.update owner block (site, size), ?_⟩
      intro other otherSite otherSize member
      rcases List.mem_cons.mp member with same | later
      · cases same
        simp
      · have different : other ≠ block := by
          rintro rfl
          exact absent (List.mem_filterMap.mpr ⟨.alloc other otherSite otherSize, later, rfl⟩)
        rw [Function.update_of_ne different]
        exact owns other otherSite otherSize later
    | register site =>
      obtain ⟨owner, owns⟩ := ih distinct
      exact ⟨owner, by simpa [Owns] using owns⟩
    | free block =>
      obtain ⟨owner, owns⟩ := ih distinct
      exact ⟨owner, by simpa [Owns] using owns⟩

structure Schedule.Follows (owner : Nat → Site × BitVec w) (state : Schedule w)
    (entries : List (Entry w)) : Prop where
  holds : state.heap.Holds entries
  running : state.stopped = none
  headers : ∀ block node size, state.block block = some (node, size) →
    size = (owner block).2 ∧ (node, (owner block).1) ∈ placesOf entries

namespace Schedule

variable {state : Schedule w} {entries : List (Entry w)} {owner : Nat → Site × BitVec w}
  {maxTolerate : CInt} {turn : Turn w}

theorem Follows.next (follows : state.Follows owner entries)
    (enabled : (scheduleSystem w maxTolerate).enabled state turn)
    (owns : ∀ block site size, turn.operation = .alloc block site size → owner block = (site, size)) :
    ∃ later, ((scheduleSystem w maxTolerate).next state turn).Follows owner later ∧
      rowsOf later = upsertRows (turn.operation.change maxTolerate owner).1
        (turn.operation.change maxTolerate owner).2.put (rowsOf entries) := by
  obtain ⟨operation, answer⟩ := turn
  obtain ⟨fresh, possible⟩ := enabled
  cases operation with
  | alloc block site size =>
    obtain ⟨heap, node, later, returned, adds, mine⟩ :=
      follows.holds.request fresh site size maxTolerate
    have owned := owns block site size rfl
    refine ⟨later, ?_, adds.rows⟩
    simp only [scheduleSystem, Schedule.next, returned]
    refine ⟨adds.holds, follows.running, ?_⟩
    intro other otherNode otherSize header
    simp only [Function.update_apply] at header
    split at header
    · rename_i same
      cases header
      rw [same, owned]
      exact ⟨rfl, mine⟩
    · have kept := follows.headers other otherNode otherSize header
      exact ⟨kept.1, adds.kept.subset kept.2⟩
  | register site =>
    obtain ⟨heap, node, later, returned, adds, mine⟩ := follows.holds.register fresh site
    refine ⟨later, ?_, adds.rows⟩
    simp only [scheduleSystem, Schedule.next, returned]
    refine ⟨adds.holds, follows.running, ?_⟩
    intro other otherNode otherSize header
    have kept := follows.headers other otherNode otherSize header
    exact ⟨kept.1, adds.kept.subset kept.2⟩
  | free block =>
    obtain ⟨⟨node, size⟩, header⟩ := Option.isSome_iff_exists.mp possible
    obtain ⟨rfl, place⟩ := follows.headers block node size header
    obtain ⟨heap, later, returned, adds, places⟩ := follows.holds.release place (owner block).2
    refine ⟨later, ?_, adds.rows⟩
    simp only [scheduleSystem, Schedule.next, header, returned]
    refine ⟨adds.holds, follows.running, ?_⟩
    intro other otherNode otherSize otherHeader
    simp only [Function.update_apply] at otherHeader
    split at otherHeader
    · cases otherHeader
    · have kept := follows.headers other otherNode otherSize otherHeader
      exact ⟨kept.1, adds.kept.subset kept.2⟩

/-- The table after some operations, each adding to its site in turn. -/
def sumTable (maxTolerate : CInt) (owner : Nat → Site × BitVec w)
    (table : SortedTable Site (Tally w)) (operations : List (Operation w)) :
    SortedTable Site (Tally w) :=
  operations.foldl
    (fun table operation => table.upsert (operation.change maxTolerate owner).1
      (operation.change maxTolerate owner).2.put) table

theorem Follows.exec (follows : state.Follows owner entries)
    (legal : (scheduleSystem w maxTolerate).Legal state turns)
    (owns : Owns owner (turns.map Turn.operation)) :
    ∃ later, ∃ final : ((scheduleSystem w maxTolerate).exec state turns).Follows owner later,
      final.holds.toTable =
        sumTable maxTolerate owner follows.holds.toTable (turns.map Turn.operation) := by
  induction turns generalizing state entries with
  | nil => exact ⟨entries, follows, rfl⟩
  | cons turn rest ih =>
    obtain ⟨later, next, rows⟩ := follows.next legal.1
      fun block site size same => owns block site size (by simp [same])
    obtain ⟨last, final, table⟩ := ih next legal.2
      fun block site size member => owns block site size (List.mem_cons_of_mem _ member)
    refine ⟨last, final, table.trans ?_⟩
    have step : next.holds.toTable = follows.holds.toTable.upsert
        (turn.operation.change maxTolerate owner).1
        (turn.operation.change maxTolerate owner).2.put := SortedTable.ext rows
    rw [step]
    rfl

theorem sumTable_perm (same : first.Perm second) (table : SortedTable Site (Tally w)) :
    sumTable maxTolerate owner table first = sumTable maxTolerate owner table second := by
  apply SortedTable.foldl_upsert_perm same (fun operation => (operation.change maxTolerate owner).1)
    (fun operation => (operation.change maxTolerate owner).2.put)
  intro one two old
  exact Delta.put_comm _ _ old

end Schedule

/-- Two orders of the same operations end with the same list of records. Where
the records are may differ. -/
theorem table_orderIndependent (maxTolerate : CInt) (allocList : Nat) (first second : List (Turn w))
    (firstLegal : (scheduleSystem w maxTolerate).Legal (.initial w allocList) first)
    (secondLegal : (scheduleSystem w maxTolerate).Legal (.initial w allocList) second)
    (same : (first.map Turn.operation).Perm (second.map Turn.operation))
    (distinct : ((first.map Turn.operation).filterMap Operation.allocates).Nodup) :
    ((scheduleSystem w maxTolerate).exec (.initial w allocList) first).heap.table =
      ((scheduleSystem w maxTolerate).exec (.initial w allocList) second).heap.table := by
  obtain ⟨owner, owns⟩ := exists_owns _ distinct
  have start : (Schedule.initial w allocList).Follows owner [] :=
    ⟨.initial allocList, rfl, by simp [Schedule.initial]⟩
  obtain ⟨firstEntries, firstFinal, firstTable⟩ := start.exec firstLegal owns
  obtain ⟨secondEntries, secondFinal, secondTable⟩ := start.exec secondLegal
    fun block site size member => owns block site size (same.mem_iff.mpr member)
  have tables : firstFinal.holds.toTable = secondFinal.holds.toTable := by
    rw [firstTable, secondTable]
    exact Schedule.sumTable_perm same _
  rw [firstFinal.holds.table_eq, secondFinal.holds.table_eq]
  exact congrArg (fun table => table.rows.map fun row => (⟨row.1, row.2⟩ : AllocRecord w)) tables

/-- One thread allocates and frees a block, another registers its site first or last. -/
theorem table_orderIndependent_two :
    let site : Site := ⟨⟨[97], by decide⟩, 7⟩
    let other : Site := ⟨⟨[97], by decide⟩, 3⟩
    ((scheduleSystem 32 10).exec (.initial 32 1)
      [⟨.alloc 0 site 16, 100⟩, ⟨.free 0, 200⟩, ⟨.register other, 300⟩,
        ⟨.register site, 400⟩]).heap.table =
    ((scheduleSystem 32 10).exec (.initial 32 1)
      [⟨.register site, 600⟩, ⟨.register other, 500⟩, ⟨.alloc 0 site 16, 100⟩,
        ⟨.free 0, 200⟩]).heap.table := by
  intro site other
  exact table_orderIndependent 10 1 _ _ (by decide) (by decide) (by decide) (by decide)

end TrippingRobot.Memleak
