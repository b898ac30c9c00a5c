import TrippingRobot.Memleak.Delta
import TrippingRobot.Memleak.Races

/-! The list after calls of several threads: whatever the interleaving it sums what the calls add
to their sites, so the next report does not tell one interleaving from another. -/

namespace TrippingRobot.Memleak

open TrippingRobot.Data TrippingRobot.Machine

variable {w : Nat}

/-! ## Sums of calls -/

/-- A tally apart from whether it was reported. -/
def Tally.touched (tally : Tally w) : Tally w := { tally with dirty := true }

theorem Delta.put_touched (delta : Delta w) (old : Option (Tally w)) :
    (delta.put old).touched = delta.put (old.map Tally.touched) := by
  cases old with
  | none => rfl
  | some tally => rfl

theorem Tally.reported_touched (flags : CInt) (tally : Tally w) :
    (tally.reported flags).touched = tally.touched := by
  rw [Tally.reported]
  split
  · rfl
  · rfl

/-- What a call adds to the list, and at which site; `siteAt` tells the sites of the records. -/
def LockedCall.adds (siteAt : Nat → Option Site) (served : LockedCall w) :
    Option (Site × Delta w) :=
  match served.task with
  | .push site size overalloc => some (site, .request size overalloc)
  | .release node size => (siteAt node).map fun site => (site, .release size)
  | .report _ | .exit => none

def addTo (table : SortedTable Site (Tally w)) (change : Site × Delta w) :
    SortedTable Site (Tally w) := table.upsert change.1 change.2.put

/-- The table of some changes. -/
def sumOf (changes : List (Site × Delta w)) : SortedTable Site (Tally w) :=
  changes.foldl addTo ⟨[], .nil⟩

theorem sumOf_perm {first second : List (Site × Delta w)} (same : first.Perm second) :
    sumOf first = sumOf second :=
  SortedTable.foldl_upsert_perm same Prod.fst (fun change => change.2.put)
    (fun one two old => Delta.put_comm one.2 two.2 old) _

theorem sumOf_append (changes : List (Site × Delta w)) (last : Option (Site × Delta w)) :
    sumOf (changes ++ last.toList) = last.toList.foldl addTo (sumOf changes) :=
  List.foldl_append

/-- What the calls of a run add, at the sites that the records have in the end. -/
def Threads.changes (state : Threads w) : List (Site × Delta w) :=
  state.served.filterMap (LockedCall.adds state.heap.siteAt)

/-- Only a request for memory is marked as one above the tolerance. -/
def Task.Tolerated : Task w → Prop
  | .push _ size overalloc => ∃ maxTolerate, overalloc = isOveralloc maxTolerate size
  | _ => True

/-! ## One call -/

variable {start base later : RecordHeap w} {state : Threads w} {entries laterEntries : List (Entry w)}

theorem RecordHeap.Holds.toTable_unique (first : base.Holds entries) (second : base.Holds laterEntries) :
    first.toTable = second.toTable := by
  have same := first.table_eq.symm.trans second.table_eq
  have injective : Function.Injective fun row : Site × Tally w => (⟨row.1, row.2⟩ : AllocRecord w) := by
    intro row other equal
    simp only [AllocRecord.mk.injEq] at equal
    exact Prod.ext equal.1 equal.2
  exact SortedTable.ext (List.map_injective_iff.mpr injective same)

theorem RecordHeap.Holds.siteAt_kept (holds : base.Holds entries) (laterHolds : later.Holds laterEntries)
    (kept : (placesOf entries).Sublist (placesOf laterEntries)) (created : node ∈ base.created) :
    later.siteAt node = base.siteAt node := by
  obtain ⟨site, place⟩ := holds.place_of_created created
  rw [holds.siteAt_of_place place, laterHolds.siteAt_of_place (kept.subset place)]

structure LockedCall.Sums (served : LockedCall w) (holds : base.Holds entries)
    (laterHolds : later.Holds laterEntries) : Prop where
  table : laterHolds.toTable.mapValues Tally.touched =
    (served.adds later.siteAt).toList.foldl addTo (holds.toTable.mapValues Tally.touched)
  kept : (placesOf entries).Sublist (placesOf laterEntries)

theorem LockedCall.Sums.of_upsert {served : LockedCall w} {holds : base.Holds entries}
    {laterHolds : later.Holds laterEntries} (delta : Delta w)
    (adds : served.adds later.siteAt = some (site, delta))
    (rows : rowsOf laterEntries = upsertRows site delta.put (rowsOf entries))
    (kept : (placesOf entries).Sublist (placesOf laterEntries)) : served.Sums holds laterHolds where
  table := by
    have table : laterHolds.toTable = holds.toTable.upsert site delta.put := SortedTable.ext rows
    rw [table, SortedTable.mapValues_upsert delta.put_touched, adds]
    rfl
  kept := kept

theorem LockedCall.Ends.sums {served : LockedCall w} {thread : Nat}
    (ends : served.Ends thread base later) (holds : base.Holds entries)
    (tolerated : served.task.Tolerated) :
    ∃ (laterEntries : List (Entry w)) (laterHolds : later.Holds laterEntries),
      served.Sums holds laterHolds := by
  cases ends.did with
  | push site size overalloc node task outcome ran =>
    rw [task] at tolerated
    obtain ⟨maxTolerate, rfl⟩ := tolerated
    have amount : Tally.pushed size (isOveralloc maxTolerate size) =
      (Delta.request size (isOveralloc maxTolerate size)).put :=
      funext (Tally.pushed_eq_put pos_of_isOveralloc)
    obtain ⟨_, _, laterEntries, returned, result⟩ :=
      holds.listPushRecord_of (holds.room ends.fresh ran) size (isOveralloc maxTolerate size)
    obtain ⟨rfl, rfl⟩ := Prod.mk.inj (Except.ok.inj (returned.symm.trans ran))
    exact ⟨laterEntries, result.holds, .of_upsert (.request size (isOveralloc maxTolerate size))
      (by simp [LockedCall.adds, task]) (amount ▸ result.rows) result.kept⟩
  | release node size task outcome ran =>
    obtain ⟨site, place⟩ := holds.place_of_created (ends.known node size task)
    obtain ⟨_, laterEntries, returned, adds, places⟩ := holds.release place size
    obtain rfl := Except.ok.inj (returned.symm.trans ran)
    have siteAt := adds.holds.siteAt_of_place (places.symm ▸ place)
    exact ⟨laterEntries, adds.holds, .of_upsert (.release size)
      (by simp [LockedCall.adds, task, siteAt]) adds.rows adds.kept⟩
  | report flags lines task outcome ran =>
    obtain ⟨_, laterEntries, returned, laterHolds, rows, places, _⟩ := holds.memleakReport flags
    obtain ⟨rfl, rfl⟩ := Prod.mk.inj (Except.ok.inj (returned.symm.trans ran))
    have table : laterHolds.toTable = holds.toTable.mapValues (Tally.reported flags) :=
      SortedTable.ext rows
    have same : Tally.touched ∘ Tally.reported flags = Tally.touched (w := w) :=
      funext (Tally.reported_touched flags)
    refine ⟨laterEntries, laterHolds, ?_, places ▸ .refl _⟩
    rw [table, SortedTable.mapValues_mapValues, same]
    simp [LockedCall.adds, task]
  | exit calls task outcome same =>
    subst same
    exact ⟨entries, holds, by simp [LockedCall.adds, task], .refl _⟩

/-! ## Whole runs -/

/-- The list between the calls is the sum of the calls so far, the dirty flags apart. -/
structure RecordHeap.SumsUp (base : RecordHeap w) (calls : List (LockedCall w)) : Prop where
  table : ∀ (entries : List (Entry w)) (holds : base.Holds entries),
    holds.toTable.mapValues Tally.touched = sumOf (calls.filterMap (LockedCall.adds base.siteAt))
  known : ∀ served ∈ calls, ∀ node size, served.task = .release node size → node ∈ base.created

/-- The calls so far add what they added when they had their turns. -/
theorem RecordHeap.SumsUp.adds_kept {calls : List (LockedCall w)} (sumsUp : base.SumsUp calls)
    (kept : ∀ node ∈ base.created, later.siteAt node = base.siteAt node) :
    calls.filterMap (LockedCall.adds later.siteAt) =
      calls.filterMap (LockedCall.adds base.siteAt) := by
  refine List.filterMap_congr fun served member => ?_
  cases task : served.task with
  | push site size overalloc => simp [LockedCall.adds, task]
  | release node size =>
    have same := kept node (sumsUp.known served member node size task)
    simp [LockedCall.adds, task, same]
  | report flags => simp [LockedCall.adds, task]
  | exit => simp [LockedCall.adds, task]

theorem RecordHeap.SumsUp.add {calls : List (LockedCall w)} {served : LockedCall w} {thread : Nat}
    (sumsUp : base.SumsUp calls) (holds : base.Holds entries)
    (ends : served.Ends thread base later) (tolerated : served.task.Tolerated) :
    later.SumsUp (calls ++ [served]) := by
  obtain ⟨laterEntries, laterHolds, sums⟩ := ends.sums holds tolerated
  have siteAt (node : Nat) (created : node ∈ base.created) : later.siteAt node = base.siteAt node :=
    holds.siteAt_kept laterHolds sums.kept created
  constructor
  · intro entries other
    have last : [served].filterMap (LockedCall.adds later.siteAt) =
        (served.adds later.siteAt).toList := by
      cases adds : served.adds later.siteAt with
      | none => simp [adds]
      | some change => simp [adds]
    rw [other.toTable_unique laterHolds, sums.table, sumsUp.table _ holds, List.filterMap_append,
      sumsUp.adds_kept siteAt, last, sumOf_append]
  · intro call member node size task
    rcases List.mem_append.mp member with old | new
    · exact holds.created_kept laterHolds sums.kept (sumsUp.known call old node size task)
    · rw [List.mem_singleton.mp new] at task
      exact holds.created_kept laterHolds sums.kept (ends.known node size task)

theorem Threads.mem_callsOf {served : LockedCall w} (member : served ∈ state.served) :
    served.task ∈ state.callsOf served.thread :=
  List.mem_append_left _ (List.mem_map_of_mem (List.mem_filter.mpr ⟨member, decide_eq_true rfl⟩))

theorem Threads.Serial.sumsUp (serial : state.Serial start base entries)
    (sumsUp : base.SumsUp state.served)
    (begun : ∀ thread, ∀ task ∈ state.callsOf thread, task.Tolerated)
    (tolerated : ∀ thread task, .call thread task ∈ actions → task.Tolerated)
    (legal : (threadSystem w).Legal state actions) :
    ∃ later laterEntries, ((threadSystem w).exec state actions).Serial start later laterEntries ∧
      later.SumsUp ((threadSystem w).exec state actions).served := by
  induction actions generalizing state base entries with
  | nil => exact ⟨base, entries, serial, sumsUp⟩
  | cons action rest ih =>
    obtain ⟨⟨later, laterEntries, next, turn⟩, calls⟩ := serial.next legal.1
    have all (thread : Nat) :
        ∀ task ∈ ((threadSystem w).next state action).callsOf thread, task.Tolerated := by
      intro task member
      rw [calls thread] at member
      rcases List.mem_append.mp member with old | new
      · exact begun thread task old
      · cases action with
        | step caller answer => cases new
        | call caller asked =>
          by_cases same : caller = thread
          · rw [ThreadAction.callOf, if_pos same] at new
            exact tolerated caller task (by simp [List.mem_singleton.mp new])
          · rw [ThreadAction.callOf, if_neg same] at new
            cases new
    refine ih next ?_ all (fun thread task member => tolerated thread task
      (List.mem_cons_of_mem _ member)) legal.2
    rcases turn with ⟨rfl, served⟩ | ⟨thread, served, ends, turns⟩
    · exact served.symm ▸ sumsUp
    · have mine : served ∈ ((threadSystem w).next state action).served := by simp [turns]
      exact turns.symm ▸ sumsUp.add serial.follows.holds ends
        (all served.thread served.task (Threads.mem_callsOf mine))

/-- Between the calls the list is the sum of what they add, the dirty flags apart. -/
theorem Threads.table_of_calls (allocList : Nat)
    (legal : (threadSystem w).Legal (.initial w allocList) actions)
    (tolerated : ∀ thread task, .call thread task ∈ actions → task.Tolerated)
    (free : ((threadSystem w).exec (.initial w allocList) actions).holder = none) :
    let state := (threadSystem w).exec (.initial w allocList) actions
    ∃ (entries : List (Entry w)) (holds : state.heap.Holds entries),
      holds.toTable.mapValues Tally.touched = sumOf state.changes := by
  intro state
  have nothing : (RecordHeap.initial w allocList).SumsUp [] := by
    refine ⟨fun entries holds => ?_, nofun⟩
    rw [holds.toTable_unique (.initial allocList)]
    rfl
  obtain ⟨base, entries, serial, sumsUp⟩ :=
    (Threads.Serial.initial allocList).sumsUp nothing (fun _ _ => nofun) tolerated legal
  obtain rfl : base = state.heap := (serial.follows.free free).symm
  exact ⟨entries, serial.follows.holds, sumsUp.table entries serial.follows.holds⟩

/-! ## The next report -/

theorem reportLines_touched (all : flags &&& memlOnlyChanged = 0)
    (table : SortedTable Site (Tally w)) :
    reportLines flags (table.mapValues Tally.touched).rows = reportLines flags table.rows := by
  have skipped (tally : Tally w) : tally.touched.skipped flags = tally.skipped flags := by
    simp [Tally.skipped, Tally.touched, all]
  simp only [reportLines, SortedTable.mapValues, List.filter_map, List.map_map, Function.comp_def,
    skipped]
  rfl

/-- The rows of the report at exit. -/
def uncleanRows (table : SortedTable Site (Tally w)) : List Unclean :=
  table.rows.map fun row => ⟨row.1, row.2.cnt, row.2.overallocations⟩

theorem uncleanRows_touched (table : SortedTable Site (Tally w)) :
    uncleanRows (table.mapValues Tally.touched) = uncleanRows table := by
  simp only [uncleanRows, SortedTable.mapValues, List.map_map, Function.comp_def]
  rfl

theorem RecordHeap.Holds.unclean_eq (holds : base.Holds entries) :
    base.table.map AllocRecord.unclean = uncleanRows holds.toTable := by
  rw [holds.table_eq, List.map_map]
  rfl

/-- No report tells one interleaving from another. When the calls of two runs add the same, in
whatever order, by whichever threads and with whatever reports in between, then afterwards
`memleak_report` prints the same lines in both, and so does `~RecordExitChecker`. -/
theorem reports_interleavingIndependent (allocList : Nat) {first second : List (ThreadAction w)}
    (firstLegal : (threadSystem w).Legal (.initial w allocList) first)
    (secondLegal : (threadSystem w).Legal (.initial w allocList) second)
    (tolerated : ∀ thread task, .call thread task ∈ first ++ second → task.Tolerated)
    (firstFree : ((threadSystem w).exec (.initial w allocList) first).holder = none)
    (secondFree : ((threadSystem w).exec (.initial w allocList) second).holder = none)
    (same : ((threadSystem w).exec (.initial w allocList) first).changes.Perm
      ((threadSystem w).exec (.initial w allocList) second).changes) :
    let one := ((threadSystem w).exec (.initial w allocList) first).heap
    let two := ((threadSystem w).exec (.initial w allocList) second).heap
    one.recordExitChecker = two.recordExitChecker ∧
      ∀ flags, flags &&& memlOnlyChanged = 0 → ∃ lines,
        (∃ later, one.memleakReport flags = .ok (later, lines)) ∧
          ∃ later, two.memleakReport flags = .ok (later, lines) := by
  intro one two
  obtain ⟨_, holdsOne, tableOne⟩ := Threads.table_of_calls allocList firstLegal
    (fun thread task member => tolerated thread task (List.mem_append_left _ member)) firstFree
  obtain ⟨_, holdsTwo, tableTwo⟩ := Threads.table_of_calls allocList secondLegal
    (fun thread task member => tolerated thread task (List.mem_append_right _ member)) secondFree
  have tables : holdsOne.toTable.mapValues Tally.touched =
      holdsTwo.toTable.mapValues Tally.touched := by
    rw [tableOne, tableTwo, sumOf_perm same]
  constructor
  · have rows : one.table.map AllocRecord.unclean = two.table.map AllocRecord.unclean := by
      rw [holdsOne.unclean_eq, holdsTwo.unclean_eq, ← uncleanRows_touched, tables,
        uncleanRows_touched]
    rw [holdsOne.recordExitChecker, holdsTwo.recordExitChecker, rows]
  · intro flags all
    obtain ⟨laterOne, _, reportedOne, _⟩ := holdsOne.memleakReport flags
    obtain ⟨laterTwo, _, reportedTwo, _⟩ := holdsTwo.memleakReport flags
    have lines : reportLines flags holdsOne.toTable.rows = reportLines flags holdsTwo.toTable.rows := by
      rw [← reportLines_touched all, tables, reportLines_touched all]
    exact ⟨_, ⟨laterOne, reportedOne⟩, laterTwo, lines ▸ reportedTwo⟩

deriving instance DecidableEq for Delta

/-- One thread asks twice from the same place in the code, a report in between. -/
def plainCalls : List (ThreadAction 64) :=
  [.call 2 racingTask, .step 2 0, .step 2 0, .step 2 200] ++ List.replicate 6 (.step 2 0) ++
    [.call 2 (.report memlDefault)] ++ List.replicate 4 (.step 2 0) ++
    [.call 2 racingTask] ++ List.replicate 7 (.step 2 0)

theorem reports_interleavingIndependent_two :
    let one := ((threadSystem 64).exec (.initial 64 8) racedCalls).heap
    let two := ((threadSystem 64).exec (.initial 64 8) plainCalls).heap
    one.recordExitChecker = two.recordExitChecker := by
  intro one two
  have legal : (threadSystem 64).Legal (.initial 64 8) plainCalls := by
    refine ⟨⟨rfl, nofun⟩, ⟨by decide, by decide, .inl rfl⟩, ⟨by decide, by decide, .inl rfl⟩,
      ⟨by decide, by decide, .inr (by decide)⟩, ?_⟩
    iterate 6 refine ⟨⟨by decide +kernel, by decide +kernel, .inl rfl⟩, ?_⟩
    refine ⟨⟨by decide +kernel, nofun⟩, ?_⟩
    iterate 4 refine ⟨⟨by decide +kernel, by decide +kernel, .inl rfl⟩, ?_⟩
    refine ⟨⟨by decide +kernel, nofun⟩, ?_⟩
    iterate 7 refine ⟨⟨by decide +kernel, by decide +kernel, .inl rfl⟩, ?_⟩
    trivial
  have marked : racingTask.Tolerated := ⟨0, by decide⟩
  have tolerated (thread : Nat) (task : Task 64)
      (member : .call thread task ∈ racedCalls ++ plainCalls) : task.Tolerated := by
    simp [racedCalls, racingCalls, plainCalls] at member
    rcases member with ⟨-, rfl⟩ | ⟨-, rfl⟩ | ⟨-, rfl⟩ | ⟨-, rfl⟩ | ⟨-, rfl⟩
    · exact marked
    · exact marked
    · exact marked
    · trivial
    · exact marked
  have same : ((threadSystem 64).exec (.initial 64 8) racedCalls).changes =
    ((threadSystem 64).exec (.initial 64 8) plainCalls).changes := by decide +kernel
  exact (reports_interleavingIndependent 8 racedCalls_legal legal tolerated (by decide +kernel)
    (by decide +kernel) (.of_eq same)).1

end TrippingRobot.Memleak
