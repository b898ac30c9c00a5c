import TrippingRobot.Memleak.Report

/-! Somebody who keeps the last report line of each site, through any mixture of calls and
reports. What is not marked dirty has been seen as it is. -/

namespace TrippingRobot.Memleak

open TrippingRobot.Data TrippingRobot.Machine

variable {platform : Platform}

/-- The program, the last line seen of each site, and the sites that something happened to
since. -/
structure Observed (platform : Platform) where
  blocks : Blocks platform
  seen : Site → Option (Shown platform.width)
  touched : Site → Bool

def Observed.initial (platform : Platform) (allocList : Nat) (memory : Memory) : Observed platform where
  blocks := .initial platform allocList memory
  seen := fun _ => none
  touched := fun _ => false

inductive ObservedAction (platform : Platform) where
  | call (action : BlockAction platform)
  | report (flags : CInt)

/-- The site that a call is about. -/
def Blocks.touches (state : Blocks platform) : BlockAction platform → Option Site
  | .alloc site _ ptr _ => if ptr = 0 then none else some site
  | .register site _ => some site
  | .free pointer => (state.live.find? fun block => block.pointer = pointer).map LiveBlock.site
  | .write .. => none

def Observed.next (maxTolerate : CInt) (state : Observed platform) :
    ObservedAction platform → Observed platform
  | .call action =>
    { state with
      blocks := state.blocks.next maxTolerate action
      touched := fun site => state.touched site || state.blocks.touches action = some site }
  | .report flags =>
    match state.blocks.books.heap.memleakReport flags with
    | .error stop => { state with blocks := { state.blocks with stopped := some stop } }
    | .ok (heap, lines) =>
      { blocks := { state.blocks with books := { state.blocks.books with heap := heap } }
        seen := observe state.seen lines
        touched := fun site => state.touched site && !lines.any fun line => line.isOf site }

/-- Calls as ever, with writes that stay in the memory that `malloc` gave, and reports that
are not tight. -/
def observedSystem (platform : Platform) (maxTolerate : CInt) :
    System (Observed platform) (ObservedAction platform) where
  enabled state
    | .call action =>
      (blockSystem platform maxTolerate).enabled state.blocks action ∧
        InsideBlock state.blocks action
    | .report flags => flags &&& memlTight = 0
  next state action := state.next maxTolerate action

instance (maxTolerate : CInt) : ∀ state action,
    Decidable ((observedSystem platform maxTolerate).enabled state action)
  | state, .call action => inferInstanceAs
      (Decidable ((blockSystem platform maxTolerate).enabled state.blocks action ∧
        InsideBlock state.blocks action))
  | _, .report flags => inferInstanceAs (Decidable (flags &&& memlTight = 0))

/-- What is not dirty has been seen as it is, dirty is what has been touched since it was
printed, and nothing else has been seen. -/
structure UpToDate (state : Observed platform) : Prop where
  clear : ∀ record ∈ state.blocks.books.heap.table, record.dirty = false →
    state.seen record.toSite = some record.shown
  dirty : ∀ record ∈ state.blocks.books.heap.table, record.dirty = state.touched record.toSite
  listed : ∀ site, state.seen site ≠ none →
    ∃ record ∈ state.blocks.books.heap.table, record.toSite = site

/-- What the observer knows of a site, against its row in the table. -/
def Observed.Knows (state : Observed platform) (site : Site) :
    Option (Tally platform.width) → Prop
  | none => state.seen site = none ∧ state.touched site = false
  | some tally => tally.dirty = state.touched site ∧
      (tally.dirty = false → state.seen site = some tally.shown)

structure Observed.Follows (state : Observed platform) (entries : List (Entry platform.width)) :
    Prop where
  sound : state.blocks.Sound entries
  knows : ∀ site, state.Knows site (sound.holds.toTable.lookup site)

namespace Observed.Follows

variable {state : Observed platform} {entries : List (Entry platform.width)} {maxTolerate : CInt}

theorem initial (platform : Platform) (allocList : Nat) (memory : Memory) :
    (Observed.initial platform allocList memory).Follows [] where
  sound := .initial platform allocList memory
  knows := fun _ => ⟨rfl, rfl⟩

private theorem knows_congr {next : Observed platform} {site : Site}
    {row : Option (Tally platform.width)} (known : state.Knows site row)
    (seen : next.seen = state.seen) (touched : next.touched site = state.touched site) :
    next.Knows site row := by
  cases row with
  | none => exact ⟨seen ▸ known.1, touched.trans known.2⟩
  | some tally => exact ⟨known.1.trans touched.symm, fun clear => seen ▸ known.2 clear⟩

private theorem add {later : List (Entry platform.width)} {next : Observed platform}
    (follows : state.Follows entries) (soundNext : next.blocks.Sound later)
    (adds : state.blocks.books.heap.Adds entries site delta next.blocks.books.heap later)
    (seen : next.seen = state.seen)
    (touched : ∀ other, next.touched other = (state.touched other || some site = some other)) :
    next.Follows later := by
  refine ⟨soundNext, fun other => ?_⟩
  have table : soundNext.holds.toTable = follows.sound.holds.toTable.upsert site delta.put :=
    SortedTable.ext adds.rows
  rw [table, SortedTable.lookup_upsert]
  split
  · rename_i same
    refine ⟨?_, fun clear => ?_⟩
    · simp [Delta.put, touched, same]
    · cases clear
  · rename_i different
    have same : next.touched other = state.touched other := by
      simp [touched, Ne.symm different]
    exact knows_congr (follows.knows other) seen same

private theorem touches_free (follows : state.Follows entries)
    (member : block ∈ state.blocks.live) :
    state.blocks.touches (.free block.pointer) = some block.site := by
  rw [Blocks.touches]
  cases found : state.blocks.live.find? fun other => other.pointer = block.pointer with
  | none => simpa using List.find?_eq_none.mp found block member
  | some other =>
    have same := List.find?_some found
    have live := List.mem_of_find?_eq_some found
    rw [follows.sound.pointer_unique member live (by simpa using same)]
    rfl

private theorem call (follows : state.Follows entries) {action : BlockAction platform}
    (enabled : (blockSystem platform maxTolerate).enabled state.blocks action)
    (inside : InsideBlock state.blocks action) :
    ∃ later, (state.next maxTolerate (.call action)).Follows later := by
  obtain ⟨later, soundNext, effect⟩ := follows.sound.next enabled inside
  have touched (site : Site) : (state.next maxTolerate (.call action)).touched site =
      (state.touched site || state.blocks.touches action = some site) := rfl
  refine ⟨later, ?_⟩
  cases effect with
  | refused site size record same table =>
    subst table
    have nothing : state.blocks.touches (.alloc site size 0 record) = none := by
      rw [Blocks.touches, if_pos rfl]
    refine ⟨soundNext, fun other => knows_congr (follows.knows other) rfl ?_⟩
    rw [touched, nothing, decide_eq_false (by simp), Bool.or_false]
  | alloc site size ptr record granted pointer live adds =>
    have mine : state.blocks.touches (.alloc site size ptr record) = some site := if_neg granted
    refine follows.add soundNext adds rfl fun other => ?_
    rw [touched, mine]
  | register site record live adds =>
    exact follows.add soundNext adds rfl fun other => rfl
  | free block live adds =>
    have member : block ∈ state.blocks.live := live.mem_iff.mpr List.mem_cons_self
    refine follows.add soundNext adds rfl fun other => ?_
    rw [touched, follows.touches_free member]
  | write pointer offset value live heap table =>
    subst table
    refine ⟨soundNext, fun other => knows_congr (follows.knows other) rfl ?_⟩
    simp [touched, Blocks.touches]

private theorem report (maxTolerate : CInt) (follows : state.Follows entries)
    (full : flags &&& memlTight = 0) :
    ∃ later, (state.next maxTolerate (.report flags)).Follows later := by
  obtain ⟨heap, later, returned, holds, rows, places, created⟩ :=
    follows.sound.holds.memleakReport flags
  simp only [Observed.next, returned]
  have sound : Blocks.Sound
      { state.blocks with books := { state.blocks.books with heap := heap } } later :=
    ⟨holds, follows.sound.running, created ▸ follows.sound.addresses,
      places ▸ follows.sound.headed, follows.sound.apart⟩
  refine ⟨later, sound, fun site => ?_⟩
  have table : sound.holds.toTable =
      follows.sound.holds.toTable.mapValues (Tally.reported flags) := SortedTable.ext rows
  have seen := observe_reportLines full follows.sound.holds.toTable state.seen site
  have printed := any_reportLines full follows.sound.holds.toTable site
  have known := follows.knows site
  rw [table, SortedTable.lookup_mapValues]
  cases row : follows.sound.holds.toTable.lookup site with
  | none =>
    rw [row] at seen printed known
    exact ⟨seen.trans known.1, by simp [known.2]⟩
  | some tally =>
    rw [row] at seen printed known
    cases skipped : tally.skipped flags with
    | true =>
      rw [Option.map_some, Tally.reported, if_pos skipped]
      refine ⟨?_, fun clear => ?_⟩
      · simp [printed, skipped, known.1]
      · simp only [Option.filter, skipped, Bool.not_true, Bool.false_eq_true, if_false,
          Option.map_none, Option.none_or] at seen
        exact seen.trans (known.2 clear)
    | false =>
      rw [Option.map_some, Tally.reported, if_neg (by simp [skipped])]
      refine ⟨?_, fun _ => ?_⟩
      · simp [printed, skipped]
      · simp only [Option.filter, skipped, Bool.not_false, if_true, Option.map_some,
          Option.some_or] at seen
        exact seen

theorem upToDate (follows : state.Follows entries) : UpToDate state where
  clear record member clear := by
    have known := follows.knows record.toSite
    rw [(follows.sound.holds.mem_table_iff record).mp member] at known
    exact known.2 clear
  dirty record member := by
    have known := follows.knows record.toSite
    rw [(follows.sound.holds.mem_table_iff record).mp member] at known
    exact known.1
  listed site seen := by
    have known := follows.knows site
    cases row : follows.sound.holds.toTable.lookup site with
    | none =>
      rw [row] at known
      exact absurd known.1 seen
    | some tally => exact ⟨⟨site, tally⟩, (follows.sound.holds.mem_table_iff _).mpr row, rfl⟩

/-- Together with what has been seen before, the dirty rows are the whole list. -/
private theorem observe_changed (follows : state.Follows entries) (full : flags &&& memlTight = 0)
    (changed : flags &&& memlOnlyChanged ≠ 0) (zeros : flags &&& memlSuppressZeros = 0)
    (site : Site) :
    observe state.seen (reportLines flags follows.sound.holds.toTable.rows) site =
      (follows.sound.holds.toTable.lookup site).map Tally.shown := by
  have known := follows.knows site
  rw [observe_reportLines full]
  cases row : follows.sound.holds.toTable.lookup site with
  | none =>
    rw [row] at known
    exact known.1
  | some tally =>
    rw [row] at known
    have skipped := Tally.skipped_of_changed changed zeros tally
    cases dirty : tally.dirty with
    | true => simp [Option.filter, skipped, dirty]
    | false => simp [Option.filter, skipped, dirty, known.2 dirty]

private theorem observe_default (follows : state.Follows entries) (site : Site) :
    observe state.seen (reportLines memlDefault follows.sound.holds.toTable.rows) site =
      (follows.sound.holds.toTable.lookup site).map Tally.shown := by
  have known := follows.knows site
  rw [observe_reportLines (by decide)]
  cases row : follows.sound.holds.toTable.lookup site with
  | none =>
    rw [row] at known
    exact known.1
  | some tally =>
    have printed : tally.skipped memlDefault = false := by simp [Tally.skipped, memlDefault]
    simp [Option.filter, printed]

/-- The dirty rows are those of the sites that have been touched. -/
private theorem isOf_changed (follows : state.Follows entries) (full : flags &&& memlTight = 0)
    (changed : flags &&& memlOnlyChanged ≠ 0) (zeros : flags &&& memlSuppressZeros = 0)
    (site : Site) :
    ((reportLines flags follows.sound.holds.toTable.rows).any fun line => line.isOf site) =
      state.touched site := by
  have known := follows.knows site
  rw [any_reportLines full]
  cases row : follows.sound.holds.toTable.lookup site with
  | none =>
    rw [row] at known
    simp [known.2]
  | some tally =>
    rw [row] at known
    simp [Tally.skipped_of_changed changed zeros tally, known.1]

/-- A report of what has changed prints what has been touched, and leaves the observer with
the whole list, as a full report does. -/
private theorem report_changed (follows : state.Follows entries) (full : flags &&& memlTight = 0)
    (changed : flags &&& memlOnlyChanged ≠ 0) (zeros : flags &&& memlSuppressZeros = 0) :
    ∃ heap lines whole all,
      state.blocks.books.heap.memleakReport flags = .ok (heap, lines) ∧
        state.blocks.books.heap.memleakReport memlDefault = .ok (whole, all) ∧
        Shows (observe state.seen lines) heap ∧
        observe state.seen lines = observe state.seen all ∧
        ∀ site, (lines.any fun line => line.isOf site) = state.touched site := by
  obtain ⟨heap, later, returned, holds, rows, _, _⟩ := follows.sound.holds.memleakReport flags
  obtain ⟨whole, _, wholeReturned, _⟩ := follows.sound.holds.memleakReport memlDefault
  have table : holds.toTable =
      follows.sound.holds.toTable.mapValues (Tally.reported flags) := SortedTable.ext rows
  have seen := follows.observe_changed full changed zeros
  refine ⟨heap, _, whole, _, returned, wholeReturned, holds.shows fun site => ?_, ?_,
    follows.isOf_changed full changed zeros⟩
  · rw [seen, table, SortedTable.lookup_mapValues, Option.map_map]
    congr 1
    funext tally
    rw [Function.comp_apply, Tally.reported]
    split
    · rfl
    · rfl
  · funext site
    rw [seen, follows.observe_default]

end Observed.Follows

def Observed.IsFollowed (state : Observed platform) : Prop := ∃ entries, state.Follows entries

theorem Observed.IsFollowed.next {state : Observed platform} {action : ObservedAction platform}
    (followed : state.IsFollowed)
    (enabled : (observedSystem platform maxTolerate).enabled state action) :
    ((observedSystem platform maxTolerate).next state action).IsFollowed := by
  obtain ⟨entries, follows⟩ := followed
  cases action with
  | call action => exact follows.call enabled.1 enabled.2
  | report flags => exact follows.report maxTolerate enabled

/-- However calls and reports are mixed, what is not dirty has been seen as it is. So a report
of what has changed only prints what has been touched since it was last printed, and its
observer knows the whole list, as after a full report. -/
theorem report_loses_nothing (maxTolerate : CInt) (allocList : Nat) (memory : Memory)
    (actions : List (ObservedAction platform))
    (legal : (observedSystem platform maxTolerate).Legal (.initial platform allocList memory)
      actions) :
    (observedSystem platform maxTolerate).Always UpToDate (.initial platform allocList memory)
        actions ∧
      let state := (observedSystem platform maxTolerate).exec
        (.initial platform allocList memory) actions
      ∀ flags : CInt, flags &&& memlTight = 0 → flags &&& memlOnlyChanged ≠ 0 →
        flags &&& memlSuppressZeros = 0 → ∃ heap lines whole all,
          state.blocks.books.heap.memleakReport flags = .ok (heap, lines) ∧
            state.blocks.books.heap.memleakReport memlDefault = .ok (whole, all) ∧
            Shows (observe state.seen lines) heap ∧
            observe state.seen lines = observe state.seen all ∧
            ∀ site, (lines.any fun line => line.isOf site) = state.touched site := by
  have start : (Observed.initial platform allocList memory).IsFollowed :=
    ⟨[], .initial platform allocList memory⟩
  have always := System.Always.of_invariant start
    (fun _ _ followed enabled => followed.next enabled) legal
  refine ⟨always.mono fun state ⟨_, follows⟩ => follows.upToDate, ?_⟩
  intro state flags full changed zeros
  obtain ⟨entries, follows⟩ := always.last
  exact follows.report_changed full changed zeros

/-- A leak that is reported, and then its release, which a report without zeros leaves out. -/
def reportedLeak : List (ObservedAction .x86_64) :=
  [.call (.alloc ⟨⟨[109], by decide⟩, 7⟩ 20 16 100), .report memlOnlyChanged, .call (.free 28),
    .report memlSuppressZeros]

theorem report_loses_nothing_one :
    (observedSystem .x86_64 0).Always UpToDate (.initial .x86_64 8 fun _ => 0) reportedLeak ∧
      let state := (observedSystem .x86_64 0).exec (.initial .x86_64 8 fun _ => 0) reportedLeak
      ∃ heap lines whole all,
        state.blocks.books.heap.memleakReport memlOnlyChanged = .ok (heap, lines) ∧
          state.blocks.books.heap.memleakReport memlDefault = .ok (whole, all) ∧
          Shows (observe state.seen lines) heap ∧
          observe state.seen lines = observe state.seen all ∧
          ∀ site, (lines.any fun line => line.isOf site) = state.touched site := by
  obtain ⟨always, changed⟩ := report_loses_nothing 0 8 (fun _ => 0) reportedLeak (by decide)
  exact ⟨always, changed memlOnlyChanged (by decide) (by decide) (by decide)⟩

end TrippingRobot.Memleak
