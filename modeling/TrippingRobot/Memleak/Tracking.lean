import TrippingRobot.Memleak.Blocks

/-! Tracking switched on and off. All that tells a tracked block from any other when it is
freed is how its pointer is aligned; the rest is read from memory the application writes to. -/

namespace TrippingRobot.Memleak

open TrippingRobot.Data TrippingRobot.Machine

variable {platform : Platform}

/-- `ss_malloc`, `operator new` and `operator new []`; `ptr` is the answer of `malloc`. -/
def Bookkeeping.ssMalloc (books : Bookkeeping platform) (ssMemleakTracking : BitVec 32)
    (maxTolerate : CInt) (site : Site) (size ptr : BitVec platform.width) (record : Nat) :
    Except Stop (Bookkeeping platform × BitVec platform.width) :=
  if ssMemleakTracking = 0 then .ok (books, ptr)
  else books.getMemory maxTolerate site size ptr record

structure OwnBlock (platform : Platform) where
  address : BitVec platform.width
  pointer : BitVec platform.width
  size : BitVec platform.width
  site : Option Site
deriving DecidableEq

namespace OwnBlock

/-- The bytes in front of the application's. -/
def ahead (block : OwnBlock platform) : Nat := if block.site.isSome then piggybackSize else 0

/-- The size that `malloc` was asked for. -/
def asked (block : OwnBlock platform) : BitVec platform.width :=
  if block.site.isSome then mallocSize block.size else block.size

/-- The bytes that it took from `malloc`. -/
def extent (block : OwnBlock platform) : Nat := max 1 block.asked.toNat

def tracked (block : OwnBlock platform) : Option (LiveBlock platform) :=
  block.site.map fun site => ⟨block.pointer, site, block.size⟩

def Apart (block other : OwnBlock platform) : Prop :=
  block.address.toNat + block.extent ≤ other.address.toNat ∨
    other.address.toNat + other.extent ≤ block.address.toNat

instance : Std.Symm (@Apart platform) := ⟨fun _ _ apart => apart.symm⟩

end OwnBlock

structure Tracking (platform : Platform) where
  books : Bookkeeping platform
  ssMemleakTracking : BitVec 32
  live : List (OwnBlock platform)
  stopped : Option Stop

def Tracking.initial (platform : Platform) (allocList : Nat) (memory : Memory) : Tracking platform where
  books := ⟨.initial _ allocList, memory⟩
  ssMemleakTracking := 0
  live := []
  stopped := none

/-- The tracked part. -/
def Tracking.blocks (state : Tracking platform) : Blocks platform where
  books := state.books
  live := state.live.filterMap OwnBlock.tracked
  stopped := state.stopped

/-- Calls of the application, among them calls of `malloc` and `free` by code that is built
without the macros, and its writes to its own blocks. -/
inductive TrackingCall (platform : Platform) where
  | switch (value : BitVec 32)
  | ssMalloc (site : Site) (size ptr : BitVec platform.width) (record : Nat)
  | malloc (size ptr : BitVec platform.width)
  | register (site : Site) (record : Nat)
  | ssFree (pointer : BitVec platform.width)
  | free (pointer : BitVec platform.width)
  | write (pointer : BitVec platform.width) (offset : Nat) (value : UInt8)

namespace Tracking

/-- The block that a call of `ss_malloc` gives. -/
def obtained (state : Tracking platform) (site : Site) (size ptr : BitVec platform.width)
    (pointer : BitVec platform.width) : OwnBlock platform :=
  ⟨ptr, pointer, size, if state.ssMemleakTracking = 0 then none else some site⟩

def without (state : Tracking platform) (pointer : BitVec platform.width) :
    List (OwnBlock platform) :=
  state.live.eraseP fun block => block.pointer = pointer

def next (maxTolerate : CInt) (state : Tracking platform) :
    TrackingCall platform → Tracking platform
  | .switch value => { state with ssMemleakTracking := value }
  | .ssMalloc site size ptr record =>
    match state.books.ssMalloc state.ssMemleakTracking maxTolerate site size ptr record with
    | .error stop => { state with stopped := some stop }
    | .ok (books, pointer) =>
      if pointer = 0 then { state with books := books }
      else { state with books := books, live := state.obtained site size ptr pointer :: state.live }
  | .malloc size ptr =>
    if ptr = 0 then state else { state with live := ⟨ptr, ptr, size, none⟩ :: state.live }
  | .register site record =>
    match state.books.heap.listPushRecord site 0 false record with
    | .error stop => { state with stopped := some stop }
    | .ok (heap, _) => { state with books := { state.books with heap := heap } }
  | .ssFree pointer =>
    match state.books.freeMemory pointer with
    | .error stop => { state with stopped := some stop }
    | .ok (books, _, _) => { state with books := books, live := state.without pointer }
  | .free pointer => { state with live := state.without pointer }
  | .write pointer offset value =>
    let target := (pointer + .ofNat _ offset).toNat
    { state with
      books := { state.books with memory := Function.update state.books.memory target value } }

/-- `malloc` answers NULL, or an aligned address of memory that no live block has. -/
def MallocGives (state : Tracking platform) (asked ptr : BitVec platform.width) : Prop :=
  ptr = 0 ∨
    (ptr.toNat % platform.allocAlign = 0 ∧ ptr.toNat + max 1 asked.toNat ≤ 2 ^ platform.width ∧
      ∀ block ∈ state.live, ptr.toNat + max 1 asked.toNat ≤ block.address.toNat ∨
        block.address.toNat + block.extent ≤ ptr.toNat)

def FreshRecord (state : Tracking platform) (record : Nat) : Prop :=
  state.books.heap.Fresh record ∧ record < 2 ^ platform.width

end Tracking

/-- NULL and live blocks are freed, blocks that were not tracked by `free` too. Writes go to
the bytes a block was asked for, and that `malloc` gave. -/
def trackingSystem (platform : Platform) (maxTolerate : CInt) :
    System (Tracking platform) (TrackingCall platform) where
  enabled state
    | .switch _ => True
    | .ssMalloc _ size ptr record =>
      state.MallocGives (if state.ssMemleakTracking = 0 then size else mallocSize size) ptr ∧
        state.FreshRecord record
    | .malloc size ptr => state.MallocGives size ptr
    | .register _ record => state.FreshRecord record
    | .ssFree pointer => pointer = 0 ∨ ∃ block ∈ state.live, block.pointer = pointer
    | .free pointer => ∃ block ∈ state.live, block.pointer = pointer ∧ block.site = none
    | .write pointer offset _ => ∃ block ∈ state.live, block.pointer = pointer ∧
        offset < block.size.toNat ∧ block.ahead + offset < block.asked.toNat
  next state call := state.next maxTolerate call

/-- At any time: NULL and blocks that were not tracked go to `free` as they are and leave the
records alone; a tracked block goes there as `malloc` gave it and is taken off the record of
the place that asked for it. `memleak_allocs_at` answers -1 for the former and only these. -/
structure ToldApart (state : Tracking platform) : Prop where
  running : state.stopped = none
  null : state.books.freeMemory 0 = .ok (state.books, 0, false)
  foreign : ∀ block ∈ state.live, block.site = none →
    state.books.freeMemory block.pointer = .ok (state.books, block.address, false) ∧
      state.books.memleakAllocsAt block.pointer = .ok (-1)
  tracked : ∀ block ∈ state.live, ∀ site, block.site = some site →
    ∃ node record size, state.books.heap.record node = some record ∧
      record ∈ state.books.heap.table ∧ record.toSite = site ∧
      state.books.freeMemory block.pointer = .ok ({ state.books with
          heap := state.books.heap.setRecord node
            { record with toTally := record.toTally.release size } }, block.address, true) ∧
      state.books.memleakAllocsAt block.pointer = .ok record.cnt ∧ record.cnt ≠ -1

/-! ## Where the blocks are -/

structure OwnBlock.Placed (block : OwnBlock platform) : Prop where
  aligned : block.address.toNat % platform.allocAlign = 0
  inside : block.address.toNat + block.extent ≤ 2 ^ platform.width
  pointer : block.pointer = block.address + .ofNat _ block.ahead

structure Tracking.Sound (state : Tracking platform) (entries : List (Entry platform.width)) :
    Prop where
  blocks : state.blocks.Sound entries
  placed : ∀ block ∈ state.live, block.Placed
  apart : state.live.Pairwise OwnBlock.Apart

theorem Tracking.Sound.initial (platform : Platform) (allocList : Nat) (memory : Memory) :
    (Tracking.initial platform allocList memory).Sound [] where
  blocks := .initial platform allocList memory
  placed := by simp [Tracking.initial]
  apart := .nil

/-- What `malloc` itself gave does not pass for a tracked pointer, and neither does NULL. -/
theorem trueptrIsValid_of_aligned {ptr : BitVec platform.width}
    (aligned : ptr.toNat % platform.allocAlign = 0) :
    trueptrIsValid (ptrToTrueptr ptr) = false := by
  rw [trueptrIsValid, decide_eq_false_iff_not, ptrToTrueptr, BitVec.toNat_sub, BitVec.toNat_ofNat]
  have bound := ptr.isLt
  generalize ptr.toNat = address at aligned bound ⊢
  cases platform
  · simp only [piggybackSize, Platform.allocAlign, Platform.width, Platform.wordBytes] at aligned bound ⊢
    omega
  · simp only [piggybackSize, Platform.allocAlign, Platform.width, Platform.wordBytes] at aligned bound ⊢
    omega

namespace OwnBlock

variable {block other : OwnBlock platform}

theorem extent_pos (block : OwnBlock platform) : 0 < block.extent :=
  Nat.lt_of_lt_of_le Nat.one_pos (Nat.le_max_left _ _)

theorem tracked_eq (site : block.site = some place) :
    block.tracked = some ⟨block.pointer, place, block.size⟩ := by
  rw [tracked, site]
  rfl

theorem extent_tracked (site : block.site = some place) : block.extent = footprint block.size := by
  rw [extent, asked, site]
  rfl

theorem extent_foreign (site : block.site = none) : block.extent = max 1 block.size.toNat := by
  rw [extent, asked, site]
  rfl

theorem Placed.base (placed : block.Placed) (site : block.site = some place) :
    ptrToTrueptr block.pointer = block.address := by
  rw [placed.pointer, ahead, site, ptrToTrueptr]
  simp

theorem Placed.pointer_foreign (placed : block.Placed) (site : block.site = none) :
    block.pointer = block.address := by
  rw [placed.pointer, ahead, site]
  exact BitVec.add_zero _

/-- A tracked pointer is `PIGGYBACK_SIZE` behind an aligned address, and no other is. -/
theorem Placed.valid (placed : block.Placed) :
    trueptrIsValid (ptrToTrueptr block.pointer) = block.site.isSome := by
  cases site : block.site with
  | some place =>
    rw [placed.base site]
    exact decide_eq_true placed.aligned
  | none =>
    rw [placed.pointer_foreign site]
    exact trueptrIsValid_of_aligned placed.aligned

end OwnBlock

namespace Tracking.Sound

variable {state : Tracking platform} {entries : List (Entry platform.width)} {maxTolerate : CInt}
  {block other : OwnBlock platform} {site : Site}

theorem tracked_mem (member : block ∈ state.live) (here : block.site = some site) :
    ⟨block.pointer, site, block.size⟩ ∈ state.blocks.live :=
  List.mem_filterMap.mpr ⟨block, member, OwnBlock.tracked_eq here⟩

theorem exists_of_tracked {found : LiveBlock platform} (member : found ∈ state.blocks.live) :
    ∃ block ∈ state.live, block.site = some found.site ∧ block.pointer = found.pointer ∧
      block.size = found.size := by
  obtain ⟨block, owned, same⟩ := List.mem_filterMap.mp member
  obtain ⟨site, here, rfl⟩ := Option.map_eq_some_iff.mp same
  exact ⟨block, owned, here, rfl, rfl⟩

theorem tracked_record (sound : state.Sound entries) (member : block ∈ state.live)
    (here : block.site = some site) : ∃ node record size,
      state.books.heap.record node = some record ∧ record ∈ state.books.heap.table ∧
        record.toSite = site ∧
        state.books.freeMemory block.pointer = .ok ({ state.books with
            heap := state.books.heap.setRecord node
              { record with toTally := record.toTally.release size } }, block.address, true) ∧
        state.books.memleakAllocsAt block.pointer = .ok record.cnt := by
  have placed := sound.placed block member
  have valid : trueptrIsValid (ptrToTrueptr block.pointer) = true := by
    rw [placed.valid, here]
    rfl
  have headed := sound.blocks.headed _ (tracked_mem member here)
  obtain ⟨record, found, present⟩ := sound.blocks.holds.exists_lookup headed.record
  have stored : state.books.heap.record (state.books.pbRecord (ptrToTrueptr block.pointer)) =
      some record := found
  have mine := sound.blocks.holds.siteAt_of_place headed.record
  rw [RecordHeap.siteAt, found, Option.map_some, Option.some_inj] at mine
  subst mine
  refine ⟨state.books.pbRecord (ptrToTrueptr block.pointer), record,
    .ofNat _ (state.books.pbSize (ptrToTrueptr block.pointer)), stored,
    (sound.blocks.holds.mem_table_iff record).mpr present, rfl, ?_, ?_⟩
  · rw [← placed.base here]
    simp only [Bookkeeping.freeMemory, valid, if_true, RecordHeap.releaseRecord, stored]
  · simp only [Bookkeeping.memleakAllocsAt, valid, if_true, stored]

theorem foreign_record (sound : state.Sound entries) (member : block ∈ state.live)
    (here : block.site = none) :
    state.books.freeMemory block.pointer = .ok (state.books, block.address, false) ∧
      state.books.memleakAllocsAt block.pointer = .ok (-1) := by
  have placed := sound.placed block member
  have valid : trueptrIsValid (ptrToTrueptr block.pointer) = false := by
    rw [placed.valid, here]
    rfl
  constructor
  · rw [← placed.pointer_foreign here]
    simp only [Bookkeeping.freeMemory, valid, Bool.false_eq_true, if_false]
  · simp only [Bookkeeping.memleakAllocsAt, valid, Bool.false_eq_true, if_false]

/-- Only the counters of tracked blocks can make a difference. -/
theorem toldApart_iff (sound : state.Sound entries) : ToldApart state ↔
    ∀ found ∈ state.blocks.live, (sound.blocks.holds.tally found.site).cnt ≠ -1 := by
  have tally {record : AllocRecord platform.width} (member : record ∈ state.books.heap.table) :
      sound.blocks.holds.tally record.toSite = record.toTally := by
    rw [RecordHeap.Holds.tally, (sound.blocks.holds.mem_table_iff record).mp member]
    rfl
  constructor
  · intro told found member
    obtain ⟨block, owned, here, _⟩ := exists_of_tracked member
    obtain ⟨node, record, size, stored, listed, same, _, _, clear⟩ :=
      told.tracked block owned found.site here
    rw [← same, tally listed]
    exact clear
  · intro clear
    refine ⟨sound.blocks.running, ?_, fun block => sound.foreign_record, ?_⟩
    · have aligned : (0 : BitVec platform.width).toNat % platform.allocAlign = 0 := Nat.zero_mod _
      have valid := trueptrIsValid_of_aligned aligned
      simp only [Bookkeeping.freeMemory, valid, Bool.false_eq_true, if_false]
    · intro block member site here
      obtain ⟨node, record, size, stored, listed, same, freed, counted⟩ :=
        sound.tracked_record member here
      refine ⟨node, record, size, stored, listed, same, freed, counted, ?_⟩
      have kept := clear _ (tracked_mem member here)
      rw [← same, tally listed] at kept
      exact kept

end Tracking.Sound

/-! ## What a call does to the tracked part -/

/-- The step of the tracked part that a call is. -/
def Tracking.blockAction (state : Tracking platform) :
    TrackingCall platform → Option (BlockAction platform)
  | .switch _ | .malloc .. | .free _ => none
  | .ssMalloc site size ptr record =>
    if state.ssMemleakTracking = 0 then none else some (.alloc site size ptr record)
  | .register site record => some (.register site record)
  | .ssFree pointer => if trueptrIsValid (ptrToTrueptr pointer) then some (.free pointer) else none
  | .write pointer offset value =>
    if trueptrIsValid (ptrToTrueptr pointer) then some (.write pointer offset value) else none

/-- A call is a step of the tracked part, or leaves it as it is. -/
inductive Tracking.Went (maxTolerate : CInt) (state : Tracking platform)
    (entries : List (Entry platform.width)) (next : Tracking platform)
    (later : List (Entry platform.width)) : Option (BlockAction platform) → Prop
  | tracked (action : BlockAction platform)
      (effect : state.blocks.Effect maxTolerate entries next.blocks later action) :
      Went maxTolerate state entries next later (some action)
  | beside (live : next.blocks.live = state.blocks.live)
      (heap : next.books.heap = state.books.heap) (table : later = entries) :
      Went maxTolerate state entries next later none

private theorem filterMap_eraseP {α β : Type*} {keep : α → Option β} {here : α → Bool}
    {there : β → Bool} {list : List α} (agree : ∀ item ∈ list, here item = (keep item).any there) :
    (list.eraseP here).filterMap keep = (list.filterMap keep).eraseP there := by
  induction list with
  | nil => rfl
  | cons item rest ih =>
    have first := agree item List.mem_cons_self
    have later := ih fun other member => agree other (List.mem_cons_of_mem _ member)
    cases kept : keep item with
    | none =>
      rw [kept] at first
      rw [List.eraseP_cons_of_neg (by simpa using first), List.filterMap_cons_none kept,
        List.filterMap_cons_none kept, later]
    | some value =>
      rw [kept, Option.any_some] at first
      rw [List.filterMap_cons_some kept]
      cases found : there value with
      | true => rw [List.eraseP_cons_of_pos (first.trans found), List.eraseP_cons_of_pos found]
      | false =>
        rw [List.eraseP_cons_of_neg (by simp [first, found]), List.filterMap_cons_some kept,
          List.eraseP_cons_of_neg (by simp [found]), later]

private theorem filterMap_eraseP_of_none {α β : Type*} {keep : α → Option β} {here : α → Bool}
    {list : List α} (none : ∀ item ∈ list, here item = true → keep item = none) :
    (list.eraseP here).filterMap keep = list.filterMap keep := by
  induction list with
  | nil => rfl
  | cons item rest ih =>
    have later := ih fun other member => none other (List.mem_cons_of_mem _ member)
    cases found : here item with
    | true =>
      rw [List.eraseP_cons_of_pos found, List.filterMap_cons_none (none item List.mem_cons_self found)]
    | false =>
      rw [List.eraseP_cons_of_neg (by simp [found]), List.filterMap_cons, List.filterMap_cons, later]

namespace Tracking.Sound

variable {state after : Tracking platform} {entries later : List (Entry platform.width)}
  {maxTolerate : CInt} {block other : OwnBlock platform} {site : Site}

/-- A pointer that passes for tracked is not one of the other blocks, and the other way around. -/
private theorem without_tracked (sound : state.Sound entries)
    {pointer : BitVec platform.width} (valid : trueptrIsValid (ptrToTrueptr pointer) = true) :
    (state.without pointer).filterMap OwnBlock.tracked =
      state.blocks.live.eraseP fun found => found.pointer = pointer := by
  apply filterMap_eraseP
  intro block member
  cases here : block.site with
  | some site => simp [OwnBlock.tracked, here]
  | none =>
    have kind := (sound.placed block member).valid
    have apart : block.pointer ≠ pointer := by
      rintro rfl
      rw [valid, here] at kind
      cases kind
    simp [OwnBlock.tracked, here, apart]

private theorem without_foreign (sound : state.Sound entries)
    {pointer : BitVec platform.width} (valid : trueptrIsValid (ptrToTrueptr pointer) = false) :
    (state.without pointer).filterMap OwnBlock.tracked = state.blocks.live := by
  apply filterMap_eraseP_of_none
  intro block member same
  have kind := (sound.placed block member).valid
  rw [of_decide_eq_true same, valid] at kind
  have foreign : block.site = none := by simpa using kind.symm
  rw [OwnBlock.tracked, foreign]
  rfl

private theorem freed (sound : state.Sound entries) (blocks : after.blocks.Sound later)
    (live : after.live = state.without pointer) : after.Sound later := by
  have fewer : after.live.Sublist state.live := by
    rw [live]
    exact List.eraseP_sublist
  exact ⟨blocks, fun block member => sound.placed block (fewer.subset member),
    sound.apart.sublist fewer⟩

private theorem kept (sound : state.Sound entries) (blocks : after.blocks.Sound later)
    (live : after.live = state.live) : after.Sound later :=
  ⟨blocks, live ▸ sound.placed, live ▸ sound.apart⟩

private theorem owned (sound : state.Sound entries) (blocks : after.blocks.Sound later)
    (live : after.live = block :: state.live) (placed : block.Placed)
    (apart : ∀ other ∈ state.live, block.Apart other) : after.Sound later := by
  refine ⟨blocks, ?_, ?_⟩
  · rw [live]
    exact List.forall_mem_cons.mpr ⟨placed, sound.placed⟩
  · rw [live]
    exact List.pairwise_cons.mpr ⟨apart, sound.apart⟩

private theorem placed_of_gives {asked ptr : BitVec platform.width} (gives : state.MallocGives asked ptr)
    (granted : ptr ≠ 0) (asks : block.asked = asked) (address : block.address = ptr)
    (pointer : block.pointer = ptr + .ofNat _ block.ahead) :
    block.Placed ∧ ∀ other ∈ state.live, block.Apart other := by
  obtain ⟨aligned, inside, separate⟩ := gives.resolve_left granted
  subst asks address
  exact ⟨⟨aligned, inside, pointer⟩, separate⟩

private theorem malloc (maxTolerate : CInt) (sound : state.Sound entries)
    {size ptr : BitVec platform.width} (gives : state.MallocGives size ptr) :
    (state.next maxTolerate (.malloc size ptr)).Sound entries ∧
      (state.next maxTolerate (.malloc size ptr)).blocks = state.blocks := by
  rw [Tracking.next]
  split
  · exact ⟨sound, rfl⟩
  · rename_i granted
    have same : Tracking.blocks { state with live := ⟨ptr, ptr, size, none⟩ :: state.live } =
        state.blocks := rfl
    obtain ⟨placed, apart⟩ : OwnBlock.Placed (⟨ptr, ptr, size, none⟩ : OwnBlock platform) ∧ _ :=
      placed_of_gives gives granted rfl rfl (BitVec.add_zero _).symm
    exact ⟨sound.owned (same ▸ sound.blocks) rfl placed apart, same⟩

theorem ssMalloc_untracked (untracked : state.ssMemleakTracking = 0) :
    state.next maxTolerate (.ssMalloc site size ptr record) =
      state.next maxTolerate (.malloc size ptr) := by
  simp only [Tracking.next, Bookkeeping.ssMalloc, if_pos untracked, obtained]

private theorem gives_tracked (sound : state.Sound entries) {size ptr : BitVec platform.width}
    (gives : state.MallocGives (mallocSize size) ptr) : state.blocks.MallocGives size ptr := by
  refine gives.imp_right fun ⟨aligned, inside, separate⟩ => ⟨aligned, inside, ?_⟩
  intro found member
  obtain ⟨block, owned, here, pointer, same⟩ := exists_of_tracked member
  have base : found.base = block.address.toNat := by
    rw [LiveBlock.base, ← pointer, (sound.placed block owned).base here]
  rw [base, ← same, ← OwnBlock.extent_tracked here]
  exact separate block owned

private theorem getMemory_pointer {books after : Bookkeeping platform}
    {size ptr pointer : BitVec platform.width} (granted : ptr ≠ 0)
    (returned : books.getMemory maxTolerate site size ptr record = .ok (after, pointer)) :
    pointer = ptr + .ofNat _ piggybackSize := by
  rw [Bookkeeping.getMemory, if_neg granted] at returned
  split at returned
  · cases returned
  · cases returned
    rfl

private theorem ssMalloc (sound : state.Sound entries)
    (enabled : (trackingSystem platform maxTolerate).enabled state (.ssMalloc site size ptr record))
    (tracking : state.ssMemleakTracking ≠ 0) :
    ∃ later, (state.next maxTolerate (.ssMalloc site size ptr record)).Sound later ∧
      state.blocks.Effect maxTolerate entries
        (state.next maxTolerate (.ssMalloc site size ptr record)).blocks later
        (.alloc site size ptr record) := by
  obtain ⟨gives, fresh⟩ := enabled
  rw [if_neg tracking] at gives
  have stays : (blockSystem platform maxTolerate).enabled state.blocks (.alloc site size ptr record) :=
    ⟨sound.gives_tracked gives, fresh⟩
  obtain ⟨later, blocksNext, effect⟩ := sound.blocks.next stays trivial
  have mine (pointer : BitVec platform.width) :
      (state.obtained site size ptr pointer).site = some site := if_neg tracking
  simp only [blockSystem, Blocks.next, Tracking.blocks] at blocksNext effect
  simp only [Tracking.next, Bookkeeping.ssMalloc, if_neg tracking]
  cases returned : state.books.getMemory maxTolerate site size ptr record with
  | error stop =>
    rw [returned] at blocksNext
    cases blocksNext.running
  | ok result =>
    obtain ⟨books, pointer⟩ := result
    rw [returned] at blocksNext effect
    dsimp only at blocksNext effect ⊢
    by_cases null : pointer = 0
    · rw [if_pos null] at blocksNext effect ⊢
      exact ⟨later, sound.kept blocksNext rfl, effect⟩
    · have given : ptr ≠ 0 := by
        rintro rfl
        rw [Bookkeeping.getMemory, if_pos rfl] at returned
        cases returned
        exact null rfl
      obtain ⟨placed, apart⟩ : (state.obtained site size ptr pointer).Placed ∧ _ := by
        apply placed_of_gives gives given _ rfl
        · rw [OwnBlock.ahead, mine]
          exact getMemory_pointer given returned
        · rw [OwnBlock.asked, mine]
          rfl
      have blocks : Tracking.blocks { state with
            books := books, live := state.obtained site size ptr pointer :: state.live } =
          ⟨books, ⟨pointer, site, size⟩ :: state.blocks.live, state.stopped⟩ := by
        rw [Tracking.blocks, List.filterMap_cons_some (OwnBlock.tracked_eq (mine pointer))]
        rfl
      rw [if_neg null] at blocksNext effect ⊢
      exact ⟨later, sound.owned (blocks ▸ blocksNext) rfl placed apart, blocks ▸ effect⟩

private theorem register (sound : state.Sound entries) (fresh : state.FreshRecord record) :
    ∃ later, (state.next maxTolerate (.register site record)).Sound later ∧
      state.blocks.Effect maxTolerate entries
        (state.next maxTolerate (.register site record)).blocks later (.register site record) := by
  have stays : (blockSystem platform maxTolerate).enabled state.blocks (.register site record) := fresh
  obtain ⟨later, blocksNext, effect⟩ := sound.blocks.next stays trivial
  simp only [blockSystem, Blocks.next, Tracking.blocks] at blocksNext effect
  simp only [Tracking.next]
  cases returned : state.books.heap.listPushRecord site 0 false record with
  | error stop =>
    rw [returned] at blocksNext
    cases blocksNext.running
  | ok result =>
    rw [returned] at blocksNext effect
    exact ⟨later, sound.kept blocksNext rfl, effect⟩

private theorem ssFree_tracked (sound : state.Sound entries) {pointer : BitVec platform.width}
    (enabled : (trackingSystem platform maxTolerate).enabled state (.ssFree pointer))
    (valid : trueptrIsValid (ptrToTrueptr pointer) = true) :
    ∃ later, (state.next maxTolerate (.ssFree pointer)).Sound later ∧
      state.blocks.Effect maxTolerate entries (state.next maxTolerate (.ssFree pointer)).blocks
        later (.free pointer) := by
  have stays : (blockSystem platform maxTolerate).enabled state.blocks (.free pointer) := by
    rcases enabled with rfl | ⟨block, member, rfl⟩
    · rw [trueptrIsValid_of_aligned (Nat.zero_mod _)] at valid
      cases valid
    · rw [(sound.placed block member).valid] at valid
      obtain ⟨site, here⟩ := Option.isSome_iff_exists.mp valid
      exact ⟨_, tracked_mem member here, rfl⟩
  obtain ⟨later, blocksNext, effect⟩ := sound.blocks.next stays trivial
  have live := sound.without_tracked valid
  have books : state.blocks.books = state.books := rfl
  simp only [blockSystem, Blocks.next, ← live, books] at blocksNext effect
  simp only [Tracking.next]
  cases returned : state.books.freeMemory pointer with
  | error stop =>
    rw [returned] at blocksNext
    cases blocksNext.running
  | ok result =>
    rw [returned] at blocksNext effect
    exact ⟨later, sound.freed blocksNext rfl, effect⟩

private theorem freed_foreign (sound : state.Sound entries) {pointer : BitVec platform.width}
    (valid : trueptrIsValid (ptrToTrueptr pointer) = false) :
    Tracking.Sound { state with live := state.without pointer } entries ∧
      Tracking.blocks { state with live := state.without pointer } = state.blocks := by
  have same : Tracking.blocks { state with live := state.without pointer } = state.blocks := by
    rw [Tracking.blocks, sound.without_foreign valid]
    rfl
  exact ⟨sound.freed (same ▸ sound.blocks) rfl, same⟩

private theorem ssFree_foreign {pointer : BitVec platform.width}
    (valid : trueptrIsValid (ptrToTrueptr pointer) = false) :
    state.next maxTolerate (.ssFree pointer) = { state with live := state.without pointer } := by
  simp [Tracking.next, Bookkeeping.freeMemory, valid]

private theorem write_tracked (sound : state.Sound entries) {pointer : BitVec platform.width}
    (enabled : (trackingSystem platform maxTolerate).enabled state (.write pointer offset value))
    (valid : trueptrIsValid (ptrToTrueptr pointer) = true) :
    ∃ later, (state.next maxTolerate (.write pointer offset value)).Sound later ∧
      state.blocks.Effect maxTolerate entries
        (state.next maxTolerate (.write pointer offset value)).blocks later
        (.write pointer offset value) := by
  obtain ⟨block, member, rfl, within, inside⟩ := enabled
  rw [(sound.placed block member).valid] at valid
  obtain ⟨site, here⟩ := Option.isSome_iff_exists.mp valid
  rw [OwnBlock.ahead, OwnBlock.asked, if_pos valid, if_pos valid] at inside
  have stays : (blockSystem platform maxTolerate).enabled state.blocks
      (.write block.pointer offset value) := ⟨_, tracked_mem member here, rfl, within⟩
  have insideBlock : InsideBlock state.blocks (.write block.pointer offset value) := by
    intro found foundMember same
    rw [← sound.blocks.pointer_unique foundMember (tracked_mem member here) same.symm]
    exact inside
  obtain ⟨later, blocksNext, effect⟩ := sound.blocks.next stays insideBlock
  exact ⟨later, sound.kept blocksNext rfl, effect⟩

private theorem write_foreign (sound : state.Sound entries) (member : block ∈ state.live)
    (here : block.site = none) (within : offset < block.size.toNat) (value : UInt8) :
    (state.next maxTolerate (.write block.pointer offset value)).Sound entries := by
  have placed := sound.placed block member
  have inside := placed.inside
  have extent := OwnBlock.extent_foreign here
  have target : (block.pointer + .ofNat _ offset).toNat = block.address.toNat + offset := by
    rw [placed.pointer_foreign here, BitVec.toNat_add, BitVec.toNat_ofNat, Nat.add_mod_mod]
    exact Nat.mod_eq_of_lt (by omega)
  refine sound.kept ⟨sound.blocks.holds, sound.blocks.running, sound.blocks.addresses, ?_,
    sound.blocks.apart⟩ rfl
  intro found foundMember
  obtain ⟨other, owned, there, pointer, size⟩ := exists_of_tracked foundMember
  have otherPlaced := sound.placed other owned
  have base : found.base = other.address.toNat := by
    rw [LiveBlock.base, ← pointer, otherPlaced.base there]
  have different : other ≠ block := by
    rintro rfl
    rw [here] at there
    cases there
  have fits := platform.header_fits
  have positive := other.extent_pos
  apply (sound.blocks.headed found foundMember).congr
  intro address lower upper
  apply Function.update_of_ne
  rw [base] at lower upper
  rw [target]
  rcases sound.apart.forall owned member different with before | after
  · have gap := header_le_of_lt otherPlaced.aligned placed.aligned (by omega)
    omega
  · omega

private theorem beside (soundNext : after.Sound entries) (same : after.blocks = state.blocks) :
    ∃ later, after.Sound later ∧ Went maxTolerate state entries after later none :=
  ⟨entries, soundNext, .beside (congrArg Blocks.live same)
    (congrArg (fun blocks => blocks.books.heap) same) rfl⟩

/-- One call keeps the piggybacks, and is a step of the tracked part if it is one at all. -/
theorem next (sound : state.Sound entries) {call : TrackingCall platform}
    (enabled : (trackingSystem platform maxTolerate).enabled state call) :
    ∃ later, ((trackingSystem platform maxTolerate).next state call).Sound later ∧
      Went maxTolerate state entries ((trackingSystem platform maxTolerate).next state call) later
        (state.blockAction call) := by
  simp only [trackingSystem]
  cases call with
  | switch value => exact beside (sound.kept sound.blocks rfl) rfl
  | ssMalloc site size ptr record =>
    by_cases tracking : state.ssMemleakTracking = 0
    · obtain ⟨gives, _⟩ := enabled
      rw [if_pos tracking] at gives
      obtain ⟨soundNext, same⟩ := sound.malloc maxTolerate gives
      rw [blockAction, if_pos tracking, ssMalloc_untracked tracking]
      exact beside soundNext same
    · obtain ⟨later, soundNext, effect⟩ := sound.ssMalloc enabled tracking
      rw [blockAction, if_neg tracking]
      exact ⟨later, soundNext, .tracked _ effect⟩
  | malloc size ptr =>
    obtain ⟨soundNext, same⟩ := sound.malloc maxTolerate enabled
    exact beside soundNext same
  | register site record =>
    obtain ⟨later, soundNext, effect⟩ := sound.register enabled
    exact ⟨later, soundNext, .tracked _ effect⟩
  | ssFree pointer =>
    cases valid : trueptrIsValid (ptrToTrueptr pointer) with
    | true =>
      obtain ⟨later, soundNext, effect⟩ := sound.ssFree_tracked enabled valid
      rw [blockAction, if_pos valid]
      exact ⟨later, soundNext, .tracked _ effect⟩
    | false =>
      obtain ⟨soundNext, same⟩ := sound.freed_foreign valid
      rw [blockAction, if_neg (by simp [valid]), ssFree_foreign valid]
      exact beside soundNext same
  | free pointer =>
    obtain ⟨block, member, rfl, here⟩ := enabled
    have valid : trueptrIsValid (ptrToTrueptr block.pointer) = false := by
      rw [(sound.placed block member).valid, here]
      rfl
    obtain ⟨soundNext, same⟩ := sound.freed_foreign valid
    exact beside soundNext same
  | write pointer offset value =>
    cases valid : trueptrIsValid (ptrToTrueptr pointer) with
    | true =>
      obtain ⟨later, soundNext, effect⟩ := sound.write_tracked enabled valid
      rw [blockAction, if_pos valid]
      exact ⟨later, soundNext, .tracked _ effect⟩
    | false =>
      obtain ⟨block, member, rfl, within, _⟩ := enabled
      have here : block.site = none := by
        have kind := (sound.placed block member).valid
        rw [valid] at kind
        simpa using kind.symm
      rw [blockAction, if_neg (by simp [valid])]
      exact ⟨entries, sound.write_foreign member here within value, .beside rfl rfl rfl⟩

end Tracking.Sound

/-! ## What the counters may say -/

/-- What the record of a site counts, 0 as long as there is none. -/
def RecordHeap.cntAt {w : Nat} (heap : RecordHeap w) (site : Site) : CInt :=
  ((heap.table.find? fun record => record.toSite = site).map fun record => record.cnt).getD 0

/-- No live block is left at a site whose counter says -1. Only requests of 0 bytes, which
are not counted, or 2^32 - 1 live blocks can lead there. -/
def Blocks.CountsClear (state : Blocks platform) : BlockAction platform → Prop
  | .alloc site size ptr _ =>
    ptr ≠ 0 → state.books.heap.cntAt site + (if 0 < size then 1 else 0) ≠ -1
  | .free pointer => ∀ block ∈ state.live, block.pointer = pointer →
      (∃ other ∈ state.live, other.pointer ≠ pointer ∧ other.site = block.site) →
        state.books.heap.cntAt block.site ≠ 0
  | .register .. | .write .. => True

def CountsClear (state : Tracking platform) (call : TrackingCall platform) : Prop :=
  ∀ action ∈ state.blockAction call, state.blocks.CountsClear action

theorem RecordHeap.Holds.cntAt_eq {w : Nat} {heap : RecordHeap w} {entries : List (Entry w)}
    (holds : heap.Holds entries) (site : Site) : heap.cntAt site = (holds.tally site).cnt := by
  rw [RecordHeap.cntAt, RecordHeap.Holds.tally]
  cases found : heap.table.find? fun record => record.toSite = site with
  | none =>
    have absent : holds.toTable.lookup site = none := by
      by_contra present
      obtain ⟨tally, row⟩ := Option.ne_none_iff_exists'.mp present
      have member := (holds.mem_table_iff ⟨site, tally⟩).mpr row
      simpa using List.find?_eq_none.mp found _ member
    rw [absent]
    rfl
  | some record =>
    have same : record.toSite = site := by simpa using List.find?_some found
    have row := (holds.mem_table_iff record).mp (List.mem_of_find?_eq_some found)
    rw [← same, row]
    rfl

theorem RecordHeap.Adds.cnt {w : Nat} {heap later : RecordHeap w}
    {entries laterEntries : List (Entry w)} {delta : Delta w}
    (adds : heap.Adds entries site delta later laterEntries) (holds : heap.Holds entries)
    (other : Site) : (adds.holds.tally other).cnt =
      if other = site then heap.cntAt site + delta.cnt else (holds.tally other).cnt := by
  rw [adds.tally holds, holds.cntAt_eq]
  split
  · rfl
  · rfl

theorem Blocks.Sound.mem_of_freed {state after : Blocks platform}
    {entries : List (Entry platform.width)} {block other : LiveBlock platform}
    (sound : state.Sound entries) (live : state.live.Perm (block :: after.live)) :
    other ∈ after.live ↔ other ∈ state.live ∧ other.pointer ≠ block.pointer := by
  have member : block ∈ state.live := live.mem_iff.mpr List.mem_cons_self
  constructor
  · intro kept
    have old : other ∈ state.live := live.mem_iff.mpr (List.mem_cons_of_mem _ kept)
    refine ⟨old, fun same => ?_⟩
    have apart := (live.pairwise_iff fun apart => Or.symm apart).mp sound.apart
    have own : block.Apart other := (List.pairwise_cons.mp apart).1 other kept
    obtain rfl := sound.pointer_unique member old same
    have positive := footprint_pos other.size
    rw [LiveBlock.Apart] at own
    omega
  · rintro ⟨old, apart⟩
    rcases List.mem_cons.mp (live.mem_iff.mp old) with rfl | kept
    · exact absurd rfl apart
    · exact kept

/-- One step keeps the counters of all live blocks from -1 precisely if it counts clear. -/
private theorem Blocks.Sound.clear_next {state after : Blocks platform}
    {entries later : List (Entry platform.width)} (sound : state.Sound entries)
    (soundNext : after.Sound later) {action : BlockAction platform}
    (effect : state.Effect maxTolerate entries after later action)
    (clear : ∀ block ∈ state.live, (sound.holds.tally block.site).cnt ≠ -1) :
    (∀ block ∈ after.live, (soundNext.holds.tally block.site).cnt ≠ -1) ↔
      state.CountsClear action := by
  cases effect with
  | refused site size record same table =>
    subst same table
    exact ⟨fun _ granted => absurd rfl granted, fun _ => clear⟩
  | alloc site size ptr record granted pointer live adds =>
    have here := adds.cnt sound.holds site
    rw [if_pos rfl] at here
    rw [live, List.forall_mem_cons]
    constructor
    · rintro ⟨mine, _⟩ _
      exact fun bad => mine (here.trans bad)
    · intro counts
      have mine : (soundNext.holds.tally site).cnt ≠ -1 := fun bad => counts granted (here.symm.trans bad)
      refine ⟨mine, fun block member => ?_⟩
      by_cases same : block.site = site
      · exact same ▸ mine
      · have kept := adds.cnt sound.holds block.site
        rw [if_neg same] at kept
        exact fun bad => clear block member (kept.symm.trans bad)
  | register site record live adds =>
    rw [live]
    refine ⟨fun _ => trivial, fun _ block member => ?_⟩
    have kept := adds.cnt sound.holds block.site
    have nothing : (Delta.request (0 : BitVec platform.width) false).cnt = 0 := by
      simp [Delta.request]
    have old := clear block member
    rw [nothing, add_zero] at kept
    split at kept
    · rename_i same
      rw [kept, sound.holds.cntAt_eq, ← same]
      exact old
    · rw [kept]
      exact old
  | free block live adds =>
    have member : block ∈ state.live := live.mem_iff.mpr List.mem_cons_self
    have released (size : BitVec platform.width) : (Delta.release size).cnt = -1 := rfl
    constructor
    · rintro all found foundMember same ⟨other, otherMember, apart, there⟩ zero
      obtain rfl := sound.pointer_unique member foundMember same
      have counted := adds.cnt sound.holds other.site
      rw [if_pos there, zero, released, zero_add] at counted
      exact all other ((sound.mem_of_freed live).mpr ⟨otherMember, apart⟩) counted
    · intro counts other otherMember bad
      obtain ⟨old, apart⟩ := (sound.mem_of_freed live).mp otherMember
      have counted := adds.cnt sound.holds other.site
      split at counted
      · rename_i same
        refine counts block member rfl ⟨other, old, apart, same⟩ ?_
        rw [bad, released] at counted
        exact right_eq_add.mp counted
      · exact clear other old (counted.symm.trans bad)
  | write pointer offset value live heap table =>
    subst table
    rw [live]
    exact ⟨fun _ => trivial, fun _ => clear⟩

/-- The invariant of every run. -/
def Tracking.IsSound (state : Tracking platform) : Prop := ∃ entries, state.Sound entries

theorem Tracking.IsSound.next {state : Tracking platform} {call : TrackingCall platform}
    (sound : state.IsSound) (enabled : (trackingSystem platform maxTolerate).enabled state call) :
    ((trackingSystem platform maxTolerate).next state call).IsSound := by
  obtain ⟨entries, sound⟩ := sound
  obtain ⟨later, soundNext, _⟩ := sound.next enabled
  exact ⟨later, soundNext⟩

private theorem Tracking.Sound.toldApart_next {state : Tracking platform}
    {entries : List (Entry platform.width)} {call : TrackingCall platform}
    (sound : state.Sound entries) (told : ToldApart state)
    (enabled : (trackingSystem platform maxTolerate).enabled state call) :
    ToldApart ((trackingSystem platform maxTolerate).next state call) ↔ CountsClear state call := by
  obtain ⟨later, soundNext, went⟩ := sound.next enabled
  have clear := sound.toldApart_iff.mp told
  rw [soundNext.toldApart_iff, CountsClear]
  generalize (trackingSystem platform maxTolerate).next state call = after at soundNext went ⊢
  generalize state.blockAction call = action at went ⊢
  cases went with
  | tracked action effect =>
    have step := sound.blocks.clear_next soundNext.blocks effect clear
    exact step.trans (by simp)
  | beside live heap table =>
    subst table
    rw [live]
    exact ⟨fun _ => nofun, fun _ => clear⟩

/-- However tracking is switched, tracked blocks and others are told apart throughout precisely
if the counters stay clear of the -1 that stands for a block that is not tracked. -/
theorem toldApart_always_iff (maxTolerate : CInt) (allocList : Nat) (memory : Memory)
    (calls : List (TrackingCall platform))
    (legal : (trackingSystem platform maxTolerate).Legal (.initial platform allocList memory) calls) :
    (trackingSystem platform maxTolerate).Always ToldApart (.initial platform allocList memory)
        calls ↔
      (trackingSystem platform maxTolerate).Guarded CountsClear
        (.initial platform allocList memory) calls := by
  have start := Tracking.Sound.initial platform allocList memory
  have nothing : ToldApart (Tracking.initial platform allocList memory) :=
    start.toldApart_iff.mpr nofun
  have sound : (Tracking.initial platform allocList memory).IsSound := ⟨[], start⟩
  apply System.always_iff_guarded sound nothing _ _ legal
  · intro state call sound enabled
    exact sound.next enabled
  · rintro state call ⟨entries, sound⟩ told enabled
    exact sound.toldApart_next told enabled

instance (state : Tracking platform) (asked ptr : BitVec platform.width) :
    Decidable (state.MallocGives asked ptr) :=
  inferInstanceAs (Decidable (ptr = 0 ∨ _ ∧ _ ∧ ∀ block ∈ state.live, _))

instance (state : Tracking platform) (record : Nat) : Decidable (state.FreshRecord record) :=
  inferInstanceAs (Decidable (state.books.heap.Fresh record ∧ record < 2 ^ platform.width))

instance (maxTolerate : CInt) : ∀ state call,
    Decidable ((trackingSystem platform maxTolerate).enabled state call)
  | _, .switch _ => isTrue trivial
  | state, .ssMalloc _ size ptr record => inferInstanceAs (Decidable
      (state.MallocGives (if state.ssMemleakTracking = 0 then size else mallocSize size) ptr ∧
        state.FreshRecord record))
  | state, .malloc size ptr => inferInstanceAs (Decidable (state.MallocGives size ptr))
  | state, .register _ record => inferInstanceAs (Decidable (state.FreshRecord record))
  | state, .ssFree pointer =>
    inferInstanceAs (Decidable (pointer = 0 ∨ ∃ block ∈ state.live, block.pointer = pointer))
  | state, .free pointer => inferInstanceAs
      (Decidable (∃ block ∈ state.live, block.pointer = pointer ∧ block.site = none))
  | state, .write pointer offset _ => inferInstanceAs (Decidable
      (∃ block ∈ state.live, block.pointer = pointer ∧ offset < block.size.toNat ∧
        block.ahead + offset < block.asked.toNat))

instance : ∀ (state : Blocks platform) action, Decidable (state.CountsClear action)
  | state, .alloc site size ptr _ => inferInstanceAs (Decidable
      (ptr ≠ 0 → state.books.heap.cntAt site + (if 0 < size then 1 else 0) ≠ -1))
  | state, .free pointer => inferInstanceAs (Decidable (∀ block ∈ state.live,
      block.pointer = pointer →
        (∃ other ∈ state.live, other.pointer ≠ pointer ∧ other.site = block.site) →
          state.books.heap.cntAt block.site ≠ 0))
  | _, .register .. | _, .write .. => isTrue trivial

instance (state : Tracking platform) (call : TrackingCall platform) :
    Decidable (CountsClear state call) :=
  inferInstanceAs (Decidable (∀ action ∈ state.blockAction call, _))

/-- A block from before the tracking, one from it and one from after, freed in that order,
and NULL. -/
theorem toldApart_always_three :
    (trackingSystem .x86_64 0).Always ToldApart (.initial .x86_64 8 fun _ => 0)
      [.malloc 8 16, .switch 1, .ssMalloc ⟨⟨[97], by decide⟩, 7⟩ 20 32 100, .write 44 0 255,
        .switch 0, .ssMalloc ⟨⟨[97], by decide⟩, 7⟩ 20 64 200, .ssFree 16, .ssFree 44, .ssFree 64,
        .ssFree 0] :=
  (toldApart_always_iff 0 8 _ _ (by decide)).mpr (by decide)

/-- Of two blocks of 0 bytes one is freed. The other is tracked, but `memleak_allocs_at`
answers -1. -/
theorem toldApart_lost :
    let start : Tracking .x86_64 := .initial .x86_64 8 fun _ => 0
    let site : Site := ⟨⟨[97], by decide⟩, 7⟩
    let calls : List (TrackingCall .x86_64) :=
      [.switch 1, .ssMalloc site 0 16 100, .ssMalloc site 0 48 200, .ssFree 28]
    (trackingSystem .x86_64 0).Legal start calls ∧
      ⟨48, 60, 0, some site⟩ ∈ ((trackingSystem .x86_64 0).exec start calls).live ∧
      ((trackingSystem .x86_64 0).exec start calls).books.memleakAllocsAt 60 = .ok (-1) ∧
      ¬ (trackingSystem .x86_64 0).Always ToldApart start calls := by
  intro start site calls
  have answer : ((trackingSystem .x86_64 0).exec start calls).books.memleakAllocsAt 60 =
      .ok (-1) := by decide
  have live : ⟨48, 60, 0, some site⟩ ∈ ((trackingSystem .x86_64 0).exec start calls).live := by
    decide
  refine ⟨by decide, live, answer, fun always => ?_⟩
  obtain ⟨_, record, _, _, _, _, _, counted, clear⟩ := always.last.tracked _ live site rfl
  have same := counted.symm.trans answer
  exact clear (Except.ok.inj same)

end TrippingRobot.Memleak
