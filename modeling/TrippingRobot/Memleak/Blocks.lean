import TrippingRobot.Data.Bytes
import TrippingRobot.Memleak.Delta

/-! Tracked blocks in byte memory. Each is preceded by the piggyback, where the
pointer to its record and its size are stored until it is freed. -/

namespace TrippingRobot.Memleak

open TrippingRobot.Data TrippingRobot.Machine

/-- The 32 bit system, with an `ALLOC_ALIGN` of 8, and the 64 bit system, with one of 16. -/
inductive Platform where
  | i386
  | x86_64
deriving DecidableEq

/-- The bytes of a pointer and of `size_t`. -/
def Platform.wordBytes : Platform → Nat
  | .i386 => 4
  | .x86_64 => 8

/-- The bits of a pointer and of `size_t`. -/
abbrev Platform.width (platform : Platform) : Nat := 8 * platform.wordBytes

def Platform.allocAlign : Platform → Nat
  | .i386 => 8
  | .x86_64 => 16

/-- `PIGGYBACK_SIZE`, the same on both platforms. -/
def piggybackSize : Nat := 12

structure Bookkeeping (platform : Platform) where
  heap : RecordHeap platform.width
  memory : Memory

variable {platform : Platform}

/-- The size that `get_memory` asks `malloc` for. -/
def mallocSize (size : BitVec platform.width) : BitVec platform.width :=
  .ofNat _ piggybackSize + size

def ptrToTrueptr (ptr : BitVec platform.width) : BitVec platform.width :=
  ptr - .ofNat _ piggybackSize

def trueptrIsValid (truePtr : BitVec platform.width) : Bool :=
  truePtr.toNat % platform.allocAlign = 0

/-- `pbdata->record`; the piggyback is packed. -/
def Bookkeeping.pbRecord (books : Bookkeeping platform) (pbdata : BitVec platform.width) : Nat :=
  books.memory.loadLE pbdata.toNat platform.wordBytes

/-- `pbdata->size`. -/
def Bookkeeping.pbSize (books : Bookkeeping platform) (pbdata : BitVec platform.width) : Nat :=
  books.memory.loadLE (pbdata.toNat + platform.wordBytes) platform.wordBytes

/-- `get_memory`; `ptr` is the answer of `malloc` and `record` what it would
give for a new record. Returns 0 for NULL. -/
def Bookkeeping.getMemory (books : Bookkeeping platform) (maxTolerate : CInt) (site : Site)
    (size ptr : BitVec platform.width) (record : Nat) :
    Except Stop (Bookkeeping platform × BitVec platform.width) :=
  if ptr = 0 then .ok (books, 0)
  else
    match books.heap.listPushRecord site size (isOveralloc maxTolerate size) record with
    | .error stop => .error stop
    | .ok (heap, record) =>
      let memory := books.memory.storeLE ptr.toNat platform.wordBytes record
      let memory := memory.storeLE (ptr.toNat + platform.wordBytes) platform.wordBytes size.toNat
      .ok ({ heap := heap, memory := memory }, ptr + .ofNat _ piggybackSize)

/-- `free_memory`, with the address it hands to `free`. -/
def Bookkeeping.freeMemory (books : Bookkeeping platform) (ptr : BitVec platform.width) :
    Except Stop (Bookkeeping platform × BitVec platform.width × Bool) :=
  let truePtr := ptrToTrueptr ptr
  if trueptrIsValid truePtr then
    match books.heap.releaseRecord (books.pbRecord truePtr) (.ofNat _ (books.pbSize truePtr)) with
    | .error stop => .error stop
    | .ok heap => .ok ({ books with heap := heap }, truePtr, true)
  else .ok (books, ptr, false)

/-- `memleak_allocs_at`. -/
def Bookkeeping.memleakAllocsAt (books : Bookkeeping platform) (ptr : BitVec platform.width) :
    Except Stop CInt :=
  let truePtr := ptrToTrueptr ptr
  if trueptrIsValid truePtr then
    match books.heap.record (books.pbRecord truePtr) with
    | none => .error .fault
    | some record => .ok record.cnt
  else .ok (-1)

structure LiveBlock (platform : Platform) where
  pointer : BitVec platform.width
  site : Site
  size : BitVec platform.width

/-- The address that `malloc` answered. -/
def LiveBlock.base (block : LiveBlock platform) : Nat := (ptrToTrueptr block.pointer).toNat

/-- The bytes a request takes from `malloc`; even one of 0 bytes gets an address of its own. -/
def footprint (size : BitVec platform.width) : Nat := max 1 (mallocSize size).toNat

structure Blocks (platform : Platform) where
  books : Bookkeeping platform
  live : List (LiveBlock platform)
  stopped : Option Stop

def Blocks.initial (platform : Platform) (allocList : Nat) (memory : Memory) : Blocks platform where
  books := ⟨.initial _ allocList, memory⟩
  live := []
  stopped := none

/-- The live blocks that were allocated at a site. -/
def Blocks.liveAt (state : Blocks platform) (site : Site) : List (LiveBlock platform) :=
  state.live.filter fun block => block.site = site

namespace Blocks

variable {state next : Blocks platform} {block : LiveBlock platform} {other : Site}

theorem liveAt_congr (live : next.live = state.live) (site : Site) :
    next.liveAt site = state.liveAt site := by
  rw [liveAt, live, liveAt]

theorem liveAt_cons (live : next.live = block :: state.live) :
    next.liveAt block.site = block :: state.liveAt block.site := by
  simp [liveAt, live]

theorem liveAt_cons_of_ne (live : next.live = block :: state.live) (different : other ≠ block.site) :
    next.liveAt other = state.liveAt other := by
  simp [liveAt, live, different.symm]

theorem liveAt_perm (live : state.live.Perm (block :: next.live)) :
    (state.liveAt block.site).Perm (block :: next.liveAt block.site) := by
  simpa [liveAt] using live.filter fun other => other.site = block.site

theorem liveAt_perm_of_ne (live : state.live.Perm (block :: next.live))
    (different : other ≠ block.site) : (state.liveAt other).Perm (next.liveAt other) := by
  simpa [liveAt, different.symm] using live.filter fun block => block.site = other

end Blocks

/-- The calls of the application, and its writes to its own blocks. -/
inductive BlockAction (platform : Platform) where
  | alloc (site : Site) (size ptr : BitVec platform.width) (record : Nat)
  | register (site : Site) (record : Nat)
  | free (pointer : BitVec platform.width)
  | write (pointer : BitVec platform.width) (offset : Nat) (value : UInt8)

def Blocks.next (maxTolerate : CInt) (state : Blocks platform) : BlockAction platform → Blocks platform
  | .alloc site size ptr record =>
    match state.books.getMemory maxTolerate site size ptr record with
    | .error stop => { state with stopped := some stop }
    | .ok (books, pointer) =>
      if pointer = 0 then { state with books := books }
      else { state with books := books, live := ⟨pointer, site, size⟩ :: state.live }
  | .register site record =>
    match state.books.heap.listPushRecord site 0 false record with
    | .error stop => { state with stopped := some stop }
    | .ok (heap, _) => { state with books := { state.books with heap := heap } }
  | .free pointer =>
    match state.books.freeMemory pointer with
    | .error stop => { state with stopped := some stop }
    | .ok (books, _, _) =>
      { state with
        books := books
        live := state.live.eraseP fun block => block.pointer = pointer }
  | .write pointer offset value =>
    let target := (pointer + .ofNat _ offset).toNat
    { state with
      books := { state.books with memory := Function.update state.books.memory target value } }

/-- `malloc` answers NULL, or an aligned address of memory that no live block has. -/
def Blocks.MallocGives (state : Blocks platform) (size ptr : BitVec platform.width) : Prop :=
  ptr = 0 ∨
    (ptr.toNat % platform.allocAlign = 0 ∧ ptr.toNat + footprint size ≤ 2 ^ platform.width ∧
      ∀ block ∈ state.live, ptr.toNat + footprint size ≤ block.base ∨
        block.base + footprint block.size ≤ ptr.toNat)

instance (state : Blocks platform) (size ptr : BitVec platform.width) :
    Decidable (state.MallocGives size ptr) :=
  inferInstanceAs (Decidable (ptr = 0 ∨ _ ∧ _ ∧ ∀ block ∈ state.live, _))

/-- What `malloc` gives for a record: unused memory that a pointer can point to. -/
def Blocks.FreshRecord (state : Blocks platform) (record : Nat) : Prop :=
  state.books.heap.Fresh record ∧ record < 2 ^ platform.width

instance (state : Blocks platform) (record : Nat) : Decidable (state.FreshRecord record) :=
  inferInstanceAs (Decidable (state.books.heap.Fresh record ∧ record < 2 ^ platform.width))

/-- Only live blocks are freed and written to, these anywhere in the `size`
bytes that were asked for. -/
def blockSystem (platform : Platform) (maxTolerate : CInt) :
    System (Blocks platform) (BlockAction platform) where
  enabled state
    | .alloc _ size ptr record => state.MallocGives size ptr ∧ state.FreshRecord record
    | .register _ record => state.FreshRecord record
    | .free pointer => ∃ block ∈ state.live, block.pointer = pointer
    | .write pointer offset _ =>
      ∃ block ∈ state.live, block.pointer = pointer ∧ offset < block.size.toNat
  next state action := state.next maxTolerate action

/-- Writes stay in the memory that `malloc` gave. They always do unless
`PIGGYBACK_SIZE + size` wraps around. -/
def InsideBlock (state : Blocks platform) : BlockAction platform → Prop
  | .write pointer offset _ => ∀ block ∈ state.live, block.pointer = pointer →
      piggybackSize + offset < (mallocSize block.size).toNat
  | _ => True

instance (maxTolerate : CInt) : ∀ state action,
    Decidable ((blockSystem platform maxTolerate).enabled state action)
  | state, .alloc _ size ptr record =>
    inferInstanceAs (Decidable (state.MallocGives size ptr ∧ state.FreshRecord record))
  | state, .register _ record => inferInstanceAs (Decidable (state.FreshRecord record))
  | state, .free pointer => inferInstanceAs (Decidable (∃ block ∈ state.live, block.pointer = pointer))
  | state, .write pointer offset _ =>
    inferInstanceAs
      (Decidable (∃ block ∈ state.live, block.pointer = pointer ∧ offset < block.size.toNat))

instance : ∀ (state : Blocks platform) action, Decidable (InsideBlock state action)
  | state, .write pointer offset _ =>
    inferInstanceAs (Decidable (∀ block ∈ state.live, block.pointer = pointer →
      piggybackSize + offset < (mallocSize block.size).toNat))
  | _, .alloc .. | _, .register .. | _, .free _ => isTrue trivial

/-- What the piggyback of a live block still says, whatever the application
wrote behind it: the record, and the low half of the size. -/
structure LiveBlock.Headed (block : LiveBlock platform) (memory : Memory)
    (places : List (Nat × Site)) : Prop where
  aligned : block.base % platform.allocAlign = 0
  inside : block.base + footprint block.size ≤ 2 ^ platform.width
  record : (memory.loadLE block.base platform.wordBytes, block.site) ∈ places
  low : memory.loadLE (block.base + platform.wordBytes) 4 = block.size.toNat % 256 ^ 4

def LiveBlock.Apart (block other : LiveBlock platform) : Prop :=
  block.base + footprint block.size ≤ other.base ∨ other.base + footprint other.size ≤ block.base

instance : Std.Symm (@LiveBlock.Apart platform) := ⟨fun _ _ apart => apart.symm⟩

structure Blocks.Sound (state : Blocks platform) (entries : List (Entry platform.width)) : Prop where
  holds : state.books.heap.Holds entries
  running : state.stopped = none
  addresses : ∀ node ∈ state.books.heap.created, node < 2 ^ platform.width
  headed : ∀ block ∈ state.live, block.Headed state.books.memory (placesOf entries)
  apart : state.live.Pairwise LiveBlock.Apart

/-- The ways a step can go, with what it adds to the table and to the live blocks. -/
inductive Blocks.Effect (maxTolerate : CInt) (state : Blocks platform)
    (entries : List (Entry platform.width)) (next : Blocks platform)
    (later : List (Entry platform.width)) : BlockAction platform → Prop
  | refused (site : Site) (size : BitVec platform.width) (record : Nat) (same : next = state)
      (table : later = entries) : Effect maxTolerate state entries next later (.alloc site size 0 record)
  | alloc (site : Site) (size ptr : BitVec platform.width) (record : Nat) (granted : ptr ≠ 0)
      (pointer : BitVec platform.width) (live : next.live = ⟨pointer, site, size⟩ :: state.live)
      (adds : state.books.heap.Adds entries site
        (.request size (isOveralloc maxTolerate size)) next.books.heap later) :
      Effect maxTolerate state entries next later (.alloc site size ptr record)
  | register (site : Site) (record : Nat) (live : next.live = state.live)
      (adds : state.books.heap.Adds entries site (.request 0 false) next.books.heap later) :
      Effect maxTolerate state entries next later (.register site record)
  | free (block : LiveBlock platform) (live : state.live.Perm (block :: next.live))
      (adds : state.books.heap.Adds entries block.site
        (.release (.ofNat _ (state.books.pbSize (ptrToTrueptr block.pointer))))
        next.books.heap later) :
      Effect maxTolerate state entries next later (.free block.pointer)
  | write (pointer : BitVec platform.width) (offset : Nat) (value : UInt8)
      (live : next.live = state.live) (heap : next.books.heap = state.books.heap)
      (table : later = entries) :
      Effect maxTolerate state entries next later (.write pointer offset value)

theorem Blocks.Sound.initial (platform : Platform) (allocList : Nat) (memory : Memory) :
    (Blocks.initial platform allocList memory).Sound [] where
  holds := .initial allocList
  running := rfl
  addresses := by simp [Blocks.initial, RecordHeap.initial]
  headed := by simp [Blocks.initial]
  apart := .nil

theorem Platform.header_fits (platform : Platform) :
    platform.wordBytes + 4 ≤ platform.allocAlign ∧ platform.wordBytes + 4 ≤ piggybackSize ∧
      2 * platform.wordBytes = platform.allocAlign := by
  cases platform <;> decide

variable {block other : LiveBlock platform} {memory later : Memory} {places : List (Nat × Site)}

theorem LiveBlock.Headed.congr (headed : block.Headed memory places)
    (same : ∀ address, block.base ≤ address → address < block.base + platform.wordBytes + 4 →
      later address = memory address) : block.Headed later places where
  aligned := headed.aligned
  inside := headed.inside
  record := by
    rw [Memory.loadLE_congr fun address lower upper => same address lower (by omega)]
    exact headed.record
  low := by
    rw [Memory.loadLE_congr fun address lower upper => same address (by omega) upper]
    exact headed.low

theorem LiveBlock.Headed.mono (headed : block.Headed memory places) (kept : places ⊆ more) :
    block.Headed memory more :=
  { headed with record := kept headed.record }

/-- Aligned addresses of different blocks are a whole header apart. -/
theorem header_le_of_lt {base other align : Nat} (aligned : base % align = 0)
    (otherAligned : other % align = 0) (below : base < other) : base + align ≤ other := by
  obtain ⟨first, rfl⟩ := Nat.dvd_of_mod_eq_zero aligned
  obtain ⟨second, rfl⟩ := Nat.dvd_of_mod_eq_zero otherAligned
  have ordered : first < second := Nat.lt_of_mul_lt_mul_left below
  calc align * first + align = align * (first + 1) := (Nat.mul_succ _ _).symm
    _ ≤ align * second := Nat.mul_le_mul_left _ ordered

theorem footprint_pos (size : BitVec platform.width) : 0 < footprint size :=
  Nat.lt_of_lt_of_le Nat.one_pos (Nat.le_max_left _ _)

theorem base_of_pointer (ptr : BitVec platform.width) (site : Site) (size : BitVec platform.width) :
    (⟨ptr + .ofNat _ piggybackSize, site, size⟩ : LiveBlock platform).base = ptr.toNat := by
  simp [LiveBlock.base, ptrToTrueptr]

theorem Platform.pow_wordBytes (platform : Platform) :
    256 ^ platform.wordBytes = 2 ^ platform.width :=
  (Nat.pow_mul 2 8 platform.wordBytes).symm

theorem mallocSize_of_fits {size : BitVec platform.width}
    (fits : piggybackSize + size.toNat < 2 ^ platform.width) :
    (mallocSize size).toNat = piggybackSize + size.toNat := by
  rw [mallocSize, BitVec.toNat_add, BitVec.toNat_ofNat, Nat.mod_add_mod, Nat.mod_eq_of_lt fits]

/-- An aligned address is never 12 below the top, so a granted pointer is not NULL. -/
theorem pointer_ne_zero {ptr : BitVec platform.width}
    (aligned : ptr.toNat % platform.allocAlign = 0) : ptr + .ofNat _ piggybackSize ≠ 0 := by
  intro zero
  have sum : (ptr.toNat + piggybackSize % 2 ^ platform.width) % 2 ^ platform.width = 0 := by
    have added := congrArg BitVec.toNat zero
    rwa [BitVec.toNat_add, BitVec.toNat_ofNat] at added
  generalize ptr.toNat = address at sum aligned
  cases platform
  · simp only [piggybackSize, Platform.allocAlign, Platform.width, Platform.wordBytes] at sum aligned
    omega
  · simp only [piggybackSize, Platform.allocAlign, Platform.width, Platform.wordBytes] at sum aligned
    omega

private theorem listPushRecord_created {heap later : RecordHeap w}
    (returned : heap.listPushRecord site size overalloc answer = .ok (later, node)) :
    ∀ address ∈ later.created, address ∈ heap.created ∨ address = answer := by
  simp only [RecordHeap.listPushRecord] at returned
  split at returned
  · cases returned
  · split at returned
    · cases returned
    · cases returned
      exact fun address member => .inl member
  · split at returned
    · cases returned
    · cases returned
      intro address member
      simpa [RecordHeap.listAddTail, RecordHeap.setRecord] using member

private theorem releaseRecord_created {heap later : RecordHeap w}
    (returned : heap.releaseRecord node size = .ok later) : later.created = heap.created := by
  simp only [RecordHeap.releaseRecord] at returned
  split at returned
  · cases returned
  · cases returned
    rfl

namespace Blocks.Sound

variable {state : Blocks platform} {entries : List (Entry platform.width)} {maxTolerate : CInt}

private theorem addresses_push (sound : state.Sound entries) (fresh : state.FreshRecord record)
    (returned : state.books.heap.listPushRecord site size overalloc record = .ok (heap, node)) :
    ∀ address ∈ heap.created, address < 2 ^ platform.width := by
  intro address member
  rcases listPushRecord_created returned address member with old | rfl
  · exact sound.addresses address old
  · exact fresh.2

private theorem getMemory_headed {ptr size : BitVec platform.width}
    (headed : ∀ block ∈ state.live, block.Headed state.books.memory places)
    (aligned : ptr.toNat % platform.allocAlign = 0)
    (separate : ∀ block ∈ state.live, ptr.toNat + footprint size ≤ block.base ∨
      block.base + footprint block.size ≤ ptr.toNat) (node : Nat) :
    ∀ block ∈ state.live, block.Headed
      ((state.books.memory.storeLE ptr.toNat platform.wordBytes node).storeLE
        (ptr.toNat + platform.wordBytes) platform.wordBytes size.toNat) places := by
  intro block member
  have old := headed block member
  have fits := platform.header_fits
  have positive := footprint_pos size
  have blockPositive := footprint_pos block.size
  have apart := separate block member
  apply old.congr
  intro address lower upper
  rcases Nat.lt_or_gt_of_ne (show ptr.toNat ≠ block.base by omega) with before | after
  · have gap := header_le_of_lt aligned old.aligned before
    rw [Memory.storeLE_outside _ (.inr (by omega)), Memory.storeLE_outside _ (.inr (by omega))]
  · have gap := header_le_of_lt old.aligned aligned after
    rw [Memory.storeLE_outside _ (.inl (by omega)), Memory.storeLE_outside _ (.inl (by omega))]

private theorem getMemory_header {ptr size : BitVec platform.width} {places : List (Nat × Site)}
    (aligned : ptr.toNat % platform.allocAlign = 0)
    (inside : ptr.toNat + footprint size ≤ 2 ^ platform.width) (memory : Memory)
    (small : node < 2 ^ platform.width) (mine : (node, site) ∈ places) :
    (⟨ptr + .ofNat _ piggybackSize, site, size⟩ : LiveBlock platform).Headed
      ((memory.storeLE ptr.toNat platform.wordBytes node).storeLE
        (ptr.toNat + platform.wordBytes) platform.wordBytes size.toNat) places := by
  have fits := platform.header_fits
  constructor
  · simpa only [base_of_pointer] using aligned
  · simpa only [base_of_pointer] using inside
  · have kept : ∀ address, ptr.toNat ≤ address → address < ptr.toNat + platform.wordBytes →
        (memory.storeLE ptr.toNat platform.wordBytes node).storeLE
          (ptr.toNat + platform.wordBytes) platform.wordBytes size.toNat address =
        memory.storeLE ptr.toNat platform.wordBytes node address :=
      fun address _ upper => Memory.storeLE_outside _ (.inl upper)
    rw [base_of_pointer, Memory.loadLE_congr kept, Memory.loadLE_storeLE _ _ _ le_rfl,
      platform.pow_wordBytes, Nat.mod_eq_of_lt small]
    exact mine
  · rw [base_of_pointer, Memory.loadLE_storeLE _ _ _ (by cases platform <;> decide)]

/-- A write inside a block touches no header, its own included. -/
private theorem write_headed (sound : state.Sound entries) (block : LiveBlock platform)
    (member : block ∈ state.live)
    (insideBlock : piggybackSize + offset < (mallocSize block.size).toNat) (value : UInt8) :
    ∀ other ∈ state.live, other.Headed
      (Function.update state.books.memory (block.pointer + .ofNat _ offset).toNat value)
      (placesOf entries) := by
  have headed := sound.headed block member
  have extent : (mallocSize block.size).toNat ≤ footprint block.size := Nat.le_max_right _ _
  have inside := headed.inside
  have target : (block.pointer + .ofNat _ offset).toNat = block.base + (piggybackSize + offset) := by
    have shifted : block.pointer = ptrToTrueptr block.pointer + .ofNat _ piggybackSize := by
      simp [ptrToTrueptr]
    rw [shifted, BitVec.add_assoc, BitVec.ofNat_add_ofNat, BitVec.toNat_add, BitVec.toNat_ofNat]
    simp only [LiveBlock.base] at inside ⊢
    rw [Nat.add_mod_mod]
    apply Nat.mod_eq_of_lt
    simp [ptrToTrueptr] at inside ⊢
    omega
  intro other otherMember
  have otherHeaded := sound.headed other otherMember
  have fits := platform.header_fits
  apply otherHeaded.congr
  intro address lower upper
  rw [target, Function.update_of_ne]
  by_cases same : other = block
  · subst same
    omega
  · rcases sound.apart.forall otherMember member same with before | after
    · have positive := footprint_pos other.size
      have gap := header_le_of_lt otherHeaded.aligned headed.aligned (by omega)
      omega
    · omega

theorem pointer_unique (sound : state.Sound entries) (member : block ∈ state.live)
    (otherMember : other ∈ state.live) (same : other.pointer = block.pointer) : other = block := by
  by_contra different
  have apart := sound.apart.forall otherMember member different
  have positive := footprint_pos block.size
  have otherPositive := footprint_pos other.size
  simp only [LiveBlock.Apart, LiveBlock.base, same] at apart
  omega

private theorem next_alloc (sound : state.Sound entries) {size ptr : BitVec platform.width}
    (gives : state.MallocGives size ptr)
    (fresh : state.books.heap.Fresh record ∧ record < 2 ^ platform.width) :
    ∃ later, (state.next maxTolerate (.alloc site size ptr record)).Sound later ∧
      state.Effect maxTolerate entries (state.next maxTolerate (.alloc site size ptr record)) later
        (.alloc site size ptr record) := by
  by_cases null : ptr = 0
  · subst null
    have next : state.next maxTolerate (.alloc site size 0 record) = state := by
      simp [Blocks.next, Bookkeeping.getMemory]
    rw [next]
    exact ⟨entries, sound, .refused site size record rfl rfl⟩
  · obtain ⟨aligned, top, separate⟩ := gives.resolve_left null
    obtain ⟨heap, node, later, returned, adds, mine⟩ :=
      sound.holds.request fresh.1 site size maxTolerate
    have addresses := addresses_push sound fresh returned
    have small : node < 2 ^ platform.width := by
      apply addresses
      rw [← adds.holds.created.mem_iff]
      obtain ⟨entry, found, place⟩ := List.mem_map.mp mine
      exact List.mem_map.mpr ⟨entry, found, congrArg Prod.fst place⟩
    simp only [Blocks.next, Bookkeeping.getMemory, null, if_false, returned,
      pointer_ne_zero aligned]
    refine ⟨later, ⟨adds.holds, sound.running, addresses, ?_, ?_⟩,
      .alloc site size ptr record null _ rfl adds⟩
    · intro block member
      rcases List.mem_cons.mp member with rfl | old
      · exact getMemory_header aligned top _ small mine
      · have kept := getMemory_headed sound.headed aligned separate node block old
        exact kept.mono adds.kept.subset
    · refine List.pairwise_cons.mpr ⟨?_, sound.apart⟩
      intro block member
      simpa only [LiveBlock.Apart, base_of_pointer] using separate block member

private theorem next_register (sound : state.Sound entries)
    (fresh : state.books.heap.Fresh record ∧ record < 2 ^ platform.width) :
    ∃ later, (state.next maxTolerate (.register site record)).Sound later ∧
      state.Effect maxTolerate entries (state.next maxTolerate (.register site record)) later
        (.register site record) := by
  obtain ⟨heap, node, later, returned, adds, mine⟩ := sound.holds.register fresh.1 site
  have addresses := addresses_push sound fresh returned
  simp only [Blocks.next, returned]
  refine ⟨later, ⟨adds.holds, sound.running, addresses, ?_, sound.apart⟩,
    .register site record rfl adds⟩
  intro block member
  exact (sound.headed block member).mono adds.kept.subset

private theorem next_free (sound : state.Sound entries) {block : LiveBlock platform}
    (member : block ∈ state.live) :
    ∃ later, (state.next maxTolerate (.free block.pointer)).Sound later ∧
      state.Effect maxTolerate entries (state.next maxTolerate (.free block.pointer)) later
        (.free block.pointer) := by
  have headed := sound.headed block member
  have record : (state.books.pbRecord (ptrToTrueptr block.pointer), block.site) ∈
    placesOf entries := headed.record
  obtain ⟨heap, later, returned, adds, places⟩ := sound.holds.release record
    (.ofNat _ (state.books.pbSize (ptrToTrueptr block.pointer)))
  have valid : trueptrIsValid (ptrToTrueptr block.pointer) = true :=
    decide_eq_true headed.aligned
  obtain ⟨found, before, after, _, matched, split, erased⟩ :=
    List.exists_of_eraseP member (p := fun other => other.pointer = block.pointer) (by simp)
  have foundMember : found ∈ state.live := by simp [split]
  obtain rfl : found = block := sound.pointer_unique member foundMember (by simpa using matched)
  simp only [Blocks.next, Bookkeeping.freeMemory, valid, if_true, returned, erased]
  have rest : (before ++ after).Sublist state.live := by
    rw [← erased]
    exact List.eraseP_sublist
  refine ⟨later, ⟨adds.holds, sound.running, ?_, ?_, sound.apart.sublist rest⟩,
    .free found ?_ adds⟩
  · rw [releaseRecord_created returned]
    exact sound.addresses
  · intro block member
    exact (sound.headed block (rest.subset member)).mono adds.kept.subset
  · rw [split]
    exact List.perm_middle

/-- One step keeps the headers and has one of the five effects. -/
theorem next (sound : state.Sound entries) {action : BlockAction platform}
    (enabled : (blockSystem platform maxTolerate).enabled state action)
    (inside : InsideBlock state action) :
    ∃ later, ((blockSystem platform maxTolerate).next state action).Sound later ∧
      state.Effect maxTolerate entries ((blockSystem platform maxTolerate).next state action)
        later action := by
  cases action with
  | alloc site size ptr record =>
    obtain ⟨gives, fresh⟩ := enabled
    exact sound.next_alloc gives fresh
  | register site record => exact sound.next_register enabled
  | free pointer =>
    obtain ⟨block, member, rfl⟩ := enabled
    exact sound.next_free member
  | write pointer offset value =>
    obtain ⟨block, member, rfl, _⟩ := enabled
    have headed := sound.write_headed block member (inside block member rfl) value
    exact ⟨entries, ⟨sound.holds, sound.running, sound.addresses, headed, sound.apart⟩,
      .write _ offset value rfl rfl rfl⟩

/-- A property of every record may be stated of every site, as live blocks have records. -/
theorem forall_table_iff (sound : state.Sound entries)
    (property : Site → Tally platform.width → Prop)
    (empty : ∀ site, state.liveAt site = [] → property site .zero) :
    (∀ record ∈ state.books.heap.table, property record.toSite record.toTally) ↔
      ∀ site, property site (sound.holds.tally site) := by
  constructor
  · intro all site
    cases found : sound.holds.toTable.lookup site with
    | none =>
      simp only [RecordHeap.Holds.tally, found, Option.getD_none]
      apply empty
      rw [Blocks.liveAt, List.filter_eq_nil_iff]
      intro block member here
      obtain ⟨record, _, present⟩ := sound.holds.exists_lookup (sound.headed block member).record
      rw [of_decide_eq_true here, found] at present
      cases present
    | some tally =>
      simp only [RecordHeap.Holds.tally, found, Option.getD_some]
      exact all ⟨site, tally⟩ ((sound.holds.mem_table_iff _).mpr found)
  · intro all record member
    have found := (sound.holds.mem_table_iff record).mp member
    have here := all record.toSite
    rwa [RecordHeap.Holds.tally, found] at here

end Blocks.Sound

/-- The invariant of every run whose writes stay inside their blocks. -/
def Blocks.IsSound (state : Blocks platform) : Prop := ∃ entries, state.Sound entries

theorem Blocks.IsSound.next {state : Blocks platform} {action : BlockAction platform}
    (sound : state.IsSound)
    (step : (blockSystem platform maxTolerate).enabled state action ∧ InsideBlock state action) :
    ((blockSystem platform maxTolerate).next state action).IsSound := by
  obtain ⟨entries, sound⟩ := sound
  obtain ⟨later, soundNext, _⟩ := sound.next step.1 step.2
  exact ⟨later, soundNext⟩

end TrippingRobot.Memleak
