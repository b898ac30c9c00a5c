import TrippingRobot.Memleak.Tracking

/-! What the application stores in its blocks stays there: the bookkeeper changes no byte of them,
and tracking may be switched at any time. -/

namespace TrippingRobot.Memleak

open TrippingRobot.Data TrippingRobot.Machine

variable {platform : Platform}

/-- The application's own view: the byte it stored last at each offset of a pointer. -/
abbrev Contents (platform : Platform) := BitVec platform.width → Nat → Option UInt8

def Contents.next (contents : Contents platform) : TrackingCall platform → Contents platform
  | .write pointer offset value =>
    Function.update contents pointer (Function.update (contents pointer) offset (some value))
  | .ssFree pointer | .free pointer => Function.update contents pointer fun _ => none
  | .switch _ | .ssMalloc .. | .malloc .. | .register .. => contents

def contentsOf (calls : List (TrackingCall platform)) : Contents platform :=
  calls.foldl Contents.next fun _ _ => none

structure Tracking.Stores (state : Tracking platform) (pointer : BitVec platform.width)
    (offset : Nat) (value : UInt8) : Prop where
  owned : ∃ block ∈ state.live, block.pointer = pointer ∧ offset < block.size.toNat ∧
    block.ahead + offset < block.asked.toNat
  stored : state.books.memory (pointer + .ofNat _ offset).toNat = value

def Tracking.Follows (state : Tracking platform) (contents : Contents platform) : Prop :=
  ∀ pointer offset value, contents pointer offset = some value → state.Stores pointer offset value

/-! ## Where the bytes are -/

namespace OwnBlock

variable {block other : OwnBlock platform}

theorem Placed.byte (placed : block.Placed) (inside : block.ahead + offset < block.asked.toNat) :
    (block.pointer + .ofNat _ offset).toNat = block.address.toNat + (block.ahead + offset) := by
  have top := placed.inside
  have extent : block.asked.toNat ≤ block.extent := Nat.le_max_right _ _
  rw [placed.pointer, BitVec.add_assoc, BitVec.ofNat_add_ofNat, BitVec.toNat_add, BitVec.toNat_ofNat,
    Nat.add_mod_mod]
  exact Nat.mod_eq_of_lt (by omega)

end OwnBlock

namespace Tracking.Sound

variable {state : Tracking platform} {entries : List (Entry platform.width)} {maxTolerate : CInt}
  {block other : OwnBlock platform} {site : Site}

/-- Two bytes of the application have one address only if they are the same. -/
theorem byte_unique (sound : state.Sound entries) (member : block ∈ state.live)
    (inside : block.ahead + offset < block.asked.toNat) (otherMember : other ∈ state.live)
    (otherInside : other.ahead + place < other.asked.toNat)
    (same : (block.pointer + .ofNat _ offset).toNat = (other.pointer + .ofNat _ place).toNat) :
    block = other ∧ offset = place := by
  rw [(sound.placed block member).byte inside, (sound.placed other otherMember).byte otherInside]
    at same
  have extent : block.asked.toNat ≤ block.extent := Nat.le_max_right _ _
  have otherExtent : other.asked.toNat ≤ other.extent := Nat.le_max_right _ _
  by_cases different : block = other
  · subst different
    exact ⟨rfl, by omega⟩
  · rcases sound.apart.forall member otherMember different with before | after
    · omega
    · omega

/-- The piggyback of a new block is stored beside all others, even where it is longer than what
`malloc` was asked for. -/
theorem header_beside (sound : state.Sound entries) {asked ptr : BitVec platform.width}
    (gives : state.MallocGives asked ptr) (granted : ptr ≠ 0) (member : block ∈ state.live)
    (inside : block.ahead + offset < block.asked.toNat) :
    (block.pointer + .ofNat _ offset).toNat < ptr.toNat ∨
      ptr.toNat + platform.allocAlign ≤ (block.pointer + .ofNat _ offset).toNat := by
  obtain ⟨aligned, _, separate⟩ := gives.resolve_left granted
  have placed := sound.placed block member
  have extent : block.asked.toNat ≤ block.extent := Nat.le_max_right _ _
  rw [placed.byte inside]
  rcases separate block member with before | after
  · have gap := header_le_of_lt aligned placed.aligned (by omega)
    omega
  · omega

end Tracking.Sound

/-! ## One call -/

theorem Bookkeeping.getMemory_memory {books after : Bookkeeping platform}
    {size ptr pointer : BitVec platform.width}
    (returned : books.getMemory maxTolerate site size ptr record = .ok (after, pointer))
    {address : Nat} (beside : ptr = 0 ∨ address < ptr.toNat ∨
      ptr.toNat + platform.allocAlign ≤ address) :
    after.memory address = books.memory address := by
  have fits := platform.header_fits
  rw [Bookkeeping.getMemory] at returned
  split at returned
  · cases returned
    rfl
  · rename_i granted
    have beside := beside.resolve_left granted
    split at returned
    · cases returned
    · cases returned
      simp only
      rw [Memory.storeLE_outside _ (by omega), Memory.storeLE_outside _ (by omega)]

theorem Bookkeeping.freeMemory_memory {books after : Bookkeeping platform}
    (returned : books.freeMemory pointer = .ok (after, address, tracked)) :
    after.memory = books.memory := by
  simp only [Bookkeeping.freeMemory] at returned
  split at returned
  · split at returned
    · cases returned
    · cases returned
      rfl
  · cases returned
    rfl

namespace Tracking

variable {state after : Tracking platform} {entries : List (Entry platform.width)}
  {maxTolerate : CInt} {contents : Contents platform}

theorem Stores.keep (stores : state.Stores pointer offset value)
    (live : ∀ block ∈ state.live, block.pointer = pointer → block ∈ after.live)
    (memory : after.books.memory (pointer + .ofNat _ offset).toNat =
      state.books.memory (pointer + .ofNat _ offset).toNat) : after.Stores pointer offset value where
  owned := by
    obtain ⟨block, member, same, inside⟩ := stores.owned
    exact ⟨block, live block member same, same, inside⟩
  stored := memory.trans stores.stored

theorem Follows.freed (follows : state.Follows contents)
    (live : after.live = state.live ∨ after.live = state.without pointer)
    (memory : after.books.memory = state.books.memory) :
    after.Follows (Function.update contents pointer fun _ => none) := by
  intro other offset value here
  by_cases same : other = pointer
  · rw [same, Function.update_self] at here
    cases here
  · rw [Function.update_of_ne same] at here
    refine (follows other offset value here).keep (fun block member mine => ?_) (by rw [memory])
    rcases live with kept | fewer
    · exact kept ▸ member
    · rw [fewer]
      refine (List.mem_eraseP_of_neg ?_).mpr member
      simpa [mine] using same

theorem Follows.write (follows : state.Follows contents) (sound : state.Sound entries)
    (enabled : (trackingSystem platform maxTolerate).enabled state (.write pointer offset value)) :
    (state.next maxTolerate (.write pointer offset value)).Follows
      (contents.next (.write pointer offset value)) := by
  obtain ⟨block, member, rfl, within, inside⟩ := enabled
  intro other place stored here
  by_cases same : other = block.pointer ∧ place = offset
  · obtain ⟨rfl, rfl⟩ := same
    obtain rfl : value = stored := by simpa [Contents.next] using here
    exact ⟨⟨block, member, rfl, within, inside⟩, Function.update_self ..⟩
  · have before : contents other place = some stored := by
      rw [← here, Contents.next]
      by_cases mine : other = block.pointer
      · subst mine
        rw [Function.update_self, Function.update_of_ne fun equal => same ⟨rfl, equal⟩]
      · rw [Function.update_of_ne mine]
    refine (follows other place stored before).keep (fun _ owned _ => owned) ?_
    obtain ⟨found, owned, rfl, _, foundInside⟩ := (follows other place stored before).owned
    refine Function.update_of_ne (fun equal => same ?_) ..
    obtain ⟨rfl, rfl⟩ := sound.byte_unique owned foundInside member inside equal
    exact ⟨rfl, rfl⟩

theorem Follows.next (follows : state.Follows contents) (sound : state.Sound entries)
    {call : TrackingCall platform}
    (enabled : (trackingSystem platform maxTolerate).enabled state call) :
    ((trackingSystem platform maxTolerate).next state call).Follows (contents.next call) := by
  simp only [trackingSystem]
  cases call with
  | switch value =>
    exact fun pointer offset value here =>
      (follows pointer offset value here).keep (fun _ member _ => member) rfl
  | ssMalloc site size ptr record =>
    intro pointer offset value here
    have stores := follows pointer offset value here
    obtain ⟨block, member, rfl, _, inside⟩ := stores.owned
    simp only [Tracking.next]
    split
    · exact stores.keep (fun _ owned _ => owned) rfl
    · rename_i books obtained returned
      have memory : books.memory (block.pointer + .ofNat _ offset).toNat =
          state.books.memory (block.pointer + .ofNat _ offset).toNat := by
        rw [Bookkeeping.ssMalloc] at returned
        split at returned
        · cases returned
          rfl
        · refine Bookkeeping.getMemory_memory returned ?_
          by_cases granted : ptr = 0
          · exact .inl granted
          · exact .inr (sound.header_beside enabled.1 granted member inside)
      split
      · exact stores.keep (fun _ owned _ => owned) memory
      · exact stores.keep (fun _ owned _ => List.mem_cons_of_mem _ owned) memory
  | malloc size ptr =>
    intro pointer offset value here
    simp only [Tracking.next]
    split
    · exact follows pointer offset value here
    · exact (follows pointer offset value here).keep
        (fun _ member _ => List.mem_cons_of_mem _ member) rfl
  | register site record =>
    intro pointer offset value here
    have stores := follows pointer offset value here
    simp only [Tracking.next]
    split
    · exact stores.keep (fun _ owned _ => owned) rfl
    · exact stores.keep (fun _ owned _ => owned) rfl
  | ssFree pointer =>
    simp only [Tracking.next]
    split
    · exact follows.freed (.inl rfl) rfl
    · rename_i books freed tracked returned
      exact follows.freed (.inr rfl) (Bookkeeping.freeMemory_memory returned)
  | free pointer => exact follows.freed (.inr rfl) rfl
  | write pointer offset value => exact follows.write sound enabled

theorem Follows.exec (follows : state.Follows contents) (sound : state.Sound entries)
    (legal : (trackingSystem platform maxTolerate).Legal state calls) :
    ((trackingSystem platform maxTolerate).exec state calls).Follows
      (calls.foldl Contents.next contents) := by
  induction calls generalizing state entries contents with
  | nil => exact follows
  | cons call rest ih =>
    obtain ⟨later, soundNext, _⟩ := sound.next legal.1
    exact ih (follows.next sound legal.1) soundNext legal.2

end Tracking

/-- The bookkeeper is transparent to the application's data. Whatever is allocated, registered and
freed, tracked or not, each byte of a live block is the one the application stored there last. -/
theorem data_kept (allocList : Nat) (memory : Memory)
    (legal : (trackingSystem platform maxTolerate).Legal (.initial platform allocList memory) calls) :
    let state := (trackingSystem platform maxTolerate).exec (.initial platform allocList memory) calls
    ∀ pointer offset value, contentsOf calls pointer offset = some value →
      (∃ block ∈ state.live, block.pointer = pointer ∧ offset < block.size.toNat) ∧
        state.books.memory (pointer + .ofNat _ offset).toNat = value := by
  intro state pointer offset value here
  have start : (Tracking.initial platform allocList memory).Follows fun _ _ => none :=
    fun _ _ _ => nofun
  obtain ⟨⟨block, member, same, within, _⟩, stored⟩ :=
    start.exec (.initial platform allocList memory) legal pointer offset value here
  exact ⟨⟨block, member, same, within⟩, stored⟩

/-- The piggyback of a block of no bytes is 4 bytes longer than what `malloc` is asked for; it stays
between its neighbours. -/
def neighbours : List (TrackingCall .x86_64) :=
  let site : Site := ⟨⟨[118], by decide⟩, 7⟩
  [.switch 1, .ssMalloc site 3 16 100, .write 28 2 255, .switch 0, .malloc 8 48, .write 48 0 1,
    .switch 1, .ssMalloc site 0 32 200, .ssFree 44]

theorem data_kept_two :
    let state := (trackingSystem .x86_64 0).exec (.initial .x86_64 8 fun _ => 0) neighbours
    ((∃ block ∈ state.live, block.pointer = 28 ∧ 2 < block.size.toNat) ∧
      state.books.memory 30 = 255) ∧
    (∃ block ∈ state.live, block.pointer = 48 ∧ 0 < block.size.toNat) ∧
      state.books.memory 48 = 1 := by
  have legal : (trackingSystem .x86_64 0).Legal (.initial .x86_64 8 fun _ => 0) neighbours := by
    decide
  exact ⟨data_kept 8 _ legal 28 2 255 (by decide), data_kept 8 _ legal 48 0 1 (by decide)⟩

end TrippingRobot.Memleak
