import TrippingRobot.Memleak.Blocks

/-! What the byte totals sum. The size to subtract is read back from the
piggyback, which on x86_64 is longer than `PIGGYBACK_SIZE`: the upper half of
the size lies in the first four bytes of the application's block. -/

namespace TrippingRobot.Memleak

open TrippingRobot.Data TrippingRobot.Machine

variable {platform : Platform}

/-- The bytes that the live blocks of a site were requested with. -/
def Blocks.liveBytes (state : Blocks platform) (site : Site) : Nat :=
  ((state.liveAt site).map fun block => block.size.toNat).sum

/-- A tally sums the live blocks of its site. -/
def Blocks.Summed (state : Blocks platform) (site : Site) (tally : Tally platform.width) : Prop :=
  tally.memTotal.toNat = state.liveBytes site

/-- Every record sums the live blocks of its site. -/
def TotalsLaw (state : Blocks platform) : Prop :=
  ∀ record ∈ state.books.heap.table, record.memTotal.toNat = state.liveBytes record.toSite

/-- The upper half of the size is still behind the first 12 bytes of the
piggyback. On i386 the piggyback has no such bytes. -/
def Blocks.SizeIntact (state : Blocks platform) (block : LiveBlock platform) : Prop :=
  platform = .x86_64 →
    state.books.memory.loadLE (block.base + piggybackSize) 4 = block.size.toNat / 256 ^ 4

/-- A block is freed with its size intact, and the bytes of a site can be
counted in a `size_t`. -/
def SumsUp (state : Blocks platform) : BlockAction platform → Prop
  | .alloc site size ptr _ => ptr ≠ 0 → state.liveBytes site + size.toNat < 2 ^ platform.width
  | .free pointer => ∀ block ∈ state.live, block.pointer = pointer → state.SizeIntact block
  | _ => True

theorem LiveBlock.Headed.pbSize_eq_iff {state : Blocks platform} {block : LiveBlock platform}
    (headed : block.Headed state.books.memory places) :
    state.books.pbSize (ptrToTrueptr block.pointer) = block.size.toNat ↔ state.SizeIntact block := by
  have low := headed.low
  have bound := block.size.isLt
  have size : state.books.pbSize (ptrToTrueptr block.pointer) =
      state.books.memory.loadLE (block.base + platform.wordBytes) platform.wordBytes := rfl
  have halves := Nat.mod_add_div block.size.toNat (256 ^ 4)
  rw [size]
  cases platform with
  | i386 =>
    have whole : block.size.toNat % 256 ^ 4 = block.size.toNat := Nat.mod_eq_of_lt bound
    constructor
    · intro _ wide
      cases wide
    · intro _
      exact low.trans whole
  | x86_64 =>
    have parts := state.books.memory.loadLE_add (block.base + 8) 4 4
    simp only [Platform.wordBytes] at low ⊢
    rw [parts, low]
    constructor
    · intro same _
      have shifted : block.base + piggybackSize = block.base + 8 + 4 := rfl
      rw [shifted]
      omega
    · intro intact
      have high : state.books.memory.loadLE (block.base + 8 + 4) 4 = block.size.toNat / 256 ^ 4 :=
        intact rfl
      rw [high]
      exact halves

private theorem toNat_sub_stored (total : BitVec w) (fits : stored < 2 ^ w) :
    (total - .ofNat w stored).toNat =
      if stored ≤ total.toNat then total.toNat - stored else 2 ^ w + total.toNat - stored := by
  have bound := total.isLt
  rw [BitVec.toNat_sub, BitVec.toNat_ofNat, Nat.mod_eq_of_lt fits]
  split
  · have shifted : 2 ^ w - stored + total.toNat = 2 ^ w + (total.toNat - stored) := by omega
    rw [shifted, Nat.add_mod_left]
    exact Nat.mod_eq_of_lt (by omega)
  · rw [Nat.mod_eq_of_lt (by omega)]
    omega

private theorem release_sums {total : BitVec w} {size rest stored : Nat}
    (sums : total.toNat = size + rest) (fits : stored < 2 ^ w) :
    (total + -(.ofNat w stored)).toNat = rest ↔ stored = size := by
  have bound := total.isLt
  rw [← sub_eq_add_neg, toNat_sub_stored total fits]
  split
  · omega
  · omega

private theorem request_sums {total : BitVec w} {sum : Nat} (sums : total.toNat = sum)
    (size : BitVec w) :
    (total + size).toNat = sum + size.toNat ↔ sum + size.toNat < 2 ^ w := by
  rw [BitVec.toNat_add, sums]
  exact Nat.mod_eq_iff_lt (Nat.two_pow_pos w).ne'

namespace Blocks.Sound

variable {state : Blocks platform} {entries : List (Entry platform.width)} {maxTolerate : CInt}

private theorem totalsLaw_iff (sound : state.Sound entries) :
    TotalsLaw state ↔ ∀ site, state.Summed site (sound.holds.tally site) :=
  sound.forall_table_iff state.Summed
    fun site empty => by simp [Blocks.Summed, Blocks.liveBytes, Tally.zero, empty]

/-- One step keeps the totals exact precisely if it subtracts what was
requested and overruns no total. -/
private theorem totalsLaw_next (sound : state.Sound entries) (law : TotalsLaw state)
    {action : BlockAction platform}
    (enabled : (blockSystem platform maxTolerate).enabled state action)
    (inside : InsideBlock state action) :
    TotalsLaw ((blockSystem platform maxTolerate).next state action) ↔ SumsUp state action := by
  obtain ⟨later, soundNext, effect⟩ := sound.next enabled inside
  have sums := sound.totalsLaw_iff.mp law
  generalize (blockSystem platform maxTolerate).next state action = next at soundNext effect ⊢
  rw [soundNext.totalsLaw_iff]
  cases effect with
  | refused site size record same table =>
    subst same table
    exact ⟨fun _ granted => absurd rfl granted, fun _ => sums⟩
  | alloc site size ptr record granted pointer live adds =>
    have grown : next.liveBytes site = state.liveBytes site + size.toNat := by
      rw [Blocks.liveBytes, Blocks.liveAt_cons live, List.map_cons, List.sum_cons, Nat.add_comm]
      rfl
    have summed := request_sums (sums site) size
    rw [← grown] at summed
    rw [adds.forall_tally_iff sound.holds next.Summed]
    · exact summed.trans ⟨fun up _ => grown ▸ up, fun up => grown ▸ up granted⟩
    · intro other different
      rw [Blocks.Summed, Blocks.liveBytes, Blocks.liveAt_cons_of_ne live different]
      exact sums other
  | register site record live adds =>
    have same : ∀ other, next.liveBytes other = state.liveBytes other := fun other => by
      rw [Blocks.liveBytes, Blocks.liveAt_congr live, Blocks.liveBytes]
    rw [adds.forall_tally_iff sound.holds next.Summed]
    · have summed := sums site
      rw [Blocks.Summed, ← same] at summed
      simpa [Blocks.Summed, SumsUp, Delta.put, Delta.request] using summed
    · intro other _
      rw [Blocks.Summed, same]
      exact sums other
  | free block live adds =>
    have member : block ∈ state.live := live.mem_iff.mpr List.mem_cons_self
    have shrunk : state.liveBytes block.site = block.size.toNat + next.liveBytes block.site := by
      rw [Blocks.liveBytes, ((Blocks.liveAt_perm live).map _).sum_nat, List.map_cons, List.sum_cons]
      rfl
    rw [adds.forall_tally_iff sound.holds next.Summed]
    · have stored : state.books.pbSize (ptrToTrueptr block.pointer) < 2 ^ platform.width := by
        rw [← platform.pow_wordBytes]
        exact Memory.loadLE_lt _ _ _
      have released := release_sums ((sums block.site).trans shrunk) stored
      rw [(sound.headed block member).pbSize_eq_iff] at released
      refine released.trans ⟨?_, fun up => up block member rfl⟩
      intro intact other otherMember same
      rw [sound.pointer_unique member otherMember same]
      exact intact
    · intro other different
      rw [Blocks.Summed, Blocks.liveBytes,
        ← ((Blocks.liveAt_perm_of_ne live different).map _).sum_nat]
      exact sums other
  | write pointer offset value live heap table =>
    subst table
    refine ⟨fun _ => trivial, fun _ site => ?_⟩
    rw [Blocks.Summed, Blocks.liveBytes, Blocks.liveAt_congr live]
    exact sums site

end Blocks.Sound

/-- In any run without writes past the end of a block, the totals are exact
throughout precisely if every block is freed with its size intact and no total
overruns `size_t`. -/
theorem totals_exact_iff (maxTolerate : CInt) (allocList : Nat) (memory : Memory)
    (actions : List (BlockAction platform))
    (legal : (blockSystem platform maxTolerate).Legal (.initial platform allocList memory) actions)
    (inside : (blockSystem platform maxTolerate).Guarded InsideBlock
      (.initial platform allocList memory) actions) :
    (blockSystem platform maxTolerate).Always TotalsLaw
        (.initial platform allocList memory) actions ↔
      (blockSystem platform maxTolerate).Guarded SumsUp
        (.initial platform allocList memory) actions := by
  have start := Blocks.Sound.initial platform allocList memory
  have nothing : TotalsLaw (Blocks.initial platform allocList memory) := by
    rw [start.totalsLaw_iff]
    intro site
    simp [Blocks.Summed, Blocks.liveBytes, Blocks.liveAt, Blocks.initial]
    rfl
  have sound : (Blocks.initial platform allocList memory).IsSound := ⟨[], start⟩
  apply System.always_iff_guarded sound nothing _ _ (legal.and inside)
  · intro state action kept step
    exact kept.next step
  · rintro state action ⟨entries, kept⟩ law step
    exact kept.totalsLaw_next law step.1 step.2

/-- A request that leaves room for the piggyback in `size_t`. -/
def RequestFits : BlockAction platform → Prop
  | .alloc _ size _ _ => piggybackSize + size.toNat < 2 ^ platform.width
  | _ => True

def FreedIntact (state : Blocks platform) : BlockAction platform → Prop
  | .free pointer => ∀ block ∈ state.live, block.pointer = pointer → state.SizeIntact block
  | _ => True

private theorem sum_filter_le {α : Type*} (chosen : α → Bool) (part whole : α → Nat) (list : List α)
    (larger : ∀ item ∈ list, part item + 1 ≤ whole item) :
    ((list.filter chosen).map part).sum + list.length ≤ (list.map whole).sum := by
  induction list with
  | nil => simp
  | cons item rest ih =>
    have here := larger item List.mem_cons_self
    have restLarger := ih fun other member => larger other (List.mem_cons_of_mem _ member)
    by_cases picked : chosen item
    · simp only [List.filter_cons_of_pos picked, List.map_cons, List.sum_cons, List.length_cons]
      omega
    · simp only [List.filter_cons_of_neg picked, List.map_cons, List.sum_cons, List.length_cons]
      omega

private theorem Blocks.Sound.liveBytes_lt {state : Blocks platform}
    {entries : List (Entry platform.width)} (sound : state.Sound entries)
    (fits : ∀ block ∈ state.live, piggybackSize + block.size.toNat < 2 ^ platform.width)
    (site : Site) : state.liveBytes site < 2 ^ platform.width := by
  have total := sum_length_le LiveBlock.base (fun block => footprint block.size) state.live
    (fun block member => (sound.headed block member).inside) sound.apart
  have larger : ∀ block ∈ state.live, block.size.toNat + 1 ≤ footprint block.size := by
    intro block member
    have extent : (mallocSize block.size).toNat ≤ footprint block.size := Nat.le_max_right _ _
    rw [mallocSize_of_fits (fits block member)] at extent
    simp only [piggybackSize] at extent
    omega
  have parts := sum_filter_le (fun block : LiveBlock platform => block.site = site)
    (fun block => block.size.toNat) _ _ larger
  rw [Blocks.liveBytes, Blocks.liveAt]
  cases blocks : state.live with
  | nil =>
    simp only [List.filter_nil, List.map_nil, List.sum_nil]
    exact Nat.two_pow_pos _
  | cons first rest =>
    rw [blocks, List.length_cons] at parts
    rw [blocks] at total
    omega

/-- All live blocks were requested with room for the piggyback. -/
def Blocks.Fit (state : Blocks platform) : Prop :=
  state.IsSound ∧ ∀ block ∈ state.live, piggybackSize + block.size.toNat < 2 ^ platform.width

namespace Blocks.Fit

variable {state : Blocks platform} {action : BlockAction platform} {maxTolerate : CInt}

private theorem insideBlock (fit : state.Fit)
    (enabled : (blockSystem platform maxTolerate).enabled state action) :
    InsideBlock state action := by
  obtain ⟨⟨entries, sound⟩, fits⟩ := fit
  cases action with
  | write pointer offset value =>
    obtain ⟨block, member, rfl, within⟩ := enabled
    intro other otherMember same
    rw [sound.pointer_unique member otherMember same, mallocSize_of_fits (fits block member)]
    omega
  | alloc | register | free => trivial

private theorem next (fit : state.Fit)
    (enabled : (blockSystem platform maxTolerate).enabled state action)
    (request : RequestFits action) :
    ((blockSystem platform maxTolerate).next state action).Fit := by
  have inside := fit.insideBlock enabled
  refine ⟨fit.1.next ⟨enabled, inside⟩, ?_⟩
  obtain ⟨⟨entries, sound⟩, fits⟩ := fit
  obtain ⟨later, soundNext, effect⟩ := sound.next enabled inside
  generalize (blockSystem platform maxTolerate).next state action = next at soundNext effect ⊢
  cases effect with
  | refused site size record same table => exact same ▸ fits
  | alloc site size ptr record granted pointer live adds =>
    rw [live]
    intro block member
    rcases List.mem_cons.mp member with rfl | old
    · exact request
    · exact fits block old
  | register site record live adds => exact live ▸ fits
  | free block live adds =>
    intro other member
    exact fits other (live.mem_iff.mpr (List.mem_cons_of_mem _ member))
  | write pointer offset value live heap table => exact live ▸ fits

private theorem sumsUp (fit : state.Fit)
    (enabled : (blockSystem platform maxTolerate).enabled state action)
    (request : RequestFits action) (intact : FreedIntact state action) : SumsUp state action := by
  have fitNext := fit.next enabled request
  have inside := fit.insideBlock enabled
  obtain ⟨⟨entries, sound⟩, fits⟩ := fit
  obtain ⟨later, soundNext, effect⟩ := sound.next enabled inside
  generalize (blockSystem platform maxTolerate).next state action = next
    at fitNext soundNext effect
  cases effect with
  | refused site size record same table => exact fun granted => absurd rfl granted
  | alloc site size ptr record granted pointer live adds =>
    intro _
    have bound := soundNext.liveBytes_lt fitNext.2 site
    rw [Blocks.liveBytes, Blocks.liveAt_cons live, List.map_cons, List.sum_cons, Nat.add_comm]
      at bound
    exact bound
  | register => trivial
  | free block live adds => exact intact
  | write => trivial

end Blocks.Fit

/-- When every request leaves room for the piggyback, writes stay inside their
blocks and no total overruns: all that is left to ask is that frees are intact. -/
theorem sumsUp_of_requestFits (maxTolerate : CInt) (allocList : Nat) (memory : Memory)
    (actions : List (BlockAction platform))
    (legal : (blockSystem platform maxTolerate).Legal (.initial platform allocList memory) actions)
    (requests : ∀ action ∈ actions, RequestFits action) :
    (blockSystem platform maxTolerate).Guarded InsideBlock
        (.initial platform allocList memory) actions ∧
      ((blockSystem platform maxTolerate).Guarded FreedIntact
          (.initial platform allocList memory) actions →
        (blockSystem platform maxTolerate).Guarded SumsUp
          (.initial platform allocList memory) actions) := by
  have fit : (Blocks.initial platform allocList memory).Fit :=
    ⟨⟨[], .initial platform allocList memory⟩, by simp [Blocks.initial]⟩
  have steps := legal.and (System.guarded_of_forall requests)
  constructor
  · apply System.Guarded.of_invariant fit _ _ steps
    · intro state action fit step
      exact fit.next step.1 step.2
    · intro state action fit step
      exact fit.insideBlock step.1
  · intro intact
    apply System.Guarded.of_invariant fit _ _ (steps.and intact)
    · intro state action fit step
      exact fit.next step.1.1 step.1.2
    · intro state action fit step
      exact fit.sumsUp step.1.1 step.1.2 step.2

instance : ∀ (state : Blocks platform) action, Decidable (SumsUp state action)
  | state, .alloc site size ptr _ => inferInstanceAs
      (Decidable (ptr ≠ 0 → state.liveBytes site + size.toNat < 2 ^ platform.width))
  | state, .free pointer => inferInstanceAs
      (Decidable (∀ block ∈ state.live, block.pointer = pointer → platform = .x86_64 →
        state.books.memory.loadLE (block.base + piggybackSize) 4 = block.size.toNat / 256 ^ 4))
  | _, .register .. | _, .write .. => isTrue trivial

/-- A write past the first four bytes of a block does not touch its size. -/
theorem totals_exact_one :
    (blockSystem .x86_64 0).Always TotalsLaw (.initial .x86_64 8 fun _ => 0)
      [.alloc ⟨⟨[97], by decide⟩, 7⟩ 20 16 100, .write 28 4 1, .free 28] :=
  (totals_exact_iff 0 8 _ _ (by decide) (by decide)).mpr (by decide)

/-- A write to the first byte of a block does: its 20 bytes are freed as 2^32 + 20. -/
theorem totals_drifted :
    let start : Blocks .x86_64 := .initial .x86_64 8 fun _ => 0
    let actions : List (BlockAction .x86_64) :=
      [.alloc ⟨⟨[97], by decide⟩, 7⟩ 20 16 100, .write 28 0 1, .free 28]
    (blockSystem .x86_64 0).Legal start actions ∧
      (blockSystem .x86_64 0).Guarded InsideBlock start actions ∧
      ((blockSystem .x86_64 0).exec start actions).books.heap.table.map
        (fun record => record.memTotal) = [-2 ^ 32] ∧
      ¬ (blockSystem .x86_64 0).Always TotalsLaw start actions := by
  refine ⟨by decide, by decide, by decide, ?_⟩
  intro always
  exact absurd always.last (by unfold TotalsLaw; decide)

end TrippingRobot.Memleak