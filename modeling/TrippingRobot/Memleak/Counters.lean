import TrippingRobot.Memleak.Blocks

/-! What the counters count. A request of 0 bytes looks like a registration to
`list_push_record`, so its block is freed without having been counted. -/

namespace TrippingRobot.Memleak

open TrippingRobot.Data TrippingRobot.Machine

variable {platform : Platform}

/-- Every record counts the live blocks of its site, and every live block finds itself counted. -/
structure CountersLaw (state : Blocks platform) : Prop where
  exact : ∀ record ∈ state.books.heap.table,
    record.cnt.toInt = (state.liveAt record.toSite).length
  listed : ∀ block ∈ state.live, ∃ count,
    state.books.memleakAllocsAt block.pointer = .ok count ∧ 1 ≤ count.toInt

/-- A granted request asks for something, at a site whose counter is not at its maximum. -/
def CountsUp (state : Blocks platform) : BlockAction platform → Prop
  | .alloc site size ptr _ => ptr ≠ 0 → 0 < size ∧ (state.liveAt site).length < 2 ^ 31 - 1
  | _ => True

/-- A tally counts the live blocks of its site. -/
def Blocks.Counted (state : Blocks platform) (site : Site) (tally : Tally platform.width) : Prop :=
  tally.cnt.toInt = (state.liveAt site).length

namespace Blocks.Sound

variable {state : Blocks platform} {entries : List (Entry platform.width)} {maxTolerate : CInt}

private theorem listed (sound : state.Sound entries)
    (exact : ∀ record ∈ state.books.heap.table,
      record.cnt.toInt = (state.liveAt record.toSite).length) :
    ∀ block ∈ state.live, ∃ count,
      state.books.memleakAllocsAt block.pointer = .ok count ∧ 1 ≤ count.toInt := by
  intro block member
  have headed := sound.headed block member
  obtain ⟨record, stored, present⟩ := sound.holds.exists_lookup headed.record
  have valid : trueptrIsValid (ptrToTrueptr block.pointer) = true :=
    decide_eq_true headed.aligned
  have stored : state.books.heap.record (state.books.pbRecord (ptrToTrueptr block.pointer)) =
      some record := stored
  refine ⟨record.cnt, ?_, ?_⟩
  · simp only [Bookkeeping.memleakAllocsAt, valid, if_true, stored]
  · have counted := exact ⟨block.site, record.toTally⟩ ((sound.holds.mem_table_iff _).mpr present)
    have here : block ∈ state.liveAt block.site := by simp [Blocks.liveAt, member]
    have positive := List.length_pos_of_mem here
    simp only at counted
    omega

theorem countersLaw_iff (sound : state.Sound entries) :
    CountersLaw state ↔ ∀ site, state.Counted site (sound.holds.tally site) := by
  have every := sound.forall_table_iff state.Counted
    fun site empty => by simp [Blocks.Counted, Tally.zero, empty]
  rw [← every]
  exact ⟨fun law => law.exact, fun exact => ⟨exact, sound.listed exact⟩⟩

/-- A granted request counts exactly if it is not empty and the counter has room. -/
private theorem request_counts {cnt : CInt} {total : Nat} (counts : cnt.toInt = total)
    (size : BitVec w) :
    (cnt + if 0 < size then 1 else 0).toInt = (total + 1 : Nat) ↔
      0 < size ∧ total < 2 ^ 31 - 1 := by
  by_cases positive : 0 < size
  · rw [if_pos positive]
    constructor
    · intro counted
      have room := CInt.total_le counted
      exact ⟨positive, by omega⟩
    · rintro ⟨_, room⟩
      rw [CInt.toInt_add_one counts room]
      rfl
  · rw [if_neg positive]
    constructor
    · intro counted
      simp [counts] at counted
    · rintro ⟨notEmpty, _⟩
      exact absurd notEmpty positive

/-- One step keeps the counters exact precisely if it is no empty request and
overruns no counter. -/
theorem countersLaw_next (sound : state.Sound entries) (law : CountersLaw state)
    {action : BlockAction platform}
    (enabled : (blockSystem platform maxTolerate).enabled state action)
    (inside : InsideBlock state action) :
    CountersLaw ((blockSystem platform maxTolerate).next state action) ↔ CountsUp state action := by
  obtain ⟨later, soundNext, effect⟩ := sound.next enabled inside
  have counts := sound.countersLaw_iff.mp law
  generalize (blockSystem platform maxTolerate).next state action = next at soundNext effect ⊢
  rw [soundNext.countersLaw_iff]
  cases effect with
  | refused site size record same table =>
    subst same table
    exact ⟨fun _ granted => absurd rfl granted, fun _ => counts⟩
  | alloc site size ptr record granted pointer live adds =>
    have grown : (next.liveAt site).length = (state.liveAt site).length + 1 :=
      congrArg List.length (Blocks.liveAt_cons live)
    have counted := request_counts (counts site) size
    rw [← grown] at counted
    rw [adds.forall_tally_iff sound.holds next.Counted]
    · exact counted.trans ⟨fun up _ => up, fun up => up granted⟩
    · intro other different
      rw [Blocks.Counted, Blocks.liveAt_cons_of_ne live different]
      exact counts other
  | register site record live adds =>
    rw [adds.forall_tally_iff sound.holds next.Counted]
    · have counted := counts site
      rw [Blocks.Counted, ← Blocks.liveAt_congr live] at counted
      simpa [Blocks.Counted, CountsUp, Delta.put, Delta.request] using counted
    · intro other _
      rw [Blocks.Counted, Blocks.liveAt_congr live]
      exact counts other
  | free block live adds =>
    have shrunk : (state.liveAt block.site).length = (next.liveAt block.site).length + 1 :=
      (Blocks.liveAt_perm live).length_eq
    rw [adds.forall_tally_iff sound.holds next.Counted]
    · have counted := counts block.site
      rw [Blocks.Counted, shrunk] at counted
      have released := CInt.toInt_sub_one counted
      rw [sub_eq_add_neg] at released
      exact ⟨fun _ => trivial, fun _ => released⟩
    · intro other different
      rw [Blocks.Counted, ← (Blocks.liveAt_perm_of_ne live different).length_eq]
      exact counts other
  | write pointer offset value live heap table =>
    subst table
    refine ⟨fun _ => trivial, fun _ site => ?_⟩
    rw [Blocks.Counted, Blocks.liveAt_congr live]
    exact counts site

end Blocks.Sound

/-- In any run without writes past the end of a block, the counters are exact
throughout precisely if every granted request is one that counts up. -/
theorem counters_exact_iff (maxTolerate : CInt) (allocList : Nat) (memory : Memory)
    (actions : List (BlockAction platform))
    (legal : (blockSystem platform maxTolerate).Legal (.initial platform allocList memory) actions)
    (inside : (blockSystem platform maxTolerate).Guarded InsideBlock
      (.initial platform allocList memory) actions) :
    (blockSystem platform maxTolerate).Always CountersLaw
        (.initial platform allocList memory) actions ↔
      (blockSystem platform maxTolerate).Guarded CountsUp
        (.initial platform allocList memory) actions := by
  have start := Blocks.Sound.initial platform allocList memory
  have nothing : CountersLaw (Blocks.initial platform allocList memory) := by
    rw [start.countersLaw_iff]
    intro site
    rfl
  have sound : (Blocks.initial platform allocList memory).IsSound := ⟨[], start⟩
  apply System.always_iff_guarded sound nothing _ _ (legal.and inside)
  · intro state action kept step
    exact kept.next step
  · rintro state action ⟨entries, kept⟩ law step
    exact kept.countersLaw_next law step.1 step.2

instance : ∀ (state : Blocks platform) action, Decidable (CountsUp state action)
  | state, .alloc site size ptr _ =>
    inferInstanceAs (Decidable (ptr ≠ 0 → 0 < size ∧ (state.liveAt site).length < 2 ^ 31 - 1))
  | _, .register .. | _, .free _ | _, .write .. => isTrue trivial

/-- Two blocks of one site, the first freed. -/
theorem counters_exact_two :
    (blockSystem .x86_64 0).Always CountersLaw (.initial .x86_64 8 fun _ => 0)
      [.alloc ⟨⟨[97], by decide⟩, 7⟩ 20 16 100, .alloc ⟨⟨[97], by decide⟩, 7⟩ 4 48 200, .free 28] :=
  (counters_exact_iff 0 8 _ _ (by decide) (by decide)).mpr (by decide)

/-- A block of 0 bytes is not counted when it is allocated, and counted down
when it is freed. -/
theorem counters_lost :
    let start : Blocks .x86_64 := .initial .x86_64 8 fun _ => 0
    let actions : List (BlockAction .x86_64) := [.alloc ⟨⟨[97], by decide⟩, 7⟩ 0 16 100, .free 28]
    (blockSystem .x86_64 0).Legal start actions ∧
      (blockSystem .x86_64 0).Guarded InsideBlock start actions ∧
      ((blockSystem .x86_64 0).exec start actions).books.heap.table.map (fun record => record.cnt) = [-1] ∧
      ¬ (blockSystem .x86_64 0).Always CountersLaw start actions := by
  refine ⟨by decide, by decide, by decide, ?_⟩
  intro always
  exact absurd always.2.2.exact (by decide)

end TrippingRobot.Memleak
