import Mathlib.Data.Finset.Card
import Mathlib.Logic.Function.Basic

/-! A readers-writer lock: a count of readers and a flag for the writer, taken
and released by any number of parties. -/

namespace TrippingRobot.Machine

universe u
variable {Party : Type u}

inductive Mode where
  | read
  | write
deriving DecidableEq

structure RwLock where
  readers : Nat
  writer : Bool

namespace RwLock

def CanRead (lock : RwLock) : Prop := lock.writer = false

def CanWrite (lock : RwLock) : Prop := lock.writer = false ∧ lock.readers = 0

instance (lock : RwLock) : Decidable lock.CanRead := inferInstanceAs (Decidable (_ = _))

instance (lock : RwLock) : Decidable lock.CanWrite := inferInstanceAs (Decidable (_ ∧ _))

/-- The lock says who holds it: it counts the readers, its flag tells of a
writer, and a writer is alone. -/
structure Tracks (lock : RwLock) (holds : Party → Option Mode) : Prop where
  readers : ∃ inside : Finset Party,
    (∀ party, party ∈ inside ↔ holds party = some .read) ∧ inside.card = lock.readers
  writer : lock.writer = true ↔ ∃ party, holds party = some .write
  alone : ∀ party other, holds party = some .write → (holds other).isSome → other = party

variable {lock : RwLock} {holds : Party → Option Mode} {party : Party}

theorem Tracks.free : Tracks ⟨0, false⟩ (fun _ : Party => none) where
  readers := ⟨∅, by simp, rfl⟩
  writer := by simp
  alone := by simp

theorem Tracks.congr {others : Party → Option Mode} (tracks : lock.Tracks holds)
    (same : ∀ party, others party = holds party) : lock.Tracks others := by
  obtain rfl : others = holds := funext same
  exact tracks

theorem Tracks.no_writer (tracks : lock.Tracks holds) (reading : holds party = some .read) :
    lock.writer = false := by
  rw [Bool.eq_false_iff]
  intro written
  obtain ⟨other, writing⟩ := tracks.writer.mp written
  have same := tracks.alone other party writing (by simp [reading])
  rw [same, writing] at reading
  cases reading

theorem Tracks.nobody (tracks : lock.Tracks holds) (can : lock.CanWrite) (party : Party) :
    holds party = none := by
  obtain ⟨inside, member, count⟩ := tracks.readers
  cases held : holds party with
  | none => rfl
  | some mode =>
    cases mode with
    | read =>
      have present := (member party).mpr held
      rw [can.2, Finset.card_eq_zero] at count
      simp [count] at present
    | write =>
      have written := tracks.writer.mpr ⟨party, held⟩
      rw [can.1] at written
      cases written

theorem Tracks.canWrite (tracks : lock.Tracks holds) (nobody : ∀ party, holds party = none) :
    lock.CanWrite := by
  obtain ⟨inside, member, count⟩ := tracks.readers
  refine ⟨?_, ?_⟩
  · rw [Bool.eq_false_iff]
    intro written
    obtain ⟨party, writing⟩ := tracks.writer.mp written
    simp [nobody party] at writing
  · have empty : inside = ∅ := Finset.eq_empty_of_forall_notMem fun party present => by
      simpa [nobody party] using (member party).mp present
    rw [← count, empty, Finset.card_empty]

/-- At any time only finitely many parties hold the lock. -/
theorem Tracks.finite (tracks : lock.Tracks holds) :
    ∃ inside : Finset Party, ∀ party, (holds party).isSome → party ∈ inside := by
  obtain ⟨inside, member, _⟩ := tracks.readers
  by_cases written : ∃ party, holds party = some .write
  · obtain ⟨writer, writing⟩ := written
    refine ⟨{writer}, ?_⟩
    intro party held
    exact Finset.mem_singleton.mpr (tracks.alone writer party writing held)
  · refine ⟨inside, ?_⟩
    intro party held
    obtain ⟨mode, same⟩ := Option.isSome_iff_exists.mp held
    cases mode with
    | read => exact (member party).mpr same
    | write => exact absurd ⟨party, same⟩ written

variable [DecidableEq Party]

theorem Tracks.take_read (tracks : lock.Tracks holds) (can : lock.CanRead)
    (outside : holds party = none) :
    Tracks ⟨lock.readers + 1, lock.writer⟩ (Function.update holds party (some .read)) where
  readers := by
    obtain ⟨inside, member, count⟩ := tracks.readers
    refine ⟨insert party inside, ?_, ?_⟩
    · intro other
      by_cases same : other = party
      · simp [same]
      · simp [same, member]
    · have absent : party ∉ inside := by simp [member, outside]
      rw [Finset.card_insert_of_notMem absent, count]
  writer := by
    constructor
    · intro written
      rw [can] at written
      cases written
    · rintro ⟨other, writing⟩
      by_cases same : other = party
      · simp [same] at writing
      · exact tracks.writer.mpr ⟨other, by simpa [same] using writing⟩
  alone := by
    intro writer other writing held
    by_cases same : writer = party
    · simp [same] at writing
    · have written := tracks.writer.mpr ⟨writer, by simpa [same] using writing⟩
      rw [can] at written
      cases written

theorem Tracks.leave_read (tracks : lock.Tracks holds) (reading : holds party = some .read) :
    Tracks ⟨lock.readers - 1, lock.writer⟩ (Function.update holds party none) where
  readers := by
    obtain ⟨inside, member, count⟩ := tracks.readers
    refine ⟨inside.erase party, ?_, ?_⟩
    · intro other
      by_cases same : other = party
      · simp [same]
      · simp [same, member]
    · rw [Finset.card_erase_of_mem ((member party).mpr reading), count]
  writer := by
    have unwritten := tracks.no_writer reading
    constructor
    · intro written
      rw [unwritten] at written
      cases written
    · rintro ⟨other, writing⟩
      by_cases same : other = party
      · simp [same] at writing
      · exact tracks.writer.mpr ⟨other, by simpa [same] using writing⟩
  alone := by
    intro writer other writing held
    by_cases same : writer = party
    · simp [same] at writing
    · by_cases gone : other = party
      · simp [gone] at held
      · exact tracks.alone writer other (by simpa [same] using writing) (by simpa [gone] using held)

theorem Tracks.take_write (tracks : lock.Tracks holds) (can : lock.CanWrite) :
    Tracks ⟨lock.readers, true⟩ (Function.update holds party (some .write)) where
  readers := by
    refine ⟨∅, ?_, by rw [can.2, Finset.card_empty]⟩
    intro other
    by_cases same : other = party
    · simp [same]
    · simp [same, tracks.nobody can other]
  writer := by simpa using ⟨party, Function.update_self ..⟩
  alone := by
    have only (other : Party) (held : (Function.update holds party (some .write) other).isSome) :
        other = party := by
      by_contra different
      simp [different, tracks.nobody can other] at held
    intro writer other writing held
    rw [only other held, only writer (by simp [writing])]

theorem Tracks.leave_write (tracks : lock.Tracks holds) (writing : holds party = some .write) :
    Tracks ⟨lock.readers, false⟩ (Function.update holds party none) where
  readers := by
    obtain ⟨inside, member, count⟩ := tracks.readers
    refine ⟨inside, ?_, count⟩
    intro other
    by_cases same : other = party
    · simp [same, member, writing]
    · simp [same, member]
  writer := by
    have nobody (other : Party) : Function.update holds party none other ≠ some .write := by
      by_cases same : other = party
      · simp [same]
      · simp only [Function.update_of_ne same]
        intro also
        exact same (tracks.alone party other writing (by simp [also]))
    simp only [Bool.false_eq_true, false_iff, not_exists]
    exact nobody
  alone := by
    intro writer other also
    by_cases same : writer = party
    · simp [same] at also
    · simp only [Function.update_of_ne same] at also
      exact absurd (tracks.alone party writer writing (by simp [also])) same

end RwLock

end TrippingRobot.Machine
