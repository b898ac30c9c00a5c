import TrippingRobot.Machine.Run
import TrippingRobot.Runtrace.Device
import Mathlib.Data.Finset.Card

/-! Opening and releasing the device of the module build: the module references and the
readers counted against the files that are open. -/

namespace TrippingRobot.Runtrace

open TrippingRobot.Data TrippingRobot.Machine

/-- `cdev_release`. -/
def cdevRelease (asModule : Bool) (device : Device) : CInt × Device :=
  let fewer := { device with cdevReaders := device.cdevReaders - 1 }
  (0, if asModule then { fewer with moduleRefs := fewer.moduleRefs - 1 } else fewer)

structure Desk where
  device : Device
  opened : Finset Nat

inductive DeskAction where
  | open (number : Nat) (file : File)
  | release (number : Nat)

/-- Only an open that returns 0 gives its caller a file to release. -/
def Desk.next (desk : Desk) : DeskAction → Desk
  | .open number file =>
    let (returned, device, _) := cdevOpen true true desk.device file
    ⟨device, if returned = 0 then insert number desk.opened else desk.opened⟩
  | .release number => ⟨(cdevRelease true desk.device).2, desk.opened.erase number⟩

/-- Every open has a file of its own and an open file is released once. -/
def deskSystem : System Desk DeskAction where
  enabled desk
    | .open number _ => number ∉ desk.opened
    | .release number => number ∈ desk.opened
  next := Desk.next

instance : ∀ desk action, Decidable (deskSystem.enabled desk action)
  | desk, .open number _ => inferInstanceAs (Decidable (number ∉ desk.opened))
  | desk, .release number => inferInstanceAs (Decidable (number ∈ desk.opened))

/-- The device right after it was added. -/
def Desk.start (facility : Facility) (blockingRead : CInt) : Desk where
  device := ⟨facility, 0, 0, blockingRead⟩
  opened := ∅

structure Balanced (desk : Desk) : Prop where
  references : desk.device.moduleRefs = desk.opened.card
  readers : desk.device.cdevReaders.toInt = desk.opened.card

instance (desk : Desk) : Decidable (Balanced desk) :=
  decidable_of_iff (desk.device.moduleRefs = desk.opened.card ∧
    desk.device.cdevReaders.toInt = desk.opened.card)
    ⟨fun ⟨references, readers⟩ => ⟨references, readers⟩,
      fun ⟨references, readers⟩ => ⟨references, readers⟩⟩

/-- An open finds fewer than two files open. -/
def Desk.Vacant (desk : Desk) : DeskAction → Prop
  | .open _ _ => desk.opened.card < 2
  | .release _ => True

instance : ∀ desk action, Decidable (Desk.Vacant desk action)
  | desk, .open _ _ => inferInstanceAs (Decidable (desk.opened.card < 2))
  | _, .release _ => isTrue trivial

structure ReadersInvariant (desk : Desk) : Prop where
  readers : desk.device.cdevReaders.toInt = desk.opened.card
  few : desk.opened.card ≤ 2

theorem ReadersInvariant.busy_iff (holds : ReadersInvariant desk) :
    (1 : CInt).slt desk.device.cdevReaders = true ↔ ¬ desk.opened.card < 2 := by
  have one : (1 : CInt).toInt = 1 := rfl
  have readers := holds.readers
  rw [BitVec.slt_iff_toInt_lt, one]
  omega

/-- A third open keeps the module reference it took. -/
theorem ReadersInvariant.open_busy (holds : ReadersInvariant desk)
    (busy : ¬ desk.opened.card < 2) (number : Nat) (file : File) :
    desk.next (.open number file) =
      ⟨{ desk.device with moduleRefs := desk.device.moduleRefs + 1 }, desk.opened⟩ := by
  have taken := holds.busy_iff.mpr busy
  have failed : ¬ (-ebusy = (0 : CInt)) := by decide
  simp only [Desk.next, cdevOpen, taken, not_true_eq_false, and_false, if_true, if_false, failed]

theorem ReadersInvariant.open_vacant (holds : ReadersInvariant desk)
    (vacant : desk.opened.card < 2) (number : Nat) (file : File) :
    desk.next (.open number file) =
      ⟨{ desk.device with
          moduleRefs := desk.device.moduleRefs + 1
          cdevReaders := desk.device.cdevReaders + 1 }, insert number desk.opened⟩ := by
  have free : (1 : CInt).slt desk.device.cdevReaders = false := by
    rw [Bool.eq_false_iff]
    exact fun busy => holds.busy_iff.mp busy vacant
  simp only [Desk.next, cdevOpen, free, not_true_eq_false, and_false, if_true, if_false,
    Bool.false_eq_true]

theorem Desk.next_release (desk : Desk) (number : Nat) :
    desk.next (.release number) =
      ⟨{ desk.device with
          moduleRefs := desk.device.moduleRefs - 1
          cdevReaders := desk.device.cdevReaders - 1 }, desk.opened.erase number⟩ := rfl

theorem ReadersInvariant.step (holds : ReadersInvariant desk)
    (enabled : deskSystem.enabled desk action) : ReadersInvariant (desk.next action) := by
  obtain ⟨readers, few⟩ := holds
  cases action with
  | «open» number file =>
    by_cases vacant : desk.opened.card < 2
    · rw [ReadersInvariant.open_vacant ⟨readers, few⟩ vacant]
      have more : (insert number desk.opened).card = desk.opened.card + 1 :=
        Finset.card_insert_of_notMem enabled
      refine ⟨?_, by simp only [more]; omega⟩
      rw [more]
      exact CInt.toInt_add_one readers (by omega)
    · rw [ReadersInvariant.open_busy ⟨readers, few⟩ vacant]
      exact ⟨readers, few⟩
  | release number =>
    have fewer : (desk.opened.erase number).card + 1 = desk.opened.card :=
      Finset.card_erase_add_one enabled
    rw [Desk.next_release]
    refine ⟨CInt.toInt_sub_one ?_, by simp only []; omega⟩
    rw [readers, ← fewer]
    push_cast
    rfl

/-- A step keeps the balance exactly if it is not an open that finds two files open. -/
theorem Balanced.step_iff (holds : ReadersInvariant desk) (balanced : Balanced desk)
    (enabled : deskSystem.enabled desk action) :
    Balanced (desk.next action) ↔ desk.Vacant action := by
  have kept := holds.step enabled
  have references := balanced.references
  cases action with
  | «open» number file =>
    by_cases vacant : desk.opened.card < 2
    · refine iff_of_true ⟨?_, kept.readers⟩ vacant
      rw [holds.open_vacant vacant]
      have more : (insert number desk.opened).card = desk.opened.card + 1 :=
        Finset.card_insert_of_notMem enabled
      simp only [more, references]
    · refine iff_of_false ?_ vacant
      intro after
      have counted := after.references
      rw [holds.open_busy vacant] at counted
      simp only [references] at counted
      omega
  | release number =>
    refine iff_of_true ⟨?_, kept.readers⟩ trivial
    have fewer : (desk.opened.erase number).card + 1 = desk.opened.card :=
      Finset.card_erase_add_one enabled
    simp only [Desk.next_release, references]
    omega

/-- References and readers equal the open files after every call exactly if no open finds
two files open. -/
theorem open_release_balanced_iff (facility : Facility) (blockingRead : CInt)
    {actions : List DeskAction} (legal : deskSystem.Legal (Desk.start facility blockingRead) actions) :
    deskSystem.Always Balanced (Desk.start facility blockingRead) actions ↔
      deskSystem.Guarded Desk.Vacant (Desk.start facility blockingRead) actions := by
  have initial : ReadersInvariant (Desk.start facility blockingRead) := ⟨rfl, Nat.zero_le 2⟩
  exact System.always_iff_guarded initial ⟨rfl, rfl⟩ (fun _ _ holds enabled => holds.step enabled)
    (fun _ _ holds balanced enabled => Balanced.step_iff holds balanced enabled) legal

/-- Two readers that come and go. -/
def comeAndGo : List DeskAction :=
  [.open 0 ⟨0, false⟩, .open 1 ⟨0, false⟩, .release 0, .open 2 ⟨0, false⟩, .release 2, .release 1]

theorem open_release_balanced_two :
    deskSystem.Always Balanced (Desk.start Facility.start 1) comeAndGo := by
  have legal : deskSystem.Legal (Desk.start Facility.start 1) comeAndGo := by decide
  exact (open_release_balanced_iff Facility.start 1 legal).mpr (by decide)

/-- A third reader is turned away; when all files are closed a module reference is left. -/
def thirdReader : List DeskAction :=
  [.open 0 ⟨0, false⟩, .open 1 ⟨0, false⟩, .open 2 ⟨0, false⟩, .release 0, .release 1]

theorem reference_left :
    deskSystem.Legal (Desk.start Facility.start 1) thirdReader ∧
      (deskSystem.exec (Desk.start Facility.start 1) thirdReader).opened = ∅ ∧
      (deskSystem.exec (Desk.start Facility.start 1) thirdReader).device.moduleRefs = 1 ∧
      ¬ deskSystem.Always Balanced (Desk.start Facility.start 1) thirdReader := by
  decide

end TrippingRobot.Runtrace
