import Mathlib.Data.List.Basic

/-! Deterministic transition systems. Schedules and the answers of the
environment sit in the action, so one run is one list of actions. -/

namespace TrippingRobot.Machine

universe u v
variable {State : Type u} {Action : Type v}

/-- `enabled` is what may be assumed of an action, `next` what it does. -/
structure System (State : Type u) (Action : Type v) where
  enabled : State → Action → Prop
  next : State → Action → State

namespace System

/-- The state after a whole list of actions. -/
def exec (system : System State Action) (state : State) (actions : List Action) : State :=
  actions.foldl system.next state

/-- Every action of the run meets `condition` in the state it is taken in. -/
def Guarded (system : System State Action) (condition : State → Action → Prop) :
    State → List Action → Prop
  | _, [] => True
  | state, action :: rest =>
    condition state action ∧ Guarded system condition (system.next state action) rest

/-- Every action of the run is enabled where it is taken. -/
def Legal (system : System State Action) : State → List Action → Prop :=
  system.Guarded system.enabled

/-- `property` holds in every state of the run, the first and the last included. -/
def Always (system : System State Action) (property : State → Prop) :
    State → List Action → Prop
  | state, [] => property state
  | state, action :: rest =>
    property state ∧ Always system property (system.next state action) rest

instance decidableGuarded (system : System State Action) (condition : State → Action → Prop)
    [∀ state action, Decidable (condition state action)] :
    ∀ state actions, Decidable (system.Guarded condition state actions)
  | _, [] => isTrue trivial
  | state, action :: rest =>
    have := decidableGuarded system condition (system.next state action) rest
    inferInstanceAs (Decidable (_ ∧ _))

instance decidableLegal (system : System State Action)
    [∀ state action, Decidable (system.enabled state action)] (state : State)
    (actions : List Action) : Decidable (system.Legal state actions) :=
  decidableGuarded system system.enabled state actions

instance decidableAlways (system : System State Action) (property : State → Prop)
    [DecidablePred property] : ∀ state actions, Decidable (system.Always property state actions)
  | state, [] => inferInstanceAs (Decidable (property state))
  | state, action :: rest =>
    have := decidableAlways system property (system.next state action) rest
    inferInstanceAs (Decidable (_ ∧ _))

variable {system : System State Action} {condition other : State → Action → Prop}
  {property invariant : State → Prop} {state : State}

@[simp] theorem exec_nil : system.exec state [] = state := rfl

@[simp] theorem exec_cons (action : Action) (rest : List Action) :
    system.exec state (action :: rest) = system.exec (system.next state action) rest := rfl

theorem exec_append (first second : List Action) :
    system.exec state (first ++ second) = system.exec (system.exec state first) second :=
  List.foldl_append

@[simp] theorem guarded_nil : system.Guarded condition state [] := trivial

@[simp] theorem guarded_cons (action : Action) (rest : List Action) :
    system.Guarded condition state (action :: rest) ↔
      condition state action ∧ system.Guarded condition (system.next state action) rest := Iff.rfl

theorem guarded_append (first second : List Action) :
    system.Guarded condition state (first ++ second) ↔
      system.Guarded condition state first ∧
        system.Guarded condition (system.exec state first) second := by
  induction first generalizing state with
  | nil => simp
  | cons action rest ih => simp [ih, and_assoc]

theorem guarded_iff_forall {allowed : Action → Prop} {actions : List Action} :
    system.Guarded (fun _ action => allowed action) state actions ↔
      ∀ action ∈ actions, allowed action := by
  induction actions generalizing state with
  | nil => simp
  | cons action rest ih => rw [guarded_cons, ih, List.forall_mem_cons]

theorem guarded_of_forall {allowed : Action → Prop} (all : ∀ action ∈ actions, allowed action) :
    system.Guarded (fun _ action => allowed action) state actions :=
  guarded_iff_forall.mpr all

theorem Guarded.and (first : system.Guarded condition state actions)
    (second : system.Guarded other state actions) :
    system.Guarded (fun state action => condition state action ∧ other state action)
      state actions := by
  induction actions generalizing state with
  | nil => trivial
  | cons action rest ih => exact ⟨⟨first.1, second.1⟩, ih first.2 second.2⟩

theorem Always.last (always : system.Always property state actions) :
    property (system.exec state actions) := by
  induction actions generalizing state with
  | nil => exact always
  | cons action rest ih => exact ih always.2

theorem Always.first (always : system.Always property state actions) : property state := by
  cases actions with
  | nil => exact always
  | cons action rest => exact always.1

theorem Always.mono {stronger : State → Prop} (always : system.Always stronger state actions)
    (weaken : ∀ state, stronger state → property state) :
    system.Always property state actions := by
  induction actions generalizing state with
  | nil => exact weaken _ always
  | cons action rest ih => exact ⟨weaken _ always.1, ih always.2⟩

/-- The invariant rule: what holds at the start and survives every step that
meets the condition holds in every state of a run of such steps. -/
theorem Always.of_invariant (initial : invariant state)
    (preserved : ∀ state action, invariant state → condition state action →
      invariant (system.next state action))
    (guarded : system.Guarded condition state actions) :
    system.Always invariant state actions := by
  induction actions generalizing state with
  | nil => exact initial
  | cons action rest ih =>
    exact ⟨initial, ih (preserved state action initial guarded.1) guarded.2⟩

/-- The invariant rule within a bound that every state of the run is known to keep. -/
theorem Always.of_invariant_within {bound : State → Prop} (initial : invariant state)
    (preserved : ∀ state action, invariant state → condition state action →
      bound (system.next state action) → invariant (system.next state action))
    (guarded : system.Guarded condition state actions)
    (within : system.Always bound state actions) :
    system.Always invariant state actions := by
  induction actions generalizing state with
  | nil => exact initial
  | cons action rest ih =>
    have kept := preserved state action initial guarded.1 within.2.first
    exact ⟨initial, ih kept guarded.2 within.2⟩

/-- Steps of a run that meet one condition meet another when the invariant tells so. -/
theorem Guarded.of_invariant (initial : invariant state)
    (preserved : ∀ state action, invariant state → condition state action →
      invariant (system.next state action))
    (implied : ∀ state action, invariant state → condition state action → other state action)
    (guarded : system.Guarded condition state actions) : system.Guarded other state actions := by
  induction actions generalizing state with
  | nil => trivial
  | cons action rest ih =>
    have kept := preserved state action initial guarded.1
    exact ⟨implied state action initial guarded.1, ih kept guarded.2⟩

/-- The exactness rule: when one step of a run keeps the property precisely if
it meets the condition, the run has the property throughout precisely if all of
its steps meet the condition. -/
theorem always_iff_guarded {assumed : State → Action → Prop} (initial : invariant state)
    (holds : property state)
    (preserved : ∀ state action, invariant state → assumed state action →
      invariant (system.next state action))
    (exact_step : ∀ state action, invariant state → property state → assumed state action →
      (property (system.next state action) ↔ condition state action))
    (run : system.Guarded assumed state actions) :
    system.Always property state actions ↔ system.Guarded condition state actions := by
  induction actions generalizing state with
  | nil => exact ⟨fun _ => trivial, fun _ => holds⟩
  | cons action rest ih =>
    have step := exact_step state action initial holds run.1
    have kept := preserved state action initial run.1
    constructor
    · intro always
      have met := step.mp always.2.first
      exact ⟨met, (ih kept (step.mpr met) run.2).mp always.2⟩
    · intro guarded
      have after := step.mpr guarded.1
      exact ⟨holds, (ih kept after run.2).mpr guarded.2⟩

/-- The exactness rule where the property says enough of a state by itself. -/
theorem always_iff_guarded_of_step {assumed : State → Action → Prop} (holds : property state)
    (exact_step : ∀ state action, property state → assumed state action →
      (property (system.next state action) ↔ condition state action))
    (run : system.Guarded assumed state actions) :
    system.Always property state actions ↔ system.Guarded condition state actions :=
  @always_iff_guarded _ _ system condition property (fun _ => True) state actions assumed trivial
    holds (fun _ _ _ _ => trivial) (fun state action _ => exact_step state action) run

/-- A legal run leads from one state to another with `property` all the way. -/
def Reaches (system : System State Action) (property : State → Prop) (state other : State) : Prop :=
  ∃ actions, system.Legal state actions ∧ system.Always property state actions ∧
    system.exec state actions = other

theorem Reaches.refl (holds : property state) : system.Reaches property state state :=
  ⟨[], trivial, holds, rfl⟩

theorem Reaches.step {other : State} (action : Action) (holds : property state)
    (enabled : system.enabled state action)
    (later : system.Reaches property (system.next state action) other) :
    system.Reaches property state other := by
  obtain ⟨actions, legal, always, reached⟩ := later
  exact ⟨action :: actions, ⟨enabled, legal⟩, ⟨holds, always⟩, reached⟩

theorem Reaches.trans {middle other : State} (first : system.Reaches property state middle)
    (second : system.Reaches property middle other) : system.Reaches property state other := by
  obtain ⟨actions, legal, always, rfl⟩ := first
  induction actions generalizing state with
  | nil => exact second
  | cons action rest ih => exact .step action always.1 legal.1 (ih legal.2 always.2 second)

end System

end TrippingRobot.Machine
