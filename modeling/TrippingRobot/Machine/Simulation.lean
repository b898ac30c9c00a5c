import TrippingRobot.Machine.Run

/-! A system that is followed by another one: each of its steps is one step of
the other, or none. -/

namespace TrippingRobot.Machine.System

universe u v w x
variable {State : Type u} {Action : Type v} {Other : Type w} {Command : Type x}

/-- A run whose actions meet the condition leads from one state to another. -/
def Leads (system : System State Action) (condition : State → Action → Prop)
    (state other : State) : Prop :=
  ∃ actions, system.Guarded condition state actions ∧ system.exec state actions = other

variable {system : System State Action} {above : System Other Command}
  {allowed : State → Action → Prop} {permitted : Other → Command → Prop}
  {relates : State → Other → Prop}

theorem Leads.refl (state : Other) : above.Leads permitted state state := ⟨[], trivial, rfl⟩

theorem Leads.step {start state : Other} (leads : above.Leads permitted start state)
    (command : Command) (met : permitted state command) :
    above.Leads permitted start (above.next state command) := by
  obtain ⟨commands, guarded, rfl⟩ := leads
  exact ⟨commands ++ [command], (guarded_append _ _).mpr ⟨guarded, met, trivial⟩, exec_append _ _⟩

/-- The simulation rule: where every step below keeps the states related, the
one above staying or making a permitted step, all of a run below is followed. -/
theorem always_of_simulation {state : State} {start : Other} (initial : relates state start)
    (matched : ∀ state other action, relates state other → allowed state action →
      relates (system.next state action) other ∨
        ∃ command, permitted other command ∧
          relates (system.next state action) (above.next other command))
    (guarded : system.Guarded allowed state actions) :
    system.Always (fun state => ∃ other, relates state other ∧ above.Leads permitted start other)
      state actions := by
  refine Always.of_invariant ⟨start, initial, .refl start⟩ ?_ guarded
  rintro state action ⟨other, related, leads⟩ met
  rcases matched state other action related met with stays | ⟨command, permits, moves⟩
  · exact ⟨other, stays, leads⟩
  · exact ⟨_, moves, leads.step command permits⟩

end TrippingRobot.Machine.System
