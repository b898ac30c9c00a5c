import Mathlib.Tactic.Common

/-! Computations that may fail: what is known of one that returned. -/

namespace TrippingRobot.Machine

universe u v
variable {ε : Type u} {α β : Type v}

theorem bind_eq_ok {first : Except ε α} {next : α → Except ε β} {result : β} :
    first >>= next = .ok result ↔ ∃ value, first = .ok value ∧ next value = .ok result := by
  cases first with
  | error fault => simp [bind, Except.bind]
  | ok value => simp [bind, Except.bind]

@[simp] theorem throw_ne_ok {fault : ε} {result : α} : (throw fault : Except ε α) ≠ .ok result := by
  simp [throw, throwThe, MonadExceptOf.throw]

@[simp] theorem pure_eq_ok {value result : α} :
    (pure value : Except ε α) = .ok result ↔ value = result := by
  simp [pure, Except.pure]

end TrippingRobot.Machine
