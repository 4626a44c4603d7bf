import Mathlib.Tactic

/-! The pending notification of a kernel event, as the time at which it fires. -/
namespace Qbox
variable {Time : Type} [LinearOrder Time]

namespace KernelEvent
variable (pending : Option Time)

/-- A timed notification: an event has one pending notification, and the earlier one wins. -/
def notify (t : Time) : Option Time := some (pending.elim t (min t))

lemma notify_le (t : Time) : ∃ u, notify pending t = some u ∧ u ≤ t := by
  cases pending with
  | none => exact ⟨t,rfl,le_refl t⟩
  | some u => exact ⟨min t u,rfl,min_le_left t u⟩

def Before (t : Time) : Prop := ∀ u ∈ pending, t ≤ u

instance (pending : Option Time) (t : Time) : Decidable (Before pending t) := match pending with
  | none => isTrue (by simp [Before])
  | some u => decidable_of_iff (t ≤ u) (by simp [Before])

end KernelEvent
end Qbox
