import Mathlib.Tactic

/-! Specifications of computations that may have no result: what holds of a result, together with a
condition under which there is one. -/
namespace Qbox
variable {α β : Type*} {pre pre' : Prop} {o : Option α} {P Q : α → Prop}

/-- A result satisfies `P`, and there is one where `pre` holds. -/
def Gives (pre : Prop) (o : Option α) (P : α → Prop) : Prop := o.elim (¬ pre) P

namespace Gives
lemma pure {x : α} (h : P x) : Gives pre (some x) P := h

/-- The rule for a computation that goes on with the result of another one. -/
@[elab_as_elim] lemma elim {motive : Option α → Prop} (h : Gives pre o P) (none : ¬ pre → motive none)
    (some : ∀ x, P x → motive (some x)) : motive o := by
  cases o with
  | none => exact none h
  | some x => exact some x h

lemma mono (h : Gives pre o P) (hp : pre' → pre) (hP : ∀ x, P x → Q x) : Gives pre' o Q :=
  h.elim (fun hn hp' => hn (hp hp')) hP

lemma map {f : α → β} {R : β → Prop} (h : Gives pre o P) (hf : ∀ x, P x → R (f x)) : Gives pre (o.map f) R :=
  h.elim id hf

lemma result {x : α} (h : Gives pre o P) (hx : o = some x) : P x := by
  subst hx
  exact h

lemma isSome (h : Gives pre o P) (hp : pre) : o.isSome := h.elim (fun hn => absurd hp hn) fun _ _ => rfl

end Gives
end Qbox
