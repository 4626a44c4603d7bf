import Mathlib.Tactic

/-! How many values of a family meet a predicate, kept up to date while single values change. -/
namespace Qbox
variable {ι α : Type} {p : α → Prop} {f : ι → α} {n : ℕ}

def HolderCount (p : α → Prop) (f : ι → α) (n : ℕ) : Prop :=
  ∃ held : Finset ι, (∀ i, i ∈ held ↔ p (f i)) ∧ held.card = n

namespace HolderCount
lemma zero_of_none (h : ∀ i, ¬p (f i)) : HolderCount p f 0 := ⟨∅,fun i => by simp [h i],rfl⟩

lemma eq_zero (h : HolderCount p f n) (hn : ∀ i, ¬p (f i)) : n = 0 := by
  obtain ⟨held,hh,rfl⟩ := h
  rw [Finset.card_eq_zero,Finset.eq_empty_iff_forall_notMem]
  intro i hi
  exact hn i ((hh i).mp hi)

lemma none_of_zero (h : HolderCount p f 0) (i : ι) : ¬p (f i) := by
  obtain ⟨held,hh,hc⟩ := h
  rw [← hh,Finset.card_eq_zero.mp hc]
  exact Finset.notMem_empty i

variable [DecidableEq ι] {i : ι} {a : α}

section
variable (h : HolderCount p f n)
include h

lemma update_same (ha : p a ↔ p (f i)) : HolderCount p (Function.update f i a) n := by
  obtain ⟨held,hh,hc⟩ := h
  refine ⟨held,fun j => ?_,hc⟩
  by_cases hji : j = i
  · subst hji
    rw [hh,Function.update_self,ha]
  · rw [hh,Function.update_of_ne hji]

lemma update_enter (hi : ¬p (f i)) (ha : p a) :
    HolderCount p (Function.update f i a) (n+1) := by
  obtain ⟨held,hh,hc⟩ := h
  refine ⟨insert i held,fun j => ?_,?_⟩
  · by_cases hji : j = i
    · subst hji
      simp [ha]
    · simp [hji,hh]
  · rw [Finset.card_insert_of_notMem (by simpa [hh] using hi),hc]

lemma update_leave (hi : p (f i)) (ha : ¬p a) :
    ∃ m, n = m+1 ∧ HolderCount p (Function.update f i a) m := by
  obtain ⟨held,hh,rfl⟩ := h
  have hm := (hh i).mpr hi
  refine ⟨(held.erase i).card,(Finset.card_erase_add_one hm).symm,held.erase i,fun j => ?_,rfl⟩
  by_cases hji : j = i
  · subst hji
    simp [ha]
  · simp [hji,hh]

end

end HolderCount
end Qbox
