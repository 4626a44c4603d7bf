import Mathlib.Tactic

/-! Runs of a machine whose steps all meet a guard on the state they start from. -/
namespace Qbox
variable {S A : Type}

/-- The states reached from `s` by guarded steps. -/
inductive GuardedRun (step : S → A → S) (guard : S → A → Prop) (s : S) : S → Prop where
  | refl : GuardedRun step guard s s
  | tail {t : S} {a : A} (h : GuardedRun step guard s t) (hg : guard t a) : GuardedRun step guard s (step t a)

namespace GuardedRun
variable {step : S → A → S} {guard : S → A → Prop} {s t : S}

lemma invariant {I : S → Prop} (hst : ∀ t a, I t → guard t a → I (step t a)) (hs : I s)
    (h : GuardedRun step guard s t) : I t := by
  induction h with
  | refl => exact hs
  | tail _ hg ih => exact hst _ _ ih hg

lemma trans {u : S} (hst : GuardedRun step guard s t) (htu : GuardedRun step guard t u) :
    GuardedRun step guard s u := by
  induction htu with
  | refl => exact hst
  | tail _ hg ih => exact ih.tail hg

def Along (step : S → A → S) (guard : S → A → Prop) : S → List A → Prop
  | _, [] => True
  | s, a :: l => guard s a ∧ Along step guard (step s a) l

instance instDecidableAlong [∀ s a, Decidable (guard s a)] : (s : S) → (l : List A) → Decidable (Along step guard s l)
  | _, [] => inferInstanceAs (Decidable True)
  | s, a :: l =>
    have := instDecidableAlong (step s a) l
    inferInstanceAs (Decidable (_ ∧ _))

variable {l : List A} {P Q allowed : S → A → Prop} {J I : S → Prop}

lemma along_and : Along step (fun s a => P s a ∧ Q s a) s l ↔ Along step P s l ∧ Along step Q s l := by
  induction l generalizing s with
  | nil => simp [Along]
  | cons a l ih => simp [Along,ih,and_and_and_comm]

lemma along_append {l l' : List A} :
    Along step guard s (l ++ l') ↔ Along step guard s l ∧ Along step guard (l.foldl step s) l' := by
  induction l generalizing s with
  | nil => simp [Along]
  | cons a l ih => simp [Along,ih,and_assoc]

lemma along_congr (hJ : ∀ s a, J s → allowed s a → J (step s a))
    (h : ∀ s a, J s → allowed s a → (P s a ↔ Q s a)) {s : S} (hs : J s)
    (hl : Along step allowed s l) : Along step P s l ↔ Along step Q s l := by
  induction l generalizing s with
  | nil => exact Iff.rfl
  | cons a l ih => exact and_congr (h s a hs hl.1) (ih (hJ s a hs hl.1) hl.2)

lemma along_mono (h : ∀ s a, J s → P s a → Q s a ∧ J (step s a))
    (hs : J s) (hl : Along step P s l) : Along step Q s l := by
  induction l generalizing s with
  | nil => trivial
  | cons a l ih =>
    obtain ⟨hq,hj⟩ := h s a hs hl.1
    exact ⟨hq,ih hj hl.2⟩

lemma along_iff_along (hJ : ∀ s a, J s → Q s a → J (step s a))
    (h : ∀ s a, J s → (P s a ↔ Q s a)) {s : S} (hs : J s) : Along step P s l ↔ Along step Q s l :=
  ⟨along_mono (fun s a hj hp => ⟨(h s a hj).mp hp,hJ s a hj ((h s a hj).mp hp)⟩) hs,
    along_mono (fun s a hj hq => ⟨(h s a hj).mpr hq,hJ s a hj hq⟩) hs⟩

lemma foldl (hs : GuardedRun step guard s t) (h : Along step guard t l) :
    GuardedRun step guard s (l.foldl step t) := by
  induction l generalizing t with
  | nil => exact hs
  | cons a l ih => exact ih (hs.tail h.1) h.2

lemma along_of_forall_mem (h : ∀ a ∈ l, ∀ s, guard s a) : Along step guard s l := by
  induction l generalizing s with
  | nil => trivial
  | cons a l ih => exact ⟨h a (by simp) s,ih fun b hb => h b (by simp [hb])⟩

/-- Where an allowed step keeps `I` exactly when it meets the guard, `I` holds along an allowed run exactly when every
step does. -/
lemma forall_prefix_iff_along_of_allowed (hJ : ∀ s a, allowed s a → J s → I s → I (step s a) → J (step s a))
    (hI : ∀ s a, allowed s a → J s → I s → (I (step s a) ↔ guard s a)) (hj : J s) (hi : I s)
    (hl : Along step allowed s l) : (∀ l', l' <+: l → I (l'.foldl step s)) ↔ Along step guard s l := by
  induction l generalizing s with
  | nil => simpa [Along] using hi
  | cons a l ih =>
    obtain ⟨ha,hl⟩ := hl
    rw [Along]
    constructor
    · intro h
      have hn := h [a] (by simp)
      refine ⟨(hI s a ha hj hi).mp hn,(ih (hJ s a ha hj hi hn) hn hl).mp fun l' hl' => ?_⟩
      exact h (a :: l') (by simpa using hl')
    · rintro ⟨hg,hgu⟩ l' hl'
      have hn := (hI s a ha hj hi).mpr hg
      rcases List.prefix_cons_iff.mp hl' with rfl | ⟨t,rfl,ht⟩
      · exact hi
      · exact (ih (hJ s a ha hj hi hn) hn hl).mpr hgu t ht

/-- Where a step keeps `I` exactly when it meets the guard, so does a run. -/
lemma forall_prefix_iff_along (hJ : ∀ s a, J s → I s → I (step s a) → J (step s a))
    (hI : ∀ s a, J s → I s → (I (step s a) ↔ guard s a)) (hj : J s) (hi : I s) (l : List A) :
    (∀ l', l' <+: l → I (l'.foldl step s)) ↔ Along step guard s l :=
  forall_prefix_iff_along_of_allowed (fun s a (_ : True) => hJ s a) (fun s a _ => hI s a) hj hi
    (along_of_forall_mem fun _ _ _ => trivial)

end GuardedRun
end Qbox
