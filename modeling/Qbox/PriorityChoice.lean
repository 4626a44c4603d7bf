import Mathlib.Data.List.Basic
import Mathlib.Order.Defs.LinearOrder
import Mathlib.Tactic

/-! Choosing among candidates that arrive one after the other: the candidate of
least rank holds the place, and a newcomer displaces a holder of equal rank. -/
namespace Qbox.PriorityChoice
open List

variable {T P : Type} [LinearOrder P] (rank : T → P) (eligible : T → Prop) [DecidablePred eligible]

def challenge (holder : Option T) (t : T) : Option T := if eligible t then
    match holder with
    | none => some t
    | some h => if rank h < rank t then some h else some t
  else holder

lemma challenge_none {t : T} (ht : eligible t) : challenge rank eligible none t = some t := by
  simp [challenge,ht]

lemma challenge_some {t : T} (ht : eligible t) (h : T) :
    challenge rank eligible (some h) t = if rank h < rank t then some h else some t := by
  simp [challenge,ht]

lemma challenge_ineligible {t : T} (ht : ¬ eligible t) (holder : Option T) :
    challenge rank eligible holder t = holder := by
  simp [challenge,ht]

lemma challenge_eq_some {holder : Option T} {t u : T} (h : challenge rank eligible holder t = some u) :
    u = t ∨ holder = some u := by
  by_cases ht : eligible t
  · cases holder with
    | none =>
      rw [challenge_none rank eligible ht] at h
      exact Or.inl (Option.some.inj h).symm
    | some b =>
      rw [challenge_some rank eligible ht] at h
      split_ifs at h
      · exact Or.inr h
      · exact Or.inl (Option.some.inj h).symm
  · rw [challenge_ineligible rank eligible ht] at h
    exact Or.inr h

def choice (ts : List T) : Option T := ts.foldl (challenge rank eligible) none

@[simp] lemma choice_nil : choice rank eligible [] = none := rfl

@[simp] lemma choice_concat (ts : List T) (t : T) :
    choice rank eligible (ts ++ [t]) = challenge rank eligible (choice rank eligible ts) t := by
  simp [choice]

lemma choice_eq_none_iff (ts : List T) : choice rank eligible ts = none ↔ ∀ t ∈ ts, ¬ eligible t := by
  induction ts using reverseRecOn with
  | nil => simp
  | append_singleton ts t ih =>
    rw [choice_concat]
    by_cases ht : eligible t
    · constructor
      · cases choice rank eligible ts with
        | none => simp [challenge_none rank eligible ht]
        | some h => rw [challenge_some rank eligible ht]; split_ifs <;> simp
      · intro h
        exact absurd ht (h t (by simp))
    · rw [challenge_ineligible rank eligible ht,ih]
      constructor
      · intro h u hu
        rcases mem_append.mp hu with hu | hu
        · exact h u hu
        · rwa [mem_singleton.mp hu]
      · intro h u hu
        exact h u (mem_append_left _ hu)

variable {ts : List T}

lemma choice_congr (eligible' : T → Prop) [DecidablePred eligible']
    (h : ∀ t ∈ ts, eligible t ↔ eligible' t) : choice rank eligible ts = choice rank eligible' ts := by
  induction ts using reverseRecOn with
  | nil => rfl
  | append_singleton ts t ih =>
    have ht := h t (by simp)
    simp [choice_concat,ih fun u hu => h u (mem_append_left _ hu),challenge,ht]

/-- Candidates of different ranks may arrive in any order. -/
lemma choice_perm {us : List T} (hp : ts.Perm us)
    (hd : ∀ t ∈ ts, ∀ u ∈ ts, eligible t → eligible u → rank t = rank u → t = u) :
    choice rank eligible ts = choice rank eligible us := by
  refine hp.foldl_eq' (fun t ht u hu holder => ?_) none
  have htu := hd t ht u hu
  cases holder <;> simp only [challenge] <;> grind

/-- `t` stands at `i`, is eligible, and others rank above it or alike and not later. -/
def Best (ts : List T) (t : T) : Prop := ∃ i : ℕ, ts[i]? = some t ∧ eligible t ∧
    ∀ (j : ℕ) (u : T), ts[j]? = some u → eligible u → rank t < rank u ∨ (rank t = rank u ∧ j ≤ i)

omit [DecidablePred eligible] in
lemma best_unique {t u : T} (ht : Best rank eligible ts t) (hu : Best rank eligible ts u) : t = u := by
  obtain ⟨i,hi,hte,hti⟩ := ht
  obtain ⟨j,hj,hue,huj⟩ := hu
  have h₁ := hti j u hj hue
  have h₂ := huj i t hi hte
  have hij : i = j := by
    rcases h₁ with h₁ | ⟨h₁,h₁'⟩ <;> rcases h₂ with h₂ | ⟨h₂,h₂'⟩
    · exact absurd h₂ h₁.not_gt
    · exact absurd h₁ (by simp [h₂])
    · exact absurd h₂ (by simp [h₁])
    · exact le_antisymm h₂' h₁'
  subst hij
  exact Option.some.inj (hi.symm.trans hj)

omit [DecidablePred eligible] in
lemma Best.le {t u : T} (h : Best rank eligible ts t) (hu : u ∈ ts) (he : eligible u) : rank t ≤ rank u := by
  obtain ⟨i,-,-,ha⟩ := h
  obtain ⟨j,hj⟩ := getElem?_of_mem hu
  rcases ha j u hj he with hlt | ⟨heq,-⟩
  · exact hlt.le
  · exact heq.le

lemma getElem?_concat_eq_some {n u : T} {j : ℕ} :
    (ts ++ [n])[j]? = some u ↔ ts[j]? = some u ∨ (j = ts.length ∧ u = n) := by
  rw [getElem?_append]
  split_ifs with hj
  · simp [hj.ne]
  · rw [List.getElem?_eq_none (not_lt.mp hj),getElem?_singleton]
    constructor
    · intro he
      split_ifs at he with h0
      exact Or.inr ⟨by omega,(Option.some.inj he).symm⟩
    · rintro (he | ⟨rfl,rfl⟩)
      · simp at he
      · simp

omit [DecidablePred eligible] in
lemma Best.concat {t n : T} (h : Best rank eligible ts t) (hn : eligible n → rank t < rank n) :
    Best rank eligible (ts ++ [n]) t := by
  obtain ⟨i,hi,hte,hti⟩ := h
  refine ⟨i,getElem?_concat_eq_some.mpr (Or.inl hi),hte,?_⟩
  intro j u hj hu
  rcases getElem?_concat_eq_some.mp hj with hj | ⟨rfl,rfl⟩
  · exact hti j u hj hu
  · exact Or.inl (hn hu)

omit [DecidablePred eligible] in
lemma best_concat_self {n : T} (hn : eligible n) (h : ∀ u ∈ ts, eligible u → rank n ≤ rank u) :
    Best rank eligible (ts ++ [n]) n := by
  refine ⟨ts.length,getElem?_concat_eq_some.mpr (Or.inr ⟨rfl,rfl⟩),hn,?_⟩
  intro j u hj hu
  rcases getElem?_concat_eq_some.mp hj with hj | ⟨rfl,rfl⟩
  · have hle := (List.getElem?_eq_some_iff.mp hj).1.le
    exact (h u (mem_of_getElem? hj) hu).lt_or_eq.imp_right fun heq => ⟨heq,hle⟩
  · exact Or.inr ⟨rfl,le_rfl⟩

lemma best_of_choice (ts : List T) (t : T) (h : choice rank eligible ts = some t) : Best rank eligible ts t := by
  induction ts using reverseRecOn generalizing t with
  | nil => simp at h
  | append_singleton ts n ih =>
    rw [choice_concat] at h
    by_cases hn : eligible n
    · cases hc : choice rank eligible ts with
      | none =>
        rw [hc,challenge_none rank eligible hn] at h
        cases h
        have hno := (choice_eq_none_iff rank eligible ts).mp hc
        exact best_concat_self rank eligible hn fun u hu he => absurd he (hno u hu)
      | some b =>
        rw [hc,challenge_some rank eligible hn] at h
        split_ifs at h with hr
        · obtain rfl := Option.some.inj h
          exact (ih b hc).concat rank eligible fun _ => hr
        · cases h
          exact best_concat_self rank eligible hn fun u hu he =>
            (not_lt.mp hr).trans ((ih b hc).le rank eligible hu he)
    · rw [challenge_ineligible rank eligible hn] at h
      exact (ih t h).concat rank eligible fun he => absurd he hn

/-- The incremental choice is the best candidate of the whole history. -/
lemma choice_eq_some_iff (ts : List T) (t : T) : choice rank eligible ts = some t ↔ Best rank eligible ts t := by
  constructor
  · exact best_of_choice rank eligible ts t
  · intro ht
    cases hc : choice rank eligible ts with
    | none =>
      obtain ⟨i,hi,hte,-⟩ := ht
      exact absurd hte ((choice_eq_none_iff rank eligible ts).mp hc t (mem_of_getElem? hi))
    | some u => rw [best_unique rank eligible (best_of_choice rank eligible ts u hc) ht]

end Qbox.PriorityChoice
