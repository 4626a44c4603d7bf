import Mathlib.Tactic

/-! Searching and cutting strings, over any alphabet. -/
namespace Qbox.StringSearch
variable {α : Type} [DecidableEq α]

/-- `find`: the first position at which the pattern occurs. -/
def find (pat : List α) : List α → Option ℕ
  | [] => if pat = [] then some 0 else none
  | a :: l => if pat <+: a :: l then some 0 else (find pat l).map (·+1)

/-- `substr` to the end; a position behind the end is out of range. -/
def substr (l : List α) (pos : ℕ) : Option (List α) := if pos ≤ l.length then some (l.drop pos) else none

/-- `substr(0, find_last_of(a))`: what stands before the last `a`, or all of the string. -/
def beforeLast (a : α) : List α → List α
  | [] => []
  | b :: l => if a ∈ l ∨ b ≠ a then b :: beforeLast a l else []

variable {pat l : List α}

lemma find_eq_some_zero : find pat l = some 0 ↔ pat <+: l := by
  cases l with
  | nil | cons a l => simp [find]

lemma find_isSome : (find pat l).isSome = true ↔ pat <:+: l := by
  induction l with
  | nil =>
    rw [find,List.infix_nil]
    split <;> simp [*]
  | cons a l ih =>
    rw [find,List.infix_cons_iff]
    split
    · simp [*]
    · simp [*]

lemma find_eq_none : find pat l = none ↔ ¬pat <:+: l := by
  rw [← find_isSome,Option.isSome_iff_ne_none,not_not]

end Qbox.StringSearch
